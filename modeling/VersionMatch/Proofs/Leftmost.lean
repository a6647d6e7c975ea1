import VersionMatch.Proofs.Misreading
import Mathlib.Order.Bounds.Basic

/- Where a version-id that cannot be read goes wrong first, said by its starts alone: at the first
   character behind which no version-id goes on, and if there is none, at its end. -/
namespace VersionMatch

def Continues (t : Text) : Prop := ∃ u, IsVersionText (t ++ u)

/-- The places of a text behind which no version-id goes on. -/
def deadEnds (t : Text) : Set Nat := {p | p < t.length ∧ ¬ Continues (t.take (p + 1))}

/-- A fault that names the first dead end, or the end of a text that has none. -/
structure Leftmost (t : Text) (offset : Int) (f : Fault) : Prop where
  empty : t = [] → f = .malformed .emptyVersionId offset []
  first : ∀ p, IsLeast (deadEnds t) p → ∃ c, t[p]? = some c ∧
    ((isBlank c = true ∨ c ∈ reserved) ∧ f = .malformed .strayCharacter (offset + p) [c] ∨
      c ∈ separators ∧ f = .malformed .emptyToken (offset + p) t)
  last : t ≠ [] → deadEnds t = ∅ → (∀ n, Continues (t.take n)) ∧
    (∃ front, ∃ c ∈ separators, t = front ++ [c]) ∧
      f = .malformed .trailingSeparator (offset + t.length - 1) t

theorem kind_plain_or_separator_iff {c : CodePoint} : Kind.of c = .plain ∨ Kind.of c = .separator ↔
    isBlank c = false ∧ c ∉ reserved := by
  rw [kind_plain_iff, kind_separator_iff, plain_iff, mem_reserved_iff, Bool.not_eq_true]
  constructor
  · intro kind
    rcases kind with ⟨shown, _, unreserved⟩ | separator
    · exact ⟨shown, unreserved⟩
    · constructor
      · by_contra blank
        simp [(blank_alone (by simpa using blank)).1] at separator
      · by_contra reserved
        have kind := kind_separator_iff.mpr separator
        revert kind reserved
        simp only [isReserved, Bool.not_eq_false, Bool.or_eq_true, beq_iff_eq]
        rintro ((rfl | rfl) | rfl) <;> decide
  · intro fits
    cases separator : isSeparator c with
    | true => exact .inr rfl
    | false => exact .inl ⟨fits.1, rfl, fits.2⟩

theorem continues_iff_start {t : Text} : Continues t ↔ IsVersionStart t := by
  constructor
  · intro continues
    obtain ⟨u, version⟩ := continues
    obtain ⟨chars, fits⟩ := version_iff_fits.mp version
    refine ⟨ List.IsChain.prefix fits ⟨kinds u ++ [.mark], by simp⟩, fun c mem => ?_⟩
    exact kind_plain_or_separator_iff.mpr (chars c (List.mem_append_left u mem))
  · intro start
    -- A digit may stand behind every start, and it ends a version-id.
    have digit : Kind.of '1' = .plain := by decide
    have longer := version_start_plain start (kind_plain_iff.mp digit)
    refine ⟨['1'], version_iff_fits.mpr ⟨fun c mem => ?_, ?_⟩⟩
    · exact kind_plain_or_separator_iff.mp (longer.characters c mem)
    · rw [fits_append_cons, digit]
      exact ⟨digit ▸ (version_start_iff.mp longer).1, fits_nil.mpr rfl⟩

theorem start_of_front {s t : Text} (shorter : s <+: t) (start : IsVersionStart t) :
    IsVersionStart s := by
  obtain ⟨u, rfl⟩ := shorter
  refine ⟨ List.IsChain.prefix start.clashless ⟨kinds u, by simp⟩, fun c mem => ?_⟩
  exact start.characters c (List.mem_append_left u mem)

theorem no_dead_end {t : Text} (start : IsVersionStart t) : deadEnds t = ∅ := by
  ext p
  simp only [deadEnds, Set.mem_ofPred_eq, Set.mem_empty_iff_false, iff_false, not_and, not_not]
  intro inside
  exact continues_iff_start.mpr (start_of_front (List.take_prefix (p + 1) t) start)

theorem least_dead_end {front : Text} (start : IsVersionStart front) {c : CodePoint}
    (past : ¬ IsVersionStart (front ++ [c])) (rest : Text) :
    IsLeast (deadEnds (front ++ c :: rest)) front.length := by
  constructor
  · have here : (front ++ c :: rest).take (front.length + 1) = front ++ [c] := by
      rw [List.take_length_add_append, List.take_succ_cons, List.take_zero]
    exact ⟨by simp, by rwa [here, continues_iff_start]⟩
  · intro p dead
    obtain ⟨inside, stuck⟩ := dead
    by_contra before
    apply stuck
    have taken : (front ++ c :: rest).take (p + 1) = front.take (p + 1) :=
      List.take_append_of_le_length (by omega)
    rw [taken, continues_iff_start]
    exact start_of_front (List.take_prefix (p + 1) front) start

theorem first_at {t : Text} {offset : Int} {f : Fault} {i : Nat} (least : IsLeast (deadEnds t) i)
    (nonempty : t ≠ []) {c : CodePoint} (here : t[i]? = some c)
    (told : (isBlank c = true ∨ c ∈ reserved) ∧
        f = .malformed .strayCharacter (offset + i) [c] ∨
      c ∈ separators ∧ f = .malformed .emptyToken (offset + i) t) : Leftmost t offset f where
  empty := fun none => absurd none nonempty
  first := by
    intro p other
    rw [other.unique least]
    exact ⟨c, here, told⟩
  last := by
    intro _ none
    have dead := least.1
    simp [none] at dead

theorem misread_leftmost {t fragment : Text} {cause : Cause} {i : Nat} (offset : Int)
    (misread : Misread t cause i fragment) :
    Leftmost t offset (.malformed cause (offset + i) fragment) := by
  cases misread with
  | empty =>
    refine ⟨fun _ => by simp, ?_, fun some => absurd rfl some⟩
    intro p least
    have dead := least.1.1
    simp at dead
  | @stray front rest c start misfit =>
    rw [← mem_reserved_iff] at misfit
    have past : ¬ IsVersionStart (front ++ [c]) := by
      intro longer
      have fits := kind_plain_or_separator_iff.mp (longer.characters c (by simp))
      rcases misfit with reserved | blank
      · exact fits.2 reserved
      · simp [fits.1] at blank
    exact first_at (least_dead_end start past rest) (by simp) (by simp)
      (.inl ⟨misfit.symm, rfl⟩)
  | @emptyToken front rest c start separator past =>
    rw [← mem_separators_iff] at separator
    exact first_at (least_dead_end start past rest) (by simp) (by simp) (.inr ⟨separator, rfl⟩)
  | @trailing front c start separator =>
    have none := no_dead_end start
    refine ⟨fun empty => absurd empty (by simp), ?_, fun _ _ => ⟨?_, ?_, ?_⟩⟩
    · intro p least
      have dead := least.1
      simp [none] at dead
    · intro n
      exact continues_iff_start.mpr (start_of_front (List.take_prefix n _) start)
    · exact ⟨front, c, (mem_separators_iff c).mpr separator, rfl⟩
    · have place : offset + front.length = offset + (front ++ [c]).length - 1 := by
        rw [List.length_append, List.length_singleton]
        omega
      rw [place]

theorem tokenize_fault_leftmost {t : Text} {offset : Int} {f : Fault}
    (failed : tokenize t offset = .error f) : Leftmost t offset f := by
  obtain ⟨cause, i, fragment, rfl, misread⟩ := tokenize_misread failed
  exact misread_leftmost offset misread

theorem doubled_point_leftmost : tokenize "1.4..2+".text 3 =
      .error (.malformed .emptyToken 7 "1.4..2+".text) ∧
    IsLeast (deadEnds "1.4..2+".text) 4 ∧
      Leftmost "1.4..2+".text 3 (.malformed .emptyToken 7 "1.4..2+".text) := by
  have failed : tokenize "1.4..2+".text 3 =
      .error (.malformed .emptyToken 7 "1.4..2+".text) := by decide +kernel
  have start : IsVersionStart "1.4.".text := continues_iff_start.mp ⟨['2'], by decide⟩
  have past : ¬ IsVersionStart ("1.4.".text ++ [.char '.']) := by
    intro longer
    have clashless := longer.clashless
    simp [Clashless, kinds, Kind.of, Kind.mayPrecede, isSeparator, isReserved, String.text,
      Text.ofCharacters] at clashless
  exact ⟨failed, least_dead_end start past "2+".text, tokenize_fault_leftmost failed⟩

end VersionMatch
