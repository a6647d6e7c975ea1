import VersionMatch.Proofs.Acceptance
import Mathlib.Data.List.Count

/- The parts of a specification lie side by side in its text: nothing between two of them but
   one joint, nothing in front and nothing behind, on every level. -/
namespace VersionMatch

/-- The parts in order, with exactly one joint between neighbours. -/
inductive Tiles (Joint : CodePoint → Prop) : List Text → Text → Prop where
  | last (p : Text) : Tiles Joint [p] p
  | step {p t : Text} {c : CodePoint} {ps : List Text} (joint : Joint c) (tail : Tiles Joint ps t) :
      Tiles Joint (p :: ps) (p ++ c :: t)

variable {isCut : CodePoint → Bool}

theorem tiles_parts (isCut : CodePoint → Bool) (t : Text) :
    Tiles (isCut · = true) (parts isCut t) t := by
  induction t using cut_induction isCut with
  | last p uncut => exact parts_uncut uncut ▸ .last p
  | step p c t uncut cut ih => exact parts_append_cut uncut cut t ▸ .step cut ih

theorem uncut_count {t : Text} (uncut : Uncut isCut t) : t.countP isCut = 0 :=
  List.countP_eq_zero.mpr fun c mem => by simp [uncut c mem]

theorem parts_length (isCut : CodePoint → Bool) (t : Text) :
    (parts isCut t).length = 1 + t.countP isCut := by
  induction t using cut_induction isCut with
  | last p uncut => simp [parts_uncut uncut, uncut_count uncut]
  | step p c t uncut cut ih =>
    rw [parts_append_cut uncut cut, List.length_cons, ih, List.countP_append, uncut_count uncut,
      List.countP_cons_of_pos cut]
    omega

theorem tiles_join {ps : List Text} {t : Text} {c : CodePoint} (tiles : Tiles (· = c) ps t) :
    List.intercalate [c] ps = t := by
  induction tiles with
  | last p => simp
  | @step p t d ps joint tail ih =>
    subst joint
    cases tail with
    | last => simp [List.intercalate_cons_cons]
    | step => rw [List.intercalate_cons_cons, ih]; simp

theorem texts_of_related {α : Type} {R : Text → α → Prop} {text : α → Text} {ps : List Text}
    {xs : List α} (related : List.Forall₂ R ps xs) (kept : ∀ p x, R p x → text x = p) :
    xs.map text = ps ∧ ∀ x ∈ xs, R (text x) x := by
  have texts : xs.map text = ps := by
    induction related with
    | nil => rfl
    | cons first _ ih => rw [List.map_cons, kept _ _ first, ih]
  refine ⟨texts, ?_⟩
  rw [← texts, List.forall₂_map_left_iff, List.forall₂_same] at related
  exact related

structure Covers (s : Specification) (t : Text) : Prop where
  whole : s.text = t
  clauses : Tiles (isBlank · = true) (s.clauses.map Clause.text) t
  ranges : ∀ c ∈ s.clauses, List.intercalate [.char '&'] (c.ranges.map Range.text) = c.text
  modifiers : ∀ c ∈ s.clauses, ∀ r ∈ c.ranges, r.text = r.version.text ++
    match r.modifier with
    | .exact => []
    | .atLeast => ['+']
    | .startsWith => ['*']
  versions : ∀ c ∈ s.clauses, ∀ r ∈ c.ranges, ∀ d ∈ r.version.text,
    isBlank d = false ∧ d ∉ reserved
  clauseCount : s.clauses.length = 1 + t.countP isBlank
  single : s.isSingle = true ↔ ∀ d ∈ t, isBlank d = false
  rangeCount : ∀ c ∈ s.clauses, c.ranges.length = 1 + c.text.count (.char '&')

theorem parsed_parts_cover_text {t : Text} {s : Specification}
    (parsed : Specification.parse (some t) = .ok s) : Covers s t := by
  obtain ⟨whole, read⟩ := specification_parse_ok_iff.mp parsed
  obtain ⟨clauseTexts, clauses⟩ := texts_of_related read fun _ _ clause => clause.1
  have clauseCount : s.clauses.length = 1 + t.countP isBlank := by
    rw [← read.length_eq, parts_length]
  have ranges : ∀ c ∈ s.clauses, c.ranges.map Range.text = parts (· == .char '&') c.text ∧
      ∀ r ∈ c.ranges, ReadsRange r.text r :=
    fun c mem => texts_of_related (clauses c mem).2 fun _ _ range => range.text
  refine ⟨whole, clauseTexts ▸ tiles_parts isBlank t, ?_, ?_, ?_, clauseCount, ?_, ?_⟩
  · intro c mem
    rw [(ranges c mem).1]
    exact tiles_join (by simpa using tiles_parts (· == .char '&') c.text)
  · intro c _ r _
    rw [r.spelled]
    cases r.modifier <;> rfl
  · intro c memC r memR
    have read := (ranges c memC).2 r memR
    exact version_chars (version_read_iff.mp ⟨r.version, rfl, read.version⟩)
  · rw [Specification.isSingle, clauseCount, beq_iff_eq, Nat.add_eq_left, List.countP_eq_zero]
    simp only [Bool.not_eq_true]
  · intro c mem
    rw [← List.length_map Range.text, (ranges c mem).1, parts_length, List.count]

theorem cover_of_two_clauses :
    ∃ s, Specification.parse (some "1.4.0_04 1.4*&1.4.1_02+".text) = .ok s ∧
      Covers s "1.4.0_04 1.4*&1.4.1_02+".text := by
  have accepted : (Specification.parse (some "1.4.0_04 1.4*&1.4.1_02+".text)).map
      (fun _ => ()) = .ok () := by decide +kernel
  obtain ⟨s, parsed, _⟩ := map_ok_iff.mp accepted
  exact ⟨s, parsed, parsed_parts_cover_text parsed⟩

end VersionMatch
