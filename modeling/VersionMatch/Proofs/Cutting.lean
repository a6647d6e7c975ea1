import VersionMatch.Text.Basic
import Mathlib.Data.List.Basic

/- What cutting a text at a class of characters yields, said of the text alone. The parts
   are the stretches without a cut that reach as far as they can on both sides. -/
namespace VersionMatch

variable {isCut : CodePoint → Bool}

def parts (isCut : CodePoint → Bool) (t : Text) : List Text :=
  (cutAt isCut t).1 :: (cutAt isCut t).2

def Uncut (isCut : CodePoint → Bool) (t : Text) : Prop := ∀ c ∈ t, isCut c = false

/-- A stretch of `t` without cuts, with a cut or an end of `t` on both sides. -/
def IsMaximal (isCut : CodePoint → Bool) (p t : Text) : Prop :=
  ∃ before after, t = before ++ p ++ after ∧ Uncut isCut p ∧
    (∀ c ∈ before.getLast?, isCut c = true) ∧ (∀ c ∈ after.head?, isCut c = true)

theorem uncut_cons {c : CodePoint} {t : Text} :
    Uncut isCut (c :: t) ↔ isCut c = false ∧ Uncut isCut t := by
  simp [Uncut]

theorem parts_append {p : Text} (uncut : Uncut isCut p) (t : Text) :
    parts isCut (p ++ t) = (p ++ (cutAt isCut t).1) :: (cutAt isCut t).2 := by
  induction p with
  | nil => rfl
  | cons c p ih =>
    obtain ⟨kept, rest⟩ := uncut_cons.mp uncut
    have tail := ih rest
    simp only [parts, List.cons.injEq] at tail
    simp [parts, cutAt, kept, tail.1, tail.2]

theorem parts_uncut {t : Text} (uncut : Uncut isCut t) : parts isCut t = [t] := by
  simpa [cutAt] using parts_append uncut []

theorem parts_append_cut {p : Text} (uncut : Uncut isCut p) {c : CodePoint} (cut : isCut c = true)
    (t : Text) : parts isCut (p ++ c :: t) = p :: parts isCut t := by
  rw [parts_append uncut]
  simp [cutAt, cut, parts]

theorem parts_intercalate {c : CodePoint} (cut : isCut c = true) {ps : List Text}
    (some : ps ≠ []) (uncut : ∀ p ∈ ps, Uncut isCut p) : parts isCut ([c].intercalate ps) = ps := by
  induction ps with
  | nil => contradiction
  | cons p ps ih =>
    obtain ⟨first, others⟩ := List.forall_mem_cons.mp uncut
    cases ps with
    | nil => rw [List.intercalate_singleton, parts_uncut first]
    | cons q ps =>
      rw [List.intercalate_cons_cons, List.append_assoc, List.singleton_append,
        parts_append_cut first cut, ih (List.cons_ne_nil q ps) others]

/- Every text is one uncut stretch, or an uncut stretch, a cut and a shorter text. -/
theorem cut_induction {motive : Text → Prop} (isCut : CodePoint → Bool)
    (last : ∀ p, Uncut isCut p → motive p)
    (step : ∀ p c t, Uncut isCut p → isCut c = true → motive t → motive (p ++ c :: t))
    (t : Text) : motive t := by
  -- The stretch in front of `t` that has been read is uncut and not yet ended.
  suffices ∀ p, Uncut isCut p → motive (p ++ t) from this [] (by simp [Uncut])
  induction t with
  | nil => intro p uncut; simpa using last p uncut
  | cons c t ih =>
    intro p uncut
    cases cut : isCut c with
    | true => exact step p c t uncut cut (ih [] (by simp [Uncut]))
    | false =>
      have longer : Uncut isCut (p ++ [c]) := by
        intro d mem
        rcases List.mem_append.mp mem with old | new
        · exact uncut d old
        · rw [List.mem_singleton.mp new, cut]
      simpa using ih (p ++ [c]) longer

theorem parts_join {c : CodePoint} (cut : isCut c = true) (s t : Text) :
    parts isCut (s ++ c :: t) = parts isCut s ++ parts isCut t := by
  induction s using cut_induction isCut with
  | last p uncut => rw [parts_append_cut uncut cut, parts_uncut uncut, List.singleton_append]
  | step p d s uncut cutD ih =>
    rw [List.append_assoc, List.cons_append, parts_append_cut uncut cutD,
      parts_append_cut uncut cutD, ih, List.cons_append]

theorem uncut_front_unique {p q s t : Text} (uncutP : Uncut isCut p) (uncutQ : Uncut isCut q)
    (cutS : ∀ c ∈ s.head?, isCut c = true) (cutT : ∀ c ∈ t.head?, isCut c = true)
    (same : p ++ s = q ++ t) : p = q := by
  induction p generalizing q with
  | nil =>
    cases q with
    | nil => rfl
    | cons d q =>
      obtain ⟨kept, _⟩ := uncut_cons.mp uncutQ
      have cut := cutS d (by simpa using congrArg List.head? same)
      simp [kept] at cut
  | cons c p ih =>
    obtain ⟨kept, rest⟩ := uncut_cons.mp uncutP
    cases q with
    | nil =>
      have cut := cutT c (by simpa using (congrArg List.head? same).symm)
      simp [kept] at cut
    | cons d q =>
      obtain ⟨rfl, tails⟩ := List.cons.inj same
      rw [ih rest (uncut_cons.mp uncutQ).2 tails]

theorem cut_end_outside {before after q : Text} (cutEnd : ∀ c ∈ before.getLast?, isCut c = true)
    (uncut : Uncut isCut q) (inside : q = before ++ after) : before = [] := by
  cases last : before.getLast? with
  | none => simpa using last
  | some c =>
    have kept := uncut c (inside ▸ List.mem_append_left after (List.mem_of_getLast? last))
    simp [cutEnd c last] at kept

theorem maximal_in_uncut {t p : Text} (uncut : Uncut isCut t) : IsMaximal isCut p t ↔ p = t := by
  constructor
  · intro maximal
    obtain ⟨before, after, rfl, whole, cutBefore, cutAfter⟩ := maximal
    have noBefore := cut_end_outside cutBefore uncut (List.append_assoc before p after)
    subst noBefore
    exact uncut_front_unique whole uncut cutAfter (t := []) (by simp) (by simp)
  · intro whole
    rw [whole]
    exact ⟨[], [], by simp, uncut, by simp, by simp⟩

theorem maximal_after_cut {p q t : Text} {c : CodePoint} (uncut : Uncut isCut q)
    (cut : isCut c = true) : IsMaximal isCut p (q ++ c :: t) ↔ p = q ∨ IsMaximal isCut p t := by
  constructor
  · intro maximal
    obtain ⟨before, after, same, whole, cutBefore, cutAfter⟩ := maximal
    rw [List.append_assoc] at same
    -- Where `before` is not empty it ends in a cut, so it holds `q` and the cut after it.
    rcases List.append_eq_append_iff.mp same with ⟨u, eq, tail⟩ | ⟨u, eq, tail⟩
    · cases u with
      | nil =>
        left
        have none := cut_end_outside cutBefore uncut (by simp [eq] : q = before ++ [])
        subst none
        exact uncut_front_unique whole uncut cutAfter (by simp [cut]) same.symm
      | cons e u =>
        right
        obtain ⟨rfl, rest⟩ := List.cons.inj tail
        refine ⟨u, after, by simpa using rest, whole, ?_, cutAfter⟩
        intro f last
        exact cutBefore f (by rw [eq]; cases u <;> simp_all)
    · left
      have none := cut_end_outside cutBefore uncut eq
      subst none
      exact uncut_front_unique whole uncut cutAfter (by simp [cut]) same.symm
  · intro either
    rcases either with rfl | ⟨before, after, rfl, whole, cutBefore, cutAfter⟩
    · exact ⟨[], c :: t, by simp, uncut, by simp, by simp [cut]⟩
    · refine ⟨q ++ c :: before, after, by simp, whole, ?_, cutAfter⟩
      intro f last
      cases before with
      | nil => simp_all
      | cons d before => exact cutBefore f (by simpa using last)

theorem mem_parts_iff_maximal {t p : Text} : p ∈ parts isCut t ↔ IsMaximal isCut p t := by
  induction t using cut_induction isCut with
  | last q uncut => rw [parts_uncut uncut, maximal_in_uncut uncut, List.mem_singleton]
  | step q c t uncut cut ih =>
    rw [parts_append_cut uncut cut, maximal_after_cut uncut cut, List.mem_cons, ih]

theorem pieces_uncut {p : Text} (uncut : Uncut isCut p) (start : Int) :
    pieces isCut start p = [⟨start, p⟩] :=
  congrArg (placed start) (parts_uncut uncut)

theorem pieces_append_cut {p : Text} (uncut : Uncut isCut p) {c : CodePoint} (cut : isCut c = true)
    (t : Text) (start : Int) :
    pieces isCut start (p ++ c :: t) = ⟨start, p⟩ :: pieces isCut (start + p.length + 1) t :=
  congrArg (placed start) (parts_append_cut uncut cut t)

theorem placed_texts (start : Int) (ps : List Text) : (placed start ps).map Piece.text = ps := by
  induction ps generalizing start with
  | nil => rfl
  | cons p ps ih => simp [placed, ih]

theorem pieces_texts (start : Int) (t : Text) :
    (pieces isCut start t).map Piece.text = parts isCut t :=
  placed_texts start _

end VersionMatch
