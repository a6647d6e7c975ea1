import VersionMatch.Proofs.Cutting

/- The grammar of version strings from the top: clauses between single blanks, ranges between
   ampersands, a version with at most one modifier, segments between separators. -/
namespace VersionMatch

/-- One item, or several with exactly one joint between neighbours. -/
inductive Joined (Joint : CodePoint → Prop) (Item : Text → Prop) : Text → Prop where
  | last {t : Text} (item : Item t) : Joined Joint Item t
  | step {t rest : Text} {c : CodePoint} (item : Item t) (joint : Joint c)
      (tail : Joined Joint Item rest) : Joined Joint Item (t ++ c :: rest)

abbrev separators : Text := ['.', '_', '-']

abbrev marks : Text := ['+', '*']

abbrev reserved : Text := ['&', '+', '*']

/-- A character that has no meaning of its own on any level. -/
def IsPlain (c : CodePoint) : Prop :=
  isBlank c = false ∧ c ∉ separators ∧ c ∉ reserved

def IsSegment (t : Text) : Prop := t ≠ [] ∧ ∀ c ∈ t, IsPlain c

def IsVersionText : Text → Prop := Joined (· ∈ separators) IsSegment

inductive IsRangeText : Text → Prop where
  | bare {v : Text} (version : IsVersionText v) : IsRangeText v
  | marked {v : Text} {m : CodePoint} (version : IsVersionText v) (mark : m ∈ marks) :
      IsRangeText (v ++ [m])

def IsClauseText : Text → Prop := Joined (· = '&') IsRangeText

def IsSpecificationText : Text → Prop := Joined (isBlank · = true) IsClauseText

variable {Joint : CodePoint → Prop} {Item : Text → Prop} {isCut : CodePoint → Bool}

theorem joined_chars {P : CodePoint → Prop} (items : ∀ t, Item t → ∀ c ∈ t, P c)
    (joints : ∀ c, Joint c → P c) {t : Text} (joined : Joined Joint Item t) : ∀ c ∈ t, P c := by
  induction joined with
  | last item => exact items _ item
  | step item joint tail ih =>
    intro c mem
    rcases List.mem_append.mp mem with inside | later
    · exact items _ item c inside
    · rcases List.mem_cons.mp later with same | later
      · exact same ▸ joints _ joint
      · exact ih c later

theorem joined_iff_parts (joints : ∀ c, Joint c ↔ isCut c = true)
    (items : ∀ t, Item t → Uncut isCut t) {t : Text} :
    Joined Joint Item t ↔ ∀ p ∈ parts isCut t, Item p := by
  constructor
  · intro joined
    induction joined with
    | last item => simpa [parts_uncut (items _ item)] using item
    | step item joint tail ih =>
      simpa [parts_append_cut (items _ item) ((joints _).mp joint)] using ⟨item, ih⟩
  · intro all
    induction t using cut_induction isCut with
    | last p uncut => exact .last (all p (by simp [parts_uncut uncut]))
    | step p c t uncut cut ih =>
      simp only [parts_append_cut uncut cut, List.mem_cons, forall_eq_or_imp] at all
      exact .step all.1 ((joints c).mpr cut) (ih all.2)

theorem version_chars {t : Text} (version : IsVersionText t) :
    ∀ c ∈ t, isBlank c = false ∧ c ∉ reserved := by
  have joints : ∀ c ∈ separators, isBlank c = false ∧ c ∉ reserved := by
    simp only [List.forall_mem_cons, List.not_mem_nil, false_implies, implies_true]
    decide
  exact joined_chars (fun _ segment c mem => ⟨(segment.2 c mem).1, (segment.2 c mem).2.2⟩)
    joints version

theorem range_chars {t : Text} (range : IsRangeText t) :
    ∀ c ∈ t, isBlank c = false ∧ c ≠ '&' := by
  have chars : ∀ v, IsVersionText v → ∀ c ∈ v, isBlank c = false ∧ c ≠ '&' := by
    intro v version c mem
    have plain := version_chars version c mem
    exact ⟨plain.1, fun same => plain.2 (by simp [same])⟩
  have marked : ∀ c ∈ marks, isBlank c = false ∧ c ≠ '&' := by
    simp only [List.forall_mem_cons, List.not_mem_nil, false_implies, implies_true]
    decide
  cases range with
  | bare version => exact chars _ version
  | @marked v m version mark =>
    intro c mem
    rcases List.mem_append.mp mem with inside | last
    · exact chars v version c inside
    · rw [List.mem_singleton.mp last]
      exact marked m mark

theorem clause_chars {t : Text} (clause : IsClauseText t) : ∀ c ∈ t, isBlank c = false := by
  have joint : ∀ c : CodePoint, c = '&' → isBlank c = false := by
    intro c same
    rw [same]
    decide
  exact joined_chars (fun _ range c mem => (range_chars range c mem).1) joint clause

end VersionMatch
