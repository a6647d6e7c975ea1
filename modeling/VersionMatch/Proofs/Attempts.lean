import VersionMatch.Proofs.Localisation

/- An attempt to parse ends well or in one refusal, whatever it is given, and the kind of the
   refusal can be told from what was given. No text puts parts together that do not fit. -/
namespace VersionMatch

structure Settles (given : Option Text) (a : Attempt) : Prop where
  one : (∃ s, Specification.parse given = .ok s ∧ a.specification = some s ∧ a.refusal = none) ∨
    ∃ r, Specification.parse given = .error (.refused r) ∧ a.specification = none ∧
      a.refusal = some r
  nullInput : a.kind = some .nullInput ↔ given = none
  emptyInput : a.kind = some .emptyInput ↔ ∃ t, given = some t ∧ ∀ c ∈ t, isBlank c = true
  malformedGrammar : a.kind = some .malformedGrammar ↔ ∃ t, given = some t ∧
    (∃ c ∈ t, isBlank c = false) ∧ ∀ s, Specification.parse (some t) ≠ .ok s

theorem attempt_value (given : Option Text) : (Specification.attempt given).value =
    match Specification.parse given with
    | .ok s => Attempt.ofParts (some s) none
    | .error (.refused r) => Attempt.ofParts none (some r)
    | .error f => .error f := by
  unfold Specification.attempt Specification.read
  cases Specification.parse given with
  | ok s => rfl
  | error f => cases f <;> rfl

theorem parse_blank_iff {t : Text} :
    Specification.parse (some t) = .error (.refused .blank) ↔ ∀ c ∈ t, isBlank c = true := by
  constructor
  · intro failed
    rcases specification_refused failed with ⟨blank, _⟩ | ⟨_, _, _, same, _⟩
    · exact List.all_eq_true.mp blank
    · cases same
  · intro blank
    exact if_pos (List.all_eq_true.mpr blank)

theorem visible_iff {t : Text} : (∃ c ∈ t, isBlank c = false) ↔
    Specification.parse (some t) ≠ .error (.refused .blank) := by
  rw [ne_eq, parse_blank_iff]
  simp

theorem absent_settles : Settles none ⟨none, some .absent, by simp⟩ := by
  have kind : Attempt.kind ⟨none, some .absent, by simp⟩ = some .nullInput := rfl
  refine ⟨.inr ⟨.absent, rfl, rfl, rfl⟩, ?_, ?_, ?_⟩ <;> simp [kind]

theorem accepted_settles {t : Text} {s : Specification}
    (parsed : Specification.parse (some t) = .ok s) :
    Settles (some t) ⟨some s, none, by simp⟩ := by
  have kind : Attempt.kind ⟨some s, none, by simp⟩ = none := rfl
  refine ⟨.inl ⟨s, parsed, rfl, rfl⟩, ?_, ?_, ?_⟩
  · simp [kind]
  · simp [kind, ← parse_blank_iff, parsed]
  · simp [kind, parsed]

theorem refused_settles {t : Text} {r : Refusal}
    (failed : Specification.parse (some t) = .error (.refused r)) :
    Settles (some t) ⟨none, some r, by simp⟩ := by
  rcases specification_refused failed with ⟨_, same⟩ | ⟨cause, i, fragment, same, _⟩
  · cases same
    have kind : Attempt.kind ⟨none, some .blank, by simp⟩ = some .emptyInput := rfl
    refine ⟨.inr ⟨.blank, failed, rfl, rfl⟩, ?_, ?_, ?_⟩
    · simp [kind]
    · simp [kind, ← parse_blank_iff, failed]
    · simp [kind, visible_iff, failed]
  · generalize 0 + (i : Int) = position at same
    cases same
    have kind : Attempt.kind ⟨none, some (.malformed cause position fragment), by simp⟩ =
        some .malformedGrammar := rfl
    refine ⟨.inr ⟨_, failed, rfl, rfl⟩, ?_, ?_, ?_⟩
    · simp [kind]
    · simp [kind, ← parse_blank_iff, failed]
    · simp [kind, visible_iff, failed]

theorem version_parse_no_defect (given : Option Text) (offset : Int) (d : Defect) :
    VersionId.parse given offset ≠ .error (.defect d) := by
  intro failed
  cases given with
  | none => cases failed
  | some t =>
    obtain ⟨_, _, _, same, _⟩ := version_parse_misread failed
    contradiction

theorem specification_parse_no_defect (given : Option Text) (d : Defect) :
    Specification.parse given ≠ .error (.defect d) := by
  intro failed
  cases given with
  | none => cases failed
  | some t =>
    rcases specification_refused failed with ⟨_, same⟩ | ⟨_, _, _, same, _⟩
    · contradiction
    · contradiction

theorem attempt_settles (given : Option Text) :
    (∃ a, (Specification.attempt given).value = .ok a ∧ Settles given a) ∧
      (∀ d, Specification.parse given ≠ .error (.defect d)) ∧
      ∀ offset d, VersionId.parse given offset ≠ .error (.defect d) := by
  refine ⟨?_, specification_parse_no_defect given, version_parse_no_defect given⟩
  rw [attempt_value]
  cases given with
  | none => exact ⟨⟨none, some .absent, by simp⟩, rfl, absent_settles⟩
  | some t =>
    cases outcome : Specification.parse (some t) with
    | ok s => exact ⟨⟨some s, none, by simp⟩, rfl, accepted_settles outcome⟩
    | error f =>
      cases f with
      | refused r => exact ⟨⟨none, some r, by simp⟩, rfl, refused_settles outcome⟩
      | defect d => exact absurd outcome (specification_parse_no_defect (some t) d)

end VersionMatch
