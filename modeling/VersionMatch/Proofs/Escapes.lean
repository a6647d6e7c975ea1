import VersionMatch.Proofs.Loading

/- Which failures of a load are not reported as faults of the configuration: those of the path, of
   the octets and of the limits of the reader. Nothing that can be said of a document escapes. -/
namespace VersionMatch

/-- The load comes to an end that its callers are prepared for. -/
def Reported (outcome : Except LoadFault ConstraintSet) : Prop :=
  (∃ set, outcome = .ok set) ∨ ∃ f, outcome = .error f ∧ f.isConfiguration = true

/-- What is found where the file should be, and cannot be reported. -/
inductive Escapes (nesting : Nat) : Reading → Prop where
  | longName : Escapes nesting .longName
  | noText {bytes : List UInt8} (foreign : ∀ t, Utf8.encode t ≠ bytes) :
      Escapes nesting (.octets bytes)
  | beyondLimit {t : Characters} {f : Json.ReadFault}
      (stopped : Json.read nesting t.withLineFeeds = .error f) (limit : f.problem.isLimit = true) :
      Escapes nesting (.octets (Utf8.encode t))

theorem document_outcome_reported {validator : Validator} {document : Json}
    (reported : constraintsSchema.Findings document (validator constraintsSchema document)) :
    Reported (documentOutcome validator document) := by
  cases outcome : documentOutcome validator document with
  | ok set => exact .inl ⟨set, rfl⟩
  | error f =>
    refine .inr ⟨f, rfl, ?_⟩
    rcases bind_error_iff.mp outcome with invalid | ⟨_, valid, failed⟩
    · unfold ConstraintSet.validate at invalid
      split at invalid
      · cases invalid
      · cases invalid
        rfl
    · obtain ⟨es, lists⟩ := (validate_ok_iff reported).mp valid
      rw [ConstraintSet.entriesOf, lists.entries] at failed
      obtain ⟨_, _, _, _, _, _, reason⟩ := entries_rejected lists.each (map_error_iff.mp failed)
      exact (rejection_reported reason).1

theorem reported_of_configuration {f : LoadFault} (configuration : f.isConfiguration = true) :
    Reported (.error f) :=
  .inr ⟨f, rfl, configuration⟩

theorem not_reported_of_other {f : LoadFault} (other : f.isConfiguration = false) :
    ¬ Reported (.error f) := by
  rintro (⟨set, same⟩ | ⟨g, same, configuration⟩)
  · cases same
  · cases same
    rw [other] at configuration
    cases configuration

theorem escapes_content_iff {nesting : Nat} {t : Characters} :
    Escapes nesting (.octets (Utf8.encode t)) ↔
      ∃ f, Json.read nesting t.withLineFeeds = .error f ∧ f.problem.isLimit = true := by
  constructor
  · intro escapes
    generalize octets : Reading.octets (Utf8.encode t) = reading at escapes
    cases escapes with
    | longName => cases octets
    | noText foreign =>
      cases octets
      exact absurd rfl (foreign t)
    | @beyondLimit u f stopped limit =>
      rw [Utf8.encode_injective (Reading.octets.inj octets)]
      exact ⟨f, stopped, limit⟩
  · rintro ⟨f, stopped, limit⟩
    exact .beyondLimit stopped limit

variable {w : Surroundings} (reliable : w.Reliable)
include reliable

theorem content_reported_iff {t : Characters} :
    Reported (ConstraintSet.readDocument w.nesting t.withLineFeeds >>=
        documentOutcome w.validator) ↔ ¬ Escapes w.nesting (.octets (Utf8.encode t)) := by
  rw [escapes_content_iff, ConstraintSet.readDocument]
  cases read : Json.read w.nesting t.withLineFeeds with
  | ok document =>
    exact iff_of_true (document_outcome_reported (reliable _ document read))
      (by rintro ⟨_, same, _⟩; cases same)
  | error f =>
    cases limit : f.problem.isLimit with
    | true =>
      simp only [limit, if_true, error_bind]
      exact iff_of_false (not_reported_of_other rfl) (not_not_intro ⟨f, rfl, limit⟩)
    | false =>
      simp only [limit, Bool.false_eq_true, if_false, error_bind]
      refine iff_of_true (reported_of_configuration rfl) ?_
      rintro ⟨g, same, passed⟩
      cases same
      rw [limit] at passed
      cases passed

theorem load_reported_iff (asked : Option Text) :
    Reported (ConstraintSet.load w asked).run.value ↔
      ¬ Escapes w.nesting (w.read (w.source asked).path) := by
  rw [load_value]
  cases w.read (w.source asked).path with
  | missing => exact ⟨fun _ => nofun, fun _ => reported_of_configuration rfl⟩
  | directory => exact ⟨fun _ => nofun, fun _ => reported_of_configuration rfl⟩
  | longName =>
    exact iff_of_false (not_reported_of_other rfl) (not_not_intro .longName)
  | octets bytes =>
    cases decoded : Utf8.decode bytes with
    | error f =>
      have foreign : ∀ t, Utf8.encode t ≠ bytes := by
        intro t same
        rw [Utf8.decode_ok_iff.mpr same] at decoded
        cases decoded
      rw [ConstraintSet.readText, decoded]
      exact iff_of_false (not_reported_of_other rfl) (not_not_intro (.noText foreign))
    | ok t =>
      rw [ConstraintSet.readText, decoded, ← Utf8.decode_ok_iff.mp decoded]
      exact content_reported_iff reliable

omit reliable

theorem empty_file_reported : (Surroundings.holding []).Reliable ∧
    Reported (ConstraintSet.load (.holding []) none).run.value := by
  have reliable := holding_reliable []
  have stopped : Json.read 3 (Characters.withLineFeeds []) = .error ⟨.expectingValue, 0⟩ := rfl
  refine ⟨reliable, (load_reported_iff reliable none).mpr (escapes_content_iff.not.mpr ?_)⟩
  rintro ⟨f, same, limit⟩
  cases stopped.symm.trans same
  cases limit

/- The octet ff begins no character, and a file of it alone ends the run. -/
theorem lone_octet_unreported : ¬ Reported (ConstraintSet.load
    ⟨[], none, fun _ => .octets [0xff], 3, Schema.validator, Utf8.encodeFault?⟩ none).run.value := by
  have failed : (ConstraintSet.load
      ⟨[], none, fun _ => .octets [0xff], 3, Schema.validator, Utf8.encodeFault?⟩ none).run.value =
      .error (.undecodable ⟨0xff, 0, 1, .badStart⟩) := by
    rw [load_value]
    rfl
  rw [failed]
  exact not_reported_of_other rfl

end VersionMatch
