import VersionMatch.Report
import VersionMatch.Proofs.Attempts

/- What a report and its exit status say of the candidates: every candidate has one result of its
   own, and the results fall into three kinds that the totals count. -/
namespace VersionMatch

structure Inquiry where
  specification : Specification
  name : Json
  candidates : List (Option Text)

def Inquiry.entry (q : Inquiry) : Except Fault (Traced Entry) :=
  q.specification.evaluate q.name q.candidates

def Inquiry.outcomes (q : Inquiry) : List (Except Fault Bool) :=
  q.candidates.map q.specification.contains

def Result.outcome (r : Result) : Except Fault Bool := r.verdict.mapError .refused

def Entry.outcomes (e : Entry) : List (Except Fault Bool) := e.results.map Result.outcome

def Answers (s : Specification) (candidate : Option Text) (r : Result) : Prop :=
  r.candidate = candidate ∧ s.contains candidate = r.outcome

theorem result_answers (s : Specification) (candidate : Option Text) :
    ∃ r, s.result candidate = .ok r ∧ Answers s candidate r.value := by
  unfold Specification.result Answers Specification.contains
  cases read : VersionId.parse candidate 0 with
  | ok v =>
    rw [s.checkText_of_read read]
    exact ⟨_, rfl, rfl, rfl⟩
  | error f =>
    rw [s.checkText_of_fault read]
    cases f with
    | refused r => exact ⟨_, rfl, rfl, rfl⟩
    | defect d => exact absurd read (version_parse_no_defect candidate 0 d)

/- A list of candidates is answered one by one, whatever the name of the entry. -/
theorem candidates_answered (s : Specification) (candidates : List (Option Text)) :
    ∃ results, candidates.mapM s.result = .ok results ∧
      List.Forall₂ (Answers s) candidates (results.map Traced.value) := by
  have each := forall₂_exists_iff.mpr fun c (_ : c ∈ candidates) => result_answers s c
  obtain ⟨results, related⟩ := each
  refine ⟨results, mapM_ok_iff.mpr (related.imp fun _ _ both => both.1), ?_⟩
  rw [List.forall₂_map_right_iff]
  exact related.imp fun _ _ both => both.2

theorem evaluate_of_results {s : Specification} {candidates : List (Option Text)}
    {results : List (Traced Result)} (answered : candidates.mapM s.result = .ok results)
    (name : Json) : s.evaluate name candidates =
      .ok ⟨⟨if name.truthy then name else .str s.text, s.text, s.isSingle,
        results.map Traced.value⟩, results.flatMap Traced.events⟩ := by
  rw [Specification.evaluate, answered]
  rfl

theorem inquiry_answered (q : Inquiry) : ∃ e, q.entry = .ok e ∧
    List.Forall₂ (Answers q.specification) q.candidates e.value.results := by
  obtain ⟨results, answered, answers⟩ := candidates_answered q.specification q.candidates
  exact ⟨_, evaluate_of_results answered q.name, answers⟩

theorem outcomes_of_answers {s : Specification} {candidates : List (Option Text)}
    {results : List Result} (answers : List.Forall₂ (Answers s) candidates results) :
    results.map Result.outcome = candidates.map s.contains := by
  induction answers with
  | nil => rfl
  | cons first _ ih => rw [List.map_cons, List.map_cons, ih, first.2]

theorem results_of_entry (e : Entry) :
    Report.resultsOf e.toJson = .ok (e.results.map Result.toJson) := rfl

def refuses : Except Fault Bool → Bool
  | .error _ => true
  | .ok _ => false

def Report.ofOutcomes (entries : List Json) (outcomes : List (Except Fault Bool)) : Report where
  allContained := !outcomes.isEmpty && outcomes.count (.ok true) == outcomes.length
  hasErrors := outcomes.any refuses
  entries := entries
  totals := ⟨entries.length, outcomes.length, outcomes.count (.ok true),
    outcomes.count (.ok false), outcomes.countP refuses⟩

theorem any_refuses (outcomes : List (Except Fault Bool)) :
    outcomes.any refuses = decide (0 < outcomes.countP refuses) := by
  rw [Bool.eq_iff_iff, List.any_eq_true, decide_eq_true_iff, List.countP_pos_iff]

theorem outcomes_partition (outcomes : List (Except Fault Bool)) :
    outcomes.count (.ok true) + outcomes.count (.ok false) + outcomes.countP refuses =
      outcomes.length := by
  induction outcomes with
  | nil => rfl
  | cons o rest ih =>
    rcases o with f | (_ | _)
    all_goals
      simp only [List.count_cons, List.countP_cons, List.length_cons, refuses, ← ih, beq_iff_eq,
        reduceCtorEq, Except.ok.injEq, if_true, if_false]
      omega

def Result.containedField (r : Result) : Json :=
  match r.verdict with
  | .ok contained => .bool contained
  | .error _ => .null

def Result.errorField (r : Result) : Json :=
  match r.verdict with
  | .ok _ => .null
  | .error refusal => refusal.diagnosis.toJson

theorem contained_field (r : Result) :
    r.toJson.fieldOr "contained" .null = .ok r.containedField := by
  obtain ⟨candidate, verdict⟩ := r
  cases verdict <;> rfl

theorem error_field (r : Result) : r.toJson.fieldOr "error" .null = .ok r.errorField := by
  obtain ⟨candidate, verdict⟩ := r
  cases verdict <;> rfl

theorem contained_count (results : List Result) :
    (results.map Result.containedField).countP Report.isContained =
      (results.map Result.outcome).count (.ok true) := by
  rw [List.count, List.countP_map, List.countP_map]
  refine List.countP_congr fun r _ => ?_
  obtain ⟨candidate, f | (_ | _)⟩ := r
  all_goals simp [Result.containedField, Result.outcome, Report.isContained, Except.mapError]

theorem error_count (results : List Result) :
    (results.map Result.errorField).countP Json.truthy =
      (results.map Result.outcome).countP refuses := by
  rw [List.countP_map, List.countP_map]
  refine List.countP_congr fun r _ => ?_
  obtain ⟨candidate, f | b⟩ := r
  all_goals simp [Result.errorField, Result.outcome, refuses, Except.mapError, Json.truthy,
    Diagnosis.toJson]

theorem report_of_entries (entries : List Entry) :
    Report.ofEntries (entries.map Entry.toJson) =
      .ok (.ofOutcomes (entries.map Entry.toJson) (entries.flatMap Entry.outcomes)) := by
  let results := entries.flatMap Entry.results
  have listed : (entries.map Entry.toJson).mapM Report.resultsOf =
      .ok (entries.map fun e => e.results.map Result.toJson) :=
    mapM_map_ok fun e _ => results_of_entry e
  have joined : (entries.map fun e => e.results.map Result.toJson).flatten =
      results.map Result.toJson := by
    rw [← List.flatMap_def, List.map_flatMap]
  have verdicts : (results.map Result.toJson).mapM (·.fieldOr "contained" .null) =
      .ok (results.map Result.containedField) :=
    mapM_map_ok fun r _ => contained_field r
  have errors : (results.map Result.toJson).mapM (·.fieldOr "error" .null) =
      .ok (results.map Result.errorField) :=
    mapM_map_ok fun r _ => error_field r
  have outcomes : entries.flatMap Entry.outcomes = results.map Result.outcome := by
    rw [List.map_flatMap]
    rfl
  -- The report counts the excluded candidates as what is left of all of them.
  have shares := outcomes_partition (results.map Result.outcome)
  have remainder : ((results.map Result.outcome).length : Int) -
      (results.map Result.outcome).count (.ok true) - (results.map Result.outcome).countP refuses =
        (results.map Result.outcome).count (.ok false) := by
    omega
  simp only [Report.ofEntries, listed, ok_bind, joined, verdicts, errors, contained_count,
    error_count, Report.ofOutcomes, outcomes, ← remainder]
  simp only [List.length_map, List.isEmpty_map, any_refuses]
  rfl

theorem int_positive (i : Int) : (Json.int i).isPositive = .ok (decide (0 < i)) := by
  have order : (compare i 0 == .gt) = decide (0 < i) := by
    rw [Bool.eq_iff_iff, beq_iff_eq, Int.compare_eq_gt, decide_eq_true_iff]
  simpa [Json.isPositive, Json.magnitude?, Magnitude.compare?] using order

theorem exit_status_of_report (r : Report) :
    exitStatus r.toJson =
      if r.hasErrors then .ok ⟨statusError, []⟩
      else if 0 < r.totals.notContained then .ok ⟨statusNotContained, []⟩
      else if r.totals.candidates = 0 then .ok ⟨statusOk, [.nothingChecked]⟩
      else .ok ⟨statusOk, []⟩ := by
  have totals : r.toJson.fieldOr "totals" (.object []) = .ok r.totals.toJson := rfl
  have errors : r.toJson.fieldOr "hasErrors" .null = .ok (.bool r.hasErrors) := rfl
  have rest : r.totals.toJson.fieldOr "notContained" (.int 0) = .ok (.int r.totals.notContained) :=
    rfl
  have all : r.totals.toJson.fieldOr "candidates" .null = .ok (.ofNat r.totals.candidates) := rfl
  simp only [exitStatus, totals, errors, rest, all, ok_bind, int_positive, Json.truthy, Json.ofNat,
    decide_eq_true_eq]
  by_cases none : r.totals.candidates = 0
  · simp [none, pure, Except.pure]
  · simp [none, pure, Except.pure]

def statusOf (outcomes : List (Except Fault Bool)) : Nat :=
  if outcomes.any refuses then statusError
  else if .ok false ∈ outcomes then statusNotContained
  else statusOk

theorem exit_status_of_outcomes (entries : List Json) (outcomes : List (Except Fault Bool)) :
    exitStatus (Report.ofOutcomes entries outcomes).toJson =
      .ok ⟨statusOf outcomes, if outcomes.isEmpty then [.nothingChecked] else []⟩ := by
  have excluded : 0 < ((outcomes.count (.ok false) : Nat) : Int) ↔ .ok false ∈ outcomes := by
    rw [Int.natCast_pos, List.count_pos_iff]
  rw [exit_status_of_report, statusOf]
  simp only [Report.ofOutcomes, excluded, List.length_eq_zero_iff, List.isEmpty_iff]
  cases outcomes with
  | nil => rfl
  | cons o rest =>
    simp only [reduceCtorEq, if_false]
    split
    · rfl
    · split <;> rfl

theorem any_refuses_iff {outcomes : List (Except Fault Bool)} :
    outcomes.any refuses = true ↔ ∃ f, .error f ∈ outcomes := by
  rw [List.any_eq_true]
  constructor
  · rintro ⟨f | b, mem, refused⟩
    · exact ⟨f, mem⟩
    · cases refused
  · rintro ⟨f, mem⟩
    exact ⟨.error f, mem, rfl⟩

theorem status_error_iff {outcomes : List (Except Fault Bool)} :
    statusOf outcomes = 1 ↔ ∃ f, .error f ∈ outcomes := by
  rw [statusOf, ← any_refuses_iff]
  split
  · exact iff_of_true rfl ‹_›
  · refine iff_of_false ?_ ‹_›
    split <;> decide

theorem status_not_contained_iff {outcomes : List (Except Fault Bool)} :
    statusOf outcomes = 10 ↔ (¬ ∃ f, .error f ∈ outcomes) ∧ .ok false ∈ outcomes := by
  rw [statusOf, ← any_refuses_iff]
  split
  · exact iff_of_false (by decide) fun both => both.1 ‹_›
  · split
    · exact iff_of_true rfl ⟨‹_›, ‹_›⟩
    · exact iff_of_false (by decide) fun both => absurd both.2 ‹_›

theorem status_ok_iff {outcomes : List (Except Fault Bool)} :
    statusOf outcomes = 0 ↔ ∀ o ∈ outcomes, o = .ok true := by
  rw [statusOf]
  constructor
  · intro status
    split at status
    · cases status
    · split at status
      · cases status
      · rintro (f | _ | _) mem
        · exact absurd (any_refuses_iff.mpr ⟨f, mem⟩) ‹_›
        · contradiction
        · rfl
  · intro contained
    rw [if_neg, if_neg]
    · rfl
    · intro mem
      cases contained _ mem
    · rw [any_refuses_iff]
      rintro ⟨f, mem⟩
      cases contained _ mem

structure Tells (candidate : Option Text) (outcome : Except Fault Bool) (result : Json) :
    Prop where
  shown : result.field? "candidate" = some (Json.ofText? candidate)
  verdict : ∀ b, result.field? "contained" = some (.bool b) ↔ outcome = .ok b
  unsettled : result.field? "contained" = some .null ↔ ∃ f, outcome = .error f
  settled : result.field? "error" = none ↔ ∃ b, outcome = .ok b
  refused : ∀ f, outcome = .error f →
    ∃ r, f = .refused r ∧ result.field? "error" = some r.diagnosis.toJson

theorem result_tells (r : Result) : Tells r.candidate r.outcome r.toJson := by
  obtain ⟨candidate, refusal | b⟩ := r
  · have contained : (Result.toJson ⟨candidate, .error refusal⟩).field? "contained" =
      some .null := rfl
    have error : (Result.toJson ⟨candidate, .error refusal⟩).field? "error" =
      some refusal.diagnosis.toJson := rfl
    have outcome : (Result.mk candidate (.error refusal)).outcome = .error (.refused refusal) := rfl
    refine ⟨rfl, ?_, ?_, ?_, ?_⟩ <;> simp [contained, error, outcome]
  · have contained : (Result.toJson ⟨candidate, .ok b⟩).field? "contained" = some (.bool b) := rfl
    have error : (Result.toJson ⟨candidate, .ok b⟩).field? "error" = none := rfl
    have outcome : (Result.mk candidate (.ok b)).outcome = .ok b := rfl
    refine ⟨rfl, ?_, ?_, ?_, ?_⟩ <;> simp [contained, error, outcome]

/-- A report on inquiries and the exit status for it, with nothing added and nothing left out. -/
structure Truthful (inquiries : List Inquiry) (report : Report) (status : Nat) : Prop where
  entries : List.Forall₂ (fun q entry => ∃ results, Report.resultsOf entry = .ok results ∧
    List.Forall₂ (fun c r => Tells c (q.specification.contains c) r) q.candidates results)
      inquiries report.entries
  candidates : report.totals.candidates = (inquiries.flatMap Inquiry.outcomes).length
  contained : report.totals.contained = (inquiries.flatMap Inquiry.outcomes).count (.ok true)
  notContained : report.totals.notContained =
    (inquiries.flatMap Inquiry.outcomes).count (.ok false)
  errors : report.totals.errors = (inquiries.flatMap Inquiry.outcomes).countP refuses
  whole : report.totals.contained + report.totals.notContained + report.totals.errors =
    report.totals.candidates
  allContained : report.allContained = true ↔
    inquiries.flatMap Inquiry.outcomes ≠ [] ∧
      ∀ o ∈ inquiries.flatMap Inquiry.outcomes, o = .ok true
  hasErrors : report.hasErrors = true ↔ ∃ f, .error f ∈ inquiries.flatMap Inquiry.outcomes
  failure : status = 1 ↔ ∃ f, .error f ∈ inquiries.flatMap Inquiry.outcomes
  exclusion : status = 10 ↔ (¬ ∃ f, .error f ∈ inquiries.flatMap Inquiry.outcomes) ∧
    .ok false ∈ inquiries.flatMap Inquiry.outcomes
  success : status = 0 ↔ ∀ o ∈ inquiries.flatMap Inquiry.outcomes, o = .ok true

theorem entry_tells {s : Specification} {candidates : List (Option Text)} {e : Entry}
    (answers : List.Forall₂ (Answers s) candidates e.results) :
    List.Forall₂ (fun c r => Tells c (s.contains c) r) candidates
      (e.results.map Result.toJson) := by
  rw [List.forall₂_map_right_iff]
  refine answers.imp fun c r answer => ?_
  rw [answer.2, ← answer.1]
  exact result_tells r

theorem outcomes_of_entries {inquiries : List Inquiry} {entries : List Entry}
    (answered : List.Forall₂ (fun q e => List.Forall₂ (Answers q.specification) q.candidates
      e.results) inquiries entries) :
    entries.flatMap Entry.outcomes = inquiries.flatMap Inquiry.outcomes := by
  induction answered with
  | nil => rfl
  | cons first _ ih =>
    rw [List.flatMap_cons, List.flatMap_cons, ih, Entry.outcomes, outcomes_of_answers first,
      Inquiry.outcomes]

theorem entries_truthful {inquiries : List Inquiry} {entries : List Entry}
    (answered : List.Forall₂ (fun q e => List.Forall₂ (Answers q.specification) q.candidates
      e.results) inquiries entries) :
    Truthful inquiries
      (.ofOutcomes (entries.map Entry.toJson) (inquiries.flatMap Inquiry.outcomes))
      (statusOf (inquiries.flatMap Inquiry.outcomes)) where
  entries := by
    rw [Report.ofOutcomes, List.forall₂_map_right_iff]
    exact answered.imp fun q e answers => ⟨_, results_of_entry e, entry_tells answers⟩
  candidates := rfl
  contained := rfl
  notContained := rfl
  errors := rfl
  whole := by
    have shares := outcomes_partition (inquiries.flatMap Inquiry.outcomes)
    simp only [Report.ofOutcomes]
    omega
  allContained := by
    rw [Report.ofOutcomes, Bool.and_eq_true, beq_iff_eq, List.count_eq_length,
      Bool.not_eq_true', List.isEmpty_eq_false_iff]
    simp only [eq_comm]
  hasErrors := any_refuses_iff
  failure := status_error_iff
  exclusion := status_not_contained_iff
  success := status_ok_iff

theorem report_truthful (inquiries : List Inquiry) :
    ∃ entries report status, inquiries.mapM Inquiry.entry = .ok entries ∧
      Report.ofEntries (entries.map fun e => e.value.toJson) = .ok report ∧
      exitStatus report.toJson = .ok status ∧ Truthful inquiries report status.value := by
  have each := forall₂_exists_iff.mpr fun q (_ : q ∈ inquiries) => inquiry_answered q
  obtain ⟨entries, related⟩ := each
  have evaluated : inquiries.mapM Inquiry.entry = .ok entries :=
    mapM_ok_iff.mpr (related.imp fun _ _ both => both.1)
  have answered : List.Forall₂ (fun q e => List.Forall₂ (Answers q.specification) q.candidates
      e.results) inquiries (entries.map Traced.value) := by
    rw [List.forall₂_map_right_iff]
    exact related.imp fun _ _ both => both.2
  have report := report_of_entries (entries.map Traced.value)
  rw [List.map_map, outcomes_of_entries answered] at report
  have status := exit_status_of_outcomes ((entries.map Traced.value).map Entry.toJson)
    (inquiries.flatMap Inquiry.outcomes)
  have truthful := entries_truthful answered
  rw [List.map_map] at status truthful
  exact ⟨entries, _, _, evaluated, report, status, truthful⟩

end VersionMatch
