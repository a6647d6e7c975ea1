import VersionMatch.Report
import VersionMatch.Proofs.Attempts
import VersionMatch.Proofs.Containment

/- What a check compares before it stops, and what it records on the way. The records tell the
   verdict: it is the outcome of the last comparison. -/
namespace VersionMatch

/-- The members up to and including the first of the kind, and all of them if there is none. -/
def upToFirst {α : Type} (isLast : α → Bool) (xs : List α) : List α :=
  xs.take (xs.findIdx isLast + 1)

def Range.record (v : VersionId) (r : Range) : Event := .compared r.text v.text (r.admits v)

def Clause.compared (c : Clause) (v : VersionId) : List Range :=
  upToFirst (fun r => !r.admits v) c.ranges

def Specification.compared (s : Specification) (v : VersionId) : List Range :=
  (upToFirst (fun c => c.ranges.all (·.admits v)) s.clauses).flatMap (·.compared v)

structure Recorded (s : Specification) (v : VersionId) (checked : Traced Bool) : Prop where
  records : checked.events =
    (s.compared v).map (Range.record v) ++ [.decided s.text v.text checked.value]
  verdict : checked.value = true ↔ ∃ c ∈ s.clauses, ∀ r ∈ c.ranges, r.admits v = true
  last : ∃ before r, checked.events =
    before ++ [.compared r v.text checked.value, .decided s.text v.text checked.value]
  detail : ∀ e ∈ checked.events, e.level = .debug

variable {α : Type} {isLast : α → Bool}

theorem up_to_first_cons (x : α) (xs : List α) :
    upToFirst isLast (x :: xs) = x :: if isLast x then [] else upToFirst isLast xs := by
  unfold upToFirst
  rw [List.findIdx_cons]
  cases isLast x with
  | true => simp
  | false => simp

theorem up_to_first_ends (isLast : α → Bool) {xs : List α} (nonempty : xs ≠ []) :
    ∃ before x, upToFirst isLast xs = before ++ [x] ∧ isLast x = xs.any isLast := by
  induction xs with
  | nil => contradiction
  | cons x xs ih =>
    rw [up_to_first_cons, List.any_cons]
    by_cases found : isLast x = true
    · exact ⟨[], x, by simp [found], by simp [found]⟩
    · by_cases none : xs = []
      · subst xs
        exact ⟨[], x, by simp [found, upToFirst], by simp⟩
      · obtain ⟨before, y, split, ends⟩ := ih none
        exact ⟨x :: before, y, by simp [found, split], by simp [found, ends]⟩

theorem ranges_check_events (v : VersionId) (rs : List Range) :
    (Clause.checkRanges v rs).events =
      (upToFirst (fun r => !r.admits v) rs).map (Range.record v) := by
  induction rs with
  | nil => rfl
  | cons r rs ih =>
    have value : (r.check v).value = r.admits v := rfl
    have events : (r.check v).events = [r.record v] := rfl
    simp only [Clause.checkRanges, Traced.events_bind, value, events, up_to_first_cons,
      List.map_cons, List.singleton_append]
    cases r.admits v with
    | true => simpa using ih
    | false => simp

theorem clauses_check_events (v : VersionId) (cs : List Clause) :
    (Specification.checkClauses v cs).events =
      ((upToFirst (fun c => c.ranges.all (·.admits v)) cs).flatMap (·.compared v)).map
        (Range.record v) := by
  induction cs with
  | nil => rfl
  | cons c cs ih =>
    have value : (c.check v).value = c.ranges.all (·.admits v) := ranges_check_value v c.ranges
    have events : (c.check v).events = (c.compared v).map (Range.record v) :=
      ranges_check_events v c.ranges
    simp only [Specification.checkClauses, Traced.events_bind, value, events, up_to_first_cons,
      List.flatMap_cons, List.map_append]
    cases c.ranges.all (·.admits v) with
    | true => simp
    | false => simpa using ih

theorem check_value (s : Specification) (v : VersionId) : (s.check v).value = s.admits v :=
  clauses_check_value v s.clauses

theorem check_events (s : Specification) (v : VersionId) : (s.check v).events =
    (s.compared v).map (Range.record v) ++ [.decided s.text v.text (s.check v).value] := by
  have clauses := clauses_check_events v s.clauses
  have same : (s.check v).value = (Specification.checkClauses v s.clauses).value := rfl
  rw [same, Specification.compared, ← clauses]
  rfl

/- The range at which a clause is left decides the clause. -/
theorem clause_last_compared (c : Clause) (v : VersionId) :
    ∃ before r, c.compared v = before ++ [r] ∧ r.admits v = c.admits v := by
  obtain ⟨before, r, split, ends⟩ :=
    up_to_first_ends (fun r : Range => !r.admits v) c.nonempty
  refine ⟨before, r, split, ?_⟩
  rw [← Bool.not_inj_iff, ends, Clause.admits, List.not_all_eq_any_not]

theorem last_compared (s : Specification) (v : VersionId) :
    ∃ before r, s.compared v = before ++ [r] ∧ r.admits v = s.admits v := by
  obtain ⟨clauses, c, split, ends⟩ :=
    up_to_first_ends (fun c : Clause => c.ranges.all (·.admits v)) s.nonempty
  obtain ⟨before, r, inside, decides⟩ := clause_last_compared c v
  refine ⟨clauses.flatMap (·.compared v) ++ before, r, ?_, decides.trans ends⟩
  rw [Specification.compared, split, List.flatMap_append, List.flatMap_singleton, inside,
    List.append_assoc]

theorem check_recorded (s : Specification) (v : VersionId) : Recorded s v (s.check v) where
  records := check_events s v
  verdict := by
    rw [check_value]
    simp [Specification.admits, Clause.admits]
  last := by
    obtain ⟨before, r, split, decides⟩ := last_compared s v
    refine ⟨before.map (Range.record v), r.text, ?_⟩
    rw [check_events, split, check_value, ← decides]
    simp [Range.record]
  detail := by
    rw [check_events, List.forall_mem_append]
    constructor
    · intro e mem
      obtain ⟨r, _, rfl⟩ := List.mem_map.mp mem
      rfl
    · intro e mem
      rw [List.mem_singleton.mp mem]
      rfl

theorem records_prove_verdict (s : Specification) :
    (∀ v, Recorded s v (s.check v)) ∧
      (∀ candidate v, VersionId.parse candidate 0 = .ok v →
        s.checkText candidate = ⟨.ok (s.check v).value, (s.check v).events⟩) ∧
      ∀ candidate f, VersionId.parse candidate 0 = .error f →
        s.checkText candidate = ⟨.error f, []⟩ ∧
          ∃ result, s.result candidate = .ok ⟨result, []⟩ := by
  refine ⟨check_recorded s, fun _ _ read => s.checkText_of_read read, ?_⟩
  · intro candidate f failed
    have refused := s.checkText_of_fault failed
    refine ⟨refused, ?_⟩
    cases f with
    | refused r => exact ⟨_, by rw [Specification.result, refused]⟩
    | defect d => exact absurd failed (version_parse_no_defect candidate 0 d)

theorem records_of_three_clauses :
    ∃ s v, Specification.parse (some "1.3&2 1.4*&1.4.1+ 1.5".text) = .ok s ∧
      VersionId.parse (some "1.4.2".text) 0 = .ok v ∧
      s.checkText (some "1.4.2".text) = ⟨.ok (s.check v).value, (s.check v).events⟩ ∧
      Recorded s v (s.check v) ∧
      (s.check v).events =
        [.compared "1.3".text "1.4.2".text false, .compared "1.4*".text "1.4.2".text true,
          .compared "1.4.1+".text "1.4.2".text true,
          .decided "1.3&2 1.4*&1.4.1+ 1.5".text "1.4.2".text true] ∧
      s.checkText none = ⟨.error (.malformed .absentVersionId 0 []), []⟩ := by
  have evaluated : ((Specification.parse (some "1.3&2 1.4*&1.4.1+ 1.5".text)).bind fun s =>
      (VersionId.parse (some "1.4.2".text) 0).map fun v => (s.check v).events) = .ok
        [.compared "1.3".text "1.4.2".text false, .compared "1.4*".text "1.4.2".text true,
          .compared "1.4.1+".text "1.4.2".text true,
          .decided "1.3&2 1.4*&1.4.1+ 1.5".text "1.4.2".text true] := by
    decide +kernel
  obtain ⟨s, parsed, rest⟩ := bind_ok_iff.mp evaluated
  obtain ⟨v, read, events⟩ := map_ok_iff.mp rest
  obtain ⟨recorded, checked, refused⟩ := records_prove_verdict s
  exact ⟨s, v, parsed, read, checked _ v read, recorded v, events, (refused none _ rfl).1⟩

end VersionMatch
