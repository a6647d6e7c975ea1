import VersionMatch.Json.Validation
import VersionMatch.Proofs.CodePoints
import VersionMatch.Proofs.Violations

/- The validator that walks through a document reports as validators are relied on to do: what it
   finds on one path is what the value there has against it, in the order of its schema. -/
namespace VersionMatch

structure Part where
  step : Step
  schema : Schema
  value : Json

namespace Schema

def violationsAt (s : Schema) (v : Json) (path rest : List Step) : List Violation :=
  match s.at? rest, v.at? rest with
  | some t, some w => t.ownViolations (path ++ rest) w
  | _, _ => []

def within : Schema → Json → List Part
  | .list _ items, .list vs => vs.zipIdx.map fun p => ⟨.index p.2, items, p.1⟩
  | .record _ fields, .object given =>
    fields.filterMap fun p => (given.lookup p.1).map fun v => ⟨.name p.1, p.2, v⟩
  | _, _ => []

end Schema

variable {s t : Schema} {v w : Json} {step : Step}

theorem own_flaws_of_other_kind (other : v.kind ≠ s.kind) : s.ownFlaws v = [.wrongType] := by
  cases s <;> cases v <;> first | exact absurd rfl other | rfl

theorem within_of_other_kind (other : v.kind ≠ s.kind) : s.within v = [] := by
  cases s <;> cases v <;> first | exact absurd rfl other | rfl

theorem field_violations_eq (path : List Step) (fields : List (Text × Schema))
    (given : List (Text × Json)) : Schema.fieldViolations path fields given =
      ((Schema.record [] fields).within (.object given)).flatMap
        fun p => Schema.violations (path ++ [p.step]) p.schema p.value := by
  induction fields with
  | nil => rw [Schema.fieldViolations, Schema.within, List.filterMap_nil, List.flatMap_nil]
  | cons p rest ih =>
    obtain ⟨key, schema⟩ := p
    rw [Schema.fieldViolations, ih, Schema.within, Schema.within, List.filterMap_cons]
    cases given.lookup key <;> simp

theorem violations_eq (path : List Step) (s : Schema) (v : Json) : Schema.violations path s v =
    s.ownViolations path v ++
      (s.within v).flatMap fun p => Schema.violations (path ++ [p.step]) p.schema p.value := by
  induction s, v using by_kind with
  | other s v other =>
    rw [within_of_other_kind other]
    cases s <;> cases v <;> first | exact absurd rfl other | simp [Schema.violations]
  | text nonempty t => simp [Schema.violations, Schema.within]
  | flag b => simp [Schema.violations, Schema.within]
  | list nonempty items vs => simp only [Schema.violations, Schema.within, List.flatMap_map]
  | record required fields given =>
    simp only [Schema.violations, field_violations_eq]
    rfl

theorem mem_unknown_keys_iff {fields : List (Text × Schema)} {given : List (Text × Json)}
    {k : Text} :
    k ∈ Schema.unknownKeys fields given ↔ k ∈ given.map Prod.fst ∧ fields.lookup k = none := by
  rw [Schema.unknownKeys, Schema.ascendingKeys, List.mem_mergeSort, List.mem_filter,
    Option.isNone_iff_eq_none]

theorem unknown_keys_ascending (fields : List (Text × Schema)) (given : List (Text × Json)) :
    (Schema.unknownKeys fields given).Pairwise fun a b => compare a b ≠ .gt :=
  (List.pairwise_mergeSort not_gt_trans not_gt_total _).imp fun before => by simpa using before

theorem unknown_keys_filled_iff {fields : List (Text × Schema)} {given : List (Text × Json)} :
    (Schema.unknownKeys fields given).isEmpty = false ↔ ∃ p ∈ given, fields.lookup p.1 = none := by
  rw [List.isEmpty_eq_false_iff_exists_mem]
  simp only [mem_unknown_keys_iff, List.mem_map]
  constructor
  · rintro ⟨_, ⟨p, mem, rfl⟩, unknown⟩
    exact ⟨p, mem, unknown⟩
  · rintro ⟨p, mem, unknown⟩
    exact ⟨p.1, ⟨p, mem, rfl⟩, unknown⟩

theorem violates_of_own_flaw {f : Flaw} (own : f ∈ s.ownFlaws v) : Violates s v f := by
  induction s, v using by_kind with
  | other s v other =>
    rw [own_flaws_of_other_kind other, List.mem_singleton] at own
    exact own ▸ .wrongType other
  | text nonempty t =>
    simp only [Schema.ownFlaws] at own
    split at own
    · rename_i empty
      obtain ⟨rfl, rfl⟩ : nonempty = true ∧ t = [] := by simpa using empty
      rw [List.mem_singleton.mp own]
      exact .emptyText
    · contradiction
  | flag b => simp [Schema.ownFlaws] at own
  | list nonempty items vs =>
    simp only [Schema.ownFlaws] at own
    split at own
    · rename_i empty
      obtain ⟨rfl, rfl⟩ : nonempty = true ∧ vs = [] := by simpa using empty
      rw [List.mem_singleton.mp own]
      exact .emptyList items
    · contradiction
  | record required fields given =>
    rcases List.mem_append.mp own with missing | unexpected
    · obtain ⟨key, absent, rfl⟩ := List.mem_map.mp missing
      obtain ⟨needed, absent⟩ := List.mem_filter.mp absent
      exact .missing needed (by simpa using absent)
    · split at unexpected
      · contradiction
      · rename_i filled
        rw [List.mem_singleton.mp unexpected]
        exact .unexpected (unknown_keys_filled_iff.mp (by simpa using filled))

theorem mem_own_flaws_iff {f : Flaw} : f ∈ s.ownFlaws v ↔ Violates s v f := by
  constructor
  · exact violates_of_own_flaw
  · intro violates
    cases violates with
    | wrongType other => rw [own_flaws_of_other_kind other, List.mem_singleton]
    | emptyText => exact List.mem_singleton_self _
    | emptyList items => exact List.mem_singleton_self _
    | missing needed absent =>
      apply List.mem_append_left
      exact List.mem_map_of_mem (List.mem_filter.mpr ⟨needed, by simp [absent]⟩)
    | unexpected unknown =>
      apply List.mem_append_right
      rw [unknown_keys_filled_iff.mpr unknown]
      exact List.mem_singleton_self _

theorem own_flaws_ordered (s : Schema) (v : Json) : (s.ownFlaws v).Pairwise (Precedes s) := by
  induction s, v using by_kind with
  | other s v other =>
    rw [own_flaws_of_other_kind other]
    exact List.pairwise_singleton _ _
  | text nonempty t => simp only [Schema.ownFlaws]; split <;> simp
  | flag b => exact .nil
  | list nonempty items vs => simp only [Schema.ownFlaws]; split <;> simp
  | record required fields given =>
    rw [Schema.ownFlaws, List.pairwise_append, List.pairwise_map]
    refine ⟨?_, ?_, ?_⟩
    · rw [List.pairwise_iff_forall_sublist]
      intro j k before
      exact .missing (before.trans List.filter_sublist)
    · split <;> simp
    · intro a missing b unexpected
      obtain ⟨k, _, rfl⟩ := List.mem_map.mp missing
      split at unexpected
      · contradiction
      · rw [List.mem_singleton.mp unexpected]
        exact .unexpected k

theorem mem_within_iff (tidy : s.Tidy) {p : Part} :
    p ∈ s.within v ↔ s.part? p.step = some p.schema ∧ v.part? p.step = some p.value := by
  obtain ⟨step, t, w⟩ := p
  induction s, v using by_kind with
  | other s v other =>
    rw [within_of_other_kind other]
    exact iff_of_false List.not_mem_nil fun both => other (kind_of_part both.1 both.2)
  | text nonempty t => simp [Schema.within, Schema.part?]
  | flag b => simp [Schema.within, Schema.part?]
  | list nonempty items vs =>
    cases step with
    | name key => simp [Schema.within, Schema.part?]
    | index i =>
      simp only [Schema.within, Schema.part?, Json.part?, List.mem_map, Part.mk.injEq, Prod.exists,
        List.mem_zipIdx_iff_getElem?, Step.index.injEq, Option.some.injEq]
      constructor
      · rintro ⟨_, _, given, rfl, rfl, rfl⟩
        exact ⟨rfl, given⟩
      · rintro ⟨rfl, given⟩
        exact ⟨w, i, given, rfl, rfl, rfl⟩
  | record required fields given =>
    cases tidy with
    | record needed known shown each =>
      cases step with
      | index i => simp [Schema.within, Schema.part?]
      | name key =>
        simp only [Schema.within, Schema.part?, Json.part?, ← mem_iff_lookup known,
          List.mem_filterMap, Option.map_eq_some_iff, Part.mk.injEq, Prod.exists, Step.name.injEq]
        constructor
        · rintro ⟨_, _, asked, _, given, rfl, rfl, rfl⟩
          exact ⟨asked, given⟩
        · rintro ⟨asked, given⟩
          exact ⟨key, t, asked, w, given, rfl, rfl, rfl⟩

theorem within_steps_nodup (tidy : s.Tidy) (v : Json) : ((s.within v).map Part.step).Nodup := by
  induction s, v using by_kind with
  | other s v other => rw [within_of_other_kind other]; exact List.nodup_nil
  | text nonempty t => exact List.nodup_nil
  | flag b => exact List.nodup_nil
  | list nonempty items vs =>
    have numbered : ((Schema.list nonempty items).within (.list vs)).map Part.step =
        (List.range' 0 vs.length).map Step.index := by
      rw [← List.zipIdx_map_snd, Schema.within, List.map_map, List.map_map]
      rfl
    rw [numbered]
    exact (List.nodup_range' 1).map fun i j same => Step.index.inj same
  | record required fields given =>
    cases tidy with
    | record needed known shown each =>
      rw [Schema.within, List.Nodup, List.pairwise_map, List.pairwise_filterMap]
      refine (List.pairwise_map.mp known).imp ?_
      intro p q differ a first b second same
      obtain ⟨_, _, rfl⟩ := Option.map_eq_some_iff.mp first
      obtain ⟨_, _, rfl⟩ := Option.map_eq_some_iff.mp second
      exact differ (Step.name.inj same)

theorem path_extends (tidy : s.Tidy) {path : List Step} {x : Violation}
    (found : x ∈ Schema.violations path s v) : path <+: x.path := by
  induction tidy using tidy_induction generalizing path v with
  | parts s tidy ih =>
    rw [violations_eq] at found
    rcases List.mem_append.mp found with own | below
    · obtain ⟨f, _, rfl⟩ := List.mem_map.mp own
      exact List.prefix_rfl
    · obtain ⟨p, part, inside⟩ := List.mem_flatMap.mp below
      have asked := ((mem_within_iff tidy).mp part).1
      exact (List.prefix_append path [p.step]).trans (ih p.step p.schema asked inside)

theorem filter_flatMap_keyed {α β κ : Type} {key : α → κ} {f : α → List β} {keep : β → Bool}
    {l : List α} (distinct : (l.map key).Nodup) {a : α} (mem : a ∈ l)
    (other : ∀ b ∈ l, key b ≠ key a → (f b).filter keep = []) :
    (l.flatMap f).filter keep = (f a).filter keep := by
  obtain ⟨before, after, rfl⟩ := List.append_of_mem mem
  rw [List.map_append, List.map_cons, List.nodup_middle, List.nodup_cons,
    ← List.map_append] at distinct
  have rest : ∀ b ∈ before ++ after, (f b).filter keep = [] := by
    intro b inside
    refine other b (by simp at inside ⊢; tauto) fun same => distinct.1 ?_
    exact same ▸ List.mem_map_of_mem inside
  rw [List.forall_mem_append] at rest
  simp [List.filter_flatMap, List.flatMap_eq_nil_iff.mpr rest.1, List.flatMap_eq_nil_iff.mpr rest.2]

theorem nothing_beside (tidy : s.Tidy) {path q : List Step} (beside : ¬ path <+: q) :
    (Schema.violations path s v).filter (·.path = q) = [] := by
  simp only [List.filter_eq_nil_iff, decide_eq_true_eq]
  intro x found same
  exact beside (same ▸ path_extends tidy found)

theorem own_filter (path q : List Step) :
    (s.ownViolations path v).filter (·.path = q) =
      if path = q then s.ownViolations path v else [] := by
  split_ifs with same
  · simp [Schema.ownViolations, List.filter_map, Function.comp_def, same]
  · simp [Schema.ownViolations, List.filter_map, Function.comp_def, same]

theorem violations_at_part {path rest : List Step} (asked : s.part? step = some t)
    (given : v.part? step = some w) :
    s.violationsAt v path (step :: rest) = t.violationsAt w (path ++ [step]) rest := by
  simp only [Schema.violationsAt, schema_at_cons, json_at_cons, asked, given, Option.bind_some,
    List.append_assoc, List.singleton_append]

theorem no_violations_without_part {path rest : List Step}
    (nowhere : ∀ t w, s.part? step = some t → v.part? step ≠ some w) :
    s.violationsAt v path (step :: rest) = [] := by
  rw [Schema.violationsAt, schema_at_cons, json_at_cons]
  cases asked : s.part? step with
  | none => rfl
  | some t =>
    cases given : v.part? step with
    | none => simp
    | some w => exact absurd given (nowhere t w asked)

/- At each value its own violations are found, in their order, and nothing else. -/
theorem violations_at (tidy : s.Tidy) (path rest : List Step) (v : Json) :
    (Schema.violations path s v).filter (·.path = path ++ rest) = s.violationsAt v path rest := by
  induction rest generalizing s path v with
  | nil =>
    have below : ∀ p ∈ s.within v,
        (Schema.violations (path ++ [p.step]) p.schema p.value).filter (·.path = path) = [] := by
      intro p part
      have asked := ((mem_within_iff tidy).mp part).1
      refine nothing_beside (tidy_part tidy asked) fun longer => ?_
      have shorter := longer.length_le
      rw [List.length_append, List.length_singleton] at shorter
      omega
    rw [List.append_nil, violations_eq, List.filter_append, List.filter_flatMap,
      List.flatMap_eq_nil_iff.mpr below, List.append_nil, own_filter, if_pos rfl]
    simp [Schema.violationsAt, Schema.at?, Json.at?]
  | cons step rest ih =>
    have beside : ∀ p ∈ s.within v, p.step ≠ step →
        (Schema.violations (path ++ [p.step]) p.schema p.value).filter
          (·.path = path ++ step :: rest) = [] := by
      intro p part other
      have asked := ((mem_within_iff tidy).mp part).1
      exact nothing_beside (tidy_part tidy asked) fun front => other (by simpa using front)
    rw [violations_eq, List.filter_append, own_filter, if_neg (by simp), List.nil_append]
    by_cases part : ∃ p ∈ s.within v, p.step = step
    · obtain ⟨p, part, rfl⟩ := part
      obtain ⟨asked, given⟩ := (mem_within_iff tidy).mp part
      rw [filter_flatMap_keyed (within_steps_nodup tidy v) part beside,
        violations_at_part asked given, List.append_cons]
      exact ih (tidy_part tidy asked) (path ++ [p.step]) p.value
    · have nowhere : ∀ t w, s.part? step = some t → v.part? step ≠ some w := by
        intro t w asked given
        exact part ⟨⟨step, t, w⟩, (mem_within_iff tidy).mpr ⟨asked, given⟩, rfl⟩
      rw [no_violations_without_part nowhere, List.filter_flatMap, List.flatMap_eq_nil_iff]
      exact fun p inside => beside p inside fun same => part ⟨p, inside, same⟩

theorem found_at (tidy : s.Tidy) (v : Json) (path : List Step) :
    (s.validator v).filter (·.path = path) = s.violationsAt v [] path :=
  violations_at tidy [] path v

theorem found_each (tidy : s.Tidy) (v : Json) (path : List Step) (f : Flaw) :
    (path, f) ∈ (s.validator v).map Violation.finding ↔
      ∃ t w, s.at? path = some t ∧ v.at? path = some w ∧ Violates t w f := by
  have here : (path, f) ∈ (s.validator v).map Violation.finding ↔
      (path, f) ∈ (s.violationsAt v [] path).map Violation.finding := by
    simp [← found_at tidy, Violation.finding, and_assoc]
  rw [here, Schema.violationsAt]
  cases s.at? path with
  | none => simp
  | some t =>
    cases v.at? path with
    | none => simp
    | some w => simp [Schema.ownViolations, Violation.finding, mem_own_flaws_iff]

theorem found_ordered (tidy : s.Tidy) (v : Json) : (s.validator v).Pairwise fun a b =>
    a.path = b.path → ∃ t, s.at? a.path = some t ∧ Precedes t a.flaw b.flaw := by
  rw [List.pairwise_iff_forall_sublist]
  intro a b both same
  have whole : [a, b].filter (·.path = a.path) = [a, b] := by simp [same]
  have here := both.filter (·.path = a.path)
  rw [whole, found_at tidy, Schema.violationsAt] at here
  split at here
  · rename_i t w asked given
    have ordered : (t.ownViolations ([] ++ a.path) w).Pairwise
        fun x y => Precedes t x.flaw y.flaw := List.pairwise_map.mpr (own_flaws_ordered t w)
    exact ⟨t, asked, List.pairwise_iff_forall_sublist.mp ordered here⟩
  · cases here

theorem validator_reports (tidy : s.Tidy) (v : Json) : s.Findings v (s.validator v) where
  each := found_each tidy v
  once := by
    rw [List.Nodup, List.pairwise_map]
    refine (found_ordered tidy v).imp ?_
    intro a b before same
    obtain ⟨path, flaw⟩ := Prod.mk.inj same
    obtain ⟨t, asked, twice⟩ := before path
    rw [← flaw] at twice
    exact precedes_asymm (tidy_at tidy asked) twice twice
  ordered := found_ordered tidy v

end VersionMatch
