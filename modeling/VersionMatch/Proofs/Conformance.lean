import VersionMatch.Constraint.Load
import VersionMatch.Proofs.Violations

/- Which documents a schema has nothing to say against, and what that means for the schema of
   constraints files. -/
namespace VersionMatch

inductive Conforms : Schema → Json → Prop where
  | text {nonempty : Bool} {t : Text} (filled : nonempty = true → t ≠ []) :
      Conforms (.text nonempty) (.str t)
  | flag (b : Bool) : Conforms .flag (.bool b)
  | list {nonempty : Bool} {items : Schema} {vs : List Json} (filled : nonempty = true → vs ≠ [])
      (each : ∀ v ∈ vs, Conforms items v) : Conforms (.list nonempty items) (.list vs)
  | record {required : List Text} {fields : List (Text × Schema)} {given : List (Text × Json)}
      (present : ∀ k ∈ required, (given.lookup k).isSome)
      (known : ∀ p ∈ given, (fields.lookup p.1).isSome)
      (each : ∀ p ∈ fields, ∀ v, given.lookup p.1 = some v → Conforms p.2 v) :
      Conforms (.record required fields) (.object given)

variable {s t : Schema} {v w : Json}

theorem conforms_part {step : Step} (conforms : Conforms s v) (asked : s.part? step = some t)
    (given : v.part? step = some w) : Conforms t w := by
  cases conforms with
  | text filled => contradiction
  | flag b => contradiction
  | list filled each =>
    cases step with
    | name key => contradiction
    | index i =>
      cases asked
      exact each w (List.mem_of_getElem? given)
  | record present known each =>
    cases step with
    | index i => contradiction
    | name key =>
      obtain ⟨before, after, fields, _⟩ := List.lookup_eq_some_iff.mp asked
      exact each (key, t) (fields ▸ List.mem_append_right before List.mem_cons_self) w given

theorem conforms_at {path : List Step} (conforms : Conforms s v) (asked : s.at? path = some t)
    (given : v.at? path = some w) : Conforms t w := by
  induction path generalizing s v with
  | nil =>
    cases asked
    cases given
    exact conforms
  | cons step path ih =>
    rw [schema_at_cons] at asked
    rw [json_at_cons] at given
    obtain ⟨_, stepS, restS⟩ := Option.bind_eq_some_iff.mp asked
    obtain ⟨_, stepV, restV⟩ := Option.bind_eq_some_iff.mp given
    exact ih (conforms_part conforms stepS stepV) restS restV

theorem conforms_same_kind (conforms : Conforms s v) : v.kind = s.kind := by
  cases conforms <;> rfl

theorem conforms_no_flaw {f : Flaw} (conforms : Conforms s v) : ¬ Violates s v f := by
  intro violates
  cases violates with
  | wrongType other => exact other (conforms_same_kind conforms)
  | emptyText =>
    cases conforms with
    | text filled => exact filled rfl rfl
  | emptyList items =>
    cases conforms with
    | list filled each => exact filled rfl rfl
  | missing needed absent =>
    cases conforms with
    | record present known each => simpa [absent] using present _ needed
  | unexpected unknown =>
    obtain ⟨p, given, absent⟩ := unknown
    cases conforms with
    | record present known each => simpa [absent] using known p given

theorem flawless_part {step : Step} (flawless : Flawless s v) (asked : s.part? step = some t)
    (given : v.part? step = some w) : Flawless t w := by
  intro path r u f askedR givenU
  refine flawless (step :: path) r u f ?_ ?_
  · rw [schema_at_cons, asked]
    exact askedR
  · rw [json_at_cons, given]
    exact givenU

theorem conforms_of_parts (tidy : s.Tidy) (own : ∀ f, ¬ Violates s v f)
    (below : ∀ step t w, s.part? step = some t → v.part? step = some w → Conforms t w) :
    Conforms s v := by
  induction s, v using by_kind with
  | other s v other => exact absurd (.wrongType other) (own _)
  | text nonempty t =>
    refine .text fun filled empty => ?_
    subst filled empty
    exact own _ .emptyText
  | flag b => exact .flag b
  | list nonempty items vs =>
    refine .list (fun filled empty => ?_) fun v mem => ?_
    · subst filled empty
      exact own _ (.emptyList items)
    · obtain ⟨i, found⟩ := List.mem_iff_getElem?.mp mem
      exact below (.index i) items v rfl found
  | record required fields given =>
    refine .record (fun k needed => ?_) (fun p mem => ?_) fun p field v found => ?_
    · by_contra absent
      exact own _ (.missing needed (Option.not_isSome_iff_eq_none.mp absent))
    · by_contra unknown
      exact own _ (.unexpected ⟨p, mem, Option.not_isSome_iff_eq_none.mp unknown⟩)
    · cases tidy with
      | record needed known shown each =>
        exact below (.name p.1) p.2 v ((mem_iff_lookup known).mp field) found

theorem conforms_of_flawless (tidy : s.Tidy) (flawless : Flawless s v) : Conforms s v := by
  induction tidy using tidy_induction generalizing v with
  | parts s tidy ih =>
    refine conforms_of_parts tidy (fun f => flawless [] s v f rfl rfl) ?_
    intro step t w asked given
    exact ih step t asked (flawless_part flawless asked given)

theorem conforms_iff_flawless (tidy : s.Tidy) : Conforms s v ↔ Flawless s v := by
  constructor
  · intro conforms path t w f asked given
    exact conforms_no_flaw (conforms_at conforms asked given)
  · exact conforms_of_flawless tidy

theorem conforms_text_iff {nonempty : Bool} {v : Json} :
    Conforms (.text nonempty) v ↔ ∃ t, v = .str t ∧ (nonempty = true → t ≠ []) := by
  constructor
  · intro h
    cases h with
    | text filled => exact ⟨_, rfl, filled⟩
  · rintro ⟨t, rfl, filled⟩
    exact .text filled

theorem conforms_flag_iff {v : Json} : Conforms .flag v ↔ ∃ b, v = .bool b := by
  constructor
  · intro h
    cases h with
    | flag b => exact ⟨b, rfl⟩
  · rintro ⟨b, rfl⟩
    exact .flag b

theorem conforms_list_iff {nonempty : Bool} {items : Schema} {v : Json} :
    Conforms (.list nonempty items) v ↔
      ∃ vs, v = .list vs ∧ (nonempty = true → vs ≠ []) ∧ ∀ v ∈ vs, Conforms items v := by
  constructor
  · intro h
    cases h with
    | list filled each => exact ⟨_, rfl, filled, each⟩
  · rintro ⟨vs, rfl, filled, each⟩
    exact .list filled each

def KeysAmong (keys : List Text) (v : Json) : Prop :=
  ∃ given, v = .object given ∧ ∀ p ∈ given, p.1 ∈ keys

theorem part_of_field (v : Json) (key : String) : v.part? (.name key.text) = v.field? key := by
  cases v <;> rfl

theorem conforms_record_iff {required : List Text} {fields : List (Text × Schema)} :
    Conforms (.record required fields) v ↔ KeysAmong (fields.map Prod.fst) v ∧
      (∀ k ∈ required, (v.part? (.name k)).isSome) ∧
      ∀ p ∈ fields, ∀ w, v.part? (.name p.1) = some w → Conforms p.2 w := by
  have known : ∀ given : List (Text × Json), (∀ p ∈ given, (fields.lookup p.1).isSome) ↔
      ∀ p ∈ given, p.1 ∈ fields.map Prod.fst := by
    intro given
    simp only [List.lookup_isSome_iff, List.mem_map, beq_iff_eq]
    exact forall₂_congr fun p _ => exists_congr fun q => and_congr_right fun _ => eq_comm
  constructor
  · intro h
    cases h with
    | @record _ _ given present unknown each =>
      exact ⟨⟨given, rfl, (known given).mp unknown⟩, present, each⟩
  · rintro ⟨⟨given, rfl, keys⟩, present, each⟩
    exact .record present ((known given).mpr keys) each

def entrySchema : Schema :=
  .record ["id".text, "specification".text]
    [("id".text, .text true), ("specification".text, .text true),
      ("enabled".text, .flag), ("description".text, .text false)]

/-- An entry that gives the constraint `n` the specification `t`. -/
structure States (entry : Json) (n t : Text) : Prop where
  keys : KeysAmong (["id", "specification", "enabled", "description"].map String.text) entry
  name : entry.field? "id" = some (.str n)
  named : n ≠ []
  specification : entry.field? "specification" = some (.str t)
  specified : t ≠ []
  enabled : ∀ v, entry.field? "enabled" = some v → ∃ b, v = .bool b
  description : ∀ v, entry.field? "description" = some v → ∃ d, v = .str d

theorem conforms_entry_iff {entry : Json} :
    Conforms entrySchema entry ↔ ∃ n t, States entry n t := by
  simp only [entrySchema, conforms_record_iff, List.forall_mem_cons, List.not_mem_nil,
    false_implies, implies_true, and_true, part_of_field, conforms_text_iff,
    conforms_flag_iff]
  constructor
  · rintro ⟨keys, ⟨named, specified⟩, name, specification, enabled, description⟩
    obtain ⟨v, hasName⟩ := Option.isSome_iff_exists.mp named
    obtain ⟨w, hasSpecification⟩ := Option.isSome_iff_exists.mp specified
    obtain ⟨n, rfl, fullName⟩ := name v hasName
    obtain ⟨t, rfl, fullSpecification⟩ := specification w hasSpecification
    exact ⟨n, t, keys, hasName, fullName trivial, hasSpecification, fullSpecification trivial,
      enabled, by simpa using description⟩
  · rintro ⟨n, t, h⟩
    refine ⟨h.keys, ⟨by simp [h.name], by simp [h.specification]⟩, ?_, ?_, h.enabled, ?_⟩
    · intro v given
      exact ⟨n, Option.some.inj (given.symm.trans h.name), fun _ => h.named⟩
    · intro v given
      exact ⟨t, Option.some.inj (given.symm.trans h.specification), fun _ => h.specified⟩
    · simpa using h.description

/-- A document that lists the entries of constraints, at least one of them. -/
structure Lists (document : Json) (es : List Json) : Prop where
  keys : KeysAmong ["constraints".text] document
  entries : document.field? "constraints" = some (.list es)
  nonempty : es ≠ []
  each : ∀ e ∈ es, ∃ n t, States e n t

theorem conforms_constraints_iff {document : Json} :
    Conforms constraintsSchema document ↔ ∃ es, Lists document es := by
  have shape : constraintsSchema =
      .record ["constraints".text] [("constraints".text, .list true entrySchema)] := rfl
  simp only [shape, conforms_record_iff, List.forall_mem_cons, List.not_mem_nil, false_implies,
    implies_true, and_true, part_of_field, conforms_list_iff, conforms_entry_iff]
  constructor
  · rintro ⟨keys, present, all⟩
    obtain ⟨v, given⟩ := Option.isSome_iff_exists.mp present
    obtain ⟨es, rfl, nonempty, each⟩ := all v given
    exact ⟨es, keys, given, nonempty trivial, each⟩
  · rintro ⟨es, h⟩
    refine ⟨h.keys, by simp [h.entries], ?_⟩
    intro v given
    exact ⟨es, Option.some.inj (given.symm.trans h.entries), fun _ => h.nonempty, h.each⟩

theorem constraints_schema_tidy : constraintsSchema.Tidy := by
  have entry : entrySchema.Tidy := by
    refine .record (by decide) (by decide) (by decide) ?_
    simp only [List.forall_mem_cons]
    exact ⟨.text true, .text true, .flag, .text false, List.forall_mem_nil _⟩
  refine .record (by decide) (by decide) (by decide) ?_
  simp only [List.forall_mem_cons]
  exact ⟨.list true entry, List.forall_mem_nil _⟩

theorem check_nil_iff {validator : Validator} :
    s.check validator v = [] ↔ validator s v = [] := by
  rw [Schema.check, ← List.length_eq_zero_iff, List.length_mergeSort, List.length_eq_zero_iff]

theorem validate_ok_iff {validator : Validator} {document : Json}
    (reported : constraintsSchema.Findings document (validator constraintsSchema document)) :
    ConstraintSet.validate validator document = .ok () ↔ ∃ es, Lists document es := by
  rw [← conforms_constraints_iff, conforms_iff_flawless constraints_schema_tidy,
    ← reported_nil_iff reported, ← check_nil_iff, ConstraintSet.validate]
  split <;> simp_all

end VersionMatch
