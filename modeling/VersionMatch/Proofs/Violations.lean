import VersionMatch.Json.Schema
import Mathlib.Data.List.Nodup

/- What a schema has against each value of a document, whichever way a validator walks through
   them. A path ends where the document or the schema has nothing to follow it. -/
namespace VersionMatch

/-- No key is listed twice, all the way down, and each can be shown: it is not empty and has no
    line feed. -/
inductive Schema.Tidy : Schema → Prop where
  | text (nonempty : Bool) : Tidy (.text nonempty)
  | flag : Tidy .flag
  | list (nonempty : Bool) {items : Schema} (each : Tidy items) : Tidy (.list nonempty items)
  | record {required : List Text} {fields : List (Text × Schema)} (needed : required.Nodup)
      (known : (fields.map Prod.fst).Nodup) (shown : ∀ p ∈ fields, p.1 ≠ [] ∧ .char '\n' ∉ p.1)
      (each : ∀ p ∈ fields, Tidy p.2) : Tidy (.record required fields)

def Flawless (s : Schema) (v : Json) : Prop :=
  ∀ path t w f, s.at? path = some t → v.at? path = some w → ¬ Violates t w f

/- A value of the wrong kind is one case, and the right kinds are one case each. -/
@[elab_as_elim]
theorem by_kind {motive : Schema → Json → Prop}
    (other : ∀ s v, v.kind ≠ s.kind → motive s v)
    (text : ∀ nonempty t, motive (.text nonempty) (.str t))
    (flag : ∀ b, motive .flag (.bool b))
    (list : ∀ nonempty items vs, motive (.list nonempty items) (.list vs))
    (record : ∀ required fields given, motive (.record required fields) (.object given))
    (s : Schema) (v : Json) : motive s v := by
  by_cases same : v.kind = s.kind
  · cases s <;> cases v <;> first | contradiction | skip
    · exact text _ _
    · exact flag _
    · exact list _ _ _
    · exact record _ _ _
  · exact other s v same

variable {s t : Schema} {v w : Json} {step : Step}

theorem kind_of_part (asked : s.part? step = some t) (given : v.part? step = some w) :
    v.kind = s.kind := by
  cases s <;> cases v <;> cases step <;> first | contradiction | rfl

theorem violates_other_kind {f : Flaw} (other : v.kind ≠ s.kind) (violates : Violates s v f) :
    f = .wrongType := by
  cases violates with
  | wrongType _ => rfl
  | _ => exact absurd rfl other

theorem kind_of_wrong_type (violates : Violates s v .wrongType) : v.kind ≠ s.kind := by
  cases violates with
  | wrongType other => exact other

theorem sublist_pair_asymm {l : List Text} (distinct : l.Nodup) {j k : Text}
    (before : [j, k].Sublist l) : ¬ [k, j].Sublist l := by
  induction l with
  | nil => contradiction
  | cons x l ih =>
    obtain ⟨fresh, distinct⟩ := List.nodup_cons.mp distinct
    intro after
    cases before with
    | cons _ before =>
      cases after with
      | cons _ after => exact ih distinct before after
      | cons_cons _ after => exact fresh (before.subset (by simp))
    | cons_cons _ before =>
      cases after with
      | cons _ after => exact fresh (after.subset (by simp))
      | cons_cons _ after => exact fresh (before.subset (by simp))

theorem precedes_asymm (tidy : s.Tidy) {f g : Flaw} (before : Precedes s f g) :
    ¬ Precedes s g f := by
  intro after
  cases before with
  | missing first =>
    cases after with
    | missing second =>
      cases tidy with
      | record needed => exact sublist_pair_asymm needed first second
  | unexpected k => cases after

theorem mem_iff_lookup {α : Type} {fields : List (Text × α)} (known : (fields.map Prod.fst).Nodup)
    {key : Text} {a : α} : (key, a) ∈ fields ↔ fields.lookup key = some a := by
  constructor
  · intro mem
    obtain ⟨before, after, rfl⟩ := List.append_of_mem mem
    rw [List.map_append, List.nodup_append] at known
    rw [List.lookup_eq_some_iff]
    refine ⟨before, after, rfl, fun p earlier => ?_⟩
    have differs := known.2.2 p.1 (List.mem_map_of_mem earlier) key (by simp)
    exact bne_iff_ne.mpr differs.symm
  · intro found
    obtain ⟨before, after, rfl, _⟩ := List.lookup_eq_some_iff.mp found
    exact List.mem_append_right before List.mem_cons_self

theorem tidy_part (tidy : s.Tidy) (asked : s.part? step = some t) : t.Tidy := by
  cases tidy with
  | text nonempty => simp [Schema.part?] at asked
  | flag => simp [Schema.part?] at asked
  | list nonempty each =>
    cases step with
    | name key => simp [Schema.part?] at asked
    | index i => exact Option.some.inj asked ▸ each
  | record needed known shown each =>
    cases step with
    | index i => simp [Schema.part?] at asked
    | name key => exact each (key, t) ((mem_iff_lookup known).mpr asked)

theorem tidy_induction {motive : (s : Schema) → s.Tidy → Prop}
    (parts : ∀ s tidy,
      (∀ step t (asked : s.part? step = some t), motive t (tidy_part tidy asked)) → motive s tidy)
    {s : Schema} (tidy : s.Tidy) : motive s tidy := by
  induction tidy with
  | text nonempty => exact parts _ _ nofun
  | flag => exact parts _ _ nofun
  | list nonempty each ih =>
    refine parts _ _ fun step t asked => ?_
    cases step with
    | name key => simp [Schema.part?] at asked
    | index i =>
      cases asked
      exact ih
  | record needed known shown each ih =>
    refine parts _ _ fun step t asked => ?_
    cases step with
    | index i => simp [Schema.part?] at asked
    | name key => exact ih (key, t) ((mem_iff_lookup known).mpr asked)

theorem schema_at_cons (s : Schema) (step : Step) (path : List Step) :
    s.at? (step :: path) = (s.part? step).bind fun t => t.at? path := List.foldlM_cons

theorem json_at_cons (v : Json) (step : Step) (path : List Step) :
    v.at? (step :: path) = (v.part? step).bind fun w => w.at? path := List.foldlM_cons

theorem schema_at_append (s : Schema) (p q : List Step) :
    s.at? (p ++ q) = (s.at? p).bind fun t => t.at? q := List.foldlM_append

theorem json_at_append (v : Json) (p q : List Step) :
    v.at? (p ++ q) = (v.at? p).bind fun w => w.at? q := List.foldlM_append

theorem ends_at_other_kind {path : List Step} (other : v.kind ≠ s.kind)
    (asked : s.at? path = some t) (given : v.at? path = some w) : path = [] := by
  cases path with
  | nil => rfl
  | cons step path =>
    rw [schema_at_cons] at asked
    rw [json_at_cons] at given
    obtain ⟨_, stepS, _⟩ := Option.bind_eq_some_iff.mp asked
    obtain ⟨_, stepV, _⟩ := Option.bind_eq_some_iff.mp given
    exact absurd (kind_of_part stepS stepV) other

theorem tidy_at {path : List Step} (tidy : s.Tidy) (asked : s.at? path = some t) : t.Tidy := by
  induction path generalizing s with
  | nil => exact Option.some.inj asked ▸ tidy
  | cons step path ih =>
    rw [schema_at_cons] at asked
    obtain ⟨r, first, rest⟩ := Option.bind_eq_some_iff.mp asked
    exact ih (tidy_part tidy first) rest

/- Where a flaw is reported wherever there is one, an empty report says that there is none. -/
theorem reported_nil_iff {found : List Violation} (reported : s.Findings v found) :
    found = [] ↔ Flawless s v := by
  rw [← List.map_eq_nil_iff (f := Violation.finding), List.eq_nil_iff_forall_not_mem, Prod.forall]
  constructor
  · intro none path t w f asked given violates
    exact none path f ((reported.each path f).mpr ⟨t, w, asked, given, violates⟩)
  · intro flawless path f mem
    obtain ⟨t, w, asked, given, violates⟩ := (reported.each path f).mp mem
    exact flawless path t w f asked given violates

end VersionMatch
