import VersionMatch.Proofs.Loading
import VersionMatch.Proofs.Rereading

/- A constraint set that was loaded is loaded again from the document it is written to. -/
namespace VersionMatch

structure Constraint.Stateable (c : Constraint) : Prop where
  name : ∃ n, c.id = .str n ∧ n ≠ []
  text : c.specification.text ≠ []
  parsed : Specification.parse (some c.specification.text) = .ok c.specification
  switch : ∃ b, c.enabled = .bool b
  description : ∃ d, c.description = .str d

theorem kept_stateable {entry : Json} {n t : Text} {c : Constraint} (stated : States entry n t)
    (keeps : Keeps entry c) : c.Stateable where
  name := ⟨n, Option.some.inj (keeps.name.symm.trans stated.name), stated.named⟩
  text := by
    have same := Option.some.inj (keeps.text.symm.trans stated.specification)
    rw [Json.str.inj same]
    exact stated.specified
  parsed := keeps.parsed
  switch := by
    rcases keeps.enabled with given | ⟨_, default⟩
    · exact stated.enabled _ given
    · exact ⟨true, default⟩
  description := by
    rcases keeps.description with given | ⟨_, default⟩
    · exact stated.description _ given
    · exact ⟨[], default⟩

variable {c : Constraint}

theorem stored_keeps (stateable : c.Stateable) : Keeps c.toJson c where
  name := rfl
  text := rfl
  parsed := stateable.parsed
  enabled := .inl rfl
  description := .inl rfl

theorem stored_states (stateable : c.Stateable) :
    ∃ n, States c.toJson n c.specification.text := by
  obtain ⟨n, name, named⟩ := stateable.name
  refine ⟨n, ⟨⟨_, rfl, by simp⟩, ?_, named, rfl, stateable.text, ?_, ?_⟩⟩
  · rw [← name]
    rfl
  · intro v given
    obtain ⟨b, switch⟩ := stateable.switch
    exact ⟨b, (Option.some.inj given).symm.trans switch⟩
  · intro v given
    obtain ⟨d, description⟩ := stateable.description
    exact ⟨d, (Option.some.inj given).symm.trans description⟩

theorem keeps_stored_iff (stateable : c.Stateable) {other : Constraint} :
    Keeps c.toJson other ↔ other = c := by
  constructor
  · intro keeps
    have id : other.id = c.id := (Option.some.inj keeps.name).symm
    have text : other.specification.text = c.specification.text :=
      (Json.str.inj (Option.some.inj keeps.text)).symm
    have specification : other.specification = c.specification := by
      have parsed := keeps.parsed
      rw [text, stateable.parsed] at parsed
      exact (Except.ok.inj parsed).symm
    have enabled : other.enabled = c.enabled := by
      rcases keeps.enabled with given | ⟨absent, _⟩
      · exact (Option.some.inj given).symm
      · cases absent
    have description : other.description = c.description := by
      rcases keeps.description with given | ⟨absent, _⟩
      · exact (Option.some.inj given).symm
      · cases absent
    cases other
    cases c
    simp_all
  · rintro rfl
    exact stored_keeps stateable

variable {cs : List Constraint}

theorem stored_each (stateable : ∀ c ∈ cs, c.Stateable) :
    ∀ e ∈ cs.map Constraint.toJson, ∃ n t, States e n t := by
  intro e mem
  obtain ⟨c, given, rfl⟩ := List.mem_map.mp mem
  obtain ⟨n, states⟩ := stored_states (stateable c given)
  exact ⟨n, _, states⟩

theorem stored_sound (stateable : ∀ c ∈ cs, c.Stateable)
    (distinct : (cs.map Constraint.id).Nodup) : Sound (cs.map Constraint.toJson) where
  parse := by
    intro e mem
    obtain ⟨c, given, rfl⟩ := List.mem_map.mp mem
    exact ⟨_, _, rfl, (stateable c given).parsed⟩
  distinct := by
    have names : (cs.map Constraint.toJson).map (·.field? "id") =
        (cs.map Constraint.id).map some := by
      simp only [List.map_map]
      rfl
    rw [names]
    exact distinct.map fun _ _ => Option.some.inj

theorem stored_entries (stateable : ∀ c ∈ cs, c.Stateable)
    (distinct : (cs.map Constraint.id).Nodup) :
    entriesOutcome [] (cs.map Constraint.toJson) = .ok cs := by
  have each := stored_each stateable
  obtain ⟨ds, read⟩ := (entries_loaded_iff each).mpr (stored_sound stateable distinct)
  have kept := (entries_kept each read).2
  rw [List.forall₂_map_left_iff] at kept
  have same : List.Forall₂ Eq cs ds := by
    refine ((List.forall₂_and_left cs ds).mpr ⟨stateable, kept⟩).imp ?_
    rintro c d ⟨stateable, keeps⟩
    exact ((keeps_stored_iff stateable).mp keeps).symm
  rw [List.forall₂_eq_eq_eq] at same
  rw [read, same]

theorem stored_lists (nonempty : cs ≠ []) (stateable : ∀ c ∈ cs, c.Stateable) :
    Lists (ConstraintSet.toJson ⟨cs⟩) (cs.map Constraint.toJson) :=
  ⟨⟨_, rfl, by simp⟩, rfl, by simpa using nonempty, stored_each stateable⟩

/-- No text of the constraint holds half of a pair. -/
structure Constraint.Whole (c : Constraint) : Prop where
  name : ∀ n, c.id = .str n → ∀ p ∈ n, p.isHalf = false
  text : ∀ p ∈ c.specification.text, p.isHalf = false
  description : ∀ d, c.description = .str d → ∀ p ∈ d, p.isHalf = false

/- The document, its list and the entries stand in each other, and nothing stands deeper. -/
theorem stored_restorable (stateable : ∀ c ∈ cs, c.Stateable) (whole : ∀ c ∈ cs, c.Whole)
    (levels : Nat) : Json.Restorable (levels + 3) (ConstraintSet.toJson ⟨cs⟩) := by
  refine .object (by simp) (by simp [Json.unjoined_literal]) ?_
  intro p mem
  obtain rfl := List.mem_singleton.mp mem
  refine .list ?_
  intro e mem
  obtain ⟨c, given, rfl⟩ := List.mem_map.mp mem
  obtain ⟨⟨n, name, _⟩, _, _, ⟨b, switch⟩, ⟨d, description⟩⟩ := stateable c given
  obtain ⟨wholeName, wholeText, wholeDescription⟩ := whole c given
  have keys : (["id", "specification", "enabled", "description"].map String.text).Nodup := by
    decide
  refine .object keys (by simp [Json.unjoined_literal]) ?_
  simp only [name, switch, description, List.forall_mem_cons]
  exact ⟨.str (Json.unjoined_of_whole (wholeName n name)),
    .str (Json.unjoined_of_whole wholeText), .bool b,
    .str (Json.unjoined_of_whole (wholeDescription d description)), by simp⟩

theorem loaded_stateable {w : Surroundings} (reliable : w.Reliable) {asked : Option Text}
    (loaded : (ConstraintSet.load w asked).run.value = .ok ⟨cs⟩) :
    cs ≠ [] ∧ (∀ c ∈ cs, c.Stateable) ∧ (cs.map Constraint.id).Nodup := by
  rw [load_value] at loaded
  obtain ⟨document, opened, outcome⟩ := bind_ok_iff.mp loaded
  obtain ⟨es, lists, read⟩ := loaded_document (reported_of_opened reliable opened) outcome
  obtain ⟨sound, kept⟩ := entries_kept lists.each read
  refine ⟨?_, ?_, (kept_named lists.each sound.1 kept).distinct⟩
  · rintro rfl
    exact lists.nonempty (List.forall₂_nil_right_iff.mp kept)
  · intro c mem
    obtain ⟨e, given, keeps⟩ := forall₂_mem_right kept c mem
    obtain ⟨n, t, stated⟩ := lists.each e given
    exact kept_stateable stated keeps

theorem stored_set_loads_again {w again : Surroundings} (reliable : w.Reliable)
    (reliableAgain : again.Reliable) (room : 3 ≤ again.nesting) {asked other : Option Text}
    {set : ConstraintSet} {t : Characters}
    (loaded : (ConstraintSet.load w asked).run.value = .ok set)
    (whole : ∀ c ∈ set.constraints, c.Whole)
    (written : t = Json.compact set.toJson ∨ t = Json.indented set.toJson)
    (stored : again.read (again.source other).path = .octets (Utf8.encode t)) :
    (ConstraintSet.load again other).run.value = .ok set := by
  obtain ⟨cs⟩ := set
  obtain ⟨nonempty, stateable, distinct⟩ := loaded_stateable reliable loaded
  have restorable : Json.Restorable again.nesting (ConstraintSet.toJson ⟨cs⟩) := by
    rw [← Nat.sub_add_cancel room]
    exact stored_restorable stateable whole (again.nesting - 3)
  have reread : Json.read again.nesting t.withLineFeeds = .ok (ConstraintSet.toJson ⟨cs⟩) := by
    rcases written with rfl | rfl
    · exact Json.read_written Json.one_line_loose restorable
    · exact Json.read_written Json.indented_loose restorable
  rw [load_of_document stored reread,
    listed_outcome (reliableAgain _ _ reread) (stored_lists nonempty stateable),
    stored_entries stateable distinct]
  rfl

theorem whole_of_literals {c : Constraint} {id specification description : String}
    (name : c.id.text = id.text) (text : c.specification.text = specification.text)
    (remark : c.description.text = description.text) : c.Whole := by
  refine ⟨?_, ?_, ?_⟩
  · intro n given
    rw [given, Json.text] at name
    rw [name]
    exact Json.literal_whole id
  · rw [text]
    exact Json.literal_whole specification
  · intro d given
    rw [given, Json.text] at remark
    rw [remark]
    exact Json.literal_whole description

def quotedConstraint : Characters :=
  ("\x7b\"constraints\":[\x7b\"id\":\"\\\"a\\\"\",\"specification\":\"1.0\\n2+\"," ++
    "\"description\":\"\\ud83d\\ude00\"\x7d]\x7d").toList

theorem quoted_constraint_loads_again :
    ∃ set, (Surroundings.holding quotedConstraint).Reliable ∧
      (ConstraintSet.load (.holding quotedConstraint) none).run.value = .ok set ∧
      (∀ c ∈ set.constraints, c.Whole) ∧
      set.constraints.map (fun c => (c.id.text, c.specification.text, c.description.text)) =
        [("\"a\"".text, "1.0\n2+".text, "😀".text)] ∧
      (ConstraintSet.load (.holding (Json.indented set.toJson)) none).run.value = .ok set := by
  have reliable := holding_reliable quotedConstraint
  have evaluated : ((Json.read 3 quotedConstraint.withLineFeeds).toOption.bind fun document =>
      (documentOutcome Schema.validator document).toOption.map fun set =>
        set.constraints.map fun c => (c.id.text, c.specification.text, c.description.text)) =
          some [("\"a\"".text, "1.0\n2+".text, "😀".text)] := by
    decide +kernel
  obtain ⟨document, read, rest⟩ := Option.bind_eq_some_iff.mp evaluated
  obtain ⟨set, outcome, texts⟩ := Option.map_eq_some_iff.mp rest
  have opened : (ConstraintSet.load (.holding quotedConstraint) none).run.value =
      documentOutcome Schema.validator document :=
    load_of_document rfl (to_option_some_iff.mp read)
  have loaded : (ConstraintSet.load (.holding quotedConstraint) none).run.value = .ok set := by
    rw [opened, to_option_some_iff.mp outcome]
  have whole : ∀ c ∈ set.constraints, c.Whole := by
    intro c mem
    have shown : (c.id.text, c.specification.text, c.description.text) ∈
        [("\"a\"".text, "1.0\n2+".text, "😀".text)] := by
      rw [← texts]
      exact List.mem_map.mpr ⟨c, mem, rfl⟩
    rw [List.mem_singleton, Prod.mk.injEq, Prod.mk.injEq] at shown
    exact whole_of_literals shown.1 shown.2.1 shown.2.2
  exact ⟨set, reliable, loaded, whole, texts, stored_set_loads_again reliable (holding_reliable _)
    (Nat.le_refl 3) loaded whole (.inr rfl) rfl⟩

end VersionMatch
