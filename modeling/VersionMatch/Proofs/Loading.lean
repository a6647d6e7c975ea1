import VersionMatch.Proofs.Attempts
import VersionMatch.Proofs.Conformance
import VersionMatch.Proofs.Octets
import VersionMatch.Proofs.Walking
import Mathlib.Data.List.Nodup

/- What loading makes of a document: it succeeds on exactly the valid ones, keeps every entry as
   it is stated, and otherwise reports the first entry that does not fit those before it. -/
namespace VersionMatch

/-- A constraint as its entry states it. A switch that is left out is on, and a description that
    is left out is empty. -/
structure Keeps (entry : Json) (c : Constraint) : Prop where
  name : entry.field? "id" = some c.id
  text : entry.field? "specification" = some (.str c.specification.text)
  parsed : Specification.parse (some c.specification.text) = .ok c.specification
  enabled : entry.field? "enabled" = some c.enabled ∨
    entry.field? "enabled" = none ∧ c.enabled = .bool true
  description : entry.field? "description" = some c.description ∨
    entry.field? "description" = none ∧ c.description = .str []

def Parses (entry : Json) : Prop :=
  ∃ t s, entry.field? "specification" = some (.str t) ∧ Specification.parse (some t) = .ok s

structure Sound (es : List Json) : Prop where
  parse : ∀ e ∈ es, Parses e
  distinct : (es.map (·.field? "id")).Nodup

/-- What a load that has passed the entries with the names `taken` has against an entry, and what it
    says of it. That the specification cannot be read comes first. -/
inductive Rejects (taken : Text → Prop) (entry : Json) : LoadFault → Text → Prop where
  | unreadable {n t : Text} {r : Refusal} (stated : States entry n t)
      (failed : Specification.parse (some t) = .error (.refused r)) :
      Rejects taken entry (.entry (.refused (.str n) r))
        ("Constraint '".text ++ n ++ "' has an invalid specification: ".text ++ r.message)
  | repeated {n t : Text} (stated : States entry n t) (parses : Parses entry) (again : taken n) :
      Rejects taken entry (.repeatedId (.str n))
        ("Duplicate constraint ID: '".text ++ n ++ "'".text)

theorem read_value (t : Option Text) : (Specification.read t).value = Specification.parse t := by
  unfold Specification.read
  cases Specification.parse t <;> rfl

theorem field_or_default {entry : Json} {key : String} {missing v : Json}
    (chosen : (entry.field? key).getD missing = v) :
    entry.field? key = some v ∨ entry.field? key = none ∧ v = missing := by
  cases given : entry.field? key with
  | none => exact .inr ⟨rfl, by simpa [given] using chosen.symm⟩
  | some w => exact .inl (by simpa [given] using chosen)

variable {entry : Json} {n t : Text}

theorem constraint_value (stated : States entry n t) :
    (Constraint.ofJson entry).value =
      Constraint.build (.str n) entry (Specification.parse (some t)) := by
  simp only [Constraint.ofJson, stated.name, stated.specification, Constraint.specificationText,
    Traced.value_bind, Traced.value_pure, read_value]

theorem constraint_refused {r : Refusal} (stated : States entry n t)
    (failed : Specification.parse (some t) = .error (.refused r)) :
    (Constraint.ofJson entry).value = .error (.refused (.str n) r) := by
  rw [constraint_value stated, failed, Constraint.build]

theorem constraint_kept {s : Specification} (stated : States entry n t)
    (parsed : Specification.parse (some t) = .ok s) :
    ∃ c, (Constraint.ofJson entry).value = .ok c ∧ Keeps entry c ∧ c.id = .str n := by
  rw [constraint_value stated, parsed]
  obtain ⟨rfl, _⟩ := specification_parse_ok_iff.mp parsed
  refine ⟨_, rfl, ?_, rfl⟩
  exact ⟨stated.name, stated.specification, parsed, field_or_default rfl, field_or_default rfl⟩

def entriesOutcome (seen : List Text) (es : List Json) : Except LoadFault (List Constraint) :=
  (ConstraintSet.loadEntries (seen.map Json.str) es).run.value

theorem text_same_iff {v : Json} : (Json.str n).same v = true ↔ v = .str n := by
  cases v with
  | str m =>
    rw [Json.same, beq_iff_eq, Json.str.injEq]
    exact eq_comm
  | _ => simp [Json.same, Json.numericOrder?, Json.magnitude?]

theorem entries_outcome_refused {f : ConstraintFault} (seen : List Text) (rest : List Json)
    (failed : (Constraint.ofJson entry).value = .error f) :
    entriesOutcome seen (entry :: rest) = .error (.entry f) := by
  simp only [entriesOutcome, ConstraintSet.loadEntries, Traced.value_run_bind, ExceptT.run_mk,
    Traced.value_map, failed, Except.mapError, error_bind]

theorem entries_outcome_kept {c : Constraint} (seen : List Text) (rest : List Json)
    (read : (Constraint.ofJson entry).value = .ok c) (name : c.id = .str n) :
    entriesOutcome seen (entry :: rest) =
      if n ∈ seen then .error (.repeatedId (.str n))
      else (entriesOutcome (n :: seen) rest).map (c :: ·) := by
  have known : ((seen.map Json.str).any (Json.str n).same = true) = (n ∈ seen) := by
    simp [text_same_iff]
  simp only [entriesOutcome, ConstraintSet.loadEntries, Traced.value_run_bind, ExceptT.run_mk,
    Traced.value_map, read, Except.mapError, ok_bind, name, known, List.map_cons]
  split
  · rfl
  · rw [Traced.value_run_bind]
    cases (ConstraintSet.loadEntries (.str n :: seen.map Json.str) rest).run.value <;> rfl

theorem parses_iff (stated : States entry n t) :
    Parses entry ↔ ∃ s, Specification.parse (some t) = .ok s := by
  simp [Parses, stated.specification]

def SoundAfter (seen : List Text) (es : List Json) : Prop :=
  Sound es ∧ ∀ m ∈ seen, some (.str m) ∉ es.map (·.field? "id")

theorem sound_after_nil (seen : List Text) : SoundAfter seen [] := by
  simp [SoundAfter, Sound.mk]

theorem sound_after_cons_iff (stated : States entry n t) {seen : List Text} {es : List Json} :
    SoundAfter seen (entry :: es) ↔ Parses entry ∧ n ∉ seen ∧ SoundAfter (n :: seen) es := by
  have unseen : (∀ m ∈ seen, some (.str m) ≠ entry.field? "id") ↔ n ∉ seen := by
    simp only [stated.name, ne_eq, Option.some.injEq, Json.str.injEq]
    exact ⟨fun apart mem => apart n mem rfl, fun new m mem same => new (same ▸ mem)⟩
  constructor
  · rintro ⟨⟨parse, distinct⟩, fresh⟩
    obtain ⟨first, later⟩ := List.forall_mem_cons.mp parse
    obtain ⟨alone, distinct⟩ := List.nodup_cons.mp distinct
    simp only [List.map_cons, List.mem_cons, not_or] at fresh
    refine ⟨first, unseen.mp fun m mem => (fresh m mem).1, ⟨later, distinct⟩, ?_⟩
    exact List.forall_mem_cons.mpr ⟨stated.name ▸ alone, fun m mem => (fresh m mem).2⟩
  · rintro ⟨first, new, ⟨later, distinct⟩, fresh⟩
    obtain ⟨alone, fresh⟩ := List.forall_mem_cons.mp fresh
    refine ⟨⟨List.forall_mem_cons.mpr ⟨first, later⟩, ?_⟩, ?_⟩
    · exact List.nodup_cons.mpr ⟨show entry.field? "id" ∉ _ from stated.name ▸ alone, distinct⟩
    · intro m mem
      simp only [List.map_cons, List.mem_cons, not_or]
      exact ⟨unseen.mpr new m mem, fresh m mem⟩

/-- One turn of the loop over the entries. -/
inductive Turn (seen : List Text) (entry : Json) (rest : List Json) :
    Except LoadFault (List Constraint) → Prop where
  | rejected {f : LoadFault} {message : Text} (reason : Rejects (· ∈ seen) entry f message) :
      Turn seen entry rest (.error f)
  | kept {n t : Text} {c : Constraint} (stated : States entry n t) (parses : Parses entry)
      (new : n ∉ seen) (keeps : Keeps entry c) :
      Turn seen entry rest ((entriesOutcome (n :: seen) rest).map (c :: ·))

theorem entries_turn (seen : List Text) (rest : List Json) (stated : States entry n t) :
    Turn seen entry rest (entriesOutcome seen (entry :: rest)) := by
  cases outcome : Specification.parse (some t) with
  | error f =>
    cases f with
    | refused r =>
      rw [entries_outcome_refused seen rest (constraint_refused stated outcome)]
      exact .rejected (.unreadable stated outcome)
    | defect d => exact absurd outcome (specification_parse_no_defect (some t) d)
  | ok s =>
    have parses := (parses_iff stated).mpr ⟨s, outcome⟩
    obtain ⟨c, read, keeps, name⟩ := constraint_kept stated outcome
    rw [entries_outcome_kept seen rest read name]
    split
    · exact .rejected (.repeated stated parses ‹n ∈ seen›)
    · exact .kept stated parses ‹n ∉ seen› keeps

variable {es : List Json}

theorem entries_kept (each : ∀ e ∈ es, ∃ n t, States e n t) {seen : List Text}
    {cs : List Constraint} (loaded : entriesOutcome seen es = .ok cs) :
    SoundAfter seen es ∧ List.Forall₂ Keeps es cs := by
  induction es generalizing seen cs with
  | nil =>
    cases loaded
    exact ⟨sound_after_nil seen, .nil⟩
  | cons entry rest ih =>
    obtain ⟨⟨n, t, stated⟩, each⟩ := List.forall_mem_cons.mp each
    have turn := entries_turn seen rest stated
    rw [loaded] at turn
    generalize result : Except.ok cs = outcome at turn
    cases turn with
    | rejected => cases result
    | kept stated parses new keeps =>
      obtain ⟨ds, further, rfl⟩ := map_ok_iff.mp result.symm
      obtain ⟨sound, related⟩ := ih each further
      exact ⟨(sound_after_cons_iff stated).mpr ⟨parses, new, sound⟩, .cons keeps related⟩

theorem entries_rejected (each : ∀ e ∈ es, ∃ n t, States e n t) {seen : List Text} {f : LoadFault}
    (failed : entriesOutcome seen es = .error f) :
    ∃ before e after message, es = before ++ e :: after ∧ SoundAfter seen before ∧
      Rejects (fun n => n ∈ seen ∨ some (.str n) ∈ before.map (·.field? "id")) e f message := by
  induction es generalizing seen with
  | nil => cases failed
  | cons entry rest ih =>
    obtain ⟨⟨n, t, stated⟩, each⟩ := List.forall_mem_cons.mp each
    have turn := entries_turn seen rest stated
    rw [failed] at turn
    generalize result : Except.error f = outcome at turn
    cases turn with
    | rejected reason =>
      cases result
      exact ⟨[], entry, rest, _, rfl, sound_after_nil seen, by simpa using reason⟩
    | @kept n t c stated parses new keeps =>
      obtain ⟨before, e, after, message, rfl, sound, reason⟩ :=
        ih each (map_error_iff.mp result.symm)
      refine ⟨entry :: before, e, after, message, rfl,
        (sound_after_cons_iff stated).mpr ⟨parses, new, sound⟩, ?_⟩
      have same : ∀ m, m ∈ n :: seen ∨ some (.str m) ∈ before.map (·.field? "id") ↔
          m ∈ seen ∨ some (.str m) ∈ (entry :: before).map (·.field? "id") := by
        intro m
        simp only [List.mem_cons, List.map_cons, stated.name, Option.some.injEq, Json.str.injEq]
        tauto
      simpa only [same] using reason

theorem entries_loaded_iff (each : ∀ e ∈ es, ∃ n t, States e n t) :
    (∃ cs, entriesOutcome [] es = .ok cs) ↔ Sound es := by
  constructor
  · rintro ⟨cs, loaded⟩
    exact (entries_kept each loaded).1.1
  · intro sound
    cases outcome : entriesOutcome [] es with
    | ok cs => exact ⟨cs, rfl⟩
    | error f =>
      obtain ⟨before, e, after, _, rfl, _, reason⟩ := entries_rejected each outcome
      cases reason with
      | unreadable stated failed =>
        obtain ⟨s, parsed⟩ := (parses_iff stated).mp (sound.parse e (by simp))
        rw [parsed] at failed
        cases failed
      | @repeated n t stated _ again =>
        have distinct := sound.distinct
        rw [List.map_append, List.nodup_append] at distinct
        have earlier : some (.str n) ∈ before.map (·.field? "id") := by simpa using again
        exact absurd stated.name.symm (distinct.2.2 _ earlier _ (by simp))

def documentOutcome (validator : Validator) (document : Json) : Except LoadFault ConstraintSet :=
  ConstraintSet.validate validator document >>= fun _ =>
    (entriesOutcome [] (ConstraintSet.entriesOf document)).map ConstraintSet.mk

theorem load_value (w : Surroundings) (asked : Option Text) :
    (ConstraintSet.load w asked).run.value =
      ConstraintSet.readText (w.source asked).shown (w.read (w.source asked).path) >>=
        ConstraintSet.readDocument w.nesting >>= documentOutcome w.validator := by
  simp only [ConstraintSet.load, ConstraintSet.load.liftExcept, Traced.value_run_bind,
    ExceptT.run_mk, Traced.value_pure, bind_assoc]
  refine congrArg _ (funext fun content => congrArg _ (funext fun document => congrArg _ ?_))
  funext _
  rw [entriesOutcome, List.map_nil]
  cases (ConstraintSet.loadEntries [] (ConstraintSet.entriesOf document)).run.value with
  | ok cs => rfl
  | error f => rfl

theorem load_of_document {w : Surroundings} {asked : Option Text} {content : Characters}
    {document : Json} (found : w.read (w.source asked).path = .octets (Utf8.encode content))
    (read : Json.read w.nesting content.withLineFeeds = .ok document) :
    (ConstraintSet.load w asked).run.value = documentOutcome w.validator document := by
  rw [load_value, found, ConstraintSet.readText, Utf8.decode_ok_iff.mpr rfl]
  simp [ConstraintSet.readDocument, read, Except.mapError, Except.map]

/-- Every document that can be read is reported on. -/
def Surroundings.Reliable (w : Surroundings) : Prop :=
  ∀ content document, Json.read w.nesting content = .ok document →
    constraintsSchema.Findings document (w.validator constraintsSchema document)

theorem reported_of_opened {w : Surroundings} (reliable : w.Reliable) {source : Text}
    {reading : Reading} {document : Json}
    (opened : ConstraintSet.readText source reading >>= ConstraintSet.readDocument w.nesting =
      .ok document) :
    constraintsSchema.Findings document (w.validator constraintsSchema document) := by
  obtain ⟨content, _, parsed⟩ := bind_ok_iff.mp opened
  unfold ConstraintSet.readDocument at parsed
  split at parsed
  · rename_i read
    cases parsed
    exact reliable content document read
  · split at parsed <;> cases parsed

variable {validator : Validator}

theorem listed_outcome {document : Json}
    (reported : constraintsSchema.Findings document (validator constraintsSchema document))
    (lists : Lists document es) :
    documentOutcome validator document = (entriesOutcome [] es).map ConstraintSet.mk := by
  rw [documentOutcome, (validate_ok_iff reported).mpr ⟨es, lists⟩, ok_bind, ConstraintSet.entriesOf,
    lists.entries]

theorem loaded_document {document : Json} {set : ConstraintSet}
    (reported : constraintsSchema.Findings document (validator constraintsSchema document))
    (loaded : documentOutcome validator document = .ok set) :
    ∃ es, Lists document es ∧ entriesOutcome [] es = .ok set.constraints := by
  obtain ⟨_, valid, _⟩ := bind_ok_iff.mp loaded
  obtain ⟨es, lists⟩ := (validate_ok_iff reported).mp valid
  rw [listed_outcome reported lists] at loaded
  obtain ⟨cs, read, rfl⟩ := map_ok_iff.mp loaded
  exact ⟨es, lists, read⟩

structure Named (cs : List Constraint) : Prop where
  texts : ∀ c ∈ cs, ∃ n, c.id = .str n
  distinct : (cs.map Constraint.id).Nodup
  switches : ∀ c ∈ cs, ∃ b, c.enabled = .bool b

theorem kept_names {cs : List Constraint} (kept : List.Forall₂ Keeps es cs) :
    cs.map (fun c => some c.id) = es.map (·.field? "id") := by
  induction kept with
  | nil => rfl
  | cons keeps _ ih => rw [List.map_cons, List.map_cons, ih, keeps.name]

theorem kept_named {cs : List Constraint} (each : ∀ e ∈ es, ∃ n t, States e n t) (sound : Sound es)
    (kept : List.Forall₂ Keeps es cs) : Named cs := by
  refine ⟨?_, ?_, ?_⟩
  · intro c mem
    obtain ⟨e, given, keeps⟩ := forall₂_mem_right kept c mem
    obtain ⟨n, t, stated⟩ := each e given
    exact ⟨n, Option.some.inj (keeps.name.symm.trans stated.name)⟩
  · have distinct := kept_names kept ▸ sound.distinct
    rw [show (fun c : Constraint => some c.id) = some ∘ Constraint.id from rfl, ← List.map_map]
      at distinct
    exact List.Nodup.of_map some distinct
  · intro c mem
    obtain ⟨e, given, keeps⟩ := forall₂_mem_right kept c mem
    obtain ⟨n, t, stated⟩ := each e given
    rcases keeps.enabled with enabled | ⟨_, enabled⟩
    · exact stated.enabled _ enabled
    · exact ⟨true, enabled⟩

theorem by_id_of_mem {set : ConstraintSet} (named : Named set.constraints) {c : Constraint}
    (mem : c ∈ set.constraints) : set.byId? c.id = some c := by
  obtain ⟨before, after, split⟩ := List.append_of_mem mem
  have distinct := named.distinct
  rw [split, List.map_append, List.nodup_append] at distinct
  obtain ⟨n, name⟩ := named.texts c mem
  rw [ConstraintSet.byId?, List.find?_eq_some_iff_append]
  refine ⟨by rw [name]; exact text_same_iff.mpr rfl, before, after, split, ?_⟩
  intro d earlier
  obtain ⟨m, other⟩ := named.texts d (split ▸ List.mem_append_left _ earlier)
  have apart := distinct.2.2 d.id (List.mem_map_of_mem earlier) c.id (by simp)
  rw [other] at apart ⊢
  rw [Bool.not_eq_true', ← Bool.not_eq_true, text_same_iff]
  exact fun same => apart same.symm

theorem by_id_none {set : ConstraintSet} (named : Named set.constraints) {id : Json}
    (other : ∀ c ∈ set.constraints, c.id ≠ id) : set.byId? id = none := by
  rw [ConstraintSet.byId?, List.find?_eq_none]
  intro c mem
  obtain ⟨n, name⟩ := named.texts c mem
  rw [name, text_same_iff]
  exact fun same => other c mem (name.trans same.symm)

theorem mem_enabled_iff {set : ConstraintSet} (named : Named set.constraints) {c : Constraint}
    (mem : c ∈ set.constraints) : c ∈ set.enabled ↔ c.enabled = .bool true := by
  obtain ⟨b, switch⟩ := named.switches c mem
  simp [ConstraintSet.enabled, mem, switch, Json.truthy]

structure LoadsAs (document : Json) (outcome : Except LoadFault ConstraintSet) : Prop where
  accepted : (∃ set, outcome = .ok set) ↔ ∃ es, Lists document es ∧ Sound es
  kept : ∀ set, outcome = .ok set →
    ∃ es, Lists document es ∧ List.Forall₂ Keeps es set.constraints
  found : ∀ set, outcome = .ok set → ∀ c ∈ set.constraints, set.byId? c.id = some c
  unknown : ∀ set, outcome = .ok set →
    ∀ id, (∀ c ∈ set.constraints, c.id ≠ id) → set.byId? id = none
  enabled : ∀ set, outcome = .ok set → set.enabled.Sublist set.constraints ∧
    ∀ c ∈ set.constraints, c ∈ set.enabled ↔ c.enabled = .bool true
  rejected : ∀ es f, Lists document es → outcome = .error f → f.isConfiguration = true ∧
    ∃ before e after message, es = before ++ e :: after ∧ Sound before ∧
      Rejects (fun n => some (.str n) ∈ before.map (·.field? "id")) e f message ∧
      f.message = message

theorem rejection_reported {taken : Text → Prop} {entry : Json} {f : LoadFault} {message : Text}
    (reason : Rejects taken entry f message) : f.isConfiguration = true ∧ f.message = message := by
  cases reason <;> exact ⟨rfl, rfl⟩

theorem document_loads_as {w : Surroundings} (reliable : w.Reliable) {asked : Option Text}
    {content : Characters} {document : Json}
    (found : w.read (w.source asked).path = .octets (Utf8.encode content))
    (read : Json.read w.nesting content.withLineFeeds = .ok document) :
    LoadsAs document (ConstraintSet.load w asked).run.value := by
  have reported := reliable _ _ read
  rw [load_of_document found read]
  have named : ∀ set, documentOutcome w.validator document = .ok set → Named set.constraints := by
    intro set loaded
    obtain ⟨es, lists, read⟩ := loaded_document reported loaded
    obtain ⟨sound, kept⟩ := entries_kept lists.each read
    exact kept_named lists.each sound.1 kept
  refine ⟨?_, ?_, ?_, ?_, ?_, ?_⟩
  · constructor
    · rintro ⟨set, loaded⟩
      obtain ⟨es, lists, read⟩ := loaded_document reported loaded
      exact ⟨es, lists, (entries_loaded_iff lists.each).mp ⟨_, read⟩⟩
    · rintro ⟨es, lists, sound⟩
      obtain ⟨cs, read⟩ := (entries_loaded_iff lists.each).mpr sound
      exact ⟨⟨cs⟩, by rw [listed_outcome reported lists, read, Except.map]⟩
  · intro set loaded
    obtain ⟨es, lists, read⟩ := loaded_document reported loaded
    exact ⟨es, lists, (entries_kept lists.each read).2⟩
  · exact fun set loaded c mem => by_id_of_mem (named set loaded) mem
  · exact fun set loaded id other => by_id_none (named set loaded) other
  · intro set loaded
    exact ⟨List.filter_sublist, fun c mem => mem_enabled_iff (named set loaded) mem⟩
  · intro es f lists failed
    rw [listed_outcome reported lists, map_error_iff] at failed
    obtain ⟨before, e, after, message, split, sound, reason⟩ := entries_rejected lists.each failed
    obtain ⟨configuration, told⟩ := rejection_reported reason
    exact ⟨configuration, before, e, after, message, split, sound.1, by simpa using reason, told⟩

def Surroundings.holding (content : Characters) : Surroundings where
  workingDirectory := []
  constraintsVariable := none
  read _ := .octets (Utf8.encode content)
  nesting := 3
  validator := Schema.validator
  printFault? := Utf8.encodeFault?

theorem holding_reliable (content : Characters) : (Surroundings.holding content).Reliable :=
  fun _ document _ => validator_reports constraints_schema_tidy document

/-- One name is half of a pair that stands alone. -/
def twoConstraints : Characters :=
  ("\x7b\"constraints\":[\x7b\"id\":\"\\ud800\",\"specification\":\"1+\"\x7d," ++
    "\x7b\"id\":\"\\ud801\",\"specification\":\"2*\",\"enabled\":false\x7d]\x7d").toList

theorem two_constraints_load_as :
    ∃ document set, Json.read 3 twoConstraints.withLineFeeds = .ok document ∧
      LoadsAs document (ConstraintSet.load (.holding twoConstraints) none).run.value ∧
      (ConstraintSet.load (.holding twoConstraints) none).run.value = .ok set ∧
      set.constraints.map (·.id.text) = [[.half 0], [.half 1]] ∧ set.enabled.length = 1 := by
  have evaluated : (Json.read 3 twoConstraints.withLineFeeds).toOption.bind (fun document =>
      (documentOutcome Schema.validator document).toOption.map fun set =>
        (set.constraints.map (·.id.text), set.enabled.length)) =
          some ([[.half 0], [.half 1]], 1) := by
    decide +kernel
  obtain ⟨document, read, rest⟩ := Option.bind_eq_some_iff.mp evaluated
  obtain ⟨set, outcome, sizes⟩ := Option.map_eq_some_iff.mp rest
  have read := to_option_some_iff.mp read
  have loaded : (ConstraintSet.load (.holding twoConstraints) none).run.value =
      documentOutcome Schema.validator document := load_of_document rfl read
  rw [to_option_some_iff.mp outcome] at loaded
  have loads : LoadsAs document (ConstraintSet.load (.holding twoConstraints) none).run.value :=
    document_loads_as (holding_reliable twoConstraints) rfl read
  exact ⟨document, set, read, loads, loaded, Prod.mk.inj sizes⟩

end VersionMatch
