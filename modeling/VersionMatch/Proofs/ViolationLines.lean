import VersionMatch.Proofs.TableRows
import VersionMatch.Proofs.Violations

/- The line about a violation says where in the document it is and, in the words of the validator,
   what is wrong there. A path has only names that the schema gives, so the line goes on to another
   only if those words do. -/
namespace VersionMatch

inductive IsStepText : Step → Text → Prop where
  | name (key : Text) : IsStepText (.name key) key
  | index (i : Nat) : IsStepText (.index i) (Text.ofNat i)

inductive Points : List Step → Text → Prop where
  | root : Points [] "<root>".text
  | below {step : Step} {path : List Step} {shown : List Text}
      (each : List.Forall₂ IsStepText (step :: path) shown) :
      Points (step :: path) ("/".text.intercalate shown)

inductive IsLineOf (x : Violation) : Text → Prop where
  | line {place : Text} (points : Points x.path place) :
      IsLineOf x ("- ".text ++ place ++ ": ".text ++ x.message)

def OneLine (t : Text) : Prop := .char '\n' ∉ t

instance (t : Text) : Decidable (OneLine t) := inferInstanceAs (Decidable (¬ _))

variable {t u : Text} {s r : Schema} {step : Step} {path : List Step}

theorem one_line_append : OneLine (t ++ u) ↔ OneLine t ∧ OneLine u := by
  simp only [OneLine, List.mem_append, not_or]

theorem one_line_intercalate {separator : Text} (between : OneLine separator) {ts : List Text}
    (each : ∀ t ∈ ts, OneLine t) : OneLine (separator.intercalate ts) := by
  induction ts with
  | nil => exact List.not_mem_nil
  | cons t ts ih =>
    obtain ⟨first, others⟩ := List.forall_mem_cons.mp each
    cases ts with
    | nil => rwa [List.intercalate_singleton]
    | cons next ts =>
      rw [List.intercalate_cons_cons, one_line_append, one_line_append]
      exact ⟨⟨first, between⟩, ih others⟩

theorem step_shown (tidy : s.Tidy) (asked : s.part? step = some r) :
    step.text ≠ [] ∧ OneLine step.text := by
  cases step with
  | index i => exact ⟨by simp [Step.text, Text.ofNat, Text.ofCharacters], (natural_fits i).1⟩
  | name key =>
    cases tidy with
    | record needed known shown each =>
      exact shown (key, r) ((mem_iff_lookup known).mpr asked)
    | _ => contradiction

theorem path_shown (tidy : s.Tidy) (asked : s.at? path = some r) :
    ∀ step ∈ path, step.text ≠ [] ∧ OneLine step.text := by
  induction path generalizing s with
  | nil => simp
  | cons step path ih =>
    rw [schema_at_cons] at asked
    obtain ⟨q, first, rest⟩ := Option.bind_eq_some_iff.mp asked
    exact List.forall_mem_cons.mpr ⟨step_shown tidy first, ih (tidy_part tidy first) rest⟩

theorem step_texts (path : List Step) : List.Forall₂ IsStepText path (path.map Step.text) := by
  rw [List.forall₂_map_right_iff, List.forall₂_same]
  intro step _
  cases step with
  | name key => exact .name key
  | index i => exact .index i

theorem intercalate_ne_nil {separator : Text} {ts : List Text} (filled : t ≠ []) :
    separator.intercalate (t :: ts) ≠ [] := by
  cases ts with
  | nil => rwa [List.intercalate_singleton]
  | cons next ts => simp [List.intercalate_cons_cons, filled]

theorem pointer_points {x : Violation} (tidy : s.Tidy) (asked : s.at? x.path = some r) :
    Points x.path x.pointer ∧ OneLine x.pointer := by
  have shown := path_shown tidy asked
  have spelled := step_texts x.path
  unfold Violation.pointer
  cases path : x.path with
  | nil => exact ⟨.root, by decide⟩
  | cons step rest =>
    rw [path] at shown spelled
    have filled : "/".text.intercalate ((step :: rest).map Step.text) ≠ [] :=
      intercalate_ne_nil (shown step List.mem_cons_self).1
    have line : OneLine ("/".text.intercalate ((step :: rest).map Step.text)) :=
      one_line_intercalate (by decide) (List.forall_mem_map.mpr fun step mem => (shown step mem).2)
    split
    · contradiction
    · exact ⟨.below spelled, line⟩

theorem line_of_violation {x : Violation} (tidy : s.Tidy) (asked : s.at? x.path = some r) :
    IsLineOf x x.line ∧ (OneLine x.message → OneLine x.line) := by
  obtain ⟨points, line⟩ := pointer_points tidy asked
  refine ⟨.line points, fun message => ?_⟩
  simp only [Violation.line, one_line_append]
  exact ⟨⟨⟨by decide, line⟩, by decide⟩, message⟩

end VersionMatch
