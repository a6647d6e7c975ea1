import VersionMatch.Proofs.NumericOrder
import VersionMatch.Proofs.Violations

/- The sorting of violations by path. The order of a name and an index is never asked for, and what
   one value has against it keeps its order. -/
namespace VersionMatch

def Step.order? : Step → Step → Option Ordering
  | .name a, .name b => some (compare a b)
  | .index a, .index b => some (compare a b)
  | _, _ => none

/-- The first unequal steps decide, and a path stands before its extensions. -/
def pathOrder : List Step → List Step → Option Ordering := lexicalOrder Step.order?

instance : Std.OrientedCmp Step.order where
  eq_swap {x y} := by
    cases x <;> cases y <;> first | rfl | exact Std.OrientedOrd.eq_swap

instance : Std.TransCmp Step.order where
  isLE_trans {x y z} first second := by
    cases x with
    | name a =>
      cases z with
      | index k => rfl
      | name c =>
        cases y with
        | name b => exact Std.TransOrd.isLE_trans first second
        | index j => contradiction
    | index i =>
      cases y with
      | name b => contradiction
      | index j =>
        cases z with
        | name c => contradiction
        | index k => exact Std.TransOrd.isLE_trans first second

instance : Std.LawfulEqCmp Step.order where
  compare_self {x} := by
    cases x with
    | name a => exact Std.ReflOrd.compare_self
    | index i => exact Std.ReflOrd.compare_self
  eq_of_compare {x y} equal := by
    cases x with
    | name a =>
      cases y with
      | name b => exact congrArg Step.name (Std.LawfulEqOrd.eq_of_compare equal)
      | index j => contradiction
    | index i =>
      cases y with
      | name b => contradiction
      | index j => exact congrArg Step.index (Std.LawfulEqOrd.eq_of_compare equal)

variable {s t u : Schema} {v : Json}

theorem step_order_of_part {x y : Step} (first : s.part? x = some t) (second : s.part? y = some u) :
    Step.order? x y = some (x.order y) := by
  cases s <;> cases x <;> cases y <;> first | contradiction | rfl

theorem path_order_of_schema {p q : List Step} (first : s.at? p = some t)
    (second : s.at? q = some u) : pathOrder p q = some (List.compareLex Step.order p q) := by
  induction p generalizing s q with
  | nil => cases q <;> rfl
  | cons x p ih =>
    cases q with
    | nil => rfl
    | cons y q =>
      rw [schema_at_cons] at first second
      obtain ⟨r, stepX, restX⟩ := Option.bind_eq_some_iff.mp first
      obtain ⟨r', stepY, restY⟩ := Option.bind_eq_some_iff.mp second
      rw [pathOrder, lexicalOrder, step_order_of_part stepX stepY, List.compareLex_cons_cons]
      cases outcome : x.order y with
      | lt => rfl
      | gt => rfl
      | eq =>
        have same : x = y := Std.LawfulEqCmp.eq_of_compare outcome
        have part : r = r' := Option.some.inj (stepX.symm.trans (same ▸ stepY))
        exact ih restX (part ▸ restY)

theorem path_order_antisymm {p q : List Step} (first : s.at? p = some t)
    (second : s.at? q = some u) (before : ∃ o, pathOrder p q = some o ∧ o.isLE = true)
    (after : ∃ o, pathOrder q p = some o ∧ o.isLE = true) : p = q := by
  obtain ⟨o, order, least⟩ := before
  obtain ⟨o', order', least'⟩ := after
  rw [path_order_of_schema first second] at order
  rw [path_order_of_schema second first] at order'
  cases order
  cases order'
  have equal : List.compareLex Step.order p q = .eq := Std.OrientedCmp.isLE_antisymm least least'
  exact Std.LawfulEqCmp.eq_of_compare equal

theorem in_order_iff {a b : Violation} :
    a.inOrder b = true ↔ (List.compareLex Step.order a.path b.path).isLE = true := by
  rw [Violation.inOrder]
  cases List.compareLex Step.order a.path b.path <;> decide

theorem in_order_trans (a b c : Violation) (first : a.inOrder b = true)
    (second : b.inOrder c = true) : a.inOrder c = true :=
  not_gt_trans a.path b.path c.path first second

theorem in_order_total (a b : Violation) : (a.inOrder b || b.inOrder a) = true :=
  not_gt_total a.path b.path

theorem in_order_of_same_path {a b : Violation} (same : a.path = b.path) : a.inOrder b = true := by
  have equal : List.compareLex Step.order b.path b.path = .eq := Std.ReflCmp.compare_self
  rw [in_order_iff, same, equal]
  rfl

theorem check_sorted (s : Schema) (validator : Validator) (v : Json) :
    (s.check validator v).Pairwise fun a b => a.inOrder b = true :=
  List.pairwise_mergeSort in_order_trans in_order_total _

theorem check_perm (s : Schema) (validator : Validator) (v : Json) :
    (s.check validator v).Perm (validator s v) :=
  List.mergeSort_perm _ _

/- The sort is stable, so what is reported at one path stays as it was reported. -/
theorem check_filter (s : Schema) (validator : Validator) (v : Json) (path : List Step) :
    (s.check validator v).filter (·.path = path) = (validator s v).filter (·.path = path) := by
  have level : ((validator s v).filter (·.path = path)).Pairwise
      fun a b => a.inOrder b = true := by
    refine List.pairwise_of_forall_mem_list fun a inA b inB => ?_
    simp only [List.mem_filter, decide_eq_true_eq] at inA inB
    exact in_order_of_same_path (inA.2.trans inB.2.symm)
  have kept := (List.sublist_mergeSort in_order_trans in_order_total level
    List.filter_sublist).filter (·.path = path)
  rw [List.filter_filter] at kept
  simp only [Bool.and_self] at kept
  exact (kept.eq_of_length (((check_perm s validator v).filter _).length_eq).symm).symm

end VersionMatch
