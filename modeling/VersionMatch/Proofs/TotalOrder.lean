import VersionMatch.VersionId
import VersionMatch.Proofs.CodePoints

/- Equality, order and the comparisons built from them are one total order on the tokens of
   versions. Texts play no part in it. -/
namespace VersionMatch

def numeralOrder : Numeral → Numeral → Ordering :=
  compareLex (compareOn fun n => n.digits.length) (compareOn Numeral.digits)

instance : Std.TransCmp numeralOrder := by
  unfold numeralOrder
  infer_instance

theorem numeral_order_swap (m n : Numeral) : numeralOrder m n = (numeralOrder n m).swap :=
  Std.OrientedCmp.eq_swap

theorem numeral_order_trans {k m n : Numeral} (first : (numeralOrder k m).isLE = true)
    (second : (numeralOrder m n).isLE = true) : (numeralOrder k n).isLE = true :=
  Std.TransCmp.isLE_trans first second

theorem numeral_order_eq_iff {m n : Numeral} : numeralOrder m n = .eq ↔ m = n := by
  constructor
  · intro equal
    have digits := (compareLex_eq_eq.mp equal).2
    cases m; cases n
    simpa [compareOn] using digits
  · intro same
    exact same ▸ Std.ReflCmp.compare_self

theorem word_order_eq_iff {v w : Word} : compare v.value w.value = .eq ↔ v = w := by
  rw [Std.LawfulEqOrd.compare_eq_iff_eq]
  cases v; cases w
  simp

instance : Std.OrientedCmp Token.order where
  eq_swap {x y} := by
    cases x with
    | numeral m =>
      cases y with
      | numeral n => exact numeral_order_swap m n
      | word w => rfl
    | word v =>
      cases y with
      | numeral n => rfl
      | word w => exact Std.OrientedOrd.eq_swap

instance : Std.TransCmp Token.order where
  isLE_trans {x y z} first second := by
    cases x with
    | numeral k =>
      cases z with
      | word w => rfl
      | numeral n =>
        cases y with
        | numeral m => exact numeral_order_trans first second
        | word w => contradiction
    | word u =>
      cases y with
      | numeral m => contradiction
      | word v =>
        cases z with
        | numeral n => contradiction
        | word w => exact Std.TransOrd.isLE_trans first second

instance : Std.LawfulEqCmp Token.order where
  compare_self {x} := by
    cases x with
    | numeral n => exact numeral_order_eq_iff.mpr rfl
    | word w => exact word_order_eq_iff.mpr rfl
  eq_of_compare {x y} equal := by
    cases x with
    | numeral m =>
      cases y with
      | numeral n => exact congrArg Token.numeral (numeral_order_eq_iff.mp equal)
      | word w => contradiction
    | word v =>
      cases y with
      | numeral n => contradiction
      | word w => exact congrArg Token.word (word_order_eq_iff.mp equal)

theorem same_iff {a b : VersionId} : a.same b = true ↔ a.tokens = b.tokens := beq_iff_eq

theorem order_eq_iff {a b : VersionId} : a.order b = .eq ↔ a.tokens = b.tokens := by
  unfold VersionId.order
  exact Std.LawfulEqCmp.compare_eq_iff_eq

instance : Std.TransCmp VersionId.order where
  eq_swap {a b} := by
    unfold VersionId.order
    exact Std.OrientedCmp.eq_swap
  isLE_trans {a b c} first second := by
    unfold VersionId.order at *
    exact Std.TransCmp.isLE_trans first second

theorem order_swap (a b : VersionId) : b.order a = (a.order b).swap := Std.OrientedCmp.eq_swap

def Comparison.reads : Comparison → Ordering → Bool
  | .eq => Ordering.isEq
  | .ne => Ordering.isNe
  | .lt => Ordering.isLT
  | .le => Ordering.isLE
  | .gt => Ordering.isGT
  | .ge => Ordering.isGE

theorem same_eq_order (a b : VersionId) : a.same b = (a.order b == .eq) := by
  rw [Bool.eq_iff_iff, same_iff, beq_iff_eq, order_eq_iff]

theorem holds_eq_reads (a b : VersionId) (op : Comparison) :
    Comparison.holds a b op = op.reads (a.order b) := by
  cases op <;> simp only [Comparison.holds, Comparison.reads, same_eq_order] <;>
    cases a.order b <;> rfl

structure OneOrder (a b c : VersionId) : Prop where
  exclusive : [Comparison.holds a b .lt, Comparison.holds a b .eq,
    Comparison.holds b a .lt].count true = 1
  transitive : Comparison.holds a b .lt = true → Comparison.holds b c .lt = true →
    Comparison.holds a c .lt = true
  tokens : Comparison.holds a b .eq = true ↔ a.tokens = b.tokens
  equal : Comparison.holds a b .eq = true ↔ a.order b = .eq
  agree : ∀ op, Comparison.holds a b op = op.reads (a.order b)
  swapped : b.order a = (a.order b).swap
  replaced : Comparison.holds a b .eq = true →
    (∀ op, Comparison.holds a c op = Comparison.holds b c op ∧
      Comparison.holds c a op = Comparison.holds c b op) ∧
    a.order c = b.order c ∧ c.order a = c.order b ∧
    a.isStartOf c = b.isStartOf c ∧ c.isStartOf a = c.isStartOf b

theorem comparisons_form_one_order (a b c : VersionId) : OneOrder a b c where
  exclusive := by
    simp only [holds_eq_reads, Comparison.reads, order_swap a b]
    cases a.order b <;> rfl
  transitive first second := by
    simp only [holds_eq_reads, Comparison.reads, Ordering.isLT_iff_eq_lt] at first second ⊢
    exact Std.TransCmp.lt_trans first second
  tokens := same_iff
  equal := by rw [order_eq_iff]; exact same_iff
  agree := holds_eq_reads a b
  swapped := order_swap a b
  replaced equal := by
    have tokens := same_iff.mp equal
    have left : a.order c = b.order c := by simp only [VersionId.order, tokens]
    have right : c.order a = c.order b := by simp only [VersionId.order, tokens]
    refine ⟨?_, left, right, ?_, ?_⟩
    · intro op
      simp only [holds_eq_reads, left, right, and_self]
    · simp only [VersionId.isStartOf, tokens]
    · simp only [VersionId.isStartOf, tokens]

end VersionMatch
