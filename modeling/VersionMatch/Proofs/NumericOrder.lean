import VersionMatch.VersionId
import VersionMatch.Proofs.CodePoints
import Mathlib.Data.Nat.Digits.Defs

/- The order of versions by its reference: tokens at one index after the other, numerals by
   the number they stand for, words by code point. No number is computed where versions are
   compared; numerals are compared by length and then as texts. Lengths are unbounded. -/
namespace VersionMatch

def digitOf (c : CodePoint) : Nat := c.toNat - '0'.toNat

def numberOf (t : Text) : Nat := Nat.ofDigits 10 (t.reverse.map digitOf)

def Numeral.number (n : Numeral) : Nat := numberOf n.digits

/-- The outcome at one index. A missing token stands below every token. -/
def indexOrder : Option Token → Option Token → Ordering
  | none, none => .eq
  | none, some _ => .lt
  | some _, none => .gt
  | some (.numeral m), some (.numeral n) => compare m.number n.number
  | some (.numeral _), some (.word _) => .lt
  | some (.word _), some (.numeral _) => .gt
  | some (.word v), some (.word w) =>
    compare (v.value.map CodePoint.toNat) (w.value.map CodePoint.toNat)

/-- The first index with unequal tokens decides. -/
def referenceOrder (as bs : List Token) : Ordering :=
  ((List.range (max as.length bs.length)).map fun i => indexOrder as[i]? bs[i]?)
    |>.find? (· != .eq) |>.getD .eq

inductive KeyField
  | number (n : Nat)
  | text (t : Text)
  deriving DecidableEq, Repr

def KeyField.order : KeyField → KeyField → Option Ordering
  | .number m, .number n => some (compare m n)
  | .text s, .text t => some (compare s t)
  | _, _ => none

/-- The first unequal members decide, and there is no outcome where these have no order.
    Of lists that agree as far as both go the shorter is the lower one. -/
def lexicalOrder {α : Type} (order : α → α → Option Ordering) : List α → List α → Option Ordering
  | [], [] => some .eq
  | [], _ :: _ => some .lt
  | _ :: _, [] => some .gt
  | x :: xs, y :: ys =>
    match order x y with
    | some .eq => lexicalOrder order xs ys
    | outcome => outcome

def Token.sortKey : Token → List KeyField
  | .numeral n => [.number 0, .number n.digits.length, .text n.digits]
  | .word w => [.number 1, .text w.value]

def VersionId.sortKey (v : VersionId) : List (List KeyField) := v.tokens.map Token.sortKey

theorem number_of_digits_cons (c : CodePoint) (t : Text) :
    numberOf (c :: t) = 10 ^ t.length * digitOf c + numberOf t := by
  rw [numberOf, List.reverse_cons, List.map_append, Nat.ofDigits_append, List.length_map,
    List.length_reverse, Nat.add_comm]
  simp [numberOf]

theorem digit_value_lt {c : CodePoint} (digit : c.isDigit = true) : digitOf c < 10 := by
  have bounds := digit_number digit
  have upper : '9'.toNat = 57 := rfl
  have lower : '0'.toNat = 48 := rfl
  unfold digitOf
  omega

theorem number_lt_pow_length {t : Text} (digits : ∀ c ∈ t, c.isDigit = true) :
    numberOf t < 10 ^ t.length := by
  induction t with
  | nil => decide
  | cons c t ih =>
    have tail := ih fun d mem => digits d (by simp [mem])
    have head := digit_value_lt (digits c (by simp))
    have scaled := Nat.mul_le_mul_left (10 ^ t.length) (Nat.succ_le_of_lt head)
    rw [number_of_digits_cons, List.length_cons, Nat.pow_succ]
    rw [Nat.mul_succ] at scaled
    omega

theorem compare_eq_of_iff {m n k l : Nat} (below : m < n ↔ k < l) (above : n < m ↔ l < k) :
    compare m n = compare k l := by
  simp only [Nat.compare_eq_ite_lt, below, above]

theorem compare_leading_digit {b x y m n : Nat} (boundM : m < b) (boundN : n < b) :
    compare (b * x + m) (b * y + n) = (compare x y).then (compare m n) := by
  rcases Nat.lt_trichotomy x y with below | same | above
  · have scaled := Nat.mul_le_mul_left b (Nat.succ_le_of_lt below)
    rw [Nat.mul_succ] at scaled
    rw [Nat.compare_eq_lt.mpr below, Nat.compare_eq_lt.mpr (by omega), Ordering.lt_then]
  · rw [same, Nat.compare_eq_eq.mpr rfl, Ordering.eq_then]
    exact compare_eq_of_iff (by omega) (by omega)
  · have scaled := Nat.mul_le_mul_left b (Nat.succ_le_of_lt above)
    rw [Nat.mul_succ] at scaled
    rw [Nat.compare_eq_gt.mpr above, Nat.compare_eq_gt.mpr (by omega), Ordering.gt_then]

theorem compare_digits {c d : CodePoint} (digitC : c.isDigit = true) (digitD : d.isDigit = true) :
    compare c d = compare (digitOf c) (digitOf d) := by
  have boundC := (digit_number digitC).1
  have boundD := (digit_number digitD).1
  unfold digitOf
  exact compare_eq_of_iff (by omega) (by omega)

theorem compare_texts (s t : Text) :
    compare s t = compare (s.map CodePoint.toNat) (t.map CodePoint.toNat) := by
  induction s generalizing t with
  | nil => cases t <;> rfl
  | cons c s ih =>
    cases t with
    | nil => rfl
    | cons d t =>
      rw [List.map_cons, List.map_cons, List.compare_cons_cons, List.compare_cons_cons, ih]
      rfl

theorem compare_of_same_length {s t : Text} (same : s.length = t.length)
    (digitsS : ∀ c ∈ s, c.isDigit = true) (digitsT : ∀ c ∈ t, c.isDigit = true) :
    compare s t = compare (numberOf s) (numberOf t) := by
  induction s generalizing t with
  | nil =>
    cases t with
    | nil => rfl
    | cons d t => simp at same
  | cons c s ih =>
    cases t with
    | nil => simp at same
    | cons d t =>
      have lengths : s.length = t.length := by simpa using same
      have tailS : ∀ e ∈ s, e.isDigit = true := fun e mem => digitsS e (by simp [mem])
      have tailT : ∀ e ∈ t, e.isDigit = true := fun e mem => digitsT e (by simp [mem])
      have boundS := number_lt_pow_length tailS
      have boundT := lengths ▸ number_lt_pow_length tailT
      rw [List.compare_cons_cons, ih lengths tailS tailT, number_of_digits_cons,
        number_of_digits_cons, ← lengths, compare_leading_digit boundS boundT,
        compare_digits (digitsS c (by simp)) (digitsT d (by simp))]

theorem pow_le_number {n : Numeral} (long : 1 < n.digits.length) :
    10 ^ (n.digits.length - 1) ≤ n.number := by
  obtain ⟨digits, ⟨_, only⟩, canonical⟩ := n
  cases digits with
  | nil => simp at long
  | cons c t =>
    have nonzero : c ≠ '0' := by
      intro zero
      exact canonical ⟨long, by simp [zero]⟩
    have positive : 1 ≤ digitOf c := by
      have bound := (digit_number (only c (by simp))).1
      have differs : c.toNat ≠ '0'.toNat := fun eq => nonzero (code_point_eq_of_number eq)
      unfold digitOf
      omega
    have scaled := Nat.mul_le_mul_left (10 ^ t.length) positive
    rw [Numeral.number, number_of_digits_cons, List.length_cons, Nat.add_sub_cancel]
    omega

theorem number_lt_of_shorter {m n : Numeral} (shorter : m.digits.length < n.digits.length) :
    m.number < n.number := by
  have some : 0 < m.digits.length := List.length_pos_iff.mpr m.digitsOnly.1
  calc m.number
    _ < 10 ^ m.digits.length := number_lt_pow_length m.digitsOnly.2
    _ ≤ 10 ^ (n.digits.length - 1) := Nat.pow_le_pow_right (by omega) (by omega)
    _ ≤ n.number := pow_le_number (by omega)

theorem compare_numerals (m n : Numeral) :
    (compare m.digits.length n.digits.length).then (compare m.digits n.digits) =
      compare m.number n.number := by
  rcases Nat.lt_trichotomy m.digits.length n.digits.length with shorter | same | longer
  · rw [Nat.compare_eq_lt.mpr shorter, Ordering.lt_then,
      Nat.compare_eq_lt.mpr (number_lt_of_shorter shorter)]
  · rw [Nat.compare_eq_eq.mpr same, Ordering.eq_then]
    exact compare_of_same_length same m.digitsOnly.2 n.digitsOnly.2
  · rw [Nat.compare_eq_gt.mpr longer, Ordering.gt_then,
      Nat.compare_eq_gt.mpr (number_lt_of_shorter longer)]

theorem token_order_eq_index_order (x y : Token) : x.order y = indexOrder (some x) (some y) := by
  cases x with
  | numeral m =>
    cases y with
    | numeral n => exact compare_numerals m n
    | word w => rfl
  | word v =>
    cases y with
    | numeral n => rfl
    | word w => exact compare_texts v.value w.value

theorem reference_order_cons (x y : Token) (as bs : List Token) :
    referenceOrder (x :: as) (y :: bs) =
      (indexOrder (some x) (some y)).then (referenceOrder as bs) := by
  have longer : max (x :: as).length (y :: bs).length = max as.length bs.length + 1 := by
    simp [Nat.succ_max_succ]
  rw [referenceOrder, longer, List.range_succ_eq_map, List.map_cons, List.map_map, List.find?_cons,
    List.getElem?_cons_zero, List.getElem?_cons_zero]
  cases indexOrder (some x) (some y) with
  | lt => rfl
  | eq => simp [referenceOrder, Function.comp_def]
  | gt => rfl

theorem order_eq_reference_order (as bs : List Token) :
    List.compareLex Token.order as bs = referenceOrder as bs := by
  induction as generalizing bs with
  | nil =>
    cases bs with
    | nil => rfl
    | cons y bs =>
      rw [List.compareLex_nil_cons]
      simp [referenceOrder, List.range_succ_eq_map, indexOrder]
  | cons x as ih =>
    cases bs with
    | nil =>
      rw [List.compareLex_cons_nil]
      simp [referenceOrder, List.range_succ_eq_map, indexOrder]
    | cons y bs =>
      rw [List.compareLex_cons_cons, reference_order_cons, ih, token_order_eq_index_order]

/- The kinds are compared first, so a length never meets a word. -/
theorem token_keys_ordered (x y : Token) :
    lexicalOrder KeyField.order x.sortKey y.sortKey = some (x.order y) := by
  cases x with
  | numeral m =>
    cases y with
    | numeral n =>
      simp only [Token.sortKey, lexicalOrder, KeyField.order, Token.order, Nat.compare_eq_eq.mpr]
      cases compare m.digits.length n.digits.length with
      | lt => rfl
      | eq => cases compare m.digits n.digits <;> rfl
      | gt => rfl
    | word w => rfl
  | word v =>
    cases y with
    | numeral n => rfl
    | word w =>
      simp only [Token.sortKey, lexicalOrder, KeyField.order, Token.order, Nat.compare_eq_eq.mpr]
      cases compare v.value w.value <;> rfl

theorem version_keys_ordered (as bs : List Token) :
    lexicalOrder (lexicalOrder KeyField.order) (as.map Token.sortKey) (bs.map Token.sortKey) =
      some (List.compareLex Token.order as bs) := by
  induction as generalizing bs with
  | nil => cases bs <;> rfl
  | cons x as ih =>
    cases bs with
    | nil => rfl
    | cons y bs =>
      rw [List.compareLex_cons_cons, List.map_cons, List.map_cons, lexicalOrder,
        token_keys_ordered]
      cases x.order y with
      | lt => rfl
      | eq => exact ih bs
      | gt => rfl

theorem sort_keys_order_by_number (a b : VersionId) :
    lexicalOrder (lexicalOrder KeyField.order) a.sortKey b.sortKey = some (a.order b) ∧
      a.order b = referenceOrder a.tokens b.tokens :=
  ⟨version_keys_ordered a.tokens b.tokens, order_eq_reference_order a.tokens b.tokens⟩

end VersionMatch
