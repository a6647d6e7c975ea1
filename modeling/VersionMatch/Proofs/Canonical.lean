import VersionMatch.Proofs.Spelling
import VersionMatch.Proofs.NumericOrder
import VersionMatch.Proofs.TotalOrder

/- Numerals as numbers. However many digits and however many zeros in front, every run of digits is
   read as the one numeral of the number it denotes, and numerals stand in the order of their
   numbers. No number is formed where they are read or compared. -/
namespace VersionMatch

theorem number_of_zeros (zeros : Nat) (t : Text) :
    numberOf (List.replicate zeros (.char '0') ++ t) = numberOf t := by
  induction zeros with
  | zero => rfl
  | succ zeros ih =>
    have zero : 10 ^ (List.replicate zeros (CodePoint.char '0') ++ t).length * digitOf '0' = 0 := by
      rw [digitOf, CodePoint.toNat, Nat.sub_self, Nat.mul_zero]
    rw [List.replicate_succ, List.cons_append, number_of_digits_cons, zero, Nat.zero_add]
    exact ih

theorem number_of_stripped {t : Text} (nonempty : t ≠ []) :
    numberOf (stripZeros t) = numberOf t := by
  obtain ⟨zeros, split⟩ := zeros_before_stripped nonempty
  calc numberOf (stripZeros t)
    _ = numberOf (List.replicate zeros (.char '0') ++ stripZeros t) :=
      (number_of_zeros zeros _).symm
    _ = numberOf t := by rw [split]

theorem numeral_of_digits {t : Text} (digits : DigitsOnly t) :
    ∃ n, Numeral.ofText t = .ok n ∧ n.number = numberOf t := by
  obtain ⟨nonempty, only⟩ := digits
  obtain ⟨stripped, canonical⟩ := strip_zeros_canonical only
  refine ⟨⟨stripZeros t, stripped, canonical⟩, ?_, number_of_stripped nonempty⟩
  rw [Numeral.ofText, Numeral.ofDigits, dif_pos stripped, dif_neg canonical]

theorem numeral_order_by_number (m n : Numeral) :
    (Token.numeral m).order (.numeral n) = compare m.number n.number :=
  compare_numerals m n

/- No two numerals have one number, since the order by numbers tells any two apart. -/
theorem numeral_eq_iff_number {m n : Numeral} : m = n ↔ m.number = n.number := by
  calc m = n
    _ ↔ numeralOrder m n = .eq := numeral_order_eq_iff.symm
    _ ↔ compare m.number n.number = .eq := by rw [← numeral_order_by_number]; rfl
    _ ↔ m.number = n.number := Nat.compare_eq_eq

theorem numeral_key_below_iff {m n : Numeral} :
    lexicalOrder KeyField.order (Token.numeral m).sortKey (Token.numeral n).sortKey = some .lt ↔
      m.number < n.number := by
  rw [token_keys_ordered, numeral_order_by_number, Option.some.injEq, Nat.compare_eq_lt]

theorem numerals_stand_for_numbers {s t : Text} (digitsS : DigitsOnly s) (digitsT : DigitsOnly t) :
    ∃ m n, Numeral.ofText s = .ok m ∧ Numeral.ofText t = .ok n ∧
      (m = n ↔ numberOf s = numberOf t) ∧
      (lexicalOrder KeyField.order (Token.numeral m).sortKey (Token.numeral n).sortKey = some .lt ↔
        numberOf s < numberOf t) := by
  obtain ⟨m, readM, numberM⟩ := numeral_of_digits digitsS
  obtain ⟨n, readN, numberN⟩ := numeral_of_digits digitsT
  refine ⟨m, n, readM, readN, ?_, ?_⟩
  · rw [numeral_eq_iff_number, numberM, numberN]
  · rw [numeral_key_below_iff, numberM, numberN]

theorem padded_nine_below_ten : DigitsOnly "0009".text ∧ DigitsOnly "10".text ∧
    ∃ m n, Numeral.ofText "0009".text = .ok m ∧ Numeral.ofText "10".text = .ok n ∧ m ≠ n ∧
      lexicalOrder KeyField.order (Token.numeral m).sortKey (Token.numeral n).sortKey =
        some .lt := by
  have nine : DigitsOnly "0009".text := by decide
  have ten : DigitsOnly "10".text := by decide
  have numbers : numberOf "0009".text = 9 ∧ numberOf "10".text = 10 := by decide
  obtain ⟨m, n, readM, readN, same, below⟩ := numerals_stand_for_numbers nine ten
  rw [numbers.1, numbers.2] at same below
  have apart : m ≠ n := fun equal => absurd (same.mp equal) (by decide)
  exact ⟨nine, ten, m, n, readM, readN, apart, below.mpr (by decide)⟩

end VersionMatch
