import VersionMatch.Json.Reader
import VersionMatch.Json.Writer
import VersionMatch.Proofs.Outcome

/- An integer is read back from its digits, unless what stands behind them could go on with the
   number. A minus sign in front is no start of a word, since a digit follows it. -/
namespace VersionMatch.Json

/-- A number that ends here is read no further. -/
def EndsNumber (rest : Characters) : Prop :=
  ∀ c ∈ rest.head?, c.isDigit = false ∧ c ≠ '.' ∧ c ≠ 'e' ∧ c ≠ 'E'

variable {rest : Characters}

theorem span_digits {digits : Characters} (only : ∀ c ∈ digits, c.isDigit = true)
    (ends : EndsNumber rest) : spanDigits (digits ++ rest) = (digits, rest) := by
  have stops : rest.takeWhile Char.isDigit = [] ∧ rest.dropWhile Char.isDigit = rest := by
    cases rest with
    | nil => exact ⟨rfl, rfl⟩
    | cons c rest => simp [(ends c rfl).1]
  rw [spanDigits, List.takeWhile_append_of_pos only, List.dropWhile_append_of_pos only, stops.1,
    stops.2, List.append_nil]

theorem no_fraction (ends : EndsNumber rest) : readFraction rest = ([], rest) := by
  cases rest with
  | nil => rfl
  | cons c rest =>
    have noPoint := (ends c rfl).2.1
    rw [readFraction]
    rintro _ ⟨⟩
    exact noPoint rfl

theorem no_exponent (ends : EndsNumber rest) : readExponent rest = (none, rest) := by
  cases rest with
  | nil => rfl
  | cons c rest =>
    obtain ⟨-, -, small, large⟩ := ends c rfl
    simp [readExponent, small, large]

theorem leading_digit {n : Nat} (positive : 0 < n) : (Nat.toDigits 10 n).head? ≠ some '0' := by
  induction n using Nat.strongRecOn with
  | ind n ih =>
    by_cases single : n < 10
    · rw [Nat.toDigits_of_lt_base single]
      simpa using Nat.ne_of_gt positive
    · have fewer := ih (n / 10) (by omega) (by omega)
      rw [Nat.toDigits_of_base_le (by decide) (Nat.not_lt.mp single), List.head?_append_of_ne_nil]
      · exact fewer
      · exact Nat.toDigits_ne_nil

theorem nat_of_written (n : Nat) : natOfDigits (Nat.toDigits 10 n) = n := by
  have same : natOfDigits (Nat.toDigits 10 n) = Nat.ofDigitChars 10 (Nat.toDigits 10 n) 0 := by
    simp only [natOfDigits, Nat.ofDigitChars_eq_foldl, Nat.mul_comm]
  rw [same, Nat.ofDigitChars_toDigits (by decide) (by decide)]

theorem read_whole (n : Nat) (ends : EndsNumber rest) :
    readWhole (Nat.toDigits 10 n ++ rest) = (Nat.toDigits 10 n, rest) := by
  have only : ∀ c ∈ Nat.toDigits 10 n, c.isDigit = true :=
    fun _ mem => Nat.isDigit_of_mem_toDigits (by decide) (by decide) mem
  rcases Nat.eq_zero_or_pos n with rfl | positive
  · rfl
  · unfold readWhole
    split
    · next more shape =>
      have first := leading_digit positive
      rw [← List.head?_append_of_ne_nil _ Nat.toDigits_ne_nil, shape] at first
      exact absurd rfl first
    · exact span_digits only ends

theorem read_sign (i : Int) (rest : Characters) :
    readSign (Characters.ofInt i ++ rest) = (decide (i < 0), Nat.toDigits 10 i.natAbs ++ rest) := by
  cases i with
  | ofNat n =>
    have unsigned : ∀ more, Nat.toDigits 10 n ++ rest ≠ '-' :: more := by
      intro more shape
      have first : '-' ∈ Nat.toDigits 10 n := by
        apply List.mem_of_head?
        rw [← List.head?_append_of_ne_nil _ Nat.toDigits_ne_nil, shape, List.head?_cons]
      exact absurd (Nat.isDigit_of_mem_toDigits (by decide) (by decide) first) (by decide)
    rw [Characters.ofInt, readSign]
    · rfl
    · exact unsigned
  | negSucc n =>
    rw [decide_eq_true (Int.negSucc_lt_zero n)]
    rfl

theorem read_written_number (i : Int) (short : (Nat.toDigits 10 i.natAbs).length ≤ digitLimit)
    (ends : EndsNumber rest) : readNumber (Characters.ofInt i ++ rest) = .ok (.int i, rest) := by
  have some : (Nat.toDigits 10 i.natAbs).isEmpty = false := by simp [Nat.toDigits_ne_nil]
  have value : (if decide (i < 0) then -(i.natAbs : Int) else i.natAbs) = i := by
    split_ifs with negative
    · have below := of_decide_eq_true negative
      omega
    · have above := of_decide_eq_false (Bool.not_eq_true _ ▸ negative)
      omega
  simp only [readNumber, read_sign, read_whole _ ends, no_fraction ends, no_exponent ends, some,
    nat_of_written, value]
  simp [Nat.not_lt.mpr short]

theorem digit_ne {c d : Char} (digit : c.isDigit = true) (other : d.isDigit = false) : c ≠ d := by
  rintro rfl
  rw [digit] at other
  contradiction

theorem written_number_begins (i : Int) : ∃ c more, c.isDigit = true ∧
    (Characters.ofInt i = c :: more ∨ Characters.ofInt i = '-' :: c :: more) := by
  have begins : ∀ n, ∃ c more, c.isDigit = true ∧ Nat.toDigits 10 n = c :: more := by
    intro n
    obtain ⟨c, more, shape⟩ := List.exists_cons_of_ne_nil (Nat.toDigits_ne_nil (b := 10) (n := n))
    have digit := Nat.isDigit_of_mem_toDigits (by decide) (by decide) (shape ▸ List.mem_cons_self)
    exact ⟨c, more, digit, shape⟩
  cases i with
  | ofNat n =>
    obtain ⟨c, more, digit, shape⟩ := begins n
    exact ⟨c, more, digit, .inl shape⟩
  | negSucc n =>
    obtain ⟨c, more, digit, shape⟩ := begins (n + 1)
    exact ⟨c, more, digit, .inr (congrArg ('-' :: ·) shape)⟩

theorem no_word_before_number (i : Int) (rest : Characters) :
    readLiteral? (Characters.ofInt i ++ rest) = none := by
  obtain ⟨c, more, digit, shape | shape⟩ := written_number_begins i
  · have first : ∀ d : Char, d.isDigit = false → d ≠ c := fun _ other => (digit_ne digit other).symm
    rw [shape]
    simp [readLiteral?, literals, after?, first]
  · have second : ∀ d : Char, d.isDigit = false → d ≠ c :=
      fun _ other => (digit_ne digit other).symm
    rw [shape]
    simp [readLiteral?, literals, after?, second]

theorem read_written_integer (levels fuel : Nat) (i : Int)
    (short : (Nat.toDigits 10 i.natAbs).length ≤ digitLimit) (ends : EndsNumber rest) :
    readValue levels (fuel + 1) (Characters.ofInt i ++ rest) = .ok (.int i, rest) := by
  have number := read_written_number i short ends
  have noWord := no_word_before_number i rest
  obtain ⟨c, more, digit, shape | shape⟩ := written_number_begins i
  · rw [shape, List.cons_append] at number noWord ⊢
    rw [readValue, if_neg (digit_ne digit (by decide)), if_neg (digit_ne digit (by decide)),
      if_neg (digit_ne digit (by decide)), noWord]
    exact number
  · rw [shape, List.cons_append] at number noWord ⊢
    rw [readValue, if_neg (by decide), if_neg (by decide), if_neg (by decide), noWord]
    exact number

end VersionMatch.Json
