import VersionMatch.Json.Reader
import VersionMatch.Json.Writer
import VersionMatch.Proofs.CodePoints
import VersionMatch.Proofs.Outcome
import Mathlib.Data.List.SplitBy

/- A text between quotes is written in ASCII and read back as it was. A character past U+FFFF is
   written as two halves, so a text is not read back where it holds two halves that would join. -/
namespace VersionMatch

theorem mem_digits {base n : Nat} {c : Char} (many : 1 < base) (mem : c ∈ Nat.toDigits base n) :
    ∃ d < base, c = Nat.digitChar d := by
  induction n using Nat.strongRecOn with
  | ind n ih =>
    by_cases small : n < base
    · rw [Nat.toDigits_of_lt_base small] at mem
      exact ⟨n, small, List.mem_singleton.mp mem⟩
    · rw [Nat.toDigits_of_base_le many (Nat.not_lt.mp small), List.mem_append] at mem
      rcases mem with front | last
      · exact ih (n / base) (Nat.div_lt_self (by omega) many) front
      · exact ⟨n % base, Nat.mod_lt n (by omega), List.mem_singleton.mp last⟩

theorem mem_hex {width n : Nat} {c : Char} (mem : c ∈ Characters.hex width n) :
    ∃ d < 16, c = Nat.digitChar d := by
  rw [Characters.hex, List.leftpad, List.mem_append] at mem
  rcases mem with zero | digit
  · exact ⟨0, by decide, List.eq_of_mem_replicate zero⟩
  · exact mem_digits (by decide) digit

namespace Json

def unitsOf (c : CodePoint) : List Nat :=
  if c.toNat < 0x10000 then [c.toNat]
  else [0xd800 + (c.toNat - 0x10000) / 0x400, 0xdc00 + (c.toNat - 0x10000) % 0x400]

/-- No high half stands directly before a low half. -/
def Unjoined (t : Text) : Prop :=
  t.IsChain fun c d => isHighHalf c.toNat = true → isLowHalf d.toNat = false

theorem half_of_high {p : CodePoint} (high : isHighHalf p.toNat = true) : p.isHalf = true := by
  cases p with
  | half n => rfl
  | char c =>
    have range := char_range c
    simp only [isHighHalf, Bool.and_eq_true, decide_eq_true_eq] at high
    rw [CodePoint.toNat] at high
    omega

theorem unjoined_of_whole {t : Text} (whole : ∀ p ∈ t, p.isHalf = false) : Unjoined t := by
  induction t with
  | nil => exact .nil
  | cons p t ih =>
    obtain ⟨first, others⟩ := List.forall_mem_cons.mp whole
    refine List.isChain_cons.mpr ⟨fun _ _ high => ?_, ih others⟩
    rw [half_of_high high] at first
    contradiction

theorem literal_whole (s : String) : ∀ p ∈ s.text, p.isHalf = false :=
  List.forall_mem_map.mpr fun _ _ => rfl

theorem unjoined_literal (s : String) : Unjoined s.text := unjoined_of_whole (literal_whole s)

theorem hex_value_of_digit : ∀ d < 16, hexValue? (Nat.digitChar d) = some d := by decide

theorem hex_succ {width : Nat} (some : 0 < width) (n : Nat) :
    Characters.hex (width + 1) n = Characters.hex width (n / 16) ++ [Nat.digitChar (n % 16)] := by
  by_cases small : n < 16
  · have zeros : List.replicate width '0' = List.replicate (width - 1) '0' ++ ['0'] := by
      rw [← List.replicate_succ', Nat.sub_add_cancel some]
    simp [Characters.hex, Nat.toDigits_of_lt_base small, Nat.div_eq_of_lt small,
      Nat.mod_eq_of_lt small, List.leftpad, zeros]
  · have split := Nat.toDigits_of_base_le (b := 16) (by decide) (Nat.not_lt.mp small)
    simp [Characters.hex, split, List.leftpad]

theorem hex_four_digits {n : Nat} (small : n < 0x10000) : Characters.hex 4 n =
    [Nat.digitChar (n / 4096), Nat.digitChar (n / 256 % 16), Nat.digitChar (n / 16 % 16),
      Nat.digitChar (n % 16)] := by
  have first : Characters.hex 1 (n / 16 / 16 / 16) = [Nat.digitChar (n / 16 / 16 / 16)] := by
    rw [Characters.hex, Nat.toDigits_of_lt_base (by omega)]
    rfl
  rw [hex_succ (by decide), hex_succ (by decide), hex_succ (by decide), first]
  simp [Nat.div_div_eq_div_mul]

theorem hex_unit_digits {n : Nat} (small : n < 0x10000) :
    hexUnit? (Nat.digitChar (n / 4096)) (Nat.digitChar (n / 256 % 16))
      (Nat.digitChar (n / 16 % 16)) (Nat.digitChar (n % 16)) = some n := by
  rw [hexUnit?, hex_value_of_digit _ (by omega), hex_value_of_digit _ (by omega),
    hex_value_of_digit _ (by omega), hex_value_of_digit _ (by omega)]
  simp
  omega

variable {opening rest : Characters}

theorem read_unit_escape {n : Nat} (small : n < 0x10000) (more : rest ≠ []) :
    readUnits opening (unitEscape n ++ rest) =
      (readUnits opening rest).map fun p => (n :: p.1, p.2) := by
  have units := hex_unit_digits small
  rw [unitEscape, hex_four_digits small]
  simp [readUnits, units, more]

theorem read_plain {c : Char} (unquoted : c ≠ '"') (noEscape : c ≠ '\\') (shown : 0x20 ≤ c.toNat) :
    readUnits opening (c :: rest) =
      (readUnits opening rest).map fun p => (c.toNat :: p.1, p.2) := by
  rw [readUnits]
  · simp [Nat.not_lt.mpr shown]
  all_goals simp_all

theorem units_of_small {c : CodePoint} (small : c.toNat < 0x10000) : unitsOf c = [c.toNat] :=
  if_pos small

theorem units_of_char {c : Char} (small : c.toNat < 0x10000) : unitsOf c = [c.toNat] :=
  units_of_small small

theorem read_short {c e : Char} (short : shortEscape? e = some c) (noUnit : e ≠ 'u')
    (small : c.toNat < 0x10000) : readUnits opening ('\\' :: e :: rest) =
      (readUnits opening rest).map fun p => (unitsOf c ++ p.1, p.2) := by
  rw [units_of_char small, readUnits]
  · simp [short]
  all_goals simp_all

theorem read_pair {high low : Nat} (smallHigh : high < 0x10000) (smallLow : low < 0x10000)
    (more : rest ≠ []) : readUnits opening (unitEscape high ++ unitEscape low ++ rest) =
      (readUnits opening rest).map fun p => ([high, low] ++ p.1, p.2) := by
  have second : unitEscape low ++ rest ≠ [] := by simp [unitEscape]
  rw [List.append_assoc, read_unit_escape smallHigh second, read_unit_escape smallLow more]
  cases readUnits opening rest <;> rfl

theorem read_escaped_char (c : Char) (more : rest ≠ []) :
    readUnits opening (escapedChar c ++ rest) =
      (readUnits opening rest).map fun p => (unitsOf c ++ p.1, p.2) := by
  unfold escapedChar
  split_ifs with own line ret tab page back shown small
  · rcases own with rfl | rfl <;> exact read_short rfl (by decide) (by decide)
  · exact read_short (by rw [line]; rfl) (by decide) (by rw [line]; decide)
  · exact read_short (by rw [ret]; rfl) (by decide) (by rw [ret]; decide)
  · exact read_short (by rw [tab]; rfl) (by decide) (by rw [tab]; decide)
  · exact read_short (by rw [page]; rfl) (by decide) (by rw [page]; decide)
  · exact read_short (by rw [back]; rfl) (by decide) (by rw [back]; decide)
  · rw [units_of_char (by omega)]
    exact read_plain (fun same => own (.inl same)) (fun same => own (.inr same)) shown.1
  · rw [units_of_char small]
    exact read_unit_escape small more
  · have range := char_range c
    rw [unitsOf, CodePoint.toNat, if_neg small]
    exact read_pair (by omega) (by omega) more

theorem read_escaped_point (c : CodePoint) (more : rest ≠ []) :
    readUnits opening (escaped c ++ rest) =
      (readUnits opening rest).map fun p => (unitsOf c ++ p.1, p.2) := by
  cases c with
  | char c => exact read_escaped_char c more
  | half n =>
    have small : (CodePoint.half n).toNat < 0x10000 := by
      have bound := n.isLt
      simp only [CodePoint.toNat]
      omega
    rw [units_of_small small]
    exact read_unit_escape small more

theorem of_units_apart {n : Nat} {ns : List Nat}
    (apart : isHighHalf n = true → ∀ k ∈ ns.head?, isLowHalf k = false) :
    ofUnits (n :: ns) = .ofNat n :: ofUnits ns := by
  cases ns with
  | nil => rfl
  | cons k ns =>
    have single : (isHighHalf n && isLowHalf k) = false := by
      rw [Bool.and_eq_false_imp]
      exact fun high => apart high k rfl
    rw [ofUnits, single]
    rfl

theorem low_head_unit {t : Text} {k : Nat} (first : k ∈ (t.flatMap unitsOf).head?)
    (low : isLowHalf k = true) : ∃ d ∈ t.head?, isLowHalf d.toNat = true := by
  cases t with
  | nil => simp at first
  | cons d t =>
    refine ⟨d, rfl, ?_⟩
    rw [List.flatMap_cons, unitsOf] at first
    split at first
    · rw [List.singleton_append, List.head?_cons, Option.mem_some_iff] at first
      exact first ▸ low
    · have range := number_lt d
      simp only [List.cons_append, List.head?_cons, Option.mem_some_iff] at first
      simp only [isLowHalf, Bool.and_eq_true, decide_eq_true_eq] at low
      omega

theorem of_units_small {c : CodePoint} (small : c.toNat < 0x10000) {ns : List Nat}
    (apart : isHighHalf c.toNat = true → ∀ k ∈ ns.head?, isLowHalf k = false) :
    ofUnits (unitsOf c ++ ns) = c :: ofUnits ns := by
  rw [units_of_small small, List.singleton_append, of_units_apart apart, of_number]

theorem of_units_large {c : CodePoint} (large : ¬c.toNat < 0x10000) (ns : List Nat) :
    ofUnits (unitsOf c ++ ns) = c :: ofUnits ns := by
  have range := number_lt c
  have halves : isHighHalf (0xd800 + (c.toNat - 0x10000) / 0x400) = true ∧
      isLowHalf (0xdc00 + (c.toNat - 0x10000) % 0x400) = true := by
    simp [isHighHalf, isLowHalf]
    omega
  have joined : 0x10000 + (0xd800 + (c.toNat - 0x10000) / 0x400 - 0xd800) * 0x400 +
      (0xdc00 + (c.toNat - 0x10000) % 0x400 - 0xdc00) = c.toNat := by
    omega
  simp only [unitsOf, if_neg large, List.cons_append, List.nil_append, ofUnits, halves.1, halves.2,
    Bool.and_self, if_true, joined]
  have same := of_number c
  rw [CodePoint.ofNat, dif_neg (by omega)] at same
  rw [same]

theorem of_units_text {t : Text} (unjoined : Unjoined t) : ofUnits (t.flatMap unitsOf) = t := by
  induction t with
  | nil => rfl
  | cons c t ih =>
    obtain ⟨apart, tail⟩ := List.isChain_cons.mp unjoined
    rw [List.flatMap_cons]
    by_cases small : c.toNat < 0x10000
    · rw [of_units_small small, ih tail]
      intro high k first
      by_contra low
      obtain ⟨d, next, isLow⟩ := low_head_unit first (Bool.not_eq_false _ ▸ low)
      have noLow := apart d next high
      simp [isLow] at noLow
    · rw [of_units_large small, ih tail]

theorem read_escaped (opening : Characters) (t : Text) (rest : Characters) :
    readUnits opening (t.flatMap escaped ++ '"' :: rest) =
      .ok (t.flatMap unitsOf, rest) := by
  induction t with
  | nil => simp [readUnits]
  | cons c t ih =>
    rw [List.flatMap_cons, List.append_assoc, read_escaped_point c (by simp), ih]
    rfl

theorem read_written_text (opening : Characters) {t : Text} (unjoined : Unjoined t)
    (rest : Characters) : readText opening (t.flatMap escaped ++ '"' :: rest) = .ok (t, rest) := by
  rw [readText, read_escaped]
  simp [Except.map, of_units_text unjoined]

end Json
end VersionMatch
