import VersionMatch.Text.Utf8
import VersionMatch.Proofs.Outcome
import Mathlib.Data.List.TakeWhile

/- Reading octets is the inverse of writing a text as octets: every text is read back, and only
   what a text is written as is read. -/
namespace VersionMatch.Utf8

theorem decode_skips (position skip : Nat) (octets : List UInt8) :
    decodeFrom position skip octets = decodeFrom (position + skip) 0 (octets.drop skip) := by
  induction octets generalizing position skip with
  | nil => simp [decodeFrom]
  | cons b rest ih =>
    cases skip with
    | zero => rfl
    | succ skip =>
      rw [decodeFrom, ih, List.drop_succ_cons]
      congr 1
      omega

def Complete (lead : UInt8) (rest : List UInt8) : Prop :=
  width lead ≠ 0 ∧ fitting lead (width lead - 1) rest = width lead - 1

theorem decode_complete {lead : UInt8} {rest : List UInt8} (position : Nat)
    (complete : Complete lead rest) : decodeFrom position 0 (lead :: rest) =
      (decodeFrom (position + width lead) 0 (rest.drop (width lead - 1))).map
        (assemble lead rest (width lead) :: ·) := by
  obtain ⟨some, fits⟩ := complete
  rw [decodeFrom, if_neg some, if_pos fits, decode_skips]
  congr 2
  omega

theorem complete_of_decoded {lead : UInt8} {rest : List UInt8} {position : Nat} {t : Characters}
    (decoded : decodeFrom position 0 (lead :: rest) = .ok t) : Complete lead rest := by
  rw [decodeFrom] at decoded
  split at decoded
  · cases decoded
  · split at decoded
    · exact ⟨‹_›, ‹_›⟩
    · cases decoded

theorem width_cases (lead : UInt8) :
    width lead = 1 ∧ lead.toNat < 0x80 ∨ width lead = 2 ∧ 0xc2 ≤ lead.toNat ∧ lead.toNat < 0xe0 ∨
    width lead = 3 ∧ 0xe0 ≤ lead.toNat ∧ lead.toNat < 0xf0 ∨
    width lead = 4 ∧ 0xf0 ≤ lead.toNat ∧ lead.toNat < 0xf5 ∨
    width lead = 0 ∧ (0x80 ≤ lead.toNat ∧ lead.toNat < 0xc2 ∨ 0xf5 ≤ lead.toNat) := by
  unfold width
  simp only [UInt8.lt_iff_toNat_lt, UInt8.reduceToNat]
  split_ifs <;> omega

theorem continuation_iff {b : UInt8} :
    isContinuation b = true ↔ 0x80 ≤ b.toNat ∧ b.toNat < 0xc0 := by
  simp [isContinuation, UInt8.lt_iff_toNat_lt, UInt8.le_iff_toNat_le]

theorem admits_second_iff {lead b : UInt8} : admitsSecond lead b = true ↔
    (0x80 ≤ b.toNat ∧ b.toNat < 0xc0) ∧
      (lead.toNat = 0xe0 → 0xa0 ≤ b.toNat) ∧ (lead.toNat = 0xed → b.toNat < 0xa0) ∧
      (lead.toNat = 0xf0 → 0x90 ≤ b.toNat) ∧ (lead.toNat = 0xf4 → b.toNat < 0x90) := by
  simp only [admitsSecond, Bool.and_eq_true, continuation_iff, Bool.not_eq_true',
    Bool.and_eq_false_iff, beq_eq_false_iff_ne, ne_eq, decide_eq_false_iff_not,
    ← UInt8.toNat_inj, UInt8.lt_iff_toNat_lt, UInt8.le_iff_toNat_le, UInt8.reduceToNat]
  omega

theorem full_run_iff {p : UInt8 → Bool} {k : Nat} {bs : List UInt8} :
    ((bs.take k).takeWhile p).length = k ↔ k ≤ bs.length ∧ ∀ x ∈ bs.take k, p x = true := by
  rw [← List.takeWhile_eq_self_iff]
  have short := List.length_take (i := k) (l := bs)
  constructor
  · intro full
    have run := List.takeWhile_prefix (l := bs.take k) p
    have long := run.length_le
    exact ⟨by omega, run.eq_of_length (by omega)⟩
  · rintro ⟨long, all⟩
    rw [all, short]
    omega

theorem fitting_full_iff {lead : UInt8} {k : Nat} {rest : List UInt8} :
    fitting lead (k + 1) rest = k + 1 ↔ ∃ b more, rest = b :: more ∧ admitsSecond lead b = true ∧
      k ≤ more.length ∧ ∀ x ∈ more.take k, isContinuation x = true := by
  cases rest with
  | nil => simp [fitting]
  | cons b more =>
    cases admits : admitsSecond lead b with
    | true => simp [fitting, admits, ← full_run_iff]; omega
    | false => simp [fitting, admits]

/-- The octets of the character with the code point `n`, the leading one apart. -/
inductive Spells (n : Nat) : UInt8 → List UInt8 → Prop where
  | one {a : UInt8} (leads : a.toNat < 0x80) (code : n = a.toNat) : Spells n a []
  | two {a b : UInt8} (leads : 0xc2 ≤ a.toNat ∧ a.toNat < 0xe0) (second : admitsSecond a b = true)
      (code : n = a.toNat % 32 * 64 + b.toNat % 64) : Spells n a [b]
  | three {a b c : UInt8} (leads : 0xe0 ≤ a.toNat ∧ a.toNat < 0xf0)
      (second : admitsSecond a b = true) (third : isContinuation c = true)
      (code : n = (a.toNat % 16 * 64 + b.toNat % 64) * 64 + c.toNat % 64) : Spells n a [b, c]
  | four {a b c d : UInt8} (leads : 0xf0 ≤ a.toNat ∧ a.toNat < 0xf5)
      (second : admitsSecond a b = true) (third : isContinuation c = true)
      (fourth : isContinuation d = true)
      (code : n = ((a.toNat % 8 * 64 + b.toNat % 64) * 64 + c.toNat % 64) * 64 + d.toNat % 64) :
      Spells n a [b, c, d]

variable {n : Nat} {lead : UInt8} {tail : List UInt8}

theorem spelled_complete (spells : Spells n lead tail) (rest : List UInt8) :
    Complete lead (tail ++ rest) ∧ width lead = tail.length + 1 ∧
      assemble lead (tail ++ rest) (width lead) = Char.ofNat n := by
  have wide := width_cases lead
  cases spells with
  | one leads code =>
    have one : width lead = 1 := by omega
    refine ⟨⟨by omega, ?_⟩, one, by simp [one, assemble, code]⟩
    cases rest <;> simp [one, fitting]
  | two leads second code =>
    have two : width lead = 2 := by omega
    refine ⟨⟨by omega, ?_⟩, two, by simp [two, assemble, code]⟩
    rw [two]
    exact fitting_full_iff.mpr ⟨_, rest, rfl, second, by simp, by simp⟩
  | @three b c leads second third code =>
    have three : width lead = 3 := by omega
    refine ⟨⟨by omega, ?_⟩, three, by simp [three, assemble, code]⟩
    rw [three]
    exact fitting_full_iff.mpr ⟨b, c :: rest, rfl, second, by simp, by simp [third]⟩
  | @four b c d leads second third fourth code =>
    have four : width lead = 4 := by omega
    refine ⟨⟨by omega, ?_⟩, four, by simp [four, assemble, code]⟩
    rw [four]
    exact fitting_full_iff.mpr ⟨b, c :: d :: rest, rfl, second, by simp, by simp [third, fourth]⟩

theorem complete_spelled {rest : List UInt8} (complete : Complete lead rest) :
    ∃ n tail more, rest = tail ++ more ∧ Spells n lead tail := by
  obtain ⟨some, fits⟩ := complete
  rcases width_cases lead with wide | wide | wide | wide | wide
  · exact ⟨_, [], rest, rfl, .one wide.2 rfl⟩
  · rw [wide.1] at fits
    obtain ⟨b, more, rfl, second, _, _⟩ := fitting_full_iff.mp fits
    exact ⟨_, [b], more, rfl, .two wide.2 second rfl⟩
  · rw [wide.1] at fits
    obtain ⟨b, more, rfl, second, long, others⟩ := fitting_full_iff.mp fits
    match more, long with
    | c :: more, _ =>
      exact ⟨_, [b, c], more, rfl, .three wide.2 second (others c (by simp)) rfl⟩
  · rw [wide.1] at fits
    obtain ⟨b, more, rfl, second, long, others⟩ := fitting_full_iff.mp fits
    match more, long with
    | c :: d :: more, _ =>
      exact ⟨_, [b, c, d], more, rfl,
        .four wide.2 second (others c (by simp)) (others d (by simp)) rfl⟩
  · exact absurd wide.1 some

theorem octet_value {m : Nat} (small : m < 256) : (UInt8.ofNat m).toNat = m := by
  rw [UInt8.toNat_ofNat', Nat.mod_eq_of_lt small]

theorem spells_encoded (c : Char) :
    ∃ lead tail, String.utf8EncodeChar c = lead :: tail ∧ Spells c.toNat lead tail := by
  have valid : c.toNat.isValidChar := c.valid
  obtain ⟨n, code⟩ : ∃ n, c.toNat = n := ⟨_, rfl⟩
  rw [String.utf8EncodeChar, show c.val.toNat = n from code, code]
  rw [code] at valid
  split_ifs
  · have a := octet_value (m := n) (by omega)
    exact ⟨_, _, rfl, .one (by omega) a.symm⟩
  · have a := octet_value (m := n / 64 % 32 + 192) (by omega)
    have b := octet_value (m := n % 64 + 128) (by omega)
    exact ⟨_, _, rfl, .two (by omega) (admits_second_iff.mpr (by omega)) (by omega)⟩
  · have a := octet_value (m := n / 4096 % 16 + 224) (by omega)
    have b := octet_value (m := n / 64 % 64 + 128) (by omega)
    have c := octet_value (m := n % 64 + 128) (by omega)
    exact ⟨_, _, rfl, .three (by omega) (admits_second_iff.mpr (by omega))
      (continuation_iff.mpr (by omega)) (by omega)⟩
  · have a := octet_value (m := n / 262144 % 8 + 240) (by omega)
    have b := octet_value (m := n / 4096 % 64 + 128) (by omega)
    have c := octet_value (m := n / 64 % 64 + 128) (by omega)
    have d := octet_value (m := n % 64 + 128) (by omega)
    exact ⟨_, _, rfl, .four (by omega) (admits_second_iff.mpr (by omega))
      (continuation_iff.mpr (by omega)) (continuation_iff.mpr (by omega)) (by omega)⟩

theorem spelled_valid (spells : Spells n lead tail) : n.isValidChar := by
  cases spells with
  | one leads code =>
    rw [Nat.isValidChar]
    omega
  | two leads second code =>
    rw [Nat.isValidChar]
    omega
  | three leads second third code =>
    have second := admits_second_iff.mp second
    have third := continuation_iff.mp third
    rw [Nat.isValidChar]
    omega
  | four leads second third fourth code =>
    have second := admits_second_iff.mp second
    have third := continuation_iff.mp third
    rw [Nat.isValidChar]
    omega

theorem encoded_spells (spells : Spells n lead tail) :
    String.utf8EncodeChar (Char.ofNat n) = lead :: tail := by
  have code : (Char.ofNat n).val.toNat = n := by
    rw [Char.ofNat, dif_pos (spelled_valid spells)]
    rfl
  have octet : ∀ {m : Nat} {a : UInt8}, m = a.toNat → UInt8.ofNat m = a := by
    rintro m a rfl
    exact UInt8.ofNat_toNat
  rw [String.utf8EncodeChar, code]
  cases spells with
  | one leads code =>
    rw [if_pos (by omega), octet code]
  | @two b leads second code =>
    have second := admits_second_iff.mp second
    rw [if_neg (by omega), if_pos (by omega), octet (a := lead) (by omega),
      octet (a := b) (by omega)]
  | @three b c leads second third code =>
    have second := admits_second_iff.mp second
    have third := continuation_iff.mp third
    rw [if_neg (by omega), if_neg (by omega), if_pos (by omega), octet (a := lead) (by omega),
      octet (a := b) (by omega), octet (a := c) (by omega)]
  | @four b c d leads second third fourth code =>
    have second := admits_second_iff.mp second
    have third := continuation_iff.mp third
    have fourth := continuation_iff.mp fourth
    rw [if_neg (by omega), if_neg (by omega), if_neg (by omega), octet (a := lead) (by omega),
      octet (a := b) (by omega), octet (a := c) (by omega), octet (a := d) (by omega)]

theorem decode_encode_from (position : Nat) (t : Characters) :
    decodeFrom position 0 (encode t) = .ok t := by
  induction t generalizing position with
  | nil => rfl
  | cons c t ih =>
    obtain ⟨lead, tail, encoded, spells⟩ := spells_encoded c
    obtain ⟨complete, wide, same⟩ := spelled_complete spells (encode t)
    have octets : encode (c :: t) = lead :: (tail ++ encode t) := by
      rw [encode, List.flatMap_cons, encoded, List.cons_append, encode]
    rw [octets, decode_complete position complete, same, Char.ofNat_toNat, wide,
      Nat.add_sub_cancel, List.drop_left, ih]
    rfl

theorem encode_of_decoded {octets : List UInt8} {position : Nat} {t : Characters}
    (decoded : decodeFrom position 0 octets = .ok t) : encode t = octets := by
  induction size : octets.length using Nat.strongRecOn generalizing octets position t with
  | ind k ih =>
    cases octets with
    | nil =>
      cases decoded
      rfl
    | cons lead rest =>
      have complete := complete_of_decoded decoded
      obtain ⟨n, tail, more, rfl, spells⟩ := complete_spelled complete
      obtain ⟨_, wide, same⟩ := spelled_complete spells more
      rw [decode_complete position complete, same, wide, Nat.add_sub_cancel, List.drop_left]
        at decoded
      obtain ⟨later, further, rfl⟩ := map_ok_iff.mp decoded
      have shorter : more.length < k := by
        rw [← size, List.length_cons, List.length_append]
        omega
      have octets := ih _ shorter further rfl
      rw [encode] at octets ⊢
      rw [List.flatMap_cons, encoded_spells spells, octets, List.cons_append]

/- Every text is read back from its octets, and no other octets are read. -/
theorem decode_ok_iff {octets : List UInt8} {t : Characters} :
    decode octets = .ok t ↔ encode t = octets := by
  constructor
  · exact encode_of_decoded
  · rintro rfl
    exact decode_encode_from 0 t

theorem encode_injective {t u : Characters} (same : encode t = encode u) : t = u := by
  have read := decode_ok_iff.mpr same
  rw [decode_ok_iff.mpr rfl] at read
  exact (Except.ok.inj read).symm

end VersionMatch.Utf8
