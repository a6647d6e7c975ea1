import VersionMatch.Proofs.CodePoints
import VersionMatch.Proofs.Reading
import Mathlib.Data.List.TakeWhile

/- How the tokens of a version are spelled. A word has one spelling and a numeral one for every
   number of zeros in front. Spellings with separators between them read as the tokens they spell,
   and every text that is read is cut into spellings of its tokens. -/
namespace VersionMatch

/-- A token as it may stand in a text. Only a numeral takes zeros in front. -/
def Token.spelled (zeros : Nat) : Token → Text
  | .numeral n => List.replicate zeros (.char '0') ++ n.digits
  | .word w => w.value

inductive Joins : List Token → Text → Prop where
  | last (token : Token) (zeros : Nat) : Joins [token] (token.spelled zeros)
  | step {tokens : List Token} {t : Text} {c : CodePoint} (token : Token) (zeros : Nat)
      (separator : c ∈ separators) (tail : Joins tokens t) :
      Joins (token :: tokens) (token.spelled zeros ++ c :: t)

/-- Tokens that can be read. That a word is not empty and holds no digits is part of being one. -/
structure Legible (tokens : List Token) : Prop where
  nonempty : tokens ≠ []
  words : ∀ w, .word w ∈ tokens → ∀ c ∈ w.value, IsPlain c

theorem digit_plain {c : CodePoint} (digit : c.isDigit = true) : IsPlain c := by
  have bounds := digit_number digit
  have noSeparator : ∀ d ∈ separators, d.isDigit = false := by simp [CodePoint.isDigit]
  have notReserved : ∀ d ∈ reserved, d.isDigit = false := by simp [CodePoint.isDigit]
  refine ⟨?_, ?_, ?_⟩
  · simp only [Char.reduceToNat] at bounds
    simp [isBlank, inRanges, blankRanges]
    omega
  · intro mem
    simp [noSeparator c mem] at digit
  · intro mem
    simp [notReserved c mem] at digit

theorem zeros_in_front (t : Text) : ∃ zeros,
    List.replicate zeros (.char '0') ++ t.dropWhile (· == .char '0') = t := by
  have same : t.takeWhile (· == .char '0') =
      List.replicate (t.takeWhile (· == .char '0')).length (.char '0') := by
    refine List.eq_replicate_iff.mpr ⟨rfl, fun c mem => ?_⟩
    simpa using List.mem_takeWhile_imp mem
  exact ⟨(t.takeWhile (· == .char '0')).length, by rw [← same, List.takeWhile_append_dropWhile]⟩

theorem strip_zeros_of_canonical {t : Text} (nonempty : t ≠ []) (canonical : ¬ HasLeadingZero t)
    (zeros : Nat) : stripZeros (List.replicate zeros (.char '0') ++ t) = t := by
  have stripped : (List.replicate zeros (CodePoint.char '0') ++ t).dropWhile (· == .char '0') =
      t.dropWhile (· == .char '0') :=
    List.dropWhile_append_of_pos (by simp)
  rw [stripZeros, stripped]
  cases t with
  | nil => contradiction
  | cons c rest =>
    by_cases zero : c = '0'
    · -- What begins with a zero and is canonical is zero itself.
      have alone : rest = [] := by
        by_contra more
        exact canonical ⟨by simpa [List.length_pos_iff] using more, by rw [zero]; rfl⟩
      rw [zero, alone]
      rfl
    · simp [zero]

theorem zeros_before_stripped {t : Text} (nonempty : t ≠ []) :
    ∃ zeros, List.replicate zeros (.char '0') ++ stripZeros t = t := by
  obtain ⟨zeros, split⟩ := zeros_in_front t
  cases rest : t.dropWhile (· == .char '0') with
  | nil =>
    rw [rest, List.append_nil] at split
    cases zeros with
    | zero => exact absurd split.symm nonempty
    | succ zeros => exact ⟨zeros, by rw [stripZeros, rest, ← split, List.replicate_succ']⟩
  | cons c more =>
    have kept : stripZeros t = t.dropWhile (· == .char '0') := by rw [stripZeros, rest]
    exact ⟨zeros, by rw [kept, split]⟩

theorem numeral_digits {t : Text} {n : Numeral} (built : Numeral.ofText t = .ok n) :
    n.digits = stripZeros t := by
  unfold Numeral.ofText Numeral.ofDigits at built
  split at built
  · split at built
    · contradiction
    · cases built
      rfl
  · contradiction

theorem numeral_ext {m n : Numeral} (digits : m.digits = n.digits) : m = n := by
  cases m; cases n
  simp_all

theorem word_ext {v w : Word} (value : v.value = w.value) : v = w := by
  cases v; cases w
  simp_all

theorem spelled_nonempty (token : Token) (zeros : Nat) : token.spelled zeros ≠ [] := by
  cases token with
  | numeral n => simp [Token.spelled, n.digitsOnly.1]
  | word w => exact w.nonempty

theorem spelled_digits (n : Numeral) (zeros : Nat) :
    ∀ c ∈ (Token.numeral n).spelled zeros, c.isDigit = true := by
  refine List.forall_mem_append.mpr ⟨fun c mem => ?_, n.digitsOnly.2⟩
  rw [List.eq_of_mem_replicate mem]
  rfl

theorem run_of_spelled (token : Token) (zeros : Nat) :
    Token.ofRun (token.spelled zeros) = .ok token := by
  have nonempty := spelled_nonempty token zeros
  cases token with
  | numeral n =>
    obtain ⟨m, same, read⟩ := numeral_of_run nonempty (spelled_digits n zeros)
    rw [Token.spelled, strip_zeros_of_canonical n.digitsOnly.1 n.canonical] at same
    rw [read, numeral_ext same]
  | word w =>
    obtain ⟨v, same, read⟩ := word_of_run nonempty w.noDigits
    rw [read, word_ext same]

theorem of_run_ok_iff {run : Text} {token : Token} :
    Token.ofRun run = .ok token ↔ ∃ zeros, token.spelled zeros = run := by
  constructor
  · intro read
    cases token with
    | word w => exact ⟨0, word_run read⟩
    | numeral n =>
      unfold Token.ofRun at read
      split at read
      · rename_i first
        obtain ⟨m, built, same⟩ := map_ok_iff.mp read
        cases same
        have nonempty : run ≠ [] := by
          rintro rfl
          simp at first
        obtain ⟨zeros, split⟩ := zeros_before_stripped nonempty
        exact ⟨zeros, by rw [Token.spelled, numeral_digits built, split]⟩
      · obtain ⟨w, _, same⟩ := map_ok_iff.mp read
        contradiction
  · rintro ⟨zeros, rfl⟩
    exact run_of_spelled token zeros

theorem spelled_uniform {token : Token} (plain : ∀ w, token = .word w → ∀ c ∈ w.value, IsPlain c)
    (zeros : Nat) : IsUniform (token.spelled zeros) := by
  cases token with
  | numeral n =>
    have digits := spelled_digits n zeros
    exact ⟨fun c mem => digit_plain (digits c mem), true, digits⟩
  | word w => exact ⟨plain w rfl, false, w.noDigits⟩

theorem joins_tokenized {tokens : List Token} {t : Text} (joins : Joins tokens t)
    (plain : ∀ w, .word w ∈ tokens → ∀ c ∈ w.value, IsPlain c) : Tokenized t tokens := by
  induction joins with
  | last token zeros =>
    have uniform : IsUniform (token.spelled zeros) :=
      spelled_uniform (fun w same => plain w (by simp [same])) zeros
    exact (tokenized_last (spelled_nonempty token zeros) uniform).mpr
      ⟨token, run_of_spelled token zeros, rfl⟩
  | @step tokens t c token zeros separator tail ih =>
    have uniform : IsUniform (token.spelled zeros) :=
      spelled_uniform (fun w same => plain w (by simp [same])) zeros
    have later := ih fun w mem => plain w (List.mem_cons_of_mem token mem)
    exact (tokenized_separator (spelled_nonempty token zeros) uniform
      ((mem_separators_iff c).mp separator)).mpr
        ⟨token, run_of_spelled token zeros, tokens, later, rfl⟩

theorem joins_exists {tokens : List Token} (nonempty : tokens ≠ []) : ∃ t, Joins tokens t := by
  induction tokens with
  | nil => contradiction
  | cons token tokens ih =>
    cases tokens with
    | nil => exact ⟨_, .last token 0⟩
    | cons next tokens =>
      obtain ⟨t, joins⟩ := ih (by simp)
      exact ⟨_, .step (c := '.') token 0 (by simp) joins⟩

theorem tokenized_legible {t : Text} {tokens : List Token} (tokenized : Tokenized t tokens) :
    Legible tokens :=
  ⟨tokenized_nonempty tokenized, fun _ mem => word_plain tokenized mem⟩

theorem tokenize_undoes_joining (tokens : List Token) :
    ((∃ t offset, tokenize t offset = .ok tokens) ↔ Legible tokens) ∧
      (Legible tokens → ∀ t offset, Joins tokens t → tokenize t offset = .ok tokens) := by
  have reads : Legible tokens → ∀ t offset, Joins tokens t → tokenize t offset = .ok tokens := by
    intro legible t offset joins
    exact tokenize_ok_iff.mpr (joins_tokenized joins legible.words)
  refine ⟨⟨?_, ?_⟩, reads⟩
  · rintro ⟨t, offset, read⟩
    exact tokenized_legible (tokenize_ok_iff.mp read)
  · intro legible
    obtain ⟨t, joins⟩ := joins_exists legible.nonempty
    exact ⟨t, 0, reads legible t 0 joins⟩

theorem seven_rc_zero_reads_back : ∃ tokens, Legible tokens ∧
    Joins tokens ['0', '0', '7', '_', 'r', 'c', '-', '0', '0'] ∧
      tokenize ['0', '0', '7', '_', 'r', 'c', '-', '0', '0'] 3 = .ok tokens := by
  let seven : Token := .numeral ⟨['7'], by decide, by decide⟩
  let rc : Token := .word ⟨['r', 'c'], by decide, by decide⟩
  let zero : Token := .numeral ⟨['0'], by decide, by decide⟩
  have legible : Legible [seven, rc, zero] := by
    refine ⟨by simp, fun w mem => ?_⟩
    have same : w = ⟨['r', 'c'], by decide, by decide⟩ := by simpa [seven, rc, zero] using mem
    rw [same]
    simp only [List.forall_mem_cons, List.not_mem_nil, false_implies, implies_true, and_true]
    decide
  have joins : Joins [seven, rc, zero] ['0', '0', '7', '_', 'r', 'c', '-', '0', '0'] :=
    .step seven 2 (by decide) (.step rc 0 (by decide) (.last zero 1))
  exact ⟨_, legible, joins, (tokenize_undoes_joining _).2 legible _ 3 joins⟩

theorem version_iff_cuts {t : Text} : IsVersionText t ↔
    t ≠ [] ∧ (∀ c ∈ t, isBlank c = false ∧ c ∉ reserved) ∧
      ∀ p ∈ parts isSeparator t, p ≠ [] := by
  constructor
  · intro version
    have segments := version_iff_segments.mp version
    refine ⟨?_, version_chars version, fun p part => (segments p part).1⟩
    rintro rfl
    exact (segments [] (by simp [parts, cutAt])).1 rfl
  · rintro ⟨_, chars, full⟩
    refine version_iff_segments.mpr fun p part => ⟨full p part, fun c mem => ?_⟩
    obtain ⟨before, after, rfl, uncut, _⟩ := mem_parts_iff_maximal.mp part
    obtain ⟨shown, unreserved⟩ := chars c (by simp [mem])
    have unseparated : c ∉ separators := by
      rw [mem_separators_iff, uncut c mem]
      decide
    exact ⟨shown, unseparated, unreserved⟩

theorem tokenize_by_runs (t : Text) (offset : Int) :
    ((∃ tokens, tokenize t offset = .ok tokens) ↔
      t ≠ [] ∧ (∀ c ∈ t, isBlank c = false ∧ c ∉ reserved) ∧
        ∀ p ∈ parts isSeparator t, p ≠ []) ∧
    ∀ tokens, tokenize t offset = .ok tokens →
      List.Forall₂ (fun run token => ∃ zeros, token.spelled zeros = run)
        ((parts isSeparator t).flatMap runs) tokens := by
  simp only [tokenize_ok_iff]
  constructor
  · rw [tokenized_exists_iff, version_iff_cuts]
  · intro tokens tokenized
    exact tokenized.tokens.imp fun run token => of_run_ok_iff.mp

end VersionMatch
