import VersionMatch.Proofs.Escaping
import VersionMatch.Proofs.Misreading

/- The characters of messages. What a message says on its own needs no line and no bar, and what
   it quotes keeps its bars but not its line feeds. -/
namespace VersionMatch

/-- A text that can stand in a cell of a table: it ends neither the line nor the cell. -/
def FitsCell (t : Text) : Prop := .char '\n' ∉ t ∧ .char '|' ∉ t

instance (t : Text) : Decidable (FitsCell t) := inferInstanceAs (Decidable (_ ∧ _))

/-- All on one line, and without a bar unless there is one in the source. -/
def BarsFrom (source t : Text) : Prop := ∀ c ∈ t, c ≠ '\n' ∧ (c = '|' → .char '|' ∈ source)

theorem fits_cell_iff {t : Text} : FitsCell t ↔ ∀ c ∈ t, c ≠ '\n' ∧ c ≠ '|' := by
  constructor
  · rintro ⟨line, bar⟩ c mem
    exact ⟨fun same => line (same ▸ mem), fun same => bar (same ▸ mem)⟩
  · intro each
    exact ⟨fun mem => (each _ mem).1 rfl, fun mem => (each _ mem).2 rfl⟩

theorem fits_cell_append {t u : Text} : FitsCell (t ++ u) ↔ FitsCell t ∧ FitsCell u := by
  simp only [fits_cell_iff, List.forall_mem_append]

theorem digits_fit {digits : Characters} (each : ∀ c ∈ digits, ∃ d < 16, c = Nat.digitChar d) :
    FitsCell (Text.ofCharacters digits) := by
  have digit : ∀ d < 16, CodePoint.char (Nat.digitChar d) ≠ '\n' ∧
      CodePoint.char (Nat.digitChar d) ≠ '|' := by decide
  rw [fits_cell_iff]
  intro c mem
  obtain ⟨given, inside, rfl⟩ := List.mem_map.mp mem
  obtain ⟨d, low, rfl⟩ := each given inside
  exact digit d low

theorem hex_fits (width n : Nat) : FitsCell (Text.hex width n) := digits_fit fun _ => mem_hex

theorem natural_fits (n : Nat) : FitsCell (Text.ofNat n) := by
  apply digits_fit
  intro c mem
  obtain ⟨d, low, same⟩ := mem_digits (by decide) mem
  exact ⟨d, by omega, same⟩

theorem integer_fits (i : Int) : FitsCell (Text.ofInt i) := by
  cases i with
  | ofNat n => exact natural_fits n
  | negSucc n =>
    have split : Text.ofInt (.negSucc n) = "-".text ++ Text.ofNat (n + 1) := rfl
    rw [split, fits_cell_append]
    exact ⟨by decide, natural_fits (n + 1)⟩

theorem numeric_escape_fits (n : Nat) : FitsCell (numericEscape n) := by
  unfold numericEscape
  split_ifs
  all_goals exact fits_cell_append.mpr ⟨by decide, hex_fits _ n⟩

theorem quote_mark_cases (t : Text) : quoteMark t = '"' ∨ quoteMark t = '\'' := by
  unfold quoteMark
  split
  · exact .inl rfl
  · exact .inr rfl

theorem bars_append {source t u : Text} :
    BarsFrom source (t ++ u) ↔ BarsFrom source t ∧ BarsFrom source u :=
  List.forall_mem_append

theorem bars_of_fits {t : Text} (fits : FitsCell t) (source : Text) : BarsFrom source t :=
  fun c mem => ⟨(fits_cell_iff.mp fits c mem).1, fun bar => absurd (bar ▸ mem) fits.2⟩

theorem fits_of_bars {source t : Text} (bars : BarsFrom source t) (none : .char '|' ∉ source) :
    FitsCell t :=
  ⟨fun mem => (bars _ mem).1 rfl, fun mem => none ((bars _ mem).2 rfl)⟩

theorem quoted_char_bars {mark c : CodePoint} (quote : mark ≠ '\n') :
    BarsFrom [c] (quotedChar mark c) := by
  unfold quotedChar
  split_ifs with escaped tab line ret shown
  · have seen : c ≠ '\n' := by
      rcases escaped with rfl | rfl
      · exact quote
      · decide
    intro d mem
    rcases List.mem_cons.mp mem with rfl | own
    · exact ⟨by decide, fun bar => absurd bar (by decide)⟩
    · rw [List.mem_singleton.mp own]
      exact ⟨seen, fun bar => by simp [bar]⟩
  · exact bars_of_fits (by decide) [c]
  · exact bars_of_fits (by decide) [c]
  · exact bars_of_fits (by decide) [c]
  · intro d mem
    rw [List.mem_singleton.mp mem]
    exact ⟨line, fun bar => by simp [bar]⟩
  · exact bars_of_fits (numeric_escape_fits c.toNat) [c]

theorem quoted_bars (t : Text) : BarsFrom t t.quoted := by
  have quote : quoteMark t ≠ '\n' ∧ FitsCell [quoteMark t] := by
    rcases quote_mark_cases t with mark | mark <;> rw [mark] <;> decide
  have ends : BarsFrom t [quoteMark t] := bars_of_fits quote.2 t
  have inside : BarsFrom t (t.flatMap (quotedChar (quoteMark t))) := by
    intro d mem
    obtain ⟨c, given, spelled⟩ := List.mem_flatMap.mp mem
    obtain ⟨line, bar⟩ := quoted_char_bars quote.1 d spelled
    exact ⟨line, fun same => List.mem_singleton.mp (bar same) ▸ given⟩
  rw [Text.quoted, ← List.singleton_append]
  exact bars_append.mpr ⟨ends, bars_append.mpr ⟨inside, ends⟩⟩

theorem misread_fragment {t fragment : Text} {cause : Cause} {i : Nat}
    (misread : Misread t cause i fragment) : fragment ⊆ t := by
  cases misread with
  | empty => exact List.nil_subset []
  | stray start misfit => simp
  | emptyToken start separator past => exact List.Subset.refl _
  | trailing start separator => exact List.Subset.refl _

theorem malformed_bars (cause : Cause) (position : Int) {source fragment : Text}
    (taken : fragment ⊆ source) :
    BarsFrom source (Refusal.malformed cause position fragment).message := by
  have wording : FitsCell cause.wording := by cases cause <;> decide
  have head : FitsCell (cause.wording ++ " at position ".text ++ Text.ofInt position ++
      ": ".text) := by
    simp only [fits_cell_append]
    exact ⟨⟨⟨wording, by decide⟩, integer_fits position⟩, by decide⟩
  have quoted : BarsFrom source fragment.quoted := fun c mem =>
    ⟨(quoted_bars fragment c mem).1, fun bar => taken ((quoted_bars fragment c mem).2 bar)⟩
  exact bars_append.mpr ⟨bars_of_fits head source, quoted⟩

theorem refused_candidate_bars {candidate : Option Text} {offset : Int} {f : Fault}
    (refused : VersionId.parse candidate offset = .error f) :
    BarsFrom (candidate.getD []) f.message := by
  cases candidate with
  | none =>
    cases refused
    exact malformed_bars .absentVersionId offset (List.nil_subset [])
  | some t =>
    obtain ⟨cause, i, fragment, rfl, misread⟩ := version_parse_misread refused
    exact malformed_bars cause (offset + i) (misread_fragment misread)

end VersionMatch
