import VersionMatch.Proofs.Neighbours
import VersionMatch.Proofs.Spelling
import VersionMatch.Proofs.TotalOrder
import Mathlib.Logic.Relation

/- Which texts spell one version. Small changes lead from every spelling to a canonical one, with
   points between the tokens and no zeros in front, and no such change touches the tokens. -/
namespace VersionMatch

/-- A change at one place of a text: a separator takes the place of another, a separator comes
    between a digit and another character, or a zero comes in front of a run of digits. -/
inductive Edit : Text → Text → Prop where
  | exchange {s t : Text} {c d : CodePoint} (old : c ∈ separators) (new : d ∈ separators) :
      Edit (s ++ c :: t) (s ++ d :: t)
  | part {s t : Text} {a b c : CodePoint} (turn : a.isDigit ≠ b.isDigit) (left : a ∉ separators)
      (right : b ∉ separators) (new : c ∈ separators) :
      Edit (s ++ a :: b :: t) (s ++ a :: c :: b :: t)
  | pad {s t : Text} {d : CodePoint} (digit : d.isDigit = true)
      (first : ∀ c ∈ s.getLast?, c.isDigit = false) : Edit (s ++ d :: t) (s ++ .char '0' :: d :: t)

/-- One step of respelling, which makes a change in a version-id or takes one back. -/
def Respells (t u : Text) : Prop := IsVersionText t ∧ (Edit t u ∨ Edit u t)

/-- Spellings of the tokens in order. Between neighbours stands one separator, or nothing where
    digits and other characters meet. -/
inductive Writes : List Token → Text → Prop where
  | last (token : Token) (zeros : Nat) : Writes [token] (token.spelled zeros)
  | apart {tokens : List Token} {t : Text} {c : CodePoint} (token : Token) (zeros : Nat)
      (separator : c ∈ separators) (tail : Writes tokens t) :
      Writes (token :: tokens) (token.spelled zeros ++ c :: t)
  | touching {tokens : List Token} {t : Text} (token : Token) (zeros : Nat)
      (turn : ∀ a ∈ (token.spelled zeros).getLast?, ∀ b ∈ t.head?, a.isDigit ≠ b.isDigit)
      (tail : Writes tokens t) : Writes (token :: tokens) (token.spelled zeros ++ t)

def canonical (tokens : List Token) : Text :=
  [CodePoint.char '.'].intercalate (tokens.map (Token.spelled 0))

def spans (t : Text) : List Text := (parts isSeparator t).flatMap runs

theorem spans_separator {c : CodePoint} (separator : isSeparator c = true) (s t : Text) :
    spans (s ++ c :: t) = spans s ++ spans t := by
  rw [spans, parts_join separator, List.flatMap_append]
  rfl

theorem spans_turn {s t : Text}
    (turn : ∀ a ∈ s.getLast?, ∀ b ∈ t.head?, isSeparator b = false → sameKind a b = false) :
    spans (s ++ t) = spans s ++ spans t := by
  induction s using cut_induction isSeparator with
  | last p uncut =>
    have split := parts_append uncut t
    have ends : ∀ a ∈ p.getLast?, ∀ b ∈ (cutAt isSeparator t).1.head?, sameKind a b = false := by
      intro a last b next
      cases t with
      | nil => simp [cutAt] at next
      | cons d t =>
        cases separator : isSeparator d with
        | true => simp [cutAt, separator] at next
        | false =>
          have same : d = b := by simpa [cutAt, separator] using next
          exact same ▸ turn a last d (by simp) separator
    rw [spans, split, List.flatMap_cons, runs, List.splitBy_append ends, List.append_assoc, spans,
      parts_uncut uncut, List.flatMap_singleton]
    rfl
  | step p c s uncut cut ih =>
    have later : ∀ a ∈ s.getLast?, ∀ b ∈ t.head?, isSeparator b = false → sameKind a b = false := by
      intro a last
      refine turn a ?_
      rw [Option.mem_def, List.getLast?_append, List.getLast?_cons, Option.mem_def.mp last]
      rfl
    rw [List.append_assoc, List.cons_append, spans_separator cut, ih later, spans_separator cut,
      List.append_assoc]

theorem of_run_zero {d : CodePoint} (digit : d.isDigit = true) (r : Text) :
    Token.ofRun (.char '0' :: d :: r) = Token.ofRun (d :: r) := by
  have stripped : stripZeros (.char '0' :: d :: r) = stripZeros (d :: r) := by simp [stripZeros]
  simp only [Token.ofRun, Numeral.ofText, stripped, List.head?_cons, Option.any_some, digit]
  rfl

theorem spans_digits {p : Text} (nonempty : p ≠ []) (digits : ∀ c ∈ p, c.isDigit = true)
    {t : Text} (ends : ∀ b ∈ t.head?, b.isDigit = false) : spans (p ++ t) = p :: spans t := by
  have plain : ∀ c ∈ p, IsPlain c := fun c mem => digit_plain (digits c mem)
  have turn : ∀ a ∈ p.getLast?, ∀ b ∈ t.head?, isSeparator b = false → sameKind a b = false := by
    intro a last b next _
    simp [sameKind, digits a (List.mem_of_getLast? last), ends b next]
  rw [spans_turn turn, spans, parts_uncut (plain_uncut plain), List.flatMap_singleton,
    runs_uniform nonempty ⟨plain, true, digits⟩, List.singleton_append]

theorem pad_spans {d : CodePoint} (digit : d.isDigit = true) (t : Text) :
    (spans (.char '0' :: d :: t)).map Token.ofRun = (spans (d :: t)).map Token.ofRun := by
  have split : t.takeWhile CodePoint.isDigit ++ t.dropWhile CodePoint.isDigit = t :=
    List.takeWhile_append_dropWhile
  have digits : ∀ c ∈ t.takeWhile CodePoint.isDigit, c.isDigit = true :=
    fun c mem => List.mem_takeWhile_imp mem
  have ends : ∀ b ∈ (t.dropWhile CodePoint.isDigit).head?, b.isDigit = false := by
    intro b next
    have head := List.head?_dropWhile_not CodePoint.isDigit t
    rw [Option.mem_def.mp next] at head
    exact head
  have longer : ∀ c ∈ d :: t.takeWhile CodePoint.isDigit, c.isDigit = true :=
    List.forall_mem_cons.mpr ⟨digit, digits⟩
  have first := spans_digits (List.cons_ne_nil _ _) longer ends
  have second := spans_digits (List.cons_ne_nil (.char '0') _)
    (List.forall_mem_cons.mpr ⟨rfl, longer⟩) ends
  simp only [List.cons_append, split] at first second
  rw [first, second, List.map_cons, List.map_cons, of_run_zero digit]

theorem edit_runs {t u : Text} (edit : Edit t u) :
    (spans t).map Token.ofRun = (spans u).map Token.ofRun := by
  cases edit with
  | exchange old new =>
    rw [spans_separator ((mem_separators_iff _).mp old),
      spans_separator ((mem_separators_iff _).mp new)]
  | @part s t a b c turn left right new =>
    have meet : ∀ x ∈ (s ++ [a]).getLast?, ∀ y ∈ (b :: t).head?,
        isSeparator y = false → sameKind x y = false := by
      intro x last y next _
      simp only [List.getLast?_concat, Option.mem_def, Option.some.injEq] at last
      simp only [List.head?_cons, Option.mem_def, Option.some.injEq] at next
      simpa [← last, ← next, sameKind] using turn
    have joined := spans_turn meet
    have parted := spans_separator ((mem_separators_iff c).mp new) (s ++ [a]) (b :: t)
    simp only [List.append_assoc, List.singleton_append] at joined parted
    rw [joined, parted]
  | @pad s t d digit first =>
    have meet : ∀ e, e.isDigit = true → ∀ r : Text,
        spans (s ++ e :: r) = spans s ++ spans (e :: r) := by
      intro e digitE r
      apply spans_turn
      intro a last b next _
      simp only [List.head?_cons, Option.mem_def, Option.some.injEq] at next
      simp [sameKind, first a last, ← next, digitE]
    rw [meet d digit t, meet '0' rfl (d :: t), List.map_append, List.map_append,
      pad_spans digit t]

theorem edit_chars {P : CodePoint → Prop} (separators : ∀ c ∈ separators, P c) (zero : P '0')
    {t u : Text} (edit : Edit t u) : (∀ c ∈ t, P c) ↔ ∀ c ∈ u, P c := by
  cases edit with
  | exchange old new =>
    simp only [List.forall_mem_append, List.forall_mem_cons, separators _ old, separators _ new]
  | part turn left right new =>
    simp only [List.forall_mem_append, List.forall_mem_cons, separators _ new, true_and]
  | pad digit first =>
    simp only [List.forall_mem_append, List.forall_mem_cons, zero, true_and]

theorem edit_version_iff {t u : Text} (edit : Edit t u) : IsVersionText t ↔ IsVersionText u := by
  have fits : ∀ c ∈ separators, isBlank c = false ∧ c ∉ reserved := by
    simp only [List.forall_mem_cons, List.not_mem_nil, false_implies, implies_true]
    decide
  rw [version_iff_fits, version_iff_fits, ← edit_chars fits (by decide) edit]
  refine and_congr_right fun chars => ?_
  have separates : ∀ c ∈ separators, Kind.of c = .separator :=
    fun c mem => kind_separator_iff.mpr ((mem_separators_iff c).mp mem)
  cases edit with
  | exchange old new => rw [fits_append_cons, fits_append_cons, separates _ old, separates _ new]
  | @part s t a b c turn left right new =>
    have plain : ∀ e ∈ [a, b], Kind.of e = .plain := by
      have kept : ∀ e ∈ [a, b], e ∉ separators :=
        List.forall_mem_cons.mpr ⟨left, List.forall_mem_singleton.mpr right⟩
      intro e mem
      have inside : e ∈ s ++ ([a, b] ++ t) := List.mem_append_right s (List.mem_append_left t mem)
      obtain ⟨shown, unreserved⟩ := chars e inside
      exact kind_plain_iff.mpr ⟨shown, kept e mem, unreserved⟩
    rw [fits_append_cons, fits_append_cons, fits_cons, fits_cons, fits_cons, plain a (by simp),
      plain b (by simp), separates c new]
    simp [Kind.mayPrecede]
  | @pad s t d digit first =>
    have plain := kind_plain_iff.mpr (digit_plain digit)
    have zero : Kind.of '0' = .plain := by decide
    rw [fits_append_cons, fits_append_cons, fits_cons, plain, zero]
    simp [Kind.mayPrecede]

theorem tokenized_iff_runs {t : Text} {tokens : List Token} : Tokenized t tokens ↔
    IsVersionText t ∧ (spans t).map Token.ofRun = tokens.map .ok := by
  rw [version_iff_segments, ← List.forall₂_eq_eq_eq, List.forall₂_map_left_iff,
    List.forall₂_map_right_iff]
  exact ⟨fun read => ⟨read.segments, read.tokens⟩, fun both => ⟨both.1, both.2⟩⟩

theorem edit_tokenized_iff {t u : Text} (edit : Edit t u) {tokens : List Token} :
    Tokenized t tokens ↔ Tokenized u tokens := by
  rw [tokenized_iff_runs, tokenized_iff_runs, edit_version_iff edit, edit_runs edit]

instance : Std.Symm Respells where
  symm t u step := by
    obtain ⟨version, edit | edit⟩ := step
    · exact ⟨(edit_version_iff edit).mp version, .inr edit⟩
    · exact ⟨(edit_version_iff edit).mpr version, .inl edit⟩

theorem respells_tokenized {t u : Text} (step : Respells t u) {tokens : List Token} :
    Tokenized t tokens ↔ Tokenized u tokens := by
  obtain ⟨_, edit | edit⟩ := step
  · exact edit_tokenized_iff edit
  · exact (edit_tokenized_iff edit).symm

theorem respelled_tokenized {t u : Text} (steps : Relation.ReflTransGen Respells t u)
    {tokens : List Token} : Tokenized t tokens ↔ Tokenized u tokens := by
  induction steps with
  | refl => exact Iff.rfl
  | tail _ step ih => exact ih.trans (respells_tokenized step)

/- The scan holds the run it is reading in reverse, as `run`. -/
theorem scan_writes {whole : Text} {position : Int} {run rest : Text} {tokens : List Token}
    (read : scan whole position run rest = .ok tokens) : Writes tokens (run.reverse ++ rest) := by
  fun_induction scan whole position run rest generalizing tokens with
  | case1 position => cases read
  | case2 position run some =>
    obtain ⟨token, first, same⟩ := bind_ok_iff.mp read
    cases same
    obtain ⟨zeros, spelled⟩ := of_run_ok_iff.mp first
    rw [List.append_nil, ← spelled]
    exact .last token zeros
  | case3 position run c rest misfit => cases read
  | case4 position run c rest fits separator empty => cases read
  | case5 position run c rest fits separator nonempty ih =>
    obtain ⟨token, first, later⟩ := bind_ok_iff.mp read
    obtain ⟨others, further, same⟩ := bind_ok_iff.mp later
    cases same
    obtain ⟨zeros, spelled⟩ := of_run_ok_iff.mp first
    rw [← spelled]
    exact .apart token zeros ((mem_separators_iff c).mpr separator) (ih further)
  | case6 position run c rest fits kept turn ih =>
    obtain ⟨token, first, later⟩ := bind_ok_iff.mp read
    obtain ⟨others, further, same⟩ := bind_ok_iff.mp later
    cases same
    obtain ⟨zeros, spelled⟩ := of_run_ok_iff.mp first
    obtain ⟨d, last, differs⟩ := (Option.any_eq_true _ _).mp turn
    rw [← spelled]
    refine .touching token zeros ?_ (ih further)
    intro a lastA b next
    rw [spelled, List.getLast?_reverse, last] at lastA
    cases lastA
    cases next
    simpa using differs
  | case7 position run c rest fits kept same ih => simpa using ih read

theorem tokenized_writes {t : Text} {tokens : List Token} (tokenized : Tokenized t tokens) :
    Writes tokens t := by
  have read : tokenize t 0 = .ok tokens := tokenize_ok_iff.mpr tokenized
  cases t with
  | nil => cases read
  | cons c t => exact scan_writes read

theorem writes_nonempty {tokens : List Token} {t : Text} (writes : Writes tokens t) :
    tokens ≠ [] := by
  cases writes <;> exact List.cons_ne_nil _ _

theorem canonical_cons (token : Token) {tokens : List Token} (nonempty : tokens ≠ []) :
    canonical (token :: tokens) = token.spelled 0 ++ .char '.' :: canonical tokens := by
  cases tokens with
  | nil => contradiction
  | cons next tokens => simp [canonical, List.intercalate_cons_cons]

theorem edit_behind {t u : Text} (edit : Edit t u) (p : Text) {c : CodePoint}
    (other : c.isDigit = false) : Edit (p ++ c :: t) (p ++ c :: u) := by
  cases edit with
  | @exchange s t d e old new => simpa using Edit.exchange (s := p ++ c :: s) (t := t) old new
  | @part s t a b d turn left right new =>
    simpa using Edit.part (s := p ++ c :: s) (t := t) turn left right new
  | @pad s t d digit first =>
    have ends : ∀ e ∈ (p ++ c :: s).getLast?, e.isDigit = false := by
      intro e last
      rcases List.eq_nil_or_concat s with rfl | ⟨r, f, rfl⟩
      · simp_all
      · have split : p ++ c :: (r ++ [f]) = p ++ c :: r ++ [f] := by simp
        rw [List.concat_eq_append] at last first
        rw [split, List.getLast?_concat] at last
        exact first e (by simpa using last)
    simpa using Edit.pad (s := p ++ c :: s) (t := t) digit ends

theorem version_begins {t : Text} (version : IsVersionText t) : ∃ b r, t = b :: r ∧ IsPlain b := by
  have fits := (version_iff_fits.mp version).2
  cases t with
  | nil => simp [fits_nil, Kind.mayPrecede] at fits
  | cons b r =>
    have first : (Kind.of b == .plain) = true := (fits_cons.mp fits).1
    exact ⟨b, r, rfl, kind_plain_iff.mp (beq_iff_eq.mp first)⟩

theorem edit_touching {p t : Text} (segment : IsSegment p) (version : IsVersionText t)
    (turn : ∀ a ∈ p.getLast?, ∀ b ∈ t.head?, a.isDigit ≠ b.isDigit) :
    Edit (p ++ t) (p ++ .char '.' :: t) := by
  obtain ⟨b, r, rfl, plain⟩ := version_begins version
  rcases List.eq_nil_or_concat p with rfl | ⟨s, a, rfl⟩
  · exact absurd rfl segment.1
  · rw [List.concat_eq_append] at segment turn ⊢
    have left := segment.2 a (by simp)
    have edit : Edit (s ++ a :: b :: r) (s ++ a :: .char '.' :: b :: r) :=
      .part (turn a (by simp) b (by simp)) left.2.1 plain.2.1 (by simp)
    simpa using edit

theorem respelled_behind {p t u : Text} (segment : IsSegment p)
    (steps : Relation.ReflTransGen Respells t u) :
    Relation.ReflTransGen Respells (p ++ .char '.' :: t) (p ++ .char '.' :: u) := by
  refine steps.lift (fun t => p ++ .char '.' :: t) fun s t step => ?_
  obtain ⟨version, edit⟩ := step
  refine ⟨.step segment (by simp) version, ?_⟩
  exact edit.imp (fun edit => edit_behind edit p rfl) (fun edit => edit_behind edit p rfl)

theorem respelled_zeros {token : Token} {zeros : Nat} {t : Text}
    (version : IsVersionText (token.spelled zeros ++ t)) :
    Relation.ReflTransGen Respells (token.spelled zeros ++ t) (token.spelled 0 ++ t) := by
  induction zeros with
  | zero => exact .refl
  | succ zeros ih =>
    cases token with
    | word w => exact .refl
    | numeral n =>
      have digits := spelled_digits n zeros
      cases spelled : (Token.numeral n).spelled zeros with
      | nil => exact absurd spelled (spelled_nonempty _ zeros)
      | cons d r =>
        have longer : (Token.numeral n).spelled (zeros + 1) = .char '0' :: d :: r := by
          rw [← spelled]
          rfl
        have edit : Edit (d :: r ++ t) (.char '0' :: d :: r ++ t) :=
          .pad (s := []) (digits d (by simp [spelled])) (by simp)
        rw [longer] at version ⊢
        rw [spelled] at ih
        exact .head ⟨version, .inr edit⟩ (ih ((edit_version_iff edit).mpr version))

theorem respelled_apart {token : Token} {zeros : Nat} (segment : ∀ z, IsSegment (token.spelled z))
    {tokens : List Token} (nonempty : tokens ≠ []) {t : Text} (version : IsVersionText t)
    (steps : Relation.ReflTransGen Respells t (canonical tokens)) {c : CodePoint}
    (separator : c ∈ separators) :
    Relation.ReflTransGen Respells (token.spelled zeros ++ c :: t) (canonical (token :: tokens)) := by
  have apart : ∀ z, IsVersionText (token.spelled z ++ c :: t) :=
    fun z => .step (segment z) separator version
  have exchanged : Respells (token.spelled 0 ++ c :: t) (token.spelled 0 ++ .char '.' :: t) :=
    ⟨apart 0, .inl (.exchange separator (by simp))⟩
  rw [canonical_cons token nonempty]
  exact (respelled_zeros (apart zeros)).trans (.head exchanged (respelled_behind (segment 0) steps))

/- By the writing. What follows the first token is respelled first, and then stands behind it. -/
theorem writes_canonical {tokens : List Token} {t : Text} (writes : Writes tokens t)
    (plain : ∀ w, .word w ∈ tokens → ∀ c ∈ w.value, IsPlain c) :
    IsVersionText t ∧ Relation.ReflTransGen Respells t (canonical tokens) := by
  have segments : ∀ token ∈ tokens, ∀ z, IsSegment (token.spelled z) := by
    intro token mem z
    exact uniform_segment (spelled_nonempty token z)
      (spelled_uniform (fun w same => plain w (same ▸ mem)) z)
  induction writes with
  | last token zeros =>
    have version : IsVersionText (token.spelled zeros) := .last (segments token (by simp) zeros)
    refine ⟨version, ?_⟩
    have steps := respelled_zeros (t := []) (by simpa using version)
    simpa [canonical] using steps
  | @apart tokens t c token zeros separator tail ih =>
    obtain ⟨version, steps⟩ := ih (fun w mem => plain w (List.mem_cons_of_mem token mem))
      fun other mem => segments other (List.mem_cons_of_mem token mem)
    have segment := segments token (by simp)
    exact ⟨.step (segment zeros) separator version,
      respelled_apart segment (writes_nonempty tail) version steps separator⟩
  | @touching tokens t token zeros turn tail ih =>
    obtain ⟨version, steps⟩ := ih (fun w mem => plain w (List.mem_cons_of_mem token mem))
      fun other mem => segments other (List.mem_cons_of_mem token mem)
    have segment := segments token (by simp)
    have parted : IsVersionText (token.spelled zeros ++ .char '.' :: t) :=
      .step (segment zeros) (by simp) version
    have edit := edit_touching (segment zeros) version turn
    have joined := (edit_version_iff edit).mpr parted
    exact ⟨joined, .head ⟨joined, .inl edit⟩
      (respelled_apart segment (writes_nonempty tail) version steps (by simp))⟩

theorem respelled_canonical {t : Text} {tokens : List Token} (tokenized : Tokenized t tokens) :
    Relation.ReflTransGen Respells t (canonical tokens) :=
  (writes_canonical (tokenized_writes tokenized) fun _ mem => word_plain tokenized mem).2

theorem same_iff_respelled {t u : Text} (versionT : IsVersionText t) (versionU : IsVersionText u) :
    ∃ v w, VersionId.parse (some t) 0 = .ok v ∧ VersionId.parse (some u) 0 = .ok w ∧
      (v.same w = true ↔ Relation.ReflTransGen Respells t u) := by
  obtain ⟨v, readV⟩ := version_read_iff.mpr versionT
  obtain ⟨w, readW⟩ := version_read_iff.mpr versionU
  refine ⟨v, w, version_parse_ok_iff.mpr readV, version_parse_ok_iff.mpr readW, ?_⟩
  rw [same_iff]
  constructor
  · intro same
    have back := respelled_canonical readW.2
    rw [← same] at back
    exact (respelled_canonical readV.2).trans (symm_of _ back)
  · intro steps
    have again : tokenize u 0 = .ok v.tokens :=
      tokenize_ok_iff.mpr ((respelled_tokenized steps).mp readV.2)
    rw [tokenize_ok_iff.mpr readW.2] at again
    exact (Except.ok.inj again).symm

def readSame (t u : Text) : Except Fault Bool := do
  return (← VersionId.parse (some t) 0).same (← VersionId.parse (some u) 0)

theorem separators_and_zeros_respelled :
    IsVersionText "1.10".text ∧ IsVersionText "01_10".text ∧ IsVersionText "1.1.0".text ∧
      Relation.ReflTransGen Respells "1.10".text "01_10".text ∧
        ¬ Relation.ReflTransGen Respells "1.10".text "1.1.0".text := by
  have first : IsVersionText "1.10".text := by decide
  have second : IsVersionText "01_10".text := by decide
  have third : IsVersionText "1.1.0".text := by decide
  refine ⟨first, second, third, ?_, ?_⟩
  · obtain ⟨v, w, readV, readW, same⟩ := same_iff_respelled first second
    have read : readSame "1.10".text "01_10".text = .ok true := by decide +kernel
    rw [readSame, readV, readW] at read
    exact same.mp (Except.ok.inj read)
  · obtain ⟨v, w, readV, readW, same⟩ := same_iff_respelled first third
    have read : readSame "1.10".text "1.1.0".text = .ok false := by decide +kernel
    rw [readSame, readV, readW] at read
    intro steps
    cases (Except.ok.inj read).symm.trans (same.mpr steps)

end VersionMatch
