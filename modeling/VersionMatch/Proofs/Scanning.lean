import VersionMatch.Token
import VersionMatch.Proofs.Grammar
import VersionMatch.Proofs.Outcome
import Mathlib.Data.List.SplitBy

/- What one pass over a version-id yields, said without a pass: its segments are cut into
   runs of digits and of other characters, and each run is one token. -/
namespace VersionMatch

def sameKind (c d : CodePoint) : Bool := c.isDigit == d.isDigit

def runs (t : Text) : List Text := t.splitBy sameKind

structure Tokenized (t : Text) (tokens : List Token) : Prop where
  segments : ∀ p ∈ parts isSeparator t, IsSegment p
  tokens : List.Forall₂ (fun run token => Token.ofRun run = .ok token)
    ((parts isSeparator t).flatMap runs) tokens

/-- A run as the scan holds it: characters of one kind that belong to one segment. -/
def IsUniform (t : Text) : Prop := (∀ c ∈ t, IsPlain c) ∧ ∃ kind, ∀ c ∈ t, c.isDigit = kind

theorem mem_separators_iff (c : CodePoint) : c ∈ separators ↔ isSeparator c = true := by
  simp [isSeparator, or_assoc]

theorem mem_reserved_iff (c : CodePoint) : c ∈ reserved ↔ isReserved c = true := by
  simp [isReserved, or_assoc]

theorem plain_iff {c : CodePoint} :
    IsPlain c ↔ isBlank c = false ∧ isSeparator c = false ∧ isReserved c = false := by
  simp only [IsPlain, mem_separators_iff, mem_reserved_iff, Bool.not_eq_true]

theorem plain_uncut {t : Text} (plain : ∀ c ∈ t, IsPlain c) : Uncut isSeparator t :=
  fun c mem => (plain_iff.mp (plain c mem)).2.1

theorem version_iff_segments {t : Text} :
    IsVersionText t ↔ ∀ p ∈ parts isSeparator t, IsSegment p :=
  joined_iff_parts mem_separators_iff fun _ segment => plain_uncut segment.2

-- Decided over the members of a segment, as for `NoDigits`.
instance (c : CodePoint) : Decidable (IsPlain c) := inferInstanceAs (Decidable (_ ∧ _ ∧ _))
instance (t : Text) : Decidable (IsSegment t) := @instDecidableAnd _ _ _ (List.decidableBAll _ t)
instance (t : Text) : Decidable (IsVersionText t) := decidable_of_iff _ version_iff_segments.symm

theorem uniform_chain {t : Text} (uniform : IsUniform t) :
    t.IsChain fun c d => sameKind c d := by
  obtain ⟨_, kind, all⟩ := uniform
  apply List.Pairwise.isChain
  apply List.pairwise_of_forall_mem_list
  intro c memC d memD
  simp [sameKind, all c memC, all d memD]

theorem runs_uniform {t : Text} (nonempty : t ≠ []) (uniform : IsUniform t) : runs t = [t] :=
  List.splitBy_of_isChain nonempty (uniform_chain uniform)

theorem runs_turn {p : Text} (nonempty : p ≠ []) (uniform : IsUniform p) {c : CodePoint}
    (turn : ∀ d ∈ p, d.isDigit ≠ c.isDigit) (t : Text) :
    runs (p ++ c :: t) = p :: runs (c :: t) := by
  have ends : ∀ d ∈ p.getLast?, sameKind d c = false := by
    intro d last
    simpa [sameKind] using turn d (List.mem_of_getLast? last)
  rw [runs, List.splitBy_append_cons t ends]
  exact congrArg (· ++ runs (c :: t)) (runs_uniform nonempty uniform)

theorem uniform_segment {t : Text} (nonempty : t ≠ []) (uniform : IsUniform t) : IsSegment t :=
  ⟨nonempty, uniform.1⟩

theorem tokenized_nil (tokens : List Token) : ¬ Tokenized [] tokens := by
  intro h
  exact (h.segments [] (by simp [parts, cutAt])).1 rfl

theorem tokenized_last {p : Text} (nonempty : p ≠ []) (uniform : IsUniform p)
    {tokens : List Token} :
    Tokenized p tokens ↔ ∃ token, Token.ofRun p = .ok token ∧ [token] = tokens := by
  have whole := parts_uncut (plain_uncut uniform.1)
  have run := runs_uniform nonempty uniform
  constructor
  · intro h
    have read := h.tokens
    simpa [whole, run, List.forall₂_cons_left_iff, eq_comm] using read
  · intro one
    obtain ⟨token, read, rfl⟩ := one
    exact ⟨by simpa [whole] using uniform_segment nonempty uniform, by simpa [whole, run] using read⟩

theorem tokenized_separator {p : Text} (nonempty : p ≠ []) (uniform : IsUniform p) {c : CodePoint}
    (separator : isSeparator c = true) {t : Text} {tokens : List Token} :
    Tokenized (p ++ c :: t) tokens ↔
      ∃ token, Token.ofRun p = .ok token ∧ ∃ rest, Tokenized t rest ∧ token :: rest = tokens := by
  have split := parts_append_cut (plain_uncut uniform.1) separator t
  have run := runs_uniform nonempty uniform
  have segment := uniform_segment nonempty uniform
  constructor
  · intro tokenized
    obtain ⟨segments, read⟩ := tokenized
    simp only [split, List.mem_cons, forall_eq_or_imp] at segments
    simp only [split, List.flatMap_cons, run, List.singleton_append,
      List.forall₂_cons_left_iff] at read
    obtain ⟨token, rest, first, later, rfl⟩ := read
    exact ⟨token, first, rest, ⟨segments.2, later⟩, rfl⟩
  · intro separated
    obtain ⟨token, first, rest, later, rfl⟩ := separated
    refine ⟨?_, ?_⟩
    · simpa [split] using ⟨segment, later.segments⟩
    · simpa [split, run] using ⟨first, later.tokens⟩

theorem tokenized_join {s t : Text} {first second : List Token} (readS : Tokenized s first)
    (readT : Tokenized t second) {c : CodePoint} (separator : isSeparator c = true) :
    Tokenized (s ++ c :: t) (first ++ second) := by
  have cut := parts_join separator s t
  constructor
  · rw [cut, List.forall_mem_append]
    exact ⟨readS.segments, readT.segments⟩
  · rw [cut, List.flatMap_append]
    exact List.rel_append readS.tokens readT.tokens

theorem segment_append {p q : Text} (plain : ∀ c ∈ p, IsPlain c) (nonempty : q ≠ []) :
    IsSegment (p ++ q) ↔ IsSegment q := by
  constructor
  · intro segment
    exact ⟨nonempty, fun c mem => segment.2 c (List.mem_append_right p mem)⟩
  · intro segment
    refine ⟨by simp [nonempty], fun c mem => ?_⟩
    exact (List.mem_append.mp mem).elim (plain c) (segment.2 c)

theorem tokenized_turn {p : Text} (nonempty : p ≠ []) (uniform : IsUniform p) {c : CodePoint}
    (plain : IsPlain c) (turn : ∀ d ∈ p, d.isDigit ≠ c.isDigit) {t : Text}
    {tokens : List Token} :
    Tokenized (p ++ c :: t) tokens ↔
      ∃ token, Token.ofRun p = .ok token ∧
        ∃ rest, Tokenized (c :: t) rest ∧ token :: rest = tokens := by
  -- `p` and what follows it up to a separator are one segment, but not one run.
  have kept := (plain_iff.mp plain).2.1
  have cut : cutAt isSeparator (c :: t) =
      (c :: (cutAt isSeparator t).1, (cutAt isSeparator t).2) := by simp [cutAt, kept]
  have long := parts_append (plain_uncut uniform.1) (c :: t)
  have short : parts isSeparator (c :: t) = _ := parts_append (p := []) (by simp [Uncut]) (c :: t)
  rw [cut] at long short
  have run := runs_turn nonempty uniform turn (cutAt isSeparator t).1
  have segment := segment_append (q := c :: (cutAt isSeparator t).1) uniform.1 (by simp)
  constructor
  · intro tokenized
    obtain ⟨segments, read⟩ := tokenized
    simp only [long, List.mem_cons, forall_eq_or_imp, segment] at segments
    simp only [long, List.flatMap_cons, run, List.cons_append,
      List.forall₂_cons_left_iff] at read
    obtain ⟨token, rest, first, later, rfl⟩ := read
    refine ⟨token, first, rest, ⟨?_, ?_⟩, rfl⟩
    · simpa [short] using segments
    · simpa [short] using later
  · intro turned
    obtain ⟨token, first, rest, ⟨segments, later⟩, rfl⟩ := turned
    simp only [short, List.nil_append, List.mem_cons, forall_eq_or_imp] at segments
    simp only [short, List.nil_append, List.flatMap_cons] at later
    refine ⟨?_, ?_⟩
    · simpa [long, segment] using segments
    · simpa [long, run] using ⟨first, later⟩

theorem not_tokenized_of_misfit {t : Text} {c : CodePoint} (mem : c ∈ t)
    (misfit : isReserved c = true ∨ isBlank c = true) (tokens : List Token) :
    ¬ Tokenized t tokens := by
  intro h
  have fit := version_chars (version_iff_segments.mpr h.segments) c mem
  rw [mem_reserved_iff, Bool.not_eq_true] at fit
  rcases misfit with reserved | blank
  · simp [fit.2] at reserved
  · simp [fit.1] at blank

theorem not_tokenized_leading {c : CodePoint} (separator : isSeparator c = true) (t : Text)
    (tokens : List Token) : ¬ Tokenized (c :: t) tokens := by
  intro h
  have split := parts_append_cut (p := []) (by simp [Uncut]) separator t
  exact (h.segments [] (by rw [List.nil_append] at split; simp [split])).1 rfl

theorem uniform_nil : IsUniform [].reverse := ⟨by simp, true, by simp⟩

theorem uniform_single {c : CodePoint} (plain : IsPlain c) : IsUniform [c].reverse :=
  ⟨by simpa using plain, c.isDigit, by simp⟩

theorem uniform_grow {run : Text} (uniform : IsUniform run.reverse) {c : CodePoint}
    (plain : IsPlain c) (same : ¬(run.head?.any fun d => d.isDigit != c.isDigit) = true) :
    IsUniform (c :: run).reverse := by
  obtain ⟨plains, kind, all⟩ := uniform
  refine ⟨by simpa [or_imp, forall_and] using ⟨by simpa using plains, plain⟩, c.isDigit, ?_⟩
  intro d mem
  cases run with
  | nil => simp_all
  | cons e run =>
    have last : e.isDigit = c.isDigit := by simpa using same
    have kindE := all e (by simp)
    rcases List.mem_cons.mp (List.mem_reverse.mp mem) with new | old
    · rw [new]
    · rw [all d (List.mem_reverse.mpr old), ← kindE, last]

theorem plain_of_kept {c : CodePoint} (fits : ¬(isReserved c || isBlank c) = true)
    (kept : ¬isSeparator c = true) : IsPlain c := by
  simp only [Bool.or_eq_true, not_or, Bool.not_eq_true] at fits kept
  exact plain_iff.mpr ⟨fits.2, kept, fits.1⟩

/- The scan holds the run it is reading in reverse, as `run`. -/
theorem scan_ok_iff {whole : Text} {position : Int} {run rest : Text} {tokens : List Token}
    (uniform : IsUniform run.reverse) :
    scan whole position run rest = .ok tokens ↔ Tokenized (run.reverse ++ rest) tokens := by
  fun_induction scan whole position run rest generalizing tokens with
  | case1 position => simp [tokenized_nil]
  | case2 position run some =>
    rw [List.append_nil, tokenized_last (by simpa using some) uniform, bind_ok_iff]
    simp [pure, Except.pure]
  | case3 position run c rest misfit =>
    have none := not_tokenized_of_misfit (t := run.reverse ++ c :: rest) (c := c) (by simp)
      (by simpa using misfit) tokens
    simp [none, Fault.malformed]
  | case4 position run c rest fits separator empty =>
    rw [List.isEmpty_iff.mp empty]
    simp [not_tokenized_leading separator, Fault.malformed]
  | case5 position run c rest fits separator nonempty ih =>
    rw [tokenized_separator (by simpa using nonempty) uniform separator, bind_ok_iff]
    simp [bind_ok_iff, ih uniform_nil, pure, Except.pure]
  | case6 position run c rest fits kept turn ih =>
    have plain := plain_of_kept fits kept
    obtain ⟨d, last, differs⟩ := (Option.any_eq_true _ _).mp turn
    have mem := List.mem_of_head? last
    have turns : ∀ e ∈ run.reverse, e.isDigit ≠ c.isDigit := by
      obtain ⟨_, kind, all⟩ := uniform
      intro e memE
      rw [all e memE, ← all d (List.mem_reverse.mpr mem)]
      simpa using differs
    rw [tokenized_turn (by simpa using List.ne_nil_of_mem mem) uniform plain turns, bind_ok_iff]
    simp [bind_ok_iff, ih (uniform_single plain), pure, Except.pure]
  | case7 position run c rest fits kept same ih =>
    rw [ih (uniform_grow uniform (plain_of_kept fits kept) same)]
    simp

theorem tokenize_ok_iff {t : Text} {offset : Int} {tokens : List Token} :
    tokenize t offset = .ok tokens ↔ Tokenized t tokens := by
  cases t with
  | nil => simp [tokenize, tokenized_nil, Fault.malformed]
  | cons c t => exact scan_ok_iff uniform_nil

theorem strip_zeros_canonical {t : Text} (digits : ∀ c ∈ t, c.isDigit = true) :
    DigitsOnly (stripZeros t) ∧ ¬ HasLeadingZero (stripZeros t) := by
  cases eq : t.dropWhile (· == .char '0') with
  | nil =>
    rw [stripZeros, eq]
    decide
  | cons c rest =>
    have inside : ∀ d ∈ c :: rest, d.isDigit = true :=
      fun d mem => digits d ((List.dropWhile_sublist (· == .char '0')).subset (eq ▸ mem))
    have head := List.head?_dropWhile_not (· == .char '0') t
    rw [stripZeros, eq]
    simp only [eq, List.head?_cons, beq_eq_false_iff_ne] at head
    exact ⟨⟨by simp, inside⟩, fun zero => head (by simpa using zero.2)⟩

theorem numeral_of_run {t : Text} (nonempty : t ≠ []) (digits : ∀ c ∈ t, c.isDigit = true) :
    ∃ n : Numeral, n.digits = stripZeros t ∧ Token.ofRun t = .ok (.numeral n) := by
  obtain ⟨only, canonical⟩ := strip_zeros_canonical digits
  refine ⟨⟨stripZeros t, only, canonical⟩, rfl, ?_⟩
  have first : t.head?.any CodePoint.isDigit = true := by
    cases t with
    | nil => contradiction
    | cons c t => exact digits c (by simp)
  rw [Token.ofRun, if_pos first, Numeral.ofText, Numeral.ofDigits, dif_pos only, dif_neg canonical]
  rfl

theorem word_of_run {t : Text} (nonempty : t ≠ []) (others : NoDigits t) :
    ∃ w : Word, w.value = t ∧ Token.ofRun t = .ok (.word w) := by
  refine ⟨⟨t, nonempty, others⟩, rfl, ?_⟩
  have first : ¬t.head?.any CodePoint.isDigit = true := by
    cases t with
    | nil => contradiction
    | cons c t => simp [others c]
  rw [Token.ofRun, if_neg first, Word.ofText, dif_pos nonempty, dif_pos others]
  rfl

theorem word_run {t : Text} {w : Word} (read : Token.ofRun t = .ok (.word w)) : w.value = t := by
  unfold Token.ofRun at read
  split at read
  · obtain ⟨n, _, same⟩ := map_ok_iff.mp read
    contradiction
  · obtain ⟨v, built, same⟩ := map_ok_iff.mp read
    cases same
    unfold Word.ofText at built
    split at built
    · split at built
      · cases built
        rfl
      · contradiction
    · contradiction

theorem chain_of_one_kind {c : CodePoint} {t : Text}
    (chain : (c :: t).IsChain fun d e => sameKind d e) : ∀ d ∈ c :: t, d.isDigit = c.isDigit := by
  induction t generalizing c with
  | nil => simp
  | cons e t ih =>
    obtain ⟨same, rest⟩ := List.isChain_cons_cons.mp chain
    have kind : c.isDigit = e.isDigit := by simpa [sameKind] using same
    intro d mem
    rcases List.mem_cons.mp mem with first | later
    · rw [first]
    · rw [ih rest d later, kind]

theorem run_of_one_kind {p r : Text} (mem : r ∈ runs p) :
    r ≠ [] ∧ ∃ kind, ∀ c ∈ r, c.isDigit = kind := by
  have nonempty := List.ne_nil_of_mem_splitBy mem
  have chain := List.isChain_of_mem_splitBy mem
  cases r with
  | nil => contradiction
  | cons c r => exact ⟨nonempty, c.isDigit, chain_of_one_kind chain⟩

theorem token_of_kind {r : Text} (nonempty : r ≠ []) {kind : Bool}
    (all : ∀ c ∈ r, c.isDigit = kind) : ∃ token, Token.ofRun r = .ok token := by
  cases kind with
  | true =>
    obtain ⟨n, _, read⟩ := numeral_of_run nonempty all
    exact ⟨_, read⟩
  | false =>
    obtain ⟨w, _, read⟩ := word_of_run nonempty all
    exact ⟨_, read⟩

theorem word_plain {t : Text} {tokens : List Token} (tokenized : Tokenized t tokens) {w : Word}
    (mem : .word w ∈ tokens) : ∀ c ∈ w.value, IsPlain c := by
  have same : ∀ run token, Token.ofRun run = .ok token →
      (Token.ofRun run = .ok (.word w) ↔ token = .word w) := by
    intro run token read
    rw [read, Except.ok.injEq]
  obtain ⟨run, inside, read⟩ := (forall₂_exists_mem_iff tokenized.tokens same).mpr ⟨_, mem, rfl⟩
  obtain ⟨p, part, inside⟩ := List.mem_flatMap.mp inside
  intro c memC
  rw [word_run read] at memC
  have whole : (runs p).flatten = p := List.flatten_splitBy sameKind p
  exact (tokenized.segments p part).2 c (whole ▸ List.mem_flatten.mpr ⟨run, inside, memC⟩)

theorem tokenized_exists_iff {t : Text} : (∃ tokens, Tokenized t tokens) ↔ IsVersionText t := by
  rw [version_iff_segments]
  constructor
  · intro reading
    obtain ⟨tokens, segments, _⟩ := reading
    exact segments
  · intro segments
    obtain ⟨tokens, read⟩ : ∃ tokens, List.Forall₂ (fun run token => Token.ofRun run = .ok token)
        ((parts isSeparator t).flatMap runs) tokens := by
      rw [forall₂_exists_iff]
      intro r mem
      obtain ⟨p, _, inside⟩ := List.mem_flatMap.mp mem
      obtain ⟨nonempty, _, all⟩ := run_of_one_kind inside
      exact token_of_kind nonempty all
    exact ⟨tokens, segments, read⟩

theorem token_of_uniform {p : Text} (nonempty : p ≠ []) (uniform : IsUniform p) :
    ∃ token, Token.ofRun p = .ok token := by
  obtain ⟨_, _, all⟩ := uniform
  exact token_of_kind nonempty all

end VersionMatch
