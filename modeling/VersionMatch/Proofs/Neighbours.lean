import VersionMatch.Proofs.Acceptance

/- The grammar seen from neighbours alone: a text is a specification exactly when, with a blank
   at either end, every character may stand behind the one before it. So a text can be continued
   to a specification as long as no two neighbours of it clash. -/
namespace VersionMatch

inductive Kind
  | plain
  | separator
  | mark
  | ampersand
  | blank
  deriving DecidableEq, Repr

namespace Kind

def of (c : CodePoint) : Kind :=
  if isSeparator c then .separator
  else if c = '&' then .ampersand
  else if isReserved c then .mark
  else if isBlank c then .blank
  else .plain

/-- A mark ends its range, and what joins two versions or two segments stands between plain
    characters. -/
def mayPrecede : Kind → Kind → Bool
  | .plain, _ => true
  | .mark, next => next == .ampersand || next == .blank
  | _, next => next == .plain

end Kind

def kinds (t : Text) : List Kind := t.map Kind.of

def Clashless (ks : List Kind) : Prop := ks.IsChain fun k l => k.mayPrecede l = true

/-- Its neighbours do not tell a character of the kind from an end of the text. -/
structure Kind.IsEnd (k : Kind) : Prop where
  behind : k.mayPrecede = Kind.mayPrecede .blank
  before : ∀ j : Kind, j.mayPrecede k = j.mayPrecede .blank

def Fits (before : Kind) (t : Text) (after : Kind) : Prop :=
  Clashless (before :: (kinds t ++ [after]))

theorem kind_separator_iff {c : CodePoint} : Kind.of c = .separator ↔ isSeparator c = true := by
  unfold Kind.of
  split_ifs <;> simp_all

theorem kind_mark_iff {c : CodePoint} : Kind.of c = .mark ↔ c ∈ marks := by
  constructor
  · unfold Kind.of
    split_ifs with separator ampersand reserved <;> simp_all [isReserved]
  · intro mark
    rcases List.mem_pair.mp mark with rfl | rfl <;> decide

theorem blank_alone {c : CodePoint} (blank : isBlank c = true) :
    isSeparator c = false ∧ isReserved c = false := by
  constructor
  · by_contra other
    simp only [isSeparator, Bool.not_eq_false, Bool.or_eq_true, beq_iff_eq] at other
    rcases other with (rfl | rfl) | rfl <;> revert blank <;> decide
  · by_contra other
    simp only [isReserved, Bool.not_eq_false, Bool.or_eq_true, beq_iff_eq] at other
    rcases other with (rfl | rfl) | rfl <;> revert blank <;> decide

theorem unreserved_ne {c : CodePoint} (unreserved : isReserved c = false) : c ≠ '&' := by
  intro same
  simp [same, isReserved] at unreserved

theorem kind_ampersand_iff {c : CodePoint} : Kind.of c = .ampersand ↔ c = '&' := by
  constructor
  · unfold Kind.of
    split_ifs <;> simp_all
  · intro same
    rw [same]
    decide

theorem kind_blank_iff {c : CodePoint} : Kind.of c = .blank ↔ isBlank c = true := by
  constructor
  · unfold Kind.of
    split_ifs <;> simp_all
  · intro blank
    obtain ⟨separator, reserved⟩ := blank_alone blank
    simp [Kind.of, separator, reserved, blank, unreserved_ne reserved]

theorem kind_plain_iff {c : CodePoint} : Kind.of c = .plain ↔ IsPlain c := by
  rw [plain_iff]
  constructor
  · unfold Kind.of
    split_ifs <;> simp_all
  · intro plain
    obtain ⟨blank, separator, reserved⟩ := plain
    simp [Kind.of, separator, reserved, blank, unreserved_ne reserved]

@[simp] theorem kinds_nil : kinds [] = [] := rfl

@[simp] theorem kinds_cons (c : CodePoint) (t : Text) : kinds (c :: t) = Kind.of c :: kinds t := rfl

@[simp] theorem kinds_append (s t : Text) : kinds (s ++ t) = kinds s ++ kinds t :=
  List.map_append

theorem fits_nil {before after : Kind} : Fits before [] after ↔ before.mayPrecede after = true := by
  simp [Fits, Clashless]

theorem fits_cons {before after : Kind} {c : CodePoint} {t : Text} : Fits before (c :: t) after ↔
    before.mayPrecede (Kind.of c) = true ∧ Fits (Kind.of c) t after :=
  List.isChain_cons_cons

theorem fits_append_cons {before after : Kind} {p t : Text} {c : CodePoint} :
    Fits before (p ++ c :: t) after ↔ Fits before p (Kind.of c) ∧ Fits (Kind.of c) t after := by
  simp only [Fits, Clashless, kinds_append, kinds_cons, List.append_assoc, List.cons_append]
  exact List.isChain_cons_split

theorem clashless_behind {k l : Kind} (alike : k.mayPrecede = l.mayPrecede) {ks : List Kind} :
    Clashless (k :: ks) ↔ Clashless (l :: ks) := by
  simp only [Clashless, List.isChain_cons, alike]

theorem fits_iff_last {before after : Kind} {t : Text} : Fits before t after ↔
    Clashless (before :: kinds t) ∧
      ∀ k ∈ (before :: kinds t).getLast?, k.mayPrecede after = true := by
  simp only [Fits, Clashless, ← List.cons_append, List.isChain_append]
  simp

/- Cuts that are like both ends of a text leave parts that fit between the same ends. -/
theorem fits_iff_parts {isCut : CodePoint → Bool} {before after : Kind}
    (starts : ∀ c, isCut c = true → (Kind.of c).mayPrecede = before.mayPrecede)
    (ends : ∀ c, isCut c = true → ∀ j : Kind, j.mayPrecede (Kind.of c) = j.mayPrecede after)
    {t : Text} : Fits before t after ↔ ∀ p ∈ parts isCut t, Fits before p after := by
  induction t using cut_induction isCut with
  | last p uncut => simp [parts_uncut uncut]
  | step p c t uncut cut ih =>
    have front : Fits before p (Kind.of c) ↔ Fits before p after := by
      simp only [fits_iff_last, ends c cut]
    have back : Fits (Kind.of c) t after ↔ Fits before t after := clashless_behind (starts c cut)
    rw [parts_append_cut uncut cut, List.forall_mem_cons, ← ih, fits_append_cons, front, back]

theorem ampersand_end {c : CodePoint} (ampersand : (c == '&') = true) : (Kind.of c).IsEnd := by
  rw [kind_ampersand_iff.mpr (by simpa using ampersand)]
  exact ⟨rfl, fun j => by cases j <;> rfl⟩

theorem blank_end {c : CodePoint} (blank : isBlank c = true) : (Kind.of c).IsEnd := by
  rw [kind_blank_iff.mpr blank]
  exact ⟨rfl, fun _ => rfl⟩

theorem plain_fits {t : Text} (plain : ∀ c ∈ t, IsPlain c) (after : Kind) :
    Fits .plain t after := by
  induction t with
  | nil => exact fits_nil.mpr rfl
  | cons c t ih =>
    have kind := kind_plain_iff.mpr (plain c (by simp))
    rw [fits_cons, kind]
    exact ⟨rfl, ih fun d mem => plain d (by simp [mem])⟩

theorem segment_iff_fits {t : Text} (plain : ∀ c ∈ t, IsPlain c) :
    IsSegment t ↔ Fits .blank t .mark := by
  cases t with
  | nil => simp [IsSegment, fits_nil, Kind.mayPrecede]
  | cons c t =>
    have kind := kind_plain_iff.mpr (plain c (by simp))
    have rest : Fits .plain t .mark := plain_fits (fun d mem => plain d (by simp [mem])) .mark
    rw [fits_cons, kind]
    exact iff_of_true ⟨by simp, plain⟩ ⟨rfl, rest⟩

theorem mem_of_mem_parts {isCut : CodePoint → Bool} {p t : Text} (part : p ∈ parts isCut t) :
    Uncut isCut p ∧ ∀ c ∈ p, c ∈ t := by
  obtain ⟨before, after, rfl, uncut, _⟩ := mem_parts_iff_maximal.mp part
  exact ⟨uncut, fun c mem => by simp [mem]⟩

theorem version_iff_fits {t : Text} : IsVersionText t ↔
    (∀ c ∈ t, isBlank c = false ∧ c ∉ reserved) ∧ Fits .blank t .mark := by
  have cuts : Fits .blank t .mark ↔ ∀ p ∈ parts isSeparator t, Fits .blank p .mark := by
    apply fits_iff_parts
    · intro c separator
      rw [kind_separator_iff.mpr separator]
      rfl
    · intro c separator j
      rw [kind_separator_iff.mpr separator]
      cases j <;> rfl
  rw [cuts]
  constructor
  · intro version
    refine ⟨version_chars version, fun p part => ?_⟩
    have segment := version_iff_segments.mp version p part
    exact (segment_iff_fits segment.2).mp segment
  · intro fitting
    obtain ⟨chars, fits⟩ := fitting
    refine version_iff_segments.mpr fun p part => ?_
    obtain ⟨uncut, inside⟩ := mem_of_mem_parts part
    have plain : ∀ c ∈ p, IsPlain c := by
      intro c mem
      obtain ⟨blank, unreserved⟩ := chars c (inside c mem)
      exact ⟨blank, by rw [mem_separators_iff, uncut c mem]; decide, unreserved⟩
    exact (segment_iff_fits plain).mpr (fits p part)

theorem mark_stands_last {before after : Kind} {p t : Text} {c : CodePoint}
    (fits : Fits before (p ++ c :: t) after) (mark : Kind.of c = .mark)
    (inside : ∀ d ∈ t, isBlank d = false ∧ d ≠ '&') : t = [] := by
  cases t with
  | nil => rfl
  | cons d t =>
    obtain ⟨blank, ampersand⟩ := inside d (by simp)
    have next := (fits_cons.mp (fits_append_cons.mp fits).2).1
    simp [mark, Kind.mayPrecede, kind_ampersand_iff, kind_blank_iff, blank, ampersand] at next

theorem range_iff_fits {t : Text} (chars : ∀ c ∈ t, isBlank c = false ∧ c ≠ '&') :
    IsRangeText t ↔ Fits .blank t .blank := by
  constructor
  · intro range
    cases range with
    | bare version =>
      obtain ⟨clashless, last⟩ := fits_iff_last.mp (version_iff_fits.mp version).2
      refine fits_iff_last.mpr ⟨clashless, fun k mem => ?_⟩
      have plain := last k mem
      cases k <;> simp_all [Kind.mayPrecede]
    | @marked v m version mark =>
      have kind := kind_mark_iff.mpr mark
      rw [fits_append_cons, fits_nil, kind]
      exact ⟨(version_iff_fits.mp version).2, rfl⟩
  · intro fits
    rcases List.eq_nil_or_concat t with rfl | ⟨v, m, rfl⟩
    · simp [fits_nil, Kind.mayPrecede] at fits
    · rw [List.concat_eq_append] at fits chars ⊢
      -- A mark in front would clash with what stands behind it, so none is left for the version.
      have unmarked : ∀ c ∈ v, isBlank c = false ∧ c ∉ reserved := by
        intro c mem
        obtain ⟨blank, ampersand⟩ := chars c (by simp [mem])
        refine ⟨blank, fun reserved => ?_⟩
        obtain ⟨x, y, rfl⟩ := List.append_of_mem mem
        have mark := kind_mark_iff.mpr (by simpa [ampersand] using reserved)
        have last := mark_stands_last (p := x) (t := y ++ [m]) (by simpa using fits) mark
          fun d inside => chars d (by simp_all)
        simp at last
      obtain ⟨front, last⟩ := fits_append_cons.mp fits
      rw [fits_nil] at last
      cases kind : Kind.of m with
      | mark =>
        exact .marked (version_iff_fits.mpr ⟨unmarked, kind ▸ front⟩) (kind_mark_iff.mp kind)
      | plain =>
        have plain := kind_plain_iff.mp kind
        have behind : ∀ c ∈ [m], isBlank c = false ∧ c ∉ reserved :=
          List.forall_mem_singleton.mpr ⟨plain.1, plain.2.2⟩
        refine .bare (version_iff_fits.mpr
          ⟨List.forall_mem_append.mpr ⟨unmarked, behind⟩, fits_append_cons.mpr ⟨front, ?_⟩⟩)
        rw [kind]
        exact fits_nil.mpr rfl
      | separator | ampersand | blank => simp [kind, Kind.mayPrecede] at last

theorem clause_iff_fits {t : Text} (unbroken : Uncut isBlank t) :
    IsClauseText t ↔ Fits .blank t .blank := by
  have cuts : Fits .blank t .blank ↔ ∀ p ∈ parts (· == .char '&') t, Fits .blank p .blank :=
    fits_iff_parts (fun _ cut => (ampersand_end cut).behind) fun _ cut => (ampersand_end cut).before
  rw [cuts, clause_iff_parts]
  refine forall₂_congr fun p part => range_iff_fits fun c mem => ?_
  obtain ⟨uncut, inside⟩ := mem_of_mem_parts part
  exact ⟨unbroken c (inside c mem), by simpa using uncut c mem⟩

theorem specification_parses_iff_fits {t : Text} :
    (∃ s, Specification.parse (some t) = .ok s) ↔ Fits .blank t .blank := by
  have cuts : Fits .blank t .blank ↔ ∀ p ∈ parts isBlank t, Fits .blank p .blank :=
    fits_iff_parts (fun _ cut => (blank_end cut).behind) fun _ cut => (blank_end cut).before
  have each : ∀ p ∈ parts isBlank t, (∃ c, ReadsClause p c) ↔ Fits .blank p .blank :=
    fun p part => clause_read_iff.trans (clause_iff_fits (mem_of_mem_parts part).1)
  rw [cuts, ← forall₂_congr each, ← forall₂_exists_iff]
  simp only [specification_parse_ok_iff]
  constructor
  · intro reading
    obtain ⟨s, _, read⟩ := reading
    exact ⟨s.clauses, read⟩
  · intro reading
    obtain ⟨clauses, read⟩ := reading
    exact ⟨⟨clauses, t, related_parts_nonempty read⟩, rfl, read⟩

theorem precedes_blank_or_plain (k : Kind) :
    k.mayPrecede .blank = true ∨ k.mayPrecede .plain = true := by
  cases k <;> decide

theorem clashless_completes {t : Text} (clashless : Clashless (.blank :: kinds t)) :
    ∃ u s, Specification.parse (some (t ++ u)) = .ok s := by
  obtain ⟨k, last⟩ : ∃ k, k ∈ (Kind.blank :: kinds t).getLast? := ⟨_, List.getLast?_cons ..⟩
  have ends : ∀ after, k.mayPrecede after = true → Fits .blank t after := by
    intro after precedes
    exact fits_iff_last.mpr ⟨clashless, fun l mem => Option.mem_unique last mem ▸ precedes⟩
  rcases precedes_blank_or_plain k with complete | unfinished
  · refine ⟨[], specification_parses_iff_fits.mpr ?_⟩
    rw [List.append_nil]
    exact ends .blank complete
  · have digit : Kind.of '1' = .plain := by decide
    refine ⟨['1'], specification_parses_iff_fits.mpr ?_⟩
    rw [fits_append_cons, digit]
    exact ⟨ends .plain unfinished, fits_nil.mpr rfl⟩

theorem clashless_of_start {t u : Text} {s : Specification} (start : t <+: u)
    (parsed : Specification.parse (some u) = .ok s) : Clashless (.blank :: kinds t) := by
  have fits := specification_parses_iff_fits.mp ⟨s, parsed⟩
  obtain ⟨rest, rfl⟩ := start
  exact List.IsChain.prefix fits ⟨kinds rest ++ [.blank], by simp⟩

end VersionMatch
