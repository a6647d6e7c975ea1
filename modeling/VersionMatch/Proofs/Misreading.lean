import VersionMatch.Proofs.Neighbours

/- How a version-id fails to be read: what the scan had read until then is the start of some
   version-id, and the fault tells what stood behind it. -/
namespace VersionMatch

structure IsVersionStart (t : Text) : Prop where
  clashless : Clashless (.blank :: kinds t)
  characters : ∀ c ∈ t, Kind.of c = .plain ∨ Kind.of c = .separator

/-- A text that is no version-id, the cause, the index of the fault and the fragment. -/
inductive Misread : Text → Cause → Nat → Text → Prop where
  | empty : Misread [] .emptyVersionId 0 []
  | stray {front rest : Text} {c : CodePoint} (start : IsVersionStart front)
      (misfit : isReserved c = true ∨ isBlank c = true) :
      Misread (front ++ c :: rest) .strayCharacter front.length [c]
  | emptyToken {front rest : Text} {c : CodePoint} (start : IsVersionStart front)
      (separator : isSeparator c = true) (past : ¬ IsVersionStart (front ++ [c])) :
      Misread (front ++ c :: rest) .emptyToken front.length (front ++ c :: rest)
  | trailing {front : Text} {c : CodePoint} (start : IsVersionStart (front ++ [c]))
      (separator : isSeparator c = true) :
      Misread (front ++ [c]) .trailingSeparator front.length (front ++ [c])

/-- Where a scan stands: all it has read, and of it what was read since the last token. -/
structure Scanned (read run : Text) : Prop where
  start : IsVersionStart read
  uniform : IsUniform run.reverse
  ending : run.reverse <:+ read
  fresh : run = [] → ∀ c ∈ read.getLast?, isSeparator c = true

theorem version_start_iff {t : Text} {c : CodePoint} : IsVersionStart (t ++ [c]) ↔
    Fits .blank t (Kind.of c) ∧
      ∀ d ∈ t ++ [c], Kind.of d = .plain ∨ Kind.of d = .separator := by
  constructor
  · intro start
    exact ⟨by simpa [Fits] using start.clashless, start.characters⟩
  · intro parts
    exact ⟨by simpa [Fits] using parts.1, parts.2⟩

theorem version_start_plain {t : Text} (start : IsVersionStart t) {c : CodePoint}
    (plain : IsPlain c) : IsVersionStart (t ++ [c]) := by
  have kind := kind_plain_iff.mpr plain
  refine version_start_iff.mpr ⟨fits_iff_last.mpr ⟨start.clashless, fun k last => ?_⟩, ?_⟩
  · rw [kind]
    rcases List.mem_cons.mp (List.mem_of_getLast? last) with rfl | inside
    · rfl
    · obtain ⟨d, mem, rfl⟩ := List.mem_map.mp inside
      rcases start.characters d mem with kindD | kindD <;> rw [kindD] <;> rfl
  · exact List.forall_mem_append.mpr ⟨start.characters, List.forall_mem_singleton.mpr (.inl kind)⟩

theorem version_start_separator {read run : Text} (scanned : Scanned read run) {c : CodePoint}
    (separator : isSeparator c = true) : IsVersionStart (read ++ [c]) ↔ run ≠ [] := by
  have kind := kind_separator_iff.mpr separator
  rw [version_start_iff, kind]
  constructor
  · intro start none
    obtain ⟨fits, _⟩ := start
    rcases List.eq_nil_or_concat read with rfl | ⟨front, d, rfl⟩
    · simp [fits_nil, Kind.mayPrecede] at fits
    · rw [List.concat_eq_append, fits_append_cons, fits_nil] at fits
      have last := kind_separator_iff.mpr (scanned.fresh none d (by simp))
      simp [last, Kind.mayPrecede] at fits
  · intro some
    obtain ⟨done, rfl⟩ := scanned.ending
    cases run with
    | nil => contradiction
    | cons d run =>
      have plain := kind_plain_iff.mpr (scanned.uniform.1 d (by simp))
      have last := scanned.start
      rw [List.reverse_cons, ← List.append_assoc] at last ⊢
      rw [fits_append_cons, fits_nil, plain]
      have separates : ∀ e ∈ [c], Kind.of e = .plain ∨ Kind.of e = .separator :=
        List.forall_mem_singleton.mpr (.inr kind)
      exact ⟨⟨plain ▸ (version_start_iff.mp last).1, rfl⟩,
        List.forall_mem_append.mpr ⟨last.characters, separates⟩⟩

theorem scanned_nothing : Scanned [] [] :=
  ⟨⟨by simp [Clashless], by simp⟩, uniform_nil, List.suffix_refl _, by simp⟩

theorem scanned_separator {read run : Text} (scanned : Scanned read run) (some : run ≠ [])
    {c : CodePoint} (separator : isSeparator c = true) : Scanned (read ++ [c]) [] :=
  ⟨(version_start_separator scanned separator).mpr some, uniform_nil, List.nil_suffix,
    by simpa using separator⟩

theorem scanned_turn {read run : Text} (scanned : Scanned read run) {c : CodePoint}
    (plain : IsPlain c) : Scanned (read ++ [c]) [c] :=
  ⟨version_start_plain scanned.start plain, uniform_single plain, List.suffix_append _ _,
    by simp⟩

theorem scanned_grow {read run : Text} (scanned : Scanned read run) {c : CodePoint}
    (plain : IsPlain c) (same : ¬(run.head?.any fun d => d.isDigit != c.isDigit) = true) :
    Scanned (read ++ [c]) (c :: run) := by
  obtain ⟨done, rfl⟩ := scanned.ending
  exact ⟨version_start_plain scanned.start plain, uniform_grow scanned.uniform plain same,
    ⟨done, by simp⟩, by simp⟩

theorem place_next {offset position : Int} {read : Text} (place : position = offset + read.length)
    (c : CodePoint) : position + 1 = offset + (read ++ [c]).length := by
  rw [place, List.length_append, List.length_singleton]
  omega

/- By the turns of the scan. What it has read stays the start of a version-id, so where it fails
   the next character, or the end of the text, is to blame. -/
theorem scan_misread {whole read run rest : Text} {offset position : Int} {f : Fault}
    (scanned : Scanned read run) (split : whole = read ++ rest) (nonempty : whole ≠ [])
    (place : position = offset + read.length) (failed : scan whole position run rest = .error f) :
    ∃ (cause : Cause) (i : Nat) (fragment : Text), f = .malformed cause (offset + i) fragment ∧
      Misread whole cause i fragment := by
  fun_induction scan whole position run rest generalizing read with
  | case1 position =>
    cases failed
    rw [List.append_nil] at split
    rcases List.eq_nil_or_concat read with rfl | ⟨front, c, rfl⟩
    · contradiction
    · rw [List.concat_eq_append] at split place scanned
      have separator := scanned.fresh rfl c (by simp)
      have before : position - 1 = offset + front.length := by
        rw [place, List.length_append, List.length_singleton]
        omega
      refine ⟨.trailingSeparator, front.length, whole, by rw [before], ?_⟩
      rw [split]
      exact .trailing scanned.start separator
  | case2 position run some =>
    obtain ⟨token, read⟩ := token_of_uniform (by simpa using some) scanned.uniform
    simp [read, bind, Except.bind, pure, Except.pure] at failed
  | case3 position run c rest misfit =>
    cases failed
    refine ⟨.strayCharacter, read.length, [c], by rw [place], ?_⟩
    rw [split]
    exact .stray scanned.start (by simpa using misfit)
  | case4 position run c rest fits separator empty =>
    cases failed
    refine ⟨.emptyToken, read.length, whole, by rw [place], ?_⟩
    have past : ¬ IsVersionStart (read ++ [c]) := by
      rw [version_start_separator scanned separator, List.isEmpty_iff.mp empty]
      simp
    rw [split]
    exact .emptyToken scanned.start separator past
  | case5 position run c rest fits separator nonempty ih =>
    have some : run ≠ [] := by simpa using nonempty
    obtain ⟨token, read⟩ := token_of_uniform (by simpa using some) scanned.uniform
    apply ih (scanned_separator scanned some separator) (by simpa using split) (place_next place c)
    simpa [read, bind_error_iff, pure, Except.pure] using failed
  | case6 position run c rest fits kept turn ih =>
    have some : run.reverse ≠ [] := by
      intro none
      simp [List.reverse_eq_nil_iff.mp none] at turn
    obtain ⟨token, read⟩ := token_of_uniform some scanned.uniform
    have next := scanned_turn scanned (plain_of_kept fits kept)
    apply ih next (by simpa using split) (place_next place c)
    simpa [read, bind_error_iff, pure, Except.pure] using failed
  | case7 position run c rest fits kept same ih =>
    have next := scanned_grow scanned (plain_of_kept fits kept) same
    exact ih next (by simpa using split) (place_next place c) failed

theorem tokenize_misread {t : Text} {offset : Int} {f : Fault}
    (failed : tokenize t offset = .error f) :
    ∃ (cause : Cause) (i : Nat) (fragment : Text), f = .malformed cause (offset + i) fragment ∧
      Misread t cause i fragment := by
  cases t with
  | nil =>
    cases failed
    exact ⟨.emptyVersionId, 0, [], by simp, .empty⟩
  | cons c t => exact scan_misread scanned_nothing rfl (by simp) (by simp) failed

theorem version_parse_misread {t : Text} {offset : Int} {f : Fault}
    (failed : VersionId.parse (some t) offset = .error f) :
    ∃ (cause : Cause) (i : Nat) (fragment : Text), f = .malformed cause (offset + i) fragment ∧
      Misread t cause i fragment := by
  rcases bind_error_iff.mp failed with unread | ⟨tokens, read, unbuilt⟩
  · exact tokenize_misread unread
  · rw [VersionId.ofTokens, dif_pos (tokenized_nonempty (tokenize_ok_iff.mp read))] at unbuilt
    contradiction

end VersionMatch
