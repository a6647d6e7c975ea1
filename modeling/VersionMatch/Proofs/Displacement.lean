import VersionMatch.Proofs.Localisation

/- The offset of a text inside a longer one. It moves the places that faults name, and it decides
   nothing: what is read, whether it is read and what is said of a fault are the same everywhere. -/
namespace VersionMatch

/-- The fault as it is told `d` places further on. A defect has no place. -/
def Fault.moved (d : Int) : Fault → Fault
  | .refused (.malformed cause position fragment) => .malformed cause (position + d) fragment
  | f => f

def Piece.moved (d : Int) (p : Piece) : Piece := ⟨p.start + d, p.text⟩

abbrev displaced {α : Type} (d : Int) (x : Except Fault α) : Except Fault α :=
  x.mapError (Fault.moved d)

def Placeless {α : Type} (x : Except Fault α) : Prop := ∀ f, x = .error f → ∃ d, f = .defect d

def IsMalformed (f : Fault) : Prop :=
  ∃ cause position fragment, f = .malformed cause position fragment

/-- Two runs with one outcome: the same result, or a complaint in the same wording about the same
    fragment, for the second run `d` places further on. -/
structure SameElsewhere {α : Type} (d : Int) (x y : Except Fault α) : Prop where
  results : ∀ a, x = .ok a ↔ y = .ok a
  faults : ∀ f, x = .error f → ∃ cause position fragment,
    f = .malformed cause position fragment ∧ y = .error (.malformed cause (position + d) fragment)
  messages : ∀ f g, x = .error f → y = .error g →
    ∃ (wording : Text) (position : Int) (fragment : Text),
    f.message = wording ++ " at position ".text ++ Text.ofInt position ++ ": ".text ++
      fragment.quoted ∧
    g.message = wording ++ " at position ".text ++ Text.ofInt (position + d) ++ ": ".text ++
      fragment.quoted

variable {α β : Type} {d : Int}

theorem displaced_bind (x : Except Fault α) (f : α → Except Fault β) :
    displaced d (x >>= f) = displaced d x >>= fun a => displaced d (f a) := by
  cases x <;> rfl

theorem displaced_mapM {γ : Type} (f : γ → Except Fault α) (xs : List γ) :
    displaced d (xs.mapM f) = xs.mapM fun x => displaced d (f x) := by
  induction xs with
  | nil => rfl
  | cons x xs ih =>
    rw [List.mapM_cons, List.mapM_cons, displaced_bind]
    congr 1
    funext a
    rw [displaced_bind, ih]
    rfl

theorem displaced_placeless {x : Except Fault α} (placeless : Placeless x) : displaced d x = x := by
  cases x with
  | ok a => rfl
  | error f =>
    obtain ⟨defect, rfl⟩ := placeless f rfl
    rfl

theorem placeless_ok (a : α) : Placeless (.ok a : Except Fault α) := fun _ failed => by cases failed

theorem placeless_defect (defect : Defect) : Placeless (.error (.defect defect) : Except Fault α) :=
  fun _ failed => ⟨defect, (Except.error.inj failed).symm⟩

theorem placeless_check {P : Prop} [Decidable P] {x : P → Except Fault α}
    {y : ¬P → Except Fault α} (met : ∀ h, Placeless (x h)) (unmet : ∀ h, Placeless (y h)) :
    Placeless (if h : P then x h else y h) := by
  split
  · exact met _
  · exact unmet _

theorem placeless_map {x : Except Fault α} (placeless : Placeless x) (f : α → β) :
    Placeless (x.map f) :=
  fun _ failed => placeless _ (map_error_iff.mp failed)

theorem of_run_placeless (run : Text) : Placeless (Token.ofRun run) := by
  have numeral : Placeless (Numeral.ofText run) :=
    placeless_check (fun _ => placeless_check (fun _ => placeless_defect _) fun _ => placeless_ok _)
      fun _ => placeless_defect _
  have word : Placeless (Word.ofText run) :=
    placeless_check (fun _ => placeless_check (fun _ => placeless_ok _) fun _ => placeless_defect _)
      fun _ => placeless_defect _
  unfold Token.ofRun
  split
  · exact placeless_map numeral Token.numeral
  · exact placeless_map word Token.word

theorem of_tokens_placeless (tokens : List Token) (t : Text) :
    Placeless (VersionId.ofTokens tokens t) :=
  placeless_check (fun _ => placeless_ok _) fun _ => placeless_defect _

theorem of_parts_placeless (v : VersionId) (modifier : Modifier) (t : Text) :
    Placeless (Range.ofParts v modifier t) :=
  placeless_check (fun _ => placeless_ok _) fun _ => placeless_defect _

theorem of_ranges_placeless (ranges : List Range) (t : Text) :
    Placeless (Clause.ofRanges ranges t) :=
  placeless_check (fun _ => placeless_ok _) fun _ => placeless_defect _

/- By the turns of the scan. Its position is handed on from turn to turn and ends up in faults
   alone. -/
theorem scan_displaced (d : Int) (whole : Text) (position : Int) (run rest : Text) :
    scan whole (position + d) run rest = displaced d (scan whole position run rest) := by
  have next : ∀ position : Int, position + d + 1 = position + 1 + d := fun position => by omega
  fun_induction scan whole position run rest with
  | case1 position =>
    have before : position + d - 1 = position - 1 + d := by omega
    rw [scan, before]
    rfl
  | case2 position run some =>
    rw [scan, displaced_bind, displaced_placeless (of_run_placeless _)]
    · rfl
    · exact some
  | case3 position run c rest misfit =>
    rw [scan, if_pos misfit]
    rfl
  | case4 position run c rest fits separator empty =>
    rw [scan, if_neg fits, if_pos separator, if_pos empty]
    rfl
  | case5 position run c rest fits separator nonempty ih =>
    rw [scan, if_neg fits, if_pos separator, if_neg nonempty, next]
    simp only [displaced_bind, displaced_placeless (of_run_placeless _), ih]
    rfl
  | case6 position run c rest fits kept turn ih =>
    rw [scan, if_neg fits, if_neg kept, if_pos turn, next]
    simp only [displaced_bind, displaced_placeless (of_run_placeless _), ih]
    rfl
  | case7 position run c rest fits kept same ih =>
    rw [scan, if_neg fits, if_neg kept, if_neg same, next, ih]

theorem tokenize_displaced (t : Text) (k d : Int) :
    tokenize t (k + d) = displaced d (tokenize t k) := by
  cases t with
  | nil => rfl
  | cons c t => exact scan_displaced d (c :: t) k [] (c :: t)

theorem version_displaced (t : Option Text) (k d : Int) :
    VersionId.parse t (k + d) = displaced d (VersionId.parse t k) := by
  cases t with
  | none => rfl
  | some t =>
    simp only [VersionId.parse, tokenize_displaced, displaced_bind,
      displaced_placeless (of_tokens_placeless _ _)]

theorem range_displaced (t : Text) (k d : Int) :
    Range.parse t (k + d) = displaced d (Range.parse t k) := by
  rw [range_parse_eq, range_parse_eq]
  split
  · rfl
  · simp only [version_displaced, displaced_bind, displaced_placeless (of_parts_placeless _ _ _)]

theorem placed_moved (d start : Int) (parts : List Text) :
    placed (start + d) parts = (placed start parts).map (Piece.moved d) := by
  induction parts generalizing start with
  | nil => rfl
  | cons part parts ih =>
    have next : start + d + part.length + 1 = start + part.length + 1 + d := by omega
    rw [placed, placed, List.map_cons, next, ih]
    rfl

theorem member_displaced (whole : Text) (p : Piece) (d : Int) :
    Clause.parseMember whole (p.moved d) = displaced d (Clause.parseMember whole p) := by
  unfold Clause.parseMember
  split
  · rename_i empty
    rw [if_pos (show p.text.isEmpty = true from empty)]
    rfl
  · rename_i some
    rw [if_neg (show ¬p.text.isEmpty = true from some)]
    exact range_displaced p.text p.start d

theorem clause_displaced (t : Text) (k d : Int) :
    Clause.parse t (k + d) = displaced d (Clause.parse t k) := by
  have members : (pieces (· == .char '&') (k + d) t).mapM (Clause.parseMember t) =
      displaced d ((pieces (· == .char '&') k t).mapM (Clause.parseMember t)) := by
    have each : Clause.parseMember t ∘ Piece.moved d =
        fun p => displaced d (Clause.parseMember t p) :=
      funext fun p => member_displaced t p d
    rw [pieces, placed_moved, List.mapM_map, each, displaced_mapM]
    rfl
  simp only [Clause.parse, members, displaced_bind, displaced_placeless (of_ranges_placeless _ _)]

theorem version_malformed {t : Option Text} {k : Int} {f : Fault}
    (failed : VersionId.parse t k = .error f) : IsMalformed f := by
  cases t with
  | none =>
    cases failed
    exact ⟨_, _, _, rfl⟩
  | some t =>
    obtain ⟨cause, i, fragment, same, _⟩ := version_parse_misread failed
    exact ⟨cause, _, fragment, same⟩

theorem range_malformed {t : Text} {k : Int} {f : Fault} (failed : Range.parse t k = .error f) :
    IsMalformed f := by
  rw [range_parse_eq] at failed
  split at failed
  · cases failed
    exact ⟨_, _, _, rfl⟩
  · rcases bind_error_iff.mp failed with unread | ⟨v, read, unbuilt⟩
    · exact version_malformed unread
    · rw [Range.ofParts, dif_pos (range_spelled read)] at unbuilt
      contradiction

theorem member_malformed {whole : Text} {p : Piece} {f : Fault}
    (failed : Clause.parseMember whole p = .error f) : IsMalformed f := by
  unfold Clause.parseMember at failed
  split at failed
  · cases failed
    exact ⟨_, _, _, rfl⟩
  · exact range_malformed failed

theorem clause_malformed {t : Text} {k : Int} {f : Fault} (failed : Clause.parse t k = .error f) :
    IsMalformed f := by
  rcases bind_error_iff.mp failed with unread | ⟨ranges, read, unbuilt⟩
  · obtain ⟨p, _, here⟩ := mapM_error_mem unread
    exact member_malformed here
  · rw [Clause.ofRanges, dif_pos (pieces_read_nonempty read)] at unbuilt
    contradiction

theorem same_elsewhere {x y : Except Fault α} (moved : y = displaced d x)
    (malformed : ∀ f, x = .error f → IsMalformed f) : SameElsewhere d x y := by
  subst moved
  cases x with
  | ok a =>
    refine ⟨fun b => Iff.rfl, ?_, ?_⟩
    · intro f failed
      cases failed
    · intro f g failed
      cases failed
  | error f =>
    obtain ⟨cause, position, fragment, rfl⟩ := malformed f rfl
    have there : displaced d (.error (.malformed cause position fragment) : Except Fault α) =
        .error (.malformed cause (position + d) fragment) := rfl
    refine ⟨fun a => by simp [there], ?_, ?_⟩
    · intro f failed
      cases failed
      exact ⟨cause, position, fragment, rfl, there⟩
    · intro f g failed failedThere
      cases failed
      cases failedThere
      exact ⟨cause.wording, position, fragment, rfl, rfl⟩

theorem offset_moves_places_only (t : Text) (k d : Int) :
    SameElsewhere d (tokenize t k) (tokenize t (k + d)) ∧
      (∀ given : Option Text,
        SameElsewhere d (VersionId.parse given k) (VersionId.parse given (k + d))) ∧
      SameElsewhere d (Range.parse t k) (Range.parse t (k + d)) ∧
      SameElsewhere d (Clause.parse t k) (Clause.parse t (k + d)) := by
  have tokens : ∀ f, tokenize t k = .error f → IsMalformed f := by
    intro f failed
    obtain ⟨cause, i, fragment, same, _⟩ := tokenize_misread failed
    exact ⟨cause, _, fragment, same⟩
  refine ⟨?_, ?_, ?_, ?_⟩
  · exact same_elsewhere (tokenize_displaced t k d) tokens
  · exact fun given => same_elsewhere (version_displaced given k d) fun _ => version_malformed
  · exact same_elsewhere (range_displaced t k d) fun _ => range_malformed
  · exact same_elsewhere (clause_displaced t k d) fun _ => clause_malformed

end VersionMatch
