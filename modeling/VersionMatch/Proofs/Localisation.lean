import VersionMatch.Proofs.Misreading

/- Where a refusal points: up to its position the text can still be completed, and at most one
   character behind the position no completion is left. The fragment lies around the position. -/
namespace VersionMatch

/-- The text, with `after` behind it, can be completed up to the index and not two characters on. -/
structure Stops (t : Text) (after : Kind) (i : Nat) : Prop where
  inside : i ≤ t.length
  viable : Clashless (.blank :: kinds (t.take i))
  hopeless : ¬ Clashless (.blank :: (kinds t ++ [after]).take (i + 2))

def Touches (t fragment : Text) (i : Nat) : Prop :=
  ∃ before after, t = before ++ fragment ++ after ∧
    before.length ≤ i ∧ i ≤ before.length + fragment.length

/-- A refusal of the part `t`, from `start` on, of `whole`. An empty part is shown by the whole. -/
def Refused (whole : Text) (start : Int) (t : Text) (after : Kind) (f : Fault) : Prop :=
  ∃ (cause : Cause) (i : Nat) (fragment : Text), f = .malformed cause (start + i) fragment ∧
    Stops t after i ∧ (Touches t fragment i ∨ fragment = whole)

theorem touches_self {t : Text} {i : Nat} (inside : i ≤ t.length) : Touches t t i :=
  ⟨[], [], by simp, by simp, by simpa using inside⟩

theorem touches_append {t fragment : Text} {i : Nat} (touches : Touches t fragment i)
    (front back : Text) : Touches (front ++ (t ++ back)) fragment (front.length + i) := by
  obtain ⟨before, after, rfl, low, high⟩ := touches
  refine ⟨front ++ before, after ++ back, by simp, ?_, ?_⟩ <;> rw [List.length_append] <;> omega

theorem stops_of_clash (front : Text) {back : Text} {after : Kind} (ks rest : List Kind)
    (viable : Clashless (.blank :: kinds front)) (ahead : kinds back ++ [after] = ks ++ rest)
    (near : ks.length ≤ 2) (clash : ¬ Clashless (.blank :: (kinds front ++ ks))) :
    Stops (front ++ back) after front.length := by
  refine ⟨by simp, by simpa using viable, fun clashless => clash ?_⟩
  have begun : ks <+: (ks ++ rest).take 2 := List.prefix_take_iff.mpr ⟨List.prefix_append _ _, near⟩
  have length : front.length = (kinds front).length := by simp [kinds]
  rw [kinds_append, List.append_assoc, ahead, length, List.take_length_add_append] at clashless
  have longer := (List.prefix_append_right_inj (kinds front)).mpr begun
  exact clashless.prefix (List.cons_prefix_cons.mpr ⟨rfl, longer⟩)

theorem stops_first {p t : Text} {c : CodePoint} {after : Kind} {i : Nat}
    (stops : Stops p (Kind.of c) i) : Stops (p ++ c :: t) after i := by
  obtain ⟨inside, viable, hopeless⟩ := stops
  refine ⟨by simp; omega, ?_, fun clashless => hopeless ?_⟩
  · rwa [List.take_append_of_le_length inside]
  · have front : kinds p ++ [Kind.of c] <+: kinds (p ++ c :: t) ++ [after] := by simp
    have taken := List.prefix_take_iff.mpr
      ⟨(List.take_prefix (i + 2) _).trans front, List.length_take_le (i + 2) _⟩
    exact clashless.prefix (List.cons_prefix_cons.mpr ⟨rfl, taken⟩)

theorem stops_later {p t : Text} {c : CodePoint} {after : Kind} {i : Nat}
    (joint : (Kind.of c).IsEnd) (fits : Fits .blank p .blank) (stops : Stops t after i) :
    Stops (p ++ c :: t) after ((p ++ [c]).length + i) := by
  obtain ⟨inside, viable, hopeless⟩ := stops
  have split : ∀ ks, Clashless (.blank :: ((kinds p ++ [Kind.of c]) ++ ks)) ↔
      Fits .blank p (Kind.of c) ∧ Clashless (Kind.of c :: ks) := by
    intro ks
    rw [List.append_assoc]
    exact List.isChain_cons_split
  have front : Fits .blank p (Kind.of c) := by simpa only [fits_iff_last, joint.before] using fits
  have length : (p ++ [c]).length = (kinds p ++ [Kind.of c]).length := by simp [kinds]
  rw [List.append_cons]
  refine ⟨by simp; omega, ?_, fun clashless => hopeless ?_⟩
  · rw [List.take_length_add_append, kinds_append, kinds_append]
    exact (split _).mpr ⟨front, (clashless_behind joint.behind).mpr viable⟩
  · rw [kinds_append, kinds_append, kinds_cons, kinds_nil, List.append_assoc _ (kinds t), length,
      Nat.add_assoc, List.take_length_add_append] at clashless
    exact (clashless_behind joint.behind).mp ((split _).mp clashless).2

theorem clash_of_pair {k l : Kind} (wrong : k.mayPrecede l = false) (ks : List Kind) :
    ¬ Clashless (.blank :: (ks ++ [k, l])) := by
  intro clashless
  have precedes := (List.isChain_cons_append_cons_cons.mp clashless).2.1
  rw [wrong] at precedes
  contradiction

theorem symbol_kinds (modifier : Modifier) :
    modifier.symbol = [] ∨ kinds modifier.symbol = [.mark] := by
  cases modifier with
  | exact => exact .inl rfl
  | atLeast => exact .inr rfl
  | startsWith => exact .inr rfl

theorem separator_never_last {after : Kind} (ends : after.IsEnd) (modifier : Modifier) :
    ∃ k more, kinds modifier.symbol ++ [after] = k :: more ∧
      Kind.mayPrecede .separator k = false := by
  rcases symbol_kinds modifier with none | mark
  · exact ⟨after, [], by rw [none]; rfl, ends.before .separator⟩
  · exact ⟨.mark, [after], by rw [mark]; rfl, rfl⟩

theorem misread_stops {body : Text} {cause : Cause} {i : Nat} {fragment : Text}
    (misread : Misread body cause i fragment) (some : body ≠ []) {modifier : Modifier}
    (chars : ∀ c ∈ body ++ modifier.symbol, isBlank c = false ∧ c ≠ '&')
    (bare : modifier = .exact → ∀ c ∈ body.getLast?, c ∉ marks)
    {after : Kind} (ends : after.IsEnd) : Stops (body ++ modifier.symbol) after i := by
  cases misread with
  | empty => contradiction
  | @stray front rest c start misfit =>
    obtain ⟨blank, ampersand⟩ := chars c (by simp)
    have mark : c ∈ marks := by simpa [isReserved, blank, ampersand] using misfit
    rw [List.append_assoc, List.cons_append] at chars ⊢
    -- A mark may end the range, so it takes the character behind it to rule the text out.
    cases behind : rest ++ modifier.symbol with
    | nil =>
      obtain ⟨rfl, unmarked⟩ := List.append_eq_nil_iff.mp behind
      have exact : modifier = .exact := by cases modifier <;> simp_all [Modifier.symbol]
      exact absurd mark (bare exact c (by simp))
    | cons d more =>
      obtain ⟨blankD, ampersandD⟩ := chars d (by simp [behind])
      have wrong : Kind.mayPrecede .mark (Kind.of d) = false := by
        simp [Kind.mayPrecede, kind_ampersand_iff, kind_blank_iff, blankD, ampersandD]
      apply stops_of_clash front [.mark, Kind.of d] (kinds more ++ [after]) start.clashless
      · simp [kind_mark_iff.mpr mark]
      · simp
      · exact clash_of_pair wrong _
  | @emptyToken front rest c start separator past =>
    rw [List.append_assoc, List.cons_append]
    apply stops_of_clash front [Kind.of c] _ start.clashless rfl (by simp)
    intro fits
    have separates : ∀ d ∈ [c], Kind.of d = .plain ∨ Kind.of d = .separator :=
      List.forall_mem_singleton.mpr (.inr (kind_separator_iff.mpr separator))
    exact past (version_start_iff.mpr
      ⟨fits, List.forall_mem_append.mpr ⟨start.characters, separates⟩⟩)
  | @trailing front c start separator =>
    obtain ⟨k, more, behind, wrong⟩ := separator_never_last ends modifier
    have kind := kind_separator_iff.mpr separator
    rw [List.append_assoc]
    have viable := (fits_iff_last.mp (version_start_iff.mp start).1).1
    apply stops_of_clash front [.separator, k] more viable
    · simp [behind, kind]
    · simp
    · exact clash_of_pair wrong _

theorem misread_touches {t : Text} {cause : Cause} {i : Nat} {fragment : Text}
    (misread : Misread t cause i fragment) : Touches t fragment i := by
  cases misread with
  | empty => exact touches_self (by simp)
  | @stray front rest c start misfit => exact ⟨front, rest, by simp, by simp, by simp⟩
  | emptyToken start separator past => exact touches_self (by simp)
  | trailing start separator => exact touches_self (by simp)

theorem unmarked_of_exact {t : Text} (exact : Modifier.ofSuffix t = .exact) :
    ∀ c ∈ t.getLast?, c ∉ marks := by
  unfold Modifier.ofSuffix at exact
  split_ifs at exact with plus star
  intro c last mark
  rcases List.mem_pair.mp mark with rfl | rfl
  · exact plus last
  · exact star last

theorem range_refused {t : Text} {offset : Int} {f : Fault} {after : Kind} (some : t ≠ [])
    (chars : ∀ c ∈ t, isBlank c = false ∧ c ≠ '&') (ends : after.IsEnd)
    (failed : Range.parse t offset = .error f) (whole : Text) : Refused whole offset t after f := by
  rw [range_parse_eq] at failed
  split at failed
  · rename_i none
    have symbol := body_append_symbol t
    rw [List.isEmpty_iff.mp none, List.nil_append] at symbol
    cases failed
    refine ⟨.bareModifier, 0, t, by simp, ?_, .inl (touches_self (by simp))⟩
    have mark := (symbol_kinds (Modifier.ofSuffix t)).resolve_left (by rwa [symbol])
    rw [symbol] at mark
    have bare : Kind.mayPrecede .blank .mark = false := rfl
    exact stops_of_clash [] [.mark] [after] (by simp [Clashless]) (by rw [mark]) (by simp)
      (by simp [Clashless, bare])
  · rename_i body
    have whole := body_append_symbol t
    rcases bind_error_iff.mp failed with unread | ⟨v, read, unbuilt⟩
    · obtain ⟨cause, i, fragment, rfl, misread⟩ := version_parse_misread unread
      have bare : Modifier.ofSuffix t = .exact → ∀ c ∈ (bodyOf t).getLast?, c ∉ marks := by
        intro exact
        have same : bodyOf t = t := by simpa [exact, Modifier.symbol] using whole
        exact same.symm ▸ unmarked_of_exact exact
      have stops := misread_stops misread (by simpa using body) (whole.symm ▸ chars) bare ends
      have touches := touches_append (misread_touches misread) [] (Modifier.ofSuffix t).symbol
      rw [whole] at stops
      refine ⟨cause, i, fragment, rfl, stops, .inl ?_⟩
      simpa [whole] using touches
    · rw [Range.ofParts, dif_pos (range_spelled read)] at unbuilt
      contradiction

/- A refusal of the part in front of a cut is one of the longer part, and so is one behind it. -/
theorem refused_first {whole p t : Text} {start : Int} {c : CodePoint} {after : Kind} {f : Fault}
    (refused : Refused whole start p (Kind.of c) f) :
    Refused whole start (p ++ c :: t) after f := by
  obtain ⟨cause, i, fragment, same, stops, shown⟩ := refused
  refine ⟨cause, i, fragment, same, stops_first stops, shown.imp_left fun touches => ?_⟩
  simpa using touches_append touches [] (c :: t)

theorem refused_later {whole p t : Text} {start : Int} {c : CodePoint} {after : Kind} {f : Fault}
    (joint : (Kind.of c).IsEnd) (fits : Fits .blank p .blank)
    (refused : Refused whole (start + p.length + 1) t after f) :
    Refused whole start (p ++ c :: t) after f := by
  obtain ⟨cause, i, fragment, rfl, stops, shown⟩ := refused
  have place : start + p.length + 1 + i = start + ((p ++ [c]).length + i : Nat) := by
    rw [List.length_append, List.length_singleton]
    omega
  refine ⟨cause, _, fragment, by rw [place], stops_later joint fits stops,
    shown.imp_left fun touches => ?_⟩
  simpa using touches_append touches (p ++ [c]) []

theorem refused_empty {whole : Text} {start : Int} {after : Kind} (ends : after.IsEnd)
    (cause : Cause) : Refused whole start [] after (.malformed cause start whole) := by
  have wrong : Kind.mayPrecede .blank after = false := ends.before .blank
  have stops : Stops [] after 0 := stops_of_clash [] [after] [] (by simp [Clashless]) rfl (by simp)
    (by simp [Clashless, wrong])
  exact ⟨cause, 0, whole, by simp, stops, .inr rfl⟩

theorem refused_touches {t : Text} {start : Int} {after : Kind} {f : Fault}
    (refused : Refused t start t after f) :
    ∃ (cause : Cause) (i : Nat) (fragment : Text), f = .malformed cause (start + i) fragment ∧
      Stops t after i ∧ Touches t fragment i := by
  obtain ⟨cause, i, fragment, same, stops, shown⟩ := refused
  refine ⟨cause, i, fragment, same, stops, ?_⟩
  rcases shown with touches | rfl
  · exact touches
  · exact touches_self stops.inside

/- The first piece that is refused decides. The pieces in front of it fit where they stand. -/
theorem pieces_refused {α : Type} {isCut : CodePoint → Bool} {whole : Text}
    (Allowed : CodePoint → Prop) {read : Piece → Except Fault α} (joints : ∀ c, isCut c = true → (Kind.of c).IsEnd)
    (fits : ∀ p a, read p = .ok a → Fits .blank p.text .blank)
    (refused : ∀ (p : Piece) after f, Uncut isCut p.text → (∀ c ∈ p.text, Allowed c) →
      after.IsEnd → read p = .error f → Refused whole p.start p.text after f)
    {t : Text} (allowed : ∀ c ∈ t, Allowed c) {start : Int} {after : Kind} (ends : after.IsEnd)
    {f : Fault} (failed : (pieces isCut start t).mapM read = .error f) :
    Refused whole start t after f := by
  induction t using cut_induction isCut generalizing start with
  | last p uncut =>
    rw [pieces_uncut uncut, mapM_cons_error_iff] at failed
    have here := failed.resolve_right (by simp [pure, Except.pure])
    exact refused ⟨start, p⟩ after f uncut allowed ends here
  | step p c t uncut cut ih =>
    rw [pieces_append_cut uncut cut, mapM_cons_error_iff] at failed
    rcases failed with here | ⟨a, read, later⟩
    · have allowedP : ∀ d ∈ p, Allowed d := fun d mem => allowed d (by simp [mem])
      exact refused_first (refused ⟨start, p⟩ _ f uncut allowedP (joints c cut) here)
    · have allowedT : ∀ d ∈ t, Allowed d := fun d mem => allowed d (by simp [mem])
      exact refused_later (joints c cut) (fits ⟨start, p⟩ a read) (ih allowedT later)

theorem pieces_read_nonempty {α : Type} {isCut : CodePoint → Bool} {read : Piece → Except Fault α}
    {start : Int} {t : Text} {xs : List α} (done : (pieces isCut start t).mapM read = .ok xs) :
    xs ≠ [] := by
  intro none
  rw [none, mapM_ok_iff] at done
  simp [pieces, placed] at done

theorem clause_refused {t : Text} {offset : Int} {f : Fault} {after : Kind}
    (unbroken : Uncut isBlank t) (ends : after.IsEnd) (failed : Clause.parse t offset = .error f) :
    Refused t offset t after f := by
  rcases bind_error_iff.mp failed with unread | ⟨ranges, read, unbuilt⟩
  · refine pieces_refused (isBlank · = false) (fun _ => ampersand_end) ?_ ?_ unbroken ends unread
    · intro p r read
      have range := range_read_iff.mp ⟨r, member_parse_ok_iff.mp read⟩
      exact (range_iff_fits (range_chars range)).mp range
    · intro p after f uncut unbroken ends failed
      unfold Clause.parseMember at failed
      split at failed
      · rename_i none
        cases failed
        exact List.isEmpty_iff.mp none ▸ refused_empty ends .emptyMember
      · rename_i some
        refine range_refused (by simpa using some) ?_ ends failed t
        exact fun c mem => ⟨unbroken c mem, by simpa using uncut c mem⟩
  · rw [Clause.ofRanges, dif_pos (pieces_read_nonempty read)] at unbuilt
    contradiction

theorem specification_refused {t : Text} {f : Fault}
    (failed : Specification.parse (some t) = .error f) :
    t.all isBlank = true ∧ f = .refused .blank ∨ Refused t 0 t .blank f := by
  simp only [Specification.parse] at failed
  split at failed
  · rename_i blank
    exact .inl ⟨blank, (Except.error.inj failed).symm⟩
  · right
    have last : Kind.IsEnd .blank := ⟨rfl, fun _ => rfl⟩
    rcases bind_error_iff.mp failed with unread | ⟨clauses, read, unbuilt⟩
    · refine pieces_refused (fun _ => True) (fun _ => blank_end) ?_ ?_ (by simp) last unread
      · intro p c read
        have clause := clause_read_iff.mp ⟨c, piece_parse_ok_iff.mp read⟩
        exact (clause_iff_fits (clause_chars clause)).mp clause
      · intro p after f unbroken _ ends failed
        unfold Specification.parseClause at failed
        split at failed
        · rename_i none
          cases failed
          exact List.isEmpty_iff.mp none ▸ refused_empty ends .emptyClause
        · obtain ⟨cause, i, fragment, same, stops, touches⟩ :=
            refused_touches (clause_refused unbroken ends failed)
          exact ⟨cause, i, fragment, same, stops, .inl touches⟩
    · rw [Specification.ofClauses, dif_pos (pieces_read_nonempty read)] at unbuilt
      contradiction

structure Localises (t : Text) (position : Int) (fragment : Text) : Prop where
  nonneg : 0 ≤ position
  inside : position ≤ t.length
  around : ∃ before after, t = before ++ fragment ++ after ∧
    (before.length : Int) ≤ position ∧ position ≤ before.length + fragment.length
  completable : ∃ u s, Specification.parse (some (t.take position.toNat ++ u)) = .ok s
  hopeless : position + 2 ≤ t.length →
    ∀ u s, t.take (position.toNat + 2) <+: u → Specification.parse (some u) ≠ .ok s

theorem malformed_localised {t : Text} {cause : Cause} {position : Int} {fragment : Text}
    (failed : Specification.parse (some t) = .error (.malformed cause position fragment)) :
    Localises t position fragment := by
  have refused := (specification_refused failed).resolve_left (by simp [Fault.malformed])
  obtain ⟨_, i, _, same, stops, touches⟩ := refused_touches refused
  simp only [Fault.malformed, Fault.refused.injEq, Refusal.malformed.injEq, Int.zero_add] at same
  obtain ⟨_, rfl, rfl⟩ := same
  obtain ⟨inside, viable, hopeless⟩ := stops
  obtain ⟨before, after, split, low, high⟩ := touches
  refine ⟨by omega, by omega, ⟨before, after, split, by omega, by omega⟩, ?_, ?_⟩
  · exact clashless_completes viable
  · intro room u s start parsed
    have near : i + 2 ≤ (kinds t).length := by simp only [kinds, List.length_map]; omega
    have taken : (kinds t ++ [Kind.blank]).take (i + 2) = kinds (t.take (i + 2)) := by
      rw [List.take_append_of_le_length near, kinds, kinds, List.map_take]
    exact hopeless (taken ▸ clashless_of_start start parsed)

theorem lone_plus_localised :
    Specification.parse (some "1.4 1.5&2+3".text) =
        .error (.malformed .strayCharacter 9 "+".text) ∧
      Localises "1.4 1.5&2+3".text 9 "+".text := by
  have failed : Specification.parse (some "1.4 1.5&2+3".text) =
      .error (.malformed .strayCharacter 9 "+".text) := by decide +kernel
  exact ⟨failed, malformed_localised failed⟩

end VersionMatch
