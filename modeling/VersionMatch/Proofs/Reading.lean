import VersionMatch.Specification
import VersionMatch.Proofs.Scanning

/- What a text is read as, level by level and without positions: a parse succeeds with a
   value exactly when the text reads as it, wherever the text stands. -/
namespace VersionMatch

def ReadsVersion (t : Text) (v : VersionId) : Prop := v.text = t ∧ Tokenized t v.tokens

structure ReadsRange (t : Text) (r : Range) : Prop where
  text : r.text = t
  modifier : r.modifier = Modifier.ofSuffix t
  version : Tokenized r.version.text r.version.tokens

def ReadsClause (t : Text) (c : Clause) : Prop :=
  c.text = t ∧ List.Forall₂ ReadsRange (parts (· == .char '&') t) c.ranges

def ReadsSpecification (t : Text) (s : Specification) : Prop :=
  s.text = t ∧ List.Forall₂ ReadsClause (parts isBlank t) s.clauses

theorem tokenized_nonempty {t : Text} {tokens : List Token} (h : Tokenized t tokens) :
    tokens ≠ [] := by
  intro none
  have read := h.tokens
  rw [none, List.forall₂_nil_right_iff, List.flatMap_eq_nil_iff] at read
  have first : (cutAt isSeparator t).1 ∈ parts isSeparator t := by simp [parts]
  exact (h.segments _ first).1 (List.splitBy_eq_nil.mp (read _ first))

theorem version_parse_ok_iff {t : Text} {offset : Int} {v : VersionId} :
    VersionId.parse (some t) offset = .ok v ↔ ReadsVersion t v := by
  simp only [VersionId.parse, bind_ok_iff, tokenize_ok_iff, ReadsVersion]
  constructor
  · intro parsed
    obtain ⟨tokens, read, built⟩ := parsed
    rw [VersionId.ofTokens, dif_pos (tokenized_nonempty read)] at built
    cases built
    exact ⟨rfl, read⟩
  · intro reading
    obtain ⟨rfl, read⟩ := reading
    exact ⟨v.tokens, read, by rw [VersionId.ofTokens, dif_pos v.nonempty]⟩

theorem version_of_tokens {t : Text} {offset : Int} {tokens : List Token}
    (read : tokenize t offset = .ok tokens) :
    ∃ v, VersionId.parse (some t) offset = .ok v ∧ v.tokens = tokens := by
  have tokenized := tokenize_ok_iff.mp read
  exact ⟨⟨tokens, t, tokenized_nonempty tokenized⟩, version_parse_ok_iff.mpr ⟨rfl, tokenized⟩, rfl⟩

def bodyOf (t : Text) : Text := t.take (t.length - (Modifier.ofSuffix t).symbol.length)

theorem body_append_symbol (t : Text) : bodyOf t ++ (Modifier.ofSuffix t).symbol = t := by
  have ends : ∀ m, t.getLast? = some m → t.take (t.length - 1) ++ [m] = t := by
    intro m last
    rw [← List.dropLast_eq_take]
    exact List.dropLast_append_getLast? m last
  unfold bodyOf Modifier.ofSuffix
  split
  · exact ends '+' ‹_›
  · split
    · exact ends '*' ‹_›
    · simp [Modifier.symbol]

theorem reads_range_body {t : Text} {r : Range} (text : r.text = t)
    (modifier : r.modifier = Modifier.ofSuffix t) : r.version.text = bodyOf t := by
  apply List.append_cancel_right
  rw [body_append_symbol, ← modifier, ← r.spelled, text]

theorem range_spelled {t : Text} {offset : Int} {v : VersionId}
    (read : VersionId.parse (some (bodyOf t)) offset = .ok v) :
    t = v.text ++ (Modifier.ofSuffix t).symbol := by
  rw [(version_parse_ok_iff.mp read).1, body_append_symbol]

theorem range_parse_eq (t : Text) (offset : Int) : Range.parse t offset =
    if (bodyOf t).isEmpty then .error (.malformed .bareModifier offset t)
    else VersionId.parse (some (bodyOf t)) offset >>= fun v =>
      Range.ofParts v (Modifier.ofSuffix t) t := rfl

theorem range_of_parts (r : Range) : Range.ofParts r.version r.modifier r.text = .ok r := by
  rw [Range.ofParts, dif_pos r.spelled]

theorem range_parse_ok_iff {t : Text} {offset : Int} {r : Range} :
    Range.parse t offset = .ok r ↔ ReadsRange t r := by
  rw [range_parse_eq]
  constructor
  · intro parsed
    split at parsed
    · simp [Fault.malformed] at parsed
    · obtain ⟨v, read, built⟩ := bind_ok_iff.mp parsed
      obtain ⟨text, tokens⟩ := version_parse_ok_iff.mp read
      rw [Range.ofParts, dif_pos (range_spelled read)] at built
      cases built
      exact ⟨rfl, rfl, text ▸ tokens⟩
  · intro reading
    obtain ⟨text, modifier, tokens⟩ := reading
    have body := reads_range_body text modifier
    have some : ¬(bodyOf t).isEmpty = true := by
      rw [List.isEmpty_iff, ← body]
      intro none
      exact tokenized_nil _ (none ▸ tokens)
    rw [if_neg some, bind_ok_iff]
    refine ⟨r.version, version_parse_ok_iff.mpr ⟨body, body ▸ tokens⟩, ?_⟩
    rw [← modifier, ← text]
    exact range_of_parts r

theorem reads_range_nonempty {t : Text} {r : Range} (read : ReadsRange t r) : t ≠ [] := by
  intro none
  have empty := r.spelled
  rw [read.text, none] at empty
  exact tokenized_nil _ ((List.append_eq_nil_iff.mp empty.symm).1 ▸ read.version)

theorem member_parse_ok_iff {whole : Text} {p : Piece} {r : Range} :
    Clause.parseMember whole p = .ok r ↔ ReadsRange p.text r := by
  unfold Clause.parseMember
  split
  · rename_i empty
    have none := List.isEmpty_iff.mp empty
    simpa [Fault.malformed] using fun read => reads_range_nonempty read none
  · exact range_parse_ok_iff

theorem clause_parse_ok_iff {t : Text} {offset : Int} {c : Clause} :
    Clause.parse t offset = .ok c ↔ ReadsClause t c := by
  simp only [Clause.parse, bind_ok_iff, mapM_ok_iff, member_parse_ok_iff]
  rw [ReadsClause, ← pieces_texts offset t, List.forall₂_map_left_iff]
  constructor
  · intro parsed
    obtain ⟨ranges, read, built⟩ := parsed
    unfold Clause.ofRanges at built
    split at built
    · cases built
      exact ⟨rfl, read⟩
    · simp at built
  · intro reading
    obtain ⟨rfl, read⟩ := reading
    exact ⟨c.ranges, read, by rw [Clause.ofRanges, dif_pos c.nonempty]⟩

theorem reads_clause_nonempty {t : Text} {c : Clause} (read : ReadsClause t c) : t ≠ [] := by
  intro none
  subst none
  obtain ⟨r, _, first, _⟩ := List.forall₂_cons_left_iff.mp read.2
  exact reads_range_nonempty first rfl

theorem piece_parse_ok_iff {whole : Text} {p : Piece} {c : Clause} :
    Specification.parseClause whole p = .ok c ↔ ReadsClause p.text c := by
  unfold Specification.parseClause
  split
  · rename_i empty
    have none := List.isEmpty_iff.mp empty
    simpa [Fault.malformed] using fun read => reads_clause_nonempty read none
  · exact clause_parse_ok_iff

/- A blank text is cut into empty parts alone, and no clause reads from one. -/
theorem blank_reads_nothing {t : Text} (blank : t.all isBlank = true) (s : Specification) :
    ¬ ReadsSpecification t s := by
  intro read
  have first : (cutAt isBlank t).1 = [] := by
    cases t with
    | nil => rfl
    | cons c t => simp [cutAt, List.all_eq_true.mp blank c]
  obtain ⟨c, _, clause, _⟩ := List.forall₂_cons_left_iff.mp read.2
  exact reads_clause_nonempty clause first

theorem specification_parse_ok_iff {t : Text} {s : Specification} :
    Specification.parse (some t) = .ok s ↔ ReadsSpecification t s := by
  unfold Specification.parse
  simp only
  split
  · rename_i blank
    simp [blank_reads_nothing blank]
  · simp only [bind_ok_iff, mapM_ok_iff, piece_parse_ok_iff]
    rw [ReadsSpecification, ← pieces_texts 0 t, List.forall₂_map_left_iff]
    constructor
    · intro parsed
      obtain ⟨clauses, read, built⟩ := parsed
      unfold Specification.ofClauses at built
      split at built
      · cases built
        exact ⟨rfl, read⟩
      · simp at built
    · intro reading
      obtain ⟨rfl, read⟩ := reading
      exact ⟨s.clauses, read, by rw [Specification.ofClauses, dif_pos s.nonempty]⟩

end VersionMatch
