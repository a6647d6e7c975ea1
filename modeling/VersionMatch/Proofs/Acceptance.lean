import VersionMatch.Proofs.Reading

/- Which texts are read at all: those of the grammar, on every level. -/
namespace VersionMatch

theorem version_read_iff {t : Text} : (∃ v, ReadsVersion t v) ↔ IsVersionText t := by
  rw [← tokenized_exists_iff]
  constructor
  · intro reading
    obtain ⟨v, _, read⟩ := reading
    exact ⟨v.tokens, read⟩
  · intro reading
    obtain ⟨tokens, read⟩ := reading
    exact ⟨⟨tokens, t, tokenized_nonempty read⟩, rfl, read⟩

theorem suffix_of_marked {v : Text} (version : IsVersionText v) (modifier : Modifier) :
    Modifier.ofSuffix (v ++ modifier.symbol) = modifier := by
  have unmarked : ∀ m ∈ reserved, v.getLast? ≠ some m := by
    intro m mark last
    exact (version_chars version m (List.mem_of_getLast? last)).2 mark
  cases modifier with
  | exact => simp [Modifier.ofSuffix, Modifier.symbol, unmarked '+', unmarked '*']
  | atLeast => simp [Modifier.ofSuffix, Modifier.symbol]
  | startsWith => simp [Modifier.ofSuffix, Modifier.symbol]

theorem range_read_iff {t : Text} : (∃ r, ReadsRange t r) ↔ IsRangeText t := by
  constructor
  · intro reading
    obtain ⟨r, text, _, tokens⟩ := reading
    have version := version_read_iff.mp ⟨r.version, rfl, tokens⟩
    rw [← text, r.spelled]
    cases r.modifier with
    | exact => simpa [Modifier.symbol] using IsRangeText.bare version
    | atLeast => exact .marked version (by decide)
    | startsWith => exact .marked version (by decide)
  · intro range
    have built : ∀ v modifier, IsVersionText v →
        ∃ r, ReadsRange (v ++ Modifier.symbol modifier) r := by
      intro v modifier version
      have suffix := suffix_of_marked version modifier
      obtain ⟨read, rfl, tokens⟩ := version_read_iff.mpr version
      exact ⟨⟨read, modifier, _, rfl⟩, rfl, suffix.symm, tokens⟩
    cases range with
    | bare version => simpa [Modifier.symbol] using built t .exact version
    | @marked v m version mark =>
      rcases List.mem_cons.mp mark with rfl | mark
      · exact built v .atLeast version
      · rw [List.mem_singleton.mp mark]
        exact built v .startsWith version

theorem clause_iff_parts {t : Text} :
    IsClauseText t ↔ ∀ p ∈ parts (· == .char '&') t, IsRangeText p :=
  joined_iff_parts (by simp) fun _ range c mem => by simpa using (range_chars range c mem).2

theorem related_parts_nonempty {α : Type} {R : Text → α → Prop} {isCut : CodePoint → Bool}
    {t : Text} {xs : List α} (related : List.Forall₂ R (parts isCut t) xs) : xs ≠ [] := by
  intro none
  simp [parts, none] at related

theorem clause_read_iff {t : Text} : (∃ c, ReadsClause t c) ↔ IsClauseText t := by
  rw [clause_iff_parts]
  simp only [← range_read_iff, ← forall₂_exists_iff]
  constructor
  · intro reading
    obtain ⟨c, _, read⟩ := reading
    exact ⟨c.ranges, read⟩
  · intro reading
    obtain ⟨ranges, read⟩ := reading
    exact ⟨⟨ranges, t, related_parts_nonempty read⟩, rfl, read⟩

theorem specification_accepted_iff_grammatical (t : Text) :
    (∃ s, Specification.parse (some t) = .ok s) ↔ IsSpecificationText t := by
  have cut : IsSpecificationText t ↔ ∀ p ∈ parts isBlank t, IsClauseText p :=
    joined_iff_parts (fun _ => Iff.rfl) fun _ => clause_chars
  rw [cut]
  simp only [specification_parse_ok_iff, ← clause_read_iff, ← forall₂_exists_iff]
  constructor
  · intro reading
    obtain ⟨s, _, read⟩ := reading
    exact ⟨s.clauses, read⟩
  · intro reading
    obtain ⟨clauses, read⟩ := reading
    have nonempty : clauses ≠ [] := by
      intro none
      simp [parts, none] at read
    exact ⟨⟨clauses, t, nonempty⟩, rfl, read⟩

end VersionMatch
