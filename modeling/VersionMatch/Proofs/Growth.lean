import VersionMatch.Proofs.Meaning

/- What stays contained when a version grows. A specification of lower bounds alone contains
   every version above one that it contains, and one without exact members contains every
   version that goes on behind one that it contains. -/
namespace VersionMatch

/- Where every member is at least as loose as one modifier, a clause that admits a version admits
   whatever that modifier allows from it. -/
theorem admits_allowed {t : Text} {s : Specification} (read : ReadsSpecification t s)
    {modifier : Modifier} (looser : ∀ m, IsMember m t → (Modifier.ofSuffix m).IsLooser modifier)
    {v w : VersionId} (allowed : modifier.Allows v.tokens w.tokens) (admitted : s.admits v = true) :
    s.admits w = true := by
  obtain ⟨clause, mem, all⟩ := (admits_iff_meaning read v).mp admitted
  apply (admits_iff_meaning read w).mpr
  refine ⟨clause, mem, ?_⟩
  intro d memD
  obtain ⟨p, part, rfl⟩ := mem
  obtain ⟨m, member, means⟩ := memD
  have loose := looser m ⟨p, part, member⟩
  rw [← meant_modifier means] at loose
  exact allows_trans (all d ⟨m, member, means⟩) (loose _ _ allowed)

theorem at_least_of_plus {m : Text} (last : m.getLast? = some (.char '+')) :
    Modifier.ofSuffix m = .atLeast := if_pos last

theorem starts_with_of_star {m : Text} (last : m.getLast? = some (.char '*')) :
    Modifier.ofSuffix m = .startsWith := by
  simp [Modifier.ofSuffix, last]

theorem contains_above {t : Text} {s : Specification}
    (parsed : Specification.parse (some t) = .ok s)
    (bounds : ∀ m, IsMember m t → m.getLast? = some (.char '+')) {a b : Text} {va vb : VersionId}
    (readA : VersionId.parse (some a) 0 = .ok va) (readB : VersionId.parse (some b) 0 = .ok vb)
    (above : Comparison.holds va vb .le = true) (contained : s.contains (some a) = .ok true) :
    s.contains (some b) = .ok true := by
  have looser : ∀ m, IsMember m t → (Modifier.ofSuffix m).IsLooser .atLeast := by
    intro m member
    rw [at_least_of_plus (bounds m member)]
    exact looser_self .atLeast
  rw [contained_iff] at contained ⊢
  obtain ⟨v, read, admitted⟩ := contained
  rw [readA] at read
  cases read
  have read := specification_parse_ok_iff.mp parsed
  exact ⟨vb, readB, admits_allowed read looser (allows_at_least_iff.mpr above) admitted⟩

theorem above_in_two_clauses :
    ∃ s va vb, Specification.parse (some "1.5+ 1.4.9+&1.2+".text) = .ok s ∧
      (∀ m, IsMember m "1.5+ 1.4.9+&1.2+".text → m.getLast? = some (.char '+')) ∧
      VersionId.parse (some "1-4.09".text) 0 = .ok va ∧
      VersionId.parse (some "1.4.10".text) 0 = .ok vb ∧ Comparison.holds va vb .le = true ∧
      s.contains (some "1-4.09".text) = .ok true ∧
      s.contains (some "1.4.10".text) = .ok true := by
  have facts : (do
      let s ← Specification.parse (some "1.5+ 1.4.9+&1.2+".text)
      let va ← VersionId.parse (some "1-4.09".text) 0
      let vb ← VersionId.parse (some "1.4.10".text) 0
      let verdict ← s.contains (some "1-4.09".text)
      return (Comparison.holds va vb .le, verdict)) = Except.ok (true, true) := by decide +kernel
  simp only [bind_ok_iff] at facts
  obtain ⟨s, parsed, va, readA, vb, readB, verdict, contained, outcome⟩ := facts
  obtain ⟨above, rfl⟩ : Comparison.holds va vb .le = true ∧ verdict = true := by
    simpa [pure, Except.pure] using outcome
  have bounds : ∀ m, IsMember m "1.5+ 1.4.9+&1.2+".text → m.getLast? = some (.char '+') :=
    all_members_iff.mpr (by decide)
  exact ⟨s, va, vb, parsed, bounds, readA, readB, above, contained,
    contains_above parsed bounds readA readB above contained⟩

theorem contains_longer {t : Text} {s : Specification}
    (parsed : Specification.parse (some t) = .ok s)
    (inexact : ∀ m, IsMember m t →
      m.getLast? = some (.char '+') ∨ m.getLast? = some (.char '*')) {c x : Text}
    {k : CodePoint} (contained : s.contains (some c) = .ok true) (version : IsVersionText x)
    (separator : k ∈ separators) :
    IsVersionText (c ++ k :: x) ∧ s.contains (some (c ++ k :: x)) = .ok true := by
  have looser : ∀ m, IsMember m t → (Modifier.ofSuffix m).IsLooser .startsWith := by
    intro m member
    rcases inexact m member with plus | star
    · rw [at_least_of_plus plus]
      exact at_least_looser_than_start
    · rw [starts_with_of_star star]
      exact looser_self .startsWith
  rw [contained_iff] at contained ⊢
  obtain ⟨v, readC, admitted⟩ := contained
  obtain ⟨more, readX⟩ := tokenized_exists_iff.mpr version
  have joined := tokenized_join (version_parse_ok_iff.mp readC).2 readX
    ((mem_separators_iff k).mp separator)
  obtain ⟨w, readW, tokens⟩ := version_of_tokens (tokenize_ok_iff.mpr joined)
  have starts : Modifier.startsWith.Allows v.tokens w.tokens := ⟨more, tokens.symm⟩
  have read := specification_parse_ok_iff.mp parsed
  exact ⟨tokenized_exists_iff.mp ⟨_, joined⟩, w, readW, admits_allowed read looser starts admitted⟩

theorem longer_than_wildcard :
    ∃ s, Specification.parse (some "1.5+ 1.4*&1.4.1+".text) = .ok s ∧
      (∀ m, IsMember m "1.5+ 1.4*&1.4.1+".text →
        m.getLast? = some (.char '+') ∨ m.getLast? = some (.char '*')) ∧
      s.contains (some "1.4.1b".text) = .ok true ∧ IsVersionText "07-rc1".text ∧
      IsVersionText "1.4.1b_07-rc1".text ∧
      s.contains (some "1.4.1b_07-rc1".text) = .ok true := by
  have facts : (do
      let s ← Specification.parse (some "1.5+ 1.4*&1.4.1+".text)
      s.contains (some "1.4.1b".text)) = Except.ok true := by decide +kernel
  obtain ⟨s, parsed, contained⟩ := bind_ok_iff.mp facts
  have inexact : ∀ m, IsMember m "1.5+ 1.4*&1.4.1+".text →
      m.getLast? = some (.char '+') ∨ m.getLast? = some (.char '*') :=
    all_members_iff.mpr (by decide)
  have version : IsVersionText "07-rc1".text := by decide
  have separator : CodePoint.char '_' ∈ separators := by decide
  have longer := contains_longer parsed inexact contained version separator
  exact ⟨s, parsed, inexact, contained, version, longer.1, longer.2⟩

end VersionMatch
