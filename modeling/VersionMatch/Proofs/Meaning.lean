import VersionMatch.Proofs.Containment
import Mathlib.Data.Finset.Dedup
import Mathlib.Data.Set.Image

/- What a specification means: the set of its clauses, each the set of what its members demand.
   The order of clauses and of members, repetitions, the blanks between clauses and the spelling
   of versions do not show in the meaning, and it settles which versions are contained. -/
namespace VersionMatch

abbrev Demand := Modifier × List Token

def IsMember (m t : Text) : Prop := ∃ p, IsMaximal isBlank p t ∧ IsMaximal (· == .char '&') m p

/-- The member is a spelling of the tokens with the modifier behind it. -/
def MemberMeans (m : Text) (d : Demand) : Prop :=
  ∃ v, m = v ++ d.1.symbol ∧ tokenize v 0 = .ok d.2

def clauseMeaning (p : Text) : Set Demand :=
  {d | ∃ m, IsMaximal (· == .char '&') m p ∧ MemberMeans m d}

def meaning (t : Text) : Set (Set Demand) :=
  {clause | ∃ p, IsMaximal isBlank p t ∧ clauseMeaning p = clause}

def Range.demand (r : Range) : Demand := (r.modifier, r.version.tokens)

def Clause.demands (c : Clause) : Finset Demand := (c.ranges.map Range.demand).toFinset

/-- The meaning, computed from what a text was read as. -/
def Specification.demands (s : Specification) : Finset (Finset Demand) :=
  (s.clauses.map Clause.demands).toFinset

theorem all_members_iff {t : Text} {P : Text → Prop} : (∀ m, IsMember m t → P m) ↔
    ∀ p ∈ parts isBlank t, ∀ m ∈ parts (· == .char '&') p, P m := by
  simp only [IsMember, mem_parts_iff_maximal]
  constructor
  · intro all p part m inside
    exact all m ⟨p, part, inside⟩
  · intro all m member
    obtain ⟨p, part, inside⟩ := member
    exact all p part m inside

theorem meant_modifier {m : Text} {d : Demand} (means : MemberMeans m d) :
    d.1 = Modifier.ofSuffix m := by
  obtain ⟨v, rfl, read⟩ := means
  have version := tokenized_exists_iff.mp ⟨d.2, tokenize_ok_iff.mp read⟩
  exact (suffix_of_marked version d.1).symm

theorem member_means_iff {m : Text} {r : Range} (read : ReadsRange m r) {d : Demand} :
    MemberMeans m d ↔ r.demand = d := by
  have tokens : tokenize r.version.text 0 = .ok r.version.tokens :=
    tokenize_ok_iff.mpr read.version
  have spelled : m = r.version.text ++ r.modifier.symbol := by rw [← read.text, r.spelled]
  constructor
  · intro means
    have modifier : r.modifier = d.1 := by rw [read.modifier, meant_modifier means]
    obtain ⟨v, same, again⟩ := means
    rw [spelled, modifier] at same
    rw [← List.append_cancel_right same, tokens] at again
    exact Prod.ext modifier (Except.ok.inj again)
  · intro same
    rw [← same]
    exact ⟨r.version.text, spelled, tokens⟩

theorem clause_meaning_eq {p : Text} {c : Clause} (read : ReadsClause p c) :
    clauseMeaning p = c.demands := by
  ext d
  have members := forall₂_exists_mem_iff read.2 fun _ _ readR => member_means_iff readR (d := d)
  simpa [clauseMeaning, mem_parts_iff_maximal, Clause.demands] using members

theorem mem_meaning_iff {t : Text} {s : Specification} (read : ReadsSpecification t s)
    {clause : Set Demand} : clause ∈ meaning t ↔ ∃ c ∈ s.clauses, c.demands = clause := by
  have each : ∀ p c, ReadsClause p c → (clauseMeaning p = clause ↔ c.demands = clause) := by
    intro p c readC
    rw [clause_meaning_eq readC]
  have clauses := forall₂_exists_mem_iff read.2 each
  simpa [meaning, mem_parts_iff_maximal] using clauses

theorem meaning_eq {t : Text} {s : Specification} (read : ReadsSpecification t s) :
    meaning t = SetLike.coe '' (s.demands : Set (Finset Demand)) := by
  ext clause
  rw [mem_meaning_iff read]
  simp [Specification.demands]

theorem same_meaning_iff {t u : Text} {s r : Specification} (readT : ReadsSpecification t s)
    (readU : ReadsSpecification u r) : meaning t = meaning u ↔ s.demands = r.demands := by
  rw [meaning_eq readT, meaning_eq readU,
    (Set.image_injective.mpr SetLike.coe_injective).eq_iff, Finset.coe_inj]

theorem admits_iff_meaning {t : Text} {s : Specification} (read : ReadsSpecification t s)
    (v : VersionId) : s.admits v = true ↔
      ∃ clause ∈ meaning t, ∀ d ∈ clause, d.1.Allows d.2 v.tokens := by
  simp only [mem_meaning_iff read]
  simp [Specification.admits, Clause.admits, Clause.demands, Range.demand, range_admits_iff_allows]

theorem contained_by_meaning {t u : Text} {s r : Specification}
    (parsedT : Specification.parse (some t) = .ok s) (parsedU : Specification.parse (some u) = .ok r)
    (same : meaning t = meaning u) {c d : Text} {tokens : List Token}
    (readC : tokenize c 0 = .ok tokens) (readD : tokenize d 0 = .ok tokens) :
    ∃ verdict, s.contains (some c) = .ok verdict ∧ r.contains (some d) = .ok verdict := by
  obtain ⟨v, parsedC, tokensC⟩ := version_of_tokens readC
  obtain ⟨w, parsedD, tokensD⟩ := version_of_tokens readD
  have verdicts : s.admits v = r.admits w := by
    rw [Bool.eq_iff_iff, admits_iff_meaning (specification_parse_ok_iff.mp parsedT),
      admits_iff_meaning (specification_parse_ok_iff.mp parsedU), same, tokensC, tokensD]
  refine ⟨s.admits v, ?_, ?_⟩
  · rw [contains_eq, parsedC]
    rfl
  · rw [contains_eq, parsedD, verdicts]
    rfl

theorem respelled_clauses_agree :
    ∃ s r tokens, Specification.parse (some "1.4* 1.04.2+&2*".text) = .ok s ∧
      Specification.parse (some "2*&1_4-2+&02*\t1-4*\t1.4*".text) = .ok r ∧
      meaning "1.4* 1.04.2+&2*".text = meaning "2*&1_4-2+&02*\t1-4*\t1.4*".text ∧
      tokenize "2.0b7".text 0 = .ok tokens ∧ tokenize "02-00_b.7".text 0 = .ok tokens ∧
      s.contains (some "2.0b7".text) = .ok true ∧
      r.contains (some "02-00_b.7".text) = .ok true := by
  have facts : (do
      let s ← Specification.parse (some "1.4* 1.04.2+&2*".text)
      let r ← Specification.parse (some "2*&1_4-2+&02*\t1-4*\t1.4*".text)
      let tokens ← tokenize "2.0b7".text 0
      let others ← tokenize "02-00_b.7".text 0
      let verdict ← s.contains (some "2.0b7".text)
      return (decide (s.demands = r.demands), decide (others = tokens), verdict)) =
        Except.ok (true, true, true) := by decide +kernel
  simp only [bind_ok_iff] at facts
  obtain ⟨s, parsedT, r, parsedU, tokens, readC, others, readD, verdict, contained, outcome⟩ := facts
  obtain ⟨demands, rfl, rfl⟩ : s.demands = r.demands ∧ others = tokens ∧ verdict = true := by
    simpa [pure, Except.pure] using outcome
  have same := (same_meaning_iff (specification_parse_ok_iff.mp parsedT)
    (specification_parse_ok_iff.mp parsedU)).mpr demands
  obtain ⟨verdict, first, second⟩ := contained_by_meaning parsedT parsedU same readC readD
  rw [contained] at first
  exact ⟨s, r, others, parsedT, parsedU, same, readC, readD, contained, first ▸ second⟩

end VersionMatch
