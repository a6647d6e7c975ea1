import VersionMatch.Proofs.Misreading
import VersionMatch.Proofs.Modifiers
import VersionMatch.Proofs.NumericOrder

/- What a specification contains, said of its text: some stretch between blanks all of whose
   stretches between ampersands admit the candidate. -/
namespace VersionMatch

/-- What a member of a clause asks of the tokens of a candidate. -/
structure MemberAdmits (m : Text) (candidate : List Token) : Prop where
  atLeast : ∀ v, m = v ++ [.char '+'] →
    ∃ lowest, tokenize v 0 = .ok lowest ∧ referenceOrder lowest candidate ≠ .gt
  startsWith : ∀ v, m = v ++ [.char '*'] → ∃ start, tokenize v 0 = .ok start ∧ start <+: candidate
  exact : (∀ v, m ≠ v ++ [.char '+']) → (∀ v, m ≠ v ++ [.char '*']) → tokenize m 0 = .ok candidate

def TextAdmits (t : Text) (candidate : List Token) : Prop :=
  ∃ p, IsMaximal isBlank p t ∧ ∀ m, IsMaximal (· == .char '&') m p → MemberAdmits m candidate

theorem ranges_check_value (v : VersionId) (rs : List Range) :
    (Clause.checkRanges v rs).value = rs.all (·.admits v) := by
  induction rs with
  | nil => rfl
  | cons r rs ih =>
    simp only [Clause.checkRanges, Traced.value_bind, List.all_cons]
    cases admits : (r.check v).value with
    | true => simpa [show r.admits v = true from admits] using ih
    | false => simp [show r.admits v = false from admits]

theorem clauses_check_value (v : VersionId) (cs : List Clause) :
    (Specification.checkClauses v cs).value = cs.any (·.admits v) := by
  induction cs with
  | nil => rfl
  | cons c cs ih =>
    have first : (c.check v).value = c.admits v := ranges_check_value v c.ranges
    simp only [Specification.checkClauses, Traced.value_bind, List.any_cons, first]
    cases c.admits v with
    | true => simp
    | false => simpa using ih

theorem contains_eq (s : Specification) (candidate : Option Text) :
    s.contains candidate = (VersionId.parse candidate 0).map s.admits := by
  unfold Specification.contains Specification.checkText
  cases VersionId.parse candidate 0 with
  | error f => rfl
  | ok v => exact congrArg Except.ok (clauses_check_value v s.clauses)

theorem contained_iff {s : Specification} {candidate : Option Text} :
    s.contains candidate = .ok true ↔
      ∃ v, VersionId.parse candidate 0 = .ok v ∧ s.admits v = true := by
  rw [contains_eq, map_ok_iff]

theorem at_least_admits_iff {v : Text} {lowest : List Token} (read : tokenize v 0 = .ok lowest)
    (candidate : List Token) :
    MemberAdmits (v ++ [.char '+']) candidate ↔ referenceOrder lowest candidate ≠ .gt := by
  constructor
  · intro admits
    obtain ⟨tokens, again, above⟩ := admits.atLeast v rfl
    rw [read] at again
    exact Except.ok.inj again ▸ above
  · intro above
    refine ⟨?_, ?_, fun plain => absurd rfl (plain v)⟩
    · intro w same
      rw [← List.append_cancel_right same]
      exact ⟨lowest, read, above⟩
    · intro w same
      have last := congrArg List.getLast? same
      simp at last

theorem starts_with_admits_iff {v : Text} {start : List Token} (read : tokenize v 0 = .ok start)
    (candidate : List Token) : MemberAdmits (v ++ [.char '*']) candidate ↔ start <+: candidate := by
  constructor
  · intro admits
    obtain ⟨tokens, again, starts⟩ := admits.startsWith v rfl
    rw [read] at again
    exact Except.ok.inj again ▸ starts
  · intro starts
    refine ⟨?_, ?_, fun _ plain => absurd rfl (plain v)⟩
    · intro w same
      have last := congrArg List.getLast? same
      simp at last
    · intro w same
      rw [← List.append_cancel_right same]
      exact ⟨start, read, starts⟩

theorem exact_admits_iff {v : Text} (version : IsVersionText v) {tokens : List Token}
    (read : tokenize v 0 = .ok tokens) (candidate : List Token) :
    MemberAdmits v candidate ↔ tokens = candidate := by
  have unmarked : ∀ c ∈ reserved, ∀ w, v ≠ w ++ [c] := by
    intro c mark w same
    exact (version_chars version c (by simp [same])).2 mark
  have atLeast := unmarked '+' (by decide)
  have startsWith := unmarked '*' (by decide)
  constructor
  · intro admits
    have exact := admits.exact atLeast startsWith
    rw [read] at exact
    exact Except.ok.inj exact
  · intro equal
    refine ⟨fun w same => absurd same (atLeast w), fun w same => absurd same (startsWith w), ?_⟩
    intro _ _
    rw [read, equal]

theorem range_admits_iff {m : Text} {r : Range} (read : ReadsRange m r) (v : VersionId) :
    MemberAdmits m v.tokens ↔ r.admits v = true := by
  have tokens : tokenize r.version.text 0 = .ok r.version.tokens :=
    tokenize_ok_iff.mpr read.version
  rw [range_admits_iff_allows, ← read.text, r.spelled]
  cases r.modifier with
  | exact =>
    have version := version_read_iff.mp ⟨r.version, rfl, read.version⟩
    rw [Modifier.symbol, List.append_nil]
    exact exact_admits_iff version tokens v.tokens
  | atLeast =>
    rw [Modifier.symbol, at_least_admits_iff tokens, ← order_eq_reference_order, ne_eq,
      ← Ordering.isLE_iff_ne_gt]
    rfl
  | startsWith => exact starts_with_admits_iff tokens v.tokens

theorem specification_admits_iff {t : Text} {s : Specification} (read : ReadsSpecification t s)
    (v : VersionId) : TextAdmits t v.tokens ↔ s.admits v = true := by
  have clause : ∀ p c, ReadsClause p c →
      ((∀ m ∈ parts (· == .char '&') p, MemberAdmits m v.tokens) ↔ c.admits v = true) := by
    intro p c readC
    rw [forall₂_forall_mem_iff readC.2 fun m r readR => range_admits_iff readR v]
    simp [Clause.admits]
  simp only [TextAdmits, ← mem_parts_iff_maximal]
  rw [forall₂_exists_mem_iff read.2 clause]
  simp [Specification.admits]

theorem candidate_refused {candidate : Option Text}
    (ungrammatical : ∀ c, candidate = some c → ¬ IsVersionText c) :
    ∃ cause position fragment,
      VersionId.parse candidate 0 = .error (.malformed cause position fragment) := by
  cases candidate with
  | none => exact ⟨_, _, _, rfl⟩
  | some c =>
    cases outcome : VersionId.parse (some c) 0 with
    | ok v =>
      have version := version_read_iff.mp ⟨v, version_parse_ok_iff.mp outcome⟩
      exact absurd version (ungrammatical c rfl)
    | error f =>
      obtain ⟨cause, i, fragment, rfl, _⟩ := version_parse_misread outcome
      exact ⟨cause, _, fragment, rfl⟩

theorem contains_text_meaning (candidate : Option Text) :
    (∀ c, candidate = some c → IsVersionText c →
      ∃ tokens, tokenize c 0 = .ok tokens ∧
        ∀ t s, Specification.parse (some t) = .ok s →
          ∃ verdict, s.contains candidate = .ok verdict ∧
            (verdict = true ↔ TextAdmits t tokens)) ∧
    ((∀ c, candidate = some c → ¬ IsVersionText c) →
      ∃ cause position fragment, ∀ t s, Specification.parse (some t) = .ok s →
        s.contains candidate = .error (.malformed cause position fragment)) := by
  constructor
  · intro c given version
    obtain ⟨v, read⟩ := version_read_iff.mpr version
    refine ⟨v.tokens, tokenize_ok_iff.mpr read.2, ?_⟩
    intro t s parsed
    refine ⟨s.admits v, ?_, ?_⟩
    · rw [contains_eq, given, version_parse_ok_iff.mpr read]
      rfl
    · exact (specification_admits_iff (specification_parse_ok_iff.mp parsed) v).symm
  · intro ungrammatical
    obtain ⟨cause, position, fragment, failed⟩ := candidate_refused ungrammatical
    refine ⟨cause, position, fragment, ?_⟩
    intro t s _
    rw [contains_eq, failed]
    rfl

theorem text_meaning_of_two_clauses :
    IsVersionText "1.4.2".text ∧
      ∃ s, Specification.parse (some "1.3 1.4*&1.4.1+".text) = .ok s ∧
        s.contains (some "1.4.2".text) = .ok true ∧
        (∃ tokens, tokenize "1.4.2".text 0 = .ok tokens ∧
          TextAdmits "1.3 1.4*&1.4.1+".text tokens) ∧
        ∃ cause position fragment,
          s.contains none = .error (.malformed cause position fragment) := by
  have verdict : (Specification.parse (some "1.3 1.4*&1.4.1+".text)).bind
      (·.contains (some "1.4.2".text)) = .ok true := by decide +kernel
  obtain ⟨s, parsed, contained⟩ := bind_ok_iff.mp verdict
  have version : IsVersionText "1.4.2".text := by
    obtain ⟨v, read, _⟩ := map_ok_iff.mp (contains_eq s _ ▸ contained)
    exact version_read_iff.mp ⟨v, version_parse_ok_iff.mp read⟩
  refine ⟨version, s, parsed, contained, ?_, ?_⟩
  · obtain ⟨tokens, read, meaning⟩ := (contains_text_meaning (some _)).1 _ rfl version
    obtain ⟨holds, same, admits⟩ := meaning _ s parsed
    rw [contained] at same
    exact ⟨tokens, read, admits.mp (Except.ok.inj same).symm⟩
  · obtain ⟨cause, position, fragment, refused⟩ := (contains_text_meaning none).2 (by simp)
    exact ⟨cause, position, fragment, refused _ s parsed⟩

end VersionMatch
