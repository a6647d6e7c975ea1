import VersionMatch.Proofs.Containment

/- The versions that match a clause have no gaps: with two versions it matches every version
   between them. A set of tokens that start alike is such a window too. -/
namespace VersionMatch

theorem eq_of_le_of_ge {α : Type} {order : α → α → Ordering} [Std.OrientedCmp order] {a b : α}
    (low : (order a b).isLE = true) (high : (order b a).isLE = true) : order a b = .eq := by
  have swapped : order b a = (order a b).swap := Std.OrientedCmp.eq_swap
  rw [swapped] at high
  cases outcome : order a b with
  | lt => simp [outcome] at high
  | eq => rfl
  | gt => simp [outcome] at low

/- The first token decides unless it is equal, and between two equal tokens stands no other. -/
theorem start_between {start as bs ds : List Token}
    (low : (List.compareLex Token.order as bs).isLE = true)
    (high : (List.compareLex Token.order bs ds).isLE = true)
    (first : start <+: as) (last : start <+: ds) : start <+: bs := by
  induction start generalizing as bs ds with
  | nil => exact List.nil_prefix
  | cons x start ih =>
    obtain ⟨as, rfl, restFirst⟩ := List.cons_prefix_iff.mp first
    obtain ⟨ds, rfl, restLast⟩ := List.cons_prefix_iff.mp last
    cases bs with
    | nil => simp [List.compareLex_cons_nil] at low
    | cons y bs =>
      rw [List.compareLex_cons_cons, Ordering.isLE_then_iff_and] at low high
      have equal : x.order y = .eq := eq_of_le_of_ge low.1 high.1
      have same : x = y := Std.LawfulEqCmp.eq_of_compare equal
      subst same
      have tailLow := low.2.resolve_left (by simp [equal])
      have tailHigh := high.2.resolve_left (by simp [equal])
      exact List.cons_prefix_cons.mpr ⟨rfl, ih tailLow tailHigh restFirst restLast⟩

theorem range_admits_between (r : Range) {a b d : VersionId} (low : (a.order b).isLE = true)
    (high : (b.order d).isLE = true) (first : r.admits a = true) (last : r.admits d = true) :
    r.admits b = true := by
  rw [range_admits_iff_allows] at first last ⊢
  cases mode : r.modifier with
  | exact =>
    simp only [mode, Modifier.Allows] at first last ⊢
    have back : (b.order a).isLE = true := by
      have ends : b.order a = b.order d := by simp only [VersionId.order, ← first, ← last]
      rw [ends]
      exact high
    rw [first]
    exact order_eq_iff.mp (eq_of_le_of_ge low back)
  | atLeast =>
    rw [mode] at first
    exact allows_trans first low
  | startsWith =>
    rw [mode] at first last
    exact start_between low high first last

theorem clause_matches_between (c : Clause) {a b d : VersionId}
    (low : Comparison.holds a b .le = true) (high : Comparison.holds b d .le = true)
    (first : (c.check a).value = true) (last : (c.check d).value = true) :
    (c.check b).value = true := by
  simp only [holds_eq_reads, Comparison.reads] at low high
  simp only [Clause.check, ranges_check_value, List.all_eq_true] at first last ⊢
  intro r mem
  exact range_admits_between r low high (first r mem) (last r mem)

theorem window_of_two_members :
    ∃ c a b d, Clause.parse "1.4*&1.4.1+".text 0 = .ok c ∧
      VersionId.parse (some "1.4-01".text) 0 = .ok a ∧
      VersionId.parse (some "1.4.9b".text) 0 = .ok b ∧
      VersionId.parse (some "1.4.x".text) 0 = .ok d ∧
      Comparison.holds a b .le = true ∧ Comparison.holds b d .le = true ∧
      (c.check a).value = true ∧ (c.check d).value = true ∧ (c.check b).value = true := by
  have facts : (do
      let c ← Clause.parse "1.4*&1.4.1+".text 0
      let a ← VersionId.parse (some "1.4-01".text) 0
      let b ← VersionId.parse (some "1.4.9b".text) 0
      let d ← VersionId.parse (some "1.4.x".text) 0
      return (Comparison.holds a b .le, Comparison.holds b d .le,
        (c.check a).value, (c.check d).value)) = Except.ok (true, true, true, true) := by
    decide +kernel
  simp only [bind_ok_iff] at facts
  obtain ⟨c, clause, a, readA, b, readB, d, readD, outcome⟩ := facts
  obtain ⟨low, high, first, last⟩ : Comparison.holds a b .le = true ∧
      Comparison.holds b d .le = true ∧ (c.check a).value = true ∧ (c.check d).value = true := by
    simpa [pure, Except.pure] using outcome
  exact ⟨c, a, b, d, clause, readA, readB, readD, low, high, first, last,
    clause_matches_between c low high first last⟩

end VersionMatch
