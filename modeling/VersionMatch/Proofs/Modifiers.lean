import VersionMatch.Range
import VersionMatch.Proofs.TotalOrder

/- What the three modifiers allow, said of tokens alone. For every modifier a version allows
   itself, and what an allowed version allows is allowed. An exact range allows the fewest
   candidates, a start allows more, and a lower bound the most. -/
namespace VersionMatch

namespace Modifier

/-- Whether a version with the first tokens and this modifier matches one with the second. -/
def Allows : Modifier → List Token → List Token → Prop
  | .exact, tokens, candidate => tokens = candidate
  | .atLeast, tokens, candidate => (List.compareLex Token.order tokens candidate).isLE = true
  | .startsWith, tokens, candidate => tokens <+: candidate

def IsLooser (m n : Modifier) : Prop :=
  ∀ tokens candidate, n.Allows tokens candidate → m.Allows tokens candidate

end Modifier

theorem range_admits_iff_allows (r : Range) (v : VersionId) :
    r.admits v = true ↔ r.modifier.Allows r.version.tokens v.tokens := by
  unfold Range.admits
  cases r.modifier with
  | exact => exact same_iff
  | atLeast =>
    rw [bne_iff_ne, ne_eq, ← Ordering.isLE_iff_ne_gt]
    rfl
  | startsWith => exact List.isPrefixOf_iff_prefix

theorem allows_at_least_iff {a b : VersionId} :
    Modifier.atLeast.Allows a.tokens b.tokens ↔ Comparison.holds a b .le = true := by
  rw [holds_eq_reads]
  rfl

theorem allows_trans {m : Modifier} {first second third : List Token}
    (low : m.Allows first second) (high : m.Allows second third) : m.Allows first third := by
  cases m with
  | exact => exact Eq.trans low high
  | atLeast => exact Std.TransCmp.isLE_trans low high
  | startsWith => exact List.IsPrefix.trans low high

theorem start_not_above {start tokens : List Token} (starts : start <+: tokens) :
    (List.compareLex Token.order start tokens).isLE = true := by
  induction start generalizing tokens with
  | nil => cases tokens <;> rfl
  | cons x start ih =>
    obtain ⟨rest, rfl, tail⟩ := List.cons_prefix_iff.mp starts
    have same : x.order x = .eq := Std.ReflCmp.compare_self
    rw [List.compareLex_cons_cons, same, Ordering.eq_then]
    exact ih tail

theorem looser_self (m : Modifier) : m.IsLooser m := fun _ _ allowed => allowed

theorem at_least_looser_than_start : Modifier.IsLooser .atLeast .startsWith :=
  fun _ _ starts => start_not_above starts

end VersionMatch
