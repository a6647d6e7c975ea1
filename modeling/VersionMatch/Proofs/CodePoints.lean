import VersionMatch.Text.Basic

/- Code points by their numbers. The numbers of characters leave a gap, and halves of pairs fill
   it. So code points and texts are ordered by number, and can be sorted. -/
namespace VersionMatch

theorem char_range (c : Char) : c.toNat < 0xd800 ∨ 0xdfff < c.toNat ∧ c.toNat < 0x110000 := c.valid

theorem char_ne_half (c : Char) (n : Fin 0x800) : c.toNat ≠ 0xd800 + n := by
  have range := char_range c
  omega

theorem code_point_eq_of_number {a b : CodePoint} (same : a.toNat = b.toNat) : a = b := by
  cases a with
  | char c =>
    cases b with
    | char d => exact congrArg CodePoint.char (Char.toNat_inj.mp same)
    | half n => exact absurd same (char_ne_half c n)
  | half m =>
    cases b with
    | char d => exact absurd same.symm (char_ne_half d m)
    | half n => exact congrArg CodePoint.half (Fin.ext (Nat.add_left_cancel same))

instance : Std.TransOrd CodePoint :=
  inferInstanceAs (Std.TransCmp (compareOn CodePoint.toNat))

instance : Std.LawfulEqOrd CodePoint where
  eq_of_compare equal := code_point_eq_of_number (Nat.compare_eq_eq.mp equal)

section Sorting

variable {α : Type} {cmp : α → α → Ordering}

theorem not_gt_trans [Std.TransCmp cmp] (a b c : α) (first : (cmp a b != .gt) = true)
    (second : (cmp b c != .gt) = true) : (cmp a c != .gt) = true := by
  simp only [bne_iff_ne, ne_eq, ← Ordering.isLE_iff_ne_gt] at first second ⊢
  exact Std.TransCmp.isLE_trans first second

theorem not_gt_total [Std.OrientedCmp cmp] (a b : α) :
    (cmp a b != .gt || cmp b a != .gt) = true := by
  have swapped : cmp b a = (cmp a b).swap := Std.OrientedCmp.eq_swap
  rw [swapped]
  cases cmp a b <;> rfl

end Sorting

theorem of_number (c : CodePoint) : CodePoint.ofNat c.toNat = c := by
  cases c with
  | char c =>
    have range := char_range c
    rw [CodePoint.toNat, CodePoint.ofNat, dif_neg (by omega), Char.ofNat_toNat]
  | half n =>
    have bound := n.isLt
    simp only [CodePoint.toNat, CodePoint.ofNat, Nat.add_sub_cancel_left]
    rw [dif_pos ⟨bound, by omega⟩]

theorem number_lt (c : CodePoint) : c.toNat < 0x110000 := by
  cases c with
  | char c =>
    have range := char_range c
    simp only [CodePoint.toNat]
    omega
  | half n =>
    have bound := n.isLt
    simp only [CodePoint.toNat]
    omega

theorem digit_number {c : CodePoint} (digit : c.isDigit = true) :
    '0'.toNat ≤ c.toNat ∧ c.toNat ≤ '9'.toNat := by
  cases c with
  | char c => exact Char.isDigit_iff_toNat.mp digit
  | half n => contradiction

end VersionMatch
