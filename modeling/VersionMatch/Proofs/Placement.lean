import VersionMatch.Proofs.Tiling

/- Where the pieces of a text stand in it. Cutting loses nothing and moves nothing: each piece
   stands at its position, and between a piece and the next there is one character, at which the
   text was cut. -/
namespace VersionMatch

def Piece.stop (p : Piece) : Int := p.start + p.text.length

def StandsIn (offset : Int) (t : Text) (p : Piece) : Prop :=
  ∃ i : Nat, p.start = offset + i ∧ i + p.text.length ≤ t.length ∧
    t.extract i (i + p.text.length) = p.text

/-- The second piece begins behind the first and one character at which the text is cut. -/
def CutBetween (isCut : CodePoint → Bool) (offset : Int) (t : Text) (p q : Piece) : Prop :=
  ∃ (i : Nat) (c : CodePoint), p.stop = offset + i ∧ t[i]? = some c ∧ isCut c = true ∧
    q.start = p.stop + 1

structure Dissects (isCut : CodePoint → Bool) (offset : Int) (t : Text) (ps : List Piece) :
    Prop where
  count : ps.length = t.countP isCut + 1
  uncut : ∀ p ∈ ps, ∀ c ∈ p.text, isCut c = false
  standing : ∀ p ∈ ps, StandsIn offset t p
  joints : ps.IsChain (CutBetween isCut offset t)
  first : ps.head?.map Piece.start = some offset
  last : ps.getLast?.map Piece.stop = some (offset + t.length)

variable {isCut : CodePoint → Bool}

theorem extract_behind (front t : Text) (i j : Nat) :
    (front ++ t).extract (front.length + i) (front.length + j) = t.extract i j := by
  rw [List.extract_eq_take_drop, List.extract_eq_take_drop, List.drop_length_add_append,
    Nat.add_sub_add_left]

theorem stands_behind {front t : Text} {offset : Int} {p : Piece}
    (stands : StandsIn (offset + front.length) t p) : StandsIn offset (front ++ t) p := by
  obtain ⟨i, place, inside, same⟩ := stands
  refine ⟨front.length + i, by omega, ?_, ?_⟩
  · rw [List.length_append]
    omega
  · rw [Nat.add_assoc, extract_behind, same]

theorem cut_between_behind {front t : Text} {offset : Int} {p q : Piece}
    (between : CutBetween isCut (offset + front.length) t p q) :
    CutBetween isCut offset (front ++ t) p q := by
  obtain ⟨i, c, stop, here, cut, next⟩ := between
  refine ⟨front.length + i, c, by omega, ?_, cut, next⟩
  rw [List.getElem?_append_right (by omega), Nat.add_sub_cancel_left, here]

theorem stands_first (p rest : Text) (offset : Int) : StandsIn offset (p ++ rest) ⟨offset, p⟩ := by
  refine ⟨0, by simp, ?_, ?_⟩
  · simp
  · simp

theorem dissects_uncut {p : Text} (uncut : Uncut isCut p) (offset : Int) :
    Dissects isCut offset p [⟨offset, p⟩] where
  count := by rw [uncut_count uncut]; rfl
  uncut := List.forall_mem_singleton.mpr uncut
  standing := by
    have stands := stands_first p [] offset
    rw [List.append_nil] at stands
    exact List.forall_mem_singleton.mpr stands
  joints := List.isChain_singleton _
  first := rfl
  last := rfl

theorem dissects_cons {p t : Text} {c : CodePoint} {ps : List Piece} {offset : Int}
    (uncut : Uncut isCut p) (cut : isCut c = true)
    (tail : Dissects isCut (offset + p.length + 1) t ps) :
    Dissects isCut offset (p ++ c :: t) (⟨offset, p⟩ :: ps) := by
  have split : p ++ c :: t = (p ++ [c]) ++ t := List.append_cons p c t
  have place : offset + p.length + 1 = offset + (p ++ [c]).length := by
    rw [List.length_append, List.length_singleton]
    omega
  obtain ⟨count, uncutTail, standing, joints, first, last⟩ := tail
  cases ps with
  | nil => simp at first
  | cons q ps =>
    have begins : q.start = offset + p.length + 1 := by simpa using first
    rw [place] at standing joints
    refine ⟨?_, ?_, ?_, ?_, rfl, ?_⟩
    · rw [List.length_cons, count, List.countP_append, uncut_count uncut,
        List.countP_cons_of_pos cut]
      omega
    · exact List.forall_mem_cons.mpr ⟨uncut, uncutTail⟩
    · refine List.forall_mem_cons.mpr ⟨stands_first p _ offset, fun r mem => ?_⟩
      rw [split]
      exact stands_behind (standing r mem)
    · refine List.isChain_cons_cons.mpr ⟨⟨p.length, c, rfl, by simp, cut, begins⟩, ?_⟩
      rw [split]
      exact joints.imp fun _ _ => cut_between_behind
    · rw [List.getLast?_cons_cons, last, Option.some.injEq, List.length_append, List.length_cons]
      omega

/- By the cuts from the left. The pieces of the rest are those of the rest alone, placed behind the
   first piece and its cut. -/
theorem pieces_dissect (isCut : CodePoint → Bool) (offset : Int) (t : Text) :
    Dissects isCut offset t (pieces isCut offset t) := by
  induction t using cut_induction isCut generalizing offset with
  | last p uncut =>
    rw [pieces_uncut uncut]
    exact dissects_uncut uncut offset
  | step p c t uncut cut ih =>
    rw [pieces_append_cut uncut cut]
    exact dissects_cons uncut cut (ih (offset + p.length + 1))

example : pieces (· == .char '&') 2 "&1&&".text = [⟨2, []⟩, ⟨3, ['1']⟩, ⟨5, []⟩, ⟨6, []⟩] := by rfl

end VersionMatch
