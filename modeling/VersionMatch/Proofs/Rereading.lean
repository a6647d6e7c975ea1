import VersionMatch.Proofs.Integers
import VersionMatch.Proofs.Writing
import Mathlib.Data.List.Nodup

/- A document is read back from its text, on one line or indented. -/
namespace VersionMatch.Json

/-- What a text can tell in full: no halves that would join, no integer too long to be read, no key
    twice in an object, and at most `levels` lists and objects in each other. -/
inductive Restorable : Nat → Json → Prop where
  | null {levels : Nat} : Restorable levels .null
  | bool {levels : Nat} (b : Bool) : Restorable levels (.bool b)
  | int {levels : Nat} {i : Int} (short : (Nat.toDigits 10 i.natAbs).length ≤ digitLimit) :
      Restorable levels (.int i)
  | str {levels : Nat} {t : Text} (unjoined : Unjoined t) : Restorable levels (.str t)
  | list {levels : Nat} {vs : List Json} (each : ∀ v ∈ vs, Restorable levels v) :
      Restorable (levels + 1) (.list vs)
  | object {levels : Nat} {fields : List (Text × Json)} (distinct : (fields.map Prod.fst).Nodup)
      (names : ∀ p ∈ fields, Unjoined p.1) (each : ∀ p ∈ fields, Restorable levels p.2) :
      Restorable (levels + 1) (.object fields)

theorem skip_gap {gap : Characters} (isGap : IsGap gap) (t : Characters) :
    skipSpace (gap ++ t) = skipSpace t := by
  apply List.dropWhile_append_of_pos
  intro c mem
  rcases isGap c mem with rfl | rfl <;> rfl

theorem skip_none {c : Char} (shown : isSpace c = false) (t : Characters) :
    skipSpace (c :: t) = c :: t :=
  List.dropWhile_cons_of_neg (by simp [shown])

theorem put_new {fields : List (Text × Json)} {key : Text} (new : key ∉ fields.map Prod.fst)
    (v : Json) : put fields key v = fields ++ [(key, v)] := by
  induction fields with
  | nil => rfl
  | cons p fields ih =>
    simp only [List.map_cons, List.mem_cons, not_or] at new
    rw [put, if_neg (Ne.symm new.1), ih new.2, List.cons_append]

theorem of_pairs_distinct {pairs : List (Text × Json)} (distinct : (pairs.map Prod.fst).Nodup) :
    ofPairs pairs = .object pairs := by
  have collected : ∀ before : List (Text × Json), ((before ++ pairs).map Prod.fst).Nodup →
      pairs.foldl (fun fields p => put fields p.1 p.2) before = before ++ pairs := by
    clear distinct
    induction pairs with
    | nil => simp
    | cons p pairs ih =>
      intro before distinct
      have new : p.1 ∉ before.map Prod.fst := by
        rw [List.map_append, List.nodup_append] at distinct
        exact fun mem => distinct.2.2 p.1 mem p.1 (by simp) rfl
      rw [List.append_cons] at distinct ⊢
      rw [List.foldl_cons, put_new new, ih _ distinct]
  rw [ofPairs, collected [] distinct, List.nil_append]

theorem bracketed_parts {s : Spread} (loose : s.Loose) (d : Nat) (opening closing : Char)
    (part : Characters) (parts : List Characters) (rest : Characters) :
    ∃ blank gap t, IsGap blank ∧ IsGap gap ∧
      bracketed s d opening closing (part :: parts) ++ rest = opening :: t ∧
      skipSpace t =
        skipSpace (part ++ (further (',' :: blank) parts ++ (gap ++ closing :: rest))) ∧
      (part ++ further (',' :: blank) parts).length + 2 ≤
        (bracketed s d opening closing (part :: parts)).length := by
  obtain ⟨blank, isGap, layout⟩ := bracketed_layout loose d opening closing part parts
  refine ⟨blank, s.lineBreak d, _, isGap, loose.breaks d, by rw [layout, List.cons_append], ?_, ?_⟩
  · simp only [List.append_assoc, skip_gap (loose.breaks _), List.cons_append, List.nil_append]
  · simp only [layout, List.length_cons, List.length_append, List.length_nil]
    omega

section Loop

/- The loops over items and over members are one: a part is read, and a comma after it asks for
   another. -/
variable {α : Type} {loop : Nat → Characters → Except Stop (List α × Characters)}
  {shape : α → Characters} {closing : Char} {blank gap : Characters}

theorem loop_reads_back {a : α} {as : List α}
    (last : ∀ c ∈ a :: as, ∀ fuel rest, (shape c).length ≤ fuel →
      loop (fuel + 1) (shape c ++ (gap ++ closing :: rest)) = .ok ([c], rest))
    (next : ∀ c ∈ a :: as, ∀ b ∈ a :: as, ∀ fuel rest, (shape c).length ≤ fuel →
      loop (fuel + 1) (shape c ++ ((',' :: blank) ++ (shape b ++ rest))) =
        (loop fuel (shape b ++ rest)).map fun p => (c :: p.1, p.2))
    {fuel : Nat} (enough : (shape a ++ further (',' :: blank) (as.map shape)).length < fuel)
    (rest : Characters) :
    loop fuel (shape a ++ (further (',' :: blank) (as.map shape) ++ (gap ++ closing :: rest))) =
      .ok (a :: as, rest) := by
  induction as generalizing a fuel with
  | nil =>
    obtain ⟨fuel, rfl⟩ : ∃ k, fuel = k + 1 := ⟨fuel - 1, by omega⟩
    simp only [List.map_nil, further, List.flatMap_nil, List.append_nil, List.nil_append]
      at enough ⊢
    exact last a (by simp) fuel rest (by omega)
  | cons b as ih =>
    obtain ⟨fuel, rfl⟩ : ∃ k, fuel = k + 1 := ⟨fuel - 1, by omega⟩
    simp only [List.map_cons, further, List.flatMap_cons, List.append_assoc, List.length_append,
      List.length_cons] at enough ih ⊢
    rw [next a (by simp) b (by simp) fuel _ (by omega), ih]
    · rfl
    · intro c mem
      exact last c (List.mem_cons_of_mem a mem)
    · intro c mem e other
      exact next c (List.mem_cons_of_mem a mem) e (List.mem_cons_of_mem a other)
    · omega

end Loop

def IsOpener (c : Char) : Prop := c ∈ ['"', '[', openBrace, 'n', 't', 'f', '-'] ∨ c.isDigit = true

theorem bracketed_begins (s : Spread) (d : Nat) (opening closing : Char) (parts : List Characters) :
    ∃ more, bracketed s d opening closing parts = opening :: more := by
  cases parts <;> exact ⟨_, rfl⟩

theorem written_begins {levels : Nat} {v : Json} (restorable : Restorable levels v) (s : Spread)
    (d : Nat) : ∃ c more, IsOpener c ∧ written s d v = c :: more := by
  cases restorable with
  | null => exact ⟨'n', _, .inl (by decide), by rw [written]; rfl⟩
  | bool b =>
    cases b
    · exact ⟨'f', _, .inl (by decide), by rw [written]; rfl⟩
    · exact ⟨'t', _, .inl (by decide), by rw [written]; rfl⟩
  | int short =>
    rw [written]
    obtain ⟨c, more, digit, shape | shape⟩ := written_number_begins _
    · exact ⟨c, more, .inr digit, shape⟩
    · exact ⟨'-', c :: more, .inl (by decide), shape⟩
  | str unjoined => exact ⟨'"', _, .inl (by decide), by rw [written, writtenText]⟩
  | list each =>
    obtain ⟨more, begins⟩ := bracketed_begins s d '[' ']' _
    exact ⟨'[', more, .inl (by decide), by rw [written_list, begins]⟩
  | object distinct names each =>
    obtain ⟨more, begins⟩ := bracketed_begins s d openBrace closeBrace _
    exact ⟨openBrace, more, .inl (by decide), by rw [written_object, begins]⟩

theorem opener_shown {c : Char} (opener : IsOpener c) :
    isSpace c = false ∧ c ≠ ']' ∧ c ≠ closeBrace ∧ c ≠ '\ufeff' := by
  rcases opener with mem | digit
  · revert c
    simp only [List.forall_mem_cons, List.not_mem_nil, false_implies, implies_true, and_true]
    decide
  · have shown : isSpace c = false := by
      simp [isSpace, digit_ne digit]
    have other : ∀ d : Char, d.isDigit = false → c ≠ d := fun _ => digit_ne digit
    exact ⟨shown, other _ (by decide), other _ (by decide), other _ (by decide)⟩

/-- Where `shape` stands before the end of a number, a reader that may go down `levels` more finds
    the value and goes on behind it. -/
def Rereads (levels : Nat) (shape : Characters) (v : Json) : Prop :=
  ∀ fuel rest, EndsNumber rest → shape.length ≤ fuel →
    readValue levels fuel (shape ++ rest) = .ok (v, rest)

/- What is written is not empty, so that some fuel is left to start with. -/
theorem rereads_of_succ {levels d : Nat} {s : Spread} {v : Json} (restorable : ∃ n, Restorable n v)
    (step : ∀ fuel rest, EndsNumber rest → (written s d v).length ≤ fuel + 1 →
      readValue levels (fuel + 1) (written s d v ++ rest) = .ok (v, rest)) :
    Rereads levels (written s d v) v := by
  intro fuel rest ends enough
  cases fuel with
  | zero =>
    obtain ⟨n, restorable⟩ := restorable
    obtain ⟨c, more, _, begins⟩ := written_begins restorable s d
    simp [begins] at enough
  | succ fuel => exact step fuel rest ends enough

theorem gap_ends {gap : Characters} (isGap : IsGap gap) {c : Char} (noDigit : c.isDigit = false)
    (mark : c ≠ '.' ∧ c ≠ 'e' ∧ c ≠ 'E') (rest : Characters) : EndsNumber (gap ++ c :: rest) := by
  cases gap with
  | nil =>
    rintro _ ⟨⟩
    exact ⟨noDigit, mark⟩
  | cons b gap =>
    rintro _ ⟨⟩
    rcases isGap b List.mem_cons_self with rfl | rfl <;> decide

theorem comma_ends (blank rest : Characters) : EndsNumber ((',' :: blank) ++ rest) := by
  rintro _ ⟨⟩
  decide

section Items

variable {levels fuel : Nat} {shape gap blank rest : Characters} {v : Json}

theorem read_last_item (rereads : Rereads levels shape v) (isGap : IsGap gap)
    (enough : shape.length ≤ fuel) :
    readItems levels (fuel + 1) (shape ++ (gap ++ ']' :: rest)) = .ok ([v], rest) := by
  have after : skipSpace (gap ++ ']' :: rest) = ']' :: rest := by
    rw [skip_gap isGap, skip_none (by decide)]
  rw [readItems, rereads fuel _ (gap_ends isGap (by decide) (by decide) rest) enough]
  simp only [ok_bind, after]
  rfl

theorem read_next_item (rereads : Rereads levels shape v) (isGap : IsGap blank)
    (enough : shape.length ≤ fuel) (begins : skipSpace rest = rest) :
    readItems levels (fuel + 1) (shape ++ ((',' :: blank) ++ rest)) =
      (readItems levels fuel rest).map fun p => (v :: p.1, p.2) := by
  have after : skipSpace ((',' :: blank) ++ rest) = ',' :: (blank ++ rest) := by
    rw [List.cons_append, skip_none (by decide)]
  rw [readItems, rereads fuel _ (comma_ends blank rest) enough]
  simp only [ok_bind, after, skip_gap isGap, begins]
  cases readItems levels fuel rest <;> rfl

def afterMember (levels fuel : Nat) (p : Text × Json) (t : Characters) :
    Except Stop (List (Text × Json) × Characters) :=
  match skipSpace t with
  | ',' :: rest => do
    let (ps, rest) ← readMembers levels fuel (skipSpace rest)
    return (p :: ps, rest)
  | rest =>
    if rest.head? = some closeBrace then return ([p], rest.tail)
    else throw ⟨.expectingComma, rest⟩

/- Up to its value, a member is read in the same way whatever follows it. -/
theorem read_key {key : Text} (name : Unjoined key) (rereads : Rereads levels shape v)
    (ends : EndsNumber rest) (enough : shape.length ≤ fuel)
    (begins : skipSpace (shape ++ rest) = shape ++ rest) :
    readMembers levels (fuel + 1) (writtenText key ++ [':', ' '] ++ shape ++ rest) =
      afterMember levels fuel (key, v) rest := by
  have colon : skipSpace (':' :: ' ' :: (shape ++ rest)) = ':' :: ' ' :: (shape ++ rest) :=
    skip_none (by decide) _
  have blank : IsGap [' '] := by simp [IsGap]
  have space : skipSpace (' ' :: (shape ++ rest)) = shape ++ rest :=
    (skip_gap blank (shape ++ rest)).trans begins
  simp only [writtenText, List.cons_append, List.append_assoc, List.nil_append, readMembers,
    read_written_text _ name, ok_bind, colon, pure, Except.pure, space, rereads fuel _ ends enough]
  rfl

theorem read_last_member {key : Text} (name : Unjoined key) (rereads : Rereads levels shape v)
    (enough : shape.length ≤ fuel) (begins : ∀ t, skipSpace (shape ++ t) = shape ++ t)
    (isGap : IsGap gap) :
    readMembers levels (fuel + 1)
      (writtenText key ++ [':', ' '] ++ shape ++ (gap ++ closeBrace :: rest)) =
        .ok ([(key, v)], rest) := by
  rw [read_key name rereads (gap_ends isGap (by decide) (by decide) rest) enough (begins _),
    afterMember, skip_gap isGap, skip_none (by decide)]
  rfl

theorem read_next_member {key : Text} (name : Unjoined key) (rereads : Rereads levels shape v)
    (enough : shape.length ≤ fuel) (begins : ∀ t, skipSpace (shape ++ t) = shape ++ t)
    (isGap : IsGap blank) (later : skipSpace rest = rest) :
    readMembers levels (fuel + 1)
      (writtenText key ++ [':', ' '] ++ shape ++ ((',' :: blank) ++ rest)) =
        (readMembers levels fuel rest).map fun p => ((key, v) :: p.1, p.2) := by
  rw [read_key name rereads (comma_ends blank rest) enough (begins _),
    afterMember, List.cons_append, skip_none (by decide)]
  simp only [skip_gap isGap, later]
  cases readMembers levels fuel rest <;> rfl

end Items

theorem written_shown {n : Nat} {v : Json} (restorable : Restorable n v) (s : Spread) (d : Nat)
    (t : Characters) : skipSpace (written s d v ++ t) = written s d v ++ t := by
  obtain ⟨c, more, opener, begins⟩ := written_begins restorable s d
  rw [begins, List.cons_append, skip_none (opener_shown opener).1]

variable {s : Spread} {levels d : Nat}

theorem read_open_list {fuel : Nat} {t first : Characters} (leads : skipSpace t = first)
    (filled : ∃ c more, IsOpener c ∧ first = c :: more) :
    readValue (levels + 1) (fuel + 1) ('[' :: t) =
      (readItems levels fuel first).map fun p => (.list p.1, p.2) := by
  obtain ⟨c, more, opener, rfl⟩ := filled
  simp only [readValue, leads]
  simp [(opener_shown opener).2.1]

theorem read_open_object {fuel : Nat} {t first : Characters} (leads : skipSpace t = first)
    (filled : ∃ c more, IsOpener c ∧ first = c :: more) :
    readValue (levels + 1) (fuel + 1) (openBrace :: t) =
      (readMembers levels fuel first).map fun p => (ofPairs p.1, p.2) := by
  obtain ⟨c, more, opener, rfl⟩ := filled
  have isOpen : openBrace ≠ '"' ∧ openBrace ≠ '[' := by decide
  rw [readValue, if_neg isOpen.1, if_neg isOpen.2, if_pos rfl, leads]
  simp [(opener_shown opener).2.2.1]

theorem list_reread (loose : s.Loose) {n : Nat} {vs : List Json} (each : ∀ v ∈ vs, Restorable n v)
    (rereads : ∀ v ∈ vs, Rereads levels (written s (d + 1) v) v) :
    Rereads (levels + 1) (written s d (.list vs)) (.list vs) := by
  apply rereads_of_succ ⟨_, .list each⟩
  intro fuel rest _ enough
  rw [written_list] at enough ⊢
  cases vs with
  | nil =>
    simp only [List.map_nil, bracketed, List.cons_append, readValue]
    rfl
  | cons v vs =>
    obtain ⟨blank, gap, t, divides, closes, opened, leads, inside⟩ :=
      bracketed_parts loose d '[' ']' (written s (d + 1) v) (vs.map (written s (d + 1))) rest
    have items : readItems levels fuel (written s (d + 1) v ++
        (further (',' :: blank) (vs.map (written s (d + 1))) ++ (gap ++ ']' :: rest))) =
          .ok (v :: vs, rest) := by
      apply loop_reads_back
      · intro w mem fuel rest room
        exact read_last_item (rereads w mem) closes room
      · intro w mem u also fuel rest room
        exact read_next_item (rereads w mem) divides room (written_shown (each u also) s (d + 1) _)
      · rw [List.map_cons] at enough
        omega
    have first := each v (by simp)
    rw [written_shown first] at leads
    obtain ⟨c, more, opener, begins⟩ := written_begins first s (d + 1)
    rw [List.map_cons, opened, read_open_list leads ⟨c, _, opener, by rw [begins]; rfl⟩, items]
    rfl

theorem object_reread (loose : s.Loose) {n : Nat} {fields : List (Text × Json)}
    (distinct : (fields.map Prod.fst).Nodup) (names : ∀ p ∈ fields, Unjoined p.1)
    (each : ∀ p ∈ fields, Restorable n p.2)
    (rereads : ∀ p ∈ fields, Rereads levels (written s (d + 1) p.2) p.2) :
    Rereads (levels + 1) (written s d (.object fields)) (.object fields) := by
  apply rereads_of_succ ⟨_, .object distinct names each⟩
  intro fuel rest _ enough
  rw [written_object] at enough ⊢
  cases fields with
  | nil =>
    simp only [List.map_nil, bracketed, List.cons_append, readValue]
    rfl
  | cons p fields =>
    obtain ⟨blank, gap, t, divides, closes, opened, leads, inside⟩ :=
      bracketed_parts loose d openBrace closeBrace (writtenField s (d + 1) p)
        (fields.map (writtenField s (d + 1))) rest
    have members : readMembers levels fuel (writtenField s (d + 1) p ++
        (further (',' :: blank) (fields.map (writtenField s (d + 1))) ++
          (gap ++ closeBrace :: rest))) = .ok (p :: fields, rest) := by
      have value : ∀ q fuel, (writtenField s (d + 1) q).length ≤ fuel →
          (written s (d + 1) q.2).length ≤ fuel := by
        intro q fuel room
        simp only [writtenField, List.length_append] at room
        omega
      apply loop_reads_back
      · intro q mem fuel rest room
        exact read_last_member (names q mem) (rereads q mem) (value q fuel room)
          (written_shown (each q mem) s (d + 1)) closes
      · intro q mem u also fuel rest room
        exact read_next_member (names q mem) (rereads q mem) (value q fuel room)
          (written_shown (each q mem) s (d + 1)) divides (skip_none (by decide) _)
      · rw [List.map_cons] at enough
        omega
    have quote : writtenField s (d + 1) p = '"' :: (writtenField s (d + 1) p).tail := rfl
    rw [quote, List.cons_append, skip_none (by decide), ← List.cons_append, ← quote] at leads
    rw [List.map_cons, opened,
      read_open_object leads ⟨'"', _, .inl (by decide), rfl⟩, members]
    simp only [Except.map, of_pairs_distinct distinct]

theorem written_reread (loose : s.Loose) {n : Nat} {v : Json} (restorable : Restorable n v)
    (room : n ≤ levels) : Rereads levels (written s d v) v := by
  induction restorable generalizing levels d with
  | null =>
    apply rereads_of_succ ⟨0, .null⟩
    intro fuel rest _ _
    rw [written]
    rfl
  | bool b =>
    apply rereads_of_succ ⟨0, .bool b⟩
    intro fuel rest _ _
    cases b <;> rw [written] <;> rfl
  | int short =>
    apply rereads_of_succ ⟨0, .int short⟩
    intro fuel rest ends _
    rw [written]
    exact read_written_integer levels fuel _ short ends
  | str unjoined =>
    apply rereads_of_succ ⟨0, .str unjoined⟩
    intro fuel rest _ _
    simp only [written, writtenText, List.cons_append, List.append_assoc, List.nil_append,
      readValue, if_true, read_written_text _ unjoined]
    rfl
  | list each ih =>
    obtain ⟨levels, rfl⟩ : ∃ k, levels = k + 1 := ⟨levels - 1, by omega⟩
    exact list_reread loose each fun v mem => ih v mem (by omega)
  | object distinct names each ih =>
    obtain ⟨levels, rfl⟩ : ∃ k, levels = k + 1 := ⟨levels - 1, by omega⟩
    exact object_reread loose distinct names each fun p mem => ih p mem (by omega)

theorem read_written_gap (loose : s.Loose) {nesting : Nat} {v : Json}
    (restorable : Restorable nesting v) {gap : Characters} (isGap : IsGap gap) :
    read nesting (written s 0 v ++ gap).withLineFeeds = .ok v := by
  have ends : EndsNumber gap := by
    intro c first
    rcases isGap c (List.mem_of_mem_head? first) with rfl | rfl <;> decide
  have value := written_reread (d := 0) loose restorable (Nat.le_refl nesting)
    (2 * (written s 0 v ++ gap).length + 2) gap ends (by simp; omega)
  have shown := written_shown restorable s 0 gap
  obtain ⟨c, more, opener, begins⟩ := written_begins restorable s 0
  have noMark : (written s 0 v ++ gap).head? ≠ some '\ufeff' := by
    rw [begins]
    exact fun same => (opener_shown opener).2.2.2 (Option.some.inj same)
  have nothing : skipSpace gap = [] := by
    rw [← List.append_nil gap, skip_gap isGap]
    rfl
  have ascii := ascii_append (written_ascii loose 0 v) (gap_ascii isGap)
  rw [line_feeds_kept ascii, read, readDocument, if_neg noMark, shown]
  simp only [value, ok_bind, nothing]
  rfl

theorem read_written (loose : s.Loose) {nesting : Nat} {v : Json}
    (restorable : Restorable nesting v) : read nesting (written s 0 v).withLineFeeds = .ok v := by
  have reread := read_written_gap loose restorable gap_nil
  rwa [List.append_nil] at reread

end VersionMatch.Json
