import VersionMatch.Proofs.Escaping

/- The shape of a written document: which parts stand in it with what between them, and that all of
   it is ASCII. -/
namespace VersionMatch.Json

def IsGap (t : Characters) : Prop := ∀ c ∈ t, c = ' ' ∨ c = '\n'

/-- A layout that puts gaps alone around the items, and a comma between them. -/
structure Spread.Loose (s : Spread) : Prop where
  breaks : ∀ depth, IsGap (s.lineBreak depth)
  comma : ∃ gap, s.comma = ',' :: gap ∧ IsGap gap

theorem gap_nil : IsGap [] := fun _ mem => by cases mem

theorem gap_append {t u : Characters} (first : IsGap t) (second : IsGap u) : IsGap (t ++ u) :=
  List.forall_mem_append.mpr ⟨first, second⟩

theorem one_line_loose : oneLine.Loose where
  breaks := fun _ => gap_nil
  comma := ⟨[' '], rfl, by simp [IsGap]⟩

theorem indented_loose : indentedByTwo.Loose where
  breaks := by
    intro depth c mem
    rcases List.mem_cons.mp mem with line | space
    · exact .inr line
    · exact .inl (List.eq_of_mem_replicate space)
  comma := ⟨[], rfl, gap_nil⟩

def writtenField (s : Spread) (d : Nat) (p : Text × Json) : Characters :=
  writtenText p.1 ++ [':', ' '] ++ written s d p.2

theorem written_items (s : Spread) (d : Nat) (vs : List Json) :
    writtenItems s d vs = vs.map (written s d) := by
  induction vs with
  | nil => rfl
  | cons v vs ih => rw [writtenItems, ih, List.map_cons]

theorem written_fields (s : Spread) (d : Nat) (fields : List (Text × Json)) :
    writtenFields s d fields = fields.map (writtenField s d) := by
  induction fields with
  | nil => rfl
  | cons p fields ih => rw [writtenFields, ih, List.map_cons, writtenField]

theorem written_list (s : Spread) (d : Nat) (vs : List Json) :
    written s d (.list vs) = bracketed s d '[' ']' (vs.map (written s (d + 1))) := by
  rw [written, written_items]

theorem written_object (s : Spread) (d : Nat) (fields : List (Text × Json)) :
    written s d (.object fields) =
      bracketed s d openBrace closeBrace (fields.map (writtenField s (d + 1))) := by
  rw [written, written_fields]
  rfl

def further (separator : Characters) (parts : List Characters) : Characters :=
  parts.flatMap fun part => separator ++ part

theorem intercalate_further (separator part : Characters) (parts : List Characters) :
    separator.intercalate (part :: parts) = part ++ further separator parts := by
  induction parts generalizing part with
  | nil => simp [further, List.intercalate_singleton]
  | cons next parts ih =>
    rw [List.intercalate_cons_cons, ih next, further, further, List.flatMap_cons]
    simp only [List.append_assoc]

theorem bracketed_layout {s : Spread} (loose : s.Loose) (d : Nat) (opening closing : Char)
    (part : Characters) (parts : List Characters) :
    ∃ blank, IsGap blank ∧ bracketed s d opening closing (part :: parts) =
      opening :: (s.lineBreak (d + 1) ++
        (part ++ (further (',' :: blank) parts ++ (s.lineBreak d ++ [closing])))) := by
  obtain ⟨gap, comma, isGap⟩ := loose.comma
  refine ⟨gap ++ s.lineBreak (d + 1), gap_append isGap (loose.breaks _), ?_⟩
  rw [bracketed, comma, List.cons_append, intercalate_further]
  · simp only [List.append_assoc]
  · simp

def IsAscii (t : Characters) : Prop := ∀ c ∈ t, c = '\n' ∨ 0x20 ≤ c.toNat ∧ c.toNat ≤ 0x7e

instance (t : Characters) : Decidable (IsAscii t) := List.decidableBAll _ t

theorem ascii_cons {c : Char} {t : Characters} (first : IsAscii [c]) (ascii : IsAscii t) :
    IsAscii (c :: t) :=
  List.forall_mem_cons.mpr ⟨first c (List.mem_singleton.mpr rfl), ascii⟩

theorem ascii_append {t u : Characters} (first : IsAscii t) (second : IsAscii u) :
    IsAscii (t ++ u) :=
  List.forall_mem_append.mpr ⟨first, second⟩

theorem ascii_sublist {t u : Characters} (sub : t.Sublist u) (ascii : IsAscii u) : IsAscii t :=
  fun c mem => ascii c (sub.subset mem)

theorem ascii_flat_map {α : Type} {f : α → Characters} {xs : List α}
    (each : ∀ x ∈ xs, IsAscii (f x)) : IsAscii (xs.flatMap f) :=
  List.forall_mem_flatMap.mpr each

theorem gap_ascii {t : Characters} (isGap : IsGap t) : IsAscii t := by
  intro c mem
  rcases isGap c mem with rfl | rfl <;> decide

theorem zeros_ascii (n : Nat) : IsAscii (List.replicate n '0') := by
  intro c mem
  rw [List.eq_of_mem_replicate mem]
  decide

theorem digit_char_ascii : ∀ d < 16, IsAscii [Nat.digitChar d] := by decide

theorem digits_ascii (n : Nat) : IsAscii (Nat.toDigits 10 n) := by
  intro c mem
  obtain ⟨d, low, rfl⟩ := mem_digits (by decide) mem
  exact digit_char_ascii d (by omega) _ (by simp)

theorem unit_ascii (n : Nat) : IsAscii (unitEscape n) := by
  have digits : IsAscii (Characters.hex 4 n) := by
    intro c mem
    obtain ⟨d, low, rfl⟩ := mem_hex mem
    exact digit_char_ascii d low _ (by simp)
  exact ascii_cons (by decide) (ascii_cons (by decide) digits)

theorem escaped_char_ascii (c : Char) : IsAscii (escapedChar c) := by
  unfold escapedChar
  split_ifs with own line ret tab page back shown small
  · rcases own with rfl | rfl <;> decide
  · decide
  · decide
  · decide
  · decide
  · decide
  · exact List.forall_mem_singleton.mpr (.inr shown)
  · exact unit_ascii _
  · exact ascii_append (unit_ascii _) (unit_ascii _)

theorem text_ascii (t : Text) : IsAscii (writtenText t) := by
  have inside : IsAscii (t.flatMap escaped) := by
    refine ascii_flat_map fun p _ => ?_
    cases p with
    | char c => exact escaped_char_ascii c
    | half n => exact unit_ascii _
  exact ascii_cons (by decide) (ascii_append inside (by decide))

theorem integer_ascii (i : Int) : IsAscii (Characters.ofInt i) := by
  cases i with
  | ofNat n => exact digits_ascii n
  | negSucc n => exact ascii_cons (by decide) (digits_ascii (n + 1))

theorem trimmed_ascii {digits : Characters} (ascii : IsAscii digits) :
    IsAscii (trimDigits digits) := by
  have kept : IsAscii (digits.reverse.dropWhile (· == '0')).reverse := by
    intro c mem
    have mem := (List.dropWhile_sublist _).subset (List.mem_reverse.mp mem)
    exact ascii c (List.mem_reverse.mp mem)
  unfold trimDigits
  split
  · decide
  · exact kept

theorem rendered_ascii {digits : Characters} (ascii : IsAscii digits) (power : Int) :
    IsAscii (Binary64.layout.render digits power) := by
  have shown := trimmed_ascii ascii
  have exponent : ∀ n, IsAscii ((Nat.toDigits 10 n).leftpad Binary64.layout.exponentWidth '0') :=
    fun n => ascii_append (zeros_ascii _) (digits_ascii n)
  have sign : ∀ e : Int, IsAscii [if e < 0 then '-' else '+'] := by
    intro e
    split <;> decide
  simp only [DecimalLayout.render]
  split
  · split
    · exact ascii_append (ascii_append (by decide) (zeros_ascii _)) shown
    · split
      · exact ascii_append (ascii_append shown (zeros_ascii _)) (by decide)
      · exact ascii_append (ascii_sublist (List.take_sublist _ _) shown)
          (ascii_cons (by decide) (ascii_sublist (List.drop_sublist _ _) shown))
  · refine ascii_append ?_ (ascii_cons (by decide) (ascii_cons (sign _) (exponent _)))
    split
    · rename_i parts
      rw [parts] at shown
      have head := ascii_sublist (List.take_sublist 1 _) shown
      have tail := ascii_sublist (List.drop_sublist 1 _) shown
      exact ascii_cons head (ascii_cons (by decide) tail)
    · exact shown

theorem float_ascii (x : Binary64) : IsAscii (writtenFloat x) := by
  cases x with
  | nan => decide
  | infinite negative => cases negative <;> decide
  | finite negative m e =>
    refine ascii_append ?_ (rendered_ascii (digits_ascii _) _)
    split <;> decide

theorem bracketed_ascii {s : Spread} (loose : s.Loose) (d : Nat) {opening closing : Char}
    (first : IsAscii [opening]) (last : IsAscii [closing]) {parts : List Characters}
    (each : ∀ part ∈ parts, IsAscii part) : IsAscii (bracketed s d opening closing parts) := by
  cases parts with
  | nil => exact ascii_cons first last
  | cons part parts =>
    obtain ⟨blank, isGap, layout⟩ := bracketed_layout loose d opening closing part parts
    obtain ⟨one, others⟩ := List.forall_mem_cons.mp each
    have breaks := fun depth => gap_ascii (loose.breaks depth)
    have behind : IsAscii (further (',' :: blank) parts) := ascii_flat_map fun p mem =>
      ascii_append (ascii_cons (by decide) (gap_ascii isGap)) (others p mem)
    rw [layout]
    exact ascii_cons first (ascii_append (breaks _) (ascii_append one (ascii_append behind
      (ascii_append (breaks _) last))))

mutual

theorem written_ascii {s : Spread} (loose : s.Loose) (d : Nat) : ∀ v, IsAscii (written s d v)
  | .null => by
    rw [written]
    decide
  | .bool b => by cases b <;> rw [written] <;> decide
  | .int i => by
    rw [written]
    exact integer_ascii i
  | .float x => by
    rw [written]
    exact float_ascii x
  | .str t => by
    rw [written]
    exact text_ascii t
  | .list vs => by
    rw [written]
    exact bracketed_ascii loose d (by decide) (by decide) (items_ascii loose (d + 1) vs)
  | .object fields => by
    rw [written]
    exact bracketed_ascii loose d (by decide) (by decide) (fields_ascii loose (d + 1) fields)

theorem items_ascii {s : Spread} (loose : s.Loose) (d : Nat) :
    ∀ vs, ∀ part ∈ writtenItems s d vs, IsAscii part
  | [] => by simp [writtenItems]
  | v :: vs => by
    rw [writtenItems]
    exact List.forall_mem_cons.mpr ⟨written_ascii loose d v, items_ascii loose d vs⟩

theorem fields_ascii {s : Spread} (loose : s.Loose) (d : Nat) :
    ∀ fields, ∀ part ∈ writtenFields s d fields, IsAscii part
  | [] => by simp [writtenFields]
  | (k, v) :: fields => by
    rw [writtenFields]
    exact List.forall_mem_cons.mpr
      ⟨ascii_append (ascii_append (text_ascii k) (by decide)) (written_ascii loose d v),
        fields_ascii loose d fields⟩

end

/- Without a carriage return, storing and opening a text leaves it as it is. -/
theorem line_feeds_kept {t : Characters} (ascii : IsAscii t) : t.withLineFeeds = t := by
  induction t with
  | nil => rfl
  | cons c t ih =>
    obtain ⟨first, others⟩ := List.forall_mem_cons.mp ascii
    have other : c ≠ '\r' := by
      rintro rfl
      revert first
      decide
    rw [Characters.withLineFeeds, ih others, if_neg other]
    exact fun rest same => absurd same other

end VersionMatch.Json
