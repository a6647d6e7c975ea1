import VersionMatch.Proofs.Conformance
import VersionMatch.Proofs.PathOrder
import VersionMatch.Proofs.ViolationLines
import VersionMatch.Proofs.Walking

/- A document is accepted exactly when it lists entries of constraints. Otherwise every violation
   that a validator reports stands in the message once, on a line of its own, by path and then in
   the order of its schema. -/
namespace VersionMatch

/-- All that a schema has against a document, listed. -/
structure Accounts (s : Schema) (document : Json) (found : List Violation) : Prop where
  each : ∀ path flaw, (path, flaw) ∈ found.map Violation.finding ↔
    ∃ t v, s.at? path = some t ∧ document.at? path = some v ∧ Violates t v flaw
  once : (found.map Violation.finding).Nodup
  shallow : ∀ a ∈ found, a.flaw = .wrongType → ∀ b ∈ found, a.path <+: b.path → b = a
  comparable : ∀ a ∈ found, ∀ b ∈ found, (pathOrder a.path b.path).isSome = true
  ordered : found.Pairwise fun a b => ∃ o, pathOrder a.path b.path = some o ∧ o.isLE = true
  keywords : found.Pairwise fun a b => a.path = b.path →
    ∃ t, s.at? a.path = some t ∧ Precedes t a.flaw b.flaw

/-- A message with a line for each violation in turn. It is cut into these lines unless a line feed
    stands in the words of the validator. -/
inductive ListsLines (found : List Violation) (message : Text) : Prop where
  | under {lines : List Text} (each : List.Forall₂ IsLineOf found lines)
      (whole : message = [CodePoint.char '\n'].intercalate
        ("Constraints file failed validation:".text :: lines))
      (cut : (∀ x ∈ found, .char '\n' ∉ x.message) → parts (· == .char '\n') message =
        "Constraints file failed validation:".text :: lines)

variable {s t : Schema} {document v w : Json} {validator : Validator}

section Reports

variable (reported : s.Findings v (validator s v))
include reported

theorem checked_each (path : List Step) (f : Flaw) :
    (path, f) ∈ (s.check validator v).map Violation.finding ↔
      ∃ t w, s.at? path = some t ∧ v.at? path = some w ∧ Violates t w f := by
  rw [((check_perm s validator v).map Violation.finding).mem_iff]
  exact reported.each path f

theorem checked_flaw {x : Violation} (mem : x ∈ s.check validator v) :
    ∃ t w, s.at? x.path = some t ∧ v.at? x.path = some w ∧ Violates t w x.flaw :=
  (checked_each reported x.path x.flaw).mp (List.mem_map_of_mem mem)

theorem checked_once : ((s.check validator v).map Violation.finding).Nodup :=
  ((check_perm s validator v).map Violation.finding).nodup_iff.mpr reported.once

theorem checked_keywords : (s.check validator v).Pairwise fun a b =>
    a.path = b.path → ∃ t, s.at? a.path = some t ∧ Precedes t a.flaw b.flaw := by
  rw [List.pairwise_iff_forall_sublist]
  intro a b both same
  have whole : [a, b].filter (·.path = a.path) = [a, b] := by simp [same]
  have here := both.filter (·.path = a.path)
  rw [whole, check_filter] at here
  exact List.pairwise_iff_forall_sublist.mp reported.ordered
    (here.trans List.filter_sublist) same

theorem checked_shallow {a b : Violation} (first : a ∈ s.check validator v)
    (wrong : a.flaw = .wrongType) (second : b ∈ s.check validator v) (below : a.path <+: b.path) :
    b = a := by
  obtain ⟨rest, below⟩ := below
  obtain ⟨t, w, asked, given, violates⟩ := checked_flaw reported first
  obtain ⟨t', w', asked', given', violates'⟩ := checked_flaw reported second
  have other : w.kind ≠ t.kind := kind_of_wrong_type (wrong ▸ violates)
  rw [← below, schema_at_append, asked, Option.bind_some] at asked'
  rw [← below, json_at_append, given, Option.bind_some] at given'
  have ended : rest = [] := ends_at_other_kind other asked' given'
  have path : b.path = a.path := by rw [← below, ended, List.append_nil]
  subst ended
  cases asked'
  cases given'
  have flaw : b.flaw = a.flaw := (violates_other_kind other violates').trans wrong.symm
  exact List.inj_on_of_nodup_map (checked_once reported) second first (Prod.ext path flaw)

theorem checked_paths_ordered {a b : Violation} (first : a ∈ s.check validator v)
    (second : b ∈ s.check validator v) :
    pathOrder a.path b.path = some (List.compareLex Step.order a.path b.path) := by
  obtain ⟨_, _, askedA, _⟩ := checked_flaw reported first
  obtain ⟨_, _, askedB, _⟩ := checked_flaw reported second
  exact path_order_of_schema askedA askedB

theorem check_accounts : Accounts s v (s.check validator v) where
  each := checked_each reported
  once := checked_once reported
  shallow a inA wrong b inB below := checked_shallow reported inA wrong inB below
  comparable a inA b inB := by rw [checked_paths_ordered reported inA inB]; rfl
  ordered := by
    refine (check_sorted s validator v).imp_of_mem fun {a b} inA inB before => ?_
    exact ⟨_, checked_paths_ordered reported inA inB, in_order_iff.mp before⟩
  keywords := checked_keywords reported

end Reports

/-- The order of the violations in an account, as far as it does not depend on their words. -/
structure StandsBefore (s : Schema) (a b : List Step × Flaw) : Prop where
  path : ∃ o, pathOrder a.1 b.1 = some o ∧ o.isLE = true
  keyword : a.1 = b.1 → ∃ t, s.at? a.1 = some t ∧ Precedes t a.2 b.2

theorem account_ordered {found : List Violation} (accounts : Accounts s document found) :
    (found.map Violation.finding).Pairwise (StandsBefore s) :=
  List.pairwise_map.mpr ((accounts.ordered.and accounts.keywords).imp fun both => ⟨both.1, both.2⟩)

/- What an account must hold leaves no choice but the words. -/
theorem accounts_unique (tidy : s.Tidy) {found other : List Violation}
    (first : Accounts s document found) (second : Accounts s document other) :
    found.map Violation.finding = other.map Violation.finding := by
  have perm : (found.map Violation.finding).Perm (other.map Violation.finding) :=
    (List.perm_ext_iff_of_nodup first.once second.once).mpr fun x =>
      (first.each x.1 x.2).trans (second.each x.1 x.2).symm
  refine perm.eq_of_pairwise ?_ (account_ordered first) (account_ordered second)
  rintro ⟨p, f⟩ ⟨q, g⟩ inA inB before after
  obtain ⟨_, _, askedA, _⟩ := (first.each p f).mp inA
  obtain ⟨_, _, askedB, _⟩ := (second.each q g).mp inB
  obtain rfl : p = q := path_order_antisymm askedA askedB before.path after.path
  obtain ⟨t, asked, earlier⟩ := before.keyword rfl
  obtain ⟨t', asked', later⟩ := after.keyword rfl
  rw [asked] at asked'
  cases asked'
  exact absurd later (precedes_asymm (tidy_at tidy asked) earlier)

theorem message_lists_lines {found : List Violation} (nonempty : found ≠ []) (tidy : s.Tidy)
    (asked : ∀ x ∈ found, ∃ t, s.at? x.path = some t) :
    ListsLines found (LoadFault.invalid found).message := by
  have message : (LoadFault.invalid found).message =
      [CodePoint.char '\n'].intercalate
        ("Constraints file failed validation:".text :: found.map Violation.line) := by
    obtain ⟨x, xs, rfl⟩ := List.exists_cons_of_ne_nil nonempty
    rw [List.map_cons, List.intercalate_cons_cons]
    rfl
  have each : ∀ x ∈ found, IsLineOf x x.line ∧ (OneLine x.message → OneLine x.line) := by
    intro x mem
    obtain ⟨t, here⟩ := asked x mem
    exact line_of_violation tidy here
  refine .under ?_ message fun words => ?_
  · rw [List.forall₂_map_right_iff, List.forall₂_same]
    exact fun x mem => (each x mem).1
  · have uncut : ∀ line ∈ "Constraints file failed validation:".text :: found.map Violation.line,
        Uncut (· == .char '\n') line := by
      rw [List.forall_mem_cons, List.forall_mem_map]
      refine ⟨uncut_char_iff.mpr (by decide), fun x mem => uncut_char_iff.mpr ?_⟩
      exact (each x mem).2 (words x mem)
    rw [message, parts_intercalate rfl (List.cons_ne_nil _ _) uncut]

theorem validate_flawless (none : constraintsSchema.check validator document = []) :
    ConstraintSet.validate validator document = .ok () := by
  rw [ConstraintSet.validate, none]

theorem validate_flawed (some : constraintsSchema.check validator document ≠ []) :
    ConstraintSet.validate validator document =
      .error (.invalid (constraintsSchema.check validator document)) := by
  rw [ConstraintSet.validate]
  split
  · contradiction
  · rfl

theorem document_listed_or_accounted (validator : Validator) (document : Json)
    (reported : constraintsSchema.Findings document (validator constraintsSchema document)) :
    (∃ es, Lists document es) ∧ ConstraintSet.validate validator document = .ok () ∨
    (¬ ∃ es, Lists document es) ∧ ∃ found, found ≠ [] ∧
      found.Perm (validator constraintsSchema document) ∧
      ConstraintSet.validate validator document = .error (.invalid found) ∧
      (LoadFault.invalid found).isConfiguration = true ∧
      ListsLines found (LoadFault.invalid found).message ∧
      Accounts constraintsSchema document found ∧
      ∀ other, Accounts constraintsSchema document other →
        found.map Violation.finding = other.map Violation.finding := by
  rw [← validate_ok_iff reported]
  by_cases none : constraintsSchema.check validator document = []
  · exact .inl ⟨validate_flawless none, validate_flawless none⟩
  · have accounts := check_accounts reported
    have invalid := validate_flawed none
    have asked : ∀ x ∈ constraintsSchema.check validator document,
        ∃ t, constraintsSchema.at? x.path = some t := by
      intro x mem
      obtain ⟨t, _, here, _⟩ := checked_flaw reported mem
      exact ⟨t, here⟩
    refine .inr ⟨by rw [invalid]; nofun, _, none, check_perm _ _ _, invalid, rfl, ?_, accounts, ?_⟩
    · exact message_lists_lines none constraints_schema_tidy asked
    · exact fun other second => accounts_unique constraints_schema_tidy accounts second

def flawedDocument : Json :=
  .object [("constraints".text, .list [.object [("id".text, .str [])], .null])]

theorem flawed_document_accounted : ∃ found,
    ConstraintSet.validate Schema.validator flawedDocument = .error (.invalid found) ∧
      ListsLines found (LoadFault.invalid found).message ∧
      Accounts constraintsSchema flawedDocument found ∧ found.map Violation.finding =
        [([.name "constraints".text, .index 0], .missing "specification".text),
          ([.name "constraints".text, .index 0, .name "id".text], .empty),
          ([.name "constraints".text, .index 1], .wrongType)] := by
  have reported : constraintsSchema.Findings flawedDocument
      (Schema.validator constraintsSchema flawedDocument) :=
    validator_reports constraints_schema_tidy flawedDocument
  have check : constraintsSchema.check Schema.validator flawedDocument =
      Schema.validator constraintsSchema flawedDocument :=
    List.mergeSort_of_pairwise (by decide +kernel)
  have flawed : constraintsSchema.check Schema.validator flawedDocument ≠ [] := by
    rw [check]
    decide +kernel
  rcases document_listed_or_accounted Schema.validator flawedDocument reported with
    ⟨_, valid⟩ | ⟨_, found, _, _, invalid, _, lines, accounts, _⟩
  · rw [validate_flawed flawed] at valid
    cases valid
  · have same := invalid
    rw [validate_flawed flawed, Except.error.injEq, LoadFault.invalid.injEq, check] at same
    refine ⟨found, invalid, lines, accounts, ?_⟩
    rw [← same]
    decide +kernel

end VersionMatch
