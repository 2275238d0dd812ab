import TableService.Proofs.GroupReading
import TableService.Proofs.PercentRoundTrip

/-!
# Every group can be written

A group is written as its grammar says, with what would end a name or a value replaced by escapes.
**The set of escapes is enough at every depth**: what is written is derived by the very terms that
it was written from (`derives_writeGroup`), and so it is read back as their tree.
-/

namespace TableService
namespace Group

/-! ## 1. Writing -/

/-- Whether a character of a name is written as an escape. -/
def escapedInKey (c : Char) : Bool := c == '%' || endsKey c

/-- Whether a character of a value is written as an escape. -/
def escapedInValue (c : Char) : Bool := c == '%' || endsValue c

mutual

/-- A term, written out. -/
def Term.write : Term → Text
  | .field name value =>
    Percent.escape escapedInKey name ++ '=' :: Percent.escape escapedInValue value
  | .group kind parts => kind.key ++ '=' :: '(' :: (writeTerms parts ++ [')'])
termination_by structural x => x

/-- The terms of a level, written out. -/
def writeTerms : List Term → Text
  | [] => []
  | [x] => x.write
  | x :: y :: xs => x.write ++ '|' :: writeTerms (y :: xs)
termination_by structural xs => xs

end

/-- A whole group, written out. -/
def writeGroup (xs : List Term) : Text := '(' :: (writeTerms xs ++ [')'])

/-- Whether a term can be asked for: its fields are on the allow-list, and no group is empty. -/
inductive Term.Askable (allowed : List Text) : Term → Prop where
  | field {name value : Text} (h : IsField allowed name) : Askable allowed (.field name value)
  | group {kind : Connective} {parts : List Term} (hne : parts ≠ [])
      (h : ∀ x ∈ parts, Askable allowed x) : Askable allowed (.group kind parts)

/-! ## 2. What is written is derived -/

variable {allowed : List Text}

theorem decode_escape_key (name : Text) :
    Percent.decode (Percent.escape escapedInKey name) = name :=
  Percent.decode_escape rfl name

theorem decode_escape_value (value : Text) :
    Percent.decode (Percent.escape escapedInValue value) = value :=
  Percent.decode_escape rfl value

theorem isKey_escape (name : Text) : IsKey (Percent.escape escapedInKey name) := by
  intro c hc
  apply endsKey_eq_false_iff.mp
  -- Neither `%` nor a hexadecimal digit ends a key, so an escape may stand in one.
  refine Percent.not_stop_of_mem_escape (fun d hd => ?_) rfl (by decide) hc
  rw [escapedInKey, hd, Bool.or_true]

theorem isValue_escape (value : Text) : IsValue (Percent.escape escapedInValue value) := by
  intro c hc
  apply endsValue_eq_false_iff.mp
  refine Percent.not_stop_of_mem_escape (fun d hd => ?_) rfl (by decide) hc
  rw [escapedInValue, hd, Bool.or_true]

/-- The name of a connective is written as it is. -/
theorem isKey_key (kind : Connective) : IsKey kind.key := by
  cases kind <;> simp [IsKey, Connective.key]

theorem decode_key (kind : Connective) : Percent.decode kind.key = kind.key := by
  cases kind <;> rfl

theorem derives_field {name : Text} (h : IsField allowed name) (value : Text) :
    Derives allowed (.term (.field name value)) (Term.write (.field name value)) := by
  have hfield : IsField allowed (Percent.decode (Percent.escape escapedInKey name)) := by
    rw [decode_escape_key]
    exact h
  have hd := Derives.valued (isKey_escape name) hfield (isValue_escape value)
  rw [decode_escape_key, decode_escape_value] at hd
  exact hd

mutual

theorem derives_write : ∀ (x : Term), x.Askable allowed → Derives allowed (.term x) x.write
  | .field name value, h => by
    cases h with
    | field hname => exact derives_field hname value
  | .group kind parts, h => by
    cases h with
    | group hne hparts =>
      have hterms := derives_writeTerms parts hne hparts
      exact .nested (isKey_key kind) (decode_key kind) (.group hterms)

theorem derives_writeTerms : ∀ (xs : List Term), xs ≠ [] → (∀ x ∈ xs, x.Askable allowed) →
    Derives allowed (.terms xs) (writeTerms xs)
  | [], hne, _ => absurd rfl hne
  | [x], _, h => .last (derives_write x (h x List.mem_cons_self))
  | x :: y :: xs, _, h => by
    obtain ⟨hx, hxs⟩ := List.forall_mem_cons.mp h
    exact .more (derives_write x hx) (derives_writeTerms (y :: xs) (by simp) hxs)

end

/-- A group is derived, as it is written, by the terms that it was written from. -/
theorem derives_writeGroup {xs : List Term} (hne : xs ≠ []) (h : ∀ x ∈ xs, x.Askable allowed) :
    Derives allowed (.group xs) (writeGroup xs) :=
  .group (derives_writeTerms xs hne h)

example : writeGroup [.field ['a', '|', 'é'] ['5', '%', ')']]
    = ['(', 'a', '%', '7', 'C', 'é', '=', '5', '%', '2', '5', '%', '2', '9', ')'] := by decide

/-! ## 3. What is written is read -/

/-- **Escapes make every group expressible.** A group whose terms can be asked for, and whose values
are predicates, is read back from what is written as the tree of its terms. -/
theorem read_writeGroup (allowed : List Text) (kind : Connective) {xs : List Term} (hne : xs ≠ [])
    (hask : ∀ x ∈ xs, x.Askable allowed) (hread : ∀ x ∈ xs, x.Readable) :
    ∃ f, tree? kind xs = some f ∧ read allowed kind (writeGroup xs) = .ok f := by
  obtain ⟨f, hf⟩ := exists_tree?_iff.mpr hread
  exact ⟨f, hf, read_of_derives (derives_writeGroup hne hask) hf⟩

/-- A field name with every character that a name escapes, and one that is not ASCII. -/
def stops : Text := ['ß', '=', '|', '(', ')', '%', '2', '9']

/-- Fields that are not in ASCII. -/
def kanji : Text := ['日', '本']

/-- A field that comes back behind a group, the same fields again inside of it, and values that look
like escapes. -/
def awkward : List Term := [
  .field stops ['1', '.', '.', '5'],
  .group .not [
    .field kanji ['~', '5', '0', '%', '|', ')'],
    .group .or [.field stops ['%', '7', 'C', '('], .field kanji []],
    .field kanji ['é', '%', 'C', '3']],
  .field stops ['!', '7']]

/-- `awkward` can be asked for and holds predicates, so it is read back, here under a negation. -/
theorem read_writeGroup_awkward :
    awkward ≠ [] ∧ (∀ x ∈ awkward, x.Askable [stops, kanji]) ∧ (∀ x ∈ awkward, x.Readable) ∧
      ∃ f, tree? .not awkward = some f ∧
        read [stops, kanji] .not (writeGroup awkward) = .ok f := by
  have hstops : IsField [stops, kanji] stops :=
    ⟨by decide, by decide, fun kind => by cases kind <;> decide⟩
  have hkanji : IsField [stops, kanji] kanji :=
    ⟨by decide, by decide, fun kind => by cases kind <;> decide⟩
  have hne : awkward ≠ [] := by simp [awkward]
  have hask : ∀ x ∈ awkward, x.Askable [stops, kanji] := by
    have hinner : Term.Askable [stops, kanji]
        (.group .or [.field stops ['%', '7', 'C', '('], .field kanji []]) :=
      .group (by simp) (by simp [Term.Askable.field hstops, Term.Askable.field hkanji])
    simp only [awkward, List.forall_mem_cons]
    exact ⟨.field hstops, .group (by simp) (by simp [Term.Askable.field hkanji, hinner]),
      .field hstops, by simp⟩
  have hread : ∀ x ∈ awkward, x.Readable := (@exists_tree?_iff .not awkward).mp ⟨_, rfl⟩
  exact ⟨hne, hask, hread, read_writeGroup [stops, kanji] .not hne hask hread⟩

end Group
end TableService
