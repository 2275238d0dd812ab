import TableService.Proofs.StatementParameters

/-!
# The placeholders of a statement

A driver finds the placeholders in the text of a statement and fills them with the parameters one
by one. So parameters keep their places only if

> the text of a statement has **as many placeholders as there are parameters**,

whatever the names of the table and its columns are. Placeholders are counted here in the text
itself: a `?` outside of double quotes in one dialect, a `%s` in the other, where `%%` stands for a
`%`. What is neither is *inert*, and printed text that is no slot is inert for two reasons: the
words of the language have no such character, and a name that has one is quoted, with its quotes
doubled and, where it matters, its `%` too.

The last section puts the text, the parameters and the placeholders together.
-/

namespace TableService

open Sql

/-! ## 1. Placeholders in a text -/

namespace Sql

/-- The question marks outside of double quotes; `quoted` says whether the text begins inside. -/
def questionMarks (quoted : Bool) : Text → Nat
  | [] => 0
  | c :: r =>
    if c = '"' then questionMarks (!quoted) r
    else (if c = '?' ∧ quoted = false then 1 else 0) + questionMarks quoted r

/-- The occurrences of `%s`, where `%%` stands for a `%`. -/
def percentMarks : Text → Nat
  | '%' :: c :: r => (if c = 's' then 1 else 0) + percentMarks r
  | _ :: r => percentMarks r
  | [] => 0

/-- How many placeholders a driver finds in the text of a statement. -/
def Dialect.placeholders (d : Dialect) (t : Text) : Nat :=
  match d with
  | .postgresql => percentMarks t
  | .sqlite => questionMarks false t

/-- Whether a text has no placeholder in it and leaves open none, whatever follows. -/
def Inert (d : Dialect) (t : Text) : Prop := ∀ r, d.placeholders (t ++ r) = d.placeholders r

theorem Inert.append {d : Dialect} {s t : Text} (hs : Inert d s) (ht : Inert d t) :
    Inert d (s ++ t) := fun r => by rw [List.append_assoc, hs, ht]

/-- Whether a character is neither a quote nor a part of a placeholder. -/
def isIdle (c : Char) : Bool := c != '"' && c != '?' && c != '%'

theorem percentMarks_cons {c : Char} (h : c ≠ '%') (r : Text) :
    percentMarks (c :: r) = percentMarks r := by
  rw [percentMarks]
  rintro _ _ rfl
  exact absurd rfl h

theorem inert_of_all_isIdle (d : Dialect) {t : Text} (h : t.all isIdle = true) : Inert d t := by
  intro r
  induction t with
  | nil => rfl
  | cons c t ih =>
    rw [List.all_cons, Bool.and_eq_true] at h
    obtain ⟨hc, ht⟩ := h
    simp only [isIdle, Bool.and_eq_true, bne_iff_ne] at hc
    have ih := ih ht
    cases d with
    | postgresql => exact (percentMarks_cons hc.2 _).trans ih
    | sqlite =>
      show questionMarks false (c :: (t ++ r)) = _
      rw [questionMarks, if_neg hc.1.1, if_neg (fun hq => hc.1.2 hq.1), Nat.zero_add]
      exact ih

/-- Inside of quotes a name is read to its end, since its own quotes are doubled. -/
theorem questionMarks_quoted (name r : Text) :
    questionMarks true (Text.replaceChar '"' ['"', '"'] name ++ '"' :: r)
      = questionMarks false r := by
  induction name with
  | nil => rfl
  | cons c name ih =>
    unfold Text.replaceChar at ih ⊢
    rw [List.flatMap_cons]
    by_cases hc : c = '"'
    · rw [if_pos hc]
      exact ih
    · rw [if_neg hc, List.singleton_append, List.cons_append, questionMarks, if_neg hc,
        if_neg (by simp), Nat.zero_add]
      exact ih

/-- A name whose `%` are doubled has no placeholder, with its quotes doubled as without. -/
theorem percentMarks_replaceChar (name r : Text) :
    percentMarks (Text.replaceChar '"' ['"', '"'] (Text.replaceChar '%' ['%', '%'] name) ++ r)
      = percentMarks r := by
  induction name with
  | nil => rfl
  | cons c name ih =>
    unfold Text.replaceChar at ih ⊢
    rw [List.flatMap_cons, List.flatMap_append, List.append_assoc]
    by_cases hpercent : c = '%'
    · rw [if_pos hpercent]
      refine Eq.trans ?_ ih
      show percentMarks ('%' :: '%' :: _) = _
      rw [percentMarks, if_neg (by decide), Nat.zero_add]
      rfl
    · rw [if_neg hpercent, List.flatMap_singleton]
      by_cases hquote : c = '"'
      · rw [if_pos hquote]
        refine Eq.trans ?_ ih
        show percentMarks ('"' :: '"' :: _) = _
        rw [percentMarks_cons (by decide), percentMarks_cons (by decide)]
        rfl
      · rw [if_neg hquote]
        exact (percentMarks_cons hpercent _).trans ih

theorem isIdle_of_isPlain {c : Char} (h : isPlain c = true) : isIdle c = true := by
  rcases eq_or_ne c '"' with rfl | hquote
  · exact absurd h (by decide)
  · rcases eq_or_ne c '?' with rfl | hmark
    · exact absurd h (by decide)
    · rcases eq_or_ne c '%' with rfl | hpercent
      · exact absurd h (by decide)
      · simp [isIdle, hquote, hmark, hpercent]

theorem all_isIdle_of_not_needsQuotes {d : Dialect} {name : Text}
    (h : needsQuotes d name = false) : name.all isIdle = true := by
  have hplain : name.all isPlain = true := by
    unfold needsQuotes at h
    split at h
    · cases h
    · simp only [Bool.or_eq_false_iff, Bool.not_eq_false'] at h
      exact h.1.1.2
  rw [List.all_eq_true] at hplain ⊢
  exact fun c hc => isIdle_of_isPlain (hplain c hc)

/-- **No identifier has a placeholder in it**: the characters of one need quotes, and inside of
quotes they are none, or are doubled. -/
theorem inert_identifier (d : Dialect) (name : Text) : Inert d (identifier d name) := by
  intro r
  unfold identifier
  cases hquotes : needsQuotes d name with
  | false =>
    have hidle := all_isIdle_of_not_needsQuotes hquotes
    have hpercent : '%' ∉ name := fun hmem =>
      absurd (List.all_eq_true.mp hidle _ hmem) (by decide)
    rw [Text.replaceChar_of_not_mem hpercent, ite_self]
    exact inert_of_all_isIdle d hidle r
  | true =>
    cases d with
    | sqlite =>
      show questionMarks false ('"' :: (Text.replaceChar '"' ['"', '"'] name ++ ['"'] ++ r)) = _
      rw [questionMarks, if_pos rfl, List.append_assoc]
      exact questionMarks_quoted name r
    | postgresql =>
      show percentMarks ('"' :: (Text.replaceChar '"' ['"', '"']
        (Text.replaceChar '%' ['%', '%'] name) ++ ['"'] ++ r)) = _
      rw [percentMarks_cons (by decide), List.append_assoc, percentMarks_replaceChar]
      exact percentMarks_cons (by decide) r

/-! ## 2. Printed pieces -/

/-- Whether the text of pieces has a placeholder for each of their parameters and no other. -/
def Tallies (d : Dialect) (ps : List Piece) : Prop :=
  ∀ r, d.placeholders (textOf d ps ++ r) = (parametersOf ps).length + d.placeholders r

theorem Tallies.nil (d : Dialect) : Tallies d [] := fun _ => (Nat.zero_add _).symm

theorem Tallies.append {d : Dialect} {ps qs : List Piece} (hp : Tallies d ps)
    (hq : Tallies d qs) : Tallies d (ps ++ qs) := by
  intro r
  have htext : textOf d (ps ++ qs) = textOf d ps ++ textOf d qs := List.flatMap_append
  rw [htext, List.append_assoc, hp, hq, parametersOf_append, List.length_append, Nat.add_assoc]

theorem tallies_words {d : Dialect} {t : Text} (h : Inert d t) : Tallies d [.words t] := by
  intro r
  show d.placeholders ((t ++ []) ++ r) = 0 + _
  rw [List.append_nil, h, Nat.zero_add]

theorem tallies_w (d : Dialect) {s : String} (h : s.toList.all isIdle = true) : Tallies d (w s) :=
  tallies_words (inert_of_all_isIdle d h)

theorem tallies_truth (d : Dialect) (b : Bool) : Tallies d [.truth b] := by
  intro r
  have hidle : Inert d (constantText d b) :=
    inert_of_all_isIdle d (by cases d <;> cases b <;> decide)
  show d.placeholders ((constantText d b ++ []) ++ r) = 0 + _
  rw [List.append_nil, hidle, Nat.zero_add]

theorem tallies_slot (d : Dialect) (x : Literal) : Tallies d [.slot x] := by
  intro r
  cases d <;> rfl

theorem tallies_separated {d : Dialect} {sep : String} (hsep : sep.toList.all isIdle = true) :
    ∀ {pss : List (List Piece)}, (∀ ps ∈ pss, Tallies d ps) → Tallies d (separated sep pss)
  | [], _ => Tallies.nil d
  | [ps], h => h ps (List.mem_singleton_self ps)
  | ps :: qs :: pss, h => by
    rw [separated]
    refine ((h ps List.mem_cons_self).append (tallies_w d hsep)).append ?_
    exact tallies_separated hsep fun rs hrs => h rs (List.mem_cons_of_mem ps hrs)

theorem tallies_slots (d : Dialect) (xs : List Literal) : Tallies d (slots xs) := by
  refine tallies_separated (by decide) fun ps hps => ?_
  obtain ⟨x, -, rfl⟩ := List.mem_map.mp hps
  exact tallies_slot d x

theorem tallies_arraySlots (d : Dialect) (xs : List Literal) : Tallies d (arraySlots xs) := by
  refine tallies_separated (by decide) fun ps hps => ?_
  obtain ⟨x, -, rfl⟩ := List.mem_map.mp hps
  split
  · exact tallies_w d (by decide)
  · exact tallies_slot d x

theorem tallies_columnPieces (d : Dialect) (table : Table) (c : Column) :
    Tallies d (columnPieces d table c) := by
  refine tallies_words ((inert_identifier d table.name).append ?_)
  have hpoint : Inert d ['.'] := inert_of_all_isIdle d (by decide)
  exact hpoint.append (inert_identifier d c.name)

theorem tallies_testPieces {d : Dialect} {x : List Piece} (hx : Tallies d x) (t : Test) :
    Tallies d (testPieces d x t) := by
  cases t with
  | isNull negated => cases negated <;> exact hx.append (tallies_w d (by decide))
  | compare r l =>
    exact (hx.append (tallies_w d (by cases r <;> decide))).append (tallies_slot d l)
  | equalsConstant negated b =>
    exact (hx.append (tallies_w d (by cases negated <;> decide))).append (tallies_truth d b)
  | among negated ls =>
    cases negated with
    | false =>
      exact ((hx.append (tallies_w d (by decide))).append (tallies_slots d ls)).append
        (tallies_w d (by decide))
    | true =>
      exact ((((tallies_w d (by decide)).append hx).append (tallies_w d (by decide))).append
        (tallies_slots d ls)).append (tallies_w d (by decide))
  | between negated low high =>
    cases negated <;>
      exact (((hx.append (tallies_w d (by decide))).append (tallies_slot d low)).append
        (tallies_w d (by decide))).append (tallies_slot d high)
  | like caseless negated l =>
    cases caseless with
    | false =>
      cases negated <;> exact (hx.append (tallies_w d (by decide))).append (tallies_slot d l)
    | true =>
      cases d with
      | postgresql =>
        exact (hx.append (tallies_w _ (by cases negated <;> decide))).append (tallies_slot _ l)
      | sqlite =>
        exact ((((tallies_w _ (by decide)).append hx).append
          (tallies_w _ (by cases negated <;> decide))).append (tallies_slot _ l)).append
          (tallies_w _ (by decide))
  | array t ls =>
    exact ((hx.append (tallies_w d (by cases t <;> decide))).append
      (tallies_arraySlots d ls)).append (tallies_w d (by decide))

namespace Condition

mutual

theorem tallies_barePieces (d : Dialect) (table : Table) :
    ∀ c : Condition, Tallies d (barePieces d table c)
  | .test c t => tallies_testPieces (tallies_columnPieces d table c) t
  | .all parts => tallies_separated (by decide) (tallies_operands d table .conjunct parts)
  | .any parts => tallies_separated (by decide) (tallies_operands d table .disjunct parts)
  | .not part =>
    ((tallies_w d (by decide)).append (tallies_barePieces d table part)).append
      (tallies_w d (by decide))

theorem tallies_operands (d : Dialect) (table : Table) (p : Position) :
    ∀ cs : List Condition, ∀ ps ∈ operands d table p cs, Tallies d ps
  | [], _, h => absurd h List.not_mem_nil
  | c :: cs, ps, h => by
    rw [operands, List.mem_cons] at h
    rcases h with rfl | h
    · have hbare := tallies_barePieces d table c
      cases needsParens p c with
      | false => exact hbare
      | true => exact ((tallies_w d (by decide)).append hbare).append (tallies_w d (by decide))
    · exact tallies_operands d table p cs ps h

end

/-- **A printed condition has one placeholder for each parameter.** -/
theorem placeholders_text (d : Dialect) (table : Table) (c : Condition) :
    d.placeholders (textOf d (conditionPieces d table c))
      = (parametersOf (conditionPieces d table c)).length := by
  have h := tallies_barePieces d table c []
  rw [List.append_nil] at h
  cases d <;> exact h

end Condition

end Sql

/-! ## 3. Requests and statements -/

namespace Filter

/-- **Nothing a request sends gets into the text of a statement, and every parameter keeps its
place.** Filters of one shape are printed as one text, or are the same error. Of a filter whose
columns the table has, every predicate may have a test, and then the filter becomes a condition
whose text has a placeholder for each parameter, the parameters being what the leaves of the filter
send, in their order. If a predicate has none, there is neither text nor parameter, but an error. -/
theorem text_and_parameters (table : Table) (d : Sql.Dialect) :
    (∀ f g : Filter, f.SameShape g → f.text? d table = g.text? d table) ∧
      ∀ f : Filter, f.Fits table →
        (f.IsTestable table → ∃ c, Sql.compile table f = .ok c ∧
          d.placeholders (textOf d (conditionPieces d table c))
            = (parametersOf (conditionPieces d table c)).length ∧
          parametersOf (conditionPieces d table c) = f.sent table) ∧
        (¬ f.IsTestable table → Sql.compile table f = .error .incomparable) := by
  refine ⟨fun f g h => text?_eq_of_sameShape d table h, fun f h => ?_⟩
  obtain ⟨hok, herror⟩ := compile_testable f h
  refine ⟨fun htestable => ?_, herror⟩
  obtain ⟨c, hc⟩ := hok htestable
  refine ⟨c, hc, Condition.placeholders_text d table c, ?_⟩
  have hparameters : parametersOf (conditionPieces d table c) = c.literals :=
    Condition.parametersOf_barePieces d table c
  rw [hparameters, literals_of_compile f hc]

/-- A table whose names are full of quotes and signs of placeholders. -/
def riddle : Table where
  name := ['?']
  columns := [
    ⟨['%', 's'], .integer, false, true, none, none, none, false⟩,
    ⟨['"', '?'], .text, false, true, none, none, none, false⟩,
    ⟨['x', 's'], .integers, false, true, none, none, none, false⟩]

/-- A negated disjunction with a range to flip, a group of one part and an array with a null. -/
def sieve (n : Int) (token : Text) : Filter :=
  .not (.any [
    .test ['%', 's'] (.between false ⟨.integer n, token⟩ ⟨.integer 7, ['7']⟩),
    .all [.test ['"', '?'] (.compare .eq ⟨.boolean true, ['T', 'R', 'U', 'E']⟩)],
    .test ['x', 's'] (.array .contains [⟨.null, ['n', 'u', 'l', 'l']⟩, ⟨.integer n, token⟩])])

theorem text_and_parameters_sieve :
    ((sieve 1 ['1']).SameShape (sieve 2 ['2', '?']) ∧ (sieve 1 ['1']).Fits riddle ∧
        (sieve 1 ['1']).IsTestable riddle) ∧
      (sieve 1 ['1']).text? .sqlite riddle = (sieve 2 ['2', '?']).text? .sqlite riddle ∧
      ∃ c, Sql.compile riddle (sieve 1 ['1']) = .ok c ∧
        Dialect.postgresql.placeholders (textOf .postgresql (conditionPieces .postgresql riddle c))
          = (parametersOf (conditionPieces .postgresql riddle c)).length ∧
        parametersOf (conditionPieces .postgresql riddle c)
          = [.integer 1, .integer 7, .text ['T', 'R', 'U', 'E'], .integer 1] := by
  have hshape : (sieve 1 ['1']).SameShape (sieve 2 ['2', '?']) :=
    ⟨⟨rfl, .between false ⟨rfl, rfl⟩ ⟨rfl, rfl⟩⟩, ⟨⟨rfl, .compare .eq ⟨rfl, rfl⟩⟩, trivial⟩,
      ⟨rfl, .array .contains (.cons ⟨rfl, rfl⟩ (.cons ⟨rfl, rfl⟩ .nil))⟩, trivial⟩
  have hfits : (sieve 1 ['1']).Fits riddle := by decide
  have htestable : (sieve 1 ['1']).IsTestable riddle := by decide
  exact ⟨⟨hshape, hfits, htestable⟩, (text_and_parameters riddle .sqlite).1 _ _ hshape,
    ((text_and_parameters riddle .postgresql).2 _ hfits).1 htestable⟩

end Filter
end TableService
