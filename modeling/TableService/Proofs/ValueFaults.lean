import TableService.Problem
import TableService.Filter.Sigil

/-!
# What is wrong with a value

The value of a field is refused for one of two reasons. It is no predicate, which is told of the
field it was sent for; or one of the tokens in it is **an integer of more digits than an integer may
have**, and then nothing is told of the value at all: reading a number is not the business of the
query language.

Both are followed from the reader of tokens upwards. A reader that reads several tokens fails where
the first of them does, and each token that it reads is an operand of the value: what is left of it
behind a sign, or a piece of that between separators.
-/

namespace TableService

/-! ## 1. What a refusal tells -/

/-- Whether a fault is told as a problem of a query, of a field and of a place in a group. -/
def QueryFault.IsTold (e : QueryFault) (name : Text) (place : Option Nat) : Prop :=
  ∃ family, e.problem = .query family e.wording (some name) (place.map Int.ofNat) none

theorem QueryFault.isTold_of_refusal {e : QueryFault} {name : Text} (hrefusal : e.isRefusal = true)
    (hfield : e.field = some name) : e.IsTold name e.position := by
  unfold IsTold problem
  rw [hfield]
  cases hfamily : e.family <;> simp [isRefusal, hfamily] at hrefusal ⊢

/-! ## 2. Oversized tokens -/

/-- Whether a token, white space around it aside, is an integer of too many digits. -/
def Text.IsOversized (token : Text) : Prop :=
  ∃ sign digits, strip token = sign ++ digits ∧ sign ∈ [[], ['+'], ['-']] ∧
    (∀ c ∈ digits, isDigit c = true) ∧ maxIntegerDigits < digits.length

namespace NumberLiteral

theorem exists_sign (t : Text) : ∃ sign ∈ [[], ['+'], ['-']], t = sign ++ (takeSign t).2 := by
  unfold takeSign
  split
  · exact ⟨['-'], by simp, rfl⟩
  · exact ⟨['+'], by simp, rfl⟩
  · exact ⟨[], by simp, rfl⟩

/-- The digits that are taken stand in front of the rest, one for each value. -/
theorem exists_digits : ∀ t : Text, ∃ digits, t = digits ++ (takeDigits t).2 ∧
    (∀ c ∈ digits, Text.isDigit c = true) ∧ digits.length = (takeDigits t).1.length
  | [] => ⟨[], rfl, by simp, rfl⟩
  | c :: t => by
    rw [takeDigits]
    cases hc : Text.digitValue? c with
    | none => exact ⟨[], rfl, by simp, rfl⟩
    | some d =>
      obtain ⟨digits, ht, hdigits, hlength⟩ := exists_digits t
      refine ⟨c :: digits, ?_, ?_, ?_⟩
      · exact congrArg (c :: ·) ht
      · exact List.forall_mem_cons.mpr ⟨by simp [Text.isDigit, hc], hdigits⟩
      · simp [hlength]

theorem eq_nil_of_readExponent? {t : Text} (h : readExponent? t = some none) : t = [] := by
  unfold readExponent? at h
  split at h
  · rfl
  · split at h
    · simp only at h
      split at h <;> simp at h
    · simp at h

/-- An integer is its sign and its digits. -/
theorem exists_of_isInteger {t : Text} {x : NumberLiteral} (h : read? t = some x)
    (hint : x.isInteger = true) :
    ∃ sign digits, t = sign ++ digits ∧ sign ∈ [[], ['+'], ['-']] ∧
      (∀ c ∈ digits, Text.isDigit c = true) ∧ digits.length = x.whole.length := by
  obtain ⟨sign, hsign, ht⟩ := exists_sign t
  obtain ⟨digits, hr, hdigits, hlength⟩ := exists_digits (takeSign t).2
  unfold read? at h
  dsimp only at h
  simp only [isInteger, Bool.and_eq_true, Option.isNone_iff_eq_none] at hint
  split at h
  -- With a point it is no integer, whatever follows.
  · next hpoint =>
    split at h
    · cases h
    · obtain ⟨e, -, rfl⟩ := Option.map_eq_some_iff.mp h
      exact absurd hint.1 (by simp)
  · split at h
    · cases h
    · obtain ⟨e, he, rfl⟩ := Option.map_eq_some_iff.mp h
      obtain rfl : e = none := hint.2
      have hrest := eq_nil_of_readExponent? he
      rw [hrest, List.append_nil] at hr
      exact ⟨sign, digits, hr ▸ ht, hsign, hdigits, hlength⟩

end NumberLiteral

namespace Operand

/-- **A token that cannot be read is oversized.** -/
theorem isOversized_of_read {token : Text} {e : Oversized} (h : read token = .error e) :
    token.IsOversized := by
  have hliteral : literalOf token = .error e := by
    unfold read at h
    split at h
    · next e' he =>
      cases h
      exact he
    · cases h
  have hnumber : number? token = .error e := by
    unfold literalOf at hliteral
    split at hliteral
    · cases hliteral
    · split at hliteral
      · next e' he =>
        cases hliteral
        exact he
      · cases hliteral
      · cases hliteral
  unfold number? at hnumber
  split at hnumber
  · cases hnumber
  · next x hx =>
    split at hnumber
    · next hint =>
      split at hnumber
      · next hlong =>
        obtain ⟨sign, digits, ht, hsign, hdigits, hlength⟩ :=
          NumberLiteral.exists_of_isInteger hx hint
        exact ⟨sign, digits, ht, hsign, hdigits, hlength ▸ hlong⟩
      · cases hnumber
    · cases hnumber

theorem exists_of_readAll : ∀ {ts : List Text} {e : Oversized}, readAll ts = .error e →
    ∃ t ∈ ts, t.IsOversized
  | [], _, h => by
    cases h
  | t :: ts, e, h => by
    rw [readAll] at h
    split at h
    · next ht => exact ⟨t, List.mem_cons_self, isOversized_of_read ht⟩
    · split at h
      · next hts =>
        obtain ⟨u, hu, hover⟩ := exists_of_readAll hts
        exact ⟨u, List.mem_cons_of_mem _ hu, hover⟩
      · cases h

end Operand

/-! ## 3. The readers of values -/

namespace Predicate

/-- Whether a token is an operand of a value: what follows a sign of comparison, or one of the
pieces of a range or of a list. -/
inductive HasOperand : Text → Text → Prop where
  | compared (r : Relation) (token : Text) : HasOperand (sign r ++ token) token
  | bound {front body token : Text} (hfront : front ∈ [[], ['!']])
      (h : token ∈ Text.piecesAtPair '.' '.' body) : HasOperand (front ++ body) token
  | member {front body token : Text} (hfront : front ∈ [[], ['!'], ['@'], ['@', '>']])
      (h : token ∈ Text.pieces ',' body) : HasOperand (front ++ body) token

/-- What may be wrong with a value: the field is told, and no place; or an operand is oversized. -/
def IsFault (field : Option Text) (raw : Text) (e : QueryFault) : Prop :=
  (e.isRefusal = true ∧ e.field = field ∧ e.position = none) ∨
    (e = .oversizedInteger ∧ ∃ token, HasOperand raw token ∧ token.IsOversized)

variable {field : Option Text} {raw token : Text} {e : QueryFault}

theorem isFault_of_oversized (hoperand : HasOperand raw token) (h : token.IsOversized)
    (o : Oversized) : IsFault field raw o.fault := by
  cases o
  exact .inr ⟨rfl, token, hoperand, h⟩

theorem isFault_of_readEquality {r : Relation} (h : readEquality r token = .error e) :
    IsFault field (sign r ++ token) e := by
  unfold readEquality at h
  split at h
  · next o ho =>
    cases h
    exact isFault_of_oversized (.compared r token) (Operand.isOversized_of_read ho) o
  · cases h

theorem isFault_of_readComparison {r : Relation} (h : readComparison r field token = .error e) :
    IsFault field (sign r ++ token) e := by
  unfold readComparison at h
  split at h
  · cases h
    exact .inl ⟨rfl, rfl, rfl⟩
  · split at h
    · next o ho =>
      cases h
      exact isFault_of_oversized (.compared r token) (Operand.isOversized_of_read ho) o
    · split at h
      · cases h
      · cases h
        exact .inl ⟨rfl, rfl, rfl⟩

theorem isFault_of_readRange {negated : Bool} (front : Text) {body : Text}
    (hfront : front ∈ [[], ['!']])
    (h : readRange negated field (front ++ body) body = .error e) :
    IsFault field (front ++ body) e := by
  have hoperand : ∀ {token}, token ∈ Text.piecesAtPair '.' '.' body →
      HasOperand (front ++ body) token := .bound hfront
  unfold readRange at h
  split at h
  · next low high hcut =>
    split at h
    · cases h
      exact .inl ⟨rfl, rfl, rfl⟩
    · split at h
      · next o ho =>
        cases h
        exact isFault_of_oversized (hoperand (by simp [hcut])) (Operand.isOversized_of_read ho) o
      · split at h
        · next o ho =>
          cases h
          exact isFault_of_oversized (hoperand (by simp [hcut])) (Operand.isOversized_of_read ho) o
        · split at h
          · cases h
          · cases h
            exact .inl ⟨rfl, rfl, rfl⟩
  · cases h
    exact .inl ⟨rfl, rfl, rfl⟩

theorem isFault_of_readListTest {test : List Operand → Predicate} (front : Text) {body : Text}
    (hfront : front ∈ [[], ['!'], ['@'], ['@', '>']])
    (h : readListTest test field body = .error e) : IsFault field (front ++ body) e := by
  unfold readListTest Operand.readList at h
  split at h
  · next he =>
    obtain rfl := Except.error.inj h
    split at he
    · next o ho =>
      obtain rfl := Except.error.inj he
      obtain ⟨t, ht, hover⟩ := Operand.exists_of_readAll ho
      exact isFault_of_oversized (.member hfront ht) hover o
    · split at he
      · obtain rfl := Except.error.inj he
        exact .inl ⟨rfl, rfl, rfl⟩
      · cases he
  · cases h

theorem isFault_of_readCommaForm (h : readCommaForm field raw = .error e) :
    IsFault field raw e := by
  unfold readCommaForm at h
  split at h
  · exact isFault_of_readListTest ['@', '>'] (by simp) h
  · exact isFault_of_readListTest ['@'] (by simp) h
  · exact isFault_of_readListTest ['!'] (by simp) h
  · exact isFault_of_readListTest [] (by simp) h

theorem isFault_of_readPlain (h : readPlain raw = .error e) : IsFault field raw e := by
  unfold readPlain at h
  split at h
  case h_5 => exact isFault_of_readEquality h
  case h_6 => exact isFault_of_readEquality h
  -- A pattern is always read.
  all_goals cases h

theorem isFault_of_readForm (h : readForm field raw = .error e) : IsFault field raw e := by
  unfold readForm at h
  split at h
  · split at h
    · exact isFault_of_readRange ['!'] (by simp) h
    · exact isFault_of_readRange [] (by simp) h
  · split at h
    · exact isFault_of_readCommaForm h
    · exact isFault_of_readPlain h

/-- **What is wrong with a value that is not read.** -/
theorem isFault_of_read (h : read field raw = .error e) : IsFault field raw e := by
  unfold read at h
  split at h
  · cases h
  · split at h
    · cases h
    · split at h
      · exact isFault_of_readEquality h
      · split at h
        · exact isFault_of_readComparison h
        · exact isFault_of_readComparison h
        · exact isFault_of_readComparison h
        · exact isFault_of_readComparison h
        · exact isFault_of_readForm h

end Predicate

namespace Filter

/-- What is wrong with several values is wrong with one of them. -/
theorem exists_of_readValues {field : Text} : ∀ {raws : List Text} {e : QueryFault},
    readValues field raws = .error e → ∃ raw ∈ raws, Predicate.read (some field) raw = .error e
  | [], _, h => by
    cases h
  | raw :: raws, e, h => by
    rw [readValues] at h
    split at h
    · next e' he =>
      cases h
      exact ⟨raw, List.mem_cons_self, he⟩
    · split at h
      · next e' he =>
        cases h
        obtain ⟨other, hmem, hother⟩ := exists_of_readValues he
        exact ⟨other, List.mem_cons_of_mem _ hmem, hother⟩
      · cases h

/-- What is wrong with the values of a field: one of them, or that there is none. -/
theorem fault_of_ofValues {field : Text} {raws : List Text} {e : QueryFault}
    (h : ofValues field raws = .error e) :
    e = .noValue field ∨ ∃ raw ∈ raws, Predicate.read (some field) raw = .error e := by
  unfold ofValues at h
  split at h
  · next e' he =>
    obtain rfl := Except.error.inj h
    exact .inr (exists_of_readValues he)
  · exact .inl (Except.error.inj h).symm
  · cases h

end Filter
end TableService
