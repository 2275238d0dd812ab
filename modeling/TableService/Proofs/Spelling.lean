import TableService.Filter.Sigil

/-!
# Spelling undoes reading

`Predicate.read` tries its rules in order, and their fronts overlap: `!` begins seven forms, `@>`
is also an `@`, `>=` also a `>`, and the two separators may stand in one text. None of this can
lose anything, because **each rule takes the text apart without changing it**: it removes a sign
that the predicate remembers, cuts at a separator that it does not keep, and stores every token as
it was written. So

> whatever is read is spelled as **exactly the text it was read from**.

Each reader has one lemma that says when it succeeds and with what (`…_eq_ok`). They do not
mention the field, which only messages show; so a spelling reads alike under every field.
-/

namespace TableService

/-! ## 1. When the readers succeed -/

namespace Operand

/-- The tokens are kept in their order. -/
theorem tokens_of_readAll : ∀ {ts : List Text} {xs : List Operand},
    readAll ts = .ok xs → xs.map token = ts
  | [], xs, h => by
    cases h
    rfl
  | t :: ts, xs, h => by
    rw [readAll] at h
    split at h
    · cases h
    · next x hx =>
      split at h
      · cases h
      · next ys hys =>
        cases h
        rw [List.map_cons, token_of_read hx, tokens_of_readAll hys]

end Operand

namespace Predicate

theorem readEquality_eq_ok {r : Relation} {token : Text} {p : Predicate} :
    readEquality r token = .ok p ↔ ∃ x, Operand.read token = .ok x ∧ .compare r x = p := by
  unfold readEquality
  cases Operand.read token with
  | error e => simp
  | ok x => simp

theorem readComparison_eq_ok {r : Relation} {field : Option Text} {token : Text} {p : Predicate} :
    readComparison r field token = .ok p ↔
      token ≠ [] ∧ ∃ x, Operand.read token = .ok x ∧ x.isOrdered = true ∧ .compare r x = p := by
  unfold readComparison
  by_cases ht : token = []
  · simp [ht]
  · rw [if_neg ht]
    cases Operand.read token with
    | error e => simp
    | ok x =>
      by_cases ho : x.isOrdered = true
      · simp [ho, ht]
      · simp [ho]

theorem readRange_eq_ok {negated : Bool} {field : Option Text} {raw body : Text} {p : Predicate} :
    readRange negated field raw body = .ok p ↔
      ∃ low high x y, Text.piecesAtPair '.' '.' body = [low, high] ∧ low ≠ [] ∧ high ≠ [] ∧
        Operand.read low = .ok x ∧ Operand.read high = .ok y ∧ x.kind = y.kind ∧
        .between negated x y = p := by
  constructor
  · intro h
    unfold readRange at h
    split at h
    · next low high hcut =>
      split at h
      · cases h
      · next hne =>
        obtain ⟨hlow, hhigh⟩ := not_or.mp hne
        split at h
        · cases h
        · next x hx =>
          split at h
          · cases h
          · next y hy =>
            split at h
            · next hk =>
              cases h
              exact ⟨low, high, x, y, hcut, hlow, hhigh, hx, hy, hk, rfl⟩
            · cases h
    · cases h
  · rintro ⟨low, high, x, y, hcut, hlow, hhigh, hx, hy, hk, rfl⟩
    unfold readRange
    rw [hcut]
    simp only [hlow, hhigh, or_self, if_false, hx, hy, hk, if_true]

theorem readListTest_eq_ok {test : List Operand → Predicate} {field : Option Text} {body : Text}
    {p : Predicate} :
    readListTest test field body = .ok p ↔
      ∃ xs, Operand.readAll (Text.pieces ',' body) = .ok xs ∧ (Operand.kinds xs).length ≤ 1 ∧
        test xs = p := by
  unfold readListTest Operand.readList
  cases Operand.readAll (Text.pieces ',' body) with
  | error e => simp
  | ok xs =>
    by_cases hk : (Operand.kinds xs).length ≤ 1
    · simp [hk, Nat.not_lt.mpr hk]
    · simp [hk, Nat.lt_of_not_le hk]

/-! ## 2. The field does not matter -/

theorem readForm_congr {f g : Option Text} {raw : Text} {p : Predicate} :
    readForm f raw = .ok p ↔ readForm g raw = .ok p := by
  unfold readForm
  split
  · split <;> simp only [readRange_eq_ok]
  · split
    · unfold readCommaForm
      split <;> simp only [readListTest_eq_ok]
    · exact Iff.rfl

/-- A text is read as the same predicate under every field. -/
theorem read_congr {f g : Option Text} {raw : Text} {p : Predicate} :
    read f raw = .ok p ↔ read g raw = .ok p := by
  unfold read
  split
  · exact Iff.rfl
  · split
    · exact Iff.rfl
    · split
      · exact Iff.rfl
      · split
        all_goals first | exact readForm_congr | simp only [readComparison_eq_ok]

/-! ## 3. What is spelled

One lemma for each reader: the spelling is the sign in front of what the reader was given. -/

theorem spell_of_readEquality {r : Relation} {token : Text} {p : Predicate}
    (h : readEquality r token = .ok p) : p.spell = sign r ++ token := by
  obtain ⟨x, hx, rfl⟩ := readEquality_eq_ok.mp h
  rw [spell, Operand.token_of_read hx]

theorem spell_of_readComparison {r : Relation} {field : Option Text} {token : Text} {p : Predicate}
    (h : readComparison r field token = .ok p) : p.spell = sign r ++ token := by
  obtain ⟨-, x, hx, -, rfl⟩ := readComparison_eq_ok.mp h
  rw [spell, Operand.token_of_read hx]

theorem spell_of_readRange {negated : Bool} {field : Option Text} {raw body : Text} {p : Predicate}
    (h : readRange negated field raw body = .ok p) :
    p.spell = (if negated then ['!'] else []) ++ body := by
  obtain ⟨low, high, x, y, hcut, -, -, hx, hy, -, rfl⟩ := readRange_eq_ok.mp h
  rw [spell, Operand.token_of_read hx, Operand.token_of_read hy, ← hcut, Text.join_piecesAtPair]

/-- A list test, for any way to spell one that puts a sign in front of the joined tokens. -/
theorem spell_of_readListTest {test : List Operand → Predicate} {field : Option Text}
    {body front : Text} {p : Predicate}
    (htest : ∀ xs, (test xs).spell = front ++ Text.join [','] (xs.map Operand.token))
    (h : readListTest test field body = .ok p) : p.spell = front ++ body := by
  obtain ⟨xs, hxs, -, rfl⟩ := readListTest_eq_ok.mp h
  rw [htest, Operand.tokens_of_readAll hxs, Text.join_pieces]

theorem spell_of_readCommaForm {field : Option Text} {raw : Text} {p : Predicate}
    (h : readCommaForm field raw = .ok p) : p.spell = raw := by
  unfold readCommaForm at h
  split at h
  -- The same lemma four times: only the sign in front and the test differ.
  · exact spell_of_readListTest (fun _ => rfl) h
  · exact spell_of_readListTest (fun _ => rfl) h
  · exact spell_of_readListTest (fun _ => rfl) h
  · exact spell_of_readListTest (fun _ => rfl) h

theorem spell_of_readPlain {raw : Text} {p : Predicate} (h : readPlain raw = .ok p) :
    p.spell = raw := by
  unfold readPlain at h
  split at h
  -- Four patterns, whose operand is the rest of the text as it stands, then the two equalities.
  case h_5 => exact spell_of_readEquality h
  case h_6 => exact spell_of_readEquality h
  all_goals
    cases h
    rfl

theorem spell_of_readForm {field : Option Text} {raw : Text} {p : Predicate}
    (h : readForm field raw = .ok p) : p.spell = raw := by
  unfold readForm at h
  split at h
  · split at h
    · exact spell_of_readRange h
    · exact spell_of_readRange h
  · split at h
    · exact spell_of_readCommaForm h
    · exact spell_of_readPlain h

/-- **Whatever is read is spelled as the text it was read from.** -/
theorem spell_of_read {field : Option Text} {raw : Text} {p : Predicate}
    (h : read field raw = .ok p) : p.spell = raw := by
  unfold read at h
  split at h
  · next hraw =>
    cases h
    exact hraw.symm
  · split at h
    · next hraw =>
      cases h
      exact hraw.symm
    · split at h
      · exact spell_of_readEquality h
      · split at h
        · exact spell_of_readComparison h
        · exact spell_of_readComparison h
        · exact spell_of_readComparison h
        · exact spell_of_readComparison h
        · exact spell_of_readForm h

/-- **The spelling loses nothing.** A predicate that was read is spelled as the text it was read
from, this spelling is read as the predicate again, and no other text is. -/
theorem spell_roundTrip {field : Option Text} {raw : Text} {p : Predicate}
    (h : read field raw = .ok p) :
    p.spell = raw ∧ (∀ g, read g p.spell = .ok p) ∧
      ∀ g other, read g other = .ok p → other = raw := by
  have hraw : p.spell = raw := spell_of_read h
  refine ⟨hraw, fun g => ?_, fun g other hother => ?_⟩
  · rw [hraw]
    exact read_congr.mp h
  · rw [← hraw]
    exact (spell_of_read hother).symm

/-- A comma makes a list of what would else be a pattern: `!~*a,b` excludes `~*a` and `b`. -/
theorem spell_roundTrip_list :
    ∃ p, read none ['!', '~', '*', 'a', ',', 'b'] = .ok p ∧
      p.spell = ['!', '~', '*', 'a', ',', 'b'] ∧ (∀ g, read g p.spell = .ok p) ∧
      ∀ g other, read g other = .ok p → other = ['!', '~', '*', 'a', ',', 'b'] :=
  ⟨.among true [⟨.text ['~', '*', 'a'], ['~', '*', 'a']⟩, ⟨.text ['b'], ['b']⟩], rfl,
    @spell_roundTrip none _ _ rfl⟩

end Predicate
end TableService
