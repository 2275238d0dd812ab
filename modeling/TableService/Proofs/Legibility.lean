import TableService.Proofs.NumberTokens
import TableService.Proofs.FilterFaults

/-!
# Which spellings are read back

A predicate may also be put together by hand, from an operator and operands, and then it is spelled
without having been read. Its spelling is read back as the predicate, as another one, or not at all.
`Predicate.IsLegible` says when it is read back, operator by operator, and

> a text is read as a predicate **exactly if it is the spelling of the predicate and the predicate
> is legible** (`Predicate.read_eq_ok`).

The conditions are of three sorts. An operator takes operands of certain kinds, and the reader
checks them. A token may not hold a separator that would cut the spelling elsewhere. And a token
that stands in front, or right behind the sign of its operator, may not begin with what makes the
sign another one: `!` in front of `~a` is no inequality.
-/

namespace TableService

/-! ## 1. Conditions on tokens -/

namespace Text

/-- Whether a text begins with none of some characters. -/
def Avoids (signs : List Char) (t : Text) : Prop := ∀ c ∈ t.head?, c ∉ signs

theorem avoids_nil (signs : List Char) : Avoids signs [] := fun _ h => nomatch h

variable {signs : List Char} {t : Text}

@[simp] theorem avoids_nothing : Avoids [] t := fun _ _ => List.not_mem_nil

@[simp] theorem avoids_cons {c : Char} :
    Avoids (c :: signs) t ↔ (∀ r, t ≠ c :: r) ∧ Avoids signs t := by
  cases t with
  | nil => simp [Avoids]
  | cons d t =>
    simp only [Avoids, List.head?_cons, Option.mem_def, Option.some.injEq, forall_eq',
      List.mem_cons, not_or, ne_eq, List.cons.injEq, not_and]
    constructor
    · rintro ⟨hc, hsigns⟩
      exact ⟨fun _ heq => absurd heq hc, hsigns⟩
    · rintro ⟨hc, hsigns⟩
      exact ⟨fun heq => hc t heq rfl, hsigns⟩

theorem Avoids.left {r : Text} (h : Avoids signs (t ++ r)) : Avoids signs t := by
  cases t with
  | nil => exact avoids_nil signs
  | cons c t => exact h

theorem Avoids.append_cons {c : Char} (h : Avoids signs t) (hc : c ∉ signs) (r : Text) :
    Avoids signs (t ++ c :: r) := by
  cases t with
  | nil => simpa [Avoids] using hc
  | cons d t => exact h

/-- Whether a text has neither of the separators in it. -/
structure IsUncut (t : Text) : Prop where
  noPair : hasPair '.' '.' t = false
  noComma : ',' ∉ t

theorem isUncut_cons {c : Char} {t : Text} (hpoint : c ≠ '.') (hcomma : c ≠ ',') :
    IsUncut (c :: t) ↔ IsUncut t := by
  have hmem : ',' ∈ c :: t ↔ ',' ∈ t := by simp [Ne.symm hcomma]
  constructor
  · rintro ⟨hpair, hmissing⟩
    exact ⟨by rwa [hasPair_cons_of_ne hpoint] at hpair, mt hmem.mpr hmissing⟩
  · rintro ⟨hpair, hmissing⟩
    exact ⟨by rwa [hasPair_cons_of_ne hpoint], mt hmem.mp hmissing⟩

/-- A character that is no white space stays in front when a text is stripped. -/
theorem exists_strip_cons {c : Char} (h : isBlank c = false) (t : Text) :
    ∃ r, strip (c :: t) = c :: r := by
  obtain ⟨front, back, heq, hfront, hback⟩ := exists_strip (c :: t)
  have hfirst : ∀ {blanks rest : Text}, c :: t = blanks ++ rest →
      (∀ d ∈ blanks, isBlank d = true) → blanks = [] := by
    intro blanks rest hsplit hall
    cases blanks with
    | nil => rfl
    | cons d blanks =>
      obtain ⟨rfl, -⟩ := List.cons.inj hsplit
      have hblank := hall c List.mem_cons_self
      rw [h] at hblank
      cases hblank
  rw [hfirst heq hfront, List.nil_append] at heq
  cases hstrip : strip (c :: t) with
  | nil =>
    rw [hstrip, List.nil_append] at heq
    have hnil := hfirst ((List.append_nil back).symm ▸ heq) hback
    rw [hnil] at heq
    cases heq
  | cons d r =>
    rw [hstrip] at heq
    obtain ⟨rfl, -⟩ := List.cons.inj heq
    exact ⟨r, rfl⟩

end Text

theorem isNumber_cons_of_mem_signs {c : Char} (h : c ∈ signs) (t : Text) :
    isNumber (c :: t) = false :=
  isNumber_of_mem_signs List.mem_cons_self h

namespace Operand

variable {token : Text} {x : Operand}

/-- What a token spells that is none of the words: a number, a date, or itself. -/
theorem literal_of_read (h : read token = .ok x) :
    word? token = some x.literal ∨ number? token = .ok (some x.literal) ∨
      date? token = some x.literal ∨ x = ofText token := by
  unfold read at h
  split at h
  · cases h
  · next l hl =>
    cases h
    unfold literalOf at hl
    split at hl
    · next w hw =>
      cases hl
      exact .inl hw
    · split at hl
      · cases hl
      · next n hn =>
        cases hl
        exact .inr (.inl hn)
      · cases hl
        cases hdate : date? token with
        | none => exact .inr (.inr (.inr rfl))
        | some l => exact .inr (.inr (.inl rfl))

theorem kind_of_word? {l : Literal} (h : word? token = some l) :
    l.kind = .boolean ∨ l.kind = .null := by
  unfold word? at h
  dsimp only at h
  split at h
  · cases h
    exact .inl rfl
  · split at h
    · cases h
      exact .inl rfl
    · split at h
      · cases h
        exact .inr rfl
      · cases h

theorem isNumber_of_number? {l : Literal} (h : number? token = .ok (some l)) :
    isNumber token = true ∧ l.kind ∈ [Kind.number, .bigint] := by
  unfold number? at h
  split at h
  · cases h
  · next n hn =>
    refine ⟨by rw [isNumber, hn]; rfl, ?_⟩
    split at h
    · split at h
      · cases h
      · cases h
        unfold Literal.kind
        dsimp only
        split <;> simp
    · dsimp only at h
      split at h
      · cases h
        simp [Literal.kind]
      · cases h

theorem kind_of_date? {l : Literal} (h : date? token = some l) :
    looksLikeDate (Text.strip token) = true ∧ l.kind = .date := by
  unfold date? at h
  dsimp only at h
  split at h
  · next hlooks =>
    refine ⟨hlooks, ?_⟩
    split at h
    · obtain ⟨d, -, rfl⟩ := Option.map_eq_some_iff.mp h
      rfl
    · obtain ⟨d, -, rfl⟩ := Option.map_eq_some_iff.mp h
      rfl
  · cases h

/-- An operand of the kind of texts is its token. -/
theorem eq_ofText_of_kind (h : read token = .ok x) (hkind : x.kind = .string) :
    x = ofText token := by
  rcases literal_of_read h with hword | hnumber | hdate | htext
  · rcases kind_of_word? hword with hother | hother <;>
      exact absurd (hother.symm.trans hkind) (by decide)
  · have hother := (isNumber_of_number? hnumber).2
    rw [show x.literal.kind = .string from hkind] at hother
    exact absurd hother (by decide)
  · exact absurd ((kind_of_date? hdate).2.symm.trans hkind) (by decide)
  · exact htext

/-- A number or a date does not begin with an equals sign. -/
theorem avoids_of_isOrdered (h : read token = .ok x) (hordered : x.isOrdered = true) :
    token.Avoids ['='] := by
  have hkind : x.literal.kind ∈ [Kind.number, .bigint, .date] := isOrdered_iff.mp hordered
  cases token with
  | nil => exact Text.avoids_nil _
  | cons c t =>
    rw [Text.avoids_cons]
    refine ⟨?_, Text.avoids_nothing⟩
    rintro r ⟨⟩
    rcases literal_of_read h with hword | hnumber | hdate | rfl
    · rcases kind_of_word? hword with hother | hother
      · rw [hother] at hkind
        exact absurd hkind (by decide)
      · rw [hother] at hkind
        exact absurd hkind (by decide)
    · have hnumber := (isNumber_of_number? hnumber).1
      rw [isNumber_cons_of_mem_signs (by decide)] at hnumber
      cases hnumber
    · obtain ⟨r, hr⟩ := Text.exists_strip_cons (c := '=') (by decide) t
      have hlooks := (kind_of_date? hdate).1
      rw [hr] at hlooks
      unfold looksLikeDate at hlooks
      split at hlooks
      · next heq =>
        obtain ⟨rfl, -⟩ := List.cons.inj heq
        exact absurd hlooks (by simp [show Text.isDigit '=' = false by decide])
      · cases hlooks
    · exact absurd hkind (by simp [ofText, Literal.kind])

/-- Operands of one kind have one kind among them. -/
theorem length_kinds_le {xs : List Operand} (h : ∀ x ∈ xs, ∀ y ∈ xs, x.kind = y.kind) :
    (kinds xs).length ≤ 1 := by
  cases xs with
  | nil => simp [kinds]
  | cons x xs =>
    have hothers : (xs.map kind).filter (fun k => !k == x.kind) = [] := by
      rw [List.filter_eq_nil_iff]
      intro k hk
      obtain ⟨y, hy, rfl⟩ := List.mem_map.mp hk
      simp [h y (List.mem_cons_of_mem _ hy) x List.mem_cons_self]
    rw [kinds, List.map_cons, List.eraseDups_cons, hothers]
    simp

/-- Operands that are what their tokens spell are read from them. -/
theorem readAll_tokens {xs : List Operand} (h : ∀ x ∈ xs, read x.token = .ok x) :
    readAll (xs.map Operand.token) = .ok xs := by
  induction xs with
  | nil => rfl
  | cons x xs ih =>
    obtain ⟨hx, hxs⟩ := List.forall_mem_cons.mp h
    rw [List.map_cons, readAll, hx, ih hxs]

end Operand

namespace Predicate

/-! ## 2. Legible predicates -/

/-- Whether the tokens of a list can be told apart in a text, and are of one kind. -/
structure IsListing (xs : List Operand) : Prop where
  several : 2 ≤ xs.length
  sameKind : ∀ x ∈ xs, ∀ y ∈ xs, x.kind = y.kind
  uncut : ∀ x ∈ xs, x.token.IsUncut

/-- Whether two bounds can be told apart in a text, and are of one kind. -/
structure IsRange (low high : Operand) : Prop where
  lowFilled : low.token ≠ []
  highFilled : high.token ≠ []
  sameKind : low.kind = high.kind
  lowUncut : Text.hasPair '.' '.' low.token = false
  lowEnd : low.token.getLast? ≠ some '.'
  highUncut : Text.hasPair '.' '.' high.token = false

/-- Whether the spelling of a predicate is read as the predicate. -/
def IsLegible : Predicate → Prop
  | .null _ => True
  | .compare .eq x => x.token ≠ [] ∧ x.token.Avoids ['<', '>', '!', '~'] ∧ x.token.IsUncut
  | .compare .ne x => x.token ≠ [] ∧ x.token.Avoids ['~'] ∧ x.token.IsUncut
  | .compare _ x => x.kind ∈ [Kind.number, .bigint, .date]
  | .pattern false _ x => x.kind = .string ∧ x.token.Avoids ['*'] ∧ x.token.IsUncut
  | .pattern true _ x => x.kind = .string ∧ x.token.IsUncut
  | .between false low high => IsRange low high ∧ low.token.Avoids ['<', '>', '!']
  | .between true low high => IsRange low high
  | .among false xs => IsListing xs ∧ ∀ x ∈ xs.head?, x.token.Avoids ['<', '>', '!', '@']
  | .among true xs => IsListing xs
  | .array .contains xs => IsListing xs ∧ ∀ x ∈ xs.head?, x.token.Avoids ['>']
  | .array .contained xs => IsListing xs

/-! ## 3. What is read is legible -/

variable {field : Option Text} {raw body : Text} {p : Predicate}

theorem isRange_of_readRange {negated : Bool} (h : readRange negated field raw body = .ok p) :
    ∃ low high, p = .between negated low high ∧ IsRange low high ∧
      body = low.token ++ '.' :: '.' :: high.token := by
  obtain ⟨low, high, x, y, hcut, hlow, hhigh, hx, hy, hkind, rfl⟩ := readRange_eq_ok.mp h
  obtain ⟨hjoin, ⟨hpair, hlast⟩, hpair'⟩ := Text.piecesAtPair_eq_pair.mp hcut
  obtain rfl := Operand.token_of_read hx
  obtain rfl := Operand.token_of_read hy
  refine ⟨x, y, rfl, ⟨hlow, hhigh, hkind, hpair, hlast, hpair'⟩, ?_⟩
  rw [← hjoin, Text.join_cons_cons, List.append_assoc]
  rfl

theorem isListing_of_readListTest {test : List Operand → Predicate} (hcomma : ',' ∈ body)
    (hpair : Text.hasPair '.' '.' body = false) (h : readListTest test field body = .ok p) :
    ∃ xs, p = test xs ∧ IsListing xs ∧
      ∀ signs : List Char, body.Avoids signs → ∀ x ∈ xs.head?, x.token.Avoids signs := by
  obtain ⟨xs, hxs, hkinds, rfl⟩ := readListTest_eq_ok.mp h
  have htokens := Operand.tokens_of_readAll hxs
  have hjoin : Text.join [','] (xs.map Operand.token) = body := by
    rw [htokens, Text.join_pieces]
  refine ⟨xs, rfl, ⟨?_, Operand.kind_eq_of_kinds hkinds, ?_⟩, ?_⟩
  · rw [← List.length_map Operand.token, htokens]
    exact Text.two_le_length_pieces hcomma
  · intro x hx
    have hmem : x.token ∈ xs.map Operand.token := List.mem_map_of_mem hx
    constructor
    · rw [← hjoin, Text.hasPair_join (by decide) (by decide)] at hpair
      exact hpair _ hmem
    · rw [htokens] at hmem
      exact Text.not_mem_of_mem_pieces hmem
  · intro signs havoids x hx
    cases xs with
    | nil => cases hx
    | cons y ys =>
      obtain rfl : y = x := by simpa using hx
      have hbody : ∃ r, body = y.token ++ r := by
        rw [← hjoin, List.map_cons]
        cases ys with
        | nil => exact ⟨[], (List.append_nil _).symm⟩
        | cons z zs => exact ⟨_, List.append_assoc _ _ _⟩
      obtain ⟨r, rfl⟩ := hbody
      exact havoids.left

theorem isLegible_of_readCommaForm (hcomma : ',' ∈ raw)
    (hpair : Text.hasPair '.' '.' raw = false) (hfront : raw.Avoids ['<', '>'])
    (h : readCommaForm field raw = .ok p) : p.IsLegible := by
  unfold readCommaForm at h
  split at h
  · rw [Text.hasPair_cons_of_ne (by decide), Text.hasPair_cons_of_ne (by decide)] at hpair
    obtain ⟨xs, rfl, hxs, -⟩ := isListing_of_readListTest (by simpa using hcomma) hpair h
    exact hxs
  · next body hnot =>
    rw [Text.hasPair_cons_of_ne (by decide)] at hpair
    obtain ⟨xs, rfl, hxs, hfirst⟩ := isListing_of_readListTest (by simpa using hcomma) hpair h
    refine ⟨hxs, hfirst _ ?_⟩
    rw [Text.avoids_cons]
    exact ⟨fun r hr => hnot r (hr ▸ rfl), Text.avoids_nothing⟩
  · rw [Text.hasPair_cons_of_ne (by decide)] at hpair
    obtain ⟨xs, rfl, hxs, -⟩ := isListing_of_readListTest (by simpa using hcomma) hpair h
    exact hxs
  · next hat hbang =>
    obtain ⟨xs, rfl, hxs, hfirst⟩ := isListing_of_readListTest hcomma hpair h
    refine ⟨hxs, hfirst _ ?_⟩
    simp only [Text.avoids_cons, Text.avoids_nothing, and_true] at hfront ⊢
    exact ⟨hfront.1, hfront.2, hbang, hat⟩

theorem isLegible_of_readPlain (huncut : raw.IsUncut) (hne : raw ≠ []) (hbang : raw ≠ ['!'])
    (hfront : raw.Avoids ['<', '>']) (h : readPlain raw = .ok p) : p.IsLegible := by
  unfold readPlain at h
  split at h
  · next r =>
    cases h
    simp only [Text.isUncut_cons (by decide : '!' ≠ '.') (by decide),
      Text.isUncut_cons (by decide : '~' ≠ '.') (by decide),
      Text.isUncut_cons (by decide : '*' ≠ '.') (by decide)] at huncut
    exact ⟨rfl, huncut⟩
  · next r =>
    cases h
    simp only [Text.isUncut_cons (by decide : '~' ≠ '.') (by decide),
      Text.isUncut_cons (by decide : '*' ≠ '.') (by decide)] at huncut
    exact ⟨rfl, huncut⟩
  · next r hstar =>
    cases h
    simp only [Text.isUncut_cons (by decide : '!' ≠ '.') (by decide),
      Text.isUncut_cons (by decide : '~' ≠ '.') (by decide)] at huncut
    exact ⟨rfl, Text.avoids_cons.mpr ⟨fun t ht => hstar t (ht ▸ rfl), Text.avoids_nothing⟩, huncut⟩
  · next r hstar =>
    cases h
    simp only [Text.isUncut_cons (by decide : '~' ≠ '.') (by decide)] at huncut
    exact ⟨rfl, Text.avoids_cons.mpr ⟨fun t ht => hstar t (ht ▸ rfl), Text.avoids_nothing⟩, huncut⟩
  · next r hcaseless htilde =>
    obtain ⟨x, hx, rfl⟩ := readEquality_eq_ok.mp h
    obtain rfl := Operand.token_of_read hx
    rw [Text.isUncut_cons (by decide) (by decide)] at huncut
    rw [IsLegible, Text.avoids_cons]
    exact ⟨fun hnil => hbang (hnil ▸ rfl),
      ⟨fun t ht => htilde t (ht ▸ rfl), Text.avoids_nothing⟩, huncut⟩
  · next hcaseless hstar htilde' htilde hbang' =>
    obtain ⟨x, hx, rfl⟩ := readEquality_eq_ok.mp h
    obtain rfl := Operand.token_of_read hx
    refine ⟨hne, ?_, huncut⟩
    simp only [Text.avoids_cons, Text.avoids_nothing, and_true] at hfront ⊢
    exact ⟨hfront.1, hfront.2, hbang', htilde⟩

theorem isLegible_of_readForm (hne : raw ≠ []) (hbang : raw ≠ ['!'])
    (hfront : raw.Avoids ['<', '>']) (h : readForm field raw = .ok p) : p.IsLegible := by
  unfold readForm at h
  split at h
  · split at h
    · obtain ⟨low, high, rfl, hrange, -⟩ := isRange_of_readRange h
      exact hrange
    · next hnegated =>
      obtain ⟨low, high, rfl, hrange, hraw⟩ := isRange_of_readRange h
      refine ⟨hrange, ?_⟩
      have havoids : raw.Avoids ['<', '>', '!'] := by
        simp only [Text.avoids_cons, Text.avoids_nothing, and_true] at hfront ⊢
        exact ⟨hfront.1, hfront.2, hnegated⟩
      rw [hraw] at havoids
      exact havoids.left
  · next hpair =>
    rw [Bool.not_eq_true] at hpair
    split at h
    · next hcomma => exact isLegible_of_readCommaForm hcomma hpair hfront h
    · next hcomma => exact isLegible_of_readPlain ⟨hpair, hcomma⟩ hne hbang hfront h

/-- A number can be told from everything that has a sign or a separator. -/
theorem isLegible_of_isNumber {x : Operand} (hne : x.token ≠ [])
    (hnumber : isNumber x.token = true) : IsLegible (.compare .eq x) := by
  have hfree : ∀ c ∈ x.token, c ∉ signs := by
    intro c hc hsign
    rw [isNumber_of_mem_signs hc hsign] at hnumber
    cases hnumber
  refine ⟨hne, ?_, ?_, ?_⟩
  · have hsigns : ∀ c ∈ ['<', '>', '!', '~'], c ∈ signs := by simp [signs]
    intro c hc hfront
    exact hfree c (List.mem_of_mem_head? hc) (hsigns c hfront)
  · cases hpair : Text.hasPair '.' '.' x.token with
    | false => rfl
    | true =>
      rw [isNumber_of_hasPair hpair] at hnumber
      cases hnumber
  · intro hcomma
    exact hfree ',' hcomma (by decide)

/-- **What is read is legible.** -/
theorem isLegible_of_read (h : read field raw = .ok p) : p.IsLegible := by
  unfold read at h
  split at h
  · cases h
    trivial
  · next hne =>
    split at h
    · cases h
      trivial
    · next hbang =>
      split at h
      · next hnumber =>
        obtain ⟨x, hx, rfl⟩ := readEquality_eq_ok.mp h
        obtain rfl := Operand.token_of_read hx
        exact isLegible_of_isNumber hne hnumber
      · split at h
        case h_5 hge hle hgt hlt =>
          refine isLegible_of_readForm hne hbang ?_ h
          simp only [Text.avoids_cons, Text.avoids_nothing, and_true]
          exact ⟨hlt, hgt⟩
        all_goals
          obtain ⟨-, x, -, hordered, rfl⟩ := readComparison_eq_ok.mp h
          exact Operand.isOrdered_iff.mp hordered

/-! ## 4. What is legible is read -/

theorem read_eq_readForm (hne : raw ≠ []) (hbang : raw ≠ ['!']) (hnumber : isNumber raw = false)
    (hfront : raw.Avoids ['<', '>']) : read field raw = readForm field raw := by
  simp only [Text.avoids_cons, Text.avoids_nothing, and_true] at hfront
  obtain ⟨hless, hgreater⟩ := hfront
  unfold read
  rw [if_neg hne, if_neg hbang, if_neg (by simp [hnumber])]
  split
  · exact absurd rfl (hgreater _)
  · exact absurd rfl (hless _)
  · exact absurd rfl (hgreater _)
  · exact absurd rfl (hless _)
  · rfl

theorem readForm_eq_readPlain (huncut : raw.IsUncut) : readForm field raw = readPlain raw := by
  unfold readForm
  rw [if_neg (by simp [huncut.noPair]), if_neg huncut.noComma]

theorem readPlain_eq_readEquality (hfront : raw.Avoids ['!', '~']) :
    readPlain raw = readEquality .eq raw := by
  simp only [Text.avoids_cons, Text.avoids_nothing, and_true] at hfront
  obtain ⟨hbang, htilde⟩ := hfront
  unfold readPlain
  split
  · exact absurd rfl (hbang _)
  · exact absurd rfl (htilde _)
  · exact absurd rfl (hbang _)
  · exact absurd rfl (htilde _)
  · exact absurd rfl (hbang _)
  · rfl

variable {x : Operand} {xs : List Operand}

theorem read_equality (hx : Operand.read x.token = .ok x) (h : IsLegible (.compare .eq x)) :
    read field x.token = .ok (.compare .eq x) := by
  obtain ⟨hne, hfront, huncut⟩ := h
  simp only [Text.avoids_cons, Text.avoids_nothing, and_true] at hfront
  obtain ⟨hless, hgreater, hbang, htilde⟩ := hfront
  have hequality : readEquality .eq x.token = .ok (.compare .eq x) :=
    readEquality_eq_ok.mpr ⟨x, hx, rfl⟩
  cases hnumber : isNumber x.token with
  | true =>
    unfold read
    rw [if_neg hne, if_neg (hbang []), if_pos hnumber, hequality]
  | false =>
    rw [read_eq_readForm hne (hbang []) hnumber (by simp [hless, hgreater]),
      readForm_eq_readPlain huncut, readPlain_eq_readEquality (by simp [hbang, htilde]), hequality]

/-- A text with a sign in front that is no comparison's, and without separators, is read plainly. -/
theorem read_sign {c : Char} {t : Text} (hc : c ∈ ['!', '~']) (hbang : c :: t ≠ ['!'])
    (huncut : Text.IsUncut (c :: t)) : read field (c :: t) = readPlain (c :: t) := by
  have hsigns : ∀ c ∈ ['!', '~'], c ∈ signs ∧ c ≠ '<' ∧ c ≠ '>' := by simp [signs]
  obtain ⟨hsign, hless, hgreater⟩ := hsigns c hc
  rw [read_eq_readForm (by simp) hbang (isNumber_cons_of_mem_signs hsign t)
    (by simp [hless, hgreater]), readForm_eq_readPlain huncut]

theorem read_ge (t : Text) : read field ('>' :: '=' :: t) = readComparison .ge field t := by
  unfold read
  rw [if_neg (by simp), if_neg (by simp),
    if_neg (by simp [isNumber_cons_of_mem_signs (c := '>') (by decide)])]
  rfl

theorem read_le (t : Text) : read field ('<' :: '=' :: t) = readComparison .le field t := by
  unfold read
  rw [if_neg (by simp), if_neg (by simp),
    if_neg (by simp [isNumber_cons_of_mem_signs (c := '<') (by decide)])]
  rfl

theorem read_gt {t : Text} (h : ∀ r, t ≠ '=' :: r) :
    read field ('>' :: t) = readComparison .gt field t := by
  unfold read
  rw [if_neg (by simp), if_neg (by simp),
    if_neg (by simp [isNumber_cons_of_mem_signs (c := '>') (by decide)])]
  split
  · next heq => exact absurd (List.cons.inj heq).2 (h _)
  · next heq => cases heq
  · next heq => rw [(List.cons.inj heq).2]
  · next heq => cases heq
  · next hnot _ => exact absurd rfl (hnot _)

theorem read_lt {t : Text} (h : ∀ r, t ≠ '=' :: r) :
    read field ('<' :: t) = readComparison .lt field t := by
  unfold read
  rw [if_neg (by simp), if_neg (by simp),
    if_neg (by simp [isNumber_cons_of_mem_signs (c := '<') (by decide)])]
  split
  · next heq => cases heq
  · next heq => exact absurd (List.cons.inj heq).2 (h _)
  · next heq => cases heq
  · next heq => rw [(List.cons.inj heq).2]
  · next hnot => exact absurd rfl (hnot _)

theorem read_order {r : Relation} (hr : r ≠ .eq ∧ r ≠ .ne) (hx : Operand.read x.token = .ok x)
    (hordered : x.isOrdered = true) : read field (sign r ++ x.token) = .ok (.compare r x) := by
  have hne : x.token ≠ [] := by
    intro hnil
    have hempty : Operand.read [] = .ok (.ofText []) := rfl
    rw [hnil, hempty] at hx
    cases hx
    cases hordered
  have hequals := Operand.avoids_of_isOrdered hx hordered
  simp only [Text.avoids_cons, Text.avoids_nothing, and_true] at hequals
  have hcomparison : readComparison r field x.token = .ok (.compare r x) :=
    readComparison_eq_ok.mpr ⟨hne, x, hx, hordered, rfl⟩
  cases r with
  | eq => exact absurd rfl hr.1
  | ne => exact absurd rfl hr.2
  | ge => exact (read_ge _).trans hcomparison
  | le => exact (read_le _).trans hcomparison
  | gt => exact (read_gt hequals).trans hcomparison
  | lt => exact (read_lt hequals).trans hcomparison

theorem readPlain_tilde {t : Text} (h : ∀ r, t ≠ '*' :: r) :
    readPlain ('~' :: t) = .ok (.pattern false false (.ofText t)) := by
  unfold readPlain
  split
  · next heq => cases heq
  · next heq => exact absurd (List.cons.inj heq).2 (h _)
  · next heq => cases heq
  · next heq => rw [(List.cons.inj heq).2]
  · next heq => cases heq
  · next hnot _ => exact absurd rfl (hnot _)

theorem readPlain_bang_tilde {t : Text} (h : ∀ r, t ≠ '*' :: r) :
    readPlain ('!' :: '~' :: t) = .ok (.pattern false true (.ofText t)) := by
  unfold readPlain
  split
  · next heq => exact absurd (List.cons.inj (List.cons.inj heq).2).2 (h _)
  · next heq => cases heq
  · next heq => rw [(List.cons.inj (List.cons.inj heq).2).2]
  · next heq => cases heq
  · next _ hnot heq => exact absurd (List.cons.inj heq).2.symm (hnot _)
  · next hnot => exact absurd rfl (hnot _)

theorem readPlain_bang {t : Text} (h : ∀ r, t ≠ '~' :: r) :
    readPlain ('!' :: t) = readEquality .ne t := by
  unfold readPlain
  split
  · next heq => exact absurd (List.cons.inj heq).2 (h _)
  · next heq => cases heq
  · next heq => exact absurd (List.cons.inj heq).2 (h _)
  · next heq => cases heq
  · next heq => rw [(List.cons.inj heq).2]
  · next hnot => exact absurd rfl (hnot _)

theorem read_inequality (hx : Operand.read x.token = .ok x) (h : IsLegible (.compare .ne x)) :
    read field ('!' :: x.token) = .ok (.compare .ne x) := by
  obtain ⟨hne, hfront, huncut⟩ := h
  simp only [Text.avoids_cons, Text.avoids_nothing, and_true] at hfront
  have huncut' : Text.IsUncut ('!' :: x.token) :=
    (Text.isUncut_cons (by decide) (by decide)).mpr huncut
  rw [read_sign (by decide) (by simpa using hne) huncut', readPlain_bang hfront]
  exact readEquality_eq_ok.mpr ⟨x, hx, rfl⟩

/-- A pattern is read by its sign, and its operand is its token. -/
theorem read_pattern {caseless negated : Bool} (hx : Operand.read x.token = .ok x)
    (h : IsLegible (.pattern caseless negated x)) :
    read field (patternSign caseless negated ++ x.token) = .ok (.pattern caseless negated x) := by
  have htext : x.kind = .string → Operand.ofText x.token = x := fun hkind =>
    (Operand.eq_ofText_of_kind hx hkind).symm
  have hbehind : ∀ c ∈ ['!', '~', '*'], ∀ {t : Text}, t.IsUncut → Text.IsUncut (c :: t) := by
    intro c hc t ht
    have hsigns : ∀ c ∈ ['!', '~', '*'], c ≠ '.' ∧ c ≠ ',' := by simp
    exact (Text.isUncut_cons (hsigns c hc).1 (hsigns c hc).2).mpr ht
  cases caseless with
  | true =>
    obtain ⟨hkind, huncut⟩ := h
    have htilde := hbehind '~' (by decide) (hbehind '*' (by decide) huncut)
    cases negated with
    | true =>
      show read field ('!' :: '~' :: '*' :: x.token) = _
      rw [read_sign (by decide) (by simp) (hbehind '!' (by decide) htilde), readPlain, htext hkind]
    | false =>
      show read field ('~' :: '*' :: x.token) = _
      rw [read_sign (by decide) (by simp) htilde, readPlain, htext hkind]
  | false =>
    obtain ⟨hkind, hfront, huncut⟩ := h
    simp only [Text.avoids_cons, Text.avoids_nothing, and_true] at hfront
    have htilde := hbehind '~' (by decide) huncut
    cases negated with
    | true =>
      show read field ('!' :: '~' :: x.token) = _
      rw [read_sign (by decide) (by simp) (hbehind '!' (by decide) htilde),
        readPlain_bang_tilde hfront, htext hkind]
    | false =>
      show read field ('~' :: x.token) = _
      rw [read_sign (by decide) (by simp) htilde, readPlain_tilde hfront, htext hkind]

theorem read_range {negated : Bool} {low high : Operand} (hlow : Operand.read low.token = .ok low)
    (hhigh : Operand.read high.token = .ok high) (h : IsLegible (.between negated low high)) :
    read field (spell (.between negated low high)) = .ok (.between negated low high) := by
  have hrange : IsRange low high := by
    cases negated with
    | true => exact h
    | false => exact h.1
  obtain ⟨body, hbody⟩ : ∃ body, body = Text.join ['.', '.'] [low.token, high.token] := ⟨_, rfl⟩
  have hjoin : body = low.token ++ '.' :: '.' :: high.token := by
    rw [hbody, Text.join_cons_cons, List.append_assoc]
    rfl
  have hcut : Text.piecesAtPair '.' '.' body = [low.token, high.token] :=
    Text.piecesAtPair_eq_pair.mpr
      ⟨hbody.symm, ⟨hrange.lowUncut, hrange.lowEnd⟩, hrange.highUncut⟩
  have hread : ∀ raw, readRange negated field raw body = .ok (.between negated low high) := by
    intro raw
    exact readRange_eq_ok.mpr ⟨_, _, low, high, hcut, hrange.lowFilled, hrange.highFilled, hlow,
      hhigh, hrange.sameKind, rfl⟩
  rw [spell, ← hbody]
  cases negated with
  | true =>
    have hpair : Text.hasPair '.' '.' ('!' :: body) = true := by
      rw [hjoin]
      exact Text.hasPair_append_pair ('!' :: low.token) high.token
    show read field ('!' :: body) = _
    rw [read_eq_readForm (by simp) (by simp [hjoin]) (isNumber_of_hasPair hpair) (by simp),
      readForm, if_pos hpair, hread]
  | false =>
    have hpair : Text.hasPair '.' '.' body = true := by
      rw [hjoin]
      exact Text.hasPair_append_pair low.token high.token
    have hfront : Text.Avoids ['<', '>', '!'] body := by
      rw [hjoin]
      exact h.2.append_cons (by decide) _
    simp only [Text.avoids_cons, Text.avoids_nothing, and_true] at hfront
    obtain ⟨hless, hgreater, hbang⟩ := hfront
    show read field body = _
    rw [read_eq_readForm (by simp [hjoin]) (hbang []) (isNumber_of_hasPair hpair)
      (by simp [hless, hgreater])]
    unfold readForm
    rw [if_pos hpair]
    split
    · exact absurd rfl (hbang _)
    · exact hread _

theorem read_eq_readCommaForm (hcomma : ',' ∈ raw) (hpair : Text.hasPair '.' '.' raw = false)
    (hfront : raw.Avoids ['<', '>']) : read field raw = readCommaForm field raw := by
  have hne : raw ≠ [] := List.ne_nil_of_mem hcomma
  have hbang : raw ≠ ['!'] := by
    rintro rfl
    exact absurd hcomma (by decide)
  rw [read_eq_readForm hne hbang (isNumber_of_mem_signs hcomma (by decide)) hfront]
  unfold readForm
  rw [if_neg (by simp [hpair]), if_pos hcomma]

/-- The text of the members of a list: it has a comma and no pair of points, it begins as the first
token does, and a list test reads the members from it. -/
theorem exists_listing (hread : ∀ x ∈ xs, Operand.read x.token = .ok x) (h : IsListing xs) :
    ∃ body, body = Text.join [','] (xs.map Operand.token) ∧ ',' ∈ body ∧
      Text.hasPair '.' '.' body = false ∧
      (∀ signs, ',' ∉ signs → (∀ x ∈ xs.head?, x.token.Avoids signs) → body.Avoids signs) ∧
      ∀ test : List Operand → Predicate, readListTest test field body = .ok (test xs) := by
  obtain ⟨x, y, zs, rfl⟩ : ∃ x y zs, xs = x :: y :: zs := by
    match xs, h.several with
    | x :: y :: zs, _ => exact ⟨x, y, zs, rfl⟩
  have hjoin : Text.join [','] ((x :: y :: zs).map Operand.token)
      = x.token ++ ',' :: Text.join [','] ((y :: zs).map Operand.token) := by
    rw [List.map_cons, List.map_cons, Text.join_cons_cons, List.append_assoc]
    rfl
  have hpieces : Text.pieces ',' (Text.join [','] ((x :: y :: zs).map Operand.token))
      = (x :: y :: zs).map Operand.token :=
    Text.pieces_join (by simp) (List.forall_mem_map.mpr fun z hz => (h.uncut z hz).noComma)
  refine ⟨_, rfl, ?_, ?_, ?_, ?_⟩
  · rw [hjoin]
    simp
  · exact (Text.hasPair_join (by decide) (by decide)).mpr
      (List.forall_mem_map.mpr fun z hz => (h.uncut z hz).noPair)
  · intro signs hcomma hfirst
    rw [hjoin]
    exact (hfirst x rfl).append_cons hcomma _
  · intro test
    refine readListTest_eq_ok.mpr ⟨_, ?_, Operand.length_kinds_le h.sameKind, rfl⟩
    rw [hpieces]
    exact Operand.readAll_tokens hread

theorem read_among {negated : Bool} (hread : ∀ x ∈ xs, Operand.read x.token = .ok x)
    (h : IsLegible (.among negated xs)) :
    read field (spell (.among negated xs)) = .ok (.among negated xs) := by
  cases negated with
  | true =>
    obtain ⟨body, hbody, hcomma, hpair, -, htest⟩ := exists_listing hread h
    show read field ('!' :: Text.join [','] (xs.map Operand.token)) = _
    rw [← hbody, read_eq_readCommaForm (List.mem_cons_of_mem _ hcomma)
      (by rw [Text.hasPair_cons_of_ne (by decide), hpair]) (by simp)]
    exact htest _
  | false =>
    obtain ⟨body, hbody, hcomma, hpair, hfront, htest⟩ := exists_listing hread h.1
    have havoids := hfront _ (by decide) h.2
    simp only [Text.avoids_cons, Text.avoids_nothing, and_true] at havoids
    obtain ⟨hless, hgreater, hbang, hat⟩ := havoids
    show read field (Text.join [','] (xs.map Operand.token)) = _
    rw [← hbody, read_eq_readCommaForm hcomma hpair (by simp [hless, hgreater])]
    unfold readCommaForm
    split
    · exact absurd rfl (hat _)
    · exact absurd rfl (hat _)
    · exact absurd rfl (hbang _)
    · exact htest _

theorem read_array {test : ArrayTest} (hread : ∀ x ∈ xs, Operand.read x.token = .ok x)
    (h : IsLegible (.array test xs)) :
    read field (spell (.array test xs)) = .ok (.array test xs) := by
  cases test with
  | contained =>
    obtain ⟨body, hbody, hcomma, hpair, -, htest⟩ := exists_listing hread h
    show read field ('@' :: '>' :: Text.join [','] (xs.map Operand.token)) = _
    rw [← hbody, read_eq_readCommaForm (by simp [hcomma])
      (by rw [Text.hasPair_cons_of_ne (by decide), Text.hasPair_cons_of_ne (by decide), hpair])
      (by simp)]
    exact htest _
  | contains =>
    obtain ⟨body, hbody, hcomma, hpair, hfront, htest⟩ := exists_listing hread h.1
    have havoids := hfront _ (by decide) h.2
    simp only [Text.avoids_cons, Text.avoids_nothing, and_true] at havoids
    show read field ('@' :: Text.join [','] (xs.map Operand.token)) = _
    rw [← hbody, read_eq_readCommaForm (by simp [hcomma])
      (by rw [Text.hasPair_cons_of_ne (by decide), hpair]) (by simp)]
    unfold readCommaForm
    split
    · next heq => exact absurd (List.cons.inj heq).2 (havoids _)
    · next heq =>
      rw [← (List.cons.inj heq).2]
      exact htest _
    · next heq => cases heq
    · next hnot _ => exact absurd rfl (hnot _)

/-- **What is legible is read**, from its spelling, if its operands are what their tokens spell. -/
theorem read_spell (hread : ∀ x ∈ p.operands, Operand.read x.token = .ok x) (h : p.IsLegible) :
    read field p.spell = .ok p := by
  cases p with
  | null holds => cases holds <;> rfl
  | compare r x =>
    have hx := hread x List.mem_cons_self
    cases r with
    | eq => exact read_equality hx h
    | ne => exact read_inequality hx h
    | gt | ge | lt | le => exact read_order (by decide) hx (Operand.isOrdered_iff.mpr h)
  | pattern caseless negated x => exact read_pattern (hread x List.mem_cons_self) h
  | among negated xs => exact read_among hread h
  | between negated low high =>
    exact read_range (hread low List.mem_cons_self)
      (hread high (List.mem_cons_of_mem _ List.mem_cons_self)) h
  | array test xs => exact read_array hread h

/-- **When a text is read as a predicate** whose operands are what their tokens spell: it is the
spelling of the predicate, and the predicate is legible. -/
theorem read_eq_ok (hread : ∀ x ∈ p.operands, Operand.read x.token = .ok x) :
    read field raw = .ok p ↔ p.spell = raw ∧ p.IsLegible := by
  constructor
  · intro h
    exact ⟨spell_of_read h, isLegible_of_read h⟩
  · rintro ⟨rfl, h⟩
    exact read_spell hread h

end Predicate

/-! ## 5. Predicates put together by hand -/

namespace Operand

theorem read_token_of_readAll {raws : List Text} {xs : List Operand} (h : readAll raws = .ok xs) :
    ∀ x ∈ xs, read x.token = .ok x := by
  induction raws generalizing xs with
  | nil =>
    cases h
    intro x hx
    cases hx
  | cons t ts ih =>
    rw [readAll] at h
    cases hread : read t with
    | error e => simp [hread] at h
    | ok y =>
      cases hrest : readAll ts with
      | error e => simp [hread, hrest] at h
      | ok ys =>
        obtain rfl : y :: ys = xs := by simpa [hread, hrest] using h
        intro x hx
        rcases List.mem_cons.mp hx with rfl | hx
        · rw [token_of_read hread, hread]
        · exact ih hrest x hx

end Operand

theorem Predicate.isLegible_of_operator {p : Predicate} (h : p.operator = .null) :
    p.IsLegible := by
  cases p with
  | null holds => exact trivial
  | compare r x => cases r <;> cases h
  | pattern caseless negated x => cases caseless <;> cases negated <;> cases h
  | among negated xs => cases negated <;> cases h
  | between negated low high => cases negated <;> cases h
  | array test xs => cases test <;> cases h

namespace Draft

variable {d : Draft} {p : Predicate}

/-- What passes the check of operator and operands keeps both, and it has a flag if it is a null
test. -/
theorem draft_of_predicate? (h : d.predicate? = .ok p) :
    p.operator = d.operator ∧ p.operands = d.operands ∧
      p.nullFlag = if d.operator = .null then d.nullFlag else none := by
  obtain ⟨op, xs, flag⟩ := d
  cases op
  case null =>
    unfold predicate? at h
    dsimp only at h
    split at h
    · cases h
      exact ⟨rfl, rfl, rfl⟩
    · cases h
  all_goals
    unfold predicate? at h
    dsimp only at h
    split at h
    -- Of the branches of the check, one takes the operands and the others have no result.
    all_goals first
      | cases h; done
      | cases h; exact ⟨rfl, rfl, rfl⟩

/-- **When a predicate put together by hand is read back from its spelling.** It has no flag that
its operator does not look at, and it is legible. -/
theorem reads_back_iff {op : Operator} {raws : List Text} {xs : List Operand} {flag : Option Bool}
    (hxs : Operand.readAll raws = .ok xs) (hp : predicate? ⟨op, xs, flag⟩ = .ok p)
    (field : Option Text) :
    (∃ q, Predicate.read field p.spell = .ok q ∧ q.draft = ⟨op, xs, flag⟩) ↔
      op = .null ∨ flag = none ∧ p.IsLegible := by
  obtain ⟨hop, hoperands, hflag⟩ := draft_of_predicate? hp
  have hread : ∀ x ∈ p.operands, Operand.read x.token = .ok x := by
    rw [hoperands]
    exact Operand.read_token_of_readAll hxs
  constructor
  · rintro ⟨q, hq, hdraft⟩
    -- Operands as their operator takes them come from one predicate only.
    have hcheck := Predicate.predicate?_draft (Predicate.isWellFormed_of_read hq)
    rw [hdraft, hp] at hcheck
    obtain rfl := Except.ok.inj hcheck
    by_cases hnull : op = .null
    · exact .inl hnull
    · refine .inr ⟨?_, Predicate.isLegible_of_read hq⟩
      have hsame : p.nullFlag = flag := congrArg Draft.nullFlag hdraft
      rw [← hsame, hflag, if_neg hnull]
  · intro h
    have hlegible : p.IsLegible := by
      rcases h with hnull | ⟨-, h⟩
      · exact Predicate.isLegible_of_operator (hop.trans hnull)
      · exact h
    have hsame : p.nullFlag = flag := by
      rw [hflag]
      rcases h with hnull | ⟨hnone, -⟩
      · exact if_pos hnull
      · simp [hnone]
    refine ⟨p, Predicate.read_spell hread hlegible, ?_⟩
    rw [Predicate.draft, hop, hoperands, hsame]

/-- Behind the sign of its operator, a first member may begin with any other sign. -/
theorem reads_back_not_in :
    ∃ q, Predicate.read none ['!', '!', 'a', ',', '~'] = .ok q ∧
      q.draft = ⟨.notInList, [Operand.ofText ['!', 'a'], Operand.ofText ['~']], none⟩ := by
  have hxs : Operand.readAll [['!', 'a'], ['~']]
      = .ok [Operand.ofText ['!', 'a'], Operand.ofText ['~']] := by decide
  have hp : predicate? ⟨.notInList, [Operand.ofText ['!', 'a'], Operand.ofText ['~']], none⟩
      = .ok (.among true [Operand.ofText ['!', 'a'], Operand.ofText ['~']]) := rfl
  have huncut : ∀ t ∈ [['!', 'a'], ['~']], Text.IsUncut t := by
    intro t ht
    simp only [List.mem_cons, List.not_mem_nil, or_false] at ht
    rcases ht with rfl | rfl
    · exact ⟨rfl, by simp⟩
    · exact ⟨rfl, by simp⟩
  apply (reads_back_iff hxs hp none).mpr
  refine .inr ⟨rfl, ⟨Nat.le_refl 2, by decide, ?_⟩⟩
  simpa [Operand.ofText] using huncut

end Draft
end TableService
