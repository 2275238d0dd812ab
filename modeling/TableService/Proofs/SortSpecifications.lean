import Mathlib.Data.List.Forall2
import TableService.Query.Ordering
import TableService.Proofs.Separators

/-!
# Sort specifications

A sort specification is cut twice. It is *accepted* if it can be cut at some of its commas into
names of the allow-list, each with at most one `-` in front of it; and it is *read* by cutting it at
all of its commas. Nothing makes the two cuts the same one.

They are the same over names without a comma that do not begin with `-`, whatever else is in the
names and even where one begins with another. There

> a specification is accepted exactly if **each of its pieces is the token of an allowed field**,
> and then it is read as the keys that it is written with.

Over other names a token is accepted whole and read in parts: `a,b` as the fields `a` and `b`, and
`-a` as the field `a`. So a field that is not on the list can be sorted by, unless the list is
*closed* under reading its own tokens. That is a question about the list alone, since whatever is
accepted is read as what its tokens are.
-/

namespace TableService

/-! ## 1. Names -/

/-- Whether a name can stand in a sort specification without being taken for something else. -/
structure Text.IsPlainName (name : Text) : Prop where
  noComma : ',' ∉ name
  noSign : name.head? ≠ some '-'

namespace Text

instance (name : Text) : Decidable (IsPlainName name) :=
  decidable_of_iff (',' ∉ name ∧ name.head? ≠ some '-') ⟨fun h => ⟨h.1, h.2⟩, fun h => ⟨h.1, h.2⟩⟩

end Text

namespace Ordering

variable {allowed : List Text} {raw : Text}

/-! ## 2. What is accepted -/

theorem mem_tokens_iff {token : Text} :
    token ∈ tokens allowed ↔ ∃ name ∈ allowed, token = name ∨ token = '-' :: name := by
  rw [tokens, List.mem_append, List.mem_map]
  constructor
  · rintro (h | ⟨name, hname, rfl⟩)
    · exact ⟨token, h, .inl rfl⟩
    · exact ⟨name, hname, .inr rfl⟩
  · rintro ⟨name, hname, rfl | rfl⟩
    · exact .inl hname
    · exact .inr ⟨name, hname, rfl⟩

/-- **A text can be cut into tokens exactly if it is some of them, joined by commas.** -/
theorem isCut_iff {ts : List Text} : ∀ {n : Nat} {t : Text},
    isCut ts n t = true ↔
      ∃ ps, ps ≠ [] ∧ ps.length ≤ n ∧ (∀ p ∈ ps, p ∈ ts) ∧ Text.join [','] ps = t
  | 0, t => by
    constructor
    · intro h
      cases h
    · rintro ⟨ps, hne, hlength, -⟩
      exact absurd (List.length_eq_zero_iff.mp (Nat.le_zero.mp hlength)) hne
  | n + 1, t => by
    rw [isCut, List.any_eq_true]
    constructor
    · rintro ⟨token, htoken, h⟩
      split at h
      · cases h
      · next hfront =>
        obtain rfl : t = token := by simpa using Text.dropFront?_eq_some_iff.mp hfront
        exact ⟨[t], by simp, by simp, by simpa using htoken, rfl⟩
      · next c r hfront =>
        rw [Bool.and_eq_true, beq_iff_eq] at h
        obtain ⟨rfl, hrest⟩ := h
        obtain rfl := Text.dropFront?_eq_some_iff.mp hfront
        obtain ⟨ps, hne, hlength, hps, rfl⟩ := isCut_iff.mp hrest
        obtain ⟨p, ps, rfl⟩ := List.exists_cons_of_ne_nil hne
        refine ⟨token :: p :: ps, by simp, Nat.succ_le_succ hlength,
          List.forall_mem_cons.mpr ⟨htoken, hps⟩, ?_⟩
        rw [Text.join_cons_cons, List.append_assoc, List.singleton_append]
    · rintro ⟨ps, hne, hlength, hps, rfl⟩
      match ps, hne with
      | [p], _ =>
        have hfront : Text.dropFront? p (Text.join [','] [p]) = some [] :=
          Text.dropFront?_eq_some_iff.mpr (List.append_nil p).symm
        refine ⟨p, hps p List.mem_cons_self, ?_⟩
        rw [hfront]
      | p :: q :: qs, _ =>
        obtain ⟨hp, hqs⟩ := List.forall_mem_cons.mp hps
        have hfront : Text.dropFront? p (Text.join [','] (p :: q :: qs))
            = some (',' :: Text.join [','] (q :: qs)) := by
          rw [Text.dropFront?_eq_some_iff, Text.join_cons_cons, List.append_assoc,
            List.singleton_append]
        have hrest : isCut ts n (Text.join [','] (q :: qs)) = true :=
          isCut_iff.mpr ⟨q :: qs, by simp, Nat.le_of_succ_le_succ hlength, hqs, rfl⟩
        refine ⟨p, hp, ?_⟩
        rw [hfront]
        simpa using hrest

/-- The bound on the number of pieces is no bound. -/
theorem length_le_of_join : ∀ ps : List Text, ps.length ≤ (Text.join [','] ps).length + 1
  | [] => Nat.zero_le _
  | [_] => Nat.le_add_left 1 _
  | p :: q :: ps => by
    have ih := length_le_of_join (q :: ps)
    rw [Text.join_cons_cons, List.length_append, List.length_append]
    simp only [List.length_cons, List.length_nil] at ih ⊢
    omega

/-- A specification is accepted exactly if it is some tokens, joined by commas. A list of empty
names accepts none. -/
theorem accepts_iff :
    accepts allowed raw = true ↔
      (∃ name ∈ allowed, name ≠ []) ∧
        ∃ ps, ps ≠ [] ∧ (∀ p ∈ ps, p ∈ tokens allowed) ∧ Text.join [','] ps = raw := by
  rw [accepts, Bool.and_eq_true, List.any_eq_true, isCut_iff]
  simp only [decide_eq_true_eq]
  refine and_congr_right fun _ => ⟨?_, ?_⟩
  · rintro ⟨ps, hne, -, hps, hjoin⟩
    exact ⟨ps, hne, hps, hjoin⟩
  · rintro ⟨ps, hne, hps, rfl⟩
    exact ⟨ps, hne, length_le_of_join ps, hps, rfl⟩

/-! ## 3. What is read -/

/-- A token without a sign is read as the field of its name, upwards. -/
theorem ofToken_of_head? {name : Text} (h : name.head? ≠ some '-') :
    OrderItem.ofToken name = ⟨name, false⟩ := by
  unfold OrderItem.ofToken
  split
  · exact absurd rfl h
  · rfl

/-- The sort keys that a text is read as. -/
def keysOf (t : Text) : List OrderItem := (Text.pieces ',' t).map OrderItem.ofToken

theorem keysOf_of_not_mem {t : Text} (h : ',' ∉ t) : keysOf t = [OrderItem.ofToken t] := by
  rw [keysOf, Text.pieces_of_not_mem h]
  rfl

theorem keysOf_join {ps : List Text} (hne : ps ≠ []) :
    keysOf (Text.join [','] ps) = ps.flatMap keysOf := by
  rw [keysOf, Text.pieces_join_eq_flatMap hne, List.map_flatMap]
  rfl

theorem parse_eq_ok {xs : List OrderItem} :
    parse allowed raw = .ok (some xs) ↔
      raw ≠ [] ∧ accepts allowed raw = true ∧ keysOf raw = xs := by
  unfold parse keysOf
  split
  · next hnil => simp [hnil]
  · next hne =>
    split
    · next haccepts => simp [hne, haccepts]
    · next hrefused => simp [hrefused]

/-- What is not read is refused as a sort specification, and on account of the key of one. -/
theorem parse_eq_error (hne : raw ≠ []) (h : ∀ xs, parse allowed raw ≠ .ok (some xs)) :
    ∃ f, parse allowed raw = .error f ∧ f.family = .orderSpec
      ∧ f.field = some QueryFault.sortKey := by
  refine ⟨refusal allowed raw, ?_, ?_⟩
  · unfold parse at h ⊢
    rw [if_neg hne] at h ⊢
    split at h
    · exact absurd rfl (h _)
    · next hrefused => rw [if_neg hrefused]
  · unfold refusal
    dsimp only
    split
    · exact ⟨rfl, rfl⟩
    · exact ⟨rfl, rfl⟩

/-! ## 4. Which lists hold -/

/-- Whether a list has every field that one of its own tokens is read as. -/
def IsClosed (allowed : List Text) : Prop :=
  ∀ token ∈ tokens allowed, ∀ x ∈ keysOf token, x.field ∈ allowed

instance (allowed : List Text) : Decidable (IsClosed allowed) :=
  inferInstanceAs (Decidable (∀ token ∈ tokens allowed, ∀ x ∈ keysOf token, x.field ∈ allowed))

/-- **A sort specification over a closed list sorts by fields of the list only**, since it is read
as its tokens are. -/
theorem field_mem_of_isClosed {xs : List OrderItem} (hclosed : IsClosed allowed)
    (h : parse allowed raw = .ok (some xs)) : ∀ x ∈ xs, x.field ∈ allowed := by
  obtain ⟨-, haccepts, rfl⟩ := parse_eq_ok.mp h
  obtain ⟨-, ps, hne, hps, rfl⟩ := accepts_iff.mp haccepts
  intro x hx
  rw [keysOf_join hne] at hx
  obtain ⟨p, hp, hx⟩ := List.mem_flatMap.mp hx
  exact hclosed p (hps p hp) x hx

theorem comma_not_mem_of_mem_tokens (hplain : ∀ name ∈ allowed, ',' ∉ name) {token : Text}
    (h : token ∈ tokens allowed) : ',' ∉ token := by
  obtain ⟨name, hname, rfl | rfl⟩ := mem_tokens_iff.mp h
  · exact hplain token hname
  · rw [List.mem_cons, not_or]
    exact ⟨by decide, hplain name hname⟩

theorem field_ofToken {token : Text} (hplain : ∀ name ∈ allowed, name.head? ≠ some '-')
    (h : token ∈ tokens allowed) : (OrderItem.ofToken token).field ∈ allowed := by
  obtain ⟨name, hname, rfl | rfl⟩ := mem_tokens_iff.mp h
  · rw [ofToken_of_head? (hplain token hname)]
    exact hname
  · exact hname

theorem isClosed_of_plain (hplain : ∀ name ∈ allowed, Text.IsPlainName name) :
    IsClosed allowed := by
  intro token htoken x hx
  have hcomma := comma_not_mem_of_mem_tokens (fun name hname => (hplain name hname).noComma) htoken
  rw [keysOf_of_not_mem hcomma] at hx
  obtain rfl := List.mem_singleton.mp hx
  exact field_ofToken (fun name hname => (hplain name hname).noSign) htoken

/-- **A sort specification over plain names sorts by fields of the allow-list only.** -/
theorem field_mem_of_parse {xs : List OrderItem}
    (hplain : ∀ name ∈ allowed, Text.IsPlainName name) (h : parse allowed raw = .ok (some xs)) :
    ∀ x ∈ xs, x.field ∈ allowed :=
  field_mem_of_isClosed (isClosed_of_plain hplain) h

/-- So does the sort specification of a request. -/
theorem field_mem_of_ofRequest {ps : Params} {xs : List OrderItem}
    (hplain : ∀ name ∈ allowed, Text.IsPlainName name)
    (h : ofRequest allowed ps = .ok (some xs)) : ∀ x ∈ xs, x.field ∈ allowed := by
  unfold ofRequest at h
  split at h
  · cases h
  · cases h
  · exact field_mem_of_parse hplain h
  · split at h <;> cases h

/-- A token of a name is a specification by itself. -/
theorem parse_token {name token : Text} (hname : name ∈ allowed) (hne : name ≠ [])
    (htoken : token = name ∨ token = '-' :: name) :
    parse allowed token = .ok (some (keysOf token)) := by
  have hmem : token ∈ tokens allowed := mem_tokens_iff.mpr ⟨name, hname, htoken⟩
  have htext : token ≠ [] := by
    rcases htoken with rfl | rfl
    · exact hne
    · exact List.cons_ne_nil _ _
  refine parse_eq_ok.mpr ⟨htext, accepts_iff.mpr ⟨⟨name, hname, hne⟩, [token], ?_, ?_, rfl⟩, rfl⟩
  · exact List.cons_ne_nil _ _
  · exact List.forall_mem_singleton.mpr hmem

/-- **Sorting stays within an allow-list exactly if the list is closed**, as a list of plain names
is. -/
theorem sorts_within_iff_isClosed (allowed : List Text) :
    ((∀ raw xs, parse allowed raw = .ok (some xs) → ∀ x ∈ xs, x.field ∈ allowed) ↔
        IsClosed allowed)
      ∧ ((∀ name ∈ allowed, Text.IsPlainName name) → IsClosed allowed) := by
  refine ⟨⟨fun hwithin token hmem => ?_, fun hclosed _ _ => field_mem_of_isClosed hclosed⟩,
    isClosed_of_plain⟩
  obtain ⟨name, hname, htoken⟩ := mem_tokens_iff.mp hmem
  by_cases hne : name = []
  -- An empty name asks for itself, and need not be a specification.
  · subst hne
    intro x hx
    rcases htoken with rfl | rfl
    · obtain rfl := List.mem_singleton.mp hx
      exact hname
    · obtain rfl := List.mem_singleton.mp hx
      exact hname
  · exact hwithin token _ (parse_token hname hne htoken)

example : IsClosed [['a', ',', 'b'], ['a'], ['b']] := by decide

/-- A name with a comma in it is accepted whole and read in parts, and of a name that begins with
`-` the first character is read as the direction. -/
theorem fields_outside_allowList :
    (∃ xs, parse [['a', ',', 'b']] ['a', ',', 'b'] = .ok (some xs)
        ∧ ∃ x ∈ xs, x.field ∉ [['a', ',', 'b']])
      ∧ ∃ xs, parse [['-', 'a']] ['-', 'a'] = .ok (some xs) ∧ ∃ x ∈ xs, x.field ∉ [['-', 'a']] :=
  ⟨⟨[⟨['a'], false⟩, ⟨['b'], false⟩], rfl, by decide⟩, ⟨[⟨['a'], true⟩], rfl, by decide⟩⟩

/-! ## 5. Plain names -/

/-- Which sort key a token asks for: the field that it names, downwards if a `-` is in front. -/
inductive Spells (allowed : List Text) : Text → OrderItem → Prop where
  | ascending {name : Text} (h : name ∈ allowed) : Spells allowed name ⟨name, false⟩
  | descending {name : Text} (h : name ∈ allowed) : Spells allowed ('-' :: name) ⟨name, true⟩

variable {token : Text} {x : OrderItem}

theorem Spells.token_eq (h : Spells allowed token x) : x.token = token := by
  cases h <;> rfl

theorem spells_token (h : x.field ∈ allowed) : Spells allowed x.token x := by
  obtain ⟨field, descending⟩ := x
  cases descending with
  | false => exact .ascending h
  | true => exact .descending h

theorem exists_spells_iff : (∃ x, Spells allowed token x) ↔ token ∈ tokens allowed := by
  rw [mem_tokens_iff]
  constructor
  · rintro ⟨x, h | h⟩
    · exact ⟨_, h, .inl rfl⟩
    · exact ⟨_, h, .inr rfl⟩
  · rintro ⟨name, hname, rfl | rfl⟩
    · exact ⟨_, .ascending hname⟩
    · exact ⟨_, .descending hname⟩

/-- Where no name begins with a `-`, a token asks for the one key that it is read as. -/
theorem spells_iff (hsign : ∀ name ∈ allowed, name.head? ≠ some '-') :
    Spells allowed token x ↔ token ∈ tokens allowed ∧ OrderItem.ofToken token = x := by
  have hread : ∀ y, Spells allowed token y → OrderItem.ofToken token = y := by
    rintro y (hname | _)
    · exact ofToken_of_head? (hsign token hname)
    · rfl
  constructor
  · intro h
    exact ⟨exists_spells_iff.mp ⟨x, h⟩, hread x h⟩
  · rintro ⟨h, rfl⟩
    obtain ⟨y, hy⟩ := exists_spells_iff.mpr h
    rwa [hread y hy]

theorem forall₂_spells_iff (hsign : ∀ name ∈ allowed, name.head? ≠ some '-')
    {ts : List Text} {xs : List OrderItem} :
    List.Forall₂ (Spells allowed) ts xs ↔
      (∀ t ∈ ts, t ∈ tokens allowed) ∧ ts.map OrderItem.ofToken = xs := by
  have hspells : Spells allowed = fun t x => t ∈ tokens allowed ∧ OrderItem.ofToken t = x :=
    funext fun _ => funext fun _ => propext (spells_iff hsign)
  rw [hspells, List.forall₂_and_left, ← List.forall₂_eq_eq_eq, List.forall₂_map_left_iff]

theorem map_token_of_spells {ts : List Text} {xs : List OrderItem}
    (h : List.Forall₂ (Spells allowed) ts xs) : xs.map OrderItem.token = ts := by
  induction h with
  | nil => rfl
  | cons hx _ ih => rw [List.map_cons, hx.token_eq, ih]

/-- Whether the names of a list can be sorted by. -/
def AllSortable (allowed : List Text) : Prop :=
  ∀ name ∈ allowed, name ≠ [] ∧ Text.IsPlainName name

instance (allowed : List Text) : Decidable (AllSortable allowed) :=
  inferInstanceAs (Decidable (∀ name ∈ allowed, name ≠ [] ∧ Text.IsPlainName name))

theorem AllSortable.noComma (h : AllSortable allowed) : ∀ name ∈ allowed, ',' ∉ name :=
  fun name hname => (h name hname).2.noComma

theorem AllSortable.noSign (h : AllSortable allowed) :
    ∀ name ∈ allowed, name.head? ≠ some '-' :=
  fun name hname => (h name hname).2.noSign

theorem AllSortable.ne_nil (h : AllSortable allowed) (htoken : token ∈ tokens allowed) :
    token ≠ [] := by
  obtain ⟨name, hname, rfl | rfl⟩ := mem_tokens_iff.mp htoken
  · exact (h token hname).1
  · exact List.cons_ne_nil _ _

theorem accepts_iff_pieces (h : AllSortable allowed) :
    accepts allowed raw = true ↔ ∀ piece ∈ Text.pieces ',' raw, piece ∈ tokens allowed := by
  constructor
  · intro haccepts
    obtain ⟨-, ps, hne, hps, rfl⟩ := accepts_iff.mp haccepts
    rw [Text.pieces_join hne fun p hp => comma_not_mem_of_mem_tokens h.noComma (hps p hp)]
    exact hps
  · intro hpieces
    obtain ⟨p, ps, hp⟩ := List.exists_cons_of_ne_nil (Text.pieces_ne_nil ',' raw)
    obtain ⟨name, hname, -⟩ := mem_tokens_iff.mp (hpieces p (hp ▸ List.mem_cons_self))
    exact accepts_iff.mpr ⟨⟨name, hname, (h name hname).1⟩, _, Text.pieces_ne_nil ',' raw, hpieces,
      Text.join_pieces ',' raw⟩

theorem parse_eq_ok_iff_spells (h : AllSortable allowed) (hne : raw ≠ []) {xs : List OrderItem} :
    parse allowed raw = .ok (some xs) ↔
      List.Forall₂ (Spells allowed) (Text.pieces ',' raw) xs := by
  rw [parse_eq_ok, accepts_iff_pieces h, forall₂_spells_iff h.noSign]
  exact and_iff_right hne

/-- Sort keys are read back from their tokens. -/
theorem parse_join (h : AllSortable allowed) {xs : List OrderItem} (hne : xs ≠ [])
    (hxs : ∀ x ∈ xs, x.field ∈ allowed) :
    parse allowed (Text.join [','] (xs.map OrderItem.token)) = .ok (some xs) := by
  have hspells : List.Forall₂ (Spells allowed) (xs.map OrderItem.token) xs :=
    List.forall₂_map_left_iff.mpr (List.forall₂_same.mpr fun x hx => spells_token (hxs x hx))
  have htokens := ((forall₂_spells_iff h.noSign).mp hspells).1
  have hpieces : Text.pieces ',' (Text.join [','] (xs.map OrderItem.token))
      = xs.map OrderItem.token :=
    Text.pieces_join (mt List.map_eq_nil_iff.mp hne) fun t ht =>
      comma_not_mem_of_mem_tokens h.noComma (htokens t ht)
  have htext : Text.join [','] (xs.map OrderItem.token) ≠ [] := by
    intro hnil
    rw [hnil] at hpieces
    exact h.ne_nil (htokens [] (hpieces ▸ List.mem_singleton_self _)) rfl
  exact (parse_eq_ok_iff_spells h htext).mpr (by rwa [hpieces])

/-- **Over plain names, a sort specification is read as it is written, and written as it is read.**
-/
theorem parse_reads_tokens (h : AllSortable allowed) :
    (∀ raw, raw ≠ [] →
        ((∃ xs, parse allowed raw = .ok (some xs)) ↔
          ∀ piece ∈ Text.pieces ',' raw, ∃ x, Spells allowed piece x)
        ∧ (∀ xs, parse allowed raw = .ok (some xs) →
            List.Forall₂ (Spells allowed) (Text.pieces ',' raw) xs
              ∧ Text.join [','] (xs.map OrderItem.token) = raw)
        ∧ ((∀ xs, parse allowed raw ≠ .ok (some xs)) →
            ∃ f, parse allowed raw = .error f ∧ f.family = .orderSpec
              ∧ f.field = some QueryFault.sortKey))
      ∧ ∀ xs, xs ≠ [] → (∀ x ∈ xs, x.field ∈ allowed) →
          parse allowed (Text.join [','] (xs.map OrderItem.token)) = .ok (some xs) := by
  refine ⟨fun raw hne => ⟨?_, fun xs hread => ?_, parse_eq_error hne⟩, fun xs => parse_join h⟩
  · simp only [exists_spells_iff, ← accepts_iff_pieces h, parse_eq_ok]
    exact ⟨fun ⟨_, _, haccepts, _⟩ => haccepts, fun haccepts => ⟨_, hne, haccepts, rfl⟩⟩
  · have hspells := (parse_eq_ok_iff_spells h hne).mp hread
    refine ⟨hspells, ?_⟩
    rw [map_token_of_spells hspells, Text.join_pieces]

/-- Names that begin with one another, and a name of characters that mean something in patterns. -/
def overlapping : List Text :=
  [['n', 'a'], ['n', 'a', 'm', 'e'], ['n', 'a', 'm', 'e', '-', '2'], ['(', '.', '*', '|', ')']]

theorem parse_reads_tokens_overlapping :
    AllSortable overlapping
      ∧ parse overlapping (Text.ofString "name-2,-(.*|),-na") = .ok (some
          [⟨['n', 'a', 'm', 'e', '-', '2'], false⟩, ⟨['(', '.', '*', '|', ')'], true⟩,
            ⟨['n', 'a'], true⟩])
      ∧ ∃ f, parse overlapping (Text.ofString "name,--na") = .error f ∧ f.family = .orderSpec := by
  have h : AllSortable overlapping := by decide
  obtain ⟨hread, hjoin⟩ := parse_reads_tokens h
  refine ⟨h, hjoin [⟨['n', 'a', 'm', 'e', '-', '2'], false⟩, ⟨['(', '.', '*', '|', ')'], true⟩,
    ⟨['n', 'a'], true⟩] (by decide) (by decide), ?_⟩
  obtain ⟨f, hf, hfamily, -⟩ := (hread (Text.ofString "name,--na") (by decide)).2.2 (by
    intro xs hxs
    have hpieces := (hread (Text.ofString "name,--na") (by decide)).1.mp ⟨xs, hxs⟩
    simp only [exists_spells_iff] at hpieces
    revert hpieces
    decide)
  exact ⟨f, hf, hfamily⟩

end Ordering
end TableService
