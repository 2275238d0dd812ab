import TableService.Proofs.GroupSlots
import TableService.Proofs.GroupUnambiguous

/-!
# Reading a group is deriving it

The reader of groups accepts exactly the texts of the grammar, and what it returns is the filter of
the derivation. Beside the slots two things stand between the two.

**The cut.** The reader takes the longest text without a stop; the grammar says that keys and values
have no stop in them, so the reader cuts where the grammar does.

**The depth.** Every call spends one. A text of the grammar needs at most two for each of its
characters, and `Group.enough` has three.

Soundness is an induction on the depth, with one statement for each of the three readers about what
the text in front of them looks like; completeness is an induction on the derivation, with one
statement for each nonterminal about what the readers do on its texts.
-/

namespace TableService
namespace Group

/-! ## 1. What is read is derived -/

theorem isKey_before (t : Text) : IsKey (before endsKey t) :=
  fun _ hc => endsKey_eq_false_iff.mp (not_stop_of_mem_before hc)

theorem isValue_before (t : Text) : IsValue (before endsValue t) :=
  fun _ hc => endsValue_eq_false_iff.mp (not_stop_of_mem_before hc)

theorem ofKey?_eq_none_iff {t : Text} :
    Connective.ofKey? t = none ↔ ∀ kind : Connective, t ≠ kind.key := by
  constructor
  · rintro h kind rfl
    rw [Connective.ofKey?_key] at h
    cases h
  · intro h
    cases hk : Connective.ofKey? t with
    | none => rfl
    | some kind => exact absurd (Connective.key_of_ofKey? hk) (h kind)

variable {allowed : List Text} {kind : Connective} {slots : List Slot} {depth pos next : Nat}
  {fs : List Filter} {t r : Text}

/-- The filters of a level, part of which is in slots already. -/
def filtersFrom? (slots : List Slot) (xs : List Term) : Option (List Filter) :=
  (Slot.putAll? slots xs).bind (·.mapM Slot.filter?)

/-- A group stands in front of `r`. -/
def HasGroup (allowed : List Text) (t : Text) (fs : List Filter) (r : Text) : Prop :=
  ∃ xs s, t = s ++ r ∧ Derives allowed (.group xs) s ∧ filters? [] xs = some fs

/-- The rest of a level, from a term on, stands in front of `r`. -/
def HasTerms (allowed : List Text) (slots : List Slot) (t : Text) (fs : List Filter) (r : Text) :
    Prop :=
  ∃ xs s, t = s ++ ')' :: r ∧ Derives allowed (.terms xs) s ∧ filtersFrom? slots xs = some fs

/-- The rest of a level, from behind a term on, stands in front of `r`. -/
def HasNext (allowed : List Text) (slots : List Slot) (t : Text) (fs : List Filter) (r : Text) :
    Prop :=
  (t = ')' :: r ∧ slots.mapM Slot.filter? = some fs) ∨
    ∃ u, t = '|' :: u ∧ HasTerms allowed slots u fs r

theorem hasGroup_of_terms (h : HasTerms allowed [] t fs r) : HasGroup allowed ('(' :: t) fs r := by
  obtain ⟨xs, s, rfl, hs, hfs⟩ := h
  refine ⟨xs, '(' :: (s ++ [')']), by simp, .group hs, ?_⟩
  rw [← Slot.putAll?_nil]
  exact hfs

/-- A term in front of the rest of its level. -/
theorem hasTerms_of_term {x : Term} {s : Text} {after : List Slot}
    (hx : Derives allowed (.term x) s)
    (hput : Slot.put? slots x = some after)
    (h : HasNext allowed after t fs r) : HasTerms allowed slots (s ++ t) fs r := by
  rcases h with ⟨rfl, hfs⟩ | ⟨u, rfl, xs, v, rfl, hv, hfs⟩
  · refine ⟨[x], s, rfl, .last hx, ?_⟩
    rw [filtersFrom?, Slot.putAll?, hput]
    exact hfs
  · refine ⟨x :: xs, s ++ '|' :: v, by simp, .more hx hv, ?_⟩
    rw [filtersFrom?, Slot.putAll?, hput]
    exact hfs

theorem hasGroup_of_readGroup
    (hterm : ∀ {pos slots t next fs r},
      readTerm allowed kind depth pos slots t = .ok (fs, next, r) → HasTerms allowed slots t fs r)
    (h : readGroup allowed kind (depth + 1) pos t = .ok (fs, next, r)) :
    HasGroup allowed t fs r := by
  unfold readGroup at h
  split at h
  · cases h
  · exact hasGroup_of_terms (hterm h)
  · cases h

theorem hasNext_of_readNext
    (hterm : ∀ {pos slots t next fs r},
      readTerm allowed kind depth pos slots t = .ok (fs, next, r) → HasTerms allowed slots t fs r)
    (h : readNext allowed kind (depth + 1) pos slots t = .ok (fs, next, r)) :
    HasNext allowed slots t fs r := by
  unfold readNext at h
  split at h
  · next u => exact Or.inr ⟨u, rfl, hterm h⟩
  · next u =>
    split at h
    · cases h
    · next gs hgs =>
      cases h
      refine Or.inl ⟨rfl, ?_⟩
      rw [← Slot.toOption_close, hgs]
      rfl
  · cases h
  · cases h

theorem hasTerms_of_readTerm
    (hgroup : ∀ {pos t next fs r},
      readGroup allowed kind depth pos t = .ok (fs, next, r) → HasGroup allowed t fs r)
    (hnext : ∀ {pos slots t next fs r},
      readNext allowed kind depth pos slots t = .ok (fs, next, r) → HasNext allowed slots t fs r)
    (h : readTerm allowed kind (depth + 1) pos slots t = .ok (fs, next, r)) :
    HasTerms allowed slots t fs r := by
  have hcut : before endsKey t ++ onward endsKey t = t := before_append_onward endsKey t
  have hkey : IsKey (before endsKey t) := isKey_before t
  unfold readTerm at h
  dsimp only at h
  split at h
  · cases h
  · next hname =>
    split at h
    · next inner hinner =>
      -- The key opens a group: it is derived by `nested`.
      split at h
      · next u hu =>
        split at h
        · cases h
        · next gs place v hv =>
          obtain ⟨xs, s, rfl, hs, hgs⟩ := hgroup hv
          have hput : Slot.put? slots (.group inner xs)
              = some (slots ++ [.nested (Filter.combine inner gs)]) := by
            rw [Slot.put?, Term.nested?, hgs, combine_eq_grouped]
            rfl
          rw [← hcut, hu, ← List.cons_append, ← List.append_assoc]
          exact hasTerms_of_term (.nested hkey (Connective.key_of_ofKey? hinner) hs) hput (hnext h)
      · cases h
    · next hplain =>
      split at h
      · cases h
      · next hmem =>
        -- The key names a field: what follows decides between `valued` and `bare`.
        have hfield : IsField allowed (Percent.decode (before endsKey t)) :=
          ⟨hname, Decidable.of_not_not hmem, ofKey?_eq_none_iff.mp hplain⟩
        split at h
        · next u hu =>
          have hvalue : before endsValue u ++ onward endsValue u = u :=
            before_append_onward endsValue u
          rw [← hcut, hu, ← hvalue, ← List.cons_append, ← List.append_assoc]
          exact hasTerms_of_term (.valued hkey hfield (isValue_before u)) rfl (hnext h)
        · rw [← hcut]
          exact hasTerms_of_term (.bare hkey hfield) rfl (hnext h)

/-- **Soundness.** Whatever a reader returns, the grammar derives the text that it took. -/
theorem reads_sound (allowed : List Text) (kind : Connective) : ∀ depth,
    (∀ {pos t next fs r}, readGroup allowed kind depth pos t = .ok (fs, next, r) →
      HasGroup allowed t fs r) ∧
    (∀ {pos slots t next fs r}, readTerm allowed kind depth pos slots t = .ok (fs, next, r) →
      HasTerms allowed slots t fs r) ∧
    (∀ {pos slots t next fs r}, readNext allowed kind depth pos slots t = .ok (fs, next, r) →
      HasNext allowed slots t fs r) := by
  intro depth
  induction depth with
  | zero =>
    refine ⟨fun h => ?_, fun h => ?_, fun h => ?_⟩
    · unfold readGroup at h
      cases h
    · unfold readTerm at h
      cases h
    · unfold readNext at h
      cases h
  | succ depth ih =>
    obtain ⟨hgroup, hterm, hnext⟩ := ih
    exact ⟨hasGroup_of_readGroup hterm, hasTerms_of_readTerm hgroup hnext,
      hasNext_of_readNext hterm⟩

/-! ## 2. The three forms of a term -/

theorem key_ne_nil (kind : Connective) : kind.key ≠ [] := by
  cases kind <;> simp [Connective.key]

theorem readTerm_nested {inner : Connective} {key : Text} (hkey : IsKey key)
    (hinner : Percent.decode key = inner.key) :
    readTerm allowed kind (depth + 1) pos slots (key ++ '=' :: t) =
      match readGroup allowed kind depth (pos + key.length + 1) t with
      | .error e => .error e
      | .ok (fs, pos, r) =>
        readNext allowed kind depth pos (slots ++ [.nested (Filter.combine inner fs)]) r := by
  unfold readTerm
  dsimp only
  rw [before_append (key_stops hkey) (beginsIn_cons rfl t),
    onward_append (key_stops hkey) (beginsIn_cons rfl t), hinner, if_neg (key_ne_nil inner),
    Connective.ofKey?_key]
  rfl

theorem readTerm_bare {key : Text} (hkey : IsKey key)
    (hfield : IsField allowed (Percent.decode key)) (ht : BeginsIn endsValue t) :
    readTerm allowed kind (depth + 1) pos slots (key ++ t) =
      readNext allowed kind depth (pos + key.length)
        (Slot.addValue (Percent.decode key) [] slots) t := by
  have ht' : BeginsIn endsKey t := ht.key_of_value
  unfold readTerm
  dsimp only
  rw [before_append (key_stops hkey) ht', onward_append (key_stops hkey) ht', if_neg hfield.ne_nil,
    ofKey?_eq_none_iff.mpr hfield.ne_key]
  dsimp only
  rw [if_neg (not_not_intro hfield.mem)]
  split
  -- What follows ends a value, so it does not begin with `=`.
  · exact absurd ht not_beginsIn_equals
  · rfl

theorem readTerm_valued {key value : Text} (hkey : IsKey key)
    (hfield : IsField allowed (Percent.decode key)) (hvalue : IsValue value)
    (ht : BeginsIn endsValue t) :
    readTerm allowed kind (depth + 1) pos slots (key ++ '=' :: (value ++ t)) =
      readNext allowed kind depth (pos + key.length + 1 + value.length)
        (Slot.addValue (Percent.decode key) (Percent.decode value) slots) t := by
  unfold readTerm
  dsimp only
  rw [before_append (key_stops hkey) (beginsIn_cons rfl _),
    onward_append (key_stops hkey) (beginsIn_cons rfl _), if_neg hfield.ne_nil,
    ofKey?_eq_none_iff.mpr hfield.ne_key]
  dsimp only
  rw [if_neg (not_not_intro hfield.mem)]
  show readNext allowed kind depth
    (pos + key.length + 1 + (before endsValue (value ++ t)).length)
    (Slot.addValue (Percent.decode key) (Percent.decode (before endsValue (value ++ t))) slots)
    (onward endsValue (value ++ t)) = _
  rw [before_append (value_stops hvalue) ht, onward_append (value_stops hvalue) ht]

theorem readNext_more :
    readNext allowed kind (depth + 1) pos slots ('|' :: t)
      = readTerm allowed kind depth (pos + 1) slots t := by
  unfold readNext
  rfl

theorem readNext_close (h : slots.mapM Slot.filter? = some fs) :
    readNext allowed kind (depth + 1) pos slots (')' :: t) = .ok (fs, pos + 1, t) := by
  rw [← Slot.toOption_close] at h
  unfold readNext
  cases hc : Slot.close slots with
  | error e =>
    rw [hc] at h
    cases h
  | ok gs =>
    rw [hc] at h
    cases h
    rfl

/-! ## 3. What is derived is read -/

/-- What the readers do on a text that a nonterminal derives, given depth for two calls a character:
a group and the terms of a level are read to their end, and a term is taken off the front. -/
def Phrase.Reads (allowed : List Text) (kind : Connective) : Phrase → Text → Prop
  | .group xs, s => ∀ depth pos r fs, 2 * s.length ≤ depth → filters? [] xs = some fs →
      readGroup allowed kind depth pos (s ++ r) = .ok (fs, pos + s.length, r)
  | .terms xs, s => ∀ depth pos slots r fs, 2 * s.length + 2 ≤ depth →
      filtersFrom? slots xs = some fs →
      readTerm allowed kind depth pos slots (s ++ ')' :: r) = .ok (fs, pos + s.length + 1, r)
  | .term x, s => ∀ depth pos slots after r, 2 * s.length ≤ depth →
      Slot.put? slots x = some after → BeginsIn endsValue r →
      readTerm allowed kind (depth + 1) pos slots (s ++ r)
        = readNext allowed kind depth (pos + s.length) after r

theorem reads_nested {inner : Connective} {xs : List Term} {key s : Text} (hkey : IsKey key)
    (hinner : Percent.decode key = inner.key) (h : (Phrase.group xs).Reads allowed kind s) :
    (Phrase.term (.group inner xs)).Reads allowed kind (key ++ '=' :: s) := by
  intro depth pos slots after r hdepth hput hr
  obtain ⟨f, hf, rfl⟩ := Option.map_eq_some_iff.mp hput
  obtain ⟨fs, hfs, rfl⟩ := Option.map_eq_some_iff.mp hf
  simp only [List.length_append, List.length_cons] at hdepth
  rw [List.append_assoc, List.cons_append, readTerm_nested hkey hinner,
    h depth _ r fs (by omega) hfs]
  dsimp only
  rw [combine_eq_grouped]
  congr 1
  simp only [List.length_append, List.length_cons]
  omega

theorem reads_bare {key : Text} (hkey : IsKey key) (hfield : IsField allowed (Percent.decode key)) :
    (Phrase.term (.field (Percent.decode key) [])).Reads allowed kind key := by
  intro depth pos slots after r hdepth hput hr
  cases hput
  exact readTerm_bare hkey hfield hr

theorem reads_valued {key value : Text} (hkey : IsKey key)
    (hfield : IsField allowed (Percent.decode key)) (hvalue : IsValue value) :
    (Phrase.term (.field (Percent.decode key) (Percent.decode value))).Reads allowed kind
      (key ++ '=' :: value) := by
  intro depth pos slots after r hdepth hput hr
  cases hput
  rw [List.append_assoc, List.cons_append, readTerm_valued hkey hfield hvalue hr]
  congr 1
  simp only [List.length_append, List.length_cons]
  omega

theorem reads_last {x : Term} {s : Text} (h : (Phrase.term x).Reads allowed kind s) :
    (Phrase.terms [x]).Reads allowed kind s := by
  intro depth pos slots r fs hdepth hfs
  obtain ⟨all, hall, hfs⟩ := Option.bind_eq_some_iff.mp hfs
  obtain ⟨after, hput, hafter⟩ := Option.bind_eq_some_iff.mp hall
  obtain rfl : after = all := Option.some.inj hafter
  obtain ⟨d, rfl⟩ : ∃ d, depth = d + 2 := ⟨depth - 2, by omega⟩
  have hstop : BeginsIn endsValue (')' :: r) := beginsIn_cons rfl r
  rw [h (d + 1) pos slots after (')' :: r) (by omega) hput hstop]
  exact readNext_close hfs

theorem reads_more {x : Term} {xs : List Term} {s u : Text}
    (hx : (Phrase.term x).Reads allowed kind s) (hxs : (Phrase.terms xs).Reads allowed kind u) :
    (Phrase.terms (x :: xs)).Reads allowed kind (s ++ '|' :: u) := by
  intro depth pos slots r fs hdepth hfs
  obtain ⟨all, hall, hfs⟩ := Option.bind_eq_some_iff.mp hfs
  obtain ⟨after, hput, hafter⟩ := Option.bind_eq_some_iff.mp hall
  simp only [List.length_append, List.length_cons] at hdepth
  obtain ⟨d, rfl⟩ : ∃ d, depth = d + 2 := ⟨depth - 2, by omega⟩
  have hstop : BeginsIn endsValue ('|' :: (u ++ ')' :: r)) := beginsIn_cons rfl _
  rw [List.append_assoc, List.cons_append, hx (d + 1) pos slots after _ (by omega) hput hstop]
  rw [readNext_more, hxs d _ after r fs (by omega) (Option.bind_eq_some_iff.mpr ⟨all, hafter, hfs⟩)]
  congr 3
  simp only [List.length_append, List.length_cons]
  omega

/-- A term begins with a character of its key. -/
theorem exists_cons_of_term {x : Term} {s : Text} (h : Derives allowed (.term x) s) :
    ∃ c u, s = c :: u ∧ endsKey c = false := by
  have hbegins : ∀ {key : Text} (u : Text), IsKey key → Percent.decode key ≠ [] →
      ∃ c v, key ++ u = c :: v ∧ endsKey c = false := by
    intro key u hkey hname
    cases key with
    | nil => exact absurd rfl hname
    | cons c v => exact ⟨c, v ++ u, rfl, key_stops hkey c List.mem_cons_self⟩
  cases h with
  | nested hkey hinner _ => exact hbegins _ hkey (by rw [hinner]; exact key_ne_nil _)
  | bare hkey hfield => simpa using hbegins [] hkey hfield.ne_nil
  | valued hkey hfield _ => exact hbegins _ hkey hfield.ne_nil

theorem exists_cons_of_terms {xs : List Term} {s : Text} (h : Derives allowed (.terms xs) s) :
    ∃ c u, s = c :: u ∧ endsKey c = false := by
  cases h with
  | last hx => exact exists_cons_of_term hx
  | more hx _ =>
    obtain ⟨c, u, rfl, hc⟩ := exists_cons_of_term hx
    exact ⟨c, _, rfl, hc⟩

theorem reads_group {xs : List Term} {s : Text} (hs : Derives allowed (.terms xs) s)
    (h : (Phrase.terms xs).Reads allowed kind s) :
    (Phrase.group xs).Reads allowed kind ('(' :: (s ++ [')'])) := by
  intro depth pos r fs hdepth hfs
  simp only [List.length_append, List.length_cons, List.length_nil] at hdepth
  obtain ⟨d, rfl⟩ : ∃ d, depth = d + 1 := ⟨depth - 1, by omega⟩
  rw [← Slot.putAll?_nil] at hfs
  have hterms := h d (pos + 1) [] r fs (by omega) hfs
  obtain ⟨c, u, rfl, hc⟩ := exists_cons_of_terms hs
  -- The arm of the empty group is not taken: what ends a key does not begin a term.
  have hne : c ≠ ')' := by
    rintro rfl
    cases hc
  have happend : '(' :: (c :: u ++ [')']) ++ r = '(' :: c :: (u ++ ')' :: r) := by simp
  have hplace : pos + 1 + (c :: u).length + 1 = pos + ('(' :: (c :: u ++ [')'])).length := by
    simp only [List.length_append, List.length_cons, List.length_nil]
    omega
  unfold readGroup
  rw [happend]
  split
  · next heq =>
    cases heq
    exact absurd rfl hne
  · next heq =>
    cases heq
    rw [← hplace]
    exact hterms
  · next hopen =>
    exact absurd rfl (hopen _)

/-- **Completeness.** What a nonterminal derives, the readers read. -/
theorem reads_of_derives (kind : Connective) {φ : Phrase} {s : Text} (h : Derives allowed φ s) :
    φ.Reads allowed kind s := by
  induction h with
  | group h ih => exact reads_group h ih
  | last _ ih => exact reads_last ih
  | more _ _ ihx ihxs => exact reads_more ihx ihxs
  | nested hkey hkind _ ih => exact reads_nested hkey hkind ih
  | bare hkey hfield => exact reads_bare hkey hfield
  | valued hkey hfield hvalue => exact reads_valued hkey hfield hvalue

/-! ## 4. The whole text -/

/-- What is read as a group has a derivation, and is its tree. -/
theorem derives_of_read {f : Filter} (h : read allowed kind t = .ok f) :
    ∃ xs, Derives allowed (.group xs) t ∧ tree? kind xs = some f := by
  unfold read at h
  split at h
  · cases h
  · next fs pos r hg =>
    split at h
    · next hr =>
      subst hr
      cases h
      obtain ⟨xs, s, rfl, hs, hfs⟩ := (reads_sound allowed kind _).1 hg
      refine ⟨xs, by simpa using hs, ?_⟩
      rw [tree?, hfs, combine_eq_grouped]
      rfl
    · cases h

/-- A derivation whose values are predicates is read, as its tree. -/
theorem read_of_derives {xs : List Term} {f : Filter} (h : Derives allowed (.group xs) t)
    (hf : tree? kind xs = some f) : read allowed kind t = .ok f := by
  obtain ⟨fs, hfs, rfl⟩ := Option.map_eq_some_iff.mp hf
  have hdepth : 2 * t.length ≤ enough t := by
    unfold enough
    omega
  have hg : readGroup allowed kind (enough t) 0 (t ++ []) = .ok (fs, 0 + t.length, []) :=
    reads_of_derives kind h (enough t) 0 [] fs hdepth hfs
  rw [List.append_nil] at hg
  rw [read, hg, ← combine_eq_grouped]
  rfl

/-- **The reader accepts its grammar, and returns the tree of the derivation.** A text is read
exactly if some terms derive it whose values all spell predicates, and then what is read is their
tree. -/
theorem read_iff_derives (allowed : List Text) (kind : Connective) (t : Text) :
    ((∃ f, read allowed kind t = .ok f) ↔
      ∃ xs, Derives allowed (.group xs) t ∧ ∀ x ∈ xs, x.Readable) ∧
    ∀ xs, Derives allowed (.group xs) t →
      ∀ f, read allowed kind t = .ok f ↔ tree? kind xs = some f := by
  refine ⟨⟨?_, ?_⟩, fun xs hxs f => ⟨fun h => ?_, read_of_derives hxs⟩⟩
  · rintro ⟨f, hf⟩
    obtain ⟨xs, hxs, htree⟩ := derives_of_read hf
    exact ⟨xs, hxs, exists_tree?_iff.mp ⟨f, htree⟩⟩
  · rintro ⟨xs, hxs, hread⟩
    obtain ⟨f, hf⟩ := exists_tree?_iff.mpr hread
    exact ⟨f, read_of_derives hxs hf⟩
  · obtain ⟨ys, hys, htree⟩ := derives_of_read h
    rw [derives_unique hxs hys]
    exact htree

/-- A bare field, a connective that is written with an escape, a value that looks like a group, and
the field again. -/
def escaped : Text :=
  ['(', 'b', '|', '%', '6', 'F', 'r', '=', '(', 'a', '=', '(', '=', ')', '|', 'b', '=', '~', ')']

theorem read_escaped :
    ∃ xs, Derives [['a'], ['b']] (.group xs) escaped ∧
      read [['a'], ['b']] .not escaped = .ok (.not (.all [
        .all [.test ['b'] (.null true), .test ['b'] (.pattern false false (.ofText []))],
        .any [.test ['a'] (.compare .eq (.ofText ['(', '=']))]])) := by
  have ha : IsField [['a'], ['b']] ['a'] :=
    ⟨by simp, by simp, fun kind => by cases kind <;> simp [Connective.key]⟩
  have hb : IsField [['a'], ['b']] ['b'] :=
    ⟨by simp, by simp, fun kind => by cases kind <;> simp [Connective.key]⟩
  have hbare := @Derives.bare [['a'], ['b']] ['b'] (by simp [IsKey]) hb
  have hinner := @Derives.valued [['a'], ['b']] ['a'] ['(', '='] (by simp [IsKey]) ha
    (by simp [IsValue])
  have hnested := @Derives.nested [['a'], ['b']] .or _ ['%', '6', 'F', 'r'] _ (by simp [IsKey]) rfl
    (.group (.last hinner))
  have hagain := @Derives.valued [['a'], ['b']] ['b'] ['~'] (by simp [IsKey]) hb (by simp [IsValue])
  have hgroup := Derives.group (.more hbare (.more hnested (.last hagain)))
  exact ⟨_, hgroup, ((read_iff_derives _ _ _).2 _ hgroup _).mpr rfl⟩

end Group
end TableService
