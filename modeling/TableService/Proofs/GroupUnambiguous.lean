import TableService.Proofs.GroupGrammar

/-!
# A text has one derivation

Keys and values have no stop in them and a stop behind them, so **where one ends is decided by the
text** (`cut_unique`), not by how it is derived. A key then decides the form of its term: a name of
a connective opens a group, and no field has such a name. From this, by induction on one of two
derivations, a text that goes on behind a group, a level or a term goes on alike in both.
-/

namespace TableService
namespace Group

/-! ## 1. The cut -/

theorem endsKey_eq_false_iff {c : Char} : endsKey c = false ↔ c ∉ ['=', '|', '(', ')'] := by
  simp only [endsKey, Bool.or_eq_false_iff, beq_eq_false_iff_ne, List.mem_cons, List.not_mem_nil,
    or_false, not_or, ne_eq]
  exact ⟨fun ⟨⟨⟨h, h'⟩, hc⟩, ho⟩ => ⟨h, h', ho, hc⟩, fun ⟨h, h', ho, hc⟩ => ⟨⟨⟨h, h'⟩, hc⟩, ho⟩⟩

theorem endsValue_eq_false_iff {c : Char} : endsValue c = false ↔ c ∉ ['|', ')'] := by
  simp [endsValue]

theorem key_stops {key : Text} (h : IsKey key) : ∀ c ∈ key, endsKey c = false :=
  fun c hc => endsKey_eq_false_iff.mpr (h c hc)

theorem value_stops {value : Text} (h : IsValue value) : ∀ c ∈ value, endsValue c = false :=
  fun c hc => endsValue_eq_false_iff.mpr (h c hc)

/-- Whether a text, if it is not empty, begins in a class. -/
def BeginsIn (stop : Char → Bool) (t : Text) : Prop := ∀ c ∈ t.head?, stop c = true

variable {stop : Char → Bool} {s s' t t' : Text}

theorem beginsIn_cons {c : Char} (h : stop c = true) (t : Text) : BeginsIn stop (c :: t) := by
  intro d hd
  cases hd
  exact h

/-- What ends a value ends a key. -/
theorem BeginsIn.key_of_value (h : BeginsIn endsValue t) : BeginsIn endsKey t := by
  intro c hc
  have hstop := h c hc
  simp only [endsValue, Bool.or_eq_true, beq_iff_eq] at hstop
  rcases hstop with rfl | rfl <;> rfl

theorem not_beginsIn_equals : ¬ BeginsIn endsValue ('=' :: t) := by
  intro h
  cases h '=' rfl

theorem before_append (hs : ∀ c ∈ s, stop c = false) (ht : BeginsIn stop t) :
    before stop (s ++ t) = s := by
  unfold before
  rw [List.takeWhile_append_of_pos (by simpa using hs)]
  cases t with
  | nil => simp
  | cons c t => simp [ht c rfl]

theorem onward_append (hs : ∀ c ∈ s, stop c = false) (ht : BeginsIn stop t) :
    onward stop (s ++ t) = t := by
  unfold onward
  rw [List.dropWhile_append_of_pos (by simpa using hs)]
  cases t with
  | nil => rfl
  | cons c t => simp [ht c rfl]

theorem cut_unique (hs : ∀ c ∈ s, stop c = false) (ht : BeginsIn stop t)
    (hs' : ∀ c ∈ s', stop c = false) (ht' : BeginsIn stop t') (h : s ++ t = s' ++ t') :
    s = s' ∧ t = t' := by
  refine ⟨?_, ?_⟩
  · rw [← before_append hs ht, h, before_append hs' ht']
  · rw [← onward_append hs ht, h, onward_append hs' ht']

theorem key_inj {kind kind' : Connective} (h : kind.key = kind'.key) : kind = kind' := by
  have hkey := Connective.ofKey?_key kind
  rw [h, Connective.ofKey?_key] at hkey
  exact (Option.some.inj hkey).symm

/-! ## 2. One derivation -/

variable {allowed : List Text}

/-- What a nonterminal derives is derived as nothing else, whatever stands behind it. -/
def Phrase.Single (allowed : List Text) : Phrase → Text → Prop
  | .group xs, s => ∀ ys s' r r', Derives allowed (.group ys) s' → s ++ r = s' ++ r' →
      xs = ys ∧ r = r'
  | .terms xs, s => ∀ ys s' r r', Derives allowed (.terms ys) s' →
      s ++ ')' :: r = s' ++ ')' :: r' → xs = ys ∧ r = r'
  | .term x, s => ∀ y s' r r', Derives allowed (.term y) s' → BeginsIn endsValue r →
      BeginsIn endsValue r' → s ++ r = s' ++ r' → x = y ∧ r = r'

theorem single_nested {kind : Connective} {xs : List Term} {key s : Text} (hkey : IsKey key)
    (hkind : Percent.decode key = kind.key) (ih : (Phrase.group xs).Single allowed s) :
    (Phrase.term (.group kind xs)).Single allowed (key ++ '=' :: s) := by
  intro y s' r r' hy hr hr' h
  have hstops := key_stops hkey
  rw [List.append_assoc] at h
  cases hy with
  | nested hkey' hkind' hgroup =>
    rw [List.append_assoc] at h
    obtain ⟨rfl, htail⟩ := cut_unique hstops (beginsIn_cons rfl _) (key_stops hkey')
      (beginsIn_cons rfl _) h
    obtain rfl := key_inj (hkind.symm.trans hkind')
    obtain ⟨rfl, hrest⟩ := ih _ _ r r' hgroup (List.cons.inj htail).2
    exact ⟨rfl, hrest⟩
  | bare hkey' hfield =>
    obtain ⟨rfl, -⟩ := cut_unique hstops (beginsIn_cons rfl _) (key_stops hkey') hr'.key_of_value h
    exact absurd hkind (hfield.ne_key kind)
  | valued hkey' hfield hvalue =>
    rw [List.append_assoc] at h
    obtain ⟨rfl, -⟩ := cut_unique hstops (beginsIn_cons rfl _) (key_stops hkey')
      (beginsIn_cons rfl _) h
    exact absurd hkind (hfield.ne_key kind)

theorem single_bare {key : Text} (hkey : IsKey key)
    (hfield : IsField allowed (Percent.decode key)) :
    (Phrase.term (.field (Percent.decode key) [])).Single allowed key := by
  intro y s' r r' hy hr hr' h
  have hstops := key_stops hkey
  cases hy with
  | nested hkey' hkind' hgroup =>
    rw [List.append_assoc] at h
    obtain ⟨rfl, -⟩ := cut_unique hstops hr.key_of_value (key_stops hkey') (beginsIn_cons rfl _) h
    exact absurd hkind' (hfield.ne_key _)
  | bare hkey' hfield' =>
    obtain ⟨rfl, hrest⟩ := cut_unique hstops hr.key_of_value (key_stops hkey') hr'.key_of_value h
    exact ⟨rfl, hrest⟩
  | valued hkey' hfield' hvalue =>
    rw [List.append_assoc] at h
    obtain ⟨-, rfl⟩ := cut_unique hstops hr.key_of_value (key_stops hkey') (beginsIn_cons rfl _) h
    exact absurd hr not_beginsIn_equals

theorem single_valued {key value : Text} (hkey : IsKey key)
    (hfield : IsField allowed (Percent.decode key)) (hvalue : IsValue value) :
    (Phrase.term (.field (Percent.decode key) (Percent.decode value))).Single allowed
      (key ++ '=' :: value) := by
  intro y s' r r' hy hr hr' h
  have hstops := key_stops hkey
  rw [List.append_assoc] at h
  cases hy with
  | nested hkey' hkind' hgroup =>
    rw [List.append_assoc] at h
    obtain ⟨rfl, -⟩ := cut_unique hstops (beginsIn_cons rfl _) (key_stops hkey')
      (beginsIn_cons rfl _) h
    exact absurd hkind' (hfield.ne_key _)
  | bare hkey' hfield' =>
    obtain ⟨-, rfl⟩ := cut_unique hstops (beginsIn_cons rfl _) (key_stops hkey') hr'.key_of_value h
    exact absurd hr' not_beginsIn_equals
  | valued hkey' hfield' hvalue' =>
    rw [List.append_assoc] at h
    obtain ⟨rfl, htail⟩ := cut_unique hstops (beginsIn_cons rfl _) (key_stops hkey')
      (beginsIn_cons rfl _) h
    obtain ⟨rfl, hrest⟩ := cut_unique (value_stops hvalue) hr (value_stops hvalue') hr'
      (List.cons.inj htail).2
    exact ⟨rfl, hrest⟩

theorem single_last {x : Term} (ih : (Phrase.term x).Single allowed s) :
    (Phrase.terms [x]).Single allowed s := by
  intro ys s' r r' hys h
  cases hys with
  | last hy =>
    obtain ⟨rfl, htail⟩ := ih _ _ _ _ hy (beginsIn_cons rfl _) (beginsIn_cons rfl _) h
    exact ⟨rfl, (List.cons.inj htail).2⟩
  | more hy hys =>
    rw [List.append_assoc] at h
    obtain ⟨-, htail⟩ := ih _ _ _ _ hy (beginsIn_cons rfl _) (beginsIn_cons rfl _) h
    cases htail

theorem single_more {x : Term} {xs : List Term} (ihx : (Phrase.term x).Single allowed s)
    (ihxs : (Phrase.terms xs).Single allowed t) :
    (Phrase.terms (x :: xs)).Single allowed (s ++ '|' :: t) := by
  intro ys s' r r' hys h
  rw [List.append_assoc] at h
  cases hys with
  | last hy =>
    obtain ⟨-, htail⟩ := ihx _ _ _ _ hy (beginsIn_cons rfl _) (beginsIn_cons rfl _) h
    cases htail
  | more hy hys =>
    rw [List.append_assoc] at h
    obtain ⟨rfl, htail⟩ := ihx _ _ _ _ hy (beginsIn_cons rfl _) (beginsIn_cons rfl _) h
    obtain ⟨rfl, hrest⟩ := ihxs _ _ r r' hys (List.cons.inj htail).2
    exact ⟨rfl, hrest⟩

theorem single_group {xs : List Term} (ih : (Phrase.terms xs).Single allowed s) :
    (Phrase.group xs).Single allowed ('(' :: (s ++ [')'])) := by
  intro ys s' r r' hys h
  cases hys with
  | group hterms =>
    refine ih _ _ r r' hterms ?_
    simpa using h

theorem single_of_derives {φ : Phrase} (h : Derives allowed φ s) : φ.Single allowed s := by
  induction h with
  | group _ ih => exact single_group ih
  | last _ ih => exact single_last ih
  | more _ _ ihx ihxs => exact single_more ihx ihxs
  | nested hkey hkind _ ih => exact single_nested hkey hkind ih
  | bare hkey hfield => exact single_bare hkey hfield
  | valued hkey hfield hvalue => exact single_valued hkey hfield hvalue

/-- **The grammar is unambiguous.** The terms of a group can be told from its text. -/
theorem derives_unique {xs ys : List Term} (hxs : Derives allowed (.group xs) t)
    (hys : Derives allowed (.group ys) t) : xs = ys :=
  (single_of_derives hxs ys t [] [] hys rfl).1

end Group
end TableService
