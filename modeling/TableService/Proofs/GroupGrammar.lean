import TableService.Filter.Group

/-!
# The grammar of groups, and the tree of a derivation

`TableService.Filter.Group` reads groups by a machine with a depth, a place and slots. Here is what
it is held to, without any of these: **abstract terms**, the texts that derive them, and the filter
that they stand for.

The grammar is one relation over a nonterminal that carries what it derives,

```
group := '(' terms ')'
terms := term | term '|' terms
term  := key '=' group | key | key '=' value
```

where a key has none of `=`, `|`, `(`, `)` in it and a value neither `|` nor `)`. A key of the first
form decodes to a connective, and one of the others to a field of the allow-list.

The filter of a level is said by looking forward instead of collecting: the first term of a field
takes **the values of that field from the whole level**, and its later terms are passed over.
-/

namespace TableService
namespace Group

/-! ## 1. Terms and their filters -/

/-- A term of a group, with its name and value decoded. -/
inductive Term where
  | field (name value : Text)
  | group (kind : Connective) (parts : List Term)
  deriving Repr, Inhabited

/-- The values that a level has for a field, in order. -/
def valuesOf (name : Text) : List Term → List Text
  | [] => []
  | .field n value :: xs => if n = name then value :: valuesOf name xs else valuesOf name xs
  | .group _ _ :: xs => valuesOf name xs

/-- The predicate that a value spells, on its field. -/
def leaf? (name value : Text) : Option Filter :=
  (Predicate.read (some name) value).toOption.map (.test name)

/-- The filter of the values of one field: a leaf, or the conjunction of several. -/
def fieldFilter? (name : Text) : List Text → Option Filter
  | [] => none
  | values => (values.mapM (leaf? name)).map Filter.merge

/-- Parts under a connective. What `not` negates is one filter, if need be a conjunction. -/
def grouped (kind : Connective) (parts : List Filter) : Filter :=
  match kind with
  | .and => .all parts
  | .or => .any parts
  | .not => .not (Filter.merge parts)

theorem combine_eq_grouped (kind : Connective) (parts : List Filter) :
    Filter.combine kind parts = grouped kind parts := by
  match kind, parts with
  | .and, _ => rfl
  | .or, _ => rfl
  | .not, [] => rfl
  | .not, [f] => rfl
  | .not, f :: g :: fs => rfl

mutual

/-- The filter of a term that is a group. -/
def Term.nested? : Term → Option Filter
  | .field _ _ => none
  | .group kind parts => (filters? [] parts).map (grouped kind)
termination_by structural x => x

/-- The filters of a level, but for the fields in `seen`; none if a value is no predicate. -/
def filters? (seen : List Text) : List Term → Option (List Filter)
  | [] => some []
  | .field name value :: xs =>
    if name ∈ seen then filters? seen xs
    else do
      let f ← fieldFilter? name (value :: valuesOf name xs)
      let fs ← filters? (name :: seen) xs
      return f :: fs
  | .group kind parts :: xs => do
    let f ← Term.nested? (.group kind parts)
    let fs ← filters? seen xs
    return f :: fs
termination_by structural xs => xs

end

/-- The filter of a whole group. -/
def tree? (kind : Connective) (parts : List Term) : Option Filter :=
  (filters? [] parts).map (grouped kind)

/-- Whether every value in a term spells a predicate. -/
inductive Term.Readable : Term → Prop where
  | field {name value : Text} {p : Predicate} (h : Predicate.read (some name) value = .ok p) :
      Readable (.field name value)
  | group {kind : Connective} {parts : List Term} (h : ∀ x ∈ parts, Readable x) :
      Readable (.group kind parts)

/-! ## 2. The grammar -/

/-- Whether a text may stand as a key. -/
def IsKey (t : Text) : Prop := ∀ c ∈ t, c ∉ ['=', '|', '(', ')']

/-- Whether a text may stand as a value. -/
def IsValue (t : Text) : Prop := ∀ c ∈ t, c ∉ ['|', ')']

/-- Whether a name is a field of an allow-list that no connective hides. -/
structure IsField (allowed : List Text) (name : Text) : Prop where
  ne_nil : name ≠ []
  mem : name ∈ allowed
  ne_key : ∀ kind : Connective, name ≠ kind.key

/-- The nonterminals of the grammar, each with what it derives. -/
inductive Phrase where
  | group (parts : List Term)
  | terms (parts : List Term)
  | term (x : Term)

/-- The texts that a nonterminal derives. -/
inductive Derives (allowed : List Text) : Phrase → Text → Prop where
  | group {xs : List Term} {t : Text} (h : Derives allowed (.terms xs) t) :
      Derives allowed (.group xs) ('(' :: (t ++ [')']))
  | last {x : Term} {t : Text} (h : Derives allowed (.term x) t) :
      Derives allowed (.terms [x]) t
  | more {x : Term} {xs : List Term} {s t : Text} (hx : Derives allowed (.term x) s)
      (hxs : Derives allowed (.terms xs) t) : Derives allowed (.terms (x :: xs)) (s ++ '|' :: t)
  | nested {kind : Connective} {xs : List Term} {key t : Text} (hkey : IsKey key)
      (hkind : Percent.decode key = kind.key) (h : Derives allowed (.group xs) t) :
      Derives allowed (.term (.group kind xs)) (key ++ '=' :: t)
  | bare {key : Text} (hkey : IsKey key) (hfield : IsField allowed (Percent.decode key)) :
      Derives allowed (.term (.field (Percent.decode key) [])) key
  | valued {key value : Text} (hkey : IsKey key) (hfield : IsField allowed (Percent.decode key))
      (hvalue : IsValue value) :
      Derives allowed (.term (.field (Percent.decode key) (Percent.decode value)))
        (key ++ '=' :: value)

/-! ## 3. Readable terms are those with a filter -/

theorem exists_mapM_eq_some {α β : Type} {f : α → Option β} {xs : List α} :
    (∃ ys, xs.mapM f = some ys) ↔ ∀ x ∈ xs, ∃ y, f x = some y := by
  induction xs with
  | nil => simp
  | cons x xs ih =>
    cases hx : f x with
    | none => simp [hx]
    | some y =>
      simp only [List.mapM_cons, List.forall_mem_cons, hx, ← ih]
      cases xs.mapM f with
      | none => simp
      | some ys => simp

theorem exists_fieldFilter?_eq_some {name : Text} {values : List Text} (h : values ≠ []) :
    (∃ f, fieldFilter? name values = some f) ↔
      ∀ value ∈ values, ∃ p, Predicate.read (some name) value = .ok p := by
  have hleaf : ∀ value, (∃ f, leaf? name value = some f) ↔
      ∃ p, Predicate.read (some name) value = .ok p := by
    intro value
    unfold leaf?
    cases Predicate.read (some name) value with
    | error e => simp [Except.toOption]
    | ok p => simp [Except.toOption]
  unfold fieldFilter?
  split
  · exact absurd rfl h
  · simp only [Option.map_eq_some_iff, ← hleaf, ← exists_mapM_eq_some]
    exact ⟨fun ⟨_, fs, hfs, _⟩ => ⟨fs, hfs⟩, fun ⟨fs, hfs⟩ => ⟨_, fs, hfs, rfl⟩⟩

theorem mem_valuesOf {name value : Text} {xs : List Term} :
    value ∈ valuesOf name xs ↔ .field name value ∈ xs := by
  induction xs with
  | nil => simp [valuesOf]
  | cons x xs ih =>
    cases x with
    | group kind parts => simp [valuesOf, ih]
    | field n v =>
      by_cases hn : n = name
      · subst hn
        simp [valuesOf, ih]
      · simp [valuesOf, ih, hn, Ne.symm hn]

mutual

theorem Term.readable_of_nested? : ∀ (x : Term) {f : Filter}, x.nested? = some f → x.Readable
  | .field _ _, f, h => by
    cases h
  | .group kind parts, f, h => by
    obtain ⟨fs, hfs, -⟩ := Option.map_eq_some_iff.mp h
    refine .group fun x hx => ?_
    rcases readable_of_filters? parts hfs x hx with hr | ⟨_, _, _, hn⟩
    · exact hr
    · exact absurd hn (by simp)

/-- A level with filters is readable, but for the fields that were not looked at. -/
theorem readable_of_filters? : ∀ (xs : List Term) {seen : List Text} {fs : List Filter},
    filters? seen xs = some fs →
      ∀ x ∈ xs, x.Readable ∨ ∃ name value, x = .field name value ∧ name ∈ seen
  | [], _, _, _, x, hx => absurd hx (by simp)
  | .field name value :: xs, seen, fs, h, x, hx => by
    rw [filters?] at h
    split at h
    · next hseen =>
      rcases List.mem_cons.mp hx with rfl | htail
      · exact Or.inr ⟨name, value, rfl, hseen⟩
      · exact readable_of_filters? xs h x htail
    · obtain ⟨f, hf, h⟩ := Option.bind_eq_some_iff.mp h
      obtain ⟨gs, hgs, -⟩ := Option.bind_eq_some_iff.mp h
      have hread := (exists_fieldFilter?_eq_some (by simp)).mp ⟨f, hf⟩
      -- The first term of a field vouches for the later ones, which the level passes over.
      rcases List.mem_cons.mp hx with rfl | htail
      · obtain ⟨p, hp⟩ := hread value List.mem_cons_self
        exact Or.inl (.field hp)
      · rcases readable_of_filters? xs hgs x htail with hr | ⟨n, v, rfl, hn⟩
        · exact Or.inl hr
        · rcases List.mem_cons.mp hn with rfl | hn
          · obtain ⟨p, hp⟩ := hread v (List.mem_cons_of_mem _ (mem_valuesOf.mpr htail))
            exact Or.inl (.field hp)
          · exact Or.inr ⟨n, v, rfl, hn⟩
  | .group kind parts :: xs, seen, fs, h, x, hx => by
    rw [filters?] at h
    obtain ⟨f, hf, h⟩ := Option.bind_eq_some_iff.mp h
    obtain ⟨gs, hgs, -⟩ := Option.bind_eq_some_iff.mp h
    rcases List.mem_cons.mp hx with rfl | htail
    · exact Or.inl (Term.readable_of_nested? _ hf)
    · exact readable_of_filters? xs hgs x htail

end

mutual

theorem Term.exists_nested? : ∀ (kind : Connective) (parts : List Term),
    (Term.group kind parts).Readable → ∃ f, (Term.group kind parts).nested? = some f
  | kind, parts, h => by
    cases h with
    | group h =>
      obtain ⟨fs, hfs⟩ := exists_filters? parts [] h
      exact ⟨_, Option.map_eq_some_iff.mpr ⟨fs, hfs, rfl⟩⟩

theorem exists_filters? : ∀ (xs : List Term) (seen : List Text),
    (∀ x ∈ xs, x.Readable) → ∃ fs, filters? seen xs = some fs
  | [], _, _ => ⟨[], rfl⟩
  | .field name value :: xs, seen, h => by
    obtain ⟨hx, hxs⟩ := List.forall_mem_cons.mp h
    rw [filters?]
    split
    · exact exists_filters? xs seen hxs
    · have hread : ∀ v ∈ value :: valuesOf name xs, ∃ p, Predicate.read (some name) v = .ok p := by
        intro v hv
        have hmem : Term.field name v ∈ Term.field name value :: xs := by
          simpa [mem_valuesOf] using hv
        cases h _ hmem with
        | field hp => exact ⟨_, hp⟩
      obtain ⟨f, hf⟩ := (exists_fieldFilter?_eq_some (by simp)).mpr hread
      obtain ⟨fs, hfs⟩ := exists_filters? xs (name :: seen) hxs
      exact ⟨f :: fs, by simp [hf, hfs]⟩
  | .group kind parts :: xs, seen, h => by
    obtain ⟨hx, hxs⟩ := List.forall_mem_cons.mp h
    obtain ⟨f, hf⟩ := Term.exists_nested? kind parts hx
    obtain ⟨fs, hfs⟩ := exists_filters? xs seen hxs
    exact ⟨f :: fs, by simp [filters?, hf, hfs]⟩

end

/-- **A group has a filter exactly if all its values are readable.** -/
theorem exists_tree?_iff {kind : Connective} {xs : List Term} :
    (∃ f, tree? kind xs = some f) ↔ ∀ x ∈ xs, x.Readable := by
  constructor
  · rintro ⟨f, hf⟩
    cases Term.readable_of_nested? (.group kind xs) hf with
    | group h => exact h
  · intro h
    exact Term.exists_nested? kind xs (.group h)

end Group
end TableService
