import Mathlib.Data.List.Induction
import Mathlib.Data.Set.List
import Mathlib.Tactic.Tauto
import TableService.Proofs.FilterSources
import TableService.Proofs.Separators

/-!
# Filters of query strings, pair by pair

A query string is a list of pairs, and joining two query strings with a `&` joins their pairs. What
the parameters make of the pairs forgets the order across keys: pairs of one key are collected, the
groups are taken last. It forgets nothing else, and a filter of parameters is a conjunction at every
place where something was collected. So

> a property that a conjunction has exactly if its parts have it is had by the filter of a query
> string exactly if **the filter of each pair has it**.

With the property that is always true this says when a query string has a filter. It says nothing of
the order of the parts, which no such property sees.
-/

namespace TableService

/-! ## 1. The pairs of a query string -/

namespace Params

theorem pairs_append (a b : Text) : pairs (a ++ '&' :: b) = pairs a ++ pairs b := by
  unfold pairs
  rw [Text.pieces_append_sep, List.filter_append, List.map_append]

/-- Whether a query string has parameters that filter only, and no question mark in front. -/
structure OnlyFilters (query : Text) : Prop where
  bare : query.head? ≠ some '?'
  filters : ∀ kv ∈ pairs query, kv.1 ∉ [pageKey, sizeKey, sortKey, searchKey]

variable {a b : Text}

theorem OnlyFilters.ofQuery_eq (h : OnlyFilters a) : ofQuery a = ofPairs (pairs a) := by
  unfold ofQuery
  cases a with
  | nil => rfl
  | cons c a =>
    have hc : c ≠ '?' := fun heq => h.bare (congrArg some heq)
    rw [List.dropWhile_cons_of_neg (by simpa using hc)]

theorem OnlyFilters.join (ha : OnlyFilters a) (hb : OnlyFilters b) :
    OnlyFilters (a ++ '&' :: b) where
  bare := by
    cases a with
    | nil => simp
    | cons c a => exact ha.bare
  filters := by
    rw [pairs_append]
    exact List.forall_mem_append.mpr ⟨ha.filters, hb.filters⟩

/-! ## 2. Collected pairs -/

/-- Whether something was sent under a key. -/
def Sent (ps : Params) (key : Text) (x : Occurrence) : Prop :=
  ∃ p, (key, p) ∈ ps ∧ x ∈ p.occurrences

/-- Whether parameters are what pairs are collected to, the order across keys aside: each key once,
and under it the values that the pairs give it. -/
structure Collects (kvs : List (Text × Text)) (ps : Params) : Prop where
  keys : (ps.map Prod.fst).Nodup
  filled : ∀ e ∈ ps, e.2.occurrences ≠ []
  sent : ∀ key x, ps.Sent key x ↔ ∃ value, (key, value) ∈ kvs ∧ x = .text value

theorem keys_add (key : Text) (x : Occurrence) (ps : Params) :
    (add key x ps).map Prod.fst
      = if key ∈ ps.map Prod.fst then ps.map Prod.fst else ps.map Prod.fst ++ [key] := by
  induction ps with
  | nil => rfl
  | cons e ps ih =>
    rw [add]
    by_cases hkey : e.1 = key
    · simp [hkey]
    · have hmem : key ∈ (e :: ps).map Prod.fst ↔ key ∈ ps.map Prod.fst := by
        simp [Ne.symm hkey]
      rw [if_neg hkey, List.map_cons, ih]
      simp only [hmem]
      split <;> rfl

theorem nodup_keys_add {ps : Params} (h : (ps.map Prod.fst).Nodup) (key : Text) (x : Occurrence) :
    ((add key x ps).map Prod.fst).Nodup := by
  rw [keys_add]
  split
  · exact h
  · next hkey =>
    refine List.nodup_append.mpr ⟨h, List.pairwise_singleton _ _, ?_⟩
    rintro k hk _ hmem rfl
    exact hkey (List.mem_singleton.mp hmem ▸ hk)

theorem sent_cons {e : Text × Parameter} {ps : Params} {key : Text} {x : Occurrence} :
    Sent (e :: ps) key x ↔ (key = e.1 ∧ x ∈ e.2.occurrences) ∨ ps.Sent key x := by
  obtain ⟨k, p⟩ := e
  simp only [Sent, List.mem_cons, Prod.mk.injEq]
  constructor
  · rintro ⟨_, ⟨rfl, rfl⟩ | h, hx⟩
    · exact .inl ⟨rfl, hx⟩
    · exact .inr ⟨_, h, hx⟩
  · rintro (⟨rfl, hx⟩ | ⟨q, h, hx⟩)
    · exact ⟨p, .inl ⟨rfl, rfl⟩, hx⟩
    · exact ⟨q, .inr h, hx⟩

theorem occurrences_push (p : Parameter) (x : Occurrence) :
    (p.push x).occurrences = p.occurrences ++ [x] := rfl

/-- Adding a value sends it under its key, and changes nothing else. -/
theorem sent_add {key : Text} {x : Occurrence} {ps : Params} {k : Text} {y : Occurrence} :
    Sent (add key x ps) k y ↔ ps.Sent k y ∨ (k = key ∧ y = x) := by
  induction ps with
  | nil =>
    rw [add, sent_cons]
    simp [Sent, Parameter.occurrences]
  | cons e ps ih =>
    rw [add]
    split
    · next hkey =>
      rw [sent_cons, sent_cons, occurrences_push, List.mem_append, List.mem_singleton, hkey]
      tauto
    · rw [sent_cons, sent_cons, ih, or_assoc]

theorem filled_add {ps : Params} (h : ∀ e ∈ ps, e.2.occurrences ≠ []) (key : Text)
    (x : Occurrence) : ∀ e ∈ add key x ps, e.2.occurrences ≠ [] := by
  induction ps with
  | nil => simp [add, Parameter.occurrences]
  | cons e ps ih =>
    obtain ⟨he, hps⟩ := List.forall_mem_cons.mp h
    rw [add]
    split
    · refine List.forall_mem_cons.mpr ⟨?_, hps⟩
      rw [occurrences_push]
      simp
    · exact List.forall_mem_cons.mpr ⟨he, ih hps⟩

/-- **What pairs are collected to.** -/
theorem collects_ofPairs (kvs : List (Text × Text)) : Collects kvs (ofPairs kvs) := by
  induction kvs using List.reverseRecOn with
  | nil => exact ⟨List.nodup_nil, by simp [ofPairs], by simp [ofPairs, Sent]⟩
  | append_singleton kvs kv ih =>
    have hlast : ofPairs (kvs ++ [kv]) = add kv.1 (.text kv.2) (ofPairs kvs) := by
      rw [ofPairs, List.foldl_append]
      rfl
    rw [hlast]
    refine ⟨nodup_keys_add ih.keys _ _, filled_add ih.filled _ _, fun key x => ?_⟩
    rw [sent_add, ih.sent]
    simp only [List.mem_append, List.mem_singleton, Prod.ext_iff]
    constructor
    · rintro (⟨value, h, rfl⟩ | ⟨rfl, rfl⟩)
      · exact ⟨value, .inl h, rfl⟩
      · exact ⟨kv.2, .inr ⟨rfl, rfl⟩, rfl⟩
    · rintro ⟨value, h | ⟨rfl, rfl⟩, rfl⟩
      · exact .inl ⟨value, h, rfl⟩
      · exact .inr ⟨rfl, rfl⟩

end Params

namespace Filter

variable {allowed : List Text} {P : Filter → Prop}

/-! ## 3. Properties of conjunctions -/

/-- Whether a conjunction has a property exactly if its parts have it. -/
def IsConjunctive (P : Filter → Prop) : Prop := ∀ fs, P (.all fs) ↔ ∀ f ∈ fs, P f

theorem IsConjunctive.merge (hP : IsConjunctive P) (fs : List Filter) :
    P (Filter.merge fs) ↔ ∀ f ∈ fs, P f := by
  match fs with
  | [] => exact hP []
  | [f] => simp [Filter.merge]
  | f :: g :: fs => exact hP (f :: g :: fs)

theorem IsConjunctive.ofParts (hP : IsConjunctive P) (parts : List Filter) :
    (∀ f ∈ ofParts parts, P f) ↔ ∀ f ∈ parts, P f := by
  match parts with
  | [] => simp [Filter.ofParts]
  | f :: fs => simpa [Filter.ofParts] using hP (f :: fs)

/-- There are results with a property, side by side with a list, if each of its members has one. -/
theorem exists_forall₂_iff {α β : Type} {R : α → β → Prop} {Q : β → Prop} {xs : List α} :
    (∃ ys, List.Forall₂ R xs ys ∧ ∀ y ∈ ys, Q y) ↔ ∀ x ∈ xs, ∃ y, R x y ∧ Q y := by
  induction xs with
  | nil => simp
  | cons x xs ih =>
    rw [List.forall_mem_cons, ← ih]
    constructor
    · rintro ⟨_, h, hQ⟩
      obtain ⟨y, ys, hy, hys, rfl⟩ := List.forall₂_cons_left_iff.mp h
      obtain ⟨hQy, hQys⟩ := List.forall_mem_cons.mp hQ
      exact ⟨⟨y, hy, hQy⟩, ys, hys, hQys⟩
    · rintro ⟨⟨y, hy, hQy⟩, ys, hys, hQys⟩
      exact ⟨y :: ys, .cons hy hys, List.forall_mem_cons.mpr ⟨hQy, hQys⟩⟩

/-- Whether a source is read as a filter with a property. -/
def Source.Gives (allowed : List Text) (P : Filter → Prop) (x : Source) : Prop :=
  ∃ f, x.Reads allowed f ∧ P f

/-- What a field gives, value by value. -/
theorem Source.gives_values (hP : IsConjunctive P) {name : Text} {values : List Text} :
    (Source.field name (values.map .text)).Gives allowed P ↔
      name ∈ allowed ∧ values ≠ [] ∧
        ∀ value ∈ values, ∃ p, Predicate.read (some name) value = .ok p ∧ P (.test name p) := by
  rw [← exists_forall₂_iff]
  constructor
  · rintro ⟨f, hf, hPf⟩
    cases hf with
    | field hname hsent h =>
      obtain rfl := Occurrence.map_text_injective hsent
      obtain ⟨hne, ps, hps, rfl⟩ := Group.fieldFilter?_eq_some.mp h
      exact ⟨hname, hne, ps, hps, List.forall_mem_map.mp ((hP.merge _).mp hPf)⟩
  · rintro ⟨hname, hne, ps, hps, hall⟩
    exact ⟨_, .field hname rfl (Group.fieldFilter?_eq_some.mpr ⟨hne, ps, hps, rfl⟩),
      (hP.merge _).mpr (List.forall_mem_map.mpr hall)⟩

/-- A field gives what each of its values gives by itself. -/
theorem Source.gives_field (hP : IsConjunctive P) {name : Text} {sent : List Occurrence}
    (htexts : ∀ x ∈ sent, ∃ value, x = .text value) (hne : sent ≠ []) :
    (Source.field name sent).Gives allowed P ↔
      ∀ x ∈ sent, (Source.field name [x]).Gives allowed P := by
  obtain ⟨values, rfl⟩ : sent ∈ Set.range (List.map Occurrence.text) := by
    rw [Set.range_list_map]
    exact fun x hx => (htexts x hx).imp fun _ h => h.symm
  have hvalue : ∀ value, (Source.field name [.text value]).Gives allowed P ↔
      name ∈ allowed ∧ ∃ p, Predicate.read (some name) value = .ok p ∧ P (.test name p) :=
    fun value => (gives_values hP : (field name ([value].map .text)).Gives allowed P ↔ _).trans
      (by simp)
  have hvalues : values ≠ [] := mt List.map_eq_nil_iff.mpr hne
  rw [gives_values hP, List.forall_mem_map]
  simp only [hvalue]
  constructor
  · rintro ⟨hname, -, hall⟩ value hmem
    exact ⟨hname, hall value hmem⟩
  · intro hall
    obtain ⟨value, hmem⟩ := List.exists_mem_of_ne_nil values hvalues
    exact ⟨(hall value hmem).1, hvalues, fun value hmem => (hall value hmem).2⟩

/-! ## 4. From parameters to pairs -/

/-- The source that a pair is by itself. -/
def Source.ofPair (kv : Text × Text) : Source :=
  match Connective.ofKey? kv.1 with
  | some kind => .group kind (.text kv.2)
  | none => .field kv.1 [.text kv.2]

theorem Source.ofPair_key (kind : Connective) (value : Text) :
    ofPair (kind.key, value) = .group kind (.text value) := by
  rw [ofPair, Connective.ofKey?_key]

theorem Source.ofPair_of_not_reserved {key value : Text} (h : key ∉ Params.reserved) :
    ofPair (key, value) = .field key [.text value] := by
  have hkey : Connective.ofKey? key = none := by
    cases hkind : Connective.ofKey? key with
    | none => rfl
    | some kind =>
      rw [Connective.key_of_ofKey? hkind] at h
      cases kind <;> exact absurd (by decide) h
  rw [ofPair, hkey]

variable {kvs : List (Text × Text)} {ps : Params}

/-- The groups under a connective are what was sent under its key, if that is all text. -/
theorem mem_groupTexts (hps : Params.Collects kvs ps) {kind : Connective} {x : Occurrence} :
    x ∈ groupTexts kind ps ↔ ps.Sent kind.key x := by
  have hfound : ∀ p, ps.lookup kind.key = some p → (ps.Sent kind.key x ↔ x ∈ p.occurrences) := by
    intro p hp
    constructor
    · rintro ⟨q, hq, hx⟩
      rw [← Params.lookup_eq_some_iff hps.keys, hp] at hq
      cases hq
      exact hx
    · intro hx
      exact ⟨p, (Params.lookup_eq_some_iff hps.keys).mp hp, hx⟩
  unfold groupTexts
  split
  · next hnone =>
    refine ⟨fun h => absurd h List.not_mem_nil, ?_⟩
    rintro ⟨p, hp, -⟩
    rw [← Params.lookup_eq_some_iff hps.keys, hnone] at hp
    cases hp
  · next hnull =>
    rw [hfound _ hnull]
    refine ⟨fun h => absurd h List.not_mem_nil, fun hx => ?_⟩
    obtain ⟨value, -, rfl⟩ := (hps.sent kind.key x).mp ((hfound _ hnull).mpr hx)
    cases List.mem_singleton.mp hx
  · next p _ hp => rw [hfound p hp]

theorem gives_sources (hP : IsConjunctive P) (hps : Params.Collects kvs ps)
    (hkvs : ∀ kv ∈ kvs, kv.1 ∉ [Params.pageKey, Params.sizeKey, Params.sortKey, Params.searchKey]) :
    (∀ x ∈ sources ps, x.Gives allowed P) ↔ ∀ kv ∈ kvs, (Source.ofPair kv).Gives allowed P := by
  have htexts : ∀ e ∈ ps, ∀ x ∈ e.2.occurrences, ∃ value, (e.1, value) ∈ kvs ∧ x = .text value :=
    fun e he x hx => (hps.sent e.1 x).mp ⟨e.2, he, hx⟩
  have hfield : ∀ e ∈ ps, (Source.field e.1 e.2.occurrences).Gives allowed P ↔
      ∀ x ∈ e.2.occurrences, (Source.field e.1 [x]).Gives allowed P := fun e he =>
    Source.gives_field hP (fun x hx => (htexts e he x hx).imp fun _ h => h.2) (hps.filled e he)
  simp only [sources, fieldSources, groupSources, List.forall_mem_append, List.forall_mem_map,
    List.forall_mem_flatMap, List.mem_filter, decide_eq_true_eq, mem_groupTexts hps]
  constructor
  · rintro ⟨hfields, hgroups⟩ ⟨key, value⟩ hkv
    obtain ⟨p, hp, hvalue⟩ := (hps.sent key (.text value)).mpr ⟨value, hkv, rfl⟩
    by_cases hkey : key ∈ Params.reserved
    · obtain ⟨kind, -, rfl⟩ := List.mem_map.mp
        ((List.mem_append.mp hkey).resolve_left (hkvs _ hkv))
      rw [Source.ofPair_key]
      exact hgroups kind (by cases kind <;> decide) _ ⟨p, hp, hvalue⟩
    · rw [Source.ofPair_of_not_reserved hkey]
      exact (hfield _ hp).mp (hfields (key, p) ⟨hp, hkey⟩) _ hvalue
  · intro hall
    constructor
    · rintro e ⟨he, hkey⟩
      refine (hfield e he).mpr fun x hx => ?_
      obtain ⟨value, hkv, rfl⟩ := htexts e he x hx
      rw [← Source.ofPair_of_not_reserved hkey]
      exact hall _ hkv
    · intro kind _ x hx
      obtain ⟨value, hkv, rfl⟩ := (hps.sent kind.key x).mp hx
      rw [← Source.ofPair_key]
      exact hall _ hkv

/-- **The filter of collected pairs has a conjunctive property exactly if that of each pair has
it.** -/
theorem parse_gives (hP : IsConjunctive P) (hps : Params.Collects kvs ps)
    (hkvs : ∀ kv ∈ kvs, kv.1 ∉ [Params.pageKey, Params.sizeKey, Params.sortKey, Params.searchKey]) :
    (∃ f, parse allowed ps = .ok f ∧ ∀ g ∈ f, P g) ↔
      ∀ kv ∈ kvs, (Source.ofPair kv).Gives allowed P := by
  rw [← gives_sources hP hps hkvs]
  unfold Source.Gives
  rw [← exists_forall₂_iff]
  simp only [parse_eq_ok]
  constructor
  · rintro ⟨_, ⟨parts, hparts, rfl⟩, hg⟩
    exact ⟨parts, hparts, (hP.ofParts parts).mp hg⟩
  · rintro ⟨parts, hparts, hall⟩
    exact ⟨_, ⟨parts, hparts, rfl⟩, (hP.ofParts parts).mpr hall⟩

end Filter
end TableService
