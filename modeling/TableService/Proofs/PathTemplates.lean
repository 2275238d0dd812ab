import Mathlib.Data.List.Nodup
import Mathlib.Data.List.TakeWhile
import TableService.Http.Path

/-!
# Templates of literal texts and names

A template without a brace stands for itself, and a name between braces for one segment of a path.
What a template with such parameters gives for a path is

> a value for **each of its parameters, by its name**, and every value is a text that is not empty
> and has no slash in it.

Which paths match is not said here: what holds of the values holds of whatever the search through
the lengths of the parameters comes upon first.
-/

namespace TableService
namespace Http

/-! ## 1. Reading -/

namespace PathTemplate

/-- Whether a text has no place for a parameter. -/
def IsLiteral (t : Text) : Prop := '{' ∉ t

/-- A literal text in front of a template stands for itself. -/
theorem read_append {t : Text} (h : IsLiteral t) (r : Text) :
    read (t ++ r) = t.map .plain ++ read r := by
  induction t with
  | nil => rfl
  | cons c t ih =>
    rw [IsLiteral, List.mem_cons, not_or] at h
    have hbrace : ∀ u, c :: (t ++ r) = '{' :: u → False := by
      intro u heq
      exact h.1 (List.cons.inj heq).1.symm
    rw [List.cons_append, read, ih h.2, List.map_cons, List.cons_append]
    exact fun heq => h.1 heq.symm

theorem read_literal {t : Text} (h : IsLiteral t) : read t = t.map .plain := by
  have hread := read_append h []
  rwa [List.append_nil, read, List.append_nil] at hread

theorem all_isNameChar {name : Text} (h : isName name = true) :
    ∀ c ∈ name, isNameChar c = true := by
  cases name with
  | nil => cases h
  | cons c t =>
    rw [isName, Bool.and_eq_true, Bool.or_eq_true] at h
    have hfirst : isNameChar c = true := by
      rw [isNameChar, Bool.or_eq_true, Char.isAlphanum, Bool.or_eq_true]
      exact h.1.imp .inl id
    exact List.forall_mem_cons.mpr ⟨hfirst, List.all_eq_true.mp h.2⟩

/-- A name is taken up to what is no character of names. -/
theorem takeName?_append {name : Text} (h : isName name = true) {c : Char}
    (hc : isNameChar c = false) (r : Text) : takeName? (name ++ c :: r) = some (name, c :: r) := by
  have hall := all_isNameChar h
  have htake : (name ++ c :: r).takeWhile isNameChar = name := by
    rw [List.takeWhile_append_of_pos hall, List.takeWhile_cons_of_neg (by simp [hc]),
      List.append_nil]
  have hdrop : (name ++ c :: r).dropWhile isNameChar = c :: r := by
    rw [List.dropWhile_append_of_pos hall, List.dropWhile_cons_of_neg (by simp [hc])]
  rw [takeName?, htake, hdrop, if_pos h]

/-- A name between braces is a parameter without a kind. -/
theorem read_parameter {name : Text} (h : isName name = true) (r : Text) :
    read ('{' :: (name ++ '}' :: r)) = .parameter name plainKind :: read r := by
  have htake : takeParameter? (name ++ '}' :: r) = some (name, plainKind, r) := by
    rw [takeParameter?, takeName?_append h (by decide)]
    rfl
  rw [read]
  split
  · next hsome =>
    rw [htake] at hsome
    cases hsome
    rfl
  · next hnone =>
    rw [htake] at hnone
    cases hnone

/-! ## 2. Parameters -/

variable {p q : PathTemplate}

theorem parameters_append : parameters (p ++ q) = parameters p ++ parameters q := by
  induction p with
  | nil => rfl
  | cons part p ih =>
    cases part with
    | plain c => exact ih
    | parameter name kind => exact congrArg (name :: ·) ih

theorem parameters_plain (t : Text) : parameters (t.map .plain) = [] := by
  induction t with
  | nil => rfl
  | cons c t ih => exact ih

/-- Whether all parameters of a template are without a kind. -/
def IsPlain (p : PathTemplate) : Prop := ∀ name kind, .parameter name kind ∈ p → kind = plainKind

theorem isPlain_plain (t : Text) : IsPlain (t.map .plain) := by
  intro name kind hmem
  obtain ⟨c, -, heq⟩ := List.mem_map.mp hmem
  cases heq

theorem hasKnownKinds_of_isPlain (h : IsPlain p) : p.hasKnownKinds = true := by
  apply List.all_eq_true.mpr
  rintro (c | ⟨name, kind⟩) hpart
  · rfl
  · obtain rfl := h name kind hpart
    show (Converter.ofName? plainKind).isSome = true
    decide

theorem repeated_eq_nil (h : (parameters p).Nodup) : p.repeated = [] := by
  have hnone : (parameters p).filter (fun name => (parameters p).count name > 1) = [] := by
    apply List.filter_eq_nil_iff.mpr
    intro name _
    have hone := List.nodup_iff_count_le_one.mp h name
    simp only [gt_iff_lt, decide_eq_true_eq]
    omega
  rw [repeated, hnone]
  rfl

/-! ## 3. Values -/

/-- Whether a value is one segment of a path. -/
def IsSegment (x : Value) : Prop := ∃ t : Text, x = .text t ∧ t ≠ [] ∧ '/' ∉ t

/-- What a parameter without a kind takes at the front of a path is a segment. -/
theorem isSegment_of_mem_lengths {t : Text} {n : Nat} (h : n ∈ Converter.text.lengths t) :
    IsSegment (Converter.text.value (t.take n)) := by
  have hbounds : 1 ≤ n ∧ n ≤ (t.takeWhile (· != '/')).length := by
    simp only [Converter.lengths, Converter.downTo, Converter.run, List.mem_reverse,
      List.mem_filter, List.mem_range, decide_eq_true_eq] at h
    omega
  have hlength := List.IsPrefix.length_le (List.takeWhile_prefix (l := t) (· != '/'))
  refine ⟨t.take n, rfl, ?_, ?_⟩
  · intro hnil
    have := congrArg List.length hnil
    rw [List.length_take, List.length_nil] at this
    omega
  · intro hslash
    have hfront : t.take n <+: t.takeWhile (· != '/') := by
      apply List.prefix_of_prefix_length_le (List.take_prefix n t) (List.takeWhile_prefix _)
      rw [List.length_take]
      omega
    have hmem := List.mem_takeWhile_imp (hfront.subset hslash)
    exact absurd hmem (by decide)

/-- **The values are named by the parameters**, in order. -/
theorem names_of_values? {t : Text} {vs : Members} (h : values? p t = some vs) :
    vs.map Prod.fst = parameters p := by
  induction p generalizing t vs with
  | nil =>
    rw [values?] at h
    split at h
    · cases h
      rfl
    · cases h
  | cons part p ih =>
    cases part with
    | plain c =>
      cases t with
      | nil => cases h
      | cons d t =>
        rw [values?] at h
        split at h
        · exact ih h
        · cases h
    | parameter name kind =>
      rw [values?] at h
      obtain ⟨k, -, h⟩ := Option.bind_eq_some_iff.mp h
      obtain ⟨n, -, h⟩ := List.exists_of_findSome?_eq_some h
      obtain ⟨us, hus, rfl⟩ := Option.map_eq_some_iff.mp h
      exact congrArg (name :: ·) (ih hus)

/-- **The values of parameters without a kind are segments.** -/
theorem isSegment_of_values? (hp : IsPlain p) {t : Text} {vs : Members}
    (h : values? p t = some vs) : ∀ e ∈ vs, IsSegment e.2 := by
  induction p generalizing t vs with
  | nil =>
    rw [values?] at h
    split at h
    · cases h
      exact List.forall_mem_nil _
    · cases h
  | cons part p ih =>
    have hrest : IsPlain p := fun name kind hmem => hp name kind (List.mem_cons_of_mem _ hmem)
    cases part with
    | plain c =>
      cases t with
      | nil => cases h
      | cons d t =>
        rw [values?] at h
        split at h
        · exact ih hrest h
        · cases h
    | parameter name kind =>
      obtain rfl := hp name kind List.mem_cons_self
      rw [values?] at h
      obtain ⟨k, hk, h⟩ := Option.bind_eq_some_iff.mp h
      obtain ⟨n, hn, h⟩ := List.exists_of_findSome?_eq_some h
      obtain ⟨us, hus, rfl⟩ := Option.map_eq_some_iff.mp h
      have htext : Converter.ofName? plainKind = some .text := by decide
      rw [htext] at hk
      cases hk
      exact List.forall_mem_cons.mpr ⟨isSegment_of_mem_lengths hn, ih hrest hus⟩

end PathTemplate
end Http
end TableService
