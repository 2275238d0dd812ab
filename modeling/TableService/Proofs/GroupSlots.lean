import TableService.Proofs.GroupGrammar

/-!
# Slots

The reader of groups collects a level term by term: a value goes to the slot of its field, which may
stand far in front, and a nested group opens a slot of its own. The filters of a level are defined
without any of this, by looking forward. The two agree, and the invariant that carries the
induction says what is still to come for a slot (`mapM_putAll`):

> slots in place **grow by the values that the remaining terms have for their field**, and the
> fields that have no slot yet line up behind them.
-/

namespace TableService
namespace Slot

open TableService.Group

/-! ## 1. Closing a level -/

/-- The filter of a slot. -/
def filter? : Slot → Option Filter
  | .nested f => some f
  | .values name raws => fieldFilter? name raws

theorem toOption_readValues (name : Text) (raws : List Text) :
    (Filter.readValues name raws).toOption = raws.mapM (leaf? name) := by
  induction raws with
  | nil => rfl
  | cons raw raws ih =>
    rw [Filter.readValues, List.mapM_cons, ← ih, leaf?]
    cases Predicate.read (some name) raw with
    | error e => rfl
    | ok p =>
      cases Filter.readValues name raws with
      | error e => rfl
      | ok fs => rfl

theorem toOption_ofValues (name : Text) (raws : List Text) :
    (Filter.ofValues name raws).toOption = fieldFilter? name raws := by
  cases raws with
  | nil => rfl
  | cons raw raws =>
    rw [fieldFilter?, ← toOption_readValues]
    · unfold Filter.ofValues Filter.readValues
      cases Predicate.read (some name) raw with
      | error e => rfl
      | ok p =>
        cases Filter.readValues name raws with
        | error e => rfl
        | ok fs => rfl
    · simp

/-- A level closes to the filters of its slots. -/
theorem toOption_close (slots : List Slot) : (close slots).toOption = slots.mapM filter? := by
  induction slots with
  | nil => rfl
  | cons s slots ih =>
    rw [List.mapM_cons, ← ih]
    cases s with
    | nested f =>
      rw [close]
      cases close slots with
      | error e => rfl
      | ok fs => rfl
    | values name raws =>
      rw [close, filter?, ← toOption_ofValues]
      cases Filter.ofValues name raws with
      | error e => rfl
      | ok f =>
        cases close slots with
        | error e => rfl
        | ok fs => rfl

/-! ## 2. Putting terms into slots -/

/-- The fields that have a slot. -/
def fields : List Slot → List Text
  | [] => []
  | .values name _ :: slots => name :: fields slots
  | .nested _ :: slots => fields slots

/-- A slot with the values that further terms have for its field. -/
def extend (xs : List Term) : Slot → Slot
  | .values name raws => .values name (raws ++ valuesOf name xs)
  | .nested f => .nested f

/-- Put a term into slots: a value to its field, a nested group behind them all. -/
def put? (slots : List Slot) : Term → Option (List Slot)
  | .field name value => some (addValue name value slots)
  | .group kind parts =>
    (Term.nested? (.group kind parts)).map fun f => slots ++ [.nested f]

/-- Put the terms of a level into slots, one after the other. -/
def putAll? (slots : List Slot) : List Term → Option (List Slot)
  | [] => some slots
  | x :: xs => (put? slots x).bind fun after => putAll? after xs

theorem fields_append (a b : List Slot) : fields (a ++ b) = fields a ++ fields b := by
  induction a with
  | nil => rfl
  | cons s a ih => cases s <;> simp [fields, ih]

theorem map_extend_nil (slots : List Slot) : slots.map (extend []) = slots := by
  induction slots with
  | nil => rfl
  | cons s slots ih => cases s <;> simp [extend, valuesOf, ih]

theorem map_extend_group (kind : Connective) (parts xs : List Term) (slots : List Slot) :
    slots.map (extend (.group kind parts :: xs)) = slots.map (extend xs) := by
  refine List.map_congr_left fun s _ => ?_
  cases s <;> rfl

/-- A value for a field without a slot goes into a new one. -/
theorem addValue_of_not_mem {name value : Text} {slots : List Slot} (h : name ∉ fields slots) :
    addValue name value slots = slots ++ [.values name [value]] := by
  induction slots with
  | nil => rfl
  | cons s slots ih =>
    cases s with
    | nested f => simp [addValue, ih h]
    | values n raws =>
      obtain ⟨hn, hslots⟩ : name ≠ n ∧ name ∉ fields slots := by simpa [fields] using h
      simp [addValue, Ne.symm hn, ih hslots]

theorem map_extend_of_not_mem {name value : Text} {xs : List Term} {slots : List Slot}
    (h : name ∉ fields slots) :
    slots.map (extend (.field name value :: xs)) = slots.map (extend xs) := by
  induction slots with
  | nil => rfl
  | cons s slots ih =>
    cases s with
    | nested f => simp [extend, ih h]
    | values n raws =>
      obtain ⟨hn, hslots⟩ : name ≠ n ∧ name ∉ fields slots := by simpa [fields] using h
      simp [extend, valuesOf, hn, ih hslots]

/-- A value for a field with a slot is the first that the slot grows by. -/
theorem map_extend_addValue {name value : Text} {xs : List Term} {slots : List Slot}
    (hnodup : (fields slots).Nodup) (h : name ∈ fields slots) :
    (addValue name value slots).map (extend xs)
      = slots.map (extend (.field name value :: xs)) := by
  induction slots with
  | nil => cases h
  | cons s slots ih =>
    cases s with
    | nested f => simp [addValue, extend, ih hnodup h]
    | values n raws =>
      obtain ⟨hn, hslots⟩ := List.nodup_cons.mp hnodup
      by_cases heq : n = name
      · subst heq
        simp [addValue, extend, valuesOf, map_extend_of_not_mem hn]
      · have hmem : name ∈ fields slots := by
          simpa [fields, Ne.symm heq] using h
        simp [addValue, extend, valuesOf, heq, Ne.symm heq, ih hslots hmem]

theorem fields_addValue_of_mem {name : Text} (value : Text) {slots : List Slot}
    (h : name ∈ fields slots) : fields (addValue name value slots) = fields slots := by
  induction slots with
  | nil => cases h
  | cons s slots ih =>
    cases s with
    | nested f => exact ih h
    | values n raws =>
      by_cases heq : n = name
      · simp [addValue, fields, heq]
      · have hmem : name ∈ fields slots := by
          simpa [fields, Ne.symm heq] using h
        simp [addValue, fields, heq, ih hmem]

/-- Which fields are passed over matters, not the order in which they were met. -/
theorem filters?_congr : ∀ (xs : List Term) {a b : List Text}, (∀ name, name ∈ a ↔ name ∈ b) →
    filters? a xs = filters? b xs
  | [], _, _, _ => rfl
  | .field name value :: xs, a, b, h => by
    have hcons : ∀ m, m ∈ name :: a ↔ m ∈ name :: b := by simp [h]
    simp only [filters?, h name, filters?_congr xs h, filters?_congr xs hcons]
  | .group kind parts :: xs, a, b, h => by
    simp only [filters?, filters?_congr xs h]

/-- **The slots of a level have the filters of the level.** The slots that are there come first,
each grown by the values for its field, and behind them the fields that had no slot. -/
theorem mapM_putAll : ∀ (xs : List Term) {slots : List Slot}, (fields slots).Nodup →
    (putAll? slots xs).bind (·.mapM filter?) =
      ((slots.map (extend xs)).mapM filter?).bind fun old =>
        (filters? (fields slots) xs).map fun new => old ++ new
  | [], slots, _ => by
    simp [putAll?, map_extend_nil, filters?]
  | .field name value :: xs, slots, hnodup => by
    by_cases hmem : name ∈ fields slots
    -- The slot of the field takes the value, and the level passes the term over.
    · have hfields := fields_addValue_of_mem value hmem
      rw [putAll?, put?, Option.bind_some, mapM_putAll xs (by rw [hfields]; exact hnodup), hfields,
        map_extend_addValue hnodup hmem, filters?, if_pos hmem]
    -- A new slot takes the value, and with the rest of the level all later ones of the field.
    · have hfields : fields (slots ++ [.values name [value]]) = fields slots ++ [name] :=
        fields_append _ _
      have hnodup' : (fields slots ++ [name]).Nodup := by
        refine List.nodup_append.mpr ⟨hnodup, by simp, ?_⟩
        rintro n hn m hm rfl
        rw [List.mem_singleton.mp hm] at hn
        exact hmem hn
      have hseen : filters? (fields slots ++ [name]) xs = filters? (name :: fields slots) xs :=
        filters?_congr xs fun m => by simp [or_comm]
      rw [putAll?, put?, Option.bind_some, addValue_of_not_mem hmem,
        mapM_putAll xs (by rw [hfields]; exact hnodup'), hfields, hseen,
        map_extend_of_not_mem hmem, filters?, if_neg hmem, List.map_append, List.mapM_append]
      cases (slots.map (extend xs)).mapM filter? with
      | none => rfl
      | some old =>
        cases hf : fieldFilter? name (value :: valuesOf name xs) with
        | none => simp [extend, filter?, hf]
        | some f => cases filters? (name :: fields slots) xs <;> simp [extend, filter?, hf]
  | .group kind parts :: xs, slots, hnodup => by
    rw [putAll?, put?, map_extend_group, filters?]
    cases Term.nested? (.group kind parts) with
    | none => cases (slots.map (extend xs)).mapM filter? <;> rfl
    | some f =>
      have hfields : fields (slots ++ [.nested f]) = fields slots := by
        rw [fields_append]
        exact List.append_nil _
      rw [Option.map_some, Option.bind_some, mapM_putAll xs (by rw [hfields]; exact hnodup),
        hfields, List.map_append, List.mapM_append]
      cases (slots.map (extend xs)).mapM filter? with
      | none => rfl
      | some old => cases filters? (fields slots) xs <;> simp [extend, filter?]

/-- Terms put into no slots at all. -/
theorem putAll?_nil (xs : List Term) : (putAll? [] xs).bind (·.mapM filter?) = filters? [] xs := by
  rw [@mapM_putAll xs [] List.nodup_nil]
  show (filters? [] xs).map (fun fs => [] ++ fs) = filters? [] xs
  simp

end Slot
end TableService
