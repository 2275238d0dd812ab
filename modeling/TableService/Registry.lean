import TableService.Resource.Service

/-!
# Registries

A registry holds services under names. A service is registered under its own name unless another
is given, and **registering a name again replaces what was there**. One registry is shared by
everyone who asks for it; it comes into being, empty, when it is first asked for.
-/

namespace TableService

/-- Services under names. -/
structure Registry where
  entries : List (Text × Service)

namespace Registry

/-- The registry without services. -/
def empty : Registry := ⟨[]⟩

/-- Put an entry among others; one of the same name is replaced where it stands. -/
def put {α : Type} (name : Text) (x : α) : List (Text × α) → List (Text × α)
  | [] => [(name, x)]
  | (n, y) :: rest => if n = name then (n, x) :: rest else (n, y) :: put name x rest

/-- Register a service. An empty name counts as none. -/
def register (g : Registry) (v : Service) (name : Option Text) : Registry :=
  ⟨put ((nonempty? name).getD v.name) v g.entries⟩

/-- Take what is registered under a name away. -/
def unregister (g : Registry) (name : Text) : Registry :=
  ⟨g.entries.filter fun e => e.1 != name⟩

/-- The service under a name. -/
def find? (g : Registry) (name : Text) : Option Service := g.entries.lookup name

/-- The service under a name, or the problem of there being none. -/
def get (g : Registry) (name : Text) : Except Problem Service :=
  match g.find? name with
  | some v => .ok v
  | none =>
    .error (.service (Text.ofString "Resource " ++ name ++ Text.ofString " is not registered")
      (some name))

/-- The registered names, sorted. -/
def names (g : Registry) : List Text := Text.sortTexts (g.entries.map (·.1))

/-- Whether a name is registered. -/
def contains (g : Registry) (name : Text) : Bool := (g.find? name).isSome

/-- How many names are registered. -/
def size (g : Registry) : Nat := g.entries.length

theorem lookup_put {α : Type} (name n : Text) (x : α) (es : List (Text × α)) :
    (put name x es).lookup n = if n = name then some x else es.lookup n := by
  induction es with
  | nil =>
    by_cases h : n = name
    · simp [put, h]
    · simp [put, List.lookup_cons, beq_false_of_ne h, h]
  | cons e es ih =>
    obtain ⟨m, y⟩ := e
    by_cases hm : m = name
    · subst hm
      by_cases h : n = m
      · simp [put, h]
      · simp [put, List.lookup_cons, beq_false_of_ne h, h]
    · by_cases h : n = m
      · subst h
        simp [put, hm]
      · simp [put, hm, List.lookup_cons, beq_false_of_ne h, ih]

end Registry

/-- The registry in use and the shared one. The registry in use is either the shared one itself or
one of its own. -/
structure Registries where
  shared : Registry
  own : Registry
  usesShared : Bool

namespace Registries

/-- Two empty registries, of which the shared one is not in use. -/
def fresh : Registries := ⟨.empty, .empty, false⟩

/-- The registry in use. -/
def current (z : Registries) : Registry := if z.usesShared then z.shared else z.own

/-- Change the registry in use. -/
def change (z : Registries) (f : Registry → Registry) : Registries :=
  if z.usesShared then { z with shared := f z.shared } else { z with own := f z.own }

/-- Use a new registry. -/
def useNew (z : Registries) : Registries := { z with own := .empty, usesShared := false }

/-- Use the shared registry. -/
def useShared (z : Registries) : Registries := { z with usesShared := true }

/-- Begin the shared registry anew, and use it. -/
def beginShared (z : Registries) : Registries := { z with shared := .empty, usesShared := true }

end Registries
end TableService
