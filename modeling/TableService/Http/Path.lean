import TableService.Http.Converter

/-!
# Path templates

The path of a route may have parameters, each a name between braces, as in `/users/{id}`, perhaps
with a kind, as in `/users/{id:int}`. **A parameter takes as much as it can** of what its kind
allows; everything else in a template stands for itself. A name is a letter or an underscore,
followed by letters, digits and underscores; braces around anything else are plain text.
-/

namespace TableService
namespace Http

/-- A part of a path template. -/
inductive PathPart where
  | plain (c : Char)
  | parameter (name kind : Text)
  deriving DecidableEq, Repr

/-- A path template. -/
abbrev PathTemplate := List PathPart

namespace PathTemplate

/-! ## 1. Reading a template -/

/-- Whether a character may stand in a name. -/
def isNameChar (c : Char) : Bool := c.isAlphanum || c == '_'

/-- Whether a text is a name. -/
def isName : Text → Bool
  | [] => false
  | c :: r => (c.isAlpha || c == '_') && r.all isNameChar

/-- The name at the front of a text, with what follows it. -/
def takeName? (t : Text) : Option (Text × Text) :=
  let name := t.takeWhile isNameChar
  if isName name then some (name, t.dropWhile isNameChar) else none

/-- The kind of parameters without one. -/
def plainKind : Text := ['s', 't', 'r']

/-- The name and kind of a parameter at the front of a text, after its opening brace, with what
follows it. -/
def takeParameter? (t : Text) : Option (Text × Text × Text) :=
  match takeName? t with
  | some (name, '}' :: r) => some (name, plainKind, r)
  | some (name, ':' :: u) =>
    match takeName? u with
    | some (kind, '}' :: r) => some (name, kind, r)
    | _ => none
  | _ => none

theorem takeName?_length {t name r : Text} (h : takeName? t = some (name, r)) :
    r.length ≤ t.length := by
  have hd := (List.dropWhile_sublist isNameChar (l := t)).length_le
  unfold takeName? at h
  simp only at h
  split at h
  · cases h
    exact hd
  · cases h

theorem takeParameter?_length {t name kind r : Text}
    (h : takeParameter? t = some (name, kind, r)) : r.length < t.length := by
  unfold takeParameter? at h
  split at h
  · rename_i n s hn
    have := takeName?_length hn
    cases h
    simp at this
    omega
  · rename_i n u hn
    have hu := takeName?_length hn
    split at h
    · rename_i k s hk
      have := takeName?_length hk
      cases h
      simp at hu this
      omega
    · cases h
  · cases h

/-- Read a template. -/
def read : Text → PathTemplate
  | [] => []
  | '{' :: t =>
    match _h : takeParameter? t with
    | some (name, kind, r) => .parameter name kind :: read r
    | none => .plain '{' :: read t
  | c :: t => .plain c :: read t
termination_by t => t.length
decreasing_by
  · have := takeParameter?_length _h
    simp
    omega
  · simp
  · simp

/-- The names of the parameters, in order. -/
def parameters : PathTemplate → List Text
  | [] => []
  | .plain _ :: ps => parameters ps
  | .parameter name _ :: ps => name :: parameters ps

/-- The names that more than one parameter has, each once. -/
def repeated (p : PathTemplate) : List Text :=
  ((parameters p).filter fun name => (parameters p).count name > 1).eraseDups

/-- Whether every parameter is of a known kind. -/
def hasKnownKinds (p : PathTemplate) : Bool :=
  p.all fun
    | .plain _ => true
    | .parameter _ kind => (Converter.ofName? kind).isSome

/-! ## 2. Matching a path -/

/-- The values that a path gives to the parameters of a template; `none` if it does not match. The
preferred value of a parameter is tried first, and a line break at the end does not count. A
parameter of an unknown kind matches nothing. -/
def values? : PathTemplate → Text → Option Members
  | [], t => if t = [] ∨ t = ['\n'] then some [] else none
  | .plain _ :: _, [] => none
  | .plain c :: ps, d :: t => if c = d then values? ps t else none
  | .parameter name kind :: ps, t =>
    (Converter.ofName? kind).bind fun k =>
      (k.lengths t).findSome? fun n =>
        (values? ps (t.drop n)).map fun vs => (name, k.value (t.take n)) :: vs

/-- Whether a path matches a template. -/
def accepts (p : PathTemplate) (path : Text) : Bool := (values? p path).isSome

end PathTemplate
end Http
end TableService
