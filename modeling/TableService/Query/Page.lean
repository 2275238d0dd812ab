import TableService.Query.Params
import TableService.Number.Binary64

/-!
# Pages

A listing is paged always, never, or exactly when a page was asked for. A page number that is
missing or not positive is the first page; a positive size takes the place of the configured one,
up to a bound. A number may also be sent as `true`, which counts as one and is shown as it was sent.

**The number of pages** is the quotient of the row count and the page size, rounded to binary64
and then up to an integer. For row counts up to 2^53 the rounding changes nothing.
-/

namespace TableService

/-- When a listing is paged. -/
inductive PaginationMode where
  | auto
  | forced
  | disabled
  deriving DecidableEq, Repr, Inhabited

/-- The name of a mode. -/
def PaginationMode.name : PaginationMode → Text
  | .auto => ['a', 'u', 't', 'o']
  | .forced => ['f', 'o', 'r', 'c', 'e', 'd']
  | .disabled => ['d', 'i', 's', 'a', 'b', 'l', 'e', 'd']

/-- The mode with a name. -/
def PaginationMode.ofName? (t : Text) : Option PaginationMode :=
  [.auto, .forced, .disabled].find? fun m => m.name == t

/-- Why there is no page. -/
inductive PageFault where
  | query (f : QueryFault)
  | notPositive (page size : Int)
  | unknownMode (name : Text)
  | tooManyPages
  deriving DecidableEq, Repr

/-- The wording of a page fault. -/
def PageFault.message : PageFault → Text
  | .query f => f.message
  | .notPositive page size =>
    Text.ofString "page and page_size must be >= 1, got " ++ intText page
      ++ Text.ofString " and " ++ intText size
  | .unknownMode name => Text.ofString "Unknown pagination mode: " ++ name
  | .tooManyPages => Text.ofString "Too many pages"

/-- A page or size parameter as it was sent. -/
inductive RawNumber where
  | absent
  | text (t : Text)
  | number (n : Int)
  | flag (b : Bool)
  | other
  deriving DecidableEq, Repr

/-- What was sent under a key, as a number parameter. -/
def RawNumber.ofOccurrence : Option Occurrence → RawNumber
  | none => .absent
  | some (.text t) => .text t
  | some (.other .null) => .absent
  | some (.other (.integer n)) => .number n
  | some (.other (.boolean b)) => .flag b
  | some (.other _) => .other

/-- The integer of a number parameter, white space around it aside; an empty text is none. -/
def RawNumber.read (key : Text) : RawNumber → Except QueryFault (Option Int)
  | .absent => .ok none
  | .text [] => .ok none
  | .text t =>
    match readInteger? (Text.strip t) with
    | some n => .ok (some n)
    | none => .error (.notAnInteger key t)
  | .number n => .ok (some n)
  | .flag b => .ok (some (if b then 1 else 0))
  | .other => .error (.notText key)

/-- A page of a listing. The flags tell which of the numbers were sent as `true`. -/
structure PageSpec where
  enabled : Bool
  page : Int
  size : Int
  pageIsFlag : Bool
  sizeIsFlag : Bool
  deriving DecidableEq, Repr, Inhabited

namespace PageSpec

/-- A page; page number and size have to be positive. -/
def make (enabled : Bool) (page size : Int) : Except PageFault PageSpec :=
  if page < 1 ∨ size < 1 then .error (.notPositive page size)
  else .ok ⟨enabled, page, size, false, false⟩

/-- How many rows come before the page. -/
def offset (s : PageSpec) : Int := (s.page - 1) * s.size

/-- How many rows the page holds. -/
def limit (s : PageSpec) : Int := s.size

/-- A number as it was sent. -/
def shown (isFlag : Bool) (n : Int) : Value := if isFlag then .boolean true else .integer n

/-- The page number as it was sent. -/
def pageShown (s : PageSpec) : Value := shown s.pageIsFlag s.page

/-- The page size as it was sent. -/
def sizeShown (s : PageSpec) : Value := shown s.sizeIsFlag s.size

/-- How many pages a number of rows fills. -/
def pageCount (s : PageSpec) (count : Int) : Except PageFault Int :=
  if count ≤ 0 then .ok 0
  else
    match (Binary64.ofRatio false count.toNat s.size.toNat).ceil? with
    | some n => .ok n
    | none => .error .tooManyPages

/-- One page of results with the numbers that describe it. -/
def envelope (s : PageSpec) (results : List Value) (count : Int) : Except PageFault Value :=
  match s.pageCount count with
  | .error e => .error e
  | .ok pages => .ok (.object [
      (['c', 'o', 'u', 'n', 't'], .integer count),
      (['p', 'a', 'g', 'e'], s.pageShown),
      (['s', 'i', 'z', 'e'], s.sizeShown),
      (['p', 'a', 'g', 'e', '_', 'c', 'o', 'u', 'n', 't'], .integer pages),
      (['r', 'e', 's', 'u', 'l', 't', 's'], .list results)])

/-- Whether a listing is paged, given what was sent as page number. -/
def isEnabled (mode : PaginationMode) (page : RawNumber) : Bool :=
  match mode with
  | .forced => true
  | .disabled => false
  | .auto => page != .absent

/-- The page size: a positive requested size up to the bound, else the configured one. A bound of
zero is none. -/
def chooseSize (configured : Int) (requested : Option Int) (bound : Option Int) : Int :=
  match requested with
  | none => configured
  | some n =>
    if n ≤ 0 then configured
    else match bound with
      | none => n
      | some b => if b = 0 then n else min n b

/-- The page of a request. Where paging is off, page number and size are not looked at. -/
def resolve (mode : PaginationMode) (configured : Int) (page size : RawNumber)
    (bound : Option Int) : Except PageFault PageSpec :=
  if isEnabled mode page then
    match page.read Params.pageKey with
    | .error e => .error (.query e)
    | .ok n =>
      match size.read Params.sizeKey with
      | .error e => .error (.query e)
      | .ok m =>
        let number := match n with
          | some k => if k > 0 then k else 1
          | none => 1
        (make true number (chooseSize configured m bound)).map fun s =>
          { s with pageIsFlag := page == .flag true, sizeIsFlag := size == .flag true }
  else make false 1 configured

/-- The page of a request under a mode given by name. -/
def resolveNamed (mode : Text) (configured : Int) (page size : RawNumber) (bound : Option Int) :
    Except PageFault PageSpec :=
  match PaginationMode.ofName? mode with
  | none => .error (.unknownMode mode)
  | some m => resolve m configured page size bound

end PageSpec
end TableService
