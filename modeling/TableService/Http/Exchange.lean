import TableService.Http.Route
import TableService.Json.Encoding
import TableService.Text.Percent

/-!
# Answering over HTTP

A request is led to the first route whose path and method fit. **If only paths fit, the method is
not allowed; if none fits, nothing is found**, unless a slash more or less at the end would fit,
where the client is sent. The body is read before the operation runs, for every method, and an
empty one is no body.

A problem of the service becomes a response with its report; any other is an error inside the
server, which tells nothing. So is an answer that cannot be sent. A response to `HEAD` has no body.
-/

namespace TableService
namespace Http

/-- A request as it arrives: method, address and body. -/
structure Incoming where
  method : Text
  address : Text
  body : Text
  deriving DecidableEq, Repr, Inhabited

/-- What a response holds. -/
inductive Content where
  | json (v : Value)
  | text (t : Text)
  deriving Repr, Inhabited

/-- A response. -/
structure Response where
  status : Nat
  content : Content
  deriving Repr, Inhabited

namespace Response

/-- A response that only explains its status. -/
def detail (status : Nat) (t : String) : Response :=
  ⟨status, .json (.object [(Text.ofString "detail", .string t)])⟩

/-- No route has the path. -/
def notFound : Response := detail 404 "Not Found"

/-- No route with the path has the method. -/
def methodNotAllowed : Response := detail 405 "Method Not Allowed"

/-- The path is known with another ending. -/
def redirect : Response := ⟨307, .text []⟩

/-- Something went wrong that the client is not told about. -/
def internalError : Response := ⟨500, .text (Text.ofString "Internal Server Error")⟩

/-- A response without its body. -/
def withoutBody (r : Response) : Response := { r with content := .text [] }

/-- The response to a problem. -/
def ofProblem (p : Problem) : Response :=
  if p.isOwn then
    let r := p.report false
    ⟨r.status, .json r.body⟩
  else internalError

end Response

/-! ## 1. Addresses -/

/-- An address without its fragment. -/
def withoutFragment (address : Text) : Text := address.takeWhile (· != '#')

/-- The path of an address without the name of a host, and with one slash in front. -/
def rawPath (address : Text) : Text :=
  let path := match (withoutFragment address).takeWhile (· != '?') with
    | '/' :: '/' :: r => r.dropWhile (· != '/')
    | t => t
  '/' :: path.dropWhile (· == '/')

/-- One more part of a path: a dot stands for nothing, two dots take the part before away, except
for the front of the path. -/
def pushPart (parts : List Text) (part : Text) : List Text :=
  if part = ['.'] then parts
  else if part = ['.', '.'] then
    match parts with
    | [] | [[]] => parts
    | parts => parts.dropLast
  else parts ++ [part]

/-- A path without parts that are one dot or two. -/
def withoutDots (path : Text) : Text :=
  match Text.join ['/'] ((Text.pieces '/' path).foldl pushPart []) with
  | [] => ['/']
  | t => t

/-- The path of an address, decoded. -/
def pathOf (address : Text) : Text := Percent.decode (withoutDots (rawPath address))

/-- The query of an address. -/
def queryOf (address : Text) : Text := ((withoutFragment address).dropWhile (· != '?')).drop 1

/-- The path with a slash more, or without the slashes at its end. -/
def otherEnding (path : Text) : Text :=
  if path.getLast? = some '/' then Text.trimEnd (· == '/') path else path ++ ['/']

/-! ## 2. Bodies -/

/-- The problem of a body that is no JSON. -/
def bodyProblem (reason : Json.Reason) : Problem :=
  match reason with
  | .oversizedInteger => .oversizedInteger
  | .nestedTooDeep => .nestedTooDeep
  | reason =>
    let body := Text.ofString "body"
    .ofFieldErrors [⟨body, .invalidJson (Text.ofString reason.message)⟩] body none

/-- The body of a request, read as JSON. -/
def readBody (t : Text) : Except Problem Value :=
  match t with
  | [] => .ok .null
  | t =>
    match Json.decode? t with
    | none => .error .undecodable
    | some u => (Json.read u).mapError fun e => bodyProblem e.reason

mutual

/-- A value as it is sent: dates and decimals are texts, and a number that JSON lacks is null. -/
def sent : Value → Value
  | .date d => .text d.text
  | .moment t => .text t.sentText
  | .real x => if x.isFinite then .real x else .null
  | .literal l => .literal l
  | .decimal x => .text x.text
  | .list vs => .list (sentItems vs)
  | .object ms => .object (sentMembers ms)
  | .unpaired spelling => .unpaired spelling
  | .unpairedNames spelling ms => .unpairedNames spelling ms

/-- The items of a list as they are sent. -/
def sentItems : List Value → List Value
  | [] => []
  | v :: vs => sent v :: sentItems vs

/-- The members of an object as they are sent. -/
def sentMembers : List (Text × Value) → List (Text × Value)
  | [] => []
  | (n, v) :: ms => (n, sent v) :: sentMembers ms

end

/-- How deep lists and objects may be nested in an answer. -/
def maxDepth : Nat := 255

/-- Whether a value can be sent: its strings have to be texts, and it may not be nested too deep. -/
def isSendable (v : Value) : Bool := v.isPaired && decide (v.depth ≤ maxDepth)

/-! ## 3. Serving -/

/-- The route a request is led to, with the values of its path parameters. -/
def findRoute (routes : List Route) (method path : Text) : Option (Route × Members) :=
  routes.findSome? fun r =>
    if method ∈ r.methods then (r.template.values? path).map fun vs => (r, vs) else none

/-- Whether some route has the path, whatever its methods. -/
def hasPath (routes : List Route) (path : Text) : Bool :=
  routes.any fun r => r.template.accepts path

/-- Carry out what a route leads to. -/
def carryOut (v : Service) (s : Store) (e : Endpoint) (r : Request) : Answered :=
  match e with
  | .operation op => v.dispatch s op r
  | .action name => (v.runNamed name r, s)

/-- The response with an answer. -/
def answer (status : Nat) (v : Value) : Response :=
  if isSendable v then ⟨status, .json (sent v)⟩ else .internalError

/-- The response to a request that was led to a route. -/
def respond (v : Service) (s : Store) (route : Route) (path : Members) (q : Incoming) :
    Response × Store :=
  match readBody q.body with
  | .error p => (.ofProblem p, s)
  | .ok body =>
    let request : Request := ⟨.ofPairs (Params.pairs (queryOf q.address)), path, body⟩
    match carryOut v s route.endpoint request with
    | (.error p, s') => (.ofProblem p, s')
    | (.ok x, s') => (answer (route.status.getD 200) x, s')

/-- The response to a request with a method in upper case. -/
def serveMethod (routes : List Route) (v : Service) (s : Store) (q : Incoming) : Response × Store :=
  let path := pathOf q.address
  match findRoute routes q.method path with
  | some (route, values) => respond v s route values q
  | none =>
    if hasPath routes path then (.methodNotAllowed, s)
    else if path != ['/'] && hasPath routes (otherEnding path) then (.redirect, s)
    else (.notFound, s)

/-- The response to a request, in any case of its method. -/
def serve (routes : List Route) (v : Service) (s : Store) (q : Incoming) : Response × Store :=
  let method := q.method.map Char.toUpper
  let (r, s') := serveMethod routes v s { q with method := method }
  (if method = Text.ofString "HEAD" then r.withoutBody else r, s')

end Http
end TableService
