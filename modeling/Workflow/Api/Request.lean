import Workflow.Json.Reader

/-!
# Requests and responses

A request names a method and a path, and may carry a query and a JSON body. Its parts are read
before anything is done: a part that is missing or has the wrong type makes the whole request a
bad one.

**Lenient reading.** Where a whole number or a truth value is wanted, a text that writes one will
do, and so will a number with nothing after the point. Where a number or an object may be left
out, the word `null` leaves it out.
-/

namespace Workflow.Api

/-- What a client sends. -/
structure Request where
  method : String
  path : String
  query : List (String × String) := []
  body : String := ""
  deriving DecidableEq, Repr

/-- What a client gets. -/
inductive Response where
  /-- A success with a JSON body. -/
  | answer (status : Nat) (body : Value)
  /-- A refusal, with its reason if it has one. -/
  | refusal (status : Nat) (detail : Option String)
  deriving DecidableEq, Repr

def Response.status : Response → Nat
  | .answer status _ => status
  | .refusal status _ => status

namespace Response

/-- The request cannot be read. -/
def badRequest : Response := .refusal 400 none

/-- There is no such thing. -/
def notFound (detail : String) : Response := .refusal 404 (some detail)

/-- The thing exists, but not under this method. -/
def wrongMethod : Response := .refusal 405 none

/-- The thing is in the way or past changing. -/
def conflict (detail : String) : Response := .refusal 409 (some detail)

/-- The operation failed in an unforeseen way. -/
def unforeseen : Response := .refusal 500 none

def ok (body : Value) : Response := .answer 200 body

def created (body : Value) : Response := .answer 201 body

/-- The answer on a path that exists, where the method means nothing: `OPTIONS` is always taken, and
has nothing to say. -/
def withoutAction (r : Request) : Response :=
  if r.method = "OPTIONS" then .answer 204 .null else .wrongMethod

end Response

/-- The characters between slashes, and before the first and after the last. -/
def betweenSlashes : List Char → List (List Char)
  | [] => [[]]
  | c :: rest =>
    match betweenSlashes rest with
    | [] => [[c]]
    | part :: parts => if c = '/' then [] :: part :: parts else (c :: part) :: parts

/-- The parts of a path between its slashes; empty ones do not count. -/
def segments (path : String) : List String :=
  ((betweenSlashes path.toList).filter (· ≠ [])).map String.ofList

namespace Request

/-- The last value of a name in the query. -/
def queried? (r : Request) (name : String) : Option String :=
  (r.query.reverse.find? fun e => e.1 = name).map (·.2)

/-- The body as an object. -/
def object? (r : Request) : Option (List (String × Value)) :=
  match Json.read? r.body with
  | some (.object members) => some members
  | _ => none

end Request

/-! ## Reading single values -/

/-- A number without a fraction that is small enough to be exact. -/
def wholeOfBinary? (x : Binary64) : Option Int :=
  x.toInt?.filter fun i => i.natAbs ≤ Nat.pow 2 53

/-- A whole number or none, as a text writes it. -/
def wholeOfText? (s : String) : Option (Option Int) :=
  if s.toLower = "null" then some none
  else
    match Json.readNumber s.toList with
    | some (.int i, []) => some (some i)
    | some (.float x, []) => (wholeOfBinary? x).map some
    | _ => none

/-- A whole number or none. -/
def wholeOrNone? : Value → Option (Option Int)
  | .null => some none
  | .int i => some (some i)
  | .float x => (wholeOfBinary? x).map some
  | .text s => wholeOfText? s
  | _ => none

/-- A truth value as a text writes it. -/
def truthOfText? (s : String) : Option Bool :=
  let word := s.toLower
  if word = "true" ∨ word = "1" then some true
  else if word = "false" ∨ word = "0" then some false
  else none

/-- A truth value. -/
def truth? : Value → Option Bool
  | .bool b => some b
  | .int 0 => some false
  | .int 1 => some true
  | .text s => truthOfText? s
  | _ => none

/-- A text or none. -/
def textOrNone? : Value → Option (Option String)
  | .null => some none
  | .text s => some (some s)
  | _ => none

/-- The members of an object or none. -/
def membersOrNone? : Value → Option (Option (List (String × Value)))
  | .null => some none
  | .text s => if s.toLower = "null" then some none else none
  | .object members => some (some members)
  | _ => none

/-! ## Bodies -/

/-- The order to start an instance. -/
structure StartOrder where
  definition : String
  context : List (String × Value)
  id : Option String
  version : Option Int

def StartOrder.read? (members : List (String × Value)) : Option StartOrder := do
  let part (name : String) : Value := (Dict.find name members).getD .null
  let definition ← (part "definition_id").text?
  let context ← membersOrNone? (part "context")
  let id ← textOrNone? (part "instance_id")
  let version ← wholeOrNone? (part "version")
  return { definition, context := context.getD [], id, version }

/-- The order to send an event. -/
def eventOrder? (members : List (String × Value)) : Option String :=
  (Dict.find "event" members).bind (·.text?)

/-- The order to change a context. -/
structure ContextOrder where
  context : List (String × Value)
  /-- Whether the new members go into the context, or replace it. -/
  merge : Bool

def ContextOrder.read? (members : List (String × Value)) : Option ContextOrder := do
  let context ← Dict.find "context" members
  let merge ← truth? ((Dict.find "merge" members).getD (.bool true))
  match context with
  | .object context => return { context, merge }
  | _ => none

end Workflow.Api
