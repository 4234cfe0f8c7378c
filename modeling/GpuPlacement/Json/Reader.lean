import GpuPlacement.Json.Token
/-!
JSON documents from their tokens, by a machine with a stack of open containers. Nesting has no
limit here: the decoders of typed values set one.
-/
namespace GpuPlacement

namespace Json

/-- An open container, its contents last first. -/
inductive OpenContainer where
  | array (items : List Json)
  /-- `readable` is lost with the first name that denotes no text. -/
  | object (members : List (String × Json)) (readable : Bool) (name : Option String)

/-- What may come next. -/
inductive Expected where
  | value
  | valueOrEnd
  | name
  | nameOrEnd
  | colon
  | separator
  deriving DecidableEq

/-- The open containers, innermost first, and the document once it is complete. -/
structure Pushdown where
  containers : List OpenContainer
  expected : Expected
  document : Option Json

namespace Pushdown

def start : Pushdown := ⟨[], .value, none⟩

/-- A complete value goes into the innermost container, or is the document. -/
def complete (outer : List OpenContainer) (value : Json) : Option Pushdown :=
  match outer with
  | [] => some ⟨[], .separator, some value⟩
  | .array items :: rest => some ⟨.array (value :: items) :: rest, .separator, none⟩
  | .object members readable (some name) :: rest =>
    some ⟨.object ((name, value) :: members) readable none :: rest, .separator, none⟩
  | .object members readable none :: rest =>
    some ⟨.object members readable none :: rest, .separator, none⟩

def closeArray (state : Pushdown) : Option Pushdown :=
  match state.containers with
  | .array items :: rest => complete rest (.array items.reverse)
  | _ => none

def closeObject (state : Pushdown) : Option Pushdown :=
  match state.containers with
  | .object members readable _ :: rest =>
    complete rest (if readable then .object members.reverse else .undecodable)
  | _ => none

def openName (state : Pushdown) (content : Option String) : Option Pushdown :=
  match state.containers with
  | .object members readable _ :: rest =>
    some ⟨.object members (readable && content.isSome) content :: rest, .colon, none⟩
  | _ => none

/-- After a comma an array goes on with a value and an object with a name. -/
def continue? (state : Pushdown) : Option Pushdown :=
  match state.containers with
  | .array _ :: _ => some { state with expected := .value }
  | .object .. :: _ => some { state with expected := .name }
  | [] => none

def beginValue (state : Pushdown) : JsonToken → Option Pushdown
  | .arrayStart => some ⟨.array [] :: state.containers, .valueOrEnd, none⟩
  | .objectStart => some ⟨.object [] true none :: state.containers, .nameOrEnd, none⟩
  | .text content =>
    complete state.containers ((content.map Json.text).getD .undecodable)
  | .scalar value => complete state.containers value
  | _ => none

/-- One token; nothing where no document continues so. -/
def step (state : Pushdown) (token : JsonToken) : Option Pushdown :=
  match state.expected, token with
  | .value, token => state.beginValue token
  | .valueOrEnd, .arrayEnd => state.closeArray
  | .valueOrEnd, token => state.beginValue token
  | .nameOrEnd, .objectEnd => state.closeObject
  | .nameOrEnd, .text content => state.openName content
  | .name, .text content => state.openName content
  | .colon, .colon => some { state with expected := .value }
  | .separator, .comma => state.continue?
  | .separator, .arrayEnd => state.closeArray
  | .separator, .objectEnd => state.closeObject
  | _, _ => none

def run (state : Pushdown) : List JsonToken → Option Pushdown
  | [] => some state
  | token :: rest =>
    match state.step token with
    | some next => run next rest
    | none => none

end Pushdown

/-- The value of a document, or nothing when it is not well formed. -/
def read? (text : String) : Option Json :=
  (JsonToken.ofText? text.toList).bind fun tokens =>
    (Pushdown.start.run tokens).bind Pushdown.document

end Json

end GpuPlacement
