/-
  Reading JSON values.

  The reader takes one token after the other and keeps a stack of the arrays and
  objects that are open.  At most 127 may be open at a time.
-/
import Winnow.Json.Token

namespace Winnow.Json

/-- An array or object that is not closed yet, its items in reverse. -/
inductive Frame where
  | array (items : List Json)
  | object (members : List (String × Json))
  /-- An object with a key whose value comes next. -/
  | member (members : List (String × Json)) (key : String)

/-- What may come next. -/
inductive Expected where
  /-- A value. -/
  | value
  /-- A value, or the end of the array that was just opened. -/
  | valueOrClose
  /-- A key. -/
  | key
  /-- A key, or the end of the object that was just opened. -/
  | keyOrClose
  /-- The colon behind a key. -/
  | colon
  /-- A comma, or the end of the innermost open array or object. -/
  | separator
  /-- Nothing more: this is the value. -/
  | nothing (result : Json)

structure Reader where
  stack : List Frame := []
  expected : Expected := .value

namespace Reader

/-- How many arrays and objects may be open at a time. -/
def maxDepth : Nat := 127

/-- Puts a complete value in its place. -/
def complete? (stack : List Frame) (v : Json) : Option Reader :=
  match stack with
  | [] => some ⟨[], .nothing v⟩
  | .array items :: rest => some ⟨.array (v :: items) :: rest, .separator⟩
  | .member members key :: rest => some ⟨.object ((key, v) :: members) :: rest, .separator⟩
  | .object _ :: _ => none

def openFrame? (r : Reader) (f : Frame) (expected : Expected) : Option Reader :=
  if r.stack.length < maxDepth then some ⟨f :: r.stack, expected⟩ else none

/-- The start of a value. -/
def value? (r : Reader) : Token → Option Reader
  | .scalar v => complete? r.stack v
  | .openArray => r.openFrame? (.array []) .valueOrClose
  | .openObject => r.openFrame? (.object []) .keyOrClose
  | _ => none

/-- The end of the innermost array or object. -/
def close? (r : Reader) (t : Token) : Option Reader :=
  match t, r.stack with
  | .closeArray, .array items :: rest => complete? rest (.array items.reverse)
  | .closeObject, .object members :: rest => complete? rest (.object members.reverse)
  | _, _ => none

/-- A key of the innermost object. -/
def key? (r : Reader) (t : Token) : Option Reader :=
  match t, r.stack with
  | .scalar (.string key), .object members :: rest => some ⟨.member members key :: rest, .colon⟩
  | _, _ => none

/-- The comma between two items. -/
def next? (r : Reader) : Option Reader :=
  match r.stack with
  | .array _ :: _ => some { r with expected := .value }
  | .object _ :: _ => some { r with expected := .key }
  | _ => none

/-- Takes one token. -/
def step? (r : Reader) (t : Token) : Option Reader :=
  match r.expected with
  | .value => r.value? t
  | .valueOrClose =>
    match t with
    | .closeArray => r.close? t
    | _ => r.value? t
  | .key => r.key? t
  | .keyOrClose =>
    match t with
    | .closeObject => r.close? t
    | _ => r.key? t
  | .colon =>
    match t with
    | .colon => some { r with expected := .value }
    | _ => none
  | .separator =>
    match t with
    | .comma => r.next?
    | _ => r.close? t
  | .nothing _ => none

def result? (r : Reader) : Option Json :=
  match r.expected with
  | .nothing v => some v
  | _ => none

end Reader

/-- Reads one value, which must be the whole text. -/
def parse? (text : String) : Option Json :=
  ((tokens? text.toList).bind fun ts => ts.foldlM Reader.step? {}).bind Reader.result?

end Winnow.Json
