/-
  Writing JSON values, on one line or with every item on a line of its own.

  Quote, backslash and the controls below the space are escaped, all else is written
  as it is.  Empty arrays and objects are written without a line in between.
-/
import Winnow.Json.Basic

namespace Winnow.Json

/-- The last four hexadecimal digits. -/
def hex4 (n : Nat) : List Char :=
  [n / 4096, n / 256, n / 16, n].map fun d => Nat.digitChar (d % 16)

def escapedChar (c : Char) : List Char :=
  if c = '"' then ['\\', '"']
  else if c = '\\' then ['\\', '\\']
  else if c = '\n' then ['\\', 'n']
  else if c = '\r' then ['\\', 'r']
  else if c = '\t' then ['\\', 't']
  else if c.toNat = 8 then ['\\', 'b']
  else if c.toNat = 12 then ['\\', 'f']
  else if c.toNat < 32 then ['\\', 'u'] ++ hex4 c.toNat
  else [c]

def stringText (s : String) : String :=
  String.ofList ('"' :: s.toList.flatMap escapedChar ++ ['"'])

def numberText (d : Decimal) : String :=
  let mantissa := if d.mantissa < 0 then "-" ++ d.mantissa.natAbs.repr else d.mantissa.natAbs.repr
  if d.exponent = 0 then mantissa
  else if d.exponent < 0 then mantissa ++ "e-" ++ d.exponent.natAbs.repr
  else mantissa ++ "e" ++ d.exponent.natAbs.repr

/-- How values are laid out: the depth of indentation, or none on a single line. -/
abbrev Layout := Option Nat

namespace Layout

def deeper (l : Layout) : Layout :=
  l.map (· + 1)

/-- The break before an item: two spaces per level. -/
def lineBreak : Layout → String
  | none => ""
  | some depth => String.ofList ('\n' :: List.replicate (2 * depth) ' ')

def colon : Layout → String
  | none => ":"
  | some _ => ": "

/-- Items between brackets. -/
def enclose (l : Layout) (opening closing : String) : (items : List String) → String
  | [] => opening ++ closing
  | item :: items =>
    opening ++ l.deeper.lineBreak ++ item ++
      items.foldr (fun i rest => "," ++ l.deeper.lineBreak ++ i ++ rest)
        (l.lineBreak ++ closing)

end Layout

mutual

def render (l : Layout) : Json → String
  | .null => "null"
  | .bool value => if value then "true" else "false"
  | .number value => numberText value
  | .string value => stringText value
  | .array items => l.enclose "[" "]" (renderItems l.deeper items)
  | .object members => l.enclose "\x7b" "\x7d" (renderMembers l.deeper members)

def renderItems (l : Layout) : List Json → List String
  | [] => []
  | item :: items => render l item :: renderItems l items

def renderMembers (l : Layout) : List (String × Json) → List String
  | [] => []
  | (key, value) :: members =>
    (stringText key ++ l.colon ++ render l value) :: renderMembers l members

end

/-- The value on one line. -/
def compact (j : Json) : String :=
  render none j

/-- The value with every item on a line of its own. -/
def pretty (j : Json) : String :=
  render (some 0) j

end Winnow.Json
