/-
  Tokens of a JSON text.

  The text is scanned character by character; the mode of the scanner tells what
  token it is in.  Words and numbers end at the first character that cannot belong to
  them, and are then checked.
-/
import Winnow.Json.Number

namespace Winnow.Json

inductive Token where
  | openArray
  | closeArray
  | openObject
  | closeObject
  | comma
  | colon
  /-- A string, a number or one of the three words. -/
  | scalar (value : Json)

/-- Where the scanner is.  What was read of a token is kept in reverse. -/
inductive Mode where
  | between
  | word (read : List Char)
  | number (read : List Char)
  | string (read : List Char)
  /-- Behind a backslash in a string. -/
  | escape (read : List Char)
  /-- In the hexadecimal digits of an escape, with the value and the number of digits
      so far; `high` is the first half of a surrogate pair. -/
  | unit (read : List Char) (high : Option Nat) (value count : Nat)
  /-- Behind the first half of a pair, before the backslash and the letter of the
      second. -/
  | pair (read : List Char) (high : Nat) (backslash : Bool)

structure Scanner where
  mode : Mode := .between
  /-- The finished tokens in reverse. -/
  tokens : List Token := []

namespace Scanner

def emit (s : Scanner) (t : Token) : Scanner :=
  { mode := .between, tokens := t :: s.tokens }

def enter (s : Scanner) (mode : Mode) : Scanner :=
  { s with mode }

def isNumberPart (c : Char) : Bool :=
  c.isDigit || c == '+' || c == '-' || c == '.' || c == 'e' || c == 'E'

/-- The value of a word. -/
def word? (cs : List Char) : Option Json :=
  if cs = ['t', 'r', 'u', 'e'] then some (.bool true)
  else if cs = ['f', 'a', 'l', 's', 'e'] then some (.bool false)
  else if cs = ['n', 'u', 'l', 'l'] then some .null
  else none

/-- A character between tokens. -/
def begin? (s : Scanner) (c : Char) : Option Scanner :=
  if c = ' ' ∨ c = '\t' ∨ c = '\n' ∨ c = '\r' then some s
  else if c = '[' then some (s.emit .openArray)
  else if c = ']' then some (s.emit .closeArray)
  else if c = '\x7b' then some (s.emit .openObject)
  else if c = '\x7d' then some (s.emit .closeObject)
  else if c = ',' then some (s.emit .comma)
  else if c = ':' then some (s.emit .colon)
  else if c = '"' then some (s.enter (.string []))
  else if c = '-' ∨ c.isDigit then some (s.enter (.number [c]))
  else if c.isLower then some (s.enter (.word [c]))
  else none

/-- Ends a word or a number. -/
def finish? (s : Scanner) : Option Scanner :=
  match s.mode with
  | .between => some s
  | .word read => (word? read.reverse).map fun v => s.emit (.scalar v)
  | .number read => (number? read.reverse).map fun d => s.emit (.scalar (.number d))
  | _ => none

/-- The character that a letter behind a backslash stands for. -/
def escaped? (c : Char) : Option Char :=
  if c = '"' ∨ c = '\\' ∨ c = '/' then some c
  else if c = 'b' then some '\x08'
  else if c = 'f' then some '\x0c'
  else if c = 'n' then some '\n'
  else if c = 'r' then some '\r'
  else if c = 't' then some '\t'
  else none

def hexDigit? (c : Char) : Option Nat :=
  if c.isDigit then some (c.toNat - '0'.toNat)
  else if 'a' ≤ c ∧ c ≤ 'f' then some (c.toNat - 'a'.toNat + 10)
  else if 'A' ≤ c ∧ c ≤ 'F' then some (c.toNat - 'A'.toNat + 10)
  else none

/-- The mode behind a complete escape of one 16-bit unit.  Halves of surrogate pairs
    come in pairs, the high one first. -/
def unitMode? (read : List Char) (high : Option Nat) (value : Nat) : Option Mode :=
  let isHigh := 0xd800 ≤ value && value < 0xdc00
  let isLow := 0xdc00 ≤ value && value < 0xe000
  match high with
  | none =>
    if isHigh then some (.pair read value false)
    else if isLow then none
    else some (.string (Char.ofNat value :: read))
  | some h =>
    if isLow then
      some (.string (Char.ofNat (0x10000 + (h - 0xd800) * 0x400 + (value - 0xdc00)) :: read))
    else none

/-- Scans one character. -/
def step? (s : Scanner) (c : Char) : Option Scanner :=
  match s.mode with
  | .between => s.begin? c
  | .word read =>
    if c.isLower then some (s.enter (.word (c :: read)))
    else s.finish?.bind fun s => s.begin? c
  | .number read =>
    if isNumberPart c then some (s.enter (.number (c :: read)))
    else s.finish?.bind fun s => s.begin? c
  | .string read =>
    if c = '"' then some (s.emit (.scalar (.string (String.ofList read.reverse))))
    else if c = '\\' then some (s.enter (.escape read))
    else if c.toNat < 32 then none
    else some (s.enter (.string (c :: read)))
  | .escape read =>
    if c = 'u' then some (s.enter (.unit read none 0 0))
    else (escaped? c).map fun e => s.enter (.string (e :: read))
  | .unit read high value count =>
    match hexDigit? c with
    | none => none
    | some d =>
      if count = 3 then (unitMode? read high (16 * value + d)).map s.enter
      else some (s.enter (.unit read high (16 * value + d) (count + 1)))
  | .pair read high backslash =>
    if backslash then if c = 'u' then some (s.enter (.unit read (some high) 0 0)) else none
    else if c = '\\' then some (s.enter (.pair read high true))
    else none

end Scanner

/-- The tokens of a text. -/
def tokens? (text : List Char) : Option (List Token) :=
  ((text.foldlM Scanner.step? {}).bind Scanner.finish?).map (·.tokens.reverse)

end Winnow.Json
