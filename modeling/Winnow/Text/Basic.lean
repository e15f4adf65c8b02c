/-
  Lines, parts and blanks of a text.

  A line ends at a line feed, or at the carriage return right before one.  The text
  after the last line feed is a line too, unless it is empty; a carriage return at
  its end belongs to it.

  Classes of characters are given by ranges of code points.  Blanks are the characters
  that Unicode calls white space.
-/

namespace Winnow.Text

def linesOf : List Char → List (List Char)
  | [] => []
  | '\n' :: rest => [] :: linesOf rest
  | '\r' :: '\n' :: rest => [] :: linesOf rest
  | c :: rest =>
    match linesOf rest with
    | [] => [[c]]
    | l :: ls => (c :: l) :: ls

def lines (text : String) : List String :=
  (linesOf text.toList).map String.ofList

/-! ## Parts of a text -/

def startsWith (start text : String) : Bool :=
  start.toList.isPrefixOf text.toList

def endsWith (ending text : String) : Bool :=
  ending.toList.isSuffixOf text.toList

/-- What stands before the ending, if the text ends so. -/
def stripEnd? (ending text : String) : Option String :=
  if endsWith ending text then
    some (String.ofList (text.toList.take (text.toList.length - ending.toList.length)))
  else none

/-- Whether `part` stands somewhere in a list of characters. -/
def occursIn (part : List Char) : List Char → Bool
  | [] => part.isEmpty
  | c :: cs => part.isPrefixOf (c :: cs) || occursIn part cs

def containsText (part text : String) : Bool :=
  occursIn part.toList text.toList

/-! ## Classes of characters -/

/-- Whether the code point of the character lies in one of the closed ranges. -/
def inRanges (ranges : List (Nat × Nat)) (c : Char) : Bool :=
  ranges.any fun (first, last) => first ≤ c.toNat && c.toNat ≤ last

/-- The code points with the property `White_Space`. -/
def blankRanges : List (Nat × Nat) :=
  [(0x9, 0xd), (0x20, 0x20), (0x85, 0x85), (0xa0, 0xa0), (0x1680, 0x1680), (0x2000, 0x200a),
   (0x2028, 0x2029), (0x202f, 0x202f), (0x205f, 0x205f), (0x3000, 0x3000)]

def isBlank (c : Char) : Bool :=
  inRanges blankRanges c

/-- Drops the blanks at both ends. -/
def trim (cs : List Char) : List Char :=
  ((cs.dropWhile isBlank).reverse.dropWhile isBlank).reverse

end Winnow.Text
