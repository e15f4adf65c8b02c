/-
  Lists of extension filters.

  Every line names one filter; `#` starts a comment, and blanks around the name are
  dropped.  A name starts with a letter, an underscore or a dollar sign and goes on
  with letters, numbers, underscores, dollar signs and dots.  Names count once, where
  they come first.
-/
import Winnow.Text.Alphabetic
import Winnow.Text.Numeric
import Winnow.Filter

namespace Winnow.Extension

def isNameStart (c : Char) : Bool :=
  Text.isAlphabetic c || c == '_' || c == '$'

def isNamePart (c : Char) : Bool :=
  Text.isAlphabetic c || Text.isNumeric c || c == '_' || c == '$' || c == '.'

def isName : List Char → Bool
  | [] => false
  | c :: cs => isNameStart c && cs.all isNamePart

/-- What a line says: the part before the comment, without blanks around it. -/
def content (line : String) : List Char :=
  Text.trim (line.toList.takeWhile (· ≠ '#'))

/-- The names on the lines, the first of which has the given number. -/
def namesFrom (number : Nat) : (lines : List String) → Except SetupError (List String)
  | [] => .ok []
  | line :: lines =>
    let name := content line
    if name.isEmpty then namesFrom (number + 1) lines
    else if isName name then
      (namesFrom (number + 1) lines).map (String.ofList name :: ·)
    else .error (.illegalName number (String.ofList name))

/-- The names of a list, without repetition. -/
def parseList (text : String) : Except SetupError (List String) :=
  (namesFrom 1 (Text.lines text)).map List.eraseDups

end Winnow.Extension
