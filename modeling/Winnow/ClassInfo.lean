/-
  What is known of the class whose methods are examined.
-/
import Winnow.Sorted

namespace Winnow

/-- A field that the class declares. -/
structure Field where
  name : String
  desc : String
deriving DecidableEq

/-- The facts about a class.  Interfaces are kept in order and without repetition. -/
structure ClassInfo where
  name : String
  superName : Option String := none
  interfaces : List String := []
  annotations : List String := []
  attributes : List String := []
  fields : List Field := []
  /-- The name of the source file. -/
  source : Option String := none
  /-- The source debug extension. -/
  sourceMap : Option String := none
deriving DecidableEq

namespace ClassInfo

def addInterface (c : ClassInfo) (name : String) : ClassInfo :=
  { c with interfaces := Sorted.insert name c.interfaces }

def hasAnnotation (c : ClassInfo) (desc : String) : Bool :=
  c.annotations.contains desc

def hasAttribute (c : ClassInfo) (name : String) : Bool :=
  c.attributes.contains name

def hasInterface (c : ClassInfo) (name : String) : Bool :=
  c.interfaces.contains name

/-- Classes compiled from Kotlin carry its metadata annotation. -/
def isKotlin (c : ClassInfo) : Bool :=
  c.hasAnnotation "Lkotlin/Metadata;"

/-- Classes compiled from Scala carry a signature attribute. -/
def isScala (c : ClassInfo) : Bool :=
  c.hasAttribute "ScalaSig" || c.hasAttribute "Scala"

/-- Enumeration classes extend the common enumeration class. -/
def isEnum (c : ClassInfo) : Bool :=
  c.superName == some "java/lang/Enum"

end ClassInfo

end Winnow
