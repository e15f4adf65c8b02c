/-
  Members added for serialization.

  A serializable Kotlin class gets a method that writes its properties and a
  constructor that reads them, and its companion a method that returns the
  serializer.  The last one is generated if it has the line of the companion's
  constructor, which comes before it in the class file.
-/
import Winnow.Pattern.Cursor
import Winnow.Text.Basic
import Winnow.Filter

namespace Winnow.Idiom.Serialization

def isWriter (m : Method) : Bool :=
  m.isSynthetic && m.isStatic && Text.startsWith "write$Self" m.name &&
    (Text.containsText "Lkotlinx/serialization/encoding/CompositeEncoder;" m.desc ||
      Text.containsText "Lkotlinx/serialization/descriptors/SerialDescriptor;" m.desc)

def isReadingConstructor (m : Method) : Bool :=
  m.isSynthetic && m.name == "<init>" &&
    Text.endsWith "Lkotlinx/serialization/internal/SerializationConstructorMarker;)V" m.desc

def serializerClass : String := "kotlinx/serialization/KSerializer"

/-- Return the instance of the serializer of class `className`. -/
def returnSerializer (className : String) : List Step :=
  [.field .getStatic (className ++ "$$serializer") "INSTANCE" anyText,
    .type .checkCast serializerClass, .opcode .areturn]

/-- The body of the method consists of the pattern. -/
def isWholeBody (m : Method) (pattern : List Step) : Bool :=
  (m.matchFrom 0 pattern).matched?.any fun last => (m.realAfter? last).isNone

/-- The line of the first instruction. -/
def firstLine? (m : Method) : Option Nat :=
  m.firstReal?.bind m.lineAt?

/-- The scratch cell with the line of the companion's constructor. -/
def cell : String := "kotlin-serializable.companion-init-line"

def run (m : Method) (c : ClassInfo) (scratch : ClassScratch) : Outcome :=
  let nothing : Outcome := { findings := [], scratch }
  let all : Outcome := { findings := m.ignoreAll, scratch }
  if !c.isKotlin then nothing
  else if isWriter m || isReadingConstructor m then all
  else
    match Text.stripEnd? "$Companion" c.name with
    | none => nothing
    | some serializable =>
      if m.name == "<init>" && m.desc == "()V" then
        let note (_ : Option Nat) : Unit × Option Nat := ((), firstLine? m)
        { findings := [], scratch := (scratch.update .line cell none note).2 }
      else if m.name == "serializer" && m.desc == "()L" ++ serializerClass ++ ";" &&
          isWholeBody m (returnSerializer serializable) then
        let line : Option (Option Nat) := scratch.get? .line cell
        let line := line.join
        if line.isNone || line == firstLine? m then all else nothing
      else nothing

end Winnow.Idiom.Serialization
