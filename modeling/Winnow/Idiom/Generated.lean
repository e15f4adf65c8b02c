/-
  Methods that are generated as a whole, as their flags, annotations or missing line
  numbers tell, and constructors that only call the constructor of the superclass.
-/
import Winnow.Text.Basic
import Winnow.Pattern.Cursor
import Winnow.Filter

namespace Winnow.Idiom.Generated

/-! ## Flags -/

/-- Bodies of lambdas and of anonymous functions are the user's, and of a Kotlin class
    only accessors are left to the compiler. -/
def isSynthetic (m : Method) (c : ClassInfo) : Bool :=
  m.isSynthetic && !Text.startsWith "lambda$" m.name &&
    !(c.isScala && Text.startsWith "$anonfun$" m.name) &&
    !(c.isKotlin && !Text.startsWith "access$" m.name)

def isBridge (m : Method) (_ : ClassInfo) : Bool :=
  m.access.isBridge

/-! ## Annotations -/

/-- The annotation stands on the method or on its class. -/
def isMarked (desc : String) (m : Method) (c : ClassInfo) : Bool :=
  m.hasAnnotation desc || c.hasAnnotation desc

/-- The annotations that code generators put on what they generate. -/
def generatorAnnotations : List String :=
  ["Ljavax/annotation/Generated;",
    "Ljavax/annotation/processing/Generated;",
    "Ljakarta/annotation/Generated;",
    "Lorg/immutables/value/Generated;",
    "Lio/micronaut/core/annotation/Generated;",
    "Lorg/apache/avro/specific/AvroGenerated;",
    "Ldagger/internal/DaggerGenerated;"]

def isGeneratorMarked (m : Method) (c : ClassInfo) : Bool :=
  generatorAnnotations.any fun desc => isMarked desc m c

def isLombokMarked (m : Method) (c : ClassInfo) : Bool :=
  isMarked "Llombok/Generated;" m c

def isGroovyMarked (m : Method) (c : ClassInfo) : Bool :=
  isMarked "Lgroovy/transform/Generated;" m c

/-! ## Kotlin classes -/

/-- A method without lines in a class with a source file. -/
def hasNoSource (m : Method) (c : ClassInfo) : Bool :=
  c.source.isSome && c.isKotlin && !m.hasLines

/-- An instance method of an inline class; the code is in a static one. -/
def isBoxedMethod (m : Method) (c : ClassInfo) : Bool :=
  c.isKotlin && c.hasAnnotation "Lkotlin/jvm/JvmInline;" && !m.isStatic

/-! ## Enumerations -/

/-- The accessors of the constants of an enumeration. -/
def isEnumAccessor (m : Method) (c : ClassInfo) : Bool :=
  c.isEnum &&
    ((m.name == "values" && m.desc == "()[L" ++ c.name ++ ";") ||
      (m.name == "valueOf" && m.desc == "(Ljava/lang/String;)L" ++ c.name ++ ";"))

def isEnumEntries (m : Method) (c : ClassInfo) : Bool :=
  c.isKotlin && c.isEnum && m.name == "getEntries" &&
    m.desc == "()Lkotlin/enums/EnumEntries;"

/-! ## Constructors -/

/-- A private constructor without arguments and body. -/
def isEmptyPrivateConstructor (m : Method) (c : ClassInfo) : Bool :=
  m.access.isPrivate && m.name == "<init>" && m.desc == "()V" &&
    c.superName.any fun superName => (m.matchFrom 0 [.slot .aload 0,
      .call .invokeSpecial superName "<init>" "()V", .opcode .vreturn]).isActive

/-- The constructor of an enumeration that declares none. -/
def isEmptyEnumConstructor (m : Method) (c : ClassInfo) : Bool :=
  c.isEnum && m.access.isPrivate && m.name == "<init>" && m.desc == "(Ljava/lang/String;I)V" &&
    (m.matchFrom 0 [.slot .aload 0, .slot .aload 1, .slot .iload 2,
      .call .invokeSpecial "java/lang/Enum" "<init>" "(Ljava/lang/String;I)V",
      .opcode .vreturn]).isActive

end Winnow.Idiom.Generated
