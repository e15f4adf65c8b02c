/-
  The built-in filters.

  * Each filter joins an idiom with the identity under which it is reported, can be
    disabled and is described to users;
  * `builtinFilters` lists them in the order in which they run: Java first, then
    Kotlin, records and patterns, woven aspects, and Scala.
-/
import Winnow.Idiom.Aspect
import Winnow.Idiom.Assertion
import Winnow.Idiom.CaseClass
import Winnow.Idiom.Compose
import Winnow.Idiom.Coroutine
import Winnow.Idiom.CountingLoop
import Winnow.Idiom.DefaultArguments
import Winnow.Idiom.DefaultArm
import Winnow.Idiom.Finally
import Winnow.Idiom.Forwarder
import Winnow.Idiom.Generated
import Winnow.Idiom.InlinedCode
import Winnow.Idiom.NullCheck
import Winnow.Idiom.Record
import Winnow.Idiom.SafeCall
import Winnow.Idiom.Serialization
import Winnow.Idiom.StringSwitch
import Winnow.Idiom.Synchronized
import Winnow.Idiom.TryWithResources

namespace Winnow

namespace Builtin

/-! ## Java -/

def enumAccessors : Filter :=
  Filter.ofCondition "ENUM" "Enum accessors"
    "Compiler-generated values() and valueOf(String) of enum types" Idiom.Generated.isEnumAccessor

def synthetic : Filter :=
  Filter.ofCondition "SYNTHETIC" "Synthetic methods"
    "Compiler-generated synthetic methods other than lambda bodies" Idiom.Generated.isSynthetic

def bridge : Filter :=
  Filter.ofCondition "BRIDGE" "Bridge methods"
    "Bridge methods generated for covariant overrides and erasure" Idiom.Generated.isBridge

def synchronizedBlocks : Filter :=
  Filter.ofMethod "SYNCHRONIZED" "Synchronized blocks"
    "Monitor-exit handlers generated for synchronized blocks" Idiom.Synchronized.findings

def tryWithResourcesJavac11 : Filter :=
  Filter.ofMethod "TRY_WITH_RESOURCES_JAVAC11" "Try-with-resources (javac 11+)"
    "Resource closing and suppression code generated by javac 11 and later"
    Idiom.TryWithResources.javac11Findings

def tryWithResourcesJavac : Filter :=
  Filter.ofMethod "TRY_WITH_RESOURCES_JAVAC" "Try-with-resources (javac)"
    "Resource closing and suppression code generated by javac before 11"
    Idiom.TryWithResources.javacFindings

def tryWithResourcesEcj : Filter :=
  Filter.ofMethod "TRY_WITH_RESOURCES_ECJ" "Try-with-resources (ecj)"
    "Resource closing and suppression code generated by the Eclipse compiler"
    Idiom.TryWithResources.ecjFindings

def finallyBlocks : Filter :=
  Filter.ofMethod "FINALLY" "Finally blocks"
    "Duplicated finally bodies on normal and exceptional paths" Idiom.Finally.findings

def privateEmptyNoArgConstructor : Filter :=
  Filter.ofCondition "PRIVATE_EMPTY_NO_ARG_CONSTRUCTOR" "Private empty constructor"
    "Private no-argument constructors whose body only calls super()"
    Idiom.Generated.isEmptyPrivateConstructor

def assertions : Filter :=
  Filter.ofFindings "ASSERT" "Assert statements"
    "Synthetic $assertionsDisabled initialization and checks" Idiom.Assertion.findings

def stringSwitchJavac : Filter :=
  Filter.ofMethod "STRING_SWITCH_JAVAC" "String switch (javac)"
    "hashCode dispatch and equals chains of javac string switches" Idiom.StringSwitch.javacFindings

def stringSwitchEcj : Filter :=
  Filter.ofMethod "STRING_SWITCH_ECJ" "String switch (ecj)"
    "hashCode dispatch and equals chains of ecj string switches" Idiom.StringSwitch.ecjFindings

def enumEmptyConstructor : Filter :=
  Filter.ofCondition "ENUM_EMPTY_CONSTRUCTOR" "Enum empty constructor"
    "Implicit enum constructors that only delegate to java.lang.Enum"
    Idiom.Generated.isEmptyEnumConstructor

/-! ## Code generators -/

def annotationGenerated : Filter :=
  Filter.ofCondition "ANNOTATION_GENERATED" "Generated annotation"
    "Methods or classes marked @Generated by a code generator" Idiom.Generated.isGeneratorMarked

def lombokGenerated : Filter :=
  Filter.ofCondition "LOMBOK_GENERATED" "Lombok generated"
    "Methods annotated with @lombok.Generated" Idiom.Generated.isLombokMarked

def groovyGenerated : Filter :=
  Filter.ofCondition "GROOVY_GENERATED" "Groovy generated"
    "Methods annotated with @groovy.transform.Generated" Idiom.Generated.isGroovyMarked

/-! ## Kotlin -/

def kotlinGenerated : Filter :=
  Filter.ofCondition "KOTLIN_GENERATED" "Kotlin generated methods"
    "Kotlin methods that carry no source line" Idiom.Generated.hasNoSource

def kotlinLateinit : Filter :=
  Filter.ofFindings "KOTLIN_LATEINIT" "Kotlin lateinit"
    "Uninitialized-property checks of lateinit reads" Idiom.NullCheck.lateinitFindings

def kotlinWhen : Filter :=
  Filter.ofMethod "KOTLIN_WHEN" "Kotlin when"
    "Implicit else branches of exhaustive when expressions" Idiom.DefaultArm.whenFindings

def kotlinWhenString : Filter :=
  Filter.ofMethod "KOTLIN_WHEN_STRING" "Kotlin when on strings"
    "hashCode dispatch and equals chains of Kotlin when on strings"
    Idiom.StringSwitch.kotlinFindings

def kotlinUnsafeCastOperator : Filter :=
  Filter.ofFindings "KOTLIN_UNSAFE_CAST_OPERATOR" "Kotlin unsafe cast"
    "Null checks generated for unsafe casts to non-null types" Idiom.NullCheck.castFindings

def kotlinNotNullOperator : Filter :=
  Filter.ofFindings "KOTLIN_NOT_NULL_OPERATOR" "Kotlin !! operator"
    "Null checks generated for the not-null assertion operator" Idiom.NullCheck.assertionFindings

def kotlinDefaultArguments : Filter :=
  Filter.ofFindings "KOTLIN_DEFAULT_ARGUMENTS" "Kotlin default arguments"
    "Bit mask checks of Kotlin $default methods and constructors" Idiom.DefaultArguments.findings

def kotlinInlineClass : Filter :=
  Filter.ofCondition "KOTLIN_INLINE_CLASS" "Kotlin inline classes"
    "Instance wrappers generated for Kotlin inline value classes" Idiom.Generated.isBoxedMethod

def kotlinInline : Filter :=
  { id := "KOTLIN_INLINE"
    name := "Kotlin inline functions"
    description := "Code inlined from Kotlin inline functions"
    run := Idiom.InlinedCode.run }

def kotlinCoroutine : Filter :=
  Filter.ofFindings "KOTLIN_COROUTINE" "Kotlin coroutines"
    "State machine dispatch and suspension checks of invokeSuspend" Idiom.Coroutine.findings

def kotlinDefaultMethods : Filter :=
  Filter.ofCondition "KOTLIN_DEFAULT_METHODS" "Kotlin interface default methods"
    "Forwarders to Kotlin interface DefaultImpls" Idiom.Forwarder.isDefaultMethod

def kotlinEnum : Filter :=
  Filter.ofCondition "KOTLIN_ENUM" "Kotlin enum entries"
    "Generated getEntries() of Kotlin enum classes" Idiom.Generated.isEnumEntries

def kotlinSafeCallOperator : Filter :=
  Filter.ofFindings "KOTLIN_SAFE_CALL_OPERATOR" "Kotlin ?. operator"
    "Branches of safe-call chains" Idiom.SafeCall.findings

def kotlinCompose : Filter :=
  Filter.ofFindings "KOTLIN_COMPOSE" "Jetpack Compose"
    "Compose runtime bookkeeping inside @Composable functions" Idiom.Compose.findings

def kotlinForLoop : Filter :=
  Filter.ofFindings "KOTLIN_FOR_LOOP" "Kotlin for loops"
    "Range checks of Kotlin for loops over progressions" Idiom.CountingLoop.findings

def kotlinJvmOverloads : Filter :=
  Filter.ofCondition "KOTLIN_JVM_OVERLOADS" "Kotlin @JvmOverloads"
    "Overloads generated for @JvmOverloads" Idiom.Forwarder.isOverload

def kotlinSerializable : Filter :=
  { id := "KOTLIN_SERIALIZABLE"
    name := "Kotlin serialization"
    description := "Members generated by the kotlinx.serialization plugin"
    run := Idiom.Serialization.run }

/-! ## Records and patterns -/

def records : Filter :=
  Filter.ofCondition "RECORDS" "Records"
    "Generated object methods and component accessors of records" Idiom.Record.isMember

def recordPattern : Filter :=
  Filter.ofMethod "RECORD_PATTERN" "Record patterns"
    "MatchException handlers of record deconstruction patterns" Idiom.Record.patternFindings

def exhaustiveSwitch : Filter :=
  Filter.ofMethod "EXHAUSTIVE_SWITCH" "Exhaustive switch"
    "Synthetic default arms of exhaustive switches" Idiom.DefaultArm.switchFindings

/-! ## Aspects and Scala -/

def aspectj : Filter :=
  Filter.ofMethod "ASPECTJ" "AspectJ synthetic members"
    "Methods marked AjSynthetic and ajc$preClinit/ajc$postClinit plumbing"
    Idiom.Aspect.memberFindings

def aspectjAdvised : Filter :=
  Filter.ofFindings "ASPECTJ_ADVISED" "AspectJ advised methods"
    "Join point creation, around closures and after-throwing handlers" Idiom.Aspect.advisedFindings

def scalaCaseClass : Filter :=
  Filter.ofCondition "SCALA_CASE_CLASS" "Scala case classes"
    "Members generated for Scala case classes and companion objects" Idiom.CaseClass.isGenerated

end Builtin

open Builtin in
/-- All built-in filters. -/
def builtinFilters : List Filter :=
  [enumAccessors, synthetic, bridge, synchronizedBlocks,
    tryWithResourcesJavac11, tryWithResourcesJavac, tryWithResourcesEcj, finallyBlocks,
    privateEmptyNoArgConstructor, assertions, stringSwitchJavac, stringSwitchEcj,
    enumEmptyConstructor, annotationGenerated, lombokGenerated, groovyGenerated,
    kotlinGenerated, kotlinLateinit, kotlinWhen, kotlinWhenString,
    kotlinUnsafeCastOperator, kotlinNotNullOperator, kotlinDefaultArguments, kotlinInlineClass,
    kotlinInline, kotlinCoroutine, kotlinDefaultMethods, kotlinEnum,
    kotlinSafeCallOperator, kotlinCompose, kotlinForLoop, kotlinJvmOverloads,
    kotlinSerializable, records, recordPattern, exhaustiveSwitch,
    aspectj, aspectjAdvised, scalaCaseClass]

end Winnow
