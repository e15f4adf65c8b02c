/-
  Case classes of Scala and their companion objects.

  The members that the compiler generates are recognised by name, descriptor and how
  their code begins.
-/
import Winnow.Pattern.Cursor
import Winnow.Descriptor
import Winnow.Text.Basic
import Winnow.Filter

namespace Winnow.Idiom.CaseClass

/-- Whether the code begins with instructions of these opcodes. -/
def beginsWith (m : Method) (ops : List Opcode) : Bool :=
  (m.matchFrom 0 (ops.map .opcode)).isActive

/-- Call the runtime with the instance, and return. -/
def asksRuntime (m : Method) (name desc : String) (ret : Opcode) : Bool :=
  (m.matchFrom 0 [.opcode .getStatic, .opcode .aload,
    .call .invokeVirtual "scala/runtime/ScalaRunTime$" name desc, .opcode ret]).isActive

def returnsConstant (m : Method) : Bool :=
  beginsWith m [.ldc, .areturn]

/-- The first instruction has opcode `first`, and the pattern matches at the first
    instruction behind it with opcode `call`. -/
def forwards (m : Method) (first call : Opcode) (pattern : List Step) : Bool :=
  m.firstReal?.any fun start =>
    m.hasOpcode first start &&
      (firstWhere (m.hasOpcode call) (start + 1) (m.size - (start + 1))).any fun pos =>
        (m.matchFrom pos pattern).isActive

/-- Forward to a method and return the object that it returns. -/
def forwardsTo (m : Method) (first call : Opcode) (owner name desc : String) : Bool :=
  forwards m first call [.call call owner name desc, .opcode .areturn]

def returnsObject (m : Method) (className : String) : Bool :=
  Descriptor.returnType? m.desc == some ("L" ++ className ++ ";")

/-- The value of a default argument. -/
def isDefaultValue (m : Method) : Bool :=
  Text.startsWith "$lessinit$greater$default" m.name || Text.startsWith "apply$default$" m.name

/-- A public static method that forwards to the companion object. -/
def isStaticForwarder (m : Method) (companion : String) : Bool :=
  m.access.isPublic && m.isStatic &&
    forwards m .getStatic .invokeVirtual [.call .invokeVirtual companion m.name m.desc,
      .satisfying fun e => e.opcode?.any Opcode.isReturn]

/-- A generated member of the case class `className`. -/
def isMember (className : String) (m : Method) : Bool :=
  let companion := className ++ "$"
  if m.name == "equals" && m.desc == "(Ljava/lang/Object;)Z" then
    (m.matchFrom 0 [.slot .aload 0, .opcode .aload, .opcode .ifAcmpEq, .opcode .aload,
      .opcode .astore, .opcode .aload, .opcode .instanceOf]).isActive
  else if m.name == "hashCode" && m.desc == "()I" then
    asksRuntime m "_hashCode" "(Lscala/Product;)I" .ireturn ||
      beginsWith m [.ldc, .istore, .iload, .aload]
  else if m.name == "toString" && m.desc == "()Ljava/lang/String;" then
    asksRuntime m "_toString" "(Lscala/Product;)Ljava/lang/String;" .areturn
  else if m.name == "productIterator" && m.desc == "()Lscala/collection/Iterator;" then
    asksRuntime m "typedProductIterator" "(Lscala/Product;)Lscala/collection/Iterator;" .areturn
  else if m.name == "productElement" && m.desc == "(I)Ljava/lang/Object;" then
    (m.matchFrom 0 [.opcode .iload, .opcode .istore, .opcode .iload, .switch]).isActive
  else if m.name == "productArity" && m.desc == "()I" then true
  else if m.name == "productPrefix" && m.desc == "()Ljava/lang/String;" then returnsConstant m
  else if (m.name == "curried" || m.name == "tupled") && m.desc == "()Lscala/Function1;" then
    (m.matchFrom 0 [.opcode .getStatic, .call .invokeVirtual companion m.name m.desc,
      .opcode .areturn]).isActive
  else if m.name == "copy" then beginsWith m [.new, .dup]
  else if m.name == "unapply" && m.desc == "(L" ++ className ++ ";)Lscala/Option;" then
    (m.matchFrom 0 [.opcode .getStatic, .opcode .aload,
      .call .invokeVirtual companion "unapply" m.desc, .opcode .areturn]).isActive
  else if m.name == "apply" && returnsObject m className then
    forwardsTo m .getStatic .invokeVirtual companion "apply" m.desc
  else
    isDefaultValue m || Text.startsWith "copy$default$" m.name || isStaticForwarder m companion

/-- The descriptor of a constructor with the arguments of `desc`. -/
def constructorDesc (desc : String) : String :=
  String.ofList (desc.toList.takeWhile (· ≠ ')')) ++ ")V"

/-- A generated member of `className`, the companion object of the case class
    `caseClass`. -/
def isCompanionMember (className caseClass : String) (m : Method) : Bool :=
  if m.name == "apply" && returnsObject m caseClass then
    beginsWith m [.new, .dup] &&
      forwardsTo m .new .invokeSpecial caseClass "<init>" (constructorDesc m.desc)
  else if m.name == "apply" && Text.endsWith "Ljava/lang/Object;" m.desc then
    (m.matchFrom 0 [.slot .aload 0]).isActive &&
      forwardsTo m .aload .invokeVirtual className "apply" anyText
  else if m.name == "unapply" && Text.endsWith "Lscala/Option;" m.desc then
    beginsWith m [.aload, .ifNonNull, .getStatic, .goto, .new, .dup, .new, .dup]
  else if m.name == "readResolve" && m.desc == "()Ljava/lang/Object;" then
    m.access.isPrivate && beginsWith m [.getStatic, .areturn]
  else if m.name == "toString" && m.desc == "()Ljava/lang/String;" then returnsConstant m
  else isDefaultValue m

/-- A generated member of a case class or of a companion object. -/
def isGenerated (m : Method) (c : ClassInfo) : Bool :=
  c.isScala &&
    if c.hasInterface "scala/Product" then isMember c.name m
    else (Text.stripEnd? "$" c.name).any fun caseClass => isCompanionMember c.name caseClass m

end Winnow.Idiom.CaseClass
