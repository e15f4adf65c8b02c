/-
  Woven aspects.

  The AspectJ weaver adds members to a class, calls of its own to the static
  initialiser, and join points, closures and handlers to the advised methods.
-/
import Winnow.Method.Navigation
import Winnow.Text.Basic
import Winnow.Filter

namespace Winnow.Idiom.Aspect

/-! ## Members and static initialisers -/

/-- A static call of a method of this name stands at `pos`. -/
def isStaticCall (m : Method) (name : String) (pos : Nat) : Bool :=
  match m.code[pos]? with
  | some (.call op _ name' _ _) => op == .invokeStatic && name' == name
  | _ => false

def isBefore (m : Method) : Nat → Bool := isStaticCall m "ajc$preClinit"

def isAfter (m : Method) : Nat → Bool := isStaticCall m "ajc$postClinit"

/-- Whether nothing of the initialiser is left besides the calls of the weaver: the
    first call is followed by the return, or nothing precedes the second but the
    first. -/
def isAllWoven (m : Method) (pos : Nat) : Bool :=
  (isBefore m pos && (m.realAfter? pos).any (m.hasOpcode .vreturn)) ||
    (isAfter m pos && ((m.realBefore? pos).isNone ||
      ((lastWhere (isBefore m) pos).bind m.realAfter?) == some pos))

/-- What the call at `pos` accounts for: everything up to the first call, everything
    from the second on. -/
def initialiserRange? (m : Method) (pos : Nat) : Option Finding :=
  if isBefore m pos then some (.ignore 0 pos)
  else if isAfter m pos then some (.ignore pos (m.size - 1))
  else none

def memberFindings (m : Method) : List Finding :=
  if (m.attribute? "org.aspectj.weaver.AjSynthetic").isSome then m.ignoreAll
  else if m.name != "<clinit>" then []
  else if m.positions.any (isAllWoven m) then m.ignoreAll
  else m.positions.filterMap (initialiserRange? m)

/-! ## Advised methods -/

/-- The line of the declaration of the advised method, from an attribute with a
    positive big-endian number in its first four bytes. -/
def declarationLine? (m : Method) : Option Nat := do
  let a ← m.attribute? "org.aspectj.weaver.MethodDeclarationLineNumber"
  let b₃ :: b₂ :: b₁ :: b₀ :: _ := a.content | none
  let line := ((b₃.toNat * 256 + b₂.toNat) * 256 + b₁.toNat) * 256 + b₀.toNat
  guard (0 < line ∧ line < Nat.pow 2 31)
  return line

/-- The code before the first line of the declaration, which is not the method's own. -/
def prologue (m : Method) : List Finding :=
  match declarationLine? m with
  | none => []
  | some declared =>
    match m.code.findIdx? fun e => e.line?.any (declared ≤ ·) with
    | none => m.ignoreAll
    | some pos => if 1 < pos then [.ignore 0 (pos - 1)] else []

def isCall : Entry → Bool
  | .call .. => true
  | _ => false

/-- The first call strictly behind `pos`. -/
def callAfter? (m : Method) (pos : Nat) : Option Nat :=
  firstWhere (fun q => m.code[q]?.any isCall) (pos + 1) (m.size - (pos + 1))

/-- A call that makes a join point. -/
def isJoinPoint : Entry → Bool
  | .call _ owner name _ _ => owner == "org/aspectj/runtime/reflect/Factory" && name == "makeJP"
  | _ => false

/-- The plumbing at an entry: accesses of a join point, with the call that makes it,
    and the calls that make join points and closures. -/
def plumbing? (m : Method) (pos : Nat) (e : Entry) : Option Finding :=
  match e with
  | .field _ _ name _ =>
    if Text.startsWith "ajp$" name then
      let made := (callAfter? m pos).filter fun q => m.code[q]?.any isJoinPoint
      some (.ignore pos (made.getD pos))
    else none
  | .call _ owner name _ _ =>
    if isJoinPoint e || (Text.containsText "$AjcClosure" owner && name == "<init>") ||
        (owner == "org/aspectj/runtime/internal/AroundClosure" &&
          name == "linkClosureAndJoinPoint") then
      some (.ignore pos pos)
    else none
  | _ => none

/-- The handler at `handler` gets an aspect, runs its advice and throws again. -/
def adviceHandler? (m : Method) (handler : Nat) : Option Finding := do
  let aspectOf ← callAfter? m handler
  let .call op aspect name _ _ ← m.code[aspectOf]? | none
  guard (op = .invokeStatic ∧ name = "aspectOf")
  let advice ← callAfter? m aspectOf
  let .call _ owner _ _ _ ← m.code[advice]? | none
  guard (owner = aspect)
  let thrown ← firstWhere (m.hasOpcode .athrow) (advice + 1) (m.size - (advice + 1))
  return .ignore handler thrown

def advisedFindings (m : Method) (c : ClassInfo) : List Finding :=
  if c.hasAttribute "org.aspectj.weaver.WeaverState" ||
      c.hasAttribute "org.aspectj.weaver.WeaverVersion" then
    prologue m ++ (m.code.toList.zipIdx.filterMap fun (e, pos) => plumbing? m pos e) ++
      m.tries.filterMap fun t =>
        if t.caught.isSome then (m.resolve? t.handler).bind (adviceHandler? m) else none
  else []

end Winnow.Idiom.Aspect
