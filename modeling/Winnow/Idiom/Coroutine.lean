/-
  State machines of coroutines.

  A suspending function is compiled into a method that switches on its state, throws
  the failure of the previous step again and returns when a call suspends.  The
  switch, one resumption per further state and the unreachable default are ignored,
  if there are as many resumptions as states.
-/
import Winnow.Pattern.Cursor
import Winnow.Filter

namespace Winnow.Idiom.Coroutine

/-- Load the suspension mark and the state, and switch on the state. -/
def dispatch : List Step :=
  [.call .invokeStatic "kotlin/coroutines/intrinsics/IntrinsicsKt" "getCOROUTINE_SUSPENDED"
      "()Ljava/lang/Object;",
    .var .astore "suspended", .var .aload "this", .opcode .getField, .opcode .tableSwitch]

/-- Throw the failure of the previous step, if there is one. -/
def rethrowFailure : List Step :=
  let failure := "kotlin/Result$Failure"
  [.opcode .aload, .opcode .dup, .type .instanceOf failure, .opcode .ifEq,
    .type .checkCast failure, .opcode .getField, .opcode .athrow, .opcode .pop]

/-- Return if the call suspended; later go on here with its result. -/
def resumption : List Step :=
  [.var .aload "suspended", .opcode .ifAcmpNe, .var .aload "suspended", .opcode .areturn] ++
    rethrowFailure ++ [.opcode .aload]

/-- Throw because the state is impossible. -/
def impossibleState : List Step :=
  let exception := "java/lang/IllegalStateException"
  [.type .new exception, .opcode .dup, .text "call to 'resume' before 'invoke' with coroutine",
    .call .invokeSpecial exception "<init>" "(Ljava/lang/String;)V", .opcode .athrow]

/-- The resumptions behind the calls, with the names bound by the dispatch. -/
def resumptions (m : Method) (c : Cursor) : List Finding :=
  m.positions.filterMap fun pos =>
    ((c.movePast pos).run m resumption).matched?.map (.ignore pos ·)

def stateMachine? (m : Method) : Option (List Finding) := do
  let c := m.matchFrom 0 dispatch
  let switch ← c.matched?
  let .tableSwitch _ _ default cases ← m.code[switch]? | none
  let last ← (c.run m rethrowFailure).matched?
  let ranges := .ignore switch last :: resumptions m c
  guard (ranges.length = cases.length)
  let start ← m.resolve? default
  let thrown ← (m.matchFrom start impossibleState).matched?
  return .ignore start thrown :: ranges

def findings (m : Method) (c : ClassInfo) : List Finding :=
  if c.isKotlin && m.name == "invokeSuspend" then (stateMachine? m).getD [] else []

end Winnow.Idiom.Coroutine
