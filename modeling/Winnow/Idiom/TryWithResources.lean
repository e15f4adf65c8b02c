/-
  Try-with-resources statements.

  The compiler closes the resources of the statement on the normal path and in a
  handler, where an exception of the closing call is added to the primary one.  The
  closing code on both paths is ignored.  The handler is recognised first; the
  normal path is then looked for before it, with the same local variables.
-/
import Winnow.Pattern.Cursor
import Winnow.Filter

namespace Winnow.Idiom.TryWithResources

def throwable : String := "java/lang/Throwable"

/-! ## Shared shapes -/

/-- A call of `close` on the resource in variable `r`, always with the same owner. -/
def close (r : String) : List Step :=
  [.var .aload r, .callOn [.invokeInterface, .invokeVirtual] r "close" "()V"]

/-- Matches the pattern at the last position up to `last` where it matches, keeping
    the names bound so far. -/
def searchBack (m : Method) (c : Cursor) (pattern : List Step) : (last : Nat) → Option (Nat × Cursor)
  | 0 =>
    let found := (c.moveTo 0).run m pattern
    if found.isActive then some (0, found) else none
  | last + 1 =>
    let found := (c.moveTo (last + 1)).run m pattern
    if found.isActive then some (last + 1, found) else searchBack m c pattern last

/-- The jump right behind `pos`, or `pos` itself. -/
def withGoto (m : Method) (pos : Nat) : Nat :=
  ((m.realAfter? pos).filter (m.hasOpcode .goto)).getD pos

/-- The normal path up to the closing code and the handler, for a handler pattern and
    the closing pattern of the normal path. -/
def pair? (m : Method) (handler : Nat) (inHandler onPath : List Step) : Option (List Finding) := do
  let c := m.matchFrom handler inHandler
  let last ← c.matched?
  let (start, found) ← searchBack m c onPath handler
  let closed ← found.matched?
  return [.ignore start (withGoto m closed), .ignore handler last]

/-- The positions of the handlers that catch every throwable. -/
def throwableHandlers (m : Method) : List Nat :=
  m.tries.filterMap fun t => if t.caught = some throwable then m.resolve? t.handler else none

/-! ## The oldest compilers

The closing code tests for null or not, and calls a shared helper method or spells
out the treatment of a second exception. -/

structure CloseShape where
  nullCheck : Bool
  helper : Bool
deriving DecidableEq

/-- The shapes in the order in which they are tried. -/
def closeShapes : List CloseShape :=
  [⟨false, true⟩, ⟨true, false⟩, ⟨false, false⟩, ⟨true, true⟩]

/-- The closing code; `second` names the variable of the second exception. -/
def closing (shape : CloseShape) (second : String) : List Step :=
  (if shape.nullCheck then [.var .aload "r", .opcode .ifNull] else []) ++
  (if shape.helper then
    [.var .aload "primaryExc", .var .aload "r",
      .call .invokeStatic anyText "$closeResource"
        "(Ljava/lang/Throwable;Ljava/lang/AutoCloseable;)V"]
  else
    [.var .aload "primaryExc", .opcode .ifNull] ++ close "r" ++
    [.opcode .goto, .var .astore second, .var .aload "primaryExc", .var .aload second,
      .call .invokeVirtual throwable "addSuppressed" anyText, .opcode .goto] ++ close "r")

/-- Keep the primary exception, then close and throw. -/
def closingHandler (shape : CloseShape) : List Step :=
  [.var .astore "t1", .var .aload "t1", .var .astore "primaryExc", .var .aload "t1",
    .opcode .athrow, .var .astore "t2"] ++ closing shape "et" ++
  [.var .aload "t2", .opcode .athrow]

def javacFindings (m : Method) : List Finding :=
  (throwableHandlers m).flatMap fun handler =>
    (closeShapes.findSome? fun shape =>
      pair? m handler (closingHandler shape) (closing shape "nt")).getD []

/-! ## Later compilers -/

/-- The closing code, with or without a test for null. -/
def directClosing (nullCheck : Bool) : List Step :=
  (if nullCheck then [.var .aload "r", .opcode .ifNull] else []) ++ close "r"

/-- Store the primary exception, close, add a second exception to it and throw it. -/
def directHandler (nullCheck : Bool) : List Step :=
  [.var .astore "primaryExc"] ++ directClosing nullCheck ++
  [.opcode .goto, .var .astore "t", .var .aload "primaryExc", .var .aload "t",
    .call .invokeVirtual throwable "addSuppressed" "(Ljava/lang/Throwable;)V",
    .var .aload "primaryExc", .opcode .athrow]

def javac11Findings (m : Method) : List Finding :=
  (throwableHandlers m).flatMap fun handler =>
    [true, false].flatMap fun nullCheck =>
      (pair? m handler (directHandler nullCheck) (directClosing nullCheck)).getD []

/-! ## Chains of resources

Here one catch-any handler closes all resources, the innermost first.  The names
`r0`, `r1`, … stand for the resources. -/

def resource (n : Nat) : String :=
  "r" ++ n.repr

/-- Close the resource unless it is null. -/
def chainClose (r : String) : List Step :=
  [.var .aload r, .jump .ifNull (r ++ ".end")] ++ close r

/-- Close the resource unless it is null, and throw the primary exception. -/
def closeAndThrow (m : Method) (r : String) (c : Cursor) : Cursor :=
  ((c.run m ([.var .aload r, .jump .ifNull r] ++ close r)).passLabel m r).run m
    [.var .aload "primaryExc", .opcode .athrow]

/-- Make the exception primary, or add it to the primary exception. -/
def suppress (m : Method) (r : String) (c : Cursor) : Cursor :=
  let t := r ++ ".t"
  let begin := r ++ ".suppressStart"
  let done := r ++ ".suppressEnd"
  let replaced := c.run m [.var .astore t, .var .aload "primaryExc", .jump .ifNonNull begin,
    .var .aload t, .var .astore "primaryExc", .jump .goto done]
  let added := (replaced.passLabel m begin).run m [.var .aload "primaryExc", .var .aload t,
    .jump .ifAcmpEq done, .var .aload "primaryExc", .var .aload t,
    .call .invokeVirtual throwable "addSuppressed" anyText]
  added.passLabel m done

theorem isActive_of_closeAndThrow {m : Method} {r : String} {c : Cursor}
    (h : (closeAndThrow m r c).isActive) :
    (c.run m ([.var .aload r, .jump .ifNull r] ++ close r)).isActive :=
  Cursor.isActive_of_passLabel (Cursor.isActive_of_run h)

theorem isActive_of_suppress {m : Method} {r : String} {c : Cursor}
    (h : (suppress m r c).isActive) : c.isActive :=
  Cursor.isActive_of_run (Cursor.isActive_of_passLabel
    (Cursor.isActive_of_run (Cursor.isActive_of_passLabel h)))

theorem remaining_closeAndThrow_le {m : Method} {r : String} {c : Cursor} :
    (closeAndThrow m r c).remaining m ≤
      (c.run m ([.var .aload r, .jump .ifNull r] ++ close r)).remaining m :=
  Nat.le_trans Cursor.remaining_run_le Cursor.remaining_passLabel_le

theorem remaining_suppress_le {m : Method} {r : String} {c : Cursor} :
    (suppress m r c).remaining m ≤ c.remaining m :=
  Nat.le_trans Cursor.remaining_passLabel_le <| Nat.le_trans Cursor.remaining_run_le <|
    Nat.le_trans Cursor.remaining_passLabel_le Cursor.remaining_run_le

/-- One more resource in the handler of a statement that control can leave normally:
    it is closed on the way out, and the exception of the inner resource is added. -/
def nextResource (m : Method) (r : String) (c : Cursor) : Cursor :=
  closeAndThrow m r (suppress m r (c.run m [.jump .goto (r ++ ".end")]))

/-- The handler's further resources, the next one with number `n`. -/
def moreResources (m : Method) (c : Cursor) (n : Nat) : Option Cursor :=
  let closed := c.run m (chainClose (resource n))
  if closed.isActive then
    let following := nextResource m (resource n) closed
    if following.isActive then moreResources m following (n + 1) else none
  else some c
termination_by c.remaining m
decreasing_by
  rename_i hc _
  have h₁ : closed.remaining m < c.remaining m := Cursor.remaining_run_lt hc
  have h₂ : following.remaining m ≤ closed.remaining m :=
    Nat.le_trans remaining_closeAndThrow_le <| Nat.le_trans Cursor.remaining_run_le <|
      Nat.le_trans remaining_suppress_le Cursor.remaining_run_le
  exact Nat.lt_of_le_of_lt h₂ h₁

/-- A statement that control can leave normally. -/
def chainPair? (m : Method) (handler : Nat) : Option (List Finding) := do
  let c := closeAndThrow m (resource 0) (m.matchFrom handler [.var .astore "primaryExc"])
  guard c.isActive
  let c ← moreResources m c 1
  let c := (suppress m "last" c).run m [.var .aload "primaryExc", .opcode .athrow]
  let last ← c.matched?
  let (start, found) ← searchBack m c (chainClose (resource 0)) handler
  let goto ← (found.run m [.opcode .goto]).matched?
  return [.ignore start goto, .ignore (handler + 1) last]

/-- All resources that a handler closes, from number `n` on: the place behind them
    and their number. -/
def allResources (m : Method) (c : Cursor) (n : Nat) : Cursor × Nat :=
  let following := suppress m (resource n) (closeAndThrow m (resource n) c)
  if following.isActive then allResources m following (n + 1) else (c, n)
termination_by c.remaining m
decreasing_by
  rename_i hf
  have h₁ := isActive_of_closeAndThrow (isActive_of_suppress hf)
  have h₂ : following.remaining m ≤ _ :=
    Nat.le_trans remaining_suppress_le remaining_closeAndThrow_le
  exact Nat.lt_of_le_of_lt h₂ (Cursor.remaining_run_lt h₁)

/-- A statement that ends in a return or throw. -/
def endingPair? (m : Method) (handler : Nat) : Option (List Finding) := do
  let c := m.matchFrom handler [.var .astore "primaryExc"]
  guard c.isActive
  let (c, count) := allResources m c 0
  let c := c.run m [.var .aload "primaryExc", .opcode .athrow]
  let last ← c.matched?
  let (start, found) ← searchBack m c (chainClose (resource 0)) handler
  let found := found.run m ((List.range' 1 (count - 1)).flatMap fun n => chainClose (resource n))
  let closed ← found.matched?
  return [.ignore start closed, .ignore handler last]

def ecjFindings (m : Method) : List Finding :=
  (m.tries.filterMap fun t => if t.caught.isNone then m.resolve? t.handler else none).flatMap
    fun handler => ((chainPair? m handler) <|> (endingPair? m handler)).getD []

end Winnow.Idiom.TryWithResources
