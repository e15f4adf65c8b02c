/-
  Finally blocks.

  The body of a finally block is copied to every exit of its try block.  The copy in
  the catch-any handler stores the exception, runs the body and throws again.  Every
  other copy is merged with it, instruction by instruction, and the handler's own
  store, reload and throw are ignored.
-/
import Winnow.Method.Navigation
import Winnow.Filter

namespace Winnow.Idiom.Finally

/-- A catch-any handler: store of the exception, body, reload and throw. -/
structure Handler where
  store : Nat
  body : List Nat
  reload : Nat
  rethrow : Nat
deriving DecidableEq

/-- The real instructions from `start` up to, but without, `stop`. -/
def realsBetween (m : Method) (start stop : Nat) : List Nat :=
  (List.range' start (stop - start)).filter m.isReal

/-- The handler at a label, if its body is not empty.  The first real instruction
    stores the exception, the first load of it after that ends the body, and the
    next instruction throws it. -/
def handlerAt? (m : Method) (l : Label) : Option Handler := do
  let store ← (m.resolve? l).bind m.realAfter?
  let .var op slot ← m.code[store]? | none
  guard (op = .astore)
  let reload ← firstWhere (fun pos => m.code[pos]? == some (.var .aload slot)) (store + 1)
    (m.size - (store + 1))
  let rethrow ← m.realAfter? reload
  guard (m.hasOpcode .athrow rethrow)
  let body := realsBetween m (store + 1) reload
  guard (!body.isEmpty)
  return { store, body, reload, rethrow }

/-- The findings for the copy of the handler's body that starts at `start`, if the
    instructions there are a copy. -/
def copyAt (m : Method) (h : Handler) (start : Nat) : List Finding :=
  let rest := realsBetween m start m.size
  let copy := rest.take h.body.length
  if copy.map m.opcode? = h.body.map m.opcode? then
    [.ignore h.store h.store] ++
      (h.body.zip copy).map (fun (first, second) => .merge first second) ++
      [.ignore h.reload h.rethrow] ++
      (((rest.drop h.body.length).head?.filter (m.hasOpcode .goto)).map
        fun pos => Finding.ignore pos pos).toList
  else []

/-- The first and the end position of the code that a row of the table protects. -/
def bounds? (m : Method) (t : TryBlock) : Option (Nat × Nat) := do
  let start ← m.resolve? t.start
  let stop ← m.resolve? t.stop
  return (start, stop)

/-- Whether `pos` is protected by the handler at the label. -/
def isProtected (m : Method) (handler : Label) (pos : Nat) : Bool :=
  m.tries.any fun t =>
    t.handler == handler && (bounds? m t).any fun (start, stop) => start ≤ pos && pos < stop

/-- Whether control continues behind the last real instruction before `stop`. -/
def continuesAt (m : Method) (start stop : Nat) : Bool :=
  match (realsBetween m start stop).getLast?.bind (m.code[·]?) with
  | none => false
  | some (.jump op _) => op != .goto
  | some e => !(e.opcode?.any Opcode.isExit)

/-- Where control leaves the code from `start` to `stop`: the targets of its jumps,
    and the instruction behind it. -/
def exits (m : Method) (start stop : Nat) : List Nat :=
  (realsBetween m start stop).filterMap (fun pos => do
    let l ← m.code[pos]?.bind Entry.jump?
    (m.resolve? l).bind m.realAfter?) ++
  (if continuesAt m start stop then (m.realAfter? stop).toList else [])

/-- Where copies of the body are looked for because of the row `t`: where control
    leaves the code that the row protects, if it leads to the same handler, and the
    start of an empty catch clause behind its store, if it protects the same code. -/
def copies (m : Method) (handler : TryBlock) (t : TryBlock) (same : Bool) : List Nat :=
  (if t.handler = handler.handler then
    ((bounds? m t).map fun (start, stop) => exits m start stop).getD []
  else []) ++
  (if !same && t.start == handler.start && t.stop == handler.stop then
    (((m.resolve? t.handler).bind m.realAfter?).bind m.realAfter?).toList
  else [])

/-- The findings for one catch-any row, the one with number `index`. -/
def ofRow (m : Method) (t : TryBlock) (index : Nat) : List Finding :=
  match handlerAt? m t.handler with
  | none => []
  | some h =>
    m.tries.zipIdx.flatMap fun (t', index') =>
      ((copies m t t' (index' == index)).filter (!isProtected m t.handler ·)).flatMap (copyAt m h)

def findings (m : Method) : List Finding :=
  m.tries.zipIdx.flatMap fun (t, index) => if t.caught.isNone then ofRow m t index else []

end Winnow.Idiom.Finally
