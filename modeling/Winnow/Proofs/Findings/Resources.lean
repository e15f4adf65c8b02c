/-
  The two ranges of a try-with-resources statement.

  Every statement that is recognised gives two ranges: the closing code on the normal path,
  and the handler.

  * `Paired` says of findings that they are such pairs, at most one for each row of the
    handler table and in the order of the rows;
  * `pair?_cases`, `chainPair?_cases` and `endingPair?_cases` say what was matched for a pair,
    all of it under one assignment;
  * `RangePair.Ordered`: the normal path ends before the handler starts.  The backward search
    cannot run into the handler, because the handler starts with a store, and no closing
    pattern goes on as the handler does behind a store;
  * `RangePair.SameResource`: both ranges close the same resource.  This fails for one kind
    of handler, which stores the exception and throws it again.
-/
import Winnow.Builtin
import Winnow.Proofs.Findings.Handlers
import Winnow.Proofs.Pattern.Spans

namespace Winnow

/-! ## Pairs of ranges -/

/-- The closing code on the normal path and the handler. -/
structure RangePair where
  path : Range
  handler : Range

namespace RangePair

def findings (p : RangePair) : List Finding :=
  [.ignore p.path.first p.path.last, .ignore p.handler.first p.handler.last]

/-- The normal path ends before the handler at `h`, and the handler ends with a throw. -/
structure Ordered (m : Method) (h : Nat) (p : RangePair) : Prop where
  path_le : p.path.first ≤ p.path.last
  path_lt : p.path.last < h
  handler_ge : h ≤ p.handler.first
  handler_le : p.handler.first ≤ p.handler.last
  throws : m.hasOpcode .athrow p.handler.last

end RangePair

namespace Range

/-- In the range, the resource in the variable is loaded and right then closed, by a call of
    `close` of this owner. -/
def Closes (m : Method) (slot : Nat) (owner : String) (r : Range) : Prop :=
  ∃ load call op interface, r.first ≤ load ∧ call ≤ r.last ∧ m.realAfter? load = some call ∧
    m.code[load]? = some (.var .aload slot) ∧ op ∈ [Opcode.invokeInterface, .invokeVirtual] ∧
    m.code[call]? = some (.call op owner "close" "()V" interface)

/-- In the range, the resource in the variable is loaded and right then passed to the method
    that closes it. -/
def ClosesByHelper (m : Method) (slot : Nat) (r : Range) : Prop :=
  ∃ load call owner interface, r.first ≤ load ∧ call ≤ r.last ∧ m.realAfter? load = some call ∧
    m.code[load]? = some (.var .aload slot) ∧
    m.code[call]? = some (.call .invokeStatic owner "$closeResource"
      "(Ljava/lang/Throwable;Ljava/lang/AutoCloseable;)V" interface)

end Range

/-- Both ranges close the same resource. -/
def RangePair.SameResource (m : Method) (p : RangePair) : Prop :=
  (∃ slot owner, p.handler.Closes m slot owner ∧ p.path.Closes m slot owner) ∨
    ∃ slot, p.handler.ClosesByHelper m slot ∧ p.path.ClosesByHelper m slot

/-- The handler at `h` only stores the exception and throws it again. -/
def Method.MerelyRethrows (m : Method) (h : Nat) : Prop :=
  ∃ store load throw slot, m.realFrom? h = some store ∧ m.realAfter? store = some load ∧
    m.realAfter? load = some throw ∧ m.code[store]? = some (.var .astore slot) ∧
    m.code[load]? = some (.var .aload slot) ∧ m.hasOpcode .athrow throw

/-- The findings are pairs of ranges, at most one for each row of the handler table, in the
    order of the rows.  `P` tells what the pair of a row has to do with the row and with the
    position of its handler. -/
def Paired (m : Method) (P : TryBlock → Nat → RangePair → Prop) (xs : List Finding) : Prop :=
  ∃ pairOf : TryBlock → Option RangePair,
    xs = m.tries.flatMap (fun t => ((pairOf t).map RangePair.findings).getD []) ∧
    ∀ t p, pairOf t = some p → ∃ h, m.resolve? t.handler = some h ∧ P t h p

variable {m : Method} {σ : Assignment} {xs : List Finding}

theorem Paired.imp {P Q : TryBlock → Nat → RangePair → Prop} (h : Paired m P xs)
    (hPQ : ∀ t h p, P t h p → Q t h p) : Paired m Q xs := by
  obtain ⟨pairOf, hxs, hpairs⟩ := h
  refine ⟨pairOf, hxs, fun t p hp => ?_⟩
  obtain ⟨handler, hh, hP⟩ := hpairs t p hp
  exact ⟨handler, hh, hPQ t handler p hP⟩

/-- Findings for the handlers of some rows are pairs if those of one handler are. -/
theorem paired_of_handlers {select : TryBlock → Prop} [DecidablePred select] {f : Nat → List Finding}
    {P : Nat → RangePair → Prop}
    (hf : ∀ h, f h = [] ∨ ∃ p : RangePair, f h = p.findings ∧ P h p) :
    Paired m (fun t h p => select t ∧ P h p)
      ((m.tries.filterMap fun t => if select t then m.resolve? t.handler else none).flatMap f) := by
  have hrow : ∀ t : TryBlock, ∃ o : Option RangePair,
      ((if select t then m.resolve? t.handler else none).map f).getD [] =
        (o.map RangePair.findings).getD [] ∧
      ∀ p, o = some p → ∃ h, m.resolve? t.handler = some h ∧ select t ∧ P h p := by
    intro t
    cases hh : (if select t then m.resolve? t.handler else none) with
    | none => exact ⟨none, rfl, fun p hp => (by cases hp)⟩
    | some h =>
      rcases hf h with hnil | ⟨p, hp, hP⟩
      · exact ⟨none, hnil, fun p hp => (by cases hp)⟩
      · refine ⟨some p, hp, ?_⟩
        rintro _ ⟨⟩
        split at hh
        · next hs => exact ⟨h, hh, hs, hP⟩
        · cases hh
  choose pairOf hfindings hpairs using hrow
  refine ⟨pairOf, ?_, hpairs⟩
  rw [← List.flatMap_congr fun t _ => hfindings t]
  induction m.tries with
  | nil => rfl
  | cons t ts ih =>
    rw [List.filterMap_cons, List.flatMap_cons, ← ih]
    cases (if select t then m.resolve? t.handler else none) <;> rfl

namespace Idiom.TryWithResources

variable {handler start closed last lo hi f : Nat} {inHandler onPath : List Step} {c : Cursor}
  {σ : Assignment} {op : Opcode}

/-! ## What is matched -/

/-- The backward search goes on from what the handler has bound: any assignment for the
    names bound in the end explains the closing code that was found. -/
theorem spans_of_searchBack {found : Cursor} (more : List Step)
    (hback : searchBack m c onPath last = some (start, found)) (hp : onPath ≠ [])
    (hclosed : (found.run m more).matched? = some closed)
    (hσ : σ.Extends (found.run m more).bindings) :
    m.Spans σ (onPath ++ more) start (closed + 1) ∧ σ.Extends c.bindings := by
  obtain ⟨-, rfl⟩ := searchBack_eq_some hback
  rw [← Cursor.run_append] at hclosed hσ
  obtain ⟨-, -, -, -, -, -, -, hplace⟩ :=
    Cursor.exists_matches (List.append_ne_nil_of_left_ne_nil hp more) hclosed
  exact ⟨Cursor.spans_of_run rfl hplace hσ,
    (Cursor.continues_run m (c.moveTo start) (onPath ++ more)).names σ hσ⟩

theorem pair?_cases (h : pair? m handler inHandler onPath = some xs) (hh : inHandler ≠ [])
    (hp : onPath ≠ []) :
    ∃ (σ : Assignment) (start closed last : Nat),
      xs = RangePair.findings ⟨⟨start, withGoto m closed⟩, ⟨handler, last⟩⟩ ∧ start ≤ handler ∧
      m.Spans σ inHandler handler (last + 1) ∧ m.Spans σ onPath start (closed + 1) := by
  simp only [pair?, Option.bind_eq_bind, Option.bind_eq_some_iff] at h
  obtain ⟨last, hlast, ⟨start, found⟩, hback, closed, hclosed, hxs⟩ := h
  obtain ⟨hpath, hσ⟩ := spans_of_searchBack [] hback hp hclosed
    (Bindings.extends_assignment _)
  obtain ⟨-, -, -, -, -, -, -, hplace⟩ := Cursor.exists_matches hh hlast
  rw [List.append_nil] at hpath
  exact ⟨_, start, closed, last, (Option.some.inj hxs).symm, (searchBack_eq_some hback).1,
    Cursor.spans_of_run rfl hplace hσ, hpath⟩

/-! ### Chains of resources -/

/-- The start of a handler that closes a chain of resources. -/
def chainStart : List Step :=
  [.var .astore "primaryExc", .var .aload (resource 0), .jump .ifNull (resource 0)] ++
    close (resource 0)

theorem continues_closeAndThrow (r : String) :
    Cursor.Continues (c.run m ([.var .aload r, .jump .ifNull r] ++ close r))
      (closeAndThrow m r c) :=
  (Cursor.continues_passLabel m _ _).trans (Cursor.continues_run m _ _)

theorem continues_suppress (r : String) (c : Cursor) : Cursor.Continues c (suppress m r c) :=
  (Cursor.continues_run m _ _).trans <| (Cursor.continues_passLabel m _ _).trans <|
    (Cursor.continues_run m _ _).trans (Cursor.continues_passLabel m _ _)

theorem continues_moreResources {n : Nat} {c' : Cursor} (h : moreResources m c n = some c') :
    Cursor.Continues c c' := by
  fun_induction moreResources m c n with
  | case1 c n closed hclosed following hf ih =>
    refine Cursor.Continues.trans ?_ (ih h)
    exact (Cursor.continues_run m _ _).trans <| (Cursor.continues_run m _ _).trans <|
      (continues_suppress _ _).trans <| (Cursor.continues_run m _ _).trans
        (continues_closeAndThrow _)
  | case2 => cases h
  | case3 c n closed hclosed => cases h; exact .refl _

theorem continues_allResources (c : Cursor) (n : Nat) :
    Cursor.Continues c (allResources m c n).1 := by
  fun_induction allResources m c n with
  | case1 c n following hf ih =>
    refine Cursor.Continues.trans ?_ ih
    exact (Cursor.continues_run m _ _).trans <| (continues_closeAndThrow _).trans
      (continues_suppress _ _)
  | case2 c n following hf => exact .refl _

/-- Either the handler closes no resource, or it closes a first one. -/
theorem allResources_cases (m : Method) (c : Cursor) (n : Nat) :
    (allResources m c n).1 = c ∨ (closeAndThrow m (resource n) c).isActive ∧
      Cursor.Continues (closeAndThrow m (resource n) c) (allResources m c n).1 := by
  fun_cases allResources m c n with
  | case1 following hf =>
    exact Or.inr ⟨isActive_of_suppress hf,
      (continues_suppress _ _).trans (continues_allResources _ _)⟩
  | case2 following hf => exact Or.inl rfl

/-- What a handler has matched that closes its first resource, up to a throw. -/
theorem spans_chainStart {c' : Cursor}
    (h : (closeAndThrow m (resource 0)
      (m.matchFrom handler [.var .astore "primaryExc"])).isActive)
    (hc : Cursor.Continues (closeAndThrow m (resource 0)
      (m.matchFrom handler [.var .astore "primaryExc"])) c')
    (hlast : (c'.run m [.var .aload "primaryExc", .opcode .athrow]).matched? = some last)
    (hσ : σ.Extends (c'.run m [.var .aload "primaryExc", .opcode .athrow]).bindings) :
    ∃ mid, m.Spans σ chainStart handler mid ∧ mid ≤ last + 1 := by
  have hactive := isActive_of_closeAndThrow h
  rw [Method.matchFrom, ← Cursor.run_append] at hactive
  obtain ⟨p, hp⟩ := Option.isSome_iff_exists.1 hactive
  have hcont := (continues_closeAndThrow (m := m) (resource 0)).trans
    (hc.trans (Cursor.continues_run m c' [.var .aload "primaryExc", .opcode .athrow]))
  obtain ⟨-, -, -, -, -, -, -, hplace⟩ := Cursor.exists_matches (List.cons_ne_nil _ _) hlast
  obtain ⟨p', hp', hle⟩ := hcont.place _ hplace
  have hσ' := hcont.names σ hσ
  rw [Method.matchFrom, ← Cursor.run_append] at hp' hσ'
  exact ⟨p'.next, Cursor.spans_of_run (p := ⟨handler, none⟩) rfl hp' hσ', hle⟩

theorem throws_of_matched? {c' : Cursor}
    (hlast : (c'.run m [.var .aload "primaryExc", .opcode .athrow]).matched? = some last) :
    m.hasOpcode .athrow last := by
  rw [← List.singleton_append] at hlast
  obtain ⟨σ, e, he, hop⟩ := Cursor.holds_of_matched? hlast
  exact Method.hasOpcode_of_opcode he hop

theorem chainPair?_cases (h : chainPair? m handler = some xs) :
    ∃ (σ : Assignment) (start goto last mid : Nat),
      xs = RangePair.findings ⟨⟨start, goto⟩, ⟨handler + 1, last⟩⟩ ∧ start ≤ handler ∧
      m.Spans σ chainStart handler mid ∧ mid ≤ last + 1 ∧ m.hasOpcode .athrow last ∧
      m.Spans σ (chainClose (resource 0) ++ [.opcode .goto]) start (goto + 1) := by
  simp only [chainPair?, Option.bind_eq_bind, Option.bind_eq_some_iff] at h
  obtain ⟨_, hactive, c, hc, last, hlast, ⟨start, found⟩, hback, goto, hgoto, hxs⟩ := h
  obtain ⟨hpath, hσ⟩ := spans_of_searchBack _ hback (List.cons_ne_nil _ _) hgoto
    (Bindings.extends_assignment _)
  obtain ⟨mid, hstart, hmid⟩ := spans_chainStart (by simpa [guard] using hactive)
    ((continues_moreResources hc).trans (continues_suppress "last" c)) hlast hσ
  exact ⟨_, start, goto, last, mid, (Option.some.inj hxs).symm, (searchBack_eq_some hback).1, hstart, hmid,
    throws_of_matched? hlast, hpath⟩

/-- A handler that closes no resource. -/
def rethrow : List Step :=
  [.var .astore "primaryExc", .var .aload "primaryExc", .opcode .athrow]

theorem endingPair?_cases (h : endingPair? m handler = some xs) :
    ∃ (σ : Assignment) (start closed last count : Nat),
      xs = RangePair.findings ⟨⟨start, closed⟩, ⟨handler, last⟩⟩ ∧ start ≤ handler ∧
      (m.Spans σ rethrow handler (last + 1) ∨
        ∃ mid, m.Spans σ chainStart handler mid ∧ mid ≤ last + 1) ∧
      m.hasOpcode .athrow last ∧
      m.Spans σ (chainClose (resource 0) ++
        (List.range' 1 (count - 1)).flatMap fun n => chainClose (resource n)) start (closed + 1) := by
  simp only [endingPair?, Option.bind_eq_bind, Option.bind_eq_some_iff] at h
  obtain ⟨_, hactive, last, hlast, ⟨start, found⟩, hback, closed, hclosed, hxs⟩ := h
  have hcases := allResources_cases m (m.matchFrom handler [.var .astore "primaryExc"]) 0
  generalize allResources m (m.matchFrom handler [.var .astore "primaryExc"]) 0 = all at *
  obtain ⟨c, count⟩ := all
  obtain ⟨hpath, hσ⟩ := spans_of_searchBack _ hback (List.cons_ne_nil _ _) hclosed
    (Bindings.extends_assignment _)
  refine ⟨_, start, closed, last, count, (Option.some.inj hxs).symm, (searchBack_eq_some hback).1, ?_,
    throws_of_matched? hlast, hpath⟩
  rcases hcases with rfl | ⟨hclose, hcont⟩
  · left
    rw [Method.matchFrom, ← Cursor.run_append] at hlast hσ
    obtain ⟨-, -, -, -, -, -, -, hplace⟩ := Cursor.exists_matches (List.cons_ne_nil _ _) hlast
    exact Cursor.spans_of_run (p := ⟨handler, none⟩) rfl hplace hσ
  · exact Or.inr (spans_chainStart hclose hcont hlast hσ)

/-! ## The normal path ends before the handler -/

/-- Code that stays clear of an opcode does not run into a handler that starts with it. -/
theorem lt_handler (hf : m.realFrom? handler = some f) (hop : m.opcode? f = some op)
    (hfree : m.FreeOf op start (closed + 1)) (hstart : start ≤ handler)
    (hclosed : m.isReal closed) : closed < handler := by
  obtain ⟨hle, -, hno⟩ := Method.realFrom?_eq_some_iff.1 hf
  have hlt : closed < f := by
    by_contra hge
    exact hfree.2 f (by omega) (by omega) hop
  by_contra hge
  exact hno closed (by omega) hlt hclosed

theorem firstStore {a : String} {rest : List Step}
    (h : m.Spans σ (.var .astore a :: rest) handler hi) :
    ∃ f, m.realFrom? handler = some f ∧ m.opcode? f = some .astore := by
  obtain ⟨f, e, hf, he, hs, -⟩ := h
  cases hs
  exact ⟨f, hf, Method.opcode?_of_entry he⟩

/-- Closing code without a store does not run into a handler, which starts with one. -/
theorem lt_handler_of_no_store {a : String} {rest : List Step}
    (hin : m.Spans σ (.var .astore a :: rest) handler hi)
    (hpath : m.Spans σ onPath start (closed + 1)) (hp : onPath ≠ [])
    (hstore : onPath.any (Step.admits .astore) = false) (hstart : start ≤ handler) :
    closed < handler := by
  obtain ⟨f, hf, hop⟩ := firstStore hin
  obtain ⟨-, hreal⟩ := hpath.isReal_last hp
  exact lt_handler hf hop (hpath.freeOf hstore) hstart hreal

/-- Closing code with a store does not run into a handler that stores, loads and stores: the
    store of the handler is not the one of the closing code, which is followed by two loads. -/
theorem lt_handler_of_store {before after rest : List Step} {x y z a b d : String}
    (hbefore : before.any (Step.admits .astore) = false)
    (hafter : after.any (Step.admits .astore) = false)
    (hpath : m.Spans σ (before ++ .var .astore x :: .var .aload y :: .var .aload z :: after)
      start (closed + 1))
    (hin : m.Spans σ (.var .astore a :: .var .aload b :: .var .astore d :: rest) handler hi)
    (hstart : start ≤ handler) : closed < handler := by
  obtain ⟨-, hclosed⟩ := hpath.isReal_last (by simp)
  obtain ⟨mid, hbefore', q, e, hq, he, hs, hafter'⟩ := Method.spans_append.1 hpath
  obtain ⟨f, e', hf, he', hs', hin'⟩ := hin
  cases hs
  cases hs'
  obtain ⟨hle, hreal, hno⟩ := Method.realFrom?_eq_some_iff.1 hf
  obtain ⟨-, hqreal, hqno⟩ := Method.realFrom?_eq_some_iff.1 hq
  have hop : m.opcode? f = some .astore := Method.opcode?_of_entry he'
  have hmid : mid ≤ f := by
    by_contra hlt
    exact (hbefore'.freeOf hbefore).2 f (by omega) (by omega) hop
  have hqf : q ≤ f := by
    by_contra hlt
    exact hqno f hmid (by omega) hreal
  rcases Nat.eq_or_lt_of_le hqf with rfl | hlt
  · obtain ⟨q₂, e₂, hq₂, -, -, q₃, e₃, hq₃, he₃, hs₃, -⟩ := hafter'
    obtain ⟨f₂, e₂', hf₂, -, -, f₃, e₃', hf₃, he₃', hs₃', -⟩ := hin'
    cases hq₂.symm.trans hf₂
    cases hq₃.symm.trans hf₃
    cases he₃.symm.trans he₃'
    cases hs₃
    cases hs₃'
  · have hqlt : q < handler := by
      by_contra hge
      exact hno q (by omega) hlt hqreal
    exact lt_handler hf hop (hafter'.freeOf hafter) hqlt hclosed

theorem le_withGoto (m : Method) (closed : Nat) : closed ≤ withGoto m closed := by
  rcases withGoto_cases m closed with heq | ⟨goto, heq, hafter, -⟩
  · exact Nat.le_of_eq heq.symm
  · rw [heq]
    exact Nat.le_of_lt (Method.realAfter?_eq_some_iff.1 hafter).1

theorem withGoto_lt (hf : m.realFrom? handler = some f) (hop : m.opcode? f = some .astore)
    (hclosed : closed < handler) : withGoto m closed < handler := by
  rcases withGoto_cases m closed with heq | ⟨goto, heq, hafter, hgoto⟩
  · rwa [heq]
  · obtain ⟨hlt, hreal, hno⟩ := Method.realAfter?_eq_some_iff.1 hafter
    obtain ⟨hle, hfreal, hfno⟩ := Method.realFrom?_eq_some_iff.1 hf
    have hne : goto ≠ f := by
      rintro rfl
      simp [Method.hasOpcode, hop, Opcode.astore, Opcode.goto] at hgoto
    have hgf : goto ≤ f := by
      by_contra hlt'
      exact hno f (by omega) (by omega) hfreal
    rw [heq]
    by_contra hge
    exact hfno goto (by omega) (by omega) hreal

theorem hasOpcode_of_last {steps : List Step}
    (h : m.Spans σ (steps ++ [.opcode op]) lo (last + 1)) : m.hasOpcode op last := by
  obtain ⟨-, -, e, he, hop⟩ := h.last
  exact Method.hasOpcode_of_opcode he hop

/-- The pair of a handler that stores first and throws last. -/
theorem ordered_withGoto {a : String} {rest : List Step}
    (hin : m.Spans σ (.var .astore a :: rest) handler (last + 1))
    (hthrow : [Step.opcode .athrow] <:+ .var .astore a :: rest)
    (hpath : m.Spans σ onPath start (closed + 1)) (hp : onPath ≠ []) (hclosed : closed < handler) :
    RangePair.Ordered m handler ⟨⟨start, withGoto m closed⟩, ⟨handler, last⟩⟩ := by
  obtain ⟨f, hf, hop⟩ := firstStore hin
  obtain ⟨hstart, -⟩ := hpath.isReal_last hp
  obtain ⟨steps, hsteps⟩ := hthrow
  rw [← hsteps] at hin
  exact ⟨Nat.le_trans hstart (le_withGoto m closed), withGoto_lt hf hop hclosed, Nat.le_refl _,
    hin.last.1, hasOpcode_of_last hin⟩

/-! ## Both ranges close the same resource -/

/-- The call of the method that closes a resource. -/
def helperClose : List Step :=
  [.var .aload "r", .call .invokeStatic anyText "$closeResource"
    "(Ljava/lang/Throwable;Ljava/lang/AutoCloseable;)V"]

variable {steps : List Step} {r : String} {first : Nat}

/-- A part whose pattern loads the variable `r` and goes on with the step `s` has the two
    instructions, and they lie in the range. -/
theorem load_of_spans {s : Step} (h : m.Spans σ steps lo hi) (hr : [.var .aload r, s] <:+: steps)
    (hlo : first ≤ lo) (hhi : hi ≤ last + 1) :
    ∃ load call e, first ≤ load ∧ call ≤ last ∧ m.realAfter? load = some call ∧
      m.code[load]? = some (.var .aload (σ.slot r)) ∧ m.code[call]? = some e ∧ s.Holds σ e := by
  obtain ⟨load, call, e, e', hload, hcall, hnext, he, hs, he', hs'⟩ := h.successive hr
  cases hs
  exact ⟨load, call, e', Nat.le_trans hlo hload, by omega, hnext, he, he', hs'⟩

theorem closes_of_spans (h : m.Spans σ steps lo hi) (hr : close r <:+: steps) (hlo : first ≤ lo)
    (hhi : hi ≤ last + 1) : Range.Closes m (σ.slot r) (σ.owner r) ⟨first, last⟩ := by
  obtain ⟨load, call, e, hload, hcall, hnext, he, he', hs⟩ := load_of_spans h hr hlo hhi
  obtain ⟨op, hop, name, desc, interface, rfl, hname, hdesc⟩ := hs
  obtain rfl : "close" = name := by simpa [accepts, anyText] using hname
  obtain rfl : "()V" = desc := by simpa [accepts, anyText] using hdesc
  exact ⟨load, call, op, interface, hload, hcall, hnext, he, hop, he'⟩

theorem closesByHelper_of_spans (h : m.Spans σ steps lo hi) (hr : helperClose <:+: steps)
    (hlo : first ≤ lo) (hhi : hi ≤ last + 1) :
    Range.ClosesByHelper m (σ.slot "r") ⟨first, last⟩ := by
  obtain ⟨load, call, e, hload, hcall, hnext, he, he', hs⟩ := load_of_spans h hr hlo hhi
  obtain ⟨owner, name, desc, interface, rfl, -, hname, hdesc⟩ := hs
  obtain rfl : "$closeResource" = name := by simpa [accepts, anyText] using hname
  obtain rfl : "(Ljava/lang/Throwable;Ljava/lang/AutoCloseable;)V" = desc := by
    simpa [accepts, anyText] using hdesc
  exact ⟨load, call, owner, interface, hload, hcall, hnext, he, he'⟩

/-- A handler whose third instruction does not throw does more than throw again. -/
theorem not_merelyRethrows {s₁ s₂ s₃ : Step} {rest : List Step}
    (h : m.Spans σ (s₁ :: s₂ :: s₃ :: rest) handler hi) (hs : s₃.admits .athrow = false) :
    ¬ m.MerelyRethrows handler := by
  rintro ⟨store, load, throw, slot, hstore, hload, hthrow, -, -, hop⟩
  obtain ⟨q₁, e₁, hq₁, -, -, q₂, e₂, hq₂, -, -, q₃, e₃, hq₃, he₃, hs₃, -⟩ := h
  cases hq₁.symm.trans hstore
  cases hq₂.symm.trans hload
  cases hq₃.symm.trans hthrow
  have hop : e₃.opcode? = some .athrow := by simpa [Method.hasOpcode, Method.opcode?, he₃] using hop
  rw [Step.admits_of_holds hs₃ hop] at hs
  cases hs

theorem merelyRethrows_of_spans (h : m.Spans σ rethrow handler hi) :
    m.MerelyRethrows handler := by
  obtain ⟨store, e₁, hstore, he₁, hs₁, load, e₂, hload, he₂, hs₂, throw, e₃, hthrow, he₃, hs₃, -⟩ := h
  cases hs₁
  cases hs₂
  exact ⟨store, load, throw, _, hstore, hload, hthrow, he₁, he₂,
    Method.hasOpcode_of_opcode he₃ hs₃⟩

/-- Code without calls closes nothing. -/
theorem not_sameResource {path : Range} (h : m.Spans σ rethrow handler (last + 1)) :
    ¬ RangePair.SameResource m ⟨path, ⟨handler, last⟩⟩ := by
  have hno : ∀ {load call op owner name desc interface}, handler ≤ load → call ≤ last →
      m.realAfter? load = some call → m.code[call]? = some (.call op owner name desc interface) →
      rethrow.any (Step.admits op) = false → False := by
    intro load call op owner name desc interface hload hcall hnext he hop
    have hlt := (Method.realAfter?_eq_some_iff.1 hnext).1
    exact (h.freeOf hop).2 call (by omega) (by omega) (Method.opcode?_of_entry he)
  rintro (⟨slot, owner, ⟨load, call, op, interface, hload, hcall, hnext, -, hop, he⟩, -⟩ |
    ⟨slot, ⟨load, call, owner, interface, hload, hcall, hnext, -, he⟩, -⟩)
  · refine hno hload hcall hnext he ?_
    simp only [List.mem_cons, List.not_mem_nil, or_false] at hop
    rcases hop with rfl | rfl <;> rfl
  · exact hno hload hcall hnext he rfl

/-! ## The pairs of the three compilers -/

/-- What holds of every pair of the first two. -/
structure RegularPair (m : Method) (h : Nat) (p : RangePair) : Prop where
  ordered : p.Ordered m h
  first_eq : p.handler.first = h
  sameResource : p.SameResource m

theorem closingHandler_throws (shape : CloseShape) :
    [Step.opcode .athrow] <:+ closingHandler shape :=
  (List.suffix_cons _ _).trans (List.suffix_append _ _)

theorem closing_infix_handler (shape : CloseShape) :
    closing shape "et" <:+: closingHandler shape :=
  ⟨_, _, rfl⟩

/-- The test for null before the closing code. -/
def nullTest (nullCheck : Bool) : List Step :=
  if nullCheck then [.var .aload "r", .opcode .ifNull] else []

theorem helperClose_infix_closing (nullCheck : Bool) (second : String) :
    helperClose <:+: closing ⟨nullCheck, true⟩ second := by
  refine ⟨nullTest nullCheck ++ [Step.var .aload "primaryExc"], [], ?_⟩
  cases nullCheck <;> rfl

/-- The closing code between the test for null and the second exception. -/
def directClose : List Step :=
  [.var .aload "primaryExc", .opcode .ifNull] ++ close "r" ++ [.opcode .goto]

/-- The closing code behind the store and loads of the second exception. -/
def closeAgain : List Step :=
  [.call .invokeVirtual throwable "addSuppressed" anyText, .opcode .goto] ++ close "r"

/-- The only store of the closing code is that of the second exception. -/
theorem closing_eq (nullCheck : Bool) (second : String) :
    closing ⟨nullCheck, false⟩ second = (nullTest nullCheck ++ directClose) ++
      .var .astore second :: .var .aload "primaryExc" :: .var .aload second :: closeAgain := by
  cases nullCheck <;> rfl

theorem close_infix_closing (nullCheck : Bool) (second : String) :
    close "r" <:+: closing ⟨nullCheck, false⟩ second := by
  rw [closing_eq]
  refine List.IsInfix.trans ?_ (List.prefix_append _ _).isInfix
  exact List.IsInfix.trans ⟨_, _, rfl⟩ (List.suffix_append (nullTest nullCheck) directClose).isInfix

theorem closing_lt_handler {shape : CloseShape}
    (hin : m.Spans σ (closingHandler shape) handler hi)
    (hpath : m.Spans σ (closing shape "nt") start (closed + 1)) (hstart : start ≤ handler) :
    closed < handler := by
  obtain ⟨nullCheck, _ | _⟩ := shape
  · rw [closing_eq] at hpath
    refine lt_handler_of_store ?_ rfl hpath hin hstart
    cases nullCheck <;> rfl
  · refine lt_handler_of_no_store hin hpath (closing_ne_nil _ _) ?_ hstart
    cases nullCheck <;> rfl

theorem regular_javac {shape : CloseShape}
    (h : pair? m handler (closingHandler shape) (closing shape "nt") = some xs) :
    ∃ p : RangePair, xs = p.findings ∧ RegularPair m handler p := by
  obtain ⟨σ, start, closed, last, rfl, hstart, hin, hpath⟩ :=
    pair?_cases h (List.cons_ne_nil _ _) (closing_ne_nil shape "nt")
  refine ⟨_, rfl, ?_, rfl, ?_⟩
  · exact ordered_withGoto hin (closingHandler_throws shape) hpath (closing_ne_nil shape "nt")
      (closing_lt_handler hin hpath hstart)
  · have hlast := Nat.succ_le_succ (le_withGoto m closed)
    have hhandler := closing_infix_handler shape
    obtain ⟨nullCheck, _ | _⟩ := shape
    · refine Or.inl ⟨σ.slot "r", σ.owner "r", ?_, ?_⟩
      · exact closes_of_spans hin ((close_infix_closing nullCheck "et").trans hhandler)
          (Nat.le_refl _) (Nat.le_refl _)
      · exact closes_of_spans hpath (close_infix_closing nullCheck "nt") (Nat.le_refl _) hlast
    · refine Or.inr ⟨σ.slot "r", ?_, ?_⟩
      · exact closesByHelper_of_spans hin
          ((helperClose_infix_closing nullCheck "et").trans hhandler) (Nat.le_refl _)
          (Nat.le_refl _)
      · exact closesByHelper_of_spans hpath (helperClose_infix_closing nullCheck "nt")
          (Nat.le_refl _) hlast

/-! ### Later compilers -/

theorem directClosing_ne_nil (nullCheck : Bool) : directClosing nullCheck ≠ [] := by
  cases nullCheck <;> exact List.cons_ne_nil _ _

theorem close_infix_directClosing (nullCheck : Bool) : close "r" <:+: directClosing nullCheck :=
  (List.suffix_append _ _).isInfix

/-- The handler behind the closing code. -/
def addAndThrow : List Step :=
  [.opcode .goto, .var .astore "t", .var .aload "primaryExc", .var .aload "t",
    .call .invokeVirtual throwable "addSuppressed" "(Ljava/lang/Throwable;)V",
    .var .aload "primaryExc"]

theorem directHandler_throws (nullCheck : Bool) :
    [Step.opcode .athrow] <:+ directHandler nullCheck := by
  refine List.IsSuffix.trans (List.suffix_append addAndThrow [Step.opcode .athrow]) ?_
  exact List.suffix_append _ _

theorem directClosing_infix_handler (nullCheck : Bool) :
    directClosing nullCheck <:+: directHandler nullCheck :=
  ⟨_, _, rfl⟩

theorem regular_javac11 {nullCheck : Bool}
    (h : pair? m handler (directHandler nullCheck) (directClosing nullCheck) = some xs) :
    ∃ p : RangePair, xs = p.findings ∧ RegularPair m handler p := by
  obtain ⟨σ, start, closed, last, rfl, hstart, hin, hpath⟩ :=
    pair?_cases h (List.cons_ne_nil _ _) (directClosing_ne_nil nullCheck)
  have hclosed : closed < handler := by
    refine lt_handler_of_no_store hin hpath (directClosing_ne_nil nullCheck) ?_ hstart
    cases nullCheck <;> rfl
  refine ⟨_, rfl, ?_, rfl, Or.inl ⟨σ.slot "r", σ.owner "r", ?_, ?_⟩⟩
  · exact ordered_withGoto hin (directHandler_throws nullCheck) hpath
      (directClosing_ne_nil nullCheck) hclosed
  · exact closes_of_spans hin
      ((close_infix_directClosing nullCheck).trans (directClosing_infix_handler nullCheck))
      (Nat.le_refl _) (Nat.le_refl _)
  · exact closes_of_spans hpath (close_infix_directClosing nullCheck) (Nat.le_refl _)
      (Nat.succ_le_succ (le_withGoto m closed))

/-- A handler does not both test for null and not test for it. -/
theorem not_both_javac11 {ys : List Finding}
    (h : pair? m handler (directHandler true) (directClosing true) = some xs)
    (h' : pair? m handler (directHandler false) (directClosing false) = some ys) : False := by
  obtain ⟨σ, _, _, _, _, _, hin, _⟩ := pair?_cases h (List.cons_ne_nil _ _)
    (directClosing_ne_nil true)
  obtain ⟨σ', _, _, _, _, _, hin', _⟩ := pair?_cases h' (List.cons_ne_nil _ _)
    (directClosing_ne_nil false)
  obtain ⟨q₁, e₁, hq₁, -, -, q₂, e₂, hq₂, -, -, q₃, e₃, hq₃, he₃, hs₃, -⟩ := hin
  obtain ⟨q₁', e₁', hq₁', -, -, q₂', e₂', hq₂', -, -, q₃', e₃', hq₃', he₃', hs₃', -⟩ := hin'
  cases hq₁.symm.trans hq₁'
  cases hq₂.symm.trans hq₂'
  cases hq₃.symm.trans hq₃'
  cases he₃.symm.trans he₃'
  -- the third instruction is the test for null, or the call
  exact absurd (Step.admits_of_holds hs₃' hs₃) (by decide)

/-! ### Chains of resources -/

/-- What holds of every pair of a chain of resources.  The label of the handler is left out
    where the normal path goes on behind the statement. -/
structure ChainPair (m : Method) (h : Nat) (p : RangePair) : Prop where
  ordered : p.Ordered m h
  first_eq : p.handler.first = if m.hasOpcode .goto p.path.last then h + 1 else h
  sameResource_iff : p.SameResource m ↔ ¬ m.MerelyRethrows h

/-- A chain's handler that closes its first resource closes the one of the normal path. -/
theorem sameResource_of_chainStart {mid pathLast : Nat} {more : List Step}
    (hin : m.Spans σ chainStart handler mid) (hmid : mid ≤ last + 1) (hfirst : first ≤ handler + 1)
    (hpath : m.Spans σ (chainClose (resource 0) ++ more) start (pathLast + 1)) :
    RangePair.SameResource m ⟨⟨start, pathLast⟩, ⟨first, last⟩⟩ := by
  obtain ⟨f, e, hf, -, -, hin⟩ := hin
  have hle := (Method.realFrom?_eq_some_iff.1 hf).1
  refine Or.inl ⟨σ.slot (resource 0), σ.owner (resource 0), ?_, ?_⟩
  · exact closes_of_spans hin (List.suffix_append _ _).isInfix (by omega) hmid
  · refine closes_of_spans hpath ?_ (Nat.le_refl _) (Nat.le_refl _)
    exact (List.suffix_append _ _).isInfix.trans (List.prefix_append _ _).isInfix

theorem chain_of_chainPair? (h : chainPair? m handler = some xs) :
    ∃ p : RangePair, xs = p.findings ∧ ChainPair m handler p := by
  obtain ⟨σ, start, goto, last, mid, rfl, hstart, hin, hmid, hthrow, hpath⟩ := chainPair?_cases h
  obtain ⟨hle, -⟩ := hpath.isReal_last (List.cons_ne_nil _ _)
  refine ⟨_, rfl, ⟨hle, ?_, Nat.le_succ _, ?_, hthrow⟩, ?_, ?_⟩
  · exact lt_handler_of_no_store hin hpath (List.cons_ne_nil _ _) rfl hstart
  · -- the handler goes on behind its store
    obtain ⟨store, -, hstore, -, -, hrest⟩ := hin
    have hge := (Method.realFrom?_eq_some_iff.1 hstore).1
    have hlt := hrest.lt
    show handler + 1 ≤ last
    omega
  · rw [if_pos (hasOpcode_of_last hpath)]
  · exact iff_of_true (sameResource_of_chainStart hin hmid (Nat.le_refl _) hpath)
      (not_merelyRethrows hin rfl)

theorem chain_of_endingPair? (h : endingPair? m handler = some xs) :
    ∃ p : RangePair, xs = p.findings ∧ ChainPair m handler p := by
  obtain ⟨σ, start, closed, last, count, rfl, hstart, hin, hthrow, hpath⟩ := endingPair?_cases h
  obtain ⟨hle, -⟩ := hpath.isReal_last (List.cons_ne_nil _ _)
  -- the closing code of any number of resources neither stores nor jumps away
  have hfree : ∀ op, (∀ n, (chainClose (resource n)).any (Step.admits op) = false) →
      (chainClose (resource 0) ++ (List.range' 1 (count - 1)).flatMap
        fun n => chainClose (resource n)).any (Step.admits op) = false := by
    intro op hop
    rw [List.any_append, hop, List.any_flatMap]
    simp [hop]
  have hclosed : closed < handler := by
    have hstore := hfree .astore fun n => rfl
    rcases hin with hin | ⟨mid, hin, -⟩
    · exact lt_handler_of_no_store hin hpath (List.cons_ne_nil _ _) hstore hstart
    · exact lt_handler_of_no_store hin hpath (List.cons_ne_nil _ _) hstore hstart
  have hgoto : ¬ m.hasOpcode .goto closed := by
    have := (hpath.freeOf (hfree .goto fun n => rfl)).2 closed hle (Nat.lt_succ_self _)
    simpa [Method.hasOpcode] using this
  have hlast : handler ≤ last := by
    rcases hin with hin | ⟨mid, hin, hmid⟩
    · exact Nat.le_of_lt_succ hin.lt
    · exact Nat.le_of_lt_succ (Nat.lt_of_lt_of_le hin.lt hmid)
  refine ⟨_, rfl, ⟨hle, hclosed, Nat.le_refl _, hlast, hthrow⟩, ?_, ?_⟩
  · rw [if_neg hgoto]
  · rcases hin with hin | ⟨mid, hin, hmid⟩
    · exact iff_of_false (not_sameResource hin) (not_not_intro (merelyRethrows_of_spans hin))
    · exact iff_of_true (sameResource_of_chainStart hin hmid (Nat.le_succ _) hpath)
        (not_merelyRethrows hin rfl)

/-! ### Findings -/

theorem paired_javac (m : Method) :
    Paired m (fun t h p => t.caught = some throwable ∧ RegularPair m h p) (javacFindings m) := by
  refine paired_of_handlers fun handler => ?_
  cases hf : closeShapes.findSome? fun shape =>
      pair? m handler (closingHandler shape) (closing shape "nt") with
  | none => exact Or.inl rfl
  | some xs =>
    obtain ⟨shape, -, hpair⟩ := List.exists_of_findSome?_eq_some hf
    exact Or.inr (regular_javac hpair)

theorem paired_javac11 (m : Method) :
    Paired m (fun t h p => t.caught = some throwable ∧ RegularPair m h p) (javac11Findings m) := by
  refine paired_of_handlers fun handler => ?_
  simp only [List.flatMap_cons, List.flatMap_nil, List.append_nil]
  cases htrue : pair? m handler (directHandler true) (directClosing true) with
  | none =>
    cases hfalse : pair? m handler (directHandler false) (directClosing false) with
    | none => exact Or.inl rfl
    | some ys => exact Or.inr (regular_javac11 hfalse)
  | some xs =>
    cases hfalse : pair? m handler (directHandler false) (directClosing false) with
    | none =>
      simp only [Option.getD_some, Option.getD_none, List.append_nil]
      exact Or.inr (regular_javac11 htrue)
    | some ys => exact (not_both_javac11 htrue hfalse).elim

theorem paired_ecj (m : Method) :
    Paired m (fun t h p => t.caught.isNone ∧ ChainPair m h p) (ecjFindings m) := by
  refine paired_of_handlers fun handler => ?_
  cases hpair : chainPair? m handler <|> endingPair? m handler with
  | none => exact Or.inl rfl
  | some xs =>
    rw [Option.orElse_eq_orElse, Option.orElse_eq_or, Option.or_eq_some_iff] at hpair
    rcases hpair with h | ⟨-, h⟩
    · exact Or.inr (chain_of_chainPair? h)
    · exact Or.inr (chain_of_endingPair? h)

end Idiom.TryWithResources

/-! ## The filters -/

open Idiom.TryWithResources Builtin

/-- **The two ranges of a statement do not overlap.**  Each of the three filters reports
    pairs of ranges, at most one pair for a row of the handler table and in the order of the
    rows.  The first range is that of the normal path and ends before the handler of the row;
    the second one is that of the handler and ends with a throw.  It starts with the handler,
    except for a chain of resources on whose normal path control goes on behind the
    statement: there it starts behind the handler's label. -/
theorem resource_ranges_ordered (m : Method) (c : ClassInfo) (scratch : ClassScratch) :
    (∀ f ∈ [tryWithResourcesJavac, tryWithResourcesJavac11],
      Paired m (fun t h p => t.caught = some "java/lang/Throwable" ∧ p.Ordered m h ∧
        p.handler.first = h) (f.run m c scratch).findings) ∧
    Paired m (fun t h p => t.caught = none ∧ p.Ordered m h ∧
        p.handler.first = if m.hasOpcode .goto p.path.last then h + 1 else h)
      (tryWithResourcesEcj.run m c scratch).findings := by
  constructor
  · intro f hf
    simp only [List.mem_cons, List.not_mem_nil, or_false] at hf
    rcases hf with rfl | rfl
    · exact (paired_javac m).imp fun t h p ⟨ht, hp⟩ => ⟨ht, hp.ordered, hp.first_eq⟩
    · exact (paired_javac11 m).imp fun t h p ⟨ht, hp⟩ => ⟨ht, hp.ordered, hp.first_eq⟩
  · exact (paired_ecj m).imp fun t h p ⟨ht, hp⟩ =>
      ⟨Option.isNone_iff_eq_none.1 ht, hp.ordered, hp.first_eq⟩

/-- A statement that closes the resource in variable 1 before it jumps behind the handler. -/
def closingStatement : Method where
  name := "m"
  desc := "()V"
  code := #[.label ⟨0⟩, .plain .aconstNull, .plain .pop, .label ⟨1⟩, .var .aload 1,
    .call .invokeVirtual "R" "close" "()V" false, .jump .goto ⟨4⟩, .label ⟨2⟩, .var .astore 2,
    .var .aload 1, .call .invokeVirtual "R" "close" "()V" false, .jump .goto ⟨3⟩, .var .astore 3,
    .var .aload 2, .var .aload 3,
    .call .invokeVirtual "java/lang/Throwable" "addSuppressed" "(Ljava/lang/Throwable;)V" false,
    .label ⟨3⟩, .var .aload 2, .plain .athrow, .label ⟨4⟩, .plain .vreturn]
  tries := [⟨⟨0⟩, ⟨1⟩, ⟨2⟩, some "java/lang/Throwable"⟩]
  placed_nodup := by decide
  mentioned_placed := by decide

/-- The normal path ends with the jump right before the handler. -/
theorem resource_ranges_ordered_closingStatement :
    (tryWithResourcesJavac11.run closingStatement { name := "C" } {}).findings =
      [.ignore 4 6, .ignore 7 18] ∧
    Paired closingStatement (fun t h p => t.caught = some "java/lang/Throwable" ∧
        p.Ordered closingStatement h ∧ p.handler.first = h)
      (tryWithResourcesJavac11.run closingStatement { name := "C" } {}).findings :=
  ⟨by decide +kernel,
    (resource_ranges_ordered closingStatement { name := "C" } {}).1 _ (by simp)⟩

/-- **Both ranges close the same resource, unless the handler closes none.**  In every pair
    of ranges that the first two filters report, handler and normal path close the resource
    in the same local variable, through the same owner.  In a pair of the third one they do
    so iff the handler does more than store the exception and throw it again. -/
theorem resource_ranges_close_same (m : Method) (c : ClassInfo) (scratch : ClassScratch) :
    (∀ f ∈ [tryWithResourcesJavac, tryWithResourcesJavac11],
      Paired m (fun _ _ p => p.SameResource m) (f.run m c scratch).findings) ∧
    Paired m (fun _ h p => p.SameResource m ↔ ¬ m.MerelyRethrows h)
      (tryWithResourcesEcj.run m c scratch).findings := by
  constructor
  · intro f hf
    simp only [List.mem_cons, List.not_mem_nil, or_false] at hf
    rcases hf with rfl | rfl
    · exact (paired_javac m).imp fun t h p ⟨_, hp⟩ => hp.sameResource
    · exact (paired_javac11 m).imp fun t h p ⟨_, hp⟩ => hp.sameResource
  · exact (paired_ecj m).imp fun t h p ⟨_, hp⟩ => hp.sameResource_iff

/-- Variable 1 is closed in the handler and on the normal path. -/
theorem resource_ranges_close_same_closingStatement :
    (tryWithResourcesJavac11.run closingStatement { name := "C" } {}).findings =
      [.ignore 4 6, .ignore 7 18] ∧
    Paired closingStatement (fun _ _ p => p.SameResource closingStatement)
      (tryWithResourcesJavac11.run closingStatement { name := "C" } {}).findings :=
  ⟨by decide +kernel,
    (resource_ranges_close_same closingStatement { name := "C" } {}).1 _ (by simp)⟩

/-- Code that closes the resource in variable 1, with a handler that throws again. -/
def rethrowingStatement : Method where
  name := "m"
  desc := "()V"
  code := #[.label ⟨2⟩, .var .aload 1, .jump .ifNull ⟨0⟩, .var .aload 1,
    .call .invokeInterface "Resource" "close" "()V" true, .label ⟨0⟩, .plain .vreturn, .label ⟨1⟩,
    .var .astore 2, .var .aload 2, .plain .athrow]
  tries := [⟨⟨2⟩, ⟨0⟩, ⟨1⟩, none⟩]
  placed_nodup := by decide
  mentioned_placed := by decide

/-- A handler that closes nothing is reported, and with it code that closes a resource. -/
theorem rethrowing_handler_reported :
    rethrowingStatement.MerelyRethrows 7 ∧
    (tryWithResourcesEcj.run rethrowingStatement { name := "C" } {}).findings =
      [.ignore 1 4, .ignore 7 10] ∧
    ¬ Paired rethrowingStatement (fun _ _ p => p.SameResource rethrowingStatement)
      (tryWithResourcesEcj.run rethrowingStatement { name := "C" } {}).findings := by
  have hspans : rethrowingStatement.Spans ⟨fun _ => 2, fun _ => ⟨0⟩, fun _ => ""⟩ rethrow 7 11 :=
    ⟨8, _, by decide +kernel, rfl, rfl, 9, _, by decide +kernel, rfl, rfl, 10, _,
      by decide +kernel, rfl, rfl, rfl⟩
  have hfindings : (tryWithResourcesEcj.run rethrowingStatement { name := "C" } {}).findings =
      [.ignore 1 4, .ignore 7 10] := by decide +kernel
  refine ⟨merelyRethrows_of_spans hspans, hfindings, ?_⟩
  rw [hfindings]
  rintro ⟨pairOf, hxs, hpairs⟩
  have hrow : rethrowingStatement.tries = [⟨⟨2⟩, ⟨0⟩, ⟨1⟩, none⟩] := rfl
  rw [hrow, List.flatMap_singleton] at hxs
  cases hp : pairOf ⟨⟨2⟩, ⟨0⟩, ⟨1⟩, none⟩ with
  | none => simp [hp] at hxs
  | some p =>
    obtain ⟨path, ⟨first, last⟩⟩ := p
    simp only [hp, Option.map_some, Option.getD_some, RangePair.findings, List.cons.injEq,
      Finding.ignore.injEq, and_true] at hxs
    obtain ⟨-, rfl, rfl⟩ := hxs
    obtain ⟨-, -, hsame⟩ := hpairs _ _ hp
    exact not_sameResource hspans hsame

end Winnow
