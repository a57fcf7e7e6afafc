import Sylar.IOManager.Run
import Mathlib.Algebra.BigOperators.Group.List
import Mathlib.Algebra.Order.Ring.Nat

/-! # Reactor bookkeeping and the hand-off of parked continuations

Three facts hold in every reachable state of the reactor (`inv_of_reachable`), whatever the
interleaving of the threads' lock sections, the kernel's reports and the closes:

* `Wf`: every pointer (in `m_fdContexts`, held by a thread, in a record, or kept by the kernel as
  `epoll_data`) is the address of a context;
* `Balanced`: `m_pendingEventCount` is the number of registered `(context, event)` pairs, and in
  every context a registered event's slot holds exactly one continuation and an unregistered
  event's slot is empty (`CtxOk`);
* `Ledger`: every continuation `addEvent` stored is, in number, still parked in a slot, or was
  passed to `Scheduler::schedule`, or was dropped by `delEvent` (`handoff_exactly_once`).

They hold because a section that would hand off an unregistered event aborts the process instead:
`triggerEvent` asserts `events & event`. The idle loop does reach that assertion: it triggers every
event of `real_events`, not only those still registered, and a record can report an event that
another thread cancelled after `epoll_wait` returned (`idle_triggers_unregistered_event`).

Each section is summed up once, as what it does to the context at its address (`Handed`,
`EffectOk`); the invariants are then read off these summaries. -/

namespace Sylar.IOManager.Bookkeeping

open Sylar.Kernel.Epoll Sylar.Scheduler.Queue Sylar.IOManager.Context Sylar.IOManager.Context.Event
open Sylar.IOManager.Ops Sylar.IOManager.Run

/-! ### Sums over the heap -/

theorem sum_map_set {α : Type} (f : α → Nat) (d x : α) :
    ∀ (l : List α) (p : Nat), p < l.length →
      ((l.set p x).map f).sum + f (l.getD p d) = (l.map f).sum + f x
  | [], _, h => absurd h (Nat.not_lt_zero _)
  | a :: l, 0, _ => by simp; omega
  | a :: l, p + 1, h => by
    have := sum_map_set f d x l p (by simpa using h)
    simp only [List.set_cons_succ, List.map_cons, List.sum_cons, List.getD_cons_succ]
    omega

theorem le_sum_map {α : Type} (f : α → Nat) (d : α) :
    ∀ (l : List α) (p : Nat), p < l.length → f (l.getD p d) ≤ (l.map f).sum
  | [], _, h => absurd h (Nat.not_lt_zero _)
  | a :: l, 0, _ => by simp
  | a :: l, p + 1, h => by
    have := le_sum_map f d l p (by simpa using h)
    simp only [List.map_cons, List.sum_cons, List.getD_cons_succ]
    omega

/-! ### Well-formed contexts -/

/-- The registered events of a context, counted. -/
def regCount (c : FdContext) : Nat := c.events.read.toNat + c.events.write.toNat

/-- **A well-formed context**: the slot of a registered event holds exactly one continuation, the
slot of an unregistered one is empty, and only `READ` and `WRITE` are registered. -/
structure CtxOk (c : FdContext) : Prop where
  slot : ∀ s : Slot, if s.mem c.events then (c.slot s).holdsOne = true else c.slot s = {}
  bit1 : c.events.bit1 = false

theorem ctxOk_fresh (fd : Int) : CtxOk { fd := fd } :=
  ⟨fun s => by cases s <;> rfl, rfl⟩

theorem CtxOk.holdsOne {c : FdContext} (h : CtxOk c) {s : Slot} (hs : s.mem c.events = true) :
    (c.slot s).holdsOne = true := by
  simpa [hs] using h.slot s

theorem CtxOk.empty {c : FdContext} (h : CtxOk c) {s : Slot} (hs : s.mem c.events = false) :
    c.slot s = {} := by
  simpa [hs] using h.slot s

theorem mem_clear (c : FdContext) (s t : Slot) :
    t.mem (c.clear s).events = (t.mem c.events && s ≠ t) := by
  cases s <;> cases t <;> simp [FdContext.clear]

theorem CtxOk.clear {c : FdContext} (h : CtxOk c) (s : Slot) : CtxOk (c.clear s) := by
  refine ⟨fun t => ?_, by cases s <;> simpa [FdContext.clear] using h.bit1⟩
  rw [mem_clear]
  by_cases hst : s = t
  · subst hst; simp [FdContext.clear]
  · simpa [FdContext.clear, hst] using h.slot t

theorem mem_register (c : FdContext) (s t : Slot) (x : EventContext) :
    t.mem ({ c with events := c.events ||| s.event }.setSlot s x).events =
      (t.mem c.events || s = t) := by
  cases s <;> cases t <;> simp

theorem CtxOk.register {c : FdContext} (h : CtxOk c) {s : Slot} (x : EventContext)
    (hx : x.holdsOne = true) : CtxOk ({ c with events := c.events ||| s.event }.setSlot s x) := by
  refine ⟨fun t => ?_, by cases s <;> simpa using h.bit1⟩
  rw [mem_register]
  by_cases hst : s = t
  · subst hst; simpa using hx
  · simpa [hst] using h.slot t

theorem regCount_register {c : FdContext} {s : Slot} (hs : s.mem c.events = false)
    (x : EventContext) :
    regCount ({ c with events := c.events ||| s.event }.setSlot s x) = regCount c + 1 := by
  cases s <;> simp_all [regCount]; omega

theorem regCount_clear {c : FdContext} {s : Slot} (hs : s.mem c.events = true) :
    regCount (c.clear s) + 1 = regCount c := by
  cases s <;> simp_all [regCount, FdContext.clear]; omega

/-- A well-formed slot's continuation. -/
theorem task?_of_holdsOne {ctx : EventContext} (h : ctx.holdsOne = true) : ∃ t, ctx.task? = some t := by
  obtain ⟨sch, f, cb⟩ := ctx
  cases f <;> cases cb <;> simp_all [EventContext.holdsOne, EventContext.task?]

/-- **`triggerEvent` on a well-formed context** empties the slot of a registered event and hands
its one continuation to the slot's scheduler, with thread `-1`. -/
theorem triggerEvent_ctxOk {c c' : FdContext} {event : Event} {out : List (Nat × FiberAndThread)}
    (hc : CtxOk c) (h : triggerEvent c event = .ok (c', out)) :
    ∃ s sch t, event = s.event ∧ s.mem c.events = true ∧ (c.slot s).scheduler = some sch ∧
      (c.slot s).task? = some t ∧ c' = c.clear s ∧ out = [(sch, ⟨t, -1⟩)] := by
  obtain ⟨s, sch, rfl, hany, hsch, rfl, rfl⟩ := triggerEvent_eq_ok h
  have hs : s.mem c.events = true := by
    cases s <;> simpa [Event.any] using hany
  have h1 := hc.holdsOne hs
  obtain ⟨t, ht⟩ := task?_of_holdsOne h1
  refine ⟨s, sch, t, rfl, hs, hsch, ht, ?_, by simp [ht]⟩
  rw [FdContext.clear, ← moved_empty h1]

/-- How many slots of a context hold the continuation `k`. -/
def parked (k : Task) (c : FdContext) : Nat :=
  (if (c.slot .read).task? = some k then 1 else 0) + (if (c.slot .write).task? = some k then 1 else 0)

theorem parked_setSlot (k : Task) (c : FdContext) (s : Slot) (x : EventContext) :
    parked k (c.setSlot s x) + (if (c.slot s).task? = some k then 1 else 0) =
      parked k c + (if x.task? = some k then 1 else 0) := by
  cases s <;> simp [parked] <;> omega

@[simp] theorem parked_withEvents (k : Task) (c : FdContext) (e : Event) :
    parked k { c with events := e } = parked k c := rfl

theorem parked_clear (k : Task) (c : FdContext) (s : Slot) :
    parked k (c.clear s) + (if (c.slot s).task? = some k then 1 else 0) = parked k c := by
  have := parked_setSlot k { c with events := c.events &&& ~~~s.event } s {}
  simpa [FdContext.clear, EventContext.task?] using this

@[simp] theorem parked_fresh (k : Task) (fd : Int) : parked k { fd := fd } = 0 := rfl

/-- **What handing off slots did** to a well-formed context: the result is well formed, each entry
passed to `schedule` came out of one registered slot, and the counter dropped by one per entry. -/
structure Handed (c c' : FdContext) (n n' : Nat) (out : List (Nat × FiberAndThread)) : Prop where
  ok : CtxOk c'
  fd : c'.fd = c.fd
  reg : regCount c' + out.length = regCount c
  counter : n' = n - out.length
  parked : ∀ k, parked k c' + (out.map (·.2.task)).count k = parked k c

theorem Handed.refl {c : FdContext} (hc : CtxOk c) (n : Nat) : Handed c c n n [] :=
  ⟨hc, rfl, rfl, rfl, fun _ => rfl⟩

theorem Handed.trans {c c1 c2 : FdContext} {n n1 n2 : Nat} {o1 o2 : List (Nat × FiberAndThread)}
    (h1 : Handed c c1 n n1 o1) (h2 : Handed c1 c2 n1 n2 o2) : Handed c c2 n n2 (o1 ++ o2) where
  ok := h2.ok
  fd := h2.fd.trans h1.fd
  reg := by have := h1.reg; have := h2.reg; simp only [List.length_append]; omega
  counter := by rw [h2.counter, h1.counter, List.length_append, Nat.sub_sub]
  parked k := by
    have := h1.parked k; have := h2.parked k
    simp only [List.map_append, List.count_append]; omega

theorem triggerEvent_handed {c c' : FdContext} {event : Event} {out : List (Nat × FiberAndThread)}
    (hc : CtxOk c) (h : triggerEvent c event = .ok (c', out)) (n : Nat) :
    Handed c c' n (n - 1) out := by
  obtain ⟨s, sch, t, -, hs, -, ht, rfl, rfl⟩ := triggerEvent_ctxOk hc h
  refine ⟨hc.clear s, by simp [FdContext.clear], regCount_clear hs, rfl, fun k => ?_⟩
  have := parked_clear k c s
  simp only [ht, Option.some.injEq] at this
  by_cases hk : t = k <;> simp_all [List.count_cons]

theorem triggerIf_handed {cond : Bool} {event : Event} {c c' : FdContext} {n n' : Nat}
    {out : List (Nat × FiberAndThread)} (hc : CtxOk c)
    (h : triggerIf cond event c n = .ok (c', n', out)) : Handed c c' n n' out := by
  rcases triggerIf_ok h with ⟨-, rfl, h2, rfl⟩ | ⟨-, ht, rfl⟩
  · exact h2 ▸ Handed.refl hc n
  · exact triggerEvent_handed hc ht n

/-! ### The manager -/

/-- **The counter and the slots agree**: `m_pendingEventCount` is the number of registered
`(context, event)` pairs, and every context is well formed. -/
structure Balanced (m : IOManager) : Prop where
  count : m.pendingEventCount = (m.heap.map regCount).sum
  ctx : ∀ c ∈ m.heap, CtxOk c

theorem ctx_mem {m : IOManager} {p : Nat} (hp : p < m.heap.length) : m.ctx p ∈ m.heap := by
  simp [IOManager.ctx, List.getD_eq_getElem?_getD, hp]

theorem Balanced.ctxOk {m : IOManager} (h : Balanced m) {p : Nat} (hp : p < m.heap.length) :
    CtxOk (m.ctx p) :=
  h.ctx _ (ctx_mem hp)

theorem Balanced.update {m : IOManager} (h : Balanced m) {p : Nat} (hp : p < m.heap.length)
    {c : FdContext} (hc : CtxOk c) {n : Nat}
    (hn : n + regCount (m.ctx p) = m.pendingEventCount + regCount c) :
    Balanced (m.update p c n) where
  count := by
    have := sum_map_set regCount {} c m.heap p hp
    have := h.count
    simp only [IOManager.update_count, IOManager.update_heap]
    simp only [IOManager.ctx] at hn
    omega
  ctx c' hc' := by
    rcases List.mem_or_eq_of_mem_set hc' with h' | rfl
    · exact h.ctx _ h'
    · exact hc

theorem Balanced.handed {m : IOManager} (h : Balanced m) {p : Nat} (hp : p < m.heap.length)
    {c : FdContext} {n : Nat} {out : List (Nat × FiberAndThread)}
    (hh : Handed (m.ctx p) c m.pendingEventCount n out) : Balanced (m.update p c n) := by
  refine h.update hp hh.ok ?_
  have := hh.reg; have := hh.counter; have := h.count
  have := le_sum_map regCount {} m.heap p hp
  simp only [IOManager.ctx] at *
  omega

theorem contextResize_heap (m : IOManager) (size : Nat) :
    ∃ fresh : List FdContext, (contextResize m size).heap = m.heap ++ fresh ∧
      ∀ c ∈ fresh, ∃ fd : Int, c = { fd := fd } :=
  ⟨_, rfl, fun c hc => by
    obtain ⟨i, -, rfl⟩ := List.mem_map.mp hc
    exact ⟨_, rfl⟩⟩

theorem Balanced.resize {m : IOManager} (h : Balanced m) (size : Nat) :
    Balanced (contextResize m size) := by
  obtain ⟨fresh, hh, hf⟩ := contextResize_heap m size
  have h0 : (fresh.map regCount).sum = 0 :=
    List.sum_eq_zero fun x hx => by
      obtain ⟨c, hc, rfl⟩ := List.mem_map.mp hx
      obtain ⟨fd, rfl⟩ := hf c hc
      rfl
  refine ⟨?_, fun c hc => ?_⟩
  · rw [hh, List.map_append, List.sum_append, h0, Nat.add_zero]
    exact h.count
  · rw [hh] at hc
    rcases List.mem_append.mp hc with hc | hc
    · exact h.ctx c hc
    · obtain ⟨fd, rfl⟩ := hf c hc
      exact ctxOk_fresh fd

/-! ### The ledger of continuations -/

/-- **Every stored continuation is accounted for**: the continuations `addEvent` parked are, in
number, those still in a slot, those passed to `schedule`, and those `delEvent` dropped. -/
def Ledger (s : St) : Prop :=
  ∀ k, s.stored.count k =
    (s.iom.heap.map (parked k)).sum + (s.scheduled.map (·.2.task)).count k + s.discarded.count k

theorem count_toList (o : Option Task) (k : Task) :
    o.toList.count k = if o = some k then 1 else 0 := by
  cases o with
  | none => simp
  | some t => by_cases h : t = k <;> simp [h, List.count_cons]

/-! ### Pointers -/

/-- **Every pointer is the address of a context**: those in `m_fdContexts`, those a thread holds
between its lock sections, those in the records a thread has still to handle, and those the kernel
keeps as `epoll_data`. -/
structure Wf (s : St) : Prop where
  table : ∀ p ∈ s.iom.fdContexts, p < s.iom.heap.length
  holding : ∀ t p op, s.phase t = .holding p op → p < s.iom.heap.length
  batch : ∀ t ev p, ev ∈ s.batch t → ev.data = .ptr p → p < s.iom.heap.length
  interest : ∀ fd ev p, s.kernel.interest fd = some ev → ev.data = .ptr p → p < s.iom.heap.length

/-! ### Each locked section -/

/-- What the invariants need of a locked section. -/
structure EffectOk (s : St) (e : Effect) : Prop where
  table : e.iom.fdContexts = s.iom.fdContexts
  length : e.iom.heap.length = s.iom.heap.length
  balanced : Balanced e.iom
  ledger : Ledger (s.apply e)
  interest : ∀ fd ev q, e.kernel.interest fd = some ev → ev.data = .ptr q →
    s.kernel.interest fd = some ev ∨ q < s.iom.heap.length

variable {s : St} {p : Nat}

theorem EffectOk.noop (hb : Balanced s.iom) (hl : Ledger s) :
    EffectOk s { iom := s.iom, kernel := s.kernel } :=
  ⟨rfl, rfl, hb, by simpa [Ledger, St.apply] using hl, fun _ _ _ h _ => .inl h⟩

theorem interest_of_ctl {k k' : Kernel} {op : EpollCtlOp} {fd : Int} {mask : EpollMask}
    (h : epollCtl k op fd ⟨mask, .ptr p⟩ = .ok k') (fd' : Int) (ev : EpollEvent) (q : Nat)
    (h' : k'.interest fd' = some ev) (hq : ev.data = .ptr q) : k.interest fd' = some ev ∨ q = p := by
  obtain ⟨-, -, rfl⟩ := epollCtl_ok h
  simp only [Kernel.setInterest_interest] at h'
  by_cases hfd : fd' = fd
  · subst hfd
    cases op <;> simp only [ctlResult, Function.update_same, Option.some.injEq,
      reduceCtorEq] at h' <;> subst h' <;> simp_all
  · exact .inl (by simpa [Function.update, hfd] using h')

theorem EffectOk.update (hb : Balanced s.iom) (hl : Ledger s) (hp : p < s.iom.heap.length)
    {c : FdContext} {n : Nat} (hc : CtxOk c)
    (hn : n + regCount (s.iom.ctx p) = s.iom.pendingEventCount + regCount c)
    {k' : Kernel} {op : EpollCtlOp} {fd : Int} {mask : EpollMask}
    (hk : epollCtl s.kernel op fd ⟨mask, .ptr p⟩ = .ok k')
    {out : List (Nat × FiberAndThread)} {st di : List Task}
    (hled : ∀ k, parked k c + (out.map (·.2.task)).count k + di.count k =
      parked k (s.iom.ctx p) + st.count k) :
    EffectOk s { iom := s.iom.update p c n, kernel := k', scheduled := out, stored := st,
                   discarded := di } where
  table := rfl
  length := List.length_set ..
  balanced := hb.update hp hc hn
  ledger k := by
    have := sum_map_set (parked k) {} c s.iom.heap p hp
    have := hl k
    have := hled k
    simp only [St.apply_stored, St.apply_scheduled, St.apply_discarded, St.apply_iom,
      IOManager.update_heap, List.count_append, List.map_append]
    simp only [IOManager.ctx] at *
    omega
  interest fd ev q h hq := (interest_of_ctl hk fd ev q h hq).imp_right fun hq => by
    simpa [hq] using hp

theorem EffectOk.handed (hb : Balanced s.iom) (hl : Ledger s) (hp : p < s.iom.heap.length)
    {c : FdContext} {n : Nat} {out : List (Nat × FiberAndThread)}
    (hh : Handed (s.iom.ctx p) c s.iom.pendingEventCount n out)
    {k' : Kernel} {op : EpollCtlOp} {fd : Int} {mask : EpollMask}
    (hk : epollCtl s.kernel op fd ⟨mask, .ptr p⟩ = .ok k') :
    EffectOk s { iom := s.iom.update p c n, kernel := k', scheduled := out } := by
  refine .update hb hl hp hh.ok ?_ hk fun k => by simpa using hh.parked k
  have := hh.reg; have := hh.counter; have := hb.count
  have := le_sum_map regCount {} s.iom.heap p hp
  simp only [IOManager.ctx] at *
  omega

theorem mem_of_any {c : FdContext} {s : Slot} (h : (c.events &&& s.event).any = true) :
    s.mem c.events = true := by
  cases s <;> simpa [Event.any] using h

theorem not_mem_of_any {c : FdContext} {s : Slot} (h : (c.events &&& s.event).any = false) :
    s.mem c.events = false := by
  cases s <;> simpa [Event.any] using h

theorem addEventLocked_effectOk (hb : Balanced s.iom) (hl : Ledger s) (hp : p < s.iom.heap.length)
    {fd : Int} {event : Event} {sched : Option Nat} {cur : Nat} {cb : Option Nat} {e : Effect}
    {r : Int} (h : addEventLocked s.iom s.kernel p fd event sched cur cb = .ok (e, r)) :
    EffectOk s e := by
  rcases addEventLocked_ok h with rfl | ⟨sl, k', rfl, hfree, hemp, hk, rfl⟩
  · exact .noop hb hl
  · have hs := not_mem_of_any hfree
    refine .update hb hl hp ((hb.ctxOk hp).register _ (newSlot_holdsOne ..)) ?_ hk fun k => ?_
    · rw [regCount_register hs]; omega
    · have := parked_setSlot k { s.iom.ctx p with events := (s.iom.ctx p).events ||| sl.event } sl
        (newSlot sched cur cb)
      simp_all [count_toList, EventContext.task?]

theorem delEventLocked_effectOk (hb : Balanced s.iom) (hl : Ledger s) (hp : p < s.iom.heap.length)
    {fd : Int} {event : Event} {e : Effect} {r : Bool}
    (h : delEventLocked s.iom s.kernel p fd event = .ok (e, r)) : EffectOk s e := by
  rcases delEventLocked_ok h with rfl | ⟨sl, k', rfl, hset, hk, rfl⟩
  · exact .noop hb hl
  · have hs := mem_of_any hset
    refine .update hb hl hp ((hb.ctxOk hp).clear sl) ?_ hk fun k => ?_
    · have := regCount_clear hs; have := hb.count
      have := le_sum_map regCount {} s.iom.heap p hp
      simp only [IOManager.ctx] at *
      omega
    · simpa [count_toList] using parked_clear k (s.iom.ctx p) sl

theorem cancelEventLocked_effectOk (hb : Balanced s.iom) (hl : Ledger s)
    (hp : p < s.iom.heap.length) {fd : Int} {event : Event} {e : Effect} {r : Bool}
    (h : cancelEventLocked s.iom s.kernel p fd event = .ok (e, r)) : EffectOk s e := by
  rcases cancelEventLocked_ok h with rfl | ⟨k', c', out, -, hk, ht, rfl⟩
  · exact .noop hb hl
  · exact .handed hb hl hp (triggerEvent_handed (hb.ctxOk hp) ht _) hk

theorem cancelAllLocked_effectOk (hb : Balanced s.iom) (hl : Ledger s)
    (hp : p < s.iom.heap.length) {fd : Int} {e : Effect} {r : Bool}
    (h : cancelAllLocked s.iom s.kernel p fd = .ok (e, r)) : EffectOk s e := by
  rcases cancelAllLocked_ok h with rfl | ⟨k', c1, n1, out1, c2, n2, out2, -, hk, h1, h2, -, rfl⟩
  · exact .noop hb hl
  · have hh1 := triggerIf_handed (hb.ctxOk hp) h1
    exact .handed hb hl hp (hh1.trans (triggerIf_handed hh1.ok h2)) hk

theorem dispatch_effectOk (hb : Balanced s.iom) (hl : Ledger s) {ev : EpollEvent} {e : Effect}
    (hev : ∀ q, ev.data = .ptr q → q < s.iom.heap.length)
    (h : dispatch s.iom s.kernel s.tickleFd ev = .ok e) : EffectOk s e := by
  rcases dispatch_ok h with rfl | ⟨q, k', c1, n1, out1, c2, n2, out2, hq, -, hk, h1, h2, rfl⟩
  · exact .noop hb hl
  · have hp := hev q hq
    have hh1 := triggerIf_handed (hb.ctxOk hp) h1
    exact .handed hb hl hp (hh1.trans (triggerIf_handed hh1.ok h2)) hk

theorem runLocked_effectOk (hb : Balanced s.iom) (hl : Ledger s) (hp : p < s.iom.heap.length)
    {op : Op} {s' : St} (h : runLocked s p op = .ok s') : ∃ e, EffectOk s e ∧ s' = s.apply e := by
  cases op <;> simp only [runLocked] at h <;>
    obtain ⟨⟨e, r⟩, he, rfl⟩ := exists_of_map_eq_ok h
  · exact ⟨e, addEventLocked_effectOk hb hl hp he, rfl⟩
  · exact ⟨e, delEventLocked_effectOk hb hl hp he, rfl⟩
  · exact ⟨e, cancelEventLocked_effectOk hb hl hp he, rfl⟩
  · exact ⟨e, cancelAllLocked_effectOk hb hl hp he, rfl⟩

/-! ### Every step -/

/-- **The reactor's invariant**: pointers are addresses, the counter balances the registrations,
and the ledger of continuations holds. -/
structure Inv (s : St) : Prop where
  wf : Wf s
  balanced : Balanced s.iom
  ledger : Ledger s

theorem Inv.setPhase (hi : Inv s) (t : Nat) {ph : Phase}
    (hph : ∀ q op, ph = .holding q op → q < s.iom.heap.length) : Inv (s.setPhase t ph) := by
  refine ⟨⟨hi.wf.table, fun t' q op h => ?_, hi.wf.batch, hi.wf.interest⟩, hi.balanced, hi.ledger⟩
  by_cases ht : t' = t
  · subst ht; simp only [St.setPhase_phase, Function.update_same] at h; exact hph q op h
  · simp only [St.setPhase_phase, Function.update_noteq ht] at h; exact hi.wf.holding t' q op h

theorem Inv.setBatch (hi : Inv s) (t : Nat) {b : List EpollEvent}
    (hb : ∀ ev ∈ b, ∀ q, ev.data = .ptr q → q < s.iom.heap.length) : Inv (s.setBatch t b) := by
  refine ⟨⟨hi.wf.table, hi.wf.holding, fun t' ev q hev hq => ?_, hi.wf.interest⟩, hi.balanced,
    hi.ledger⟩
  by_cases ht : t' = t
  · subst ht; simp only [St.setBatch_batch, Function.update_same] at hev; exact hb ev hev q hq
  · simp only [St.setBatch_batch, Function.update_noteq ht] at hev; exact hi.wf.batch t' ev q hev hq

theorem Inv.apply (hi : Inv s) {e : Effect} (he : EffectOk s e) : Inv (s.apply e) where
  wf :=
    { table := fun q hq => by
        simp only [St.apply_iom, he.table, he.length] at hq ⊢; exact hi.wf.table q hq
      holding := fun t q op h => by simpa [he.length] using hi.wf.holding t q op h
      batch := fun t ev q hev hq => by simpa [he.length] using hi.wf.batch t ev q hev hq
      interest := fun fd ev q h hq => by
        simp only [St.apply_iom, he.length]
        rcases he.interest fd ev q h hq with h' | h'
        · exact hi.wf.interest fd ev q h' hq
        · exact h' }
  balanced := he.balanced
  ledger := he.ledger

theorem Inv.resize (hi : Inv s) (size : Nat) : Inv { s with iom := contextResize s.iom size } := by
  have hlen := contextResize_heap_length s.iom size
  obtain ⟨fresh, hh, hf⟩ := contextResize_heap s.iom size
  refine ⟨⟨fun q hq => ?_, fun t q op h => (hi.wf.holding t q op h).trans_le hlen,
    fun t ev q hev hq => (hi.wf.batch t ev q hev hq).trans_le hlen,
    fun fd ev q h hq => (hi.wf.interest fd ev q h hq).trans_le hlen⟩, hi.balanced.resize size,
    fun k => ?_⟩
  · rcases mem_contextResize hq with hq | hq
    · exact (hi.wf.table q hq).trans_le hlen
    · exact hq
  · have h0 : (fresh.map (parked k)).sum = 0 :=
      List.sum_eq_zero fun x hx => by
        obtain ⟨c, hc, rfl⟩ := List.mem_map.mp hx
        obtain ⟨fd, rfl⟩ := hf c hc
        rfl
    simp only [hh, List.map_append, List.sum_append, h0, Nat.add_zero]
    exact hi.ledger k

theorem Inv.kernel (hi : Inv s) {k : Kernel}
    (hk : ∀ fd ev, k.interest fd = some ev → s.kernel.interest fd = some ev) :
    Inv { s with kernel := k } :=
  ⟨⟨hi.wf.table, hi.wf.holding, hi.wf.batch, fun fd ev q h => hi.wf.interest fd ev q (hk fd ev h)⟩,
    hi.balanced, hi.ledger⟩

theorem mem_report_ptr {s : St} (hi : Inv s) {ready : List (Int × EpollMask)} :
    ∀ ev ∈ epollWait s.kernel ready, ∀ q, ev.data = .ptr q → q < s.iom.heap.length := by
  intro ev hev q hq
  obtain ⟨fd, ev', m, hi', rfl⟩ := mem_epollWait hev
  exact hi.wf.interest fd ev' q hi' hq

/-- **One step keeps the invariant.** -/
theorem inv_step {s s' : St} {a : Action} (hi : Inv s) (h : step s a = .ok s') : Inv s' := by
  cases stepCase_of_step h with
  | stutter => exact hi
  | call _ hq =>
    obtain ⟨-, hlt, rfl⟩ := lookup_ok_some hq
    exact hi.setPhase _ fun _ _ he => by cases he; exact hi.wf.table _ (getD_mem hlt)
  | callResize => exact hi.setPhase _ fun _ _ he => by cases he
  | resize _ hr =>
    obtain ⟨rfl, -, hlt, rfl⟩ := resizeFor_ok hr
    exact (hi.resize _).setPhase _ fun _ _ he => by
      cases he
      exact (hi.resize _).wf.table _ (getD_mem hlt)
  | locked hph h₁ =>
    obtain ⟨e, he, rfl⟩ := runLocked_effectOk hi.balanced hi.ledger (hi.wf.holding _ _ _ hph) h₁
    exact (hi.apply he).setPhase _ fun _ _ h => by cases h
  | epollWait => exact hi.setBatch _ (mem_report_ptr hi)
  | dispatch hb h₁ =>
    rename_i t ev rest e
    have he := dispatch_effectOk hi.balanced hi.ledger
      (fun q hq => hi.wf.batch t ev q (by simp [hb]) hq) h₁
    exact (hi.apply he).setBatch t fun ev' hev' q hq => by
      simpa [he.length] using hi.wf.batch t ev' q (by simp [hb, hev']) hq
  | openFd => exact hi.kernel fun fd ev h => by simpa using h
  | closeFd fd =>
    refine hi.kernel fun fd' ev h => ?_
    by_cases hfd : fd' = fd
    · subst hfd; simp at h
    · simpa [Function.update_noteq hfd] using h
  | setNonblock => exact hi.kernel fun fd ev h => by simpa using h

theorem inv_initial (r w : Int) : Inv (initial r w) := by
  have h₀ : Inv { initial r w with iom := ⟨0, [], []⟩ } :=
    ⟨⟨by simp, by simp [initial], by simp [initial], fun fd ev q h hq => by
        simp only [initial] at h
        split at h
        · cases h; cases hq
        · cases h⟩,
      ⟨rfl, by simp⟩, fun k => by simp [initial]⟩
  exact h₀.resize 32

/-- **The invariant holds in every reachable state.** -/
theorem inv_of_reachable {s : St} (h : Reachable s) : Inv s := by
  induction h with
  | init r w _ => exact inv_initial r w
  | step _ _ _ hs ih => exact inv_step ih hs

/-! ### Claims -/

/-- **Exactly-once hand-off.** In every reachable state, for every continuation `k`, the number of
times `addEvent` stored `k` is the number of slots still holding it, plus the number of times it was
passed to `Scheduler::schedule`, plus the number of times `delEvent` dropped it; and no slot holds
both a fiber and a callback. -/
theorem handoff_exactly_once {s : St} (h : Reachable s) :
    (∀ k, s.stored.count k = (s.iom.heap.map (parked k)).sum +
      (s.scheduled.map (·.2.task)).count k + s.discarded.count k) ∧
    ∀ c ∈ s.iom.heap, ∀ sl : Slot, ((c.slot sl).fiber.isSome && (c.slot sl).cb.isSome) = false := by
  have hi := inv_of_reachable h
  refine ⟨hi.ledger, fun c hc sl => ?_⟩
  have := (hi.balanced.ctx c hc).slot sl
  split at this
  · revert this; simp only [EventContext.holdsOne]
    cases (c.slot sl).fiber.isSome <;> cases (c.slot sl).cb.isSome <;> simp
  · simp [this]

/-- A callback parked on `READ` of fd `5` and the calling fiber `7` on `WRITE`; `epoll_wait` on
thread `1` reports `5` readable and the idle loop hands the callback off. -/
def handoffTrace : List Action :=
  [.openFd 5 ⟨2, true, true⟩,
   .call 0 (.addEvent 5 READ (some 0) 10 (some 1)), .locked 0,
   .call 0 (.addEvent 5 WRITE (some 0) 7 none), .locked 0,
   .epollWait 1 [(5, { epollin := true })], .dispatch 1]

/-- The state `handoffTrace` reaches. -/
def handedOff : St :=
  match run (initial 3 4) handoffTrace with
  | .ok s => s
  | .error _ => initial 3 4

/-- After `handoffTrace` the callback has been passed to `schedule` once and is in no slot, the
fiber is still parked in its slot, and the ledger balances. -/
theorem handoff_exactly_once_handedOff :
    (handedOff.scheduled.map (·.2.task)).count (.cb 1) = 1 ∧
      (handedOff.iom.heap.map (parked (.cb 1))).sum = 0 ∧
      (handedOff.iom.heap.map (parked (.fiber 7))).sum = 1 ∧
      (∀ k, handedOff.stored.count k = (handedOff.iom.heap.map (parked k)).sum +
        (handedOff.scheduled.map (·.2.task)).count k + handedOff.discarded.count k) ∧
      ∀ c ∈ handedOff.iom.heap, ∀ sl : Slot,
        ((c.slot sl).fiber.isSome && (c.slot sl).cb.isSome) = false :=
  ⟨by decide, by decide, by decide, handoff_exactly_once
    (run_reachable (.init 3 4 (by decide)) (rfl : run (initial 3 4) handoffTrace = .ok handedOff))⟩

/-- The registrations of the stale-record run: a callback on `READ` and one on `WRITE` of fd `5`,
an `epoll_wait` on thread `1` reporting both, then a `cancelEvent(5, WRITE)` on thread `2` (a
timeout) before thread `1` handles the record. -/
def staleTrace : List Action :=
  [.openFd 5 ⟨2, true, true⟩,
   .call 0 (.addEvent 5 READ (some 0) 10 (some 1)), .locked 0,
   .call 0 (.addEvent 5 WRITE (some 0) 10 (some 2)), .locked 0,
   .epollWait 1 [(5, { epollin := true, epollout := true })],
   .call 2 (.cancelEvent 5 WRITE), .locked 2]

/-- **The idle loop triggers a stale event.** There is a reachable state in which thread `1`'s next
record reports `EPOLLIN | EPOLLOUT` for the context of fd `5`, whose mask is only `READ`; handling it
calls `triggerEvent(WRITE)`, and the assertion `events & event` aborts the process. -/
theorem idle_triggers_unregistered_event :
    ∃ s, Reachable s ∧
      (s.batch 1).head? = some ⟨{ epollin := true, epollout := true }, .ptr 5⟩ ∧
      (s.iom.ctx 5).events = READ ∧
      errorOf (step s (.dispatch 1)) = some "events & event" :=
  reach_of_run (.init 3 4 (by decide)) staleTrace _ rfl

end Sylar.IOManager.Bookkeeping
