import Sylar.IOManager.Context

/-! # The reactor's operations

`IOManager` keeps `m_pendingEventCount` and `m_fdContexts`, a vector of raw `FdContext*`. The model
gives each `FdContext` an address, its index in `heap`, the list of every context `contextResize`
has allocated; none is freed before the destructor, so a pointer read from the vector stays valid
even when the vector later drops it.

Each operation is a read-locked lookup of the vector (`lookup`, and for `addEvent` a write-locked
`contextResize(fd * 1.5)` when the vector is too short) followed by a section under
`fd_ctx->mutex`. The sections are modelled here, each as the code computes it:

* `addEventLocked`, `delEventLocked`, `cancelEventLocked`, `cancelAllLocked`;
* `dispatch`: the idle loop's handling of one record returned by `epoll_wait`.

A section returns its `Effect` (the manager, the kernel, and the entries passed to
`Scheduler::schedule`), with the continuations `addEvent` stored and `delEvent` discarded recorded
beside them, and the value the operation returns. -/

namespace Sylar.IOManager.Ops

open Sylar.Kernel.Epoll Sylar.Scheduler.Queue Sylar.IOManager.Context Sylar.IOManager.Context.Event

/-- **`IOManager`**'s event bookkeeping: `m_pendingEventCount`, `m_fdContexts` (addresses into
`heap`) and the contexts allocated so far. -/
structure IOManager where
  pendingEventCount : Nat
  fdContexts : List Nat
  heap : List FdContext

/-- What a locked section leaves behind. `stored` and `discarded` record the continuations that
`addEvent` put into a slot and that `delEvent` dropped from one. -/
structure Effect where
  iom : IOManager
  kernel : Kernel
  scheduled : List (Nat × FiberAndThread) := []
  stored : List Task := []
  discarded : List Task := []

/-- The context at an address. -/
def IOManager.ctx (m : IOManager) (p : Nat) : FdContext := m.heap.getD p {}

/-- The manager with the context at `p` replaced and the counter set. -/
def IOManager.update (m : IOManager) (p : Nat) (c : FdContext) (count : Nat) : IOManager :=
  { m with pendingEventCount := count, heap := m.heap.set p c }

@[simp] theorem IOManager.update_fdContexts (m : IOManager) (p : Nat) (c : FdContext) (n : Nat) :
    (m.update p c n).fdContexts = m.fdContexts := rfl

@[simp] theorem IOManager.update_count (m : IOManager) (p : Nat) (c : FdContext) (n : Nat) :
    (m.update p c n).pendingEventCount = n := rfl

@[simp] theorem IOManager.update_heap (m : IOManager) (p : Nat) (c : FdContext) (n : Nat) :
    (m.update p c n).heap = m.heap.set p c := rfl

/-! ### The vector of contexts -/

/-- **`IOManager::contextResize(size)`**: `m_fdContexts.resize(size)` (truncating or padding with
`nullptr`), then a new `FdContext` with `fd = i` for every null entry `i`. -/
def contextResize (m : IOManager) (size : Nat) : IOManager :=
  let kept := m.fdContexts.take size
  let n := size - kept.length
  { m with
    fdContexts := kept ++ (List.range n).map (m.heap.length + ·),
    heap := m.heap ++ (List.range n).map fun i => { fd := ((kept.length + i : Nat) : Int) } }

/-- The read-locked lookup: `(int)m_fdContexts.size() <= fd` finds nothing; otherwise
`m_fdContexts[fd]`, which for a negative `fd` reads outside the vector. -/
def lookup (m : IOManager) (fd : Int) : Except String (Option Nat) :=
  if (m.fdContexts.length : Int) ≤ fd then .ok none
  else if 0 ≤ fd then .ok (some (m.fdContexts.getD fd.toNat 0))
  else .error "m_fdContexts[fd]"

/-- `addEvent`'s write-locked branch: `contextResize(fd * 1.5)` (the `double` truncated to
`size_t`) and `fd_ctx = m_fdContexts[fd]`. -/
def resizeFor (m : IOManager) (fd : Int) : Except String (IOManager × Nat) :=
  let m' := contextResize m (fd.toNat + fd.toNat / 2)
  if 0 ≤ fd ∧ fd.toNat < m'.fdContexts.length then .ok (m', m'.fdContexts.getD fd.toNat 0)
  else .error "m_fdContexts[fd]"

theorem lookup_ok_some {m : IOManager} {fd : Int} {p : Nat} (h : lookup m fd = .ok (some p)) :
    0 ≤ fd ∧ fd.toNat < m.fdContexts.length ∧ p = m.fdContexts.getD fd.toNat 0 := by
  unfold lookup at h
  split at h
  · cases h
  · split at h
    · cases h; exact ⟨‹_›, by omega, rfl⟩
    · cases h

theorem getD_mem {l : List Nat} {i : Nat} (h : i < l.length) : l.getD i 0 ∈ l := by
  simp [List.getD_eq_getElem?_getD, h]

theorem contextResize_heap_length (m : IOManager) (size : Nat) :
    m.heap.length ≤ (contextResize m size).heap.length := by
  simp [contextResize]

theorem mem_contextResize {m : IOManager} {size q : Nat}
    (h : q ∈ (contextResize m size).fdContexts) :
    q ∈ m.fdContexts ∨ q < (contextResize m size).heap.length := by
  simp only [contextResize, List.mem_append, List.mem_map, List.mem_range] at h
  rcases h with h | ⟨i, hi, rfl⟩
  · exact .inl (List.mem_of_mem_take h)
  · right
    simp only [contextResize, List.length_append, List.length_map, List.length_range]
    omega

theorem resizeFor_ok {m m' : IOManager} {fd : Int} {p : Nat} (h : resizeFor m fd = .ok (m', p)) :
    m' = contextResize m (fd.toNat + fd.toNat / 2) ∧ 0 ≤ fd ∧ fd.toNat < m'.fdContexts.length ∧
      p = m'.fdContexts.getD fd.toNat 0 := by
  simp only [resizeFor] at h
  split_ifs at h with hfd
  cases h
  exact ⟨rfl, hfd.1, hfd.2, rfl⟩

/-! ### The locked sections -/

/-- The slot `addEvent` fills: the scheduler, and the callback or else the current fiber. -/
def newSlot (sched : Option Nat) (cur : Nat) (cb : Option Nat) : EventContext :=
  match cb with
  | some f => { scheduler := sched, cb := some f }
  | none => { scheduler := sched, fiber := some cur }

@[simp] theorem newSlot_holdsOne (sched : Option Nat) (cur : Nat) (cb : Option Nat) :
    (newSlot sched cur cb).holdsOne = true := by
  cases cb <;> rfl

/-- **`addEvent(fd, event, cb)`** under `fd_ctx->mutex`, for the context at `p`: reject a registered
event, `epoll_ctl(MOD or ADD, fd, EPOLLET | events | event)`, count it, set the bit, and fill the
empty slot with the calling thread's scheduler `sched` and `cb` or the current fiber `cur` (whose
state is `EXEC`). Returns `0`, or `-1` when `epoll_ctl` fails. -/
def addEventLocked (m : IOManager) (k : Kernel) (p : Nat) (fd : Int) (event : Event)
    (sched : Option Nat) (cur : Nat) (cb : Option Nat) : Except String (Effect × Int) :=
  let c := m.ctx p
  if (c.events &&& event).any then .error "!(fd_ctx->events & event)" else
  let op := if c.events.any then EpollCtlOp.mod else .add
  match epollCtl k op fd ⟨(c.events ||| event).withET, .ptr p⟩ with
  | .error _ => .ok ({ iom := m, kernel := k }, -1)
  | .ok k' =>
    let c := { c with events := c.events ||| event }
    match getContext event with
    | .error msg => .error msg
    | .ok s =>
      if c.slot s ≠ {} then .error "!event_ctx.scheduler && !event_ctx.fiber && !event_ctx.cb" else
      let slot := newSlot sched cur cb
      .ok ({ iom := m.update p (c.setSlot s slot) (m.pendingEventCount + 1), kernel := k',
             stored := slot.task?.toList }, 0)

/-- **`delEvent(fd, event)`** under the lock: clear the bit, `epoll_ctl(MOD or DEL)`, uncount it,
and reset the slot without handing its continuation off. -/
def delEventLocked (m : IOManager) (k : Kernel) (p : Nat) (fd : Int) (event : Event) :
    Except String (Effect × Bool) :=
  let c := m.ctx p
  if (c.events &&& event).any = false then .ok ({ iom := m, kernel := k }, false) else
  let new := c.events &&& ~~~event
  let op := if new.any then EpollCtlOp.mod else .del
  match epollCtl k op fd ⟨new.withET, .ptr p⟩ with
  | .error _ => .ok ({ iom := m, kernel := k }, false)
  | .ok k' =>
    match getContext event with
    | .error msg => .error msg
    | .ok s =>
      .ok ({ iom := m.update p ({ c with events := new }.setSlot s (resetContext (c.slot s)))
                (m.pendingEventCount - 1),
             kernel := k', discarded := (c.slot s).task?.toList }, true)

/-- **`cancelEvent(fd, event)`** under the lock: `epoll_ctl(MOD or DEL)`, then `triggerEvent`, which
clears the bit and hands the continuation off, and uncount it. -/
def cancelEventLocked (m : IOManager) (k : Kernel) (p : Nat) (fd : Int) (event : Event) :
    Except String (Effect × Bool) :=
  let c := m.ctx p
  if (c.events &&& event).any = false then .ok ({ iom := m, kernel := k }, false) else
  let new := c.events &&& ~~~event
  let op := if new.any then EpollCtlOp.mod else .del
  match epollCtl k op fd ⟨new.withET, .ptr p⟩ with
  | .error _ => .ok ({ iom := m, kernel := k }, false)
  | .ok k' =>
    match triggerEvent c event with
    | .error msg => .error msg
    | .ok (c', out) =>
      .ok ({ iom := m.update p c' (m.pendingEventCount - 1), kernel := k', scheduled := out }, true)

/-- `if (cond) { fd_ctx->triggerEvent(event); --m_pendingEventCount; }`. -/
def triggerIf (cond : Bool) (event : Event) (c : FdContext) (count : Nat) :
    Except String (FdContext × Nat × List (Nat × FiberAndThread)) :=
  if cond then
    match triggerEvent c event with
    | .error msg => .error msg
    | .ok (c', out) => .ok (c', count - 1, out)
  else .ok (c, count, [])

/-- **`cancelAll(fd)`** under the lock: `epoll_ctl(DEL)`, trigger each registered event, and
`SYLAR_ASSERT(fd_ctx->events == 0)`. -/
def cancelAllLocked (m : IOManager) (k : Kernel) (p : Nat) (fd : Int) :
    Except String (Effect × Bool) :=
  let c := m.ctx p
  if c.events.any = false then .ok ({ iom := m, kernel := k }, false) else
  match epollCtl k .del fd ⟨{}, .ptr p⟩ with
  | .error _ => .ok ({ iom := m, kernel := k }, false)
  | .ok k' =>
    match triggerIf (c.events &&& READ).any READ c m.pendingEventCount with
    | .error msg => .error msg
    | .ok (c1, n1, out1) =>
      match triggerIf (c1.events &&& WRITE).any WRITE c1 n1 with
      | .error msg => .error msg
      | .ok (c2, n2, out2) =>
        if c2.events ≠ NONE then .error "fd_ctx->events == 0" else
        .ok ({ iom := m.update p c2 n2, kernel := k', scheduled := out1 ++ out2 }, true)

/-- The events the idle loop attributes to a record: `EPOLLERR`/`EPOLLHUP` add the registered
`EPOLLIN | EPOLLOUT` bits, and `EPOLLIN` is `READ`, `EPOLLOUT` is `WRITE` (`real_events`). -/
def realEvents (reported : EpollMask) (registered : Event) : Event :=
  let widen := reported.epollerr || reported.epollhup
  ⟨reported.epollin || (widen && registered.read), false,
   reported.epollout || (widen && registered.write)⟩

/-- **The idle loop on one `epoll_event`.** The tickle pipe is drained. Otherwise, under the lock of
the context `data.ptr`: nothing if the registered mask misses `real_events`; else
`epoll_ctl(MOD or DEL, fd_ctx->fd, EPOLLET | left_events)`, and on success `triggerEvent` and a
decrement for `READ` if `real_events & READ`, then for `WRITE` if `real_events & WRITE`. -/
def dispatch (m : IOManager) (k : Kernel) (tickleFd : Int) (ev : EpollEvent) :
    Except String Effect :=
  match ev.data with
  | .fd n => if n = tickleFd then .ok { iom := m, kernel := k } else .error "(FdContext*)event.data.ptr"
  | .ptr p =>
    let c := m.ctx p
    let real := realEvents ev.events c.events
    if (c.events &&& real).any = false then .ok { iom := m, kernel := k } else
    let left := c.events &&& ~~~real
    let op := if left.any then EpollCtlOp.mod else .del
    match epollCtl k op c.fd ⟨left.withET, .ptr p⟩ with
    | .error _ => .ok { iom := m, kernel := k }
    | .ok k' =>
      match triggerIf real.read READ c m.pendingEventCount with
      | .error msg => .error msg
      | .ok (c1, n1, out1) =>
        match triggerIf real.write WRITE c1 n1 with
        | .error msg => .error msg
        | .ok (c2, n2, out2) =>
          .ok { iom := m.update p c2 n2, kernel := k', scheduled := out1 ++ out2 }

/-! ### What each section does -/

theorem addEventLocked_ok {m : IOManager} {k : Kernel} {p : Nat} {fd : Int} {event : Event}
    {sched : Option Nat} {cur : Nat} {cb : Option Nat} {e : Effect} {r : Int}
    (h : addEventLocked m k p fd event sched cur cb = .ok (e, r)) :
    e = { iom := m, kernel := k } ∨
    ∃ s k', event = s.event ∧ ((m.ctx p).events &&& event).any = false ∧ (m.ctx p).slot s = {} ∧
      epollCtl k (if (m.ctx p).events.any then .mod else .add) fd
        ⟨((m.ctx p).events ||| event).withET, .ptr p⟩ = .ok k' ∧
      e = { iom := m.update p ({ m.ctx p with events := (m.ctx p).events ||| event }.setSlot s
              (newSlot sched cur cb)) (m.pendingEventCount + 1),
            kernel := k', stored := (newSlot sched cur cb).task?.toList } := by
  simp only [addEventLocked] at h
  cases hfree : ((m.ctx p).events &&& event).any
  · cases hk : epollCtl k (if (m.ctx p).events.any then .mod else .add) fd
        ⟨((m.ctx p).events ||| event).withET, .ptr p⟩ with
    | error _ => simp_all
    | ok k' =>
      cases hs : getContext event with
      | error _ => simp_all
      | ok s =>
        by_cases hemp : (m.ctx p).slot s = {}
        · simp only [hfree, hk, hs, FdContext.slot_withEvents, hemp, ne_eq, not_true_eq_false, if_false,
            Bool.false_eq_true,
            Except.ok.injEq, Prod.mk.injEq] at h
          exact .inr ⟨s, k', getContext_ok hs, rfl, hemp, rfl, h.1.symm⟩
        · simp [hfree, hk, hs, FdContext.slot_withEvents, hemp] at h
  · simp [hfree] at h

/-- A locked `addEvent` that returns `-1`, its `epoll_ctl` having failed, leaves the reactor and
the kernel as they were. -/
theorem addEventLocked_fail {m : IOManager} {k : Kernel} {p : Nat} {fd : Int} {event : Event}
    {sched : Option Nat} {cur : Nat} {cb : Option Nat} {e : Effect} {r : Int}
    (h : addEventLocked m k p fd event sched cur cb = .ok (e, r)) (hr : r ≠ 0) :
    e = { iom := m, kernel := k } := by
  unfold addEventLocked at h
  dsimp only at h
  split at h
  · cases h
  · split at h
    · cases h; rfl
    · split at h
      · cases h
      · split at h <;> cases h
        exact absurd rfl hr

theorem delEventLocked_ok {m : IOManager} {k : Kernel} {p : Nat} {fd : Int} {event : Event}
    {e : Effect} {r : Bool} (h : delEventLocked m k p fd event = .ok (e, r)) :
    e = { iom := m, kernel := k } ∨
    ∃ s k', event = s.event ∧ ((m.ctx p).events &&& event).any = true ∧
      epollCtl k (if ((m.ctx p).events &&& ~~~event).any then .mod else .del) fd
        ⟨((m.ctx p).events &&& ~~~event).withET, .ptr p⟩ = .ok k' ∧
      e = { iom := m.update p ((m.ctx p).clear s) (m.pendingEventCount - 1), kernel := k',
            discarded := ((m.ctx p).slot s).task?.toList } := by
  simp only [delEventLocked] at h
  cases hset : ((m.ctx p).events &&& event).any
  · simp_all
  · cases hk : epollCtl k (if ((m.ctx p).events &&& ~~~event).any then .mod else .del) fd
        ⟨((m.ctx p).events &&& ~~~event).withET, .ptr p⟩ with
    | error _ => simp_all
    | ok k' =>
      cases hs : getContext event with
      | error _ => simp_all
      | ok s =>
        obtain rfl := getContext_ok hs
        simp only [hset, hk, hs, Bool.true_eq_false, if_false, Except.ok.injEq, Prod.mk.injEq] at h
        exact .inr ⟨s, k', rfl, rfl, rfl, h.1.symm⟩

theorem cancelEventLocked_ok {m : IOManager} {k : Kernel} {p : Nat} {fd : Int} {event : Event}
    {e : Effect} {r : Bool} (h : cancelEventLocked m k p fd event = .ok (e, r)) :
    e = { iom := m, kernel := k } ∨
    ∃ k' c' out, ((m.ctx p).events &&& event).any = true ∧
      epollCtl k (if ((m.ctx p).events &&& ~~~event).any then .mod else .del) fd
        ⟨((m.ctx p).events &&& ~~~event).withET, .ptr p⟩ = .ok k' ∧
      triggerEvent (m.ctx p) event = .ok (c', out) ∧
      e = { iom := m.update p c' (m.pendingEventCount - 1), kernel := k', scheduled := out } := by
  simp only [cancelEventLocked] at h
  cases hset : ((m.ctx p).events &&& event).any
  · simp_all
  · cases hk : epollCtl k (if ((m.ctx p).events &&& ~~~event).any then .mod else .del) fd
        ⟨((m.ctx p).events &&& ~~~event).withET, .ptr p⟩ with
    | error _ => simp_all
    | ok k' =>
      cases ht : triggerEvent (m.ctx p) event with
      | error _ => simp_all
      | ok r =>
        obtain ⟨c', out⟩ := r
        simp only [hset, hk, ht, Bool.true_eq_false, if_false, Except.ok.injEq, Prod.mk.injEq] at h
        exact .inr ⟨k', c', out, rfl, rfl, rfl, h.1.symm⟩

theorem triggerIf_ok {cond : Bool} {event : Event} {c c' : FdContext} {n n' : Nat}
    {out : List (Nat × FiberAndThread)} (h : triggerIf cond event c n = .ok (c', n', out)) :
    (cond = false ∧ c' = c ∧ n' = n ∧ out = []) ∨
    (cond = true ∧ triggerEvent c event = .ok (c', out) ∧ n' = n - 1) := by
  unfold triggerIf at h
  cases cond
  · simp_all
  · cases ht : triggerEvent c event with
    | error _ => simp_all
    | ok r => obtain ⟨c1, o⟩ := r; simp_all

theorem cancelAllLocked_ok {m : IOManager} {k : Kernel} {p : Nat} {fd : Int}
    {e : Effect} {r : Bool} (h : cancelAllLocked m k p fd = .ok (e, r)) :
    e = { iom := m, kernel := k } ∨
    ∃ k' c1 n1 out1 c2 n2 out2, (m.ctx p).events.any = true ∧
      epollCtl k .del fd ⟨{}, .ptr p⟩ = .ok k' ∧
      triggerIf ((m.ctx p).events &&& READ).any READ (m.ctx p) m.pendingEventCount =
        .ok (c1, n1, out1) ∧
      triggerIf (c1.events &&& WRITE).any WRITE c1 n1 = .ok (c2, n2, out2) ∧ c2.events = NONE ∧
      e = { iom := m.update p c2 n2, kernel := k', scheduled := out1 ++ out2 } := by
  simp only [cancelAllLocked] at h
  cases hany : (m.ctx p).events.any
  · simp_all
  · cases hk : epollCtl k .del fd ⟨{}, .ptr p⟩ with
    | error _ => simp_all
    | ok k' =>
      cases h1 : triggerIf ((m.ctx p).events &&& READ).any READ (m.ctx p) m.pendingEventCount with
      | error _ => simp_all
      | ok r1 =>
        obtain ⟨c1, n1, out1⟩ := r1
        cases h2 : triggerIf (c1.events &&& WRITE).any WRITE c1 n1 with
        | error _ => simp_all
        | ok r2 =>
          obtain ⟨c2, n2, out2⟩ := r2
          by_cases hz : c2.events = NONE
          · simp only [hany, hk, h1, h2, hz, Bool.true_eq_false, if_false, ne_eq,
              not_true_eq_false, Except.ok.injEq, Prod.mk.injEq] at h
            exact .inr ⟨k', c1, n1, out1, c2, n2, out2, rfl, rfl, rfl, h2, hz, h.1.symm⟩
          · simp [hany, hk, h1, h2, hz] at h

theorem dispatch_ok {m : IOManager} {k : Kernel} {tickleFd : Int} {ev : EpollEvent} {e : Effect}
    (h : dispatch m k tickleFd ev = .ok e) :
    e = { iom := m, kernel := k } ∨
    ∃ p k' c1 n1 out1 c2 n2 out2, ev.data = .ptr p ∧
      ((m.ctx p).events &&& realEvents ev.events (m.ctx p).events).any = true ∧
      epollCtl k (if ((m.ctx p).events &&& ~~~realEvents ev.events (m.ctx p).events).any then .mod
        else .del) (m.ctx p).fd
        ⟨((m.ctx p).events &&& ~~~realEvents ev.events (m.ctx p).events).withET, .ptr p⟩ = .ok k' ∧
      triggerIf (realEvents ev.events (m.ctx p).events).read READ (m.ctx p) m.pendingEventCount =
        .ok (c1, n1, out1) ∧
      triggerIf (realEvents ev.events (m.ctx p).events).write WRITE c1 n1 = .ok (c2, n2, out2) ∧
      e = { iom := m.update p c2 n2, kernel := k', scheduled := out1 ++ out2 } := by
  obtain ⟨evs, data⟩ := ev
  cases data with
  | fd n =>
    simp only [dispatch] at h
    split at h
    · exact .inl (by cases h; rfl)
    · cases h
  | ptr p =>
    simp only [dispatch] at h
    cases hset : ((m.ctx p).events &&& realEvents evs (m.ctx p).events).any
    · simp only [hset, if_true] at h; exact .inl (by cases h; rfl)
    · cases hk : epollCtl k (if ((m.ctx p).events &&& ~~~realEvents evs (m.ctx p).events).any
          then .mod else .del) (m.ctx p).fd
          ⟨((m.ctx p).events &&& ~~~realEvents evs (m.ctx p).events).withET, .ptr p⟩ with
      | error _ =>
        simp only [hset, hk, Bool.true_eq_false, if_false] at h; exact .inl (by cases h; rfl)
      | ok k' =>
        cases h1 : triggerIf (realEvents evs (m.ctx p).events).read READ (m.ctx p)
            m.pendingEventCount with
        | error _ => simp only [hset, hk, h1, Bool.true_eq_false, if_false] at h; cases h
        | ok r1 =>
          obtain ⟨c1, n1, out1⟩ := r1
          cases h2 : triggerIf (realEvents evs (m.ctx p).events).write WRITE c1 n1 with
          | error _ => simp only [hset, hk, h1, h2, Bool.true_eq_false, if_false] at h; cases h
          | ok r2 =>
            obtain ⟨c2, n2, out2⟩ := r2
            simp only [hset, hk, h1, h2, Bool.true_eq_false, if_false, Except.ok.injEq] at h
            exact .inr ⟨p, k', c1, n1, out1, c2, n2, out2, rfl, hset, hk, h1, h2, h.symm⟩

/-! ### The idle loop's `epoll_wait` timeout -/

/-- `~0ull`, what `getNextTimer()` returns when there is no timer. -/
def noTimer : Nat := 2 ^ 64 - 1

/-- **The timeout `IOManager::idle` passes to `epoll_wait`** for the `uint64_t` `next_timeout` that
`stopping(next_timeout)` took from `getNextTimer()`: `MAX_TIMEOUT` (`3000`) for `~0ull`, else
`(int)next_timeout > MAX_TIMEOUT ? MAX_TIMEOUT : next_timeout` (an `uint64_t`), and the call gets
`(int)next_timeout`. -/
def idleTimeout (next : Nat) : Int :=
  let next : Nat := if next ≠ noTimer then (if toInt32 next > 3000 then 3000 else next) else 3000
  toInt32 next

/-- **The idle loop's timeout is not always capped.** For every `uint64_t` that `getNextTimer()`
returns, `epoll_wait` gets at most `3000`, at most the value itself when it is not `~0ull`, and
exactly `3000` for `~0ull`; but it gets a negative timeout, on which `epoll_wait` blocks with no
limit, exactly for the other values whose low 32 bits read as a negative `int`: the cap compares
`(int)next_timeout`, which is negative there. -/
theorem idle_timeout_negative (t : Nat) :
    idleTimeout t ≤ 3000 ∧ (t ≠ noTimer → idleTimeout t ≤ t) ∧
      (t = noTimer → idleTimeout t = 3000) ∧
      (idleTimeout t < 0 ↔ t ≠ noTimer ∧ 2 ^ 31 ≤ t % 2 ^ 32) := by
  have hmax : noTimer = 18446744073709551615 := rfl
  unfold idleTimeout
  split_ifs <;> simp only [toInt32_eq] at * <;> omega

example : idleTimeout (2 ^ 31) = -2 ^ 31 := by decide

end Sylar.IOManager.Ops
