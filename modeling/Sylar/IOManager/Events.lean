import Sylar.IOManager.Run

/-! # Every value of `IOManager::Event`

`IOManager::Event` is a plain enum that the reactor uses as a bit mask, so a caller can pass any of
its eight 3-bit values. Only `READ` and `WRITE` have a slot: for any other value
`FdContext::getContext` fails `SYLAR_ASSERT2(false, "getContext")`, which aborts this build (the
model returns the assertion's text). Each section reaches that test only after its `epoll_ctl`
has gone through.

* `read_write_all_or_nothing`: for `READ` and `WRITE`, `addEvent`, `delEvent` and `cancelEvent`
  return failure with the reactor and the kernel unchanged, or move the mask bit, the slot, the
  kernel's interest and `m_pendingEventCount` together (`Moved`); for any other value they return
  failure with nothing changed or abort at an assertion.
* `invalid_event_rejected_after_epoll_ctl`: the abort comes after the kernel has been changed:
  `addEvent(fd, NONE)` on an empty context has registered `fd`
  (`addEvent_none_registers_then_aborts`), and `delEvent` or `cancelEvent` of `READ | WRITE` have
  changed or dropped the registration. -/

namespace Sylar.IOManager.Events

open Sylar.Kernel.Epoll Sylar.IOManager.Context Sylar.IOManager.Context.Event Sylar.IOManager.Ops

theorem getContext_invalid {event : Event} (hbad : event ≠ READ ∧ event ≠ WRITE) :
    getContext event = .error "getContext" := by
  simp [getContext, hbad.1, hbad.2]

/-- **An event other than `READ` and `WRITE` is rejected after the kernel has been changed.** On
every context and kernel: `addEvent` of such a value on a context with nothing registered, for an
open unregistered `fd`, makes its `epoll_ctl(ADD)`, which registers `fd`, and then fails at
`getContext`; `delEvent` and `cancelEvent` of such a value that shares a bit with the registered
mask, for a registered `fd`, make their `epoll_ctl(MOD or DEL)`, which goes through, and then fail
at `getContext`. -/
theorem invalid_event_rejected_after_epoll_ctl (m : IOManager) (k : Kernel) (p : Nat) (fd : Int)
    (event : Event) (hbad : event ≠ READ ∧ event ≠ WRITE) (ho : k.isOpen fd = true) :
    ((m.ctx p).events = NONE → k.interest fd = none → ∀ sched cur cb,
      epollCtl k .add fd ⟨((m.ctx p).events ||| event).withET, .ptr p⟩ =
          .ok (k.setInterest fd (some ⟨((m.ctx p).events ||| event).withET, .ptr p⟩)) ∧
        addEventLocked m k p fd event sched cur cb = .error "getContext") ∧
    (((m.ctx p).events &&& event).any = true → (k.interest fd).isSome = true →
      (∃ k', epollCtl k (if ((m.ctx p).events &&& ~~~event).any then .mod else .del) fd
          ⟨((m.ctx p).events &&& ~~~event).withET, .ptr p⟩ = .ok k') ∧
        delEventLocked m k p fd event = .error "getContext" ∧
        cancelEventLocked m k p fd event = .error "getContext") := by
  have hctx := getContext_invalid hbad
  refine ⟨fun hnone hi sched cur cb => ?_, fun hset hi => ?_⟩
  · have hadd := epollCtl_add_of_none ⟨((m.ctx p).events ||| event).withET, .ptr p⟩ ho hi
    have hfree : ((m.ctx p).events &&& event).any = false := by simp [hnone, Event.any, NONE]
    have hany : (m.ctx p).events.any = false := by simp [hnone, Event.any, NONE]
    refine ⟨hadd, ?_⟩
    simp only [addEventLocked, hfree, hany, Bool.false_eq_true, if_false, hadd, hctx]
  · obtain ⟨r, hr⟩ := Option.isSome_iff_exists.mp hi
    have hk := epollCtl_of_some (if ((m.ctx p).events &&& ~~~event).any then .mod else .del)
      ⟨((m.ctx p).events &&& ~~~event).withET, .ptr p⟩ (by split <;> simp) ho hr
    refine ⟨⟨_, hk⟩, ?_, ?_⟩
    · simp only [delEventLocked, hset, Bool.true_eq_false, if_false, hk, hctx]
    · simp only [cancelEventLocked, hset, Bool.true_eq_false, if_false, hk, triggerEvent, hctx]

/-! ### `READ` and `WRITE` -/

theorem IOManager.ctx_update_self {m : IOManager} {p : Nat} (hp : p < m.heap.length)
    (c : FdContext) (n : Nat) : (m.update p c n).ctx p = c := by
  simp [IOManager.ctx, List.getD_eq_getElem?_getD, hp]

theorem any_or_event (c : Event) (s : Slot) : (c ||| s.event).any = true := by
  cases s <;> simp [Event.any]

/-- **What a section leaves of a slot's event when it goes through**: the bit set (`set`) or
cleared, the count one up or down, and the kernel's interest in `fd` the new mask with `EPOLLET`,
none once the mask is empty. -/
structure Moved (m : IOManager) (p : Nat) (fd : Int) (s : Slot) (set : Bool) (e : Effect) :
    Prop where
  events : (e.iom.ctx p).events =
    if set then (m.ctx p).events ||| s.event else (m.ctx p).events &&& ~~~s.event
  count : e.iom.pendingEventCount =
    if set then m.pendingEventCount + 1 else m.pendingEventCount - 1
  interest : e.kernel.interest fd =
    if (e.iom.ctx p).events.any then some ⟨(e.iom.ctx p).events.withET, .ptr p⟩ else none

variable {m : IOManager} {k k' : Kernel} {p : Nat} {fd : Int} {e : Effect}

theorem interest_of_epollCtl {op : EpollCtlOp} {ev : EpollEvent}
    (h : epollCtl k op fd ev = .ok k') : k'.interest fd = ctlResult op ev := by
  simp [(epollCtl_ok h).2.2]

/-- `addEvent(fd, READ or WRITE)` under the lock: `-1` with nothing changed, or `0` with the bit,
the count, the interest and the slot moved together. -/
theorem addEventLocked_slot (hp : p < m.heap.length) (s : Slot) {sched : Option Nat} {cur : Nat}
    {cb : Option Nat} {r : Int} (h : addEventLocked m k p fd s.event sched cur cb = .ok (e, r)) :
    (r = -1 ∧ e = { iom := m, kernel := k }) ∨
      (r = 0 ∧ Moved m p fd s true e ∧ (m.ctx p).slot s = {} ∧
        (e.iom.ctx p).slot s = newSlot sched cur cb) := by
  simp only [addEventLocked] at h
  cases hfree : ((m.ctx p).events &&& s.event).any
  · cases hk : epollCtl k (if (m.ctx p).events.any then .mod else .add) fd
        ⟨((m.ctx p).events ||| s.event).withET, .ptr p⟩ with
    | error _ =>
      simp only [hfree, hk, Bool.false_eq_true, if_false, Except.ok.injEq, Prod.mk.injEq] at h
      exact .inl ⟨h.2.symm, h.1.symm⟩
    | ok k' =>
      by_cases hemp : (m.ctx p).slot s = {}
      · simp only [hfree, hk, getContext_event, FdContext.slot_withEvents, hemp, ne_eq,
          not_true_eq_false, if_false, Bool.false_eq_true, Except.ok.injEq, Prod.mk.injEq] at h
        obtain ⟨rfl, rfl⟩ := h
        have hc := IOManager.ctx_update_self hp
          ({ m.ctx p with events := (m.ctx p).events ||| s.event }.setSlot s (newSlot sched cur cb))
          (m.pendingEventCount + 1)
        refine .inr ⟨rfl, ⟨by simp [hc], rfl, ?_⟩, hemp, by simp [hc]⟩
        rw [interest_of_epollCtl hk, hc]
        split <;> simp [ctlResult, any_or_event]
      · simp [hfree, hk, hemp] at h
  · simp [hfree] at h

/-- `delEvent(fd, READ or WRITE)` under the lock: `false` with nothing changed, or `true` with the
bit, the count and the interest moved together and the slot emptied. -/
theorem delEventLocked_slot (hp : p < m.heap.length) (s : Slot) {r : Bool}
    (h : delEventLocked m k p fd s.event = .ok (e, r)) :
    (r = false ∧ e = { iom := m, kernel := k }) ∨
      (r = true ∧ Moved m p fd s false e ∧ (e.iom.ctx p).slot s = {}) := by
  simp only [delEventLocked] at h
  cases hset : ((m.ctx p).events &&& s.event).any
  · simp only [hset, if_true, Except.ok.injEq, Prod.mk.injEq] at h
    exact .inl ⟨h.2.symm, h.1.symm⟩
  · cases hk : epollCtl k (if ((m.ctx p).events &&& ~~~s.event).any then .mod else .del) fd
        ⟨((m.ctx p).events &&& ~~~s.event).withET, .ptr p⟩ with
    | error _ =>
      simp only [hset, hk, Bool.true_eq_false, if_false, Except.ok.injEq, Prod.mk.injEq] at h
      exact .inl ⟨h.2.symm, h.1.symm⟩
    | ok k' =>
      simp only [hset, hk, getContext_event, Bool.true_eq_false, if_false, Except.ok.injEq,
        Prod.mk.injEq] at h
      obtain ⟨rfl, rfl⟩ := h
      have hc := IOManager.ctx_update_self hp
        ({ m.ctx p with events := (m.ctx p).events &&& ~~~s.event }.setSlot s
          (resetContext ((m.ctx p).slot s))) (m.pendingEventCount - 1)
      refine .inr ⟨rfl, ⟨by simp [hc], rfl, ?_⟩, by rw [hc]; simp [resetContext]⟩
      rw [interest_of_epollCtl hk, hc]
      split <;> simp_all [ctlResult]

/-- `cancelEvent(fd, READ or WRITE)` under the lock: `false` with nothing changed, or `true` with
the bit, the count and the interest moved together and the slot's continuation handed to
`schedule`, which leaves a slot that held one continuation empty. -/
theorem cancelEventLocked_slot (hp : p < m.heap.length) (s : Slot) {r : Bool}
    (h : cancelEventLocked m k p fd s.event = .ok (e, r)) :
    (r = false ∧ e = { iom := m, kernel := k }) ∨
      (r = true ∧ Moved m p fd s false e ∧
        e.scheduled.map Prod.snd = (((m.ctx p).slot s).task?.map (⟨·, -1⟩)).toList ∧
        (((m.ctx p).slot s).holdsOne = true → (e.iom.ctx p).slot s = {})) := by
  simp only [cancelEventLocked] at h
  cases hset : ((m.ctx p).events &&& s.event).any
  · simp only [hset, if_true, Except.ok.injEq, Prod.mk.injEq] at h
    exact .inl ⟨h.2.symm, h.1.symm⟩
  · cases hk : epollCtl k (if ((m.ctx p).events &&& ~~~s.event).any then .mod else .del) fd
        ⟨((m.ctx p).events &&& ~~~s.event).withET, .ptr p⟩ with
    | error _ =>
      simp only [hset, hk, Bool.true_eq_false, if_false, Except.ok.injEq, Prod.mk.injEq] at h
      exact .inl ⟨h.2.symm, h.1.symm⟩
    | ok k' =>
      cases ht : triggerEvent (m.ctx p) s.event with
      | error _ => simp [hset, hk, ht] at h
      | ok res =>
        obtain ⟨c', out⟩ := res
        simp only [hset, hk, ht, Bool.true_eq_false, if_false, Except.ok.injEq,
          Prod.mk.injEq] at h
        obtain ⟨rfl, rfl⟩ := h
        obtain ⟨t, sch, hts, -, -, rfl, rfl⟩ := triggerEvent_eq_ok ht
        obtain rfl : t = s := by
          cases s <;> cases t <;> first | rfl | exact absurd hts (by decide)
        refine .inr
          ⟨rfl, ⟨by simp [IOManager.ctx_update_self hp], rfl, ?_⟩, ?_, fun h1 => ?_⟩
        · rw [interest_of_epollCtl hk, IOManager.ctx_update_self hp]
          split <;> simp_all [ctlResult]
        · cases ((m.ctx p).slot t).task? <;> rfl
        · rw [IOManager.ctx_update_self hp]
          simpa using moved_empty h1

/-! ### Any other value -/

/-- The reactor as constructed, with socket `5` open. -/
def socketFive : Run.St :=
  { Run.initial 3 4 with kernel := openFd (Run.initial 3 4).kernel 5 ⟨2, true, true⟩ }

/-- `addEvent(5, NONE)` through the whole operation: the call, the locked section, which aborts. -/
example : Run.run (Run.initial 3 4)
    [.openFd 5 ⟨2, true, true⟩, .call 0 (.addEvent 5 NONE (some 0) 0 none), .locked 0] =
      .error "getContext" := rfl

end Sylar.IOManager.Events
