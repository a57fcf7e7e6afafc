import Sylar.Kernel.Epoll
import Sylar.Scheduler.Queue

/-! # Event masks and `IOManager::FdContext`

`IOManager::Event` is used as a bit mask (`events & event`, `events | event`, `events & ~event`);
its values are the 3-bit masks, bit 0 being `READ` (`EPOLLIN`) and bit 2 `WRITE` (`EPOLLOUT`). An
`FdContext` holds the registered mask and one `EventContext` slot per event: the scheduler to hand
the continuation to, and the continuation, a fiber or a callback.

`triggerEvent` is the one place a parked continuation leaves its slot: it asserts the event is
registered, clears it from the mask, and calls `ctx.scheduler->schedule(&ctx.cb)` (or `&ctx.fiber`),
whose pointer constructor moves the callable out of the slot (`triggerEvent_eq_ok`). A failed
`SYLAR_ASSERT` aborts the process (the build defines no `NDEBUG`): the model returns the assertion's
text as an error. -/

namespace Sylar.IOManager.Context

open Sylar.Kernel.Epoll Sylar.Scheduler.Queue

/-! ### `IOManager::Event` -/

/-- **`IOManager::Event`** (`NONE = 0x0`, `READ = 0x1`, `WRITE = 0x4`) as the 3-bit mask it is
used as. -/
@[ext] structure Event where
  read : Bool
  bit1 : Bool
  write : Bool
deriving DecidableEq, Repr

namespace Event

def NONE : Event := ⟨false, false, false⟩
def READ : Event := ⟨true, false, false⟩
def WRITE : Event := ⟨false, false, true⟩

instance : AndOp Event := ⟨fun a b => ⟨a.read && b.read, a.bit1 && b.bit1, a.write && b.write⟩⟩
instance : OrOp Event := ⟨fun a b => ⟨a.read || b.read, a.bit1 || b.bit1, a.write || b.write⟩⟩
instance : Complement Event := ⟨fun a => ⟨!a.read, !a.bit1, !a.write⟩⟩

/-- The mask as a C++ condition: non-zero. -/
def any (e : Event) : Bool := e.read || e.bit1 || e.write

/-- `EPOLLET | e`, the mask the reactor hands to `epoll_ctl`. -/
def withET (e : Event) : EpollMask :=
  { epollin := e.read, epollpri := e.bit1, epollout := e.write, epollet := true }

@[simp] theorem and_read (a b : Event) : (a &&& b).read = (a.read && b.read) := rfl
@[simp] theorem and_bit1 (a b : Event) : (a &&& b).bit1 = (a.bit1 && b.bit1) := rfl
@[simp] theorem and_write (a b : Event) : (a &&& b).write = (a.write && b.write) := rfl
@[simp] theorem or_read (a b : Event) : (a ||| b).read = (a.read || b.read) := rfl
@[simp] theorem or_bit1 (a b : Event) : (a ||| b).bit1 = (a.bit1 || b.bit1) := rfl
@[simp] theorem or_write (a b : Event) : (a ||| b).write = (a.write || b.write) := rfl
@[simp] theorem compl_read (a : Event) : (~~~a).read = !a.read := rfl
@[simp] theorem compl_bit1 (a : Event) : (~~~a).bit1 = !a.bit1 := rfl
@[simp] theorem compl_write (a : Event) : (~~~a).write = !a.write := rfl
@[simp] theorem READ_read : READ.read = true := rfl
@[simp] theorem READ_bit1 : READ.bit1 = false := rfl
@[simp] theorem READ_write : READ.write = false := rfl
@[simp] theorem WRITE_read : WRITE.read = false := rfl
@[simp] theorem WRITE_bit1 : WRITE.bit1 = false := rfl
@[simp] theorem WRITE_write : WRITE.write = true := rfl
@[simp] theorem NONE_read : NONE.read = false := rfl
@[simp] theorem NONE_bit1 : NONE.bit1 = false := rfl
@[simp] theorem NONE_write : NONE.write = false := rfl

theorem any_eq_false_iff (e : Event) : e.any = false ↔ e = NONE := by
  cases e; simp [any, NONE, and_assoc]

end Event

open Event

/-! ### Slots and contexts -/

/-- **`FdContext::EventContext`**: `scheduler`, `fiber` and `cb`; `none` is `nullptr`/empty. -/
structure EventContext where
  scheduler : Option Nat := none
  fiber : Option Nat := none
  cb : Option Nat := none
deriving DecidableEq, Repr

/-- The continuation `triggerEvent` would hand off: the callback if there is one, else the fiber. -/
def EventContext.task? (ctx : EventContext) : Option Task :=
  match ctx.cb with
  | some c => some (.cb c)
  | none => ctx.fiber.map .fiber

/-- The slot holds exactly one of a fiber or a callback. -/
def EventContext.holdsOne (ctx : EventContext) : Bool := ctx.fiber.isSome != ctx.cb.isSome

/-- **`IOManager::FdContext`** (its mutex is the atomicity of each locked section). -/
structure FdContext where
  read : EventContext := {}
  write : EventContext := {}
  fd : Int := 0
  events : Event := NONE
deriving DecidableEq, Repr

/-- The two slots. -/
inductive Slot
  | read
  | write
deriving DecidableEq, Repr

namespace FdContext

def slot (c : FdContext) : Slot → EventContext
  | .read => c.read
  | .write => c.write

def setSlot (c : FdContext) : Slot → EventContext → FdContext
  | .read, x => { c with read := x }
  | .write, x => { c with write := x }

@[simp] theorem setSlot_fd (c : FdContext) (s : Slot) (x : EventContext) :
    (c.setSlot s x).fd = c.fd := by cases s <;> rfl

@[simp] theorem setSlot_events (c : FdContext) (s : Slot) (x : EventContext) :
    (c.setSlot s x).events = c.events := by cases s <;> rfl

@[simp] theorem slot_setSlot (c : FdContext) (s t : Slot) (x : EventContext) :
    (c.setSlot s x).slot t = if s = t then x else c.slot t := by
  cases s <;> cases t <;> rfl

@[simp] theorem slot_withEvents (c : FdContext) (e : Event) (s : Slot) :
    ({ c with events := e } : FdContext).slot s = c.slot s := by
  cases s <;> rfl

end FdContext

/-- **`FdContext::getContext(event)`**: `READ` and `WRITE` select their slot; any other value
fails `SYLAR_ASSERT2(false, "getContext")`. -/
def getContext (event : Event) : Except String Slot :=
  if event = READ then .ok .read
  else if event = WRITE then .ok .write
  else .error "getContext"

/-- The event a slot belongs to. -/
def Slot.event : Slot → Event
  | .read => READ
  | .write => WRITE

/-- The slot's event is in the mask `e`. -/
def Slot.mem (s : Slot) (e : Event) : Bool :=
  match s with
  | .read => e.read
  | .write => e.write

@[simp] theorem Slot.mem_read (e : Event) : Slot.read.mem e = e.read := rfl
@[simp] theorem Slot.mem_write (e : Event) : Slot.write.mem e = e.write := rfl
@[simp] theorem Slot.event_read : Slot.read.event = READ := rfl
@[simp] theorem Slot.event_write : Slot.write.event = WRITE := rfl

/-- The context with the event of slot `s` cleared and the slot emptied: what `delEvent` leaves,
and what `triggerEvent` leaves of a well-formed slot. -/
def FdContext.clear (c : FdContext) (s : Slot) : FdContext :=
  { c with events := c.events &&& ~~~s.event }.setSlot s {}

theorem getContext_ok {event : Event} {s : Slot} (h : getContext event = .ok s) :
    event = s.event := by
  unfold getContext at h
  split at h
  · cases h; assumption
  · split at h
    · cases h; assumption
    · cases h

@[simp] theorem getContext_event (s : Slot) : getContext s.event = .ok s := by
  cases s <;> rfl

/-- **`FdContext::resetContext`**: the slot is emptied. -/
def resetContext (_ : EventContext) : EventContext := {}

/-! ### `triggerEvent` -/

/-- **`FdContext::triggerEvent(event)`**: `SYLAR_ASSERT(events & event)`, clear the event, and hand
the slot's callback (else its fiber) to `ctx.scheduler->schedule` with thread `-1`, which moves it
out of the slot; then `ctx.scheduler = nullptr`. Calling through a null scheduler is a crash. The
result is the context and the entries passed to `schedule`, tagged by the scheduler. -/
def triggerEvent (c : FdContext) (event : Event) :
    Except String (FdContext × List (Nat × FiberAndThread)) :=
  if (c.events &&& event).any = false then .error "events & event" else
  let c := { c with events := c.events &&& ~~~event }
  match getContext event with
  | .error msg => .error msg
  | .ok s =>
    let ctx := c.slot s
    match ctx.scheduler with
    | none => .error "ctx.scheduler->schedule"
    | some sch =>
      let moved : EventContext :=
        if ctx.cb.isSome then { ctx with cb := none } else { ctx with fiber := none }
      .ok (c.setSlot s { moved with scheduler := none },
        (ctx.task?.map fun t => (sch, ⟨t, -1⟩)).toList)

/-- Everything a successful `triggerEvent` did. -/
theorem triggerEvent_eq_ok {c c' : FdContext} {event : Event}
    {out : List (Nat × FiberAndThread)} (h : triggerEvent c event = .ok (c', out)) :
    ∃ s sch, event = s.event ∧ (c.events &&& event).any = true ∧ (c.slot s).scheduler = some sch ∧
      c' = { c with events := c.events &&& ~~~event }.setSlot s
        { (if (c.slot s).cb.isSome then { c.slot s with cb := none }
           else { c.slot s with fiber := none }) with scheduler := none } ∧
      out = ((c.slot s).task?.map fun t => (sch, ⟨t, -1⟩)).toList := by
  unfold triggerEvent at h
  split at h
  · cases h
  · rename_i hany
    split at h
    · cases h
    · rename_i s hs
      have hslot : ({ c with events := c.events &&& ~~~event } : FdContext).slot s = c.slot s := by
        cases s <;> rfl
      simp only [hslot] at h
      split at h
      · cases h
      · rename_i sch hsch
        cases h
        exact ⟨s, sch, getContext_ok hs, by simpa using hany, hsch, rfl, rfl⟩

/-- A slot that holds exactly one continuation is left empty by the hand-off. -/
theorem moved_empty {ctx : EventContext} (h : ctx.holdsOne = true) :
    { (if ctx.cb.isSome then { ctx with cb := none } else { ctx with fiber := none }) with
      scheduler := none } = {} := by
  obtain ⟨sch, f, cb⟩ := ctx
  cases f <;> cases cb <;> simp_all [EventContext.holdsOne]

end Sylar.IOManager.Context
