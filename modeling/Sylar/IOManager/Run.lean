import Sylar.IOManager.Ops

/-! # The reactor under concurrent threads

Any number of threads use one `IOManager`. Each operation is split at its locks, as the code is:

* `call t op`: the read-locked lookup of `m_fdContexts` (`delEvent`, `cancelEvent`, `cancelAll`
  return `false` when the vector is too short; `addEvent` then goes on to `resize`);
* `resize t`: `addEvent`'s write-locked `contextResize(fd * 1.5)` and lookup;
* `locked t`: the section under `fd_ctx->mutex`, on the pointer read before.

The idle loop is split the same way: `epollWait t` fills thread `t`'s batch with the records the
kernel reports, and each `dispatch t` handles the next record under its context's lock. Between
any two of these steps every other thread may run, so a record may be handled after the
registration it reports has changed. `openFd`, `closeFd` and `setNonblock` are the raw
`socket`/`accept`, `close` and `fcntl(F_SETFL)` of any thread.

An assertion that fails aborts the process: `step` then returns the assertion's text, and
`ReachableBy` only follows steps that return a state. -/

namespace Sylar.IOManager.Run

open Sylar.Kernel.Epoll Sylar.Scheduler.Queue Sylar.IOManager.Context Sylar.IOManager.Ops

/-- A reactor operation and its arguments (`sched` and `cur` are the calling thread's
`Scheduler::GetThis()` and `Fiber::GetThis()`). -/
inductive Op
  | addEvent (fd : Int) (event : Event) (sched : Option Nat) (cur : Nat) (cb : Option Nat)
  | delEvent (fd : Int) (event : Event)
  | cancelEvent (fd : Int) (event : Event)
  | cancelAll (fd : Int)
deriving DecidableEq, Repr

def Op.fd : Op → Int
  | .addEvent fd .. => fd
  | .delEvent fd _ => fd
  | .cancelEvent fd _ => fd
  | .cancelAll fd => fd

/-- Where a thread is between the lock sections of an operation. -/
inductive Phase
  | free
  | resizing (op : Op)
  | holding (p : Nat) (op : Op)
deriving DecidableEq, Repr

/-- The reactor, the kernel, the threads, and every entry passed to `Scheduler::schedule` so far;
`stored` and `discarded` record what `addEvent` parked and `delEvent` dropped. -/
structure St where
  iom : IOManager
  kernel : Kernel
  tickleFd : Int
  phase : Nat → Phase
  batch : Nat → List EpollEvent
  scheduled : List (Nat × FiberAndThread)
  stored : List Task
  discarded : List Task

namespace St

def setPhase (s : St) (t : Nat) (ph : Phase) : St := { s with phase := Function.update s.phase t ph }

def setBatch (s : St) (t : Nat) (b : List EpollEvent) : St :=
  { s with batch := Function.update s.batch t b }

/-- The state after a locked section. -/
def apply (s : St) (e : Effect) : St :=
  { s with iom := e.iom, kernel := e.kernel, scheduled := s.scheduled ++ e.scheduled,
           stored := s.stored ++ e.stored, discarded := s.discarded ++ e.discarded }

@[simp] theorem setPhase_iom (s : St) (t : Nat) (ph : Phase) : (s.setPhase t ph).iom = s.iom := rfl
@[simp] theorem setPhase_kernel (s : St) (t : Nat) (ph : Phase) :
    (s.setPhase t ph).kernel = s.kernel := rfl
@[simp] theorem setPhase_batch (s : St) (t : Nat) (ph : Phase) :
    (s.setPhase t ph).batch = s.batch := rfl
@[simp] theorem setPhase_phase (s : St) (t : Nat) (ph : Phase) :
    (s.setPhase t ph).phase = Function.update s.phase t ph := rfl
@[simp] theorem setPhase_scheduled (s : St) (t : Nat) (ph : Phase) :
    (s.setPhase t ph).scheduled = s.scheduled := rfl
@[simp] theorem setPhase_stored (s : St) (t : Nat) (ph : Phase) :
    (s.setPhase t ph).stored = s.stored := rfl
@[simp] theorem setPhase_discarded (s : St) (t : Nat) (ph : Phase) :
    (s.setPhase t ph).discarded = s.discarded := rfl
@[simp] theorem setPhase_tickleFd (s : St) (t : Nat) (ph : Phase) :
    (s.setPhase t ph).tickleFd = s.tickleFd := rfl
@[simp] theorem setBatch_iom (s : St) (t : Nat) (b : List EpollEvent) :
    (s.setBatch t b).iom = s.iom := rfl
@[simp] theorem setBatch_kernel (s : St) (t : Nat) (b : List EpollEvent) :
    (s.setBatch t b).kernel = s.kernel := rfl
@[simp] theorem setBatch_batch (s : St) (t : Nat) (b : List EpollEvent) :
    (s.setBatch t b).batch = Function.update s.batch t b := rfl
@[simp] theorem setBatch_phase (s : St) (t : Nat) (b : List EpollEvent) :
    (s.setBatch t b).phase = s.phase := rfl
@[simp] theorem setBatch_scheduled (s : St) (t : Nat) (b : List EpollEvent) :
    (s.setBatch t b).scheduled = s.scheduled := rfl
@[simp] theorem setBatch_stored (s : St) (t : Nat) (b : List EpollEvent) :
    (s.setBatch t b).stored = s.stored := rfl
@[simp] theorem setBatch_discarded (s : St) (t : Nat) (b : List EpollEvent) :
    (s.setBatch t b).discarded = s.discarded := rfl
@[simp] theorem setBatch_tickleFd (s : St) (t : Nat) (b : List EpollEvent) :
    (s.setBatch t b).tickleFd = s.tickleFd := rfl
@[simp] theorem apply_iom (s : St) (e : Effect) : (s.apply e).iom = e.iom := rfl
@[simp] theorem apply_kernel (s : St) (e : Effect) : (s.apply e).kernel = e.kernel := rfl
@[simp] theorem apply_phase (s : St) (e : Effect) : (s.apply e).phase = s.phase := rfl
@[simp] theorem apply_batch (s : St) (e : Effect) : (s.apply e).batch = s.batch := rfl
@[simp] theorem apply_tickleFd (s : St) (e : Effect) : (s.apply e).tickleFd = s.tickleFd := rfl
@[simp] theorem apply_scheduled (s : St) (e : Effect) :
    (s.apply e).scheduled = s.scheduled ++ e.scheduled := rfl
@[simp] theorem apply_stored (s : St) (e : Effect) : (s.apply e).stored = s.stored ++ e.stored := rfl
@[simp] theorem apply_discarded (s : St) (e : Effect) :
    (s.apply e).discarded = s.discarded ++ e.discarded := rfl

end St

/-- The locked section of `op` on the context at `p`. -/
def runLocked (s : St) (p : Nat) : Op → Except String St
  | .addEvent fd event sched cur cb =>
    (addEventLocked s.iom s.kernel p fd event sched cur cb).map fun r => s.apply r.1
  | .delEvent fd event => (delEventLocked s.iom s.kernel p fd event).map fun r => s.apply r.1
  | .cancelEvent fd event => (cancelEventLocked s.iom s.kernel p fd event).map fun r => s.apply r.1
  | .cancelAll fd => (cancelAllLocked s.iom s.kernel p fd).map fun r => s.apply r.1

/-- A step of one thread, or of the kernel. -/
inductive Action
  | call (t : Nat) (op : Op)
  | resize (t : Nat)
  | locked (t : Nat)
  | epollWait (t : Nat) (ready : List (Int × EpollMask))
  | dispatch (t : Nat)
  | openFd (fd : Int) (f : File)
  | closeFd (fd : Int)
  | setNonblock (fd : Int) (b : Bool)

/-- A thread is idle: in no operation and with no record left to handle. -/
def St.idle (s : St) (t : Nat) : Bool := s.phase t = .free && (s.batch t).isEmpty

/-- **One step.** A step its thread cannot take leaves the state as it is. -/
def step (s : St) : Action → Except String St
  | .call t op =>
    if s.idle t = false then .ok s else
    match lookup s.iom op.fd, op with
    | .error msg, _ => .error msg
    | .ok (some p), _ => .ok (s.setPhase t (.holding p op))
    | .ok none, .addEvent .. => .ok (s.setPhase t (.resizing op))
    | .ok none, _ => .ok s
  | .resize t =>
    match s.phase t with
    | .resizing op =>
      match resizeFor s.iom op.fd with
      | .error msg => .error msg
      | .ok (m, p) => .ok ({ s with iom := m }.setPhase t (.holding p op))
    | _ => .ok s
  | .locked t =>
    match s.phase t with
    | .holding p op => (runLocked s p op).map (·.setPhase t .free)
    | _ => .ok s
  | .epollWait t ready =>
    if s.idle t then .ok (s.setBatch t (epollWait s.kernel ready)) else .ok s
  | .dispatch t =>
    match s.batch t with
    | [] => .ok s
    | ev :: rest => (dispatch s.iom s.kernel s.tickleFd ev).map fun e => (s.apply e).setBatch t rest
  | .openFd fd f => .ok { s with kernel := openFd s.kernel fd f }
  | .closeFd fd => .ok { s with kernel := closeFd s.kernel fd }
  | .setNonblock fd b => .ok { s with kernel := s.kernel.setNonblock fd b }

/-- **The state after the constructor**: the tickle pipe `(r, w)` is open and `r` is registered
for `EPOLLIN | EPOLLET` with `data.fd = r`, and `contextResize(32)` has run. -/
def initial (r w : Int) : St where
  iom := contextResize ⟨0, [], []⟩ 32
  kernel :=
    { files := fun fd => if fd = r then some ⟨0, false, true⟩
                         else if fd = w then some ⟨1, false, false⟩ else none,
      interest := fun fd => if fd = r then some ⟨{ epollin := true, epollet := true }, .fd r⟩
                            else none }
  tickleFd := r
  phase := fun _ => .free
  batch := fun _ => []
  scheduled := []
  stored := []
  discarded := []

/-- **What a step does**, one case per branch of `step` that changes the state. -/
inductive StepCase : St → Action → St → Prop
  | stutter (s : St) (a : Action) : StepCase s a s
  | call {s : St} {t : Nat} {op : Op} {p : Nat} : s.idle t = true →
      lookup s.iom op.fd = .ok (some p) → StepCase s (.call t op) (s.setPhase t (.holding p op))
  | callResize {s : St} {t : Nat} {op : Op} : s.idle t = true → lookup s.iom op.fd = .ok none →
      StepCase s (.call t op) (s.setPhase t (.resizing op))
  | resize {s : St} {t : Nat} {op : Op} {m : IOManager} {p : Nat} : s.phase t = .resizing op →
      resizeFor s.iom op.fd = .ok (m, p) →
      StepCase s (.resize t) ({ s with iom := m }.setPhase t (.holding p op))
  | locked {s s₁ : St} {t p : Nat} {op : Op} : s.phase t = .holding p op →
      runLocked s p op = .ok s₁ → StepCase s (.locked t) (s₁.setPhase t .free)
  | epollWait {s : St} {t : Nat} {ready : List (Int × EpollMask)} : s.idle t = true →
      StepCase s (.epollWait t ready) (s.setBatch t (epollWait s.kernel ready))
  | dispatch {s : St} {t : Nat} {ev : EpollEvent} {rest : List EpollEvent} {e : Effect} :
      s.batch t = ev :: rest → dispatch s.iom s.kernel s.tickleFd ev = .ok e →
      StepCase s (.dispatch t) ((s.apply e).setBatch t rest)
  | openFd (s : St) (fd : Int) (f : File) : StepCase s (.openFd fd f) { s with kernel := openFd s.kernel fd f }
  | closeFd (s : St) (fd : Int) : StepCase s (.closeFd fd) { s with kernel := closeFd s.kernel fd }
  | setNonblock (s : St) (fd : Int) (b : Bool) :
      StepCase s (.setNonblock fd b) { s with kernel := s.kernel.setNonblock fd b }

theorem stepCase_of_step {s s' : St} {a : Action} (h : step s a = .ok s') : StepCase s a s' := by
  cases a with
  | call t op =>
    simp only [step] at h
    split at h
    · cases h; exact .stutter _ _
    · rename_i hidle
      have hidle : s.idle t = true := by simpa using hidle
      split at h <;> cases h
      exacts [.call hidle ‹_›, .callResize hidle ‹_›, .stutter _ _]
  | resize t =>
    simp only [step] at h
    split at h
    · split at h <;> cases h
      exact .resize ‹_› ‹_›
    · cases h; exact .stutter _ _
  | locked t =>
    simp only [step] at h
    split at h
    · obtain ⟨s₁, h₁, rfl⟩ := exists_of_map_eq_ok h
      exact .locked ‹_› h₁
    · cases h; exact .stutter _ _
  | epollWait t ready =>
    simp only [step] at h
    split at h <;> cases h
    exacts [.epollWait ‹_›, .stutter _ _]
  | dispatch t =>
    simp only [step] at h
    split at h
    · cases h; exact .stutter _ _
    · obtain ⟨e, h₁, rfl⟩ := exists_of_map_eq_ok h
      exact .dispatch ‹_› h₁
  | openFd fd f => cases h; exact .openFd s fd f
  | closeFd fd => cases h; exact .closeFd s fd
  | setNonblock fd b => cases h; exact .setNonblock s fd b

/-- The states reached from a constructed reactor by steps that `allowed` admits. -/
inductive ReachableBy (allowed : St → Action → Prop) : St → Prop
  | init (r w : Int) : r ≠ w → ReachableBy allowed (initial r w)
  | step {s s' : St} (a : Action) : ReachableBy allowed s → allowed s a → step s a = .ok s' →
      ReachableBy allowed s'

/-- Every interleaving. -/
abbrev Reachable : St → Prop := ReachableBy fun _ _ => True

theorem ReachableBy.reachable {allowed : St → Action → Prop} {s : St} (h : ReachableBy allowed s) :
    Reachable s := by
  induction h with
  | init r w hrw => exact .init r w hrw
  | step a _ _ hs ih => exact .step a ih trivial hs

/-- Run a list of steps. -/
def run (s : St) : List Action → Except String St
  | [] => .ok s
  | a :: as =>
    match step s a with
    | .error msg => .error msg
    | .ok s' => run s' as

theorem run_reachable : ∀ {s s' : St} {as : List Action}, Reachable s → run s as = .ok s' →
    Reachable s'
  | s, s', [], hs, h => by cases h; exact hs
  | s, s', a :: as, hs, h => by
    unfold run at h
    split at h
    · cases h
    · rename_i s1 h1
      exact run_reachable (.step a hs trivial h1) h

/-- A run from a reachable state that ends in a state with property `P` (checked by evaluation)
exhibits a reachable state with `P`. -/
theorem reach_of_run {s₀ : St} (h₀ : Reachable s₀) (as : List Action) (P : St → Prop)
    [DecidablePred P]
    (h : (match run s₀ as with
      | .ok s => decide (P s)
      | .error _ => false) = true) : ∃ s, Reachable s ∧ P s := by
  revert h
  cases hr : run s₀ as with
  | error _ => exact fun h => by cases h
  | ok s => exact fun hp => ⟨s, run_reachable h₀ hr, of_decide_eq_true hp⟩

/-- The error of a step, if it aborts. -/
def errorOf {α : Type} : Except String α → Option String
  | .error msg => some msg
  | .ok _ => none

end Sylar.IOManager.Run
