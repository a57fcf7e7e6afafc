import Sylar.Hook.Io
import Sylar.IOManager.Table

/-! # The hooks' reactor is a run of the reactor model

`Sylar.Hook.Io` takes each reactor operation whole, as one step of a coroutine. The model of
`Sylar.IOManager.Run` splits the operations at their locks and interleaves any number of threads.
Every world the hooks reach has a reactor that the model reaches with all its threads idle
(`reactor_of_reach`):

* an operation taken whole is thread `0`'s call, resize and locked section in a row;
* a readiness dispatch is thread `0`'s `epoll_wait` of the one descriptor and its dispatch;
* what the hooks do to the descriptor table is the model's `openFd`, `closeFd` and
  `setNonblock` (`hookStep_moves`).

So the model's invariants hold of the hooks' reactor (`hooks_refine_reactor`). -/

namespace Sylar.Hook.Reactor

open Sylar.Kernel.Epoll Sylar.Scheduler.Queue Sylar.IOManager.Context Sylar.IOManager.Ops
open Sylar.Hook.FdTable Sylar.Hook.Io Sylar.IOManager Sylar.IOManager.Bookkeeping
open Sylar.IOManager.Table

/-! ### Moves of the descriptor table -/

/-- Sequences of the model's moves of the descriptor table. -/
inductive KernelMoves : Kernel → Kernel → Prop
  | refl (k : Kernel) : KernelMoves k k
  | openFd {k k' : Kernel} (fd : Int) (f : File) : KernelMoves (openFd k fd f) k' → KernelMoves k k'
  | closeFd {k k' : Kernel} (fd : Int) : KernelMoves (closeFd k fd) k' → KernelMoves k k'
  | setNonblock {k k' : Kernel} (fd : Int) (b : Bool) : KernelMoves (k.setNonblock fd b) k' →
      KernelMoves k k'

theorem KernelMoves.trans {k₁ k₂ k₃ : Kernel} (h₁ : KernelMoves k₁ k₂) (h₂ : KernelMoves k₂ k₃) :
    KernelMoves k₁ k₃ := by
  induction h₁ with
  | refl => exact h₂
  | openFd fd f _ ih => exact .openFd fd f (ih h₂)
  | closeFd fd _ ih => exact .closeFd fd (ih h₂)
  | setNonblock fd b _ ih => exact .setNonblock fd b (ih h₂)

/-- The model follows the moves of its descriptor table, its other parts unchanged. -/
theorem KernelMoves.reachable {k k' : Kernel} (h : KernelMoves k k') :
    ∀ {s : Run.St}, s.kernel = k → Run.Reachable s → Run.Reachable { s with kernel := k' } := by
  induction h with
  | refl => intro s hk hs; subst hk; exact hs
  | openFd fd f _ ih =>
    intro s hk hs; subst hk
    exact @ih { s with kernel := Sylar.Kernel.Epoll.openFd s.kernel fd f } rfl
      (.step (.openFd fd f) hs trivial rfl)
  | closeFd fd _ ih =>
    intro s hk hs; subst hk
    exact @ih { s with kernel := Sylar.Kernel.Epoll.closeFd s.kernel fd } rfl
      (.step (.closeFd fd) hs trivial rfl)
  | setNonblock fd b _ ih =>
    intro s hk hs; subst hk
    exact @ih { s with kernel := s.kernel.setNonblock fd b } rfl
      (.step (.setNonblock fd b) hs trivial rfl)

theorem init_moves (k : Kernel) (fd : Int) : KernelMoves k (FdCtx.init k fd).2 := by
  unfold FdCtx.init
  split
  · exact .refl _
  · split
    · split
      · exact .refl _
      · exact .setNonblock fd true (.refl _)
    · exact .refl _

theorem get_moves {m m' : FdManager} {k k' : Kernel} {fd : Int} {b : Bool} {c : Option FdCtx}
    (h : m.get k fd b = .ok (m', k', c)) : KernelMoves k k' := by
  cases b with
  | false => obtain ⟨-, rfl, -⟩ := get_noCreate h; exact .refl _
  | true =>
    rcases get_create h with ⟨-, rfl, -⟩ | ⟨-, hcr⟩
    · exact .refl _
    · obtain ⟨-, rfl, -⟩ := create_ok hcr; exact init_moves k fd

theorem getCreate_moves {s s' : HookSt} {fd : Int} (h : s.getCreate fd = .ok s') :
    KernelMoves s.kernel s'.kernel := by
  obtain ⟨⟨m, k, c⟩, hget, rfl⟩ := exists_of_map_eq_ok h
  exact get_moves hget

/-- **What a call does to the descriptor table** is a sequence of the model's moves. -/
theorem hookStep_moves {s s' : HookSt} {c : Call} (h : hookStep s c = .ok s') :
    KernelMoves s.kernel s'.kernel := by
  cases c with
  | socket hooked fd nb =>
    simp only [hookStep] at h
    split_ifs at h
    · exact .openFd fd _ (getCreate_moves h)
    · cases h; exact .openFd fd _ (.refl _)
    · cases h; exact .refl _
  | accept fd =>
    simp only [hookStep] at h
    split_ifs at h
    · exact .openFd fd _ (getCreate_moves h)
    · cases h; exact .refl _
  | openFile fd =>
    simp only [hookStep] at h
    split_ifs at h
    · cases h; exact .openFd fd _ (.refl _)
    · cases h; exact .refl _
  | fcntlSetfl fd nb | ioctlFionbio fd nb =>
    simp only [hookStep] at h
    split at h <;> (try split_ifs at h) <;> cases h <;> exact .setNonblock fd _ (.refl _)
  | setsockopt hooked fd optname sec usec =>
    simp only [hookStep] at h
    split_ifs at h
    · split at h <;> cases h <;> exact .refl _
    · cases h; exact .refl _
  | close hooked fd =>
    simp only [hookStep] at h
    split_ifs at h
    · split at h
      · cases h
      · obtain ⟨m, -, rfl⟩ := exists_of_map_eq_ok h; exact .closeFd fd (.refl _)
      · cases h; exact .closeFd fd (.refl _)
    · cases h; exact .closeFd fd (.refl _)

/-! ### Whole operations as runs of thread `0` -/

/-- A state of the model that the model reaches, with every thread idle, whose reactor is `m`,
`k` and the tickle pipe `t`. -/
structure Matches (s : Run.St) (m : IOManager) (k : Kernel) (t : Int) : Prop where
  reach : Run.Reachable s
  idle : ∀ t, s.phase t = .free ∧ s.batch t = []
  iom : s.iom = m
  kernel : s.kernel = k
  tickle : s.tickleFd = t

variable {s : Run.St} {m : IOManager} {k : Kernel} {t : Int}

theorem Matches.idle0 (hm : Matches s m k t) : s.idle 0 = true := by
  simp [Run.St.idle, (hm.idle 0).1, (hm.idle 0).2]

/-- Thread `0` back to `free` after its locked section: every thread is idle again. -/
theorem Matches.free (hm : Matches s m k t) {s₁ : Run.St} (hr : Run.Reachable (s₁.setPhase 0 .free))
    (hph : ∀ t, t ≠ 0 → s₁.phase t = s.phase t) (hb : s₁.batch = s.batch)
    (ht : s₁.tickleFd = s.tickleFd) : Matches (s₁.setPhase 0 .free) s₁.iom s₁.kernel t := by
  refine ⟨hr, fun t' => ?_, rfl, rfl, ht.trans hm.tickle⟩
  by_cases ht : t' = 0
  · subst ht; simp [hb, (hm.idle 0).2]
  · simp [Function.update_noteq ht, hph t' ht, hb, hm.idle t']

theorem Matches.self (hm : Matches s m k t) : Matches s s.iom s.kernel t :=
  ⟨hm.reach, hm.idle, rfl, rfl, hm.tickle⟩

/-- Thread `0` calls `op` on the context at `p` and runs its locked section. -/
theorem Matches.locked (hm : Matches s m k t) (op : Run.Op) {p : Nat} {e : Effect}
    (hl : lookup s.iom op.fd = .ok (some p))
    (hlock : Run.runLocked (s.setPhase 0 (.holding p op)) p op =
      .ok ((s.setPhase 0 (.holding p op)).apply e)) :
    ∃ s', Matches s' e.iom e.kernel t := by
  have h1 : Run.step s (.call 0 op) = .ok (s.setPhase 0 (.holding p op)) := by
    simp [Run.step, hm.idle0, hl]
  have h2 : Run.step (s.setPhase 0 (.holding p op)) (.locked 0) =
      .ok (((s.setPhase 0 (.holding p op)).apply e).setPhase 0 .free) := by
    simp [Run.step, hlock, Except.map]
  exact ⟨_, hm.free (.step _ (.step _ hm.reach trivial h1) trivial h2)
    (fun t ht => by simp [Function.update_noteq ht]) (by simp) rfl⟩

/-- **`addEvent` whole** is thread `0`'s call, resize if needed, and locked section. -/
theorem Matches.addEvent (hm : Matches s m k t) {fd : Int} {ev : Event} {i : Nat} {e : Effect}
    {rt : Int} (h : Io.addEvent m k fd ev i = .ok (e, rt)) : ∃ s', Matches s' e.iom e.kernel t := by
  rw [← hm.iom, ← hm.kernel] at h
  unfold Io.addEvent at h
  let op := Run.Op.addEvent fd ev (some 0) i none
  cases hl : lookup s.iom fd with
  | error _ => simp only [hl] at h; cases h
  | ok o =>
    cases o with
    | some p =>
      simp only [hl] at h
      exact hm.locked op hl (by simp [Run.runLocked, op, h, Except.map])
    | none =>
      cases hz : resizeFor s.iom fd with
      | error _ => simp only [hl, hz] at h; cases h
      | ok r =>
        obtain ⟨m', p⟩ := r
        simp only [hl, hz] at h
        let s₁ := { s.setPhase 0 (.resizing op) with iom := m' }.setPhase 0 (.holding p op)
        have h1 : Run.step s (.call 0 op) = .ok (s.setPhase 0 (.resizing op)) := by
          simp [Run.step, hm.idle0, hl, op, Run.Op.fd]
        have h2 : Run.step (s.setPhase 0 (.resizing op)) (.resize 0) = .ok s₁ := by
          simp [Run.step, op, Run.Op.fd, hz, s₁]
        have h3 : Run.step s₁ (.locked 0) = .ok ((s₁.apply e).setPhase 0 .free) := by
          simp [Run.step, Run.runLocked, op, h, Except.map, s₁]
        exact ⟨_, hm.free (.step _ (.step _ (.step _ hm.reach trivial h1) trivial h2) trivial h3)
          (fun t ht => by simp [s₁, Function.update_noteq ht]) (by simp [s₁]) rfl⟩

/-- **`cancelEvent` whole**: nothing if the vector is too short, else thread `0`'s call and
locked section. -/
theorem Matches.cancelEvent (hm : Matches s m k t) {fd : Int} {ev : Event} {e : Effect} {b : Bool}
    (h : Io.cancelEvent m k fd ev = .ok (e, b)) : ∃ s', Matches s' e.iom e.kernel t := by
  rw [← hm.iom, ← hm.kernel] at h
  unfold Io.cancelEvent at h
  cases hl : lookup s.iom fd with
  | error _ => simp only [hl] at h; cases h
  | ok o =>
    cases o with
    | none => simp only [hl, Except.ok.injEq, Prod.mk.injEq] at h; rw [← h.1]; exact ⟨s, hm.self⟩
    | some p =>
      simp only [hl] at h
      exact hm.locked (.cancelEvent fd ev) hl (by simp [Run.runLocked, h, Except.map])

/-- **`cancelAll` whole**, the same way. -/
theorem Matches.cancelAll (hm : Matches s m k t) {fd : Int} {e : Effect} {b : Bool}
    (h : Io.cancelAll m k fd = .ok (e, b)) : ∃ s', Matches s' e.iom e.kernel t := by
  rw [← hm.iom, ← hm.kernel] at h
  unfold Io.cancelAll at h
  cases hl : lookup s.iom fd with
  | error _ => simp only [hl] at h; cases h
  | ok o =>
    cases o with
    | none => simp only [hl, Except.ok.injEq, Prod.mk.injEq] at h; rw [← h.1]; exact ⟨s, hm.self⟩
    | some p =>
      simp only [hl] at h
      exact hm.locked (.cancelAll fd) hl (by simp [Run.runLocked, h, Except.map])

/-- **A readiness dispatch** is thread `0`'s `epoll_wait` reporting the one descriptor, and the
dispatch of that record. -/
theorem Matches.dispatch (hm : Matches s m k t) {fd : Int} {reg : EpollEvent} {mask : EpollMask}
    {e : Effect} (hreg : k.interest fd = some reg) (h : dispatch m k t (report reg mask) = .ok e) :
    ∃ s', Matches s' e.iom e.kernel t := by
  rw [← hm.iom, ← hm.kernel, ← hm.tickle] at h
  rw [← hm.kernel] at hreg
  let s₁ := s.setBatch 0 [report reg mask]
  have h1 : Run.step s (.epollWait 0 [(fd, mask)]) = .ok s₁ := by
    simp [Run.step, hm.idle0, epollWait, hreg, s₁]
  have h2 : Run.step s₁ (.dispatch 0) = .ok ((s₁.apply e).setBatch 0 []) := by
    simp [Run.step, h, Except.map, s₁]
  refine ⟨_, .step _ (.step _ hm.reach trivial h1) trivial h2, fun t' => ?_, rfl, rfl, hm.tickle⟩
  by_cases ht : t' = 0
  · subst ht; simp [s₁, hm.idle 0]
  · simp [s₁, Function.update_noteq ht, hm.idle t']

theorem Matches.moves (hm : Matches s m k t) {k' : Kernel} (h : KernelMoves k k') :
    Matches { s with kernel := k' } m k' t :=
  ⟨h.reachable hm.kernel hm.reach, hm.idle, hm.iom, rfl, hm.tickle⟩

/-! ### Each step of the hooks -/

/-- Sequences of whole reactor operations, readiness dispatches and moves of the descriptor table,
for the tickle pipe `t`. -/
inductive ReactorMoves (t : Int) : IOManager → Kernel → IOManager → Kernel → Prop
  | refl (m : IOManager) (k : Kernel) : ReactorMoves t m k m k
  | addEvent {m k m' k'} {fd : Int} {ev : Event} {i : Nat} {e : Effect} {rt : Int} :
      Io.addEvent m k fd ev i = .ok (e, rt) → ReactorMoves t e.iom e.kernel m' k' →
      ReactorMoves t m k m' k'
  | cancelEvent {m k m' k'} {fd : Int} {ev : Event} {e : Effect} {b : Bool} :
      Io.cancelEvent m k fd ev = .ok (e, b) → ReactorMoves t e.iom e.kernel m' k' →
      ReactorMoves t m k m' k'
  | cancelAll {m k m' k'} {fd : Int} {e : Effect} {b : Bool} :
      Io.cancelAll m k fd = .ok (e, b) → ReactorMoves t e.iom e.kernel m' k' →
      ReactorMoves t m k m' k'
  | dispatch {m k m' k'} {fd : Int} {reg : EpollEvent} {mask : EpollMask} {e : Effect} :
      k.interest fd = some reg → dispatch m k t (report reg mask) = .ok e →
      ReactorMoves t e.iom e.kernel m' k' → ReactorMoves t m k m' k'
  | kernel {m k k₁ m' k'} : KernelMoves k k₁ → ReactorMoves t m k₁ m' k' → ReactorMoves t m k m' k'

theorem ReactorMoves.matches {m k m' k'} (h : ReactorMoves t m k m' k') :
    ∀ {s : Run.St}, Matches s m k t → ∃ s', Matches s' m' k' t := by
  induction h with
  | refl => exact fun hm => ⟨_, hm⟩
  | addEvent he _ ih => exact fun hm => (hm.addEvent he).elim fun _ h => ih h
  | cancelEvent he _ ih => exact fun hm => (hm.cancelEvent he).elim fun _ h => ih h
  | cancelAll he _ ih => exact fun hm => (hm.cancelAll he).elim fun _ h => ih h
  | dispatch hreg he _ ih => exact fun hm => (hm.dispatch hreg he).elim fun _ h => ih h
  | kernel hk _ ih => exact fun hm => ih (hm.moves hk)

variable {w w' : World}

/-- The reactor of `w'` is reached from that of `w` by whole operations, with the same tickle
pipe. -/
def Follows (w w' : World) : Prop :=
  w'.tickleFd = w.tickleFd ∧ ReactorMoves w.tickleFd w.iom w.hook.kernel w'.iom w'.hook.kernel

theorem follows_of_moves {m : IOManager} {k : Kernel}
    (hm : ReactorMoves w.tickleFd w.iom w.hook.kernel m k) (h : w'.reactor = (m, k, w.tickleFd)) :
    Follows w w' := by
  simp only [World.reactor, Prod.mk.injEq] at h
  obtain ⟨rfl, rfl, ht⟩ := h
  exact ⟨ht, hm⟩

theorem follows_of_reactor (h : w'.reactor = w.reactor) : Follows w w' :=
  follows_of_moves (.refl _ _) h

theorem startIo_reactor {i : Nat} {fd : Int} {ev : Event} {so : Nat}
    (h : startIo w i fd ev so = .ok w') : w'.reactor = w.reactor := by
  unfold startIo at h
  split_ifs at h
  · cases h; simp
  · split at h
    · cases h
    · cases h; simp
    · split_ifs at h <;> (cases h; simp)

theorem startConnect_reactor {i : Nat} {fd : Int} {ms : Nat}
    (h : startConnect w i fd ms = .ok w') : w'.reactor = w.reactor := by
  unfold startConnect at h
  split_ifs at h
  · cases h; simp
  · split at h
    · cases h
    · cases h; simp
    · split_ifs at h <;> (cases h; simp)

theorem sleepHook_reactor {i : Nat} {sc : SleepCall} (h : sleepHook w i sc = .ok w') :
    w'.reactor = w.reactor := by
  unfold sleepHook at h
  split_ifs at h <;> (cases h; rfl)

theorem resume_reactor {i : Nat} (h : resume w i = .ok w') : w'.reactor = w.reactor := by
  unfold resume at h
  split at h
  · dsimp only at h
    split_ifs at h <;> (cases h; simp)
  · cases h; rfl

/-- A wait: `addEvent` whole, then the coroutine parks or, on failure, `onFail`. -/
theorem wait_follows {i : Nat} {c : IoCall} {onFail : World → World}
    (hf : ∀ w, (onFail w).reactor = w.reactor) (h : wait w i c onFail = .ok w') : Follows w w' := by
  unfold wait at h
  split_ifs at h
  split at h
  · cases h
  · rename_i e rt he
    dsimp only at h
    split_ifs at h <;> cases h <;>
      exact follows_of_moves (.addEvent he (.refl _ _)) (by simp [hf, World.access])

theorem Follows.congr_left {w₀ : World} (h0 : w₀.reactor = w.reactor) (h : Follows w₀ w') :
    Follows w w' := by
  simp only [World.reactor, Prod.mk.injEq] at h0
  obtain ⟨h1, h2, h3⟩ := h0
  unfold Follows at h ⊢
  rw [← h1, ← h2, ← h3]
  exact h

theorem raw_follows {i : Nat} {r : RawResult} (h : raw w i r = .ok w') : Follows w w' := by
  unfold raw at h
  split at h
  · dsimp only at h
    split at h <;> (try split_ifs at h) <;>
      first
      | (cases h; exact follows_of_reactor (by simp))
      | exact (wait_follows (fun _ => by simp) h).congr_left (by simp)
  · cases h; exact follows_of_reactor rfl

theorem runTimerCb_follows {cb : TimerCb} (h : runTimerCb w cb = .ok w') : Follows w w' := by
  cases cb with
  | schedule co =>
    simp only [runTimerCb] at h
    split at h <;> (cases h; exact follows_of_reactor (by simp))
  | ioTimeout info fd ev =>
    simp only [runTimerCb] at h
    split_ifs at h
    · cases h; exact follows_of_reactor rfl
    · obtain ⟨⟨e, b⟩, he, rfl⟩ := exists_of_map_eq_ok h
      exact follows_of_moves (.cancelEvent he (.refl _ _)) (by simp)

theorem onTable_follows {c : Call} (h : (hookStep w.hook c).map (fun h => { w with hook := h }) =
    .ok w') : Follows w w' := by
  obtain ⟨hs, hh, rfl⟩ := exists_of_map_eq_ok h
  exact follows_of_moves (.kernel (hookStep_moves hh) (.refl _ _)) rfl

/-- The hooked `close` of a context runs `cancelAll` whole before the descriptor table's part. -/
theorem call_follows {c : Call} (h : Io.call w c = .ok w') : Follows w w' := by
  unfold Io.call at h
  split at h
  · split at h
    · cases h
    · split_ifs at h
      · split at h
        · cases h
        · rename_i e b he
          obtain ⟨hs, hh, rfl⟩ := exists_of_map_eq_ok h
          have hk := hookStep_moves hh
          rw [World.apply_kernel] at hk
          exact follows_of_moves (.cancelAll he (.kernel hk (.refl _ _))) (by simp [World.reactor])
      · exact onTable_follows h
    · exact onTable_follows h
  · exact onTable_follows h

/-- **Each step of the hooks** moves the reactor by whole operations. -/
theorem step_follows {a : Io.Action} (h : Io.step w a = .ok w') : Follows w w' := by
  cases a with
  | startIo i fd ev so =>
    simp only [Io.step] at h
    split_ifs at h
    · exact follows_of_reactor (startIo_reactor h)
    · cases h; exact follows_of_reactor rfl
  | startConnect i fd ms =>
    simp only [Io.step] at h
    split_ifs at h
    · exact follows_of_reactor (startConnect_reactor h)
    · cases h; exact follows_of_reactor rfl
  | sleep i sc =>
    simp only [Io.step] at h
    split_ifs at h
    · exact follows_of_reactor (sleepHook_reactor h)
    · cases h; exact follows_of_reactor rfl
  | raw i r => exact raw_follows h
  | resume i => exact follows_of_reactor (resume_reactor h)
  | call c => exact call_follows h
  | ready fd mask =>
    simp only [Io.step] at h
    split at h
    · rename_i reg hreg
      obtain ⟨e, he, rfl⟩ := exists_of_map_eq_ok h
      exact follows_of_moves (.dispatch hreg he (.refl _ _)) (by simp)
    · cases h; exact follows_of_reactor rfl
  | tick ms => cases h; exact follows_of_reactor rfl
  | expire => cases h; exact follows_of_reactor rfl
  | runCb k =>
    simp only [Io.step] at h
    split at h
    · exact (runTimerCb_follows h).congr_left rfl
    · cases h; exact follows_of_reactor rfl

/-! ### Every world of the hooks -/

/-- **The hooks' reactor is the model's.** Every world the hooks reach has a reactor that the
reactor model reaches, from the same constructed `IOManager`, with all its threads idle. -/
theorem reactor_of_reach (h : Io.Reach w) : ∃ s, Matches s w.iom w.hook.kernel w.tickleFd := by
  induction h with
  | init t r w n hrw =>
    exact ⟨Run.initial r w, .init r w hrw, fun _ => ⟨rfl, rfl⟩, rfl, rfl, rfl⟩
  | step a _ hs ih =>
    obtain ⟨s, hm⟩ := ih
    obtain ⟨ht, hmv⟩ := step_follows hs
    rw [ht]
    exact hmv.matches hm

/-- **The hooks' reactor refines the reactor model, and so stays consistent**: every world the
hooks reach has a reactor that the model reaches with all its threads idle; so
`m_pendingEventCount` counts the registered events, every registered event's slot holds one
continuation, and entry `i` of `m_fdContexts` is a context for descriptor `i`. -/
theorem hooks_refine_reactor (h : Io.Reach w) :
    (∃ s, Matches s w.iom w.hook.kernel w.tickleFd) ∧ Balanced w.iom ∧
      ∀ i < w.iom.fdContexts.length, (w.iom.ctx (w.iom.fdContexts.getD i 0)).fd = i := by
  obtain ⟨s, hm⟩ := reactor_of_reach h
  refine ⟨⟨s, hm⟩, ?_⟩
  rw [← hm.iom]
  exact ⟨(inv_of_reachable hm.reach).balanced, (fdAgree_of_reachable hm.reach).table⟩

/-- A hooked `read(5)` that finds `EAGAIN` and parks on `READ`. -/
def parkedTrace : List Io.Action :=
  [.call (.socket true 5 false), .startIo 0 5 Event.READ SO_RCVTIMEO, .raw 0 (.err EAGAIN)]

/-- The world `parkedTrace` reaches. -/
def parked : World :=
  match run ioWorld parkedTrace with
  | .ok w => w
  | .error _ => ioWorld

/-- With the reader parked, one event is pending, and the model reaches the same reactor. -/
theorem hooks_refine_reactor_parked :
    parked.iom.pendingEventCount = 1 ∧
      (∃ s, Matches s parked.iom parked.hook.kernel parked.tickleFd) ∧ Balanced parked.iom ∧
      ∀ i < parked.iom.fdContexts.length, (parked.iom.ctx (parked.iom.fdContexts.getD i 0)).fd = i :=
  ⟨rfl, hooks_refine_reactor (run_reach (.init _ 3 4 2 (by decide))
    (rfl : run ioWorld parkedTrace = .ok parked))⟩

end Sylar.Hook.Reactor
