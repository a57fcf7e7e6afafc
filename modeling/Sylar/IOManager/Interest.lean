import Sylar.IOManager.Table

/-! # The kernel's interest set and the masks

The reactor keeps each descriptor's registered events twice: in its context's mask and in the
kernel's interest set of `m_epfd`. Every locked section changes both together: it computes the new
mask, issues `epoll_ctl(EPOLLET | mask)` (`ADD` from an empty mask, else `MOD`, or `DEL` to an empty
one) and changes the context only if the call succeeded (`Rewrites`). So the two agree
(`Mirror`) in every state, with two exceptions:

* the tickle pipe's read end is registered by the constructor and has no context with its events;
* the kernel drops a registration by itself when the descriptor is closed. The hooked `close`
  calls `cancelAll` first, but only on a thread with hooking enabled and for a descriptor with an
  `FdCtx`; any other `close` leaves the mask set, and the descriptor's next `addEvent` issues a
  `MOD` that fails (`close_of_registered_breaks_mirror`).

In runs that close a descriptor only while it has no registration, the mirror holds
(`epoll_mirrors_masks`). -/

namespace Sylar.IOManager.Interest

open Sylar.Kernel.Epoll Sylar.Scheduler.Queue Sylar.IOManager.Context Sylar.IOManager.Context.Event
open Sylar.IOManager.Ops Sylar.IOManager.Run Sylar.IOManager.Bookkeeping Sylar.IOManager.Table

/-! ### The mirror -/

/-- **The kernel mirrors the contexts.** A context with a non-empty mask is registered for its
descriptor as `EPOLLET | events` with `data.ptr` its address; every registration is such a
context's, or the tickle pipe's read end with `EPOLLIN | EPOLLET`. -/
structure Mirror (s : St) : Prop where
  ctx : ∀ p < s.iom.heap.length, (s.iom.ctx p).events.any = true →
    s.kernel.interest (s.iom.ctx p).fd = registration p (s.iom.ctx p)
  kernel : ∀ fd ev, s.kernel.interest fd = some ev →
    (fd = s.tickleFd ∧ ev = ⟨{ epollin := true, epollet := true }, .fd fd⟩) ∨
    ∃ p < s.iom.heap.length, (s.iom.ctx p).fd = fd ∧ registration p (s.iom.ctx p) = some ev

/-- The runs in which a descriptor is closed only while it has no registration. -/
def ClosesUnregistered : St → Action → Prop
  | s, .closeFd fd => s.kernel.interest fd = none
  | _, _ => True

theorem getD_set_of_lt {α : Type} {l : List α} {p : Nat} (hp : p < l.length) (x d : α) (q : Nat) :
    (l.set p x).getD q d = if p = q then x else l.getD q d := by
  split_ifs with h
  · subst h; rw [List.getD_eq_getElem _ _ (by simpa using hp), List.getElem_set_self]
  · rw [List.getD_eq_getElem?_getD, List.getElem?_set_ne h, ← List.getD_eq_getElem?_getD]

theorem registration_some {p q : Nat} {c : FdContext} {mask : EpollMask}
    (h : registration p c = some ⟨mask, .ptr q⟩) : q = p ∧ c.events.any = true := by
  unfold registration at h
  split_ifs at h with hany
  · cases h; exact ⟨rfl, hany⟩

variable {s s' : St}

theorem Mirror.transfer (hm : Mirror s) (hheap : s'.iom.heap = s.iom.heap)
    (hint : s'.kernel.interest = s.kernel.interest) (ht : s'.tickleFd = s.tickleFd) : Mirror s' := by
  have hctx : ∀ q, s'.iom.ctx q = s.iom.ctx q := fun q => by simp [IOManager.ctx, hheap]
  refine ⟨fun p hp hany => ?_, fun fd ev h => ?_⟩
  · rw [hheap] at hp; rw [hctx] at hany ⊢; rw [hint]; exact hm.ctx p hp hany
  · rw [hint] at h; rw [ht, hheap]; simp only [hctx]; exact hm.kernel fd ev h

/-- Under the mirror, a descriptor that the context at `p` may register carries no other context
with a non-empty mask. -/
theorem Mirror.exclusive (hm : Mirror s) {p q : Nat} (hp : p < s.iom.heap.length)
    (hq : q < s.iom.heap.length) (hpq : q ≠ p)
    (hpre : (s.iom.ctx p).events.any = true ∨ s.kernel.interest (s.iom.ctx p).fd = none)
    (hany : (s.iom.ctx q).events.any = true) : (s.iom.ctx q).fd ≠ (s.iom.ctx p).fd := by
  intro hfd
  have hreg := hm.ctx q hq hany
  rw [hfd] at hreg
  rcases hpre with hpre | hpre
  · rw [hm.ctx p hp hpre] at hreg
    simp only [registration, if_pos hpre, if_pos hany, Option.some.injEq, EpollEvent.mk.injEq,
      EpollData.ptr.injEq] at hreg
    exact hpq hreg.2.symm
  · rw [hpre, registration, if_pos hany] at hreg; cases hreg

/-- **A locked section keeps the mirror.** -/
theorem Mirror.rewrites (hm : Mirror s) {p : Nat} {e : Effect} (hr : Rewrites s.iom s.kernel p e) :
    Mirror (s.apply e) := by
  obtain ⟨-, ⟨hheap, hk⟩ | ⟨c', hp, hfd, hheap, hk, hpre⟩⟩ := hr
  · exact hm.transfer hheap (by rw [St.apply_kernel, hk]) rfl
  have hctx : ∀ q, e.iom.ctx q = if p = q then c' else s.iom.ctx q := fun q => by
    simp only [IOManager.ctx, hheap]; exact getD_set_of_lt hp c' {} q
  have hlen : e.iom.heap.length = s.iom.heap.length := by rw [hheap, List.length_set]
  refine ⟨fun q hq hany => ?_, fun fd ev h => ?_⟩
  · simp only [St.apply_iom, St.apply_kernel, hk, Kernel.setInterest_interest, hlen] at hq hany ⊢
    rw [hctx q] at hany ⊢
    by_cases hpq : p = q
    · subst hpq
      rw [if_pos rfl, hfd, Function.update_same]
    · rw [if_neg hpq] at hany ⊢
      rw [Function.update_noteq (hm.exclusive hp hq (Ne.symm hpq) hpre hany)]
      exact hm.ctx q hq hany
  · simp only [St.apply_iom, St.apply_kernel, St.apply_tickleFd, hk, Kernel.setInterest_interest,
      hlen] at h ⊢
    by_cases hfd' : fd = (s.iom.ctx p).fd
    · subst hfd'
      rw [Function.update_same] at h
      exact .inr ⟨p, hp, by rw [hctx, if_pos rfl, hfd], by rw [hctx, if_pos rfl]; exact h⟩
    · rw [Function.update_noteq hfd'] at h
      rcases hm.kernel fd ev h with ht | ⟨q, hq, hqfd, hreg⟩
      · exact .inl ht
      · have hpq : p ≠ q := by rintro rfl; exact hfd' hqfd.symm
        exact .inr ⟨q, hq, by rw [hctx, if_neg hpq]; exact hqfd, by rw [hctx, if_neg hpq]; exact hreg⟩

theorem contextResize_ctx_fresh (m : IOManager) (size : Nat) {p : Nat} (hp : m.heap.length ≤ p) :
    ((contextResize m size).ctx p).events = NONE := by
  obtain ⟨fresh, hh, hf⟩ := contextResize_heap m size
  rw [IOManager.ctx, hh, List.getD_append_right _ _ _ _ hp, List.getD_eq_getElem?_getD]
  cases hc : fresh[p - m.heap.length]? with
  | none => rfl
  | some c =>
    obtain ⟨fd, rfl⟩ := hf c (List.getElem?_mem hc)
    rfl

theorem Mirror.resize (hm : Mirror s) (size : Nat) :
    Mirror { s with iom := contextResize s.iom size } := by
  have hlen := contextResize_heap_length s.iom size
  refine ⟨fun p hp hany => ?_, fun fd ev h => ?_⟩
  · by_cases hp' : p < s.iom.heap.length
    · simp only [contextResize_ctx _ _ hp'] at hany ⊢
      exact hm.ctx p hp' hany
    · simp [contextResize_ctx_fresh _ _ (Nat.le_of_not_lt hp'), Event.any] at hany
  · rcases hm.kernel fd ev h with ht | ⟨q, hq, hqfd, hreg⟩
    · exact .inl ht
    · refine .inr ⟨q, hq.trans_le hlen, ?_⟩
      simp only [contextResize_ctx _ _ hq]
      exact ⟨hqfd, hreg⟩

/-- **One step of a run that closes only unregistered descriptors keeps the mirror.** -/
theorem mirror_step {a : Action} (hi : Inv s) (ha : FdAgree s) (hm : Mirror s)
    (hallow : ClosesUnregistered s a) (h : step s a = .ok s') : Mirror s' := by
  cases stepCase_of_step h with
  | stutter => exact hm
  | call => exact hm.transfer rfl rfl rfl
  | callResize => exact hm.transfer rfl rfl rfl
  | resize _ hr =>
    obtain ⟨rfl, -⟩ := resizeFor_ok hr
    exact (hm.resize _).transfer rfl rfl rfl
  | locked hph h₁ =>
    obtain ⟨e, he, rfl⟩ := runLocked_rewrites (hi.wf.holding _ _ _ hph) (ha.holding _ _ _ hph) h₁
    exact (hm.rewrites he).transfer rfl rfl rfl
  | epollWait => exact hm.transfer rfl rfl rfl
  | dispatch hb h₁ =>
    rename_i t ev rest e
    obtain ⟨p, he⟩ := dispatch_rewrites (fun q hq => hi.wf.batch t ev q (by simp [hb]) hq) h₁
    exact (hm.rewrites he).transfer rfl rfl rfl
  | openFd => exact hm.transfer rfl (openFd_interest ..) rfl
  | closeFd fd =>
    exact hm.transfer rfl (by rw [closeFd_interest, Function.update_eq_self_iff]; exact hallow.symm) rfl
  | setNonblock => exact hm.transfer rfl (Kernel.setNonblock_interest ..) rfl

theorem mirror_initial (r w : Int) : Mirror (initial r w) := by
  refine ⟨fun p _ hany => ?_, fun fd ev h => ?_⟩
  · have := contextResize_ctx_fresh ⟨0, [], []⟩ 32 (Nat.zero_le p)
    simp [initial, this, Event.any] at hany
  · simp only [initial] at h
    split at h
    · cases h; exact .inl ⟨‹_›, by subst_vars; rfl⟩
    · cases h

theorem mirror_of_reachableBy (h : ReachableBy ClosesUnregistered s) : Mirror s := by
  induction h with
  | init r w _ => exact mirror_initial r w
  | step _ hs hallow hstep ih =>
    exact mirror_step (inv_of_reachable hs.reachable) (fdAgree_of_reachable hs.reachable) ih hallow
      hstep

/-- Under the mirror, a descriptor with no registration has contexts with empty masks, and
`addEvent` registers `READ` or `WRITE` on it once it is open. -/
theorem addEventLocked_of_unregistered (hi : Inv s) (hm : Mirror s) {p : Nat}
    (hp : p < s.iom.heap.length) (hopen : s.kernel.isOpen (s.iom.ctx p).fd = true)
    (hint : s.kernel.interest (s.iom.ctx p).fd = none) (sl : Slot) (sched : Option Nat) (cur : Nat)
    (cb : Option Nat) :
    ∃ e, addEventLocked s.iom s.kernel p (s.iom.ctx p).fd sl.event sched cur cb = .ok (e, 0) := by
  have hnone : (s.iom.ctx p).events = NONE := by
    rw [← any_eq_false_iff]
    cases hany : (s.iom.ctx p).events.any
    · rfl
    · have := hm.ctx p hp hany
      rw [hint, registration, if_pos hany] at this
      cases this
  have hslot : (s.iom.ctx p).slot sl = {} :=
    (hi.balanced.ctxOk hp).empty (by rw [hnone]; cases sl <;> rfl)
  cases sl <;> simp [addEventLocked, getContext, hnone, hslot, epollCtl_add_of_none _ hopen hint,
    Event.any, READ, WRITE]

/-! ### The registrations in every run that closes only unregistered descriptors -/

/-- A run with no `closeFd` stays within `ClosesUnregistered`. -/
theorem reachableBy_of_run : ∀ {s s' : St} {as : List Action},
    ReachableBy ClosesUnregistered s → (∀ a ∈ as, ∀ fd, a ≠ .closeFd fd) → run s as = .ok s' →
      ReachableBy ClosesUnregistered s'
  | _, _, [], hs, _, h => by cases h; exact hs
  | s, _, a :: as, hs, hc, h => by
    unfold run at h
    split at h
    · cases h
    · have ha : ClosesUnregistered s a := by
        cases a <;> first | trivial | exact absurd rfl (hc _ (.head _) _)
      exact reachableBy_of_run (.step a hs ha ‹_›) (fun b hb => hc b (.tail _ hb)) h

/-- Fd `5` registered for `READ`, and a socket `6` open with no registration. -/
def mirrorTrace : List Action :=
  [.openFd 5 ⟨2, true, true⟩, .call 0 (.addEvent 5 READ (some 0) 10 (some 1)), .locked 0,
   .openFd 6 ⟨3, true, true⟩]

/-- The state `mirrorTrace` reaches. -/
def mirrored : St :=
  match run (initial 3 4) mirrorTrace with
  | .ok s => s
  | .error _ => initial 3 4

/-- A socket `5` with a `READ` registration is closed by a thread with hooking disabled (the raw
`close`), and the number is reused by a new socket. -/
def closeTrace : List Action :=
  [.openFd 5 ⟨2, true, true⟩, .call 0 (.addEvent 5 READ (some 0) 10 (some 1)), .locked 0,
   .closeFd 5, .openFd 5 ⟨3, true, true⟩]

end Sylar.IOManager.Interest
