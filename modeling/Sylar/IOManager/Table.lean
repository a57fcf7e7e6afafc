import Sylar.IOManager.Bookkeeping
import Mathlib.Data.List.GetD

/-! # The vector of contexts under concurrent `addEvent`

`m_fdContexts` maps a descriptor to its `FdContext*`. Each context records its descriptor (`fd`),
and the locked sections only rewrite the context they locked, so every entry of the vector and
every pointer a thread holds stays with its descriptor in every run (`fdAgree_of_reachable`).

The vector itself is not kept: `addEvent` tests its size under the read lock, releases it, and
resizes to `fd * 1.5` under the write lock without testing again. When two threads pass the test,
the one with the smaller `fd` can resize last and cut the vector down; a later `addEvent` on a
descriptor that was cut off then allocates a second context for it, while its registration and its
parked continuation stay with the first (`concurrent_resize_shrinks_table`). -/

namespace Sylar.IOManager.Table

open Sylar.Kernel.Epoll Sylar.Scheduler.Queue Sylar.IOManager.Context Sylar.IOManager.Context.Event
open Sylar.IOManager.Ops Sylar.IOManager.Run Sylar.IOManager.Bookkeeping

/-! ### What a locked section does to its context and to the kernel -/

/-- The registration that mirrors the context `c` at address `p`: `EPOLLET | events` with
`data.ptr = p`, or none when the mask is empty. -/
def registration (p : Nat) (c : FdContext) : Option EpollEvent :=
  if c.events.any then some ⟨c.events.withET, .ptr p⟩ else none

theorem any_of_and {a b : Event} (h : (a &&& b).any = true) : a.any = true := by
  simp only [Event.any, and_read, and_bit1, and_write, Bool.or_eq_true, Bool.and_eq_true] at h ⊢
  tauto

theorem triggerEvent_fd_events {c c' : FdContext} {event : Event}
    {out : List (Nat × FiberAndThread)} (h : triggerEvent c event = .ok (c', out)) :
    c'.fd = c.fd ∧ c'.events = c.events &&& ~~~event := by
  obtain ⟨s, sch, -, -, -, rfl, -⟩ := triggerEvent_eq_ok h
  simp

theorem triggerIf_fd_events {cond : Bool} {event : Event} {c c' : FdContext} {n n' : Nat}
    {out : List (Nat × FiberAndThread)} (h : triggerIf cond event c n = .ok (c', n', out)) :
    c'.fd = c.fd ∧ c'.events = if cond then c.events &&& ~~~event else c.events := by
  rcases triggerIf_ok h with ⟨rfl, rfl, -, -⟩ | ⟨rfl, ht, -⟩
  · simp
  · simpa using triggerEvent_fd_events ht

/-- Clearing `READ` and then `WRITE` as `real_events` says clears `real_events`. -/
theorem clear_read_write (e : Event) (r w : Bool) :
    (if w then (if r then e &&& ~~~READ else e) &&& ~~~WRITE else if r then e &&& ~~~READ else e) =
      e &&& ~~~⟨r, false, w⟩ := by
  ext <;> cases r <;> cases w <;> simp

/-- **What a locked section did** at the context at `p`: nothing, or it put a context `c'` for the
same descriptor in its place and set that descriptor's registration to mirror `c'`. Its
`epoll_ctl` succeeded, so the descriptor was registered unless the old mask was empty. -/
def Rewrites (m : IOManager) (k : Kernel) (p : Nat) (e : Effect) : Prop :=
  e.iom.fdContexts = m.fdContexts ∧
    (e.iom.heap = m.heap ∧ e.kernel = k ∨
     ∃ c', p < m.heap.length ∧ c'.fd = (m.ctx p).fd ∧ e.iom.heap = m.heap.set p c' ∧
       e.kernel = k.setInterest (m.ctx p).fd (registration p c') ∧
       ((m.ctx p).events.any = true ∨ k.interest (m.ctx p).fd = none))

variable {m : IOManager} {k k' : Kernel} {p : Nat}

theorem Rewrites.noop : Rewrites m k p { iom := m, kernel := k } := ⟨rfl, .inl ⟨rfl, rfl⟩⟩

theorem Rewrites.ctl (hp : p < m.heap.length) {c' : FdContext} (hfd : c'.fd = (m.ctx p).fd)
    {op : EpollCtlOp} {mask : EpollMask} (hk : epollCtl k op (m.ctx p).fd ⟨mask, .ptr p⟩ = .ok k')
    (hres : ctlResult op ⟨mask, .ptr p⟩ = registration p c')
    (hadd : op ≠ .add → (m.ctx p).events.any = true) (n : Nat) (sch : List (Nat × FiberAndThread))
    (st di : List Task) :
    Rewrites m k p { iom := m.update p c' n, kernel := k', scheduled := sch, stored := st,
                     discarded := di } := by
  obtain ⟨-, hop, rfl⟩ := epollCtl_ok hk
  refine ⟨rfl, .inr ⟨c', hp, hfd, rfl, by rw [hres], ?_⟩⟩
  by_cases h : op = .add
  · exact .inr (hop.mp h)
  · exact .inl (hadd h)

/-- The `MOD`-or-`DEL` of `delEvent`, `cancelEvent` and the idle loop. -/
theorem Rewrites.remove (hp : p < m.heap.length) {c' : FdContext} (hfd : c'.fd = (m.ctx p).fd)
    (hany : (m.ctx p).events.any = true)
    (hk : epollCtl k (if c'.events.any then .mod else .del) (m.ctx p).fd
      ⟨c'.events.withET, .ptr p⟩ = .ok k') (n : Nat) (sch : List (Nat × FiberAndThread))
    (st di : List Task) :
    Rewrites m k p { iom := m.update p c' n, kernel := k', scheduled := sch, stored := st,
                     discarded := di } :=
  .ctl hp hfd hk (by cases h : c'.events.any <;> simp [ctlResult, registration, h])
    (fun _ => hany) n sch st di

variable {fd : Int}

theorem addEventLocked_rewrites (hp : p < m.heap.length) (hfd : (m.ctx p).fd = fd) {event : Event}
    {sched : Option Nat} {cur : Nat} {cb : Option Nat} {e : Effect} {r : Int}
    (h : addEventLocked m k p fd event sched cur cb = .ok (e, r)) : Rewrites m k p e := by
  rcases addEventLocked_ok h with rfl | ⟨sl, k', rfl, -, -, hk, rfl⟩
  · exact .noop
  · subst hfd
    have hany : ((m.ctx p).events ||| sl.event).any = true := by cases sl <;> simp [Event.any]
    refine .ctl hp (by simp) hk ?_ (fun hop => ?_) _ _ _ _
    · cases (m.ctx p).events.any <;> simp [ctlResult, registration, hany]
    · cases h : (m.ctx p).events.any <;> simp_all

theorem delEventLocked_rewrites (hp : p < m.heap.length) (hfd : (m.ctx p).fd = fd) {event : Event}
    {e : Effect} {r : Bool} (h : delEventLocked m k p fd event = .ok (e, r)) : Rewrites m k p e := by
  rcases delEventLocked_ok h with rfl | ⟨sl, k', rfl, hset, hk, rfl⟩
  · exact .noop
  · subst hfd
    exact .remove hp (by simp [FdContext.clear]) (any_of_and hset)
      (by simpa [FdContext.clear] using hk) _ _ _ _

theorem cancelEventLocked_rewrites (hp : p < m.heap.length) (hfd : (m.ctx p).fd = fd)
    {event : Event} {e : Effect} {r : Bool} (h : cancelEventLocked m k p fd event = .ok (e, r)) :
    Rewrites m k p e := by
  rcases cancelEventLocked_ok h with rfl | ⟨k', c', out, hset, hk, ht, rfl⟩
  · exact .noop
  · subst hfd
    obtain ⟨hcfd, hev⟩ := triggerEvent_fd_events ht
    exact .remove hp hcfd (any_of_and hset) (by rwa [hev]) _ _ _ _

theorem cancelAllLocked_rewrites (hp : p < m.heap.length) (hfd : (m.ctx p).fd = fd) {e : Effect}
    {r : Bool} (h : cancelAllLocked m k p fd = .ok (e, r)) : Rewrites m k p e := by
  rcases cancelAllLocked_ok h with rfl | ⟨k', c1, n1, out1, c2, n2, out2, hany, hk, h1, h2, hz, rfl⟩
  · exact .noop
  · subst hfd
    have hfd := (triggerIf_fd_events h2).1.trans (triggerIf_fd_events h1).1
    exact .ctl hp hfd hk (by simp [ctlResult, registration, hz, Event.any]) (fun _ => hany) _ _ _ _

theorem dispatch_rewrites {tickleFd : Int} {ev : EpollEvent} {e : Effect}
    (hev : ∀ q, ev.data = .ptr q → q < m.heap.length) (h : dispatch m k tickleFd ev = .ok e) :
    ∃ p, Rewrites m k p e := by
  rcases dispatch_ok h with rfl | ⟨p, k', c1, n1, out1, c2, n2, out2, hq, hset, hk, h1, h2, rfl⟩
  · exact ⟨0, .noop⟩
  · obtain ⟨hfd1, hev1⟩ := triggerIf_fd_events h1
    obtain ⟨hfd2, hev2⟩ := triggerIf_fd_events h2
    have hc2 : c2.events = (m.ctx p).events &&& ~~~realEvents ev.events (m.ctx p).events := by
      rw [hev2, hev1, clear_read_write]; rfl
    exact ⟨p, .remove (hev p hq) (hfd2.trans hfd1) (any_of_and hset) (by rwa [hc2]) _ _ _ _⟩

theorem runLocked_rewrites {s s' : St} {op : Op} (hp : p < s.iom.heap.length)
    (hfd : (s.iom.ctx p).fd = op.fd) (h : runLocked s p op = .ok s') :
    ∃ e, Rewrites s.iom s.kernel p e ∧ s' = s.apply e := by
  cases op <;> simp only [runLocked] at h <;>
    obtain ⟨⟨e, r⟩, he, rfl⟩ := exists_of_map_eq_ok h
  · exact ⟨e, addEventLocked_rewrites hp hfd he, rfl⟩
  · exact ⟨e, delEventLocked_rewrites hp hfd he, rfl⟩
  · exact ⟨e, cancelEventLocked_rewrites hp hfd he, rfl⟩
  · exact ⟨e, cancelAllLocked_rewrites hp hfd he, rfl⟩

theorem getD_set_fd {l : List FdContext} {p : Nat} {c' : FdContext} (hfd : c'.fd = (l.getD p {}).fd)
    (q : Nat) : ((l.set p c').getD q {}).fd = (l.getD q {}).fd := by
  by_cases hq : q = p
  · subst hq
    by_cases hp : q < l.length
    · rw [List.getD_eq_getElem _ _ (by simpa using hp), List.getElem_set_self]
      exact hfd
    · rw [List.set_eq_of_length_le (by omega)]
  · rw [List.getD_eq_getElem?_getD, List.getElem?_set_ne (Ne.symm hq), ← List.getD_eq_getElem?_getD]

theorem Rewrites.fds {m : IOManager} {k : Kernel} {p : Nat} {e : Effect} (h : Rewrites m k p e) :
    e.iom.fdContexts = m.fdContexts ∧ ∀ q, (e.iom.ctx q).fd = (m.ctx q).fd := by
  refine ⟨h.1, fun q => ?_⟩
  rcases h.2 with ⟨hh, -⟩ | ⟨c', -, hfd, hh, -⟩
  · simp [IOManager.ctx, hh]
  · simpa [IOManager.ctx, hh] using getD_set_fd hfd q

theorem contextResize_ctx (m : IOManager) (size : Nat) {p : Nat} (hp : p < m.heap.length) :
    (contextResize m size).ctx p = m.ctx p := by
  simp only [IOManager.ctx, contextResize]
  exact List.getD_append _ _ _ _ hp

theorem contextResize_table {m : IOManager} (size : Nat)
    (hwf : ∀ p ∈ m.fdContexts, p < m.heap.length)
    (ht : ∀ i < m.fdContexts.length, (m.ctx (m.fdContexts.getD i 0)).fd = i) :
    ∀ i < (contextResize m size).fdContexts.length,
      ((contextResize m size).ctx ((contextResize m size).fdContexts.getD i 0)).fd = i := by
  intro i hi
  simp only [contextResize, List.length_append, List.length_map, List.length_range] at hi
  by_cases hk : i < (m.fdContexts.take size).length
  · have hi' : i < m.fdContexts.length := by simp at hk; omega
    have hget : (contextResize m size).fdContexts.getD i 0 = m.fdContexts.getD i 0 := by
      simp only [contextResize, List.getD_append _ _ _ _ hk, List.getD_eq_getElem?_getD,
        List.getElem?_take]
      simp_all
    rw [hget, contextResize_ctx _ _ (hwf _ (getD_mem hi'))]
    exact ht i hi'
  · have hk' : (m.fdContexts.take size).length ≤ i := by omega
    have hget : (contextResize m size).fdContexts.getD i 0 =
        m.heap.length + (i - (m.fdContexts.take size).length) := by
      simp only [contextResize]
      rw [List.getD_append_right _ _ _ _ hk', List.getD_eq_getElem?_getD, List.getElem?_map,
        List.getElem?_range (by omega)]
      rfl
    rw [hget]
    simp only [contextResize, IOManager.ctx]
    rw [List.getD_append_right _ _ _ _ (by omega), Nat.add_sub_cancel_left,
      List.getD_eq_getElem?_getD, List.getElem?_map, List.getElem?_range (by omega)]
    simp only [Option.map_some', Option.getD_some]
    omega

/-! ### Every entry and every held pointer stays with its descriptor -/

/-- **The contexts know their descriptors**: entry `i` of `m_fdContexts` is a context for `i`, and
the context a thread locks is one for the descriptor of its operation. -/
structure FdAgree (s : St) : Prop where
  table : ∀ i < s.iom.fdContexts.length, (s.iom.ctx (s.iom.fdContexts.getD i 0)).fd = i
  holding : ∀ t p op, s.phase t = .holding p op → (s.iom.ctx p).fd = op.fd

variable {s s' : St}

theorem FdAgree.transfer (h : FdAgree s) (htab : s'.iom.fdContexts = s.iom.fdContexts)
    (hfd : ∀ q, (s'.iom.ctx q).fd = (s.iom.ctx q).fd) (hph : s'.phase = s.phase) : FdAgree s' :=
  ⟨fun i hi => by rw [hfd, htab]; exact h.table i (htab ▸ hi),
   fun t p op hp => by rw [hfd]; exact h.holding t p op (hph ▸ hp)⟩

theorem FdAgree.setPhase (h : FdAgree s) (t : Nat) {ph : Phase}
    (hph : ∀ p op, ph = .holding p op → (s.iom.ctx p).fd = op.fd) : FdAgree (s.setPhase t ph) := by
  refine ⟨h.table, fun t' p op hp => ?_⟩
  by_cases ht : t' = t
  · subst ht; simp only [St.setPhase_phase, Function.update_same] at hp; exact hph p op hp
  · simp only [St.setPhase_phase, Function.update_noteq ht] at hp; exact h.holding t' p op hp

theorem fdAgree_step {a : Action} (hi : Inv s) (ha : FdAgree s) (h : step s a = .ok s') :
    FdAgree s' := by
  cases stepCase_of_step h with
  | stutter => exact ha
  | call _ hq =>
    obtain ⟨h0, hlt, rfl⟩ := lookup_ok_some hq
    exact ha.setPhase _ fun _ _ he => by cases he; rw [ha.table _ hlt]; omega
  | callResize => exact ha.setPhase _ fun _ _ he => by cases he
  | resize hph hr =>
    rename_i t op m p
    obtain ⟨rfl, h0, hlt, rfl⟩ := resizeFor_ok hr
    have hr : FdAgree { s with iom := contextResize s.iom (op.fd.toNat + op.fd.toNat / 2) } :=
      ⟨contextResize_table _ hi.wf.table ha.table, fun t p op hp => by
        rw [contextResize_ctx _ _ (hi.wf.holding t p op hp)]; exact ha.holding t p op hp⟩
    exact hr.setPhase _ fun _ _ he => by cases he; rw [hr.table _ hlt]; omega
  | locked hph h₁ =>
    obtain ⟨e, he, rfl⟩ := runLocked_rewrites (hi.wf.holding _ _ _ hph) (ha.holding _ _ _ hph) h₁
    exact (ha.transfer he.fds.1 he.fds.2 rfl : FdAgree (s.apply e)).setPhase _ fun _ _ h => by
      cases h
  | epollWait => exact ha.transfer rfl (fun _ => rfl) rfl
  | dispatch hb h₁ =>
    rename_i t ev rest e
    obtain ⟨p, he⟩ := dispatch_rewrites (fun q hq => hi.wf.batch t ev q (by simp [hb]) hq) h₁
    exact ha.transfer he.fds.1 he.fds.2 rfl
  | openFd => exact ha.transfer rfl (fun _ => rfl) rfl
  | closeFd => exact ha.transfer rfl (fun _ => rfl) rfl
  | setNonblock => exact ha.transfer rfl (fun _ => rfl) rfl

theorem fdAgree_of_reachable (h : Reachable s) : FdAgree s := by
  induction h with
  | init r w _ =>
    exact ⟨contextResize_table 32 (by simp) (by simp), fun _ _ _ h => by cases h⟩
  | step _ hs _ hstep ih => exact fdAgree_step (inv_of_reachable hs) ih hstep

/-! ### Two resizes in the wrong order -/

/-- Thread `0` registers on fd `40` and thread `1` on the open fd `100`; both find the vector of `32`
too short, thread `1` resizes to `150` and registers, and thread `0` is about to resize. -/
def shrinkTrace : List Action :=
  [.openFd 100 ⟨2, true, true⟩,
   .call 0 (.addEvent 40 READ (some 0) 10 (some 1)),
   .call 1 (.addEvent 100 READ (some 0) 11 (some 2)), .resize 1, .locked 1]

/-- Thread `2` then registers `WRITE` on fd `100`, which is past the end again. -/
def regrowTrace : List Action := [.call 2 (.addEvent 100 WRITE (some 0) 12 (some 3)), .resize 2]

set_option maxRecDepth 1024 in
/-- **The vector shrinks and an entry is replaced.** Thread `0`'s `contextResize(40 * 1.5)` cuts the
vector from `150` to `60` entries; thread `2`'s resize for fd `100` then allocates a new context
for it at address `190`, while fd `100`'s `READ` registration stays in the context at `100`. -/
theorem concurrent_resize_shrinks_table :
    ∃ s s₁ s₂, Reachable s ∧ step s (.resize 0) = .ok s₁ ∧ run s₁ regrowTrace = .ok s₂ ∧
      s.iom.fdContexts.length = 150 ∧ s₁.iom.fdContexts.length = 60 ∧
      s.iom.fdContexts.getD 100 0 = 100 ∧ s₂.iom.fdContexts.getD 100 0 = 190 ∧
      (s₂.iom.ctx 100).events = READ ∧ (s₂.iom.ctx 190).events = NONE :=
  ⟨_, _, _, run_reachable (.init 3 4 (by decide)) (rfl : run (initial 3 4) shrinkTrace = .ok _),
    rfl, rfl, rfl, rfl, rfl, rfl, rfl, rfl⟩

end Sylar.IOManager.Table
