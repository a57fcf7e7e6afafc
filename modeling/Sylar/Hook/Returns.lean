import Sylar.Hook.Io

/-! # What the hooked calls return

Three places where a hook answers its caller otherwise than the system call it stands for.

* `socket(domain, type | SOCK_NONBLOCK, protocol)`: the socket is already non-blocking when
  `FdCtx::init` runs, and `init` sets `m_userNonblock = false` whatever the type asked for. The
  hooked `fcntl(F_GETFL)` then reports `O_NONBLOCK` clear, and `do_io` parks on `EAGAIN` where the
  caller asked for the `EAGAIN` (`sock_nonblock_request_lost`). What `fcntl(F_SETFL)` and
  `ioctl(FIONBIO)` ask for is what `F_GETFL` reports after them (`getfl_reports_flag_call`).
* A negative descriptor: `FdManager::get` tests `fd == -1` and `m_datas.size() <= fd`,
  `FdManager::del` only the second, and the `IOManager` lookups only the size; every other
  negative number indexes the vectors below `0` (`negative_fd_indexes_tables`).
* `connect_with_timeout` after a failed `addEvent(fd, WRITE)`: it logs, cancels the timer and goes
  on to `getsockopt(SO_ERROR)`, which is `0` for a connection still in progress, and returns `0`
  (`connect_ok_after_failed_addEvent`). -/

namespace Sylar.Hook.Returns

open Sylar.Kernel.Epoll Sylar.IOManager.Context Sylar.IOManager.Context.Event Sylar.IOManager.Ops
open Sylar.Hook.FdTable Sylar.Hook.Io

/-! ### `F_GETFL` -/

/-- `F_GETFL` on an open socket context over an open file reports the context's user flag. -/
theorem fcntlGetfl_socket {s : HookSt} {fd : Int} {c : FdCtx} {f : File}
    (hc : s.fdMgr.find fd = some c) (hcl : c.isClosed = false) (hs : c.isSocket = true)
    (hf : s.kernel.files fd = some f) : fcntlGetfl s fd = .ok (some c.userNonblock) := by
  cases hu : c.userNonblock <;>
    simp [fcntlGetfl, get_of_nonneg _ _ (find_nonneg hc), hc, hcl, hs, hf, hu]

/-- After `setUserNonblock(nb)` on an open socket context over an open file, `F_GETFL` reports
`nb`, whatever the kernel's flag. -/
theorem fcntlGetfl_setUser {s : HookSt} {fd : Int} {c : FdCtx} {f : File}
    (hc : s.fdMgr.find fd = some c) (hcl : c.isClosed = false) (hs : c.isSocket = true)
    (hf : s.kernel.files fd = some f) (nb sys : Bool) :
    fcntlGetfl { s with fdMgr := s.fdMgr.setUser fd nb,
                        kernel := Kernel.setNonblock s.kernel fd sys } fd = .ok (some nb) :=
  fcntlGetfl_socket (c := { c with userNonblock := nb }) (f := { f with nonblock := sys })
    (by simp [FdManager.setUser, find_update (find_nonneg hc), hc]) hcl hs
    (by simp [Kernel.setNonblock_files, hf])

/-- **What `F_SETFL` and `FIONBIO` ask for is reported.** On an open socket context over an open
file, after the hooked `fcntl(F_SETFL)` or `ioctl(FIONBIO)` asks for `nb`, `F_GETFL` reports `nb`. -/
theorem getfl_reports_flag_call {s : HookSt} {fd : Int} {c : FdCtx} {f : File}
    (hc : s.fdMgr.find fd = some c) (hcl : c.isClosed = false) (hs : c.isSocket = true)
    (hf : s.kernel.files fd = some f) (nb : Bool) :
    (∃ s', hookStep s (.fcntlSetfl fd nb) = .ok s' ∧ fcntlGetfl s' fd = .ok (some nb)) ∧
      ∃ s', hookStep s (.ioctlFionbio fd nb) = .ok s' ∧ fcntlGetfl s' fd = .ok (some nb) := by
  have hget := get_of_nonneg s.fdMgr s.kernel (find_nonneg hc)
  rw [hc] at hget
  exact ⟨⟨_, by simp [hookStep, hget, hcl, hs], fcntlGetfl_setUser hc hcl hs hf nb c.sysNonblock⟩,
    ⟨_, by simp [hookStep, hget, hcl, hs], fcntlGetfl_setUser hc hcl hs hf nb nb⟩⟩

/-! ### `SOCK_NONBLOCK` -/

/-- The hooked `socket` with `SOCK_NONBLOCK`, under a free number `≥ 2` with no context: a
non-blocking socket, and a context whose `m_userNonblock` is `false`. -/
theorem socket_nonblock_step (s : HookSt) {fd : Int} (hfree : s.isFree fd = true)
    (hn : s.fdMgr.find fd = none) (h2 : 2 ≤ fd) :
    ∃ s', hookStep s (.socket true fd true) = .ok s' ∧
      s'.kernel.files fd = some ⟨s.nextFile, true, true⟩ ∧
      s'.fdMgr.find fd = some ⟨true, true, true, false, false, fd, noTimeout, noTimeout⟩ := by
  have hopen : s.kernel.isOpen fd = false := by
    simp only [HookSt.isFree, Bool.and_eq_true, Bool.not_eq_true', decide_eq_true_eq] at hfree
    exact hfree.2
  have hfile : (s.openNew fd true true).kernel.files fd = some ⟨s.nextFile, true, true⟩ := by
    simp [HookSt.openNew, openFd, hopen]
  have hinit : FdCtx.init (s.openNew fd true true).kernel fd =
      (⟨true, true, true, false, false, fd, noTimeout, noTimeout⟩, (s.openNew fd true true).kernel) := by
    simp [FdCtx.init, hfile]
  obtain ⟨m', hget, hfind⟩ := get_create_new (s.openNew fd true true).fdMgr _ h2 hn
  rw [hinit] at hget hfind
  exact ⟨{ s.openNew fd true true with fdMgr := m' },
    by simp only [hookStep, hfree, if_true, HookSt.getCreate, hget]; rfl, hfile, hfind⟩

/-- A hooked `socket` with `SOCK_NONBLOCK` returns `5`; a coroutine's `read(5)` finds `EAGAIN`. -/
def nonblockReadTrace : List Action :=
  [.call (.socket true 5 true), .startIo 0 5 READ SO_RCVTIMEO, .raw 0 (.err EAGAIN)]

/-- The world `nonblockReadTrace` reaches. -/
def lostNonblock : World :=
  match run ioWorld nonblockReadTrace with
  | .ok w => w
  | .error _ => ioWorld

/-- **A `SOCK_NONBLOCK` request is lost.** For every descriptor table and free number with no
context, the hooked `socket` with `SOCK_NONBLOCK` leaves the socket non-blocking in the kernel
while `F_GETFL` reports `O_NONBLOCK` clear; and on an `IOManager`'s worker a `read` on such a
socket that finds `EAGAIN` parks the coroutine instead of returning. -/
theorem sock_nonblock_request_lost :
    (∀ (s : HookSt) (fd : Int), s.isFree fd = true → s.fdMgr.find fd = none → 2 ≤ fd →
      ∃ s', hookStep s (.socket true fd true) = .ok s' ∧
        (s'.kernel.files fd).map (·.nonblock) = some true ∧ fcntlGetfl s' fd = .ok (some false)) ∧
    ∃ w, run ioWorld nonblockReadTrace = .ok w ∧ Reach w ∧ fcntlGetfl w.hook 5 = .ok (some false) ∧
      w.cos 0 = .io ⟨.doIo, 5, READ, noTimeout, 0, some 2⟩ (.parked none) := by
  refine ⟨fun s fd hfree hn h2 => ?_, lostNonblock, rfl,
    run_reach (.init _ 3 4 2 (by decide)) (rfl : run ioWorld nonblockReadTrace = .ok lostNonblock),
    rfl, rfl⟩
  obtain ⟨s', hs, hf, hc⟩ := socket_nonblock_step s hfree hn h2
  exact ⟨s', hs, by rw [hf]; rfl, fcntlGetfl_socket hc rfl rfl hf⟩

/-! ### Negative descriptors -/

/-- **Negative descriptors index the tables below `0`.** For every `fd < 0`: `FdManager::get`, with
or without creation, unless `fd = -1`, and `FdManager::del` read `m_datas[fd]`; the `IOManager`'s
lookup, and with it `addEvent`, `delEvent`, `cancelEvent` and `cancelAll`, reads
`m_fdContexts[fd]`; and a hooked `read` on a worker reaches `FdManager::get`. -/
theorem negative_fd_indexes_tables (fd : Int) (hfd : fd < 0) :
    (fd ≠ -1 → ∀ (m : FdManager) (k : Kernel) (autoCreate : Bool),
      m.get k fd autoCreate = .error "m_datas[fd]") ∧
    (∀ m : FdManager, m.del fd = .error "m_datas[fd]") ∧
    (∀ m : IOManager, lookup m fd = .error "m_fdContexts[fd]") ∧
    (∀ (s : IOManager.Run.St) (t : Nat) (op : IOManager.Run.Op), op.fd = fd → s.idle t = true →
      IOManager.Run.step s (.call t op) = .error "m_fdContexts[fd]") ∧
    (∀ (m : IOManager) (k : Kernel) (event : Event) (cur : Nat),
      addEvent m k fd event cur = .error "m_fdContexts[fd]") ∧
    (fd ≠ -1 → ∀ (w : World) (i : Nat) (event : Event) (so : Nat), w.thread.hookEnable = true →
      (w.cos i).free = true → step w (.startIo i fd event so) = .error "m_datas[fd]") := by
  have hget : fd ≠ -1 → ∀ (m : FdManager) (k : Kernel) (autoCreate : Bool),
      m.get k fd autoCreate = .error "m_datas[fd]" := fun h1 m _ _ => by
    simp only [FdManager.get, if_neg h1, if_neg (show ¬(m.datas.length : Int) ≤ fd by omega),
      if_pos hfd]
  have hlookup : ∀ m : IOManager, lookup m fd = .error "m_fdContexts[fd]" := fun m => by
    simp only [lookup, if_neg (show ¬(m.fdContexts.length : Int) ≤ fd by omega),
      if_neg (show ¬0 ≤ fd by omega)]
  refine ⟨hget, fun m => ?_, hlookup, fun s t op hop hidle => ?_, fun m k event cur => ?_,
    fun h1 w i event so hen hfree => ?_⟩
  · simp only [FdManager.del, if_neg (show ¬(m.datas.length : Int) ≤ fd by omega), if_pos hfd]
  · simp only [IOManager.Run.step, hidle, Bool.true_eq_false, if_false, hop, hlookup]
  · simp only [addEvent, hlookup]
  · simp only [step, hfree, if_true, startIo, hen, Bool.true_eq_false, if_false, hget h1]

theorem negative_fd_indexes_tables_two :
    (-2 : Int) < 0 ∧ step ioWorld (.startIo 0 (-2) READ SO_RCVTIMEO) = .error "m_datas[fd]" ∧
      FdManager.initial.del (-2) = .error "m_datas[fd]" :=
  ⟨by decide, (negative_fd_indexes_tables (-2) (by decide)).2.2.2.2.2 (by decide) ioWorld 0 READ
    SO_RCVTIMEO rfl rfl, (negative_fd_indexes_tables (-2) (by decide)).2.1 _⟩

/-! ### `connect` after a failed registration -/

/-- **`connect` returns `0` after a failed `addEvent`.** Whatever the world, a coroutine whose raw
`connect` on a non-blocking socket gives `EINPROGRESS` on an `IOManager`'s worker, where
`addEvent(fd, WRITE)` fails, goes on to `getsockopt(SO_ERROR)`; when that reports `0`, as it does
for a connection in progress, the call returns `0` with no write readiness seen. -/
theorem connect_ok_after_failed_addEvent (w : World) (i : Nat) (c : IoCall) (f : File)
    (hc : w.cos i = .io c .connect) (hf : w.hook.kernel.files c.fd = some f)
    (hn : f.nonblock = true) (hiom : w.thread.iom = true)
    (hadd : ∃ e r, addEvent w.iom w.hook.kernel c.fd c.event i = .ok (e, r) ∧ r ≠ 0) :
    ∃ w', step w (.raw i (.err EINPROGRESS)) = .ok w' ∧ w'.cos i = .io c .sockopt ∧
      (step w' (.raw i (.ok 0))).toOption.map (·.cos i) = some (.done 0 none) := by
  obtain ⟨e, r, he, hr⟩ := hadd
  have hke := addEvent_fail he hr
  let w' := w.access i c false
  let w1 := ((({ w' with timers := (armTimer w' c).1 }.access i c true).apply e).cancelTimer
    (armTimer w' c).2).setCo i (.io c .sockopt)
  have hstep : step w (.raw i (.err EINPROGRESS)) = .ok w1 := by
    simp [step, raw, hc, rawResult_nonblock hf hn, wait, World.access, hiom, he, hr, w1, w']
  have hc1 : w1.cos i = .io c .sockopt := by simp [w1, World.setCo]
  have hf1 : w1.hook.kernel.files c.fd = some f := by
    have hk1 : w1.hook.kernel = w.hook.kernel := by
      change w1.reactor.2.1 = _
      simp [w1, hke]
    rw [hk1]; exact hf
  refine ⟨w1, hstep, hc1, ?_⟩
  simp [step, raw, hc1, rawResult_nonblock hf1 hn, World.finish, World.setCo, World.access,
    Except.toOption]

/-- A `read(5)` parks with `READ` registered; a thread with hooking off closes `5`, which drops the
kernel's registration and not the reactor's; a hooked `socket` with `SOCK_NONBLOCK` gets the number
again and finds the old context, so the new socket is non-blocking only by its own flag; a second
coroutine's `connect(5)` begins. -/
def staleConnectTrace : List Action :=
  [.call (.socket true 5 false), .startIo 0 5 READ SO_RCVTIMEO, .raw 0 (.err EAGAIN),
   .call (.close false 5), .call (.socket true 5 true), .startConnect 1 5 noTimeout]

/-- The world `staleConnectTrace` reaches. -/
def staleConnect : World :=
  match run ioWorld staleConnectTrace with
  | .ok w => w
  | .error _ => ioWorld

theorem connect_ok_after_failed_addEvent_stale :
    Reach staleConnect ∧ staleConnect.hook.kernel.files 5 = some ⟨3, true, true⟩ ∧
      (addEvent staleConnect.iom staleConnect.hook.kernel 5 WRITE 1).toOption.map (·.2) = some (-1) ∧
      ∃ w', step staleConnect (.raw 1 (.err EINPROGRESS)) = .ok w' ∧
        w'.cos 1 = .io ⟨.connect, 5, WRITE, noTimeout, 1, some 3⟩ .sockopt ∧
        (step w' (.raw 1 (.ok 0))).toOption.map (·.cos 1) = some (.done 0 none) :=
  ⟨run_reach (.init _ 3 4 2 (by decide)) (rfl : run ioWorld staleConnectTrace = .ok staleConnect),
   rfl, rfl,
   connect_ok_after_failed_addEvent staleConnect 1 ⟨.connect, 5, WRITE, noTimeout, 1, some 3⟩
    ⟨3, true, true⟩ rfl rfl rfl rfl ⟨_, _, rfl, by decide⟩⟩

end Sylar.Hook.Returns
