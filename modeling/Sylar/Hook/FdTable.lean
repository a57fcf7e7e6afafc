import Sylar.Kernel.Epoll
import Mathlib.Data.List.GetD

/-! # `FdCtx` and `FdManager`: what the hooks know of a descriptor

`FdManager::m_datas` maps a descriptor number to its `FdCtx`, created lazily by
`FdManager::get(fd, true)` (the hooked `socket` and `accept`) and dropped by `FdManager::del`
(the hooked `close`). `FdCtx::init` runs once, in the constructor: it `fstat`s the descriptor and,
for a socket, sets `O_NONBLOCK` in the kernel and records `m_sysNonblock`.

The hooks that touch a context:

* `socket` (hook enabled) and `accept` (always): the raw call, then `get(fd, true)`;
* `fcntl(F_SETFL)`: records the user's `O_NONBLOCK` and forwards the system's;
* `ioctl(FIONBIO)`: records the user's request and forwards it as it is;
* `setsockopt(SO_RCVTIMEO or SO_SNDTIMEO)` (hook enabled): records the `timeval` in milliseconds;
* `close` (hook enabled): `del(fd)` if a context exists, then `close_f`. With hooking disabled
  `close` is `close_f` alone;
* `fcntl(F_GETFL)` (`fcntlGetfl`): reports the user's `O_NONBLOCK` for a socket context.

`get(fd, true)` returns an existing context without running `init` again, so a context left by a
`close` that skipped `del` is handed to the next file under that number
(`stale_context_after_unhooked_close`). Apart from that and from `ioctl(FIONBIO, &0)`, which clears
`O_NONBLOCK` in the kernel under a context that says it is set, every socket context describes the
open file under its number and that file is non-blocking (`socket_contexts_nonblocking`). -/

namespace Sylar.Hook.FdTable

open Sylar.Kernel.Epoll

/-- `(uint64_t)-1`, the timeout that means none. -/
def noTimeout : Nat := 2 ^ 64 - 1

/-- **`FdCtx`**. -/
structure FdCtx where
  isInit : Bool
  isSocket : Bool
  sysNonblock : Bool
  userNonblock : Bool
  isClosed : Bool
  fd : Int
  recvTimeout : Nat
  sendTimeout : Nat
deriving DecidableEq, Repr

def SO_RCVTIMEO : Nat := 20
def SO_SNDTIMEO : Nat := 21

/-- **`FdCtx::setTimeout(type, v)`**. -/
def FdCtx.setTimeout (c : FdCtx) (type v : Nat) : FdCtx :=
  if type = SO_RCVTIMEO then { c with recvTimeout := v } else { c with sendTimeout := v }

theorem FdCtx.setTimeout_flags (c : FdCtx) (type v : Nat) :
    (c.setTimeout type v).isClosed = c.isClosed ∧ (c.setTimeout type v).isSocket = c.isSocket ∧
      (c.setTimeout type v).sysNonblock = c.sysNonblock := by
  unfold FdCtx.setTimeout; split_ifs <;> exact ⟨rfl, rfl, rfl⟩

/-- **`FdCtx::getTimeout(type)`**. -/
def FdCtx.getTimeout (c : FdCtx) (type : Nat) : Nat :=
  if type = SO_RCVTIMEO then c.recvTimeout else c.sendTimeout

/-- The timeout the hooked `setsockopt` stores for the `timeval` `{sec, usec}`:
`v->tv_sec * 1000 + v->tv_usec / 1000` in `long`, passed to `setTimeout` as `uint64_t`. -/
def timevalMs (sec usec : Int) : Nat := ((sec * 1000 + Int.tdiv usec 1000) % 2 ^ 64).toNat

/-- **`FdCtx::FdCtx(fd)`**, which runs `FdCtx::init`: `fstat`; for a socket, `fcntl_f(F_SETFL,
flags | O_NONBLOCK)` if the flag is clear, and `m_sysNonblock = true`. -/
def FdCtx.init (k : Kernel) (fd : Int) : FdCtx × Kernel :=
  match k.files fd with
  | none => (⟨false, false, false, false, false, fd, noTimeout, noTimeout⟩, k)
  | some f =>
    if f.isSocket then
      (⟨true, true, true, false, false, fd, noTimeout, noTimeout⟩,
       if f.nonblock then k else Kernel.setNonblock k fd true)
    else (⟨true, false, false, false, false, fd, noTimeout, noTimeout⟩, k)

/-- The contexts, indexed by descriptor (`m_datas`, 64 entries at first). -/
structure FdManager where
  datas : List (Option FdCtx)

def FdManager.initial : FdManager := ⟨List.replicate 64 none⟩

/-- `m_datas.resize(n)`. -/
def resize (l : List (Option FdCtx)) (n : Nat) : List (Option FdCtx) :=
  l.take n ++ List.replicate (n - l.length) none

/-- `get`'s write-locked part: a new context, the vector grown to `fd * 1.5` if it is too short,
and `m_datas[fd] = ctx`. -/
def FdManager.create (m : FdManager) (k : Kernel) (fd : Int) :
    Except String (FdManager × Kernel × Option FdCtx) :=
  let (c, k') := FdCtx.init k fd
  let datas := if (m.datas.length : Int) ≤ fd then resize m.datas (fd.toNat + fd.toNat / 2)
    else m.datas
  if 0 ≤ fd ∧ fd.toNat < datas.length then .ok (⟨datas.set fd.toNat (some c)⟩, k', some c)
  else .error "m_datas[fd]"

/-- **`FdManager::get(fd, auto_create)`**. -/
def FdManager.get (m : FdManager) (k : Kernel) (fd : Int) (autoCreate : Bool) :
    Except String (FdManager × Kernel × Option FdCtx) :=
  if fd = -1 then .ok (m, k, none) else
  if (m.datas.length : Int) ≤ fd then
    if autoCreate then m.create k fd else .ok (m, k, none)
  else if fd < 0 then .error "m_datas[fd]"
  else match m.datas.getD fd.toNat none with
    | some c => .ok (m, k, some c)
    | none => if autoCreate then m.create k fd else .ok (m, k, none)

/-- **`FdManager::del(fd)`**. -/
def FdManager.del (m : FdManager) (fd : Int) : Except String FdManager :=
  if (m.datas.length : Int) ≤ fd then .ok m
  else if fd < 0 then .error "m_datas[fd]"
  else .ok ⟨m.datas.set fd.toNat none⟩

/-- The context of `fd`, as `get(fd)` without creation returns it. -/
def FdManager.find (m : FdManager) (fd : Int) : Option FdCtx :=
  if 0 ≤ fd then m.datas.getD fd.toNat none else none

/-! ### Lookups -/

theorem find_of_le {m : FdManager} {fd : Int} (h : (m.datas.length : Int) ≤ fd) :
    m.find fd = none := by
  unfold FdManager.find
  split_ifs with h0
  · exact List.getD_eq_default _ _ (by omega)
  · rfl

theorem get_noCreate {m m' : FdManager} {k k' : Kernel} {fd : Int} {c : Option FdCtx}
    (h : m.get k fd false = .ok (m', k', c)) : m' = m ∧ k' = k ∧ c = m.find fd := by
  simp only [FdManager.get, Bool.false_eq_true, if_false] at h
  split_ifs at h with h1 h2 h3
  · cases h; exact ⟨rfl, rfl, by simp [FdManager.find, h1]⟩
  · cases h; exact ⟨rfl, rfl, (find_of_le h2).symm⟩
  · have h0 : 0 ≤ fd := by omega
    split at h <;> cases h <;> exact ⟨rfl, rfl, by simp_all [FdManager.find]⟩

theorem getD_resize (l : List (Option FdCtx)) (n i : Nat) :
    (resize l n).getD i none = l.getD i none ∨ (resize l n).getD i none = none := by
  unfold resize
  by_cases hi : i < (l.take n).length
  · left
    rw [List.getD_append _ _ _ _ hi, List.getD_eq_getElem?_getD, List.getD_eq_getElem?_getD,
      List.getElem?_take_of_lt (by simp at hi; omega)]
  · right
    rw [List.getD_append_right _ _ _ _ (by omega), List.getD_eq_getElem?_getD]
    cases h : (List.replicate (n - l.length) (none : Option FdCtx))[i - (l.take n).length]? with
    | none => rfl
    | some x => exact (List.eq_of_mem_replicate (List.getElem?_mem h)) ▸ rfl

theorem find_set_ne {l : List (Option FdCtx)} {fd fd' : Int} (h0 : 0 ≤ fd) (hne : fd' ≠ fd)
    (x : Option FdCtx) :
    FdManager.find ⟨l.set fd.toNat x⟩ fd' = FdManager.find ⟨l⟩ fd' := by
  unfold FdManager.find
  split_ifs with h1
  · simp only [List.getD_eq_getElem?_getD]
    rw [List.getElem?_set_ne (by omega)]
  · rfl

theorem find_set_self {l : List (Option FdCtx)} {fd : Int} (h0 : 0 ≤ fd)
    (hlt : fd.toNat < l.length) (x : Option FdCtx) :
    FdManager.find ⟨l.set fd.toNat x⟩ fd = x := by
  simp [FdManager.find, h0, List.getD_eq_getElem?_getD, hlt]

theorem find_resize {l : List (Option FdCtx)} (n : Nat) (fd : Int) :
    FdManager.find ⟨resize l n⟩ fd = FdManager.find ⟨l⟩ fd ∨
      FdManager.find ⟨resize l n⟩ fd = none := by
  unfold FdManager.find
  split_ifs
  · exact getD_resize l n fd.toNat
  · exact .inl rfl

@[simp] theorem find_initial (fd : Int) : FdManager.initial.find fd = none := by
  unfold FdManager.find FdManager.initial
  split_ifs
  · rw [List.getD_eq_getElem?_getD, List.getElem?_getD_replicate_default_eq]
  · rfl

/-- A created context is `init`'s, at its descriptor; other descriptors keep their context or
lose it to a resize. -/
theorem create_ok {m m' : FdManager} {k k' : Kernel} {fd : Int} {c : Option FdCtx}
    (h : m.create k fd = .ok (m', k', c)) :
    c = some (FdCtx.init k fd).1 ∧ k' = (FdCtx.init k fd).2 ∧ m'.find fd = c ∧
      ∀ fd', fd' ≠ fd → m'.find fd' = m.find fd' ∨ m'.find fd' = none := by
  simp only [FdManager.create] at h
  generalize hd : (if (m.datas.length : Int) ≤ fd then resize m.datas (fd.toNat + fd.toNat / 2)
    else m.datas) = datas at h
  split_ifs at h with hb
  cases h
  refine ⟨rfl, rfl, find_set_self hb.1 hb.2 _, fun fd' hne => ?_⟩
  rw [find_set_ne hb.1 hne, ← hd]
  split_ifs
  · exact find_resize _ fd'
  · exact .inl rfl

theorem get_create {m m' : FdManager} {k k' : Kernel} {fd : Int} {c : Option FdCtx}
    (h : m.get k fd true = .ok (m', k', c)) :
    (m' = m ∧ k' = k ∧ c = m.find fd) ∨
      (m.find fd = none ∧ m.create k fd = .ok (m', k', c)) := by
  simp only [FdManager.get, if_true] at h
  split_ifs at h with h1 h2 h3
  · cases h; exact .inl ⟨rfl, rfl, by simp [FdManager.find, h1]⟩
  · exact .inr ⟨find_of_le h2, h⟩
  · have h0 : 0 ≤ fd := by omega
    split at h
    · cases h; exact .inl ⟨rfl, rfl, by simp_all [FdManager.find]⟩
    · exact .inr ⟨by simp_all [FdManager.find], h⟩

@[simp] theorem length_resize (l : List (Option FdCtx)) (n : Nat) : (resize l n).length = n := by
  simp only [resize, List.length_append, List.length_take, List.length_replicate]; omega

/-- `get(fd)` without creation reads the table at a number that is not negative. -/
theorem get_of_nonneg (m : FdManager) (k : Kernel) {fd : Int} (h0 : 0 ≤ fd) :
    m.get k fd false = .ok (m, k, m.find fd) := by
  simp only [FdManager.get, Bool.false_eq_true, if_false]
  split_ifs with h1 h2 h3
  · omega
  · rw [find_of_le h2]
  · omega
  · simp only [FdManager.find, h0, if_true]
    split <;> simp_all

/-- `get(fd, true)` at a number `≥ 2` with no context stores `init`'s. -/
theorem get_create_new (m : FdManager) (k : Kernel) {fd : Int} (h2 : 2 ≤ fd)
    (hn : m.find fd = none) :
    ∃ m', m.get k fd true = .ok (m', (FdCtx.init k fd).2, some (FdCtx.init k fd).1) ∧
      m'.find fd = some (FdCtx.init k fd).1 := by
  have hget : m.get k fd true = m.create k fd := by
    simp only [FdManager.find, show 0 ≤ fd by omega, if_true] at hn
    simp only [FdManager.get, if_true]
    split_ifs with h1 h3 h4
    · omega
    · rfl
    · omega
    · rw [hn]
  have hcr : ∃ m', m.create k fd = .ok (m', (FdCtx.init k fd).2, some (FdCtx.init k fd).1) := by
    simp only [FdManager.create]
    rw [if_pos ⟨by omega, by split_ifs <;> [rw [length_resize]; skip] <;> omega⟩]
    exact ⟨_, rfl⟩
  obtain ⟨m', hm'⟩ := hcr
  exact ⟨m', hget.trans hm', (create_ok hm').2.2.1⟩

theorem del_ok {m m' : FdManager} {fd : Int} (h : m.del fd = .ok m') :
    m'.find fd = none ∧ ∀ fd', fd' ≠ fd → m'.find fd' = m.find fd' := by
  unfold FdManager.del at h
  split_ifs at h with h1 h2
  · cases h; exact ⟨find_of_le h1, fun _ _ => rfl⟩
  · cases h
    exact ⟨find_set_self (by omega) (by omega) _, fun fd' hne => find_set_ne (by omega) hne _⟩

theorem init_isClosed (k : Kernel) (fd : Int) : (FdCtx.init k fd).1.isClosed = false := by
  unfold FdCtx.init; split <;> [rfl; split <;> rfl]

theorem init_files_ne (k : Kernel) {fd fd' : Int} (hne : fd' ≠ fd) :
    (FdCtx.init k fd).2.files fd' = k.files fd' := by
  unfold FdCtx.init
  split
  · rfl
  · split
    · split
      · rfl
      · rw [Kernel.setNonblock_files, if_neg hne]
    · rfl

/-- `init` on a socket makes it non-blocking. -/
theorem init_socket (k : Kernel) (fd : Int) (h : (FdCtx.init k fd).1.isSocket = true) :
    (FdCtx.init k fd).1.sysNonblock = true ∧
      ∃ f, (FdCtx.init k fd).2.files fd = some f ∧ f.isSocket = true ∧ f.nonblock = true := by
  unfold FdCtx.init at h ⊢
  cases hf : k.files fd with
  | none => rw [hf] at h; cases h
  | some f =>
    rw [hf] at h
    by_cases hs : f.isSocket = true
    · simp only [hs, if_true, true_and]
      by_cases hn : f.nonblock = true
      · exact ⟨f, by simp [hn, hf], hs, hn⟩
      · refine ⟨{ f with nonblock := true }, ?_, hs, rfl⟩
        simp [hn, Kernel.setNonblock_files, hf]
    · simp [hs] at h

/-! ### The hooked calls -/

/-- A setter called on the context of `fd`. -/
def FdManager.update (m : FdManager) (fd : Int) (f : FdCtx → FdCtx) : FdManager :=
  ⟨m.datas.set fd.toNat ((m.datas.getD fd.toNat none).map f)⟩

/-- `ctx->setUserNonblock(v)` on the context of `fd`. -/
def FdManager.setUser (m : FdManager) (fd : Int) (v : Bool) : FdManager :=
  m.update fd ({ · with userNonblock := v })

/-- The descriptor table, the contexts, and the next file identity. -/
structure HookSt where
  kernel : Kernel
  fdMgr : FdManager
  nextFile : Nat

/-- A call, by a thread with hooking enabled (`hooked`) or not where the hook tests it. -/
inductive Call
  /-- `socket(...)` returning `fd` (`nonblock`: `SOCK_NONBLOCK` in the type). -/
  | socket (hooked : Bool) (fd : Int) (nonblock : Bool)
  /-- `accept` returning the new connection `fd`. -/
  | accept (fd : Int)
  /-- An unhooked call that opens a file that is not a socket (`open`, `pipe`). -/
  | openFile (fd : Int)
  | fcntlSetfl (fd : Int) (nonblock : Bool)
  | ioctlFionbio (fd : Int) (enable : Bool)
  /-- `setsockopt(fd, SOL_SOCKET, optname, &tv, ...)` with the `timeval` `{sec, usec}`. -/
  | setsockopt (hooked : Bool) (fd : Int) (optname : Nat) (sec usec : Int)
  | close (hooked : Bool) (fd : Int)

namespace HookSt

/-- The kernel opens a new file under the free number `fd`. -/
def openNew (s : HookSt) (fd : Int) (isSocket nonblock : Bool) : HookSt :=
  { s with kernel := openFd s.kernel fd ⟨s.nextFile, isSocket, nonblock⟩,
           nextFile := s.nextFile + 1 }

/-- `FdMgr::get(fd, true)`. -/
def getCreate (s : HookSt) (fd : Int) : Except String HookSt :=
  (s.fdMgr.get s.kernel fd true).map fun r => { s with fdMgr := r.1, kernel := r.2.1 }

/-- A number the kernel can hand out. -/
def isFree (s : HookSt) (fd : Int) : Bool := 0 ≤ fd && !s.kernel.isOpen fd

end HookSt

/-- **The hooked calls** on the descriptor table (the reactor's part of `close`, `cancelAll`, is the
reactor's). `fcntl` and `ioctl` consult the context whatever the hook flag. -/
def hookStep (s : HookSt) : Call → Except String HookSt
  | .socket hooked fd nb =>
    if s.isFree fd then
      if hooked then (s.openNew fd true nb).getCreate fd else .ok (s.openNew fd true nb)
    else .ok s
  | .accept fd => if s.isFree fd then (s.openNew fd true false).getCreate fd else .ok s
  | .openFile fd => if s.isFree fd then .ok (s.openNew fd false false) else .ok s
  | .fcntlSetfl fd nb =>
    match s.fdMgr.get s.kernel fd false with
    | .error e => .error e
    | .ok (_, _, some c) =>
      if c.isClosed || !c.isSocket then
        .ok { s with kernel := Kernel.setNonblock s.kernel fd nb }
      else .ok { s with fdMgr := s.fdMgr.setUser fd nb,
                        kernel := Kernel.setNonblock s.kernel fd c.sysNonblock }
    | .ok (_, _, none) => .ok { s with kernel := Kernel.setNonblock s.kernel fd nb }
  | .ioctlFionbio fd enable =>
    match s.fdMgr.get s.kernel fd false with
    | .error e => .error e
    | .ok (_, _, some c) =>
      if c.isClosed || !c.isSocket then
        .ok { s with kernel := Kernel.setNonblock s.kernel fd enable }
      else .ok { s with fdMgr := s.fdMgr.setUser fd enable,
                        kernel := Kernel.setNonblock s.kernel fd enable }
    | .ok (_, _, none) => .ok { s with kernel := Kernel.setNonblock s.kernel fd enable }
  | .setsockopt hooked fd optname sec usec =>
    if hooked ∧ (optname = SO_RCVTIMEO ∨ optname = SO_SNDTIMEO) then
      match s.fdMgr.get s.kernel fd false with
      | .error e => .error e
      | .ok (_, _, some _) =>
        .ok { s with fdMgr := s.fdMgr.update fd (·.setTimeout optname (timevalMs sec usec)) }
      | .ok (_, _, none) => .ok s
    else .ok s
  | .close hooked fd =>
    if hooked then
      match s.fdMgr.get s.kernel fd false with
      | .error e => .error e
      | .ok (_, _, some _) =>
        (s.fdMgr.del fd).map fun m => { s with fdMgr := m, kernel := closeFd s.kernel fd }
      | .ok (_, _, none) => .ok { s with kernel := closeFd s.kernel fd }
    else .ok { s with kernel := closeFd s.kernel fd }

/-- **The hooked `fcntl(fd, F_GETFL)`**, the `O_NONBLOCK` bit of what it returns (`none` for `-1`):
`fcntl_f(fd, F_GETFL)`, which is `-1` on a closed number; then, past the guard of an open socket
context, `arg | O_NONBLOCK` if the context says `m_userNonblock`, else `arg & ~O_NONBLOCK`. -/
def fcntlGetfl (s : HookSt) (fd : Int) : Except String (Option Bool) :=
  let arg := (s.kernel.files fd).map (·.nonblock)
  match s.fdMgr.get s.kernel fd false with
  | .error e => .error e
  | .ok (_, _, some c) =>
    if c.isClosed || !c.isSocket then .ok arg
    else if c.userNonblock then .ok (arg.map fun _ => true) else .ok (some false)
  | .ok (_, _, none) => .ok arg

/-- The states reached from any descriptor table with no contexts, by calls `allowed` admits. -/
inductive HookReach (allowed : HookSt → Call → Prop) : HookSt → Prop
  | init (k : Kernel) (n : Nat) : HookReach allowed ⟨k, .initial, n⟩
  | step {s s' : HookSt} (c : Call) : HookReach allowed s → allowed s c →
      hookStep s c = .ok s' → HookReach allowed s'

/-- Run a list of calls. -/
def runCalls (s : HookSt) : List Call → Except String HookSt
  | [] => .ok s
  | c :: cs =>
    match hookStep s c with
    | .error msg => .error msg
    | .ok s' => runCalls s' cs

theorem runCalls_reach {allowed : HookSt → Call → Prop} (hall : ∀ s c, allowed s c) :
    ∀ {s s' : HookSt} {cs : List Call}, HookReach allowed s → runCalls s cs = .ok s' →
      HookReach allowed s'
  | s, s', [], hs, h => by cases h; exact hs
  | s, s', c :: cs, hs, h => by
    unfold runCalls at h
    split at h
    · cases h
    · exact runCalls_reach hall (.step c hs (hall s c) ‹_›) h

/-! ### Socket contexts stay non-blocking -/

/-- **A context that tells the truth**: never marked closed, and a socket context says
`m_sysNonblock` of a socket under its number whose `O_NONBLOCK` is set. -/
def CtxOk (k : Kernel) (fd : Int) (c : FdCtx) : Prop :=
  c.isClosed = false ∧ (c.isSocket = true → c.sysNonblock = true ∧
    ∃ f, k.files fd = some f ∧ f.isSocket = true ∧ f.nonblock = true)

def SockOk (s : HookSt) : Prop := ∀ fd c, s.fdMgr.find fd = some c → CtxOk s.kernel fd c

/-- No socket context under `fd`. -/
def NoSocketCtx (s : HookSt) (fd : Int) : Prop :=
  ∀ c, s.fdMgr.find fd = some c → c.isSocket = false

/-- The runs in which a descriptor with a socket context is closed only through the hooked
`close` on a thread with hooking enabled, and never given `ioctl(FIONBIO, &0)`. -/
def Disciplined : HookSt → Call → Prop
  | s, .close false fd => NoSocketCtx s fd
  | s, .ioctlFionbio fd false => NoSocketCtx s fd
  | _, _ => True

variable {s s' : HookSt} {fd : Int}

theorem NoSocketCtx.of_none (h : s.fdMgr.find fd = none) : NoSocketCtx s fd :=
  fun _ hc => by rw [h] at hc; cases hc

theorem CtxOk.transfer {k k' : Kernel} {c : FdCtx} (h : CtxOk k fd c)
    (hf : k'.files fd = k.files fd) : CtxOk k' fd c := by
  rw [CtxOk, hf]; exact h

theorem CtxOk.nonSocket {k : Kernel} {c : FdCtx} (h : c.isClosed = false)
    (hs : c.isSocket = false) : CtxOk k fd c :=
  ⟨h, fun h' => absurd h' (by simp [hs])⟩

theorem SockOk.closed (h : SockOk s) (hfd : s.kernel.files fd = none) : NoSocketCtx s fd := by
  intro c hc
  cases hs : c.isSocket
  · rfl
  · obtain ⟨-, f, hf, -⟩ := (h fd c hc).2 hs
    simp [hfd] at hf

/-- A context the hooks pass over (`ctx->isClose() || !ctx->isSocket()`) is not a socket's. -/
theorem SockOk.noSocket_of_guard (h : SockOk s) {c : FdCtx} (hc : s.fdMgr.find fd = some c)
    (hg : (c.isClosed || !c.isSocket) = true) : NoSocketCtx s fd := by
  intro c' hc'
  rw [hc] at hc'
  cases hc'
  simpa [(h fd c hc).1] using hg

theorem find_nonneg {m : FdManager} {c : FdCtx} (h : m.find fd = some c) : 0 ≤ fd := by
  unfold FdManager.find at h
  split_ifs at h with h0
  · exact h0

theorem find_update {m : FdManager} (h0 : 0 ≤ fd) (f : FdCtx → FdCtx) (fd' : Int) :
    (m.update fd f).find fd' = if fd' = fd then (m.find fd).map f else m.find fd' := by
  split_ifs with h
  · subst h
    unfold FdManager.update FdManager.find
    simp only [h0, if_true, List.getD_eq_getElem?_getD]
    by_cases hl : fd'.toNat < m.datas.length
    · simp [hl]
    · rw [List.set_eq_of_length_le (by omega)]
      simp [List.getElem?_eq_none (Nat.le_of_not_lt hl)]
  · exact find_set_ne h0 h _

/-- The socket contexts after a change of the files under `fd` only, where no socket context is. -/
theorem SockOk.files (h : SockOk s) (hm : s'.fdMgr = s.fdMgr)
    (hk : ∀ fd', fd' ≠ fd → s'.kernel.files fd' = s.kernel.files fd')
    (hfd : NoSocketCtx s fd) : SockOk s' := by
  intro fd' c hc
  rw [hm] at hc
  by_cases he : fd' = fd
  · subst he
    exact .nonSocket (h fd' c hc).1 (hfd c hc)
  · exact (h fd' c hc).transfer (hk fd' he)

theorem SockOk.setNonblock (h : SockOk s) (hfd : NoSocketCtx s fd) (b : Bool) :
    SockOk { s with kernel := Kernel.setNonblock s.kernel fd b } :=
  h.files rfl (fun _ he => by rw [Kernel.setNonblock_files, if_neg he]) hfd

theorem SockOk.closeFd (h : SockOk s) (hfd : NoSocketCtx s fd) :
    SockOk { s with kernel := closeFd s.kernel fd } :=
  h.files rfl (fun _ he => by simp [Function.update_noteq he]) hfd

theorem SockOk.openNew (h : SockOk s) (hfree : s.isFree fd = true) (sock nb : Bool) :
    SockOk (s.openNew fd sock nb) := by
  have hnone : s.kernel.files fd = none := by
    simp only [HookSt.isFree, Kernel.isOpen, Bool.and_eq_true, Bool.not_eq_true',
      Option.not_isSome, Option.isNone_iff_eq_none] at hfree
    exact hfree.2
  exact h.files rfl (fun _ he => openFd_files_ne _ _ he) (h.closed hnone)

/-- `get(fd, true)` keeps every context truthful: an existing one is returned as it is, and a
new one is `init`'s, which makes a socket non-blocking. -/
theorem SockOk.getCreate (h : SockOk s) (hg : s.getCreate fd = .ok s') : SockOk s' := by
  obtain ⟨⟨m, k, o⟩, hget, rfl⟩ := exists_of_map_eq_ok hg
  rcases get_create hget with ⟨rfl, rfl, -⟩ | ⟨-, hcr⟩
  · exact h
  obtain ⟨rfl, rfl, hfind, hother⟩ := create_ok hcr
  intro fd' c hc
  dsimp only at hc ⊢
  by_cases he : fd' = fd
  · subst he
    rw [hfind] at hc
    cases hc
    exact ⟨init_isClosed _ _, init_socket _ _⟩
  · rcases hother fd' he with h' | h' <;> rw [h'] at hc
    · exact (h fd' c hc).transfer (init_files_ne _ he)
    · cases hc

/-- Setting `O_NONBLOCK` never makes a context lie. -/
theorem SockOk.setNonblockTrue (h : SockOk s) (fd : Int) :
    SockOk { s with kernel := Kernel.setNonblock s.kernel fd true } := by
  intro fd' c hc
  by_cases he : fd' = fd
  · subst he
    obtain ⟨hcl, hsock⟩ := h fd' c hc
    refine ⟨hcl, fun hs => ?_⟩
    obtain ⟨hn, f, hf, hfs, -⟩ := hsock hs
    exact ⟨hn, { f with nonblock := true }, by simp [Kernel.setNonblock_files, hf], hfs, rfl⟩
  · exact (h fd' c hc).transfer (by rw [Kernel.setNonblock_files, if_neg he])

/-- A setter that keeps what `CtxOk` reads (`setUserNonblock`, `setTimeout`), on a context. -/
theorem SockOk.update (h : SockOk s) {c : FdCtx} (hc : s.fdMgr.find fd = some c)
    {f : FdCtx → FdCtx} (hf : ∀ c, (f c).isClosed = c.isClosed ∧ (f c).isSocket = c.isSocket ∧
      (f c).sysNonblock = c.sysNonblock) :
    SockOk { s with fdMgr := s.fdMgr.update fd f } := by
  intro fd' c' hc'
  dsimp only at hc' ⊢
  rw [find_update (find_nonneg hc)] at hc'
  split_ifs at hc' with he
  · subst he
    rw [hc] at hc'
    cases hc'
    obtain ⟨h1, h2, h3⟩ := hf c
    simpa only [CtxOk, h1, h2, h3] using h fd' c hc
  · exact h fd' c' hc'

theorem SockOk.del (h : SockOk s) {m : FdManager} (hdel : s.fdMgr.del fd = .ok m) :
    SockOk { s with fdMgr := m } := by
  obtain ⟨hfd, hother⟩ := del_ok hdel
  intro fd' c hc
  dsimp only at hc ⊢
  by_cases he : fd' = fd
  · subst he; rw [hfd] at hc; cases hc
  · rw [hother fd' he] at hc; exact h fd' c hc

/-- `fcntl(F_SETFL)` and `ioctl(FIONBIO)`: the context, if any, is read without creation; past the
guard the user's flag is recorded and `sys` of the context is set in the kernel, which must be
`O_NONBLOCK` for a socket context. -/
theorem SockOk.flagCall (h : SockOk s) {nb u : Bool} {sys : FdCtx → Bool}
    (hsys : ∀ c, s.fdMgr.find fd = some c → c.isSocket = true → sys c = true)
    (hs : (match s.fdMgr.get s.kernel fd false with
      | .error e => .error e
      | .ok (_, _, some c) =>
        if c.isClosed || !c.isSocket then
          .ok { s with kernel := Kernel.setNonblock s.kernel fd nb }
        else .ok { s with fdMgr := s.fdMgr.setUser fd u,
                          kernel := Kernel.setNonblock s.kernel fd (sys c) }
      | .ok (_, _, none) => .ok { s with kernel := Kernel.setNonblock s.kernel fd nb }) =
      Except.ok s') : SockOk s' := by
  split at hs
  · cases hs
  · rename_i c hget
    have hc := (get_noCreate hget).2.2.symm
    split_ifs at hs with hg
    · cases hs; exact h.setNonblock (h.noSocket_of_guard hc hg) nb
    · cases hs
      simp only [Bool.or_eq_true, Bool.not_eq_true', not_or, Bool.not_eq_false] at hg
      rw [hsys c hc hg.2]
      exact (h.setNonblockTrue fd).update hc fun _ => ⟨rfl, rfl, rfl⟩
  · rename_i hget
    cases hs
    exact h.setNonblock (.of_none (get_noCreate hget).2.2.symm) nb

theorem sockOk_step {c : Call} (h : SockOk s) (hd : Disciplined s c)
    (hs : hookStep s c = .ok s') : SockOk s' := by
  cases c with
  | socket hooked fd nb =>
    simp only [hookStep] at hs
    split_ifs at hs with hf
    · exact (h.openNew hf _ _).getCreate hs
    · cases hs; exact h.openNew hf _ _
    · cases hs; exact h
  | accept fd =>
    simp only [hookStep] at hs
    split_ifs at hs with hf
    · exact (h.openNew hf _ _).getCreate hs
    · cases hs; exact h
  | openFile fd =>
    simp only [hookStep] at hs
    split_ifs at hs with hf
    · cases hs; exact h.openNew hf _ _
    · cases hs; exact h
  | fcntlSetfl fd nb => exact h.flagCall (fun c hc hs => ((h fd c hc).2 hs).1) hs
  | ioctlFionbio fd enable =>
    refine h.flagCall (fun c hc hsock => ?_) hs
    cases enable
    · rw [hd c hc] at hsock; cases hsock
    · rfl
  | setsockopt hooked fd optname sec usec =>
    simp only [hookStep] at hs
    split_ifs at hs
    · split at hs
      · cases hs
      · rename_i hget
        cases hs
        exact h.update (get_noCreate hget).2.2.symm fun c => c.setTimeout_flags optname _
      · cases hs; exact h
    · cases hs; exact h
  | close hooked fd =>
    simp only [hookStep] at hs
    cases hooked with
    | false => cases hs; exact h.closeFd hd
    | true =>
      simp only [if_true] at hs
      split at hs
      · cases hs
      · obtain ⟨m, hdel, rfl⟩ := exists_of_map_eq_ok hs
        exact (h.del hdel).closeFd (.of_none (del_ok hdel).1)
      · rename_i hget
        cases hs
        exact h.closeFd (.of_none (get_noCreate hget).2.2.symm)

/-- **Socket contexts stay non-blocking.** From any descriptor table with no contexts, as long as
a descriptor with a socket context is closed only through the hooked `close` and is never given
`ioctl(FIONBIO, &0)`, every socket context says `m_sysNonblock` of the socket open under its
number, whose `O_NONBLOCK` is set. -/
theorem socket_contexts_nonblocking (h : HookReach Disciplined s) :
    ∀ fd c, s.fdMgr.find fd = some c → c.isSocket = true → c.isClosed = false ∧
      c.sysNonblock = true ∧
      ∃ f, s.kernel.files fd = some f ∧ f.isSocket = true ∧ f.nonblock = true := by
  have hok : SockOk s := by
    induction h with
    | init k n => intro fd c hc; simp at hc
    | step c _ hd hs ih => exact sockOk_step ih hd hs
  intro fd c hc hs
  exact ⟨(hok fd c hc).1, (hok fd c hc).2 hs⟩

/-- The kernel with no file open. -/
def noFiles : Kernel := ⟨fun _ => none, fun _ => none⟩

/-- The table after one hooked `socket` under the number `5`. -/
def oneSocket : HookSt :=
  match hookStep ⟨noFiles, .initial, 0⟩ (.socket true 5 false) with
  | .ok s => s
  | .error _ => ⟨noFiles, .initial, 0⟩

theorem socket_contexts_nonblocking_one :
    oneSocket.fdMgr.find 5 = some ⟨true, true, true, false, false, 5, noTimeout, noTimeout⟩ ∧
      ∃ f, oneSocket.kernel.files 5 = some f ∧ f.isSocket = true ∧ f.nonblock = true :=
  ⟨rfl, (socket_contexts_nonblocking (.step (.socket true 5 false) (.init noFiles 0) trivial rfl)
    5 _ rfl rfl).2.2⟩

/-- A socket, closed on a thread with hooking disabled, and a blocking socket under its number. -/
def reuseTrace : List Call := [.socket true 5 false, .close false 5, .socket true 5 false]

theorem stale_context_after_unhooked_close :
    ∃ s, HookReach (fun _ _ => True) s ∧
      (s.fdMgr.find 5).map (fun c => (c.isSocket, c.sysNonblock)) = some (true, true) ∧
      (s.kernel.files 5).map (·.nonblock) = some false :=
  ⟨_, runCalls_reach (fun _ _ => trivial) (.init noFiles 0)
    (rfl : runCalls ⟨noFiles, .initial, 0⟩ reuseTrace = .ok _), by decide, by decide⟩

end Sylar.Hook.FdTable
