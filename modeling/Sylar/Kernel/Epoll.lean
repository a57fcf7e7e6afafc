import Mathlib.Logic.Function.Basic
import Mathlib.Algebra.Group.Int
import Mathlib.Algebra.Group.Nat.Basic

/-! # The kernel under the reactor: descriptors and one epoll instance

The reactor (`IOManager`) talks to the kernel through `epoll_ctl` on its epoll instance `m_epfd`
and learns about readiness from `epoll_wait`. The model keeps what the code can observe: which
descriptor numbers are open and to what file, the interest set of `m_epfd` (per descriptor the
registered event mask and the `epoll_data` word), and the records `epoll_wait` returns.

* `epollCtl`: `ADD`, `MOD`, `DEL` with the kernel's errors, each of which changes nothing:
  `EBADF` on a closed number, `EEXIST` on `ADD` of a registered one, `ENOENT` on `MOD`/`DEL` of an
  unregistered one.
* `closeFd`: the raw `close`. The file is released and epoll drops its registration with it.
* `Kernel.setNonblock`: `fcntl(fd, F_SETFL, ...)` of the `O_NONBLOCK` bit; the interest set is
  untouched.
* `epollWait`: what the kernel may report for the ready descriptors: the registered `EPOLLIN` and
  `EPOLLOUT` bits that are ready, and `EPOLLERR`/`EPOLLHUP`, which are reported whatever the mask.
  Readiness itself is the environment's choice. -/

namespace Sylar.Kernel.Epoll

/-! ### Error numbers (Linux values) -/

def EINTR : Nat := 4
def EBADF : Nat := 9
def EAGAIN : Nat := 11
def ENOENT : Nat := 2
def EEXIST : Nat := 17
def ETIMEDOUT : Nat := 110
def EINPROGRESS : Nat := 115

/-! ### C integer conversions -/

/-- A value of type `int` from an integer (two's complement, modulo `2^32`). -/
def toInt32 (x : Int) : Int := (x + 2 ^ 31) % 2 ^ 32 - 2 ^ 31

theorem toInt32_eq (x : Int) : toInt32 x = (x + 2147483648) % 4294967296 - 2147483648 := rfl

theorem toInt32_of_lt {x : Int} (h0 : -2 ^ 31 ≤ x) (h1 : x < 2 ^ 31) : toInt32 x = x := by
  rw [toInt32_eq]; omega

/-- Arithmetic on an `int` wraps: converting in between changes nothing. -/
theorem toInt32_toInt32_add (x y : Int) : toInt32 (toInt32 x + y) = toInt32 (x + y) := by
  simp only [toInt32_eq]; omega

theorem toInt32_toInt32_sub (x y : Int) : toInt32 (toInt32 x - y) = toInt32 (x - y) := by
  simp only [toInt32_eq]; omega

/-- `(uint64_t)(int)v` gives back a `v` with `0 ≤ v < 2^63` exactly when `v` fits in an `int`. -/
theorem toInt32_emod_eq_iff {v : Int} (h0 : 0 ≤ v) (h1 : v < 2 ^ 63) :
    toInt32 v % 2 ^ 64 = v ↔ v < 2 ^ 31 := by
  constructor
  · intro h
    have hb : -2 ^ 31 ≤ toInt32 v ∧ toInt32 v < 2 ^ 31 := by rw [toInt32_eq]; omega
    generalize toInt32 v = t at h hb
    omega
  · intro h
    rw [toInt32_of_lt (by omega) h]
    omega

/-! ### Masks, records and the interest set -/

/-- The bits of an epoll event mask (`uint32_t events`) that the reactor sets or reads. -/
structure EpollMask where
  epollin : Bool := false
  epollpri : Bool := false
  epollout : Bool := false
  epollerr : Bool := false
  epollhup : Bool := false
  epollet : Bool := false
deriving DecidableEq, Repr

/-- `epoll_data_t`: the reactor stores a descriptor (the tickle pipe) or an `FdContext*`. -/
inductive EpollData
  | fd (n : Int)
  | ptr (p : Nat)
deriving DecidableEq, Repr

/-- `struct epoll_event`. -/
structure EpollEvent where
  events : EpollMask
  data : EpollData
deriving DecidableEq, Repr

inductive EpollCtlOp
  | add
  | mod
  | del
deriving DecidableEq, Repr

/-- An open file description: its identity and what `fstat`/`fcntl` see of it. -/
structure File where
  id : Nat
  isSocket : Bool
  nonblock : Bool
deriving DecidableEq, Repr

/-- The descriptor table of the process and the interest set of `m_epfd`. -/
structure Kernel where
  files : Int → Option File
  interest : Int → Option EpollEvent

namespace Kernel

def isOpen (k : Kernel) (fd : Int) : Bool := (k.files fd).isSome

def setInterest (k : Kernel) (fd : Int) (ev : Option EpollEvent) : Kernel :=
  { k with interest := Function.update k.interest fd ev }

@[simp] theorem setInterest_files (k : Kernel) (fd : Int) (ev : Option EpollEvent) :
    (k.setInterest fd ev).files = k.files := rfl

@[simp] theorem setInterest_interest (k : Kernel) (fd : Int) (ev : Option EpollEvent) :
    (k.setInterest fd ev).interest = Function.update k.interest fd ev := rfl

end Kernel

/-- **`epoll_ctl(m_epfd, op, fd, &ev)`.** A failure returns the error number and changes nothing. -/
def epollCtl (k : Kernel) (op : EpollCtlOp) (fd : Int) (ev : EpollEvent) : Except Nat Kernel :=
  if k.isOpen fd = false then .error EBADF else
  match op, k.interest fd with
  | .add, some _ => .error EEXIST
  | .add, none => .ok (k.setInterest fd (some ev))
  | .mod, none => .error ENOENT
  | .mod, some _ => .ok (k.setInterest fd (some ev))
  | .del, none => .error ENOENT
  | .del, some _ => .ok (k.setInterest fd none)

/-- What a successful `epoll_ctl` leaves registered for `fd`. -/
def ctlResult (op : EpollCtlOp) (ev : EpollEvent) : Option EpollEvent :=
  match op with
  | .del => none
  | _ => some ev

theorem epollCtl_ok {k k' : Kernel} {op : EpollCtlOp} {fd : Int} {ev : EpollEvent}
    (h : epollCtl k op fd ev = .ok k') :
    k.isOpen fd = true ∧ (op = .add ↔ k.interest fd = none) ∧
      k' = k.setInterest fd (ctlResult op ev) := by
  unfold epollCtl at h
  split at h
  · cases h
  · rename_i ho
    cases op <;> cases hi : k.interest fd <;> simp_all [ctlResult]

/-- `ADD` of an unregistered open descriptor succeeds. -/
theorem epollCtl_add_of_none {k : Kernel} {fd : Int} (ev : EpollEvent) (ho : k.isOpen fd = true)
    (hi : k.interest fd = none) : epollCtl k .add fd ev = .ok (k.setInterest fd (some ev)) := by
  simp [epollCtl, ho, hi]

/-- `MOD` and `DEL` of a registered descriptor succeed. -/
theorem epollCtl_of_some {k : Kernel} {fd : Int} {e : EpollEvent} (op : EpollCtlOp)
    (ev : EpollEvent) (hop : op ≠ .add) (ho : k.isOpen fd = true) (hi : k.interest fd = some e) :
    epollCtl k op fd ev = .ok (k.setInterest fd (ctlResult op ev)) := by
  cases op <;> simp_all [epollCtl, ctlResult]

/-- **The raw `close(fd)`** (`close_f`): the descriptor is freed and, its file released, epoll
forgets the registration. -/
def closeFd (k : Kernel) (fd : Int) : Kernel :=
  { files := Function.update k.files fd none, interest := Function.update k.interest fd none }

/-- A file is opened under the free number `fd` (`socket`, `accept`, `pipe`, ...). -/
def openFd (k : Kernel) (fd : Int) (f : File) : Kernel :=
  if k.isOpen fd then k else { k with files := Function.update k.files fd (some f) }

@[simp] theorem closeFd_interest (k : Kernel) (fd : Int) :
    (closeFd k fd).interest = Function.update k.interest fd none := rfl

@[simp] theorem openFd_interest (k : Kernel) (fd : Int) (f : File) :
    (openFd k fd f).interest = k.interest := by
  unfold openFd; split <;> rfl

@[simp] theorem closeFd_files (k : Kernel) (fd : Int) :
    (closeFd k fd).files = Function.update k.files fd none := rfl

theorem openFd_files_ne (k : Kernel) {fd fd' : Int} (f : File) (h : fd' ≠ fd) :
    (openFd k fd f).files fd' = k.files fd' := by
  unfold openFd; split <;> simp [Function.update_noteq h]

/-- `F_SETFL` of the `O_NONBLOCK` bit on an open descriptor. -/
def Kernel.setNonblock (k : Kernel) (fd : Int) (b : Bool) : Kernel :=
  match k.files fd with
  | some f => { k with files := Function.update k.files fd (some { f with nonblock := b }) }
  | none => k

@[simp] theorem Kernel.setNonblock_interest (k : Kernel) (fd : Int) (b : Bool) :
    (Kernel.setNonblock k fd b).interest = k.interest := by
  unfold Kernel.setNonblock; split <;> rfl

theorem Kernel.setNonblock_files (k : Kernel) (fd fd' : Int) (b : Bool) :
    (Kernel.setNonblock k fd b).files fd' =
      if fd' = fd then (k.files fd).map ({ · with nonblock := b }) else k.files fd' := by
  unfold Kernel.setNonblock
  by_cases hfd : fd' = fd
  · subst hfd; split <;> simp_all
  · split <;> simp [hfd, Function.update_noteq]

/-- What `epoll_wait` reports for a registered descriptor whose file is `ready`: the ready bits the
mask asks for, and `EPOLLERR`/`EPOLLHUP` always; the `epoll_data` word is the registered one. -/
def report (ev : EpollEvent) (ready : EpollMask) : EpollEvent :=
  { events := { epollin := ready.epollin && ev.events.epollin,
                epollpri := ready.epollpri && ev.events.epollpri,
                epollout := ready.epollout && ev.events.epollout,
                epollerr := ready.epollerr, epollhup := ready.epollhup },
    data := ev.data }

/-- **`epoll_wait(m_epfd, events, 256, timeout)`**: the records for the ready descriptors that are
registered, at most 256 (`MAX_EVNETS`). -/
def epollWait (k : Kernel) (ready : List (Int × EpollMask)) : List EpollEvent :=
  (ready.filterMap fun r => (k.interest r.1).map (report · r.2)).take 256

theorem mem_epollWait {k : Kernel} {ready : List (Int × EpollMask)} {r : EpollEvent}
    (h : r ∈ epollWait k ready) : ∃ fd ev m, k.interest fd = some ev ∧ r = report ev m := by
  obtain ⟨⟨fd, m⟩, -, hr⟩ := List.mem_filterMap.mp (List.mem_of_mem_take h)
  obtain ⟨ev, hev, rfl⟩ := Option.map_eq_some'.mp hr
  exact ⟨fd, ev, m, hev, rfl⟩

/-! ### Steps that may fail -/

theorem exists_of_map_eq_ok {α β : Type} {f : α → β} {x : Except String α} {b : β}
    (h : x.map f = .ok b) : ∃ a, x = .ok a ∧ b = f a := by
  cases x with
  | error _ => cases h
  | ok a => exact ⟨a, rfl, by cases h; rfl⟩

end Sylar.Kernel.Epoll
