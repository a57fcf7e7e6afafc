import Sylar.Kernel.Epoll

/-! # `HttpConnectionPool`

The pool keeps idle connections in `m_conns`, taken from the front and given back at the back, and
counts in `m_total` (`std::atomic<int32_t>`) the connections it made and has not deleted.

* `getConnection`: under the lock it pops connections from the front; one that is not connected,
  or whose `m_createTime + m_maxAliveTime > now_ms`, goes to `invalid_conns`, and the first other
  one is taken. The invalid ones are deleted and `m_total -= invalid_conns.size()`. With none
  taken it makes a new connection (`++m_total`), or returns `nullptr` if the lookup, the socket or
  the connect fails.
* `ReleasePtr`, the deleter of the `shared_ptr` handed out: `++m_request`; the connection is
  deleted (`--m_total`) if it is not connected, if `m_createTime + m_maxAliveTime >= now`, or if
  `m_request >= m_maxRequest`; else it is pushed back.

`HttpConnection::m_createTime` is `0` in every connection, since the constructor never sets it, so
both age checks compare `m_maxAliveTime` with the clock: a connection is dropped for its age only
while the clock reads less than `m_maxAliveTime` ms since the epoch, and never later.
`m_maxSize` is stored and read nowhere.

Each call is taken whole. The clock moves by `tick`, the peer closes a connection by `disconnect`,
and the connections handed out and each one's creation time are ghost state. In every run
`m_total` counts the pooled and the handed-out connections, and `getConnection` hands out only a
connected connection, a pooled one having served fewer than `m_maxRequest` requests
(`pool_counts_live`); the age tests read only the clock (`age_tests_read_clock`), and neither the
age limit nor the size limit holds (`pool_limits_unenforced`). -/

namespace Sylar.Http.ConnectionPool

open Sylar.Kernel.Epoll

/-- **`HttpConnection`** as the pool reads it: `m_createTime`, `m_request` and `isConnected()`;
as ghost state a name and the clock when the pool made it. -/
structure HttpConnection where
  id : Nat
  createTime : Nat
  request : Nat
  connected : Bool
  born : Nat
deriving DecidableEq, Repr

/-- `m_maxAliveTime` and `m_maxRequest`. -/
structure Limits where
  maxAliveTime : Nat
  maxRequest : Nat
deriving DecidableEq, Repr

/-- **`HttpConnectionPool`**: `m_conns`, `m_total` and the clock (`GetCurrentMS()`); as ghost state
the connections handed out and the next name. -/
structure HttpConnectionPool where
  conns : List HttpConnection
  total : Int
  out : List HttpConnection
  nextId : Nat
  now : Nat
deriving DecidableEq, Repr

/-- The loop of `getConnection` over `m_conns` from the front: the rest of the list, the number of
connections put in `invalid_conns`, and the one taken. -/
def takeValid (maxAliveTime now : Nat) :
    List HttpConnection → List HttpConnection × Nat × Option HttpConnection
  | [] => ([], 0, none)
  | c :: cs =>
    if c.connected = false ∨ now < c.createTime + maxAliveTime then
      let r := takeValid maxAliveTime now cs
      (r.1, r.2.1 + 1, r.2.2)
    else (cs, 0, some c)

/-- **`HttpConnectionPool::getConnection()`**, where `connect` says whether the lookup, the socket
and the connect of a new connection succeed: the pool after it and the connection handed out. -/
def getConnection (L : Limits) (p : HttpConnectionPool) (connect : Bool) :
    HttpConnectionPool × Option HttpConnection :=
  let r := takeValid L.maxAliveTime p.now p.conns
  let p := { p with conns := r.1, total := toInt32 (p.total - r.2.1) }
  match r.2.2 with
  | some c => ({ p with out := p.out ++ [c] }, some c)
  | none =>
    if connect then
      let c : HttpConnection := ⟨p.nextId, 0, 0, true, p.now⟩
      ({ p with total := toInt32 (p.total + 1), out := p.out ++ [c], nextId := p.nextId + 1 },
       some c)
    else (p, none)

/-- **`HttpConnectionPool::ReleasePtr(ptr, pool)`** of the connection `c`. -/
def releasePtr (L : Limits) (p : HttpConnectionPool) (c : HttpConnection) : HttpConnectionPool :=
  let c := { c with request := c.request + 1 }
  if c.connected = false ∨ p.now ≤ c.createTime + L.maxAliveTime ∨ L.maxRequest ≤ c.request then
    { p with total := toInt32 (p.total - 1) }
  else { p with conns := p.conns ++ [c] }

/-- The peer closes connection `id`. -/
def HttpConnection.close (id : Nat) (c : HttpConnection) : HttpConnection :=
  if c.id = id then { c with connected := false } else c

/-- A call of a user thread, or of the environment. -/
inductive Action
  /-- `getConnection()`; `connect`: a new connection would be made. -/
  | get (connect : Bool)
  /-- The last `shared_ptr` to the `k`-th connection handed out goes away. -/
  | release (k : Nat)
  | disconnect (id : Nat)
  | tick (ms : Nat)

def step (L : Limits) (p : HttpConnectionPool) : Action → HttpConnectionPool
  | .get connect => (getConnection L p connect).1
  | .release k =>
    match p.out.get? k with
    | some c => releasePtr L { p with out := p.out.eraseIdx k } c
    | none => p
  | .disconnect id => { p with conns := p.conns.map (·.close id), out := p.out.map (·.close id) }
  | .tick ms => { p with now := p.now + ms }

/-- The pool as constructed, at clock `now`. -/
def initial (now : Nat) : HttpConnectionPool := ⟨[], 0, [], 0, now⟩

inductive Reach (L : Limits) : HttpConnectionPool → Prop
  | init (now : Nat) : Reach L (initial now)
  | step {p : HttpConnectionPool} (a : Action) : Reach L p → Reach L (step L p a)

/-- Run a list of calls. -/
def run (L : Limits) (p : HttpConnectionPool) (as : List Action) : HttpConnectionPool :=
  as.foldl (step L) p

theorem reach_run {L : Limits} {p : HttpConnectionPool} (h : Reach L p) :
    ∀ as, Reach L (run L p as)
  | [] => h
  | a :: as => reach_run (.step a h) as

/-! ### The loop -/

/-- The loop passes over a run of invalid connections, then takes the first valid one, or
empties the list. -/
theorem takeValid_spec (a now : Nat) : ∀ l : List HttpConnection,
    ∃ bad, l = bad ++ (takeValid a now l).2.2.toList ++ (takeValid a now l).1 ∧
      bad.length = (takeValid a now l).2.1 ∧
      (∀ c ∈ bad, c.connected = false ∨ now < c.createTime + a) ∧
      (∀ c, (takeValid a now l).2.2 = some c → c.connected = true ∧ c.createTime + a ≤ now) ∧
      ((takeValid a now l).2.2 = none → (takeValid a now l).1 = [])
  | [] => ⟨[], by simp [takeValid]⟩
  | c :: cs => by
    by_cases hc : c.connected = false ∨ now < c.createTime + a
    · obtain ⟨bad, hl, hn, hb, ht, hr⟩ := takeValid_spec a now cs
      have e : takeValid a now (c :: cs) =
          ((takeValid a now cs).1, (takeValid a now cs).2.1 + 1, (takeValid a now cs).2.2) := by
        simp only [takeValid, if_pos hc]
      rw [e]
      refine ⟨c :: bad, ?_, by simp [hn], fun x hx => (List.mem_cons.mp hx).elim (· ▸ hc) (hb x),
        ht, hr⟩
      rw [List.cons_append, List.cons_append]; exact congrArg _ hl
    · have e : takeValid a now (c :: cs) = (cs, 0, some c) := by simp only [takeValid, if_neg hc]
      simp only [not_or, Bool.not_eq_false, Nat.not_lt] at hc
      rw [e]
      exact ⟨[], rfl, rfl, by simp, by simpa using hc, by simp⟩

/-! ### What every run keeps -/

@[simp] theorem close_createTime (id : Nat) (c : HttpConnection) :
    (c.close id).createTime = c.createTime := by
  unfold HttpConnection.close; split <;> rfl

@[simp] theorem close_request (id : Nat) (c : HttpConnection) :
    (c.close id).request = c.request := by
  unfold HttpConnection.close; split <;> rfl

/-- **The invariant**: `m_total` is the number of connections pooled or handed out, as an `int`;
every connection has `m_createTime = 0`; a pooled one has served fewer than `m_maxRequest`
requests. -/
structure Counted (L : Limits) (p : HttpConnectionPool) : Prop where
  total : p.total = toInt32 (p.conns.length + p.out.length)
  created : ∀ c ∈ p.conns ++ p.out, c.createTime = 0
  fresh : ∀ c ∈ p.conns, c.request < L.maxRequest

variable {L : Limits} {p : HttpConnectionPool}

/-- `m_total`, moved by `d`, counts `y` connections when it counted `x` and `x + d = y`. -/
theorem toInt32_shift {t d : Int} {x y : Nat} (ht : t = toInt32 x) (h : (x : Int) + d = y) :
    toInt32 (t + d) = toInt32 y := by
  rw [ht, toInt32_toInt32_add, h]

theorem Counted.get (h : Counted L p) (b : Bool) : Counted L (getConnection L p b).1 := by
  obtain ⟨bad, hl, hn, -, -, hr⟩ := takeValid_spec L.maxAliveTime p.now p.conns
  have hc : ∀ c, c ∈ p.conns ∨ c ∈ p.out → c.createTime = 0 := fun c hc =>
    h.created c (List.mem_append.mpr hc)
  rcases hv : takeValid L.maxAliveTime p.now p.conns with ⟨rest, n, _ | c⟩ <;>
    rw [hv] at hl hn hr <;> simp only [getConnection, hv]
  · have hrest : rest = [] := hr rfl
    subst hrest
    have hlen : p.conns.length = n := by simpa [hn] using congrArg List.length hl
    have hdrop : toInt32 (p.total - n) = toInt32 p.out.length := by
      rw [Int.sub_eq_add_neg]; exact toInt32_shift h.total (by omega)
    cases b <;> simp only [Bool.false_eq_true, if_false, if_true]
    · exact ⟨by simp [hdrop], fun x hx => hc x (.inr (by simpa using hx)), by simp⟩
    · refine ⟨toInt32_shift hdrop (by simp), fun x hx => ?_, by simp⟩
      simp only [List.nil_append, List.mem_append, List.mem_singleton] at hx
      rcases hx with hx | rfl
      · exact hc x (.inr hx)
      · rfl
  · have hlen : p.conns.length = n + 1 + rest.length := by
      have := congrArg List.length hl; simp [hn] at this; omega
    have hsub : ∀ x, x = c ∨ x ∈ rest → x ∈ p.conns := fun x hx => by rw [hl]; simp [hx]
    refine ⟨?_, fun x hx => ?_, fun x hx => h.fresh x (hsub x (.inr hx))⟩
    · show toInt32 (p.total - n) = _
      rw [Int.sub_eq_add_neg]; exact toInt32_shift h.total (by simp; omega)
    · simp only [List.mem_append, List.mem_singleton] at hx
      rcases hx with hx | hx | rfl
      · exact hc x (.inl (hsub x (.inr hx)))
      · exact hc x (.inr hx)
      · exact hc x (.inl (hsub x (.inl rfl)))

theorem Counted.release (h : Counted L p) {k : Nat} {c : HttpConnection}
    (hk : p.out.get? k = some c) : Counted L (releasePtr L { p with out := p.out.eraseIdx k } c) := by
  have hlen := List.length_eraseIdx_of_lt (List.get?_eq_some.mp hk).1
  have hpos : 0 < p.out.length := (List.length_pos_of_mem (List.get?_mem hk))
  have hc : ∀ x, x ∈ p.conns ∨ x = c ∨ x ∈ p.out.eraseIdx k → x.createTime = 0 := by
    rintro x (hx | rfl | hx)
    · exact h.created x (List.mem_append_left _ hx)
    · exact h.created x (List.mem_append_right _ (List.get?_mem hk))
    · exact h.created x (List.mem_append_right _ (List.mem_of_mem_eraseIdx hx))
  simp only [releasePtr]
  split_ifs with hdrop
  · refine ⟨?_, fun x hx => hc x ?_, h.fresh⟩
    · show toInt32 (p.total - 1) = _
      rw [Int.sub_eq_add_neg]; exact toInt32_shift h.total (by simp only [hlen]; omega)
    · rcases List.mem_append.mp hx with hx | hx
      · exact .inl hx
      · exact .inr (.inr hx)
  · simp only [not_or, Bool.not_eq_false, Nat.not_le] at hdrop
    refine ⟨?_, fun x hx => ?_, fun x hx => ?_⟩
    · show p.total = _
      rw [h.total]; simp only [List.length_append, List.length_singleton, hlen]; congr 1; omega
    · simp only [List.mem_append, List.mem_singleton] at hx
      rcases hx with (hx | rfl) | hx
      · exact hc x (.inl hx)
      · exact hc c (.inr (.inl rfl))
      · exact hc x (.inr (.inr hx))
    · simp only [List.mem_append, List.mem_singleton] at hx
      rcases hx with hx | rfl
      · exact h.fresh x hx
      · exact hdrop.2.2

theorem counted_step (h : Counted L p) (a : Action) : Counted L (step L p a) := by
  cases a with
  | get b => exact h.get b
  | release k =>
    simp only [step]
    split
    · exact h.release ‹_›
    · exact h
  | disconnect id =>
    refine ⟨?_, fun x hx => ?_, fun x hx => ?_⟩
    · simpa [step] using h.total
    · simp only [step, List.mem_append, List.mem_map] at hx
      rcases hx with ⟨y, hy, rfl⟩ | ⟨y, hy, rfl⟩
      · simpa using h.created y (List.mem_append_left _ hy)
      · simpa using h.created y (List.mem_append_right _ hy)
    · simp only [step, List.mem_map] at hx
      obtain ⟨y, hy, rfl⟩ := hx
      simpa using h.fresh y hy
  | tick ms => exact ⟨h.total, h.created, h.fresh⟩

theorem counted_of_reach (h : Reach L p) : Counted L p := by
  induction h with
  | init now => exact ⟨by simp [initial, toInt32_eq], by simp [initial], by simp [initial]⟩
  | step a _ ih => exact counted_step ih a

/-- With `m_createTime = 0` in every connection, the age tests read only the clock: from
`m_maxAliveTime` ms after the epoch on, `getConnection` drops no connection for its age, and from
the next millisecond on neither does `ReleasePtr`. -/
theorem age_tests_read_clock (h : Reach L p) :
    ∀ c ∈ p.conns ++ p.out, (p.now < c.createTime + L.maxAliveTime ↔ p.now < L.maxAliveTime) ∧
      (p.now ≤ c.createTime + L.maxAliveTime ↔ p.now ≤ L.maxAliveTime) := by
  intro c hc
  rw [(counted_of_reach h).created c hc, Nat.zero_add]
  exact ⟨Iff.rfl, Iff.rfl⟩

/-! ### The limits -/

/-- **What the pool keeps.** In every run `m_total` is the number of connections pooled or handed
out, as an `int`, and `getConnection` hands out a connected connection: a pooled one that has served
fewer than `m_maxRequest` requests, or a new one. -/
theorem pool_counts_live (h : Reach L p) :
    p.total = toInt32 (p.conns.length + p.out.length) ∧
      ∀ b c, (getConnection L p b).2 = some c → c.connected = true ∧
        (c ∈ p.conns ∧ c.request < L.maxRequest ∨ b = true ∧ c.request = 0) := by
  have hc := counted_of_reach h
  refine ⟨hc.total, fun b c hget => ?_⟩
  obtain ⟨bad, hl, -, -, ht, -⟩ := takeValid_spec L.maxAliveTime p.now p.conns
  rcases hv : takeValid L.maxAliveTime p.now p.conns with ⟨rest, n, _ | c'⟩ <;>
    rw [hv] at hl ht <;> simp only [getConnection, hv] at hget
  · cases b <;> simp at hget
    subst hget
    exact ⟨rfl, .inr ⟨rfl, rfl⟩⟩
  · cases hget
    have hmem : c ∈ p.conns := by rw [hl]; simp
    exact ⟨(ht c rfl).1, .inl ⟨hmem, hc.fresh c hmem⟩⟩

/-- **Neither limit is enforced.** For all limits, any number of connections are live at once, since
nothing compares `m_total` with `m_maxSize`; and when a connection may serve two requests, for every
age `getConnection` hands out a pooled connection of that age. -/
theorem pool_limits_unenforced (L : Limits) :
    (∀ n, ∃ p, Reach L p ∧ p.out.length = n) ∧
      (1 < L.maxRequest → ∀ age, ∃ p c, Reach L p ∧ c ∈ p.conns ∧ p.now - c.born = age ∧
        (getConnection L p false).2 = some c) := by
  refine ⟨fun n => ?_, fun hreq age => ?_⟩
  · have hopen : ∀ n, ∃ p, Reach L p ∧ p.conns = [] ∧ p.out.length = n := by
      intro n
      induction n with
      | zero => exact ⟨initial 0, .init 0, rfl, rfl⟩
      | succ n ih =>
        obtain ⟨p, hp, hc, ho⟩ := ih
        exact ⟨_, .step (.get true) hp, by simp [step, getConnection, hc, takeValid],
          by simp [step, getConnection, hc, takeValid, ho]⟩
    obtain ⟨p, hp, -, ho⟩ := hopen n
    exact ⟨p, hp, ho⟩
  · have h1 : ¬L.maxAliveTime + 1 ≤ L.maxAliveTime := by omega
    have h2 : ¬L.maxRequest ≤ 1 := by omega
    have h3 : ¬L.maxAliveTime + 1 + age < L.maxAliveTime := by omega
    refine ⟨_, ⟨0, 0, 1, true, L.maxAliveTime + 1⟩,
      .step (.tick age) (.step (.release 0) (.step (.get true) (.init (L.maxAliveTime + 1)))), ?_, ?_, ?_⟩ <;>
      simp [step, getConnection, releasePtr, takeValid, initial, h1, h2, h3, Nat.add_sub_cancel_left]

/-- Two connections made at `5000` ms, the first given back and taken again. -/
def reuseTrace : List Action := [.get true, .get true, .release 0, .get false]

theorem pool_counts_live_reuse :
    Reach ⟨1000, 10⟩ (run ⟨1000, 10⟩ (initial 5000) reuseTrace) ∧
      (run ⟨1000, 10⟩ (initial 5000) reuseTrace).total = 2 ∧
      (run ⟨1000, 10⟩ (initial 5000) reuseTrace).total =
        toInt32 ((run ⟨1000, 10⟩ (initial 5000) reuseTrace).conns.length +
          (run ⟨1000, 10⟩ (initial 5000) reuseTrace).out.length) ∧
      ∀ b c, (getConnection ⟨1000, 10⟩ (run ⟨1000, 10⟩ (initial 5000) reuseTrace) b).2 = some c →
        c.connected = true ∧ (c ∈ (run ⟨1000, 10⟩ (initial 5000) reuseTrace).conns ∧
          c.request < 10 ∨ b = true ∧ c.request = 0) :=
  ⟨reach_run (.init 5000) _, by decide, pool_counts_live (reach_run (.init 5000) _)⟩

theorem pool_limits_unenforced_hour :
    1 < (⟨1000, 10⟩ : Limits).maxRequest ∧
      ∃ p c, Reach ⟨1000, 10⟩ p ∧ c ∈ p.conns ∧ p.now - c.born = 3600000 ∧
        (getConnection ⟨1000, 10⟩ p false).2 = some c :=
  ⟨by decide, (pool_limits_unenforced ⟨1000, 10⟩).2 (by decide) 3600000⟩

end Sylar.Http.ConnectionPool
