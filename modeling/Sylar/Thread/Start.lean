import Mathlib.Logic.Function.Basic
import Mathlib.Data.List.Range
/-! # `Scheduler::start` and the `Thread` handshake

`Scheduler::start` makes its `m_threadCount` workers one after another: `new Thread(cb, name)`
calls `pthread_create` and waits on the new thread's `m_semaphore` (`sem_wait`), and only then does
`start` push the thread's `getId()` onto `m_threadIds`, after the caller's own id when the
`Scheduler` was made with `use_caller` (`scheduler`). The new thread runs `Thread::run`: it sets
`t_thread`, `t_thread_name` and `m_id = GetThreadId()`, names itself, moves `m_cb` into a local and
posts the semaphore (`sem_post`), and then runs the callback.

The threads' steps interleave in any order (`step`). `pthread_create` failing, which throws, and
the callback itself (`Scheduler::run`, see `Sylar.Scheduler.Worker`) are left out.

* `Inv`: the starter waits on the one thread that has not yet posted, each semaphore counts the
  post its waiter has not yet taken, and the ids pushed are those of the threads waited for.
* `start_reads_ids`: in every run `m_threadIds` is the caller's id under `use_caller`, then, in
  order, the ids the threads recorded, never an unset `m_id`; a constructor returns only after its
  thread has recorded its id and moved the callback out of `m_cb`; and when `start` leaves its
  loop there is one id per thread of the scheduler, the caller included. -/

namespace Sylar.Thread.Start

/-- Where the thread that called `Scheduler::start` is, in its loop over `i < m_threadCount`. -/
inductive Starter
  /-- At the top of iteration `i`. -/
  | create (i : Nat)
  /-- In the constructor of worker `i`'s `Thread`, at `m_semaphore.wait()`. -/
  | wait (i : Nat)
  /-- Back from the constructor, at `m_threadIds.push_back(m_threads[i]->getId())`. -/
  | push (i : Nat)
  /-- Out of the loop. -/
  | done
deriving DecidableEq, Repr

/-- Where a new thread is in `Thread::run`. -/
inductive Run
  /-- Made by `pthread_create`. -/
  | created
  /-- `t_thread`, `t_thread_name` and `m_id = GetThreadId()` are set. -/
  | named
  /-- `cb.swap(thread->m_cb)`. -/
  | swapped
  /-- Past `m_semaphore.notify()`, in the callback. -/
  | running
deriving DecidableEq, Repr

/-- The threads of `start`: the starter, each worker's place in `Thread::run` (`none` before it
exists), and of each worker's `Thread` its `m_id` (`threadId`, `none` while unset), whether `m_cb`
still holds the callback, and the count of its `m_semaphore`; and `m_threadIds`, where `none` is
an unset `m_id` read by `getId()`. -/
structure St where
  starter : Starter
  run : Nat → Option Run
  threadId : Nat → Option Nat
  cb : Nat → Bool
  sem : Nat → Nat
  threadIds : List (Option Nat)

/-- **`Scheduler::Scheduler(threads, use_caller, name)`**, as far as `start` reads it: the
`m_threadCount` and `m_threadIds` it leaves, `none` where `SYLAR_ASSERT(threads > 0)` fails. With
`use_caller` the calling thread, whose `GetThreadId()` is `rootId`, is counted out of `threads` and
its id is pushed first. -/
def scheduler (threads : Nat) (useCaller : Bool) (rootId : Nat) : Option (Nat × List (Option Nat)) :=
  if threads = 0 then none
  else if useCaller then some (threads - 1, [some rootId])
  else some (threads, [])

/-- The state when `start` takes `m_mutex`: no worker yet, and `m_threadIds` as the constructor
left it. -/
def St.initial (threadIds : List (Option Nat)) : St :=
  ⟨.create 0, fun _ => none, fun _ => none, fun _ => false, fun _ => 0, threadIds⟩

/-- **The starter's next step** with `m_threadCount = n`; `none` while it blocks in `sem_wait`,
and after the loop. -/
def starterStep (n : Nat) (s : St) : Option St :=
  match s.starter with
  | .create i =>
    if i < n then
      some { s with
        starter := .wait i, run := Function.update s.run i (some .created),
        threadId := Function.update s.threadId i none, cb := Function.update s.cb i true,
        sem := Function.update s.sem i 0 }
    else some { s with starter := .done }
  | .wait i =>
    if 0 < s.sem i then
      some { s with starter := .push i, sem := Function.update s.sem i (s.sem i - 1) }
    else none
  | .push i =>
    some { s with starter := .create (i + 1), threadIds := s.threadIds ++ [s.threadId i] }
  | .done => none

/-- **Worker `i`'s next step in `Thread::run`**, where `GetThreadId()` returns `tid i`; `none`
once it runs the callback. -/
def workerStep (tid : Nat → Nat) (s : St) (i : Nat) : Option St :=
  match s.run i with
  | some .created =>
    some { s with
      run := Function.update s.run i (some .named),
      threadId := Function.update s.threadId i (some (tid i)) }
  | some .named =>
    some { s with
      run := Function.update s.run i (some .swapped), cb := Function.update s.cb i false }
  | some .swapped =>
    some { s with
      run := Function.update s.run i (some .running),
      sem := Function.update s.sem i (s.sem i + 1) }
  | _ => none

/-- Which thread moves. -/
inductive Action
  | starter
  | worker (i : Nat)
deriving DecidableEq, Repr

/-- **One step** of the starter or of a worker. -/
def step (n : Nat) (tid : Nat → Nat) (s : St) : Action → Option St
  | .starter => starterStep n s
  | .worker i => workerStep tid s i

/-- The states a run of `start` with `n` workers reaches from `m_threadIds = pre`. -/
inductive Reach (n : Nat) (tid : Nat → Nat) (pre : List (Option Nat)) : St → Prop
  | init : Reach n tid pre (St.initial pre)
  | step {s s' : St} (a : Action) : Reach n tid pre s → step n tid s a = some s' →
      Reach n tid pre s'

/-- Run a list of steps; a step that cannot be taken ends the run. -/
def run (n : Nat) (tid : Nat → Nat) (s : St) : List Action → St
  | [] => s
  | a :: as =>
    match step n tid s a with
    | none => s
    | some s' => run n tid s' as

theorem run_reach {n : Nat} {tid : Nat → Nat} {pre : List (Option Nat)} :
    ∀ {s : St} (as : List Action), Reach n tid pre s → Reach n tid pre (run n tid s as)
  | _, [], hs => hs
  | s, a :: as, hs => by
    unfold run
    split
    · exact hs
    · exact run_reach as (.step a hs ‹_›)

/-! ## The invariant -/

/-- The workers made so far. -/
def Starter.created (n : Nat) : Starter → Nat
  | .create i => i
  | .wait i => i + 1
  | .push i => i + 1
  | .done => n

/-- The workers whose constructor has returned. -/
def Starter.joined (n : Nat) : Starter → Nat
  | .create i => i
  | .wait i => i
  | .push i => i + 1
  | .done => n

/-- The ids pushed so far. -/
def Starter.pushed (n : Nat) : Starter → Nat
  | .create i => i
  | .wait i => i
  | .push i => i
  | .done => n

/-- A worker that has not yet posted its semaphore. -/
def Run.pending : Option Run → Bool
  | some .created => true
  | some .named => true
  | some .swapped => true
  | _ => false

/-- **The invariant of `start`**: the workers made are the first `created`; those whose
constructor returned run their callback; a worker that has not posted is the one the starter
waits on; a semaphore holds one post exactly while its worker runs and the starter still waits
on it; `m_id` is set from `named` on and `m_cb` empty from `swapped` on; and the ids pushed are
the constructor's, then the recorded ids of the first `pushed` workers. -/
structure Inv (n : Nat) (tid : Nat → Nat) (pre : List (Option Nat)) (s : St) : Prop where
  bound : s.starter.created n ≤ n
  created : ∀ i, (s.run i).isSome ↔ i < s.starter.created n
  joined : ∀ i < s.starter.joined n, s.run i = some .running
  pending : ∀ i, Run.pending (s.run i) = true → s.starter = .wait i
  sem : ∀ i, s.sem i = if s.run i = some .running ∧ s.starter = .wait i then 1 else 0
  threadId : ∀ i, s.threadId i =
    if s.run i = none ∨ s.run i = some .created then none else some (tid i)
  cb : ∀ i, s.run i = some .swapped ∨ s.run i = some .running → s.cb i = false
  ids : s.threadIds = pre ++ (List.range (s.starter.pushed n)).map fun j => some (tid j)

theorem inv_initial (n : Nat) (tid : Nat → Nat) (pre : List (Option Nat)) :
    Inv n tid pre (St.initial pre) where
  bound := Nat.zero_le _
  created _ := by simp [St.initial, Starter.created]
  joined _ h := absurd h (Nat.not_lt_zero _)
  pending _ h := by simp [St.initial, Run.pending] at h
  sem _ := by simp [St.initial]
  threadId _ := by simp [St.initial]
  cb _ h := by simp [St.initial] at h
  ids := (List.append_nil pre).symm

section Steps

variable {n : Nat} {tid : Nat → Nat} {pre : List (Option Nat)}

/-- No worker is pending while the starter does not wait. -/
theorem Inv.not_pending {s : St} (hi : Inv n tid pre s)
    (hs : ∀ k, s.starter ≠ .wait k) (i : Nat) : Run.pending (s.run i) = false :=
  Bool.eq_false_iff.2 fun hp => hs i (hi.pending i hp)

/-- Iteration `k` makes worker `k` and waits on it, or leaves the loop. -/
theorem Inv.of_create {s s' : St} {k : Nat} (hi : Inv n tid pre s)
    (hs : s.starter = .create k) (h : starterStep n s = some s') : Inv n tid pre s' := by
  have hnone := hi.not_pending (by simp [hs])
  simp only [starterStep, hs] at h
  split_ifs at h with hlt <;> cases h
  · refine ⟨hlt, fun i => ?_, fun i hi' => ?_, fun i hp => ?_, fun i => ?_, fun i => ?_,
      fun i hr => ?_, by simpa only [hs] using hi.ids⟩ <;> dsimp only at *
    · have := hi.created i; rw [hs] at this
      by_cases hik : i = k
      · subst hik; simp [Starter.created]
      · simp only [Function.update_noteq hik, this, Starter.created]; omega
    · have := hi.joined i; rw [hs] at this
      simp only [Starter.joined] at hi' this
      rw [Function.update_noteq (by omega)]
      exact this hi'
    · by_cases hik : i = k
      · rw [hik]
      · rw [Function.update_noteq hik, hnone] at hp; cases hp
    · by_cases hik : i = k
      · subst hik; simp
      · simp only [Function.update_noteq hik, hi.sem i, hs]; simp [Ne.symm hik]
    · by_cases hik : i = k
      · subst hik; simp
      · simp only [Function.update_noteq hik, hi.threadId i]
    · by_cases hik : i = k
      · subst hik; simp at hr
      · rw [Function.update_noteq hik] at hr ⊢; exact hi.cb i hr
  · have hk : k = n := by
      have := hi.bound; rw [hs] at this; simp only [Starter.created] at this; omega
    refine ⟨le_rfl, fun i => ?_, fun i hi' => ?_, fun i hp => ?_, fun i => ?_, hi.threadId,
      hi.cb, ?_⟩ <;> dsimp only at *
    · have := hi.created i; rw [hs] at this; rw [this, hk]; rfl
    · exact hi.joined i (by rw [hs]; simpa [Starter.joined, hk] using hi')
    · rw [hnone] at hp; cases hp
    · rw [hi.sem i, hs]; simp
    · rw [hi.ids, hs, hk]; rfl

/-- The constructor of worker `k` takes the post of its semaphore. -/
theorem Inv.of_wait {s s' : St} {k : Nat} (hi : Inv n tid pre s)
    (hs : s.starter = .wait k) (h : starterStep n s = some s') : Inv n tid pre s' := by
  simp only [starterStep, hs] at h
  split_ifs at h with hpos
  cases h
  have hsem := hi.sem k
  rw [hs] at hsem
  have hrun : s.run k = some .running := by
    by_contra hr; rw [hsem, if_neg (fun h => hr h.1)] at hpos; exact absurd hpos (lt_irrefl 0)
  refine ⟨by simpa only [hs] using hi.bound, fun i => by simpa only [hs] using hi.created i,
    fun i hi' => ?_, fun i hp => ?_, fun i => ?_, hi.threadId, hi.cb,
    by simpa only [hs] using hi.ids⟩ <;> dsimp only at *
  · by_cases hik : i = k
    · rw [hik]; exact hrun
    · exact hi.joined i (by rw [hs]; simp only [Starter.joined] at hi' ⊢; omega)
  · have := hi.pending i hp; rw [hs] at this; cases this
    rw [hrun] at hp; cases hp
  · by_cases hik : i = k
    · subst hik; simp [hsem, hrun]
    · rw [Function.update_noteq hik, hi.sem i, hs]; simp [Ne.symm hik]

/-- The starter pushes the id of worker `k`, which has set it. -/
theorem Inv.of_push {s s' : St} {k : Nat} (hi : Inv n tid pre s)
    (hs : s.starter = .push k) (h : starterStep n s = some s') : Inv n tid pre s' := by
  simp only [starterStep, hs] at h
  cases h
  have hrun := hi.joined k (by rw [hs]; simp [Starter.joined])
  refine ⟨by simpa only [hs] using hi.bound, fun i => by simpa only [hs] using hi.created i,
    fun i hi' => hi.joined i (by rw [hs]; simpa [Starter.joined] using hi'),
    fun i hp => (by rw [hi.not_pending (by simp [hs])] at hp; cases hp),
    fun i => ?_, hi.threadId, hi.cb, ?_⟩ <;> dsimp only at *
  · rw [hi.sem i, hs]; simp
  · rw [hi.ids, hs, hi.threadId k, hrun]
    simp [Starter.pushed, List.range_succ]

/-- **What the starter's step keeps.** -/
theorem Inv.of_starterStep {s s' : St} (hi : Inv n tid pre s)
    (h : starterStep n s = some s') : Inv n tid pre s' := by
  cases hs : s.starter with
  | create k => exact hi.of_create hs h
  | wait k => exact hi.of_wait hs h
  | push k => exact hi.of_push hs h
  | done => simp [starterStep, hs] at h

/-- A step of worker `k` from `r`, not yet in its callback, to `r'` that rewrites only `k`'s
fields keeps the invariant when `k`'s new fields satisfy it. -/
theorem Inv.advance {s : St} {k : Nat} {r r' : Run}
    {t : Option Nat} {c : Bool} {m : Nat} (hi : Inv n tid pre s) (hr : s.run k = some r)
    (hne : r ≠ .running) (hp : Run.pending (some r') = true → s.starter = .wait k)
    (hm : m = if r' = .running ∧ s.starter = .wait k then 1 else 0)
    (ht : t = if r' = .created then none else some (tid k))
    (hc : r' = .swapped ∨ r' = .running → c = false) :
    Inv n tid pre { s with
      run := Function.update s.run k (some r'), threadId := Function.update s.threadId k t,
      cb := Function.update s.cb k c, sem := Function.update s.sem k m } := by
  refine ⟨hi.bound, fun i => ?_, fun i hi' => ?_, fun i hp' => ?_, fun i => ?_, fun i => ?_,
    fun i hr' => ?_, hi.ids⟩ <;> dsimp only at *
  · by_cases hik : i = k
    · subst hik; simpa [hr] using hi.created i
    · rw [Function.update_noteq hik]; exact hi.created i
  · have hik : i ≠ k := fun hik =>
      hne (Option.some.inj (hr.symm.trans (hik ▸ hi.joined i hi')))
    rw [Function.update_noteq hik]; exact hi.joined i hi'
  · by_cases hik : i = k
    · subst hik; rw [Function.update_same] at hp'; exact hp hp'
    · rw [Function.update_noteq hik] at hp'; exact hi.pending i hp'
  · by_cases hik : i = k
    · subst hik; simp [hm]
    · rw [Function.update_noteq hik, Function.update_noteq hik]; exact hi.sem i
  · by_cases hik : i = k
    · subst hik; cases r' <;> simp [ht]
    · rw [Function.update_noteq hik, Function.update_noteq hik]; exact hi.threadId i
  · by_cases hik : i = k
    · subst hik; rw [Function.update_same]; exact hc (by simpa using hr')
    · rw [Function.update_noteq hik] at hr' ⊢; exact hi.cb i hr'

/-- **What a worker's step keeps.** -/
theorem Inv.of_workerStep {s s' : St} {k : Nat} (hi : Inv n tid pre s)
    (h : workerStep tid s k = some s') : Inv n tid pre s' := by
  have hsem : ∀ r, s.run k = some r → r ≠ .running → s.sem k = 0 := fun r hr hne => by
    rw [hi.sem k, hr, if_neg (fun h => hne (Option.some.inj h.1))]
  unfold workerStep at h
  split at h
  · rename_i hr
    cases h
    simpa only [Function.update_eq_self] using hi.advance (c := s.cb k) (m := s.sem k) hr
      (by decide) (fun _ => hi.pending k (by rw [hr]; rfl))
      (by simp [hsem _ hr (by decide)]) (by simp) (by simp)
  · rename_i hr
    cases h
    simpa only [Function.update_eq_self] using hi.advance (t := s.threadId k) (m := s.sem k) hr
      (by decide) (fun _ => hi.pending k (by rw [hr]; rfl))
      (by simp [hsem _ hr (by decide)]) (by simp [hi.threadId k, hr]) (fun _ => rfl)
  · rename_i hr
    cases h
    have hw := hi.pending k (by rw [hr]; rfl)
    simpa only [Function.update_eq_self] using hi.advance (t := s.threadId k) (c := s.cb k) hr
      (by decide) (by simp [Run.pending]) (by simp [hsem _ hr (by decide), hw])
      (by simp [hi.threadId k, hr]) (fun _ => hi.cb k (.inl hr))
  · cases h

theorem inv_of_reach {s : St} (h : Reach n tid pre s) : Inv n tid pre s := by
  induction h with
  | init => exact inv_initial n tid pre
  | step a _ hs ih =>
    cases a with
    | starter => exact ih.of_starterStep hs
    | worker i => exact ih.of_workerStep hs

end Steps

/-- `scheduler` counts the caller out of `threads` under `use_caller` and pushes its id. -/
theorem scheduler_spec {threads : Nat} {useCaller : Bool} {rootId n : Nat} {pre : List (Option Nat)}
    (hc : scheduler threads useCaller rootId = some (n, pre)) :
    pre = (if useCaller then [some rootId] else []) ∧ pre.length + n = threads := by
  unfold scheduler at hc
  split_ifs at hc with h0 hu <;> cases hc
  · simp only [hu, if_true, List.length_singleton, true_and]; omega
  · simp [hu]

/-- **`m_threadIds` holds the ids the threads recorded**, in every run of `start` on a scheduler
that `Scheduler(threads, use_caller)` made: it is the caller's id under `use_caller`, then, in
order, the `GetThreadId()` of the first workers, never an unset `m_id`; when a constructor has
returned, its thread has set `m_id` and moved the callback out of `m_cb`; and once `start` has
left its loop there is one id per thread of the scheduler. -/
theorem start_reads_ids {threads : Nat} {useCaller : Bool} {rootId n : Nat}
    {pre : List (Option Nat)} {tid : Nat → Nat} {s : St}
    (hc : scheduler threads useCaller rootId = some (n, pre)) (h : Reach n tid pre s) :
    pre = (if useCaller then [some rootId] else []) ∧
      s.threadIds = pre ++ (List.range (s.threadIds.length - pre.length)).map (fun j => some (tid j)) ∧
      (∀ i, s.starter = .push i → s.threadId i = some (tid i) ∧ s.cb i = false) ∧
      (s.starter = .done → s.threadIds.length = threads) := by
  have hi := inv_of_reach h
  have hsch := scheduler_spec hc
  refine ⟨hsch.1, ?_, fun i hs => ?_, fun hs => ?_⟩
  · rw [hi.ids, List.length_append, List.length_map, List.length_range, Nat.add_sub_cancel_left]
  · have hrun := hi.joined i (by rw [hs]; simp [Starter.joined])
    exact ⟨by rw [hi.threadId i, hrun]; simp, hi.cb i (.inr hrun)⟩
  · rw [hi.ids, hs, List.length_append, List.length_map, List.length_range]
    exact hsch.2

/-- The steps of a run with two workers, each posting its semaphore right after it starts. -/
def twoWorkers : List Action :=
  [.starter, .worker 0, .worker 0, .worker 0, .starter, .starter,
    .starter, .worker 1, .worker 1, .worker 1, .starter, .starter, .starter]

/-- `Scheduler(3, true)` on a thread whose `GetThreadId()` is `5` leaves two workers to `start`;
with `GetThreadId()` giving them `7` and `9`, `m_threadIds` ends as `5, 7, 9`. -/
theorem start_reads_ids_two :
    scheduler 3 true 5 = some (2, [some 5]) ∧
      (run 2 (fun i => 7 + 2 * i) (St.initial [some 5]) twoWorkers).threadIds =
        [some 5, some 7, some 9] ∧
      (run 2 (fun i => 7 + 2 * i) (St.initial [some 5]) twoWorkers).starter = .done ∧
      (run 2 (fun i => 7 + 2 * i) (St.initial [some 5]) twoWorkers).threadIds.length = 3 :=
  ⟨rfl, rfl, rfl, (start_reads_ids (rfl : scheduler 3 true 5 = some (2, [some 5]))
    (run_reach twoWorkers .init)).2.2.2 rfl⟩

end Sylar.Thread.Start
