import Mathlib.Data.Int.Notation
import Mathlib.Data.Nat.Notation
import Mathlib.Logic.Function.Basic
import OsSimulator.Library.LockGraph
import OsSimulator.Library.Runs

set_option relaxedAutoImplicit false
set_option autoImplicit false

/-!
# The wait for EXEC to drain

The functions of `exec_list.c` and `counter.c` that share `exec->list_mutex` and
`syscall_counter->counter_mutex`, lock by lock: one thread in
`wait_queue_exec_empty_with_syscalls`, and any number of threads that add processes to EXEC, take
them out, and count syscalls. `cnd_wait` releases the list mutex only, so the waiter parks with the
counter mutex, which everyone needs who could end the wait.

## Main definitions

* `ExecWait`, `ExecWait.step` — the state and one step of one thread.
* `ExecWait.Stuck` — the waiter is parked and everyone else who has work is blocked behind it.
* `ExecWait.ParksAlone` — the condition on a step.

## Main results

* `ExecWait.not_stuck_of_run` — no run whose steps meet the condition gets stuck.
* `ExecWait.stuck_of_outsideSyscall` — one process in EXEC and one thread that takes it out.
-/

namespace OsSimulator.Scheduler

variable {ι : Type}

/-- The calls the other threads make. -/
inductive ExecCall
  | transitionToExec (p : ℕ)
  | transitionTakeExec (p : ℕ)
  | incrementSyscallCounter
  | decrementSyscallCounter
  deriving DecidableEq, Repr

/-- Where the waiter is: before and after its locks, in `cnd_wait`, woken up but without the list
mutex, and past its loop. -/
inductive WaiterPhase
  | start
  | listLocked
  | testing
  | parked
  | woken
  | leaving
  | returned
  deriving DecidableEq, Repr

/-- Where another thread is in its call. -/
inductive CallPhase
  | idle
  | adding (p : ℕ)
  | removing (p : ℕ)
  | removed
  | signalling
  | leaving
  | updating
  | updated
  | incrementing
  | decrementing
  deriving DecidableEq, Repr

/-- The threads: the waiter and the others. -/
inductive ExecThread (ι : Type)
  | waiter
  | worker (i : ι)
  deriving DecidableEq, Repr

/-- The two mutexes. -/
inductive ExecLock
  | list
  | counter
  deriving DecidableEq, Repr

/-- The EXEC list and the syscall counter with their mutexes, and what the threads are doing.
`work` are the calls a thread has yet to make. -/
structure ExecWait (ι : Type) where
  exec : List ℕ
  preemption : Bool
  count : ℤ
  listMutex : Option (ExecThread ι)
  counterMutex : Option (ExecThread ι)
  waiter : WaiterPhase
  phase : ι → CallPhase
  work : ι → List ExecCall

namespace ExecWait

/-- Nobody has begun. -/
def init (exec : List ℕ) (preemption : Bool) (count : ℤ) (work : ι → List ExecCall) :
    ExecWait ι where
  exec := exec
  preemption := preemption
  count := count
  listMutex := none
  counterMutex := none
  waiter := .start
  phase := fun _ => .idle
  work := work

/-! ## The steps -/

/-- `mtx_lock` on the list mutex. -/
def lockList (t : ExecThread ι) (s : ExecWait ι) : Option (ExecWait ι) :=
  if s.listMutex.isNone then some { s with listMutex := some t } else none

/-- `mtx_lock` on the counter mutex. -/
def lockCounter (t : ExecThread ι) (s : ExecWait ι) : Option (ExecWait ι) :=
  if s.counterMutex.isNone then some { s with counterMutex := some t } else none

/-- A thread gets the mutex of the list when it is free. -/
lemma lockList_eq_some {t : ExecThread ι} {s s' : ExecWait ι} (h : s.lockList t = some s') :
    s.listMutex = none ∧ s' = { s with listMutex := some t } := by
  unfold lockList at h
  split at h
  · rename_i hfree
    exact ⟨Option.isNone_iff_eq_none.1 hfree, (Option.some.inj h).symm⟩
  · exact absurd h (by simp)

/-- And that of the counter. -/
lemma lockCounter_eq_some {t : ExecThread ι} {s s' : ExecWait ι} (h : s.lockCounter t = some s') :
    s.counterMutex = none ∧ s' = { s with counterMutex := some t } := by
  unfold lockCounter at h
  split at h
  · rename_i hfree
    exact ⟨Option.isNone_iff_eq_none.1 hfree, (Option.some.inj h).symm⟩
  · exact absurd h (by simp)

/-- `mtx_unlock` on the list mutex. -/
def unlockList (s : ExecWait ι) : ExecWait ι := { s with listMutex := none }

/-- `mtx_unlock` on the counter mutex. -/
def unlockCounter (s : ExecWait ι) : ExecWait ι := { s with counterMutex := none }

/-- `cnd_signal` on the counter's condition. -/
def signal (s : ExecWait ι) : ExecWait ι :=
  if s.waiter = .parked then { s with waiter := .woken } else s

/-- A step of `wait_queue_exec_empty_with_syscalls`. -/
def waiterStep (s : ExecWait ι) : Option (ExecWait ι) :=
  match s.waiter with
  | .start => (s.lockList .waiter).map fun s => { s with waiter := .listLocked }
  | .listLocked => (s.lockCounter .waiter).map fun s => { s with waiter := .testing }
  | .testing =>
    if 0 < s.exec.length - s.count then
      -- `cnd_wait` gets the list mutex, the counter mutex stays locked
      some { s.unlockList with waiter := .parked }
    else some { s.unlockCounter with waiter := .leaving }
  | .parked => none
  | .woken => (s.lockList .waiter).map fun s => { s with waiter := .testing }
  | .leaving => some { s.unlockList with waiter := .returned }
  | .returned => none

variable [DecidableEq ι]

/-- The thread is in another phase. -/
def setPhase (i : ι) (phase : CallPhase) (s : ExecWait ι) : ExecWait ι :=
  { s with phase := Function.update s.phase i phase }

/-- The thread has begun the first of its calls. -/
def begin (i : ι) (phase : CallPhase) (rest : List ExecCall) (s : ExecWait ι) : ExecWait ι :=
  { s.setPhase i phase with work := Function.update s.work i rest }

/-- A step of another thread: `transition_to_exec`, `transition_take_exec` (with the
`update_lowest_exec_priority` after it), `increment_syscall_counter` and
`decrement_syscall_counter`. -/
def workerStep (i : ι) (s : ExecWait ι) : Option (ExecWait ι) :=
  match s.phase i with
  | .idle =>
    match s.work i with
    | [] => none
    | .transitionToExec p :: rest => (s.lockList (.worker i)).map (begin i (.adding p) rest)
    | .transitionTakeExec p :: rest => (s.lockList (.worker i)).map (begin i (.removing p) rest)
    | .incrementSyscallCounter :: rest =>
      (s.lockCounter (.worker i)).map (begin i .incrementing rest)
    | .decrementSyscallCounter :: rest =>
      (s.lockCounter (.worker i)).map (begin i .decrementing rest)
  | .adding p => some ({ s.unlockList with exec := s.exec ++ [p] }.setPhase i .idle)
  | .removing p => some ({ s with exec := s.exec.erase p }.setPhase i .removed)
  | .removed => (s.lockCounter (.worker i)).map (setPhase i .signalling)
  | .signalling =>
    let s := if s.exec.length - s.count = 0 then s.signal else s
    some (s.unlockCounter.setPhase i .leaving)
  | .leaving => some (s.unlockList.setPhase i (if s.preemption then .updating else .idle))
  | .updating => (s.lockList (.worker i)).map (setPhase i .updated)
  | .updated => some (s.unlockList.setPhase i .idle)
  | .incrementing => some ({ s.unlockCounter with count := s.count + 1 }.setPhase i .idle)
  | .decrementing => some ({ s.unlockCounter with count := s.count - 1 }.setPhase i .idle)

/-- What can happen next: a step of a thread, or a spurious wake-up of the waiter. -/
inductive Event (ι : Type)
  | waiter
  | spurious
  | worker (i : ι)
  deriving DecidableEq, Repr

/-- One step of the system. -/
def step (s : ExecWait ι) : Event ι → Option (ExecWait ι)
  | .waiter => s.waiterStep
  | .spurious => if s.waiter = .parked then some { s with waiter := .woken } else none
  | .worker i => s.workerStep i

/-! ## Waiting and being stuck -/

/-- The owner of a mutex. -/
def owner (s : ExecWait ι) : ExecLock → Option (ExecThread ι)
  | .list => s.listMutex
  | .counter => s.counterMutex

/-- The mutex a thread would lock in its next step. -/
def wants (s : ExecWait ι) : ExecThread ι → Option ExecLock
  | .waiter =>
    match s.waiter with
    | .start => some .list
    | .listLocked => some .counter
    | .woken => some .list
    | _ => none
  | .worker i =>
    match s.phase i, s.work i with
    | .idle, .transitionToExec _ :: _ => some .list
    | .idle, .transitionTakeExec _ :: _ => some .list
    | .idle, .incrementSyscallCounter :: _ => some .counter
    | .idle, .decrementSyscallCounter :: _ => some .counter
    | .removed, _ => some .counter
    | .updating, _ => some .list
    | _, _ => none

/-- The thread is in a call or has calls to make. -/
def Busy (s : ExecWait ι) (i : ι) : Prop := s.phase i ≠ .idle ∨ s.work i ≠ []

/-- **The waiter is parked for ever**: somebody else has work, and everybody who has is blocked
behind the waiter, on a mutex it owns or on one owned by a thread that is itself blocked so. -/
def Stuck (s : ExecWait ι) : Prop :=
  s.waiter = .parked ∧ (∃ i, s.Busy i) ∧
    ∀ i, s.Busy i → BlockedBehind s.owner s.wants (.worker i) .waiter

/-- The thread still has to lock the counter mutex. -/
def CounterWork (s : ExecWait ι) (i : ι) : Prop :=
  (∃ call ∈ s.work i, ∀ p, call ≠ .transitionToExec p) ∨
    (∃ p, s.phase i = .removing p) ∨ s.phase i = .removed

/-- The waiter only parks when nobody has to lock the counter mutex any more. -/
def ParksAlone (s : ExecWait ι) (e : Event ι) : Prop :=
  e = .waiter → s.waiter = .testing → 0 < s.exec.length - s.count → ∀ i, ¬ s.CounterWork i

/-! ## Steps, waits and the invariant -/

variable {i : ι} {s s' : ExecWait ι}

/-- What a wait means: a busy thread cannot make its step exactly when it wants a mutex that
somebody owns. -/
lemma workerStep_eq_none (hbusy : s.Busy i) :
    s.workerStep i = none ↔
      ∃ l, s.wants (.worker i) = some l ∧ ∃ t, s.owner l = some t := by
  have hlist : ∀ f : ExecWait ι → ExecWait ι, (s.lockList (.worker i)).map f = none ↔
      ∃ t, s.owner .list = some t := by
    intro f
    rw [← Option.isSome_iff_exists]
    cases hm : s.listMutex <;> simp [lockList, owner, hm]
  have hcounter : ∀ f : ExecWait ι → ExecWait ι, (s.lockCounter (.worker i)).map f = none ↔
      ∃ t, s.owner .counter = some t := by
    intro f
    rw [← Option.isSome_iff_exists]
    cases hm : s.counterMutex <;> simp [lockCounter, owner, hm]
  cases hphase : s.phase i with
  | idle =>
    cases hwork : s.work i with
    | nil =>
      rcases hbusy with h | h
      · exact absurd hphase h
      · exact absurd hwork h
    | cons call rest => cases call <;> simp [workerStep, wants, hphase, hwork, hlist, hcounter]
  | removed => simp [workerStep, wants, hphase, hcounter]
  | updating => simp [workerStep, wants, hphase, hlist]
  | adding p => simp [workerStep, wants, hphase]
  | removing p => simp [workerStep, wants, hphase]
  | signalling => simp [workerStep, wants, hphase]
  | leaving => simp [workerStep, wants, hphase]
  | updated => simp [workerStep, wants, hphase]
  | incrementing => simp [workerStep, wants, hphase]
  | decrementing => simp [workerStep, wants, hphase]

/-- What a step of another thread does to the waiter: it may wake it up, and it does not give it a
mutex; and no thread gets more work on the counter mutex. -/
structure WorkerEffect (s s' : ExecWait ι) : Prop where
  waiter : s'.waiter = s.waiter ∨ s.waiter = .parked ∧ s'.waiter = .woken
  list : s'.listMutex = some .waiter → s.listMutex = some .waiter
  work : ∀ j, s'.CounterWork j → s.CounterWork j

/-- The work of a thread that makes a step, from its phase and its calls before and after. -/
lemma counterWork_of_update {phase : CallPhase} {calls : List ExecCall}
    (hphase : s'.phase = Function.update s.phase i phase)
    (hwork : s'.work = Function.update s.work i calls)
    (hself : (∃ call ∈ calls, ∀ p, call ≠ .transitionToExec p) ∨
      (∃ p, phase = .removing p) ∨ phase = .removed → s.CounterWork i) (j : ι)
    (hj : s'.CounterWork j) : s.CounterWork j := by
  unfold CounterWork at hj
  rw [hphase, hwork] at hj
  by_cases heq : j = i
  · subst heq
    rw [Function.update_self, Function.update_self] at hj
    exact hself hj
  · rwa [Function.update_of_ne heq, Function.update_of_ne heq] at hj

/-- A step in a call: the calls to make are what they were. -/
lemma counterWork_of_setPhase {phase : CallPhase} (hphase : s'.phase = Function.update s.phase i phase)
    (hwork : s'.work = s.work)
    (hself : (∃ p, phase = .removing p) ∨ phase = .removed → s.CounterWork i) (j : ι)
    (hj : s'.CounterWork j) : s.CounterWork j := by
  have hsame : s'.work = Function.update s.work i (s.work i) := by
    rw [hwork, Function.update_eq_self]
  refine counterWork_of_update hphase hsame ?_ j hj
  rintro (hcall | hrest)
  · exact .inl hcall
  · exact hself hrest

/-- What a step of a worker changes. -/
lemma workerStep_spec (h : s.workerStep i = some s') : WorkerEffect s s' := by
  unfold workerStep at h
  split at h
  · rename_i hphase
    -- the beginning of a call
    split at h
    · exact absurd h (by simp)
    · rename_i p rest hwork
      obtain ⟨t, ht, rfl⟩ := Option.map_eq_some_iff.1 h
      obtain ⟨-, rfl⟩ := lockList_eq_some ht
      refine ⟨.inl rfl, fun hlist => absurd hlist (by simp [begin, setPhase]),
        counterWork_of_update rfl rfl ?_⟩
      rintro (⟨call, hcall, hne⟩ | ⟨q, hq⟩ | hq)
      · exact .inl ⟨call, by rw [hwork]; exact List.mem_cons_of_mem _ hcall, hne⟩
      · exact absurd hq (by simp)
      · exact absurd hq (by simp)
    · rename_i p rest hwork
      obtain ⟨t, ht, rfl⟩ := Option.map_eq_some_iff.1 h
      obtain ⟨-, rfl⟩ := lockList_eq_some ht
      refine ⟨.inl rfl, fun hlist => absurd hlist (by simp [begin, setPhase]),
        counterWork_of_update rfl rfl fun _ => .inl ⟨.transitionTakeExec p, ?_, by simp⟩⟩
      rw [hwork]
      exact List.mem_cons_self
    · rename_i rest hwork
      obtain ⟨t, ht, rfl⟩ := Option.map_eq_some_iff.1 h
      obtain ⟨-, rfl⟩ := lockCounter_eq_some ht
      refine ⟨.inl rfl, fun hlist => hlist,
        counterWork_of_update rfl rfl fun _ => .inl ⟨.incrementSyscallCounter, ?_, by simp⟩⟩
      rw [hwork]
      exact List.mem_cons_self
    · rename_i rest hwork
      obtain ⟨t, ht, rfl⟩ := Option.map_eq_some_iff.1 h
      obtain ⟨-, rfl⟩ := lockCounter_eq_some ht
      refine ⟨.inl rfl, fun hlist => hlist,
        counterWork_of_update rfl rfl fun _ => .inl ⟨.decrementSyscallCounter, ?_, by simp⟩⟩
      rw [hwork]
      exact List.mem_cons_self
  · obtain rfl := Option.some.inj h
    exact ⟨.inl rfl, fun hlist => absurd hlist (by simp [setPhase, unlockList]),
      counterWork_of_setPhase rfl rfl (by simp)⟩
  · rename_i p hphase
    obtain rfl := Option.some.inj h
    exact ⟨.inl rfl, fun hlist => hlist,
      counterWork_of_setPhase rfl rfl fun _ => .inr (.inl ⟨p, hphase⟩)⟩
  · obtain ⟨t, ht, rfl⟩ := Option.map_eq_some_iff.1 h
    obtain ⟨-, rfl⟩ := lockCounter_eq_some ht
    exact ⟨.inl rfl, fun hlist => hlist, counterWork_of_setPhase rfl rfl (by simp)⟩
  · obtain rfl := Option.some.inj h
    -- the only step that signals
    split
    · unfold signal
      split
      · rename_i hparked
        exact ⟨.inr ⟨hparked, rfl⟩, fun hlist => hlist, counterWork_of_setPhase rfl rfl (by simp)⟩
      · exact ⟨.inl rfl, fun hlist => hlist, counterWork_of_setPhase rfl rfl (by simp)⟩
    · exact ⟨.inl rfl, fun hlist => hlist, counterWork_of_setPhase rfl rfl (by simp)⟩
  · obtain rfl := Option.some.inj h
    refine ⟨.inl rfl, fun hlist => absurd hlist (by simp [setPhase, unlockList]),
      counterWork_of_setPhase rfl rfl ?_⟩
    split <;> simp
  · obtain ⟨t, ht, rfl⟩ := Option.map_eq_some_iff.1 h
    obtain ⟨-, rfl⟩ := lockList_eq_some ht
    exact ⟨.inl rfl, fun hlist => absurd hlist (by simp [setPhase]),
      counterWork_of_setPhase rfl rfl (by simp)⟩
  · obtain rfl := Option.some.inj h
    exact ⟨.inl rfl, fun hlist => absurd hlist (by simp [setPhase, unlockList]),
      counterWork_of_setPhase rfl rfl (by simp)⟩
  · obtain rfl := Option.some.inj h
    exact ⟨.inl rfl, fun hlist => hlist, counterWork_of_setPhase rfl rfl (by simp)⟩
  · obtain rfl := Option.some.inj h
    exact ⟨.inl rfl, fun hlist => hlist, counterWork_of_setPhase rfl rfl (by simp)⟩

/-- **The invariant**: the waiter owns the list mutex only where it should, and nobody needs the
counter mutex while it is parked. -/
structure WaitsAlone (s : ExecWait ι) : Prop where
  list : s.listMutex = some .waiter →
    s.waiter = .listLocked ∨ s.waiter = .testing ∨ s.waiter = .leaving
  alone : s.waiter = .parked → ∀ i, ¬ s.CounterWork i

omit [DecidableEq ι] in
/-- A step of the waiter that meets the condition. -/
lemma waitsAlone_waiterStep (hok : ParksAlone s .waiter)
    (hstep : s.waiterStep = some s') : WaitsAlone s' := by
  unfold waiterStep at hstep
  split at hstep
  · obtain ⟨t, ht, rfl⟩ := Option.map_eq_some_iff.1 hstep
    obtain ⟨-, rfl⟩ := lockList_eq_some ht
    exact ⟨fun _ => .inl rfl, fun hparked => absurd hparked (by simp)⟩
  · obtain ⟨t, ht, rfl⟩ := Option.map_eq_some_iff.1 hstep
    obtain ⟨-, rfl⟩ := lockCounter_eq_some ht
    exact ⟨fun _ => .inr (.inl rfl), fun hparked => absurd hparked (by simp)⟩
  · rename_i htesting
    split at hstep
    · rename_i hpos
      obtain rfl := Option.some.inj hstep
      exact ⟨fun hlist => absurd hlist (by simp [unlockList]), fun _ => hok rfl htesting hpos⟩
    · obtain rfl := Option.some.inj hstep
      exact ⟨fun _ => .inr (.inr rfl), fun hparked => absurd hparked (by simp)⟩
  · exact absurd hstep (by simp)
  · obtain ⟨t, ht, rfl⟩ := Option.map_eq_some_iff.1 hstep
    obtain ⟨-, rfl⟩ := lockList_eq_some ht
    exact ⟨fun _ => .inr (.inl rfl), fun hparked => absurd hparked (by simp)⟩
  · obtain rfl := Option.some.inj hstep
    exact ⟨fun hlist => absurd hlist (by simp [unlockList]),
      fun hparked => absurd hparked (by simp)⟩
  · exact absurd hstep (by simp)

/-- **Every step that meets the condition keeps the invariant.** -/
lemma waitsAlone_step {e : Event ι} (h : WaitsAlone s) (hok : ParksAlone s e)
    (hstep : step s e = some s') : WaitsAlone s' := by
  cases e with
  | waiter => exact waitsAlone_waiterStep hok hstep
  | spurious =>
    simp only [step] at hstep
    split at hstep
    · rename_i hparked
      obtain rfl := Option.some.inj hstep
      refine ⟨fun hlist => ?_, fun hwoken => absurd hwoken (by simp)⟩
      have hphase := h.list hlist
      rw [hparked] at hphase
      exact absurd hphase (by simp)
    · exact absurd hstep (by simp)
  | worker i =>
    have heffect := workerStep_spec hstep
    rcases heffect.waiter with hsame | ⟨hparked, hwoken⟩
    · refine ⟨fun hlist => ?_, fun hparked j hj => ?_⟩
      · rw [hsame]
        exact h.list (heffect.list hlist)
      · exact h.alone (hsame ▸ hparked) j (heffect.work j hj)
    · refine ⟨fun hlist => ?_, fun hstill => ?_⟩
      · have hphase := h.list (heffect.list hlist)
        rw [hparked] at hphase
        exact absurd hphase (by simp)
      · rw [hwoken] at hstill
        exact absurd hstill (by simp)

omit [DecidableEq ι] in
/-- A parked waiter can only be in the way of a thread with work on the counter mutex. -/
lemma not_stuck_of_waitsAlone (h : WaitsAlone s) : ¬ s.Stuck := by
  rintro ⟨hparked, ⟨i, hbusy⟩, hall⟩
  obtain ⟨t, l, hwants, howner⟩ := exists_waitsOn_of_blockedBehind (hall i hbusy)
  cases l with
  | list =>
    have hphase := h.list howner
    rw [hparked] at hphase
    exact absurd hphase (by simp)
  | counter =>
    cases t with
    | waiter => exact absurd hwants (by simp [wants, hparked])
    | worker j =>
      refine h.alone hparked j ?_
      -- a thread that wants the counter mutex is between two calls or has removed its process
      unfold wants at hwants
      simp only at hwants
      split at hwants
      · exact absurd hwants (by simp)
      · exact absurd hwants (by simp)
      · rename_i rest hphase hwork
        exact .inl ⟨_, by rw [hwork]; exact List.mem_cons_self, by simp⟩
      · rename_i rest hphase hwork
        exact .inl ⟨_, by rw [hwork]; exact List.mem_cons_self, by simp⟩
      · rename_i hphase
        exact .inr (.inr hphase)
      · exact absurd hwants (by simp)
      · exact absurd hwants (by simp)

/-! ## The runs -/

/-- **The wait cannot get stuck in a run in which the waiter only parks when nobody has to lock the
counter mutex any more**, with any number of threads, any calls and any processes in EXEC. -/
theorem not_stuck_of_run {exec : List ℕ} {preemption : Bool} {count : ℤ}
    {work : ι → List ExecCall} {s : ExecWait ι}
    (h : Run step ParksAlone (init exec preemption count work) s) : ¬ s.Stuck := by
  refine not_stuck_of_waitsAlone (h.invariant ?_ fun _ _ _ ht hok hstep =>
    waitsAlone_step ht hok hstep)
  exact ⟨fun hlist => absurd hlist (by simp [init]), fun hparked => absurd hparked (by simp [init])⟩

/-- The waiter parks for the process in EXEC while another thread has only a `transition_to_exec` to
make, for which it gets the list mutex. -/
theorem not_stuck_of_run_besideTransition :
    ∃ s : ExecWait Unit, execute step (init [0] false 0 fun _ => [.transitionToExec 1])
        [.waiter, .waiter, .waiter, .worker ()] = some s ∧
      s.waiter = .parked ∧ s.listMutex = some (.worker ()) ∧ s.Busy () ∧ ¬ s.Stuck := by
  have halone : ∀ s : ExecWait Unit, s.phase = (fun _ => .idle) →
      s.work = (fun _ => [.transitionToExec 1]) → s.ParksAlone .waiter := by
    intro s hphase hwork _ _ _ i hcounter
    rcases hcounter with ⟨call, hcall, hnot⟩ | ⟨p, hremoving⟩ | hremoved
    · rw [hwork] at hcall
      exact hnot 1 (List.mem_singleton.1 hcall)
    · rw [hphase] at hremoving
      exact absurd hremoving (by simp)
    · rw [hphase] at hremoved
      exact absurd hremoved (by simp)
  have hparks : Run step ParksAlone (init [0] false 0 fun _ : Unit => [.transitionToExec 1])
      { init [0] false 0 fun _ : Unit => [.transitionToExec 1] with
        counterMutex := some .waiter, waiter := .parked } := by
    refine ((Run.refl.tail .waiter ?_ rfl).tail .waiter ?_ rfl).tail .waiter ?_ rfl
    · exact halone _ rfl rfl
    · exact halone _ rfl rfl
    · exact halone _ rfl rfl
  have hbeside := hparks.tail (.worker ()) (fun h => absurd h (by simp)) rfl
  refine ⟨_, rfl, rfl, rfl, .inl ?_, not_stuck_of_run hbeside⟩
  simp [begin, setPhase]

/-- **One process in EXEC outside a syscall.** The waiter parks with the counter mutex, and the
thread that takes the process out of EXEC waits for that mutex. -/
theorem stuck_of_outsideSyscall :
    ∃ s : ExecWait Unit,
      Reachable step (init [0] false 0 fun _ => [.transitionTakeExec 0]) s ∧ s.Stuck := by
  have hrun : execute step (init [0] false 0 fun _ : Unit => [.transitionTakeExec 0])
      [.waiter, .waiter, .waiter, .worker (), .worker ()] = some
        { init [] false 0 fun _ : Unit => [] with
          listMutex := some (.worker ()), counterMutex := some .waiter, waiter := .parked,
          phase := fun _ => .removed } := by
    have hupdate : ∀ (α : Type) (f : Unit → α) (x : α), Function.update f () x = fun _ => x := by
      intro α f x
      funext u
      exact Function.update_self ..
    simp [execute, step, waiterStep, workerStep, lockList, lockCounter, init, unlockList, begin,
      setPhase, hupdate]
  refine ⟨_, Run.of_execute hrun, rfl, ⟨(), .inl ?_⟩, fun i _ => .single ⟨.counter, rfl, rfl⟩⟩
  intro h
  cases h

end ExecWait

end OsSimulator.Scheduler
