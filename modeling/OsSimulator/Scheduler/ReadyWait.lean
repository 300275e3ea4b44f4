import Mathlib.Data.Fintype.Basic
import Mathlib.Logic.Function.Basic
import OsSimulator.Library.Runs
import OsSimulator.Library.Threads
import OsSimulator.Scheduler.ReadyQueue

set_option relaxedAutoImplicit false
set_option autoImplicit false

/-!
# Waiting for a process

`transition_take_ready_blocking` step by step: any number of CPU threads, the two conditions
`new_process` and `exit_unblocked` under `queue_mutex`, and the flags `preempt_all` and
`terminate_queue`, which are stored without the mutex. `transition_to_ready` signals `new_process`
only when it finds the queue empty. So with a process in the queue the next arrival wakes nobody,
even if the one thread that was woken has not taken that process yet.

## Main definitions

* `ReadyWait`, `ReadyWait.step` — the queue with the threads, and one step of one of them.
* `ReadyWait.Idles` — a process waits in READY, and a CPU thread sleeps for good.
* `ReadyWait.Heeded` — the condition on an arrival.

## Main results

* `ReadyWait.not_idles_of_run` — no thread sleeps in a run whose arrivals meet the condition.
* `ReadyWait.idles_of_two_arrivals` — two threads, and two processes that arrive together.
-/

namespace OsSimulator.Scheduler

/-- Where a CPU thread is: outside the function; at the three tests of the loop condition and of its
body, with the mutex; in `cnd_wait` on one of the conditions, or woken up there but without the
mutex; and behind the loop. -/
inductive TakerPhase
  | outside
  | testing
  | testingBlocked
  | waitingNew
  | waitingUnblocked
  | waitingPreempt
  | parkedNew
  | wokenNew
  | parkedUnblocked
  | wokenUnblocked
  | leaving
  deriving DecidableEq, Repr

/-- The thread sleeps in `cnd_wait`, and nobody has woken it up. -/
def TakerPhase.isParked : TakerPhase → Bool
  | .parkedNew | .parkedUnblocked => true
  | _ => false

/-- The thread has the mutex. -/
def TakerPhase.hasMutex : TakerPhase → Bool
  | .testing | .testingBlocked | .waitingNew | .waitingUnblocked | .waitingPreempt | .leaving => true
  | _ => false

/-- The thread will look at the queue without being signalled as a waiter on `new_process`. -/
def TakerPhase.isOnItsWay : TakerPhase → Bool
  | .outside | .parkedNew => false
  | _ => true

/-- Who is parked waits at one of two conditions. -/
lemma TakerPhase.parked_cases {x : TakerPhase} (h : x.isParked = true) :
    x = .parkedNew ∨ x = .parkedUnblocked := by
  cases x with
  | parkedNew => exact .inl rfl
  | parkedUnblocked => exact .inr rfl
  | _ => exact absurd h Bool.false_ne_true

variable {ι : Type}

/-- The READY queue with its mutex, conditions and flags, and the CPU threads. `unlocking` and
`terminating` are the calls of `unlock_queue_ready` and `terminate_queue_ready` that have stored
their flag and not yet broadcast; `pcb` is what a thread's last call returned. -/
@[ext]
structure ReadyWait (ι : Type) where
  ready : ReadyQueue
  preemptAll : Bool
  terminateQueue : Bool
  queueMutex : Option ι
  unlocking : ℕ
  terminating : ℕ
  phase : ι → TakerPhase
  pcb : ι → Option ℕ

namespace ReadyWait

/-- `init_ready_queue`, and no thread is in the function. -/
def init (multilevel : Bool) (algorithms : List SchedulingAlgorithm) : ReadyWait ι where
  ready := ReadyQueue.init multilevel algorithms
  preemptAll := false
  terminateQueue := false
  queueMutex := none
  unlocking := 0
  terminating := 0
  phase := fun _ => .outside
  pcb := fun _ => none

/-! ## The steps -/

/-- What can happen: a process that arrives, with the waiter the signal wakes; one that is taken out
by someone else; the halves of the calls that store a flag and broadcast; and a step of a CPU
thread. -/
inductive Action (ι : Type)
  | toReady (p : ℕ) (priority : ℤ) (woken : Option ι)
  | takeReady (p : ℕ) (priority : ℤ)
  | takeReadyNext
  | lockQueue
  | unlockQueue
  | unlockBroadcast
  | terminateQueue
  | terminateBroadcast
  | taker (i : ι)
  deriving DecidableEq, Repr

/-- `cnd_broadcast` on `exit_unblocked`. -/
def broadcastUnblocked (s : ReadyWait ι) : ReadyWait ι :=
  { s with phase := fun i =>
      if s.phase i = .parkedUnblocked then .wokenUnblocked else s.phase i }

/-- `cnd_broadcast` on `new_process`. -/
def broadcastNew (s : ReadyWait ι) : ReadyWait ι :=
  { s with phase := fun i => if s.phase i = .parkedNew then .wokenNew else s.phase i }

variable [DecidableEq ι]

/-- The thread goes on elsewhere. -/
def setPhase (i : ι) (phase : TakerPhase) (s : ReadyWait ι) : ReadyWait ι :=
  { s with phase := Function.update s.phase i phase }

/-- `mtx_lock` by a thread. -/
def lock (i : ι) (phase : TakerPhase) (s : ReadyWait ι) : Option (ReadyWait ι) :=
  if s.queueMutex = none then some { s.setPhase i phase with queueMutex := some i } else none

/-- `mtx_unlock`, also the one in `cnd_wait`. -/
def unlock (i : ι) (phase : TakerPhase) (s : ReadyWait ι) : ReadyWait ι :=
  { s.setPhase i phase with queueMutex := none }

/-- A step of a thread in `transition_take_ready_blocking`. The tests that read a flag and those
that read the count are steps of their own where a flag may change in between; nobody can signal
between a test and the `cnd_wait` it leads to. -/
def takerStep (i : ι) (s : ReadyWait ι) : Option (ReadyWait ι) :=
  match s.phase i with
  | .outside => s.lock i .testing
  | .testing => some (s.setPhase i (if s.terminateQueue then .leaving else .testingBlocked))
  | .testingBlocked =>
    some (s.setPhase i
      (if s.ready.readyProcessCount = 0 ∨ s.preemptAll then .waitingNew else .leaving))
  | .waitingNew =>
    if s.terminateQueue = false ∧ s.ready.readyProcessCount = 0 then
      some (s.unlock i .parkedNew)
    else some (s.setPhase i .waitingUnblocked)
  | .parkedNew => none
  | .wokenNew => s.lock i .waitingUnblocked
  | .waitingUnblocked =>
    some (s.setPhase i (if s.terminateQueue then .testing else .waitingPreempt))
  | .waitingPreempt =>
    some (if s.preemptAll then s.unlock i .parkedUnblocked else s.setPhase i .testing)
  | .parkedUnblocked => none
  | .wokenUnblocked => s.lock i .testing
  | .leaving =>
    let taken := if s.terminateQueue then none else s.ready.takeNext
    some { s.unlock i .outside with
      ready := (taken.map Prod.snd).getD s.ready
      pcb := Function.update s.pcb i (taken.map Prod.fst) }

/-- `cnd_signal` on `new_process`: it wakes one waiter if there is one. -/
def signalNew (woken : Option ι) (s : ReadyWait ι) [Fintype ι] : Option (ReadyWait ι) :=
  match woken with
  | some i => if s.phase i = .parkedNew then some (s.setPhase i .wokenNew) else none
  | none => if ∀ i, s.phase i ≠ .parkedNew then some s else none

/-- One step of the system. The calls that take the mutex and give it back without a test of a flag
in between are one step. -/
def step [Fintype ι] (s : ReadyWait ι) : Action ι → Option (ReadyWait ι)
  | .toReady p priority woken =>
    if s.queueMutex = none then
      (s.ready.add p priority).bind fun ready =>
        (if s.ready.readyProcessCount = 0 then s.signalNew woken
          else if woken = none then some s else none).map fun s => { s with ready := ready }
    else none
  | .takeReady p priority =>
    -- its callers take a PCB out of the subqueue it is in
    if s.queueMutex = none ∧
        p ∈ ReadyQueue.levelList s.ready.queues (s.ready.level priority).toNat then
      (s.ready.take p priority).map fun ready => { s with ready := ready }
    else none
  | .takeReadyNext =>
    if s.queueMutex = none then
      some { s with ready := (s.ready.takeNext.map Prod.snd).getD s.ready }
    else none
  | .lockQueue => some { s with preemptAll := true }
  | .unlockQueue => some { s with preemptAll := false, unlocking := s.unlocking + 1 }
  | .unlockBroadcast =>
    if s.queueMutex = none ∧ 0 < s.unlocking then
      some { s.broadcastUnblocked with unlocking := s.unlocking - 1 }
    else none
  | .terminateQueue => some { s with terminateQueue := true, terminating := s.terminating + 1 }
  | .terminateBroadcast =>
    if s.queueMutex = none ∧ 0 < s.terminating then
      some { s.broadcastNew.broadcastUnblocked with terminating := s.terminating - 1 }
    else none
  | .taker i => s.takerStep i

/-! ## The property and the condition -/

/-- A wake-up for a parked thread is under way: a thread has been woken up and has not yet taken a
process or parked again, or the broadcast of an `unlock_queue_ready` is still to come. -/
def WakeUpPending (s : ReadyWait ι) : Prop :=
  0 < s.unlocking ∨ ∃ i, (s.phase i).isOnItsWay = true ∧ (s.phase i).isParked = false

/-- **A CPU sleeps while a process waits**: READY is not empty, neither blocked nor terminated, a
thread is parked, and nothing is under way that would wake it up. -/
def Idles (s : ReadyWait ι) : Prop :=
  s.ready.readyProcessCount ≠ 0 ∧ s.preemptAll = false ∧ s.terminateQueue = false ∧
    (∃ i, (s.phase i).isParked = true) ∧ ¬ s.WakeUpPending

/-- The threads that will look at the queue without another signal. -/
def onTheirWay [Fintype ι] (s : ReadyWait ι) : ℕ := countThreads TakerPhase.isOnItsWay s.phase

/-- An arrival is heeded: the queue is empty, so that the arrival signals; or nobody waits for a
signal; or there are more threads on their way than processes in the queue. -/
def Heeded [Fintype ι] (s : ReadyWait ι) (a : Action ι) : Prop :=
  ∀ p priority woken, a = .toReady p priority woken →
    s.ready.readyProcessCount = 0 ∨ (∀ i, s.phase i ≠ .parkedNew) ∨
      s.ready.readyProcessCount < s.onTheirWay

instance [Fintype ι] (s : ReadyWait ι) : Decidable s.WakeUpPending :=
  inferInstanceAs (Decidable (_ ∨ _))

instance [Fintype ι] (s : ReadyWait ι) : Decidable s.Idles :=
  inferInstanceAs (Decidable (_ ∧ _ ∧ _ ∧ _ ∧ _))

instance [Fintype ι] (s : ReadyWait ι) : ∀ a : Action ι, Decidable (s.Heeded a)
  | .toReady p priority woken =>
    decidable_of_iff (s.ready.readyProcessCount = 0 ∨ (∀ i, s.phase i ≠ .parkedNew) ∨
      s.ready.readyProcessCount < s.onTheirWay)
      ⟨fun h _ _ _ _ => h, fun h => h p priority woken rfl⟩
  | .takeReady _ _ | .takeReadyNext | .lockQueue | .unlockQueue | .unlockBroadcast
  | .terminateQueue | .terminateBroadcast | .taker _ =>
    .isTrue fun _ _ _ h => by simp at h

/-! ## The invariant -/

variable {i : ι} {s s' : ReadyWait ι}

/-- **The invariant**: the count is right, the mutex is with the thread that is in its critical
section, a thread is parked on `exit_unblocked` only while the queue is blocked or a broadcast is to
come, and as long as somebody waits for a signal, the threads on their way are enough for the
processes in the queue. -/
structure Sound [Fintype ι] (s : ReadyWait ι) : Prop where
  count : s.ready.readyProcessCount = ReadyQueue.total s.ready.queues
  mutex : ∀ j, (s.phase j).hasMutex = true ↔ s.queueMutex = some j
  unblocked : ∀ j, s.phase j = .parkedUnblocked → s.preemptAll = true ∨ 0 < s.unlocking
  leaving : ∀ j, s.phase j = .leaving →
    s.terminateQueue = true ∨ s.ready.readyProcessCount ≠ 0
  enough : s.terminateQueue = false → ∀ j, s.phase j = .parkedNew →
    s.ready.readyProcessCount ≤ s.onTheirWay

variable [Fintype ι]

omit [DecidableEq ι] in
/-- The invariant holds at the start. -/
lemma sound_init {multilevel : Bool} {algorithms : List SchedulingAlgorithm} :
    Sound (init multilevel algorithms : ReadyWait ι) := by
  refine ⟨?_, fun j => by simp [init, TakerPhase.hasMutex], fun j hj => absurd hj (by simp [init]),
    fun j hj => absurd hj (by simp [init]), fun _ j hj => absurd hj (by simp [init])⟩
  simp [init, ReadyQueue.init, ReadyQueue.total, Function.comp_def]

/-- The threads on their way before and after a step of one of them. -/
lemma onTheirWay_update (s : ReadyWait ι) (i : ι) (x : TakerPhase) :
    countThreads TakerPhase.isOnItsWay (Function.update s.phase i x) +
        (s.phase i).isOnItsWay.toNat =
      s.onTheirWay + x.isOnItsWay.toNat :=
  countThreads_update TakerPhase.isOnItsWay s.phase i x

omit [Fintype ι] in
/-- The mutex after a step of a thread that has it or gets it. -/
lemma mutex_update (h : ∀ j, (s.phase j).hasMutex = true ↔ s.queueMutex = some j)
    (hfree : (s.phase i).hasMutex = true ∨ s.queueMutex = none) (x : TakerPhase) (j : ι) :
    (Function.update s.phase i x j).hasMutex = true ↔
      (if x.hasMutex then some i else none) = some j := by
  by_cases hj : j = i
  · subst hj
    rw [Function.update_self]
    cases x.hasMutex <;> simp
  · have hother : (s.phase j).hasMutex = false := by
      rw [← Bool.not_eq_true, h]
      rcases hfree with hown | hnone
      · rw [(h i).1 hown, Option.some.injEq]
        exact Ne.symm hj
      · simp [hnone]
    rw [Function.update_of_ne hj, hother]
    cases x.hasMutex <;> simp [Ne.symm hj]

/-- A step of a thread that has the mutex or gets it, and leaves the queue alone: it keeps the
invariant if it stays on its way, or else finds the queue empty. -/
lemma Sound.move {x : TakerPhase} (h : Sound s)
    (hfree : (s.phase i).hasMutex = true ∨ s.queueMutex = none)
    (hs : s' = { s with
      phase := Function.update s.phase i x
      queueMutex := if x.hasMutex then some i else none })
    (hunblocked : x = .parkedUnblocked → s.preemptAll = true)
    (hleaving : x = .leaving → s.terminateQueue = true ∨ s.ready.readyProcessCount ≠ 0)
    (hway : x.isOnItsWay = true ∨ s.ready.readyProcessCount = 0) : Sound s' := by
  subst hs
  refine ⟨h.count, mutex_update h.mutex hfree x, fun j hj => ?_, fun j hj => ?_,
    fun hterminate j hj => ?_⟩
  · by_cases hji : j = i
    · subst hji
      simp only [Function.update_self] at hj
      exact .inl (hunblocked hj)
    · simp only [Function.update_of_ne hji] at hj
      exact h.unblocked j hj
  · by_cases hji : j = i
    · subst hji
      simp only [Function.update_self] at hj
      exact hleaving hj
    · simp only [Function.update_of_ne hji] at hj
      exact h.leaving j hj
  · simp only [onTheirWay]
    have hcount := onTheirWay_update s i x
    by_cases hji : j = i
    · subst hji
      simp only [Function.update_self] at hj
      rcases hway with hway | hzero
      · rw [hj] at hway
        exact absurd hway (by simp [TakerPhase.isOnItsWay])
      · omega
    · simp only [Function.update_of_ne hji] at hj
      have henough := h.enough hterminate j hj
      rcases hway with hway | hzero
      · rw [hway] at hcount
        have := Bool.toNat_le (s.phase i).isOnItsWay
        simp only [Bool.toNat_true] at hcount
        omega
      · omega

omit [Fintype ι] in
/-- A thread gets a mutex that is free. -/
lemma lock_eq_some {x : TakerPhase} (h : s.lock i x = some s') :
    s.queueMutex = none ∧ s' = { s.setPhase i x with queueMutex := some i } := by
  unfold lock at h
  split at h
  · rename_i hfree
    exact ⟨hfree, (Option.some.inj h).symm⟩
  · exact absurd h (by simp)

/-- A thread that locks the mutex. -/
lemma Sound.lock {x : TakerPhase} (h : Sound s) (hst : s.lock i x = some s')
    (hx : x = .testing ∨ x = .waitingUnblocked) : Sound s' := by
  obtain ⟨hfree, rfl⟩ := lock_eq_some hst
  apply h.move (x := x) (.inr hfree)
  · rcases hx with rfl | rfl <;> rfl
  · rcases hx with rfl | rfl <;> simp
  · rcases hx with rfl | rfl <;> simp
  · rcases hx with rfl | rfl <;> exact .inl rfl

/-- A thread that goes on with the mutex. -/
lemma Sound.setPhase {x : TakerPhase} (h : Sound s) (hown : (s.phase i).hasMutex = true)
    (hx : x.hasMutex = true)
    (hleaving : x = .leaving → s.terminateQueue = true ∨ s.ready.readyProcessCount ≠ 0) :
    Sound (s.setPhase i x) := by
  have hmutex := (h.mutex i).1 hown
  apply h.move (x := x) (.inl hown) _ _ hleaving
  · cases x <;> simp_all [TakerPhase.hasMutex, TakerPhase.isOnItsWay]
  · rw [hx, if_pos rfl, ← hmutex]
    rfl
  · rintro rfl
    exact absurd hx (by simp [TakerPhase.hasMutex])

/-- A dispatch when the queue is not empty. -/
lemma exists_takeNext {ready : ReadyQueue}
    (hcount : ready.readyProcessCount = ReadyQueue.total ready.queues)
    (hne : ready.readyProcessCount ≠ 0) : ∃ taken, ready.takeNext = some taken := by
  obtain ⟨n, hfirst⟩ := ReadyQueue.exists_firstNonEmpty
    (show ReadyQueue.total ready.queues ≠ 0 by omega)
  have hlist := (ReadyQueue.firstNonEmpty_eq_some.1 hfirst).1
  rw [ReadyQueue.takeNext, hfirst, Option.bind_some]
  cases hn : ready.queues[n]? with
  | none => simp [ReadyQueue.levelList, hn] at hlist
  | some subqueue =>
    obtain ⟨queue, algorithm⟩ := subqueue
    cases queue with
    | nil => simp [ReadyQueue.levelList, hn] at hlist
    | cons p rest => exact ⟨_, rfl⟩

/-- The queue after a dispatch that may find it empty. -/
lemma count_takeNext {ready : ReadyQueue}
    (hcount : ready.readyProcessCount = ReadyQueue.total ready.queues) :
    ((ready.takeNext.map Prod.snd).getD ready).readyProcessCount =
        ReadyQueue.total ((ready.takeNext.map Prod.snd).getD ready).queues ∧
      ((ready.takeNext.map Prod.snd).getD ready).readyProcessCount ≤ ready.readyProcessCount ∧
      (ready.readyProcessCount ≠ 0 →
        ((ready.takeNext.map Prod.snd).getD ready).readyProcessCount =
          ready.readyProcessCount - 1) := by
  cases htake : ready.takeNext with
  | none =>
    refine ⟨hcount, le_rfl, fun hne => ?_⟩
    obtain ⟨taken, htaken⟩ := exists_takeNext hcount hne
    rw [htake] at htaken
    exact absurd htaken (by simp)
  | some taken =>
    obtain ⟨-, -, -, -, -, -, htotal, hnew, -⟩ := ReadyQueue.takeNext_spec htake
    simp only [Option.map_some, Option.getD_some]
    exact ⟨by omega, by omega, fun _ => hnew⟩

/-- A thread that leaves the function: it takes a process unless the queue is terminated. -/
lemma Sound.leave (h : Sound s) (hphase : s.phase i = .leaving) {pcb : ι → Option ℕ} :
    Sound { s.unlock i .outside with
      ready := (((if s.terminateQueue then none else s.ready.takeNext).map Prod.snd).getD s.ready)
      pcb := pcb } := by
  have hown : (s.phase i).hasMutex = true := by
    rw [hphase]
    rfl
  have hmutex := mutex_update h.mutex (.inl hown) .outside
  have hway := onTheirWay_update s i .outside
  rw [hphase] at hway
  have hphases : ∀ x j, Function.update s.phase i .outside j = x → x ≠ .outside → s.phase j = x := by
    intro x j hj hx
    by_cases hji : j = i
    · subst hji
      rw [Function.update_self] at hj
      exact absurd hj.symm hx
    · rwa [Function.update_of_ne hji] at hj
  obtain ⟨hcount, hle, htaken⟩ := count_takeNext h.count
  cases hterminate : s.terminateQueue with
  | true =>
    refine ⟨h.count, hmutex, fun j hj => h.unblocked j (hphases _ j hj (by simp)),
      fun j hj => h.leaving j (hphases _ j hj (by simp)), fun hfalse => ?_⟩
    exact absurd (hterminate.symm.trans hfalse) (by simp)
  | false =>
    have hne := (h.leaving i hphase).resolve_left (by simp [hterminate])
    simp only [Bool.false_eq_true, if_false]
    refine ⟨hcount, hmutex, fun j hj => h.unblocked j (hphases _ j hj (by simp)), fun j hj => ?_,
      fun _ j hj => ?_⟩
    · -- nobody else is behind the loop
      have hj' := hphases _ j hj (by simp)
      have hsame : s.queueMutex = some j := (h.mutex j).1 (by rw [hj']; rfl)
      rw [(h.mutex i).1 hown, Option.some.injEq] at hsame
      subst hsame
      simp [unlock, ReadyWait.setPhase] at hj
    · have henough := h.enough hterminate j (hphases _ j hj (by simp))
      simp only [unlock, ReadyWait.setPhase, onTheirWay, TakerPhase.isOnItsWay] at hway henough ⊢
      simp only [Bool.toNat_true, Bool.toNat_false] at hway
      rw [htaken hne]
      omega

/-- Every step of a CPU thread keeps the invariant. -/
lemma sound_takerStep (h : Sound s) (hst : s.takerStep i = some s') : Sound s' := by
  unfold takerStep at hst
  split at hst
  · exact h.lock hst (.inl rfl)
  · rename_i hphase
    obtain rfl := Option.some.inj hst
    apply h.setPhase (by rw [hphase]; rfl)
    · split <;> rfl
    · intro hleaving
      split at hleaving
      · rename_i hterminate
        exact .inl hterminate
      · exact absurd hleaving (by simp)
  · rename_i hphase
    obtain rfl := Option.some.inj hst
    apply h.setPhase (by rw [hphase]; rfl)
    · split <;> rfl
    · intro hleaving
      split at hleaving
      · exact absurd hleaving (by simp)
      · rename_i hgo
        exact .inr fun hzero => hgo (.inl hzero)
  · rename_i hphase
    split at hst
    · rename_i hwait
      obtain rfl := Option.some.inj hst
      apply h.move (x := .parkedNew) (.inl (by rw [hphase]; rfl)) rfl
      · simp
      · simp
      · exact .inr hwait.2
    · obtain rfl := Option.some.inj hst
      exact h.setPhase (by rw [hphase]; rfl) rfl (by simp)
  · exact absurd hst (by simp)
  · exact h.lock hst (.inr rfl)
  · rename_i hphase
    obtain rfl := Option.some.inj hst
    apply h.setPhase (by rw [hphase]; rfl)
    · split <;> rfl
    · intro hleaving
      split at hleaving <;> exact absurd hleaving (by simp)
  · rename_i hphase
    obtain rfl := Option.some.inj hst
    split
    · rename_i hpreempt
      apply h.move (x := .parkedUnblocked) (.inl (by rw [hphase]; rfl)) rfl
      · exact fun _ => hpreempt
      · simp
      · exact .inl rfl
    · exact h.setPhase (by rw [hphase]; rfl) rfl (by simp)
  · exact absurd hst (by simp)
  · exact h.lock hst (.inl rfl)
  · rename_i hphase
    obtain rfl := Option.some.inj hst
    exact h.leave hphase

omit [DecidableEq ι] in
/-- Another queue with the right count, no longer than the threads on their way. -/
lemma Sound.withReady {ready : ReadyQueue} (h : Sound s) (hfree : s.queueMutex = none)
    (hcount : ready.readyProcessCount = ReadyQueue.total ready.queues)
    (henough : s.terminateQueue = false → ∀ j, s.phase j = .parkedNew →
      ready.readyProcessCount ≤ s.onTheirWay) : Sound { s with ready := ready } := by
  refine ⟨hcount, h.mutex, h.unblocked, fun j hj => ?_, henough⟩
  have hown := (h.mutex j).1 (by rw [hj]; rfl)
  rw [hfree] at hown
  exact absurd hown (by simp)

/-- The queue when a process arrives. -/
lemma count_add {p : ℕ} {priority : ℤ} {ready ready' : ReadyQueue}
    (hcount : ready.readyProcessCount = ReadyQueue.total ready.queues)
    (hadd : ready.add p priority = some ready') :
    ready'.readyProcessCount = ReadyQueue.total ready'.queues ∧
      ready'.readyProcessCount = ready.readyProcessCount + 1 := by
  obtain ⟨queues, hqueues, rfl⟩ := Option.map_eq_some_iff.1 hadd
  obtain ⟨-, -, -, htotal⟩ := ReadyQueue.levelList_modifyAt hqueues
  rw [List.length_append, List.length_singleton] at htotal
  exact ⟨by simp only; omega, rfl⟩

/-- The queue when a process is taken out of its subqueue. -/
lemma count_take {p : ℕ} {priority : ℤ} {ready ready' : ReadyQueue}
    (hcount : ready.readyProcessCount = ReadyQueue.total ready.queues)
    (hmem : p ∈ ReadyQueue.levelList ready.queues (ready.level priority).toNat)
    (htake : ready.take p priority = some ready') :
    ready'.readyProcessCount = ReadyQueue.total ready'.queues ∧
      ready'.readyProcessCount ≤ ready.readyProcessCount := by
  obtain ⟨queues, hqueues, rfl⟩ := Option.map_eq_some_iff.1 htake
  obtain ⟨-, -, -, htotal⟩ := ReadyQueue.levelList_modifyAt hqueues
  have hpos := List.length_pos_of_mem hmem
  rw [List.length_erase_of_mem hmem] at htotal
  simp only [ReadyQueue.updateHighestPriority_queues,
    ReadyQueue.updateHighestPriority_readyProcessCount]
  exact ⟨by omega, by omega⟩

omit [DecidableEq ι] in
/-- Waking up threads keeps the invariant. -/
lemma Sound.wake {phase : ι → TakerPhase} (h : Sound s)
    (hwake : ∀ j, phase j = s.phase j ∨ s.phase j = .parkedNew ∧ phase j = .wokenNew ∨
      s.phase j = .parkedUnblocked ∧ phase j = .wokenUnblocked) :
    Sound { s with phase := phase } := by
  have hback : ∀ x, x ≠ .wokenNew → x ≠ .wokenUnblocked → ∀ j, phase j = x → s.phase j = x := by
    intro x hnew hunblocked j hj
    rcases hwake j with hsame | ⟨-, hwoken⟩ | ⟨-, hwoken⟩
    · rw [← hsame, hj]
    · exact absurd (hj.symm.trans hwoken) hnew
    · exact absurd (hj.symm.trans hwoken) hunblocked
  refine ⟨h.count, fun j => ?_, fun j hj => h.unblocked j (hback _ (by simp) (by simp) j hj),
    fun j hj => h.leaving j (hback _ (by simp) (by simp) j hj), fun hterminate j hj => ?_⟩
  · rw [← h.mutex]
    rcases hwake j with hsame | ⟨hparked, hwoken⟩ | ⟨hparked, hwoken⟩
    · simp only [hsame]
    · simp [hparked, hwoken, TakerPhase.hasMutex]
    · simp [hparked, hwoken, TakerPhase.hasMutex]
  · have henough := h.enough hterminate j (hback _ (by simp) (by simp) j hj)
    have hmono : s.onTheirWay ≤ countThreads TakerPhase.isOnItsWay phase := by
      apply Finset.card_le_card
      intro k hk
      rw [Finset.mem_filter] at hk ⊢
      refine ⟨hk.1, ?_⟩
      rcases hwake k with hsame | ⟨-, hwoken⟩ | ⟨-, hwoken⟩
      · rw [hsame]
        exact hk.2
      · rw [hwoken]
        rfl
      · rw [hwoken]
        rfl
    simp only [onTheirWay]
    exact henough.trans (by exact_mod_cast hmono)

/-- An arrival that meets the condition keeps the invariant. -/
lemma sound_toReady {p : ℕ} {priority : ℤ} {woken : Option ι} (h : Sound s)
    (hok : s.Heeded (.toReady p priority woken))
    (hst : s.step (.toReady p priority woken) = some s') : Sound s' := by
  simp only [step] at hst
  split at hst
  · rename_i hfree
    obtain ⟨ready, hadd, hsignal⟩ := Option.bind_eq_some_iff.1 hst
    obtain ⟨t, ht, rfl⟩ := Option.map_eq_some_iff.1 hsignal
    obtain ⟨hcount, hone⟩ := count_add h.count hadd
    split at ht
    · rename_i hzero
      cases woken with
      | some i =>
        simp only [signalNew] at ht
        split at ht
        · rename_i hparked
          obtain rfl := Option.some.inj ht
          have hwake : Sound (s.setPhase i .wokenNew) := by
            apply h.wake
            intro j
            by_cases hji : j = i
            · subst hji
              exact .inr (.inl ⟨hparked, Function.update_self ..⟩)
            · exact .inl (Function.update_of_ne hji ..)
          apply hwake.withReady hfree hcount
          intro _ j _
          -- the thread that was woken up is on its way
          have hway := onTheirWay_update s i .wokenNew
          rw [hparked] at hway
          simp only [TakerPhase.isOnItsWay, Bool.toNat_true, Bool.toNat_false] at hway
          simp only [onTheirWay, setPhase] at hway ⊢
          omega
        · exact absurd ht (by simp)
      | none =>
        simp only [signalNew] at ht
        split at ht
        · rename_i hnobody
          obtain rfl := Option.some.inj ht
          exact h.withReady hfree hcount fun _ j hj => absurd hj (hnobody j)
        · exact absurd ht (by simp)
    · rename_i hne
      split at ht
      · obtain rfl := Option.some.inj ht
        apply h.withReady hfree hcount
        intro hterminate j hj
        rcases hok p priority woken rfl with hzero | hnobody | hlt
        · exact absurd hzero hne
        · exact absurd hj (hnobody j)
        · omega
      · exact absurd ht (by simp)
  · exact absurd hst (by simp)

omit [DecidableEq ι] in
/-- A queue that has become no longer keeps the invariant. -/
lemma Sound.shrink {ready : ReadyQueue} (h : Sound s) (hfree : s.queueMutex = none)
    (hcount : ready.readyProcessCount = ReadyQueue.total ready.queues)
    (hle : ready.readyProcessCount ≤ s.ready.readyProcessCount) :
    Sound { s with ready := ready } :=
  h.withReady hfree hcount fun hterminate j hj => hle.trans (h.enough hterminate j hj)

/-- **Every step whose arrivals meet the condition keeps the invariant.** -/
theorem sound_step {a : Action ι} (h : Sound s) (hok : s.Heeded a)
    (hst : s.step a = some s') : Sound s' := by
  cases a with
  | toReady p priority woken => exact sound_toReady h hok hst
  | takeReady p priority =>
    simp only [step] at hst
    split at hst
    · rename_i hguard
      obtain ⟨ready, htake, rfl⟩ := Option.map_eq_some_iff.1 hst
      obtain ⟨hcount, hle⟩ := count_take h.count hguard.2 htake
      exact h.shrink hguard.1 hcount hle
    · exact absurd hst (by simp)
  | takeReadyNext =>
    simp only [step] at hst
    split at hst
    · rename_i hfree
      obtain rfl := Option.some.inj hst
      obtain ⟨hcount, hle, -⟩ := count_takeNext h.count
      exact h.shrink hfree hcount hle
    · exact absurd hst (by simp)
  | lockQueue =>
    obtain rfl := Option.some.inj hst
    exact ⟨h.count, h.mutex, fun _ _ => .inl rfl, h.leaving, h.enough⟩
  | unlockQueue =>
    obtain rfl := Option.some.inj hst
    exact ⟨h.count, h.mutex, fun _ _ => .inr (Nat.succ_pos _), h.leaving, h.enough⟩
  | unlockBroadcast =>
    simp only [step] at hst
    split at hst
    · obtain rfl := Option.some.inj hst
      have hwake : Sound s.broadcastUnblocked := by
        apply h.wake
        intro j
        by_cases hj : s.phase j = .parkedUnblocked
        · exact .inr (.inr ⟨hj, if_pos hj⟩)
        · exact .inl (if_neg hj)
      refine ⟨hwake.count, hwake.mutex, fun j hj => ?_, hwake.leaving, hwake.enough⟩
      -- nobody is left on `exit_unblocked`
      simp only [broadcastUnblocked] at hj
      split at hj
      · exact absurd hj (by simp)
      · rename_i hne
        exact absurd hj hne
    · exact absurd hst (by simp)
  | terminateQueue =>
    obtain rfl := Option.some.inj hst
    exact ⟨h.count, h.mutex, h.unblocked, fun _ _ => .inl rfl, fun hfalse => absurd hfalse (by simp)⟩
  | terminateBroadcast =>
    simp only [step] at hst
    split at hst
    · obtain rfl := Option.some.inj hst
      have hwake : Sound s.broadcastNew.broadcastUnblocked := by
        apply h.wake
        intro j
        simp only [broadcastNew]
        by_cases hnew : s.phase j = .parkedNew
        · exact .inr (.inl ⟨hnew, by simp [hnew]⟩)
        · by_cases hunblocked : s.phase j = .parkedUnblocked
          · exact .inr (.inr ⟨hunblocked, by simp [hunblocked]⟩)
          · exact .inl (by simp [hnew, hunblocked])
      exact ⟨hwake.count, hwake.mutex, hwake.unblocked, hwake.leaving, hwake.enough⟩
    · exact absurd hst (by simp)
  | taker i => exact sound_takerStep h hst

omit [DecidableEq ι] in
/-- In a state with the invariant no thread sleeps while a process waits. -/
lemma not_idles_of_sound (h : Sound s) : ¬ s.Idles := by
  rintro ⟨hne, hpreempt, hterminate, ⟨i, hparked⟩, hpending⟩
  obtain ⟨hunlocking, hquiet⟩ := not_or.1 hpending
  have hnot : ∀ j, s.phase j ≠ .parkedUnblocked := by
    intro j hj
    rcases h.unblocked j hj with htrue | hpos
    · rw [hpreempt] at htrue
      exact absurd htrue (by simp)
    · exact hunlocking hpos
  have hi : s.phase i = .parkedNew :=
    (TakerPhase.parked_cases hparked).resolve_right (hnot i)
  -- nobody is on its way, so there is nothing in the queue
  have hnobody : s.onTheirWay = 0 := by
    apply countThreads_eq_zero.2
    intro j
    by_contra hway
    rw [Bool.not_eq_false] at hway
    refine hquiet ⟨j, hway, ?_⟩
    by_contra hparked
    rw [Bool.not_eq_false] at hparked
    rcases TakerPhase.parked_cases hparked with hnew | hunblocked
    · rw [hnew] at hway
      exact Bool.false_ne_true hway
    · exact hnot j hunblocked
  have henough := h.enough hterminate i hi
  have hcount := h.count
  omega

/-! ## The runs -/

/-- **No CPU sleeps while a process waits**, in a run with any number of CPU threads and any
subqueues whose arrivals meet the condition. -/
theorem not_idles_of_run {multilevel : Bool} {algorithms : List SchedulingAlgorithm}
    (h : Run step Heeded (init multilevel algorithms) s) : ¬ s.Idles :=
  not_idles_of_sound (h.invariant sound_init fun _ _ _ ht hok hstep => sound_step ht hok hstep)

/-- A thread finds the queue empty and parks. -/
def parking (i : ι) : List (Action ι) := List.replicate 4 (.taker i)

/-- A thread that was woken up takes a process. -/
def taking (i : ι) : List (Action ι) := List.replicate 6 (.taker i)

/-- Two threads are parked, and the second process arrives when the first has been taken. -/
theorem not_idles_of_run_oneByOne : ∃ s : ReadyWait (Fin 2),
    executeOk step Heeded (init false [.fifo])
      (parking 0 ++ parking 1 ++ [.toReady 7 0 (some 0)] ++ taking 0 ++
        [.toReady 8 0 (some 1)]) = some s ∧ s.pcb 0 = some 7 ∧ ¬ s.Idles := by
  have hrun : (executeOk step Heeded (init false [.fifo] : ReadyWait (Fin 2))
      (parking 0 ++ parking 1 ++ [.toReady 7 0 (some 0)] ++ taking 0 ++
        [.toReady 8 0 (some 1)])).map (fun s => s.pcb 0) = some (some 7) := by
    decide +kernel
  obtain ⟨s, hs, hpcb⟩ := Option.map_eq_some_iff.1 hrun
  exact ⟨s, hs, hpcb, not_idles_of_run (Run.of_executeOk hs)⟩

/-- **Two processes arrive together.** Two threads are parked; the first arrival wakes one of them,
and the second, before that thread has the mutex, wakes nobody. The thread takes the first process
and leaves the second to the other thread, which sleeps. -/
theorem idles_of_two_arrivals : ∃ s : ReadyWait (Fin 2),
    Reachable step (init false [.fifo]) s ∧ s.Idles := by
  have hrun : (execute step (init false [.fifo] : ReadyWait (Fin 2))
      (parking 0 ++ parking 1 ++ [.toReady 7 0 (some 0), .toReady 8 0 none] ++ taking 0)).any
        (fun s => s.Idles) = true := by
    decide +kernel
  obtain ⟨s, hs, hidles⟩ := (Option.any_eq_true _ _).1 hrun
  exact ⟨s, Run.of_execute hs, of_decide_eq_true hidles⟩

end ReadyWait

end OsSimulator.Scheduler
