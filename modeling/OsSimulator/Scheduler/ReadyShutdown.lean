import OsSimulator.Library.Ranks
import OsSimulator.Scheduler.ReadyWait

set_option relaxedAutoImplicit false
set_option autoImplicit false

/-!
# The end of the READY queue

`close_cpu` calls `terminate_queue_ready` before it waits for the CPU threads, which may be anywhere
in `transition_take_ready_blocking`. The flag is stored without the mutex, and only afterwards the
waiters are woken up under it. So a thread that has tested the flag too early is in `cnd_wait` by
the time of the broadcast, and one that tests it later does not wait any more.

## Main definitions

* `ReadyWait.Terminated` — `terminate_queue_ready` has returned.
* `ReadyWait.StaysOut` — no thread enters the function again.

## Main results

* `ReadyWait.leaves_of_terminated` — every thread leaves with no process, after at most as many
  steps as it still has in front of it, and there is always one that can go on.
-/

namespace OsSimulator.Scheduler

namespace TakerPhase

/-- The steps that a thread takes at most until it is out of a terminated queue. -/
def toLeave : TakerPhase → ℕ
  | .outside => 0
  | .leaving => 1
  | .testing => 2
  | .waitingUnblocked | .wokenUnblocked | .waitingPreempt | .parkedUnblocked => 3
  | .waitingNew | .wokenNew | .parkedNew => 4
  | .testingBlocked => 5

end TakerPhase

namespace ReadyWait

variable {ι : Type}

/-- `terminate_queue_ready` has been called, and no call of it is still to broadcast. -/
def Terminated (s : ReadyWait ι) : Prop := s.terminateQueue = true ∧ s.terminating = 0

/-- **The mutex and the end**: the mutex is with the thread in its critical section, and in a
terminated queue nobody waits or is about to. -/
structure Ending (s : ReadyWait ι) : Prop where
  mutex : ∀ j, (s.phase j).hasMutex = true ↔ s.queueMutex = some j
  ended : s.Terminated → ∀ j, (s.phase j).isParked = false ∧ s.phase j ≠ .waitingPreempt

/-- The invariant holds at the start. -/
lemma ending_init {multilevel : Bool} {algorithms : List SchedulingAlgorithm} :
    Ending (init multilevel algorithms : ReadyWait ι) :=
  ⟨fun j => by simp [init, TakerPhase.hasMutex], fun h => absurd h.1 (by simp [init])⟩

variable [DecidableEq ι] {i : ι} {s s' : ReadyWait ι}

/-- A step of one thread that has the mutex or gets it, and leaves the flags alone. -/
lemma Ending.move {x : TakerPhase} (h : Ending s)
    (hfree : (s.phase i).hasMutex = true ∨ s.queueMutex = none)
    (hphase : s'.phase = Function.update s.phase i x)
    (hmutex : s'.queueMutex = if x.hasMutex then some i else none)
    (hflags : s'.terminateQueue = s.terminateQueue ∧ s'.terminating = s.terminating)
    (hended : s.Terminated → x.isParked = false ∧ x ≠ .waitingPreempt) : Ending s' := by
  refine ⟨fun j => ?_, fun hterminated j => ?_⟩
  · rw [hphase, hmutex]
    exact mutex_update h.mutex hfree x j
  · have hterminated' : s.Terminated := by
      rwa [Terminated, hflags.1, hflags.2] at hterminated
    rw [hphase]
    by_cases hj : j = i
    · subst hj
      rw [Function.update_self]
      exact hended hterminated'
    · rw [Function.update_of_ne hj]
      exact h.ended hterminated' j

/-- A step of a CPU thread changes its own phase and the mutex, and no flag. -/
lemma takerStep_moves (hmutex : ∀ j, (s.phase j).hasMutex = true ↔ s.queueMutex = some j)
    (hst : s.takerStep i = some s') :
    ∃ x, ((s.phase i).hasMutex = true ∨ s.queueMutex = none) ∧
      s'.phase = Function.update s.phase i x ∧
      s'.queueMutex = (if x.hasMutex then some i else none) ∧
      s'.terminateQueue = s.terminateQueue ∧ s'.terminating = s.terminating := by
  have hown : (s.phase i).hasMutex = true → ∀ x : TakerPhase, x.hasMutex = true →
      (s.setPhase i x).queueMutex = if x.hasMutex then some i else none := by
    intro hhas x hx
    rw [hx, if_pos rfl]
    exact (hmutex i).1 hhas
  unfold takerStep at hst
  split at hst
  · obtain ⟨hfree, rfl⟩ := lock_eq_some hst
    exact ⟨_, .inr hfree, rfl, rfl, rfl, rfl⟩
  · rename_i hphase
    obtain rfl := Option.some.inj hst
    have hhas : (s.phase i).hasMutex = true := by rw [hphase]; rfl
    exact ⟨_, .inl hhas, rfl, hown hhas _ (by split <;> rfl), rfl, rfl⟩
  · rename_i hphase
    obtain rfl := Option.some.inj hst
    have hhas : (s.phase i).hasMutex = true := by rw [hphase]; rfl
    exact ⟨_, .inl hhas, rfl, hown hhas _ (by split <;> rfl), rfl, rfl⟩
  · rename_i hphase
    have hhas : (s.phase i).hasMutex = true := by rw [hphase]; rfl
    split at hst
    · obtain rfl := Option.some.inj hst
      exact ⟨_, .inl hhas, rfl, rfl, rfl, rfl⟩
    · obtain rfl := Option.some.inj hst
      exact ⟨_, .inl hhas, rfl, hown hhas _ rfl, rfl, rfl⟩
  · exact absurd hst (by simp)
  · obtain ⟨hfree, rfl⟩ := lock_eq_some hst
    exact ⟨_, .inr hfree, rfl, rfl, rfl, rfl⟩
  · rename_i hphase
    obtain rfl := Option.some.inj hst
    have hhas : (s.phase i).hasMutex = true := by rw [hphase]; rfl
    exact ⟨_, .inl hhas, rfl, hown hhas _ (by split <;> rfl), rfl, rfl⟩
  · rename_i hphase
    obtain rfl := Option.some.inj hst
    have hhas : (s.phase i).hasMutex = true := by rw [hphase]; rfl
    split
    · exact ⟨_, .inl hhas, rfl, rfl, rfl, rfl⟩
    · exact ⟨_, .inl hhas, rfl, hown hhas _ rfl, rfl, rfl⟩
  · exact absurd hst (by simp)
  · obtain ⟨hfree, rfl⟩ := lock_eq_some hst
    exact ⟨_, .inr hfree, rfl, rfl, rfl, rfl⟩
  · rename_i hphase
    obtain rfl := Option.some.inj hst
    exact ⟨_, .inl (by rw [hphase]; rfl), rfl, rfl, rfl, rfl⟩

/-- **In a terminated queue** a thread comes nearer to the end, does not wait, and leaves without a
process. -/
lemma takerStep_terminated (hterminate : s.terminateQueue = true)
    (hpreempt : s.phase i ≠ .waitingPreempt) (hst : s.takerStep i = some s') :
    ∃ x, s'.phase = Function.update s.phase i x ∧ x.isParked = false ∧ x ≠ .waitingPreempt ∧
      (s.phase i ≠ .outside → x.toLeave < (s.phase i).toLeave) ∧
      s'.pcb = if x = .outside then Function.update s.pcb i none else s.pcb := by
  unfold takerStep at hst
  split at hst
  · rename_i hphase
    obtain ⟨-, rfl⟩ := lock_eq_some hst
    exact ⟨.testing, rfl, rfl, by simp, fun h => absurd hphase h, rfl⟩
  · rename_i hphase
    rw [hterminate, if_pos rfl] at hst
    obtain rfl := Option.some.inj hst
    exact ⟨.leaving, rfl, rfl, by simp, fun _ => by simp [hphase, TakerPhase.toLeave], rfl⟩
  · rename_i hphase
    split at hst
    · obtain rfl := Option.some.inj hst
      exact ⟨.waitingNew, rfl, rfl, by simp, fun _ => by simp [hphase, TakerPhase.toLeave], rfl⟩
    · obtain rfl := Option.some.inj hst
      exact ⟨.leaving, rfl, rfl, by simp, fun _ => by simp [hphase, TakerPhase.toLeave], rfl⟩
  · rename_i hphase
    rw [if_neg (by simp [hterminate])] at hst
    obtain rfl := Option.some.inj hst
    exact ⟨.waitingUnblocked, rfl, rfl, by simp, fun _ => by simp [hphase, TakerPhase.toLeave], rfl⟩
  · exact absurd hst (by simp)
  · rename_i hphase
    obtain ⟨-, rfl⟩ := lock_eq_some hst
    exact ⟨.waitingUnblocked, rfl, rfl, by simp, fun _ => by simp [hphase, TakerPhase.toLeave], rfl⟩
  · rename_i hphase
    rw [hterminate, if_pos rfl] at hst
    obtain rfl := Option.some.inj hst
    exact ⟨.testing, rfl, rfl, by simp, fun _ => by simp [hphase, TakerPhase.toLeave], rfl⟩
  · rename_i hphase
    exact absurd hphase hpreempt
  · exact absurd hst (by simp)
  · rename_i hphase
    obtain ⟨-, rfl⟩ := lock_eq_some hst
    exact ⟨.testing, rfl, rfl, by simp, fun _ => by simp [hphase, TakerPhase.toLeave], rfl⟩
  · rename_i hphase
    obtain rfl := Option.some.inj hst
    refine ⟨.outside, rfl, rfl, by simp, fun _ => by simp [hphase, TakerPhase.toLeave], ?_⟩
    simp [hterminate]

omit [DecidableEq ι] in
/-- Threads that are woken up are not parked any more, and nothing else about a thread changes. -/
lemma Ending.wake {t : ReadyWait ι} (h : Ending s) (hmutex : t.queueMutex = s.queueMutex)
    (hflags : t.Terminated → s.Terminated)
    (hphase : ∀ j, t.phase j = s.phase j ∨ s.phase j = .parkedNew ∧ t.phase j = .wokenNew ∨
      s.phase j = .parkedUnblocked ∧ t.phase j = .wokenUnblocked) : Ending t := by
  refine ⟨fun j => ?_, fun hterminated j => ?_⟩
  · rw [hmutex, ← h.mutex j]
    rcases hphase j with hsame | ⟨hold, hnew⟩ | ⟨hold, hnew⟩
    · rw [hsame]
    · rw [hold, hnew]
      simp [TakerPhase.hasMutex]
    · rw [hold, hnew]
      simp [TakerPhase.hasMutex]
  · have hended := h.ended (hflags hterminated) j
    rcases hphase j with hsame | ⟨-, hnew⟩ | ⟨-, hnew⟩
    · rwa [hsame]
    · rw [hnew]
      exact ⟨rfl, by simp⟩
    · rw [hnew]
      exact ⟨rfl, by simp⟩

omit [DecidableEq ι] in
/-- A broadcast wakes up who is parked on its condition. -/
lemma broadcastUnblocked_cases (s : ReadyWait ι) (j : ι) :
    s.broadcastUnblocked.phase j = s.phase j ∨
      s.phase j = .parkedUnblocked ∧ s.broadcastUnblocked.phase j = .wokenUnblocked := by
  by_cases hj : s.phase j = .parkedUnblocked
  · exact .inr ⟨hj, by simp [broadcastUnblocked, hj]⟩
  · exact .inl (by simp [broadcastUnblocked, hj])

omit [DecidableEq ι] in
/-- After both broadcasts nobody is parked, and nobody has the mutex who has not had it before. -/
lemma broadcast_cases (s : ReadyWait ι) (j : ι) :
    (s.broadcastNew.broadcastUnblocked.phase j).isParked = false ∧
      ((s.broadcastNew.broadcastUnblocked.phase j).hasMutex = true → (s.phase j).hasMutex = true) := by
  by_cases hnew : s.phase j = .parkedNew
  · simp [broadcastNew, broadcastUnblocked, hnew, TakerPhase.isParked, TakerPhase.hasMutex]
  · by_cases hunblocked : s.phase j = .parkedUnblocked
    · simp [broadcastNew, broadcastUnblocked, hunblocked, TakerPhase.isParked, TakerPhase.hasMutex]
    · have hsame : s.broadcastNew.broadcastUnblocked.phase j = s.phase j := by
        simp [broadcastNew, broadcastUnblocked, hnew, hunblocked]
      rw [hsame, ← Bool.not_eq_true]
      refine ⟨fun hparked => ?_, id⟩
      rcases TakerPhase.parked_cases hparked with hj | hj
      · exact hnew hj
      · exact hunblocked hj

variable [Fintype ι]

/-- What the other steps do to the threads: they wake some of them up, and `terminate_queue_ready`
wakes up all of them when it ends. -/
lemma ending_step {a : Action ι} (h : Ending s) (hst : s.step a = some s') : Ending s' := by
  cases a with
  | toReady p priority woken =>
    simp only [step] at hst
    split at hst
    · obtain ⟨ready, -, hsignal⟩ := Option.bind_eq_some_iff.1 hst
      obtain ⟨t, ht, rfl⟩ := Option.map_eq_some_iff.1 hsignal
      split at ht
      · cases woken with
        | some i =>
          simp only [signalNew] at ht
          split at ht
          · rename_i hparked
            obtain rfl := Option.some.inj ht
            refine h.wake rfl id fun j => ?_
            by_cases hj : j = i
            · subst hj
              exact .inr (.inl ⟨hparked, Function.update_self ..⟩)
            · exact .inl (Function.update_of_ne hj ..)
          · exact absurd ht (by simp)
        | none =>
          simp only [signalNew] at ht
          split at ht
          · obtain rfl := Option.some.inj ht
            exact h.wake rfl id fun j => .inl rfl
          · exact absurd ht (by simp)
      · split at ht
        · obtain rfl := Option.some.inj ht
          exact h.wake rfl id fun j => .inl rfl
        · exact absurd ht (by simp)
    · exact absurd hst (by simp)
  | takeReady p priority =>
    simp only [step] at hst
    split at hst
    · obtain ⟨ready, -, rfl⟩ := Option.map_eq_some_iff.1 hst
      exact h.wake rfl id fun j => .inl rfl
    · exact absurd hst (by simp)
  | takeReadyNext =>
    simp only [step] at hst
    split at hst
    · obtain rfl := Option.some.inj hst
      exact h.wake rfl id fun j => .inl rfl
    · exact absurd hst (by simp)
  | lockQueue | unlockQueue =>
    obtain rfl := Option.some.inj hst
    exact h.wake rfl id fun j => .inl rfl
  | unlockBroadcast =>
    simp only [step] at hst
    split at hst
    · obtain rfl := Option.some.inj hst
      exact h.wake rfl id fun j => (broadcastUnblocked_cases s j).imp_right .inr
    · exact absurd hst (by simp)
  | terminateQueue =>
    obtain rfl := Option.some.inj hst
    exact ⟨h.mutex, fun hterminated => absurd hterminated.2 (Nat.succ_ne_zero _)⟩
  | terminateBroadcast =>
    simp only [step] at hst
    split at hst
    · rename_i hfree
      obtain rfl := Option.some.inj hst
      have hphases : ∀ j, (s.broadcastNew.broadcastUnblocked.phase j).hasMutex = false := by
        intro j
        rw [← Bool.not_eq_true]
        intro hhas
        have hown := (h.mutex j).1 ((broadcast_cases s j).2 hhas)
        rw [hfree.1] at hown
        exact absurd hown (by simp)
      refine ⟨fun j => ?_, fun _ j => ⟨(broadcast_cases s j).1, fun hpreempt => ?_⟩⟩
      · show (s.broadcastNew.broadcastUnblocked.phase j).hasMutex = true ↔ s.queueMutex = some j
        rw [hphases, hfree.1]
        simp
      · have hj := hphases j
        rw [show s.broadcastNew.broadcastUnblocked.phase j = .waitingPreempt from hpreempt] at hj
        exact absurd hj (by simp [TakerPhase.hasMutex])
    · exact absurd hst (by simp)
  | taker i =>
    obtain ⟨x, hfree, hphase, hmutex, hflags⟩ := takerStep_moves h.mutex hst
    refine h.move hfree hphase hmutex hflags fun hterminated => ?_
    obtain ⟨x', hphase', hparked, hpreempt, -⟩ :=
      takerStep_terminated hterminated.1 (h.ended hterminated i).2 hst
    obtain rfl : x = x' := by
      have := congrFun (hphase.symm.trans hphase') i
      rwa [Function.update_self, Function.update_self] at this
    exact ⟨hparked, hpreempt⟩

/-- It holds in every reachable state. -/
lemma ending_of_reachable {multilevel : Bool} {algorithms : List SchedulingAlgorithm}
    (h : Reachable step (init multilevel algorithms) s) : Ending s :=
  h.invariant ending_init fun _ _ _ ht _ hst => ending_step ht hst

/-! ## After the end -/

/-- A thread that is out does not come back: `handle_cpu_client` leaves its loop. -/
def StaysOut (s : ReadyWait ι) (a : Action ι) : Prop :=
  ∀ i, a = .taker i → s.phase i ≠ .outside

instance (s : ReadyWait ι) : ∀ a : Action ι, Decidable (s.StaysOut a)
  | .taker i => decidable_of_iff (s.phase i ≠ .outside)
      ⟨fun h _ hj => Action.taker.inj hj ▸ h, fun h => h i rfl⟩
  | .toReady _ _ _ | .takeReady _ _ | .takeReadyNext | .lockQueue | .unlockQueue
  | .unlockBroadcast | .terminateQueue | .terminateBroadcast => .isTrue fun _ h => by simp at h

/-- The step is one of a CPU thread. -/
def Action.isTaker : Action ι → Bool
  | .taker _ => true
  | _ => false

/-- **The state after the end**: nobody waits, and of the threads that were in the function at `s₀`
those that are out have no process. -/
structure Ended (s₀ s : ReadyWait ι) : Prop where
  ending : Ending s
  terminated : s.terminateQueue = true
  nobodyWaits : ∀ j, (s.phase j).isParked = false ∧ s.phase j ≠ .waitingPreempt
  empty : ∀ j, s₀.phase j ≠ .outside → s.phase j = .outside → s.pcb j = none

/-- The steps of the others leave the threads where they are. -/
lemma phase_of_not_taker (hparked : ∀ j, (s.phase j).isParked = false) {a : Action ι}
    (ha : a.isTaker = false) (hst : s.step a = some s') :
    s'.phase = s.phase ∧ s'.pcb = s.pcb ∧ (s.terminateQueue = true → s'.terminateQueue = true) := by
  have hnew : ∀ j, s.phase j ≠ .parkedNew := by
    intro j hj
    have := hparked j
    rw [hj] at this
    exact absurd this (by simp [TakerPhase.isParked])
  have hunblocked : ∀ j, s.phase j ≠ .parkedUnblocked := by
    intro j hj
    have := hparked j
    rw [hj] at this
    exact absurd this (by simp [TakerPhase.isParked])
  cases a with
  | toReady p priority woken =>
    simp only [step] at hst
    split at hst
    · obtain ⟨ready, -, hsignal⟩ := Option.bind_eq_some_iff.1 hst
      obtain ⟨t, ht, rfl⟩ := Option.map_eq_some_iff.1 hsignal
      split at ht
      · cases woken with
        | some i =>
          simp only [signalNew, if_neg (hnew i)] at ht
          exact absurd ht (by simp)
        | none =>
          simp only [signalNew, if_pos hnew] at ht
          obtain rfl := Option.some.inj ht
          exact ⟨rfl, rfl, id⟩
      · split at ht
        · obtain rfl := Option.some.inj ht
          exact ⟨rfl, rfl, id⟩
        · exact absurd ht (by simp)
    · exact absurd hst (by simp)
  | takeReady p priority =>
    simp only [step] at hst
    split at hst
    · obtain ⟨ready, -, rfl⟩ := Option.map_eq_some_iff.1 hst
      exact ⟨rfl, rfl, id⟩
    · exact absurd hst (by simp)
  | takeReadyNext =>
    simp only [step] at hst
    split at hst
    · obtain rfl := Option.some.inj hst
      exact ⟨rfl, rfl, id⟩
    · exact absurd hst (by simp)
  | lockQueue | unlockQueue =>
    obtain rfl := Option.some.inj hst
    exact ⟨rfl, rfl, id⟩
  | unlockBroadcast =>
    simp only [step] at hst
    split at hst
    · obtain rfl := Option.some.inj hst
      refine ⟨?_, rfl, id⟩
      funext j
      simp [broadcastUnblocked, hunblocked j]
    · exact absurd hst (by simp)
  | terminateQueue =>
    obtain rfl := Option.some.inj hst
    exact ⟨rfl, rfl, fun _ => rfl⟩
  | terminateBroadcast =>
    simp only [step] at hst
    split at hst
    · obtain rfl := Option.some.inj hst
      refine ⟨?_, rfl, id⟩
      funext j
      simp [broadcastNew, broadcastUnblocked, hnew j, hunblocked j]
    · exact absurd hst (by simp)
  | taker i => exact absurd ha (by simp [Action.isTaker])

/-- **A step after the end** leaves nobody parked, and nobody with a process. -/
lemma Ended.step {s₀ : ReadyWait ι} (h : Ended s₀ s) {a : Action ι} (hst : s.step a = some s') :
    Ended s₀ s' := by
  have hending := ending_step h.ending hst
  cases ha : a.isTaker with
  | false =>
    obtain ⟨hphase, hpcb, hterminated⟩ :=
      phase_of_not_taker (fun j => (h.nobodyWaits j).1) ha hst
    refine ⟨hending, hterminated h.terminated, ?_, ?_⟩
    · rw [hphase]
      exact h.nobodyWaits
    · rw [hphase, hpcb]
      exact h.empty
  | true =>
    cases a with
    | taker i =>
      obtain ⟨x, hphase, hparked, hpreempt, -, hpcb⟩ :=
        takerStep_terminated h.terminated (h.nobodyWaits i).2 hst
      obtain ⟨-, -, -, -, hflag, -⟩ := takerStep_moves h.ending.mutex hst
      refine ⟨hending, hflag.trans h.terminated, fun j => ?_, fun j hj hout => ?_⟩
      · rw [hphase]
        by_cases hj : j = i
        · subst hj
          rw [Function.update_self]
          exact ⟨hparked, hpreempt⟩
        · rw [Function.update_of_ne hj]
          exact h.nobodyWaits j
      · rw [hphase] at hout
        rw [hpcb]
        by_cases hji : j = i
        · subst hji
          rw [Function.update_self] at hout
          rw [if_pos hout, Function.update_self]
        · rw [Function.update_of_ne hji] at hout
          have hold := h.empty j hj hout
          split
          · rwa [Function.update_of_ne hji]
          · exact hold
    | _ => exact absurd ha (by simp [Action.isTaker])

/-- A step of a thread that is inside brings it nearer to the end, and the other steps leave all
threads where they are. -/
lemma Ended.rank_step {s₀ : ReadyWait ι} (h : Ended s₀ s) {a : Action ι} (hok : s.StaysOut a)
    (hst : s.step a = some s') :
    threadRank TakerPhase.toLeave s'.phase + a.isTaker.toNat ≤
      threadRank TakerPhase.toLeave s.phase := by
  cases ha : a.isTaker with
  | false =>
    obtain ⟨hphase, -, -⟩ := phase_of_not_taker (fun j => (h.nobodyWaits j).1) ha hst
    rw [hphase]
    exact Nat.le_refl _
  | true =>
    cases a with
    | taker i =>
      obtain ⟨x, hphase, -, -, hless, -⟩ :=
        takerStep_terminated h.terminated (h.nobodyWaits i).2 hst
      have hrank := threadRank_update TakerPhase.toLeave s.phase i x
      have hlower := hless (hok i rfl)
      rw [hphase, Bool.toNat_true]
      omega
    | _ => exact absurd ha (by simp [Action.isTaker])

omit [Fintype ι] in
/-- A thread that is not parked has a step, if it has the mutex or nobody has it. -/
lemma exists_takerStep (hparked : (s.phase i).isParked = false)
    (hfree : (s.phase i).hasMutex = true ∨ s.queueMutex = none) :
    ∃ t, s.takerStep i = some t := by
  unfold takerStep
  split <;> rename_i hphase <;>
    simp only [hphase, TakerPhase.isParked, TakerPhase.hasMutex, reduceCtorEq, false_or]
      at hparked hfree
  · exact ⟨_, if_pos hfree⟩
  · exact ⟨_, rfl⟩
  · exact ⟨_, rfl⟩
  · split
    · exact ⟨_, rfl⟩
    · exact ⟨_, rfl⟩
  · exact ⟨_, if_pos hfree⟩
  · exact ⟨_, rfl⟩
  · exact ⟨_, rfl⟩
  · exact ⟨_, if_pos hfree⟩
  · exact ⟨_, rfl⟩

/-- **There is always one that can go on**: the thread that has the mutex, or one that was woken
up. -/
lemma Ended.exists_step {s₀ : ReadyWait ι} (h : Ended s₀ s) (hinside : s.phase i ≠ .outside) :
    ∃ j t, s.phase j ≠ .outside ∧ s.step (.taker j) = some t := by
  cases hmutex : s.queueMutex with
  | some j =>
    have hhas := (h.ending.mutex j).2 hmutex
    obtain ⟨t, ht⟩ := exists_takerStep (h.nobodyWaits j).1 (.inl hhas)
    refine ⟨j, t, fun hout => ?_, ht⟩
    rw [hout] at hhas
    exact absurd hhas (by simp [TakerPhase.hasMutex])
  | none =>
    obtain ⟨t, ht⟩ := exists_takerStep (h.nobodyWaits i).1 (.inr hmutex)
    exact ⟨i, t, hinside, ht⟩

/-- **Every CPU thread gets out of a terminated READY queue.** Once `terminate_queue_ready` has
returned, whatever happens afterwards and in whatever order: a thread that was in
`transition_take_ready_blocking` comes out of it with no process; as long as one is inside, one of
those inside can go on; and if none enters the function again, they take at most as many steps in it
as they still have in front of them.

**Proof sketch.** The broadcast comes after the flag and under the mutex, so nobody is parked and
nobody has tested the flag too early. From there every step of a thread leads it nearer to the end,
and the mutex is with a thread that can take a step. -/
theorem leaves_of_terminated {multilevel : Bool} {algorithms : List SchedulingAlgorithm}
    (hrun : Reachable step (init multilevel algorithms) s) (hterminated : s.Terminated)
    {as : List (Action ι)} {t : ReadyWait ι} (h : execute step s as = some t) :
    (∀ i, s.phase i ≠ .outside → t.phase i = .outside → t.pcb i = none) ∧
      (∀ i, t.phase i ≠ .outside →
        ∃ j t', t.phase j ≠ .outside ∧ t.step (.taker j) = some t') ∧
      (Admitted step StaysOut s as →
        as.countP Action.isTaker + threadRank TakerPhase.toLeave t.phase ≤
          threadRank TakerPhase.toLeave s.phase) := by
  have hending := ending_of_reachable hrun
  have hstart : Ended s s :=
    ⟨hending, hterminated.1, hending.ended hterminated, fun _ hne heq => absurd heq hne⟩
  have hended : Ended s t :=
    (Run.of_execute h).invariant hstart fun _ _ _ hI _ hst => hI.step hst
  refine ⟨hended.empty, fun _ hinside => hended.exists_step hinside, fun hok => ?_⟩
  have hbound := @countP_add_rank_le _ _ step StaysOut (Ended s)
    (fun u => threadRank TakerPhase.toLeave u.phase) Action.isTaker (fun _ => false) 0
    (fun _ _ _ hI _ hst => hI.step hst) (fun _ _ _ hI hstay hst => hI.rank_step hstay hst)
    s t as h hok hstart
  simpa using hbound.1

/-- One thread waits for a process and another one takes the mutex when the queue is terminated. -/
def twoTakersEnd : List (Action Bool) :=
  [.taker false, .taker false, .taker false, .taker false, .terminateQueue, .terminateBroadcast,
    .taker true]

/-- Both threads leave once the queue is terminated. -/
theorem leaves_of_terminated_twoTakers :
    ∃ s t : ReadyWait Bool, execute step (init false [.fifo]) twoTakersEnd = some s ∧
      execute step s [.taker true, .taker true, .taker false, .taker false] = some t ∧
      (∀ i, s.phase i ≠ .outside → t.phase i = .outside → t.pcb i = none) ∧
      (∀ i, t.phase i ≠ .outside →
        ∃ j t', t.phase j ≠ .outside ∧ t.step (.taker j) = some t') ∧
      (Admitted step StaysOut s [.taker true, .taker true, .taker false, .taker false] →
        4 + threadRank TakerPhase.toLeave t.phase ≤ threadRank TakerPhase.toLeave s.phase) := by
  have htest : (execute step (init false [.fifo]) twoTakersEnd).any (fun s =>
      s.terminateQueue && s.terminating == 0 &&
        (execute step s [.taker true, .taker true, .taker false, .taker false]).isSome) = true := by
    decide +kernel
  obtain ⟨s, hs, htest⟩ := (Option.any_eq_true _ _).1 htest
  simp only [Bool.and_eq_true, beq_iff_eq] at htest
  obtain ⟨⟨hflag, hbroadcast⟩, hsome⟩ := htest
  obtain ⟨t, ht⟩ := Option.isSome_iff_exists.1 hsome
  exact ⟨s, t, hs, ht, leaves_of_terminated (Run.of_execute hs) ⟨hflag, hbroadcast⟩ ht⟩

end ReadyWait

end OsSimulator.Scheduler
