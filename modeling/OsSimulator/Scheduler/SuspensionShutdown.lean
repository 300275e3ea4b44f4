import OsSimulator.Library.Ranks
import OsSimulator.Scheduler.SuspensionThreads

set_option relaxedAutoImplicit false
set_option autoImplicit false

/-!
# The end of the suspender and the resumer

`destroy_queues` calls `terminate_threads_suspended` when nobody else is left. It signals at the
conditions of a worker first and sets `TS_FINISHING` afterwards, both under `state_mutex`. A worker
that has let go of `state_mutex` to wait for a process, and is not in `cnd_wait` yet, does not get
the signal; and as it does not look at its state again before it waits, nobody ever wakes it up.

## Main definitions

* `SuspensionThreads.Side.Missed` — a worker that has missed the signal.

## Main results

* `SuspensionThreads.terminate_returns_iff` — `terminate_threads_suspended` returns exactly when no
  worker has missed it.
-/

namespace OsSimulator.Scheduler

open Locks (Worker)

namespace SuspensionThreads

variable {π : Type}

/-- The worker is on its way into the `cnd_wait` for a process, or in it. -/
def Side.Missed (w : Worker) (side : Side π) : Prop :=
  side.phase = .parked ∨
    (side.phase = .window ∨ side.phase = .testing) ∧ side.mustWait w = true

/-- A step of the workers or of the thread that ends them. -/
def Event.isOwn : Event π → Bool
  | .thread _ _ | .main => true
  | _ => false

/-- An event that ends the wait of the worker for a process. -/
def Event.Wakes (w : Worker) : Event π → Prop
  | .arrive w' _ _ | .wake w' => w' = w
  | _ => False

/-- The steps that a finishing worker takes at most until it has ended. -/
def WorkerPhase.toEnd : WorkerPhase π → ℕ
  | ended | parked | parkedUnlock => 0
  | leaving => 1
  | switch => 2
  | top => 3
  | bottom => 4
  | relocking | settling _ | retesting | foundNone => 5
  | unlocking | locking | wokenUnlock | reading => 6
  | busy _ | woken | testing => 7
  | found _ | window | searching => 8

/-- The joins that are still to come. -/
def MainPhase.toJoin : MainPhase → ℕ
  | .joining .suspender => 2
  | .joining .resumer => 1
  | _ => 0

/-- What all of them have to do. -/
def rank (s : SuspensionThreads π) : ℕ :=
  (s.side .suspender).phase.toEnd + (s.side .resumer).phase.toEnd + s.main.toJoin

/-- A worker is never further than eight steps from its end. -/
lemma WorkerPhase.toEnd_le (phase : WorkerPhase π) : phase.toEnd ≤ 8 := by
  cases phase <;> simp [toEnd]

/-- Both workers are asked to end: `terminate_thread_suspended` has returned for both. -/
def Finishing (s : SuspensionThreads π) : Prop :=
  s.Sound ∧ ((∃ w, s.main = .joining w) ∨ s.main = .done)

section

variable {s s' : SuspensionThreads π} {w w' : Worker} {side : Side π}

/-- Both workers have been told to end. -/
lemma Finishing.state (h : s.Finishing) (w : Worker) : (s.side w).state = .finishing := by
  rw [(h.1 w).finishing]
  rcases h.2 with ⟨w', hmain⟩ | hmain <;> rw [hmain] <;> cases w <;> rfl

/-- The thread that ends them has no mutex any more. -/
lemma Finishing.main_hasState (h : s.Finishing) : s.main.hasState w = false := by
  rcases h.2 with ⟨w', hmain⟩ | hmain <;> rw [hmain] <;> rfl

/-- The main thread does not hold the mutex of a list. -/
lemma Finishing.main_hasList (h : s.Finishing) : s.main.hasList w = false := by
  rcases h.2 with ⟨w', hmain⟩ | hmain <;> rw [hmain] <;> rfl

/-- A finishing worker is parked no more, and not told to go on. -/
lemma Side.lock_of_finishing (h : side.state = .finishing) : side.lock = side := by
  simp [Side.lock, h]

/-- A worker that is to end is not unlocked. -/
lemma Side.unlock_of_finishing (h : side.state = .finishing) : side.unlock = side := by
  simp [Side.unlock, h]

/-- Who is not about to wait misses no signal. -/
lemma Side.not_missed (h : side.phase ≠ .parked ∧ side.phase ≠ .window ∧ side.phase ≠ .testing) :
    ¬ side.Missed w := by
  rintro (hparked | ⟨hwindow | htesting, -⟩)
  · exact h.1 hparked
  · exact h.2.1 hwindow
  · exact h.2.2 htesting

variable [DecidableEq π]

/-- **A step of a finishing worker**: it comes nearer to its end, and has missed the signal exactly
if it had missed it before. Nothing else changes. -/
lemma Finishing.threadStep (h : s.Finishing) {input : Input π}
    (hst : s.threadStep w input = some s') :
    ∃ side, s' = s.setSide w side ∧ side.phase.toEnd < (s.side w).phase.toEnd ∧
      (side.Missed w ↔ (s.side w).Missed w) := by
  have hstate := h.state w
  have hallows := (h.1 w).state
  have hneither : ∀ side : Side π,
      side.phase ≠ .parked ∧ side.phase ≠ .window ∧ side.phase ≠ .testing →
      ((s.side w).phase ≠ .parked ∧ (s.side w).phase ≠ .window ∧ (s.side w).phase ≠ .testing) →
      (side.Missed w ↔ (s.side w).Missed w) := fun side hnew hold =>
    iff_of_false (Side.not_missed hnew) (Side.not_missed hold)
  unfold SuspensionThreads.threadStep at hst
  split at hst
  case h_1 hphase =>
    obtain ⟨-, heq⟩ := Option.ite_none_right_eq_some.1 hst
    obtain rfl := Option.some.inj heq
    exact ⟨_, rfl, by simp [hphase, WorkerPhase.toEnd], hneither _ (by simp) (by simp [hphase])⟩
  case h_2 hphase =>
    simp only [hstate] at hst
    obtain rfl := Option.some.inj hst
    exact ⟨_, rfl, by simp [hphase, WorkerPhase.toEnd], hneither _ (by simp) (by simp [hphase])⟩
  case h_3 hphase => simp [hphase, hstate, WorkerPhase.allows] at hallows
  case h_4 hphase => simp [hphase, hstate, WorkerPhase.allows] at hallows
  case h_5 hphase => simp [hphase, hstate, WorkerPhase.allows] at hallows
  case h_6 process hphase =>
    obtain ⟨-, heq⟩ := Option.ite_none_right_eq_some.1 hst
    obtain rfl := Option.some.inj heq
    refine ⟨_, rfl, ?_, hneither _ ?_ (by simp [hphase])⟩
    · rw [hphase]
      dsimp only
      split <;> simp [WorkerPhase.toEnd]
    · dsimp only
      split <;> simp
  case h_7 hphase =>
    obtain ⟨t, ht, rfl⟩ := Option.map_eq_some_iff.1 hst
    obtain ⟨-, rfl⟩ := unlock_eq_some ht
    rw [Side.unlock_of_finishing (h.state _), setSide_self]
    exact ⟨_, rfl, by simp [hphase, WorkerPhase.toEnd], hneither _ (by simp) (by simp [hphase])⟩
  case h_8 hphase =>
    obtain ⟨t, ht, rfl⟩ := Option.map_eq_some_iff.1 hst
    obtain ⟨-, rfl⟩ := lock_eq_some ht
    rw [Side.lock_of_finishing (h.state _), setSide_self]
    exact ⟨_, rfl, by simp [hphase, WorkerPhase.toEnd], hneither _ (by simp) (by simp [hphase])⟩
  case h_9 hphase =>
    obtain ⟨-, heq⟩ := Option.ite_none_right_eq_some.1 hst
    obtain rfl := Option.some.inj heq
    exact ⟨_, rfl, by simp [hphase, WorkerPhase.toEnd], hneither _ (by simp) (by simp [hphase])⟩
  case h_10 hphase =>
    obtain ⟨-, heq⟩ := Option.ite_none_right_eq_some.1 hst
    obtain rfl := Option.some.inj heq
    exact ⟨_, rfl, by simp [hphase, WorkerPhase.toEnd],
      by cases w <;> simp [Side.Missed, Side.mustWait, hphase]⟩
  case h_11 hphase =>
    split at hst
    · rename_i hwait
      obtain rfl := Option.some.inj hst
      exact ⟨_, rfl, by simp [hphase, WorkerPhase.toEnd], by simp [Side.Missed, hphase, hwait]⟩
    · rename_i hwait
      obtain rfl := Option.some.inj hst
      exact ⟨_, rfl, by simp [hphase, WorkerPhase.toEnd], by simp [Side.Missed, hphase, hwait]⟩
  case h_12 => exact absurd hst (by simp)
  case h_13 hphase =>
    obtain ⟨-, heq⟩ := Option.ite_none_right_eq_some.1 hst
    obtain rfl := Option.some.inj heq
    exact ⟨_, rfl, by simp [hphase, WorkerPhase.toEnd], hneither _ (by simp) (by simp [hphase])⟩
  case h_14 hphase =>
    obtain rfl := Option.some.inj hst
    exact ⟨_, rfl, by simp [hphase, WorkerPhase.toEnd], hneither _ (by simp) (by simp [hphase])⟩
  case h_15 listEmpty hphase =>
    obtain ⟨-, heq⟩ := Option.ite_none_right_eq_some.1 hst
    obtain rfl := Option.some.inj heq
    exact ⟨_, rfl, by simp [hphase, WorkerPhase.toEnd], hneither _ (by simp) (by simp [hphase])⟩
  case h_16 => exact absurd hst (by simp)
  case h_17 hphase =>
    obtain ⟨-, heq⟩ := Option.ite_none_right_eq_some.1 hst
    obtain rfl := Option.some.inj heq
    exact ⟨_, rfl, by simp [hphase, WorkerPhase.toEnd], hneither _ (by simp) (by simp [hphase])⟩
  case h_18 hphase =>
    rw [if_neg (by simp [hstate])] at hst
    obtain rfl := Option.some.inj hst
    exact ⟨_, rfl, by simp [hphase, WorkerPhase.toEnd], hneither _ (by simp) (by simp [hphase])⟩
  case h_19 hphase =>
    obtain rfl := Option.some.inj hst
    exact ⟨_, rfl, by simp [hphase, WorkerPhase.toEnd], hneither _ (by simp) (by simp [hphase])⟩
  case h_20 hphase =>
    obtain rfl := Option.some.inj hst
    exact ⟨_, rfl, by simp [hphase, WorkerPhase.toEnd], hneither _ (by simp) (by simp [hphase])⟩
  case h_21 => exact absurd hst (by simp)

/-- A finishing worker that waits for nobody can go on. -/
lemma Finishing.exists_own_threadStep (h : s.Finishing) (input : Input π)
    (hphase : (s.side w).phase ≠ .parked ∧ (s.side w).phase ≠ .ended ∧
      (s.side w).phase ≠ .unlocking) :
    ∃ s', s.threadStep w input = some s' := by
  have hstate := h.state w
  have hallows := (h.1 w).state
  have hmutex : s.main.hasState w = false := h.main_hasState
  have hlist : s.main.hasList w = false := h.main_hasList
  obtain ⟨hparked, hended, hunlocking⟩ := hphase
  unfold SuspensionThreads.threadStep
  split
  case h_12 hphase => exact absurd hphase hparked
  case h_21 hphase => exact absurd hphase hended
  case h_7 hphase => exact absurd hphase hunlocking
  case h_16 hphase => simp [hphase, hstate, WorkerPhase.allows] at hallows
  case h_2 hphase =>
    simp only [hstate]
    exact ⟨_, rfl⟩
  case h_8 hphase =>
    have hfree : s.StateFree w ∧ ((s.side w).state = .waitingProcess → s.ListFree w) :=
      ⟨⟨by rw [hphase]; rfl, hmutex⟩, fun hwaiting => absurd hwaiting (by simp [hstate])⟩
    rw [SuspensionThreads.lock, if_pos hfree]
    exact ⟨_, rfl⟩
  case h_11 hphase =>
    split
    · exact ⟨_, rfl⟩
    · exact ⟨_, rfl⟩
  case h_18 hphase =>
    rw [if_neg (by simp [hstate])]
    exact ⟨_, rfl⟩
  all_goals
    rename_i hphase
    simp [StateFree, ListFree, hphase, hmutex, hlist, WorkerPhase.hasState, WorkerPhase.hasList]

/-- **A finishing worker can go on** unless it waits or has ended, or the one it waits for can. -/
lemma Finishing.exists_threadStep (h : s.Finishing) (input : Input π)
    (hphase : (s.side w).phase ≠ .parked ∧ (s.side w).phase ≠ .ended) :
    ∃ w' s', s.threadStep w' input = some s' := by
  by_cases hunlocking : (s.side w).phase = .unlocking
  · by_cases hfree : (s.side .resumer).phase.hasState = false
    · refine ⟨w, ?_⟩
      have hresumer : s.StateFree .resumer := ⟨hfree, h.main_hasState⟩
      simp [SuspensionThreads.threadStep, hunlocking, SuspensionThreads.unlock, hresumer]
    · refine ⟨.resumer, h.exists_own_threadStep input ⟨?_, ?_, ?_⟩⟩ <;>
        exact fun hphase => hfree (by rw [hphase]; rfl)
  · exact ⟨w, h.exists_own_threadStep input ⟨hphase.1, hphase.2, hunlocking⟩⟩

omit [DecidableEq π] in
/-- A step of the thread that ends the workers, when it waits for them. -/
lemma Finishing.mainStep (h : s.Finishing) (hst : s.mainStep = some s') :
    s'.Finishing ∧ s'.side = s.side ∧ s'.main.toJoin < s.main.toJoin := by
  have hsound : s'.Sound := h.1.mainStep hst
  rcases h.2 with ⟨w, hmain⟩ | hmain
  · simp only [SuspensionThreads.mainStep, hmain] at hst
    obtain ⟨-, heq⟩ := Option.ite_none_right_eq_some.1 hst
    obtain rfl := Option.some.inj heq
    cases w with
    | suspender => exact ⟨⟨hsound, .inl ⟨_, rfl⟩⟩, rfl, by simp [hmain, MainPhase.toJoin]⟩
    | resumer => exact ⟨⟨hsound, .inr rfl⟩, rfl, by simp [hmain, MainPhase.toJoin]⟩
  · simp [SuspensionThreads.mainStep, hmain] at hst

/-- **An own step** lowers the rank, and nobody misses the signal in it. -/
lemma Finishing.ownStep (h : s.Finishing) {e : Event π} (hown : e.isOwn = true)
    (hst : s.step e = some s') :
    s'.Finishing ∧ s'.rank < s.rank ∧ ∀ w, (s'.side w).Missed w ↔ (s.side w).Missed w := by
  cases e with
  | thread w input =>
    have hsound : s'.Sound := h.1.step hst
    obtain ⟨side, rfl, hlt, hmissed⟩ := h.threadStep hst
    refine ⟨⟨hsound, h.2⟩, ?_, fun w' => ?_⟩
    · cases w with
      | suspender =>
        have hother : (s.setSide .suspender side).side .resumer = s.side .resumer :=
          setSide_side_of_ne (by simp)
        simp only [rank, setSide_side_self, hother, setSide_main]
        omega
      | resumer =>
        have hother : (s.setSide .resumer side).side .suspender = s.side .suspender :=
          setSide_side_of_ne (by simp)
        simp only [rank, setSide_side_self, hother, setSide_main]
        omega
    · by_cases hw : w' = w
      · subst hw
        rwa [setSide_side_self]
      · rw [setSide_side_of_ne hw]
  | main =>
    obtain ⟨hfinishing, hside, hlt⟩ := h.mainStep hst
    refine ⟨hfinishing, ?_, fun w => by rw [hside]⟩
    simp only [rank, hside]
    omega
  | _ => exact absurd hown (by simp [Event.isOwn])

/-- **A worker that has missed the signal** waits for ever, whatever else is done. -/
lemma Finishing.missed_step (h : s.Finishing) (hmissed : (s.side w).Missed w) {e : Event π}
    (hwakes : ¬ e.Wakes w) (hst : s.step e = some s') :
    s'.Finishing ∧ (s'.side w).Missed w := by
  have hsound : s'.Sound := h.1.step hst
  -- what is done on the other side leaves this one alone
  have hother : ∀ w' side, w' ≠ w → s' = s.setSide w' side →
      s'.Finishing ∧ (s'.side w).Missed w := by
    rintro w' side hne rfl
    exact ⟨⟨hsound, h.2⟩, by rwa [setSide_side_of_ne (Ne.symm hne)]⟩
  cases e with
  | thread w' input =>
    obtain ⟨side, heq, -, hiff⟩ := h.threadStep hst
    by_cases hw : w' = w
    · subst hw
      rw [heq] at hsound ⊢
      exact ⟨⟨hsound, h.2⟩, by rw [setSide_side_self]; exact hiff.2 hmissed⟩
    · exact hother w' side hw heq
  | main =>
    obtain ⟨hfinishing, hside, -⟩ := h.mainStep hst
    exact ⟨hfinishing, by rwa [hside]⟩
  | arrive w' process index =>
    obtain ⟨-, heq⟩ := Option.ite_none_right_eq_some.1 hst
    exact hother w' _ hwakes (Option.some.inj heq).symm
  | leave w' process =>
    obtain ⟨-, heq⟩ := Option.ite_none_right_eq_some.1 hst
    by_cases hw : w' = w
    · subst hw
      obtain rfl := Option.some.inj heq
      refine ⟨⟨hsound, h.2⟩, ?_⟩
      rw [setSide_side_self]
      refine hmissed.imp_right fun hwait => ⟨hwait.1, ?_⟩
      cases w' with
      | suspender => exact hwait.2
      | resumer =>
        have hempty : (s.side .resumer).list = [] := List.isEmpty_iff.1 hwait.2
        simp only [Side.mustWait, hempty, List.erase_nil, List.isEmpty_nil]
    · exact hother w' _ hw (Option.some.inj heq).symm
  | lock w' =>
    obtain ⟨-, rfl⟩ := lock_eq_some hst
    rw [Side.lock_of_finishing (h.state _), setSide_self]
    exact ⟨h, hmissed⟩
  | unlock w' =>
    obtain ⟨-, rfl⟩ := unlock_eq_some hst
    rw [Side.unlock_of_finishing (h.state _), setSide_self]
    exact ⟨h, hmissed⟩
  | wake w' => exact hother w' _ hwakes (Option.some.inj hst).symm

omit [DecidableEq π] in
/-- Nobody has missed the signal once both have been joined. -/
lemma Finishing.not_missed (h : s.Finishing) (hdone : s.main = .done) : ¬ (s.side w).Missed w := by
  have hended : (s.side w).phase = .ended := (h.1 w).joined (by rw [hdone]; cases w <;> rfl)
  exact Side.not_missed (by simp [hended])

/-- **Where nothing is left to do**, the workers have been joined unless one of them has missed the
signal. -/
lemma Finishing.done_of_stuck (h : s.Finishing) (input : Input π)
    (hstuck : ∀ e : Event π, e.isOwn = true → s.step e = none)
    (hmissed : ∀ w, ¬ (s.side w).Missed w) : s.main = .done := by
  rcases h.2 with ⟨w, hmain⟩ | hmain
  · by_cases hended : (s.side w).phase = .ended
    · have hnone := hstuck .main rfl
      simp [step, SuspensionThreads.mainStep, hmain, hended, WorkerPhase.isEnded] at hnone
    · obtain ⟨w', s', hst⟩ := h.exists_threadStep (w := w) input
        ⟨fun hparked => hmissed w (.inl hparked), hended⟩
      have hnone := hstuck (.thread w' input) rfl
      rw [step, hst] at hnone
      exact absurd hnone (by simp)
  · exact hmain

/-- **Own steps** are bounded by the rank, and nobody misses the signal in them. -/
lemma Finishing.execute {es : List (Event π)} (h : s.Finishing)
    (hown : ∀ e ∈ es, e.isOwn = true) (hexecute : OsSimulator.execute step s es = some s') :
    es.length + s'.rank ≤ s.rank ∧
      s'.Finishing ∧ ∀ w, (s'.side w).Missed w ↔ (s.side w).Missed w := by
  have hbound := @countP_add_rank_le _ _ step (fun _ e => e.isOwn = true)
    (fun t => t.Finishing ∧ ∀ w, (t.side w).Missed w ↔ (s.side w).Missed w) rank Event.isOwn
    (fun _ => false) 0
    (fun _ _ _ hI hown hst =>
      have hstep := hI.1.ownStep hown hst
      ⟨hstep.1, fun w => (hstep.2.2 w).trans (hI.2 w)⟩)
    (fun _ _ _ hI hown hst => by simpa [hown, Nat.succ_le_iff] using (hI.1.ownStep hown hst).2.1)
    s s' es hexecute (Admitted.of_forall fun e he _ => hown e he) ⟨h, fun _ => Iff.rfl⟩
  rw [List.countP_eq_length.2 hown] at hbound
  simpa using hbound

/-- **`terminate_threads_suspended` returns exactly when neither worker has missed the signal.**
Once `terminate_thread_suspended` has returned for both, whatever has happened before: the workers
and the thread that waits for them take at most 18 steps in all, in any order and with any answers;
where none of them can go on any more, the threads have been joined if and only if, at the
beginning, neither worker was in `cnd_wait` for a process, or between its two mutexes and about to
find that it must wait. And a worker that was there stays there, and is never joined, whatever else
is done, unless a process comes into its list or its wait ends for no reason.

**Proof sketch.** A worker that finishes only goes forward (`Finishing.threadStep`), which bounds
the steps; and of the places where it cannot go on, only the `cnd_wait` for a process is left, as it
waits for `unlock` only while it is blocked. -/
theorem terminate_returns_iff {ok : SuspensionThreads π → Event π → Prop}
    (h : Run step ok init s) (hmain : s.main = .joining .suspender) :
    (∀ es t, (∀ e ∈ es, e.isOwn = true) → execute step s es = some t →
      es.length ≤ 18 ∧ ((∀ e : Event π, e.isOwn = true → t.step e = none) →
        (t.main = .done ↔ ∀ w, ¬ (s.side w).Missed w))) ∧
    ∀ w, (s.side w).Missed w → ∀ t, Run step (fun _ e => ¬ e.Wakes w) s t →
      (t.side w).Missed w ∧ t.main ≠ .done := by
  have hs : s.Finishing := ⟨sound_of_run h, .inl ⟨_, hmain⟩⟩
  refine ⟨fun es t hown hexecute => ?_, fun w hmissed t ht => ?_⟩
  · obtain ⟨hle, ht, hiff⟩ := hs.execute hown hexecute
    refine ⟨?_, fun hstuck => ⟨fun hdone w => ?_, fun hnot => ?_⟩⟩
    · have hsuspender := (s.side .suspender).phase.toEnd_le
      have hresumer := (s.side .resumer).phase.toEnd_le
      simp only [rank, hmain, MainPhase.toJoin] at hle
      omega
    · rw [← hiff w]
      exact ht.not_missed hdone
    · exact ht.done_of_stuck ⟨fun _ => false, false, false⟩ hstuck
        fun w hmissed => hnot w ((hiff w).1 hmissed)
  · obtain ⟨ht, hmissed'⟩ := Run.invariant (I := fun t => t.Finishing ∧ (t.side w).Missed w) ht
      ⟨hs, hmissed⟩ fun _ _ _ hu hwakes hst => hu.1.missed_step hu.2 hwakes hst
    exact ⟨hmissed', fun hdone => ht.not_missed hdone hmissed'⟩

/-- No process has ever come; the suspender is between its two mutexes when it is asked to end. -/
def missingTheSignal : List (Event Bool) :=
  List.replicate 6 (.thread .suspender ⟨fun _ => false, false, false⟩) ++
    List.replicate 9 .main

/-- The suspender misses the signal, and the call never returns. -/
theorem terminate_returns_iff_missingTheSignal : ∃ s : SuspensionThreads Bool,
    s.main = .joining .suspender ∧ (s.side .suspender).Missed .suspender ∧
    (∀ es t, (∀ e ∈ es, e.isOwn = true) → execute step s es = some t →
      es.length ≤ 18 ∧ ((∀ e : Event Bool, e.isOwn = true → t.step e = none) →
        (t.main = .done ↔ ∀ w, ¬ (s.side w).Missed w))) ∧
    ∀ w, (s.side w).Missed w → ∀ t, Run step (fun _ e => ¬ e.Wakes w) s t →
      (t.side w).Missed w ∧ t.main ≠ .done := by
  have htest : (OsSimulator.execute step init missingTheSignal).any (fun s =>
      decide (s.main = .joining .suspender ∧ (s.side .suspender).phase = .window ∧
        (s.side .suspender).mustWait .suspender = true)) = true := by decide +kernel
  obtain ⟨s, hs, htest⟩ := (Option.any_eq_true _ _).1 htest
  obtain ⟨hmain, hwindow, hwait⟩ := of_decide_eq_true htest
  exact ⟨s, hmain, .inr ⟨.inl hwindow, hwait⟩,
    terminate_returns_iff (Run.of_execute hs) hmain⟩

end

end SuspensionThreads

end OsSimulator.Scheduler
