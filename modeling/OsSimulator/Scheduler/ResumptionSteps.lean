import Mathlib.Tactic.Common
import OsSimulator.Library.Runs
import OsSimulator.Scheduler.ResumptionRoutine

set_option relaxedAutoImplicit false
set_option autoImplicit false

/-!
# Resuming suspended processes: the steps of the threads

What one step of each thread can do, the exchange of requests and answers on the connection to
Kernel Memory, and the flags of the routines.

## Main definitions

* `Resuming.Exchange` — the messages under way are those that the thread with the mutex waits for.
* `Resuming.Threads` — the phases of the threads, the flags and the list fit together.

## Main results

* `Resuming.Exchange.step`, `Resuming.Threads.step` — a step keeps the two.
-/

namespace OsSimulator.Scheduler

open Locks (ThreadState)
open Memory (RequestKind)

/-- Nothing that an attempt asks makes room. -/
lemma AttemptStage.not_room_of_request {stage : AttemptStage} {kind : RequestKind}
    (h : stage.request = some kind) : ¬ (kind = .deleteSegment ∨ kind = .suspendProcess) := by
  cases stage <;> cases h <;> simp

/-- The resumer has no process: it looks at the front of SUSP. READY when its state lets it. -/
def ResumerPhase.isFree : ResumerPhase → Bool
  | .atSwitch | .waiting | .parked | .woken | .rechecked _ => true
  | .picked _ | .attempting _ _ | .failed => false

/-- The routine is behind `routine_enter`. -/
def RoutinePhase.hasEntered : RoutinePhase → Bool
  | .created => false
  | _ => true

/-- Whose request the thread with the mutex has sent. -/
def KmHolder.asker : KmHolder → Option Asker
  | .awaiting asker | .noticed asker => some asker
  | _ => none

/-- The thread with the mutex is in `routine_compaction`, up to the call at its end. -/
def KmHolder.compacts : KmHolder → Bool
  | .entering | .locking | .asking | .awaiting .compaction | .noticed .compaction | .clearing
  | .calling => true
  | _ => false

/-- The thread with the mutex has set `compaction_active`. -/
def KmHolder.hasFlag (holder : KmHolder) : Bool := holder.compacts && decide (holder ≠ .calling)

/-- The thread with the mutex is between `routine_enter` and `routine_leave`. -/
def KmHolder.inRoutine (holder : KmHolder) : Bool :=
  holder.compacts && decide (holder ≠ .entering) || decide (holder = .leaving)

/-- A notice changes nothing of that. -/
@[simp] lemma KmHolder.compacts_noticed (asker : Asker) :
    (KmHolder.noticed asker).compacts = (KmHolder.awaiting asker).compacts := by
  cases asker <;> rfl

/-- Who has read a notice has the flag of the one who waits. -/
@[simp] lemma KmHolder.hasFlag_noticed (asker : Asker) :
    (KmHolder.noticed asker).hasFlag = (KmHolder.awaiting asker).hasFlag := by
  simp [KmHolder.hasFlag]

/-- Who has read a notice is in the routine if the one who waits is. -/
@[simp] lemma KmHolder.inRoutine_noticed (asker : Asker) :
    (KmHolder.noticed asker).inRoutine = (KmHolder.awaiting asker).inRoutine := by
  simp [KmHolder.inRoutine]

/-- How many answers the thread with the mutex will still read. -/
def expectedAnswers : Option KmHolder → ℕ
  | some (.awaiting .compaction) | some (.noticed .compaction) => 2
  | some (.awaiting _) | some (.noticed _) => 1
  | some .clearing | some .calling | some .leaving => 1
  | none | some .freed | some .entering | some .locking | some .asking => 0

namespace Resuming

variable {s s' : Resuming}

/-- Whose request is outstanding. -/
def asker (s : Resuming) : Option Asker := s.holder.bind KmHolder.asker

/-! ## What a step does -/

/-- What `lock_resumer` changes: the phase, and the state of the thread. -/
lemma lockResumer_eq (s : Resuming) : ∃ phase, s.lockResumer =
    { s with resumer := phase, resumerState := .blocked } ∧
      (phase = s.resumer ∨ s.resumer = .parked ∧ phase = .woken) := by
  unfold lockResumer signalProcess
  split
  · exact ⟨s.resumer, rfl, .inl rfl⟩
  · split
    · rename_i hparked
      exact ⟨.woken, rfl, .inr ⟨hparked, rfl⟩⟩
    · exact ⟨s.resumer, rfl, .inl rfl⟩
  · rename_i hblocked
    exact ⟨s.resumer, by rw [← hblocked], .inl rfl⟩

/-- What `unlock_resumer` changes: the state of the thread. -/
lemma unlockResumer_eq (s : Resuming) : ∃ state, s.unlockResumer =
    { s with resumerState := state } ∧ state ≠ .blocked := by
  unfold unlockResumer
  split
  · exact ⟨.running, rfl, by simp⟩
  · rename_i hstate
    exact ⟨s.resumerState, rfl, hstate⟩

/-- What a signal for a new process changes: the phase. -/
lemma signalProcess_eq (s : Resuming) : ∃ phase, s.signalProcess = { s with resumer := phase } ∧
    phase ≠ .parked ∧ (phase = s.resumer ∨ s.resumer = .parked ∧ phase = .woken) := by
  unfold signalProcess
  split
  · rename_i hparked
    exact ⟨.woken, rfl, by simp, .inr ⟨hparked, rfl⟩⟩
  · rename_i hparked
    exact ⟨s.resumer, rfl, hparked, .inl rfl⟩

/-- The call of `create_resumption_routine_thread` starts a routine, or it is dropped. -/
lemma setIsResuming_eq (s : Resuming) :
    s.routine = none ∧ s.setIsResuming = { s with routine := some .created } ∨
      s.resumeActive = true ∧ s.setIsResuming = s := by
  unfold setIsResuming resumeActive
  cases hroutine : s.routine <;> simp

/-- The same with the test of `compaction_active`. -/
lemma createResumptionRoutineThread_eq (s : Resuming) :
    s.routine = none ∧ s.createResumptionRoutineThread = { s with routine := some .created } ∨
      s.createResumptionRoutineThread = s ∧ (s.compactionActive = true ∨ s.resumeActive = true) := by
  unfold createResumptionRoutineThread
  split
  · rename_i hactive
    exact .inr ⟨rfl, .inl hactive⟩
  · rcases s.setIsResuming_eq with hnew | ⟨hold, heq⟩
    · exact .inl hnew
    · exact .inr ⟨heq, .inr hold⟩

/-- Somebody asks when nobody has the socket, and waits then. -/
lemma ask_eq_some {asker : Asker} {kind : RequestKind} (h : s.ask asker kind = some s') :
    s.holder = none ∧ s' = { s with
      holder := some (.awaiting asker), demands := s.demands ++ [.request kind] } := by
  unfold ask at h
  split at h
  · rename_i hfree
    exact ⟨hfree, (Option.some.inj h).symm⟩
  · exact absurd h (by simp)

/-- A step of the resumer: it goes on without a process; it picks the first one; it begins an
attempt, or finds that the process has left the list; it asks; it takes the process; or it blocks
itself. -/
lemma resumerStep_cases (h : s.resumerStep = some s') :
    (∃ phase state, s' = { s with resumer := phase, resumerState := state } ∧
      s.resumer.isFree = true ∧ phase.isFree = true ∧
      (phase = .parked → s.suspReady = []) ∧ (state = .blocked → s.resumerState = .blocked)) ∨
    (∃ p, s' = { s with resumer := .picked p } ∧ s.resumer.isFree = true ∧
      s.resumerState = .running ∧ s.suspReady.head? = some p) ∨
    (∃ p, s.resumer = .picked p ∧ s.routineAttempts p = false ∧
      s' = { s with resumer := if p ∈ s.suspReady then .attempting p .query else .failed }) ∨
    (∃ p stage kind, s.resumer = .attempting p stage ∧ stage.request = some kind ∧
      s.holder = none ∧ s' = { s with
        holder := some (.awaiting .resumer), demands := s.demands ++ [.request kind] }) ∨
    (∃ p, s.resumer = .attempting p .taking ∧
      s' = { s with resumer := .atSwitch, suspReady := s.suspReady.erase p }) ∨
    (s.resumer = .failed ∧ s' = { s with resumer := .atSwitch, resumerState := .blocked }) := by
  unfold resumerStep at h
  split at h
  · rename_i hat
    split at h
    · rename_i hrunning
      split at h
      · rename_i hempty
        cases h
        exact .inl ⟨.atSwitch, .waitingProcess, by rw [← hat], by rw [hat]; rfl, rfl, by simp,
          by simp⟩
      · rename_i p rest hlist
        cases h
        exact .inr (.inl ⟨p, rfl, by rw [hat]; rfl, hrunning, by rw [hlist]; rfl⟩)
    · rename_i hwaiting
      cases h
      exact .inl ⟨.waiting, s.resumerState, rfl, by rw [hat]; rfl, rfl, by simp, id⟩
    · exact absurd h (by simp)
  · rename_i p hpicked
    split at h
    · exact absurd h (by simp)
    · rename_i hroutine
      cases h
      exact .inr (.inr (.inl ⟨p, hpicked, by simpa using hroutine, rfl⟩))
  · rename_i p stage hattempting
    split at h
    · rename_i kind hkind
      obtain ⟨hholder, rfl⟩ := ask_eq_some h
      exact .inr (.inr (.inr (.inl ⟨p, stage, kind, hattempting, hkind, hholder, rfl⟩)))
    · rename_i hkind
      cases h
      have hstage : stage = .taking := by cases stage <;> simp_all [AttemptStage.request]
      exact .inr (.inr (.inr (.inr (.inl ⟨p, hstage ▸ hattempting, rfl⟩))))
  · rename_i hfailed
    obtain ⟨phase, heq, -⟩ := s.lockResumer_eq
    rw [heq] at h
    cases h
    exact .inr (.inr (.inr (.inr (.inr ⟨hfailed, rfl⟩))))
  · rename_i hwaiting
    cases h
    refine .inl ⟨_, s.resumerState, rfl, by rw [hwaiting]; rfl, ?_, ?_, id⟩
    · split <;> rfl
    · split
      · rename_i hempty
        exact fun _ => hempty
      · simp
  · exact absurd h (by simp)
  · rename_i hwoken
    cases h
    exact .inl ⟨_, s.resumerState, rfl, by rw [hwoken]; rfl, rfl, by simp, id⟩
  · rename_i empty hrechecked
    cases h
    refine .inl ⟨.atSwitch, _, rfl, by rw [hrechecked]; rfl, rfl, by simp, ?_⟩
    split
    · simp
    · exact id

/-- A step of the routine: it enters; it locks the workers; it goes on in the loop; it leaves the
loop, since the list is empty or a compaction is active; it picks the first process; it begins an
attempt; it asks; it takes the process; or it clears its flag. -/
lemma routineStep_cases (h : s.routineStep = some s') :
    (s.routine = some .created ∧ s.routineActive = false ∧
      s' = { s with routine := some .entered, routineActive := true }) ∨
    (s.routine = some .entered ∧ s' = { s.lockResumer with routine := some .testingList }) ∨
    (∃ phase next, s.routine = some phase ∧ s' = { s with routine := some next } ∧
      phase.hasEntered = true ∧ (phase = .testingList ∧ next = .testingCompaction ∨
        phase = .testingCompaction ∧ next = .removing ∨
        (∃ p, phase = .picked p ∧ p ∉ s.suspReady) ∧ next = .testingList)) ∨
    (∃ phase, s.routine = some phase ∧ s' = { s with routine := some .clearing } ∧
      (phase = .testingList ∧ s.suspReady = [] ∨
        phase = .testingCompaction ∧ s.compactionActive = true)) ∨
    (∃ p, s.routine = some .removing ∧ s.suspReady.head? = some p ∧
      s' = { s with routine := some (.picked p) }) ∨
    (∃ p, s.routine = some (.picked p) ∧ s.resumerAttempts p = false ∧ p ∈ s.suspReady ∧
      s' = { s with routine := some (.attempting p .query) }) ∨
    (∃ p stage kind, s.routine = some (.attempting p stage) ∧ stage.request = some kind ∧
      s.holder = none ∧ s' = { s with
        holder := some (.awaiting .routine), demands := s.demands ++ [.request kind] }) ∨
    (∃ p, s.routine = some (.attempting p .taking) ∧
      s' = { s with routine := some .testingList, suspReady := s.suspReady.erase p }) ∨
    (s.routine = some .clearing ∧
      s' = { s with routine := none, tail := some .unlocking }) := by
  unfold routineStep at h
  split at h
  · exact absurd h (by simp)
  · rename_i hroutine
    split at h
    · exact absurd h (by simp)
    · rename_i hactive
      cases h
      exact .inl ⟨hroutine, by simpa using hactive, rfl⟩
  · rename_i hroutine
    cases h
    exact .inr (.inl ⟨hroutine, rfl⟩)
  · rename_i hroutine
    cases h
    by_cases hempty : s.suspReady = []
    · exact .inr (.inr (.inr (.inl ⟨_, hroutine, by rw [if_pos hempty], .inl ⟨rfl, hempty⟩⟩)))
    · exact .inr (.inr (.inl ⟨_, _, hroutine, by rw [if_neg hempty], rfl, .inl ⟨rfl, rfl⟩⟩))
  · rename_i hroutine
    cases h
    by_cases hactive : s.compactionActive = true
    · exact .inr (.inr (.inr (.inl ⟨_, hroutine, by rw [if_pos hactive], .inr ⟨rfl, hactive⟩⟩)))
    · exact .inr (.inr (.inl ⟨_, _, hroutine, by rw [if_neg hactive], rfl,
        .inr (.inl ⟨rfl, rfl⟩)⟩))
  · rename_i hroutine
    obtain ⟨p, hp, rfl⟩ := Option.map_eq_some_iff.1 h
    exact .inr (.inr (.inr (.inr (.inl ⟨p, hroutine, hp, rfl⟩))))
  · rename_i p hroutine
    split at h
    · exact absurd h (by simp)
    · rename_i hresumer
      cases h
      by_cases hp : p ∈ s.suspReady
      · exact .inr (.inr (.inr (.inr (.inr (.inl
          ⟨p, hroutine, by simpa using hresumer, hp, by rw [if_pos hp]⟩)))))
      · exact .inr (.inr (.inl ⟨_, _, hroutine, by rw [if_neg hp], rfl,
          .inr (.inr ⟨⟨p, rfl, hp⟩, rfl⟩)⟩))
  · rename_i p stage hroutine
    split at h
    · rename_i kind hkind
      obtain ⟨hholder, rfl⟩ := ask_eq_some h
      exact .inr (.inr (.inr (.inr (.inr (.inr (.inl
        ⟨p, stage, kind, hroutine, hkind, hholder, rfl⟩))))))
    · rename_i hkind
      cases h
      have hstage : stage = .taking := by cases stage <;> simp_all [AttemptStage.request]
      exact .inr (.inr (.inr (.inr (.inr (.inr (.inr (.inl ⟨p, hstage ▸ hroutine, rfl⟩)))))))
  · rename_i hroutine
    cases h
    exact .inr (.inr (.inr (.inr (.inr (.inr (.inr (.inr ⟨hroutine, rfl⟩)))))))

/-- What the one at the socket reads: a notice; or the answer, which it acts upon. -/
lemma receive_cases (h : s.receive = some s') :
    (∃ asker rest, s.holder = some (.awaiting asker) ∧ s.messages = .notice :: rest ∧
      s' = { s with messages := rest, holder := some (.noticed asker) }) ∨
    (∃ asker epoch ok rest, s.holder = some (.awaiting asker) ∧
      s.messages = .answer epoch ok :: rest ∧
      s' = ({ s with messages := rest } : Resuming).answered asker epoch ok) := by
  unfold receive at h
  split at h
  · rename_i asker rest hholder hmessages
    cases h
    exact .inl ⟨asker, rest, hholder, hmessages, rfl⟩
  · rename_i asker epoch ok rest hholder hmessages
    cases h
    exact .inr ⟨asker, epoch, ok, rest, hholder, hmessages, rfl⟩
  · exact absurd h (by simp)

/-- What a request of another thread leads to. -/
lemma answered_user (s : Resuming) (kind : RequestKind) (epoch : ℕ) (ok : Bool) :
    (s.answered (.user kind) epoch ok = { s with holder := none } ∧ kind ≠ .deleteSegment ∧
      (kind = .suspendProcess → ok = false)) ∨
    (kind = .createSegment ∧ s.compactionActive = true) ∨
    (kind = .createSegment ∧ s.answered (.user kind) epoch ok =
      { s with holder := some .entering, compactionActive := true }) ∨
    (kind = .deleteSegment ∧ s.answered (.user kind) epoch ok = { s with holder := some .freed }) ∨
    (kind = .suspendProcess ∧ s.answered (.user kind) epoch ok =
      { s with holder := none, suspender := .testingCompaction }) := by
  cases kind
  case createSegment =>
    cases ok
    · cases hactive : s.compactionActive <;> simp [answered, hactive]
    · exact .inl ⟨rfl, by simp, by simp⟩
  case deleteSegment => exact .inr (.inr (.inr (.inl ⟨rfl, rfl⟩)))
  case suspendProcess =>
    cases ok
    · exact .inl ⟨rfl, by simp, fun _ => rfl⟩
    · exact .inr (.inr (.inr (.inr ⟨rfl, rfl⟩)))
  all_goals exact .inl ⟨rfl, by simp, by simp⟩

/-- An answer for the resumption thread: it goes on with its attempt, or the attempt ends. -/
lemma answered_resumer {p : ℕ} {stage : AttemptStage} (h : s.resumer = .attempting p stage)
    (epoch : ℕ) (ok : Bool) :
    (∃ next, stage.afterAnswer epoch ok = .inl next ∧ s.answered .resumer epoch ok =
      { s with holder := none, resumer := .attempting p next }) ∨
    (∃ last, stage.afterAnswer epoch ok = .inr last ∧ s.answered .resumer epoch ok =
      { s with
        holder := none
        resumer := .failed
        lastAnswer := Function.update s.lastAnswer p (some last) }) := by
  simp only [answered, h]
  cases stage.afterAnswer epoch ok with
  | inl next => exact .inl ⟨next, rfl, rfl⟩
  | inr last => exact .inr ⟨last, rfl, rfl⟩

/-- An answer for the resumption routine: it goes on with its attempt, or the attempt ends. -/
lemma answered_routine {p : ℕ} {stage : AttemptStage}
    (h : s.routine = some (.attempting p stage)) (epoch : ℕ) (ok : Bool) :
    (∃ next, stage.afterAnswer epoch ok = .inl next ∧ s.answered .routine epoch ok =
      { s with holder := none, routine := some (.attempting p next) }) ∨
    (∃ last, stage.afterAnswer epoch ok = .inr last ∧ s.answered .routine epoch ok =
      { s with
        holder := none
        routine := some .clearing
        lastAnswer := Function.update s.lastAnswer p (some last) }) := by
  simp only [answered, h]
  cases stage.afterAnswer epoch ok with
  | inl next => exact .inl ⟨next, rfl, rfl⟩
  | inr last => exact .inr ⟨last, rfl, rfl⟩

/-- A step of the thread with the mutex that is not a call: it enters the routines; it locks the
workers; it allows the compaction; it clears the flag; or it leaves. A call it makes is the rest. -/
lemma holderStep_cases (h : s.holderStep = some s') :
    (s.holder = some .entering ∧ s.routineActive = false ∧
      s' = { s with holder := some .locking, routineActive := true }) ∨
    (s.holder = some .locking ∧ s' = { s.lockResumer with holder := some .asking }) ∨
    (s.holder = some .asking ∧ s' = { s with
      holder := some (.awaiting .compaction), demands := s.demands ++ [.canCompact] }) ∨
    (s.holder = some .clearing ∧
      s' = { s with holder := some .calling, compactionActive := false }) ∨
    (s.holder = some .leaving ∧ s' = { s with
      holder := some (.awaiting (.user .createSegment)), routineActive := false }) ∨
    (∃ holder holder', s.holder = some holder ∧
      s' = { s.createResumptionRoutineThread with holder := holder' } ∧
      ((∃ asker, holder = .noticed asker ∧ holder' = some (.awaiting asker)) ∨
        holder = .freed ∧ holder' = none ∨ holder = .calling ∧ holder' = some .leaving)) := by
  unfold holderStep at h
  split at h
  · rename_i asker hholder
    cases h
    exact .inr (.inr (.inr (.inr (.inr ⟨_, _, hholder, rfl, .inl ⟨asker, rfl, rfl⟩⟩))))
  · rename_i hholder
    cases h
    exact .inr (.inr (.inr (.inr (.inr ⟨_, _, hholder, rfl, .inr (.inl ⟨rfl, rfl⟩)⟩))))
  · rename_i hholder
    split at h
    · exact absurd h (by simp)
    · rename_i hactive
      cases h
      exact .inl ⟨hholder, by simpa using hactive, rfl⟩
  · rename_i hholder
    cases h
    exact .inr (.inl ⟨hholder, rfl⟩)
  · rename_i hholder
    cases h
    exact .inr (.inr (.inl ⟨hholder, rfl⟩))
  · rename_i hholder
    cases h
    exact .inr (.inr (.inr (.inl ⟨hholder, rfl⟩)))
  · rename_i hholder
    cases h
    exact .inr (.inr (.inr (.inr (.inr ⟨_, _, hholder, rfl, .inr (.inr ⟨rfl, rfl⟩)⟩))))
  · rename_i hholder
    cases h
    exact .inr (.inr (.inr (.inr (.inl ⟨hholder, rfl⟩))))
  · exact absurd h (by simp)

/-- What Kernel Memory does with the next demand: it answers a request, or a compaction, or it has
nothing to answer. -/
lemma serve_cases {ok : Bool} (h : s.serve ok = some s') :
    (∃ kind rest epoch, s.demands = .request kind :: rest ∧
      epoch = (if makesRoom kind ok then s.epoch + 1 else s.epoch) ∧ s' = { s with
        demands := rest, epoch := epoch, messages := s.messages ++ [.answer epoch ok] }) ∨
    (∃ rest, s.demands = .canCompact :: rest ∧ s' = { s with
      demands := .request .createSegment :: rest
      messages := s.messages ++ [.answer s.epoch true] }) ∨
    (∃ d rest epoch, s.demands = d :: rest ∧ d.replies = 0 ∧
      s' = { s with demands := rest, epoch := epoch } ∧
      (d = .endProcess true ∨ d ≠ .endProcess true ∧ epoch = s.epoch)) := by
  unfold serve at h
  split at h
  · exact absurd h (by simp)
  · rename_i kind rest hdemands
    cases h
    exact .inl ⟨kind, rest, _, hdemands, rfl, rfl⟩
  · rename_i rest hdemands
    cases h
    exact .inr (.inl ⟨rest, hdemands, rfl⟩)
  · rename_i sized rest hdemands
    cases h
    refine .inr (.inr ⟨_, rest, _, hdemands, rfl, rfl, ?_⟩)
    cases sized
    · exact .inr ⟨by simp, rfl⟩
    · exact .inl rfl
  · rename_i rest hdemands
    cases h
    exact .inr (.inr ⟨_, rest, s.epoch, hdemands, rfl, rfl, .inr ⟨by simp, rfl⟩⟩)

/-! ## The exchange with Kernel Memory -/

/-- **The exchange**: the answers under way and those that are still owed are the ones that the
thread with the mutex waits for; nothing is behind a request that is to be answered; a request that
makes room belongs to the thread that waits; and a worker waits only in an attempt. -/
structure Exchange (s : Resuming) : Prop where
  count : s.messages.countP KmMessage.isAnswer + (s.demands.map Demand.replies).sum =
    expectedAnswers s.holder
  fifo : s.demands.Pairwise fun d _ => d.replies = 0
  room : ∀ kind, .request kind ∈ s.demands → kind = .deleteSegment ∨ kind = .suspendProcess →
    s.asker = some (.user kind)
  resumer : s.asker = some .resumer →
    ∃ p stage kind, s.resumer = .attempting p stage ∧ stage.request = some kind
  routine : s.asker = some .routine →
    ∃ p stage kind, s.routine = some (.attempting p stage) ∧ stage.request = some kind

namespace Exchange

/-- Nobody asks at the start. -/
lemma start : Exchange start :=
  ⟨rfl, List.Pairwise.nil, by simp [Resuming.start], by simp [Resuming.start, asker],
    by simp [Resuming.start, asker]⟩

/-- No request is under way while the mutex is free. -/
lemma replies_eq_zero (h : Exchange s) (hholder : expectedAnswers s.holder = 0) {d : Demand}
    (hd : d ∈ s.demands) : d.replies = 0 := by
  have hcount := h.count
  have hle : d.replies ≤ (s.demands.map Demand.replies).sum :=
    List.single_le_sum (fun _ _ => Nat.zero_le _) _ (List.mem_map_of_mem hd)
  omega

/-- A step that leaves the connection alone. -/
lemma frame (h : Exchange s) (hmessages : s'.messages = s.messages)
    (hdemands : s'.demands = s.demands) (hholder : s'.holder = s.holder)
    (hresumer : s.asker = some .resumer → s'.resumer = s.resumer)
    (hroutine : s.asker = some .routine → s'.routine = s.routine) : Exchange s' := by
  have hasker : s'.asker = s.asker := by rw [asker, asker, hholder]
  refine ⟨by rw [hmessages, hdemands, hholder, h.count], hdemands ▸ h.fifo, ?_, ?_, ?_⟩
  · rw [hdemands, hasker]
    exact h.room
  · intro hask
    rw [hasker] at hask
    rw [hresumer hask]
    exact h.resumer hask
  · intro hask
    rw [hasker] at hask
    rw [hroutine hask]
    exact h.routine hask

/-- The thread with the mutex goes on and waits for as many answers. -/
lemma rehold (h : Exchange s) (hmessages : s'.messages = s.messages)
    (hdemands : s'.demands = s.demands)
    (hexpected : expectedAnswers s'.holder = expectedAnswers s.holder)
    (hasker : s'.asker = s.asker ∨ s.asker = none ∧ ∃ kind, s'.asker = some (.user kind))
    (hresumer : s.asker = some .resumer → s'.resumer = s.resumer)
    (hroutine : s.asker = some .routine → s'.routine = s.routine) : Exchange s' := by
  refine ⟨by rw [hmessages, hdemands, hexpected, h.count], hdemands ▸ h.fifo,
    fun kind hkind hroom => ?_, fun hask => ?_, fun hask => ?_⟩
  · have hold := h.room kind (hdemands ▸ hkind) hroom
    rcases hasker with heq | ⟨hnone, -⟩
    · rw [heq, hold]
    · rw [hnone] at hold
      exact absurd hold (by simp)
  · rcases hasker with heq | ⟨-, kind, hnew⟩
    · rw [heq] at hask
      rw [hresumer hask]
      exact h.resumer hask
    · rw [hask] at hnew
      exact absurd hnew (by simp)
  · rcases hasker with heq | ⟨-, kind, hnew⟩
    · rw [heq] at hask
      rw [hroutine hask]
      exact h.routine hask
    · rw [hask] at hnew
      exact absurd hnew (by simp)

/-- A request behind the others, while no answer is expected. -/
lemma send {d : Demand} (h : Exchange s) (hzero : expectedAnswers s.holder = 0)
    (hmessages : s'.messages = s.messages) (hdemands : s'.demands = s.demands ++ [d])
    (hexpected : expectedAnswers s'.holder = d.replies)
    (hroom : ∀ kind, d = .request kind → kind = .deleteSegment ∨ kind = .suspendProcess →
      s'.asker = some (.user kind))
    (hresumer : s'.asker = some .resumer →
      ∃ p stage kind, s'.resumer = .attempting p stage ∧ stage.request = some kind)
    (hroutine : s'.asker = some .routine →
      ∃ p stage kind, s'.routine = some (.attempting p stage) ∧ stage.request = some kind) :
    Exchange s' := by
  have hcount := h.count
  refine ⟨?_, ?_, fun kind hkind hmakes => ?_, hresumer, hroutine⟩
  · rw [hmessages, hdemands, hexpected, List.map_append, List.sum_append]
    simp only [List.map_cons, List.map_nil, List.sum_cons, List.sum_nil]
    omega
  · rw [hdemands, List.pairwise_append]
    exact ⟨h.fifo, List.pairwise_singleton _ _, fun a ha _ _ => h.replies_eq_zero hzero ha⟩
  · rw [hdemands, List.mem_append, List.mem_singleton] at hkind
    rcases hkind with hold | hnew
    · exact absurd (h.replies_eq_zero hzero hold) (by simp [Demand.replies])
    · exact hroom kind hnew.symm hmakes

/-- Kernel Memory takes the next demand, and answers it as often as the count goes down. -/
lemma served {d : Demand} {rest : List Demand} (front : List Demand) (answers : List KmMessage)
    (h : Exchange s) (hdemands : s.demands = d :: rest) (hnew : s'.demands = front ++ rest)
    (hmessages : s'.messages = s.messages ++ answers)
    (hcount : answers.countP KmMessage.isAnswer + (front.map Demand.replies).sum = d.replies)
    (hfront : front = [] ∨ d.replies ≠ 0 ∧ ∃ kind, front = [.request kind] ∧
      kind ≠ .deleteSegment ∧ kind ≠ .suspendProcess)
    (hholder : s'.holder = s.holder) (hresumer : s'.resumer = s.resumer)
    (hroutine : s'.routine = s.routine) : Exchange s' := by
  have hasker : s'.asker = s.asker := by rw [asker, asker, hholder]
  have hfifo := h.fifo
  rw [hdemands, List.pairwise_cons] at hfifo
  refine ⟨?_, ?_, fun kind hkind hroom => ?_, ?_, ?_⟩
  · have hold := h.count
    rw [hdemands, List.map_cons, List.sum_cons] at hold
    rw [hnew, hmessages, hholder, List.map_append, List.sum_append, List.countP_append]
    omega
  · rcases hfront with rfl | ⟨hd, kind, rfl, -⟩
    · rw [hnew, List.nil_append]
      exact hfifo.2
    · have hrest : rest = [] := List.eq_nil_iff_forall_not_mem.2 fun e he => hd (hfifo.1 e he)
      rw [hnew, hrest]
      exact List.pairwise_singleton _ _
  · rw [hasker]
    rw [hnew, List.mem_append] at hkind
    rcases hkind with hin | hin
    · rcases hfront with rfl | ⟨-, other, rfl, hdelete, hsuspend⟩
      · exact absurd hin (by simp)
      · rw [List.mem_singleton, Demand.request.injEq] at hin
        subst hin
        exact absurd hroom (by simp [hdelete, hsuspend])
    · exact h.room kind (hdemands ▸ List.mem_cons_of_mem _ hin) hroom
  · rw [hasker, hresumer]
    exact h.resumer
  · rw [hasker, hroutine]
    exact h.routine

/-- The thread with the mutex takes an answer, and expects one less. -/
lemma taken {epoch : ℕ} {ok : Bool} {rest : List KmMessage} (h : Exchange s)
    (hmessages : s.messages = .answer epoch ok :: rest) (hnew : s'.messages = rest)
    (hdemands : s'.demands = s.demands)
    (hexpected : expectedAnswers s'.holder + 1 = expectedAnswers s.holder)
    (hsingle : (∃ kind, s.asker = some (.user kind)) → expectedAnswers s.holder = 1)
    (hasker : s'.asker = none) : Exchange s' := by
  have hcount := h.count
  rw [hmessages, List.countP_cons_of_pos rfl] at hcount
  refine ⟨?_, hdemands ▸ h.fifo, fun kind hkind hroom => ?_, by simp [hasker], by simp [hasker]⟩
  · rw [hnew, hdemands]
    omega
  · have hold := h.room kind (hdemands ▸ hkind) hroom
    have hone := hsingle ⟨kind, hold⟩
    have hle : (Demand.request kind).replies ≤ (s.demands.map Demand.replies).sum :=
      List.single_le_sum (fun _ _ => Nat.zero_le _) _ (List.mem_map_of_mem (hdemands ▸ hkind))
    simp only [Demand.replies] at hle
    omega

end Exchange

/-! ## The threads and the flags -/

/-- **The threads**: the resumer sleeps only on an empty list; each flag is set by a thread that is
still where it set it; a resumer that is blocked with a process will be unlocked; and no two threads
have the `state_mutex` of a process. -/
structure Threads (s : Resuming) : Prop where
  parked : s.resumer = .parked → s.suspReady = []
  compaction : s.compactionActive = true → s.holder.any KmHolder.hasFlag = true
  active : s.routineActive = true → s.routine.any RoutinePhase.hasEntered = true ∨
    s.tail.isSome = true ∨ s.holder.any KmHolder.inRoutine = true
  blocked : s.resumer.isFree = false → s.resumerState = .blocked →
    s.resumeActive = true ∨ s.tail = some .unlocking ∨ s.holder.any KmHolder.compacts = true
  exclusive : ∀ p stage stage', s.resumer = .attempting p stage →
    s.routine ≠ some (.attempting p stage')

/-- The resumption thread attempts nothing with the process. -/
lemma resumerAttempts_eq_false {p : ℕ} :
    s.resumerAttempts p = false ↔ ∀ stage, s.resumer ≠ .attempting p stage := by
  unfold resumerAttempts
  split
  · rename_i q stage hresumer
    rw [hresumer, beq_eq_false_iff_ne]
    exact ⟨fun hne _ heq => hne (ResumerPhase.attempting.inj heq).1.symm,
      fun hall heq => hall stage (by rw [heq])⟩
  · rename_i hother
    exact ⟨fun _ stage heq => hother p stage heq, fun _ => rfl⟩

/-- The resumption routine attempts nothing with the process. -/
lemma routineAttempts_eq_false {p : ℕ} :
    s.routineAttempts p = false ↔ ∀ stage, s.routine ≠ some (.attempting p stage) := by
  unfold routineAttempts
  split
  · rename_i q stage hroutine
    rw [hroutine, beq_eq_false_iff_ne]
    exact ⟨fun hne _ heq => hne (RoutinePhase.attempting.inj (Option.some.inj heq)).1.symm,
      fun hall heq => hall stage (by rw [heq])⟩
  · rename_i hother
    exact ⟨fun _ stage heq => hother p stage heq, fun _ => rfl⟩

/-- Nobody asks when nobody has the socket. -/
lemma asker_eq_none (h : s.holder = none) : s.asker = none := by rw [asker, h, Option.bind_none]

/-- The flag of a compaction is not set while another thread waits for an answer. -/
lemma Threads.compactionActive_eq_false (h : Threads s) {holder : KmHolder}
    (hholder : s.holder = some holder) (hflag : holder.hasFlag = false) :
    s.compactionActive = false := by
  by_contra hactive
  have := h.compaction (by simpa using hactive)
  rw [hholder, Option.any_some, hflag] at this
  exact absurd this (by simp)

/-- A step of the resumption thread keeps question and answer in order. -/
lemma Exchange.resumerStep (h : Exchange s) (hst : s.resumerStep = some s') : Exchange s' := by
  have hbusy : s.asker = some .resumer → ¬ (s.resumer.isFree = true ∨ (∃ p, s.resumer = .picked p) ∨
      (∃ p, s.resumer = .attempting p .taking) ∨ s.resumer = .failed) := by
    intro hask
    obtain ⟨p, stage, kind, hresumer, hstage⟩ := h.resumer hask
    rw [hresumer]
    rintro (hfree | ⟨q, hq⟩ | ⟨q, hq⟩ | hq)
    · exact absurd hfree (by simp [ResumerPhase.isFree])
    · exact absurd hq (by simp)
    · cases hq
      exact absurd hstage (by simp [AttemptStage.request])
    · exact absurd hq (by simp)
  rcases resumerStep_cases hst with ⟨phase, state, rfl, hfree, -⟩ | ⟨p, rfl, hfree, -⟩ |
    ⟨p, hpicked, -, rfl⟩ | ⟨p, stage, kind, hresumer, hkind, hholder, rfl⟩ | ⟨p, htaking, rfl⟩ |
    ⟨hfailed, rfl⟩
  · exact h.frame rfl rfl rfl (fun hask => absurd (.inl hfree) (hbusy hask)) fun _ => rfl
  · exact h.frame rfl rfl rfl (fun hask => absurd (.inl hfree) (hbusy hask)) fun _ => rfl
  · exact h.frame rfl rfl rfl (fun hask => absurd (.inr (.inl ⟨p, hpicked⟩)) (hbusy hask))
      fun _ => rfl
  · refine h.send (d := .request kind) (by rw [hholder]; rfl) rfl rfl rfl ?_ ?_ ?_
    · rintro kind' hkind' hmakes
      cases hkind'
      exact absurd hmakes (AttemptStage.not_room_of_request hkind)
    · exact fun _ => ⟨p, stage, kind, hresumer, hkind⟩
    · exact fun hask => absurd hask (by simp [asker, KmHolder.asker])
  · exact h.frame rfl rfl rfl
      (fun hask => absurd (.inr (.inr (.inl ⟨p, htaking⟩))) (hbusy hask)) fun _ => rfl
  · exact h.frame rfl rfl rfl (fun hask => absurd (.inr (.inr (.inr hfailed))) (hbusy hask))
      fun _ => rfl

/-- So does one of the resumption routine. -/
lemma Exchange.routineStep (h : Exchange s) (hst : s.routineStep = some s') : Exchange s' := by
  have hbusy : ∀ phase, s.routine = some phase →
      (∀ p stage kind, stage.request = some kind → phase ≠ .attempting p stage) →
      s.asker = some .routine → s'.routine = s.routine := by
    intro phase hphase hne hask
    obtain ⟨p, stage, kind, hroutine, hstage⟩ := h.routine hask
    rw [hphase, Option.some.injEq] at hroutine
    exact absurd hroutine (hne p stage kind hstage)
  rcases routineStep_cases hst with ⟨hcreated, -, rfl⟩ | ⟨hentered, rfl⟩ |
    ⟨phase, next, hphase, rfl, -, hnext⟩ | ⟨phase, hphase, rfl, hnext⟩ | ⟨p, hremoving, -, rfl⟩ |
    ⟨p, hpicked, -, -, rfl⟩ | ⟨p, stage, kind, hroutine, hkind, hholder, rfl⟩ | ⟨p, htaking, rfl⟩ |
    ⟨hclearing, rfl⟩
  · exact h.frame rfl rfl rfl (fun _ => rfl) (hbusy _ hcreated (by simp))
  · obtain ⟨phase, heq, hphase⟩ := s.lockResumer_eq
    rw [heq] at hbusy ⊢
    refine h.frame rfl rfl rfl ?_ (hbusy _ hentered (by simp))
    intro hask
    obtain ⟨p, stage, kind, hresumer, -⟩ := h.resumer hask
    rcases hphase with rfl | ⟨hparked, -⟩
    · rfl
    · rw [hresumer] at hparked
      exact absurd hparked (by simp)
  · refine h.frame rfl rfl rfl (fun _ => rfl) (hbusy _ hphase ?_)
    rcases hnext with ⟨rfl, -⟩ | ⟨rfl, -⟩ | ⟨⟨p, rfl, -⟩, -⟩ <;> simp
  · refine h.frame rfl rfl rfl (fun _ => rfl) (hbusy _ hphase ?_)
    rcases hnext with ⟨rfl, -⟩ | ⟨rfl, -⟩ <;> simp
  · exact h.frame rfl rfl rfl (fun _ => rfl) (hbusy _ hremoving (by simp))
  · exact h.frame rfl rfl rfl (fun _ => rfl) (hbusy _ hpicked (by simp))
  · refine h.send (d := .request kind) (by rw [hholder]; rfl) rfl rfl rfl ?_ ?_ ?_
    · rintro kind' hkind' hmakes
      cases hkind'
      exact absurd hmakes (AttemptStage.not_room_of_request hkind)
    · exact fun hask => absurd hask (by simp [asker, KmHolder.asker])
    · exact fun _ => ⟨p, stage, kind, hroutine, hkind⟩
  · refine h.frame rfl rfl rfl (fun _ => rfl) (hbusy _ htaking ?_)
    rintro q stage kind hkind heq
    cases heq
    exact absurd hkind (by simp [AttemptStage.request])
  · exact h.frame rfl rfl rfl (fun _ => rfl) (hbusy _ hclearing (by simp))

/-- So does one of whoever has the socket. -/
lemma Exchange.holderStep (h : Exchange s) (hst : s.holderStep = some s') : Exchange s' := by
  rcases holderStep_cases hst with ⟨hentering, -, rfl⟩ | ⟨hlocking, rfl⟩ | ⟨hasking, rfl⟩ |
    ⟨hclearing, rfl⟩ | ⟨hleaving, rfl⟩ | ⟨holder, holder', hholder, rfl, hcall⟩
  · exact h.rehold rfl rfl (by rw [hentering]; rfl) (.inl (by simp [asker, hentering,
      KmHolder.asker])) (fun _ => rfl) fun _ => rfl
  · obtain ⟨phase, heq, hphase⟩ := s.lockResumer_eq
    rw [heq]
    have hnone : s.asker = none := by rw [asker, hlocking]; rfl
    exact h.rehold rfl rfl (by rw [hlocking]; rfl) (.inl (by rw [hnone]; rfl))
      (fun hask => absurd (hnone ▸ hask) (by simp)) fun _ => rfl
  · exact h.send (d := .canCompact) (by rw [hasking]; rfl) rfl rfl rfl (by simp)
      (fun hask => absurd hask (by simp [asker, KmHolder.asker]))
      fun hask => absurd hask (by simp [asker, KmHolder.asker])
  · exact h.rehold rfl rfl (by rw [hclearing]; rfl) (.inl (by simp [asker, hclearing,
      KmHolder.asker])) (fun _ => rfl) fun _ => rfl
  · exact h.rehold rfl rfl (by rw [hleaving]; rfl)
      (.inr ⟨by rw [asker, hleaving]; rfl, .createSegment, rfl⟩) (fun _ => rfl) fun _ => rfl
  · -- a routine that asks has set the flag, so the call changes nothing
    have hroutine : s.asker = some .routine →
        s.createResumptionRoutineThread.routine = s.routine := by
      intro hask
      obtain ⟨p, stage, kind, hroutine, -⟩ := h.routine hask
      rcases s.createResumptionRoutineThread_eq with ⟨hnone, -⟩ | ⟨heq, -⟩
      · rw [hnone] at hroutine
        exact absurd hroutine (by simp)
      · rw [heq]
    have hexpected : expectedAnswers holder' = expectedAnswers s.holder := by
      rw [hholder]
      rcases hcall with ⟨asker, rfl, rfl⟩ | ⟨rfl, rfl⟩ | ⟨rfl, rfl⟩
      · cases asker <;> rfl
      · rfl
      · rfl
    have hasker : holder'.bind KmHolder.asker = s.asker := by
      rw [asker, hholder]
      rcases hcall with ⟨asker, rfl, rfl⟩ | ⟨rfl, rfl⟩ | ⟨rfl, rfl⟩ <;> rfl
    rcases s.createResumptionRoutineThread_eq with ⟨-, heq⟩ | ⟨heq, -⟩
    · rw [heq] at hroutine ⊢
      exact h.rehold rfl rfl hexpected (.inl hasker) (fun _ => rfl) hroutine
    · rw [heq]
      exact h.rehold rfl rfl hexpected (.inl hasker) (fun _ => rfl) fun _ => rfl

/-- So does a message that is read. -/
lemma Exchange.receive (h : Exchange s) (hthreads : Threads s) (hst : s.receive = some s') :
    Exchange s' := by
  rcases receive_cases hst with ⟨asker, rest, hholder, hmessages, rfl⟩ |
    ⟨asker, epoch, ok, rest, hholder, hmessages, rfl⟩
  · have hcount := h.count
    rw [hmessages, List.countP_cons_of_neg (by simp [KmMessage.isAnswer]), hholder] at hcount
    have hask : s.asker = some asker := by rw [Resuming.asker, hholder]; rfl
    refine ⟨?_, h.fifo, fun kind hkind hroom => ?_, fun hresumer => ?_, fun hroutine => ?_⟩
    · cases asker <;> exact hcount
    · exact hask.symm.trans (h.room kind hkind hroom)
    · exact h.resumer (hask.trans hresumer)
    · exact h.routine (hask.trans hroutine)
  · set t : Resuming := { s with messages := rest } with ht
    have hnone {u : Resuming} (hu : u = t.answered asker epoch ok) (hnew : u.messages = rest)
        (hdemands : u.demands = s.demands)
        (hexpected : expectedAnswers u.holder + 1 = expectedAnswers s.holder)
        (hasker : u.asker = none) : Exchange (t.answered asker epoch ok) := by
      subst hu
      refine h.taken hmessages hnew hdemands hexpected ?_ hasker
      rintro ⟨kind, hkind⟩
      rw [Resuming.asker, hholder, Option.bind_some, KmHolder.asker, Option.some.injEq] at hkind
      rw [hholder, hkind]
      rfl
    cases asker with
    | user kind =>
      rcases t.answered_user kind epoch ok with ⟨heq, -⟩ | ⟨-, hactive⟩ | ⟨-, heq⟩ | ⟨-, heq⟩ |
        ⟨-, heq⟩
      · exact hnone heq.symm rfl rfl (by rw [hholder]; rfl) rfl
      · have hflag := hthreads.compactionActive_eq_false hholder rfl
        exact absurd (hflag.symm.trans hactive) (by simp)
      · exact hnone heq.symm rfl rfl (by rw [hholder]; rfl) rfl
      · exact hnone heq.symm rfl rfl (by rw [hholder]; rfl) rfl
      · exact hnone heq.symm rfl rfl (by rw [hholder]; rfl) rfl
    | compaction => exact hnone rfl rfl rfl (by rw [hholder]; rfl) rfl
    | resumer =>
      obtain ⟨p, stage, kind, hresumer, -⟩ := h.resumer (by rw [Resuming.asker, hholder]; rfl)
      rcases answered_resumer (s := t) hresumer epoch ok with ⟨next, -, heq⟩ | ⟨last, -, heq⟩
      · exact hnone heq.symm rfl rfl (by rw [hholder]; rfl) rfl
      · exact hnone heq.symm rfl rfl (by rw [hholder]; rfl) rfl
    | routine =>
      obtain ⟨p, stage, kind, hroutine, -⟩ := h.routine (by rw [Resuming.asker, hholder]; rfl)
      rcases answered_routine (s := t) hroutine epoch ok with ⟨next, -, heq⟩ | ⟨last, -, heq⟩
      · exact hnone heq.symm rfl rfl (by rw [hholder]; rfl) rfl
      · exact hnone heq.symm rfl rfl (by rw [hholder]; rfl) rfl

/-- So does a request that Kernel Memory serves. -/
lemma Exchange.serve {ok : Bool} (h : Exchange s) (hst : s.serve ok = some s') : Exchange s' := by
  rcases serve_cases hst with ⟨kind, rest, epoch, hdemands, -, rfl⟩ | ⟨rest, hdemands, rfl⟩ |
    ⟨d, rest, epoch, hdemands, hzero, rfl, -⟩
  · exact h.served [] [.answer epoch ok] hdemands rfl rfl rfl (.inl rfl)
      rfl rfl rfl
  · exact h.served [.request .createSegment] [.answer s.epoch true] hdemands rfl rfl rfl
      (.inr ⟨by simp [Demand.replies], .createSegment, rfl, by simp, by simp⟩)
      rfl rfl rfl
  · exact h.served [] [] hdemands rfl (by simp) hzero.symm (.inl rfl) rfl rfl rfl

/-- **A step keeps the exchange.** -/
lemma Exchange.step {a : Action} (h : Exchange s) (hthreads : Threads s)
    (hst : s.step a = some s') : Exchange s' := by
  cases a with
  | resumer => exact h.resumerStep hst
  | routine => exact h.routineStep hst
  | tail =>
    simp only [Resuming.step, tailStep] at hst
    split at hst
    · exact absurd hst (by simp)
    · obtain ⟨state, heq, -⟩ := s.unlockResumer_eq
      rw [heq] at hst
      cases hst
      exact h.frame rfl rfl rfl (fun _ => rfl) fun _ => rfl
    · cases hst
      exact h.frame rfl rfl rfl (fun _ => rfl) fun _ => rfl
  | suspender =>
    simp only [Resuming.step, suspenderStep] at hst
    split at hst
    · exact absurd hst (by simp)
    · cases hst
      exact h.frame rfl rfl rfl (fun _ => rfl) fun _ => rfl
    · cases hst
      exact h.frame rfl rfl rfl (fun _ => rfl) fun _ => rfl
    · obtain ⟨state, heq, -⟩ := s.unlockResumer_eq
      rw [heq] at hst
      cases hst
      exact h.frame rfl rfl rfl (fun _ => rfl) fun _ => rfl
  | endTest =>
    simp only [Resuming.step, Option.ite_none_right_eq_some, Option.some.injEq] at hst
    obtain ⟨-, rfl⟩ := hst
    exact h.frame rfl rfl rfl (fun _ => rfl) fun _ => rfl
  | endCall =>
    simp only [Resuming.step, Option.ite_none_right_eq_some, Option.some.injEq] at hst
    obtain ⟨-, rfl⟩ := hst
    rcases s.setIsResuming_eq with ⟨hnone, heq⟩ | ⟨-, heq⟩
    · rw [heq]
      refine h.frame rfl rfl rfl (fun _ => rfl) fun hask => ?_
      obtain ⟨p, stage, kind, hroutine, -⟩ := h.routine hask
      rw [hnone] at hroutine
      exact absurd hroutine (by simp)
    · rw [heq]
      exact h.frame rfl rfl rfl (fun _ => rfl) fun _ => rfl
  | receive => exact h.receive hthreads hst
  | holder => exact h.holderStep hst
  | serve ok => exact h.serve hst
  | addTotalMemory =>
    simp only [Resuming.step, Option.ite_none_right_eq_some, Option.some.injEq] at hst
    obtain ⟨-, rfl⟩ := hst
    exact h.frame rfl rfl rfl (fun _ => rfl) fun _ => rfl
  | request kind =>
    simp only [Resuming.step, Option.ite_none_right_eq_some] at hst
    obtain ⟨hfree, rfl⟩ := ask_eq_some hst.2
    refine h.send (d := .request kind) (by rw [hfree]; rfl) rfl rfl rfl ?_
      (fun hask => absurd hask (by simp [asker, KmHolder.asker]))
      fun hask => absurd hask (by simp [asker, KmHolder.asker])
    rintro kind' hkind' -
    cases hkind'
    rfl
  | endProcess sized =>
    simp only [Resuming.step, Option.ite_none_right_eq_some, Option.some.injEq] at hst
    obtain ⟨hfree, rfl⟩ := hst
    exact h.send (d := .endProcess sized) (by rw [hfree]; rfl) rfl rfl (by rw [hfree]; rfl)
      (by simp) (fun hask => absurd hask (by simp [asker, hfree]))
      fun hask => absurd hask (by simp [asker, hfree])
  | ping =>
    simp only [Resuming.step, Option.ite_none_right_eq_some, Option.some.injEq] at hst
    obtain ⟨hfree, rfl⟩ := hst
    exact h.send (d := .running) (by rw [hfree]; rfl) rfl rfl (by rw [hfree]; rfl)
      (by simp) (fun hask => absurd hask (by simp [asker, hfree]))
      fun hask => absurd hask (by simp [asker, hfree])
  | toSuspReady pcbs p =>
    simp only [Resuming.step, Option.ite_none_right_eq_some, Option.some.injEq] at hst
    obtain ⟨-, rfl⟩ := hst
    split
    · obtain ⟨phase, heq, -, hphase⟩ := s.signalProcess_eq
      rw [heq]
      refine h.frame rfl rfl rfl (fun hask => ?_) fun _ => rfl
      obtain ⟨q, stage, kind, hresumer, -⟩ := h.resumer hask
      rcases hphase with rfl | ⟨hparked, -⟩
      · rfl
      · rw [hresumer] at hparked
        exact absurd hparked (by simp)
    · exact h.frame rfl rfl rfl (fun _ => rfl) fun _ => rfl
  | newMemoryStick =>
    simp only [Resuming.step, Option.ite_none_left_eq_some, Option.some.injEq] at hst
    obtain ⟨-, rfl⟩ := hst
    refine ⟨?_, h.fifo, h.room, h.resumer, h.routine⟩
    rw [← h.count, List.countP_append]
    rfl
  | spurious =>
    simp only [Resuming.step, Option.ite_none_right_eq_some, Option.some.injEq] at hst
    obtain ⟨hparked, rfl⟩ := hst
    refine h.frame rfl rfl rfl (fun hask => ?_) fun _ => rfl
    obtain ⟨p, stage, kind, hresumer, -⟩ := h.resumer hask
    rw [hresumer] at hparked
    exact absurd hparked (by simp)

namespace Threads

/-- The threads are free at the start. -/
lemma start : Threads start :=
  ⟨by simp [Resuming.start], by simp [Resuming.start], by simp [Resuming.start],
    by simp [Resuming.start], by simp [Resuming.start]⟩

/-- A call that starts a routine. -/
lemma setRoutine (h : Threads s) (hnone : s.routine = none) :
    Threads { s with routine := some .created } := by
  refine ⟨h.parked, h.compaction, fun hactive => ?_, fun _ _ => .inl rfl, by simp⟩
  rcases h.active hactive with hentered | hrest
  · rw [hnone] at hentered
    exact absurd hentered (by simp)
  · exact .inr hrest

/-- A routine is created only when none is there. -/
lemma createResumptionRoutineThread (h : Threads s) : Threads s.createResumptionRoutineThread := by
  rcases s.createResumptionRoutineThread_eq with ⟨hnone, heq⟩ | ⟨heq, -⟩
  · exact heq ▸ h.setRoutine hnone
  · exact heq.symm ▸ h

/-- `lock_thread_suspended`, by a thread that will unlock the resumer. -/
lemma lockResumer (h : Threads s) (hlocker : s.resumeActive = true ∨ s.tail = some .unlocking ∨
    s.holder.any KmHolder.compacts = true) : Threads s.lockResumer := by
  obtain ⟨phase, heq, hphase⟩ := s.lockResumer_eq
  rw [heq]
  refine ⟨fun hparked => ?_, h.compaction, h.active, fun _ _ => hlocker,
    fun p stage stage' hresumer => ?_⟩
  · rcases hphase with rfl | ⟨-, rfl⟩
    · exact h.parked hparked
    · exact absurd hparked (by simp)
  · rcases hphase with rfl | ⟨-, rfl⟩
    · exact h.exclusive p stage stage' hresumer
    · exact absurd hresumer (by simp)

/-- The thread that is let go is where it was. -/
lemma unlockResumer (h : Threads s) : Threads s.unlockResumer := by
  obtain ⟨state, heq, hstate⟩ := s.unlockResumer_eq
  rw [heq]
  exact ⟨h.parked, h.compaction, h.active, fun _ hblocked => absurd hblocked hstate, h.exclusive⟩

/-- A signal moves only a thread that waits for it. -/
lemma signalProcess (h : Threads s) : Threads s.signalProcess := by
  obtain ⟨phase, heq, hparked, hphase⟩ := s.signalProcess_eq
  rw [heq]
  refine ⟨fun hpark => absurd hpark hparked, h.compaction, h.active, fun hfree => ?_,
    fun p stage stage' hresumer => ?_⟩
  · rcases hphase with rfl | ⟨-, rfl⟩
    · exact h.blocked hfree
    · exact absurd hfree (by simp [ResumerPhase.isFree])
  · rcases hphase with rfl | ⟨-, rfl⟩
    · exact h.exclusive p stage stage' hresumer
    · exact absurd hresumer (by simp)

/-- The thread with the mutex goes on, or another thread takes it. -/
lemma rehold {holder : Option KmHolder} (h : Threads s) (demands : List Demand)
    (hflag : s.compactionActive = true → holder.any KmHolder.hasFlag = true)
    (hroutine : s.holder.any KmHolder.inRoutine = true → holder.any KmHolder.inRoutine = true)
    (hcompacts : s.holder.any KmHolder.compacts = true →
      s.resumeActive = true ∨ holder.any KmHolder.compacts = true) :
    Threads { s with holder := holder, demands := demands } := by
  refine ⟨h.parked, hflag, fun hactive => ?_, fun hfree hblocked => ?_, h.exclusive⟩
  · exact (h.active hactive).imp_right (Or.imp_right hroutine)
  · rcases h.blocked hfree hblocked with hresume | htail | hold
    · exact .inl hresume
    · exact .inr (.inl htail)
    · exact (hcompacts hold).imp_right .inr

/-- A thread takes the free mutex. -/
lemma take {holder : KmHolder} (h : Threads s) (hfree : s.holder = none) (demands : List Demand) :
    Threads { s with holder := some holder, demands := demands } := by
  refine h.rehold demands (fun hactive => ?_) (by simp [hfree]) (by simp [hfree])
  have := h.compaction hactive
  rw [hfree] at this
  exact absurd this (by simp)

/-- The threads stay sound over a step of the resumption thread. -/
lemma resumerStep (h : Threads s) (hst : s.resumerStep = some s') : Threads s' := by
  rcases resumerStep_cases hst with ⟨phase, state, rfl, hfree, hphase, hpark, hblocked⟩ |
    ⟨p, rfl, hfree, hrunning, -⟩ | ⟨p, hpicked, hroutine, rfl⟩ |
    ⟨p, stage, kind, hresumer, hkind, hholder, rfl⟩ | ⟨p, htaking, rfl⟩ | ⟨hfailed, rfl⟩
  · refine ⟨hpark, h.compaction, h.active, fun hnot => ?_, fun p stage stage' hresumer => ?_⟩
    · exact absurd (hphase.symm.trans hnot) (by simp)
    · simp only at hresumer
      rw [hresumer] at hphase
      exact absurd hphase (by simp [ResumerPhase.isFree])
  · refine ⟨by simp, h.compaction, h.active, fun _ hblocked => ?_, by simp⟩
    exact absurd (hrunning.symm.trans hblocked) (by simp)
  · have hfree : s.resumer.isFree = false := by rw [hpicked]; rfl
    refine ⟨?_, h.compaction, h.active, fun _ => h.blocked hfree, fun q stage stage' hq => ?_⟩
    · dsimp only
      split <;> simp
    · have hp : q = p := by
        dsimp only at hq
        split at hq
        · exact (ResumerPhase.attempting.inj hq).1.symm
        · exact absurd hq (by simp)
      exact hp ▸ routineAttempts_eq_false.1 hroutine stage'
  · exact h.take hholder _
  · exact ⟨by simp, h.compaction, h.active, by simp [ResumerPhase.isFree], by simp⟩
  · exact ⟨by simp, h.compaction, h.active, by simp [ResumerPhase.isFree], by simp⟩

/-- Over one of the resumption routine. -/
lemma routineStep (h : Threads s) (hst : s.routineStep = some s') : Threads s' := by
  rcases routineStep_cases hst with ⟨hcreated, -, rfl⟩ | ⟨hentered, rfl⟩ |
    ⟨phase, next, hphase, rfl, hhas, hnext⟩ | ⟨phase, hphase, rfl, hnext⟩ | ⟨p, hremoving, -, rfl⟩ |
    ⟨p, hpicked, hresumer, -, rfl⟩ | ⟨p, stage, kind, hroutine, hkind, hholder, rfl⟩ |
    ⟨p, htaking, rfl⟩ | ⟨hclearing, rfl⟩
  · exact ⟨h.parked, h.compaction, fun _ => .inl rfl, fun _ _ => .inl rfl, by simp⟩
  · have hlock := h.lockResumer (.inl (by rw [resumeActive, hentered]; rfl))
    exact ⟨hlock.parked, hlock.compaction, fun _ => .inl rfl, fun _ _ => .inl rfl, by simp⟩
  · refine ⟨h.parked, h.compaction, fun _ => .inl ?_, fun _ _ => .inl rfl, ?_⟩
    · rcases hnext with ⟨-, rfl⟩ | ⟨-, rfl⟩ | ⟨-, rfl⟩ <;> rfl
    · rcases hnext with ⟨-, rfl⟩ | ⟨-, rfl⟩ | ⟨-, rfl⟩ <;> simp
  · exact ⟨h.parked, h.compaction, fun _ => .inl rfl, fun _ _ => .inl rfl, by simp⟩
  · exact ⟨h.parked, h.compaction, fun _ => .inl rfl, fun _ _ => .inl rfl, by simp⟩
  · refine ⟨h.parked, h.compaction, fun _ => .inl rfl, fun _ _ => .inl rfl,
      fun q stage stage' hq heq => ?_⟩
    have hp : p = q := (RoutinePhase.attempting.inj (Option.some.inj heq)).1
    exact resumerAttempts_eq_false.1 hresumer stage (hp ▸ hq)
  · exact h.take hholder _
  · refine ⟨fun hparked => ?_, h.compaction, fun _ => .inl rfl, fun _ _ => .inl rfl, by simp⟩
    dsimp only at hparked ⊢
    rw [h.parked hparked]
    rfl
  · exact ⟨h.parked, h.compaction, fun _ => .inr (.inl rfl), fun _ _ => .inr (.inl rfl), by simp⟩

/-- Over one of whoever has the socket. -/
lemma holderStep (h : Threads s) (hst : s.holderStep = some s') : Threads s' := by
  rcases holderStep_cases hst with ⟨hentering, -, rfl⟩ | ⟨hlocking, rfl⟩ | ⟨hasking, rfl⟩ |
    ⟨hclearing, rfl⟩ | ⟨hleaving, rfl⟩ | ⟨holder, holder', hholder, rfl, hcall⟩
  · have hnew := @rehold s (some .locking) h s.demands (fun _ => rfl) (fun _ => rfl)
      fun _ => .inr rfl
    exact ⟨hnew.parked, hnew.compaction, fun _ => .inr (.inr rfl), hnew.blocked, hnew.exclusive⟩
  · have hlock := h.lockResumer (.inr (.inr (by rw [hlocking]; rfl)))
    exact @rehold _ (some .asking) hlock s.lockResumer.demands (fun _ => rfl) (fun _ => rfl)
      fun _ => .inr rfl
  · exact h.rehold _ (fun _ => rfl) (fun _ => rfl) fun _ => .inr rfl
  · refine ⟨h.parked, by simp, fun _ => .inr (.inr rfl), fun hfree hblocked => ?_, h.exclusive⟩
    exact (h.blocked hfree hblocked).imp_right (Or.imp_right fun _ => rfl)
  · refine ⟨h.parked, fun hactive => ?_, by simp, fun hfree hblocked => ?_, h.exclusive⟩
    · have hflag := h.compactionActive_eq_false hleaving rfl
      exact absurd (hflag.symm.trans hactive) (by simp)
    · refine (h.blocked hfree hblocked).imp_right (Or.imp_right fun hcompacts => ?_)
      rw [hleaving] at hcompacts
      exact absurd hcompacts (by simp [KmHolder.compacts])
  · have hcreated := h.createResumptionRoutineThread
    have hold : s.createResumptionRoutineThread.holder = some holder := by
      rcases s.createResumptionRoutineThread_eq with ⟨-, heq⟩ | ⟨heq, -⟩ <;> rw [heq, hholder]
    refine @rehold _ holder' hcreated s.createResumptionRoutineThread.demands ?_ ?_ ?_
    · intro hactive
      have := hcreated.compaction hactive
      rw [hold] at this
      rcases hcall with ⟨asker, rfl, rfl⟩ | ⟨rfl, rfl⟩ | ⟨rfl, rfl⟩
      · simpa using this
      · exact absurd this (by simp [KmHolder.hasFlag, KmHolder.compacts])
      · exact absurd this (by simp [KmHolder.hasFlag])
    · rw [hold]
      rcases hcall with ⟨asker, rfl, rfl⟩ | ⟨rfl, rfl⟩ | ⟨rfl, rfl⟩
      · simp
      · simp [KmHolder.inRoutine, KmHolder.compacts]
      · exact fun _ => rfl
    · rw [hold]
      rcases hcall with ⟨asker, rfl, rfl⟩ | ⟨rfl, rfl⟩ | ⟨rfl, rfl⟩
      · exact fun hcompacts => .inr (by simpa using hcompacts)
      · simp [KmHolder.compacts]
      · -- the flag is clear there, so the call starts a routine or finds one
        have hflag := h.compactionActive_eq_false hholder rfl
        refine fun _ => .inl ?_
        rcases s.createResumptionRoutineThread_eq with ⟨-, heq⟩ | ⟨heq, hactive | hresume⟩
        · rw [heq]
          rfl
        · exact absurd (hflag.symm.trans hactive) (by simp)
        · rw [heq]
          exact hresume

/-- Over a message that is read. -/
lemma receive (h : Threads s) (hexchange : Exchange s) (hst : s.receive = some s') :
    Threads s' := by
  rcases receive_cases hst with ⟨asker, rest, hholder, -, rfl⟩ |
    ⟨asker, epoch, ok, rest, hholder, -, rfl⟩
  · have hnew := @rehold s (some (.noticed asker)) h s.demands ?_ ?_ ?_
    · exact ⟨hnew.parked, hnew.compaction, hnew.active, hnew.blocked, hnew.exclusive⟩
    · intro hactive
      have := h.compaction hactive
      simpa [hholder] using this
    · simp [hholder]
    · exact fun hcompacts => .inr (by simpa [hholder] using hcompacts)
  · set t : Resuming := { s with messages := rest } with ht
    have hold : Threads t := ⟨h.parked, h.compaction, h.active, h.blocked, h.exclusive⟩
    have hnone (hflag : (KmHolder.awaiting asker).hasFlag = false)
        (hroutine : (KmHolder.awaiting asker).inRoutine = false)
        (hcompacts : (KmHolder.awaiting asker).compacts = false) (holder : Option KmHolder) :
        Threads { t with holder := holder } := by
      refine @rehold _ holder hold t.demands (fun hactive => ?_) (fun hin => ?_) fun hin => ?_
      · exact absurd ((h.compactionActive_eq_false hholder hflag).symm.trans hactive) (by simp)
      · rw [show t.holder = _ from hholder, Option.any_some, hroutine] at hin
        exact absurd hin (by simp)
      · rw [show t.holder = _ from hholder, Option.any_some, hcompacts] at hin
        exact absurd hin (by simp)
    cases asker with
    | user kind =>
      rcases t.answered_user kind epoch ok with ⟨heq, -⟩ | ⟨-, hactive⟩ | ⟨-, heq⟩ | ⟨-, heq⟩ |
        ⟨-, heq⟩
      · exact heq ▸ hnone rfl rfl rfl none
      · have hflag := h.compactionActive_eq_false hholder rfl
        exact absurd (hflag.symm.trans hactive) (by simp)
      · have hnew := hnone rfl rfl rfl (some .entering)
        exact heq ▸ ⟨hnew.parked, fun _ => rfl, hnew.active, hnew.blocked, hnew.exclusive⟩
      · exact heq ▸ hnone rfl rfl rfl (some .freed)
      · have hnew := hnone rfl rfl rfl none
        exact heq ▸ ⟨hnew.parked, hnew.compaction, hnew.active, hnew.blocked, hnew.exclusive⟩
    | compaction =>
      exact @rehold _ (some .clearing) hold t.demands (fun _ => rfl) (fun _ => rfl)
        fun _ => .inr rfl
    | resumer =>
      obtain ⟨p, stage, kind, hresumer, -⟩ :=
        hexchange.resumer (by rw [Resuming.asker, hholder]; rfl)
      have hnew := hnone rfl rfl rfl none
      have hblocked := hnew.blocked (show s.resumer.isFree = false by rw [hresumer]; rfl)
      rcases answered_resumer (s := t) hresumer epoch ok with ⟨next, -, heq⟩ | ⟨last, -, heq⟩
      · rw [heq]
        refine ⟨by simp, hnew.compaction, hnew.active, fun _ => hblocked, fun q st st' hq => ?_⟩
        have hp : p = q := (ResumerPhase.attempting.inj hq).1
        exact h.exclusive q stage st' (hp ▸ hresumer)
      · rw [heq]
        exact ⟨by simp, hnew.compaction, hnew.active, fun _ => hblocked, by simp⟩
    | routine =>
      obtain ⟨p, stage, kind, hroutine, -⟩ :=
        hexchange.routine (by rw [Resuming.asker, hholder]; rfl)
      have hnew := hnone rfl rfl rfl none
      rcases answered_routine (s := t) hroutine epoch ok with ⟨next, -, heq⟩ | ⟨last, -, heq⟩
      · rw [heq]
        refine ⟨hnew.parked, hnew.compaction, fun _ => .inl rfl, fun _ _ => .inl rfl,
          fun q st st' hq hroutine' => ?_⟩
        have hp : p = q := (RoutinePhase.attempting.inj (Option.some.inj hroutine')).1
        exact h.exclusive q st stage hq (hp ▸ hroutine)
      · rw [heq]
        exact ⟨hnew.parked, hnew.compaction, fun _ => .inl rfl, fun _ _ => .inl rfl, by simp⟩

/-- **A step keeps the threads and the flags together.** -/
lemma step {a : Action} (h : Threads s) (hexchange : Exchange s) (hst : s.step a = some s') :
    Threads s' := by
  cases a with
  | resumer => exact h.resumerStep hst
  | routine => exact h.routineStep hst
  | tail =>
    simp only [Resuming.step, tailStep] at hst
    split at hst
    · exact absurd hst (by simp)
    · cases hst
      have hnew := h.unlockResumer
      obtain ⟨state, heq, hstate⟩ := s.unlockResumer_eq
      rw [heq] at hnew ⊢
      exact ⟨hnew.parked, hnew.compaction, fun _ => .inr (.inl rfl),
        fun _ hblocked => absurd hblocked hstate, hnew.exclusive⟩
    · rename_i hleaving
      cases hst
      refine ⟨h.parked, h.compaction, by simp, fun hfree hblocked => ?_, h.exclusive⟩
      rcases h.blocked hfree hblocked with hresume | htail | hcompacts
      · exact .inl hresume
      · rw [hleaving] at htail
        exact absurd htail (by simp)
      · exact .inr (.inr hcompacts)
  | suspender =>
    simp only [Resuming.step, suspenderStep] at hst
    split at hst
    · exact absurd hst (by simp)
    · cases hst
      exact ⟨h.parked, h.compaction, h.active, h.blocked, h.exclusive⟩
    · cases hst
      exact ⟨h.parked, h.compaction, h.active, h.blocked, h.exclusive⟩
    · cases hst
      have hnew := h.unlockResumer
      exact ⟨hnew.parked, hnew.compaction, hnew.active, hnew.blocked, hnew.exclusive⟩
  | endTest =>
    simp only [Resuming.step, Option.ite_none_right_eq_some, Option.some.injEq] at hst
    obtain ⟨-, rfl⟩ := hst
    exact ⟨h.parked, h.compaction, h.active, h.blocked, h.exclusive⟩
  | endCall =>
    simp only [Resuming.step, Option.ite_none_right_eq_some, Option.some.injEq] at hst
    obtain ⟨-, rfl⟩ := hst
    rcases s.setIsResuming_eq with ⟨hnone, heq⟩ | ⟨-, heq⟩
    · rw [heq]
      have hnew := h.setRoutine hnone
      exact ⟨hnew.parked, hnew.compaction, hnew.active, hnew.blocked, hnew.exclusive⟩
    · rw [heq]
      exact ⟨h.parked, h.compaction, h.active, h.blocked, h.exclusive⟩
  | receive => exact h.receive hexchange hst
  | holder => exact h.holderStep hst
  | serve ok =>
    rcases serve_cases hst with ⟨kind, rest, epoch, -, -, rfl⟩ | ⟨rest, -, rfl⟩ |
      ⟨d, rest, epoch, -, -, rfl, -⟩ <;>
      exact ⟨h.parked, h.compaction, h.active, h.blocked, h.exclusive⟩
  | addTotalMemory =>
    simp only [Resuming.step, Option.ite_none_right_eq_some, Option.some.injEq] at hst
    obtain ⟨-, rfl⟩ := hst
    exact ⟨h.parked, h.compaction, h.active, h.blocked, h.exclusive⟩
  | request kind =>
    simp only [Resuming.step, Option.ite_none_right_eq_some] at hst
    obtain ⟨hfree, rfl⟩ := ask_eq_some hst.2
    exact h.take hfree _
  | endProcess _ | ping =>
    simp only [Resuming.step, Option.ite_none_right_eq_some, Option.some.injEq] at hst
    obtain ⟨-, rfl⟩ := hst
    exact ⟨h.parked, h.compaction, h.active, h.blocked, h.exclusive⟩
  | toSuspReady pcbs p =>
    simp only [Resuming.step, Option.ite_none_right_eq_some, Option.some.injEq] at hst
    obtain ⟨-, rfl⟩ := hst
    split
    · obtain ⟨phase, heq, hparked, -⟩ := s.signalProcess_eq
      have hnew := h.signalProcess
      rw [heq] at hnew ⊢
      exact ⟨fun hpark => absurd hpark hparked, hnew.compaction, hnew.active, hnew.blocked,
        hnew.exclusive⟩
    · rename_i hne
      exact ⟨fun hparked => absurd (h.parked hparked) hne, h.compaction, h.active, h.blocked,
        h.exclusive⟩
  | newMemoryStick =>
    simp only [Resuming.step, Option.ite_none_left_eq_some, Option.some.injEq] at hst
    obtain ⟨-, rfl⟩ := hst
    exact ⟨h.parked, h.compaction, h.active, h.blocked, h.exclusive⟩
  | spurious =>
    simp only [Resuming.step, Option.ite_none_right_eq_some, Option.some.injEq] at hst
    obtain ⟨-, rfl⟩ := hst
    exact ⟨by simp, h.compaction, h.active, by simp [ResumerPhase.isFree], by simp⟩

end Threads

end Resuming

end OsSimulator.Scheduler
