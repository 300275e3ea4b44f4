import OsSimulator.Library.Ranks
import OsSimulator.Scheduler.SuspensionThreads

set_option relaxedAutoImplicit false
set_option autoImplicit false

/-!
# No process is forgotten

A process that comes into BLOCK or SUSP. READY may find the worker of that list anywhere: at work on
another process, waiting, on its way into the wait, or out of a wait that has ended for no reason.
The worker tests for a process under `list_mutex`, under which the processes come, so it does not
wait when there is one to look at.

## Main definitions

* `SuspensionThreads.Due` — a worker that runs or waits, with a process it has not looked at.

## Main results

* `SuspensionThreads.searches_of_due` — its own steps lead it to its next search.
-/

namespace OsSimulator.Scheduler

open Locks (Worker)

namespace SuspensionThreads

variable {π : Type}

/-- The steps of a worker until it searches its list at the latest, when there is something to look
at: those of one that is running, and of one that still has to find out that it need not wait. -/
def WorkerPhase.toSearch (running : Bool) : WorkerPhase π → ℕ
  | switch => if running then 1 else 8
  | top => if running then 2 else 9
  | bottom => if running then 3 else 10
  | settling false => 4
  | settling true | relocking | retesting => if running then 4 else 11
  | reading => 5
  | wokenUnlock => if running then 5 else 12
  | woken | testing => 6
  | window => 7
  | foundNone => 11
  | unlocking | locking => 12
  | busy _ => 13
  | found _ => 14
  | searching | parked | parkedUnlock | leaving | ended => 0

/-- What a worker has to do until it searches its list. -/
def Side.toSearch (side : Side π) : ℕ :=
  side.phase.toSearch (decide (side.state = .running))

/-- A worker is never further than fourteen steps from its search. -/
lemma Side.toSearch_le (side : Side π) : side.toSearch ≤ 14 := by
  unfold Side.toSearch
  cases decide (side.state = .running) <;> unfold WorkerPhase.toSearch <;> split <;> simp

/-- The worker searches its list; or it has been parked, as the resumer parks itself when a process
does not fit; or the process has left the list. -/
def Side.Reached (process : π) (side : Side π) : Prop :=
  side.phase = .searching ∨ side.state = .blocked ∨ process ∉ side.list

/-- A worker that is neither parked nor asked to end, in whose list the process is, and which need
not wait for one. The suspender may wait for the resumer in `unlock_thread_suspended`, so the
resumer is not in a critical section then. -/
structure Due (w : Worker) (process : π) (s : SuspensionThreads π) : Prop where
  sound : s.Sound
  main : s.main = .outside
  state : (s.side w).state = .running ∨ (s.side w).state = .waitingProcess
  mem : process ∈ (s.side w).list
  mustWait : (s.side w).mustWait w = false
  free : w = .suspender → (s.side .resumer).phase.hasState = false

section

variable {s s' : SuspensionThreads π} {w : Worker} {side : Side π} {process : π}

/-- Whether it has to wait depends on its list only. -/
lemma mustWait_congr {side' : Side π} (hlist : side'.list = side.list)
    (hnew : side'.newProcess = side.newProcess) : side'.mustWait w = side.mustWait w := by
  cases w
  · simp only [Side.mustWait, hnew]
  · simp only [Side.mustWait, hlist]

/-- The worker moves, and looks at nothing on its way. -/
lemma Due.move (h : Due w process s) (hsound : (s.setSide w side).Sound)
    (hlist : side.list = (s.side w).list) (hnew : side.newProcess = (s.side w).newProcess)
    (hstate : side.state = .running ∨ side.state = .waitingProcess) :
    Due w process (s.setSide w side) where
  sound := hsound
  main := h.main
  state := by rwa [setSide_side_self]
  mem := by
    rw [setSide_side_self, hlist]
    exact h.mem
  mustWait := by
    rw [setSide_side_self, mustWait_congr hlist hnew]
    exact h.mustWait
  free hw := by
    subst hw
    rw [setSide_side_of_ne (by simp)]
    exact h.free rfl

/-- The resumer is told to go on. -/
lemma Due.unlock (h : Due .suspender process s) (hfree : (s.side .resumer).phase.hasState = false) :
    Due .suspender process (s.setSide .resumer (s.side .resumer).unlock) where
  sound := h.sound.setSide ((h.sound .resumer).unlock hfree)
  main := h.main
  state := by
    rw [setSide_side_of_ne (by simp)]
    exact h.state
  mem := by
    rw [setSide_side_of_ne (by simp)]
    exact h.mem
  mustWait := by
    rw [setSide_side_of_ne (by simp)]
    exact h.mustWait
  free _ := by
    rw [setSide_side_self, Side.unlock]
    split
    · rwa [WorkerPhase.hasState_signalUnlock]
    · exact hfree

variable [DecidableEq π]

/-- A process has been worked on. -/
lemma Due.worked (h : Due w process s) (input : Input π) {p : π} (hat : (s.side w).phase = .busy p)
    (hsound : (s.worked w p input).Sound) :
    ((s.worked w p input).side w).Reached process ∨ Due w process (s.worked w p input) ∧
      ((s.worked w p input).side w).toSearch < (s.side w).toSearch := by
  by_cases hmem : process ∈ ((s.worked w p input).side w).list
  · refine .inr ⟨⟨hsound, h.main, ?_, hmem, ?_, fun hw => ?_⟩, ?_⟩
    · unfold SuspensionThreads.worked
      rw [setSide_side_self]
      exact h.state
    · cases w with
      | suspender =>
        unfold SuspensionThreads.worked
        rw [setSide_side_self]
        exact h.mustWait
      | resumer => simpa [Side.mustWait] using List.ne_nil_of_mem hmem
    · subst hw
      unfold SuspensionThreads.worked
      rw [setSide_side_of_ne (by simp)]
      exact h.free rfl
    · unfold SuspensionThreads.worked
      rw [setSide_side_self, Side.toSearch, Side.toSearch, hat]
      dsimp only
      generalize decide ((s.side w).state = .running) = running
      split <;> cases running <;> simp [WorkerPhase.toSearch]
  · exact .inl (.inr (.inr hmem))

/-- **A step of a worker that has something to look at** is possible, and leads nearer to its next
search. -/
lemma Due.step (h : Due w process s) (input : Input π) (hphase : (s.side w).phase ≠ .searching) :
    ∃ t, s.step (.thread w input) = some t ∧ ((t.side w).Reached process ∨
      Due w process t ∧ (t.side w).toSearch < (s.side w).toSearch) := by
  have hw := h.sound w
  have hmutex : s.main.hasState w = false := by rw [h.main]; rfl
  have hmutexList : s.main.hasList w = false := by rw [h.main]; rfl
  have hnot : (s.side w).state ≠ .blocked ∧ (s.side w).state ≠ .finishing := by
    rcases h.state with hstate | hstate <;> simp [hstate]
  -- a step that only moves the worker
  have hmove : ∀ phase, s.threadStep w input = some (s.setPhase w phase) →
      phase.toSearch (decide ((s.side w).state = .running)) < (s.side w).toSearch →
      ∃ t, s.step (.thread w input) = some t ∧ ((t.side w).Reached process ∨
        Due w process t ∧ (t.side w).toSearch < (s.side w).toSearch) := by
    intro phase hst hlt
    have hsound : (s.setPhase w phase).Sound := h.sound.thread hst
    refine ⟨_, hst, .inr ⟨h.move hsound rfl rfl h.state, ?_⟩⟩
    rw [setPhase, setSide_side_self]
    exact hlt
  have hfree (hhas : (s.side w).phase.hasState = false) : s.StateFree w := ⟨hhas, hmutex⟩
  have hfreeList (hhas : (s.side w).phase.hasList = false) : s.ListFree w := ⟨hhas, hmutexList⟩
  cases hat : (s.side w).phase with
  | top =>
    refine hmove .switch ?_ ?_
    · simp [threadStep, hat, hfree (by rw [hat]; rfl)]
    · simp only [Side.toSearch, hat, WorkerPhase.toSearch]
      split <;> omega
  | switch =>
    rcases h.state with hstate | hstate
    · refine ⟨s.setPhase w .searching, ?_, .inl (.inl ?_)⟩
      · simp [SuspensionThreads.step, threadStep, hat, hstate, hfreeList (by rw [hat]; rfl)]
      · rw [setPhase, setSide_side_self]
    · refine hmove .window ?_ ?_
      · simp [threadStep, hat, hstate]
      · simp [Side.toSearch, hat, hstate, WorkerPhase.toSearch]
  | searching => exact absurd hat hphase
  | foundNone =>
    have hst : s.threadStep w input = some (s.setSide w { s.side w with
        state := .waitingProcess, phase := .bottom }) := by simp [threadStep, hat]
    refine ⟨_, hst, .inr ⟨h.move (h.sound.thread hst) rfl rfl (.inr rfl), ?_⟩⟩
    simp [Side.toSearch, hat, WorkerPhase.toSearch]
  | found p =>
    refine hmove (.busy p) ?_ ?_
    · simp [threadStep, hat]
    · simp [Side.toSearch, hat, WorkerPhase.toSearch]
  | busy p =>
    have hst : s.threadStep w input = some (s.worked w p input) := by
      simp [threadStep, hat, hfreeList (by rw [hat]; rfl)]
    exact ⟨_, hst, h.worked input hat (h.sound.thread hst)⟩
  | unlocking =>
    have hresumer : s.StateFree .resumer := by
      refine ⟨?_, by rw [h.main]; rfl⟩
      cases w with
      | suspender => exact h.free rfl
      | resumer =>
        rw [hat]
        rfl
    have hst : s.threadStep w input =
        some ((s.setSide .resumer (s.side .resumer).unlock).setPhase w .relocking) := by
      simp [threadStep, hat, SuspensionThreads.unlock, hresumer]
    have hunlocked : Due w process (s.setSide .resumer (s.side .resumer).unlock) ∧
        ((s.setSide .resumer (s.side .resumer).unlock).side w).state = (s.side w).state := by
      cases w with
      | suspender => exact ⟨h.unlock hresumer.1, by rw [setSide_side_of_ne (by simp)]⟩
      | resumer =>
        have hsame : (s.side .resumer).unlock = s.side .resumer := by simp [Side.unlock, hnot.1]
        rw [hsame, setSide_self]
        exact ⟨h, rfl⟩
    refine ⟨_, hst, .inr ⟨hunlocked.1.move (h.sound.thread hst) rfl rfl hunlocked.1.state, ?_⟩⟩
    rw [setPhase, setSide_side_self, Side.toSearch, Side.toSearch, hat]
    simp only [WorkerPhase.toSearch]
    split <;> omega
  | locking =>
    have hfrees : s.StateFree w ∧ ((s.side w).state = .waitingProcess → s.ListFree w) :=
      ⟨hfree (by rw [hat]; rfl), fun _ => hfreeList (by rw [hat]; rfl)⟩
    refine ⟨(s.setSide w (s.side w).lock).setPhase w .relocking, ?_, .inl (.inr (.inl ?_))⟩
    · rw [SuspensionThreads.step, threadStep, hat]
      dsimp only
      rw [SuspensionThreads.lock, if_pos hfrees]
      rfl
    · rw [setPhase, setSide_side_self, setSide_side_self]
      rcases h.state with hstate | hstate <;> simp [Side.lock, hstate]
  | relocking =>
    refine hmove .bottom ?_ ?_
    · simp [threadStep, hat, hfree (by rw [hat]; rfl)]
    · simp only [Side.toSearch, hat, WorkerPhase.toSearch]
      split <;> omega
  | window =>
    refine hmove .testing ?_ ?_
    · simp [threadStep, hat, hfreeList (by rw [hat]; rfl)]
    · simp [Side.toSearch, hat, WorkerPhase.toSearch]
  | testing =>
    refine hmove .reading ?_ ?_
    · simp [threadStep, hat, h.mustWait]
    · simp [Side.toSearch, hat, WorkerPhase.toSearch]
  | parked => exact absurd (hw.parked hat) (by simp [h.mustWait])
  | woken =>
    refine hmove .reading ?_ ?_
    · simp [threadStep, hat, hfreeList (by rw [hat]; rfl)]
    · simp [Side.toSearch, hat, WorkerPhase.toSearch]
  | reading =>
    have hnonempty : (s.side w).list.isEmpty = false := by
      simpa using List.ne_nil_of_mem h.mem
    refine hmove (.settling false) ?_ ?_
    · simp [threadStep, hat, hnonempty]
    · simp [Side.toSearch, hat, WorkerPhase.toSearch]
  | settling listEmpty =>
    have hst : s.threadStep w input = some (s.setSide w { s.side w with
        state := if !listEmpty && (s.side w).state = .waitingProcess then .running
          else (s.side w).state
        phase := .bottom }) := by simp [threadStep, hat, hfree (by rw [hat]; rfl)]
    refine ⟨_, hst, .inr ⟨h.move (h.sound.thread hst) rfl rfl ?_, ?_⟩⟩
    · dsimp only
      split
      · exact .inl rfl
      · exact h.state
    · rw [setSide_side_self]
      cases listEmpty <;> rcases h.state with hstate | hstate <;>
        simp [Side.toSearch, hat, hstate, WorkerPhase.toSearch]
  | parkedUnlock =>
    have hallows := hw.state
    simp [hat, WorkerPhase.allows, hnot.1] at hallows
  | wokenUnlock =>
    refine hmove .retesting ?_ ?_
    · simp [threadStep, hat, hfree (by rw [hat]; rfl)]
    · simp only [Side.toSearch, hat, WorkerPhase.toSearch]
      split <;> omega
  | retesting =>
    refine hmove .bottom ?_ ?_
    · simp [threadStep, hat, hnot.1]
    · simp only [Side.toSearch, hat, WorkerPhase.toSearch]
      split <;> omega
  | bottom =>
    refine hmove .top ?_ ?_
    · simp [threadStep, hat]
    · simp only [Side.toSearch, hat, WorkerPhase.toSearch]
      split <;> omega
  | leaving =>
    have hallows := hw.state
    simp [hat, WorkerPhase.allows, hnot.2] at hallows
  | ended =>
    have hallows := hw.state
    simp [hat, WorkerPhase.allows, hnot.2] at hallows

/-- The steps of the resumer until it lets go of its `state_mutex`, less one. -/
def WorkerPhase.toRelease : WorkerPhase π → ℕ
  | switch => 3
  | searching => 2
  | foundNone | retesting => 1
  | _ => 0

/-- The critical sections of the resumer have been left, or not; nothing else matters there. -/
def Releases (hasState : Bool) (side : Side π) (s : SuspensionThreads π) : Prop :=
  s.Sound ∧ s.main = .outside ∧ s.side .suspender = side ∧
    (s.side .resumer).phase.hasState = hasState

/-- A step of the resumer in its critical section. -/
lemma Releases.step (h : Releases true side s) (input : Input π) :
    ∃ t, s.step (.thread .resumer input) = some t ∧ (Releases false side t ∨
      Releases true side t ∧
        (t.side .resumer).phase.toRelease < (s.side .resumer).phase.toRelease) := by
  obtain ⟨hs, houtside, hsame, hlocked⟩ := h
  -- it is enough that the step is on the side of the resumer, and nearer to the end of the section
  have hmove : ∀ side', s.threadStep .resumer input = some (s.setSide .resumer side') →
      (side'.phase.hasState = true →
        side'.phase.toRelease < (s.side .resumer).phase.toRelease) →
      ∃ t, s.step (.thread .resumer input) = some t ∧ (Releases false side t ∨
        Releases true side t ∧
          (t.side .resumer).phase.toRelease < (s.side .resumer).phase.toRelease) := by
    intro side' hst hlt
    have ht : (s.setSide .resumer side').Sound := hs.thread hst
    have hother : (s.setSide .resumer side').side .suspender = side :=
      (setSide_side_of_ne (by simp)).trans hsame
    refine ⟨_, hst, ?_⟩
    cases hstill : side'.phase.hasState with
    | false => exact .inl ⟨ht, houtside, hother, by rwa [setSide_side_self]⟩
    | true =>
      refine .inr ⟨⟨ht, houtside, hother, by rwa [setSide_side_self]⟩, ?_⟩
      rw [setSide_side_self]
      exact hlt hstill
  obtain ⟨phase, hat⟩ : ∃ phase, (s.side .resumer).phase = phase := ⟨_, rfl⟩
  cases phase with
  | switch =>
    have hfree : s.ListFree .resumer := ⟨by rw [hat]; rfl, by rw [houtside]; rfl⟩
    cases hstate : (s.side .resumer).state with
    | running =>
      exact hmove _ (by simp only [threadStep, hat, hstate, if_pos hfree]; rfl)
        (fun _ => by simp [hat, WorkerPhase.toRelease])
    | waitingProcess =>
      exact hmove _ (by simp only [threadStep, hat, hstate]; rfl)
        (fun hhas => absurd hhas (by simp [WorkerPhase.hasState]))
    | blocked =>
      exact hmove _ (by simp only [threadStep, hat, hstate]; rfl)
        (fun hhas => absurd hhas (by simp [WorkerPhase.hasState]))
    | finishing =>
      exact hmove _ (by simp only [threadStep, hat, hstate]; rfl)
        (fun _ => by simp [hat, WorkerPhase.toRelease])
  | searching =>
    cases hsearch : (s.side .resumer).search input.inMemory .resumer with
    | none =>
      exact hmove _ (by simp only [threadStep, hat, searched, hsearch]; rfl)
        (fun _ => by simp [hat, WorkerPhase.toRelease])
    | some p =>
      exact hmove _ (by simp only [threadStep, hat, searched, hsearch]; rfl)
        (fun _ => by simp [hat, WorkerPhase.toRelease])
  | foundNone =>
    exact hmove _ (by simp only [threadStep, hat]; rfl)
      (fun _ => by simp [hat, WorkerPhase.toRelease])
  | found p =>
    exact hmove _ (by simp only [threadStep, hat]; rfl)
      (fun hhas => absurd hhas (by simp [WorkerPhase.hasState]))
  | retesting =>
    by_cases hstate : (s.side .resumer).state = .blocked
    · exact hmove _ (by simp only [threadStep, hat, if_pos hstate]; rfl)
        (fun hhas => absurd hhas (by simp [WorkerPhase.hasState]))
    · exact hmove _ (by simp only [threadStep, hat, if_neg hstate]; rfl)
        (fun _ => by simp [hat, WorkerPhase.toRelease])
  | bottom =>
    exact hmove _ (by simp only [threadStep, hat]; rfl)
      (fun hhas => absurd hhas (by simp [WorkerPhase.hasState]))
  | leaving =>
    exact hmove _ (by simp only [threadStep, hat]; rfl)
      (fun hhas => absurd hhas (by simp [WorkerPhase.hasState]))
  | _ =>
    rw [hat] at hlocked
    exact absurd hlocked (by simp [WorkerPhase.hasState])

/-- **The resumer leaves its critical section** by its own steps, which do nothing to the
suspender. -/
lemma exists_release (h : Releases true side s) (inputs : ℕ → Input π) :
    ∃ n ≤ 4, ∃ t, execute step s ((List.range n).map fun k => .thread .resumer (inputs k)) =
      some t ∧ Releases false side t := by
  obtain ⟨n, hn, t, ht, hgoal⟩ := @exists_execute_of_rank _ _ _ step (Releases true side)
    (Releases false side) (fun u => (u.side .resumer).phase.toRelease)
    (fun input => .thread .resumer input) (fun _ hu input => hu.step input) s h inputs
  have hle : (s.side .resumer).phase.toRelease ≤ 3 := by
    cases (s.side .resumer).phase <;> simp [WorkerPhase.toRelease]
  exact ⟨n, hn.trans (Nat.succ_le_succ hle), t, ht, hgoal⟩

/-- **No process is forgotten.** In every run of the workers, of the threads that put processes into
their lists, take them out, park the workers or wake them up, and of waits that end for no reason:
while nobody asks the workers to end, take a worker that is not parked, and a process in its list
that its last search has not passed over as having nothing in memory. Then the worker's next search
is at most 15 steps of its own away, whatever Kernel Memory answers, unless it parks itself, or the
process leaves the list, on the way; the suspender may have to let the resumer take up to four steps
first.

**Proof sketch.** A worker that waits has found nothing to look at under `list_mutex`, and is
signalled by what comes later (`Side.Sound`). So there is a next step, and each one leads nearer to
the search (`Due.step`). -/
theorem searches_of_due {ok : SuspensionThreads π → Event π → Prop} (h : Run step ok init s)
    (hmain : s.main = .outside)
    (hstate : (s.side w).state = .running ∨ (s.side w).state = .waitingProcess)
    (hmem : process ∈ (s.side w).list) (hpassed : process ∉ (s.side w).passed)
    (inputs others : ℕ → Input π) :
    ∃ m ≤ 4, ∃ n ≤ 15, ∃ t, (w = .resumer → m = 0) ∧
      execute step s (((List.range m).map fun k => .thread .resumer (others k)) ++
        (List.range n).map fun k => .thread w (inputs k)) = some t ∧
      (t.side w).Reached process := by
  have hs := sound_of_run h
  have hwait : (s.side w).mustWait w = false := by
    cases w with
    | suspender =>
      by_contra hnew
      have hold : (s.side .suspender).newProcess = false := by simpa [Side.mustWait] using hnew
      exact hpassed ((hs .suspender).passed rfl hold process hmem)
    | resumer => simpa [Side.mustWait] using List.ne_nil_of_mem hmem
  -- the search, once the resumer is in no critical section
  have hsearch : ∀ u, Due w process u → ∃ n ≤ 15, ∃ t,
      execute step u ((List.range n).map fun k => .thread w (inputs k)) = some t ∧
      (t.side w).Reached process := by
    intro u hu
    by_cases hphase : (u.side w).phase = .searching
    · exact ⟨0, by simp, u, rfl, .inl hphase⟩
    · obtain ⟨n, hn, t, ht, hgoal⟩ := @exists_execute_of_rank _ _ _ step
        (fun u => Due w process u ∧ (u.side w).phase ≠ .searching)
        (fun u => (u.side w).Reached process) (fun u => (u.side w).toSearch)
        (fun input => .thread w input)
        (fun u hu input => by
          obtain ⟨t, hst, hgoal | ⟨ht, hlt⟩⟩ := hu.1.step input hu.2
          · exact ⟨t, hst, .inl hgoal⟩
          · by_cases hthere : (t.side w).phase = .searching
            · exact ⟨t, hst, .inl (.inl hthere)⟩
            · exact ⟨t, hst, .inr ⟨⟨ht, hthere⟩, hlt⟩⟩)
        u ⟨hu, hphase⟩ inputs
      exact ⟨n, hn.trans (Nat.succ_le_succ (Side.toSearch_le _)), t, ht, hgoal⟩
  by_cases hfree : w = .suspender → (s.side .resumer).phase.hasState = false
  · obtain ⟨n, hn, t, ht, hgoal⟩ := hsearch s ⟨hs, hmain, hstate, hmem, hwait, hfree⟩
    exact ⟨0, by simp, n, hn, t, fun _ => rfl, ht, hgoal⟩
  · obtain ⟨rfl, hlocked⟩ := Classical.not_imp.1 hfree
    obtain ⟨m, hm, u, hu, husound, humain, huside, hufree⟩ :=
      exists_release ⟨hs, hmain, rfl, by simpa using hlocked⟩ others
    obtain ⟨n, hn, t, ht, hgoal⟩ := hsearch u
      ⟨husound, humain, huside ▸ hstate, huside ▸ hmem, huside ▸ hwait, fun _ => hufree⟩
    exact ⟨m, hm, n, hn, t, by simp, by rw [execute_append, hu]; exact ht, hgoal⟩

/-- The suspender has found nothing, and is on its way into the wait when a process comes. -/
def arrivingInWindow : List (Event Bool) :=
  List.replicate 6 (.thread .suspender ⟨fun _ => false, false, false⟩) ++
    [.arrive .suspender true 0]

/-- A process that arrives in the window is still found. -/
theorem searches_of_due_arrivingInWindow : ∃ s : SuspensionThreads Bool,
    (s.side .suspender).phase = .window ∧ ∀ inputs others : ℕ → Input Bool,
    ∃ m ≤ 4, ∃ n ≤ 15, ∃ t, (Worker.suspender = .resumer → m = 0) ∧
      execute step s (((List.range m).map fun k => .thread .resumer (others k)) ++
        (List.range n).map fun k => .thread .suspender (inputs k)) = some t ∧
      (t.side .suspender).Reached true := by
  have htest : (execute step init arrivingInWindow).any (fun s =>
      decide (s.main = .outside ∧ (s.side .suspender).state = .waitingProcess ∧
        (s.side .suspender).phase = .window ∧ (s.side .suspender).list = [true] ∧
        (s.side .suspender).passed = [])) = true := by decide +kernel
  obtain ⟨s, hs, htest⟩ := (Option.any_eq_true _ _).1 htest
  obtain ⟨hmain, hstate, hwindow, hlist, hpassed⟩ := of_decide_eq_true htest
  exact ⟨s, hwindow, searches_of_due (Run.of_execute hs) hmain (.inr hstate) (by simp [hlist])
    (by simp [hpassed])⟩

end

end SuspensionThreads

end OsSimulator.Scheduler
