import Mathlib.Data.List.Nodup
import Mathlib.Data.Option.Basic
import Mathlib.Logic.Function.Basic
import OsSimulator.Library.Runs
import OsSimulator.Scheduler.Pcb

set_option relaxedAutoImplicit false
set_option autoImplicit false

/-!
# The requests to the IO interfaces

The CPU threads in `handle_syscall_io_*`, the three threads of `connections/io.c`, the suspender and
the mutexes, as far as they put processes to sleep and wake them up. A step is a section under one
lock or one atomic access. Which process runs, what Kernel Memory answers and when an interface
fails are left open; the interfaces are connected.

## Main definitions

* `Io.State`, `Io.step` — the state and its steps.
* `Io.NoWakeUpLost`, `Io.FreedOnce` — what the interfaces are for.
* `Io.WakesSleeper` — the condition on a step.

## Main results

* `Io.noWakeUpLost_of_run` — no wake-up is lost in a run whose steps meet the condition.
* `Io.wakeUp_lost` — a request that is served too early, and one that comes too late.
-/

namespace OsSimulator.Scheduler.Io

/-- The types of IO. -/
inductive Interface
  | stdin
  | stdout
  | sleep
  deriving DecidableEq, Repr

/-- A request, with its own identity and its process. -/
structure Request where
  id : ℕ
  pcb : ℕ
  deriving DecidableEq, Repr

/-- Where an interface thread is. -/
inductive IoPhase
  /-- at the head of the loop of `io_thread` -/
  | waiting
  /-- with the first request of the list, which stays in the list -/
  | serving (r : Request)
  /-- in `finalize_io`, with the request taken from the list -/
  | finalizing (r : Request)
  /-- before `close_thread_io` -/
  | stopping
  /-- there, with `close_thread` set -/
  | flagged
  /-- there, with the mutex of the list -/
  | draining
  /-- there, with a request taken from the list -/
  | drainingOne (r : Request)
  /-- after it: the list is gone -/
  | closed
  deriving DecidableEq, Repr

/-- The request that the thread has taken from its list. -/
def IoPhase.inHand : IoPhase → List Request
  | finalizing r => [r]
  | drainingOne r => [r]
  | _ => []

/-- Where a CPU thread is. -/
inductive CpuIo
  | idle
  /-- with the process in EXEC -/
  | running (p : ℕ)
  /-- in `handle_syscall_io_*`, which has found the interface closed -/
  | refused (p : ℕ)
  /-- in `enqueue_io_request`, past its test of `close_thread` -/
  | enqueueing (p : ℕ) (k : Interface)
  /-- before `transition_exec_block` -/
  | enqueued (p : ℕ)
  deriving DecidableEq, Repr

/-- The process of the thread. -/
def CpuIo.process : CpuIo → Option ℕ
  | idle => none
  | running p => some p
  | refused p => some p
  | enqueueing p _ => some p
  | enqueued p => some p

/-- The state. `mutexWaiting` says who is in the waiting list of a mutex, and `accepted` and `freed`
list the requests that entered a list and those that `free_request` has freed. -/
structure State (ι : Type) where
  state : ℕ → ProcessState
  cpu : ι → CpuIo
  io : Interface → IoPhase
  list : Interface → List Request
  closeThread : Interface → Bool
  mutexWaiting : ℕ → Bool
  accepted : List Request
  freed : List Request

/-- No process yet. -/
def init (ι : Type) : State ι where
  state := fun _ => .new
  cpu := fun _ => .idle
  io := fun _ => .waiting
  list := fun _ => []
  closeThread := fun _ => false
  mutexWaiting := fun _ => false
  accepted := []
  freed := []

/-- What can happen next. -/
inductive Event (ι : Type)
  | newReady (p : ℕ)
  | readyExec (i : ι) (p : ℕ)
  | execReady (i : ι)
  | execExit (i : ι)
  | testClose (i : ι) (k : Interface)
  | addRequest (i : ι)
  | execBlock (i : ι)
  | mutexLock (i : ι)
  | mutexUnlock (p : ℕ)
  | blockSuspBlock (p : ℕ)
  | suspReady (p : ℕ)
  | serve (k : Interface)
  | finalize (k : Interface)
  | fail (k : Interface)
  | stop (k : Interface)
  | setClose (k : Interface)
  | lockList (k : Interface)
  | drain (k : Interface)
  | endDrain (k : Interface)
  | freeRequest (k : Interface)
  | closeIo (k : Interface)
  deriving DecidableEq, Repr

variable {ι : Type}

/-- The interface whose thread takes the step. -/
def Event.interface : Event ι → Option Interface
  | serve k => some k
  | finalize k => some k
  | fail k => some k
  | stop k => some k
  | setClose k => some k
  | lockList k => some k
  | drain k => some k
  | endDrain k => some k
  | freeRequest k => some k
  | _ => none

/-- `transition_unlock`. -/
def transitionUnlock : ProcessState → ProcessState
  | .block => .ready
  | .suspBlock => .suspReady
  | state => state

namespace State

/-- A process is in another state. -/
def setState (p : ℕ) (state : ProcessState) (s : State ι) : State ι :=
  { s with state := Function.update s.state p state }

/-- A CPU thread is in another phase. -/
def setCpu [DecidableEq ι] (i : ι) (phase : CpuIo) (s : State ι) : State ι :=
  { s with cpu := Function.update s.cpu i phase }

/-- An interface thread is in another phase. -/
def setIo (k : Interface) (phase : IoPhase) (s : State ι) : State ι :=
  { s with io := Function.update s.io k phase }

/-- The list of an interface changes. -/
def setList (k : Interface) (list : List Request) (s : State ι) : State ι :=
  { s with list := Function.update s.list k list }

/-- `free_request`. -/
def freeRequest (r : Request) (s : State ι) : State ι :=
  { s.setState r.pcb (transitionUnlock (s.state r.pcb)) with freed := s.freed ++ [r] }

end State

/-- One step of the system. -/
def step [DecidableEq ι] (s : State ι) : Event ι → Option (State ι)
  | .newReady p => if s.state p = .new then some (s.setState p .ready) else none
  | .readyExec i p =>
    if s.cpu i = .idle ∧ s.state p = .ready then some ((s.setState p .exec).setCpu i (.running p))
    else none
  | .execReady i =>
    match s.cpu i with
    | .running p => some ((s.setState p .ready).setCpu i .idle)
    | _ => none
  | .execExit i =>
    match s.cpu i with
    | .running p => some ((s.setState p .exit).setCpu i .idle)
    | .refused p => some ((s.setState p .exit).setCpu i .idle)
    | _ => none
  | .testClose i k =>
    match s.cpu i with
    | .running p =>
      some (if s.closeThread k then s.setCpu i (.refused p) else s.setCpu i (.enqueueing p k))
    | _ => none
  | .addRequest i =>
    match s.cpu i with
    | .enqueueing p k =>
      match s.io k with
      | .draining => none
      | .drainingOne _ => none
      | _ =>
        let r : Request := ⟨s.accepted.length, p⟩
        some (({ s with accepted := s.accepted ++ [r] }.setList k (s.list k ++ [r])).setCpu i
          (.enqueued p))
    | _ => none
  | .execBlock i =>
    match s.cpu i with
    | .enqueued p =>
      some ((if s.state p = .exec then s.setState p .block else s).setCpu i .idle)
    | _ => none
  | .mutexLock i =>
    match s.cpu i with
    | .running p =>
      some (({ s with mutexWaiting := Function.update s.mutexWaiting p true }.setState p
        .block).setCpu i .idle)
    | _ => none
  | .mutexUnlock p =>
    if s.mutexWaiting p then
      some ({ s with mutexWaiting := Function.update s.mutexWaiting p false }.setState p
        (transitionUnlock (s.state p)))
    else none
  | .blockSuspBlock p => if s.state p = .block then some (s.setState p .suspBlock) else none
  | .suspReady p => if s.state p = .suspReady then some (s.setState p .ready) else none
  | .serve k =>
    if s.io k = .waiting ∧ s.closeThread k = false then
      match s.list k with
      | r :: _ => some (s.setIo k (.serving r))
      | [] => none
    else none
  | .finalize k =>
    match s.io k with
    | .serving r => some ((s.setList k ((s.list k).erase r)).setIo k (.finalizing r))
    | _ => none
  | .fail k =>
    match s.io k with
    | .serving _ => some (s.setIo k .stopping)
    | _ => none
  | .stop k =>
    if s.io k = .waiting ∧ s.closeThread k = true then some (s.setIo k .stopping) else none
  | .setClose k =>
    if s.io k = .stopping then
      some ({ s with closeThread := Function.update s.closeThread k true }.setIo k .flagged)
    else none
  | .lockList k => if s.io k = .flagged then some (s.setIo k .draining) else none
  | .drain k =>
    if s.io k = .draining then
      match s.list k with
      | r :: rest => some ((s.setList k rest).setIo k (.drainingOne r))
      | [] => none
    else none
  | .endDrain k =>
    if s.io k = .draining ∧ s.list k = [] then some (s.setIo k .closed) else none
  | .freeRequest k =>
    match s.io k with
    | .finalizing r => some ((s.freeRequest r).setIo k .waiting)
    | .drainingOne r => some ((s.freeRequest r).setIo k .draining)
    | _ => none
  | .closeIo k => some { s with closeThread := Function.update s.closeThread k true }

/-! ## What the interfaces are for -/

/-- The process is in BLOCK or SUSP. BLOCK. -/
def Asleep (state : ProcessState) : Prop := state = .block ∨ state = .suspBlock

/-- No thread is in the middle of its steps for the process. -/
def Settled (s : State ι) (p : ℕ) : Prop :=
  (∀ i, s.cpu i ≠ .enqueued p ∧ ∀ k, s.cpu i ≠ .enqueueing p k) ∧
    ∀ k, ∀ r ∈ (s.io k).inHand, r.pcb ≠ p

/-- The requests an interface has: the one in hand, and the list. -/
def State.outstanding (s : State ι) (k : Interface) : List Request := (s.io k).inHand ++ s.list k

section Purpose

variable [DecidableEq ι]

/-- The thread of the interface gets to free the request by its own steps. -/
def WillFree (s : State ι) (k : Interface) (r : Request) : Prop :=
  ∃ events : List (Event ι), (∀ e ∈ events, e.interface = some k) ∧
    ∃ s', execute step s events = some s' ∧ r ∈ s'.freed

/-- **No wake-up is lost**: a process that sleeps has a request in the list of an interface, which
the thread of the interface gets to, or it is in the waiting list of a mutex. -/
def NoWakeUpLost (s : State ι) : Prop :=
  ∀ p, Settled s p → Asleep (s.state p) →
    (∃ k, ∃ r ∈ s.list k, r.pcb = p ∧ WillFree s k r) ∨ s.mutexWaiting p = true

/-- **Every accepted request is freed once**: it has been, or it has not been and the thread of an
interface that has it gets to it. -/
def FreedOnce (s : State ι) : Prop :=
  ∀ r ∈ s.accepted, s.freed.count r = 1 ∨
    s.freed.count r = 0 ∧ ∃ k, r ∈ s.outstanding k ∧ WillFree s k r

/-- **The condition on a step**: `free_request` finds the process asleep, and a request enters the
list of an interface that has not been closed. -/
def WakesSleeper (s : State ι) : Event ι → Prop
  | .freeRequest k => ∀ r ∈ (s.io k).inHand, Asleep (s.state r.pcb)
  | .addRequest i => ∀ p k, s.cpu i = .enqueueing p k → s.io k ≠ .closed
  | _ => True

end Purpose

/-! ## The requests that are not freed yet -/

/-- The sum over the interfaces. -/
def total (f : Interface → ℕ) : ℕ := f .stdin + f .stdout + f .sleep

/-- How many of these requests there are that meet `q`. -/
def State.countOutstanding (s : State ι) (q : Request → Bool) : ℕ :=
  total fun k => (s.outstanding k).countP q

/-- How many requests of the process there are. -/
def State.requestsOf (s : State ι) (p : ℕ) : ℕ := s.countOutstanding fun r => r.pcb == p

/-- A sum in which one summand changes. -/
lemma total_add_of_update {f g : Interface → ℕ} (k : Interface) (h : ∀ j, j ≠ k → g j = f j) :
    total g + f k = total f + g k := by
  unfold total
  cases k with
  | stdin => rw [h .stdout (by simp), h .sleep (by simp)]; omega
  | stdout => rw [h .stdin (by simp), h .sleep (by simp)]; omega
  | sleep => rw [h .stdin (by simp), h .stdout (by simp)]; omega

/-- A sum that is not zero has a summand that is not. -/
lemma exists_pos_of_total_pos {f : Interface → ℕ} (h : 0 < total f) : ∃ k, 0 < f k := by
  by_contra hnone
  have hzero : ∀ k, f k = 0 := fun k => by
    by_contra hk
    exact hnone ⟨k, Nat.pos_of_ne_zero hk⟩
  simp [total, hzero] at h

variable {s s' : State ι} {k : Interface} {p : ℕ} {q : Request → Bool} {r : Request}

/-- Only what is outstanding is counted. -/
lemma countOutstanding_congr (h : s'.outstanding = s.outstanding) :
    s'.countOutstanding q = s.countOutstanding q := by
  unfold State.countOutstanding
  rw [h]

/-- A request enters a list. -/
lemma countOutstanding_accept
    (h : s'.outstanding = Function.update s.outstanding k (s.outstanding k ++ [r])) :
    s'.countOutstanding q = s.countOutstanding q + if q r then 1 else 0 := by
  have hsum : s'.countOutstanding q + (s.outstanding k).countP q =
      s.countOutstanding q + (s'.outstanding k).countP q := by
    have hothers : ∀ j, j ≠ k → (s'.outstanding j).countP q = (s.outstanding j).countP q := by
      intro j hj
      rw [h, Function.update_of_ne hj]
    exact total_add_of_update k hothers
  rw [h, Function.update_self, List.countP_append, List.countP_singleton] at hsum
  omega

/-- The first request is freed. -/
lemma countOutstanding_free {rest : List Request} (hfirst : s.outstanding k = r :: rest)
    (h : s'.outstanding = Function.update s.outstanding k rest) :
    s.countOutstanding q = s'.countOutstanding q + if q r then 1 else 0 := by
  have hsum : s'.countOutstanding q + (s.outstanding k).countP q =
      s.countOutstanding q + (s'.outstanding k).countP q := by
    have hothers : ∀ j, j ≠ k → (s'.outstanding j).countP q = (s.outstanding j).countP q := by
      intro j hj
      rw [h, Function.update_of_ne hj]
    exact total_add_of_update k hothers
  rw [h, Function.update_self, hfirst, List.countP_cons] at hsum
  omega

/-! ## The invariant -/

/-- The request that is served is the first of the list, and a closed interface has an empty one. -/
structure InterfaceSound (s : State ι) (k : Interface) : Prop where
  serving : ∀ r, s.io k = .serving r → ∃ rest, s.list k = r :: rest
  closed : s.io k = .closed → s.list k = []

/-- Where a process is, and how many requests it has. -/
inductive ProcessSound (s : State ι) (p : ℕ) : Prop
  | inHand (i : ι) (only : ∀ j, (s.cpu j).process = some p ↔ j = i) (exec : s.state p = .exec)
      (free : s.mutexWaiting p = false)
      (requests : s.requestsOf p = if s.cpu i = .enqueued p then 1 else 0)
  | asleep (none : ∀ j, (s.cpu j).process ≠ some p) (asleep : Asleep (s.state p))
      (requests : s.requestsOf p = if s.mutexWaiting p then 0 else 1)
  | awake (none : ∀ j, (s.cpu j).process ≠ some p) (awake : ¬ Asleep (s.state p))
      (notExec : s.state p ≠ .exec) (free : s.mutexWaiting p = false)
      (requests : s.requestsOf p = 0)

/-- **The invariant.** -/
structure Sound (s : State ι) : Prop where
  interface : ∀ k, InterfaceSound s k
  process : ∀ p, ProcessSound s p
  conserved : ∀ r, s.accepted.count r = s.freed.count r + s.countOutstanding (· == r)
  fresh : ∀ r ∈ s.accepted, r.id < s.accepted.length
  nodup : s.accepted.Nodup

/-- The thread has no process but `p`. -/
def CpuIo.OnlyOf (p : ℕ) (phase : CpuIo) : Prop := ∀ p', phase.process = some p' → p' = p

/-- A step changes nothing for any process but `p`. -/
structure AgreeExcept (p : ℕ) (s s' : State ι) : Prop where
  state : ∀ p', p' ≠ p → s'.state p' = s.state p'
  cpu : ∀ i, s'.cpu i = s.cpu i ∨ (s.cpu i).OnlyOf p ∧ (s'.cpu i).OnlyOf p
  mutexWaiting : ∀ p', p' ≠ p → s'.mutexWaiting p' = s.mutexWaiting p'

/-- A process stays sound where nothing about it changes. -/
lemma ProcessSound.congr (h : ProcessSound s p) (hstate : s'.state p = s.state p)
    (hcpu : ∀ i, ((s'.cpu i).process = some p ↔ (s.cpu i).process = some p) ∧
      (s'.cpu i = .enqueued p ↔ s.cpu i = .enqueued p))
    (hmutex : s'.mutexWaiting p = s.mutexWaiting p) (hrequests : s'.requestsOf p = s.requestsOf p) :
    ProcessSound s' p := by
  cases h with
  | inHand i only exec free requests =>
    refine .inHand i (fun j => (hcpu j).1.trans (only j)) (hstate.trans exec) (hmutex.trans free) ?_
    rw [hrequests, requests]
    simp only [(hcpu i).2]
  | asleep none asleep requests =>
    refine .asleep (fun j hj => none j ((hcpu j).1.1 hj)) (hstate ▸ asleep) ?_
    rw [hrequests, requests, hmutex]
  | awake none awake notExec free requests =>
    exact .awake (fun j hj => none j ((hcpu j).1.1 hj)) (hstate ▸ awake) (hstate ▸ notExec)
      (hmutex.trans free) (hrequests.trans requests)

/-- A step that touches one process keeps the invariant when it keeps it there. -/
lemma processes_of_agree (h : ∀ p, ProcessSound s p) (hagree : AgreeExcept p s s')
    (hrequests : ∀ p', p' ≠ p → s'.requestsOf p' = s.requestsOf p') (hself : ProcessSound s' p) :
    ∀ p', ProcessSound s' p' := by
  intro p'
  by_cases hp : p' = p
  · rw [hp]
    exact hself
  · refine (h p').congr (hagree.state p' hp) (fun i => ?_) (hagree.mutexWaiting p' hp)
      (hrequests p' hp)
    rcases hagree.cpu i with heq | ⟨hbefore, hafter⟩
    · rw [heq]
      exact ⟨Iff.rfl, Iff.rfl⟩
    · refine ⟨⟨fun h' => absurd (hafter p' h') hp, fun h' => absurd (hbefore p' h') hp⟩,
        fun h' => ?_, fun h' => ?_⟩
      · exact absurd (hafter p' (by rw [h']; rfl)) hp
      · exact absurd (hbefore p' (by rw [h']; rfl)) hp

/-! ## The steps of the interfaces -/

/-- The thread of the interface `k` is in another phase, with another list. -/
structure InterfaceStep (k : Interface) (x : IoPhase) (requests : List Request) (s s' : State ι) :
    Prop where
  io : s'.io = Function.update s.io k x
  list : s'.list = Function.update s.list k requests
  serving : ∀ r, x = .serving r → ∃ rest, requests = r :: rest
  closed : x = .closed → requests = []

/-- A step of one interface keeps all of them sound. -/
lemma InterfaceStep.interfaceSound {x : IoPhase} {requests : List Request}
    (h : InterfaceStep k x requests s s') (hs : ∀ j, InterfaceSound s j) (j : Interface) :
    InterfaceSound s' j := by
  by_cases hj : j = k
  · subst hj
    refine ⟨?_, ?_⟩
    · rw [h.io, h.list, Function.update_self, Function.update_self]
      exact h.serving
    · rw [h.io, h.list, Function.update_self, Function.update_self]
      exact h.closed
  · refine ⟨?_, ?_⟩
    · rw [h.io, h.list, Function.update_of_ne hj, Function.update_of_ne hj]
      exact (hs j).serving
    · rw [h.io, h.list, Function.update_of_ne hj, Function.update_of_ne hj]
      exact (hs j).closed

/-- Only what is outstanding at that interface changes. -/
lemma InterfaceStep.outstanding {x : IoPhase} {requests : List Request}
    (h : InterfaceStep k x requests s s') :
    s'.outstanding = Function.update s.outstanding k (x.inHand ++ requests) := by
  funext j
  unfold State.outstanding
  rw [h.io, h.list]
  by_cases hj : j = k
  · subst hj
    simp
  · simp [hj]

/-- A step of an interface thread that does not free a request: the interface has the requests it
had, and the processes are not concerned. -/
structure KeepsRequests (s s' : State ι) : Prop where
  state : s'.state = s.state
  cpu : s'.cpu = s.cpu
  mutexWaiting : s'.mutexWaiting = s.mutexWaiting
  accepted : s'.accepted = s.accepted
  freed : s'.freed = s.freed

/-- A step of an interface that frees nothing keeps its requests. -/
lemma interfaceStep_of_step [DecidableEq ι] {e : Event ι} (hs : ∀ k, InterfaceSound s k)
    (h : step s e = some s') (he : e.interface = some k) (hfree : e ≠ .freeRequest k) :
    ∃ x requests, InterfaceStep k x requests s s' ∧ x.inHand ++ requests = s.outstanding k ∧
      KeepsRequests s s' := by
  have hkept : ∀ x : IoPhase, x.inHand = (s.io k).inHand →
      x.inHand ++ s.list k = s.outstanding k := fun x hx => by rw [hx, State.outstanding]
  have hlist : s.list = Function.update s.list k (s.list k) := (Function.update_eq_self _ _).symm
  cases e with
  | serve j =>
    obtain rfl : j = k := Option.some.inj he
    simp only [step] at h
    split at h
    · rename_i hcond
      split at h
      · rename_i r rest hrequests
        obtain rfl := Option.some.inj h
        exact ⟨.serving r, s.list j, ⟨rfl, hlist, fun r' hr' => ⟨rest, by
          rw [hrequests, IoPhase.serving.inj hr']⟩, by simp⟩, hkept _ (by rw [hcond.1]; rfl),
          ⟨rfl, rfl, rfl, rfl, rfl⟩⟩
      · exact absurd h (by simp)
    · exact absurd h (by simp)
  | finalize j =>
    obtain rfl : j = k := Option.some.inj he
    simp only [step] at h
    split at h
    · rename_i r hphase
      obtain ⟨rest, hrest⟩ := (hs j).serving r hphase
      obtain rfl := Option.some.inj h
      refine ⟨.finalizing r, _, ⟨rfl, rfl, by simp, by simp⟩, ?_, ⟨rfl, rfl, rfl, rfl, rfl⟩⟩
      simp [State.outstanding, hphase, hrest, IoPhase.inHand]
    · exact absurd h (by simp)
  | fail j =>
    obtain rfl : j = k := Option.some.inj he
    simp only [step] at h
    split at h
    · rename_i r hphase
      obtain rfl := Option.some.inj h
      exact ⟨.stopping, s.list j, ⟨rfl, hlist, by simp, by simp⟩, hkept _ (by rw [hphase]; rfl),
        ⟨rfl, rfl, rfl, rfl, rfl⟩⟩
    · exact absurd h (by simp)
  | stop j =>
    obtain rfl : j = k := Option.some.inj he
    simp only [step] at h
    split at h
    · rename_i hcond
      obtain rfl := Option.some.inj h
      exact ⟨.stopping, s.list j, ⟨rfl, hlist, by simp, by simp⟩, hkept _ (by rw [hcond.1]; rfl),
        ⟨rfl, rfl, rfl, rfl, rfl⟩⟩
    · exact absurd h (by simp)
  | setClose j =>
    obtain rfl : j = k := Option.some.inj he
    simp only [step] at h
    split at h
    · rename_i hphase
      obtain rfl := Option.some.inj h
      exact ⟨.flagged, s.list j, ⟨rfl, hlist, by simp, by simp⟩, hkept _ (by rw [hphase]; rfl),
        ⟨rfl, rfl, rfl, rfl, rfl⟩⟩
    · exact absurd h (by simp)
  | lockList j =>
    obtain rfl : j = k := Option.some.inj he
    simp only [step] at h
    split at h
    · rename_i hphase
      obtain rfl := Option.some.inj h
      exact ⟨.draining, s.list j, ⟨rfl, hlist, by simp, by simp⟩, hkept _ (by rw [hphase]; rfl),
        ⟨rfl, rfl, rfl, rfl, rfl⟩⟩
    · exact absurd h (by simp)
  | drain j =>
    obtain rfl : j = k := Option.some.inj he
    simp only [step] at h
    split at h
    · rename_i hphase
      split at h
      · rename_i r rest hrequests
        obtain rfl := Option.some.inj h
        refine ⟨.drainingOne r, rest, ⟨rfl, rfl, by simp, by simp⟩, ?_, ⟨rfl, rfl, rfl, rfl, rfl⟩⟩
        simp [State.outstanding, hphase, hrequests, IoPhase.inHand]
      · exact absurd h (by simp)
    · exact absurd h (by simp)
  | endDrain j =>
    obtain rfl : j = k := Option.some.inj he
    simp only [step] at h
    split at h
    · rename_i hcond
      obtain rfl := Option.some.inj h
      exact ⟨.closed, s.list j, ⟨rfl, hlist, by simp, fun _ => hcond.2⟩,
        hkept _ (by rw [hcond.1]; rfl), ⟨rfl, rfl, rfl, rfl, rfl⟩⟩
    · exact absurd h (by simp)
  | freeRequest j =>
    obtain rfl : j = k := Option.some.inj he
    exact absurd rfl hfree
  | _ => exact absurd he (by simp [Event.interface])

/-- A request is freed: it was the first one, and its process is woken up. -/
lemma interfaceStep_of_freeRequest [DecidableEq ι] (h : step s (.freeRequest k) = some s') :
    ∃ r x, (s.io k).inHand = [r] ∧ x.inHand = [] ∧ InterfaceStep k x (s.list k) s s' ∧
      s'.state = Function.update s.state r.pcb (transitionUnlock (s.state r.pcb)) ∧
      s'.cpu = s.cpu ∧ s'.mutexWaiting = s.mutexWaiting ∧ s'.accepted = s.accepted ∧
      s'.freed = s.freed ++ [r] := by
  have hlist : s.list = Function.update s.list k (s.list k) := (Function.update_eq_self _ _).symm
  simp only [step] at h
  split at h
  · rename_i r hphase
    obtain rfl := Option.some.inj h
    exact ⟨r, .waiting, by rw [hphase]; rfl, rfl, ⟨rfl, hlist, by simp, by simp⟩,
      rfl, rfl, rfl, rfl, rfl⟩
  · rename_i r hphase
    obtain rfl := Option.some.inj h
    exact ⟨r, .draining, by rw [hphase]; rfl, rfl, ⟨rfl, hlist, by simp, by simp⟩,
      rfl, rfl, rfl, rfl, rfl⟩
  · exact absurd h (by simp)

/-! ## The steps of the CPU threads and the processes -/

section Processes

variable [DecidableEq ι] {i : ι}

omit [DecidableEq ι] in
/-- A process that a thread has. -/
lemma ProcessSound.of_process (h : ProcessSound s p) (hi : (s.cpu i).process = some p) :
    (∀ j, (s.cpu j).process = some p ↔ j = i) ∧ s.state p = .exec ∧ s.mutexWaiting p = false ∧
      s.requestsOf p = if s.cpu i = .enqueued p then 1 else 0 := by
  cases h with
  | inHand j only exec free requests =>
    obtain rfl := (only i).1 hi
    exact ⟨only, exec, free, requests⟩
  | asleep none => exact absurd hi (none i)
  | awake none => exact absurd hi (none i)

omit [DecidableEq ι] in
/-- A process that sleeps. -/
lemma ProcessSound.of_asleep (h : ProcessSound s p) (hasleep : Asleep (s.state p)) :
    (∀ j, (s.cpu j).process ≠ some p) ∧ s.requestsOf p = if s.mutexWaiting p then 0 else 1 := by
  cases h with
  | inHand j only exec =>
    rw [exec] at hasleep
    exact absurd hasleep (by simp [Asleep])
  | asleep none _ requests => exact ⟨none, requests⟩
  | awake _ awake => exact absurd hasleep awake

omit [DecidableEq ι] in
/-- A process that neither sleeps nor runs. -/
lemma ProcessSound.of_awake (h : ProcessSound s p) (hawake : ¬ Asleep (s.state p))
    (hexec : s.state p ≠ .exec) :
    (∀ j, (s.cpu j).process ≠ some p) ∧ s.mutexWaiting p = false ∧ s.requestsOf p = 0 := by
  cases h with
  | inHand _ _ exec => exact absurd exec hexec
  | asleep _ asleep => exact absurd asleep hawake
  | awake none _ _ free requests => exact ⟨none, free, requests⟩

/-- A CPU thread drops its process, which is not in EXEC any more. -/
lemma only_idle {t : State ι} (hcpu : t.cpu = Function.update s.cpu i .idle)
    (honly : ∀ j, (s.cpu j).process = some p ↔ j = i) (j : ι) : (t.cpu j).process ≠ some p := by
  rw [hcpu]
  by_cases hj : j = i
  · rw [hj, Function.update_self]
    simp [CpuIo.process]
  · rw [Function.update_of_ne hj]
    exact fun h => hj ((honly j).1 h)

/-- A step of one CPU thread with one process. -/
lemma agreeExcept_of_update {x y : CpuIo} (hphase : s.cpu i = y)
    (hcpu : s'.cpu = Function.update s.cpu i x) (hy : y.OnlyOf p) (hx : x.OnlyOf p)
    (hstate : ∀ p', p' ≠ p → s'.state p' = s.state p')
    (hmutex : ∀ p', p' ≠ p → s'.mutexWaiting p' = s.mutexWaiting p') : AgreeExcept p s s' := by
  refine ⟨hstate, fun j => ?_, hmutex⟩
  by_cases hj : j = i
  · right
    rw [hj, hphase, hcpu, Function.update_self]
    exact ⟨hy, hx⟩
  · left
    rw [hcpu, Function.update_of_ne hj]

omit [DecidableEq ι] in
/-- A CPU with a process has to do with that one only. -/
lemma onlyOf_of_process {x : CpuIo} (hx : x.process = some p) : x.OnlyOf p := by
  intro p' hp'
  rw [hx] at hp'
  exact (Option.some.inj hp').symm

omit [DecidableEq ι] in
/-- An idle CPU has to do with none. -/
lemma onlyOf_idle : CpuIo.idle.OnlyOf p := fun _ h => absurd h (by simp [CpuIo.process])

/-- A process that runs outside the IO calls goes back to READY or ends. -/
lemma processes_leave (h : ∀ p, ProcessSound s p) {y : CpuIo} (hphase : s.cpu i = y)
    (hy : y.process = some p) (hne : y ≠ .enqueued p) {state : ProcessState}
    (hawake : ¬ Asleep state) (hexec : state ≠ .exec) :
    ∀ p', ProcessSound ((s.setState p state).setCpu i .idle) p' := by
  obtain ⟨only, -, hfree, hrequests⟩ := (h p).of_process (i := i) (by rw [hphase, hy])
  rw [hphase, if_neg hne] at hrequests
  refine processes_of_agree (p := p) h (agreeExcept_of_update hphase rfl (onlyOf_of_process hy)
    onlyOf_idle (fun p' hp => Function.update_of_ne hp _ _) fun _ _ => rfl) (fun _ _ => rfl) ?_
  refine .awake (only_idle (s := s) rfl only) ?_ ?_ hfree hrequests
  · simpa [State.setCpu, State.setState] using hawake
  · simpa [State.setCpu, State.setState] using hexec

omit [DecidableEq ι] in
/-- A process is woken up, or enters READY, without a CPU thread. -/
lemma processes_setState (h : ∀ p, ProcessSound s p) {t : State ι} (hcpu : t.cpu = s.cpu)
    (hstate : ∀ p', p' ≠ p → t.state p' = s.state p')
    (hmutex : ∀ p', p' ≠ p → t.mutexWaiting p' = s.mutexWaiting p')
    (hrequests : ∀ p', p' ≠ p → t.requestsOf p' = s.requestsOf p') (hself : ProcessSound t p) :
    ∀ p', ProcessSound t p' :=
  processes_of_agree h ⟨hstate, fun i => .inl (by rw [hcpu]), hmutex⟩ hrequests hself

/-- An unlock wakes a sleeper, and does not put it into EXEC. -/
lemma transitionUnlock_of_asleep {state : ProcessState} (h : Asleep state) :
    ¬ Asleep (transitionUnlock state) ∧ transitionUnlock state ≠ .exec := by
  rcases h with rfl | rfl <;> simp [transitionUnlock, Asleep]

omit [DecidableEq ι] in
/-- A step that keeps the requests and does not concern the processes. -/
lemma KeepsRequests.processes (hkeeps : KeepsRequests s s') (h : ∀ p, ProcessSound s p)
    (hrequests : ∀ p, s'.requestsOf p = s.requestsOf p) (p : ℕ) : ProcessSound s' p := by
  refine (h p).congr (by rw [hkeeps.state]) (fun i => ?_) (by rw [hkeeps.mutexWaiting]) (hrequests p)
  rw [hkeeps.cpu]
  exact ⟨Iff.rfl, Iff.rfl⟩

/-- The steps of the CPU threads and of the other threads that are not interface threads, but for
the one that adds a request. -/
lemma processes_step {e : Event ι} (h : ∀ p, ProcessSound s p) (hstep : step s e = some s')
    (hadd : ∀ i, e ≠ .addRequest i) (hother : e.interface = none) : ∀ p', ProcessSound s' p' := by
  cases e with
  | newReady p =>
    simp only [step] at hstep
    split at hstep
    · rename_i hnew
      obtain rfl := Option.some.inj hstep
      obtain ⟨hnone, hwait, hzero⟩ := (h p).of_awake (by simp [hnew, Asleep]) (by simp [hnew])
      refine processes_setState (p := p) h rfl (fun p' hp => Function.update_of_ne hp _ _)
        (fun _ _ => rfl) (fun _ _ => rfl) (.awake hnone ?_ ?_ hwait hzero)
      · simp [State.setState, Asleep]
      · simp [State.setState]
    · exact absurd hstep (by simp)
  | readyExec i p =>
    simp only [step] at hstep
    split at hstep
    · rename_i hcond
      obtain rfl := Option.some.inj hstep
      obtain ⟨hnone, hwait, hzero⟩ :=
        (h p).of_awake (by simp [hcond.2, Asleep]) (by simp [hcond.2])
      refine processes_of_agree (p := p) h (agreeExcept_of_update hcond.1 rfl onlyOf_idle
        (onlyOf_of_process rfl) (fun p' hp => Function.update_of_ne hp _ _) fun _ _ => rfl)
        (fun _ _ => rfl) ?_
      refine .inHand i (fun j => ?_) (by simp [State.setCpu, State.setState]) hwait ?_
      · show (Function.update s.cpu i (.running p) j).process = some p ↔ j = i
        by_cases hj : j = i
        · simp [hj, CpuIo.process]
        · rw [Function.update_of_ne hj]
          exact ⟨fun h' => absurd h' (hnone j), fun h' => absurd h' hj⟩
      · have hphase : ((s.setState p .exec).setCpu i (.running p)).cpu i ≠ .enqueued p := by
          simp [State.setCpu]
        rw [if_neg hphase]
        exact hzero
    · exact absurd hstep (by simp)
  | execReady i =>
    simp only [step] at hstep
    split at hstep
    · rename_i p hphase
      obtain rfl := Option.some.inj hstep
      exact processes_leave h hphase rfl (by simp) (by simp [Asleep]) (by simp)
    · exact absurd hstep (by simp)
  | execExit i =>
    simp only [step] at hstep
    split at hstep
    · rename_i p hphase
      obtain rfl := Option.some.inj hstep
      exact processes_leave h hphase rfl (by simp) (by simp [Asleep]) (by simp)
    · rename_i p hphase
      obtain rfl := Option.some.inj hstep
      exact processes_leave h hphase rfl (by simp) (by simp [Asleep]) (by simp)
    · exact absurd hstep (by simp)
  | testClose i k =>
    simp only [step] at hstep
    split at hstep
    · rename_i p hphase
      obtain ⟨x, hx, hne, rfl⟩ : ∃ x : CpuIo, x.process = some p ∧ x ≠ .enqueued p ∧
          s.setCpu i x = s' := by
        obtain rfl := Option.some.inj hstep
        split
        · exact ⟨_, rfl, by simp, rfl⟩
        · exact ⟨_, rfl, by simp, rfl⟩
      obtain ⟨only, hexec, hwait, hzero⟩ := (h p).of_process (i := i) (by rw [hphase]; rfl)
      rw [hphase, if_neg (by simp)] at hzero
      refine processes_of_agree (p := p) h (agreeExcept_of_update hphase rfl (onlyOf_of_process rfl)
        (onlyOf_of_process hx) (fun _ _ => rfl) fun _ _ => rfl) (fun _ _ => rfl) ?_
      refine .inHand i (fun j => ?_) hexec hwait ?_
      · show (Function.update s.cpu i x j).process = some p ↔ j = i
        by_cases hj : j = i
        · simp [hj, hx]
        · rw [Function.update_of_ne hj]
          exact only j
      · have hphase' : (s.setCpu i x).cpu i ≠ .enqueued p := by simpa [State.setCpu] using hne
        rw [if_neg hphase']
        exact hzero
    · exact absurd hstep (by simp)
  | addRequest i => exact absurd rfl (hadd i)
  | execBlock i =>
    simp only [step] at hstep
    split at hstep
    · rename_i p hphase
      obtain ⟨only, hexec, hwait, hone⟩ := (h p).of_process (i := i) (by rw [hphase]; rfl)
      rw [hphase, if_pos rfl] at hone
      rw [if_pos hexec] at hstep
      obtain rfl := Option.some.inj hstep
      refine processes_of_agree (p := p) h (agreeExcept_of_update hphase rfl (onlyOf_of_process rfl)
        onlyOf_idle (fun p' hp => Function.update_of_ne hp _ _) fun _ _ => rfl) (fun _ _ => rfl) ?_
      refine .asleep (only_idle (s := s) rfl only) ?_ ?_
      · simp [State.setCpu, State.setState, Asleep]
      · rw [if_neg (by simpa [State.setCpu, State.setState] using hwait)]
        exact hone
    · exact absurd hstep (by simp)
  | mutexLock i =>
    simp only [step] at hstep
    split at hstep
    · rename_i p hphase
      obtain ⟨only, hexec, hwait, hzero⟩ := (h p).of_process (i := i) (by rw [hphase]; rfl)
      rw [hphase, if_neg (by simp)] at hzero
      obtain rfl := Option.some.inj hstep
      refine processes_of_agree (p := p) h (agreeExcept_of_update hphase rfl (onlyOf_of_process rfl)
        onlyOf_idle (fun p' hp => Function.update_of_ne hp _ _)
        fun p' hp => Function.update_of_ne hp _ _) (fun _ _ => rfl) ?_
      refine .asleep (only_idle (s := s) rfl only) ?_ ?_
      · simp [State.setCpu, State.setState, Asleep]
      · rw [if_pos (by simp [State.setCpu, State.setState])]
        exact hzero
    · exact absurd hstep (by simp)
  | mutexUnlock p =>
    simp only [step] at hstep
    split at hstep
    · rename_i hwait
      obtain rfl := Option.some.inj hstep
      have hasleep : Asleep (s.state p) := by
        cases h p with
        | inHand _ _ _ free => simp [hwait] at free
        | asleep _ asleep => exact asleep
        | awake _ _ _ free => simp [hwait] at free
      obtain ⟨hnone, hzero⟩ := (h p).of_asleep hasleep
      rw [if_pos hwait] at hzero
      obtain ⟨hawake, hexec⟩ := transitionUnlock_of_asleep hasleep
      refine processes_setState (p := p) h rfl (fun p' hp => Function.update_of_ne hp _ _)
        (fun p' hp => Function.update_of_ne hp _ _) (fun _ _ => rfl)
        (.awake hnone ?_ ?_ ?_ hzero)
      · simpa [State.setState] using hawake
      · simpa [State.setState] using hexec
      · simp [State.setState]
    · exact absurd hstep (by simp)
  | blockSuspBlock p =>
    simp only [step] at hstep
    split at hstep
    · rename_i hblock
      obtain rfl := Option.some.inj hstep
      obtain ⟨hnone, hcount⟩ := (h p).of_asleep (.inl hblock)
      refine processes_setState (p := p) h rfl (fun p' hp => Function.update_of_ne hp _ _)
        (fun _ _ => rfl) (fun _ _ => rfl) (.asleep hnone ?_ hcount)
      simp [State.setState, Asleep]
    · exact absurd hstep (by simp)
  | suspReady p =>
    simp only [step] at hstep
    split at hstep
    · rename_i hready
      obtain rfl := Option.some.inj hstep
      obtain ⟨hnone, hwait, hzero⟩ := (h p).of_awake (by simp [hready, Asleep]) (by simp [hready])
      refine processes_setState (p := p) h rfl (fun p' hp => Function.update_of_ne hp _ _)
        (fun _ _ => rfl) (fun _ _ => rfl) (.awake hnone ?_ ?_ hwait hzero)
      · simp [State.setState, Asleep]
      · simp [State.setState]
    · exact absurd hstep (by simp)
  | closeIo k =>
    obtain rfl := Option.some.inj hstep
    exact fun p' => (h p').congr rfl (fun _ => ⟨Iff.rfl, Iff.rfl⟩) rfl rfl
  | _ => exact absurd hother (by simp [Event.interface])

/-- These steps leave the interfaces alone. -/
lemma requests_of_step {e : Event ι} (h : step s e = some s') (hadd : ∀ i, e ≠ .addRequest i)
    (hother : e.interface = none) :
    s'.io = s.io ∧ s'.list = s.list ∧ s'.accepted = s.accepted ∧ s'.freed = s.freed := by
  cases e with
  | addRequest i => exact absurd rfl (hadd i)
  | serve k => exact absurd hother (by simp [Event.interface])
  | finalize k => exact absurd hother (by simp [Event.interface])
  | fail k => exact absurd hother (by simp [Event.interface])
  | stop k => exact absurd hother (by simp [Event.interface])
  | setClose k => exact absurd hother (by simp [Event.interface])
  | lockList k => exact absurd hother (by simp [Event.interface])
  | drain k => exact absurd hother (by simp [Event.interface])
  | endDrain k => exact absurd hother (by simp [Event.interface])
  | freeRequest k => exact absurd hother (by simp [Event.interface])
  | _ =>
    simp only [step] at h
    repeat' split at h
    all_goals first
      | (obtain rfl := Option.some.inj h
         exact ⟨rfl, rfl, rfl, rfl⟩)
      | exact absurd h (by simp)

/-- The step that adds a request. -/
lemma addRequest_spec (h : step s (.addRequest i) = some s') :
    ∃ p k, s.cpu i = .enqueueing p k ∧
      s' = (State.setList k (s.list k ++ [⟨s.accepted.length, p⟩])
        { s with accepted := s.accepted ++ [⟨s.accepted.length, p⟩] }).setCpu i (.enqueued p) := by
  simp only [step] at h
  split at h
  · rename_i p k hphase
    split at h
    · exact absurd h (by simp)
    · exact absurd h (by simp)
    · exact ⟨p, k, hphase, (Option.some.inj h).symm⟩
  · exact absurd h (by simp)

end Processes

/-! ## The steps keep the invariant -/

section Steps

variable [DecidableEq ι]

omit [DecidableEq ι] in
/-- The requests stay what they are. -/
lemma Sound.of_outstanding_eq (h : Sound s) (hinterface : ∀ k, InterfaceSound s' k)
    (hprocess : ∀ p, ProcessSound s' p) (hout : s'.outstanding = s.outstanding)
    (haccepted : s'.accepted = s.accepted) (hfreed : s'.freed = s.freed) : Sound s' := by
  refine ⟨hinterface, hprocess, fun r => ?_, ?_, ?_⟩
  · rw [haccepted, hfreed, countOutstanding_congr hout]
    exact h.conserved r
  · rw [haccepted]
    exact h.fresh
  · rw [haccepted]
    exact h.nodup

/-- The invariant is kept when a request is added to a list. -/
lemma sound_addRequest (h : Sound s) {i : ι} (hok : WakesSleeper s (.addRequest i))
    (hstep : step s (.addRequest i) = some s') : Sound s' := by
  obtain ⟨p, k, hphase, hs'⟩ := addRequest_spec hstep
  set r : Request := ⟨s.accepted.length, p⟩ with hr
  have hopen : s.io k ≠ .closed := hok p k hphase
  have hcpu : s'.cpu = Function.update s.cpu i (.enqueued p) := by rw [hs']; rfl
  have hlist : s'.list = Function.update s.list k (s.list k ++ [r]) := by rw [hs']; rfl
  have hio : s'.io = s.io := by rw [hs']; rfl
  have hstate : s'.state = s.state := by rw [hs']; rfl
  have hmutex : s'.mutexWaiting = s.mutexWaiting := by rw [hs']; rfl
  have haccepted : s'.accepted = s.accepted ++ [r] := by rw [hs']; rfl
  have hfreed : s'.freed = s.freed := by rw [hs']; rfl
  have hout : s'.outstanding = Function.update s.outstanding k (s.outstanding k ++ [r]) := by
    funext j
    unfold State.outstanding
    rw [hio, hlist]
    by_cases hj : j = k
    · subst hj
      simp
    · simp [hj]
  have hfresh : r ∉ s.accepted := fun hmem => absurd (h.fresh r hmem) (by simp [hr])
  obtain ⟨only, hexec, hwait, hzero⟩ := (h.process p).of_process (i := i) (by rw [hphase]; rfl)
  rw [hphase, if_neg (by simp)] at hzero
  refine ⟨fun j => ?_, ?_, fun r' => ?_, fun r' hr' => ?_, ?_⟩
  · by_cases hj : j = k
    · subst hj
      refine ⟨fun r' hserving => ?_, fun hclosed => absurd (hio ▸ hclosed) hopen⟩
      rw [hio] at hserving
      obtain ⟨rest, hrest⟩ := (h.interface j).serving r' hserving
      exact ⟨rest ++ [r], by rw [hlist, Function.update_self, hrest, List.cons_append]⟩
    · refine ⟨?_, ?_⟩
      · rw [hio, hlist, Function.update_of_ne hj]
        exact (h.interface j).serving
      · rw [hio, hlist, Function.update_of_ne hj]
        exact (h.interface j).closed
  · refine processes_of_agree (p := p) h.process (agreeExcept_of_update hphase hcpu
      (onlyOf_of_process rfl) (onlyOf_of_process rfl) (fun p' _ => by rw [hstate])
      fun p' _ => by rw [hmutex]) (fun p' hp => ?_) ?_
    · have hne : ((r.pcb == p') = false) := by simpa [hr] using Ne.symm hp
      unfold State.requestsOf
      rw [countOutstanding_accept hout, hne]
      rfl
    · refine .inHand i (fun j => ?_) (by rw [hstate]; exact hexec) (by rw [hmutex]; exact hwait) ?_
      · rw [hcpu]
        by_cases hj : j = i
        · simp [hj, CpuIo.process]
        · rw [Function.update_of_ne hj]
          exact only j
      · rw [hcpu, Function.update_self, if_pos rfl]
        unfold State.requestsOf at hzero ⊢
        rw [countOutstanding_accept hout, hzero]
        simp [hr]
  · rw [haccepted, hfreed, countOutstanding_accept hout, List.count_append, h.conserved r',
      List.count_singleton]
    omega
  · rw [haccepted] at hr' ⊢
    rw [List.length_append, List.length_singleton]
    rcases List.mem_append.1 hr' with hold | hnew
    · exact Nat.lt_succ_of_lt (h.fresh r' hold)
    · obtain rfl := List.mem_singleton.1 hnew
      exact Nat.lt_succ_self _
  · rw [haccepted]
    exact List.nodup_append.2 ⟨h.nodup, by simp, fun a ha b hb hab => hfresh (by
      obtain rfl := List.mem_singleton.1 hb
      exact hab ▸ ha)⟩

/-- The invariant is kept when a request is freed. -/
lemma sound_freeRequest (h : Sound s) (hok : WakesSleeper s (.freeRequest k))
    (hstep : step s (.freeRequest k) = some s') : Sound s' := by
  obtain ⟨r, x, hhand, hx, hinterface, hstate, hcpu, hmutex, haccepted, hfreed⟩ :=
    interfaceStep_of_freeRequest hstep
  have hasleep : Asleep (s.state r.pcb) := hok r (by rw [hhand]; exact List.mem_singleton_self r)
  have hfirst : s.outstanding k = r :: s.list k := by rw [State.outstanding, hhand]; rfl
  have hout : s'.outstanding = Function.update s.outstanding k (s.list k) := by
    rw [hinterface.outstanding, hx]
    rfl
  obtain ⟨hnone, hone⟩ := (h.process r.pcb).of_asleep hasleep
  have hcount : s.requestsOf r.pcb = s'.requestsOf r.pcb + 1 := by
    unfold State.requestsOf
    rw [countOutstanding_free hfirst hout]
    simp
  have hwait : s.mutexWaiting r.pcb = false := by
    cases hw : s.mutexWaiting r.pcb with
    | false => rfl
    | true =>
      rw [hw] at hone
      simp at hone
      omega
  rw [hwait] at hone
  obtain ⟨hawake, hexec⟩ := transitionUnlock_of_asleep hasleep
  refine ⟨hinterface.interfaceSound h.interface, ?_, fun r' => ?_, ?_, ?_⟩
  · refine processes_setState (p := r.pcb) h.process hcpu (fun p' hp => ?_)
      (fun p' _ => by rw [hmutex]) (fun p' hp => ?_) ?_
    · rw [hstate, Function.update_of_ne hp]
    · have hne : ((r.pcb == p') = false) := by simpa using Ne.symm hp
      unfold State.requestsOf
      rw [countOutstanding_free hfirst hout, hne]
      rfl
    · refine .awake (fun j => by rw [hcpu]; exact hnone j) ?_ ?_ (by rw [hmutex]; exact hwait) ?_
      · rw [hstate, Function.update_self]
        exact hawake
      · rw [hstate, Function.update_self]
        exact hexec
      · simp at hone
        omega
  · rw [haccepted, hfreed, h.conserved r', countOutstanding_free hfirst hout, List.count_append,
      List.count_singleton]
    omega
  · rw [haccepted]
    exact h.fresh
  · rw [haccepted]
    exact h.nodup

/-- **Every step that meets the condition keeps the invariant.** -/
lemma sound_step {e : Event ι} (h : Sound s) (hok : WakesSleeper s e)
    (hstep : step s e = some s') : Sound s' := by
  cases hthread : e.interface with
  | some k =>
    by_cases hfree : e = .freeRequest k
    · subst hfree
      exact sound_freeRequest h hok hstep
    · obtain ⟨x, requests, hinterface, hsame, hkeeps⟩ :=
        interfaceStep_of_step h.interface hstep hthread hfree
      have hout : s'.outstanding = s.outstanding := by
        rw [hinterface.outstanding, hsame, Function.update_eq_self]
      exact h.of_outstanding_eq (hinterface.interfaceSound h.interface)
        (hkeeps.processes h.process fun p => countOutstanding_congr hout) hout hkeeps.accepted
        hkeeps.freed
  | none =>
    by_cases hadd : ∃ i, e = .addRequest i
    · obtain ⟨i, rfl⟩ := hadd
      exact sound_addRequest h hok hstep
    · have hprocess := processes_step h.process hstep (fun i hi => hadd ⟨i, hi⟩) hthread
      obtain ⟨hio, hlist, haccepted, hfreed⟩ :=
        requests_of_step hstep (fun i hi => hadd ⟨i, hi⟩) hthread
      have hout : s'.outstanding = s.outstanding := by
        funext k
        unfold State.outstanding
        rw [hio, hlist]
      refine h.of_outstanding_eq (fun k => ⟨?_, ?_⟩) hprocess hout haccepted hfreed
      · rw [hio, hlist]
        exact (h.interface k).serving
      · rw [hio, hlist]
        exact (h.interface k).closed

end Steps

/-! ## The interface threads get on -/

section Progress

variable [DecidableEq ι] {s s' : State ι} {k : Interface} {r : Request}

/-- A step of the thread, and then the rest. -/
lemma WillFree.step {e : Event ι} (hstep : step s e = some s') (he : e.interface = some k)
    (h : WillFree s' k r) : WillFree s k r := by
  obtain ⟨events, hevents, t, ht, hr⟩ := h
  refine ⟨e :: events, fun e' he' => ?_, t, ?_, hr⟩
  · rcases List.mem_cons.1 he' with rfl | he'
    · exact he
    · exact hevents e' he'
  · rw [execute, hstep]
    exact ht

/-- What is freed stays so. -/
lemma willFree_of_mem_freed (h : r ∈ s.freed) : WillFree s k r :=
  ⟨[], by simp, s, rfl, h⟩

/-- The thread drains the list. -/
lemma willFree_of_draining (hphase : s.io k = .draining) (hr : r ∈ s.list k) : WillFree s k r := by
  induction hlist : s.list k generalizing s with
  | nil =>
    rw [hlist] at hr
    exact absurd hr (by simp)
  | cons first rest ih =>
    have htake : step s (.drain k) =
        some ((s.setList k rest).setIo k (.drainingOne first)) := by
      simp [step, hphase, hlist]
    set t := (s.setList k rest).setIo k (.drainingOne first) with ht
    have hphase' : t.io k = .drainingOne first := by simp [ht, State.setIo]
    have hfree : step t (.freeRequest k) = some ((t.freeRequest first).setIo k .draining) := by
      simp [step, hphase']
    refine WillFree.step htake rfl (WillFree.step hfree rfl ?_)
    rw [hlist] at hr
    rcases List.mem_cons.1 hr with rfl | hr
    · exact willFree_of_mem_freed (by simp [State.setIo, State.freeRequest])
    · have hlist' : ((t.freeRequest first).setIo k .draining).list k = rest := by
        simp [ht, State.setIo, State.setList, State.freeRequest, State.setState]
      exact ih (by simp [State.setIo]) (by rw [hlist']; exact hr) hlist'

/-- The thread closes the interface, and drains the list. -/
lemma willFree_of_stopping (hphase : s.io k = .stopping ∨ s.io k = .flagged) (hr : r ∈ s.list k) :
    WillFree s k r := by
  have hflagged : ∀ t : State ι, t.io k = .flagged → r ∈ t.list k → WillFree t k r := by
    intro t ht hmem
    have hlock : step t (.lockList k) = some (t.setIo k .draining) := by simp [step, ht]
    exact WillFree.step hlock rfl (willFree_of_draining (by simp [State.setIo]) hmem)
  rcases hphase with hphase | hphase
  · have hset : step s (.setClose k) = some (State.setIo k .flagged
        { s with closeThread := Function.update s.closeThread k true }) := by simp [step, hphase]
    exact WillFree.step hset rfl (hflagged _ (by simp [State.setIo]) hr)
  · exact hflagged s hphase hr

/-- The thread serves one request after another, or closes the interface. -/
lemma willFree_of_waiting (hphase : s.io k = .waiting) (hr : r ∈ s.list k) : WillFree s k r := by
  induction hlist : s.list k generalizing s with
  | nil =>
    rw [hlist] at hr
    exact absurd hr (by simp)
  | cons first rest ih =>
    cases hclose : s.closeThread k with
    | true =>
      have hstop : step s (.stop k) = some (s.setIo k .stopping) := by simp [step, hphase, hclose]
      exact WillFree.step hstop rfl (willFree_of_stopping (.inl (by simp [State.setIo])) hr)
    | false =>
      have hserve : step s (.serve k) = some (s.setIo k (.serving first)) := by
        simp [step, hphase, hclose, hlist]
      set t := s.setIo k (.serving first) with ht
      have hserving : t.io k = .serving first := by simp [ht, State.setIo]
      have hlist' : t.list k = first :: rest := hlist
      have hfinalize : step t (.finalize k) =
          some ((t.setList k rest).setIo k (.finalizing first)) := by
        simp [step, hserving, hlist']
      set u := (t.setList k rest).setIo k (.finalizing first) with hu
      have hfinalizing : u.io k = .finalizing first := by simp [hu, State.setIo]
      have hfree : step u (.freeRequest k) = some ((u.freeRequest first).setIo k .waiting) := by
        simp [step, hfinalizing]
      refine WillFree.step hserve rfl (WillFree.step hfinalize rfl (WillFree.step hfree rfl ?_))
      rw [hlist] at hr
      rcases List.mem_cons.1 hr with rfl | hr
      · exact willFree_of_mem_freed (by simp [State.setIo, State.freeRequest])
      · have hrest : ((u.freeRequest first).setIo k .waiting).list k = rest := by
          simp [hu, State.setIo, State.setList, State.freeRequest, State.setState]
        exact ih (by simp [State.setIo]) (by rw [hrest]; exact hr) hrest

/-- The thread with a request in hand frees it, and goes on. -/
lemma willFree_of_finalizing (first : Request) (hphase : s.io k = .finalizing first)
    (hr : r = first ∨ r ∈ s.list k) : WillFree s k r := by
  have hfree : step s (.freeRequest k) = some ((s.freeRequest first).setIo k .waiting) := by
    simp [step, hphase]
  refine WillFree.step hfree rfl ?_
  rcases hr with rfl | hr
  · exact willFree_of_mem_freed (by simp [State.setIo, State.freeRequest])
  · exact willFree_of_waiting (by simp [State.setIo]) hr

/-- The device that drains its list frees all of it. -/
lemma willFree_of_drainingOne {first : Request} (hphase : s.io k = .drainingOne first)
    (hr : r = first ∨ r ∈ s.list k) : WillFree s k r := by
  have hfree : step s (.freeRequest k) = some ((s.freeRequest first).setIo k .draining) := by
    simp [step, hphase]
  refine WillFree.step hfree rfl ?_
  rcases hr with rfl | hr
  · exact willFree_of_mem_freed (by simp [State.setIo, State.freeRequest])
  · exact willFree_of_draining (by simp [State.setIo]) hr

/-- **A thread gets to every request its interface has.** -/
lemma willFree_of_mem_outstanding (hs : InterfaceSound s k) (hr : r ∈ s.outstanding k) :
    WillFree s k r := by
  cases hphase : s.io k with
  | finalizing first =>
    exact willFree_of_finalizing _ hphase (by simpa [State.outstanding, hphase, IoPhase.inHand] using hr)
  | drainingOne first =>
    exact willFree_of_drainingOne hphase (by simpa [State.outstanding, hphase, IoPhase.inHand] using hr)
  | serving first =>
    have hmem : r ∈ s.list k := by simpa [State.outstanding, hphase, IoPhase.inHand] using hr
    obtain ⟨rest, hrest⟩ := hs.serving first hphase
    have hfinalize : step s (.finalize k) =
        some ((s.setList k rest).setIo k (.finalizing first)) := by
      simp [step, hphase, hrest]
    refine WillFree.step hfinalize rfl (willFree_of_finalizing first ?_ ?_)
    · simp [State.setIo]
    · rw [hrest] at hmem
      simpa [State.setIo, State.setList] using hmem
  | closed =>
    rw [State.outstanding, hphase, hs.closed hphase] at hr
    exact absurd hr (by simp [IoPhase.inHand])
  | waiting =>
    exact willFree_of_waiting hphase (by simpa [State.outstanding, hphase, IoPhase.inHand] using hr)
  | stopping =>
    exact willFree_of_stopping (.inl hphase)
      (by simpa [State.outstanding, hphase, IoPhase.inHand] using hr)
  | flagged =>
    exact willFree_of_stopping (.inr hphase)
      (by simpa [State.outstanding, hphase, IoPhase.inHand] using hr)
  | draining =>
    exact willFree_of_draining hphase (by simpa [State.outstanding, hphase, IoPhase.inHand] using hr)

/-- A closed interface frees nothing any more. -/
lemma not_willFree_of_closed (hphase : s.io k = .closed) (hr : r ∉ s.freed) : ¬ WillFree s k r := by
  rintro ⟨events, hevents, t, ht, hmem⟩
  cases events with
  | nil =>
    obtain rfl := Option.some.inj ht
    exact hr hmem
  | cons e rest =>
    have he := hevents e List.mem_cons_self
    have hnone : step s e = none := by
      cases e with
      | serve j => obtain rfl := Option.some.inj he; simp [step, hphase]
      | finalize j => obtain rfl := Option.some.inj he; simp [step, hphase]
      | fail j => obtain rfl := Option.some.inj he; simp [step, hphase]
      | stop j => obtain rfl := Option.some.inj he; simp [step, hphase]
      | setClose j => obtain rfl := Option.some.inj he; simp [step, hphase]
      | lockList j => obtain rfl := Option.some.inj he; simp [step, hphase]
      | drain j => obtain rfl := Option.some.inj he; simp [step, hphase]
      | endDrain j => obtain rfl := Option.some.inj he; simp [step, hphase]
      | freeRequest j => obtain rfl := Option.some.inj he; simp [step, hphase]
      | _ => exact absurd he (by simp [Event.interface])
    rw [execute, hnone] at ht
    exact absurd ht (by simp)

end Progress

/-! ## The runs -/

section Runs

variable [DecidableEq ι] {s : State ι}

/-- The invariant holds at the start. -/
lemma sound_init (ι : Type) : Sound (init ι) := by
  refine ⟨fun k => ⟨by simp [init], by simp [init]⟩, fun p => ?_, fun r => ?_, ?_, ?_⟩
  · refine .awake (fun i => ?_) ?_ ?_ rfl rfl
    · simp [init, CpuIo.process]
    · simp [init, Asleep]
    · simp [init]
  · simp [init, State.countOutstanding, State.outstanding, total, IoPhase.inHand]
  · simp [init]
  · simp [init]

/-- **No wake-up is lost, and every accepted request is freed once, in a run whose steps meet the
condition**, with any number of CPU threads and processes. -/
theorem noWakeUpLost_of_run (h : Run step WakesSleeper (init ι) s) :
    NoWakeUpLost s ∧ FreedOnce s := by
  have hsound : Sound s := h.invariant (sound_init ι) fun _ _ _ ht hok hst => sound_step ht hok hst
  refine ⟨fun p hsettled hasleep => ?_, fun r hr => ?_⟩
  · obtain ⟨-, hcount⟩ := (hsound.process p).of_asleep hasleep
    cases hwait : s.mutexWaiting p with
    | true => exact .inr rfl
    | false =>
      -- there is a request, and it is not in hand
      left
      rw [hwait] at hcount
      obtain ⟨k, hk⟩ := exists_pos_of_total_pos (f := fun k =>
        (s.outstanding k).countP fun r => r.pcb == p) (by
          show 0 < s.requestsOf p
          rw [hcount]
          simp)
      obtain ⟨r, hr, hpcb⟩ := List.countP_pos_iff.1 hk
      have hpcb : r.pcb = p := by simpa using hpcb
      refine ⟨k, r, ?_, hpcb, willFree_of_mem_outstanding (hsound.interface k) hr⟩
      rcases List.mem_append.1 hr with hhand | hlist
      · exact absurd hpcb (hsettled.2 k r hhand)
      · exact hlist
  · have hone : s.accepted.count r = 1 := List.count_eq_one_of_mem hsound.nodup hr
    have hsum := hsound.conserved r
    rw [hone] at hsum
    by_cases hfreed : s.freed.count r = 1
    · exact .inl hfreed
    · right
      have hpos : 0 < s.countOutstanding (· == r) := by omega
      obtain ⟨k, hk⟩ := exists_pos_of_total_pos hpos
      obtain ⟨r', hr', heq⟩ := List.countP_pos_iff.1 hk
      obtain rfl : r' = r := by simpa using heq
      exact ⟨by omega, k, hr', willFree_of_mem_outstanding (hsound.interface k) hr'⟩

end Runs

/-- A process asks for an IO and is suspended, and then the interface serves its request. -/
theorem noWakeUpLost_of_run_sleep :
    ∃ s : State (Fin 1), Reachable step (init (Fin 1)) s ∧ s.state 0 = .suspReady ∧
      s.freed = [⟨0, 0⟩] ∧ NoWakeUpLost s ∧ FreedOnce s := by
  have hrun : ((execute step (init (Fin 1))
      [.newReady 0, .readyExec 0 0, .testClose 0 .sleep]).bind fun t =>
        (step t (.addRequest 0)).bind fun u =>
          (execute step u [.execBlock 0, .blockSuspBlock 0, .serve .sleep, .finalize .sleep]).bind
            fun v => (step v (.freeRequest .sleep)).map fun s =>
              ((t.cpu 0, t.io .sleep), ((v.io .sleep).inHand, v.state 0), s.state 0, s.freed)) =
      some ((.enqueueing 0 .sleep, .waiting), ([⟨0, 0⟩], .suspBlock), .suspReady, [⟨0, 0⟩]) := by
    decide
  obtain ⟨t, ht, hrest⟩ := Option.bind_eq_some_iff.1 hrun
  obtain ⟨u, hu, hrest⟩ := Option.bind_eq_some_iff.1 hrest
  obtain ⟨v, hv, hrest⟩ := Option.bind_eq_some_iff.1 hrest
  obtain ⟨s, hs, heq⟩ := Option.map_eq_some_iff.1 hrest
  simp only [Prod.mk.injEq] at heq
  obtain ⟨⟨hcpu, hio⟩, ⟨hhand, hasleep⟩, hready, hfreed⟩ := heq
  have hfirst : Run step WakesSleeper (init (Fin 1)) t := by
    refine Run.of_execute_of_forall ht fun e he _ => ?_
    cases e with
    | addRequest i => exact absurd he (by simp)
    | freeRequest k => exact absurd he (by simp)
    | _ => trivial
  have hadd : WakesSleeper t (.addRequest 0) := by
    intro p k hk
    rw [hcpu] at hk
    obtain ⟨-, rfl⟩ := CpuIo.enqueueing.inj hk
    simp [hio]
  have hsecond : Run step WakesSleeper u v := by
    refine Run.of_execute_of_forall hv fun e he _ => ?_
    cases e with
    | addRequest i => exact absurd he (by simp)
    | freeRequest k => exact absurd he (by simp)
    | _ => trivial
  have hfree : WakesSleeper v (.freeRequest .sleep) := by
    intro r hr
    rw [hhand] at hr
    obtain rfl := List.mem_singleton.1 hr
    exact .inr hasleep
  have hwhole := ((hfirst.tail _ hadd hu).trans hsecond).tail _ hfree hs
  exact ⟨s, hwhole.reachable, hready, hfreed, noWakeUpLost_of_run hwhole⟩

/-- **A request that is served too early, and one that comes too late.** A process is in EXEC when
its request is freed, and goes to BLOCK after that. Another one finds the interface open, and its
request enters the list when the thread is gone. -/
theorem wakeUp_lost :
    (∃ s : State (Fin 1), Reachable step (init (Fin 1)) s ∧ ¬ NoWakeUpLost s) ∧
      ∃ s : State (Fin 2), Reachable step (init (Fin 2)) s ∧ ¬ FreedOnce s := by
  constructor
  · have hrun : (execute step (init (Fin 1)) [.newReady 0, .readyExec 0 0, .testClose 0 .sleep,
        .addRequest 0, .serve .sleep, .finalize .sleep, .freeRequest .sleep, .execBlock 0]).map
        (fun s => ((s.state 0, s.cpu 0, s.mutexWaiting 0),
          [Interface.stdin, .stdout, .sleep].map s.outstanding)) =
        some ((.block, .idle, false), [[], [], []]) := by decide
    obtain ⟨s, hs, heq⟩ := Option.map_eq_some_iff.1 hrun
    simp only [Prod.mk.injEq, List.map_cons, List.map_nil, List.cons.injEq, and_true] at heq
    obtain ⟨⟨hblock, hcpu, hwait⟩, hstdin, hstdout, hsleep⟩ := heq
    have hnone : ∀ k, s.outstanding k = [] := by
      intro k
      cases k
      · exact hstdin
      · exact hstdout
      · exact hsleep
    refine ⟨s, Run.of_execute hs, fun hkept => ?_⟩
    have hsettled : Settled s 0 := by
      refine ⟨fun i => ?_, fun k r hr => ?_⟩
      · obtain rfl : i = 0 := Subsingleton.elim _ _
        simp [hcpu]
      · exact absurd (List.mem_append_left _ hr) (by rw [← State.outstanding, hnone k]; simp)
    rcases hkept 0 hsettled (.inl hblock) with ⟨k, r, hr, -⟩ | hmutex
    · exact absurd (List.mem_append_right _ hr) (by rw [← State.outstanding, hnone k]; simp)
    · rw [hwait] at hmutex
      exact absurd hmutex (by simp)
  · have hrun : (execute step (init (Fin 2)) [.newReady 0, .newReady 1, .readyExec 0 0,
        .readyExec 1 1, .testClose 0 .sleep, .testClose 1 .sleep, .addRequest 0, .execBlock 0,
        .serve .sleep, .fail .sleep, .setClose .sleep, .lockList .sleep, .drain .sleep,
        .freeRequest .sleep, .endDrain .sleep, .addRequest 1]).map
        (fun s => ((s.accepted, s.freed, s.io .sleep), s.outstanding .stdin, s.outstanding .stdout)) =
        some (([⟨0, 0⟩, ⟨1, 1⟩], [⟨0, 0⟩], .closed), [], []) := by decide
    obtain ⟨s, hs, heq⟩ := Option.map_eq_some_iff.1 hrun
    simp only [Prod.mk.injEq] at heq
    obtain ⟨⟨haccepted, hfreed, hclosed⟩, hstdin, hstdout⟩ := heq
    refine ⟨s, Run.of_execute hs, fun honce => ?_⟩
    rcases honce ⟨1, 1⟩ (by rw [haccepted]; decide) with hfreed' | ⟨-, k, hmem, hwill⟩
    · rw [hfreed] at hfreed'
      exact absurd hfreed' (by decide)
    · cases k with
      | stdin => exact absurd hmem (by rw [hstdin]; simp)
      | stdout => exact absurd hmem (by rw [hstdout]; simp)
      | sleep => exact not_willFree_of_closed hclosed (by rw [hfreed]; decide) hwill

end OsSimulator.Scheduler.Io
