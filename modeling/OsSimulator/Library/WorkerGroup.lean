import Mathlib.Data.List.Basic
import Mathlib.Logic.Function.Basic
import OsSimulator.Library.Ranks
import OsSimulator.Library.Runs

set_option relaxedAutoImplicit false
set_option autoImplicit false

/-!
# A listener and its threads

A listener accepts connections, enters each in a list and starts a detached thread for it. A thread
that has ended takes its connection out of the list, and signals a condition when the list is empty.
To close, the listener shuts every listed connection down, waits until the list is empty, and gives
the list, the condition and the mutex back; whoever waits for the listener then gives back the data
that the threads share. Nobody joins a thread: that nothing is used after it has been given back
rests on the order of these steps alone.

## Main definitions

* `Job` — what a thread does with its connection.
* `WorkerGroup`, `WorkerGroup.step` — the listener with its threads, and one step of one of them.
* `WorkerGroup.uses` — what a step works on.
* `WorkerGroup.Sound` — the invariant.

## Main results

* `WorkerGroup.Sound.step` — every step keeps the invariant.
* `WorkerGroup.Sound.live_of_uses` — a step works on nothing that has been given back.
* `WorkerGroup.Sound.exists_end` — a listener that closes is not held up for good.
* `WorkerGroup.Sound.countP_threadStep_le` — it closes within a bounded number of steps.
-/

namespace OsSimulator

/-- What a thread does with its connection: the data it begins with, what arrives on the connection,
and a turn of its own, which depends on a choice and on whether the connection has been shut down.
A turn is blocked, or leaves the loop, or goes on. -/
structure Job (Input Choice Data : Type) where
  start : Data
  arrive : Input → Data → Data
  turn : Choice → Bool → Data → Option (Option Data)

/-- Where a thread is: there is none; in its loop; before the mutex, and with it at the list and at
the condition; and behind it, with its connection and then only with its record. -/
inductive MemberPhase (Data : Type)
  | absent
  | working (data : Data)
  | leaving
  | removing
  | signalling
  | destroying
  | freeing
  deriving DecidableEq

/-- Where the listener is: between two connections; at work on a new one, until it has a thread or
is turned away; closing, with the listed connections that are still to be shut down; at the test of
the list, in the wait, or woken up without the mutex; and giving back what it has. -/
inductive ListenPhase (ι : Type)
  | accepting
  | greeting (i : ι)
  | registering (i : ι)
  | adding (i : ι)
  | spawning (i : ι)
  | unlisting (i : ι)
  | removing (i : ι)
  | discarding (i : ι)
  | rejecting (i : ι)
  | closing
  | shutting (rest : List ι)
  | testing
  | parked
  | woken
  | destroyingList
  | destroyingCond
  | destroyingMutex
  | finished
  | released
  deriving DecidableEq

/-- What can be given back: a connection, the record of its thread, the list with its condition and
its mutex, and the data that the threads share. -/
inductive Resource (ι : Type)
  | socket (i : ι)
  | record (i : ι)
  | list
  | cond
  | mutex
  | shared
  deriving DecidableEq

/-- Who can have the mutex. -/
inductive Owner (ι : Type)
  | listener
  | worker (i : ι)
  deriving DecidableEq

namespace MemberPhase

variable {Data : Type}

/-- The connection of the thread is in the list. -/
def isListed : MemberPhase Data → Bool
  | working _ | leaving | removing => true
  | _ => false

/-- The member has the mutex. -/
def hasMutex : MemberPhase Data → Bool
  | removing | signalling => true
  | _ => false

/-- Its socket is open. -/
def hasSocket : MemberPhase Data → Bool
  | absent | freeing => false
  | _ => true

/-- Its record is not freed. -/
def hasRecord : MemberPhase Data → Bool
  | absent => false
  | _ => true

/-- The thread will not look at the list any more. -/
def isOut : MemberPhase Data → Bool
  | absent | destroying | freeing => true
  | _ => false

end MemberPhase

namespace ListenPhase

variable {ι : Type}

/-- The connection that the listener is at work on. -/
def connection : ListenPhase ι → Option ι
  | greeting i | registering i | adding i | spawning i | unlisting i | removing i | discarding i
  | rejecting i => some i
  | _ => none

/-- The connection that it has listed. -/
def listed : ListenPhase ι → Option ι
  | spawning i | unlisting i | removing i => some i
  | _ => none

/-- The connection that it has a record for. -/
def record : ListenPhase ι → Option ι
  | registering i | adding i | spawning i | unlisting i | removing i | discarding i => some i
  | _ => none

/-- The listener has the mutex. -/
def hasMutex : ListenPhase ι → Bool
  | adding _ | removing _ | shutting _ | testing => true
  | _ => false

/-- The listed connections that are still to be shut down, once there are no new ones. -/
def toShut : ListenPhase ι → Option (List ι)
  | shutting rest => some rest
  | testing | parked | woken | destroyingList | destroyingCond | destroyingMutex | finished
  | released => some []
  | _ => none

/-- The listener has found the list empty. -/
def isOver : ListenPhase ι → Bool
  | destroyingList | destroyingCond | destroyingMutex | finished | released => true
  | _ => false

/-- The list of the members exists. -/
def hasList : ListenPhase ι → Bool
  | destroyingCond | destroyingMutex | finished | released => false
  | _ => true

/-- The condition exists. -/
def hasCond : ListenPhase ι → Bool
  | destroyingMutex | finished | released => false
  | _ => true

/-- The mutex exists. -/
def hasMutexObject : ListenPhase ι → Bool
  | finished | released => false
  | _ => true

/-- The listener does not accept connections any more. -/
def isClosing : ListenPhase ι → Bool
  | closing => true
  | phase => phase.toShut.isSome

/-- The steps that a listener that closes has in front of it, with so many listed connections. -/
def rank (listed : ℕ) : ListenPhase ι → ℕ
  | finished => 1
  | destroyingMutex => 2
  | destroyingCond => 3
  | destroyingList => 4
  | parked => 5
  | testing => 6
  | woken => 7
  | shutting rest => rest.length + 7
  | closing => listed + 8
  | _ => 0

end ListenPhase

/-- The listener with its threads. `mutex` says who has it, `shut` which connections have been shut
down, and `live` what there is and has not been given back. -/
structure WorkerGroup (ι Data : Type) where
  listener : ListenPhase ι
  worker : ι → MemberPhase Data
  list : List ι
  mutex : Option (Owner ι)
  shut : ι → Bool
  live : Resource ι → Bool

namespace WorkerGroup

variable {ι Input Choice Data : Type}

/-- There is no connection yet. -/
def init : WorkerGroup ι Data where
  listener := .accepting
  worker := fun _ => .absent
  list := []
  mutex := none
  shut := fun _ => false
  live
    | .socket _ | .record _ => false
    | .list | .cond | .mutex | .shared => true

/-- What can happen: a connection is accepted, or none will be any more; the greeting of a new
connection and the start of its thread succeed or fail; another step of the listener; a step of a
thread; something that arrives; and a waiter that wakes up though nobody has signalled. -/
inductive Action (ι Input Choice : Type)
  | accept (i : Option ι)
  | greeted (ok : Bool)
  | spawned (ok : Bool)
  | listener
  | worker (i : ι) (choice : Choice)
  | arrive (i : ι) (input : Input)
  | spurious

/-- A step of a thread or of a listener that closes. -/
def Action.isThreadStep : Action ι Input Choice → Bool
  | .listener | .worker _ _ => true
  | _ => false

/-- A wake-up without a signal. -/
def Action.isSpurious : Action ι Input Choice → Bool
  | .spurious => true
  | _ => false

section Definitions

variable [DecidableEq ι]

/-- The thread goes on elsewhere. -/
def setWorker (i : ι) (phase : MemberPhase Data) (s : WorkerGroup ι Data) : WorkerGroup ι Data :=
  { s with worker := Function.update s.worker i phase }

/-- Something is made, or given back. -/
def setLive (r : Resource ι) (live : Bool) (s : WorkerGroup ι Data) : WorkerGroup ι Data :=
  { s with live := Function.update s.live r live }

/-- The listener takes the mutex. -/
def lock (next : ListenPhase ι) (s : WorkerGroup ι Data) : Option (WorkerGroup ι Data) :=
  if s.mutex = none then some { s with listener := next, mutex := some .listener } else none

/-- A step of the listener that depends on nothing else. -/
def listenerStep (s : WorkerGroup ι Data) : Option (WorkerGroup ι Data) :=
  match s.listener with
  | .registering i => s.lock (.adding i)
  | .adding i => some { s with listener := .spawning i, list := s.list ++ [i], mutex := none }
  | .unlisting i => s.lock (.removing i)
  | .removing i => some { s with listener := .discarding i, list := s.list.erase i, mutex := none }
  | .discarding i => some { s.setLive (.record i) false with listener := .rejecting i }
  | .rejecting i => some { s.setLive (.socket i) false with listener := .accepting }
  | .closing => s.lock (.shutting s.list)
  | .shutting (i :: rest) =>
    some { s with listener := .shutting rest, shut := Function.update s.shut i true }
  | .shutting [] => some { s with listener := .testing }
  | .testing =>
    some { s with listener := if s.list = [] then .destroyingList else .parked, mutex := none }
  | .woken => s.lock .testing
  | .destroyingList => some { s.setLive .list false with listener := .destroyingCond }
  | .destroyingCond => some { s.setLive .cond false with listener := .destroyingMutex }
  | .destroyingMutex => some { s.setLive .mutex false with listener := .finished }
  | .finished => some { s.setLive .shared false with listener := .released }
  | _ => none

/-- A step of a thread. -/
def workerStep (job : Job Input Choice Data) (i : ι) (choice : Choice) (s : WorkerGroup ι Data) :
    Option (WorkerGroup ι Data) :=
  match s.worker i with
  | .absent => none
  | .working data =>
    (job.turn choice (s.shut i) data).map fun next =>
      s.setWorker i (next.elim .leaving .working)
  | .leaving =>
    if s.mutex = none then some { s.setWorker i .removing with mutex := some (.worker i) } else none
  | .removing => some { s.setWorker i .signalling with list := s.list.erase i }
  | .signalling => some
    { s.setWorker i .destroying with
      mutex := none
      listener := if s.list = [] ∧ s.listener = .parked then .woken else s.listener }
  | .destroying => some ((s.setWorker i .freeing).setLive (.socket i) false)
  | .freeing => some ((s.setWorker i .absent).setLive (.record i) false)

/-- One step. A connection gets an address that is not in use. -/
def step (job : Job Input Choice Data) (s : WorkerGroup ι Data) :
    Action ι Input Choice → Option (WorkerGroup ι Data)
  | .accept connection =>
    match s.listener, connection with
    | .accepting, none => some { s with listener := .closing }
    | .accepting, some i =>
      if s.live (.socket i) ∨ s.live (.record i) then none
      else some
        { s.setLive (.socket i) true with
          listener := .greeting i
          shut := Function.update s.shut i false }
    | _, _ => none
  | .greeted ok =>
    match s.listener with
    | .greeting i =>
      if ok then some { s.setLive (.record i) true with listener := .registering i }
      else some { s with listener := .rejecting i }
    | _ => none
  | .spawned ok =>
    match s.listener with
    | .spawning i =>
      if ok then some { s.setWorker i (.working job.start) with listener := .accepting }
      else some { s with listener := .unlisting i }
    | _ => none
  | .listener => s.listenerStep
  | .worker i choice => s.workerStep job i choice
  | .arrive i input =>
    match s.worker i with
    | .working data =>
      if s.shut i then none else some (s.setWorker i (.working (job.arrive input data)))
    | _ => none
  | .spurious => if s.listener = .parked then some { s with listener := .woken } else none

end Definitions

/-! ## What a step works on -/

/-- What a step of the listener works on. -/
def listenerUses (s : WorkerGroup ι Data) : List (Resource ι) :=
  match s.listener with
  | .accepting => [.shared]
  | .greeting i => [.socket i, .shared]
  | .registering _ | .unlisting _ | .closing => [.mutex]
  | .adding i | .removing i => [.list, .record i, .mutex]
  | .spawning i | .discarding i => [.record i]
  | .rejecting i => [.socket i]
  | .shutting [] => [.list]
  | .shutting (i :: _) => [.list, .record i, .socket i]
  | .testing | .woken => [.list, .cond, .mutex]
  | .parked => [.cond, .mutex]
  | .destroyingList => [.list]
  | .destroyingCond => [.cond]
  | .destroyingMutex => [.mutex]
  | .finished => [.shared]
  | .released => []

/-- What a step of a thread works on. -/
def workerUses (i : ι) (s : WorkerGroup ι Data) : List (Resource ι) :=
  match s.worker i with
  | .absent => []
  | .working _ => [.record i, .socket i, .shared]
  | .leaving => [.record i, .mutex]
  | .removing => [.record i, .list]
  | .signalling => [.record i, .list, .cond, .mutex]
  | .destroying => [.record i, .socket i]
  | .freeing => [.record i]

/-- What a step works on, what it gives back among it. -/
def uses (s : WorkerGroup ι Data) : Action ι Input Choice → List (Resource ι)
  | .accept _ | .greeted _ | .spawned _ | .listener | .spurious => s.listenerUses
  | .worker i _ => s.workerUses i
  | .arrive i _ => [.socket i]

/-! ## The invariant -/

/-- Who has the mutex, by where everyone is. -/
def Holds (s : WorkerGroup ι Data) : Owner ι → Prop
  | .listener => s.listener.hasMutex = true
  | .worker i => (s.worker i).hasMutex = true

/-- What there is, by where everyone is. -/
def Exists (s : WorkerGroup ι Data) : Resource ι → Prop
  | .socket i => (s.worker i).hasSocket = true ∨ s.listener.connection = some i
  | .record i => (s.worker i).hasRecord = true ∨ s.listener.record = some i
  | .list => s.listener.hasList = true
  | .cond => s.listener.hasCond = true
  | .mutex => s.listener.hasMutexObject = true
  | .shared => s.listener ≠ .released

/-- **The invariant**: the mutex and everything else is with those who are where they have it; the
list has the connections of the threads in their loops and the one the listener has put there; a
connection that the listener is at work on has no thread; once the list has been found empty no
thread comes back to it; a listener that closes has shut down all that is listed, or is about to;
and one that waits will be woken up. -/
structure Sound (s : WorkerGroup ι Data) : Prop where
  mutex : ∀ owner, s.Holds owner ↔ s.mutex = some owner
  live : ∀ r, s.live r = true ↔ s.Exists r
  new : ∀ i, s.listener.connection = some i → s.worker i = .absent
  nodup : s.list.Nodup
  listed : ∀ i, i ∈ s.list ↔ (s.worker i).isListed = true ∨ s.listener.listed = some i
  finished : s.listener.isOver = true → ∀ i, (s.worker i).isOut = true
  shut : ∀ rest, s.listener.toShut = some rest →
    (∀ i ∈ s.list, s.shut i = true ∨ i ∈ rest) ∧ ∀ i ∈ rest, i ∈ s.list
  wake : s.listener = .parked → s.list = [] → ∃ i, s.worker i = .signalling

/-! ## How far it is to the end -/

/-- The steps that a thread has in front of it, where `rank` says how long it stays in its loop, and
those that it may cause. -/
def workerRank (rank : Data → ℕ) : MemberPhase Data → ℕ
  | .absent => 0
  | .freeing => 1
  | .destroying => 2
  | .signalling => 5
  | .removing => 6
  | .leaving => 7
  | .working data => rank data + 8

/-- The steps of all together. -/
def closingRank [Fintype ι] (rank : Data → ℕ) (s : WorkerGroup ι Data) : ℕ :=
  s.listener.rank s.list.length + threadRank (workerRank rank) s.worker

/-- Once its connection has been shut down a thread is not blocked for good, and it leaves its
loop. -/
structure Ends (job : Job Input Choice Data) (rank : Data → ℕ) : Prop where
  goes : ∀ data, ∃ choice, (job.turn choice true data).isSome = true
  leaves : ∀ choice data data', job.turn choice true data = some (some data') →
    rank data' < rank data

/-! ## Every step keeps it -/

attribute [local grind] MemberPhase.isListed MemberPhase.hasMutex MemberPhase.hasSocket
  MemberPhase.hasRecord MemberPhase.isOut ListenPhase.connection ListenPhase.listed
  ListenPhase.record ListenPhase.hasMutex ListenPhase.toShut ListenPhase.isOver
  ListenPhase.hasList ListenPhase.hasCond ListenPhase.hasMutexObject
attribute [local grind =] Function.update_apply

section Steps

variable {s t : WorkerGroup ι Data} {i : ι} {next : ListenPhase ι} {phase : MemberPhase Data}

/-- The invariant holds at the start. -/
lemma sound_init : Sound (init : WorkerGroup ι Data) where
  mutex owner := by
    cases owner <;> simp [init, Holds, MemberPhase.hasMutex, ListenPhase.hasMutex]
  live r := by
    cases r <;> simp [init, Exists, MemberPhase.hasSocket, MemberPhase.hasRecord,
      ListenPhase.connection, ListenPhase.record, ListenPhase.hasList, ListenPhase.hasCond,
      ListenPhase.hasMutexObject]
  new _ _ := rfl
  nodup := List.nodup_nil
  listed i := by grind [init]
  finished hover := by grind [init]
  shut rest hrest := by grind [init]
  wake hparked := by grind [init]

/-- The listener goes on without the list and without the mutex: it may make something, or give it
back. -/
lemma Sound.moves {live : Resource ι → Bool} (h : Sound s)
    (hmutex : next.hasMutex = s.listener.hasMutex)
    (hlisted : next.listed = s.listener.listed)
    (hphase : (∀ i, next.connection = some i → s.listener.connection = some i) ∧
      (next.isOver = true → s.listener.isOver = true) ∧
      (∀ rest, next.toShut = some rest → s.listener.toShut = some rest) ∧ next ≠ .parked)
    (hlive : ∀ r, live r = true ↔ Exists { s with listener := next } r) :
    Sound { s with listener := next, live := live } where
  mutex owner := by
    rw [← h.mutex owner]
    cases owner with
    | listener => simp only [Holds, hmutex]
    | worker i => exact Iff.rfl
  live r := by
    rw [hlive r]
    cases r <;> exact Iff.rfl
  new i hi := h.new i (hphase.1 i hi)
  nodup := h.nodup
  listed i := by rw [hlisted, h.listed i]
  finished hover := h.finished (hphase.2.1 hover)
  shut rest hrest := h.shut rest (hphase.2.2.1 rest hrest)
  wake hparked := absurd hparked hphase.2.2.2

/-- The listener gets a mutex that is free. -/
lemma lock_eq_some (hst : s.lock next = some t) :
    s.mutex = none ∧ t = { s with listener := next, mutex := some .listener } := by
  unfold lock at hst
  split at hst
  · rename_i hfree
    exact ⟨hfree, (Option.some.inj hst).symm⟩
  · exact absurd hst (by simp)

/-- The listener takes the mutex. -/
lemma Sound.locks (h : Sound s) (hfree : s.mutex = none)
    (hphase : (∃ i, s.listener = .registering i ∧ next = .adding i) ∨
      (∃ i, s.listener = .unlisting i ∧ next = .removing i) ∨
      s.listener = .closing ∧ next = .shutting s.list ∨ s.listener = .woken ∧ next = .testing) :
    Sound { s with listener := next, mutex := some .listener } where
  mutex owner := by
    have := h.mutex owner
    cases owner <;> grind [Holds]
  live r := by
    have := h.live r
    cases r <;> grind [Exists]
  new j := by
    have := h.new j
    grind
  nodup := h.nodup
  listed j := by
    have := h.listed j
    grind
  finished hover := by grind
  shut rest hrest := by
    have := h.shut rest
    grind
  wake hparked := by grind

/-- The listener tests the list. -/
lemma Sound.tests (h : Sound s) (hphase : s.listener = .testing) :
    Sound { s with
      listener := if s.list = [] then .destroyingList else .parked
      mutex := none } where
  mutex owner := by
    have := h.mutex owner
    have := h.mutex .listener
    cases owner <;> grind [Holds]
  live r := by
    have := h.live r
    cases r <;> grind [Exists]
  new j := by grind
  nodup := h.nodup
  listed j := by
    have := h.listed j
    grind
  finished hover j := by
    -- with the mutex of the listener no thread is at the list or at the condition
    have := h.listed j
    have := h.mutex (.worker j)
    have := h.mutex .listener
    cases hworker : s.worker j <;> grind [Holds]
  shut rest hrest := by
    have := h.shut rest
    grind
  wake hparked := by grind

variable [DecidableEq ι]

/-- The listener goes on, and makes something or gives it back. -/
lemma Sound.changes {r : Resource ι} {live : Bool} (h : Sound s)
    (hmutex : next.hasMutex = s.listener.hasMutex)
    (hlisted : next.listed = s.listener.listed)
    (hphase : (∀ i, next.connection = some i → s.listener.connection = some i) ∧
      (next.isOver = true → s.listener.isOver = true) ∧
      (∀ rest, next.toShut = some rest → s.listener.toShut = some rest) ∧ next ≠ .parked)
    (hlive : ∀ r', (if r' = r then live = true else s.Exists r') ↔
      Exists { s with listener := next } r') :
    Sound { s.setLive r live with listener := next } := by
  refine @Sound.moves _ _ s next (Function.update s.live r live) h hmutex hlisted hphase
    fun r' => ?_
  rw [← hlive r', Function.update_apply]
  split
  · exact Iff.rfl
  · exact h.live r'

/-- The listener enters a connection in the list. -/
lemma Sound.adds (h : Sound s) (hphase : s.listener = .adding i) :
    Sound { s with listener := .spawning i, list := s.list ++ [i], mutex := none } where
  mutex owner := by
    have := h.mutex owner
    have := h.mutex .listener
    cases owner <;> grind [Holds]
  live r := by
    have := h.live r
    cases r <;> grind [Exists]
  new j := by
    have := h.new j
    grind
  nodup := by
    have := h.nodup
    have := h.listed i
    have := h.new i
    grind
  listed j := by
    have := h.listed j
    grind
  finished hover := by grind
  shut rest hrest := by grind
  wake hparked := by grind

/-- The listener takes a connection without a thread out of the list. -/
lemma Sound.takesOut (h : Sound s) (hphase : s.listener = .removing i) :
    Sound { s with listener := .discarding i, list := s.list.erase i, mutex := none } where
  mutex owner := by
    have := h.mutex owner
    have := h.mutex .listener
    cases owner <;> grind [Holds]
  live r := by
    have := h.live r
    cases r <;> grind [Exists]
  new j := by
    have := h.new j
    grind
  nodup := h.nodup.erase i
  listed j := by
    have := h.listed j
    have := h.new i
    have := h.nodup.mem_erase_iff (a := j) (b := i)
    grind
  finished hover := by grind
  shut rest hrest := by grind
  wake hparked := by grind

/-- The listener shuts a connection down. -/
lemma Sound.shuts {rest : List ι} (h : Sound s) (hphase : s.listener = .shutting (i :: rest)) :
    Sound { s with
      listener := .shutting rest
      shut := Function.update s.shut i true } where
  mutex owner := by
    have := h.mutex owner
    cases owner <;> grind [Holds]
  live r := by
    have := h.live r
    cases r <;> grind [Exists]
  new j := by grind
  nodup := h.nodup
  listed j := by
    have := h.listed j
    grind
  finished hover := by grind
  shut rest' hrest := by
    have := h.shut (i :: rest)
    grind
  wake hparked := by grind

/-- A connection is accepted at an address that is not in use. -/
lemma Sound.accepts (h : Sound s) (hphase : s.listener = .accepting)
    (hfree : ¬ (s.live (.socket i) ∨ s.live (.record i))) :
    Sound { s with
      listener := .greeting i
      shut := Function.update s.shut i false
      live := Function.update s.live (.socket i) true } where
  mutex owner := by
    have := h.mutex owner
    cases owner <;> grind [Holds]
  live r := by
    have := h.live r
    cases r <;> grind [Exists]
  new j hj := by
    have := h.live (.record j)
    grind [Exists]
  nodup := h.nodup
  listed j := by
    have := h.listed j
    grind
  finished hover := by grind
  shut rest hrest := by grind
  wake hparked := by grind

/-- A new thread begins. -/
lemma Sound.spawns {data : Data} (h : Sound s) (hphase : s.listener = .spawning i) :
    Sound { s with
      listener := .accepting
      worker := Function.update s.worker i (.working data) } where
  mutex owner := by
    have := h.mutex owner
    have := h.new
    cases owner <;> grind [Holds]
  live r := by
    have := h.live r
    have := h.new
    cases r <;> grind [Exists]
  new j hj := by grind
  nodup := h.nodup
  listed j := by
    have := h.listed j
    grind
  finished hover := by grind
  shut rest hrest := by grind
  wake hparked := by grind

/-- A thread goes on in its loop, or leaves it. -/
lemma Sound.works {data : Data} (h : Sound s) (hphase : s.worker i = .working data)
    (hnext : phase = .leaving ∨ ∃ data', phase = .working data') :
    Sound { s with worker := Function.update s.worker i phase } where
  mutex owner := by
    have := h.mutex owner
    cases owner <;> grind [Holds]
  live r := by
    have := h.live r
    cases r <;> grind [Exists]
  new j hj := by
    have := h.new j
    grind
  nodup := h.nodup
  listed j := by
    have := h.listed j
    grind
  finished hover j := by
    have := h.finished
    grind
  shut rest hrest := h.shut rest hrest
  wake hparked hempty := by
    have := h.listed i
    grind

/-- A thread takes the mutex. -/
lemma Sound.worker_locks (h : Sound s) (hphase : s.worker i = .leaving) (hfree : s.mutex = none) :
    Sound { s with
      worker := Function.update s.worker i .removing
      mutex := some (.worker i) } where
  mutex owner := by
    have := h.mutex owner
    cases owner <;> grind [Holds]
  live r := by
    have := h.live r
    cases r <;> grind [Exists]
  new j hj := by
    have := h.new j
    grind
  nodup := h.nodup
  listed j := by
    have := h.listed j
    grind
  finished hover j := by
    have := h.finished
    grind
  shut rest hrest := h.shut rest hrest
  wake hparked hempty := by
    have := h.listed i
    grind

/-- A thread takes its connection out of the list. -/
lemma Sound.worker_removes (h : Sound s) (hphase : s.worker i = .removing) :
    Sound { s with
      worker := Function.update s.worker i .signalling
      list := s.list.erase i } where
  mutex owner := by
    have := h.mutex owner
    cases owner <;> grind [Holds]
  live r := by
    have := h.live r
    cases r <;> grind [Exists]
  new j hj := by
    have := h.new j
    grind
  nodup := h.nodup.erase i
  listed j := by
    have := h.listed j
    have := h.new i
    have := h.nodup.mem_erase_iff (a := j) (b := i)
    cases hlistener : s.listener <;> grind
  finished hover j := by
    have := h.finished
    grind
  shut rest hrest := by
    -- a thread with the mutex is not there while the listener shuts connections down
    have := h.shut rest hrest
    have := h.mutex (.worker i)
    have := h.mutex .listener
    cases hlistener : s.listener <;> grind [Holds]
  wake _ _ := ⟨i, Function.update_self ..⟩

/-- A thread signals the condition if the list is empty. -/
lemma Sound.worker_signals (h : Sound s) (hphase : s.worker i = .signalling) :
    Sound { s with
      worker := Function.update s.worker i .destroying
      mutex := none
      listener := if s.list = [] ∧ s.listener = .parked then .woken else s.listener } where
  mutex owner := by
    have := h.mutex owner
    have := h.mutex (.worker i)
    cases owner <;> grind [Holds]
  live r := by
    have := h.live r
    cases r <;> grind [Exists]
  new j hj := by
    have := h.new j
    grind
  nodup := h.nodup
  listed j := by
    have := h.listed j
    grind
  finished hover j := by
    have := h.finished
    grind
  shut rest hrest := by
    have := h.shut rest
    grind
  wake hparked hempty := by grind

/-- A thread gives its connection back. -/
lemma Sound.worker_destroys (h : Sound s) (hphase : s.worker i = .destroying) :
    Sound { s with
      worker := Function.update s.worker i .freeing
      live := Function.update s.live (.socket i) false } where
  mutex owner := by
    have := h.mutex owner
    cases owner <;> grind [Holds]
  live r := by
    have := h.live r
    have := h.new i
    cases r <;> grind [Exists]
  new j hj := by
    have := h.new j
    grind
  nodup := h.nodup
  listed j := by
    have := h.listed j
    grind
  finished hover j := by
    have := h.finished
    grind
  shut rest hrest := h.shut rest hrest
  wake hparked hempty := by
    obtain ⟨j, hj⟩ := h.wake hparked hempty
    exact ⟨j, by grind⟩

/-- A thread gives its record back, and is no more. -/
lemma Sound.worker_frees (h : Sound s) (hphase : s.worker i = .freeing) :
    Sound { s with
      worker := Function.update s.worker i .absent
      live := Function.update s.live (.record i) false } where
  mutex owner := by
    have := h.mutex owner
    cases owner <;> grind [Holds]
  live r := by
    have := h.live r
    have := h.new i
    cases hlistener : s.listener <;> cases r <;> grind [Exists]
  new j hj := by
    have := h.new j
    grind
  nodup := h.nodup
  listed j := by
    have := h.listed j
    grind
  finished hover j := by
    have := h.finished
    grind
  shut rest hrest := h.shut rest hrest
  wake hparked hempty := by
    obtain ⟨j, hj⟩ := h.wake hparked hempty
    exact ⟨j, by grind⟩

/-- **A step of the listener** that depends on nothing else. -/
lemma Sound.listenerStep (h : Sound s) (hst : s.listenerStep = some t) : Sound t := by
  have hlive := h.live
  have hnew := h.new
  unfold WorkerGroup.listenerStep at hst
  split at hst
  case h_1 i hphase =>
    obtain ⟨hfree, rfl⟩ := lock_eq_some hst
    exact h.locks hfree (.inl ⟨i, hphase, rfl⟩)
  case h_2 i hphase => exact Option.some.inj hst ▸ h.adds hphase
  case h_3 i hphase =>
    obtain ⟨hfree, rfl⟩ := lock_eq_some hst
    exact h.locks hfree (.inr (.inl ⟨i, hphase, rfl⟩))
  case h_4 i hphase => exact Option.some.inj hst ▸ h.takesOut hphase
  case h_5 i hphase =>
    refine Option.some.inj hst ▸ h.changes (by grind) (by grind) (by grind) fun r => ?_
    cases r <;> grind [Exists]
  case h_6 i hphase =>
    refine Option.some.inj hst ▸ h.changes (by grind) (by grind) (by grind) fun r => ?_
    cases r <;> grind [Exists]
  case h_7 hphase =>
    obtain ⟨hfree, rfl⟩ := lock_eq_some hst
    exact h.locks hfree (.inr (.inr (.inl ⟨hphase, rfl⟩)))
  case h_8 i rest hphase => exact Option.some.inj hst ▸ h.shuts hphase
  case h_9 hphase =>
    refine Option.some.inj hst ▸ h.moves (by grind) (by grind) (by grind) fun r => ?_
    have := hlive r
    cases r <;> grind [Exists]
  case h_10 hphase => exact Option.some.inj hst ▸ h.tests hphase
  case h_11 hphase =>
    obtain ⟨hfree, rfl⟩ := lock_eq_some hst
    exact h.locks hfree (.inr (.inr (.inr ⟨hphase, rfl⟩)))
  case h_12 hphase =>
    refine Option.some.inj hst ▸ h.changes (by grind) (by grind) (by grind) fun r => ?_
    cases r <;> grind [Exists]
  case h_13 hphase =>
    refine Option.some.inj hst ▸ h.changes (by grind) (by grind) (by grind) fun r => ?_
    cases r <;> grind [Exists]
  case h_14 hphase =>
    refine Option.some.inj hst ▸ h.changes (by grind) (by grind) (by grind) fun r => ?_
    cases r <;> grind [Exists]
  case h_15 hphase =>
    refine Option.some.inj hst ▸ h.changes (by grind) (by grind) (by grind) fun r => ?_
    cases r <;> grind [Exists]
  case h_16 => exact absurd hst (by simp)

/-- **A step of a thread.** -/
lemma Sound.workerStep {job : Job Input Choice Data} {choice : Choice} (h : Sound s)
    (hst : s.workerStep job i choice = some t) : Sound t := by
  unfold WorkerGroup.workerStep at hst
  split at hst
  case h_1 => exact absurd hst (by simp)
  case h_2 data hphase =>
    obtain ⟨after, -, rfl⟩ := Option.map_eq_some_iff.1 hst
    refine h.works hphase ?_
    cases after with
    | none => exact .inl rfl
    | some data' => exact .inr ⟨data', rfl⟩
  case h_3 hphase =>
    split at hst
    · rename_i hfree
      exact Option.some.inj hst ▸ h.worker_locks hphase hfree
    · exact absurd hst (by simp)
  case h_4 hphase => exact Option.some.inj hst ▸ h.worker_removes hphase
  case h_5 hphase => exact Option.some.inj hst ▸ h.worker_signals hphase
  case h_6 hphase => exact Option.some.inj hst ▸ h.worker_destroys hphase
  case h_7 hphase => exact Option.some.inj hst ▸ h.worker_frees hphase

/-- **Every step** keeps the invariant. -/
theorem Sound.step {job : Job Input Choice Data} {a : Action ι Input Choice} (h : Sound s)
    (hst : s.step job a = some t) : Sound t := by
  have hlive := h.live
  have hnew := h.new
  cases a with
  | accept connection =>
    simp only [WorkerGroup.step] at hst
    split at hst
    · rename_i hphase
      refine Option.some.inj hst ▸ h.moves (by grind) (by grind) (by grind) fun r => ?_
      have := hlive r
      cases r <;> grind [Exists]
    · rename_i i hphase
      split at hst
      · exact absurd hst (by simp)
      · rename_i hfree
        exact Option.some.inj hst ▸ h.accepts hphase hfree
    · exact absurd hst (by simp)
  | greeted ok =>
    simp only [WorkerGroup.step] at hst
    split at hst
    · rename_i i hphase
      split at hst
      · refine Option.some.inj hst ▸ h.changes (by grind) (by grind) (by grind) fun r => ?_
        cases r <;> grind [Exists]
      · refine Option.some.inj hst ▸ h.moves (by grind) (by grind) (by grind) fun r => ?_
        have := hlive r
        cases r <;> grind [Exists]
    · exact absurd hst (by simp)
  | spawned ok =>
    simp only [WorkerGroup.step] at hst
    split at hst
    · rename_i i hphase
      split at hst
      · exact Option.some.inj hst ▸ h.spawns hphase
      · refine Option.some.inj hst ▸ h.moves (by grind) (by grind) (by grind) fun r => ?_
        have := hlive r
        cases r <;> grind [Exists]
    · exact absurd hst (by simp)
  | listener => exact h.listenerStep hst
  | worker i choice => exact h.workerStep hst
  | arrive i input =>
    simp only [WorkerGroup.step] at hst
    split at hst
    · rename_i data hphase
      split at hst
      · exact absurd hst (by simp)
      · exact Option.some.inj hst ▸ h.works hphase (.inr ⟨_, rfl⟩)
    · exact absurd hst (by simp)
  | spurious =>
    simp only [WorkerGroup.step] at hst
    split at hst
    · rename_i hphase
      refine Option.some.inj hst ▸ h.moves (by grind) (by grind) (by grind) fun r => ?_
      have := hlive r
      cases r <;> grind [Exists]
    · exact absurd hst (by simp)

omit [DecidableEq ι] in
/-- As long as a thread has something to do with the list, the listener has given nothing back. -/
lemma Sound.exists_common (h : Sound s) (hin : (s.worker i).isOut = false) :
    s.Exists .list ∧ s.Exists .cond ∧ s.Exists .mutex ∧ s.Exists .shared := by
  have hover : s.listener.isOver = false := by
    have := h.finished
    grind
  cases hlistener : s.listener <;> grind [Exists]

omit [DecidableEq ι] in
/-- What a thread works on is there. -/
lemma Sound.exists_workerUses (h : Sound s) {r : Resource ι} (hr : r ∈ s.workerUses i) :
    s.Exists r := by
  have hcommon := h.exists_common (i := i)
  cases hworker : s.worker i <;> grind [Exists, workerUses]

omit [DecidableEq ι] in
/-- What the listener works on is there. -/
lemma Sound.exists_listenerUses (h : Sound s) {r : Resource ι} (hr : r ∈ s.listenerUses) :
    s.Exists r := by
  have hshut := h.shut
  cases hlistener : s.listener with
  | shutting rest =>
    cases rest with
    | nil => grind [Exists, listenerUses]
    | cons i rest =>
      -- what is still to be shut down is the connection of a thread
      have := h.listed i
      cases hworker : s.worker i <;> grind [Exists, listenerUses]
  | _ => grind [Exists, listenerUses]

/-- **Nothing is used after it has been given back**, and nothing is given back twice. -/
theorem Sound.live_of_uses {job : Job Input Choice Data} {a : Action ι Input Choice} (h : Sound s)
    (hst : s.step job a = some t) : ∀ r ∈ s.uses a, s.live r = true := by
  intro r hr
  rw [h.live r]
  cases a with
  | worker i choice => exact h.exists_workerUses hr
  | arrive i input =>
    obtain rfl := List.mem_singleton.1 hr
    simp only [WorkerGroup.step] at hst
    cases hworker : s.worker i with
    | working data => exact .inl (by rw [hworker]; rfl)
    | _ =>
      rw [hworker] at hst
      exact absurd hst (by simp)
  | _ => exact h.exists_listenerUses hr

/-! ## The listener closes -/

omit [DecidableEq ι] in
/-- With every listed connection shut down, the thread of one is. -/
lemma Sound.shut_of_working {data : Data} (h : Sound s) (hshut : s.listener.toShut = some [])
    (hworker : s.worker i = .working data) : s.shut i = true := by
  have hlisted := (h.listed i).2 (.inl (by rw [hworker]; rfl))
  exact ((h.shut [] hshut).1 i hlisted).resolve_right List.not_mem_nil

variable [Fintype ι] {rank : Data → ℕ} {job : Job Input Choice Data}

/-- A step of the listener that closes brings it nearer to the end. -/
lemma closingRank_listenerStep (hclosing : s.listener.isClosing = true)
    (hst : s.listenerStep = some t) :
    t.closingRank rank < s.closingRank rank ∧ t.listener.isClosing = true ∧
      (s.listener.toShut = some [] → t.listener.toShut = some []) := by
  cases hphase : s.listener with
  | closing =>
    simp only [WorkerGroup.listenerStep, hphase] at hst
    obtain ⟨-, rfl⟩ := lock_eq_some hst
    exact ⟨by simp [closingRank, hphase, ListenPhase.rank], rfl,
      by simp [ListenPhase.toShut]⟩
  | woken =>
    simp only [WorkerGroup.listenerStep, hphase] at hst
    obtain ⟨-, rfl⟩ := lock_eq_some hst
    exact ⟨by simp [closingRank, hphase, ListenPhase.rank], rfl, fun _ => rfl⟩
  | testing =>
    simp only [WorkerGroup.listenerStep, hphase] at hst
    obtain rfl := Option.some.inj hst
    by_cases hempty : s.list = []
    · simp [closingRank, hphase, hempty, ListenPhase.rank, ListenPhase.isClosing,
        ListenPhase.toShut]
    · simp [closingRank, hphase, hempty, ListenPhase.rank, ListenPhase.isClosing,
        ListenPhase.toShut]
  | shutting rest =>
    cases rest <;> simp only [WorkerGroup.listenerStep, hphase] at hst <;>
      obtain rfl := Option.some.inj hst <;>
      simp [closingRank, hphase, ListenPhase.rank, ListenPhase.isClosing, ListenPhase.toShut]
  | destroyingList | destroyingCond | destroyingMutex | finished =>
    simp only [WorkerGroup.listenerStep, hphase] at hst
    obtain rfl := Option.some.inj hst
    exact ⟨by simp [closingRank, hphase, ListenPhase.rank, setLive], rfl, fun _ => rfl⟩
  | parked | released => simp [WorkerGroup.listenerStep, hphase] at hst
  | _ => simp [hphase, ListenPhase.isClosing, ListenPhase.toShut] at hclosing

/-- A step of a thread whose connection has been shut down, as soon as it is in its loop, brings it
nearer to the end; the listener may be woken up by it. -/
lemma closingRank_workerStep {choice : Choice} (hends : Ends job rank)
    (hshut : ∀ data, s.worker i = .working data → s.shut i = true)
    (hclosing : s.listener.isClosing = true) (hst : s.workerStep job i choice = some t) :
    t.closingRank rank < s.closingRank rank ∧ t.listener.isClosing = true ∧
      (s.listener.toShut = some [] → t.listener.toShut = some []) := by
  have hrank := threadRank_update (workerRank rank) s.worker i
  have hless : ∀ phase : MemberPhase Data, workerRank rank phase < workerRank rank (s.worker i) →
      threadRank (workerRank rank) (Function.update s.worker i phase) <
        threadRank (workerRank rank) s.worker := by
    intro phase hphase
    have := hrank phase
    omega
  unfold WorkerGroup.workerStep at hst
  split at hst
  case h_1 => exact absurd hst (by simp)
  case h_2 data hphase =>
    obtain ⟨after, hturn, rfl⟩ := Option.map_eq_some_iff.1 hst
    rw [hshut data hphase] at hturn
    refine ⟨Nat.add_lt_add_left (hless _ ?_) _, hclosing, id⟩
    rw [hphase]
    cases after with
    | none => simp [workerRank]
    | some data' => simpa [workerRank] using hends.leaves _ _ _ hturn
  case h_3 hphase =>
    split at hst
    · obtain rfl := Option.some.inj hst
      exact ⟨Nat.add_lt_add_left (hless _ (by simp [hphase, workerRank])) _, hclosing, id⟩
    · exact absurd hst (by simp)
  case h_4 hphase =>
    obtain rfl := Option.some.inj hst
    refine ⟨?_, hclosing, id⟩
    have := hless .signalling (by simp [hphase, workerRank])
    have : s.listener.rank (s.list.erase i).length ≤ s.listener.rank s.list.length := by
      have := List.length_erase_le (a := i) (l := s.list)
      cases s.listener <;> simp only [ListenPhase.rank, le_refl]
      omega
    simp only [closingRank, setWorker]
    omega
  case h_5 hphase =>
    obtain rfl := Option.some.inj hst
    have hsignalled := hrank .destroying
    simp only [hphase, workerRank] at hsignalled
    by_cases hwakes : s.list = [] ∧ s.listener = .parked
    · obtain ⟨hempty, hparked⟩ := hwakes
      simp only [closingRank, setWorker, hempty, hparked, and_self, if_true, ListenPhase.rank]
      exact ⟨by omega, rfl, fun _ => rfl⟩
    · simp only [closingRank, setWorker, if_neg hwakes]
      exact ⟨by omega, hclosing, id⟩
  case h_6 hphase =>
    obtain rfl := Option.some.inj hst
    exact ⟨Nat.add_lt_add_left (hless _ (by simp [hphase, workerRank])) _, hclosing, id⟩
  case h_7 hphase =>
    obtain rfl := Option.some.inj hst
    exact ⟨Nat.add_lt_add_left (hless _ (by simp [hphase, workerRank])) _, hclosing, id⟩

/-- **Not held up**: as long as something is left, there is a step that brings the group nearer to
the end. -/
lemma Sound.exists_thread_step (hends : Ends job rank) (h : Sound s)
    (hclosing : s.listener.isClosing = true) (hleft : ∃ r, s.live r = true) :
    ∃ a t, a.isThreadStep = true ∧ s.step job a = some t ∧
      t.closingRank rank < s.closingRank rank ∧ t.listener.isClosing = true := by
  obtain ⟨choice, -⟩ := hends.goes job.start
  have hlistener : s.listenerStep.isSome = true → ∃ (a : Action ι Input Choice) (t : _),
      a.isThreadStep = true ∧ s.step job a = some t ∧
      t.closingRank rank < s.closingRank rank ∧ t.listener.isClosing = true := fun hsome =>
    have ⟨t, ht⟩ := Option.isSome_iff_exists.1 hsome
    have hrank := closingRank_listenerStep hclosing ht
    ⟨.listener, t, rfl, ht, hrank.1, hrank.2.1⟩
  have hworker : ∀ i choice, (∀ data, s.worker i = .working data → s.shut i = true) →
      (s.workerStep job i choice).isSome = true → ∃ (a : Action ι Input Choice) (t : _),
      a.isThreadStep = true ∧ s.step job a = some t ∧
      t.closingRank rank < s.closingRank rank ∧ t.listener.isClosing = true :=
    fun i choice hshut hsome =>
      have ⟨t, ht⟩ := Option.isSome_iff_exists.1 hsome
      have hrank := closingRank_workerStep hends hshut hclosing ht
      ⟨.worker i choice, t, rfl, ht, hrank.1, hrank.2.1⟩
  cases hmutex : s.mutex with
  | some owner =>
    have hholds := (h.mutex owner).2 hmutex
    cases owner with
    | worker i =>
      simp only [Holds] at hholds
      cases hphase : s.worker i with
      | removing | signalling =>
        exact hworker i choice (by simp [hphase]) (by simp [WorkerGroup.workerStep, hphase])
      | _ => simp [hphase, MemberPhase.hasMutex] at hholds
    | listener =>
      simp only [Holds] at hholds
      cases hphase : s.listener with
      | testing => exact hlistener (by simp [WorkerGroup.listenerStep, hphase])
      | shutting rest =>
        cases rest <;> exact hlistener (by simp [WorkerGroup.listenerStep, hphase])
      | adding i | removing i =>
        simp [hphase, ListenPhase.isClosing, ListenPhase.toShut] at hclosing
      | _ => simp [hphase, ListenPhase.hasMutex] at hholds
  | none =>
    have hfree : ∀ i, (s.worker i).hasMutex = false := fun i => by
      have := h.mutex (.worker i)
      rw [hmutex] at this
      simpa [Holds] using this
    cases hphase : s.listener with
    | closing | woken =>
      exact hlistener (by simp [WorkerGroup.listenerStep, hphase, lock, hmutex])
    | destroyingList | destroyingCond | destroyingMutex | finished =>
      exact hlistener (by simp [WorkerGroup.listenerStep, hphase])
    | parked =>
      -- somebody is still listed, since nobody is about to signal
      have hne : s.list ≠ [] := fun hempty => by
        obtain ⟨i, hi⟩ := h.wake hphase hempty
        have hnot := hfree i
        simp [hi, MemberPhase.hasMutex] at hnot
      obtain ⟨i, hi⟩ := List.exists_mem_of_ne_nil _ hne
      have hlisted := (h.listed i).1 hi
      have hnot := hfree i
      cases hthread : s.worker i with
      | working data =>
        have hshut := h.shut_of_working (by rw [hphase]; rfl) hthread
        obtain ⟨choice, hgoes⟩ := hends.goes data
        exact hworker i choice (fun _ _ => hshut)
          (by simp [WorkerGroup.workerStep, hthread, hshut, hgoes])
      | leaving =>
        exact hworker i choice (by simp [hthread])
          (by simp [WorkerGroup.workerStep, hthread, hmutex])
      | removing => simp [hthread, MemberPhase.hasMutex] at hnot
      | _ => simp [hthread, hphase, MemberPhase.isListed, ListenPhase.listed] at hlisted
    | released =>
      -- what is left belongs to a thread behind the list
      obtain ⟨r, hr⟩ := hleft
      have hexists := (h.live r).1 hr
      have hthread : ∃ i, s.worker i ≠ .absent := by
        cases r <;> grind [Exists]
      obtain ⟨i, hi⟩ := hthread
      have hout := h.finished (by rw [hphase]; rfl) i
      cases hthread : s.worker i with
      | absent => exact absurd hthread hi
      | destroying | freeing =>
        exact hworker i choice (by simp [hthread]) (by simp [WorkerGroup.workerStep, hthread])
      | _ => simp [hthread, MemberPhase.isOut] at hout
    | shutting rest =>
      have hown := (h.mutex .listener).1 (by simp [Holds, hphase, ListenPhase.hasMutex])
      simp [hmutex] at hown
    | testing =>
      have hown := (h.mutex .listener).1 (by simp [Holds, hphase, ListenPhase.hasMutex])
      simp [hmutex] at hown
    | _ => simp [hphase, ListenPhase.isClosing, ListenPhase.toShut] at hclosing

/-- **The listener closes**: the steps of the threads lead to a state in which everything has been
given back. -/
theorem Sound.exists_end (hends : Ends job rank) (h : Sound s)
    (hclosing : s.listener.isClosing = true) :
    ∃ as t, as.all Action.isThreadStep = true ∧ execute (WorkerGroup.step job) s as = some t ∧
      ∀ r, t.live r = false := by
  induction hn : s.closingRank rank using Nat.strong_induction_on generalizing s with
  | _ n ih =>
    by_cases hleft : ∃ r, s.live r = true
    · obtain ⟨a, t, ha, hst, hrank, hclosing'⟩ := h.exists_thread_step hends hclosing hleft
      obtain ⟨as, u, has, hu, hall⟩ := ih _ (hn ▸ hrank) (h.step hst) hclosing' rfl
      refine ⟨a :: as, u, ?_, ?_, hall⟩
      · rw [List.all_cons, ha, has]
        rfl
      · rw [execute, hst, Option.bind_some, hu]
    · exact ⟨[], s, rfl, rfl, fun r => Bool.eq_false_iff.2 fun hr => hleft ⟨r, hr⟩⟩

/-- Once every listed connection has been shut down, every step of a thread or of the listener
brings the group nearer to the end, and only a needless waking takes it further away. -/
lemma Sound.closingRank_step {a : Action ι Input Choice} (hends : Ends job rank) (h : Sound s)
    (hshut : s.listener.toShut = some []) (hst : s.step job a = some t) :
    t.closingRank rank + a.isThreadStep.toNat ≤ s.closingRank rank + 2 * a.isSpurious.toNat ∧
      t.listener.toShut = some [] := by
  have hclosing : s.listener.isClosing = true := by
    cases hphase : s.listener <;>
      simp_all [ListenPhase.toShut, ListenPhase.isClosing]
  cases a with
  | listener =>
    obtain ⟨hrank, -, hstays⟩ := closingRank_listenerStep hclosing hst
    exact ⟨hrank, hstays hshut⟩
  | worker i choice =>
    obtain ⟨hrank, -, hstays⟩ :=
      closingRank_workerStep hends (fun _ hworker => h.shut_of_working hshut hworker) hclosing hst
    exact ⟨hrank, hstays hshut⟩
  | arrive i input =>
    simp only [WorkerGroup.step] at hst
    split at hst
    · rename_i data hworker
      rw [if_pos (h.shut_of_working hshut hworker)] at hst
      exact absurd hst (by simp)
    · exact absurd hst (by simp)
  | spurious =>
    simp only [WorkerGroup.step] at hst
    split at hst
    · rename_i hparked
      obtain rfl := Option.some.inj hst
      simp only [closingRank, hparked, ListenPhase.rank, Action.isThreadStep, Action.isSpurious]
      exact ⟨by simp; omega, rfl⟩
    · exact absurd hst (by simp)
  | accept connection | greeted ok | spawned ok =>
    simp only [WorkerGroup.step] at hst
    split at hst <;> rename_i hphase <;> simp_all [ListenPhase.toShut]

/-- **A bound**: once every listed connection has been shut down, the threads and the listener take
no more steps than they have in front of them, but for those after a needless waking. -/
theorem Sound.countP_threadStep_le (hends : Ends job rank) (h : Sound s)
    (hshut : s.listener.toShut = some []) {as : List (Action ι Input Choice)}
    (hst : execute (WorkerGroup.step job) s as = some t) :
    as.countP Action.isThreadStep + t.closingRank rank ≤
      s.closingRank rank + 2 * as.countP Action.isSpurious := by
  have hbound := @countP_add_rank_le _ _ (WorkerGroup.step job) (fun _ _ => True)
    (fun u => Sound u ∧ u.listener.toShut = some []) (closingRank rank) Action.isThreadStep
    Action.isSpurious 2
    (fun _ _ _ hu _ hstep => ⟨hu.1.step hstep, (hu.1.closingRank_step hends hu.2 hstep).2⟩)
    (fun _ _ _ hu _ hstep => (hu.1.closingRank_step hends hu.2 hstep).1) s t as hst
    (.of_forall fun _ _ _ => trivial) ⟨h, hshut⟩
  exact hbound.1

end Steps

end WorkerGroup

end OsSimulator
