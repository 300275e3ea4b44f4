import OsSimulator.Library.WorkerGroup
import OsSimulator.MemoryStick.Server

set_option relaxedAutoImplicit false
set_option autoImplicit false

/-!
# The CPU server of a memory stick

`cpu_listen_thread` accepts the CPUs, `handle_new_cpu` enters each connection in `socket_list` and
starts a detached `handle_cpu_client`, and `close_listen_thread` ends them. `close_module` joins the
listener and then frees the memory of the stick, which the threads of the CPUs work on.

## Main definitions

* `handleCpuClient` — the thread of a CPU, as a job of a group.
* `CpuServer`, `CpuServer.init`, `CpuServer.step` — the group.

## Main results

* `CpuServer.live_of_run` — no thread uses what has been freed.
* `CpuServer.closes_of_run` — the server closes whenever it is asked to.
-/

namespace OsSimulator.MemoryStick

/-- The connection of a CPU: the bytes that have arrived and have not been received, and the request
that the thread is at work on. -/
structure CpuConnection where
  inbox : List UInt8
  request : Option Call
  deriving DecidableEq, Repr

/-- `handle_cpu_client`, where the choice is whether the CPU has closed the connection. A receive
waits for a whole message, unless no more can come. What is made of a message that was cut off in
the middle is left out: the thread leaves its loop there. -/
def handleCpuClient : Job (List UInt8) Bool CpuConnection where
  start := ⟨[], none⟩
  arrive bytes data := { data with inbox := data.inbox ++ bytes }
  turn closed shut data :=
    match data.request with
    | some _ => some (some { data with request := none })
    | none =>
      match receiveRequest .cpu data.inbox with
      | some (.call call, rest) => some (some ⟨rest, some call⟩)
      | some (.ignored, rest) => some (some ⟨rest, none⟩)
      | some (.unexpected, _) => some none
      | none => if shut ∨ closed then some none else none

/-! ## The loop comes to an end -/

/-- An operation code takes four bytes. -/
lemma length_receiveOpCode {connection rest : List UInt8} {opCode : ℤ}
    (h : receiveOpCode connection = some (opCode, rest)) : rest.length + 4 = connection.length := by
  obtain ⟨received, hreceived, heq⟩ := Option.map_eq_some_iff.1 h
  obtain ⟨-, rfl⟩ := Prod.mk.inj heq
  unfold socketReceive at hreceived
  split at hreceived
  · obtain rfl := Option.some.inj hreceived
    rw [List.length_drop]
    omega
  · exact absurd hreceived (by simp)

/-- A buffer leaves no more than there was. -/
lemma length_receiveBuffer {connection rest : List UInt8} {buffer : Option (List UInt8)}
    (h : receiveBuffer connection = some (buffer, rest)) : rest.length ≤ connection.length := by
  have hshorter : ∀ {size : ℕ} {bytes : List UInt8} {received : List UInt8 × List UInt8},
      socketReceive size bytes = some received → received.2.length ≤ bytes.length := by
    intro size bytes received hreceived
    unfold socketReceive at hreceived
    split at hreceived
    · obtain rfl := Option.some.inj hreceived
      exact (List.drop_sublist size bytes).length_le
    · exact absurd hreceived (by simp)
  obtain ⟨header, hheader, hbuffer⟩ := Option.bind_eq_some_iff.1 h
  have hle := hshorter hheader
  dsimp only at hbuffer
  split at hbuffer
  · obtain ⟨-, rfl⟩ := Prod.mk.inj (Option.some.inj hbuffer)
    exact hle
  · split at hbuffer
    · exact absurd hbuffer (by simp)
    · obtain ⟨received, hreceived, heq⟩ := Option.map_eq_some_iff.1 hbuffer
      obtain ⟨-, rfl⟩ := Prod.mk.inj heq
      exact (hshorter hreceived).trans hle

/-- A packet leaves no more than there was. -/
lemma length_receivePacket {connection rest : List UInt8} {packet : List (List UInt8)}
    (h : receivePacket connection = some (packet, rest)) : rest.length ≤ connection.length := by
  obtain ⟨received, hreceived, hpacket⟩ := Option.bind_eq_some_iff.1 h
  obtain ⟨_, -, heq⟩ := Option.map_eq_some_iff.1 hpacket
  obtain ⟨-, rfl⟩ := Prod.mk.inj heq
  exact length_receiveBuffer hreceived

/-- A round of the loop takes something from the connection. -/
lemma length_receiveRequest {client : Client} {connection rest : List UInt8} {reception : Reception}
    (h : receiveRequest client connection = some (reception, rest)) :
    rest.length < connection.length := by
  obtain ⟨⟨opCode, behind⟩, hcode, hround⟩ := Option.bind_eq_some_iff.1 h
  have hlength := length_receiveOpCode hcode
  dsimp only at hround
  have hle : rest.length ≤ behind.length := by
    split at hround
    · obtain ⟨packet, hpacket, hcall⟩ := Option.bind_eq_some_iff.1 hround
      obtain ⟨_, -, heq⟩ := Option.map_eq_some_iff.1 hcall
      obtain ⟨-, rfl⟩ := Prod.mk.inj heq
      exact length_receivePacket hpacket
    · split at hround
      · obtain ⟨packet, hpacket, hcall⟩ := Option.bind_eq_some_iff.1 hround
        obtain ⟨_, -, heq⟩ := Option.map_eq_some_iff.1 hcall
        obtain ⟨-, rfl⟩ := Prod.mk.inj heq
        exact length_receivePacket hpacket
      · split at hround
        · obtain ⟨text, htext, heq⟩ := Option.map_eq_some_iff.1 hround
          obtain ⟨-, rfl⟩ := Prod.mk.inj heq
          exact length_receiveBuffer htext
        · obtain ⟨-, rfl⟩ := Prod.mk.inj (Option.some.inj hround)
          exact le_rfl
  omega

/-- The turns that the thread takes at most on what has arrived. -/
def CpuConnection.rank (data : CpuConnection) : ℕ :=
  2 * data.inbox.length + data.request.toList.length

/-- **The loop ends** once the connection has been shut down: what has arrived before is still
served. -/
lemma ends_handleCpuClient : WorkerGroup.Ends handleCpuClient CpuConnection.rank where
  goes data := by
    refine ⟨false, ?_⟩
    dsimp only [handleCpuClient]
    split
    · rfl
    · split <;> rfl
  leaves closed data data' hturn := by
    dsimp only [handleCpuClient] at hturn
    split at hturn
    · rename_i call hrequest
      obtain rfl := Option.some.inj (Option.some.inj hturn)
      simp [CpuConnection.rank, hrequest]
    · rename_i hrequest
      split at hturn
      · rename_i call rest hreceive
        obtain rfl := Option.some.inj (Option.some.inj hturn)
        have := length_receiveRequest hreceive
        simp only [CpuConnection.rank, Option.toList_some, List.length_singleton]
        omega
      · rename_i rest hreceive
        obtain rfl := Option.some.inj (Option.some.inj hturn)
        have := length_receiveRequest hreceive
        simp only [CpuConnection.rank, Option.toList_none, List.length_nil]
        omega
      · exact absurd hturn (by simp)
      · exact absurd hturn (by simp)

/-! ## The server -/

/-- The CPU server: the listener with the threads of the CPUs. -/
abbrev CpuServer (ι : Type) := WorkerGroup ι CpuConnection

namespace CpuServer

variable {ι : Type}

/-- `cpu_listen_thread` has begun. -/
def init : CpuServer ι := WorkerGroup.init

variable [DecidableEq ι]

/-- One step of the server. -/
def step (s : CpuServer ι) (a : WorkerGroup.Action ι (List UInt8) Bool) : Option (CpuServer ι) :=
  WorkerGroup.step handleCpuClient s a

/-- The invariant holds in every run. -/
lemma sound_of_reachable {s : CpuServer ι} (h : Reachable step init s) : WorkerGroup.Sound s :=
  Run.invariant (I := WorkerGroup.Sound) h WorkerGroup.sound_init fun _ _ _ hI _ hst => hI.step hst

/-- **Nothing is used after it has been freed.** In every run, whatever a step of the listener or of
a thread works on, or frees, is there: a connection, the record of its thread, `socket_list` with
its condition and its mutex, and the memory of the stick, though nobody joins the threads.

**Proof sketch.** A connection leaves the list before it is freed, and both under the mutex under
which the listener reads the list; and the listener frees nothing before the list is empty, after
which no thread comes back to it. -/
theorem live_of_run {s t : CpuServer ι} {a : WorkerGroup.Action ι (List UInt8) Bool}
    (h : Reachable step init s) (hst : s.step a = some t) : ∀ r ∈ s.uses a, s.live r = true :=
  (sound_of_reachable h).live_of_uses hst

/-- A CPU connects and sends the code of an operation that the stick does not know; the server
closes while the thread is on its way out. -/
def closingEarly : List (WorkerGroup.Action Bool (List UInt8) Bool) :=
  [.accept (some false), .greeted true, .listener, .listener, .spawned true,
    .arrive false (encodeInt OP_PORT), .worker false false, .accept none, .listener, .listener,
    .listener, .listener, .worker false false, .worker false false]

/-- A thread that leaves early uses what still exists. -/
theorem live_of_run_closingEarly :
    ∃ s t : CpuServer Bool, Reachable step init s ∧ s.step (.worker false false) = some t ∧
      s.listener = .parked ∧ s.worker false = .signalling ∧
      ∀ r ∈ s.uses (.worker false false : WorkerGroup.Action Bool (List UInt8) Bool),
        s.live r = true := by
  have htest : (execute step init closingEarly).any (fun s =>
      decide (s.listener = .parked) && decide (s.worker false = .signalling) &&
        (s.step (.worker false false)).isSome) = true := by decide +kernel
  obtain ⟨s, hs, htest⟩ := (Option.any_eq_true _ _).1 htest
  obtain ⟨hphases, hstep⟩ := Bool.and_eq_true_iff.1 htest
  obtain ⟨hlistener, hworker⟩ := Bool.and_eq_true_iff.1 hphases
  obtain ⟨t, ht⟩ := Option.isSome_iff_exists.1 hstep
  exact ⟨s, t, Run.of_execute hs, ht, of_decide_eq_true hlistener, of_decide_eq_true hworker,
    live_of_run (Run.of_execute hs) ht⟩

/-- **The server closes.** From every state of a run in which the listener does not accept CPUs any
more, the steps of the threads and of the listener lead to a state in which everything has been
freed; and once every listed connection has been shut down, they take only a bounded number of
steps, whatever else happens, but for those after a needless waking of the listener. -/
theorem closes_of_run [Fintype ι] {s : CpuServer ι} (h : Reachable step init s)
    (hclosing : s.listener.isClosing = true) :
    (∃ as t, as.all WorkerGroup.Action.isThreadStep = true ∧ execute step s as = some t ∧
      ∀ r, t.live r = false) ∧
    (s.listener.toShut = some [] → ∀ as t, execute step s as = some t →
      as.countP WorkerGroup.Action.isThreadStep ≤
        s.closingRank CpuConnection.rank + 2 * as.countP WorkerGroup.Action.isSpurious) := by
  have hsound := sound_of_reachable h
  refine ⟨hsound.exists_end ends_handleCpuClient hclosing, fun hshut as t hst => ?_⟩
  have hbound := hsound.countP_threadStep_le ends_handleCpuClient hshut hst
  omega

/-- A CPU is connected, with a message that has not arrived whole, when the listener has shut its
connection down and waits. -/
def closingWaits : List (WorkerGroup.Action (Fin 1) (List UInt8) Bool) :=
  [.accept (some 0), .greeted true, .listener, .listener, .spawned true,
    .arrive 0 [64, 0], .accept none, .listener, .listener, .listener, .listener]

/-- The listener waits for its last thread and then gives everything back. -/
theorem closes_of_run_closingWaits :
    ∃ s : CpuServer (Fin 1), Reachable step init s ∧ s.listener = .parked ∧
      (∃ as t, as.all WorkerGroup.Action.isThreadStep = true ∧ execute step s as = some t ∧
        ∀ r, t.live r = false) ∧
      (s.listener.toShut = some [] → ∀ as t, execute step s as = some t →
        as.countP WorkerGroup.Action.isThreadStep ≤
          s.closingRank CpuConnection.rank + 2 * as.countP WorkerGroup.Action.isSpurious) := by
  have htest : (execute step init closingWaits).any (fun s : CpuServer (Fin 1) =>
      decide (s.listener = .parked)) = true := by decide +kernel
  obtain ⟨s, hs, hparked⟩ := (Option.any_eq_true _ _).1 htest
  have hlistener := of_decide_eq_true hparked
  exact ⟨s, Run.of_execute hs, hlistener,
    closes_of_run (Run.of_execute hs) (by rw [hlistener]; rfl)⟩

end CpuServer

end OsSimulator.MemoryStick
