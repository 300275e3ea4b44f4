import OsSimulator.Memory.Wire

set_option relaxedAutoImplicit false
set_option autoImplicit false

/-!
# The connection to Kernel Memory

All the threads of the scheduler that talk to Kernel Memory share `km_socket`, under its mutex, and
Kernel Memory answers on it from one thread. But its accept loop and its other threads put messages
on the same connection whenever they want. This file has both ends of the connection, message by
message and byte by byte: the thread with the mutex, in `receive_km_opcode` and in the compaction an
allocation may ask for, and `listen_scheduler` with its handlers.

What belongs to which request is kept beside the bytes: a request has a ticket, its sender with a
number, and what the listener sends while it serves a request has the ticket of that request.

## Main definitions

* `Link`, `Link.step` — the two ends, and one step of one of their threads.
* `Link.Uncrossed` — whole messages, own replies, no reply that is not expected, and no thread that
  waits in vain.
* `Link.Orderly` — the condition on the requests that are served.
* `Link.Talk` — how far the two ends are in a request.

## Main results

* `Link.Talk.front`, `Link.Talk.taken`, `Link.Talk.listenerServe`, `Link.Talk.listenerSend` — what
  one end does keeps the two ends equally far.
-/

namespace OsSimulator.Scheduler

open Memory (RequestKind Request parseRequest serve stringFrame textBytes)

/-! ## The code -/

/-- What a thread passes to `RECEIVE_KM_OPCODE`: the replies of its request, or the end of the
compaction it allowed. -/
inductive Stage
  | reply (kind : RequestKind)
  | compactionDone
  deriving DecidableEq, Repr

/-- The expected operation codes. -/
def Stage.expected : Stage → List ℤ
  | .reply kind => kind.answers ++ if kind = .createSegment then [OP_COMPACTION_NEEDED] else []
  | .compactionDone => [OP_COMPACTION_DONE]

/-- Where the thread with the mutex is: between two requests; in front of an operation code; behind
that of a notice, or of an expected message, with the payload still to be read; and in
`routine_compaction`, in front of `OP_CAN_COMPACT`. -/
inductive HolderPhase
  | locked
  | awaiting (stage : Stage)
  | noticed (stage : Stage)
  | draining (stage : Stage) (opCode : ℤ)
  | compacting
  deriving DecidableEq, Repr

/-- The thread with the mutex is blocked in a `recv`, or will be. -/
def HolderPhase.reads : HolderPhase → Bool
  | .awaiting _ | .noticed _ | .draining _ _ => true
  | .locked | .compacting => false

/-- The stage whose operation code the thread waits for, perhaps behind a notice. -/
def HolderPhase.waitsFor : HolderPhase → Option Stage
  | .awaiting stage | .noticed stage => some stage
  | _ => none

/-- Where the listener is: it sends what is left of an answer, and then goes back to the loop's head
if `alive`; it has read the operation code of a request; it waits in `notify_compaction`, or has
read `OP_CAN_COMPACT` there; and behind the loop. -/
inductive ListenerPhase
  | sending (rest : List Frame) (alive : Bool)
  | reading (kind : RequestKind)
  | awaitingCan (rest : List Frame)
  | drainingCan (rest : List Frame)
  | ended
  deriving DecidableEq, Repr

/-- The operation codes of the messages that are left of an answer. -/
def ListenerPhase.codes : ListenerPhase → List ℤ
  | .sending rest _ | .awaitingCan rest | .drainingCan rest => rest.map Frame.opCode
  | .reading _ | .ended => []

/-- The listener has no message left to send. -/
def ListenerPhase.IsIdle (listener : ListenerPhase) : Prop :=
  (∃ alive, listener = .sending [] alive) ∨ (∃ kind, listener = .reading kind) ∨ listener = .ended

/-- The listener is in an answer that it sends without waiting, or behind it. -/
def ListenerPhase.Answering (listener : ListenerPhase) : Prop :=
  (∃ rest alive, listener = .sending rest alive) ∨ listener = .ended

variable {ι : Type}

/-- The ticket of a request. -/
abbrev Ticket (ι : Type) := Option (ι × ℕ)

/-- The two directions of the connection, the thread with the mutex, the flag `compaction_active`,
and the listener with the tables it works on. `closed` is set when the scheduler begins to shut down
or the listener's process is gone, and `crossed` with it where an operation code that was not
expected is the reason. `requests` counts the requests, `asked` is the ticket of the last one,
`serving` the one of the request the listener read last, and `taken` has the tickets of the messages
that were taken as replies, each behind the ticket of the taker. -/
structure Link (ι : Type) where
  toKernelMemory : Channel (Ticket ι)
  toScheduler : Channel (Ticket ι)
  holder : Option (ι × HolderPhase)
  compactionActive : Bool
  listener : ListenerPhase
  tables : Memory.Listener
  closed : Bool
  crossed : Bool
  requests : ℕ
  asked : Ticket ι
  serving : Ticket ι
  taken : List ((ι × ℕ) × Ticket ι)
  deriving DecidableEq, Repr

namespace Link

/-- The two ends behind the handshake. -/
def start (tables : Memory.Listener) : Link ι where
  toKernelMemory := .empty
  toScheduler := .empty
  holder := none
  compactionActive := false
  listener := .sending [] true
  tables := tables
  closed := false
  crossed := false
  requests := 0
  asked := none
  serving := none
  taken := []

/-- What can happen: a thread of the scheduler takes and leaves the mutex, and the one that has it
sends a request, reads an operation code or a payload, and allows a compaction; the listener reads
an operation code, serves the request it belongs to, finds a stick gone in doing so, sends the next
message of the answer, reads the two parts of `OP_CAN_COMPACT`, and ends; and the other threads of
Kernel Memory announce a stick, report that the memory is corrupted and change the tables. -/
inductive Action (ι : Type)
  | lock (i : ι)
  | unlock (i : ι)
  | sendRequest (kind : RequestKind) (payload : List UInt8)
  | receiveOpCode
  | receivePayload
  | sendCanCompact
  | listenerReceive
  | listenerServe (scriptOpens : Bool) (leftovers : List UInt8)
  | listenerStickGone (rest : List Frame) (alive : Bool)
  | listenerSend
  | receiveCan
  | drainCan
  | listenerEnd
  | notice
  | corrupted
  | connect (event : Memory.Event)
  deriving DecidableEq, Repr

/-- `OP_NEW_MEMORY_STICK`, as the accept loop sends it. -/
def noticeFrame : Frame :=
  stringFrame OP_NEW_MEMORY_STICK (textBytes "A new memory stick connected")

/-- `OP_MEMORY_CORRUPTED`, as the threads send it that find a stick gone. -/
def corruptedFrame : Frame := stringFrame OP_MEMORY_CORRUPTED (textBytes "Stick not available")

/-- `OP_MEMORY_CORRUPTED`, as `listen_scheduler` sends it at its end. -/
def shutdownFrame : Frame := stringFrame OP_MEMORY_CORRUPTED (textBytes "Kernel shutdown")

/-- `OP_CAN_COMPACT`, as `compaction` sends it. -/
def canCompactFrame : Frame := stringFrame OP_CAN_COMPACT (textBytes "Start compaction")

/-- `send_buffer`, `send_string` or `send_packet` by the thread with the mutex. -/
def sendRequest (kind : RequestKind) (payload : List UInt8) (s : Link ι) : Option (Link ι) :=
  match s.holder with
  | some (i, .locked) =>
    let ticket := some (i, s.requests + 1)
    if Frame.Sendable ⟨kind.opCode, payload⟩ then
      some { s with
        toKernelMemory := s.toKernelMemory.send ⟨kind.opCode, payload⟩ ticket
        holder := some (i, if kind.awaitsReply then .awaiting (.reply kind) else .locked)
        requests := s.requests + 1
        asked := ticket }
    else none
  | _ => none

/-- The first half of a round of `receive_km_opcode`. -/
def receiveOpCode (s : Link ι) : Option (Link ι) :=
  match s.holder with
  | some (i, .awaiting stage) =>
    s.toScheduler.receiveOpCode.map fun received =>
      let s' := { s with toScheduler := received.2 }
      if received.1 ∈ stage.expected then { s' with holder := some (i, .draining stage received.1) }
      else if received.1 = OP_NEW_MEMORY_STICK then { s' with holder := some (i, .noticed stage) }
      else { s' with closed := true, crossed := received.1 ≠ OP_MEMORY_CORRUPTED }
  | _ => none

/-- What a thread does behind a message it has taken: `routine_compaction` returns at once if a
compaction is active. -/
def goOn (stage : Stage) (opCode : ℤ) (compactionActive : Bool) : HolderPhase × Bool :=
  match stage with
  | .compactionDone => (.awaiting (.reply .createSegment), false)
  | .reply kind =>
    if opCode = OP_COMPACTION_NEEDED then
      if compactionActive then (.awaiting (.reply kind), true) else (.compacting, true)
    else (.locked, compactionActive)

/-- `receive_string` or `receive_buffer` behind an operation code. -/
def receivePayload (s : Link ι) : Option (Link ι) :=
  match s.holder with
  | some (i, .noticed stage) =>
    (s.toScheduler.receivePayload OP_NEW_MEMORY_STICK).map fun received =>
      { s with toScheduler := received.2, holder := some (i, .awaiting stage) }
  | some (i, .draining stage opCode) =>
    (s.toScheduler.receivePayload opCode).map fun received =>
      { s with
        toScheduler := received.2
        holder := some (i, (goOn stage opCode s.compactionActive).1)
        compactionActive := (goOn stage opCode s.compactionActive).2
        taken := s.taken ++ [((i, s.requests), s.toScheduler.nextNote.join)] }
  | _ => none

/-- `compaction` up to the message it waits for. -/
def sendCanCompact (s : Link ι) : Option (Link ι) :=
  match s.holder with
  | some (i, .compacting) =>
    some { s with
      toKernelMemory := s.toKernelMemory.send canCompactFrame s.asked
      holder := some (i, .awaiting .compactionDone) }
  | _ => none

/-- The head of the loop of `listen_scheduler`. -/
def listenerReceive (s : Link ι) : Option (Link ι) :=
  match s.listener with
  | .sending [] true =>
    s.toKernelMemory.receiveOpCode.map fun received =>
      match RequestKind.ofOpCode received.1 with
      | some kind => { s with toKernelMemory := received.2, listener := .reading kind }
      | none =>
        { s with
          toKernelMemory := received.2
          closed := true
          crossed := received.1 ≠ OP_KERNEL_SCHEDULER_SHUTDOWN }
  | _ => none

/-- The request whose operation code the listener has read, if its payload can be read. -/
def nextRequest (scriptOpens : Bool) (leftovers : List UInt8) (s : Link ι) : Option Request :=
  match s.listener with
  | .reading kind =>
    (s.toKernelMemory.receivePayload kind.opCode).bind fun received =>
      parseRequest scriptOpens leftovers received.1 kind
  | _ => none

/-- A handler, up to the first message it sends. One that does not return takes the connection with
it. The tables are those after the request at once: while it waits for `OP_CAN_COMPACT`,
`create_segment` has `main_memory_mutex`. -/
def listenerServe (scriptOpens : Bool) (leftovers : List UInt8) (s : Link ι) : Option (Link ι) :=
  match s.listener with
  | .reading kind =>
    (s.toKernelMemory.receivePayload kind.opCode).map fun received =>
      let s' := { s with
        toKernelMemory := received.2
        serving := s.toKernelMemory.nextNote.join }
      match (parseRequest scriptOpens leftovers received.1 kind).bind (serve · s.tables) with
      | some served =>
        { s' with
          listener := .sending (served.replies.map Memory.Reply.frame) served.connectionAlive
          tables := served.listener }
      | none => { s' with closed := true }
  | _ => none

/-- A handler of the transfers or of the swap that finds a stick gone: it reports that, and goes on
somehow. -/
def listenerStickGone (rest : List Frame) (alive : Bool) (s : Link ι) : Option (Link ι) :=
  match s.listener with
  | .reading kind =>
    if kind ∈ [.ioStdin, .ioStdout, .suspendProcess, .resumeSuspendedProcess] then
      (s.toKernelMemory.receivePayload kind.opCode).map fun received =>
        { s with
          toKernelMemory := received.2
          serving := s.toKernelMemory.nextNote.join
          listener := .sending (corruptedFrame :: rest) alive }
    else none
  | _ => none

/-- The next message of an answer. A length that is not an `int` cannot be sent. -/
def listenerSend (s : Link ι) : Option (Link ι) :=
  match s.listener with
  | .sending (f :: rest) alive =>
    if f.Sendable then
      some { s with
        toScheduler := s.toScheduler.send f s.serving
        listener := if f.opCode = OP_COMPACTION_NEEDED then .awaitingCan rest
          else .sending rest alive }
    else some { s with closed := true }
  | _ => none

/-- `receive_op_code` in `notify_compaction`. -/
def receiveCan (s : Link ι) : Option (Link ι) :=
  match s.listener with
  | .awaitingCan rest =>
    s.toKernelMemory.receiveOpCode.map fun received =>
      { s with
        toKernelMemory := received.2
        listener := if received.1 = OP_CAN_COMPACT then .drainingCan rest
          else .sending rest true }
  | _ => none

/-- `receive_string` in `notify_compaction`. -/
def drainCan (s : Link ι) : Option (Link ι) :=
  match s.listener with
  | .drainingCan rest =>
    (s.toKernelMemory.receivePayload OP_CAN_COMPACT).map fun received =>
      { s with toKernelMemory := received.2, listener := .sending rest true }
  | _ => none

/-- What `listen_scheduler` sends behind its loop. -/
def listenerEnd (s : Link ι) : Option (Link ι) :=
  if s.listener = .sending [] false then
    some { s with toScheduler := s.toScheduler.send shutdownFrame none, listener := .ended }
  else none

/-- The connection of a stick or of the swap, or a write of a CPU. -/
def connect (event : Memory.Event) (s : Link ι) : Option (Link ι) :=
  match event with
  | .stickConnected _ | .swapConnected _ _ | .memoryWritten _ _ =>
    (Memory.kernelMemoryStep s.tables.kernelMemory event).map fun k =>
      { s with tables := s.tables.withMemory k }
  | _ => none

section Steps

variable [DecidableEq ι]

/-- One step of a thread while the connection is in use. -/
def step (s : Link ι) (action : Action ι) : Option (Link ι) :=
  if s.closed then none else
  match action with
  | .lock i => if s.holder = none then some { s with holder := some (i, .locked) } else none
  | .unlock i => if s.holder = some (i, .locked) then some { s with holder := none } else none
  | .sendRequest kind payload => s.sendRequest kind payload
  | .receiveOpCode => s.receiveOpCode
  | .receivePayload => s.receivePayload
  | .sendCanCompact => s.sendCanCompact
  | .listenerReceive => s.listenerReceive
  | .listenerServe scriptOpens leftovers => s.listenerServe scriptOpens leftovers
  | .listenerStickGone rest alive => s.listenerStickGone rest alive
  | .listenerSend => s.listenerSend
  | .receiveCan => s.receiveCan
  | .drainCan => s.drainCan
  | .listenerEnd => s.listenerEnd
  | .notice => some { s with toScheduler := s.toScheduler.send noticeFrame none }
  | .corrupted => some { s with toScheduler := s.toScheduler.send corruptedFrame none }
  | .connect event => s.connect event

/-! ## The property -/

/-- The steps that carry an exchange on. -/
def Action.exchanges : Action ι → Bool
  | .receiveOpCode | .receivePayload | .listenerReceive | .listenerServe _ _ | .listenerSend
  | .receiveCan | .drainCan => true
  | _ => false

/-- The listener ends or has ended, or `OP_MEMORY_CORRUPTED` is on its way. -/
def Ending (s : Link ι) : Prop :=
  s.closed = true ∨ s.listener = .ended ∨ (∃ rest, s.listener = .sending rest false) ∨
    ∃ message ∈ s.toScheduler.unread, message.1.opCode = OP_MEMORY_CORRUPTED

/-- Requests and replies are not crossed: both ends read whole messages, in order; what is taken as
a reply was sent for the taker's own request; no operation code was unexpected; and while the
connection is in use, a thread that reads has something to wait for. -/
structure Uncrossed (s : Link ι) : Prop where
  requestsWhole : s.toKernelMemory.InStep
  repliesWhole : s.toScheduler.InStep
  own : ∀ taking ∈ s.taken, taking.2 = some taking.1
  expected : s.crossed = false
  notInVain : ¬ s.Ending → ∀ i phase, s.holder = some (i, phase) → HolderPhase.reads phase = true →
    ∃ action, Action.exchanges action = true ∧ (s.step action).isSome

end Steps

/-- An allocation whose size passes the first check is not above the limit as an `int` either, and a
process that is suspended is in the list. -/
def Orderly (s : Link ι) : Action ι → Prop
  | .listenerServe scriptOpens leftovers =>
    ∀ request ∈ s.nextRequest scriptOpens leftovers, request.Orderly s.tables
  | _ => True

instance (s : Link ι) (action : Action ι) : Decidable (s.Orderly action) := by
  cases action <;> unfold Orderly <;> infer_instance

/-! ## How far a request is -/

/-- The operation code of a request that nobody waits for. -/
def Silent (opCode : ℤ) : Prop :=
  ∃ kind : RequestKind, kind.opCode = opCode ∧ kind.awaitsReply = false

/-- A notice is no answer. -/
lemma notice_not_mem_expected (stage : Stage) : OP_NEW_MEMORY_STICK ∉ stage.expected := by
  cases stage with
  | reply kind => cases kind <;> decide
  | compactionDone => decide

/-- Nor is the report of a lost stick. -/
lemma corrupted_not_mem_expected (stage : Stage) : OP_MEMORY_CORRUPTED ∉ stage.expected := by
  cases stage with
  | reply kind => cases kind <;> decide
  | compactionDone => decide

/-- **How far the two ends are**: where the thread with the mutex is, which operation codes of
requests and of the listener's messages are not read, and where the listener is. -/
inductive Talk : HolderPhase → List ℤ → List ℤ → ListenerPhase → Prop
  /-- Nobody waits. -/
  | quiet {requests : List ℤ} {listener : ListenerPhase} :
      (∀ opCode ∈ requests, Silent opCode) → listener.IsIdle → Talk .locked requests [] listener
  /-- The request is on its way. -/
  | pending {phase : HolderPhase} {kind : RequestKind} {requests : List ℤ}
      {listener : ListenerPhase} :
      phase.waitsFor = some (.reply kind) → kind.awaitsReply = true →
      (∀ opCode ∈ requests, Silent opCode) → listener.IsIdle →
      Talk phase (requests ++ [kind.opCode]) [] listener
  /-- One message will end the request. -/
  | answered {phase : HolderPhase} {kind : RequestKind} {opCode : ℤ} {own : List ℤ}
      {listener : ListenerPhase} :
      phase.waitsFor = some (.reply kind) → opCode ∈ kind.answers → listener.Answering →
      own ++ listener.codes = [opCode] → Talk phase [] own listener
  /-- A compaction will be needed. -/
  | needed {phase : HolderPhase} {opCode : ℤ} {rest : List Frame} :
      phase.waitsFor = some (.reply .createSegment) → opCode ∈ RequestKind.createSegment.answers →
      rest.map Frame.opCode = [OP_COMPACTION_NEEDED, OP_COMPACTION_DONE, opCode] →
      Talk phase [] [] (.sending rest true)
  /-- The listener has said so. -/
  | asking {phase : HolderPhase} {opCode : ℤ} {rest : List Frame} :
      phase.waitsFor = some (.reply .createSegment) ∨
        phase = .draining (.reply .createSegment) OP_COMPACTION_NEEDED →
      opCode ∈ RequestKind.createSegment.answers →
      rest.map Frame.opCode = [OP_COMPACTION_DONE, opCode] →
      Talk phase [] [OP_COMPACTION_NEEDED] (.awaitingCan rest)
  /-- The thread gets the CPUs out of the way. -/
  | compacting {opCode : ℤ} {rest : List Frame} :
      opCode ∈ RequestKind.createSegment.answers →
      rest.map Frame.opCode = [OP_COMPACTION_DONE, opCode] →
      Talk .compacting [] [] (.awaitingCan rest)
  /-- `OP_CAN_COMPACT` is on its way. -/
  | allowed {phase : HolderPhase} {opCode : ℤ} {rest : List Frame} {listener : ListenerPhase} :
      phase.waitsFor = some .compactionDone → opCode ∈ RequestKind.createSegment.answers →
      rest.map Frame.opCode = [OP_COMPACTION_DONE, opCode] →
      listener = .awaitingCan rest ∨ listener = .drainingCan rest →
      Talk phase [OP_CAN_COMPACT] [] listener
  /-- The end of the compaction and the reply will come. -/
  | compacted {phase : HolderPhase} {opCode : ℤ} {own : List ℤ} {rest : List Frame} :
      phase.waitsFor = some .compactionDone ∨
        phase = .draining .compactionDone OP_COMPACTION_DONE →
      opCode ∈ RequestKind.createSegment.answers →
      own ++ rest.map Frame.opCode = [OP_COMPACTION_DONE, opCode] →
      Talk phase [] own (.sending rest true)
  /-- The thread reads the reply. -/
  | draining {kind : RequestKind} {opCode : ℤ} {listener : ListenerPhase} :
      opCode ∈ kind.answers → listener.Answering → listener.codes = [] →
      Talk (.draining (.reply kind) opCode) [] [opCode] listener
  /-- The first message of the answer is that the memory is corrupted. -/
  | corrupted {phase : HolderPhase} {kind : RequestKind} {opCodes own : List ℤ}
      {listener : ListenerPhase} :
      phase.waitsFor = some (.reply kind) →
      listener.Answering ∨ own ≠ [] ∧ (∃ rest, listener = .awaitingCan rest) →
      own ++ listener.codes = OP_MEMORY_CORRUPTED :: opCodes → Talk phase [] own listener

namespace Talk

variable {phase : HolderPhase} {stage : Stage} {opCode : ℤ} {requests own : List ℤ}
  {listener : ListenerPhase}

/-- An answer is expected by who asked. -/
lemma of_mem_answers {kind : RequestKind} (h : opCode ∈ kind.answers) :
    opCode ∈ (Stage.reply kind).expected := List.mem_append_left _ h

/-- A notice is read, or its payload. -/
lemma congr_waitsFor {phase' : HolderPhase} (h : Talk phase requests own listener)
    (hphase : phase.waitsFor = some stage) (hphase' : phase'.waitsFor = some stage) :
    Talk phase' requests own listener := by
  cases h with
  | quiet | compacting | draining => simp [HolderPhase.waitsFor] at hphase
  | pending hw ha hs hi => exact .pending (hphase'.trans (hphase.symm.trans hw)) ha hs hi
  | answered hw ho hl hc => exact .answered (hphase'.trans (hphase.symm.trans hw)) ho hl hc
  | needed hw ho hr => exact .needed (hphase'.trans (hphase.symm.trans hw)) ho hr
  | asking hw ho hr =>
    rcases hw with hw | rfl
    · exact .asking (.inl (hphase'.trans (hphase.symm.trans hw))) ho hr
    · simp [HolderPhase.waitsFor] at hphase
  | allowed hw ho hr hl => exact .allowed (hphase'.trans (hphase.symm.trans hw)) ho hr hl
  | compacted hw ho hr =>
    rcases hw with hw | rfl
    · exact .compacted (.inl (hphase'.trans (hphase.symm.trans hw))) ho hr
    · simp [HolderPhase.waitsFor] at hphase
  | corrupted hw hl hc => exact .corrupted (hphase'.trans (hphase.symm.trans hw)) hl hc

/-- **The next message of the listener** is expected, or it reports that the memory is corrupted. -/
lemma front (h : Talk phase requests (opCode :: own) listener)
    (hphase : phase.waitsFor = some stage) :
    opCode ∈ stage.expected ∧ opCode ≠ OP_NEW_MEMORY_STICK ∧
        Talk (.draining stage opCode) requests (opCode :: own) listener ∨
      opCode = OP_MEMORY_CORRUPTED := by
  cases h with
  | answered hw ho hl hc =>
    obtain ⟨rfl, hnil⟩ := List.cons.inj (List.cons_append ▸ hc)
    obtain ⟨rfl, hcodes⟩ := List.append_eq_nil_iff.1 hnil
    obtain rfl := Option.some.inj (hphase.symm.trans hw)
    exact .inl ⟨of_mem_answers ho, (RequestKind.of_mem_answers ho).1, .draining ho hl hcodes⟩
  | asking hw ho hr =>
    rcases hw with hw | rfl
    · obtain rfl := Option.some.inj (hphase.symm.trans hw)
      exact .inl ⟨by decide, by decide, .asking (.inr rfl) ho hr⟩
    · simp [HolderPhase.waitsFor] at hphase
  | compacted hw ho hr =>
    rcases hw with hw | rfl
    · obtain rfl := Option.some.inj (hphase.symm.trans hw)
      obtain ⟨rfl, -⟩ := List.cons.inj (List.cons_append ▸ hr)
      exact .inl ⟨by decide, by decide, .compacted (.inr rfl) ho hr⟩
    · simp [HolderPhase.waitsFor] at hphase
  | draining => simp [HolderPhase.waitsFor] at hphase
  | corrupted hw hl hc => exact .inr (List.cons.inj (List.cons_append ▸ hc)).1

/-- The message whose payload is read. -/
lemma of_draining (h : Talk (.draining stage opCode) requests own listener) :
    opCode ∈ stage.expected ∧ opCode ≠ OP_NEW_MEMORY_STICK ∧ opCode ≠ OP_MEMORY_CORRUPTED := by
  generalize hphase : HolderPhase.draining stage opCode = phase at h
  cases h with
  | quiet | compacting => simp at hphase
  | pending hw | answered hw | needed hw | allowed hw | corrupted hw =>
    subst hphase
    simp [HolderPhase.waitsFor] at hw
  | asking hw =>
    subst hphase
    rcases hw with hw | heq
    · simp [HolderPhase.waitsFor] at hw
    · obtain ⟨rfl, rfl⟩ := by simpa using heq
      decide
  | compacted hw =>
    subst hphase
    rcases hw with hw | heq
    · simp [HolderPhase.waitsFor] at hw
    · obtain ⟨rfl, rfl⟩ := by simpa using heq
      decide
  | draining ho =>
    obtain ⟨rfl, rfl⟩ := by simpa using hphase
    exact ⟨of_mem_answers ho, (RequestKind.of_mem_answers ho).1, (RequestKind.of_mem_answers ho).2.1⟩

/-- **A message is taken.** A thread that has taken the message of a compaction goes on in the same
request, and with any other message the request is over. -/
lemma taken (h : Talk (.draining stage opCode) requests (opCode :: own) listener) :
    Talk (goOn stage opCode (decide (stage = .compactionDone))).1 requests own listener := by
  generalize hphase : HolderPhase.draining stage opCode = phase at h
  generalize hcodes : opCode :: own = codes at h
  cases h with
  | quiet | compacting => simp at hphase
  | pending hw | answered hw | needed hw | allowed hw | corrupted hw =>
    subst hphase
    simp [HolderPhase.waitsFor] at hw
  | asking hw ho hr =>
    subst hphase
    rcases hw with hw | heq
    · simp [HolderPhase.waitsFor] at hw
    · obtain ⟨rfl, rfl⟩ := by simpa using heq
      obtain ⟨-, rfl⟩ := List.cons.inj hcodes
      exact .compacting ho hr
  | compacted hw ho hr =>
    subst hphase hcodes
    rcases hw with hw | heq
    · simp [HolderPhase.waitsFor] at hw
    · obtain ⟨rfl, rfl⟩ := by simpa using heq
      exact .answered rfl ho (.inl ⟨_, _, rfl⟩) (List.cons.inj (List.cons_append ▸ hr)).2
  | draining ho hl hnil =>
    obtain ⟨rfl, rfl⟩ := by simpa using hphase
    obtain ⟨-, rfl⟩ := List.cons.inj hcodes
    have hneeded := (RequestKind.of_mem_answers ho).2.2.1
    simp only [goOn, hneeded, if_false]
    refine .quiet (by simp) ?_
    rcases hl with ⟨rest, alive, rfl⟩ | rfl
    · obtain rfl := List.map_eq_nil_iff.1 hnil
      exact .inl ⟨alive, rfl⟩
    · exact .inr (.inr rfl)

/-- Who waits has asked. -/
lemma ne_locked (h : phase.waitsFor = some stage) : phase ≠ .locked := by
  rintro rfl
  simp [HolderPhase.waitsFor] at h

/-- Nobody waits while the thread with the mutex is between two requests. -/
lemma of_locked (h : Talk .locked requests own listener) :
    (∀ opCode ∈ requests, Silent opCode) ∧ own = [] ∧ listener.IsIdle := by
  cases h with
  | quiet hs hi => exact ⟨hs, rfl, hi⟩
  | pending hw | answered hw | needed hw | allowed hw | corrupted hw =>
    simp [HolderPhase.waitsFor] at hw
  | asking hw | compacted hw => simp [HolderPhase.waitsFor] at hw

/-- A request is sent. -/
lemma sendRequest (h : Talk .locked requests own listener) (kind : RequestKind) :
    Talk (if kind.awaitsReply then .awaiting (.reply kind) else .locked)
      (requests ++ [kind.opCode]) own listener := by
  obtain ⟨hs, rfl, hi⟩ := h.of_locked
  split
  · rename_i hawaits
    exact .pending rfl hawaits hs hi
  · rename_i hsilent
    refine .quiet (fun opCode hmem => ?_) hi
    rcases List.mem_append.1 hmem with hmem | hmem
    · exact hs opCode hmem
    · exact ⟨kind, (List.mem_singleton.1 hmem).symm, by simpa using hsilent⟩

/-- A compaction is allowed. -/
lemma sendCanCompact (h : Talk .compacting requests own listener) :
    requests = [] ∧ Talk (.awaiting .compactionDone) (requests ++ [OP_CAN_COMPACT]) own listener := by
  cases h with
  | compacting ho hr => exact ⟨rfl, .allowed rfl ho hr (.inl rfl)⟩
  | pending hw | answered hw | needed hw | allowed hw | corrupted hw =>
    simp [HolderPhase.waitsFor] at hw
  | asking hw | compacted hw => simp [HolderPhase.waitsFor] at hw

/-- **What the listener reads at its loop's head** is the operation code of a request. -/
lemma listenerReceive (h : Talk phase (opCode :: requests) own (.sending [] true)) :
    ∃ kind, RequestKind.ofOpCode opCode = some kind ∧
      Talk phase (opCode :: requests) own (.reading kind) := by
  generalize hrequests : opCode :: requests = codes at h
  have hidle (kind : RequestKind) : (ListenerPhase.reading kind).IsIdle := .inr (.inl ⟨kind, rfl⟩)
  cases h with
  | quiet hs hi =>
    obtain ⟨kind, rfl, -⟩ := hs opCode (hrequests ▸ List.mem_cons_self)
    exact ⟨kind, RequestKind.ofOpCode_opCode kind, .quiet hs (hidle kind)⟩
  | @pending _ kind silent _ hw ha hs hi =>
    obtain ⟨kind', hkind⟩ : ∃ kind' : RequestKind, kind'.opCode = opCode := by
      cases silent with
      | nil => exact ⟨kind, ((List.cons.inj hrequests).1).symm⟩
      | cons silent _ =>
        obtain ⟨kind', hkind, -⟩ := hs silent List.mem_cons_self
        exact ⟨kind', hkind.trans (List.cons.inj hrequests).1.symm⟩
    exact ⟨kind', hkind ▸ RequestKind.ofOpCode_opCode kind', .pending hw ha hs (hidle kind')⟩
  | answered | needed | compacted | draining | corrupted => simp at hrequests
  | allowed hw ho hr hl => simp at hl

/-- **A request is served.** -/
lemma listenerServe {kind : RequestKind} {rest : List Frame} {alive : Bool}
    (h : Talk phase (kind.opCode :: requests) own (.reading kind))
    (hanswers : Memory.Answers kind (rest.map Frame.opCode) alive) :
    Talk phase requests own (.sending rest alive) := by
  generalize hrequests : kind.opCode :: requests = codes at h
  generalize hanswer : rest.map Frame.opCode = answer at hanswers
  cases h with
  | quiet hs hi =>
    obtain ⟨kind', hkind, hsilent⟩ := hs kind.opCode (hrequests ▸ List.mem_cons_self)
    obtain rfl := RequestKind.opCode_injective hkind
    cases hanswers with
    | silent =>
      obtain rfl := List.map_eq_nil_iff.1 hanswer
      exact .quiet (fun c hc => hs c (hrequests ▸ List.mem_cons_of_mem _ hc)) (.inl ⟨true, rfl⟩)
    | once ho => cases kind' <;> simp [RequestKind.awaitsReply, RequestKind.answers] at hsilent ho
    | compacted hk => simp [hk, RequestKind.awaitsReply, RequestKind.answers] at hsilent
    | corrupted hw => simp [hw] at hsilent
  | @pending _ kind' silent _ hw ha hs hi =>
    cases silent with
    | nil =>
      obtain ⟨hkind, rfl⟩ := List.cons.inj hrequests
      obtain rfl := RequestKind.opCode_injective hkind
      cases hanswers with
      | silent hno => simp [ha] at hno
      | once ho => exact .answered hw ho (.inl ⟨rest, alive, rfl⟩) hanswer
      | compacted hk ho =>
        subst hk
        exact .needed hw ho hanswer
      | corrupted => exact .corrupted hw (.inl (.inl ⟨rest, alive, rfl⟩)) hanswer
    | cons code silent =>
      obtain ⟨hcode, rfl⟩ := List.cons.inj hrequests
      obtain ⟨kind'', hkind, hsilent⟩ := hs code List.mem_cons_self
      obtain rfl := RequestKind.opCode_injective (hkind.trans hcode.symm)
      cases hanswers with
      | silent =>
        obtain rfl := List.map_eq_nil_iff.1 hanswer
        exact .pending hw ha (fun c hc => hs c (List.mem_cons_of_mem _ hc)) (.inl ⟨true, rfl⟩)
      | once ho =>
        cases kind'' <;> simp [RequestKind.awaitsReply, RequestKind.answers] at hsilent ho
      | compacted hk => simp [hk, RequestKind.awaitsReply, RequestKind.answers] at hsilent
      | corrupted hw => simp [hw] at hsilent
  | answered | draining | corrupted => simp at hrequests
  | allowed hw ho hr hl => simp at hl

/-- **A message of an answer is sent**, and a thread waits for it. -/
lemma listenerSend {f : Frame} {rest : List Frame} {alive : Bool}
    (h : Talk phase requests own (.sending (f :: rest) alive)) :
    phase ≠ .locked ∧ requests = [] ∧ Talk phase requests (own ++ [f.opCode])
      (if f.opCode = OP_COMPACTION_NEEDED then .awaitingCan rest else .sending rest alive) := by
  cases h with
  | quiet hs hi => simp [ListenerPhase.IsIdle] at hi
  | pending hw ha hs hi => simp [ListenerPhase.IsIdle] at hi
  | allowed hw ho hr hl => simp at hl
  | answered hw ho hl hc =>
    obtain ⟨rfl, hf, hrest⟩ : own = [] ∧ f.opCode = _ ∧ rest.map Frame.opCode = [] := by
      rcases List.append_eq_singleton_iff.1 hc with ⟨hown, hcodes⟩ | ⟨-, hcodes⟩
      · exact ⟨hown, List.cons.inj hcodes⟩
      · simp [ListenerPhase.codes] at hcodes
    subst hf
    refine ⟨ne_locked hw, rfl, ?_⟩
    rw [if_neg (RequestKind.of_mem_answers ho).2.2.1]
    exact .answered hw ho (.inl ⟨rest, alive, rfl⟩) (congrArg (_ :: ·) hrest)
  | needed hw ho hr =>
    obtain ⟨hf, hrest⟩ := List.cons.inj hr
    refine ⟨ne_locked hw, rfl, ?_⟩
    rw [if_pos hf, hf]
    exact .asking (.inl hw) ho hrest
  | compacted hw ho hr =>
    have hne : f.opCode ≠ OP_COMPACTION_NEEDED := by
      have hmem : f.opCode ∈ own ++ (f :: rest).map Frame.opCode := by simp
      rw [hr] at hmem
      rcases List.mem_pair.1 hmem with hf | hf
      · rw [hf]
        decide
      · rw [hf]
        exact (RequestKind.of_mem_answers ho).2.2.1
    refine ⟨fun hlocked => ?_, rfl, ?_⟩
    · subst hlocked
      simp [HolderPhase.waitsFor] at hw
    · rw [if_neg hne]
      exact .compacted hw ho (by simpa using hr)
  | draining ho hl hnil => simp [ListenerPhase.codes] at hnil
  | @corrupted _ _ behind _ _ hw hl hc =>
    refine ⟨ne_locked hw, rfl, ?_⟩
    have hcodes : own ++ [f.opCode] ++ rest.map Frame.opCode = OP_MEMORY_CORRUPTED :: behind := by
      simpa [ListenerPhase.codes] using hc
    split
    · exact .corrupted hw (.inr ⟨by simp, rest, rfl⟩) hcodes
    · exact .corrupted hw (.inl (.inl ⟨rest, alive, rfl⟩)) hcodes

/-- What `notify_compaction` reads is `OP_CAN_COMPACT`. -/
lemma receiveCan {rest : List Frame}
    (h : Talk phase (opCode :: requests) own (.awaitingCan rest)) :
    opCode = OP_CAN_COMPACT ∧ Talk phase (opCode :: requests) own (.drainingCan rest) := by
  generalize hrequests : opCode :: requests = codes at h
  cases h with
  | quiet hs hi => simp [ListenerPhase.IsIdle] at hi
  | pending hw ha hs hi => simp [ListenerPhase.IsIdle] at hi
  | answered | asking | compacting | draining | corrupted => simp at hrequests
  | allowed hw ho hr hl =>
    obtain rfl := ListenerPhase.awaitingCan.inj (hl.resolve_right (by simp))
    exact ⟨(List.cons.inj hrequests).1, .allowed hw ho hr (.inr rfl)⟩

/-- `OP_CAN_COMPACT` is read, and the compaction is made. -/
lemma drainCan {rest : List Frame} (h : Talk phase (opCode :: requests) own (.drainingCan rest)) :
    requests = [] ∧ Talk phase requests own (.sending rest true) := by
  generalize hrequests : opCode :: requests = codes at h
  cases h with
  | quiet hs hi => simp [ListenerPhase.IsIdle] at hi
  | pending hw ha hs hi => simp [ListenerPhase.IsIdle] at hi
  | answered | draining | corrupted => simp at hrequests
  | allowed hw ho hr hl =>
    obtain rfl := ListenerPhase.drainingCan.inj (hl.resolve_left (by simp))
    obtain ⟨-, rfl⟩ := List.cons.inj hrequests
    exact ⟨rfl, .compacted (.inl hw) ho hr⟩

/-- What the listener reads as a request is none of the compaction. -/
lemma of_reading {kind : RequestKind} (h : Talk phase requests own (.reading kind)) :
    ∀ opCode ∈ requests, opCode ≠ OP_CAN_COMPACT := by
  have hsilent (opCode : ℤ) (h : Silent opCode) : opCode ≠ OP_CAN_COMPACT := by
    obtain ⟨kind, rfl, -⟩ := h
    exact kind.opCode_ne_canCompact
  cases h with
  | quiet hs hi => exact fun opCode hmem => hsilent opCode (hs opCode hmem)
  | @pending _ kind' _ _ hw ha hs hi =>
    intro opCode hmem
    rcases List.mem_append.1 hmem with hmem | hmem
    · exact hsilent opCode (hs opCode hmem)
    · rw [List.mem_singleton.1 hmem]
      exact kind'.opCode_ne_canCompact
  | answered | draining | corrupted => simp
  | allowed hw ho hr hl => simp at hl

/-- The listener ends. -/
lemma listenerEnd (h : Talk phase requests own (.sending [] false)) :
    Talk phase requests own .ended := by
  have hidle : ListenerPhase.ended.IsIdle := .inr (.inr rfl)
  cases h with
  | quiet hs hi => exact .quiet hs hidle
  | pending hw ha hs hi => exact .pending hw ha hs hidle
  | answered hw ho hl hc => exact .answered hw ho (.inr rfl) hc
  | allowed hw ho hr hl => simp at hl
  | draining ho hl hnil => exact .draining ho (.inr rfl) rfl
  | corrupted hw hl hc => exact .corrupted hw (.inl (.inr rfl)) hc

end Talk

end Link

end OsSimulator.Scheduler
