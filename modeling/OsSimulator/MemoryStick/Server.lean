import OsSimulator.Library.ByteStore
import OsSimulator.Library.SharedObject
import OsSimulator.Utils.Msg

set_option relaxedAutoImplicit false
set_option autoImplicit false

/-!
# The memory stick as a server

Kernel Memory and the CPUs send requests to a memory stick, each over its own connection. The thread
of a connection receives a request, gets at the memory under `memory_mutex` and sends the answer;
the threads run side by side. The bytes of a connection arrive in pieces of any length.

## Main definitions

* `Call`, `perform` — a request, with `read_memory` and `write_memory`.
* `receiveRequest` — a round of the loop of `handle_cpu_client`, or of the one in `main.c`.
* `Server`, `step` — the stick with its connections.
* `StickMessage` — what a client sends.

## Main results

* `answers_linear` — one order of the requests explains the memory and every answer.
* `served_by_own_steps` — a client gets all its answers by the steps of its own thread.
-/

namespace OsSimulator.MemoryStick

/-! ## The memory -/

/-- A request for a transfer, as it is read from its packet. -/
inductive Call
  | read (startPosition byteCount : ℤ)
  | write (startPosition : ℤ) (bytesToWrite : List UInt8) (byteCount : ℤ)
  deriving DecidableEq, Repr

/-- What the stick sends back. -/
inductive Answer
  | readDone (bytes : List UInt8)
  | writeDone
  deriving DecidableEq, Repr

/-- What `write_memory` answers. -/
def WRITE_SUCCESSFUL : List UInt8 := "Write successful".toList.map fun c => c.val.toUInt8

/-- The answer on the wire. -/
def Answer.wire : Answer → List UInt8
  | readDone bytes => sendBuffer OP_MEMORY_STICK_READ_DONE bytes
  | writeDone => sendString OP_MEMORY_STICK_WRITE_DONE WRITE_SUCCESSFUL

/-- The transfer stays inside the memory, and a write inside the bytes that came with it. The code
does not check this, and `memcpy` goes on from there. -/
def Call.InBounds (size : ℕ) : Call → Prop
  | read startPosition byteCount =>
    0 ≤ startPosition ∧ 0 ≤ byteCount ∧ startPosition + byteCount ≤ size
  | write startPosition bytesToWrite byteCount =>
    0 ≤ startPosition ∧ 0 ≤ byteCount ∧ byteCount ≤ bytesToWrite.length ∧
      startPosition + byteCount ≤ size

instance (size : ℕ) (call : Call) : Decidable (call.InBounds size) :=
  match call with
  | .read _ _ => inferInstanceAs (Decidable (_ ∧ _))
  | .write _ _ _ => inferInstanceAs (Decidable (_ ∧ _))

/-- `read_memory` and `write_memory`, between the lock and the unlock of `memory_mutex`. -/
def perform (call : Call) (memory : List UInt8) : Option (Answer × List UInt8) :=
  if call.InBounds memory.length then
    match call with
    | .read startPosition byteCount =>
      some (.readDone (slice memory startPosition.toNat byteCount.toNat), memory)
    | .write startPosition bytesToWrite byteCount =>
      some (.writeDone, splice memory startPosition.toNat (bytesToWrite.take byteCount.toNat))
  else none

/-- A call in the bounds is answered, and the memory keeps its size. -/
lemma perform_of_inBounds {call : Call} {memory : List UInt8} (h : call.InBounds memory.length) :
    ∃ answer memory', perform call memory = some (answer, memory') ∧
      memory'.length = memory.length := by
  unfold perform
  rw [if_pos h]
  cases call with
  | read startPosition byteCount => exact ⟨_, _, rfl, rfl⟩
  | write startPosition bytesToWrite byteCount =>
    obtain ⟨hstart, hcount, hbytes, hsize⟩ := h
    refine ⟨_, _, rfl, length_splice ?_⟩
    rw [List.length_take]
    omega

/-- No request changes the size of the memory. -/
lemma length_perform {call : Call} {memory memory' : List UInt8} {answer : Answer}
    (h : perform call memory = some (answer, memory')) : memory'.length = memory.length := by
  by_cases hin : call.InBounds memory.length
  · obtain ⟨answer', memory'', hperform, hlength⟩ := perform_of_inBounds hin
    obtain ⟨-, rfl⟩ := Prod.mk.inj (Option.some.inj (h.symm.trans hperform))
    exact hlength
  · unfold perform at h
    rw [if_neg hin] at h
    exact absurd h (by simp)

/-! ## A round of a thread -/

/-- Who is on a connection. -/
inductive Client
  | kernelMemory
  | cpu
  deriving DecidableEq, Repr

/-- `*(int*)` of an element of a packet; a shorter element is read beyond its end. -/
def intElement (element : Option (List UInt8)) : Option ℤ :=
  (element.filter fun bytes => 4 ≤ bytes.length).map fun bytes => decodeInt (bytes.take 4)

/-- The branch `OP_MEMORY_STICK_READ`: a packet that has not two elements is not a request. -/
def readRequest (packet : List (List UInt8)) : Option (Option Call) :=
  if packet.length ≠ 2 then some none
  else (intElement packet[0]?).bind fun startPosition =>
    (intElement packet[1]?).map fun byteCount => some (.read startPosition byteCount)

/-- The branch `OP_MEMORY_STICK_WRITE`: a packet that has not three elements is not a request. -/
def writeRequest (packet : List (List UInt8)) : Option (Option Call) :=
  if packet.length ≠ 3 then some none
  else (intElement packet[0]?).bind fun startPosition =>
    packet[1]?.bind fun bytesToWrite =>
      (intElement packet[2]?).map fun byteCount =>
        some (.write startPosition bytesToWrite byteCount)

/-- What a round of the loop receives. -/
inductive Reception
  | call (call : Call)
  /-- nothing that is answered -/
  | ignored
  /-- an operation that ends the loop -/
  | unexpected
  deriving DecidableEq, Repr

/-- The reception of a packet. -/
def Reception.ofRequest : Option Call → Reception
  | some c => .call c
  | none => .ignored

/-- The `switch` of `handle_cpu_client`, and that of `main.c` for Kernel Memory. There is no value
while the message has not arrived whole, and where an element is too short. -/
def receiveRequest (client : Client) (connection : List UInt8) :
    Option (Reception × List UInt8) :=
  (receiveOpCode connection).bind fun received =>
    if received.1 = OP_MEMORY_STICK_READ then
      (receivePacket received.2).bind fun packet =>
        (readRequest packet.1).map fun request => (.ofRequest request, packet.2)
    else if received.1 = OP_MEMORY_STICK_WRITE then
      (receivePacket received.2).bind fun packet =>
        (writeRequest packet.1).map fun request => (.ofRequest request, packet.2)
    else if client = .kernelMemory ∧ received.1 = OP_KERNEL_MEMORY_RUNNING then
      (receiveString received.2).map fun text => (.ignored, text.2)
    else some (.unexpected, received.2)

/-- What follows a message does not change it. -/
lemma steady_receiveRequest (client : Client) : Steady (receiveRequest client) := by
  have hround : ∀ opCode : ℤ, Steady fun connection =>
      if opCode = OP_MEMORY_STICK_READ then
        (receivePacket connection).bind fun packet =>
          (readRequest packet.1).map fun request => (Reception.ofRequest request, packet.2)
      else if opCode = OP_MEMORY_STICK_WRITE then
        (receivePacket connection).bind fun packet =>
          (writeRequest packet.1).map fun request => (Reception.ofRequest request, packet.2)
      else if client = .kernelMemory ∧ opCode = OP_KERNEL_MEMORY_RUNNING then
        (receiveString connection).map fun text => (Reception.ignored, text.2)
      else some (Reception.unexpected, connection) := fun opCode =>
    (steady_receivePacket.bind fun packet =>
        steady_option (readRequest packet) Reception.ofRequest).ite
      ((steady_receivePacket.bind fun packet =>
          steady_option (writeRequest packet) Reception.ofRequest).ite
        ((steady_receiveString.map fun _ => Reception.ignored).ite (steady_some _)))
  exact steady_receiveOpCode.bind hround

/-! ## What a client sends -/

/-- A message to the stick: a request with any elements, or `any_stick_unreachable` of Kernel
Memory. -/
inductive StickMessage
  | read (elements : List (List UInt8))
  | write (elements : List (List UInt8))
  | running (text : List UInt8)
  deriving DecidableEq, Repr

namespace StickMessage

/-- The message as it is sent. -/
def message : StickMessage → WireMessage
  | read elements => .packet OP_MEMORY_STICK_READ elements
  | write elements => .packet OP_MEMORY_STICK_WRITE elements
  | running text => .string OP_KERNEL_MEMORY_RUNNING text

/-- The request in the message, if it is one. -/
def call? : StickMessage → Option Call
  | read elements => (readRequest elements).getD none
  | write elements => (writeRequest elements).getD none
  | running _ => none

/-- The integers of the message are there, and only Kernel Memory asks whether the stick runs. -/
def Readable (client : Client) : StickMessage → Prop
  | read elements => (readRequest elements).isSome
  | write elements => (writeRequest elements).isSome
  | running _ => client = .kernelMemory

instance (client : Client) (m : StickMessage) : Decidable (m.Readable client) :=
  match m with
  | read elements => inferInstanceAs (Decidable ((readRequest elements).isSome))
  | write elements => inferInstanceAs (Decidable ((writeRequest elements).isSome))
  | running _ => inferInstanceAs (Decidable (client = .kernelMemory))

/-- The message can be sent, and the stick can read it. -/
def Proper (client : Client) (m : StickMessage) : Prop := m.message.Sendable ∧ m.Readable client

end StickMessage

/-- **A message is received as the request that was sent.** -/
lemma receiveRequest_send {client : Client} {m : StickMessage} (h : m.Proper client)
    (rest : List UInt8) :
    receiveRequest client (m.message.send ++ rest) = some (.ofRequest m.call?, rest) := by
  obtain ⟨hsend, hreadable⟩ := h
  cases m with
  | read elements =>
    obtain ⟨hop, hne, hsize⟩ := hsend
    obtain ⟨request, hrequest⟩ := Option.isSome_iff_exists.1 hreadable
    simp only [StickMessage.message, WireMessage.send, sendPacket, serializePacket,
      List.append_assoc]
    rw [receiveRequest, receiveOpCode_append hop, Option.bind_some]
    simp only [if_true]
    rw [receivePacket_append hne hsize, Option.bind_some]
    simp only [hrequest, StickMessage.call?, Option.map_some, Option.getD_some]
  | write elements =>
    obtain ⟨hop, hne, hsize⟩ := hsend
    obtain ⟨request, hrequest⟩ := Option.isSome_iff_exists.1 hreadable
    simp only [StickMessage.message, WireMessage.send, sendPacket, serializePacket,
      List.append_assoc]
    rw [receiveRequest, receiveOpCode_append hop, Option.bind_some]
    dsimp only
    rw [if_neg (by decide), if_pos rfl, receivePacket_append hne hsize, Option.bind_some]
    simp only [hrequest, StickMessage.call?, Option.map_some, Option.getD_some]
  | running text =>
    obtain ⟨hop, hsize, hzero⟩ := hsend
    obtain rfl : client = .kernelMemory := hreadable
    have hreceive := @receive_send (.string OP_KERNEL_MEMORY_RUNNING text) ⟨hop, hsize, hzero⟩ rest
    simp only [StickMessage.message, WireMessage.send, sendString, serializePacket,
      List.append_assoc] at hreceive ⊢
    rw [WireMessage.receive, receiveOpCode_append hop, Option.bind_some] at hreceive
    rw [receiveRequest, receiveOpCode_append hop, Option.bind_some]
    dsimp only
    rw [if_neg (by decide), if_neg (by decide), if_pos ⟨rfl, rfl⟩]
    obtain ⟨⟨received, rest'⟩, htext, heq⟩ := Option.map_eq_some_iff.1 hreceive
    obtain ⟨-, rfl⟩ := Prod.mk.inj heq
    rw [htext, Option.map_some]
    rfl

/-! ## The connections -/

/-- The stick: its memory with the stages of the threads, and of every connection the bytes that
have not been received yet, all bytes that have arrived, all bytes that were sent back, and whether
its thread is in the loop. -/
structure Server (ι : Type) where
  ms : SharedObject ι (List UInt8) Call Answer
  inbox : ι → List UInt8
  arrived : ι → List UInt8
  outbox : ι → List UInt8
  running : ι → Bool

/-- What can happen next. -/
inductive Event (ι : Type)
  | arrive (i : ι) (bytes : List UInt8)
  | receive (i : ι)
  | access (i : ι)
  | reply (i : ι)

variable {ι : Type}

/-- The step is one of the thread of the connection. -/
def Event.IsOwn (i : ι) : Event ι → Prop
  | .arrive _ _ => False
  | .receive j | .access j | .reply j => j = i

/-- The stick before anything has arrived. -/
def init (memory : List UInt8) : Server ι :=
  ⟨.init memory, fun _ => [], fun _ => [], fun _ => [], fun _ => true⟩

section Steps

variable [DecidableEq ι]

/-- The bytes that are left to a connection after a reception. -/
def Server.setInbox (i : ι) (bytes : List UInt8) (s : Server ι) : Server ι :=
  { s with inbox := Function.update s.inbox i bytes }

/-- One step: bytes arrive; a thread between two requests receives one; a thread with a request
gets at the memory; a thread that has been there sends its answer. -/
def step (client : ι → Client) (s : Server ι) : Event ι → Option (Server ι)
  | .arrive i bytes => some
    { s with
      inbox := Function.update s.inbox i (s.inbox i ++ bytes)
      arrived := Function.update s.arrived i (s.arrived i ++ bytes) }
  | .receive i =>
    match s.running i, s.ms.stage i with
    | true, .idle =>
      (receiveRequest (client i) (s.inbox i)).bind fun received =>
        match received.1 with
        | .call call => (s.ms.ask i call).map fun ms => { s.setInbox i received.2 with ms := ms }
        | .ignored => some (s.setInbox i received.2)
        | .unexpected => some
          { s.setInbox i received.2 with running := Function.update s.running i false }
    | _, _ => none
  | .access i => (s.ms.access perform i).map fun ms => { s with ms := ms }
  | .reply i =>
    (s.ms.answer i).map fun answered =>
      { s with
        ms := answered.2
        outbox := Function.update s.outbox i (s.outbox i ++ answered.1.wire) }

end Steps

/-! ## Served in one order -/

/-- The bytes of messages that a client sends one after another. -/
def sentBytes (messages : List StickMessage) : List UInt8 :=
  sendAll (messages.map StickMessage.message)

/-- The bytes of the first message and of the rest. -/
@[simp] lemma sentBytes_cons (m : StickMessage) (messages : List StickMessage) :
    sentBytes (m :: messages) = m.message.send ++ sentBytes messages := rfl

/-- The bytes of two lists one behind the other. -/
@[simp] lemma sentBytes_append (messages messages' : List StickMessage) :
    sentBytes (messages ++ messages') = sentBytes messages ++ sentBytes messages' := by
  simp [sentBytes, sendAll]

/-- The thread finds the next message in what has arrived of the messages. -/
lemma receiveRequest_of_prefix {client : Client} {messages : List StickMessage}
    (hproper : ∀ m ∈ messages, m.Proper client) {connection rest : List UInt8}
    {reception : Reception} (hfirst : connection <+: sentBytes messages)
    (h : receiveRequest client connection = some (reception, rest)) :
    ∃ m behind, messages = m :: behind ∧ reception = .ofRequest m.call? ∧
      connection = m.message.send ++ rest := by
  obtain ⟨more, hmore⟩ := hfirst
  have hwhole := steady_receiveRequest client _ _ _ more h
  rw [hmore] at hwhole
  cases messages with
  | nil => exact absurd hwhole (by cases client <;> simp [sentBytes, sendAll, receiveRequest,
      receiveOpCode, socketReceive])
  | cons m behind =>
    rw [sentBytes_cons, receiveRequest_send (hproper m List.mem_cons_self)] at hwhole
    obtain ⟨rfl, hrest⟩ := Prod.mk.inj (Option.some.inj hwhole)
    refine ⟨m, behind, rfl, rfl, ?_⟩
    rw [sentBytes_cons, hrest, ← List.append_assoc] at hmore
    exact List.append_cancel_right hmore

section Serving

variable [DecidableEq ι] {client : ι → Client} {memory : List UInt8}
  {requests : ι → List StickMessage} {s s' : Server ι}

/-- **The invariant**: the order explains memory and answers, and every thread has received the
first messages of its client, asked for the requests among them and sent the answers given. -/
structure Serving (memory : List UInt8) (requests : ι → List StickMessage) (s : Server ι) :
    Prop where
  linear : s.ms.Linear perform memory
  connection : ∀ i, ∃ handled unread, requests i = handled ++ unread ∧
    s.arrived i = sentBytes handled ++ s.inbox i ∧
    s.ms.asked i = handled.filterMap StickMessage.call?
  outbox : ∀ i, s.outbox i = (s.ms.answered i).flatMap Answer.wire
  running : ∀ i, s.running i = true

/-- The invariant holds at the start. -/
lemma serving_init (memory : List UInt8) (requests : ι → List StickMessage) :
    Serving memory requests (init memory) :=
  ⟨SharedObject.linear_init perform memory, fun i => ⟨[], requests i, rfl, rfl, rfl⟩,
    fun _ => rfl, fun _ => rfl⟩

/-- Nothing that has arrived is forgotten. -/
lemma arrived_prefix_of_step {e : Event ι} (h : step client s e = some s') (i : ι) :
    s.arrived i <+: s'.arrived i := by
  cases e with
  | arrive j bytes =>
    obtain rfl := Option.some.inj h
    dsimp only
    rcases eq_or_ne i j with rfl | hj
    · rw [Function.update_self]
      exact List.prefix_append _ _
    · simp [Function.update_of_ne hj]
  | receive j =>
    simp only [step] at h
    split at h
    · obtain ⟨⟨reception, rest⟩, -, hround⟩ := Option.bind_eq_some_iff.1 h
      cases reception with
      | call call =>
        obtain ⟨ms, -, rfl⟩ := Option.map_eq_some_iff.1 hround
        exact List.prefix_rfl
      | ignored =>
        obtain rfl := Option.some.inj hround
        exact List.prefix_rfl
      | unexpected =>
        obtain rfl := Option.some.inj hround
        exact List.prefix_rfl
    · exact absurd h (by simp)
  | access j =>
    obtain ⟨ms, -, rfl⟩ := Option.map_eq_some_iff.1 h
    exact List.prefix_rfl
  | reply j =>
    obtain ⟨answered, -, rfl⟩ := Option.map_eq_some_iff.1 h
    exact List.prefix_rfl

/-- **A step keeps it.** What a thread receives is the next message of its client, because what has
arrived is the beginning of the bytes the client sends. -/
lemma Serving.step (hproper : ∀ i, ∀ m ∈ requests i, m.Proper (client i))
    (hs : Serving memory requests s) {e : Event ι} (h : MemoryStick.step client s e = some s')
    (harrived : ∀ i, s'.arrived i <+: sentBytes (requests i)) : Serving memory requests s' := by
  have harrived' : ∀ i, s.arrived i <+: sentBytes (requests i) := fun i =>
    (arrived_prefix_of_step h i).trans (harrived i)
  obtain ⟨hlinear, hconnection, houtbox, hrunning⟩ := hs
  cases e with
  | arrive j bytes =>
    obtain rfl := Option.some.inj h
    refine ⟨hlinear, fun i => ?_, houtbox, hrunning⟩
    obtain ⟨handled, unread, hsplit, hbytes, hasked⟩ := hconnection i
    refine ⟨handled, unread, hsplit, ?_, hasked⟩
    dsimp only
    rcases eq_or_ne i j with rfl | hj
    · rw [Function.update_self, Function.update_self, hbytes, List.append_assoc]
    · rw [Function.update_of_ne hj, Function.update_of_ne hj, hbytes]
  | receive j =>
    simp only [MemoryStick.step] at h
    split at h
    · obtain ⟨⟨reception, rest⟩, hreceive, hround⟩ := Option.bind_eq_some_iff.1 h
      obtain ⟨handled, unread, hsplit, hbytes, hasked⟩ := hconnection j
      have hfirst : s.inbox j <+: sentBytes unread := by
        have := harrived' j
        rw [hbytes, hsplit, sentBytes_append] at this
        exact (List.prefix_append_right_inj _).1 this
      obtain ⟨m, behind, rfl, rfl, hinbox⟩ := receiveRequest_of_prefix
        (fun m hm => hproper j m (by rw [hsplit]; exact List.mem_append_right _ hm)) hfirst
        hreceive
      -- whatever the message is, its bytes have gone from the inbox to what has been handled
      have hnext : ∀ ms : SharedObject ι (List UInt8) Call Answer,
          ms.asked = Function.update s.ms.asked j (s.ms.asked j ++ m.call?.toList) →
          ∀ i, ∃ handled unread, requests i = handled ++ unread ∧
            s.arrived i = sentBytes handled ++ Function.update s.inbox j rest i ∧
            ms.asked i = handled.filterMap StickMessage.call? := by
        intro ms hms i
        rcases eq_or_ne i j with rfl | hj
        · refine ⟨handled ++ [m], behind, by rw [hsplit, List.append_assoc]; rfl, ?_, ?_⟩
          · rw [Function.update_self, hbytes, hinbox, sentBytes_append]
            simp [sentBytes, sendAll]
          · rw [hms, Function.update_self, hasked, List.filterMap_append]
            cases hm : m.call? <;> simp [hm]
        · rw [Function.update_of_ne hj, hms, Function.update_of_ne hj]
          exact hconnection i
      cases hcall : m.call? with
      | some call =>
        rw [hcall] at hround
        obtain ⟨ms, hask, rfl⟩ := Option.map_eq_some_iff.1 hround
        obtain ⟨-, hms⟩ := SharedObject.ask_eq_some hask
        refine ⟨hlinear.ask hask, hnext ms ?_, ?_, hrunning⟩
        · rw [hms, hcall]
          rfl
        · rw [hms]
          exact houtbox
      | none =>
        rw [hcall] at hround
        obtain rfl := Option.some.inj hround
        refine ⟨hlinear, hnext s.ms ?_, houtbox, hrunning⟩
        rw [hcall, Option.toList_none, List.append_nil, Function.update_eq_self]
    · exact absurd h (by simp)
  | access j =>
    obtain ⟨ms, haccess, rfl⟩ := Option.map_eq_some_iff.1 h
    obtain ⟨request, done, hstage, hperform, hms⟩ := SharedObject.access_eq_some haccess
    refine ⟨hlinear.access haccess, ?_, ?_, hrunning⟩
    · rw [hms]
      exact hconnection
    · rw [hms]
      exact houtbox
  | reply j =>
    obtain ⟨⟨answer, ms⟩, hanswer, rfl⟩ := Option.map_eq_some_iff.1 h
    obtain ⟨hstage, hms⟩ := SharedObject.answer_eq_some hanswer
    refine ⟨hlinear.answer hanswer, ?_, fun i => ?_, hrunning⟩
    · rw [hms]
      exact hconnection
    · rw [hms]
      dsimp only
      rcases eq_or_ne i j with rfl | hj
      · rw [Function.update_self, Function.update_self, houtbox, List.flatMap_append]
        simp
      · rw [Function.update_of_ne hj, Function.update_of_ne hj, houtbox]

/-- It holds all the way, as long as the clients send what they should. -/
lemma serving_of_reachable (hproper : ∀ i, ∀ m ∈ requests i, m.Proper (client i))
    (hrun : Reachable (MemoryStick.step client) (init memory) s)
    (harrived : ∀ i, s.arrived i <+: sentBytes (requests i)) : Serving memory requests s := by
  induction hrun with
  | refl => exact serving_init memory requests
  | tail e _ _ hstep ih =>
    exact (ih fun i => (arrived_prefix_of_step hstep i).trans (harrived i)).step hproper hstep
      harrived

/-- The order only grows, and only at its end. -/
lemma order_prefix_of_step {e : Event ι} (h : MemoryStick.step client s e = some s') :
    s.ms.order <+: s'.ms.order := by
  cases e with
  | arrive j bytes =>
    obtain rfl := Option.some.inj h
    exact List.prefix_rfl
  | receive j =>
    simp only [MemoryStick.step] at h
    split at h
    · obtain ⟨⟨reception, rest⟩, -, hround⟩ := Option.bind_eq_some_iff.1 h
      cases reception with
      | call call =>
        obtain ⟨ms, hask, rfl⟩ := Option.map_eq_some_iff.1 hround
        obtain ⟨-, rfl⟩ := SharedObject.ask_eq_some hask
        exact List.prefix_rfl
      | ignored =>
        obtain rfl := Option.some.inj hround
        exact List.prefix_rfl
      | unexpected =>
        obtain rfl := Option.some.inj hround
        exact List.prefix_rfl
    · exact absurd h (by simp)
  | access j =>
    obtain ⟨ms, haccess, rfl⟩ := Option.map_eq_some_iff.1 h
    obtain ⟨request, done, -, -, rfl⟩ := SharedObject.access_eq_some haccess
    exact List.prefix_append _ _
  | reply j =>
    obtain ⟨⟨answer, ms⟩, hanswer, rfl⟩ := Option.map_eq_some_iff.1 h
    obtain ⟨-, rfl⟩ := SharedObject.answer_eq_some hanswer
    exact List.prefix_rfl

/-- **One order explains what every client sees.** In any interleaving of the connections, with the
bytes arriving in any pieces, there is one order of the requests: performed in it one after another
they lead to the memory of the stick; it has the requests of every client in the order in which they
were sent; every client has received the first answers to its own requests; and nothing is put into
the order later on but at its end.

**Proof sketch.** The invariant along the run, and the order along what follows it. -/
theorem answers_linear (hproper : ∀ i, ∀ m ∈ requests i, m.Proper (client i))
    (hrun : Reachable (MemoryStick.step client) (init memory) s)
    (harrived : ∀ i, s.arrived i <+: sentBytes (requests i)) :
    (∃ answers, performAll perform s.ms.order memory = some (answers, s.ms.object) ∧
      ∀ i, ofClient i s.ms.order <+: (requests i).filterMap StickMessage.call? ∧
        s.outbox i <+: (ofClient i answers).flatMap Answer.wire) ∧
      ∀ t, Reachable (MemoryStick.step client) s t → s.ms.order <+: t.ms.order := by
  obtain ⟨⟨⟨answers, hall, hanswers⟩, hasked⟩, hconnection, houtbox, -⟩ :=
    serving_of_reachable hproper hrun harrived
  refine ⟨⟨answers, hall, fun i => ⟨?_, ?_⟩⟩, fun t ht => ?_⟩
  · obtain ⟨handled, unread, hsplit, -, hhandled⟩ := hconnection i
    rw [hsplit, List.filterMap_append, ← hhandled, hasked i, List.append_assoc]
    exact List.prefix_append _ _
  · rw [houtbox i, hanswers i, List.flatMap_append]
    exact List.prefix_append _ _
  · exact ht.invariant (I := fun u => s.ms.order <+: u.ms.order) List.prefix_rfl
      fun u e v hu _ hv => hu.trans (order_prefix_of_step hv)

/-! ## A client is not kept waiting -/

/-- What the thread of a connection has in front of it: the bytes that have arrived, and the steps
that its request still takes. -/
def Server.left (s : Server ι) (i : ι) : ℕ :=
  3 * (s.inbox i).length + match s.ms.stage i with
    | .idle => 0
    | .asked _ => 2
    | .performed _ => 1

/-- The requests of a client stay inside a memory of that size. -/
def AllInBounds (size : ℕ) (messages : List StickMessage) : Prop :=
  ∀ m ∈ messages, ∀ call ∈ m.call?, call.InBounds size

/-- The memory keeps its size. -/
lemma Serving.length_object (hs : Serving memory requests s) :
    s.ms.object.length = memory.length := by
  obtain ⟨answers, hall, -⟩ := hs.linear.performed
  exact performAll_invariant (I := fun object => object.length = memory.length)
    (fun request object answer object' hlength hperform =>
      (length_perform hperform).trans hlength) hall rfl

/-- No message is empty. -/
lemma length_send_pos (message : WireMessage) : 0 < message.send.length := by
  have hle := length_le_length_sendAll [message]
  simp only [sendAll, List.flatMap_cons, List.flatMap_nil, List.append_nil,
    List.length_singleton] at hle
  omega

/-- A call that has arrived as a whole begins. -/
lemma step_receive_call {i : ι} {call : Call} {rest : List UInt8} (hrunning : s.running i = true)
    (hstage : s.ms.stage i = .idle)
    (h : receiveRequest (client i) (s.inbox i) = some (.call call, rest)) :
    MemoryStick.step client s (.receive i) = some { s.setInbox i rest with
      ms := { s.ms with
        stage := Function.update s.ms.stage i (.asked call)
        asked := Function.update s.ms.asked i (s.ms.asked i ++ [call]) } } := by
  simp only [MemoryStick.step, hrunning, hstage, h, Option.bind_some, SharedObject.ask,
    Option.map_some]

/-- A message that is no call is passed over. -/
lemma step_receive_ignored {i : ι} {rest : List UInt8} (hrunning : s.running i = true)
    (hstage : s.ms.stage i = .idle)
    (h : receiveRequest (client i) (s.inbox i) = some (.ignored, rest)) :
    MemoryStick.step client s (.receive i) = some (s.setInbox i rest) := by
  simp only [MemoryStick.step, hrunning, hstage, h, Option.bind_some]

/-- **The thread can go on** while its client has something in front of it, whatever the other
threads do, and has less in front of it afterwards. -/
lemma exists_own_step (hproper : ∀ i, ∀ m ∈ requests i, m.Proper (client i))
    (hs : Serving memory requests s) {i : ι} (hall : s.arrived i = sentBytes (requests i))
    (hbounds : AllInBounds memory.length (requests i)) (hleft : s.left i ≠ 0) :
    ∃ e s', e.IsOwn i ∧ MemoryStick.step client s e = some s' ∧ s'.arrived = s.arrived ∧
      s'.left i < s.left i := by
  have hobject := hs.length_object
  obtain ⟨hlinear, hconnection, houtbox, hrunning⟩ := hs
  obtain ⟨handled, unread, hsplit, hbytes, hasked⟩ := hconnection i
  cases hstage : s.ms.stage i with
  | performed answer =>
    have hanswer : s.ms.answer i = some (answer, { s.ms with
        stage := Function.update s.ms.stage i .idle
        answered := Function.update s.ms.answered i (s.ms.answered i ++ [answer]) }) := by
      simp only [SharedObject.answer, hstage]
    refine ⟨.reply i, _, rfl, Option.map_eq_some_iff.2 ⟨_, hanswer, rfl⟩, rfl, ?_⟩
    simp [Server.left, hstage]
  | asked call =>
    have hmem : call ∈ s.ms.asked i := by
      rw [hlinear.asked i, hstage]
      exact List.mem_append_right _ List.mem_cons_self
    rw [hasked] at hmem
    obtain ⟨m, hm, hcall⟩ := List.mem_filterMap.1 hmem
    have hin : call.InBounds s.ms.object.length := by
      rw [hobject]
      exact hbounds m (by rw [hsplit]; exact List.mem_append_left _ hm) call hcall
    obtain ⟨answer, object, hperform, -⟩ := perform_of_inBounds hin
    have haccess : s.ms.access perform i = some { s.ms with
        object := object
        stage := Function.update s.ms.stage i (.performed answer)
        order := s.ms.order ++ [(i, call)] } := by
      simp only [SharedObject.access, hstage, hperform, Option.map_some]
    refine ⟨.access i, _, rfl, Option.map_eq_some_iff.2 ⟨_, haccess, rfl⟩, rfl, ?_⟩
    simp [Server.left, hstage]
  | idle =>
    have hinbox : s.inbox i = sentBytes unread := by
      rw [hbytes, hsplit, sentBytes_append] at hall
      exact List.append_cancel_left hall
    cases unread with
    | nil => exact absurd (by simp [Server.left, hstage, hinbox, sentBytes, sendAll]) hleft
    | cons m behind =>
      have hreceive : receiveRequest (client i) (s.inbox i) =
          some (.ofRequest m.call?, sentBytes behind) := by
        rw [hinbox, sentBytes_cons]
        exact receiveRequest_send (hproper i m (by rw [hsplit]; simp)) _
      have hlength := length_send_pos m.message
      have hshorter : (sentBytes behind).length < (s.inbox i).length := by
        rw [hinbox, sentBytes_cons, List.length_append]
        omega
      cases hcall : m.call? with
      | some call =>
        rw [hcall] at hreceive
        refine ⟨.receive i, _, rfl, step_receive_call (hrunning i) hstage hreceive, rfl, ?_⟩
        simp only [Server.left, Server.setInbox, Function.update_self, hstage]
        omega
      | none =>
        rw [hcall] at hreceive
        refine ⟨.receive i, _, rfl, step_receive_ignored (hrunning i) hstage hreceive, rfl, ?_⟩
        simp only [Server.left, Server.setInbox, Function.update_self, hstage]
        omega

/-- By its own steps, the thread gets to where its client has nothing left in front of it. -/
lemma exists_own_run (hproper : ∀ i, ∀ m ∈ requests i, m.Proper (client i))
    (hs : Serving memory requests s) (harrived : ∀ i, s.arrived i <+: sentBytes (requests i))
    {i : ι} (hall : s.arrived i = sentBytes (requests i))
    (hbounds : AllInBounds memory.length (requests i)) :
    ∃ events t, (∀ e ∈ events, e.IsOwn i) ∧
      execute (MemoryStick.step client) s events = some t ∧ Serving memory requests t ∧
      t.arrived = s.arrived ∧ t.left i = 0 := by
  induction hn : s.left i using Nat.strong_induction_on generalizing s with
  | _ n ih =>
    by_cases hzero : s.left i = 0
    · exact ⟨[], s, by simp, rfl, hs, rfl, hzero⟩
    · obtain ⟨e, s', hown, hstep, hsame, hless⟩ := exists_own_step hproper hs hall hbounds hzero
      have harrived' : ∀ j, s'.arrived j <+: sentBytes (requests j) := by
        rw [hsame]
        exact harrived
      obtain ⟨events, t, howns, hexecute, ht, hsame', hdone⟩ :=
        ih (s'.left i) (hn ▸ hless) (hs.step hproper hstep harrived') harrived'
          (by rw [hsame, hall]) rfl
      refine ⟨e :: events, t, ?_, ?_, ht, hsame'.trans hsame, hdone⟩
      · intro e' he'
        rcases List.mem_cons.1 he' with rfl | he'
        · exact hown
        · exact howns e' he'
      · rw [execute, hstep, Option.bind_some, hexecute]

/-- **No client is kept waiting by another one.** From any state of any interleaving, once all bytes
of a client have arrived, the steps of its own thread alone lead to a state in which all its
requests have been performed, in the order they were sent in, and all answers to them have been sent back.

**Proof sketch.** Every step of the thread leaves less in front of the client, and it can take one
until there is nothing left. -/
theorem served_by_own_steps (hproper : ∀ i, ∀ m ∈ requests i, m.Proper (client i))
    (hrun : Reachable (MemoryStick.step client) (init memory) s)
    (harrived : ∀ i, s.arrived i <+: sentBytes (requests i)) {i : ι}
    (hall : s.arrived i = sentBytes (requests i))
    (hbounds : AllInBounds memory.length (requests i)) :
    ∃ events t answers, (∀ e ∈ events, e.IsOwn i) ∧
      execute (MemoryStick.step client) s events = some t ∧
      performAll perform t.ms.order memory = some (answers, t.ms.object) ∧
      ofClient i t.ms.order = (requests i).filterMap StickMessage.call? ∧
      t.outbox i = (ofClient i answers).flatMap Answer.wire := by
  obtain ⟨events, t, howns, hexecute, ht, hsame, hdone⟩ := exists_own_run hproper
    (serving_of_reachable hproper hrun harrived) harrived hall hbounds
  obtain ⟨⟨⟨answers, hperform, hanswers⟩, hasked⟩, hconnection, houtbox, -⟩ := ht
  have hinbox : t.inbox i = [] := by
    rw [← List.length_eq_zero_iff]
    unfold Server.left at hdone
    omega
  have hidle : t.ms.stage i = .idle := by
    unfold Server.left at hdone
    cases hstage : t.ms.stage i with
    | idle => rfl
    | asked call => simp [hstage] at hdone
    | performed answer => simp [hstage] at hdone
  refine ⟨events, t, answers, howns, hexecute, hperform, ?_, ?_⟩
  · obtain ⟨handled, unread, hsplit, hbytes, hhandled⟩ := hconnection i
    have hunread : unread = [] := by
      rw [hinbox, List.append_nil, hsame, hall, hsplit, sentBytes_append] at hbytes
      have hnil := List.append_right_eq_self.1 hbytes
      cases unread with
      | nil => rfl
      | cons m behind =>
        have hpos := length_send_pos m.message
        rw [sentBytes_cons] at hnil
        rw [(List.append_eq_nil_iff.1 hnil).1] at hpos
        exact absurd hpos (by simp)
    rw [hsplit, hunread, List.append_nil, ← hhandled, hasked i, hidle]
    simp [Stage.request]
  · rw [houtbox i, hanswers i, hidle]
    simp [Stage.answer]

end Serving

/-- Kernel Memory and a CPU. -/
def twoClients : Bool → Client
  | false => .kernelMemory
  | true => .cpu

/-- Kernel Memory asks whether the stick runs and reads it, and the CPU writes two bytes. -/
def twoRequests : Bool → List StickMessage
  | false => [.running [63], .read [encodeInt 0, encodeInt 4]]
  | true => [.write [encodeInt 1, [9, 8], encodeInt 2]]

/-- The requests of the example are calls in the bounds. -/
lemma proper_twoRequests : ∀ i, ∀ m ∈ twoRequests i, m.Proper (twoClients i) := by
  intro i m hm
  cases i with
  | false =>
    simp only [twoRequests, List.mem_cons, List.not_mem_nil, or_false] at hm
    rcases hm with rfl | rfl
    · exact ⟨⟨by decide, by decide, by decide⟩, rfl⟩
    · exact ⟨⟨by decide, by decide, by decide⟩, by decide⟩
  | true =>
    simp only [twoRequests, List.mem_cons, List.not_mem_nil, or_false] at hm
    subst hm
    exact ⟨⟨by decide, by decide, by decide⟩, by decide⟩

/-- The read arrives before the write, in two pieces, and is performed after it. -/
def twoEvents : List (Event Bool) :=
  [.arrive false ((sentBytes (twoRequests false)).take 20), .receive false,
    .arrive false ((sentBytes (twoRequests false)).drop 20), .receive false,
    .arrive true (sentBytes (twoRequests true)), .receive true, .access true, .access false,
    .reply true, .reply false]

/-- The answers are those of the write followed by the read. -/
theorem answers_linear_twoRequests :
    ∃ s, execute (step twoClients) (init [1, 2, 3, 4]) twoEvents = some s ∧
      (∃ answers, performAll perform s.ms.order [1, 2, 3, 4] = some (answers, s.ms.object) ∧
        ∀ i, ofClient i s.ms.order <+: (twoRequests i).filterMap StickMessage.call? ∧
          s.outbox i <+: (ofClient i answers).flatMap Answer.wire) ∧
        ∀ t, Reachable (step twoClients) s t → s.ms.order <+: t.ms.order := by
  have htest : (execute (step twoClients) (init [1, 2, 3, 4]) twoEvents).any (fun s =>
      decide (∀ i, s.arrived i <+: sentBytes (twoRequests i))) = true := by decide +kernel
  obtain ⟨s, hs, harrived⟩ := (Option.any_eq_true _ _).1 htest
  exact ⟨s, hs, answers_linear proper_twoRequests (Run.of_execute hs) (of_decide_eq_true harrived)⟩

/-- In the middle of it the CPU is served by its own steps. -/
theorem served_by_own_steps_twoRequests :
    ∃ s, execute (step twoClients) (init [1, 2, 3, 4]) (twoEvents.take 5) = some s ∧
      ∃ events t answers, (∀ e ∈ events, e.IsOwn true) ∧
        execute (step twoClients) s events = some t ∧
        performAll perform t.ms.order [1, 2, 3, 4] = some (answers, t.ms.object) ∧
        ofClient true t.ms.order = (twoRequests true).filterMap StickMessage.call? ∧
        t.outbox true = (ofClient true answers).flatMap Answer.wire := by
  have htest : (execute (step twoClients) (init [1, 2, 3, 4]) (twoEvents.take 5)).any (fun s =>
      decide ((∀ i, s.arrived i <+: sentBytes (twoRequests i)) ∧
        s.arrived true = sentBytes (twoRequests true))) = true := by decide +kernel
  obtain ⟨s, hs, harrived⟩ := (Option.any_eq_true _ _).1 htest
  obtain ⟨hfirst, hall⟩ := of_decide_eq_true harrived
  refine ⟨s, hs, served_by_own_steps proper_twoRequests (Run.of_execute hs) hfirst hall ?_⟩
  intro m hm
  simp only [twoRequests, List.mem_cons, List.not_mem_nil, or_false] at hm
  subst hm
  decide

end OsSimulator.MemoryStick
