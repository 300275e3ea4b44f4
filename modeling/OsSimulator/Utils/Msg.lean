import Mathlib.Algebra.Order.BigOperators.Group.List
import Mathlib.Data.List.TakeWhile
import OsSimulator.Library.ByteStream
import OsSimulator.Utils.CInt

set_option relaxedAutoImplicit false
set_option autoImplicit false

/-!
# Messages on the wire

`msg.c`: every message is an operation code, a size and as many bytes. The bytes of a packet are its
elements, each behind its own size. A connection is the list of the bytes that were sent and have
not been received; a function that finds too few of them does not return here.

## Main definitions

* `encodeInt`, `decodeInt` — an `int` in memory.
* `sendBuffer`, `sendString`, `sendPacket` — what the functions put on a connection.
* `receiveOpCode`, `receiveBuffer`, `receiveString`, `receivePacket` — what they take from it.
* `WireMessage` — a message with the function that sends it.

## Main results

* `receive_send` — a message is received as it was sent, and nothing behind it is touched.
* `receiveAll_sendAll` — so is a sequence of messages.
-/

namespace OsSimulator

/-! ## Operation codes -/

/-- What `receive_op_code` gives on a closed connection. -/
def OP_CODE_ERROR : ℤ := 0

/-- The scheduler tells a CPU to run a process. -/
def OP_RESUME_PROCESS : ℤ := 3

/-- The scheduler preempts what a CPU runs, with the reason as a string. -/
def OP_INTERRUPT : ℤ := 4

/-- The scheduler lets a CPU go on. -/
def OP_NO_INTERRUPT : ℤ := 5

/-- A CPU has ended an instruction cycle without a syscall; the first code of its block. -/
def OP_CPU_CYCLE_OK : ℤ := 6

/-- A CPU reports a segmentation fault. -/
def OP_SEG_FAULT : ℤ := 7

/-- `MUTEX_CREATE`, from a CPU; the first code of the syscalls. -/
def OP_SYSCALL_MUTEX_CREATE : ℤ := 8

/-- `MUTEX_LOCK`, from a CPU. -/
def OP_SYSCALL_MUTEX_LOCK : ℤ := 9

/-- `MUTEX_UNLOCK`, from a CPU. -/
def OP_SYSCALL_MUTEX_UNLOCK : ℤ := 10

/-- `MEM_ALLOC`, from a CPU. -/
def OP_SYSCALL_MEM_ALLOC : ℤ := 11

/-- `MEM_FREE`, from a CPU. -/
def OP_SYSCALL_MEM_FREE : ℤ := 12

/-- `SLEEP`, from a CPU. -/
def OP_SYSCALL_SLEEP : ℤ := 13

/-- `STDOUT`, from a CPU. -/
def OP_SYSCALL_STDOUT : ℤ := 14

/-- `STDIN`, from a CPU. -/
def OP_SYSCALL_STDIN : ℤ := 15

/-- `INIT_PROC`, from a CPU. -/
def OP_SYSCALL_INIT_PROC : ℤ := 16

/-- `EXIT`, from a CPU; the last code of its block. -/
def OP_SYSCALL_EXIT : ℤ := 17

/-- The scheduler asks whether Kernel Memory is there. -/
def OP_KERNEL_MEMORY_RUNNING : ℤ := 18

/-- The scheduler creates a process, with its id and the path of its script. -/
def OP_NEW_PROCESS : ℤ := 19

/-- The scheduler ends a process. -/
def OP_END_PROCESS : ℤ := 20

/-- The scheduler asks for a segment of a process. -/
def OP_CREATE_SEGMENT : ℤ := 21

/-- The scheduler removes a segment of a process. -/
def OP_DELETE_SEGMENT : ℤ := 22

/-- The scheduler asks how much memory is free. -/
def OP_REQUEST_FREE_MEMORY : ℤ := 23

/-- The scheduler asks for the size of a process. -/
def OP_REQUEST_PROCESS_SIZE : ℤ := 24

/-- The scheduler asks to move a process to the swap. -/
def OP_SUSPEND_PROCESS : ℤ := 25

/-- The scheduler asks to bring a process back from the swap. -/
def OP_RESUME_SUSPENDED_PROCESS : ℤ := 26

/-- The CPUs are preempted, the compaction may begin. -/
def OP_CAN_COMPACT : ℤ := 27

/-- The scheduler is shutting down. -/
def OP_KERNEL_SCHEDULER_SHUTDOWN : ℤ := 28

/-- The answer to the creation of a process. -/
def OP_PROCESS_STARTED : ℤ := 29

/-- The answer with the free memory. -/
def OP_FREE_MEMORY : ℤ := 30

/-- The answer with the size of a process. -/
def OP_PROCESS_SIZE : ℤ := 31

/-- The segment has been created. -/
def OP_MEMORY_ALLOCATED : ℤ := 32

/-- The segment has been removed. -/
def OP_MEMORY_FREED : ℤ := 33

/-- The segment asked for is larger than a segment may be. -/
def OP_SEGMENT_SIZE_EXCEEDED : ℤ := 34

/-- There is no room for the segment. -/
def OP_NOT_ENOUGH_MEMORY : ℤ := 35

/-- Kernel Memory has to compact, every CPU is to be preempted. -/
def OP_COMPACTION_NEEDED : ℤ := 36

/-- The compaction is over. -/
def OP_COMPACTION_DONE : ℤ := 37

/-- The process is in the swap. -/
def OP_SUSPENSION_OK : ℤ := 38

/-- The process could not be moved to the swap. -/
def OP_SUSPENSION_FAILED : ℤ := 39

/-- The process is back in memory. -/
def OP_RESUME_SUSPENSION_OK : ℤ := 40

/-- The process could not be brought back. -/
def OP_RESUME_SUSPENSION_FAILED : ℤ := 41

/-- A stick has connected, there is more memory. -/
def OP_NEW_MEMORY_STICK : ℤ := 42

/-- A stick has gone. -/
def OP_MEMORY_CORRUPTED : ℤ := 43

/-- A line is to be read, asked of an IO device and of Kernel Memory. -/
def OP_IO_STDIN_REQUEST : ℤ := 45

/-- A text is to be written, asked of Kernel Memory and of an IO device. -/
def OP_IO_STDOUT_REQUEST : ℤ := 46

/-- The answer to a request for a line. -/
def OP_STDIN_RESPONSE : ℤ := 48

/-- The answer to a request to write. -/
def OP_STDOUT_RESPONSE : ℤ := 49

/-- A stick tells Kernel Memory its size. -/
def OP_MEMORY_SIZE : ℤ := 61

/-- A stick tells Kernel Memory the port it listens on for the CPUs. -/
def OP_PORT : ℤ := 62

/-- A read packet for a stick. -/
def OP_MEMORY_STICK_READ : ℤ := 63

/-- A write packet for a stick. -/
def OP_MEMORY_STICK_WRITE : ℤ := 64

/-- The stick answers a read with the bytes. -/
def OP_MEMORY_STICK_READ_DONE : ℤ := 65

/-- The stick answers a write. -/
def OP_MEMORY_STICK_WRITE_DONE : ℤ := 66

/-- The swap tells Kernel Memory the size of a block and its own. -/
def OP_INFO_SWAP : ℤ := 67

/-- A block for the swap. -/
def OP_DISK_WRITE : ℤ := 68

/-- A block is asked of the swap. -/
def OP_DISK_READ : ℤ := 69

/-- The swap answers a write. -/
def OP_DISK_WRITE_DONE : ℤ := 70

/-- The swap answers a read with the block. -/
def OP_DISK_READ_DONE : ℤ := 71

/-! ## Integers -/

/-- The bytes of an `int`. -/
def encodeInt (x : ℤ) : List UInt8 :=
  [UInt8.ofNat (u32 x), UInt8.ofNat (u32 x / 256), UInt8.ofNat (u32 x / 65536),
    UInt8.ofNat (u32 x / 16777216)]

/-- The `int` in four bytes. -/
def decodeInt : List UInt8 → ℤ
  | [a, b, c, d] => i32 (a.toNat + 256 * b.toNat + 65536 * c.toNat + 16777216 * d.toNat)
  | _ => 0

/-- An `int` has four bytes. -/
@[simp] lemma length_encodeInt (x : ℤ) : (encodeInt x).length = 4 := rfl

/-- A number that an `int` can hold. -/
def IsInt (x : ℤ) : Prop := INT_MIN ≤ x ∧ x ≤ INT_MAX

instance (x : ℤ) : Decidable (IsInt x) := inferInstanceAs (Decidable (_ ∧ _))

/-- Four bytes give back the number as an `int`. -/
lemma decodeInt_encodeInt_eq (x : ℤ) : decodeInt (encodeInt x) = i32 x := by
  simp only [encodeInt, decodeInt, UInt8.toNat_ofNat']
  have hbytes : ((u32 x % 2 ^ 8 : ℕ) + 256 * (u32 x / 256 % 2 ^ 8 : ℕ) +
      65536 * (u32 x / 65536 % 2 ^ 8 : ℕ) + 16777216 * (u32 x / 16777216 % 2 ^ 8 : ℕ) : ℤ) =
      u32 x := by
    have : u32 x < 4294967296 := by
      unfold u32
      omega
    omega
  rw [hbytes, i32, i32, Int.bmod_def, Int.bmod_def]
  unfold u32
  split <;> split <;> omega

/-- An `int` is read as it was written. -/
lemma decodeInt_encodeInt {x : ℤ} (h : IsInt x) : decodeInt (encodeInt x) = x := by
  obtain ⟨hlow, hhigh⟩ := h
  unfold INT_MIN at hlow
  unfold INT_MAX at hhigh
  rw [decodeInt_encodeInt_eq, i32, Int.bmod_def]
  split <;> omega

/-! ## Sending -/

/-- `serialize_packet`: the operation code, the size and the stream. -/
def serializePacket (opCode : ℤ) (stream : List UInt8) : List UInt8 :=
  encodeInt opCode ++ encodeInt stream.length ++ stream

/-- `packet_append`. -/
def packetAppend (stream value : List UInt8) : List UInt8 :=
  stream ++ (encodeInt value.length ++ value)

/-- The characters of a C string in memory. -/
def cString (memory : List UInt8) : List UInt8 := memory.takeWhile (· ≠ 0)

/-- `packet_append_string`. -/
def packetAppendString (stream value : List UInt8) : List UInt8 :=
  packetAppend stream (cString value ++ [0])

/-- `send_buffer`. -/
def sendBuffer (opCode : ℤ) (buffer : List UInt8) : List UInt8 := serializePacket opCode buffer

/-- `send_string`: the string is sent with its terminator. -/
def sendString (opCode : ℤ) (message : List UInt8) : List UInt8 :=
  serializePacket opCode (cString message ++ [0])

/-- `create_packet`, a `packet_append` for each element and `send_packet`. -/
def sendPacket (opCode : ℤ) (elements : List (List UInt8)) : List UInt8 :=
  serializePacket opCode (elements.foldl packetAppend [])

/-! ## Receiving -/

/-- `socket_receive`. -/
def socketReceive (size : ℕ) (connection : List UInt8) : Option (List UInt8 × List UInt8) :=
  if size ≤ connection.length then some (connection.take size, connection.drop size) else none

/-- `receive_op_code`. -/
def receiveOpCode (connection : List UInt8) : Option (ℤ × List UInt8) :=
  (socketReceive 4 connection).map fun received => (decodeInt received.1, received.2)

/-- `receive_buffer`: a size of zero gives a null pointer. -/
def receiveBuffer (connection : List UInt8) : Option (Option (List UInt8) × List UInt8) :=
  (socketReceive 4 connection).bind fun received =>
    let size := decodeInt received.1
    if size = 0 then some (none, received.2)
    else if size < 0 then none
    else (socketReceive size.toNat received.2).map fun buffer => (some buffer.1, buffer.2)

/-- `receive_string`. -/
def receiveString (connection : List UInt8) : Option (Option (List UInt8) × List UInt8) :=
  receiveBuffer connection

/-- The loop of `receive_packet` on what is left of the buffer. Every round takes at least five
bytes of it, so as many rounds as bytes are enough. A size that leads out of the buffer reads
what is not there. -/
def receiveElements : ℕ → List UInt8 → Option (List (List UInt8))
  | _, [] => some []
  | 0, _ :: _ => none
  | rounds + 1, b :: bs =>
    (socketReceive 4 (b :: bs)).bind fun received =>
      let elementSize := decodeInt received.1
      if elementSize = 0 then some []
      else if elementSize < 0 then none
      else (socketReceive elementSize.toNat received.2).bind fun value =>
        (receiveElements rounds value.2).map fun values => value.1 :: values

/-- `receive_packet`. -/
def receivePacket (connection : List UInt8) : Option (List (List UInt8) × List UInt8) :=
  (receiveBuffer connection).bind fun received =>
    let buffer := received.1.getD []
    (receiveElements buffer.length buffer).map fun values => (values, received.2)

/-! ## One part behind another -/

/-- The first bytes of a connection. -/
lemma socketReceive_append (bytes rest : List UInt8) :
    socketReceive bytes.length (bytes ++ rest) = some (bytes, rest) := by
  rw [socketReceive, if_pos (by simp), List.take_left, List.drop_left]

/-- A code is taken from the front of the connection. -/
lemma receiveOpCode_append {opCode : ℤ} (h : IsInt opCode) (rest : List UInt8) :
    receiveOpCode (encodeInt opCode ++ rest) = some (opCode, rest) := by
  unfold receiveOpCode
  rw [← length_encodeInt opCode, socketReceive_append, Option.map_some, decodeInt_encodeInt h]

/-- The length of a buffer is sent as an `int`. -/
lemma isInt_length {bytes : List UInt8} (h : (bytes.length : ℤ) ≤ INT_MAX) :
    IsInt bytes.length := by
  unfold IsInt INT_MIN
  omega

/-- A sized stretch of bytes, when there are bytes. -/
lemma receiveBuffer_append {bytes : List UInt8} (h : (bytes.length : ℤ) ≤ INT_MAX)
    (rest : List UInt8) :
    receiveBuffer (encodeInt bytes.length ++ bytes ++ rest) =
      some (if bytes = [] then none else some bytes, rest) := by
  unfold receiveBuffer
  rw [← length_encodeInt bytes.length, List.append_assoc, socketReceive_append, Option.bind_some]
  simp only [decodeInt_encodeInt (isInt_length h)]
  by_cases hempty : bytes = []
  · subst hempty
    rfl
  · have hlen : 0 < bytes.length := List.length_pos_iff.2 hempty
    rw [if_neg (by omega), if_neg (by omega), if_neg hempty, Int.toNat_natCast,
      socketReceive_append, Option.map_some]

/-- The stream of a packet. -/
lemma foldl_packetAppend (stream : List UInt8) (elements : List (List UInt8)) :
    elements.foldl packetAppend stream =
      stream ++ elements.flatMap fun value => encodeInt value.length ++ value := by
  induction elements generalizing stream with
  | nil => simp
  | cons value rest ih =>
    rw [List.foldl_cons, ih, packetAppend, List.flatMap_cons, List.append_assoc]

/-- **The elements of a packet** are read one behind the other.

**Proof sketch.** Induction on the elements. The size of an element is not zero, so the loop goes on
behind it, and it ends where the buffer does. -/
lemma receiveElements_eq {elements : List (List UInt8)} {rounds : ℕ}
    (hne : ∀ value ∈ elements, value ≠ [])
    (hsize : ∀ value ∈ elements, (value.length : ℤ) ≤ INT_MAX)
    (hrounds : elements.length ≤ rounds) :
    receiveElements rounds (elements.flatMap fun value => encodeInt value.length ++ value) =
      some elements := by
  induction elements generalizing rounds with
  | nil => cases rounds <;> rfl
  | cons value rest ih =>
    obtain ⟨rounds, rfl⟩ : ∃ n, rounds = n + 1 := ⟨rounds - 1, by simp at hrounds; omega⟩
    have hlen : 0 < value.length :=
      List.length_pos_iff.2 (hne value List.mem_cons_self)
    have hrest := @ih rounds (fun v hv => hne v (List.mem_cons_of_mem value hv))
      (fun v hv => hsize v (List.mem_cons_of_mem value hv)) (by simpa using hrounds)
    have hint := isInt_length (hsize value List.mem_cons_self)
    rw [List.flatMap_cons, List.append_assoc]
    set behind := rest.flatMap fun value => encodeInt value.length ++ value
    have hreceive : socketReceive 4 (encodeInt value.length ++ (value ++ behind)) =
        some (encodeInt value.length, value ++ behind) := by
      rw [← length_encodeInt value.length, socketReceive_append]
    show (socketReceive 4 (encodeInt value.length ++ (value ++ behind))).bind _ = _
    rw [hreceive, Option.bind_some]
    simp only [decodeInt_encodeInt hint]
    rw [if_neg (by omega), if_neg (by omega), Int.toNat_natCast, socketReceive_append,
      Option.bind_some, hrest, Option.map_some]

/-! ## Messages -/

/-- A message, by the function that sends it. -/
inductive WireMessage
  | buffer (opCode : ℤ) (payload : List UInt8)
  | string (opCode : ℤ) (text : List UInt8)
  | packet (opCode : ℤ) (elements : List (List UInt8))
  deriving DecidableEq, Repr

/-- The functions that send and receive. -/
inductive WireKind
  | buffer
  | string
  | packet
  deriving DecidableEq, Repr

namespace WireMessage

/-- The kind of a message. -/
def kind : WireMessage → WireKind
  | .buffer _ _ => .buffer
  | .string _ _ => .string
  | .packet _ _ => .packet

/-- What is sent. -/
def send : WireMessage → List UInt8
  | .buffer opCode payload => sendBuffer opCode payload
  | .string opCode text => sendString opCode text
  | .packet opCode elements => sendPacket opCode elements

/-- The message can be sent: the operation code is an `int`, the lengths are within `int`, a text
has no terminator in it and no element of a packet is empty. -/
def Sendable : WireMessage → Prop
  | .buffer opCode payload => IsInt opCode ∧ (payload.length + 8 : ℤ) ≤ INT_MAX
  | .string opCode text => IsInt opCode ∧ (text.length + 9 : ℤ) ≤ INT_MAX ∧ 0 ∉ text
  | .packet opCode elements => IsInt opCode ∧ (∀ value ∈ elements, value ≠ []) ∧
      (((elements.map fun value => value.length + 4).sum : ℕ) : ℤ) + 8 ≤ INT_MAX

/-- `receive_op_code`, and then the function that receives a message of the kind. The text of a
string ends at its terminator. -/
def receive (kind : WireKind) (connection : List UInt8) : Option (WireMessage × List UInt8) :=
  (receiveOpCode connection).bind fun received =>
    match kind with
    | .buffer => (receiveBuffer received.2).map fun payload =>
      (.buffer received.1 (payload.1.getD []), payload.2)
    | .string => (receiveString received.2).map fun text =>
      (.string received.1 (cString (text.1.getD [])), text.2)
    | .packet => (receivePacket received.2).map fun elements =>
      (.packet received.1 elements.1, elements.2)

/-- Messages of the given kinds, received one after another. -/
def receiveAll : List WireKind → List UInt8 → Option (List WireMessage × List UInt8)
  | [], connection => some ([], connection)
  | kind :: rest, connection =>
    (receive kind connection).bind fun received =>
      (receiveAll rest received.2).map fun messages => (received.1 :: messages.1, messages.2)

end WireMessage

/-- A text without a zero is a C string as a whole. -/
lemma cString_of_not_mem {text : List UInt8} (h : 0 ∉ text) : cString text = text := by
  rw [cString, List.takeWhile_eq_self_iff]
  intro b hb
  have hne : b ≠ 0 := fun heq => h (heq ▸ hb)
  simpa using hne

/-- A string in memory ends at its terminator. -/
lemma cString_append {text : List UInt8} (h : 0 ∉ text) (rest : List UInt8) :
    cString (text ++ 0 :: rest) = text := by
  have hself : text.takeWhile (· ≠ 0) = text := cString_of_not_mem h
  rw [cString, List.takeWhile_append, if_pos (by rw [hself]), List.takeWhile_cons]
  simp

/-- **A packet** is received with its elements. -/
lemma receivePacket_append {elements : List (List UInt8)} (hne : ∀ value ∈ elements, value ≠ [])
    (hsize : (((elements.map fun value => value.length + 4).sum : ℕ) : ℤ) + 8 ≤ INT_MAX)
    (rest : List UInt8) :
    receivePacket (encodeInt (elements.foldl packetAppend []).length ++
      (elements.foldl packetAppend [] ++ rest)) = some (elements, rest) := by
  rw [foldl_packetAppend, List.nil_append]
  set stream := elements.flatMap fun value => encodeInt value.length ++ value with hstream
  have hlength : stream.length = (elements.map fun value => value.length + 4).sum := by
    rw [hstream, List.length_flatMap]
    rfl
  have hcount : elements.length ≤ stream.length := by
    rw [hlength, ← List.length_map (f := fun value : List UInt8 => value.length + 4)]
    apply List.length_le_sum_of_one_le
    intro n hn
    obtain ⟨value, -, rfl⟩ := List.mem_map.1 hn
    omega
  have hvalue : ∀ value ∈ elements, (value.length : ℤ) ≤ INT_MAX := by
    intro value hmem
    have hle := List.le_sum_of_mem
      (List.mem_map_of_mem (f := fun value : List UInt8 => value.length + 4) hmem)
    omega
  rw [← List.append_assoc, receivePacket, receiveBuffer_append (by rw [hlength]; omega),
    Option.bind_some]
  have hbuffer : (if stream = [] then none else some stream).getD [] = stream := by
    split
    · rename_i hempty
      rw [hempty]
      rfl
    · rfl
  simp only [hbuffer]
  rw [hstream, receiveElements_eq hne hvalue hcount, Option.map_some]

/-- **A message is received as it was sent**, and what is behind it stays on the connection. -/
lemma receive_send {message : WireMessage} (h : message.Sendable) (rest : List UInt8) :
    WireMessage.receive message.kind (message.send ++ rest) = some (message, rest) := by
  cases message with
  | buffer opCode payload =>
    obtain ⟨hop, hsize⟩ := h
    simp only [WireMessage.receive, WireMessage.kind, WireMessage.send, sendBuffer,
      serializePacket, List.append_assoc]
    rw [receiveOpCode_append hop, Option.bind_some, ← List.append_assoc,
      receiveBuffer_append (by omega), Option.map_some]
    by_cases hempty : payload = []
    · rw [if_pos hempty, hempty, Option.getD_none]
    · rw [if_neg hempty, Option.getD_some]
  | string opCode text =>
    obtain ⟨hop, hsize, hzero⟩ := h
    simp only [WireMessage.receive, WireMessage.kind, WireMessage.send, sendString,
      serializePacket, List.append_assoc, cString_of_not_mem hzero]
    rw [receiveOpCode_append hop, Option.bind_some]
    have hlength : ((text ++ [0]).length : ℤ) ≤ INT_MAX := by
      rw [List.length_append, List.length_singleton]
      omega
    have hreceive := receiveBuffer_append hlength rest
    rw [if_neg (by simp)] at hreceive
    simp only [List.append_assoc] at hreceive
    rw [receiveString, hreceive, Option.map_some, Option.getD_some, cString_append hzero]
  | packet opCode elements =>
    obtain ⟨hop, hne, hsize⟩ := h
    simp only [WireMessage.receive, WireMessage.kind, WireMessage.send, sendPacket,
      serializePacket, List.append_assoc]
    rw [receiveOpCode_append hop, Option.bind_some, receivePacket_append hne hsize, Option.map_some]

/-- Messages sent one after another. -/
def sendAll (messages : List WireMessage) : List UInt8 := messages.flatMap WireMessage.send

/-- No message is without bytes. -/
lemma length_le_length_sendAll (messages : List WireMessage) :
    messages.length ≤ (sendAll messages).length := by
  induction messages with
  | nil => rfl
  | cons message rest ih =>
    have hpos : 1 ≤ message.send.length := by
      cases message <;>
        simp only [WireMessage.send, sendBuffer, sendString, sendPacket, serializePacket,
          List.length_append, length_encodeInt] <;> omega
    rw [show sendAll (message :: rest) = message.send ++ sendAll rest from rfl, List.length_append,
      List.length_cons]
    omega

/-- **A sequence of messages** is received as it was sent: each receiving function finds the start
of its message, and what is behind the last one stays on the connection. -/
theorem receiveAll_sendAll {messages : List WireMessage}
    (h : ∀ message ∈ messages, message.Sendable) (rest : List UInt8) :
    WireMessage.receiveAll (messages.map WireMessage.kind) (sendAll messages ++ rest) =
      some (messages, rest) := by
  induction messages with
  | nil => rfl
  | cons message behind ih =>
    rw [List.map_cons, WireMessage.receiveAll, sendAll, List.flatMap_cons, List.append_assoc,
      receive_send (h message List.mem_cons_self), Option.bind_some]
    rw [show behind.flatMap WireMessage.send = sendAll behind from rfl,
      ih fun m hm => h m (List.mem_cons_of_mem message hm), Option.map_some]

/-- A packet without elements between a string and a buffer. -/
theorem receiveAll_sendAll_empty : WireMessage.receiveAll [.string, .packet, .buffer]
    (sendAll [.string 1 [99, 112, 117], .packet 2 [], .buffer 3 [0, 0]] ++ [7]) =
      some ([.string 1 [99, 112, 117], .packet 2 [], .buffer 3 [0, 0]], [7]) := by
  have hsendable : ∀ message ∈ [WireMessage.string 1 [99, 112, 117], .packet 2 [],
      .buffer 3 [0, 0]], message.Sendable := by
    intro message hmessage
    simp only [List.mem_cons, List.not_mem_nil, or_false] at hmessage
    rcases hmessage with rfl | rfl | rfl
    · exact ⟨⟨by decide, by decide⟩, by decide, by decide⟩
    · exact ⟨⟨by decide, by decide⟩, by simp, by decide⟩
    · exact ⟨⟨by decide, by decide⟩, by decide⟩
  exact receiveAll_sendAll hsendable [7]

/-! ## More bytes behind -/

/-- What arrives later does not change what a full read has taken. -/
lemma steady_socketReceive (size : ℕ) : Steady (socketReceive size) := by
  intro connection bytes rest more h
  unfold socketReceive at h ⊢
  split at h
  · rename_i hsize
    obtain ⟨rfl, rfl⟩ := Prod.mk.inj (Option.some.inj h)
    rw [if_pos (by rw [List.length_append]; omega), List.take_append_of_le_length hsize,
      List.drop_append_of_le_length hsize]
  · exact absurd h (by simp)

/-- Nor that of a code. -/
lemma steady_receiveOpCode : Steady receiveOpCode := (steady_socketReceive 4).map decodeInt

/-- Nor that of a buffer, whose size comes first. -/
lemma steady_receiveBuffer : Steady receiveBuffer := by
  have hbuffer : ∀ header : List UInt8, Steady fun connection =>
      if decodeInt header = 0 then some (none, connection)
      else if decodeInt header < 0 then none
      else (socketReceive (decodeInt header).toNat connection).map fun buffer =>
        (some buffer.1, buffer.2) := fun header =>
    (steady_some none).ite (steady_none.ite ((steady_socketReceive _).map some))
  exact (steady_socketReceive 4).bind hbuffer

/-- Nor that of a string. -/
lemma steady_receiveString : Steady receiveString := steady_receiveBuffer

/-- Nor that of a packet. -/
lemma steady_receivePacket : Steady receivePacket := by
  have hpacket : ∀ payload : Option (List UInt8), Steady fun connection : List UInt8 =>
      (receiveElements (payload.getD []).length (payload.getD [])).map fun values =>
        (values, connection) := fun payload => steady_option _ id
  exact steady_receiveBuffer.bind hpacket

end OsSimulator
