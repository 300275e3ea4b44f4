import OsSimulator.Cpu.Cycle
import OsSimulator.Io.Ops
import OsSimulator.Library.ByteStream
import OsSimulator.Memory.Wire
import OsSimulator.Memory.InstructionFetch
import OsSimulator.Utils.CutConnection

set_option relaxedAutoImplicit false
set_option autoImplicit false

/-!
# The operations of a CPU on the wire

A handler of the CPU sends a string, a structure or a packet, and the handler of the scheduler at
the same place of `syscall_handlers` reads one. In the other direction the CPU reads a pid in
`receive_pid` and a decision in `check_interrupt`, and takes no more than the operation code of
anything else.

## Main definitions

* `Operation.message`, `receiveOperation` — an operation as it is sent, and how it is received.
* `cpuMessage`, `receivePidBytes`, `checkInterruptBytes` — the same for the scheduler's messages.
* `operationCoding`, `decisionCoding` — the codings.

## Main results

* `readBy_receiveOperation` — an operation is received with its data, whatever comes behind it.
* `receivePidBytes_resumeProcess`, `checkInterruptBytes_interrupt` — a pid and an interrupt are
  received as they were sent.
* `receiveMessage_send` — what the CPU makes of a message.
-/

namespace OsSimulator

open Memory (textBytes lineText uint32Field readStruct)

/-! ## Texts -/

/-- A text that a C string can hold. -/
def IsText (text : String) : Prop := ∀ c ∈ text.toList, 0 < c.toNat ∧ c.toNat < 256

instance (text : String) : Decidable (IsText text) := List.decidableBAll _ _

/-- A character below 256 is its byte. -/
lemma toNat_textByte {c : Char} (h : c.toNat < 256) : c.val.toUInt8.toNat = c.toNat := by
  rw [UInt32.toNat_toUInt8]
  exact Nat.mod_eq_of_lt h

/-- A text has no zero in it. -/
lemma zero_not_mem_textBytes {text : String} (h : IsText text) : 0 ∉ textBytes text := by
  intro hmem
  obtain ⟨c, hc, hzero⟩ := List.mem_map.1 hmem
  obtain ⟨hpos, hlt⟩ := h c hc
  have hbyte := toNat_textByte hlt
  rw [hzero] at hbyte
  exact absurd hbyte (by simp; omega)

/-- A text has a byte for each character. -/
@[simp] lemma length_textBytes (text : String) : (textBytes text).length = text.length := by
  rw [textBytes, List.length_map, String.length_toList]

/-- **A text** is read as it was written. -/
lemma lineText_textBytes {text : String} (h : IsText text) : lineText (textBytes text) = text := by
  have hself : (textBytes text).map (fun b => Char.ofNat b.toNat) = text.toList := by
    rw [textBytes, List.map_map]
    refine List.map_congr_left (g := id) (fun c hc => ?_) |>.trans (List.map_id _)
    show Char.ofNat c.val.toUInt8.toNat = c
    rw [toNat_textByte (h c hc).2, Char.ofNat_toNat]
  rw [lineText, hself, String.ofList_toList]

/-- A text is a C string as a whole. -/
lemma cString_textBytes {text : String} (h : IsText text) :
    cString (textBytes text) = textBytes text :=
  cString_of_not_mem (zero_not_mem_textBytes h)

/-! ## Structures -/

/-- A structure of `uint32_t` in memory. -/
def structBytes (fields : List UInt32) : List UInt8 :=
  fields.flatMap fun field => encodeInt field.toNat

/-- A structure of words has four bytes for each. -/
@[simp] lemma length_structBytes (fields : List UInt32) :
    (structBytes fields).length = 4 * fields.length := by
  simp [structBytes, Nat.mul_comm]

/-- **A field** is read as it was written. -/
lemma uint32Field_structBytes {fields : List UInt32} {i : ℕ} {field : UInt32}
    (h : fields[i]? = some field) : uint32Field i (structBytes fields) = field := by
  induction fields generalizing i with
  | nil => exact absurd h (by simp)
  | cons first rest ih =>
    have hcons : structBytes (first :: rest) = encodeInt first.toNat ++ structBytes rest := rfl
    cases i with
    | zero =>
      obtain rfl := Option.some.inj h
      rw [uint32Field, hcons, Nat.mul_zero, List.drop_zero, List.take_left' (length_encodeInt _),
        ofInt_decodeInt_encodeInt]
    | succ i =>
      rw [List.getElem?_cons_succ] at h
      rw [uint32Field, hcons, Nat.mul_succ, Nat.add_comm, ← List.drop_drop,
        List.drop_left' (length_encodeInt _)]
      exact ih h

namespace Cpu

open Scheduler (CpuMessage)

/-! ## Sending an operation -/

/-- What the handlers of the CPU send. -/
def Operation.message : Operation → WireMessage
  | .cycleOk text => .string OP_CPU_CYCLE_OK (textBytes text)
  | .segFault text => .string OP_SEG_FAULT (textBytes text)
  | .mutexCreate id => .string OP_SYSCALL_MUTEX_CREATE (textBytes id)
  | .mutexLock id => .string OP_SYSCALL_MUTEX_LOCK (textBytes id)
  | .mutexUnlock id => .string OP_SYSCALL_MUTEX_UNLOCK (textBytes id)
  | .memAlloc pid segmentId size =>
    .buffer OP_SYSCALL_MEM_ALLOC (structBytes [pid, segmentId, size])
  | .memFree pid segmentId size => .buffer OP_SYSCALL_MEM_FREE (structBytes [pid, segmentId, size])
  | .sleep pid blockedTimeMs => .buffer OP_SYSCALL_SLEEP (structBytes [pid, blockedTimeMs])
  | .stdout pid bytesToWrite logicalAddress =>
    .buffer OP_SYSCALL_STDOUT (structBytes [pid, bytesToWrite, logicalAddress])
  | .stdin pid bytesToRead logicalAddress =>
    .buffer OP_SYSCALL_STDIN (structBytes [pid, bytesToRead, logicalAddress])
  | .initProc path priority =>
    .packet OP_SYSCALL_INIT_PROC [cString (textBytes path) ++ [0], encodeInt priority]
  | .exit text => .string OP_SYSCALL_EXIT (textBytes text)

/-- A text with room for the rest of its message in an `int`. -/
def FitsMessage (text : String) : Prop := IsText text ∧ (text.length + 21 : ℤ) ≤ INT_MAX

instance (text : String) : Decidable (FitsMessage text) := inferInstanceAs (Decidable (_ ∧ _))

/-- The operations that can be sent: their texts are C strings, and a priority is an `int`. -/
def Operation.Valid : Operation → Prop
  | .cycleOk text | .segFault text | .mutexCreate text | .mutexLock text | .mutexUnlock text
  | .exit text => FitsMessage text
  | .initProc path priority => FitsMessage path ∧ IsInt priority
  | .memAlloc _ _ _ | .memFree _ _ _ | .sleep _ _ | .stdout _ _ _ | .stdin _ _ _ => True

/-- A text that fits is sent in a message. -/
lemma FitsMessage.sendable {text : String} (h : FitsMessage text) {opCode : ℤ}
    (hop : IsInt opCode) : (WireMessage.string opCode (textBytes text)).Sendable := by
  refine ⟨hop, ?_, zero_not_mem_textBytes h.1⟩
  have := h.2
  rw [length_textBytes]
  omega

/-! ## Receiving an operation -/

/-- The handlers that free the string they receive. -/
def receiveDiscarded (operation : String → Operation) (connection : List UInt8) :
    Option (Operation × List UInt8) :=
  (receiveString connection).map fun received =>
    (operation (lineText (cString (received.1.getD []))), received.2)

/-- The handlers that receive the name of a mutex: they look at the characters of it. -/
def receiveName (operation : String → Operation) (connection : List UInt8) :
    Option (Operation × List UInt8) :=
  (receiveString connection).bind fun received =>
    (received.1.map fun id => operation (lineText (cString id))).map (·, received.2)

/-- The handlers that receive a structure of that size. -/
def receiveStruct (size : ℕ) (operation : List UInt8 → Operation) (connection : List UInt8) :
    Option (Operation × List UInt8) :=
  (receiveBuffer connection).bind fun received =>
    ((readStruct size received.1).map operation).map (·, received.2)

/-- `handle_syscall_start_process`. -/
def receiveStartProcess (connection : List UInt8) : Option (Operation × List UInt8) :=
  (receivePacket connection).bind fun received =>
    (received.1[0]?.bind fun path => (readStruct 4 received.1[1]?).map fun priority =>
      Operation.initProc (lineText (cString path)) (decodeInt (priority.take 4))).map
        (·, received.2)

/-- `syscall_handlers`, without the one of an invalid operation. -/
def syscallHandlers : List (List UInt8 → Option (Operation × List UInt8)) :=
  [receiveDiscarded .cycleOk, receiveDiscarded .segFault, receiveName .mutexCreate,
    receiveName .mutexLock, receiveName .mutexUnlock,
    receiveStruct 12 fun request =>
      .memAlloc (uint32Field 0 request) (uint32Field 1 request) (uint32Field 2 request),
    receiveStruct 12 fun request =>
      .memFree (uint32Field 0 request) (uint32Field 1 request) (uint32Field 2 request),
    receiveStruct 8 fun request => .sleep (uint32Field 0 request) (uint32Field 1 request),
    receiveStruct 12 fun request =>
      .stdout (uint32Field 0 request) (uint32Field 1 request) (uint32Field 2 request),
    receiveStruct 12 fun request =>
      .stdin (uint32Field 0 request) (uint32Field 1 request) (uint32Field 2 request),
    receiveStartProcess, receiveDiscarded .exit]

/-- The part of `handle_cpu_client` that receives an operation; `none` is an invalid one, of which
nothing more is read. -/
def receiveOperation (connection : List UInt8) : Option (Option Operation × List UInt8) :=
  (receiveOpCode connection).bind fun received =>
    if received.1 < OP_CPU_CYCLE_OK ∨ OP_SYSCALL_EXIT < received.1 then some (none, received.2)
    else (syscallHandlers[(received.1 - OP_CPU_CYCLE_OK).toNat]?).bind fun handler =>
      (handler received.2).map fun operation => (some operation.1, operation.2)

/-- The coding of the operations. -/
def operationCoding : Coding UInt8 Operation where
  encode operation := operation.message.send
  Valid := Operation.Valid

/-! ## What comes behind -/

/-- What arrives later does not change a string that is thrown away. -/
lemma steady_receiveDiscarded (operation : String → Operation) :
    Steady (receiveDiscarded operation) :=
  steady_receiveString.map fun text : Option (List UInt8) =>
    operation (lineText (cString (text.getD [])))

/-- Nor a name. -/
lemma steady_receiveName (operation : String → Operation) : Steady (receiveName operation) := by
  unfold receiveName
  exact steady_receiveString.bind fun _ => steady_option _ id

/-- Nor a structure. -/
lemma steady_receiveStruct (size : ℕ) (operation : List UInt8 → Operation) :
    Steady (receiveStruct size operation) := by
  unfold receiveStruct
  exact steady_receiveBuffer.bind fun payload =>
    steady_option ((readStruct size payload).map operation) id

/-- Nor the packet of `INIT_PROC`. -/
lemma steady_receiveStartProcess : Steady receiveStartProcess := by
  unfold receiveStartProcess
  exact steady_receivePacket.bind fun packet =>
    steady_option (packet[0]?.bind fun path => (readStruct 4 packet[1]?).map fun priority =>
      Operation.initProc (lineText (cString path)) (decodeInt (priority.take 4))) id

/-- Nor what any handler reads. -/
lemma steady_syscallHandlers : ∀ handler ∈ syscallHandlers, Steady handler := by
  intro handler h
  simp only [syscallHandlers, List.mem_cons, List.not_mem_nil, or_false] at h
  rcases h with rfl | rfl | rfl | rfl | rfl | rfl | rfl | rfl | rfl | rfl | rfl | rfl
  all_goals first
    | exact steady_receiveDiscarded _
    | exact steady_receiveName _
    | exact steady_receiveStruct _ _
    | exact steady_receiveStartProcess

/-- **A reader of operations** is not misled by what comes behind. -/
lemma steady_receiveOperation : Steady receiveOperation := by
  have hhandler : ∀ opCode : ℤ, Steady fun connection =>
      (syscallHandlers[(opCode - OP_CPU_CYCLE_OK).toNat]?).bind fun handler =>
        (handler connection).map fun operation => (some operation.1, operation.2) := by
    intro opCode
    cases h : syscallHandlers[(opCode - OP_CPU_CYCLE_OK).toNat]? with
    | none => exact steady_none
    | some handler => exact (steady_syscallHandlers handler (List.mem_of_getElem? h)).map some
  have hnext : ∀ opCode : ℤ, Steady fun connection =>
      if opCode < OP_CPU_CYCLE_OK ∨ OP_SYSCALL_EXIT < opCode then some (none, connection)
      else (syscallHandlers[(opCode - OP_CPU_CYCLE_OK).toNat]?).bind fun handler =>
        (handler connection).map fun operation => (some operation.1, operation.2) :=
    fun opCode => (steady_some none).ite (hhandler opCode)
  exact steady_receiveOpCode.bind hnext

/-! ## An operation from its sender to its receiver -/

/-- A string behind its operation code. -/
lemma receiveString_textBytes {text : String} (h : FitsMessage text) (rest : List UInt8) :
    receiveString (encodeInt (cString (textBytes text) ++ [0]).length ++
      (cString (textBytes text) ++ [0]) ++ rest) = some (some (textBytes text ++ [0]), rest) := by
  rw [cString_textBytes h.1, receiveString_terminated ?_ rest]
  have := h.2
  rw [length_textBytes]
  omega

/-- The text in a string that was received. -/
lemma lineText_terminated {text : String} (h : IsText text) :
    lineText (cString (textBytes text ++ [0])) = text := by
  rw [cString_append (zero_not_mem_textBytes h) [], lineText_textBytes h]

/-- The handler that throws the string away gets its operation. -/
lemma receiveDiscarded_textBytes (operation : String → Operation) {text : String}
    (h : FitsMessage text) (rest : List UInt8) :
    receiveDiscarded operation (encodeInt (cString (textBytes text) ++ [0]).length ++
      (cString (textBytes text) ++ [0]) ++ rest) = some (operation text, rest) := by
  rw [receiveDiscarded, receiveString_textBytes h, Option.map_some, Option.getD_some,
    lineText_terminated h.1]

/-- A name is received as it was sent. -/
lemma receiveName_textBytes (operation : String → Operation) {text : String}
    (h : FitsMessage text) (rest : List UInt8) :
    receiveName operation (encodeInt (cString (textBytes text) ++ [0]).length ++
      (cString (textBytes text) ++ [0]) ++ rest) = some (operation text, rest) := by
  rw [receiveName, receiveString_textBytes h, Option.bind_some]
  simp only [Option.map_some, lineText_terminated h.1]

/-- A structure is received as it was sent. -/
lemma receiveStruct_structBytes {size : ℕ} (operation : List UInt8 → Operation)
    {fields : List UInt32} (hsize : 4 * fields.length = size) (hpos : 0 < size)
    (hfits : (size : ℤ) ≤ INT_MAX) (rest : List UInt8) :
    receiveStruct size operation
        (encodeInt (structBytes fields).length ++ structBytes fields ++ rest) =
      some (operation (structBytes fields), rest) := by
  have hlength : (structBytes fields).length = size := by rw [length_structBytes, hsize]
  have hne : structBytes fields ≠ [] := by
    apply List.ne_nil_of_length_pos
    omega
  rw [receiveStruct, receiveBuffer_append (by omega), if_neg hne, Option.bind_some]
  have hread : readStruct size (some (structBytes fields)) = some (structBytes fields) := by
    rw [readStruct, Option.filter_some, if_pos (by simp [hlength])]
  simp only [hread, Option.map_some]

/-- The structures of three numbers. -/
lemma receiveStruct_three (operation : UInt32 → UInt32 → UInt32 → Operation) (x y z : UInt32)
    (rest : List UInt8) :
    receiveStruct 12 (fun request =>
        operation (uint32Field 0 request) (uint32Field 1 request) (uint32Field 2 request))
      (encodeInt (structBytes [x, y, z]).length ++ structBytes [x, y, z] ++ rest) =
      some (operation x y z, rest) := by
  rw [receiveStruct_structBytes _ (show 4 * [x, y, z].length = 12 from rfl) (by decide)
    (by decide), uint32Field_structBytes rfl, uint32Field_structBytes rfl,
    uint32Field_structBytes rfl]

/-- Path and priority are received as they were sent. -/
lemma receiveStartProcess_path {path : String} {priority : ℤ} (hpath : FitsMessage path)
    (hpriority : IsInt priority) (rest : List UInt8) :
    receiveStartProcess (encodeInt ([cString (textBytes path) ++ [0],
        encodeInt priority].foldl packetAppend []).length ++
      ([cString (textBytes path) ++ [0], encodeInt priority].foldl packetAppend [] ++ rest)) =
      some (.initProc path priority, rest) := by
  have hne : ∀ value ∈ [cString (textBytes path) ++ [0], encodeInt priority], value ≠ [] := by
    intro value hmem
    simp only [List.mem_cons, List.not_mem_nil, or_false] at hmem
    rcases hmem with rfl | rfl
    · simp
    · simp [encodeInt]
  have hsize : ((([cString (textBytes path) ++ [0], encodeInt priority].map fun value =>
      value.length + 4).sum : ℕ) : ℤ) + 8 ≤ INT_MAX := by
    have := hpath.2
    rw [cString_textBytes hpath.1]
    simp only [List.map_cons, List.map_nil, List.sum_cons, List.sum_nil, List.length_append,
      length_textBytes, List.length_singleton, length_encodeInt]
    omega
  rw [receiveStartProcess, receivePacket_append hne hsize, Option.bind_some]
  have hread : readStruct 4 (some (encodeInt priority)) = some (encodeInt priority) := by
    rw [readStruct, Option.filter_some, if_pos (by simp)]
  have htake : (encodeInt priority).take 4 = encodeInt priority := rfl
  simp only [List.getElem?_cons_zero, List.getElem?_cons_succ, Option.bind_some, hread,
    Option.map_some, htake, cString_textBytes hpath.1, lineText_terminated hpath.1,
    decodeInt_encodeInt hpriority]

/-- The dispatch of `handle_cpu_client`. -/
lemma receiveOperation_serializePacket {opCode : ℤ} {stream rest : List UInt8}
    {handler : List UInt8 → Option (Operation × List UInt8)} {operation : Operation}
    (hrange : OP_CPU_CYCLE_OK ≤ opCode ∧ opCode ≤ OP_SYSCALL_EXIT)
    (hhandler : syscallHandlers[(opCode - OP_CPU_CYCLE_OK).toNat]? = some handler)
    (h : handler (encodeInt stream.length ++ stream ++ rest) = some (operation, rest)) :
    receiveOperation (serializePacket opCode stream ++ rest) = some (some operation, rest) := by
  have hint : IsInt opCode := by
    unfold OP_CPU_CYCLE_OK OP_SYSCALL_EXIT at hrange
    unfold IsInt INT_MIN INT_MAX
    omega
  rw [receiveOperation, receiveOpCode_serializePacket hint, Option.bind_some]
  dsimp only
  rw [if_neg (by omega), hhandler, Option.bind_some, h, Option.map_some]

/-- **An operation is received with its data**, and nothing behind it is touched. -/
lemma receiveOperation_send {operation : Operation} (h : operation.Valid) (rest : List UInt8) :
    receiveOperation (operation.message.send ++ rest) = some (some operation, rest) := by
  cases operation with
  | cycleOk text =>
    exact receiveOperation_serializePacket (by decide) rfl (receiveDiscarded_textBytes _ h rest)
  | segFault text =>
    exact receiveOperation_serializePacket (by decide) rfl (receiveDiscarded_textBytes _ h rest)
  | mutexCreate id =>
    exact receiveOperation_serializePacket (by decide) rfl (receiveName_textBytes _ h rest)
  | mutexLock id =>
    exact receiveOperation_serializePacket (by decide) rfl (receiveName_textBytes _ h rest)
  | mutexUnlock id =>
    exact receiveOperation_serializePacket (by decide) rfl (receiveName_textBytes _ h rest)
  | memAlloc pid segmentId size =>
    exact receiveOperation_serializePacket (by decide) rfl
      (receiveStruct_three Operation.memAlloc pid segmentId size rest)
  | memFree pid segmentId size =>
    exact receiveOperation_serializePacket (by decide) rfl
      (receiveStruct_three Operation.memFree pid segmentId size rest)
  | sleep pid blockedTimeMs =>
    have hread := receiveStruct_structBytes (fun request => Operation.sleep
      (uint32Field 0 request) (uint32Field 1 request))
      (show 4 * [pid, blockedTimeMs].length = 8 from rfl) (by decide) (by decide) rest
    rw [uint32Field_structBytes rfl, uint32Field_structBytes rfl] at hread
    exact receiveOperation_serializePacket (by decide) rfl hread
  | stdout pid bytesToWrite logicalAddress =>
    exact receiveOperation_serializePacket (by decide) rfl
      (receiveStruct_three Operation.stdout pid bytesToWrite logicalAddress rest)
  | stdin pid bytesToRead logicalAddress =>
    exact receiveOperation_serializePacket (by decide) rfl
      (receiveStruct_three Operation.stdin pid bytesToRead logicalAddress rest)
  | initProc path priority =>
    refine receiveOperation_serializePacket (by decide) rfl ?_
    rw [List.append_assoc]
    exact receiveStartProcess_path h.1 h.2 rest
  | exit text =>
    exact receiveOperation_serializePacket (by decide) rfl (receiveDiscarded_textBytes _ h rest)

/-- The scheduler understands the operations. -/
lemma readBy_receiveOperation : operationCoding.ReadBy receiveOperation some where
  steady := steady_receiveOperation
  read_nil := by decide
  read_encode := fun _ rest h => receiveOperation_send h rest

/-! ## What the scheduler sends -/

/-- `send_code` and `send_preemption`. -/
def cpuMessage : CpuMessage → WireMessage
  | .resumeProcess pid => .buffer OP_RESUME_PROCESS (encodeInt pid)
  | .interrupt text => .string OP_INTERRUPT (textBytes text)
  | .noInterrupt text => .string OP_NO_INTERRUPT (textBytes text)

/-- The messages that can be sent: a pid is a `uint32_t`, and a text is a C string. -/
def ValidMessage : CpuMessage → Prop
  | .resumeProcess pid => pid < 4294967296
  | .interrupt text | .noInterrupt text => FitsMessage text

/-- The coding of the messages of the scheduler. -/
def decisionCoding : Coding UInt8 CpuMessage where
  encode message := (cpuMessage message).send
  Valid := ValidMessage

/-- `receive_pid` on the connection: of another message only the operation code is read. -/
def receivePidBytes (cpu : State) (connection : List UInt8) : Option (CpuLoop × List UInt8) :=
  (receiveOpCode connection).bind fun received =>
    if received.1 = OP_RESUME_PROCESS then
      (receiveBuffer received.2).bind fun buffer =>
        ((readStruct 4 buffer.1).map fun pid =>
          CpuLoop.receivePid (.resumeProcess (uint32Field 0 pid).toNat) cpu).map (·, buffer.2)
    else some (⟨.stopped, cpu⟩, received.2)

/-- `check_interrupt` on the connection: of another message only the operation code is read. The
text of an `OP_NO_INTERRUPT` is not looked at. -/
def checkInterruptBytes (pid : ℕ) (cpu : State) (connection : List UInt8) :
    Option (CpuLoop × List UInt8) :=
  (receiveOpCode connection).bind fun received =>
    if received.1 = OP_INTERRUPT then
      (receiveString received.2).bind fun reason =>
        (reason.1.map fun text => CpuLoop.afterInterrupt pid
          (checkInterrupt (.interrupt (lineText (cString text)))) cpu).map (·, reason.2)
    else if received.1 = OP_NO_INTERRUPT then
      (receiveString received.2).map fun text => (CpuLoop.afterInterrupt pid .true cpu, text.2)
    else some (⟨.stopped, cpu⟩, received.2)

/-- The two places where the CPU receives a message of the scheduler. -/
def receiveMessage (loop : CpuLoop) (connection : List UInt8) : Option (CpuLoop × List UInt8) :=
  match loop.phase with
  | .receivingPid => receivePidBytes loop.cpu connection
  | .checkingInterrupt pid => checkInterruptBytes pid loop.cpu connection
  | _ => none

/-- **A reader of the scheduler's messages** is not misled by what comes behind. -/
lemma steady_receiveMessage (loop : CpuLoop) : Steady (receiveMessage loop) := by
  have hpid : ∀ opCode : ℤ, Steady fun connection =>
      if opCode = OP_RESUME_PROCESS then
        (receiveBuffer connection).bind fun buffer =>
          ((readStruct 4 buffer.1).map fun pid =>
            CpuLoop.receivePid (.resumeProcess (uint32Field 0 pid).toNat) loop.cpu).map
              (·, buffer.2)
      else some (⟨.stopped, loop.cpu⟩, connection) := fun opCode =>
    (steady_receiveBuffer.bind fun payload => steady_option ((readStruct 4 payload).map
      fun pid => CpuLoop.receivePid (.resumeProcess (uint32Field 0 pid).toNat) loop.cpu) id).ite
        (steady_some _)
  have hinterrupt : ∀ (pid : ℕ) (opCode : ℤ), Steady fun connection =>
      if opCode = OP_INTERRUPT then
        (receiveString connection).bind fun reason =>
          (reason.1.map fun text => CpuLoop.afterInterrupt pid
            (checkInterrupt (.interrupt (lineText (cString text)))) loop.cpu).map (·, reason.2)
      else if opCode = OP_NO_INTERRUPT then
        (receiveString connection).map fun text =>
          (CpuLoop.afterInterrupt pid .true loop.cpu, text.2)
      else some (⟨.stopped, loop.cpu⟩, connection) := fun pid opCode =>
    (steady_receiveString.bind fun reason => steady_option (reason.map fun text =>
      CpuLoop.afterInterrupt pid (checkInterrupt (.interrupt (lineText (cString text))))
        loop.cpu) id).ite
      ((steady_receiveString.map fun _ => CpuLoop.afterInterrupt pid .true loop.cpu).ite
        (steady_some _))
  unfold receiveMessage
  cases loop.phase with
  | receivingPid => exact steady_receiveOpCode.bind hpid
  | checkingInterrupt pid => exact steady_receiveOpCode.bind (hinterrupt pid)
  | _ => exact steady_none

/-- A pid is read as it was sent. -/
lemma toNat_uint32Field_encodeInt {pid : ℕ} (h : pid < 4294967296) :
    (uint32Field 0 (encodeInt pid)).toNat = pid := by
  have hnat : (UInt32.ofNat pid).toNat = pid := by
    rw [UInt32.toNat_ofNat']
    exact Nat.mod_eq_of_lt h
  have hself : encodeInt pid = structBytes [UInt32.ofNat pid] := by
    rw [structBytes, List.flatMap_singleton, hnat]
  rw [hself, uint32Field_structBytes rfl, hnat]

/-- A CPU gets the process id that was sent. -/
lemma receivePidBytes_resumeProcess (cpu : State) {pid : ℕ} (h : pid < 4294967296)
    (rest : List UInt8) :
    receivePidBytes cpu ((cpuMessage (.resumeProcess pid)).send ++ rest) =
      some (CpuLoop.receivePid (.resumeProcess pid) cpu, rest) := by
  have hread : readStruct 4 (some (encodeInt pid)) = some (encodeInt pid) := rfl
  rw [receivePidBytes, cpuMessage, WireMessage.send, sendBuffer,
    receiveOpCode_serializePacket (by decide), Option.bind_some]
  dsimp only
  rw [if_pos rfl, receiveBuffer_append (by rw [length_encodeInt]; decide),
    if_neg (by simp [encodeInt]), Option.bind_some]
  simp only [hread, Option.map_some, toNat_uint32Field_encodeInt h]

/-- A CPU gets the interrupt that was sent. -/
lemma checkInterruptBytes_interrupt (pid : ℕ) (cpu : State) {text : String}
    (h : FitsMessage text) (rest : List UInt8) :
    checkInterruptBytes pid cpu ((cpuMessage (.interrupt text)).send ++ rest) =
      some (CpuLoop.afterInterrupt pid (checkInterrupt (.interrupt text)) cpu, rest) := by
  rw [checkInterruptBytes, cpuMessage, WireMessage.send, sendString,
    receiveOpCode_serializePacket (by decide), Option.bind_some]
  dsimp only
  rw [if_pos rfl, receiveString_textBytes h, Option.bind_some]
  simp only [Option.map_some, lineText_terminated h.1]

/-- A CPU gets the answer that there is none. -/
lemma checkInterruptBytes_noInterrupt (pid : ℕ) (cpu : State) {text : String}
    (h : FitsMessage text) (rest : List UInt8) :
    checkInterruptBytes pid cpu ((cpuMessage (.noInterrupt text)).send ++ rest) =
      some (CpuLoop.afterInterrupt pid (checkInterrupt (.noInterrupt text)) cpu, rest) := by
  rw [checkInterruptBytes, cpuMessage, WireMessage.send, sendString,
    receiveOpCode_serializePacket (by decide), Option.bind_some]
  dsimp only
  rw [if_neg (by decide), if_pos rfl, receiveString_textBytes h, Option.map_some]
  rfl

/-- The operation code of a message. -/
lemma receiveOpCode_cpuMessage (message : CpuMessage) (rest : List UInt8) :
    ∃ behind, receiveOpCode ((cpuMessage message).send ++ rest) =
      some ((cpuMessage message).opCode, behind) := by
  have hint : IsInt (cpuMessage message).opCode := by
    cases message <;> simp only [cpuMessage, WireMessage.opCode] <;> decide
  rw [WireMessage.send_eq, List.append_assoc]
  exact ⟨_, receiveOpCode_append hint _⟩

/-- **What the CPU makes of a message**: what it would make of it if it were handed over whole. It
leaves what is behind the message, unless it stops. -/
lemma receiveMessage_send {message : CpuMessage} (h : ValidMessage message) {loop loop' : CpuLoop}
    (hstep : loop.step (.message message) = some loop') (rest : List UInt8) :
    ∃ behind, receiveMessage loop ((cpuMessage message).send ++ rest) = some (loop', behind) ∧
      (loop'.phase ≠ .stopped → behind = rest) := by
  obtain ⟨behind, hopCode⟩ := receiveOpCode_cpuMessage message rest
  unfold CpuLoop.step at hstep
  unfold receiveMessage
  cases hphase : loop.phase with
  | receivingPid =>
    rw [hphase] at hstep
    obtain rfl := Option.some.inj hstep
    cases message with
    | resumeProcess pid => exact ⟨rest, receivePidBytes_resumeProcess loop.cpu h rest, fun _ => rfl⟩
    | interrupt text =>
      refine ⟨behind, ?_, fun hne => absurd rfl hne⟩
      show receivePidBytes loop.cpu _ = _
      rw [receivePidBytes, hopCode, Option.bind_some]
      exact if_neg (show ¬ OP_INTERRUPT = OP_RESUME_PROCESS by decide)
    | noInterrupt text =>
      refine ⟨behind, ?_, fun hne => absurd rfl hne⟩
      show receivePidBytes loop.cpu _ = _
      rw [receivePidBytes, hopCode, Option.bind_some]
      exact if_neg (show ¬ OP_NO_INTERRUPT = OP_RESUME_PROCESS by decide)
  | checkingInterrupt pid =>
    rw [hphase] at hstep
    obtain rfl := Option.some.inj hstep
    cases message with
    | resumeProcess next =>
      refine ⟨behind, ?_, fun hne => absurd rfl hne⟩
      show checkInterruptBytes pid loop.cpu _ = _
      rw [checkInterruptBytes, hopCode, Option.bind_some]
      exact (if_neg (show ¬ OP_RESUME_PROCESS = OP_INTERRUPT by decide)).trans
        (if_neg (show ¬ OP_RESUME_PROCESS = OP_NO_INTERRUPT by decide))
    | interrupt text =>
      exact ⟨rest, checkInterruptBytes_interrupt pid loop.cpu h rest, fun _ => rfl⟩
    | noInterrupt text =>
      exact ⟨rest, checkInterruptBytes_noInterrupt pid loop.cpu h rest, fun _ => rfl⟩
  | _ =>
    rw [hphase] at hstep
    exact absurd hstep (by simp)

end Cpu

end OsSimulator
