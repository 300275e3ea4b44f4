import OsSimulator.Cpu.Memory
import OsSimulator.Utils.CString

set_option relaxedAutoImplicit false
set_option autoImplicit false

/-!
# The instructions

`handlers.c`: a handler for each instruction. It returns whether the cycle has to be reported
(`true`), whether the operation it sent takes the place of the report (`false`), or that the CPU
stops (`error`). `none` is a handler that does not return: a parameter that the instruction does not
have, or a null pointer that is read.

## Main definitions

* `handlerNoop` … `handlerExit` — the handlers.
* `executeStage` — the handler of an instruction, found by its name.
-/

namespace OsSimulator.Cpu

/-- What a handler returns, with the state after it. -/
abbrev HandlerResult := Option ExtendedBool × State

/-- `t_handler`. -/
abbrev Handler := Instruction → UInt32 → State → HandlerResult

/-- `set_register` on the registers of the context. -/
def State.setRegister (registerName : String) (value : UInt32) (cpu : State) : State :=
  { cpu with registers := Cpu.setRegister cpu.registers registerName value }

/-- `get_register` on the registers of the context. -/
def State.getRegister (registerName : String) (cpu : State) : UInt32 :=
  Cpu.getRegister cpu.registers registerName

/-! ## Basic instructions -/

/-- `handler_noop`. -/
def handlerNoop : Handler := fun _ _ cpu => (some .true, cpu)

/-- `handler_set`. -/
def handlerSet : Handler := fun instruction _ cpu =>
  match instruction.parameters with
  | reg :: value :: _ => (some .true, cpu.setRegister reg (UInt32.ofInt (atoi value)))
  | _ => (none, cpu)

/-- `handler_sum`. -/
def handlerSum : Handler := fun instruction _ cpu =>
  match instruction.parameters with
  | destReg :: reg :: _ =>
    (some .true, cpu.setRegister destReg (cpu.getRegister destReg + cpu.getRegister reg))
  | _ => (none, cpu)

/-- `handler_sub`. -/
def handlerSub : Handler := fun instruction _ cpu =>
  match instruction.parameters with
  | destReg :: reg :: _ =>
    (some .true, cpu.setRegister destReg (cpu.getRegister destReg - cpu.getRegister reg))
  | _ => (none, cpu)

/-- The target is read only when the jump is taken. -/
def handlerJnz : Handler := fun instruction _ cpu =>
  match instruction.parameters with
  | [] => (none, cpu)
  | reg :: rest =>
    if cpu.getRegister reg ≠ 0 then
      match rest with
      | target :: _ => (some .true, cpu.setRegister "PC" (UInt32.ofInt (atoi target)))
      | [] => (none, cpu)
    else (some .true, cpu)

/-! ## Instructions that touch memory -/

/-- `sizeof(uint32_t)`, the size every handler gives `mmu`. -/
def wordSize : UInt32 := 4

/-- A `uint32_t` read from its bytes, the lowest one first. -/
def uint32OfBytes (bytes : List UInt8) : UInt32 :=
  (bytes.take 4).foldr (fun byte rest => byte.toUInt32 + 256 * rest) 0

/-- The bytes of a `uint32_t`. -/
def bytesOfUint32 (value : UInt32) : List UInt8 :=
  [value.toUInt8, (value >>> 8).toUInt8, (value >>> 16).toUInt8, (value >>> 24).toUInt8]

/-- The two tests behind a call of `mmu`: a fault that was reported ends the handler with `onFault`,
and `INVALID_ADDRESS - 1` with `EB_ERROR`. -/
def checkAddress (translated : Option UInt32 × State) (onFault : ExtendedBool)
    (next : UInt32 → State → HandlerResult) : HandlerResult :=
  match translated with
  | (none, cpu) => (none, cpu)
  | (some address, cpu) =>
    if address = INVALID_ADDRESS then (some onFault, cpu)
    else if address = INVALID_ADDRESS - 1 then (some .error, cpu)
    else next address cpu

/-- The value is read from the pointer before the pointer is tested. -/
def handlerMovIn : Handler := fun instruction _ cpu =>
  checkAddress (mmu cpu.registers.SI wordSize cpu) .false fun physAddr cpu =>
    match readMemory physAddr wordSize cpu with
    | (none, cpu) => (none, cpu)
    | (some readValue, cpu) =>
      match instruction.parameters with
      | reg :: _ => (some .true, cpu.setRegister reg (uint32OfBytes readValue))
      | [] => (none, cpu)

/-- `handler_mov_out`. -/
def handlerMovOut : Handler := fun instruction _ cpu =>
  match instruction.parameters with
  | [] => (none, cpu)
  | reg :: _ =>
    let value := cpu.getRegister reg
    checkAddress (mmu cpu.registers.DI wordSize cpu) .false fun physAddr cpu =>
      match writeMemory physAddr (bytesOfUint32 value) wordSize cpu with
      | (true, cpu) => (some .true, cpu)
      | (false, cpu) => (some .error, cpu)

/-- The part of `handler_copy_mem` behind the two translations. -/
def copyBytes (srcAddr dstAddr byteCount : UInt32) (cpu : State) : HandlerResult :=
  match readMemory srcAddr byteCount cpu with
  | (none, cpu) => (some .error, cpu)
  | (some readBytes, cpu) =>
    match writeMemory dstAddr readBytes byteCount cpu with
    | (true, cpu) => (some .true, cpu)
    | (false, cpu) => (some .error, cpu)

/-- Both addresses are translated for a word, whatever the number of bytes is, and a fault at the
destination ends the handler with `EB_TRUE`. -/
def handlerCopyMem : Handler := fun instruction _ cpu =>
  match instruction.parameters with
  | [] => (none, cpu)
  | reg :: _ =>
    let byteCount := cpu.getRegister reg
    checkAddress (mmu cpu.registers.SI wordSize cpu) .false fun srcAddr cpu =>
      checkAddress (mmu cpu.registers.DI wordSize cpu) .true fun dstAddr cpu =>
        copyBytes srcAddr dstAddr byteCount cpu

/-! ## System calls -/

/-- The end of the handlers that send the scheduler an operation. -/
def sendSyscall (operation : Operation) (cpu : State) : HandlerResult :=
  let sent := cpu.send operation
  (some (if sent.1 then .false else .error), sent.2)

/-- `handler_mutex_create`. -/
def handlerMutexCreate : Handler := fun instruction _ cpu =>
  match instruction.parameters with
  | id :: _ => sendSyscall (.mutexCreate id) cpu
  | [] => (none, cpu)

/-- `handler_mutex_lock`. -/
def handlerMutexLock : Handler := fun instruction _ cpu =>
  match instruction.parameters with
  | id :: _ => sendSyscall (.mutexLock id) cpu
  | [] => (none, cpu)

/-- `handler_mutex_unlock`. -/
def handlerMutexUnlock : Handler := fun instruction _ cpu =>
  match instruction.parameters with
  | id :: _ => sendSyscall (.mutexUnlock id) cpu
  | [] => (none, cpu)

/-- The two handlers that change the segment table mark it when the operation was sent. -/
def sendSegmentSyscall (operation : Operation) (cpu : State) : HandlerResult :=
  let sent := cpu.send operation
  if sent.1 then (some .false, { sent.2 with segmentChanged := true }) else (some .error, sent.2)

/-- `handler_mem_alloc`. -/
def handlerMemAlloc : Handler := fun instruction pid cpu =>
  match instruction.parameters with
  | segmentId :: size :: _ =>
    sendSegmentSyscall
      (.memAlloc pid (UInt32.ofInt (atoi segmentId)) (UInt32.ofInt (atoi size))) cpu
  | _ => (none, cpu)

/-- `handler_mem_free`. -/
def handlerMemFree : Handler := fun instruction pid cpu =>
  match instruction.parameters with
  | segmentId :: _ => sendSegmentSyscall (.memFree pid (UInt32.ofInt (atoi segmentId)) 0) cpu
  | [] => (none, cpu)

/-- `handler_sleep`. -/
def handlerSleep : Handler := fun instruction pid cpu =>
  match instruction.parameters with
  | time :: _ => sendSyscall (.sleep pid (UInt32.ofInt (atoi time))) cpu
  | [] => (none, cpu)

/-- `handler_stdout`. -/
def handlerStdout : Handler := fun instruction pid cpu =>
  match instruction.parameters with
  | address :: count :: _ =>
    sendSyscall (.stdout pid (cpu.getRegister count) (cpu.getRegister address)) cpu
  | _ => (none, cpu)

/-- `handler_stdin`. -/
def handlerStdin : Handler := fun instruction pid cpu =>
  match instruction.parameters with
  | address :: count :: _ =>
    sendSyscall (.stdin pid (cpu.getRegister count) (cpu.getRegister address)) cpu
  | _ => (none, cpu)

/-- `handler_init_proc`. -/
def handlerInitProc : Handler := fun instruction _ cpu =>
  match instruction.parameters with
  | path :: priority :: _ => sendSyscall (.initProc path (atoi priority)) cpu
  | _ => (none, cpu)

/-- `handler_exit`. -/
def handlerExit : Handler := fun _ _ cpu => sendSyscall (.exit "PROCESS FINISHED") cpu

/-! ## The table -/

/-- `register_handlers`. -/
def handlers : List (String × Handler) :=
  [("NOOP", handlerNoop), ("SET", handlerSet), ("SUM", handlerSum), ("SUB", handlerSub),
    ("JNZ", handlerJnz), ("MOV_IN", handlerMovIn), ("MOV_OUT", handlerMovOut),
    ("COPY_MEM", handlerCopyMem), ("MUTEX_CREATE", handlerMutexCreate),
    ("MUTEX_LOCK", handlerMutexLock), ("MUTEX_UNLOCK", handlerMutexUnlock),
    ("MEM_ALLOC", handlerMemAlloc), ("MEM_FREE", handlerMemFree), ("SLEEP", handlerSleep),
    ("STDOUT", handlerStdout), ("STDIN", handlerStdin), ("INIT_PROC", handlerInitProc),
    ("EXIT", handlerExit)]

/-- `execute_stage`: an unknown instruction is an error. -/
def executeStage (instruction : Instruction) (pid : UInt32) (cpu : State) : HandlerResult :=
  match handlers.lookup instruction.name with
  | none => (some .error, cpu)
  | some handler => handler instruction pid cpu

end OsSimulator.Cpu
