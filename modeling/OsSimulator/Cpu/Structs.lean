import OsSimulator.Memory.Structs

set_option relaxedAutoImplicit false
set_option autoImplicit false

/-!
# The state of a CPU

The structures of `cpu.h`, `registers.h` and `utils/registers_cpu.h`, with the register access of
`registers.c` and the messages a CPU sends. The registers and the arithmetic on addresses are
`uint8_t` and `uint32_t` in the source, so they are `UInt8` and `UInt32` here.

A function of the CPU takes and returns the whole state; what it sends is appended to the state, so
that a message sent before a failure is not forgotten.

## Main definitions

* `Registers`, `getRegister`, `setRegister` — the register file.
* `Operation`, `MemoryOperation`, `StickRequest` — what a CPU sends.
* `State` — the state.
-/

namespace OsSimulator.Cpu

open OsSimulator.Memory (Segment)

/-- `t_registers`. -/
structure Registers where
  AX : UInt8
  BX : UInt8
  CX : UInt8
  DX : UInt8
  PC : UInt32
  EAX : UInt32
  EBX : UInt32
  ECX : UInt32
  EDX : UInt32
  SI : UInt32
  DI : UInt32
  deriving DecidableEq, Repr

/-- `get_register`: an unknown name reads as zero. -/
def getRegister (registers : Registers) (registerName : String) : UInt32 :=
  match registerName with
  | "PC" => registers.PC
  | "AX" => registers.AX.toUInt32
  | "BX" => registers.BX.toUInt32
  | "CX" => registers.CX.toUInt32
  | "DX" => registers.DX.toUInt32
  | "EAX" => registers.EAX
  | "EBX" => registers.EBX
  | "ECX" => registers.ECX
  | "EDX" => registers.EDX
  | "SI" => registers.SI
  | "DI" => registers.DI
  | _ => 0

/-- `set_register`: an unknown name is ignored. -/
def setRegister (registers : Registers) (registerName : String) (value : UInt32) : Registers :=
  match registerName with
  | "PC" => { registers with PC := value }
  | "AX" => { registers with AX := value.toUInt8 }
  | "BX" => { registers with BX := value.toUInt8 }
  | "CX" => { registers with CX := value.toUInt8 }
  | "DX" => { registers with DX := value.toUInt8 }
  | "EAX" => { registers with EAX := value }
  | "EBX" => { registers with EBX := value }
  | "ECX" => { registers with ECX := value }
  | "EDX" => { registers with EDX := value }
  | "SI" => { registers with SI := value }
  | "DI" => { registers with DI := value }
  | _ => registers

/-- `t_instruction`. -/
structure Instruction where
  name : String
  parameters : List String
  deriving DecidableEq, Repr

/-- `t_extended_bool`. -/
inductive ExtendedBool
  | false
  | true
  | error
  | noTable
  deriving DecidableEq, Repr

/-- The operations a CPU sends to the scheduler, with their data: `OP_CPU_CYCLE_OK` to
`OP_SYSCALL_EXIT`. -/
inductive Operation
  | cycleOk (text : String)
  | segFault (text : String)
  | mutexCreate (id : String)
  | mutexLock (id : String)
  | mutexUnlock (id : String)
  | memAlloc (pid segmentId size : UInt32)
  | memFree (pid segmentId size : UInt32)
  | sleep (pid blockedTimeMs : UInt32)
  | stdout (pid bytesToWrite logicalAddress : UInt32)
  | stdin (pid bytesToRead logicalAddress : UInt32)
  | initProc (path : String) (priority : ℤ)
  | exit (text : String)
  deriving DecidableEq, Repr

/-- What a CPU sends to Kernel Memory. -/
inductive MemoryOperation
  | requestContext (pid : UInt32)
  | nextInstruction (pid pc : UInt32)
  | updatedSegmentTable (pid : UInt32)
  | updatedContext (pid : UInt32) (registers : Registers)
  | stickDisconnected (text : String)
  deriving DecidableEq, Repr

/-- A request to a memory stick, which is named by its position in the list of sticks. -/
inductive StickRequest
  | read (stick : ℕ) (addressInStick bytesToRead : UInt32)
  | write (stick : ℕ) (addressInStick bytesToWrite : UInt32) (data : List UInt8)
  deriving DecidableEq, Repr

/-- `t_memory_stick_info`, with the bytes of the stick and whether it still answers. -/
structure MemoryStickInfo where
  size : UInt32
  offset : UInt32
  memory : List UInt8
  connected : Bool
  deriving DecidableEq, Repr

/-- `t_cpu` and `t_context`: the state a CPU runs an instruction in, whether its connection to the
scheduler takes what it sends, and what it has sent. -/
structure State where
  maxSegmentSize : UInt32
  memorySticks : List MemoryStickInfo
  registers : Registers
  segmentTable : List Segment
  segmentChanged : Bool
  schedulerConnected : Bool
  sent : List Operation
  sentToMemory : List MemoryOperation
  stickRequests : List StickRequest
  deriving DecidableEq, Repr

/-- A send to the scheduler: whether it succeeded. -/
def State.send (operation : Operation) (cpu : State) : Bool × State :=
  (cpu.schedulerConnected, { cpu with sent := cpu.sent ++ [operation] })

/-- `notify_bsod`. -/
def State.notifyBsod (cpu : State) : State :=
  { cpu with sentToMemory := cpu.sentToMemory ++ [.stickDisconnected "MS disconnected"] }

end OsSimulator.Cpu
