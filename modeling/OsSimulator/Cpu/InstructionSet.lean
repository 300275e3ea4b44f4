import OsSimulator.Cpu.Cycle
import OsSimulator.Library.Runs

set_option relaxedAutoImplicit false
set_option autoImplicit false

/-!
# The instruction set

What the instructions that only touch registers mean, in terms of integers, and that the cycle of
the CPU computes it. The cycle finds out whether an instruction has changed the program counter by
comparing it with the one before, so an instruction that writes the value it has already is followed
by the next one.

## Main definitions

* `Register`, `Basic`, `Basic.parse` — the syntax.
* `Values`, `Basic.next`, `referenceRun` — the meaning.
* `Counted`, `countedStep`, `Serves` — the cycle of the CPU on a program, with its rounds counted.
* `RewritesPc` — an instruction is fetched that writes the program counter with its own value.

## Main results

* `values_executeRound` — a round of the cycle computes the meaning of its instruction.
* `refines_iff_of_run` — the CPU implements its instruction set exactly when no instruction rewrites
  the program counter.
-/

namespace OsSimulator.Cpu

/-! ## Syntax -/

/-- The registers by their names. -/
inductive Register
  | AX | BX | CX | DX | PC | EAX | EBX | ECX | EDX | SI | DI
  deriving DecidableEq, Repr

namespace Register

/-- The name of a register in a program. -/
def name : Register → String
  | AX => "AX" | BX => "BX" | CX => "CX" | DX => "DX" | PC => "PC" | EAX => "EAX" | EBX => "EBX"
  | ECX => "ECX" | EDX => "EDX" | SI => "SI" | DI => "DI"

/-- How many values the register has. -/
def modulus : Register → ℤ
  | AX | BX | CX | DX => 256
  | _ => 4294967296

/-- The registers in the order in which they are searched. -/
def all : List Register := [AX, BX, CX, DX, PC, EAX, EBX, ECX, EDX, SI, DI]

/-- The register with a name. -/
def ofName (name : String) : Option Register := all.find? fun reg => reg.name == name

/-- A register is found by its name. -/
lemma name_of_ofName {name : String} {reg : Register} (h : ofName name = some reg) :
    reg.name = name := by
  simpa using List.find?_some h

end Register

/-- The instructions that touch no memory and are not delegated. -/
inductive Basic
  | noop
  | set (reg : Register) (value : ℤ)
  | sum (dest reg : Register)
  | sub (dest reg : Register)
  | jnz (reg : Register) (target : ℤ)
  deriving DecidableEq, Repr

/-- A numeral that `atoi` can convert: the others do not fit in a `long`. -/
def operand (text : String) : Option ℤ :=
  (integer text).filter fun x => -9223372036854775808 ≤ x ∧ x ≤ 9223372036854775807

/-- The instruction that a line of a program stands for, if its operands are well-formed. -/
def Basic.parse (rawInstruction : String) : Option Basic :=
  match decodeStage rawInstruction with
  | some ⟨"NOOP", []⟩ => some .noop
  | some ⟨"SET", [reg, value]⟩ =>
    (Register.ofName reg).bind fun reg => (operand value).map (Basic.set reg)
  | some ⟨"SUM", [dest, reg]⟩ =>
    (Register.ofName dest).bind fun dest => (Register.ofName reg).map (Basic.sum dest)
  | some ⟨"SUB", [dest, reg]⟩ =>
    (Register.ofName dest).bind fun dest => (Register.ofName reg).map (Basic.sub dest)
  | some ⟨"JNZ", [reg, target]⟩ =>
    (Register.ofName reg).bind fun reg => (operand target).map (Basic.jnz reg)
  | _ => none

/-! ## Meaning -/

/-- The values of the registers. -/
abbrev Values := Register → ℤ

/-- A register takes a value modulo its width. -/
def Values.write (reg : Register) (x : ℤ) (f : Values) : Values :=
  Function.update f reg (x % reg.modulus)

/-- The register an instruction writes, and what it writes. -/
def Basic.effect (f : Values) : Basic → Option (Register × ℤ)
  | .noop => none
  | .set reg value => some (reg, value)
  | .sum dest reg => some (dest, f dest + f reg)
  | .sub dest reg => some (dest, f dest - f reg)
  | .jnz reg target => if f reg ≠ 0 then some (.PC, target) else none

/-- What an instruction does: where it writes the program counter that is the next one, and
otherwise the next one is the successor. -/
def Basic.next (f : Values) (i : Basic) : Values :=
  match i.effect f with
  | none => f.write .PC (f .PC + 1)
  | some (reg, x) =>
    if reg = .PC then f.write .PC x else (f.write reg x).write .PC (f .PC + 1)

/-- The values after a number of instructions, unless the program counter leaves the program. -/
def referenceRun (program : List Basic) (f : Values) : ℕ → Option Values
  | 0 => some f
  | n + 1 => (referenceRun program f n).bind fun g =>
    program[(g .PC).toNat]?.map fun i => i.next g

/-! ## The cycle on a program -/

/-- The values in the register file. -/
def values (registers : Registers) : Values := fun reg =>
  (getRegister registers reg.name).toNat

/-- The loop of the CPU, with the number of instructions it has fetched. -/
structure Counted where
  loop : CpuLoop
  cycles : ℕ
  deriving DecidableEq, Repr

/-- A step of the loop that also counts the cycles. -/
def countedStep (c : Counted) (input : Input) : Option Counted :=
  (c.loop.step input).map fun loop =>
    match input with
    | .instruction _ => ⟨loop, c.cycles + 1⟩
    | _ => ⟨loop, c.cycles⟩

/-- Kernel Memory answers a fetch with the line of the program, and no other process is loaded. -/
def Serves (source : List String) (c : Counted) : Input → Prop
  | .instruction rawInstruction =>
    source[c.loop.cpu.registers.PC.toNat]? = some rawInstruction
  | .context _ _ => False
  | .message _ | .segmentTable _ => True

/-- The instruction writes the program counter with the value it has. -/
def Basic.RewritesPc (f : Values) (i : Basic) : Prop :=
  ∃ x, i.effect f = some (.PC, x) ∧ x % Register.PC.modulus = f .PC

/-- The CPU is at a fetch of such an instruction. -/
def RewritesPc (program : List Basic) (c : Counted) : Prop :=
  (∃ pid, c.loop.phase = .fetching pid) ∧
    ∃ i ∈ program[c.loop.cpu.registers.PC.toNat]?, i.RewritesPc (values c.loop.cpu.registers)

/-! ## A round -/

/-- To set a register of the CPU is to write the register of the language. -/
lemma values_setRegister {registers : Registers} {value : UInt32} {x : ℤ} (reg : Register)
    (hvalue : (value.toNat : ℤ) = x % 4294967296) :
    values (setRegister registers reg.name value) = (values registers).write reg x := by
  funext r
  by_cases heq : r = reg
  · subst heq
    rw [Values.write, Function.update_self]
    cases r <;> simp [values, Register.name, setRegister, getRegister, Register.modulus, hvalue]
  · rw [Values.write, Function.update_of_ne heq]
    cases reg <;> cases r <;> first | rfl | exact absurd rfl heq

/-- The values with what an instruction writes. -/
def Basic.written (f : Values) (i : Basic) : Values :=
  match i.effect f with
  | none => f
  | some (reg, x) => f.write reg x

/-- An operand as a word. -/
lemma toNat_ofInt_atoi {text : String} {x : ℤ} (h : operand text = some x) :
    ((UInt32.ofInt (atoi text)).toNat : ℤ) = x % 4294967296 := by
  obtain ⟨hinteger, hlimits⟩ := Option.filter_eq_some_iff.1 h
  have hlimits : -9223372036854775808 ≤ x ∧ x ≤ 9223372036854775807 := by simpa using hlimits
  rw [atoi_of_integer hinteger hlimits.1 hlimits.2, toNat_ofInt, u32_i32, u32]
  omega

/-- The handler of a well-formed instruction writes what the instruction writes. -/
lemma executeStage_of_parse {rawInstruction : String} {i : Basic}
    (h : Basic.parse rawInstruction = some i) (pid : UInt32) (cpu : State) :
    ∃ instruction executed, decodeStage rawInstruction = some instruction ∧
      executeStage instruction pid cpu = (some .true, executed) ∧
      values executed.registers = i.written (values cpu.registers) := by
  unfold Basic.parse at h
  split at h
  · rename_i hdecode
    obtain rfl := Option.some.inj h
    exact ⟨_, cpu, hdecode, rfl, rfl⟩
  · rename_i hdecode
    obtain ⟨reg, hreg, hvalue⟩ := Option.bind_eq_some_iff.1 h
    obtain ⟨x, hx, rfl⟩ := Option.map_eq_some_iff.1 hvalue
    obtain rfl := Register.name_of_ofName hreg
    exact ⟨_, _, hdecode, rfl, values_setRegister reg (toNat_ofInt_atoi hx)⟩
  · rename_i hdecode
    obtain ⟨dest, hdest, hrest⟩ := Option.bind_eq_some_iff.1 h
    obtain ⟨reg, hreg, rfl⟩ := Option.map_eq_some_iff.1 hrest
    obtain rfl := Register.name_of_ofName hdest
    obtain rfl := Register.name_of_ofName hreg
    refine ⟨_, _, hdecode, rfl, values_setRegister dest ?_⟩
    simp only [values, State.getRegister, UInt32.toNat_add]
    omega
  · rename_i hdecode
    obtain ⟨dest, hdest, hrest⟩ := Option.bind_eq_some_iff.1 h
    obtain ⟨reg, hreg, rfl⟩ := Option.map_eq_some_iff.1 hrest
    obtain rfl := Register.name_of_ofName hdest
    obtain rfl := Register.name_of_ofName hreg
    refine ⟨_, _, hdecode, rfl, values_setRegister dest ?_⟩
    have hlt := (getRegister cpu.registers reg.name).toNat_lt
    simp only [values, State.getRegister, UInt32.toNat_sub]
    omega
  · rename_i regText target hdecode
    obtain ⟨reg, hreg, hvalue⟩ := Option.bind_eq_some_iff.1 h
    obtain ⟨x, hx, rfl⟩ := Option.map_eq_some_iff.1 hvalue
    obtain rfl := Register.name_of_ofName hreg
    have hhandler : executeStage ⟨"JNZ", [reg.name, target]⟩ pid cpu =
        handlerJnz ⟨"JNZ", [reg.name, target]⟩ pid cpu := rfl
    by_cases hzero : getRegister cpu.registers reg.name = 0
    · have hvalues : values cpu.registers reg = 0 := by simp [values, hzero]
      refine ⟨_, cpu, hdecode, ?_, ?_⟩
      · simp [hhandler, handlerJnz, State.getRegister, hzero]
      · simp [Basic.written, Basic.effect, hvalues]
    · have hvalues : values cpu.registers reg ≠ 0 := by
        intro hvalues
        apply hzero
        apply UInt32.toNat.inj
        exact Int.natCast_eq_zero.1 hvalues
      refine ⟨_, cpu.setRegister "PC" (UInt32.ofInt (atoi target)), hdecode, ?_, ?_⟩
      · simp only [hhandler, handlerJnz, State.getRegister, ne_eq, hzero, not_false_eq_true,
          if_true]
      · rw [Basic.written, Basic.effect, if_pos hvalues]
        exact values_setRegister .PC (toNat_ofInt_atoi hx)
  · simp at h

/-- The program counter steps when it has its old value. -/
lemma values_advancePc (initialPc : UInt32) (cpu : State) :
    values (advancePc initialPc cpu).registers =
      if values cpu.registers .PC = initialPc.toNat then
        (values cpu.registers).write .PC (values cpu.registers .PC + 1)
      else values cpu.registers := by
  have hiff : values cpu.registers .PC = initialPc.toNat ↔ initialPc = cpu.registers.PC := by
    simp only [values, Register.name, getRegister, Nat.cast_inj]
    exact ⟨fun h => (UInt32.toNat.inj h).symm, fun h => congrArg UInt32.toNat h.symm⟩
  rw [advancePc]
  by_cases hsame : initialPc = cpu.registers.PC
  · rw [if_pos hsame, if_pos (hiff.2 hsame)]
    apply values_setRegister .PC
    simp only [values, Register.name, getRegister, UInt32.toNat_add]
    rfl
  · rw [if_neg hsame, if_neg fun h => hsame (hiff.1 h)]

/-- A round ends with the registers that the handler and the step of the program counter leave. -/
lemma values_executeRound_eq {rawInstruction : String} {i : Basic}
    (h : Basic.parse rawInstruction = some i) (pid : ℕ) (cpu : State) :
    values (executeRound rawInstruction pid cpu).2.registers =
      if i.written (values cpu.registers) .PC = values cpu.registers .PC then
        (i.written (values cpu.registers)).write .PC (i.written (values cpu.registers) .PC + 1)
      else i.written (values cpu.registers) := by
  obtain ⟨instruction, executed, hdecode, hexecute, hvalues⟩ :=
    executeStage_of_parse h (UInt32.ofNat pid) cpu
  rw [← hvalues]
  have hregisters : (executeRound rawInstruction pid cpu).2.registers =
      (advancePc cpu.registers.PC executed).registers := by
    unfold executeRound
    simp only [hdecode, hexecute]
    rfl
  rw [hregisters, values_advancePc]
  rfl

/-- **A round computes the meaning of its instruction**, unless the instruction rewrites the program
counter. -/
theorem values_executeRound {rawInstruction : String} {i : Basic}
    (h : Basic.parse rawInstruction = some i) (pid : ℕ) {cpu : State}
    (hnot : ¬ i.RewritesPc (values cpu.registers)) :
    values (executeRound rawInstruction pid cpu).2.registers = i.next (values cpu.registers) := by
  rw [values_executeRound_eq h]
  unfold Basic.RewritesPc at hnot
  unfold Basic.written Basic.next
  cases heffect : i.effect (values cpu.registers) with
  | none => exact if_pos rfl
  | some write =>
    obtain ⟨reg, x⟩ := write
    by_cases hpc : reg = .PC
    · subst hpc
      have hne : ¬ (values cpu.registers).write .PC x .PC = values cpu.registers .PC := by
        rw [Values.write, Function.update_self]
        exact fun heq => hnot ⟨x, heffect, heq⟩
      simp only [hne, if_false, if_true]
    · have hkept : (values cpu.registers).write reg x .PC = values cpu.registers .PC :=
        Function.update_of_ne (Ne.symm hpc) _ _
      simp only [hkept, hpc, if_false, if_true]

/-- A round of an instruction that rewrites the program counter goes on to the next one. -/
lemma values_executeRound_ne {rawInstruction : String} {i : Basic}
    (h : Basic.parse rawInstruction = some i) (pid : ℕ) {cpu : State}
    (hrewrites : i.RewritesPc (values cpu.registers)) :
    values (executeRound rawInstruction pid cpu).2.registers ≠ i.next (values cpu.registers) := by
  obtain ⟨x, heffect, hx⟩ := hrewrites
  intro heq
  have hpc := congrFun heq .PC
  have hsame : (values cpu.registers).write .PC x .PC = values cpu.registers .PC := by
    rw [Values.write, Function.update_self, hx]
  have hlt := cpu.registers.PC.toNat_lt
  have hwritten : i.written (values cpu.registers) = (values cpu.registers).write .PC x := by
    rw [Basic.written, heffect]
  have hnext : i.next (values cpu.registers) = (values cpu.registers).write .PC x := by
    rw [Basic.next, heffect]
    exact if_pos rfl
  rw [values_executeRound_eq h, hwritten, hnext, hsame, if_pos rfl, Values.write,
    Function.update_self] at hpc
  simp only [Register.modulus, values, Register.name, getRegister] at hpc
  omega

/-! ## Runs -/

/-- The registers stay when the next round begins. -/
lemma registers_nextRound (pid : ℕ) (keepGoing : Bool) (cpu : State) :
    (CpuLoop.nextRound pid keepGoing cpu).cpu.registers = cpu.registers := by
  unfold CpuLoop.nextRound
  split <;> rfl

/-- They stay over the check for an interrupt. -/
lemma registers_afterInterrupt (pid : ℕ) (interrupt : ExtendedBool) (cpu : State) :
    (CpuLoop.afterInterrupt pid interrupt cpu).cpu.registers = cpu.registers := by
  cases interrupt with
  | error | noTable => rfl
  | false | true =>
    rw [CpuLoop.afterInterrupt]
    split
    · rfl
    · exact registers_nextRound _ _ _

/-- They stay until a process has come. -/
lemma registers_receivePid (message : OsSimulator.Scheduler.CpuMessage) (cpu : State) :
    (CpuLoop.receivePid message cpu).cpu.registers = cpu.registers := by
  unfold CpuLoop.receivePid
  split
  · split <;> rfl
  · rfl

/-- A step is a round, or it leaves the registers. -/
lemma countedStep_cases {source : List String} {c c' : Counted} {input : Input}
    (hserves : Serves source c input) (hst : countedStep c input = some c') :
    (∃ rawInstruction pid, c.loop.phase = .fetching pid ∧
      source[c.loop.cpu.registers.PC.toNat]? = some rawInstruction ∧ c'.cycles = c.cycles + 1 ∧
      ∃ cpu : State, cpu.registers = c.loop.cpu.registers ∧
        c'.loop.cpu = (executeRound rawInstruction pid cpu).2) ∨
      c'.cycles = c.cycles ∧ c'.loop.cpu.registers = c.loop.cpu.registers := by
  obtain ⟨loop, hloop, rfl⟩ := Option.map_eq_some_iff.1 hst
  cases input with
  | instruction rawInstruction =>
    left
    rw [CpuLoop.step] at hloop
    split at hloop
    · rename_i pid hphase
      obtain rfl := Option.some.inj hloop
      let asked := CpuLoop.tellMemory
        (.nextInstruction (UInt32.ofNat pid) c.loop.cpu.registers.PC) c.loop.cpu
      exact ⟨rawInstruction, pid, hphase, hserves, rfl, { asked with sent := [] }, rfl, rfl⟩
    · simp at hloop
  | context registers segmentTable => exact hserves.elim
  | message message =>
    right
    rw [CpuLoop.step] at hloop
    split at hloop
    · obtain rfl := Option.some.inj hloop
      exact ⟨rfl, registers_receivePid _ _⟩
    · obtain rfl := Option.some.inj hloop
      exact ⟨rfl, registers_afterInterrupt _ _ _⟩
    · simp at hloop
  | segmentTable segmentTable =>
    right
    rw [CpuLoop.step] at hloop
    split at hloop
    · obtain rfl := Option.some.inj hloop
      exact ⟨rfl, registers_nextRound _ _ _⟩
    · simp at hloop

/-- The lines of the program stand for its instructions. -/
lemma map_parse_getElem? {source : List String} {program : List Basic}
    (hsource : source.map Basic.parse = program.map some) (pc : ℕ) :
    source[pc]?.map Basic.parse = program[pc]?.map some := by
  rw [← List.getElem?_map, ← List.getElem?_map, hsource]

/-- What is fetched is an instruction of the program. -/
lemma exists_parse {source : List String} {program : List Basic}
    (hsource : source.map Basic.parse = program.map some) {pc : ℕ} {rawInstruction : String}
    (hfetch : source[pc]? = some rawInstruction) :
    ∃ i, program[pc]? = some i ∧ Basic.parse rawInstruction = some i := by
  have hget := map_parse_getElem? hsource pc
  rw [hfetch, Option.map_some] at hget
  obtain ⟨i, hi, hparse⟩ := Option.map_eq_some_iff.1 hget.symm
  exact ⟨i, hi, hparse.symm⟩

/-- The reference goes on with the instruction at the program counter. -/
lemma referenceRun_succ {program : List Basic} {f : Values} {n : ℕ} {registers : Registers}
    {i : Basic} (hrun : referenceRun program f n = some (values registers))
    (hi : program[registers.PC.toNat]? = some i) :
    referenceRun program f (n + 1) = some (i.next (values registers)) := by
  have hpc : (values registers .PC).toNat = registers.PC.toNat := rfl
  rw [referenceRun, hrun, Option.bind_some, hpc, hi, Option.map_some]

/-- **The CPU implements its instruction set exactly when no instruction rewrites the program
counter.** In the runs of a CPU on a program the registers after any number of instructions are
those of the reference, if and only if at no fetch there is an instruction that writes the program
counter with the value it has.

**Proof sketch.** A round computes the meaning of its instruction and the other steps leave the
registers, so the reference is followed by induction on the run. An instruction that rewrites the
program counter is executed by one more step, and the CPU and the reference go on with different
program counters. -/
theorem refines_iff_of_run {source : List String} {program : List Basic}
    (hsource : source.map Basic.parse = program.map some) (start : CpuLoop) :
    (∀ c, Run countedStep (Serves source) ⟨start, 0⟩ c →
      referenceRun program (values start.cpu.registers) c.cycles =
        some (values c.loop.cpu.registers)) ↔
      ∀ c, Run countedStep (Serves source) ⟨start, 0⟩ c → ¬ RewritesPc program c := by
  constructor
  · rintro hrefines c hrun ⟨⟨pid, hphase⟩, i, hi, hrewrites⟩
    have hget := map_parse_getElem? hsource c.loop.cpu.registers.PC.toNat
    rw [Option.mem_def.1 hi, Option.map_some] at hget
    obtain ⟨rawInstruction, hfetch, hparse⟩ := Option.map_eq_some_iff.1 hget
    set asked := CpuLoop.tellMemory
      (.nextInstruction (UInt32.ofNat pid) c.loop.cpu.registers.PC) c.loop.cpu with hasked
    have hstep : countedStep c (.instruction rawInstruction) =
        some ⟨⟨if (executeRound rawInstruction pid { asked with sent := [] }).1
          then .checkingInterrupt pid else .stopped,
            (executeRound rawInstruction pid { asked with sent := [] }).2⟩, c.cycles + 1⟩ := by
      rw [countedStep, CpuLoop.step, hphase]
      rfl
    have hnext := hrefines _ (hrun.tail (.instruction rawInstruction) hfetch hstep)
    rw [referenceRun_succ (hrefines c hrun) hi] at hnext
    exact @values_executeRound_ne rawInstruction i hparse pid { asked with sent := [] } hrewrites
      (Option.some.inj hnext).symm
  · intro hnot c hrun
    induction hrun with
    | refl => rfl
    | tail input hrun hserves hst ih =>
      rename_i c c'
      rcases countedStep_cases hserves hst with
        ⟨rawInstruction, pid, hphase, hfetch, hcycles, cpu, hcpu, hround⟩ | ⟨hcycles, hregisters⟩
      · obtain ⟨i, hi, hparse⟩ := exists_parse hsource hfetch
        have hkept : ¬ i.RewritesPc (values cpu.registers) := by
          rw [hcpu]
          exact fun hrewrites => hnot c hrun ⟨⟨pid, hphase⟩, i, hi, hrewrites⟩
        rw [hcycles, referenceRun_succ ih hi, hround, values_executeRound hparse pid hkept, hcpu]
      · rw [hcycles, hregisters, ih]

/-- A CPU at the first instruction of a process, with a one in a register. -/
def oneInAX : CpuLoop where
  phase := .fetching 0
  cpu :=
    { maxSegmentSize := 10
      memorySticks := []
      registers := ⟨1, 0, 0, 0, 0, 0, 0, 0, 0, 0, 0⟩
      segmentTable := []
      segmentChanged := false
      schedulerConnected := true
      sent := []
      sentToMemory := []
      stickRequests := [] }

/-- A program that counts a byte up and jumps back. -/
theorem refines_iff_of_run_loop :
    (∀ c, Run countedStep (Serves ["SUM AX AX", "JNZ AX 0", "SET EBX -7"]) ⟨oneInAX, 0⟩ c →
      referenceRun [.sum .AX .AX, .jnz .AX 0, .set .EBX (-7)] (values oneInAX.cpu.registers)
        c.cycles = some (values c.loop.cpu.registers)) ↔
      ∀ c, Run countedStep (Serves ["SUM AX AX", "JNZ AX 0", "SET EBX -7"]) ⟨oneInAX, 0⟩ c →
        ¬ RewritesPc [.sum .AX .AX, .jnz .AX 0, .set .EBX (-7)] c :=
  refines_iff_of_run (by decide +kernel) oneInAX

/-- The program `JNZ AX 0` jumps to itself for ever, and the CPU goes on behind it. -/
theorem not_refines_of_jump_to_itself :
    ["JNZ AX 0"].map Basic.parse = [some (.jnz .AX 0)] ∧
      ∃ c, Run countedStep (Serves ["JNZ AX 0"]) ⟨oneInAX, 0⟩ c ∧ c.cycles = 1 ∧
        (referenceRun [.jnz .AX 0] (values oneInAX.cpu.registers) 1).map (· .PC) = some 0 ∧
        values c.loop.cpu.registers .PC = 1 := by
  have hafter : (countedStep ⟨oneInAX, 0⟩ (.instruction "JNZ AX 0")).map
      (fun c => (c.cycles, values c.loop.cpu.registers .PC)) = some (1, 1) := by decide +kernel
  obtain ⟨c, hstep, hc⟩ := Option.map_eq_some_iff.1 hafter
  obtain ⟨hcycles, hpc⟩ := Prod.mk.inj hc
  exact ⟨by decide +kernel, c, .tail (.instruction "JNZ AX 0") .refl rfl hstep, hcycles,
    by decide +kernel, hpc⟩

end OsSimulator.Cpu
