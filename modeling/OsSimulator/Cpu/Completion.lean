import OsSimulator.Cpu.Cycle
import OsSimulator.Cpu.Isolation

set_option relaxedAutoImplicit false
set_option autoImplicit false

/-!
# Rounds that report once

A round of the instruction cycle has to send the scheduler one operation: the system call or the
segmentation fault that a handler sends, or else `OP_CPU_CYCLE_OK`. A handler that returns
`EB_ERROR` stops the CPU and has sent nothing. The handlers that do not keep to that are those that
do not return, and a copy that has reported a fault and returns `EB_TRUE`.

## Main definitions

* `Connected` — peers that answer.
* `KeepsProtocol` — the condition on an instruction, one for each handler (`conditions`).
* `Overruns` — the first word that the instruction accesses goes over the end of its segment.

## Main results

* `reportsWhen_handlers` — every handler reports once, or stops the CPU, under its condition.
* `executeRound_of_keepsProtocol` — so does the round.
-/

namespace OsSimulator.Cpu

/-! ## Transfers that succeed -/

/-- The peers of the CPU take what it sends. -/
structure Connected (cpu : State) : Prop where
  scheduler : cpu.schedulerConnected = true
  sticks : ∀ stick ∈ cpu.memorySticks, stick.connected = true

/-- Every byte of the range is on a stick. -/
def Mapped (cpu : State) (address count : UInt32) : Prop :=
  ∀ o, o < count → (findStick (address + o) 0 cpu.memorySticks).isSome

/-- The sticks without their bytes. -/
def State.places (cpu : State) : List (UInt32 × UInt32 × Bool) :=
  cpu.memorySticks.map fun stick => (stick.size, stick.offset, stick.connected)

section Places

variable {cpu after : State} {address count : UInt32}

/-- Which addresses are on a stick does not depend on the bytes. -/
lemma findStick_isSome_congr {sticks sticks' : List MemoryStickInfo} (first : ℕ)
    (h : sticks'.map (fun stick => (stick.size, stick.offset, stick.connected)) =
      sticks.map fun stick => (stick.size, stick.offset, stick.connected)) :
    (findStick address first sticks').isSome = (findStick address first sticks).isSome := by
  induction sticks generalizing sticks' first with
  | nil =>
    obtain rfl := List.map_eq_nil_iff.1 h
    rfl
  | cons stick rest ih =>
    obtain ⟨stick', rest', rfl, hstick, hrest⟩ := List.map_eq_cons_iff.1 h
    simp only [Prod.mk.injEq] at hstick
    obtain ⟨hsize, hoffset, -⟩ := hstick
    simp only [findStick, hsize, hoffset]
    split
    · rfl
    · exact ih (first + 1) hrest

/-- Only the places of the sticks count. -/
lemma Mapped.of_places (h : Mapped cpu address count) (hplaces : after.places = cpu.places) :
    Mapped after address count := by
  intro o ho
  rw [findStick_isSome_congr 0 hplaces]
  exact h o ho

/-- The places and the connection to the scheduler count. -/
lemma Connected.of_places (h : Connected cpu) (hplaces : after.places = cpu.places)
    (hscheduler : after.schedulerConnected = cpu.schedulerConnected) : Connected after := by
  refine ⟨hscheduler.trans h.scheduler, fun stick hstick => ?_⟩
  have hmem : (stick.size, stick.offset, stick.connected) ∈ after.places :=
    List.mem_map_of_mem hstick
  rw [hplaces] at hmem
  obtain ⟨stick', hstick', heq⟩ := List.mem_map.1 hmem
  simp only [Prod.mk.injEq] at heq
  rw [← heq.2.2]
  exact h.sticks stick' hstick'

end Places

/-- A stick that was found is one of the sticks. -/
lemma mem_of_findStick {address : UInt32} {sticks : List MemoryStickInfo} {i : ℕ}
    {stick : MemoryStickInfo} (h : findStick address 0 sticks = some (i, stick)) :
    stick ∈ sticks := by
  obtain ⟨j, -, hget, -⟩ := findStick_spec h
  exact List.mem_of_getElem? hget

/-- A read leaves the sticks as they are, and on a mapped range all its rounds succeed. -/
lemma readLoop_spec {address size : UInt32} (rounds : ℕ) (done : UInt32) (cpu : State)
    (hconnected : Connected cpu) :
    (readLoop address size rounds done cpu).2.places = cpu.places ∧
      (Mapped cpu address size → (readLoop address size rounds done cpu).1.isSome) := by
  induction rounds generalizing done cpu with
  | zero => exact ⟨rfl, fun _ => rfl⟩
  | succ rounds ih =>
    rw [readLoop]
    split
    · exact ⟨rfl, fun _ => rfl⟩
    · rename_i hdone
      cases hfind : findStick (address + done) 0 cpu.memorySticks with
      | none =>
        refine ⟨rfl, fun hmapped => ?_⟩
        have hsome := hmapped done (UInt32.not_le.1 hdone)
        rw [hfind] at hsome
        exact absurd hsome (by simp)
      | some found =>
        obtain ⟨i, stick⟩ := found
        dsimp only
        rw [if_pos (hconnected.sticks stick (mem_of_findStick hfind))]
        set count := chunkSize stick (address + done - stick.offset) (size - done)
        set requested : State := { cpu with
          stickRequests := cpu.stickRequests ++
            [StickRequest.read i (address + done - stick.offset) count] }
        have hsame : requested.places = cpu.places := rfl
        obtain ⟨hplaces, hsome⟩ := ih (done + count) requested (hconnected.of_places hsame rfl)
        refine ⟨hplaces.trans hsame, fun hmapped => ?_⟩
        rw [Option.isSome_map]
        exact hsome (hmapped.of_places hsame)

/-- A write changes the bytes of the sticks only. -/
lemma writeLoop_places {address size : UInt32} (data : List UInt8) (rounds : ℕ) (done : UInt32)
    (cpu : State) : (writeLoop address data size rounds done cpu).2.places = cpu.places := by
  induction rounds generalizing done cpu with
  | zero => rfl
  | succ rounds ih =>
    rw [writeLoop]
    split
    · rfl
    · cases hfind : findStick (address + done) 0 cpu.memorySticks with
      | none => rfl
      | some found =>
        obtain ⟨i, stick⟩ := found
        dsimp only
        split
        · refine (ih _ _).trans ?_
          obtain ⟨j, rfl, hget, -⟩ := findStick_spec hfind
          simp only [State.places, List.map_set, Nat.zero_add]
          apply set_eq_self
          rw [List.getElem?_map, hget]
          rfl
        · rfl

/-- What a transfer leaves as it was for the scheduler. -/
lemma TransferEffect.reports {cpu after : State} {requests : List StickRequest}
    (h : TransferEffect cpu after requests) :
    after.sent = cpu.sent ∧ after.schedulerConnected = cpu.schedulerConnected := by
  rw [h.state]
  exact ⟨rfl, rfl⟩

/-- What a read leaves as it was. -/
lemma readMemory_spec {cpu : State} (address count : UInt32) (hconnected : Connected cpu) :
    (readMemory address count cpu).2.sent = cpu.sent ∧
      Connected (readMemory address count cpu).2 ∧
      (Mapped cpu address count → (readMemory address count cpu).1.isSome) := by
  obtain ⟨hplaces, hsome⟩ := readLoop_spec count.toNat 0 cpu hconnected
  obtain ⟨requests, heffect, -⟩ := readMemory_effect address count cpu
  obtain ⟨hsent, hscheduler⟩ := heffect.reports
  exact ⟨hsent, hconnected.of_places hplaces hscheduler, hsome⟩

/-- What a write leaves as it was. -/
lemma writeMemory_spec {cpu : State} (address : UInt32) (data : List UInt8) (count : UInt32)
    (hconnected : Connected cpu) :
    (writeMemory address data count cpu).2.sent = cpu.sent ∧
      Connected (writeMemory address data count cpu).2 := by
  obtain ⟨requests, heffect, -⟩ := writeMemory_effect address data count cpu
  obtain ⟨hsent, hscheduler⟩ := heffect.reports
  exact ⟨hsent, hconnected.of_places (writeLoop_places data count.toNat 0 cpu) hscheduler⟩

/-! ## When a handler reports once -/

/-- The first word that the instruction accesses goes over the end of its segment. -/
def Overruns (instruction : Instruction) (cpu : State) : Prop :=
  ∃ access ∈ (accesses instruction cpu).head?, Exceeds cpu access.1 4

/-- The handler returns, and has sent nothing and the cycle has to be reported; or one operation,
which takes the place of the report and after an overrun is `OP_SEG_FAULT`; or nothing, and the CPU
stops. -/
inductive Reports (instruction : Instruction) (cpu : State) : HandlerResult → Prop
  | none {after : State} : after.sent = cpu.sent → Connected after → ¬ Overruns instruction cpu →
      Reports instruction cpu (some .true, after)
  | one {after : State} (operation : Operation) : after.sent = cpu.sent ++ [operation] →
      Connected after →
      (Overruns instruction cpu → operation = .segFault "SEGMENTATION FAULT") →
      Reports instruction cpu (some .false, after)
  | stop {after : State} : after.sent = cpu.sent → ¬ Overruns instruction cpu →
      Reports instruction cpu (some .error, after)

/-- The largest segment size and the segment table are as Kernel Memory sends them. -/
structure TableSent (cpu : State) : Prop where
  max : 0 < cpu.maxSegmentSize.toNat ∧ (cpu.maxSegmentSize.toNat : ℤ) ≤ INT_MAX
  table : TableInRange cpu.segmentTable

/-- The word at an address that is in its segment is on the sticks. -/
def WordMapped (cpu : State) (logicalAddress : UInt32) : Prop :=
  ∀ s ∈ cpu.segmentOf logicalAddress, (cpu.offsetOf logicalAddress + 4 : ℤ) ≤ s.size →
    ∀ address : UInt32, (address.toNat : ℤ) = s.base + cpu.offsetOf logicalAddress →
      Mapped cpu address wordSize

/-- For every instruction, when its handler keeps to the protocol: it has the parameters it reads;
the value that `MOV_IN` reads through a pointer was read; and a copy whose source word is in its
segment has no destination word over the end of one. -/
def conditions : List (String × (List String → State → Prop)) :=
  [("NOOP", fun _ _ => True),
    ("SET", fun parameters _ => 2 ≤ parameters.length),
    ("SUM", fun parameters _ => 2 ≤ parameters.length),
    ("SUB", fun parameters _ => 2 ≤ parameters.length),
    ("JNZ", fun parameters cpu => ∃ reg rest, parameters = reg :: rest ∧
      (cpu.getRegister reg ≠ 0 → rest ≠ [])),
    ("MOV_IN", fun parameters cpu => TableSent cpu ∧ WordMapped cpu cpu.registers.SI ∧
      (Fits cpu cpu.registers.SI 4 → parameters ≠ [])),
    ("MOV_OUT", fun parameters cpu => TableSent cpu ∧ parameters ≠ []),
    ("COPY_MEM", fun parameters cpu => TableSent cpu ∧ parameters ≠ [] ∧
      (Fits cpu cpu.registers.SI 4 → ¬ Exceeds cpu cpu.registers.DI 4)),
    ("MUTEX_CREATE", fun parameters _ => 1 ≤ parameters.length),
    ("MUTEX_LOCK", fun parameters _ => 1 ≤ parameters.length),
    ("MUTEX_UNLOCK", fun parameters _ => 1 ≤ parameters.length),
    ("MEM_ALLOC", fun parameters _ => 2 ≤ parameters.length),
    ("MEM_FREE", fun parameters _ => 1 ≤ parameters.length),
    ("SLEEP", fun parameters _ => 1 ≤ parameters.length),
    ("STDOUT", fun parameters _ => 2 ≤ parameters.length),
    ("STDIN", fun parameters _ => 2 ≤ parameters.length),
    ("INIT_PROC", fun parameters _ => 2 ≤ parameters.length),
    ("EXIT", fun _ _ => True)]

/-- The instruction meets the condition of its handler, if it has one. -/
def KeepsProtocol (instruction : Instruction) (cpu : State) : Prop :=
  ∀ condition, conditions.lookup instruction.name = some condition →
    condition instruction.parameters cpu

section Reports

variable {instruction : Instruction} (pid : UInt32) {cpu : State}

/-- Who accesses nothing overruns nothing. -/
lemma not_overruns_of_nil (h : accesses instruction cpu = []) : ¬ Overruns instruction cpu := by
  rintro ⟨access, haccess, -⟩
  rw [h] at haccess
  exact absurd haccess (by simp)

/-- The first access decides. -/
lemma overruns_iff_of_cons {access : UInt32 × ℕ} {rest : List (UInt32 × ℕ)}
    (h : accesses instruction cpu = access :: rest) :
    Overruns instruction cpu ↔ Exceeds cpu access.1 4 := by
  unfold Overruns
  rw [h]
  simp

/-- A handler that at most sets a register. -/
lemma reports_setRegister (hconnected : Connected cpu) (haccesses : accesses instruction cpu = [])
    (registerName : String) (value : UInt32) :
    Reports instruction cpu (some .true, cpu.setRegister registerName value) :=
  .none rfl ⟨hconnected.scheduler, hconnected.sticks⟩ (not_overruns_of_nil haccesses)

/-- A handler that sends a system call. -/
lemma reports_sendSyscall (hconnected : Connected cpu) (haccesses : accesses instruction cpu = [])
    (operation : Operation) : Reports instruction cpu (sendSyscall operation cpu) := by
  show Reports instruction cpu
    (some (if cpu.schedulerConnected then .false else .error), (cpu.send operation).2)
  rw [if_pos hconnected.scheduler]
  exact .one operation rfl ⟨hconnected.scheduler, hconnected.sticks⟩
    fun h => absurd h (not_overruns_of_nil haccesses)

/-- A syscall about a segment reports once. -/
lemma reports_sendSegmentSyscall (hconnected : Connected cpu)
    (haccesses : accesses instruction cpu = []) (operation : Operation) :
    Reports instruction cpu (sendSegmentSyscall operation cpu) := by
  unfold sendSegmentSyscall
  dsimp only
  rw [if_pos (show (cpu.send operation).1 = true from hconnected.scheduler)]
  exact .one operation rfl ⟨hconnected.scheduler, hconnected.sticks⟩
    fun h => absurd h (not_overruns_of_nil haccesses)

/-- A list with two elements. -/
lemma exists_two {parameters : List String} (h : 2 ≤ parameters.length) :
    ∃ a b rest, parameters = a :: b :: rest := by
  match parameters, h with
  | a :: b :: rest, _ => exact ⟨a, b, rest, rfl⟩

/-- At least one parameter. -/
lemma exists_one {parameters : List String} (h : 1 ≤ parameters.length) :
    ∃ a rest, parameters = a :: rest := by
  match parameters, h with
  | a :: rest, _ => exact ⟨a, rest, rfl⟩

/-- `handler_jnz` reports once. -/
lemma reports_jnz (hconnected : Connected cpu) (haccesses : accesses instruction cpu = [])
    {reg : String} {rest : List String} (hparameters : instruction.parameters = reg :: rest)
    (hrest : cpu.getRegister reg ≠ 0 → rest ≠ []) :
    Reports instruction cpu (handlerJnz instruction pid cpu) := by
  unfold handlerJnz
  simp only [hparameters]
  split
  · rename_i hreg
    obtain ⟨target, rest, rfl⟩ := List.exists_cons_of_ne_nil (hrest hreg)
    exact reports_setRegister hconnected haccesses _ _
  · exact .none rfl hconnected (not_overruns_of_nil haccesses)

/-- A fault that `mmu` has reported. -/
lemma reports_segFault (hconnected : Connected cpu) :
    Reports instruction cpu
      (some .false, { cpu with sent := cpu.sent ++ [.segFault "SEGMENTATION FAULT"] }) :=
  .one _ rfl ⟨hconnected.scheduler, hconnected.sticks⟩ fun _ => rfl

/-- A handler whose first access is behind the tests on its address: without a segment it stops the
CPU, over the end of the segment the fault is reported, and in it the rest of the handler
decides. -/
lemma reports_checkAddress (hconnected : Connected cpu) (hsent : TableSent cpu)
    {logicalAddress : UInt32} {count : ℕ} {rest : List (UInt32 × ℕ)}
    (haccesses : accesses instruction cpu = (logicalAddress, count) :: rest)
    {next : UInt32 → State → HandlerResult}
    (hnext : ¬ Overruns instruction cpu → ∀ s, cpu.segmentOf logicalAddress = some s →
      (cpu.offsetOf logicalAddress + 4 : ℤ) ≤ s.size → ∀ address : UInt32,
      (address.toNat : ℤ) = s.base + cpu.offsetOf logicalAddress →
        Reports instruction cpu (next address cpu)) :
    Reports instruction cpu (checkAddress (mmu logicalAddress wordSize cpu) .false next) := by
  have hiff := overruns_iff_of_cons haccesses
  rcases fits_or_exceeds cpu logicalAddress 4 with hnone | ⟨s, hs, hfits⟩ | hexceeds
  · rw [checkAddress_of_none hsent.max .false next hnone]
    refine .stop rfl fun hover => ?_
    obtain ⟨s, hs, -⟩ := hiff.1 hover
    rw [Option.mem_def, hnone] at hs
    exact absurd hs (by simp)
  · obtain ⟨address, haddress, hcheck⟩ :=
      checkAddress_of_fits hsent.max hsent.table .false next hs hfits
    rw [hcheck]
    refine hnext (fun hover => ?_) s hs hfits address haddress
    exact not_fits_of_exceeds (hiff.1 hover) ⟨s, hs, hfits⟩
  · rw [checkAddress_of_exceeds hsent.max hsent.table .false next hexceeds,
      if_pos hconnected.scheduler]
    exact reports_segFault hconnected

/-- `handler_mov_in` reports once. -/
lemma reports_movIn (hconnected : Connected cpu) (hsent : TableSent cpu)
    (haccesses : accesses instruction cpu = [(cpu.registers.SI, 4)])
    (hmapped : WordMapped cpu cpu.registers.SI)
    (hparameters : Fits cpu cpu.registers.SI 4 → instruction.parameters ≠ []) :
    Reports instruction cpu (handlerMovIn instruction pid cpu) := by
  refine reports_checkAddress hconnected hsent haccesses
    fun hover s hs hfits address haddress => ?_
  obtain ⟨hsame, hafter, hsome⟩ := readMemory_spec address wordSize hconnected
  obtain ⟨bytes, hbytes⟩ := Option.isSome_iff_exists.1 (hsome (hmapped s hs hfits address haddress))
  obtain ⟨reg, rest, hcons⟩ := List.exists_cons_of_ne_nil (hparameters ⟨s, hs, hfits⟩)
  have hread : readMemory address wordSize cpu = (some bytes, (readMemory address wordSize cpu).2) :=
    Prod.ext hbytes rfl
  rw [hread]
  simp only [hcons]
  exact .none hsame ⟨hafter.scheduler, hafter.sticks⟩ hover

/-- `handler_mov_out` reports once. -/
lemma reports_movOut (hconnected : Connected cpu) (hsent : TableSent cpu)
    (haccesses : accesses instruction cpu = [(cpu.registers.DI, 4)])
    (hparameters : instruction.parameters ≠ []) :
    Reports instruction cpu (handlerMovOut instruction pid cpu) := by
  obtain ⟨reg, rest, hcons⟩ := List.exists_cons_of_ne_nil hparameters
  unfold handlerMovOut
  simp only [hcons]
  refine reports_checkAddress hconnected hsent haccesses
    fun hover s hs hfits address haddress => ?_
  obtain ⟨hsame, hafter⟩ :=
    writeMemory_spec address (bytesOfUint32 (cpu.getRegister reg)) wordSize hconnected
  revert hsame hafter
  generalize writeMemory address (bytesOfUint32 (cpu.getRegister reg)) wordSize cpu = written
  obtain ⟨ok, after⟩ := written
  intro hsame hafter
  cases ok with
  | true => exact .none hsame hafter hover
  | false => exact .stop hsame hover

/-- The transfers of a copy. -/
lemma reports_copyBytes (hconnected : Connected cpu) (hover : ¬ Overruns instruction cpu)
    (srcAddr dstAddr byteCount : UInt32) :
    Reports instruction cpu (copyBytes srcAddr dstAddr byteCount cpu) := by
  unfold copyBytes
  obtain ⟨hsame, hmiddle, -⟩ := readMemory_spec srcAddr byteCount hconnected
  revert hsame hmiddle
  generalize readMemory srcAddr byteCount cpu = read
  obtain ⟨bytes, middle⟩ := read
  intro hsame hmiddle
  cases bytes with
  | none => exact .stop hsame hover
  | some bytes =>
    obtain ⟨hsame', hafter⟩ := writeMemory_spec dstAddr bytes byteCount hmiddle
    revert hsame' hafter
    dsimp only
    generalize writeMemory dstAddr bytes byteCount middle = written
    obtain ⟨ok, after⟩ := written
    intro hsame' hafter
    cases ok with
    | true => exact .none (hsame'.trans hsame) hafter hover
    | false => exact .stop (hsame'.trans hsame) hover

/-- `handler_copy_mem` reports once. -/
lemma reports_copyMem (hconnected : Connected cpu) (hsent : TableSent cpu) {reg : String}
    {rest : List String} (hcons : instruction.parameters = reg :: rest)
    (haccesses : accesses instruction cpu =
      [(cpu.registers.SI, (cpu.getRegister reg).toNat),
        (cpu.registers.DI, (cpu.getRegister reg).toNat)])
    (hdest : Fits cpu cpu.registers.SI 4 → ¬ Exceeds cpu cpu.registers.DI 4) :
    Reports instruction cpu (handlerCopyMem instruction pid cpu) := by
  unfold handlerCopyMem
  simp only [hcons]
  refine reports_checkAddress hconnected hsent haccesses
    fun hover s hs hfits srcAddr _ => ?_
  rcases fits_or_exceeds cpu cpu.registers.DI 4 with hnone | ⟨s', hs', hfits'⟩ | hexceeds
  · rw [checkAddress_of_none hsent.max .true _ hnone]
    exact .stop rfl hover
  · obtain ⟨dstAddr, -, hcheck⟩ :=
      checkAddress_of_fits hsent.max hsent.table .true _ hs' hfits'
    rw [hcheck]
    exact reports_copyBytes hconnected hover srcAddr dstAddr _
  · exact absurd hexceeds (hdest ⟨s, hs, hfits⟩)

end Reports

/-- A handler reports once under the condition. -/
def ReportsWhen (entry : String × Handler) (condition : String × (List String → State → Prop)) :
    Prop :=
  entry.1 = condition.1 ∧ ∀ instruction pid cpu, instruction.name = entry.1 → Connected cpu →
    condition.2 instruction.parameters cpu →
      Reports instruction cpu (entry.2 instruction pid cpu)

/-- The instructions that access no memory. -/
lemma accesses_eq_nil {instruction : Instruction} {name : String} (h : instruction.name = name)
    (hname : name ∉ ["MOV_IN", "MOV_OUT", "COPY_MEM"]) (cpu : State) :
    accesses instruction cpu = [] := by
  obtain ⟨name', parameters⟩ := instruction
  obtain rfl : name' = name := h
  unfold accesses
  split <;> simp_all

/-- A handler that reads one parameter and sends a system call. -/
lemma reportsWhen_one {name : String} {handler : Handler}
    (hname : name ∉ ["MOV_IN", "MOV_OUT", "COPY_MEM"])
    (hhandler : ∀ instruction pid cpu a rest, instruction.parameters = a :: rest →
      ∃ operation, handler instruction pid cpu = sendSyscall operation cpu ∨
        handler instruction pid cpu = sendSegmentSyscall operation cpu) :
    ReportsWhen (name, handler) (name, fun parameters _ => 1 ≤ parameters.length) := by
  refine ⟨rfl, fun instruction pid cpu heq hconnected hparameters => ?_⟩
  obtain ⟨a, rest, hcons⟩ := exists_one hparameters
  have haccesses := accesses_eq_nil heq hname cpu
  obtain ⟨operation, hresult | hresult⟩ := hhandler instruction pid cpu a rest hcons
  · show Reports instruction cpu (handler instruction pid cpu)
    rw [hresult]
    exact reports_sendSyscall hconnected haccesses operation
  · show Reports instruction cpu (handler instruction pid cpu)
    rw [hresult]
    exact reports_sendSegmentSyscall hconnected haccesses operation

/-- A handler that reads two parameters and sends a system call. -/
lemma reportsWhen_two {name : String} {handler : Handler}
    (hname : name ∉ ["MOV_IN", "MOV_OUT", "COPY_MEM"])
    (hhandler : ∀ instruction pid cpu a b rest, instruction.parameters = a :: b :: rest →
      ∃ operation, handler instruction pid cpu = sendSyscall operation cpu ∨
        handler instruction pid cpu = sendSegmentSyscall operation cpu) :
    ReportsWhen (name, handler) (name, fun parameters _ => 2 ≤ parameters.length) := by
  refine ⟨rfl, fun instruction pid cpu heq hconnected hparameters => ?_⟩
  obtain ⟨a, b, rest, hcons⟩ := exists_two hparameters
  have haccesses := accesses_eq_nil heq hname cpu
  obtain ⟨operation, hresult | hresult⟩ := hhandler instruction pid cpu a b rest hcons
  · show Reports instruction cpu (handler instruction pid cpu)
    rw [hresult]
    exact reports_sendSyscall hconnected haccesses operation
  · show Reports instruction cpu (handler instruction pid cpu)
    rw [hresult]
    exact reports_sendSegmentSyscall hconnected haccesses operation

/-- A handler that reads two parameters and sets a register. -/
lemma reportsWhen_set {name : String} {handler : Handler}
    (hname : name ∉ ["MOV_IN", "MOV_OUT", "COPY_MEM"])
    (hhandler : ∀ instruction pid cpu a b rest, instruction.parameters = a :: b :: rest →
      ∃ value, handler instruction pid cpu = (some .true, cpu.setRegister a value)) :
    ReportsWhen (name, handler) (name, fun parameters _ => 2 ≤ parameters.length) := by
  refine ⟨rfl, fun instruction pid cpu heq hconnected hparameters => ?_⟩
  obtain ⟨a, b, rest, hcons⟩ := exists_two hparameters
  obtain ⟨value, hresult⟩ := hhandler instruction pid cpu a b rest hcons
  show Reports instruction cpu (handler instruction pid cpu)
  rw [hresult]
  exact reports_setRegister hconnected (accesses_eq_nil heq hname cpu) a value

/-- **Every handler reports once under its condition.** -/
theorem reportsWhen_handlers : List.Forall₂ ReportsWhen handlers conditions := by
  refine .cons ?noop <| .cons ?set <| .cons ?sum <| .cons ?sub <| .cons ?jnz <| .cons ?movIn <|
    .cons ?movOut <| .cons ?copyMem <| .cons ?mutexCreate <| .cons ?mutexLock <|
    .cons ?mutexUnlock <| .cons ?memAlloc <| .cons ?memFree <| .cons ?sleep <| .cons ?stdout <|
    .cons ?stdin <| .cons ?initProc <| .cons ?exit .nil
  case noop =>
    exact ⟨rfl, fun instruction pid cpu heq hconnected _ =>
      .none rfl hconnected (not_overruns_of_nil (accesses_eq_nil heq (by decide) cpu))⟩
  case set =>
    exact reportsWhen_set (by decide) fun _ _ _ _ _ _ h => by
      simp only [handlerSet, h]
      exact ⟨_, rfl⟩
  case sum =>
    exact reportsWhen_set (by decide) fun _ _ _ _ _ _ h => by
      simp only [handlerSum, h]
      exact ⟨_, rfl⟩
  case sub =>
    exact reportsWhen_set (by decide) fun _ _ _ _ _ _ h => by
      simp only [handlerSub, h]
      exact ⟨_, rfl⟩
  case jnz =>
    refine ⟨rfl, fun instruction pid cpu heq hconnected hparameters => ?_⟩
    obtain ⟨reg, rest, hcons, hrest⟩ := hparameters
    exact reports_jnz pid hconnected (accesses_eq_nil heq (by decide) cpu) hcons hrest
  case movIn =>
    refine ⟨rfl, fun instruction pid cpu heq hconnected hcondition => ?_⟩
    obtain ⟨hsent, hmapped, hparameters⟩ := hcondition
    refine reports_movIn pid hconnected hsent ?_ hmapped hparameters
    obtain ⟨name, parameters⟩ := instruction
    obtain rfl : name = "MOV_IN" := heq
    rfl
  case movOut =>
    refine ⟨rfl, fun instruction pid cpu heq hconnected hcondition => ?_⟩
    obtain ⟨hsent, hparameters⟩ := hcondition
    refine reports_movOut pid hconnected hsent ?_ hparameters
    obtain ⟨name, parameters⟩ := instruction
    obtain rfl : name = "MOV_OUT" := heq
    obtain ⟨reg, rest, rfl⟩ := List.exists_cons_of_ne_nil hparameters
    rfl
  case copyMem =>
    refine ⟨rfl, fun instruction pid cpu heq hconnected hcondition => ?_⟩
    obtain ⟨hsent, hparameters, hdest⟩ := hcondition
    obtain ⟨reg, rest, hcons⟩ := List.exists_cons_of_ne_nil hparameters
    refine reports_copyMem pid hconnected hsent hcons ?_ hdest
    obtain ⟨name, parameters⟩ := instruction
    obtain rfl : name = "COPY_MEM" := heq
    obtain rfl : parameters = reg :: rest := hcons
    rfl
  case mutexCreate =>
    exact reportsWhen_one (by decide) fun _ _ _ _ _ h => by
      simp only [handlerMutexCreate, h]
      exact ⟨_, .inl rfl⟩
  case mutexLock =>
    exact reportsWhen_one (by decide) fun _ _ _ _ _ h => by
      simp only [handlerMutexLock, h]
      exact ⟨_, .inl rfl⟩
  case mutexUnlock =>
    exact reportsWhen_one (by decide) fun _ _ _ _ _ h => by
      simp only [handlerMutexUnlock, h]
      exact ⟨_, .inl rfl⟩
  case memAlloc =>
    exact reportsWhen_two (by decide) fun _ _ _ _ _ _ h => by
      simp only [handlerMemAlloc, h]
      exact ⟨_, .inr rfl⟩
  case memFree =>
    exact reportsWhen_one (by decide) fun _ _ _ _ _ h => by
      simp only [handlerMemFree, h]
      exact ⟨_, .inr rfl⟩
  case sleep =>
    exact reportsWhen_one (by decide) fun _ _ _ _ _ h => by
      simp only [handlerSleep, h]
      exact ⟨_, .inl rfl⟩
  case stdout =>
    exact reportsWhen_two (by decide) fun _ _ _ _ _ _ h => by
      simp only [handlerStdout, h]
      exact ⟨_, .inl rfl⟩
  case stdin =>
    exact reportsWhen_two (by decide) fun _ _ _ _ _ _ h => by
      simp only [handlerStdin, h]
      exact ⟨_, .inl rfl⟩
  case initProc =>
    exact reportsWhen_two (by decide) fun _ _ _ _ _ _ h => by
      simp only [handlerInitProc, h]
      exact ⟨_, .inl rfl⟩
  case exit =>
    exact ⟨rfl, fun instruction pid cpu heq hconnected _ =>
      reports_sendSyscall hconnected (accesses_eq_nil heq (by decide) cpu) _⟩

/-- Two tables with the same keys. -/
lemma lookup_of_forall₂ {α β : Type} {R : String × α → String × β → Prop}
    {l : List (String × α)} {l' : List (String × β)} (h : List.Forall₂ R l l')
    (hkey : ∀ a b, R a b → a.1 = b.1) (key : String) :
    (l.lookup key = none ∧ l'.lookup key = none) ∨
      ∃ a b, l.lookup key = some a ∧ l'.lookup key = some b ∧ R (key, a) (key, b) := by
  induction h with
  | nil => exact .inl ⟨rfl, rfl⟩
  | @cons entry entry' rest rest' hR _ ih =>
    obtain ⟨name, a⟩ := entry
    obtain ⟨name', b⟩ := entry'
    obtain rfl : name = name' := hkey _ _ hR
    rw [List.lookup_cons, List.lookup_cons]
    cases heq : key == name with
    | true =>
      obtain rfl : key = name := by simpa using heq
      exact .inr ⟨a, b, rfl, rfl, hR⟩
    | false => exact ih

/-- **An instruction that meets its condition reports once or stops the CPU**, which an unknown one
does. -/
theorem reports_executeStage {instruction : Instruction} {cpu : State} (pid : UInt32)
    (hconnected : Connected cpu) (h : KeepsProtocol instruction cpu) :
    Reports instruction cpu (executeStage instruction pid cpu) := by
  rcases lookup_of_forall₂ reportsWhen_handlers (fun _ _ h => h.1) instruction.name with
    ⟨hhandler, hcondition⟩ | ⟨handler, condition, hhandler, hcondition, -, hreports⟩
  · simp only [executeStage, hhandler]
    have hname : instruction.name ∉ ["MOV_IN", "MOV_OUT", "COPY_MEM"] := by
      intro hmem
      have hknown : ∀ name ∈ ["MOV_IN", "MOV_OUT", "COPY_MEM"],
          (conditions.lookup name).isSome := by
        intro name hname
        simp only [List.mem_cons, List.not_mem_nil, or_false] at hname
        rcases hname with rfl | rfl | rfl <;> rfl
      have := hknown _ hmem
      rw [hcondition] at this
      exact absurd this (by simp)
    exact .stop rfl (not_overruns_of_nil (accesses_eq_nil rfl hname cpu))
  · simp only [executeStage, hhandler]
    exact hreports instruction pid cpu rfl hconnected (h condition hcondition)

/-- The program counter moves, and nothing is sent. -/
lemma advancePc_spec (initialPc : UInt32) (cpu : State) :
    (advancePc initialPc cpu).sent = cpu.sent ∧
      (advancePc initialPc cpu).schedulerConnected = cpu.schedulerConnected ∧
      (advancePc initialPc cpu).memorySticks = cpu.memorySticks := by
  unfold advancePc
  split
  · exact ⟨rfl, rfl, rfl⟩
  · exact ⟨rfl, rfl, rfl⟩

/-- Nor is a connection lost. -/
lemma Connected.advancePc {cpu : State} (h : Connected cpu) (initialPc : UInt32) :
    Connected (advancePc initialPc cpu) := by
  obtain ⟨-, hscheduler, hsticks⟩ := advancePc_spec initialPc cpu
  exact ⟨hscheduler.trans h.scheduler, hsticks ▸ h.sticks⟩

/-- **A round of the cycle sends one operation and comes to `check_interrupt`, or it sends nothing
and the CPU stops**, when its instruction meets the condition. -/
theorem executeRound_of_keepsProtocol {rawInstruction : String} {instruction : Instruction}
    {cpu : State} (pid : ℕ) (hdecode : decodeStage rawInstruction = some instruction)
    (hconnected : Connected cpu) (h : KeepsProtocol instruction cpu) :
    (∃ after operation, executeRound rawInstruction pid cpu = (true, after) ∧
        after.sent = cpu.sent ++ [operation] ∧ Connected after ∧
        (Overruns instruction cpu → operation = .segFault "SEGMENTATION FAULT")) ∨
      ∃ after, executeRound rawInstruction pid cpu = (false, after) ∧ after.sent = cpu.sent ∧
        ¬ Overruns instruction cpu := by
  have hreports := reports_executeStage (UInt32.ofNat pid) hconnected h
  unfold executeRound
  rw [hdecode]
  dsimp only
  revert hreports
  generalize executeStage instruction (UInt32.ofNat pid) cpu = result
  intro hreports
  cases hreports with
  | @none executed hsame hexecuted hnot =>
    obtain ⟨hsent, -, -⟩ := advancePc_spec cpu.registers.PC executed
    have hadvanced := hexecuted.advancePc cpu.registers.PC
    refine .inl ⟨((advancePc cpu.registers.PC executed).send (.cycleOk "OK")).2, .cycleOk "OK",
      Prod.ext hadvanced.scheduler rfl, ?_, ⟨hadvanced.scheduler, hadvanced.sticks⟩,
      fun h => absurd h hnot⟩
    show (advancePc cpu.registers.PC executed).sent ++ [_] = _
    rw [hsent, hsame]
  | @one executed operation hone hexecuted hfault =>
    obtain ⟨hsent, -, -⟩ := advancePc_spec cpu.registers.PC executed
    exact .inl ⟨_, operation, rfl, hsent.trans hone, hexecuted.advancePc cpu.registers.PC, hfault⟩
  | stop hsame hnot => exact .inr ⟨_, rfl, hsame, hnot⟩

end OsSimulator.Cpu
