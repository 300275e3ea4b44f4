import OsSimulator.Cpu.Cycle

set_option relaxedAutoImplicit false
set_option autoImplicit false

/-!
# Lines that are no instruction

`decode_stage` splits any line and stores what is behind the name in an array of three. Each handler
reads the parameters that its instruction has by the documentation in `handlers.h`, and nobody looks
at `parameter_count`.

## Main definitions

* `storedParameters` — how many parameters `decode_stage` stores.
* `parameterReads` — the indices of the parameters that the handler of an instruction reads.
* `operandCount` — how many operands an instruction has.
* `HandledInBounds` — nothing is stored or read out of bounds, and what is no valid instruction is
  rejected.

## Main results

* `executeStage_congr`, `executeStage_eq_none` — the handler reads these parameters and no others.
* `handledInBounds_iff` — exactly the valid instructions and the short lines with an unknown name
  are handled in bounds.
-/

namespace OsSimulator.Cpu

/-- The parts of a line: `string_split` at the spaces. -/
def parts (rawInstruction : String) : List String :=
  (rawInstruction.toList.splitOn ' ').map String.ofList

/-- How many parameters `decode_stage` stores. -/
def storedParameters (rawInstruction : String) : ℕ := (parts rawInstruction).length - 1

/-- Whether `handler_mov_in` comes to its parameter. -/
def readsMovInParameter (cpu : State) : Bool :=
  match mmu cpu.registers.SI wordSize cpu with
  | (none, _) => false
  | (some physAddr, translated) =>
    decide (physAddr ≠ INVALID_ADDRESS ∧ physAddr ≠ INVALID_ADDRESS - 1) &&
      (readMemory physAddr wordSize translated).1.isSome

/-- The indices in `parameters` that the handler of an instruction reads. -/
def parameterReads (instruction : Instruction) (cpu : State) : List ℕ :=
  match instruction.name with
  | "SET" | "SUM" | "SUB" | "MEM_ALLOC" | "STDOUT" | "STDIN" | "INIT_PROC" => [0, 1]
  | "JNZ" =>
    if ∃ reg ∈ instruction.parameters[0]?, cpu.getRegister reg ≠ 0 then [0, 1] else [0]
  | "MOV_IN" => if readsMovInParameter cpu then [0] else []
  | "MOV_OUT" | "COPY_MEM" | "MUTEX_CREATE" | "MUTEX_LOCK" | "MUTEX_UNLOCK" | "MEM_FREE"
  | "SLEEP" => [0]
  | _ => []

/-- The instructions with their operands, as `handlers.h` documents them. -/
def operandCounts : List (String × ℕ) :=
  [("NOOP", 0), ("SET", 2), ("SUM", 2), ("SUB", 2), ("JNZ", 2), ("MOV_IN", 1), ("MOV_OUT", 1),
    ("COPY_MEM", 1), ("MUTEX_CREATE", 1), ("MUTEX_LOCK", 1), ("MUTEX_UNLOCK", 1), ("MEM_ALLOC", 2),
    ("MEM_FREE", 1), ("SLEEP", 1), ("STDOUT", 2), ("STDIN", 2), ("INIT_PROC", 2), ("EXIT", 0)]

/-- How many operands the instruction of a name has. -/
def operandCount (name : String) : Option ℕ := operandCounts.lookup name

/-- **A valid instruction**: a name and as many operands as it has. -/
def ValidInstruction (rawInstruction : String) : Prop :=
  ∃ name operands, parts rawInstruction = name :: operands ∧
    operandCount name = some operands.length

/-- **A line is handled in bounds**, whatever the state of the CPU: no more parameters are stored
than there is room for, no handler reads one that was not stored, and `execute_stage` rejects what
is not a valid instruction. -/
structure HandledInBounds (rawInstruction : String) : Prop where
  stored : storedParameters rawInstruction ≤ 3
  reads : ∀ instruction, decodeStage rawInstruction = some instruction → ∀ cpu,
    ∀ i ∈ parameterReads instruction cpu, i < instruction.parameters.length
  rejected : ¬ ValidInstruction rawInstruction → ∀ instruction,
    decodeStage rawInstruction = some instruction → ∀ pid cpu,
      executeStage instruction pid cpu = (some .error, cpu)

/-- The lines that are handled in bounds: valid instructions, and an unknown name with at most three
words behind it. -/
def AcceptableLine (rawInstruction : String) : Prop :=
  ValidInstruction rawInstruction ∨
    ∃ name words, parts rawInstruction = name :: words ∧ operandCount name = none ∧
      words.length ≤ 3

/-! ## The handlers -/

/-- The handlers are those of the documented instructions. -/
lemma map_fst_handlers : handlers.map Prod.fst = operandCounts.map Prod.fst := rfl

/-- A name is not found if it is not in the table. -/
lemma lookup_eq_none_iff_not_mem {β : Type} (table : List (String × β)) (name : String) :
    table.lookup name = none ↔ name ∉ table.map Prod.fst := by
  rw [List.lookup_eq_none_iff, List.mem_map]
  constructor
  · rintro h ⟨entry, hentry, rfl⟩
    exact absurd (h entry hentry) (by simp)
  · intro h entry hentry
    exact bne_iff_ne.2 fun heq => h ⟨entry, hentry, heq.symm⟩

/-- An unknown name has no handler. -/
lemma lookup_handlers_eq_none_iff {name : String} :
    handlers.lookup name = none ↔ operandCount name = none := by
  rw [operandCount, lookup_eq_none_iff_not_mem, lookup_eq_none_iff_not_mem, map_fst_handlers]

/-- The instructions one by one. -/
lemma mem_operandCounts {name : String} {n : ℕ} (h : operandCount name = some n) :
    (name, n) ∈ operandCounts := by
  obtain ⟨before, behind, htable, -⟩ := List.lookup_eq_some_iff.1 h
  rw [htable]
  exact List.mem_append_right before List.mem_cons_self

/-- A handler that needs a number of parameters, reads these and no others. -/
def Takes (n : ℕ) (handler : Handler) : Prop :=
  ∃ f : List String → UInt32 → State → HandlerResult, ∀ name parameters pid cpu,
    handler ⟨name, parameters⟩ pid cpu =
      if n ≤ parameters.length then f (parameters.take n) pid cpu else (none, cpu)

/-- A handler that looks at no parameter. -/
lemma takes_zero {handler : Handler} {f : UInt32 → State → HandlerResult}
    (h : ∀ instruction, handler instruction = f) : Takes 0 handler := by
  refine ⟨fun _ => f, fun name parameters pid cpu => ?_⟩
  rw [h, if_pos (Nat.zero_le _)]

/-- A handler that takes the first parameter. -/
lemma takes_one {handler : Handler} {f : String → UInt32 → State → HandlerResult}
    (h : ∀ instruction pid cpu, handler instruction pid cpu = match instruction.parameters with
      | a :: _ => f a pid cpu
      | [] => (none, cpu)) : Takes 1 handler := by
  refine ⟨fun parameters pid cpu => f (parameters.headD "") pid cpu,
    fun name parameters pid cpu => ?_⟩
  rw [h]
  cases parameters <;> simp

/-- A handler that takes the first two. -/
lemma takes_two {handler : Handler} {f : String → String → UInt32 → State → HandlerResult}
    (h : ∀ instruction pid cpu, handler instruction pid cpu = match instruction.parameters with
      | a :: b :: _ => f a b pid cpu
      | _ => (none, cpu)) : Takes 2 handler := by
  refine ⟨fun parameters pid cpu => f (parameters.headD "") (parameters.tail.headD "") pid cpu,
    fun name parameters pid cpu => ?_⟩
  rw [h]
  match parameters with
  | [] => simp
  | [a] => simp
  | a :: b :: rest => simp

/-- All instructions but two take their operands, whatever the state is. -/
lemma takes_of_operandCount {name : String} {n : ℕ} (h : operandCount name = some n)
    (hjnz : name ≠ "JNZ") (hmovIn : name ≠ "MOV_IN") :
    ∃ handler, handlers.lookup name = some handler ∧ Takes n handler ∧
      ∀ parameters cpu, parameterReads ⟨name, parameters⟩ cpu = List.range n := by
  have hmem := mem_operandCounts h
  simp only [operandCounts, List.mem_cons, List.not_mem_nil, or_false, Prod.mk.injEq] at hmem
  rcases hmem with ⟨rfl, rfl⟩ | ⟨rfl, rfl⟩ | ⟨rfl, rfl⟩ | ⟨rfl, rfl⟩ | ⟨rfl, rfl⟩ | ⟨rfl, rfl⟩ |
    ⟨rfl, rfl⟩ | ⟨rfl, rfl⟩ | ⟨rfl, rfl⟩ | ⟨rfl, rfl⟩ | ⟨rfl, rfl⟩ | ⟨rfl, rfl⟩ | ⟨rfl, rfl⟩ |
    ⟨rfl, rfl⟩ | ⟨rfl, rfl⟩ | ⟨rfl, rfl⟩ | ⟨rfl, rfl⟩ | ⟨rfl, rfl⟩
  · exact ⟨handlerNoop, rfl, takes_zero fun _ => rfl, fun _ _ => rfl⟩
  · exact ⟨handlerSet, rfl, takes_two fun _ _ _ => rfl, fun _ _ => rfl⟩
  · exact ⟨handlerSum, rfl, takes_two fun _ _ _ => rfl, fun _ _ => rfl⟩
  · exact ⟨handlerSub, rfl, takes_two fun _ _ _ => rfl, fun _ _ => rfl⟩
  · exact absurd rfl hjnz
  · exact absurd rfl hmovIn
  · refine ⟨handlerMovOut, rfl, takes_one (f := fun reg => handlerMovOut ⟨"", [reg]⟩)
      fun instruction pid cpu => ?_, fun _ _ => rfl⟩
    unfold handlerMovOut
    cases instruction.parameters <;> rfl
  · refine ⟨handlerCopyMem, rfl, takes_one (f := fun reg => handlerCopyMem ⟨"", [reg]⟩)
      fun instruction pid cpu => ?_, fun _ _ => rfl⟩
    unfold handlerCopyMem
    cases instruction.parameters <;> rfl
  · exact ⟨handlerMutexCreate, rfl, takes_one fun _ _ _ => rfl, fun _ _ => rfl⟩
  · exact ⟨handlerMutexLock, rfl, takes_one fun _ _ _ => rfl, fun _ _ => rfl⟩
  · exact ⟨handlerMutexUnlock, rfl, takes_one fun _ _ _ => rfl, fun _ _ => rfl⟩
  · exact ⟨handlerMemAlloc, rfl, takes_two fun _ _ _ => rfl, fun _ _ => rfl⟩
  · exact ⟨handlerMemFree, rfl, takes_one fun _ _ _ => rfl, fun _ _ => rfl⟩
  · exact ⟨handlerSleep, rfl, takes_one fun _ _ _ => rfl, fun _ _ => rfl⟩
  · exact ⟨handlerStdout, rfl, takes_two fun _ _ _ => rfl, fun _ _ => rfl⟩
  · exact ⟨handlerStdin, rfl, takes_two fun _ _ _ => rfl, fun _ _ => rfl⟩
  · exact ⟨handlerInitProc, rfl, takes_two fun _ _ _ => rfl, fun _ _ => rfl⟩
  · exact ⟨handlerExit, rfl, takes_zero fun _ => rfl, fun _ _ => rfl⟩

/-- The jump reads its target only when it is taken. -/
lemma handlerJnz_eq (name : String) (parameters : List String) (pid : UInt32) (cpu : State) :
    handlerJnz ⟨name, parameters⟩ pid cpu =
      match parameters[0]? with
      | none => (none, cpu)
      | some reg =>
        if cpu.getRegister reg ≠ 0 then
          match parameters[1]? with
          | some target => (some .true, cpu.setRegister "PC" (UInt32.ofInt (atoi target)))
          | none => (none, cpu)
        else (some .true, cpu) := by
  match parameters with
  | [] => rfl
  | [reg] => rfl
  | reg :: target :: rest => rfl

/-- `handler_mov_in` reads its register behind the transfer. -/
lemma exists_handlerMovIn_eq (cpu : State) :
    ∃ (store : String → HandlerResult) (transferred : State) (stopped : HandlerResult),
      ∀ name parameters pid, handlerMovIn ⟨name, parameters⟩ pid cpu =
        if readsMovInParameter cpu then
          match parameters[0]? with
          | some reg => store reg
          | none => (none, transferred)
        else stopped := by
  unfold handlerMovIn readsMovInParameter checkAddress
  rcases mmu cpu.registers.SI wordSize cpu with ⟨_ | physAddr, translated⟩
  · exact ⟨fun _ => (none, cpu), cpu, (none, translated), fun _ _ _ => rfl⟩
  · dsimp only
    by_cases hfault : physAddr = INVALID_ADDRESS
    · exact ⟨fun _ => (none, cpu), cpu, (some .false, translated), fun _ _ _ => by simp [hfault]⟩
    · by_cases herror : physAddr = INVALID_ADDRESS - 1
      · refine ⟨fun _ => (none, cpu), cpu, (some .error, translated), fun _ _ _ => ?_⟩
        rw [if_neg hfault, if_pos herror]
        simp [herror]
      · obtain ⟨result, transferred, hread⟩ : ∃ result transferred,
            readMemory physAddr wordSize translated = (result, transferred) := ⟨_, _, rfl⟩
        simp only [hread, if_neg hfault, if_neg herror]
        cases result with
        | none =>
          exact ⟨fun _ => (none, cpu), cpu, (none, transferred), fun _ _ _ => by simp⟩
        | some value =>
          refine ⟨fun reg => (some .true, transferred.setRegister reg (uint32OfBytes value)),
            transferred, (none, cpu), fun _ parameters _ => ?_⟩
          cases parameters <;> simp [hfault, herror]

/-- A name that is found executes its handler. -/
lemma executeStage_eq {name : String} {handler : Handler}
    (h : handlers.lookup name = some handler) (parameters : List String) (pid : UInt32)
    (cpu : State) :
    executeStage ⟨name, parameters⟩ pid cpu = handler ⟨name, parameters⟩ pid cpu := by
  simp only [executeStage, h]

/-- An unknown name reads no parameter. -/
lemma parameterReads_of_unknown {name : String} (h : operandCount name = none)
    (parameters : List String) (cpu : State) : parameterReads ⟨name, parameters⟩ cpu = [] := by
  unfold parameterReads
  split
  all_goals
    first
    | rfl
    | rename_i hname
      rw [show name = _ from hname] at h
      exact absurd h (by decide)

/-- The first elements of a list, by their indices. -/
lemma take_eq_of_getElem?_eq {l m : List String} {n : ℕ} (h : ∀ i < n, l[i]? = m[i]?) :
    l.take n = m.take n := by
  apply List.ext_getElem?
  intro i
  rw [List.getElem?_take, List.getElem?_take]
  split
  · exact h i ‹_›
  · rfl

/-- **A handler reads no other parameters**: two instructions with the same name that agree on these
are handled the same. -/
theorem executeStage_congr {name : String} {parameters parameters' : List String} {cpu : State}
    (h : ∀ i ∈ parameterReads ⟨name, parameters⟩ cpu, parameters[i]? = parameters'[i]?)
    (pid : UInt32) :
    executeStage ⟨name, parameters⟩ pid cpu = executeStage ⟨name, parameters'⟩ pid cpu := by
  by_cases hjnz : name = "JNZ"
  · subst hjnz
    change handlerJnz _ pid cpu = handlerJnz _ pid cpu
    rw [handlerJnz_eq, handlerJnz_eq]
    change ∀ i ∈ (if ∃ reg ∈ parameters[0]?, cpu.getRegister reg ≠ 0 then [0, 1] else [0]),
      parameters[i]? = parameters'[i]? at h
    split at h
    · rw [h 0 (by simp), h 1 (by simp)]
    · rename_i hzero
      rw [h 0 (by simp)] at hzero ⊢
      cases hreg : parameters'[0]? with
      | none => rfl
      | some reg =>
        have hnot : ¬ cpu.getRegister reg ≠ 0 := fun hne => hzero ⟨reg, hreg, hne⟩
        simp only [if_neg hnot]
  · by_cases hmovIn : name = "MOV_IN"
    · subst hmovIn
      obtain ⟨store, transferred, stopped, heq⟩ := exists_handlerMovIn_eq cpu
      change handlerMovIn _ pid cpu = handlerMovIn _ pid cpu
      change ∀ i ∈ (if readsMovInParameter cpu then [0] else []), _ at h
      rw [heq, heq]
      split
      · rename_i hreads
        rw [if_pos hreads] at h
        rw [h 0 (by simp)]
      · rfl
    · cases hcount : operandCount name with
      | none =>
        have hlookup := lookup_handlers_eq_none_iff.2 hcount
        simp only [executeStage, hlookup]
      | some n =>
        obtain ⟨handler, hlookup, ⟨f, hf⟩, hreads⟩ := takes_of_operandCount hcount hjnz hmovIn
        have hagree : ∀ i < n, parameters[i]? = parameters'[i]? := by
          intro i hi
          apply h
          rw [hreads]
          exact List.mem_range.2 hi
        have hlength : n ≤ parameters.length ↔ n ≤ parameters'.length := by
          cases n with
          | zero => simp
          | succ n =>
            have hlast := hagree n (Nat.lt_succ_self n)
            rw [← not_iff_not, Nat.not_le, Nat.not_le, Nat.lt_succ_iff, Nat.lt_succ_iff,
              ← List.getElem?_eq_none_iff, ← List.getElem?_eq_none_iff, hlast]
        rw [executeStage_eq hlookup, executeStage_eq hlookup, hf, hf,
          take_eq_of_getElem?_eq hagree]
        simp only [hlength]

/-- **A handler reads these parameters**: one of them that was not stored has no defined value. -/
theorem executeStage_eq_none {name : String} {parameters : List String} {cpu : State} {i : ℕ}
    (hi : i ∈ parameterReads ⟨name, parameters⟩ cpu) (hlen : parameters.length ≤ i)
    (pid : UInt32) : (executeStage ⟨name, parameters⟩ pid cpu).1 = none := by
  by_cases hjnz : name = "JNZ"
  · subst hjnz
    change (handlerJnz _ pid cpu).1 = none
    rw [handlerJnz_eq]
    change i ∈ (if ∃ reg ∈ parameters[0]?, cpu.getRegister reg ≠ 0 then [0, 1] else [0]) at hi
    split at hi
    · rename_i htaken
      obtain ⟨reg, hreg, hne⟩ := htaken
      have hone : parameters.length ≤ 1 := by
        simp only [List.mem_cons, List.not_mem_nil, or_false] at hi
        omega
      rw [Option.mem_def.1 hreg, List.getElem?_eq_none hone]
      simp only [if_pos hne]
    · have hzero : parameters.length ≤ 0 := by
        simp only [List.mem_cons, List.not_mem_nil, or_false] at hi
        omega
      rw [List.getElem?_eq_none hzero]
  · by_cases hmovIn : name = "MOV_IN"
    · subst hmovIn
      obtain ⟨store, transferred, stopped, heq⟩ := exists_handlerMovIn_eq cpu
      change (handlerMovIn _ pid cpu).1 = none
      change i ∈ (if readsMovInParameter cpu then [0] else []) at hi
      split at hi
      · rename_i hreads
        have hzero : parameters.length ≤ 0 := by
          simp only [List.mem_cons, List.not_mem_nil, or_false] at hi
          omega
        rw [heq, if_pos hreads, List.getElem?_eq_none hzero]
      · exact absurd hi List.not_mem_nil
    · cases hcount : operandCount name with
      | none =>
        rw [parameterReads_of_unknown hcount] at hi
        exact absurd hi List.not_mem_nil
      | some n =>
        obtain ⟨handler, hlookup, ⟨f, hf⟩, hreads⟩ := takes_of_operandCount hcount hjnz hmovIn
        rw [hreads, List.mem_range] at hi
        rw [executeStage_eq hlookup, hf, if_neg (by omega)]

/-- No handler reads more parameters than its instruction has operands. -/
lemma lt_of_mem_parameterReads {name : String} {n i : ℕ} (h : operandCount name = some n)
    {parameters : List String} {cpu : State} (hi : i ∈ parameterReads ⟨name, parameters⟩ cpu) :
    i < n := by
  by_cases hjnz : name = "JNZ"
  · subst hjnz
    obtain rfl : 2 = n := Option.some.inj h
    change i ∈ (if ∃ reg ∈ parameters[0]?, cpu.getRegister reg ≠ 0 then [0, 1] else [0]) at hi
    split at hi <;> simp at hi <;> omega
  · by_cases hmovIn : name = "MOV_IN"
    · subst hmovIn
      obtain rfl : 1 = n := Option.some.inj h
      change i ∈ (if readsMovInParameter cpu then [0] else []) at hi
      split at hi <;> simp at hi
      omega
    · obtain ⟨-, -, -, hreads⟩ := takes_of_operandCount h hjnz hmovIn
      rw [hreads] at hi
      exact List.mem_range.1 hi

/-! ## A line -/

/-- A connected CPU on a process with an empty segment, so that every access to memory is a
segmentation fault. -/
def emptySegment : State where
  maxSegmentSize := 10
  memorySticks := []
  registers := ⟨0, 0, 0, 0, 0, 0, 0, 0, 0, 0, 0⟩
  segmentTable := [⟨0, 0, 0, 0⟩]
  segmentChanged := false
  schedulerConnected := true
  sent := []
  sentToMemory := []
  stickRequests := []

/-- There no instruction is rejected, whatever its parameters are. -/
lemma executeStage_emptySegment_ne_error {name : String} {n : ℕ} (h : operandCount name = some n)
    (parameters : List String) (pid : UInt32) :
    (executeStage ⟨name, parameters⟩ pid emptySegment).1 ≠ some .error := by
  by_cases hjnz : name = "JNZ"
  · subst hjnz
    change (handlerJnz _ pid emptySegment).1 ≠ some .error
    rw [handlerJnz_eq]
    split
    · simp
    · split
      · split <;> simp
      · simp
  · have hmem := mem_operandCounts h
    simp only [operandCounts, List.mem_cons, List.not_mem_nil, or_false, Prod.mk.injEq] at hmem
    -- an instruction lacks a parameter, touches the empty segment, or is done
    rcases hmem with ⟨rfl, -⟩ | ⟨rfl, -⟩ | ⟨rfl, -⟩ | ⟨rfl, -⟩ | ⟨rfl, -⟩ | ⟨rfl, -⟩ | ⟨rfl, -⟩ |
      ⟨rfl, -⟩ | ⟨rfl, -⟩ | ⟨rfl, -⟩ | ⟨rfl, -⟩ | ⟨rfl, -⟩ | ⟨rfl, -⟩ | ⟨rfl, -⟩ | ⟨rfl, -⟩ |
      ⟨rfl, -⟩ | ⟨rfl, -⟩ | ⟨rfl, -⟩
    all_goals
      rcases parameters with _ | ⟨first, _ | ⟨second, rest⟩⟩
      all_goals
        first
        | exact (by decide : (none : Option ExtendedBool) ≠ some .error)
        | exact (by decide : some ExtendedBool.true ≠ some .error)
        | exact (by decide : some ExtendedBool.false ≠ some .error)
        | exact absurd rfl hjnz

/-- `decode_stage` on the parts of a line. -/
lemma decodeStage_of_parts {rawInstruction name : String} {words : List String}
    (h : parts rawInstruction = name :: words) :
    decodeStage rawInstruction = if words.length ≤ 3 then some ⟨name, words⟩ else none := by
  unfold decodeStage
  rw [show (rawInstruction.toList.splitOn ' ').map String.ofList = name :: words from h]

/-- A line has a first part, which may be empty. -/
lemma exists_parts (rawInstruction : String) :
    ∃ name words, parts rawInstruction = name :: words := by
  cases h : parts rawInstruction with
  | nil => exact absurd (List.map_eq_nil_iff.1 h) (List.splitOnP_ne_nil _ _)
  | cons name words => exact ⟨name, words, rfl⟩

/-- **Exactly the valid instructions and the short lines with an unknown name are handled in
bounds.** Behind an unknown name more than three words overflow the array, and an instruction with
too few or too many operands is not rejected. -/
theorem handledInBounds_iff (rawInstruction : String) :
    HandledInBounds rawInstruction ↔ AcceptableLine rawInstruction := by
  obtain ⟨name, words, hparts⟩ := exists_parts rawInstruction
  have hstored : storedParameters rawInstruction = words.length := by
    rw [storedParameters, hparts, List.length_cons, Nat.add_sub_cancel]
  have hdecode := decodeStage_of_parts hparts
  constructor
  · intro h
    have hlen : words.length ≤ 3 := hstored ▸ h.stored
    rw [if_pos hlen] at hdecode
    by_cases hvalid : ValidInstruction rawInstruction
    · exact .inl hvalid
    · refine .inr ⟨name, words, hparts, ?_, hlen⟩
      cases hcount : operandCount name with
      | none => rfl
      | some n =>
        have hrejected := h.rejected hvalid _ hdecode 0 emptySegment
        exact absurd (congrArg Prod.fst hrejected)
          (executeStage_emptySegment_ne_error hcount words 0)
  · rintro (⟨name', operands, hparts', hcount⟩ | ⟨name', words', hparts', hcount, hlen⟩)
    · rw [hparts] at hparts'
      obtain ⟨rfl, rfl⟩ := List.cons.inj hparts'
      have hlen : words.length ≤ 3 := by
        have hmem := mem_operandCounts hcount
        simp only [operandCounts, List.mem_cons, List.not_mem_nil, or_false, Prod.mk.injEq] at hmem
        omega
      rw [if_pos hlen] at hdecode
      refine ⟨hstored.trans_le hlen, fun instruction hinstruction cpu i hi => ?_,
        fun hinvalid => ?_⟩
      · rw [hdecode] at hinstruction
        obtain rfl := Option.some.inj hinstruction
        exact lt_of_mem_parameterReads hcount hi
      · exact absurd ⟨name, words, hparts, hcount⟩ hinvalid
    · rw [hparts] at hparts'
      obtain ⟨rfl, rfl⟩ := List.cons.inj hparts'
      rw [if_pos hlen] at hdecode
      refine ⟨hstored.trans_le hlen, fun instruction hinstruction cpu i hi => ?_,
        fun _ instruction hinstruction pid cpu => ?_⟩
      · rw [hdecode] at hinstruction
        obtain rfl := Option.some.inj hinstruction
        rw [parameterReads_of_unknown hcount] at hi
        exact absurd hi List.not_mem_nil
      · rw [hdecode] at hinstruction
        obtain rfl := Option.some.inj hinstruction
        have hlookup := lookup_handlers_eq_none_iff.2 hcount
        simp only [executeStage, hlookup]

/-- `SET` with one operand reads a slot that was never written, and `NOOP` with four stores behind
the array. -/
theorem not_handledInBounds :
    (decodeStage "SET AX" = some ⟨"SET", ["AX"]⟩ ∧
      1 ∈ parameterReads ⟨"SET", ["AX"]⟩ emptySegment ∧ ¬ HandledInBounds "SET AX") ∧
    storedParameters "NOOP 1 2 3 4" = 4 ∧ ¬ HandledInBounds "NOOP 1 2 3 4" := by
  have hdecode : decodeStage "SET AX" = some ⟨"SET", ["AX"]⟩ := by decide +kernel
  have hstored : storedParameters "NOOP 1 2 3 4" = 4 := by decide +kernel
  refine ⟨⟨hdecode, by decide, fun h => ?_⟩, hstored, fun h => ?_⟩
  · exact absurd (h.reads _ hdecode emptySegment 1 (by decide)) (by decide)
  · exact absurd h.stored (by rw [hstored]; decide)

end OsSimulator.Cpu
