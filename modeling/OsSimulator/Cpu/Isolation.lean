import OsSimulator.Cpu.Handlers

set_option relaxedAutoImplicit false
set_option autoImplicit false

/-!
# Memory instructions stay in the segments

`MOV_IN` and `MOV_OUT` transfer a word, and a word is what `mmu` checks for them. `COPY_MEM`
transfers as many bytes as a register says, and lets `mmu` check a word as well. So the first two
stay in the segments of the process always, and a copy does exactly when its count is within the
segments whose word is.

## Main definitions

* `TableInRange` — a segment table as Kernel Memory lays it out.
* `Fits`, `Exceeds` — an access and the segment its address names.
* `Confined` — the bytes touched are in segments, and an access that exceeds its segment is refused.
* `CountFits` — the condition on a copy.

## Main results

* `mmu_of_fits`, `mmu_of_exceeds` — `mmu` for a word is exact: no sum wraps.
* `memory_instruction_confined_iff` — the instructions that are confined.
* `copy_mem_not_confined` — a copy over the end of a segment.
-/

namespace OsSimulator.Cpu

open OsSimulator.Memory (Segment)

/-- The segments of the table lie in an address space that an `int` can address. -/
def TableInRange (segmentTable : List Segment) : Prop :=
  ∀ s ∈ segmentTable, 0 ≤ s.base ∧ 0 ≤ s.size ∧ s.base + s.size ≤ INT_MAX

/-- The segment a logical address names. -/
def State.segmentOf (cpu : State) (logicalAddress : UInt32) : Option Segment :=
  findSegmentById cpu.segmentTable (logicalAddress / cpu.maxSegmentSize).toNat

/-- The offset of a logical address in its segment. -/
def State.offsetOf (cpu : State) (logicalAddress : UInt32) : ℕ :=
  (logicalAddress % cpu.maxSegmentSize).toNat

/-- The bytes from a logical address on are in the segment it names. -/
def Fits (cpu : State) (logicalAddress : UInt32) (count : ℕ) : Prop :=
  ∃ s ∈ cpu.segmentOf logicalAddress, (cpu.offsetOf logicalAddress + count : ℤ) ≤ s.size

/-- They go over the end of the segment. -/
def Exceeds (cpu : State) (logicalAddress : UInt32) (count : ℕ) : Prop :=
  ∃ s ∈ cpu.segmentOf logicalAddress, s.size < (cpu.offsetOf logicalAddress + count : ℤ)

/-- The accesses of an instruction, in order: the logical address and the number of bytes. -/
def accesses (instruction : Instruction) (cpu : State) : List (UInt32 × ℕ) :=
  match instruction.name, instruction.parameters with
  | "MOV_IN", _ => [(cpu.registers.SI, 4)]
  | "MOV_OUT", _ :: _ => [(cpu.registers.DI, 4)]
  | "COPY_MEM", reg :: _ =>
    [(cpu.registers.SI, (cpu.getRegister reg).toNat),
      (cpu.registers.DI, (cpu.getRegister reg).toNat)]
  | _, _ => []

/-- The first access that is not in its segment goes over the end of it. -/
def FirstExceeds (cpu : State) : List (UInt32 × ℕ) → Prop
  | [] => False
  | access :: rest =>
    Exceeds cpu access.1 access.2 ∨ Fits cpu access.1 access.2 ∧ FirstExceeds cpu rest

/-- The instruction stays in the segments: every byte that it asks a stick for is in one of them;
an access over the end of a segment is reported and nothing is touched; and the addresses that `mmu`
accepts for a word are exact, so they are none of the two that mean a failure. -/
structure Confined (cpu : State) (instruction : Instruction) (result : HandlerResult) : Prop where
  inside : ∃ requests, result.2.stickRequests = cpu.stickRequests ++ requests ∧
    ∀ r ∈ requests, ∀ x ∈ r.addresses cpu.offsets,
      ∃ s ∈ cpu.segmentTable, s.base ≤ x ∧ x < s.base + s.size
  refused : FirstExceeds cpu (accesses instruction cpu) →
    result.2.sent = cpu.sent ++ [.segFault "SEGMENTATION FAULT"] ∧
      result.2.stickRequests = cpu.stickRequests
  noWrap : ∀ logicalAddress, ¬ Fits cpu logicalAddress wordSize.toNat →
    (mmu logicalAddress wordSize cpu).1 = some INVALID_ADDRESS ∨
      (mmu logicalAddress wordSize cpu).1 = some (INVALID_ADDRESS - 1)
  noCollision : ∀ logicalAddress, ∀ s ∈ cpu.segmentOf logicalAddress,
    (cpu.offsetOf logicalAddress + wordSize.toNat : ℤ) ≤ s.size →
      ∃ address, (mmu logicalAddress wordSize cpu).1 = some address ∧
        (address.toNat : ℤ) = s.base + cpu.offsetOf logicalAddress ∧
        address ≠ INVALID_ADDRESS ∧ address ≠ INVALID_ADDRESS - 1

/-- A copy: when a word is in the source, and at the destination either a word is in the segment or
there is no segment, the bytes to copy are in the source; and in the destination, if there is
one. -/
def CountFits (instruction : Instruction) (cpu : State) : Prop :=
  match instruction.name, instruction.parameters with
  | "COPY_MEM", reg :: _ =>
    let byteCount := (cpu.getRegister reg).toNat
    Fits cpu cpu.registers.SI 4 →
      (Fits cpu cpu.registers.DI 4 →
          Fits cpu cpu.registers.SI byteCount ∧ Fits cpu cpu.registers.DI byteCount) ∧
        (cpu.segmentOf cpu.registers.DI = none → Fits cpu cpu.registers.SI byteCount)
  | _, _ => True

/-! ## The translation of a word -/

section Word

variable {cpu : State} {logicalAddress : UInt32} {s : Segment}

/-- A segment is found, with the access in it or over its end, or none is. -/
lemma fits_or_exceeds (cpu : State) (logicalAddress : UInt32) (count : ℕ) :
    cpu.segmentOf logicalAddress = none ∨ Fits cpu logicalAddress count ∨
      Exceeds cpu logicalAddress count := by
  unfold Fits Exceeds
  cases hs : cpu.segmentOf logicalAddress with
  | none => exact Or.inl rfl
  | some s =>
    right
    rcases le_or_gt (cpu.offsetOf logicalAddress + count : ℤ) s.size with hle | hlt
    · exact Or.inl ⟨s, rfl, hle⟩
    · exact Or.inr ⟨s, rfl, hlt⟩

/-- What exceeds its segment does not fit in it. -/
lemma not_fits_of_exceeds {count : ℕ} (h : Exceeds cpu logicalAddress count) :
    ¬ Fits cpu logicalAddress count := by
  rintro ⟨s, hs, hle⟩
  obtain ⟨s', hs', hlt⟩ := h
  obtain rfl : s = s' := Option.some.inj (hs.symm.trans hs')
  omega

/-- The segment of an address is in the table. -/
lemma mem_of_segmentOf (h : cpu.segmentOf logicalAddress = some s) : s ∈ cpu.segmentTable :=
  List.mem_of_find?_eq_some h

variable (hmax : 0 < cpu.maxSegmentSize.toNat ∧ (cpu.maxSegmentSize.toNat : ℤ) ≤ INT_MAX)
  (htable : TableInRange cpu.segmentTable)

include hmax in
/-- The largest size of a segment is not zero. -/
lemma maxSegmentSize_ne_zero : cpu.maxSegmentSize ≠ 0 := by
  intro h
  rw [h] at hmax
  exact absurd hmax.1 (by decide)

include hmax in
/-- The offset of an address is below the largest size, so a word behind it does not wrap. -/
lemma toNat_offset_add_word :
    (logicalAddress % cpu.maxSegmentSize + wordSize).toNat = cpu.offsetOf logicalAddress + 4 := by
  have hlt : cpu.offsetOf logicalAddress < cpu.maxSegmentSize.toNat := by
    rw [State.offsetOf, UInt32.toNat_mod]
    exact Nat.mod_lt _ hmax.1
  have hword : wordSize.toNat = 4 := rfl
  have hle := hmax.2
  unfold INT_MAX at hle
  rw [UInt32.toNat_add, hword, ← State.offsetOf]
  omega

include hmax htable in
/-- The comparison of `mmu` for a word is the comparison of the numbers. -/
lemma exceeds_word_iff (hs : cpu.segmentOf logicalAddress = some s) :
    UInt32.ofInt s.size < logicalAddress % cpu.maxSegmentSize + wordSize ↔
      s.size < (cpu.offsetOf logicalAddress + 4 : ℤ) := by
  obtain ⟨hbase, hsize, hend⟩ := htable s (mem_of_segmentOf hs)
  have hle : s.size ≤ INT_MAX := by omega
  have hsize' : ((UInt32.ofInt s.size).toNat : ℤ) = s.size := by
    rw [toNat_ofInt]
    exact u32_of_nonneg hsize hle
  rw [UInt32.lt_iff_toNat_lt, toNat_offset_add_word hmax]
  omega

include hmax htable in
/-- A word in its segment has the address one expects. -/
theorem mmu_of_fits (hs : cpu.segmentOf logicalAddress = some s)
    (hfits : (cpu.offsetOf logicalAddress + 4 : ℤ) ≤ s.size) :
    ∃ address, mmu logicalAddress wordSize cpu = (some address, cpu) ∧
      (address.toNat : ℤ) = s.base + cpu.offsetOf logicalAddress ∧
      address ≠ INVALID_ADDRESS ∧ address ≠ INVALID_ADDRESS - 1 := by
  obtain ⟨hbase, hsize, hend⟩ := htable s (mem_of_segmentOf hs)
  have hnot := mt (exceeds_word_iff hmax htable hs).1 (by omega)
  unfold INT_MAX at hend
  rcases mmu_cases (maxSegmentSize_ne_zero hmax) logicalAddress wordSize with
    ⟨hnone, -⟩ | ⟨s', hs', ⟨hlarge, -⟩ | ⟨-, hmmu⟩⟩
  · rw [State.segmentOf, hnone] at hs
    simp at hs
  · obtain rfl : s = s' := Option.some.inj (hs.symm.trans hs')
    exact absurd hlarge hnot
  · obtain rfl : s = s' := Option.some.inj (hs.symm.trans hs')
    have haddress : ((UInt32.ofInt s.base + logicalAddress % cpu.maxSegmentSize).toNat : ℤ) =
        s.base + cpu.offsetOf logicalAddress := by
      have hb : ((UInt32.ofInt s.base).toNat : ℤ) = s.base := by
        rw [toNat_ofInt]
        exact u32_of_nonneg hbase (by unfold INT_MAX; omega)
      rw [UInt32.toNat_add, ← State.offsetOf]
      omega
    refine ⟨_, hmmu, haddress, fun h => ?_, fun h => ?_⟩
    · rw [h] at haddress
      have hinvalid : INVALID_ADDRESS.toNat = 4294967295 := rfl
      omega
    · rw [h] at haddress
      have hinvalid : (INVALID_ADDRESS - 1).toNat = 4294967294 := rfl
      omega

include hmax htable in
/-- A word over the end of its segment is reported. -/
theorem mmu_of_exceeds (h : Exceeds cpu logicalAddress 4) :
    mmu logicalAddress wordSize cpu =
      (some (if cpu.schedulerConnected then INVALID_ADDRESS else INVALID_ADDRESS - 1),
        { cpu with sent := cpu.sent ++ [.segFault "SEGMENTATION FAULT"] }) := by
  obtain ⟨s, hs, hlarge⟩ := h
  rcases mmu_cases (maxSegmentSize_ne_zero hmax) logicalAddress wordSize with
    ⟨hnone, -⟩ | ⟨s', hs', ⟨-, hmmu⟩ | ⟨hnot, -⟩⟩
  · rw [Option.mem_def, State.segmentOf, hnone] at hs
    simp at hs
  · exact hmmu
  · obtain rfl : s = s' := Option.some.inj (hs.symm.trans hs')
    exact absurd ((exceeds_word_iff hmax htable hs).2 hlarge) hnot

include hmax in
/-- Without a segment nothing is reported. -/
theorem mmu_of_none (h : cpu.segmentOf logicalAddress = none) :
    mmu logicalAddress wordSize cpu = (some (INVALID_ADDRESS - 1), cpu) := by
  rcases mmu_cases (maxSegmentSize_ne_zero hmax) logicalAddress wordSize with
    ⟨-, hmmu⟩ | ⟨s, hs, -⟩
  · exact hmmu
  · rw [State.segmentOf, hs] at h
    simp at h

variable (onFault : ExtendedBool) (next : UInt32 → State → HandlerResult)

include hmax htable in
/-- Behind the tests on the address of a word in its segment. -/
lemma checkAddress_of_fits (hs : cpu.segmentOf logicalAddress = some s)
    (hfits : (cpu.offsetOf logicalAddress + 4 : ℤ) ≤ s.size) :
    ∃ address, (address.toNat : ℤ) = s.base + cpu.offsetOf logicalAddress ∧
      checkAddress (mmu logicalAddress wordSize cpu) onFault next = next address cpu := by
  obtain ⟨address, hmmu, haddress, hne, hne'⟩ := mmu_of_fits hmax htable hs hfits
  refine ⟨address, haddress, ?_⟩
  simp only [hmmu, checkAddress, if_neg hne, if_neg hne']

include hmax htable in
/-- Behind the tests on the address of a word over the end of its segment. -/
lemma checkAddress_of_exceeds (h : Exceeds cpu logicalAddress 4) :
    checkAddress (mmu logicalAddress wordSize cpu) onFault next =
      (some (if cpu.schedulerConnected then onFault else .error),
        { cpu with sent := cpu.sent ++ [.segFault "SEGMENTATION FAULT"] }) := by
  rw [mmu_of_exceeds hmax htable h]
  cases cpu.schedulerConnected <;> rfl

include hmax in
/-- Behind the tests when there is no segment. -/
lemma checkAddress_of_none (h : cpu.segmentOf logicalAddress = none) :
    checkAddress (mmu logicalAddress wordSize cpu) onFault next = (some .error, cpu) := by
  rw [mmu_of_none hmax h]
  rfl

include htable in
/-- The requests for a range in a segment are for bytes of the segment. -/
lemma inside_of_range {address count : UInt32} {requests : List StickRequest}
    (hs : cpu.segmentOf logicalAddress = some s)
    (haddress : (address.toNat : ℤ) = s.base + cpu.offsetOf logicalAddress)
    (hfits : (cpu.offsetOf logicalAddress + count.toNat : ℤ) ≤ s.size)
    (hrange : address.toNat + count.toNat ≤ 4294967296 → ∀ r ∈ requests,
      ∀ x ∈ r.addresses cpu.offsets, address.toNat ≤ x ∧ x < address.toNat + count.toNat) :
    ∀ r ∈ requests, ∀ x ∈ r.addresses cpu.offsets,
      ∃ s ∈ cpu.segmentTable, s.base ≤ x ∧ x < s.base + s.size := by
  intro r hr x hx
  obtain ⟨hbase, hsize, hend⟩ := htable s (mem_of_segmentOf hs)
  unfold INT_MAX at hend
  have := hrange (by omega) r hr x hx
  exact ⟨s, mem_of_segmentOf hs, by omega, by omega⟩

variable {instruction : Instruction} {result : HandlerResult}

include hmax htable in
/-- The part of `Confined` that is about `mmu` alone holds always. -/
lemma confined_of (hinside : ∃ requests, result.2.stickRequests = cpu.stickRequests ++ requests ∧
      ∀ r ∈ requests, ∀ x ∈ r.addresses cpu.offsets,
        ∃ s ∈ cpu.segmentTable, s.base ≤ x ∧ x < s.base + s.size)
    (hrefused : FirstExceeds cpu (accesses instruction cpu) →
      result.2.sent = cpu.sent ++ [.segFault "SEGMENTATION FAULT"] ∧
        result.2.stickRequests = cpu.stickRequests) :
    Confined cpu instruction result := by
  refine ⟨hinside, hrefused, fun logicalAddress hnot => ?_, fun logicalAddress s hs hfits => ?_⟩
  · rcases fits_or_exceeds cpu logicalAddress wordSize.toNat with hnone | hfits | hexceeds
    · exact Or.inr (by rw [mmu_of_none hmax hnone])
    · exact absurd hfits hnot
    · rw [mmu_of_exceeds hmax htable hexceeds]
      cases cpu.schedulerConnected
      · exact Or.inr rfl
      · exact Or.inl rfl
  · obtain ⟨address, hmmu, haddress⟩ := mmu_of_fits hmax htable hs hfits
    exact ⟨address, by rw [hmmu], haddress⟩

include hmax htable in
/-- The instructions that transfer a word at one address: behind the tests they only read or write
that word.

**Proof sketch.** Without a segment the handler stops; over the end of it the fault is reported; and
in it the word has the bytes of the segment. -/
lemma confined_word {operation : UInt32 → State → HandlerResult}
    (haccesses : accesses instruction cpu = [(logicalAddress, 4)])
    (hresult : result = checkAddress (mmu logicalAddress wordSize cpu) .false operation)
    (hoperation : ∀ address, ∃ requests,
      (operation address cpu).2.stickRequests = cpu.stickRequests ++ requests ∧
        (address.toNat + wordSize.toNat ≤ 4294967296 → ∀ r ∈ requests,
          ∀ x ∈ r.addresses cpu.offsets,
            address.toNat ≤ x ∧ x < address.toNat + wordSize.toNat)) :
    Confined cpu instruction result := by
  rw [hresult]
  have hnothing : ∃ requests, cpu.stickRequests = cpu.stickRequests ++ requests ∧
      ∀ r ∈ requests, ∀ x ∈ StickRequest.addresses cpu.offsets r,
        ∃ s ∈ cpu.segmentTable, s.base ≤ x ∧ x < s.base + s.size := ⟨[], by simp⟩
  rcases fits_or_exceeds cpu logicalAddress 4 with hnone | ⟨s, hs, hfits⟩ | hexceeds
  · rw [checkAddress_of_none hmax _ _ hnone]
    refine confined_of hmax htable hnothing fun hfirst => ?_
    rw [haccesses] at hfirst
    rcases hfirst with ⟨s, hs, -⟩ | ⟨-, hfalse⟩
    · rw [Option.mem_def, hnone] at hs
      simp at hs
    · exact hfalse.elim
  · obtain ⟨address, haddress, hcheck⟩ :=
      checkAddress_of_fits hmax htable .false operation hs hfits
    rw [hcheck]
    obtain ⟨requests, hrequests, hrange⟩ := hoperation address
    have hword : (cpu.offsetOf logicalAddress + wordSize.toNat : ℤ) ≤ s.size := hfits
    refine confined_of hmax htable
      ⟨requests, hrequests, inside_of_range htable hs haddress hword hrange⟩ fun hfirst => ?_
    rw [haccesses] at hfirst
    rcases hfirst with hexceeds | ⟨-, hfalse⟩
    · exact absurd ⟨s, hs, hfits⟩ (not_fits_of_exceeds hexceeds)
    · exact hfalse.elim
  · rw [checkAddress_of_exceeds hmax htable _ _ hexceeds]
    exact confined_of hmax htable hnothing fun _ => ⟨rfl, rfl⟩

end Word

/-! ## The instructions -/

section Instructions

variable {cpu : State} {instruction : Instruction} (pid : UInt32)
  (hmax : 0 < cpu.maxSegmentSize.toNat ∧ (cpu.maxSegmentSize.toNat : ℤ) ≤ INT_MAX)
  (htable : TableInRange cpu.segmentTable)

include hmax htable in
/-- `MOV_IN` stays in the segments. -/
lemma mov_in_confined (hname : instruction.name = "MOV_IN") :
    Confined cpu instruction (handlerMovIn instruction pid cpu) := by
  refine confined_word hmax htable (by simp [accesses, hname]) rfl fun address => ?_
  obtain ⟨requests, heffect, hrange⟩ := readMemory_effect address wordSize cpu
  refine ⟨requests, ?_, hrange⟩
  have hrequests : (readMemory address wordSize cpu).2.stickRequests =
      cpu.stickRequests ++ requests := by rw [heffect.state]
  rw [← hrequests]
  cases hread : readMemory address wordSize cpu with
  | mk bytes after =>
    cases bytes with
    | none => rfl
    | some bytes => cases instruction.parameters <;> rfl

include hmax htable in
/-- `MOV_OUT` stays in the segments. -/
lemma mov_out_confined (hname : instruction.name = "MOV_OUT") :
    Confined cpu instruction (handlerMovOut instruction pid cpu) := by
  unfold handlerMovOut
  cases hparameters : instruction.parameters with
  | nil =>
    refine confined_of hmax htable ⟨[], by simp⟩ fun hfirst => ?_
    simp [accesses, hname, hparameters, FirstExceeds] at hfirst
  | cons reg rest =>
    refine confined_word hmax htable (by simp [accesses, hname, hparameters]) rfl fun address => ?_
    obtain ⟨requests, heffect, hrange⟩ :=
      writeMemory_effect address (bytesOfUint32 (cpu.getRegister reg)) wordSize cpu
    refine ⟨requests, ?_, hrange⟩
    have hrequests : (writeMemory address (bytesOfUint32 (cpu.getRegister reg)) wordSize
        cpu).2.stickRequests = cpu.stickRequests ++ requests := by rw [heffect.state]
    rw [← hrequests]
    cases hwrite : writeMemory address (bytesOfUint32 (cpu.getRegister reg)) wordSize cpu with
    | mk ok after => cases ok <;> rfl

omit htable in
/-- The state after a copy whose read succeeded is the one after its write. -/
lemma copyBytes_snd {srcAddr dstAddr byteCount : UInt32} {bytes : List UInt8} {after : State}
    (hread : readMemory srcAddr byteCount cpu = (some bytes, after)) :
    (copyBytes srcAddr dstAddr byteCount cpu).2 =
      (writeMemory dstAddr bytes byteCount after).2 := by
  simp only [copyBytes, hread]
  cases writeMemory dstAddr bytes byteCount after with
  | mk ok after' => cases ok <;> rfl

/-- What the copy behind the translations asks the sticks for. It sends the scheduler nothing. -/
lemma copyBytes_effect (srcAddr dstAddr byteCount : UInt32) (cpu : State) :
    ∃ reads writes,
      (copyBytes srcAddr dstAddr byteCount cpu).2.stickRequests =
          cpu.stickRequests ++ (reads ++ writes) ∧
        (copyBytes srcAddr dstAddr byteCount cpu).2.sent = cpu.sent ∧
        (srcAddr.toNat + byteCount.toNat ≤ 4294967296 → ∀ r ∈ reads,
          ∀ x ∈ r.addresses cpu.offsets,
            srcAddr.toNat ≤ x ∧ x < srcAddr.toNat + byteCount.toNat) ∧
        (dstAddr.toNat + byteCount.toNat ≤ 4294967296 → ∀ r ∈ writes,
          ∀ x ∈ r.addresses cpu.offsets,
            dstAddr.toNat ≤ x ∧ x < dstAddr.toNat + byteCount.toNat) := by
  obtain ⟨reads, heffect, hrange⟩ := readMemory_effect srcAddr byteCount cpu
  cases hread : readMemory srcAddr byteCount cpu with
  | mk bytes after =>
    rw [hread] at heffect
    cases bytes with
    | none =>
      have hafter : (copyBytes srcAddr dstAddr byteCount cpu).2 = after := by
        simp only [copyBytes, hread]
      dsimp only at heffect
      refine ⟨reads, [], ?_, ?_, hrange, by simp⟩
      · rw [hafter, heffect.state, List.append_nil]
      · rw [hafter, heffect.state]
    | some bytes =>
      obtain ⟨writes, heffect', hrange'⟩ := writeMemory_effect dstAddr bytes byteCount after
      have hboth := heffect.trans heffect'
      have hoffsets : after.offsets = cpu.offsets := heffect.offsets
      rw [hoffsets] at hrange'
      refine ⟨reads, writes, ?_, ?_, hrange, hrange'⟩
      · rw [copyBytes_snd hread, hboth.state]
      · rw [copyBytes_snd hread, hboth.state]

include hmax htable in
/-- `COPY_MEM` stays in the segments exactly when its count fits where a word does.

**Proof sketch.** By the source and the destination: no segment, a word in it, or over its end. A
reported word is a refusal. Two words in their segments start the transfer, whose ranges are in the
segments if the count fits, and which reports nothing if it does not. Without a destination nothing
is touched and nothing reported. -/
lemma copy_mem_confined_iff (hname : instruction.name = "COPY_MEM") :
    Confined cpu instruction (handlerCopyMem instruction pid cpu) ↔ CountFits instruction cpu := by
  unfold handlerCopyMem
  cases hparameters : instruction.parameters with
  | nil =>
    have hcount : CountFits instruction cpu := by simp [CountFits, hname, hparameters]
    refine iff_of_true (confined_of hmax htable ⟨[], by simp⟩ fun hfirst => ?_) hcount
    simp [accesses, hname, hparameters, FirstExceeds] at hfirst
  | cons reg rest =>
    dsimp only
    generalize hbyteCount : cpu.getRegister reg = byteCount
    have haccesses : accesses instruction cpu =
        [(cpu.registers.SI, byteCount.toNat), (cpu.registers.DI, byteCount.toNat)] := by
      simp [accesses, hname, hparameters, hbyteCount]
    have hcount : CountFits instruction cpu ↔ (Fits cpu cpu.registers.SI 4 →
        (Fits cpu cpu.registers.DI 4 → Fits cpu cpu.registers.SI byteCount.toNat ∧
            Fits cpu cpu.registers.DI byteCount.toNat) ∧
          (cpu.segmentOf cpu.registers.DI = none →
            Fits cpu cpu.registers.SI byteCount.toNat)) := by
      simp only [CountFits, hname, hparameters, hbyteCount]
    have hfirst : FirstExceeds cpu (accesses instruction cpu) ↔
        Exceeds cpu cpu.registers.SI byteCount.toNat ∨
          Fits cpu cpu.registers.SI byteCount.toNat ∧
            Exceeds cpu cpu.registers.DI byteCount.toNat := by
      simp [haccesses, FirstExceeds]
    have hnothing : ∃ requests, cpu.stickRequests = cpu.stickRequests ++ requests ∧
        ∀ r ∈ requests, ∀ x ∈ StickRequest.addresses cpu.offsets r,
          ∃ s ∈ cpu.segmentTable, s.base ≤ x ∧ x < s.base + s.size := ⟨[], by simp⟩
    have hsilent : ¬ cpu.sent = cpu.sent ++ [Operation.segFault "SEGMENTATION FAULT"] := by
      intro h
      simpa using congrArg List.length h
    have hnone_fits : ∀ {a n}, cpu.segmentOf a = none → ¬ Fits cpu a n ∧ ¬ Exceeds cpu a n := by
      intro a n hnone
      constructor <;> rintro ⟨s, hs, -⟩ <;> simp [hnone] at hs
    have hsome_fits : ∀ {a s n}, cpu.segmentOf a = some s → ¬ Exceeds cpu a n → Fits cpu a n := by
      intro a s n hs hnot
      rcases fits_or_exceeds cpu a n with hnone | hfits | hexceeds
      · simp [hs] at hnone
      · exact hfits
      · exact absurd hexceeds hnot
    rw [hcount]
    rcases fits_or_exceeds cpu cpu.registers.SI 4 with hnone | ⟨s, hs, hfits⟩ | hexceeds
    · -- no source
      rw [checkAddress_of_none hmax _ _ hnone]
      refine iff_of_true (confined_of hmax htable hnothing fun hfault => ?_)
        fun hword => absurd hword (hnone_fits hnone).1
      rcases hfirst.1 hfault with hexceeds | ⟨hfits, -⟩
      · exact absurd hexceeds (hnone_fits hnone).2
      · exact absurd hfits (hnone_fits hnone).1
    · -- a word in the source
      obtain ⟨srcAddr, hsrc, hcheck⟩ := checkAddress_of_fits hmax htable .false
        (fun srcAddr cpu => checkAddress (mmu cpu.registers.DI wordSize cpu) .true
          fun dstAddr cpu => copyBytes srcAddr dstAddr byteCount cpu) hs hfits
      rw [hcheck]
      rcases fits_or_exceeds cpu cpu.registers.DI 4 with hnone | ⟨d, hd, hfits'⟩ | hexceeds
      · -- no destination
        rw [checkAddress_of_none hmax _ _ hnone]
        constructor
        · intro hconfined _
          refine ⟨fun hword => absurd hword (hnone_fits hnone).1, fun _ => ?_⟩
          apply hsome_fits hs
          intro hexceeds
          exact hsilent (hconfined.refused (hfirst.2 (Or.inl hexceeds))).1
        · intro hcounts
          refine confined_of hmax htable hnothing fun hfault => ?_
          rcases hfirst.1 hfault with hexceeds | ⟨-, hexceeds⟩
          · exact absurd ((hcounts ⟨s, hs, hfits⟩).2 hnone) (not_fits_of_exceeds hexceeds)
          · exact absurd hexceeds (hnone_fits hnone).2
      · -- a word at the destination too
        obtain ⟨dstAddr, hdst, hcheck'⟩ := checkAddress_of_fits hmax htable .true
          (fun dstAddr cpu => copyBytes srcAddr dstAddr byteCount cpu) hd hfits'
        rw [hcheck']
        obtain ⟨reads, writes, hrequests, hsent, hreads, hwrites⟩ :=
          copyBytes_effect srcAddr dstAddr byteCount cpu
        constructor
        · intro hconfined _
          have hnot : ¬ FirstExceeds cpu (accesses instruction cpu) := by
            intro hfault
            exact hsilent (hsent.symm.trans (hconfined.refused hfault).1)
          rw [hfirst] at hnot
          have hsource : Fits cpu cpu.registers.SI byteCount.toNat :=
            hsome_fits hs fun hexceeds => hnot (Or.inl hexceeds)
          exact ⟨fun _ => ⟨hsource, hsome_fits hd fun hexceeds => hnot (Or.inr ⟨hsource, hexceeds⟩)⟩,
            fun _ => hsource⟩
        · intro hcounts
          obtain ⟨hsource, hdestination⟩ := (hcounts ⟨s, hs, hfits⟩).1 ⟨d, hd, hfits'⟩
          refine confined_of hmax htable ⟨reads ++ writes, hrequests, fun r hr => ?_⟩
            fun hfault => ?_
          · obtain ⟨s', hs', hle⟩ := hsource
            obtain ⟨d', hd', hle'⟩ := hdestination
            obtain rfl : s = s' := Option.some.inj (hs.symm.trans hs')
            obtain rfl : d = d' := Option.some.inj (hd.symm.trans hd')
            rcases List.mem_append.1 hr with hr | hr
            · exact inside_of_range htable hs hsrc hle hreads r hr
            · exact inside_of_range htable hd hdst hle' hwrites r hr
          · rcases hfirst.1 hfault with hexceeds | ⟨-, hexceeds⟩
            · exact absurd hsource (not_fits_of_exceeds hexceeds)
            · exact absurd hdestination (not_fits_of_exceeds hexceeds)
      · -- over the end of the destination
        rw [checkAddress_of_exceeds hmax htable _ _ hexceeds]
        refine iff_of_true (confined_of hmax htable hnothing fun _ => ⟨rfl, rfl⟩) fun _ => ?_
        refine ⟨fun hword => absurd hword (not_fits_of_exceeds hexceeds), fun hnone => ?_⟩
        exact absurd hexceeds (hnone_fits hnone).2
    · -- over the end of the source
      rw [checkAddress_of_exceeds hmax htable _ _ hexceeds]
      exact iff_of_true (confined_of hmax htable hnothing fun _ => ⟨rfl, rfl⟩)
        fun hword => absurd hword (not_fits_of_exceeds hexceeds)

include hmax htable in
/-- **The memory instructions that stay in the segments**: `MOV_IN` and `MOV_OUT` always, and a copy
when its count fits where a word does. -/
theorem memory_instruction_confined_iff
    (hname : instruction.name = "MOV_IN" ∨ instruction.name = "MOV_OUT" ∨
      instruction.name = "COPY_MEM") :
    Confined cpu instruction (executeStage instruction pid cpu) ↔ CountFits instruction cpu := by
  unfold executeStage
  rcases hname with hname | hname | hname
  · have hlookup : handlers.lookup instruction.name = some handlerMovIn := by rw [hname]; rfl
    have hcount : CountFits instruction cpu := by simp [CountFits, hname]
    simp only [hlookup]
    exact iff_of_true (mov_in_confined pid hmax htable hname) hcount
  · have hlookup : handlers.lookup instruction.name = some handlerMovOut := by rw [hname]; rfl
    have hcount : CountFits instruction cpu := by simp [CountFits, hname]
    simp only [hlookup]
    exact iff_of_true (mov_out_confined pid hmax htable hname) hcount
  · have hlookup : handlers.lookup instruction.name = some handlerCopyMem := by rw [hname]; rfl
    simp only [hlookup]
    exact copy_mem_confined_iff pid hmax htable hname

end Instructions

/-- A CPU that runs a process with one segment of eight bytes, on a stick of sixteen. -/
def cpuWithSegment : State where
  maxSegmentSize := 16
  memorySticks := [⟨16, 0, List.replicate 16 0, true⟩]
  registers := ⟨8, 0, 0, 0, 0, 0, 0, 0, 0, 0, 4⟩
  segmentTable := [⟨0, 1, 0, 8⟩]
  segmentChanged := false
  schedulerConnected := true
  sent := []
  sentToMemory := []
  stickRequests := []

/-- The table of the example is in range. -/
lemma tableInRange_cpuWithSegment : TableInRange cpuWithSegment.segmentTable := by
  intro s hs
  obtain rfl := List.mem_singleton.1 hs
  decide

/-- A copy of the eight bytes in `AX`, from address 0 to address 4. -/
def copyEight : Instruction := ⟨"COPY_MEM", ["AX"]⟩

/-- For the copy the equivalence is about its count. -/
theorem memory_instruction_confined_iff_copyEight :
    Confined cpuWithSegment copyEight (executeStage copyEight 1 cpuWithSegment) ↔
      CountFits copyEight cpuWithSegment :=
  memory_instruction_confined_iff 1 ⟨by decide, by decide⟩ tableInRange_cpuWithSegment
    (Or.inr (Or.inr rfl))

/-- The copy writes the bytes 4 to 11, of which the last four are in no segment of the process. -/
theorem copy_mem_not_confined :
    (executeStage copyEight 1 cpuWithSegment).2.stickRequests =
        [.read 0 0 8, .write 0 4 8 (List.replicate 8 0)] ∧
      ¬ Confined cpuWithSegment copyEight (executeStage copyEight 1 cpuWithSegment) := by
  have hrequests : (executeStage copyEight 1 cpuWithSegment).2.stickRequests =
      [.read 0 0 8, .write 0 4 8 (List.replicate 8 0)] := by decide +kernel
  refine ⟨hrequests, fun h => ?_⟩
  obtain ⟨requests, heq, hinside⟩ := h.inside
  rw [hrequests] at heq
  have hmem : StickRequest.write 0 4 8 (List.replicate 8 0) ∈ requests := by
    have hall : requests = [.read 0 0 8, .write 0 4 8 (List.replicate 8 0)] := heq.symm
    rw [hall]
    exact List.mem_cons_of_mem _ List.mem_cons_self
  obtain ⟨s, hs, -, hlt⟩ := hinside _ hmem 9 ⟨0, rfl, by decide, by decide⟩
  obtain rfl := List.mem_singleton.1 hs
  exact absurd hlt (by decide)

end OsSimulator.Cpu
