import OsSimulator.Cpu.Structs
import OsSimulator.Library.ByteStore

set_option relaxedAutoImplicit false
set_option autoImplicit false

/-!
# Memory access of a CPU

`memory.c`: the translation of a logical address, and the transfers, which are cut at the
boundaries of the sticks.

## Main definitions

* `mmu` — the translation.
* `readMemory`, `writeMemory` — the transfers.
* `StickRequest.addresses` — the physical bytes a request reads or writes.
* `TransferEffect` — what a transfer changes.

## Main results

* `mmu_cases` — the three answers of the translation.
* `readMemory_effect`, `writeMemory_effect` — a transfer touches the bytes of its range only.
-/

namespace OsSimulator.Cpu

open OsSimulator.Memory (Segment)

/-- `INVALID_ADDRESS`. -/
def INVALID_ADDRESS : UInt32 := 4294967295

/-- `find_segment_by_id`. -/
def findSegmentById (segmentTable : List Segment) (segmentNumber : ℕ) : Option Segment :=
  segmentTable.find? fun segment => segment.id == segmentNumber

/-- `notify_seg_fault`. -/
def notifySegFault (cpu : State) : Bool × State := cpu.send (.segFault "SEGMENTATION FAULT")

/-- `mmu`. A segment size of zero divides by zero. -/
def mmu (logicalAddress size : UInt32) (cpu : State) : Option UInt32 × State :=
  if cpu.maxSegmentSize = 0 then (none, cpu)
  else
    let segmentNumber := logicalAddress / cpu.maxSegmentSize
    let offset := logicalAddress % cpu.maxSegmentSize
    match findSegmentById cpu.segmentTable segmentNumber.toNat with
    | none => (some (INVALID_ADDRESS - 1), cpu)
    | some segment =>
      if UInt32.ofInt segment.size < offset + size then
        let notified := notifySegFault cpu
        (some (if notified.1 then INVALID_ADDRESS else INVALID_ADDRESS - 1), notified.2)
      else (some (UInt32.ofInt segment.base + offset), cpu)

/-! ## Transfers -/

/-- `find_stick`, with the position of the stick. -/
def findStick (physicalAddress : UInt32) : ℕ → List MemoryStickInfo → Option (ℕ × MemoryStickInfo)
  | _, [] => none
  | i, stick :: rest =>
    if stick.offset ≤ physicalAddress ∧ physicalAddress < stick.offset + stick.size then
      some (i, stick)
    else findStick physicalAddress (i + 1) rest

/-- The bytes of a transfer that one stick serves: what it has left, or what is left to do. -/
def chunkSize (stick : MemoryStickInfo) (addressInStick remaining : UInt32) : UInt32 :=
  let availableBytes := stick.size - addressInStick
  if availableBytes < remaining then availableBytes else remaining

/-- The loop of `read_memory` with `readBytes` bytes done; `none` is the source's `NULL`. Every
round reads at least one byte, so as many rounds as bytes are enough. -/
def readLoop (physicalAddress size : UInt32) :
    ℕ → UInt32 → State → Option (List UInt8) × State
  | 0, _, cpu => (some [], cpu)
  | rounds + 1, readBytes, cpu =>
    if size ≤ readBytes then (some [], cpu)
    else
      match findStick (physicalAddress + readBytes) 0 cpu.memorySticks with
      | none => (none, cpu)
      | some (i, stick) =>
        let addressInStick := physicalAddress + readBytes - stick.offset
        let bytesToRead := chunkSize stick addressInStick (size - readBytes)
        let requested :=
          { cpu with
            stickRequests :=
              cpu.stickRequests ++ [StickRequest.read i addressInStick bytesToRead] }
        if stick.connected then
          let rest := readLoop physicalAddress size rounds (readBytes + bytesToRead) requested
          (rest.1.map (slice stick.memory addressInStick.toNat bytesToRead.toNat ++ ·), rest.2)
        else (none, requested.notifyBsod)

/-- `read_memory`. -/
def readMemory (physicalAddress size : UInt32) (cpu : State) : Option (List UInt8) × State :=
  readLoop physicalAddress size size.toNat 0 cpu

/-- The loop of `write_memory`. -/
def writeLoop (physicalAddress : UInt32) (dataToWrite : List UInt8) (size : UInt32) :
    ℕ → UInt32 → State → Bool × State
  | 0, _, cpu => (true, cpu)
  | rounds + 1, writtenBytes, cpu =>
    if size ≤ writtenBytes then (true, cpu)
    else
      match findStick (physicalAddress + writtenBytes) 0 cpu.memorySticks with
      | none => (false, cpu)
      | some (i, stick) =>
        let addressInStick := physicalAddress + writtenBytes - stick.offset
        let bytesToWrite := chunkSize stick addressInStick (size - writtenBytes)
        let data := slice dataToWrite writtenBytes.toNat bytesToWrite.toNat
        let requested :=
          { cpu with
            stickRequests :=
              cpu.stickRequests ++ [StickRequest.write i addressInStick bytesToWrite data] }
        if stick.connected then
          writeLoop physicalAddress dataToWrite size rounds (writtenBytes + bytesToWrite)
            { requested with
              memorySticks := cpu.memorySticks.set i
                { stick with memory := splice stick.memory addressInStick.toNat data } }
        else (false, requested.notifyBsod)

/-- `write_memory`. -/
def writeMemory (physicalAddress : UInt32) (dataToWrite : List UInt8) (size : UInt32) (cpu : State) :
    Bool × State :=
  writeLoop physicalAddress dataToWrite size size.toNat 0 cpu

/-! ## The answers of the translation -/

/-- The translation: no such segment; a report to the scheduler; or the address. -/
lemma mmu_cases {cpu : State} (hmax : cpu.maxSegmentSize ≠ 0) (logicalAddress size : UInt32) :
    (findSegmentById cpu.segmentTable (logicalAddress / cpu.maxSegmentSize).toNat = none ∧
        mmu logicalAddress size cpu = (some (INVALID_ADDRESS - 1), cpu)) ∨
      ∃ segment, findSegmentById cpu.segmentTable (logicalAddress / cpu.maxSegmentSize).toNat =
          some segment ∧
        ((UInt32.ofInt segment.size < logicalAddress % cpu.maxSegmentSize + size ∧
            mmu logicalAddress size cpu =
              (some (if cpu.schedulerConnected then INVALID_ADDRESS else INVALID_ADDRESS - 1),
                { cpu with sent := cpu.sent ++ [.segFault "SEGMENTATION FAULT"] })) ∨
          (¬ UInt32.ofInt segment.size < logicalAddress % cpu.maxSegmentSize + size ∧
            mmu logicalAddress size cpu =
              (some (UInt32.ofInt segment.base + logicalAddress % cpu.maxSegmentSize), cpu))) := by
  unfold mmu
  rw [if_neg hmax]
  dsimp only
  cases hfind : findSegmentById cpu.segmentTable (logicalAddress / cpu.maxSegmentSize).toNat with
  | none => exact .inl ⟨rfl, rfl⟩
  | some segment =>
    refine .inr ⟨segment, rfl, ?_⟩
    by_cases hlarge : UInt32.ofInt segment.size < logicalAddress % cpu.maxSegmentSize + size
    · exact .inl ⟨hlarge, by simp only [if_pos hlarge]; rfl⟩
    · exact .inr ⟨hlarge, by simp only [if_neg hlarge]⟩

/-! ## What a transfer touches -/

/-- The physical bytes a request is about, given the first address of each stick. -/
def StickRequest.addresses (offsets : List UInt32) : StickRequest → Set ℕ
  | .read stick addressInStick count | .write stick addressInStick count _ =>
    {x | ∃ offset ∈ offsets[stick]?, offset.toNat + addressInStick.toNat ≤ x ∧
      x < offset.toNat + addressInStick.toNat + count.toNat}

/-- The first addresses of the sticks. -/
def State.offsets (cpu : State) : List UInt32 := cpu.memorySticks.map MemoryStickInfo.offset

/-- What a transfer changes: it sends requests to the sticks, whose places stay the same, and
perhaps a notice to Kernel Memory. -/
structure TransferEffect (before after : State) (requests : List StickRequest) : Prop where
  state : after = { before with
    memorySticks := after.memorySticks
    sentToMemory := after.sentToMemory
    stickRequests := before.stickRequests ++ requests }
  offsets : after.offsets = before.offsets

/-- Nothing was transferred. -/
lemma TransferEffect.refl (cpu : State) : TransferEffect cpu cpu [] :=
  ⟨by simp, rfl⟩

/-- One transfer after another. -/
lemma TransferEffect.trans {s t u : State} {first second : List StickRequest}
    (h : TransferEffect s t first) (h' : TransferEffect t u second) :
    TransferEffect s u (first ++ second) := by
  refine ⟨?_, h'.offsets.trans h.offsets⟩
  rw [h'.state, h.state]
  simp

/-- The stick that `find_stick` finds: it is in its place, and has the address. -/
lemma findStick_spec {address : UInt32} {sticks : List MemoryStickInfo} {first i : ℕ}
    {stick : MemoryStickInfo} (h : findStick address first sticks = some (i, stick)) :
    ∃ j, i = first + j ∧ sticks[j]? = some stick ∧ stick.offset.toNat ≤ address.toNat ∧
      address.toNat < stick.offset.toNat + stick.size.toNat := by
  induction sticks generalizing first with
  | nil => simp [findStick] at h
  | cons s rest ih =>
    rw [findStick] at h
    split at h
    · rename_i hin
      obtain ⟨rfl, rfl⟩ := Prod.mk.inj (Option.some.inj h)
      obtain ⟨hlow, hhigh⟩ := hin
      rw [UInt32.le_iff_toNat_le] at hlow
      rw [UInt32.lt_iff_toNat_lt, UInt32.toNat_add] at hhigh
      exact ⟨0, rfl, rfl, hlow, lt_of_lt_of_le hhigh (Nat.mod_le _ _)⟩
    · obtain ⟨j, rfl, hget, hrest⟩ := ih h
      exact ⟨j + 1, by omega, hget, hrest⟩

/-- A stick serves at most what is left to do. -/
lemma chunkSize_le (stick : MemoryStickInfo) (addressInStick remaining : UInt32) :
    (chunkSize stick addressInStick remaining).toNat ≤ remaining.toNat := by
  unfold chunkSize
  dsimp only
  split
  · rename_i h
    exact (UInt32.lt_iff_toNat_lt.1 h).le
  · exact le_rfl

/-- The request of a round is about the start of what is left of the range, and the next round
goes on behind it. -/
lemma round_range {address size done : UInt32} {sticks : List MemoryStickInfo} {i : ℕ}
    {stick : MemoryStickInfo} (hnowrap : address.toNat + size.toNat ≤ 4294967296)
    (hdone : ¬ size ≤ done) (hfind : findStick (address + done) 0 sticks = some (i, stick)) :
    let addressInStick := address + done - stick.offset
    let count := chunkSize stick addressInStick (size - done)
    stick.offset.toNat + addressInStick.toNat = address.toNat + done.toNat ∧
      (done + count).toNat = done.toNat + count.toNat ∧
      done.toNat + count.toNat ≤ size.toNat := by
  intro addressInStick count
  obtain ⟨j, -, -, hlow, -⟩ := findStick_spec hfind
  rw [UInt32.le_iff_toNat_le] at hdone
  have hcurrent : (address + done).toNat = address.toNat + done.toNat := by
    rw [UInt32.toNat_add]
    omega
  have hoffset : addressInStick.toNat = (address + done).toNat - stick.offset.toNat :=
    UInt32.toNat_sub_of_le _ _ (UInt32.le_iff_toNat_le.2 hlow)
  have hleft : (size - done).toNat = size.toNat - done.toNat :=
    UInt32.toNat_sub_of_le _ _ (UInt32.le_iff_toNat_le.2 (by omega))
  have hcount : count.toNat ≤ (size - done).toNat := chunkSize_le _ _ _
  have hsize := size.toNat_lt
  refine ⟨by omega, ?_, by omega⟩
  rw [UInt32.toNat_add]
  omega

/-- The bytes of the request of a round are what is left of the range. -/
lemma mem_round {address size done : UInt32} {cpu : State} {i : ℕ} {stick : MemoryStickInfo}
    (hnowrap : address.toNat + size.toNat ≤ 4294967296) (hdone : ¬ size ≤ done)
    (hfind : findStick (address + done) 0 cpu.memorySticks = some (i, stick)) {x : ℕ}
    (hx : x ∈ (StickRequest.read i (address + done - stick.offset)
      (chunkSize stick (address + done - stick.offset) (size - done))).addresses cpu.offsets) :
    address.toNat + done.toNat ≤ x ∧ x < address.toNat + size.toNat := by
  obtain ⟨offset, hoffset, hlow, hhigh⟩ := hx
  obtain ⟨j, rfl, hget, -⟩ := findStick_spec hfind
  obtain rfl : stick.offset = offset := by
    rw [Nat.zero_add, State.offsets, List.getElem?_map, hget] at hoffset
    exact Option.some.inj hoffset
  have := round_range hnowrap hdone hfind
  omega

/-- The rounds of `read_memory` read what is left of the range.

**Proof sketch.** Induction on the rounds; each sends one request, for the start of what is left
(`mem_round`), and the next one goes on behind it (`round_range`). -/
lemma readLoop_effect (address size : UInt32) (rounds : ℕ) (done : UInt32) (cpu : State) :
    ∃ requests, TransferEffect cpu (readLoop address size rounds done cpu).2 requests ∧
      (address.toNat + size.toNat ≤ 4294967296 → ∀ r ∈ requests,
        ∀ x ∈ r.addresses cpu.offsets, address.toNat + done.toNat ≤ x ∧
          x < address.toNat + size.toNat) := by
  induction rounds generalizing done cpu with
  | zero => exact ⟨[], .refl cpu, by simp⟩
  | succ rounds ih =>
    rw [readLoop]
    split
    · exact ⟨[], .refl cpu, by simp⟩
    · rename_i hdone
      cases hfind : findStick (address + done) 0 cpu.memorySticks with
      | none => exact ⟨[], .refl cpu, by simp⟩
      | some found =>
        obtain ⟨i, stick⟩ := found
        dsimp only
        set request := StickRequest.read i (address + done - stick.offset)
          (chunkSize stick (address + done - stick.offset) (size - done))
        set requested : State := { cpu with stickRequests := cpu.stickRequests ++ [request] }
        have hrequested : TransferEffect cpu requested [request] := ⟨rfl, rfl⟩
        split
        · obtain ⟨requests, heffect, hrange⟩ :=
            ih (done + chunkSize stick (address + done - stick.offset) (size - done)) requested
          refine ⟨_, hrequested.trans heffect, fun hnowrap r hr x hx => ?_⟩
          rcases List.mem_append.1 hr with hr | hr
          · obtain rfl := List.mem_singleton.1 hr
            exact mem_round hnowrap hdone hfind hx
          · have := round_range hnowrap hdone hfind
            have := hrange hnowrap r hr x hx
            omega
        · refine ⟨_, ⟨rfl, rfl⟩, fun hnowrap r hr x hx => ?_⟩
          obtain rfl := List.mem_singleton.1 hr
          exact mem_round hnowrap hdone hfind hx

/-- A list is not changed by the element it has. -/
lemma set_eq_self {α : Type} {l : List α} {i : ℕ} {a : α} (h : l[i]? = some a) : l.set i a = l := by
  obtain ⟨hlt, rfl⟩ := List.getElem?_eq_some_iff.1 h
  exact List.set_getElem_self hlt

/-- The rounds of `write_memory` write what is left of the range. -/
lemma writeLoop_effect (address : UInt32) (data : List UInt8) (size : UInt32) (rounds : ℕ)
    (done : UInt32) (cpu : State) :
    ∃ requests, TransferEffect cpu (writeLoop address data size rounds done cpu).2 requests ∧
      (address.toNat + size.toNat ≤ 4294967296 → ∀ r ∈ requests,
        ∀ x ∈ r.addresses cpu.offsets, address.toNat + done.toNat ≤ x ∧
          x < address.toNat + size.toNat) := by
  induction rounds generalizing done cpu with
  | zero => exact ⟨[], .refl cpu, by simp⟩
  | succ rounds ih =>
    rw [writeLoop]
    split
    · exact ⟨[], .refl cpu, by simp⟩
    · rename_i hdone
      cases hfind : findStick (address + done) 0 cpu.memorySticks with
      | none => exact ⟨[], .refl cpu, by simp⟩
      | some found =>
        obtain ⟨i, stick⟩ := found
        dsimp only
        set written := slice data done.toNat
          (chunkSize stick (address + done - stick.offset) (size - done)).toNat
        set request := StickRequest.write i (address + done - stick.offset)
          (chunkSize stick (address + done - stick.offset) (size - done)) written
        split
        · set requested : State := { cpu with
            memorySticks := cpu.memorySticks.set i
              { stick with
                memory := splice stick.memory (address + done - stick.offset).toNat written }
            stickRequests := cpu.stickRequests ++ [request] }
          have hoffsets : requested.offsets = cpu.offsets := by
            obtain ⟨j, rfl, hget, -⟩ := findStick_spec hfind
            simp only [requested, State.offsets, List.map_set, Nat.zero_add]
            apply set_eq_self
            rw [List.getElem?_map, hget]
            rfl
          have hrequested : TransferEffect cpu requested [request] := ⟨rfl, hoffsets⟩
          obtain ⟨requests, heffect, hrange⟩ :=
            ih (done + chunkSize stick (address + done - stick.offset) (size - done)) requested
          refine ⟨_, hrequested.trans heffect, fun hnowrap r hr x hx => ?_⟩
          rcases List.mem_append.1 hr with hr | hr
          · obtain rfl := List.mem_singleton.1 hr
            exact mem_round hnowrap hdone hfind hx
          · rw [hoffsets] at hrange
            have := round_range hnowrap hdone hfind
            have := hrange hnowrap r hr x hx
            omega
        · refine ⟨_, ⟨rfl, rfl⟩, fun hnowrap r hr x hx => ?_⟩
          obtain rfl := List.mem_singleton.1 hr
          exact mem_round hnowrap hdone hfind hx

/-- A read sends requests for bytes of its range only. -/
theorem readMemory_effect (address size : UInt32) (cpu : State) :
    ∃ requests, TransferEffect cpu (readMemory address size cpu).2 requests ∧
      (address.toNat + size.toNat ≤ 4294967296 → ∀ r ∈ requests,
        ∀ x ∈ r.addresses cpu.offsets, address.toNat ≤ x ∧ x < address.toNat + size.toNat) :=
  readLoop_effect address size size.toNat 0 cpu

/-- A write sends requests for bytes of its range only. -/
theorem writeMemory_effect (address : UInt32) (data : List UInt8) (size : UInt32) (cpu : State) :
    ∃ requests, TransferEffect cpu (writeMemory address data size cpu).2 requests ∧
      (address.toNat + size.toNat ≤ 4294967296 → ∀ r ∈ requests,
        ∀ x ∈ r.addresses cpu.offsets, address.toNat ≤ x ∧ x < address.toNat + size.toNat) :=
  writeLoop_effect address data size size.toNat 0 cpu

end OsSimulator.Cpu
