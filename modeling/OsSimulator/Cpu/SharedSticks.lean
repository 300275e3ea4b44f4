import OsSimulator.Cpu.SplitTransfer
import OsSimulator.Library.PieceStore

set_option relaxedAutoImplicit false
set_option autoImplicit false

/-!
# Transfers side by side

The CPUs and Kernel Memory cut a transfer at the boundaries of the sticks and ask one stick after
another for its part; between two parts of one of them the others ask for theirs. A stick performs a
part at one go. So a transfer over several sticks is not performed at one go, and yet it is as if it
were, as long as nobody writes what somebody else is about; and a process whose bytes nobody else
writes has the memory for itself.

A transfer is for a process: the CPU that the process is on does it, or Kernel Memory for an IO
request of the process, which does not run meanwhile.

## Main definitions

* `SharedSticks`, `SharedSticks.step` — the sticks, and the rounds of the loops of all transfers.
* `SharedSticks.Apart`, `SharedSticks.Inside` — transfers that do not conflict, and transfers in
  parts of the memory that do not meet.

## Main results

* `SharedSticks.call_of_alone` — the rounds of a transfer, with nobody between them, are a call.
* `SharedSticks.transfers_linear` — transfers that do not conflict are as if performed at one go.
* `SharedSticks.own_memory` — each process has the memory for itself.
-/

namespace OsSimulator

open Memory (Stick bytesOf stickChunkSize FlatWrite)
open Cpu (memorySticksOf placedStick chunkSize)

namespace SharedSticks

/-- Who does a transfer. -/
inductive Side
  | cpu
  | kernelMemory
  deriving DecidableEq, Repr

/-- Where the transfer of a process is. A CPU is in the loop of `read_memory` or `write_memory`,
Kernel Memory in that of `read_from_sticks` or `write_to_sticks`. -/
inductive Phase
  | idle
  | cpuReading (physicalAddress size readBytes : UInt32) (bytes : List UInt8)
  | cpuWriting (physicalAddress : UInt32) (dataToWrite : List UInt8) (size writtenBytes : UInt32)
  | kmReading (physicalAddress : ℤ) (size : ℕ) (bytes : List UInt8)
  | kmWriting (physicalAddress : ℤ) (writeBuffer : List UInt8)
      (currentStick currentOffset bytesWritten : ℕ)
  deriving DecidableEq, Repr

/-- The transfer, with what is done of it. -/
def Phase.ongoing : Phase → Option (Ongoing UInt8)
  | idle => none
  | cpuReading physicalAddress size readBytes bytes =>
    some ⟨.read physicalAddress.toNat size.toNat, readBytes.toNat, bytes⟩
  | cpuWriting physicalAddress dataToWrite _ writtenBytes =>
    some ⟨.write physicalAddress.toNat dataToWrite, writtenBytes.toNat, []⟩
  | kmReading physicalAddress size bytes =>
    some ⟨.read physicalAddress.toNat size, bytes.length, bytes⟩
  | kmWriting physicalAddress writeBuffer _ _ bytesWritten =>
    some ⟨.write physicalAddress.toNat writeBuffer, bytesWritten, []⟩

end SharedSticks

/-- The sticks, where the transfer of each process is, and the transfers that have ended, with what
they returned: the bytes of a read, or nothing where a stick was not found. -/
structure SharedSticks (ι : Type) where
  sticks : List Stick
  phase : ι → SharedSticks.Phase
  order : List (ι × Transfer UInt8)
  results : List (ι × Option (List UInt8))

namespace SharedSticks

/-- Nothing has begun. -/
def init {ι : Type} (sticks : List Stick) : SharedSticks ι := ⟨sticks, fun _ => .idle, [], []⟩

/-- A transfer for a process begins, or goes through its loop once. -/
inductive Event (ι : Type)
  | start (i : ι) (side : Side) (transfer : Transfer UInt8)
  | round (i : ι)
  deriving DecidableEq, Repr

variable {ι : Type}

section Steps

variable [DecidableEq ι]

/-- A transfer is somewhere else. -/
def setPhase (i : ι) (phase : Phase) (s : SharedSticks ι) : SharedSticks ι :=
  { s with phase := Function.update s.phase i phase }

/-- A transfer ends. -/
def finish (i : ι) (transfer : Transfer UInt8) (result : Option (List UInt8))
    (s : SharedSticks ι) : SharedSticks ι :=
  { s with
    phase := Function.update s.phase i .idle
    order := s.order ++ [(i, transfer)]
    results := s.results ++ [(i, result)] }

/-- What comes before the loops: `write_to_sticks` looks for the stick of the first byte, the others
start with the first round. -/
def start (i : ι) (side : Side) (transfer : Transfer UInt8) (s : SharedSticks ι) :
    SharedSticks ι :=
  match side, transfer with
  | .cpu, .read address count =>
    s.setPhase i (.cpuReading (UInt32.ofNat address) (UInt32.ofNat count) 0 [])
  | .cpu, .write address data =>
    s.setPhase i (.cpuWriting (UInt32.ofNat address) data (UInt32.ofNat data.length) 0)
  | .kernelMemory, .read address count => s.setPhase i (.kmReading address count [])
  | .kernelMemory, .write address data =>
    match data, Memory.findStick address s.sticks with
    | [], _ => s.setPhase i (.kmWriting address [] 0 0 0)
    | _ :: _, none => s.finish i transfer none
    | _ :: _, some (index, stickOffset) =>
      s.setPhase i (.kmWriting address data index stickOffset 0)

/-- A round of the loop of `read_memory`. -/
def cpuReadRound (i : ι) (physicalAddress size readBytes : UInt32) (bytes : List UInt8)
    (s : SharedSticks ι) : SharedSticks ι :=
  if size ≤ readBytes then
    s.finish i (.read physicalAddress.toNat size.toNat) (some bytes)
  else
    match Cpu.findStick (physicalAddress + readBytes) 0 (memorySticksOf s.sticks) with
    | none => s.finish i (.read physicalAddress.toNat size.toNat) none
    | some (_, stick) =>
      let addressInStick := physicalAddress + readBytes - stick.offset
      let bytesToRead := chunkSize stick addressInStick (size - readBytes)
      s.setPhase i (.cpuReading physicalAddress size (readBytes + bytesToRead)
        (bytes ++ slice stick.memory addressInStick.toNat bytesToRead.toNat))

/-- A round of the loop of `write_memory`. -/
def cpuWriteRound (i : ι) (physicalAddress : UInt32) (dataToWrite : List UInt8)
    (size writtenBytes : UInt32) (s : SharedSticks ι) : SharedSticks ι :=
  if size ≤ writtenBytes then
    s.finish i (.write physicalAddress.toNat dataToWrite) (some [])
  else
    match Cpu.findStick (physicalAddress + writtenBytes) 0 (memorySticksOf s.sticks) with
    | none => s.finish i (.write physicalAddress.toNat dataToWrite) none
    | some (index, stick) =>
      let addressInStick := physicalAddress + writtenBytes - stick.offset
      let bytesToWrite := chunkSize stick addressInStick (size - writtenBytes)
      let data := slice dataToWrite writtenBytes.toNat bytesToWrite.toNat
      { s.setPhase i (.cpuWriting physicalAddress dataToWrite size (writtenBytes + bytesToWrite))
        with sticks := s.sticks.set index ⟨splice stick.memory addressInStick.toNat data⟩ }

/-- A round of the loop of `read_from_sticks`. -/
def kmReadRound (i : ι) (physicalAddress : ℤ) (size : ℕ) (bytes : List UInt8)
    (s : SharedSticks ι) : SharedSticks ι :=
  if size ≤ bytes.length then s.finish i (.read physicalAddress.toNat size) (some bytes)
  else
    match Memory.findStick (physicalAddress + bytes.length) s.sticks with
    | none => s.finish i (.read physicalAddress.toNat size) none
    | some (index, stickOffset) =>
      match s.sticks[index]? with
      | none => s.finish i (.read physicalAddress.toNat size) none
      | some stick =>
        let bytesToReadCount := stickChunkSize stick stickOffset (size - bytes.length)
        s.setPhase i (.kmReading physicalAddress size
          (bytes ++ slice stick.memory stickOffset bytesToReadCount))

/-- A round of the loop of `write_to_sticks`, which goes on at the start of the next stick. -/
def kmWriteRound (i : ι) (physicalAddress : ℤ) (writeBuffer : List UInt8)
    (currentStick currentOffset bytesWritten : ℕ) (s : SharedSticks ι) : SharedSticks ι :=
  if writeBuffer.length ≤ bytesWritten then
    s.finish i (.write physicalAddress.toNat writeBuffer) (some [])
  else
    match s.sticks[currentStick]? with
    | none => s.finish i (.write physicalAddress.toNat writeBuffer) none
    | some stick =>
      let toWrite := stickChunkSize stick currentOffset (writeBuffer.length - bytesWritten)
      let data := slice writeBuffer bytesWritten toWrite
      { s.setPhase i
          (.kmWriting physicalAddress writeBuffer (currentStick + 1) 0 (bytesWritten + toWrite))
        with sticks := s.sticks.set currentStick ⟨splice stick.memory currentOffset data⟩ }

/-- One step. -/
def step (s : SharedSticks ι) : Event ι → Option (SharedSticks ι)
  | .start i side transfer => if s.phase i = .idle then some (s.start i side transfer) else none
  | .round i =>
    match s.phase i with
    | .idle => none
    | .cpuReading physicalAddress size readBytes bytes =>
      some (s.cpuReadRound i physicalAddress size readBytes bytes)
    | .cpuWriting physicalAddress dataToWrite size writtenBytes =>
      some (s.cpuWriteRound i physicalAddress dataToWrite size writtenBytes)
    | .kmReading physicalAddress size bytes =>
      some (s.kmReadRound i physicalAddress size bytes)
    | .kmWriting physicalAddress writeBuffer currentStick currentOffset bytesWritten =>
      some (s.kmWriteRound i physicalAddress writeBuffer currentStick currentOffset bytesWritten)

end Steps

/-- What begins is in the memory, and does not conflict with what is going on for others. -/
def Apart (s : SharedSticks ι) : Event ι → Prop
  | .start i _ transfer => transfer.Fits (bytesOf s.sticks).length ∧
    ∀ j, j ≠ i → ∀ o ∈ (s.phase j).ongoing, ¬ transfer.Conflicts o.transfer
  | .round _ => True

/-- What begins is in the part of the memory that its process has. -/
def Inside (region : ι → Set ℕ) (s : SharedSticks ι) : Event ι → Prop
  | .start i _ transfer => transfer.Fits (bytesOf s.sticks).length ∧
    ∀ x, transfer.Has x → x ∈ region i
  | .round _ => True

/-! ## Rounds as pieces -/

/-- One memory, and the transfers in pieces. -/
def pieces (s : SharedSticks ι) : PieceStore ι UInt8 :=
  ⟨bytesOf s.sticks, fun i => (s.phase i).ongoing, s.order,
    s.results.map fun result => (result.1, result.2.getD [])⟩

/-- A transfer is where its loop can be: in the range, and Kernel Memory at the stick that the next
byte of a write belongs to. -/
def PhaseSound (sticks : List Stick) : Phase → Prop
  | .idle => True
  | .cpuReading physicalAddress size readBytes _ =>
    physicalAddress.toNat + size.toNat ≤ (bytesOf sticks).length ∧ readBytes.toNat ≤ size.toNat
  | .cpuWriting physicalAddress dataToWrite size writtenBytes =>
    dataToWrite.length = size.toNat ∧
      physicalAddress.toNat + size.toNat ≤ (bytesOf sticks).length ∧
      writtenBytes.toNat ≤ size.toNat
  | .kmReading physicalAddress size bytes =>
    0 ≤ physicalAddress ∧ physicalAddress.toNat + size ≤ (bytesOf sticks).length ∧
      bytes.length ≤ size
  | .kmWriting physicalAddress writeBuffer currentStick currentOffset bytesWritten =>
    0 ≤ physicalAddress ∧
      physicalAddress.toNat + writeBuffer.length ≤ (bytesOf sticks).length ∧
      bytesWritten ≤ writeBuffer.length ∧
      (bytesWritten < writeBuffer.length →
        (bytesOf (sticks.take currentStick)).length + currentOffset =
          physicalAddress.toNat + bytesWritten ∧
        ∃ stick, sticks[currentStick]? = some stick ∧ currentOffset < stick.stickSize)

/-- **The invariant**: the sticks have bytes, an `int` counts them, every transfer is where its loop
can be, and none has failed. -/
structure Sound (s : SharedSticks ι) : Prop where
  positive : ∀ stick ∈ s.sticks, 0 < stick.stickSize
  total : ((bytesOf s.sticks).length : ℤ) ≤ INT_MAX
  phase : ∀ i, PhaseSound s.sticks (s.phase i)
  results : ∀ result ∈ s.results, result.2.isSome = true

/-- What a round does with the transfer: it has been complete before the round; or the round
performs its next piece. -/
inductive RoundEffect (i : ι) [DecidableEq ι] (s : SharedSticks ι) :
    SharedSticks ι → Prop
  | complete (o : Ongoing UInt8) (hongoing : (s.phase i).ongoing = some o)
      (hdone : o.done = o.transfer.count) : RoundEffect i s (s.finish i o.transfer (some o.bytes))
  | piece (o : Ongoing UInt8) (hongoing : (s.phase i).ongoing = some o) (n : ℕ) (hpos : 1 ≤ n)
      (hn : o.done + n ≤ o.transfer.count) (phase : Phase)
      (hphase : phase.ongoing = some (o.piece n (bytesOf s.sticks)).1) (sticks : List Stick)
      (hsound : PhaseSound sticks phase)
      (hsizes : sticks.map Stick.stickSize = s.sticks.map Stick.stickSize)
      (hbytes : bytesOf sticks = (o.piece n (bytesOf s.sticks)).2) :
      RoundEffect i s { s.setPhase i phase with sticks := sticks }

/-- The part of a stick, in the memory. -/
lemma slice_bytesOf {sticks : List Stick} {stick : Stick} {i off n : ℕ}
    (hget : sticks[i]? = some stick) (hin : off + n ≤ stick.stickSize) :
    slice (bytesOf sticks) ((bytesOf (sticks.take i)).length + off) n =
      slice stick.memory off n := by
  rw [Memory.bytesOf_split hget, slice_append_right,
    slice_append_left _ (show off + n ≤ stick.memory.length from hin)]

/-- A CPU whose sticks are those of the memory. -/
def cpuWith (sticks : List Stick) : Cpu.State :=
  ⟨0, memorySticksOf sticks, ⟨0, 0, 0, 0, 0, 0, 0, 0, 0, 0, 0⟩, [], false, true, [], [], []⟩

section Rounds

variable [DecidableEq ι] {s s' : SharedSticks ι} {i : ι}

/-- A round of a read of a CPU reads the next piece, or nothing is left to read. -/
lemma cpuReadRound_effect (hs : s.Sound) {physicalAddress size readBytes : UInt32}
    {bytes : List UInt8} (hphase : s.phase i = .cpuReading physicalAddress size readBytes bytes) :
    RoundEffect i s (s.cpuReadRound i physicalAddress size readBytes bytes) := by
  obtain ⟨hrange, hle⟩ : PhaseSound s.sticks (.cpuReading physicalAddress size readBytes bytes) :=
    hphase ▸ hs.phase i
  have hongoing : (s.phase i).ongoing =
      some ⟨.read physicalAddress.toNat size.toNat, readBytes.toNat, bytes⟩ := by
    rw [hphase]
    rfl
  unfold cpuReadRound
  split
  · rename_i hdone
    rw [UInt32.le_iff_toNat_le] at hdone
    exact .complete _ hongoing (le_antisymm hle hdone)
  · rename_i hdone
    obtain ⟨k, off, n, stick, hget, hplace, hfind, hsub, hchunk, hpos, hin, hn, hnext⟩ :=
      @Cpu.exists_round s.sticks physicalAddress size readBytes (cpuWith s.sticks) hs.total rfl
        hrange hdone
    have hfind : Cpu.findStick (physicalAddress + readBytes) 0 (memorySticksOf s.sticks) =
        some (k, placedStick s.sticks k stick) := hfind
    have hmemory : (placedStick s.sticks k stick).memory = stick.memory := rfl
    simp only [hfind, hsub, hchunk, hmemory]
    refine .piece _ hongoing n hpos hn _ ?_ s.sticks ⟨hrange, hnext ▸ hn⟩ rfl rfl
    simp only [Phase.ongoing, Ongoing.piece, hnext]
    rw [← hplace, slice_bytesOf hget hin]

/-- A round of a write of a CPU writes the next piece into one stick. -/
lemma cpuWriteRound_effect (hs : s.Sound) {physicalAddress size writtenBytes : UInt32}
    {dataToWrite : List UInt8}
    (hphase : s.phase i = .cpuWriting physicalAddress dataToWrite size writtenBytes) :
    RoundEffect i s (s.cpuWriteRound i physicalAddress dataToWrite size writtenBytes) := by
  obtain ⟨hlength, hrange, hle⟩ :
      PhaseSound s.sticks (.cpuWriting physicalAddress dataToWrite size writtenBytes) :=
    hphase ▸ hs.phase i
  have hongoing : (s.phase i).ongoing =
      some ⟨.write physicalAddress.toNat dataToWrite, writtenBytes.toNat, []⟩ := by
    rw [hphase]
    rfl
  unfold cpuWriteRound
  split
  · rename_i hdone
    rw [UInt32.le_iff_toNat_le] at hdone
    exact .complete _ hongoing ((le_antisymm hle hdone).trans hlength.symm)
  · rename_i hdone
    obtain ⟨k, off, n, stick, hget, hplace, hfind, hsub, hchunk, hpos, hin, hn, hnext⟩ :=
      @Cpu.exists_round s.sticks physicalAddress size writtenBytes (cpuWith s.sticks) hs.total rfl
        hrange hdone
    have hfind : Cpu.findStick (physicalAddress + writtenBytes) 0 (memorySticksOf s.sticks) =
        some (k, placedStick s.sticks k stick) := hfind
    have hpart : (slice dataToWrite writtenBytes.toNat n).length = n :=
      length_slice (hlength ▸ hn)
    have hwrite := Memory.flatWrite_set hget
      (show off + (slice dataToWrite writtenBytes.toNat n).length ≤ stick.stickSize by
        rw [hpart]
        exact hin)
    rw [hplace] at hwrite
    have hmemory : (placedStick s.sticks k stick).memory = stick.memory := rfl
    simp only [hfind, hsub, hchunk, hmemory]
    refine .piece _ hongoing n hpos (show _ + n ≤ dataToWrite.length by rw [hlength]; exact hn) _
      ?_ _ ⟨hlength, ?_, hnext ▸ hn⟩ hwrite.sizes hwrite.bytes
    · simp only [Phase.ongoing, Ongoing.piece, hnext]
    · rw [Memory.length_bytesOf, hwrite.sizes, ← Memory.length_bytesOf]
      exact hrange

/-- A round of a read of Kernel Memory reads what the stick of the next byte has left. -/
lemma kmReadRound_effect (hs : s.Sound) {physicalAddress : ℤ} {size : ℕ} {bytes : List UInt8}
    (hphase : s.phase i = .kmReading physicalAddress size bytes) :
    RoundEffect i s (s.kmReadRound i physicalAddress size bytes) := by
  obtain ⟨hneg, hrange, hle⟩ : PhaseSound s.sticks (.kmReading physicalAddress size bytes) :=
    hphase ▸ hs.phase i
  have hongoing : (s.phase i).ongoing =
      some ⟨.read physicalAddress.toNat size, bytes.length, bytes⟩ := by
    rw [hphase]
    rfl
  unfold kmReadRound
  split
  · rename_i hdone
    exact .complete _ hongoing (le_antisymm hle hdone)
  · rename_i hdone
    have haddress : physicalAddress + bytes.length =
        ((physicalAddress.toNat + bytes.length : ℕ) : ℤ) := by
      omega
    obtain ⟨k, off, stick, hfind, hget, hoff, hplace⟩ := Memory.findStick_of_lt
      (show physicalAddress.toNat + bytes.length < (bytesOf s.sticks).length by omega)
    obtain ⟨hpos, hin⟩ := Memory.stickChunkSize_bounds hoff
      (show 0 < size - bytes.length by omega)
    have hn : stickChunkSize stick off (size - bytes.length) ≤ size - bytes.length :=
      min_le_left _ _
    have hpart : (slice stick.memory off
        (stickChunkSize stick off (size - bytes.length))).length =
          stickChunkSize stick off (size - bytes.length) := length_slice hin
    simp only [haddress, hfind, hget]
    refine .piece _ hongoing _ hpos (show bytes.length + _ ≤ size by omega) _ ?_ s.sticks
      ⟨hneg, hrange, ?_⟩ rfl rfl
    · simp only [Phase.ongoing, Ongoing.piece, List.length_append, hpart]
      rw [← hplace, slice_bytesOf hget hin]
    · rw [List.length_append, hpart]
      omega

/-- The first byte of a stick, by the sizes of those in front of it. -/
lemma length_bytesOf_take (sticks : List Stick) (k : ℕ) :
    (bytesOf (sticks.take k)).length = ((sticks.map Stick.stickSize).take k).sum := by
  rw [Memory.length_bytesOf, List.map_take]

/-- The next stick begins where the last one ends. -/
lemma length_bytesOf_take_succ {sticks : List Stick} {stick : Stick} {k : ℕ}
    (hget : sticks[k]? = some stick) :
    (bytesOf (sticks.take (k + 1))).length =
      (bytesOf (sticks.take k)).length + stick.stickSize := by
  rw [List.take_add_one, hget, Memory.bytesOf_append, List.length_append]
  simp [Stick.stickSize]

/-- **Kernel Memory goes on with the next stick**: a part that does not end the transfer ends its
stick. -/
lemma kmWriteRound_effect (hs : s.Sound) {physicalAddress : ℤ} {writeBuffer : List UInt8}
    {currentStick currentOffset bytesWritten : ℕ}
    (hphase : s.phase i =
      .kmWriting physicalAddress writeBuffer currentStick currentOffset bytesWritten) :
    RoundEffect i s
      (s.kmWriteRound i physicalAddress writeBuffer currentStick currentOffset bytesWritten) := by
  obtain ⟨hneg, hrange, hle, hstick⟩ : PhaseSound s.sticks
      (.kmWriting physicalAddress writeBuffer currentStick currentOffset bytesWritten) :=
    hphase ▸ hs.phase i
  have hongoing : (s.phase i).ongoing =
      some ⟨.write physicalAddress.toNat writeBuffer, bytesWritten, []⟩ := by
    rw [hphase]
    rfl
  unfold kmWriteRound
  split
  · rename_i hdone
    exact .complete _ hongoing (le_antisymm hle hdone)
  · rename_i hdone
    obtain ⟨hplace, stick, hget, hoff⟩ := hstick (by omega)
    obtain ⟨hpos, hin⟩ := Memory.stickChunkSize_bounds hoff
      (show 0 < writeBuffer.length - bytesWritten by omega)
    have hn : stickChunkSize stick currentOffset (writeBuffer.length - bytesWritten) =
        min (writeBuffer.length - bytesWritten) (stick.stickSize - currentOffset) := rfl
    simp only [hget]
    generalize stickChunkSize stick currentOffset (writeBuffer.length - bytesWritten) = n at *
    have hpart : (slice writeBuffer bytesWritten n).length = n := length_slice (by omega)
    have hwrite := Memory.flatWrite_set hget
      (show currentOffset + (slice writeBuffer bytesWritten n).length ≤ stick.stickSize by
        rw [hpart]
        exact hin)
    rw [hplace] at hwrite
    refine .piece _ hongoing n hpos (show bytesWritten + n ≤ writeBuffer.length by omega) _ ?_ _
      ?_ hwrite.sizes hwrite.bytes
    · simp only [Phase.ongoing, Ongoing.piece]
    · have htotal : (bytesOf (s.sticks.set currentStick
          ⟨splice stick.memory currentOffset (slice writeBuffer bytesWritten n)⟩)).length =
            (bytesOf s.sticks).length := by
        rw [Memory.length_bytesOf, hwrite.sizes, ← Memory.length_bytesOf]
      refine ⟨hneg, htotal ▸ hrange, by omega, fun hmore => ?_⟩
      have hnext : (bytesOf ((s.sticks.set currentStick
          ⟨splice stick.memory currentOffset (slice writeBuffer bytesWritten n)⟩).take
            (currentStick + 1))).length = physicalAddress.toNat + (bytesWritten + n) := by
        rw [length_bytesOf_take, hwrite.sizes, ← length_bytesOf_take,
          length_bytesOf_take_succ hget]
        omega
      refine ⟨by rw [hnext]; rfl, ?_⟩
      cases hnone : (s.sticks.set currentStick
          ⟨splice stick.memory currentOffset (slice writeBuffer bytesWritten n)⟩)[currentStick + 1]?
        with
      | none =>
        rw [List.take_of_length_le (List.getElem?_eq_none_iff.1 hnone), htotal] at hnext
        omega
      | some next =>
        refine ⟨next, rfl, ?_⟩
        have hsize : next.stickSize ∈ s.sticks.map Stick.stickSize := by
          rw [← hwrite.sizes]
          exact List.mem_map_of_mem (List.mem_of_getElem? hnone)
        obtain ⟨old, hold, heq⟩ := List.mem_map.1 hsize
        rw [← heq]
        exact hs.positive old hold

/-- **A round performs the next piece**, or ends the transfer. -/
lemma round_effect (hs : s.Sound) (hst : s.step (.round i) = some s') : RoundEffect i s s' := by
  simp only [step] at hst
  split at hst
  · exact absurd hst (by simp)
  · rename_i hphase
    exact Option.some.inj hst ▸ cpuReadRound_effect hs hphase
  · rename_i hphase
    exact Option.some.inj hst ▸ cpuWriteRound_effect hs hphase
  · rename_i hphase
    exact Option.some.inj hst ▸ kmReadRound_effect hs hphase
  · rename_i hphase
    exact Option.some.inj hst ▸ kmWriteRound_effect hs hphase

/-- What begins has done nothing yet. -/
lemma start_effect (hs : s.Sound) (side : Side) {transfer : Transfer UInt8}
    (hfits : transfer.Fits (bytesOf s.sticks).length) :
    ∃ phase, s.start i side transfer = s.setPhase i phase ∧ phase.ongoing = some ⟨transfer, 0, []⟩ ∧
      PhaseSound s.sticks phase := by
  have htotal := hs.total
  unfold INT_MAX at htotal
  unfold Transfer.Fits at hfits
  have hword : ∀ n, n ≤ (bytesOf s.sticks).length → (UInt32.ofNat n).toNat = n := by
    intro n hn
    rw [UInt32.toNat_ofNat']
    omega
  cases transfer with
  | read address count =>
    simp only [Transfer.start, Transfer.count] at hfits
    cases side with
    | kernelMemory =>
      refine ⟨.kmReading address count [], rfl, ?_, Int.natCast_nonneg _, ?_, Nat.zero_le _⟩
      · simp [Phase.ongoing]
      · rw [Int.toNat_natCast]
        exact hfits
    | cpu =>
      refine ⟨.cpuReading (UInt32.ofNat address) (UInt32.ofNat count) 0 [], rfl, ?_, ?_,
        Nat.zero_le _⟩
      · simp [Phase.ongoing, hword address (by omega), hword count (by omega)]
      · rw [hword address (by omega), hword count (by omega)]
        exact hfits
  | write address data =>
    simp only [Transfer.start, Transfer.count] at hfits
    cases side with
    | kernelMemory =>
      cases data with
      | nil =>
        refine ⟨.kmWriting address [] 0 0 0, by simp [start], by simp [Phase.ongoing],
          Int.natCast_nonneg _, ?_, le_rfl, by simp⟩
        rw [Int.toNat_natCast]
        exact hfits
      | cons b bs =>
        have hlt : address < (bytesOf s.sticks).length := by
          rw [List.length_cons] at hfits
          omega
        obtain ⟨k, off, stick, hfind, hget, hoff, hplace⟩ := Memory.findStick_of_lt hlt
        refine ⟨.kmWriting address (b :: bs) k off 0, by simp [start, hfind],
          by simp [Phase.ongoing], Int.natCast_nonneg _, ?_, Nat.zero_le _,
          fun _ => ⟨?_, stick, hget, hoff⟩⟩
        · rw [Int.toNat_natCast]
          exact hfits
        · rw [Int.toNat_natCast]
          exact hplace
    | cpu =>
      refine ⟨.cpuWriting (UInt32.ofNat address) data (UInt32.ofNat data.length) 0, rfl, ?_, ?_, ?_,
        Nat.zero_le _⟩
      · simp [Phase.ongoing, hword address (by omega)]
      · exact (hword data.length (by omega)).symm
      · rw [hword address (by omega), hword data.length (by omega)]
        exact hfits

/-- Only the sizes of the sticks count. -/
lemma PhaseSound.of_sizes {sticks sticks' : List Stick} {phase : Phase}
    (h : PhaseSound sticks phase)
    (hsizes : sticks'.map Stick.stickSize = sticks.map Stick.stickSize) :
    PhaseSound sticks' phase := by
  have htotal : (bytesOf sticks').length = (bytesOf sticks).length := by
    rw [Memory.length_bytesOf, hsizes, ← Memory.length_bytesOf]
  cases phase with
  | idle => trivial
  | cpuReading physicalAddress size readBytes bytes => exact ⟨htotal ▸ h.1, h.2⟩
  | cpuWriting physicalAddress dataToWrite size writtenBytes =>
    exact ⟨h.1, htotal ▸ h.2.1, h.2.2⟩
  | kmReading physicalAddress size bytes => exact ⟨h.1, htotal ▸ h.2.1, h.2.2⟩
  | kmWriting physicalAddress writeBuffer currentStick currentOffset bytesWritten =>
    obtain ⟨hneg, hrange, hle, hstick⟩ := h
    refine ⟨hneg, htotal ▸ hrange, hle, fun hmore => ?_⟩
    obtain ⟨hplace, stick, hget, hoff⟩ := hstick hmore
    rw [length_bytesOf_take, hsizes, ← length_bytesOf_take]
    refine ⟨hplace, ?_⟩
    have hsize := congrArg (fun sizes : List ℕ => sizes[currentStick]?) hsizes
    simp only [List.getElem?_map, hget, Option.map_some] at hsize
    obtain ⟨stick', hget', heq⟩ := Option.map_eq_some_iff.1 hsize
    exact ⟨stick', hget', by omega⟩

/-- A round matches a piece or an end, and a start a start. -/
def Matches : Event ι → PieceStore.Event ι UInt8 → Prop
  | .start i _ transfer, e => e = .start i transfer
  | .round i, e => (∃ n, e = .piece i n) ∨ e = .finish i

/-- Only the phase of one process is another one. -/
lemma ongoing_setPhase (s : SharedSticks ι) (i : ι) (phase : Phase) :
    (fun j => (Function.update s.phase i phase j).ongoing) =
      Function.update (fun j => (s.phase j).ongoing) i phase.ongoing :=
  Function.comp_update Phase.ongoing s.phase i phase

/-- A process has a transfer unless it is idle. -/
lemma Phase.eq_idle_iff {phase : Phase} : phase.ongoing = none ↔ phase = .idle := by
  cases phase <;> simp [Phase.ongoing]

/-- **A step over the sticks is one over the memory.** -/
lemma step_pieces (hs : s.Sound) {e : Event ι}
    (hfits : ∀ i side t, e = .start i side t → t.Fits (bytesOf s.sticks).length)
    (hst : s.step e = some s') :
    s'.Sound ∧ ∃ e', Matches e e' ∧ s.pieces.step e' = some s'.pieces := by
  cases e with
  | start i side transfer =>
    obtain ⟨hidle, heq⟩ := Option.ite_none_right_eq_some.1 hst
    obtain ⟨phase, hstart, hongoing, hsound⟩ :=
      start_effect (i := i) hs side (hfits i side transfer rfl)
    obtain rfl := hstart.symm.trans (Option.some.inj heq)
    refine ⟨⟨hs.positive, hs.total, fun j => ?_, hs.results⟩, _, rfl, ?_⟩
    · rcases eq_or_ne j i with rfl | hj
      · simpa only [setPhase, Function.update_self] using hsound
      · simpa only [setPhase, Function.update_of_ne hj] using hs.phase j
    · have hnone : (s.pieces.ongoing i).isNone := by
        simp only [pieces, hidle, Phase.ongoing, Option.isNone_none]
      rw [PieceStore.step, if_pos ⟨hnone, hfits i side transfer rfl⟩]
      simp only [pieces, setPhase, ongoing_setPhase, hongoing]
  | round i =>
    cases round_effect hs hst with
    | complete o hongoing hdone =>
      refine ⟨⟨hs.positive, hs.total, fun j => ?_, fun result hresult => ?_⟩, .finish i,
        .inr rfl, ?_⟩
      · rcases eq_or_ne j i with rfl | hj
        · simp only [finish, Function.update_self]
          trivial
        · simpa only [finish, Function.update_of_ne hj] using hs.phase j
      · rcases List.mem_append.1 hresult with hold | hnew
        · exact hs.results result hold
        · rw [List.mem_singleton.1 hnew]
          rfl
      · have hsome : s.pieces.ongoing i = some o := hongoing
        rw [PieceStore.step, hsome, Option.bind_some, if_pos hdone]
        have hidle : Phase.idle.ongoing = none := rfl
        simp only [pieces, finish, ongoing_setPhase, hidle, List.map_append, List.map_cons,
          List.map_nil, Option.getD_some]
    | piece o hongoing n hpos hn phase hphase sticks hsound hsizes hbytes =>
      have htotal : (bytesOf sticks).length = (bytesOf s.sticks).length := by
        rw [Memory.length_bytesOf, hsizes, ← Memory.length_bytesOf]
      refine ⟨⟨fun stick hstick => ?_, htotal ▸ hs.total, fun j => ?_, hs.results⟩, .piece i n,
        .inl ⟨n, rfl⟩, ?_⟩
      · have hsize : stick.stickSize ∈ s.sticks.map Stick.stickSize := by
          rw [← hsizes]
          exact List.mem_map_of_mem hstick
        obtain ⟨old, hold, heq⟩ := List.mem_map.1 hsize
        rw [← heq]
        exact hs.positive old hold
      · rcases eq_or_ne j i with rfl | hj
        · simpa only [setPhase, Function.update_self] using hsound
        · simpa only [setPhase, Function.update_of_ne hj] using (hs.phase j).of_sizes hsizes
      · have hsome : s.pieces.ongoing i = some o := hongoing
        rw [PieceStore.step, hsome, Option.bind_some, if_pos hn]
        simp only [pieces, setPhase, ongoing_setPhase, hphase, hbytes]

end Rounds

/-! ## The rounds and the loops -/

section Alone

variable [DecidableEq ι] {s s' : SharedSticks ι} {i : ι}

/-- The sticks stay. -/
@[simp] lemma sticks_setPhase (s : SharedSticks ι) (i : ι) (phase : Phase) :
    (s.setPhase i phase).sticks = s.sticks := rfl

/-- Left to itself, the transfer of a process ends: with this result, and with these sticks. -/
def EndsAlone (s : SharedSticks ι) (i : ι) (result : Option (List UInt8)) (sticks : List Stick) :
    Prop :=
  ∃ n t, execute step s (List.replicate n (.round i)) = some t ∧ t.phase i = .idle ∧
    t.results = s.results ++ [(i, result)] ∧ t.sticks = sticks

/-- A last round. -/
lemma endsAlone_finish {transfer : Transfer UInt8} {result : Option (List UInt8)}
    (hst : s.step (.round i) = some (s.finish i transfer result)) :
    EndsAlone s i result s.sticks :=
  ⟨1, s.finish i transfer result, by rw [List.replicate_one, execute, hst]; rfl,
    by simp [finish], rfl, rfl⟩

/-- A round that leaves something to do. -/
lemma EndsAlone.head {result : Option (List UInt8)} {sticks : List Stick}
    (hst : s.step (.round i) = some s') (hresults : s'.results = s.results)
    (h : EndsAlone s' i result sticks) : EndsAlone s i result sticks := by
  obtain ⟨n, t, hrun, hidle, hresult, hsticks⟩ := h
  exact ⟨n + 1, t, by rw [List.replicate_succ, execute, hst]; exact hrun, hidle,
    hresults ▸ hresult, hsticks⟩

/-- The stick that a CPU finds is one of the sticks, it is connected and it has the address. -/
lemma exists_of_findStick {sticks : List Stick} {address : UInt32} {k : ℕ}
    {stick : Cpu.MemoryStickInfo}
    (h : Cpu.findStick address 0 (memorySticksOf sticks) = some (k, stick)) :
    stick.connected = true ∧ address - stick.offset < stick.size ∧
      ∃ stick', sticks[k]? = some stick' ∧ stick = placedStick sticks k stick' := by
  have hfind : ∀ (found : List Cpu.MemoryStickInfo) (first : ℕ),
      Cpu.findStick address first found = some (k, stick) →
      (stick.offset ≤ address ∧ address < stick.offset + stick.size) ∧ first ≤ k ∧
        found[k - first]? = some stick := by
    intro found
    induction found with
    | nil => exact fun first h => absurd h (by simp [Cpu.findStick])
    | cons next rest ih =>
      intro first h
      rw [Cpu.findStick] at h
      split at h
      · rename_i hhas
        obtain ⟨rfl, rfl⟩ := Prod.mk.inj (Option.some.inj h)
        exact ⟨hhas, le_rfl, by simp⟩
      · obtain ⟨hhas, hle, hget⟩ := ih (first + 1) h
        refine ⟨hhas, by omega, ?_⟩
        rw [show k - first = (k - (first + 1)) + 1 by omega]
        exact hget
  obtain ⟨⟨hlow, hhigh⟩, -, hget⟩ := hfind _ 0 h
  rw [Nat.sub_zero, Cpu.getElem?_memorySticksOf] at hget
  obtain ⟨stick', hget', rfl⟩ := Option.map_eq_some_iff.1 hget
  refine ⟨rfl, ?_, stick', hget', rfl⟩
  rw [UInt32.le_iff_toNat_le] at hlow
  rw [UInt32.lt_iff_toNat_lt, UInt32.toNat_add] at hhigh
  rw [UInt32.lt_iff_toNat_lt, UInt32.toNat_sub_of_le _ _ (UInt32.le_iff_toNat_le.2 hlow)]
  have hoffset := (placedStick sticks k stick').offset.toNat_lt
  have hsize := (placedStick sticks k stick').size.toNat_lt
  omega

/-- A CPU asks a stick for at least one byte and for no more than are left, in the stick and of the
transfer. -/
lemma chunkSize_bounds {stick : Cpu.MemoryStickInfo} {addressInStick size done : UInt32}
    (hin : addressInStick < stick.size) (hdone : ¬ size ≤ done) :
    addressInStick.toNat + (chunkSize stick addressInStick (size - done)).toNat ≤
        stick.size.toNat ∧
      done.toNat < (done + chunkSize stick addressInStick (size - done)).toNat ∧
      (done + chunkSize stick addressInStick (size - done)).toNat =
        done.toNat + (chunkSize stick addressInStick (size - done)).toNat := by
  rw [UInt32.lt_iff_toNat_lt] at hin
  have hchunk := Cpu.toNat_chunkSize hin hdone
  rw [UInt32.le_iff_toNat_le] at hdone
  have hsize := size.toNat_lt
  rw [UInt32.toNat_add, hchunk]
  omega

/-- The round of a CPU that reads. -/
lemma step_cpuReading {physicalAddress size readBytes : UInt32} {bytes : List UInt8}
    (hphase : s.phase i = .cpuReading physicalAddress size readBytes bytes) :
    s.step (.round i) = some (s.cpuReadRound i physicalAddress size readBytes bytes) := by
  rw [step, hphase]

/-- The round of a CPU that writes. -/
lemma step_cpuWriting {physicalAddress size writtenBytes : UInt32} {dataToWrite : List UInt8}
    (hphase : s.phase i = .cpuWriting physicalAddress dataToWrite size writtenBytes) :
    s.step (.round i) =
      some (s.cpuWriteRound i physicalAddress dataToWrite size writtenBytes) := by
  rw [step, hphase]

/-- The round of Kernel Memory that reads. -/
lemma step_kmReading {physicalAddress : ℤ} {size : ℕ} {bytes : List UInt8}
    (hphase : s.phase i = .kmReading physicalAddress size bytes) :
    s.step (.round i) = some (s.kmReadRound i physicalAddress size bytes) := by
  rw [step, hphase]

/-- The round of Kernel Memory that writes. -/
lemma step_kmWriting {physicalAddress : ℤ} {writeBuffer : List UInt8}
    {currentStick currentOffset bytesWritten : ℕ}
    (hphase : s.phase i =
      .kmWriting physicalAddress writeBuffer currentStick currentOffset bytesWritten) :
    s.step (.round i) = some (s.kmWriteRound i physicalAddress writeBuffer currentStick
      currentOffset bytesWritten) := by
  rw [step, hphase]

/-- **The rounds of a read of a CPU are those of `read_memory`.** -/
lemma endsAlone_readLoop {physicalAddress size : UInt32} (rounds : ℕ) {readBytes : UInt32}
    (hrounds : size.toNat ≤ readBytes.toNat + rounds) {bytes : List UInt8} {cpu : Cpu.State}
    (hcpu : cpu.memorySticks = memorySticksOf s.sticks)
    (hphase : s.phase i = .cpuReading physicalAddress size readBytes bytes) :
    EndsAlone s i
      ((Cpu.readLoop physicalAddress size rounds readBytes cpu).1.map (bytes ++ ·)) s.sticks := by
  induction rounds generalizing s readBytes bytes cpu with
  | zero =>
    have hst := step_cpuReading hphase
    have hdone : size ≤ readBytes := UInt32.le_iff_toNat_le.2 (by omega)
    rw [cpuReadRound, if_pos hdone] at hst
    simpa [Cpu.readLoop] using endsAlone_finish hst
  | succ rounds ih =>
    have hst := step_cpuReading hphase
    rw [cpuReadRound] at hst
    rw [Cpu.readLoop]
    by_cases hdone : size ≤ readBytes
    · rw [if_pos hdone] at hst ⊢
      simpa using endsAlone_finish hst
    · rw [if_neg hdone] at hst ⊢
      rw [← hcpu] at hst
      cases hfind : Cpu.findStick (physicalAddress + readBytes) 0 cpu.memorySticks with
      | none =>
        rw [hfind] at hst
        exact endsAlone_finish hst
      | some found =>
        obtain ⟨k, stick⟩ := found
        obtain ⟨hconnected, hin, -⟩ := exists_of_findStick (hcpu ▸ hfind)
        obtain ⟨-, hprogress, -⟩ := chunkSize_bounds hin hdone
        rw [hfind] at hst
        simp only [hconnected, if_true]
        refine .head hst rfl ?_
        have hrest : EndsAlone _ i _ s.sticks := @ih (s.setPhase i (.cpuReading physicalAddress size
          (readBytes + chunkSize stick (physicalAddress + readBytes - stick.offset)
            (size - readBytes))
          (bytes ++ slice stick.memory (physicalAddress + readBytes - stick.offset).toNat
            (chunkSize stick (physicalAddress + readBytes - stick.offset)
              (size - readBytes)).toNat)))
          _ (by omega) _
          { cpu with
            stickRequests := cpu.stickRequests ++ [Cpu.StickRequest.read k
              (physicalAddress + readBytes - stick.offset)
              (chunkSize stick (physicalAddress + readBytes - stick.offset)
                (size - readBytes))] }
          hcpu (Function.update_self ..)
        simpa only [Option.map_map, Function.comp_def, List.append_assoc] using hrest

/-- **The rounds of a write of a CPU are those of `write_memory`.** -/
lemma endsAlone_writeLoop {physicalAddress size : UInt32} {dataToWrite : List UInt8} (rounds : ℕ)
    {writtenBytes : UInt32} (hrounds : size.toNat ≤ writtenBytes.toNat + rounds) {cpu : Cpu.State}
    (hcpu : cpu.memorySticks = memorySticksOf s.sticks)
    (hphase : s.phase i = .cpuWriting physicalAddress dataToWrite size writtenBytes) :
    ∃ sticks,
      (Cpu.writeLoop physicalAddress dataToWrite size rounds writtenBytes cpu).2.memorySticks =
        memorySticksOf sticks ∧
      EndsAlone s i
        (if (Cpu.writeLoop physicalAddress dataToWrite size rounds writtenBytes cpu).1 then some []
          else none) sticks := by
  induction rounds generalizing s writtenBytes cpu with
  | zero =>
    have hst := step_cpuWriting hphase
    have hdone : size ≤ writtenBytes := UInt32.le_iff_toNat_le.2 (by omega)
    rw [cpuWriteRound, if_pos hdone] at hst
    exact ⟨s.sticks, hcpu, endsAlone_finish hst⟩
  | succ rounds ih =>
    have hst := step_cpuWriting hphase
    rw [cpuWriteRound] at hst
    rw [Cpu.writeLoop]
    by_cases hdone : size ≤ writtenBytes
    · rw [if_pos hdone] at hst ⊢
      exact ⟨s.sticks, hcpu, endsAlone_finish hst⟩
    · rw [if_neg hdone] at hst ⊢
      rw [← hcpu] at hst
      cases hfind : Cpu.findStick (physicalAddress + writtenBytes) 0 cpu.memorySticks with
      | none =>
        rw [hfind] at hst
        exact ⟨s.sticks, hcpu, endsAlone_finish hst⟩
      | some found =>
        obtain ⟨k, stick⟩ := found
        obtain ⟨hconnected, hin, stick', hget, hplaced⟩ := exists_of_findStick (hcpu ▸ hfind)
        obtain ⟨hbound, hprogress, -⟩ := chunkSize_bounds hin hdone
        rw [hfind] at hst
        dsimp only at hst
        simp only [hconnected, if_true]
        generalize haddress : physicalAddress + writtenBytes - stick.offset = addressInStick at *
        generalize hchunk : chunkSize stick addressInStick (size - writtenBytes) = bytesToWrite at *
        -- the stick keeps its size, so the places of all stay
        have hmemory : stick.memory = stick'.memory := by rw [hplaced]; rfl
        have hsize : stick.size.toNat ≤ stick.memory.length := by
          rw [hplaced]
          simp only [placedStick, UInt32.toNat_ofNat']
          exact Nat.mod_le _ _
        have hpart : (slice dataToWrite writtenBytes.toNat bytesToWrite.toNat).length ≤
            bytesToWrite.toNat := List.length_take_le _ _
        have hkeeps : (splice stick.memory addressInStick.toNat
            (slice dataToWrite writtenBytes.toNat bytesToWrite.toNat)).length =
              stick'.stickSize := by
          rw [length_splice (by omega), hmemory]
          rfl
        have hset : cpu.memorySticks.set k
            { stick with
              memory := splice stick.memory addressInStick.toNat
                (slice dataToWrite writtenBytes.toNat bytesToWrite.toNat)
              connected := true } =
            memorySticksOf (s.sticks.set k ⟨splice stick.memory addressInStick.toNat
              (slice dataToWrite writtenBytes.toNat bytesToWrite.toNat)⟩) := by
          rw [hcpu, Cpu.memorySticksOf_set hget hkeeps, hplaced]
          rfl
        obtain ⟨sticks, hsticks, hends⟩ := @ih
          { s.setPhase i (.cpuWriting physicalAddress dataToWrite size
              (writtenBytes + bytesToWrite)) with
            sticks := s.sticks.set k ⟨splice stick.memory addressInStick.toNat
              (slice dataToWrite writtenBytes.toNat bytesToWrite.toNat)⟩ }
          (writtenBytes + bytesToWrite) (by omega)
          { cpu with
            stickRequests := cpu.stickRequests ++ [Cpu.StickRequest.write k addressInStick
              bytesToWrite (slice dataToWrite writtenBytes.toNat bytesToWrite.toNat)]
            memorySticks := cpu.memorySticks.set k
              { stick with
                memory := splice stick.memory addressInStick.toNat
                  (slice dataToWrite writtenBytes.toNat bytesToWrite.toNat)
                connected := true } }
          hset (Function.update_self ..)
        exact ⟨sticks, hsticks, .head hst rfl hends⟩

/-- **The rounds of a read of Kernel Memory are those of `read_from_sticks`.** -/
lemma endsAlone_kmReadLoop {physicalAddress : ℤ} {size : ℕ} (rounds : ℕ) {bytes : List UInt8}
    (hrounds : size ≤ bytes.length + rounds)
    (hphase : s.phase i = .kmReading physicalAddress size bytes) :
    EndsAlone s i
      ((Memory.readLoop s.sticks rounds (physicalAddress + bytes.length) (size - bytes.length)).map
        (bytes ++ ·)) s.sticks := by
  induction rounds generalizing s bytes with
  | zero =>
    have hst := step_kmReading hphase
    rw [kmReadRound, if_pos (by omega)] at hst
    rw [show size - bytes.length = 0 by omega]
    simpa [Memory.readLoop] using endsAlone_finish hst
  | succ rounds ih =>
    have hst := step_kmReading hphase
    rw [kmReadRound] at hst
    by_cases hdone : size ≤ bytes.length
    · rw [if_pos hdone] at hst
      rw [show size - bytes.length = 0 by omega]
      simpa [Memory.readLoop] using endsAlone_finish hst
    · rw [if_neg hdone] at hst
      obtain ⟨left, hleft⟩ : ∃ left, size - bytes.length = left + 1 :=
        ⟨size - bytes.length - 1, by omega⟩
      rw [hleft] at hst ⊢
      rw [Memory.readLoop]
      cases hfind : Memory.findStick (physicalAddress + bytes.length) s.sticks with
      | none =>
        rw [hfind] at hst
        exact endsAlone_finish hst
      | some found =>
        obtain ⟨k, off⟩ := found
        obtain ⟨stick, hget, hoff⟩ := Memory.exists_of_findStick hfind
        obtain ⟨hpos, hin⟩ := Memory.stickChunkSize_bounds hoff
          (show 0 < left + 1 by omega)
        have hle : stickChunkSize stick off (left + 1) ≤ left + 1 := min_le_left _ _
        have hpart : (slice stick.memory off (stickChunkSize stick off (left + 1))).length =
            stickChunkSize stick off (left + 1) := length_slice hin
        simp only [hfind, hget] at hst ⊢
        refine .head hst rfl ?_
        have hrest : EndsAlone _ i _ s.sticks := @ih
          (s.setPhase i (.kmReading physicalAddress size
            (bytes ++ slice stick.memory off (stickChunkSize stick off (left + 1)))))
          (bytes ++ slice stick.memory off (stickChunkSize stick off (left + 1)))
          (by rw [List.length_append, hpart]; omega) (Function.update_self ..)
        rw [List.length_append, hpart, Nat.cast_add, ← add_assoc, ← Nat.sub_sub, hleft,
          sticks_setPhase] at hrest
        simpa only [Option.map_map, Function.comp_def, List.append_assoc] using hrest

/-- The round that finds everything written. -/
lemma endsAlone_written {physicalAddress : ℤ} {writeBuffer : List UInt8}
    {currentStick currentOffset bytesWritten : ℕ} (hdone : writeBuffer.length ≤ bytesWritten)
    (hphase : s.phase i =
      .kmWriting physicalAddress writeBuffer currentStick currentOffset bytesWritten) :
    EndsAlone s i (some []) s.sticks := by
  have hst := step_kmWriting hphase
  rw [kmWriteRound, if_pos hdone] at hst
  exact endsAlone_finish hst

/-- **The rounds of a write of Kernel Memory are those of `write_to_sticks`.** -/
lemma endsAlone_kmWriteLoop {physicalAddress : ℤ} {writeBuffer : List UInt8} {rest : List Stick}
    {currentStick currentOffset bytesWritten : ℕ} (hrest : s.sticks.drop currentStick = rest)
    (hphase : s.phase i =
      .kmWriting physicalAddress writeBuffer currentStick currentOffset bytesWritten) :
    EndsAlone s i
      (if (Memory.writeLoop currentOffset (writeBuffer.drop bytesWritten) rest).1 then some []
        else none)
      (s.sticks.take currentStick ++
        (Memory.writeLoop currentOffset (writeBuffer.drop bytesWritten) rest).2) := by
  induction rest generalizing s currentStick currentOffset bytesWritten with
  | nil =>
    have htake : s.sticks.take currentStick = s.sticks :=
      List.take_of_length_le (List.drop_eq_nil_iff.1 hrest)
    cases hdata : writeBuffer.drop bytesWritten with
    | nil =>
      rw [Memory.writeLoop, htake, List.append_nil]
      exact endsAlone_written (List.drop_eq_nil_iff.1 hdata) hphase
    | cons b bs =>
      have hmore : ¬ writeBuffer.length ≤ bytesWritten := fun hdone => by
        rw [List.drop_of_length_le hdone] at hdata
        exact absurd hdata (by simp)
      have hst := step_kmWriting hphase
      have hnone : s.sticks[currentStick]? = none := by
        rw [← List.head?_drop, hrest]
        rfl
      rw [kmWriteRound, if_neg hmore, hnone] at hst
      rw [Memory.writeLoop, htake, List.append_nil]
      exact endsAlone_finish hst
  | cons stick rest ih =>
    cases hdata : writeBuffer.drop bytesWritten with
    | nil =>
      rw [Memory.writeLoop, ← hrest, List.take_append_drop]
      exact endsAlone_written (List.drop_eq_nil_iff.1 hdata) hphase
    | cons b bs =>
      have hmore : ¬ writeBuffer.length ≤ bytesWritten := fun hdone => by
        rw [List.drop_of_length_le hdone] at hdata
        exact absurd hdata (by simp)
      have hst := step_kmWriting hphase
      have hlength : writeBuffer.length - bytesWritten = bs.length + 1 := by
        rw [← List.length_drop, hdata, List.length_cons]
      have hget : s.sticks[currentStick]? = some stick := by
        rw [← List.head?_drop, hrest]
        rfl
      have hlt : currentStick < s.sticks.length := (List.getElem?_eq_some_iff.1 hget).1
      have hnext : s.sticks.drop (currentStick + 1) = rest := by
        rw [← List.tail_drop, hrest]
        rfl
      rw [kmWriteRound, if_neg hmore, hget] at hst
      dsimp only at hst
      rw [hlength, slice, hdata] at hst
      rw [Memory.writeLoop]
      dsimp only
      generalize stickChunkSize stick currentOffset (bs.length + 1) = toWrite at *
      generalize hwritten : (⟨splice stick.memory currentOffset ((b :: bs).take toWrite)⟩ : Stick) =
        stick' at *
      have hends := @ih
        { s.setPhase i (.kmWriting physicalAddress writeBuffer (currentStick + 1) 0
            (bytesWritten + toWrite)) with sticks := s.sticks.set currentStick stick' }
        (currentStick + 1) 0 (bytesWritten + toWrite)
        (by rw [List.drop_set_of_lt (Nat.lt_succ_self _), hnext]) (Function.update_self ..)
      dsimp only at hends
      rw [← List.drop_drop, hdata, List.take_add_one, List.getElem?_set_self hlt,
        List.take_set_of_le le_rfl, List.append_assoc] at hends
      exact .head hst rfl hends

/-- The transfer as a call of its side: what the function returns, and the sticks afterwards. -/
def Call (sticks : List Stick) (side : Side) (transfer : Transfer UInt8)
    (result : Option (List UInt8)) (sticks' : List Stick) : Prop :=
  match side, transfer with
  | .cpu, .read address count =>
    (Cpu.readMemory (UInt32.ofNat address) (UInt32.ofNat count) (cpuWith sticks)).1 = result ∧
      sticks' = sticks
  | .cpu, .write address data =>
    ∃ done cpu, Cpu.writeMemory (UInt32.ofNat address) data (UInt32.ofNat data.length)
        (cpuWith sticks) = (done, cpu) ∧ cpu.memorySticks = memorySticksOf sticks' ∧
      result = if done then some [] else none
  | .kernelMemory, .read address count =>
    Memory.readFromSticks address count sticks = result ∧ sticks' = sticks
  | .kernelMemory, .write address data =>
    ∃ done, Memory.writeToSticks address data sticks = (done, sticks') ∧
      result = if done then some [] else none

/-- The rounds after the start are those of the phase that the start leads to. -/
lemma call_of_endsAlone {side : Side} {transfer : Transfer UInt8} {phase : Phase}
    {result : Option (List UInt8)} {sticks : List Stick} (hidle : s.phase i = .idle)
    (hstart : s.start i side transfer = s.setPhase i phase)
    (h : EndsAlone (s.setPhase i phase) i result sticks)
    (hcall : Call s.sticks side transfer result sticks) :
    ∃ n t result, execute step s (.start i side transfer :: List.replicate n (.round i)) = some t ∧
      t.phase i = .idle ∧ t.results = s.results ++ [(i, result)] ∧
      Call s.sticks side transfer result t.sticks := by
  obtain ⟨n, t, hrun, hdone, hresults, rfl⟩ := h
  refine ⟨n, t, result, ?_, hdone, hresults, hcall⟩
  rw [execute, step, if_pos hidle, hstart]
  exact hrun

/-- **A transfer that is left to itself is a call**: its rounds, with nobody between them, return
what `read_memory`, `write_memory`, `read_from_sticks` or `write_to_sticks` returns on the same
sticks, and leave the sticks that it leaves.

**Proof sketch.** Each loop has a lemma that its rounds are those of the phase; the start puts the
transfer in front of the first one, or has found no stick. -/
theorem call_of_alone (side : Side) (transfer : Transfer UInt8) (hidle : s.phase i = .idle) :
    ∃ n t result, execute step s (.start i side transfer :: List.replicate n (.round i)) = some t ∧
      t.phase i = .idle ∧ t.results = s.results ++ [(i, result)] ∧
      Call s.sticks side transfer result t.sticks := by
  have hself : ∀ phase, (s.setPhase i phase).phase i = phase := fun _ => Function.update_self ..
  have hsticks : (cpuWith s.sticks).memorySticks = memorySticksOf s.sticks := rfl
  cases side with
  | cpu =>
    cases transfer with
    | read address count =>
      have hends := endsAlone_readLoop (s := s.setPhase i _) (UInt32.ofNat count).toNat
        (Nat.le_add_left _ _) hsticks
        (hself (.cpuReading (UInt32.ofNat address) (UInt32.ofNat count) 0 []))
      refine call_of_endsAlone hidle rfl hends ⟨?_, rfl⟩
      simp [Cpu.readMemory]
    | write address data =>
      obtain ⟨sticks, hwritten, hends⟩ := endsAlone_writeLoop (s := s.setPhase i _)
        (UInt32.ofNat data.length).toNat (Nat.le_add_left _ _) hsticks
        (hself (.cpuWriting (UInt32.ofNat address) data (UInt32.ofNat data.length) 0))
      exact call_of_endsAlone hidle rfl hends ⟨_, _, rfl, hwritten, rfl⟩
  | kernelMemory =>
    cases transfer with
    | read address count =>
      have hends := endsAlone_kmReadLoop count (Nat.le_add_left _ _)
        (hself (.kmReading address count []))
      refine call_of_endsAlone hidle rfl hends ⟨?_, rfl⟩
      simp [Memory.readFromSticks]
    | write address data =>
      cases data with
      | nil =>
        have hends := endsAlone_written (Nat.zero_le 0) (hself (.kmWriting address [] 0 0 0))
        exact call_of_endsAlone hidle (by simp [start]) hends ⟨true, rfl, rfl⟩
      | cons b bs =>
        cases hfind : Memory.findStick address s.sticks with
        | none =>
          refine ⟨0, s.finish i (.write address (b :: bs)) none, none, ?_, by simp [finish], rfl,
            false, ?_, rfl⟩
          · simp [execute, step, hidle, start, hfind]
          · simp [Memory.writeToSticks, hfind, finish]
        | some found =>
          obtain ⟨k, off⟩ := found
          have hends := endsAlone_kmWriteLoop (i := i) rfl
            (hself (.kmWriting address (b :: bs) k off 0))
          refine call_of_endsAlone hidle (by simp [start, hfind]) hends ⟨_, ?_, rfl⟩
          simp [Memory.writeToSticks, hfind]

end Alone

/-! ## As if at one go -/

section Runs

variable [DecidableEq ι] {sticks : List Stick} {s t : SharedSticks ι}

omit [DecidableEq ι] in
/-- Before the first transfer the invariant is about the sticks only. -/
lemma sound_init (hpos : ∀ stick ∈ sticks, 0 < stick.stickSize)
    (htotal : ((bytesOf sticks).length : ℤ) ≤ INT_MAX) :
    (init sticks : SharedSticks ι).Sound :=
  ⟨hpos, htotal, fun _ => trivial, by simp [init]⟩

/-- **A run over the sticks is one over the memory**, with a side condition of its own. -/
lemma run_pieces {ok : SharedSticks ι → Event ι → Prop}
    (ok' : PieceStore ι UInt8 → PieceStore.Event ι UInt8 → Prop)
    (hstart : ∀ s i side t, ok s (.start i side t) →
      t.Fits (bytesOf s.sticks).length ∧ ok' s.pieces (.start i t))
    (hround : ∀ s i n, ok' s (.piece i n) ∧ ok' s (.finish i))
    (h : Run step ok s t) (hs : s.Sound) :
    t.Sound ∧ Run PieceStore.step ok' s.pieces t.pieces := by
  induction h with
  | refl => exact ⟨hs, .refl⟩
  | @tail u u' e _ hok hst ih =>
    obtain ⟨hu, hrun⟩ := ih
    obtain ⟨hu', e', hmatches, hst'⟩ := step_pieces hu
      (fun i side transfer he => (hstart u i side transfer (he ▸ hok)).1) hst
    refine ⟨hu', .tail e' hrun ?_ hst'⟩
    cases e with
    | start i side transfer => exact hmatches ▸ (hstart u i side transfer hok).2
    | round i =>
      rcases hmatches with ⟨n, rfl⟩ | rfl
      · exact (hround _ i n).1
      · exact (hround _ i 0).2

omit [DecidableEq ι] in
/-- No transfer has failed. -/
lemma Sound.results_eq (hs : s.Sound) :
    s.results = s.pieces.answers.map fun answer => (answer.1, some answer.2) := by
  simp only [pieces, List.map_map]
  conv_lhs => rw [← List.map_id s.results]
  refine List.map_congr_left fun result hresult => ?_
  obtain ⟨bytes, hbytes⟩ := Option.isSome_iff_exists.1 (hs.results result hresult)
  simp only [id_eq, Function.comp_apply, hbytes, Option.getD_some]
  rw [← hbytes]

/-- **A transfer ends by its own rounds.** -/
lemma Sound.exists_rounds (hs : s.Sound) (i : ι) :
    ∃ n t, execute step s (List.replicate n (.round i)) = some t ∧ t.phase i = .idle := by
  -- by what is left to do of the transfer
  have hrounds : ∀ m, ∀ s : SharedSticks ι, s.Sound → ∀ o ∈ (s.phase i).ongoing,
      o.transfer.count - o.done < m →
      ∃ n t, execute step s (List.replicate n (.round i)) = some t ∧ t.phase i = .idle := by
    intro m
    induction m with
    | zero => exact fun s hs o ho hleft => absurd hleft (Nat.not_lt_zero _)
    | succ m ih =>
      intro s hs o ho hleft
      obtain ⟨s', hst⟩ : ∃ s', s.step (.round i) = some s' := by
        cases hphase : s.phase i with
        | idle =>
          rw [hphase] at ho
          exact absurd ho (by simp [Phase.ongoing])
        | _ => simp [step, hphase]
      have hs' := (step_pieces hs (fun j side u he => absurd he (by simp)) hst).1
      rcases round_effect hs hst with
        ⟨o', ho', hdone⟩ | ⟨o', ho', n, hn, hle, phase, hphase, _, _, _, _⟩
      · refine ⟨1, _, by rw [List.replicate_one, execute, hst]; rfl, ?_⟩
        simp [finish]
      · obtain rfl := Option.some.inj (ho.symm.trans ho')
        have hsame : (o.piece n (bytesOf s.sticks)).1.transfer = o.transfer ∧
            (o.piece n (bytesOf s.sticks)).1.done = o.done + n := by
          unfold Ongoing.piece
          split <;> exact ⟨rfl, rfl⟩
        obtain ⟨k, t, hrun, hidle⟩ := ih _ hs' (o.piece n (bytesOf s.sticks)).1
          (by simpa only [setPhase, Function.update_self, Option.mem_def] using hphase)
          (by rw [hsame.1, hsame.2]; omega)
        exact ⟨k + 1, t, by rw [List.replicate_succ, execute, hst]; exact hrun, hidle⟩
  cases hongoing : (s.phase i).ongoing with
  | none => exact ⟨0, s, rfl, Phase.eq_idle_iff.1 hongoing⟩
  | some o => exact hrounds _ s hs o hongoing (Nat.lt_succ_self _)

/-- Nothing is put into the order but at its end. -/
lemma order_prefix_of_step {e : Event ι} (hst : s.step e = some t) : s.order <+: t.order := by
  cases e with
  | start i side transfer =>
    obtain ⟨-, heq⟩ := Option.ite_none_right_eq_some.1 hst
    obtain rfl := Option.some.inj heq
    unfold start
    split
    · exact List.prefix_rfl
    · exact List.prefix_rfl
    · exact List.prefix_rfl
    · split
      · exact List.prefix_rfl
      · exact List.prefix_append _ _
      · exact List.prefix_rfl
  | round i =>
    simp only [step] at hst
    split at hst
    · exact absurd hst (by simp)
    · obtain rfl := Option.some.inj hst
      unfold cpuReadRound
      split
      · exact List.prefix_append _ _
      · split
        · exact List.prefix_append _ _
        · exact List.prefix_rfl
    · obtain rfl := Option.some.inj hst
      unfold cpuWriteRound
      split
      · exact List.prefix_append _ _
      · split
        · exact List.prefix_append _ _
        · exact List.prefix_rfl
    · obtain rfl := Option.some.inj hst
      unfold kmReadRound
      split
      · exact List.prefix_append _ _
      · split
        · exact List.prefix_append _ _
        · split
          · exact List.prefix_append _ _
          · exact List.prefix_rfl
    · obtain rfl := Option.some.inj hst
      unfold kmWriteRound
      split
      · exact List.prefix_append _ _
      · split
        · exact List.prefix_append _ _
        · exact List.prefix_rfl

/-- Nor over a run. -/
lemma order_prefix_of_run {ok : SharedSticks ι → Event ι → Prop} (h : Run step ok s t) :
    s.order <+: t.order :=
  Run.invariant (I := fun t => s.order <+: t.order) h List.prefix_rfl
    fun _ _ _ hprefix _ hst => hprefix.trans (order_prefix_of_step hst)

/-- **Transfers that do not conflict are as if each had been performed at one go.** However the
rounds of the CPUs and of Kernel Memory come one after another: the transfers that have ended,
performed at one go and in the order in which they ended, on the memory that the sticks are
together, return what they have returned; when nobody is at work the sticks are the memory that they
lead to; the order only grows at its end; and a transfer ends by its own rounds.

**Proof sketch.** A round performs the next piece of a transfer of the whole memory. What is left is
the general fact about transfers in pieces. -/
theorem transfers_linear (hpos : ∀ stick ∈ sticks, 0 < stick.stickSize)
    (htotal : ((bytesOf sticks).length : ℤ) ≤ INT_MAX) (h : Run step Apart (init sticks) s) :
    (∃ answers memory,
      performAll Transfer.perform s.order (bytesOf sticks) = some (answers, memory) ∧
      s.results = answers.map (fun answer => (answer.1, some answer.2)) ∧
      ((∀ i, s.phase i = .idle) → bytesOf s.sticks = memory)) ∧
    (∀ t, Run step Apart s t → s.order <+: t.order) ∧
    ∀ i, ∃ n t, execute step s (List.replicate n (.round i)) = some t ∧ t.phase i = .idle := by
  obtain ⟨hs, hrun⟩ := run_pieces PieceStore.Apart
    (fun s i side t hok => hok) (fun s i n => ⟨trivial, trivial⟩) h (sound_init hpos htotal)
  obtain ⟨memory, hexplained⟩ := PieceStore.explained_of_run hrun
  refine ⟨⟨s.pieces.answers, memory, hexplained.performed, hs.results_eq, fun hidle => ?_⟩,
    fun t ht => order_prefix_of_run ht, hs.exists_rounds⟩
  refine List.ext_getElem? fun x => hexplained.outside x fun i o ho => ?_
  rw [show s.pieces.ongoing i = none from Phase.eq_idle_iff.2 (hidle i)] at ho
  exact absurd ho (by simp)

/-- **Each process has the memory for itself.** Where the parts of the processes do not meet and
every transfer is in the part of its process, as those of the segments are, what has been read for a
process, and what its part holds when nothing is going on for it, is what its own transfers give
when they are performed alone and at one go, whatever is done for the others meanwhile. -/
theorem own_memory (hpos : ∀ stick ∈ sticks, 0 < stick.stickSize)
    (htotal : ((bytesOf sticks).length : ℤ) ≤ INT_MAX) {region : ι → Set ℕ}
    (hdisjoint : ∀ i j, i ≠ j → Disjoint (region i) (region j))
    (h : Run step (Inside region) (init sticks) s) (i : ι) :
    ∃ answers memory, performAll Transfer.perform (s.order.filter fun entry => entry.1 = i)
        (bytesOf sticks) = some (answers, memory) ∧
      (s.results.filter fun result => result.1 = i) =
        answers.map (fun answer => (answer.1, some answer.2)) ∧
      (s.phase i = .idle → ∀ x ∈ region i, (bytesOf s.sticks)[x]? = memory[x]?) := by
  obtain ⟨hs, hrun⟩ := run_pieces (PieceStore.Inside region)
    (fun s i side t hok => hok) (fun s i n => ⟨trivial, trivial⟩) h (sound_init hpos htotal)
  obtain ⟨memory, hperformed, hcells⟩ := PieceStore.own_of_run hdisjoint hrun i
  refine ⟨_, memory, hperformed, ?_, fun hidle => hcells (Phase.eq_idle_iff.2 hidle)⟩
  rw [hs.results_eq, List.filter_map]
  rfl

/-- A CPU writes two bytes of a process to both sides of a boundary, and Kernel Memory reads the
first two for another process between the two rounds. -/
def writeAround : List (Event Bool) :=
  [.round true, .round false, .round false, .round true, .round true]

/-- The bytes of the two processes. -/
def halves : Bool → Set ℕ
  | false => {x | x < 2}
  | true => {x | 2 ≤ x}

/-- The run ends with both transfers done. -/
lemma run_writeAround (ok : SharedSticks Bool → Event Bool → Prop)
    (hround : ∀ s i, ok s (.round i))
    (hwrite : ok (init spanningSticks) (.start true .cpu (.write 2 [8, 9])))
    (hread : ok ((init spanningSticks : SharedSticks Bool).setPhase true
      (.cpuWriting 2 [8, 9] 2 0)) (.start false .kernelMemory (.read 0 2))) :
    ∃ s, Run step ok (init spanningSticks) s ∧ (∀ i, s.phase i = .idle) ∧
      s.results = [(false, some [1, 2]), (true, some [])] := by
  have htest : (execute step (((init spanningSticks : SharedSticks Bool).setPhase true
      (.cpuWriting 2 [8, 9] 2 0)).setPhase false (.kmReading 0 2 [])) writeAround).any (fun s =>
        decide (s.phase false = .idle ∧ s.phase true = .idle ∧
          s.results = [(false, some [1, 2]), (true, some [])])) = true := by decide +kernel
  obtain ⟨s, hs, htest⟩ := (Option.any_eq_true _ _).1 htest
  obtain ⟨hfalse, htrue, hresults⟩ := of_decide_eq_true htest
  have hrounds : Run step ok _ s := Run.of_execute_of_forall hs fun e he u => by
    simp only [writeAround, List.mem_cons, List.not_mem_nil, or_false] at he
    rcases he with rfl | rfl | rfl | rfl | rfl <;> exact hround _ _
  refine ⟨s, .head _ hwrite rfl (.head _ hread rfl hrounds), fun i => ?_, hresults⟩
  cases i with
  | false => exact hfalse
  | true => exact htrue

/-- The order is that of the ends: the read is performed before the write. -/
theorem transfers_linear_writeAround : ∃ s : SharedSticks Bool,
    s.results = [(false, some [1, 2]), (true, some [])] ∧
    (∃ answers memory,
      performAll Transfer.perform s.order [1, 2, 3, 4, 5] = some (answers, memory) ∧
      s.results = answers.map (fun answer => (answer.1, some answer.2)) ∧
      ((∀ i, s.phase i = .idle) → bytesOf s.sticks = memory)) ∧
    (∀ t, Run step Apart s t → s.order <+: t.order) ∧
    ∀ i, ∃ n t, execute step s (List.replicate n (.round i)) = some t ∧ t.phase i = .idle := by
  have hread : ∀ j : Bool, j ≠ false → ∀ o ∈ ((init spanningSticks).setPhase true
      (.cpuWriting 2 [8, 9] 2 0)).phase j |>.ongoing,
      ¬ (Transfer.read 0 2 : Transfer UInt8).Conflicts o.transfer := by
    rintro (- | -) hj o ho
    · exact absurd rfl hj
    · obtain rfl := Option.some.inj ho
      decide
  obtain ⟨s, hrun, -, hresults⟩ := run_writeAround Apart (fun _ _ => trivial)
    ⟨by decide, fun _ _ o ho => absurd ho (by simp [init, Phase.ongoing])⟩ ⟨by decide, hread⟩
  exact ⟨s, hresults, transfers_linear (by decide) (by decide) hrun⟩

/-- The read in the middle changes nothing for the process that writes. -/
theorem own_memory_writeAround : ∃ s : SharedSticks Bool, s.phase true = .idle ∧
    ∃ answers memory, performAll Transfer.perform (s.order.filter fun entry => entry.1 = true)
        [1, 2, 3, 4, 5] = some (answers, memory) ∧
      (s.results.filter fun result => result.1 = true) =
        answers.map (fun answer => (answer.1, some answer.2)) ∧
      (s.phase true = .idle → ∀ x ∈ halves true, (bytesOf s.sticks)[x]? = memory[x]?) := by
  have hdisjoint : ∀ i j, i ≠ j → Disjoint (halves i) (halves j) := by
    rintro (- | -) (- | -) hij
    · exact absurd rfl hij
    · exact Set.disjoint_left.2 fun x (hx : x < 2) (hx' : 2 ≤ x) => by omega
    · exact Set.disjoint_left.2 fun x (hx : 2 ≤ x) (hx' : x < 2) => by omega
    · exact absurd rfl hij
  obtain ⟨s, hrun, hidle, -⟩ := run_writeAround (Inside halves) (fun _ _ => trivial)
    ⟨by decide, fun x hx => hx.1⟩ ⟨by decide, fun x hx => hx.2⟩
  exact ⟨s, hidle _, own_memory (by decide) (by decide) hdisjoint hrun true⟩

end Runs

end SharedSticks

end OsSimulator
