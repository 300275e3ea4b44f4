import OsSimulator.Memory.Translation

set_option relaxedAutoImplicit false
set_option autoImplicit false

/-!
# Standard input and output

`handle_stdin_request` and `handle_stdout_request` of `scheduler_listener.c`: Kernel Memory
translates the address and writes or reads the bytes itself. Neither handler compares the count
with the size of the segment, which is passed to `translate_logical_address` and not looked at
there. So a request stays inside the caller's segment exactly when it was within it.

## Main definitions

* `handleStdinRequest`, `handleStdoutRequest` — the handlers, with the packets they send the sticks.
* `StickPacket.addresses` — the physical bytes a packet is about.
* `Confined` — only bytes of the process are touched, and a range that does not fit is refused.

## Main results

* `readFromSticks_eq_packets`, `writeToSticks_eq_packets` — a transfer is its packets.
* `mem_addresses_readPackets`, `mem_addresses_writePackets` — a transfer touches its range only.
* `io_confined_iff` — the requests that are confined.
* `io_not_confined` — a process writes to the memory of another one.
-/

namespace OsSimulator.Memory

/-! ## The packets of a transfer -/

/-- A read or a write packet of a stick: the bytes from an offset of the stick. -/
structure StickPacket where
  stick : ℕ
  offset : ℕ
  count : ℕ
  deriving DecidableEq, Repr

/-- The physical addresses a packet is about. -/
def StickPacket.addresses (sticks : List Stick) (packet : StickPacket) : Set ℤ :=
  let start := (bytesOf (sticks.take packet.stick)).length + packet.offset
  {a | (start : ℤ) ≤ a ∧ a < start + packet.count}

/-- The packets of the rounds of `read_from_sticks`. -/
def readPacketsLoop (sticks : List Stick) : ℕ → ℤ → ℕ → List StickPacket
  | _, _, 0 => []
  | 0, _, _ + 1 => []
  | rounds + 1, currentAddress, remaining + 1 =>
    match findStick currentAddress sticks with
    | none => []
    | some (index, stickOffset) =>
      match sticks[index]? with
      | none => []
      | some stick =>
        let bytesToReadCount := stickChunkSize stick stickOffset (remaining + 1)
        ⟨index, stickOffset, bytesToReadCount⟩ ::
          readPacketsLoop sticks rounds (currentAddress + bytesToReadCount)
            (remaining + 1 - bytesToReadCount)

/-- The packets of `read_from_sticks`. -/
def readPackets (physicalAddress : ℤ) (size : ℕ) (sticks : List Stick) : List StickPacket :=
  readPacketsLoop sticks size physicalAddress size

/-- The packets of the rounds of `write_to_sticks`, from the stick with number `index` on. -/
def writePacketsLoop : ℕ → ℕ → ℕ → List Stick → List StickPacket
  | _, _, 0, _ => []
  | _, _, _ + 1, [] => []
  | index, currentOffset, remaining + 1, currentStick :: rest =>
    let toWrite := stickChunkSize currentStick currentOffset (remaining + 1)
    ⟨index, currentOffset, toWrite⟩ ::
      writePacketsLoop (index + 1) 0 (remaining + 1 - toWrite) rest

/-- The packets of `write_to_sticks`. -/
def writePackets (physicalAddress : ℤ) (bytesToRead : ℕ) (sticks : List Stick) :
    List StickPacket :=
  match findStick physicalAddress sticks with
  | none => []
  | some (index, stickOffset) =>
    writePacketsLoop index stickOffset bytesToRead (sticks.drop index)

/-! ## The packets and the transfers -/

/-- The bytes that a read packet is answered with. -/
def StickPacket.bytes (sticks : List Stick) (packet : StickPacket) : List UInt8 :=
  match sticks[packet.stick]? with
  | none => []
  | some stick => slice stick.memory packet.offset packet.count

/-- What a write packet does: its stick stores the first bytes of the buffer, which are gone
then. -/
def StickPacket.write (state : List Stick × List UInt8) (packet : StickPacket) :
    List Stick × List UInt8 :=
  (state.1.modify packet.stick fun stick =>
      ⟨splice stick.memory packet.offset (state.2.take packet.count)⟩,
    state.2.drop packet.count)

/-- The rounds of `read_from_sticks` are its packets: it returns their bytes one behind the other,
unless they are too few.

**Proof sketch.** Induction on the rounds; a round and its packet are about the same bytes. -/
lemma readLoop_eq_packets (sticks : List Stick) (rounds : ℕ) (address : ℤ) (remaining : ℕ) :
    readLoop sticks rounds address remaining =
      if ((readPacketsLoop sticks rounds address remaining).map StickPacket.count).sum = remaining
      then some ((readPacketsLoop sticks rounds address remaining).flatMap
        (StickPacket.bytes sticks))
      else none := by
  induction rounds generalizing address remaining with
  | zero => cases remaining <;> simp [readLoop, readPacketsLoop]
  | succ rounds ih =>
    cases remaining with
    | zero => simp [readLoop, readPacketsLoop]
    | succ remaining =>
      rw [readLoop, readPacketsLoop]
      cases hfind : findStick address sticks with
      | none => simp
      | some found =>
        obtain ⟨index, stickOffset⟩ := found
        cases hget : sticks[index]? with
        | none => simp [hget]
        | some stick =>
          have hchunk : stickChunkSize stick stickOffset (remaining + 1) ≤ remaining + 1 :=
            min_le_left _ _
          have hbytes : StickPacket.bytes sticks ⟨index, stickOffset,
              stickChunkSize stick stickOffset (remaining + 1)⟩ = slice stick.memory stickOffset
                (stickChunkSize stick stickOffset (remaining + 1)) := by
            simp only [StickPacket.bytes, hget]
          simp only [hget, ih, List.map_cons, List.sum_cons, List.flatMap_cons, hbytes]
          generalize readPacketsLoop sticks rounds _ _ = packets
          by_cases hall : (packets.map StickPacket.count).sum =
              remaining + 1 - stickChunkSize stick stickOffset (remaining + 1)
          · rw [if_pos hall, if_pos (by omega), Option.map_some]
          · rw [if_neg hall, if_neg (by omega), Option.map_none]

/-- **A read is its packets.** -/
theorem readFromSticks_eq_packets (physicalAddress : ℤ) (size : ℕ) (sticks : List Stick) :
    readFromSticks physicalAddress size sticks =
      if ((readPackets physicalAddress size sticks).map StickPacket.count).sum = size
      then some ((readPackets physicalAddress size sticks).flatMap (StickPacket.bytes sticks))
      else none :=
  readLoop_eq_packets sticks size physicalAddress size

/-- The rounds of `write_to_sticks` are its packets, from the stick that `before` ends in front of
on: they store the buffer until the sticks end.

**Proof sketch.** Induction on the sticks that are left; the packet of a round changes the first of
them. -/
lemma writeLoop_eq_packets (before rest : List Stick) (offset : ℕ) (bs : List UInt8) :
    ((writePacketsLoop before.length offset bs.length rest).foldl StickPacket.write
        (before ++ rest, bs)).1 = before ++ (writeLoop offset bs rest).2 ∧
      (((writePacketsLoop before.length offset bs.length rest).foldl StickPacket.write
        (before ++ rest, bs)).2 = [] ↔ (writeLoop offset bs rest).1 = true) := by
  induction rest generalizing before offset bs with
  | nil => cases bs <;> simp [writePacketsLoop, writeLoop]
  | cons stick rest ih =>
    cases bs with
    | nil => simp [writePacketsLoop, writeLoop]
    | cons b bs =>
      rw [List.length_cons, writePacketsLoop, writeLoop]
      dsimp only
      generalize stickChunkSize stick offset (bs.length + 1) = toWrite
      have hwrite : StickPacket.write (before ++ stick :: rest, b :: bs)
          ⟨before.length, offset, toWrite⟩ =
            ((before ++ [⟨splice stick.memory offset ((b :: bs).take toWrite)⟩]) ++ rest,
              (b :: bs).drop toWrite) := by
        have hmodify := List.modifyTailIdx_add (List.modifyHead fun stick : Stick =>
          ⟨splice stick.memory offset ((b :: bs).take toWrite)⟩) 0 before (stick :: rest)
        rw [Nat.add_zero] at hmodify
        simp only [StickPacket.write, List.modify, hmodify, List.append_assoc]
        rfl
      have hrest := ih (before ++ [⟨splice stick.memory offset ((b :: bs).take toWrite)⟩]) 0
        ((b :: bs).drop toWrite)
      rw [List.length_drop, List.length_cons, List.length_append, List.length_singleton] at hrest
      rw [List.foldl_cons, hwrite]
      simpa using hrest

/-- **A write is its packets**, and it succeeds when they take the whole buffer. -/
theorem writeToSticks_eq_packets (physicalAddress : ℤ) (writeBuffer : List UInt8)
    (sticks : List Stick) :
    ((writePackets physicalAddress writeBuffer.length sticks).foldl StickPacket.write
        (sticks, writeBuffer)).1 = (writeToSticks physicalAddress writeBuffer sticks).2 ∧
      (((writePackets physicalAddress writeBuffer.length sticks).foldl StickPacket.write
        (sticks, writeBuffer)).2 = [] ↔
          (writeToSticks physicalAddress writeBuffer sticks).1 = true) := by
  unfold writePackets writeToSticks
  cases writeBuffer with
  | nil =>
    cases findStick physicalAddress sticks with
    | none => simp
    | some found => simp [writePacketsLoop]
  | cons b bs =>
    cases hfind : findStick physicalAddress sticks with
    | none => simp
    | some found =>
      obtain ⟨index, stickOffset⟩ := found
      obtain ⟨stick, hget, -⟩ := exists_of_findStick hfind
      have htake : (sticks.take index).length = index :=
        List.length_take_of_le (List.getElem?_eq_some_iff.1 hget).1.le
      have hloop :=
        writeLoop_eq_packets (sticks.take index) (sticks.drop index) stickOffset (b :: bs)
      rw [htake, List.take_append_drop] at hloop
      exact hloop

/-! ## The handlers -/

/-- The bytes of a message text. -/
def textBytes (text : String) : List UInt8 := text.toList.map fun c => c.val.toUInt8

/-- A message of the two handlers. -/
inductive IoMessage
  | stdinResponse (text : List UInt8)
  | stdoutResponse (text : List UInt8)
  | memoryCorrupted (text : List UInt8)
  deriving DecidableEq, Repr

/-- What a handler has done: what it sent the scheduler and the sticks, the sticks afterwards, and
whether the listener goes on. -/
structure IoOutcome where
  messages : List IoMessage
  packets : List StickPacket
  connectedSticks : List Stick
  connectionAlive : Bool
  deriving DecidableEq, Repr

/-- `handle_stdin_request`. The count becomes an `int`; a negative one makes `calloc` return a null
pointer, to which the text is copied unless it is empty. -/
def handleStdinRequest (pid : ℕ) (bytesToRead logicalAddress : UInt32) (writeBuffer : List UInt8)
    (k : KernelMemory) : Option IoOutcome :=
  (translateLogicalAddress pid logicalAddress k.mainMemory).bind fun physicalAddress =>
    if physicalAddress = -1 then
      some ⟨[.stdinResponse (textBytes "Segmentation Fault")], [], k.connectedSticks, true⟩
    else
      let requestedSize := i32 bytesToRead.toNat
      let text := writeBuffer.takeWhile (· ≠ 0)
      if requestedSize < 0 then
        if text = [] then
          some ⟨[.stdinResponse (textBytes "Memory written")], [], k.connectedSticks, true⟩
        else none
      else
        let validBytes := text.take requestedSize.toNat
        let safeBuffer :=
          validBytes ++ List.replicate (requestedSize.toNat - validBytes.length) 0
        let written := writeToSticks physicalAddress safeBuffer k.connectedSticks
        let packets := writePackets physicalAddress requestedSize.toNat k.connectedSticks
        if written.1 then
          some ⟨[.stdinResponse (textBytes "Memory written")], packets, written.2, true⟩
        else
          some ⟨[.memoryCorrupted (textBytes "Stick not available")], packets, written.2, false⟩

/-- `handle_stdout_request`. The bytes that were read are sent as a string, so what follows them in
the allocation, `leftovers`, is sent up to the first zero. A negative count allocates nothing. -/
def handleStdoutRequest (pid : ℕ) (bytesToWrite logicalAddress : UInt32) (leftovers : List UInt8)
    (k : KernelMemory) : Option IoOutcome :=
  (translateLogicalAddress pid logicalAddress k.mainMemory).bind fun physicalAddress =>
    if physicalAddress = -1 then
      some ⟨[.stdoutResponse (textBytes "Segmentation Fault")], [], k.connectedSticks, true⟩
    else
      let size := i32 bytesToWrite.toNat
      let packets := readPackets physicalAddress size.toNat k.connectedSticks
      let buffer :=
        if size < 0 then none else readFromSticks physicalAddress size.toNat k.connectedSticks
      match buffer with
      | none =>
        some ⟨[.stdoutResponse (textBytes "Stick read error")], packets, k.connectedSticks, false⟩
      | some bytes =>
        some ⟨[.stdoutResponse ((bytes ++ leftovers).takeWhile (· ≠ 0))], packets,
          k.connectedSticks, true⟩

/-! ## What a transfer touches -/

/-- The packets of the rounds of `read_from_sticks` are about the range that is left.

**Proof sketch.** Induction on the rounds; a round's packet starts at the current address
(`findStick_of_lt`), and the rest of the range starts behind it. -/
lemma mem_addresses_readPacketsLoop {sticks : List Stick} {rounds remaining : ℕ} {address : ℤ}
    {packet : StickPacket} (h : packet ∈ readPacketsLoop sticks rounds address remaining) {a : ℤ}
    (ha : a ∈ packet.addresses sticks) : address ≤ a ∧ a < address + remaining := by
  induction rounds generalizing address remaining with
  | zero => cases remaining <;> simp [readPacketsLoop] at h
  | succ rounds ih =>
    cases remaining with
    | zero => simp [readPacketsLoop] at h
    | succ remaining =>
      by_cases hneg : address < 0
      · rw [readPacketsLoop, findStick, findStickFrom_of_neg sticks 0 hneg] at h
        simp at h
      · obtain ⟨k, rfl⟩ := Int.eq_ofNat_of_zero_le (not_lt.1 hneg)
        by_cases hk : k < (bytesOf sticks).length
        · obtain ⟨i, off, stick, hfind, hget, hoff, hpos⟩ := findStick_of_lt hk
          simp only [readPacketsLoop, hfind, hget] at h
          have hchunk : stickChunkSize stick off (remaining + 1) ≤ remaining + 1 := min_le_left _ _
          rcases List.mem_cons.1 h with rfl | h
          · obtain ⟨hlow, hhigh⟩ := ha
            simp only at hlow hhigh
            omega
          · have := ih h
            omega
        · rw [readPacketsLoop, findStick_of_ge (not_lt.1 hk)] at h
          simp at h

/-- A read touches its range only. -/
theorem mem_addresses_readPackets {sticks : List Stick} {address : ℤ} {size : ℕ}
    {packet : StickPacket} (h : packet ∈ readPackets address size sticks) {a : ℤ}
    (ha : a ∈ packet.addresses sticks) : address ≤ a ∧ a < address + size :=
  mem_addresses_readPacketsLoop h ha

/-- The packets of the rounds of `write_to_sticks` are about the range that is left.

**Proof sketch.** Induction on the sticks. The packet of the current stick is the start of the
range, and when something is left the packet ends with the stick, where the next one starts. -/
lemma mem_addresses_writePacketsLoop {sticks : List Stick} {index offset remaining : ℕ}
    (hoff : ∀ s ∈ (sticks.drop index).head?, offset ≤ s.stickSize)
    {packet : StickPacket}
    (h : packet ∈ writePacketsLoop index offset remaining (sticks.drop index)) {a : ℤ}
    (ha : a ∈ packet.addresses sticks) :
    ((bytesOf (sticks.take index)).length + offset : ℤ) ≤ a ∧
      a < (bytesOf (sticks.take index)).length + offset + remaining := by
  induction hrest : sticks.drop index generalizing index offset remaining with
  | nil =>
    rw [hrest] at h
    cases remaining <;> simp [writePacketsLoop] at h
  | cons s rest ih =>
    rw [hrest] at h hoff
    cases remaining with
    | zero => simp [writePacketsLoop] at h
    | succ remaining =>
      have hs : offset ≤ s.stickSize := hoff s (by simp)
      have hget : sticks[index]? = some s := by
        rw [← List.head?_drop, hrest]
        rfl
      have hdrop : sticks.drop (index + 1) = rest := by
        rw [← List.tail_drop, hrest]
        rfl
      have hnext : (bytesOf (sticks.take (index + 1))).length =
          (bytesOf (sticks.take index)).length + s.stickSize := by
        rw [List.take_add_one, hget, bytesOf_append, List.length_append]
        simp [Stick.stickSize]
      simp only [writePacketsLoop] at h
      rcases List.mem_cons.1 h with rfl | h
      · obtain ⟨hlow, hhigh⟩ := ha
        simp only [stickChunkSize] at hlow hhigh
        omega
      · rw [← hdrop] at h
        have hrange := ih (fun _ _ => Nat.zero_le _) h hdrop
        rw [hnext] at hrange
        -- something is left, so the packet went to the end of the stick
        have hleft : remaining + 1 - stickChunkSize s offset (remaining + 1) ≠ 0 := by
          intro hzero
          rw [hzero, hdrop] at h
          cases rest <;> simp [writePacketsLoop] at h
        simp only [stickChunkSize] at hrange hleft
        omega

/-- A write touches its range only. -/
theorem mem_addresses_writePackets {sticks : List Stick} {address : ℤ} {size : ℕ}
    {packet : StickPacket} (h : packet ∈ writePackets address size sticks) {a : ℤ}
    (ha : a ∈ packet.addresses sticks) : address ≤ a ∧ a < address + size := by
  by_cases hneg : address < 0
  · rw [writePackets, findStick, findStickFrom_of_neg sticks 0 hneg] at h
    simp at h
  · obtain ⟨k, rfl⟩ := Int.eq_ofNat_of_zero_le (not_lt.1 hneg)
    by_cases hk : k < (bytesOf sticks).length
    · obtain ⟨i, off, stick, hfind, hget, hoff, hpos⟩ := findStick_of_lt hk
      have hhead : ∀ s ∈ (sticks.drop i).head?, off ≤ s.stickSize := by
        intro s hs
        rw [List.head?_drop, hget] at hs
        obtain rfl := Option.some.inj hs
        exact hoff.le
      simp only [writePackets, hfind] at h
      have hrange := mem_addresses_writePacketsLoop hhead h ha
      omega
    · rw [writePackets, findStick_of_ge (not_lt.1 hk)] at h
      simp at h

/-! ## Confinement -/

/-- The segments have the base and the size of C: an `int` each. -/
def CInts (m : MainMemory) : Prop :=
  ∀ s ∈ m.segments, INT_MIN ≤ s.base ∧ s.base ≤ INT_MAX ∧ s.size ≤ INT_MAX

/-- The physical byte belongs to a segment of the process. -/
def OwnsByte (pid : ℕ) (m : MainMemory) (a : ℤ) : Prop :=
  ∃ s ∈ m.segments, s.pid = pid ∧ s.base ≤ a ∧ a < s.base + s.size

/-- The range of a request lies in the segment its address names. -/
def FitsInSegment (pid : ℕ) (count logicalAddress : UInt32) (m : MainMemory) : Prop :=
  let segMax := UInt32.ofInt m.maxSegmentSize
  segMax ≠ 0 ∧ ∃ s ∈ findSegment m pid (logicalAddress / segMax).toNat,
    ((logicalAddress % segMax).toNat + count.toNat : ℤ) ≤ s.size

/-- The handler touches only bytes of the process, and it answers a request that does not fit with
a segmentation fault and leaves the memory alone. -/
structure Confined (pid : ℕ) (count logicalAddress : UInt32) (segmentationFault : IoMessage)
    (k : KernelMemory) (outcome : Option IoOutcome) : Prop where
  inside : ∀ o ∈ outcome, ∀ packet ∈ o.packets, ∀ a ∈ packet.addresses k.connectedSticks,
    OwnsByte pid k.mainMemory a
  refused : ¬ FitsInSegment pid count logicalAddress k.mainMemory →
    ∃ o ∈ outcome, o.messages = [segmentationFault] ∧ o.connectedSticks = k.connectedSticks

/-- A `STDIN` request is confined, whatever the sticks and the text are. -/
def StdinConfined (pid : ℕ) (count logicalAddress : UInt32) (k : KernelMemory) : Prop :=
  ∀ (sticks : List Stick) (writeBuffer : List UInt8),
    Confined pid count logicalAddress (.stdinResponse (textBytes "Segmentation Fault"))
      { k with connectedSticks := sticks }
      (handleStdinRequest pid count logicalAddress writeBuffer
        { k with connectedSticks := sticks })

/-- A `STDOUT` request is confined, whatever the sticks and the leftovers of the allocation are. -/
def StdoutConfined (pid : ℕ) (count logicalAddress : UInt32) (k : KernelMemory) : Prop :=
  ∀ (sticks : List Stick) (leftovers : List UInt8),
    Confined pid count logicalAddress (.stdoutResponse (textBytes "Segmentation Fault"))
      { k with connectedSticks := sticks }
      (handleStdoutRequest pid count logicalAddress leftovers { k with connectedSticks := sticks })

/-- No segment is found, the range fits in the one that is, or the address computed in it is the
`-1` that means none. -/
def FoundOnlyIfFits (pid : ℕ) (count logicalAddress : UInt32) (m : MainMemory) : Prop :=
  let segMax := UInt32.ofInt m.maxSegmentSize
  segMax ≠ 0 ∧ ∀ s ∈ findSegment m pid (logicalAddress / segMax).toNat,
    ((logicalAddress % segMax).toNat + count.toNat : ℤ) ≤ s.size ∨
      i32 (s.base + (logicalAddress % segMax).toNat) = -1

/-- The segment that `find_segment` finds is one of the process. -/
lemma mem_of_findSegment {m : MainMemory} {pid n : ℕ} {s : Segment}
    (h : findSegment m pid n = some s) : s ∈ m.segments ∧ s.pid = pid := by
  rw [findSegment_eq] at h
  simpa [filterProcessSegments] using List.mem_of_getElem? h

/-- The translation by its result: the division by zero; the `-1`; or an address, in front of which
lies a range of the process if it fits in the segment. A part of such a range below zero is no
address. -/
lemma translateLogicalAddress_cases (pid : ℕ) (count logicalAddress : UInt32) {m : MainMemory}
    (hints : CInts m) :
    (translateLogicalAddress pid logicalAddress m = none ∧
        ¬ FoundOnlyIfFits pid count logicalAddress m ∧
        ¬ FitsInSegment pid count logicalAddress m) ∨
      (translateLogicalAddress pid logicalAddress m = some (-1) ∧
        FoundOnlyIfFits pid count logicalAddress m) ∨
      ∃ p, p ≠ -1 ∧ translateLogicalAddress pid logicalAddress m = some p ∧
        (FoundOnlyIfFits pid count logicalAddress m ↔
          FitsInSegment pid count logicalAddress m) ∧
        (FitsInSegment pid count logicalAddress m → count.toNat ≤ INT_MAX ∧
          ∀ a, p ≤ a → a < p + count.toNat → 0 ≤ a → OwnsByte pid m a) := by
  unfold translateLogicalAddress FoundOnlyIfFits FitsInSegment
  dsimp only
  by_cases hmax : UInt32.ofInt m.maxSegmentSize = 0
  · left
    simp [hmax]
  · right
    cases hfind : findSegment m pid (logicalAddress / UInt32.ofInt m.maxSegmentSize).toNat with
    | none =>
      left
      simp [hmax]
    | some s =>
      obtain ⟨hs, hpid⟩ := mem_of_findSegment hfind
      obtain ⟨hlow, hhigh, hsize⟩ := hints s hs
      set o := (logicalAddress % UInt32.ofInt m.maxSegmentSize).toNat
      by_cases hrefused : i32 (s.base + o) = -1
      · left
        simp [hmax, hrefused]
      · right
        refine ⟨i32 (s.base + o), hrefused, by simp [hmax], by simp [hmax, hrefused], ?_⟩
        rintro ⟨-, s', hs', hfits⟩
        obtain rfl : s = s' := Option.some.inj hs'
        refine ⟨by omega, fun a ha ha' hpos => ⟨s, hs, hpid, ?_⟩⟩
        rw [i32, Int.bmod_def] at ha ha'
        unfold INT_MAX at hhigh hsize
        unfold INT_MIN at hlow
        split at ha <;> omega

/-- A count that fits in a segment is not negative as an `int`. -/
lemma i32_count {count : UInt32} (h : (count.toNat : ℤ) ≤ INT_MAX) :
    i32 count.toNat = count.toNat :=
  i32_of_nonneg (Int.natCast_nonneg _) h

/-- The addresses of a packet are not negative. -/
lemma nonneg_of_mem_addresses {sticks : List Stick} {packet : StickPacket} {a : ℤ}
    (h : a ∈ packet.addresses sticks) : 0 ≤ a := by
  obtain ⟨hlow, -⟩ := h
  omega

/-- Without sticks a read returns nothing. -/
lemma eq_nil_of_readFromSticks_nil {address : ℤ} {size : ℕ} {bytes : List UInt8}
    (h : readFromSticks address size [] = some bytes) : bytes = [] := by
  cases size with
  | zero => exact (Option.some.inj h).symm
  | succ size => simp [readFromSticks, readLoop, findStick, findStickFrom] at h

/-- The `STDIN` requests that are confined.

**Proof sketch.** A refusal touches nothing. Otherwise the range is written: if it fits in the
segment it belongs to the process, and if it does not the answer is not a segmentation fault. -/
lemma stdin_confined_iff {pid : ℕ} {count logicalAddress : UInt32} {k : KernelMemory}
    (hints : CInts k.mainMemory) :
    StdinConfined pid count logicalAddress k ↔
      FoundOnlyIfFits pid count logicalAddress k.mainMemory := by
  unfold StdinConfined handleStdinRequest
  rcases translateLogicalAddress_cases pid count logicalAddress hints with
    ⟨htranslate, hnot, hfits⟩ | ⟨htranslate, hok⟩ | ⟨p, hp, htranslate, hiff, hrange⟩
  · simp only [htranslate, Option.bind_none, hnot, iff_false]
    intro h
    obtain ⟨o, ho, -⟩ := (h [] []).refused hfits
    simp at ho
  · simp only [htranslate, Option.bind_some, if_true, hok, iff_true]
    intro sticks writeBuffer
    refine ⟨fun o ho packet hpacket => ?_, fun _ => ⟨_, rfl, rfl, rfl⟩⟩
    obtain rfl := Option.some.inj ho
    simp at hpacket
  · simp only [htranslate, Option.bind_some, if_neg hp, hiff]
    constructor
    · intro h
      by_contra hfits
      obtain ⟨o, ho, hmessages, -⟩ := (h [] []).refused hfits
      split at ho
      · obtain rfl := Option.some.inj ho
        exact absurd (List.cons.inj hmessages).1 (by decide)
      · split at ho
        · obtain rfl := Option.some.inj ho
          exact absurd (List.cons.inj hmessages).1 (by decide)
        · obtain rfl := Option.some.inj ho
          exact absurd (List.cons.inj hmessages).1 (by decide)
    · intro hfits sticks writeBuffer
      obtain ⟨hcount, hown⟩ := hrange hfits
      refine ⟨fun o ho packet hpacket a ha => ?_, fun hnot => absurd hfits hnot⟩
      rw [i32_count hcount, if_neg (by omega)] at ho
      have hpackets : packet ∈ writePackets p count.toNat sticks := by
        split at ho
        · obtain rfl := Option.some.inj ho
          exact hpacket
        · obtain rfl := Option.some.inj ho
          exact hpacket
      obtain ⟨hlow, hhigh⟩ := mem_addresses_writePackets hpackets ha
      exact hown a hlow hhigh (nonneg_of_mem_addresses ha)

/-- The `STDOUT` requests that are confined. -/
lemma stdout_confined_iff {pid : ℕ} {count logicalAddress : UInt32} {k : KernelMemory}
    (hints : CInts k.mainMemory) :
    StdoutConfined pid count logicalAddress k ↔
      FoundOnlyIfFits pid count logicalAddress k.mainMemory := by
  unfold StdoutConfined handleStdoutRequest
  rcases translateLogicalAddress_cases pid count logicalAddress hints with
    ⟨htranslate, hnot, hfits⟩ | ⟨htranslate, hok⟩ | ⟨p, hp, htranslate, hiff, hrange⟩
  · simp only [htranslate, Option.bind_none, hnot, iff_false]
    intro h
    obtain ⟨o, ho, -⟩ := (h [] []).refused hfits
    simp at ho
  · simp only [htranslate, Option.bind_some, if_true, hok, iff_true]
    intro sticks leftovers
    refine ⟨fun o ho packet hpacket => ?_, fun _ => ⟨_, rfl, rfl, rfl⟩⟩
    obtain rfl := Option.some.inj ho
    simp at hpacket
  · simp only [htranslate, Option.bind_some, if_neg hp, hiff]
    constructor
    · intro h
      by_contra hfits
      obtain ⟨o, ho, hmessages, -⟩ := (h [] []).refused hfits
      split at ho
      · obtain rfl := Option.some.inj ho
        exact absurd (List.cons.inj hmessages).1 (by decide)
      · rename_i bytes hread
        -- without sticks nothing is read
        have hnil : bytes = [] := by
          split at hread
          · simp at hread
          · exact eq_nil_of_readFromSticks_nil hread
        obtain rfl := Option.some.inj ho
        rw [hnil] at hmessages
        exact absurd (List.cons.inj hmessages).1 (by decide)
    · intro hfits sticks leftovers
      obtain ⟨hcount, hown⟩ := hrange hfits
      refine ⟨fun o ho packet hpacket a ha => ?_, fun hnot => absurd hfits hnot⟩
      rw [i32_count hcount, if_neg (by omega)] at ho
      have hpackets : packet ∈ readPackets p count.toNat sticks := by
        split at ho
        · obtain rfl := Option.some.inj ho
          exact hpacket
        · obtain rfl := Option.some.inj ho
          exact hpacket
      obtain ⟨hlow, hhigh⟩ := mem_addresses_readPackets hpackets ha
      exact hown a hlow hhigh (nonneg_of_mem_addresses ha)

/-- **The requests that are confined**: those for which no segment is found, those whose range fits
in the one that is, and those for which the address is the `-1` of a refusal. -/
theorem io_confined_iff {pid : ℕ} {count logicalAddress : UInt32} {k : KernelMemory}
    (hints : CInts k.mainMemory) :
    (StdinConfined pid count logicalAddress k ↔
        FoundOnlyIfFits pid count logicalAddress k.mainMemory) ∧
      (StdoutConfined pid count logicalAddress k ↔
        FoundOnlyIfFits pid count logicalAddress k.mainMemory) :=
  ⟨stdin_confined_iff hints, stdout_confined_iff hints⟩

/-- Two processes with four bytes each. -/
def memoryOfTwo : KernelMemory where
  mainMemory := ⟨10, 10, [⟨0, 1, 0, 4⟩, ⟨0, 2, 4, 4⟩], [⟨8, 2⟩], .best⟩
  connectedSticks := [tenBytes]
  swapData := none
  processes := []

/-- A request of four bytes. -/
theorem io_confined_iff_memoryOfTwo :
    (StdinConfined 1 4 0 memoryOfTwo ↔ FoundOnlyIfFits 1 4 0 memoryOfTwo.mainMemory) ∧
      (StdoutConfined 1 4 0 memoryOfTwo ↔ FoundOnlyIfFits 1 4 0 memoryOfTwo.mainMemory) :=
  io_confined_iff fun s hs => by
    simp only [memoryOfTwo, List.mem_cons, List.not_mem_nil, or_false] at hs
    rcases hs with rfl | rfl <;> decide

/-- Process 1 asks for eight bytes from address 0: the packet goes over the end of its segment, to
the four bytes of process 2. -/
theorem io_not_confined :
    Reachable kernelMemoryStep (initKernelMemoryData 10 .best) memoryOfTwo ∧
      ¬ StdinConfined 1 8 0 memoryOfTwo ∧ ¬ StdoutConfined 1 8 0 memoryOfTwo := by
  have hrun : execute kernelMemoryStep (initKernelMemoryData 10 .best)
      [.stickConnected tenBytes, .createSegment 0 1 4, .createSegment 0 2 4] =
      some memoryOfTwo := by decide
  have hforeign : ¬ OwnsByte 1 memoryOfTwo.mainMemory 5 := by
    rintro ⟨s, hs, hpid, hlow, hhigh⟩
    simp only [memoryOfTwo, List.mem_cons, List.not_mem_nil, or_false] at hs
    rcases hs with rfl | rfl
    · exact absurd hhigh (by decide)
    · exact absurd hpid (by decide)
  have hbyte : (5 : ℤ) ∈ StickPacket.addresses [tenBytes] ⟨0, 0, 8⟩ :=
    ⟨by decide, by decide⟩
  have hstdin : handleStdinRequest 1 8 0 (List.replicate 8 65) memoryOfTwo =
      some ⟨[.stdinResponse (textBytes "Memory written")], [⟨0, 0, 8⟩],
        [⟨List.replicate 8 65 ++ List.replicate 2 0⟩], true⟩ := by decide +kernel
  have hstdout : handleStdoutRequest 1 8 0 [] memoryOfTwo =
      some ⟨[.stdoutResponse []], [⟨0, 0, 8⟩], [tenBytes], true⟩ := by decide +kernel
  refine ⟨Run.of_execute hrun, fun h => ?_, fun h => ?_⟩
  · exact hforeign ((h [tenBytes] (List.replicate 8 65)).inside _ hstdin _ List.mem_cons_self 5 hbyte)
  · exact hforeign ((h [tenBytes] []).inside _ hstdout _ List.mem_cons_self 5 hbyte)

end OsSimulator.Memory
