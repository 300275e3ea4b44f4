import OsSimulator.Cpu.Connections
import OsSimulator.Memory.StdIo

set_option relaxedAutoImplicit false
set_option autoImplicit false

/-!
# Transfers over several sticks

Four loops cut a transfer at the boundaries of the sticks: those of Kernel Memory, of which the read
looks for the stick of every part and the write walks along the list, and those of a CPU, which both
look for the stick. All of them read and write the memory that the sticks are one behind the other,
and no request leads out of the stick that it goes to.

## Main definitions

* `StickPacket.InBounds`, `StickRequest.InBounds` — the request is about bytes of its stick.
* `FlatWrite` — a write to the memory that the sticks are together.

## Main results

* `readMemory_eq`, `writeMemory_eq` — the transfers of a CPU.
* `transfers_flat` — the transfers of Kernel Memory and of a CPU.
-/

namespace OsSimulator.Memory

/-- The packet is about at least one byte, and about bytes of its stick only. -/
def StickPacket.InBounds (sticks : List Stick) (packet : StickPacket) : Prop :=
  ∃ stick, sticks[packet.stick]? = some stick ∧ 1 ≤ packet.count ∧
    packet.offset + packet.count ≤ stick.stickSize

/-- The range of the address space has the given bytes afterwards, and no other byte of a stick has
changed. -/
structure FlatWrite (before after : List Stick) (a : ℕ) (data : List UInt8) : Prop where
  sizes : after.map Stick.stickSize = before.map Stick.stickSize
  bytes : bytesOf after = splice (bytesOf before) a data

/-- The part of a transfer that a stick serves. -/
lemma stickChunkSize_bounds {stick : Stick} {offset remaining : ℕ} (hoff : offset < stick.stickSize)
    (hpos : 0 < remaining) :
    1 ≤ stickChunkSize stick offset remaining ∧
      offset + stickChunkSize stick offset remaining ≤ stick.stickSize := by
  unfold stickChunkSize
  omega

/-- The packets of a read are in bounds. -/
lemma inBounds_readPacketsLoop {sticks : List Stick} {rounds remaining : ℕ} {address : ℤ}
    {packet : StickPacket} (h : packet ∈ readPacketsLoop sticks rounds address remaining) :
    packet.InBounds sticks := by
  induction rounds generalizing address remaining with
  | zero => cases remaining <;> simp [readPacketsLoop] at h
  | succ rounds ih =>
    cases remaining with
    | zero => simp [readPacketsLoop] at h
    | succ remaining =>
      by_cases hneg : address < 0
      · rw [readPacketsLoop, findStick, findStickFrom_of_neg sticks 0 hneg] at h
        simp at h
      · obtain ⟨k, rfl⟩ := Int.eq_ofNat_of_zero_le (not_lt.1 hneg)
        by_cases hk : k < (bytesOf sticks).length
        · obtain ⟨i, off, stick, hfind, hget, hoff, -⟩ := findStick_of_lt hk
          simp only [readPacketsLoop, hfind, hget] at h
          rcases List.mem_cons.1 h with rfl | h
          · exact ⟨stick, hget, stickChunkSize_bounds hoff (Nat.succ_pos remaining)⟩
          · exact ih h
        · rw [readPacketsLoop, findStick_of_ge (not_lt.1 hk)] at h
          simp at h

/-- The packets of a write are in bounds, as long as the sticks behind the first one have bytes.

**Proof sketch.** Induction on the sticks from the current one on. A part starts in its stick: the
first one where the search has found it, and the others at the first byte of theirs. -/
lemma inBounds_writePacketsLoop {sticks : List Stick} (hpos : ∀ s ∈ sticks, 0 < s.stickSize)
    {index offset remaining : ℕ} (hoff : ∀ s ∈ (sticks.drop index).head?, offset < s.stickSize)
    {packet : StickPacket}
    (h : packet ∈ writePacketsLoop index offset remaining (sticks.drop index)) :
    packet.InBounds sticks := by
  induction hrest : sticks.drop index generalizing index offset remaining with
  | nil =>
    rw [hrest] at h
    cases remaining <;> simp [writePacketsLoop] at h
  | cons s rest ih =>
    rw [hrest] at h hoff
    cases remaining with
    | zero => simp [writePacketsLoop] at h
    | succ remaining =>
      have hget : sticks[index]? = some s := by
        rw [← List.head?_drop, hrest]
        rfl
      have hdrop : sticks.drop (index + 1) = rest := by
        rw [← List.tail_drop, hrest]
        rfl
      simp only [writePacketsLoop] at h
      rcases List.mem_cons.1 h with rfl | h
      · exact ⟨s, hget, stickChunkSize_bounds (hoff s rfl) (Nat.succ_pos remaining)⟩
      · rw [← hdrop] at h
        refine ih (fun t ht => hpos t ?_) h hdrop
        exact List.mem_of_mem_drop (List.mem_of_mem_head? ht)

/-- Every write packet is in the bounds of its stick. -/
lemma inBounds_writePackets {sticks : List Stick} (hpos : ∀ s ∈ sticks, 0 < s.stickSize)
    {address : ℤ} {size : ℕ} {packet : StickPacket} (h : packet ∈ writePackets address size sticks) :
    packet.InBounds sticks := by
  by_cases hneg : address < 0
  · rw [writePackets, findStick, findStickFrom_of_neg sticks 0 hneg] at h
    simp at h
  · obtain ⟨k, rfl⟩ := Int.eq_ofNat_of_zero_le (not_lt.1 hneg)
    by_cases hk : k < (bytesOf sticks).length
    · obtain ⟨i, off, stick, hfind, hget, hoff, -⟩ := findStick_of_lt hk
      simp only [writePackets, hfind] at h
      refine inBounds_writePacketsLoop hpos (fun s hs => ?_) h
      rw [List.head?_drop, hget] at hs
      obtain rfl := Option.some.inj hs
      exact hoff
    · rw [writePackets, findStick_of_ge (not_lt.1 hk)] at h
      simp at h

/-- Bytes of one stick overwritten. -/
lemma flatWrite_set {sticks : List Stick} {stick : Stick} {i off : ℕ} {data : List UInt8}
    (hget : sticks[i]? = some stick) (hfits : off + data.length ≤ stick.stickSize) :
    FlatWrite sticks (sticks.set i ⟨splice stick.memory off data⟩)
      ((bytesOf (sticks.take i)).length + off) data := by
  obtain ⟨hi, rfl⟩ := List.getElem?_eq_some_iff.1 hget
  have hsize : Stick.stickSize ⟨splice sticks[i].memory off data⟩ = sticks[i].stickSize :=
    length_splice hfits
  refine ⟨?_, ?_⟩
  · rw [List.map_set, hsize]
    conv_lhs =>
      enter [3]
      rw [← List.getElem_map (f := Stick.stickSize) (h := by simpa using hi)]
    rw [List.set_getElem_self]
  · have hnew : (sticks.set i ⟨splice sticks[i].memory off data⟩)[i]? =
        some ⟨splice sticks[i].memory off data⟩ := by
      rw [List.getElem?_set_self hi]
    rw [bytesOf_split hnew, bytesOf_split hget, splice_append_right,
      splice_append_left _ (show off + data.length ≤ sticks[i].memory.length from hfits),
      List.take_set_of_le le_rfl, List.drop_set_of_lt (Nat.lt_succ_self i)]

/-- One write behind another. -/
lemma FlatWrite.append {s t u : List Stick} {a : ℕ} {first second : List UInt8}
    (h : FlatWrite s t a first) (h' : FlatWrite t u (a + first.length) second)
    (hfits : a + (first.length + second.length) ≤ (bytesOf s).length) :
    FlatWrite s u a (first ++ second) :=
  ⟨h'.sizes.trans h.sizes, by rw [h'.bytes, h.bytes, splice_append_data hfits]⟩

end OsSimulator.Memory

namespace OsSimulator.Cpu

open OsSimulator.Memory (Stick bytesOf FlatWrite flatWrite_set)

/-- The request is about at least one byte, and about bytes of its stick only. -/
def StickRequest.InBounds (sticks : List Stick) : StickRequest → Prop
  | .read stick addressInStick count | .write stick addressInStick count _ =>
    ∃ s, sticks[stick]? = some s ∧ 1 ≤ count.toNat ∧
      addressInStick.toNat + count.toNat ≤ s.stickSize

/-- Sticks of the same sizes take the same requests. -/
lemma StickRequest.InBounds.of_sizes {sticks sticks' : List Stick} {request : StickRequest}
    (hsizes : sticks'.map Stick.stickSize = sticks.map Stick.stickSize)
    (h : request.InBounds sticks') : request.InBounds sticks := by
  have hstick : ∀ (i : ℕ) (s' : Stick), sticks'[i]? = some s' →
      ∃ s, sticks[i]? = some s ∧ s.stickSize = s'.stickSize := by
    intro i s' hs'
    have hget := congrArg (·[i]?) hsizes
    simp only [List.getElem?_map, hs', Option.map_some] at hget
    exact Option.map_eq_some_iff.1 hget.symm
  cases request with
  | read i addressInStick count =>
    obtain ⟨s', hs', hpos, hin⟩ := h
    obtain ⟨s, hs, hsize⟩ := hstick i s' hs'
    exact ⟨s, hs, hpos, hsize ▸ hin⟩
  | write i addressInStick count data =>
    obtain ⟨s', hs', hpos, hin⟩ := h
    obtain ⟨s, hs, hsize⟩ := hstick i s' hs'
    exact ⟨s, hs, hpos, hsize ▸ hin⟩

variable {sticks : List Stick} {address size done : UInt32} {cpu : State}

/-- The part of a transfer that one stick serves: what it has left, or what is left to do. -/
lemma toNat_chunkSize {stick : MemoryStickInfo} {addressInStick size done : UInt32}
    (hin : addressInStick.toNat < stick.size.toNat) (hdone : ¬ size ≤ done) :
    (chunkSize stick addressInStick (size - done)).toNat =
      min (stick.size.toNat - addressInStick.toNat) (size.toNat - done.toNat) := by
  rw [UInt32.le_iff_toNat_le] at hdone
  have hleft : (size - done).toNat = size.toNat - done.toNat :=
    UInt32.toNat_sub_of_le _ _ (UInt32.le_iff_toNat_le.2 (by omega))
  have havailable : (stick.size - addressInStick).toNat =
      stick.size.toNat - addressInStick.toNat :=
    UInt32.toNat_sub_of_le _ _ (UInt32.le_iff_toNat_le.2 hin.le)
  unfold chunkSize
  simp only [UInt32.lt_iff_toNat_lt, havailable, hleft]
  split
  · rw [havailable]
    omega
  · rw [hleft]
    omega

/-- What a round of a transfer does: it finds the stick of the next byte, and asks it for a part of
what is left to do. -/
lemma exists_round (htotal : ((bytesOf sticks).length : ℤ) ≤ INT_MAX)
    (hsticks : cpu.memorySticks = memorySticksOf sticks)
    (hrange : address.toNat + size.toNat ≤ (bytesOf sticks).length) (hdone : ¬ size ≤ done) :
    ∃ i off c stick, sticks[i]? = some stick ∧
      (bytesOf (sticks.take i)).length + off = address.toNat + done.toNat ∧
      findStick (address + done) 0 cpu.memorySticks = some (i, placedStick sticks i stick) ∧
      (address + done - (placedStick sticks i stick).offset).toNat = off ∧
      (chunkSize (placedStick sticks i stick) (address + done - (placedStick sticks i stick).offset)
        (size - done)).toNat = c ∧
      1 ≤ c ∧ off + c ≤ stick.stickSize ∧ done.toNat + c ≤ size.toNat ∧
      (done + chunkSize (placedStick sticks i stick)
        (address + done - (placedStick sticks i stick).offset) (size - done)).toNat =
          done.toNat + c := by
  have hleft : done.toNat < size.toNat := by
    rwa [UInt32.le_iff_toNat_le, not_le] at hdone
  have hbig := htotal
  unfold INT_MAX at hbig
  have haddress : UInt32.ofNat (address.toNat + done.toNat) = address + done := by
    rw [UInt32.ofNat_add, UInt32.ofNat_toNat, UInt32.ofNat_toNat]
  obtain ⟨i, off, stick, -, hget, hoff, hplace, hfind, hsub⟩ :=
    findStick_memorySticksOf htotal (show address.toNat + done.toNat < (bytesOf sticks).length by
      omega)
  rw [haddress] at hfind hsub
  have hsize : stick.stickSize ≤ (bytesOf sticks).length := by
    rw [OsSimulator.Memory.bytesOf_split hget, List.length_append, List.length_append,
      Stick.stickSize]
    omega
  have hplaced : (placedStick sticks i stick).size.toNat = stick.stickSize := by
    simp only [placedStick, UInt32.toNat_ofNat']
    omega
  have hchunk : (chunkSize (placedStick sticks i stick)
      (address + done - (placedStick sticks i stick).offset) (size - done)).toNat =
        min (stick.stickSize - off) (size.toNat - done.toNat) := by
    rw [toNat_chunkSize (by rw [hsub, hplaced]; exact hoff) hdone, hsub, hplaced]
  refine ⟨i, off, _, stick, hget, hplace, hsticks ▸ hfind, hsub, hchunk, by omega, by omega,
    by omega, ?_⟩
  rw [UInt32.toNat_add, hchunk]
  omega

/-- The rounds of `read_memory` read what is left of the range. -/
lemma readLoop_eq (htotal : ((bytesOf sticks).length : ℤ) ≤ INT_MAX)
    (hrange : address.toNat + size.toNat ≤ (bytesOf sticks).length) (rounds : ℕ)
    (hsticks : cpu.memorySticks = memorySticksOf sticks)
    (hrounds : size.toNat ≤ done.toNat + rounds) :
    ∃ requests, readLoop address size rounds done cpu =
        (some (slice (bytesOf sticks) (address.toNat + done.toNat) (size.toNat - done.toNat)),
          { cpu with stickRequests := cpu.stickRequests ++ requests }) ∧
      ∀ r ∈ requests, r.InBounds sticks := by
  have hend : ∀ cpu : State, ∃ requests, ((some [], cpu) : Option (List UInt8) × State) =
      (some [], { cpu with stickRequests := cpu.stickRequests ++ requests }) ∧
        ∀ r ∈ requests, r.InBounds sticks := fun cpu => ⟨[], by simp, by simp⟩
  induction rounds generalizing done cpu with
  | zero =>
    rw [show size.toNat - done.toNat = 0 by omega, slice_zero]
    exact hend cpu
  | succ rounds ih =>
    rw [readLoop]
    split
    · rename_i hdone
      rw [UInt32.le_iff_toNat_le] at hdone
      rw [show size.toNat - done.toNat = 0 by omega, slice_zero]
      exact hend cpu
    · rename_i hdone
      obtain ⟨i, off, c, stick, hget, hplace, hfind, hsub, hchunk, hpos, hin, hle, hnext⟩ :=
        exists_round htotal hsticks hrange hdone
      simp only [hfind]
      set request := StickRequest.read i (address + done - (placedStick sticks i stick).offset)
        (chunkSize (placedStick sticks i stick)
          (address + done - (placedStick sticks i stick).offset) (size - done))
      set requested : State := { cpu with stickRequests := cpu.stickRequests ++ [request] }
      obtain ⟨requests, hrun, hbounds⟩ := @ih (done + chunkSize (placedStick sticks i stick)
        (address + done - (placedStick sticks i stick).offset) (size - done)) requested hsticks (by
          omega)
      rw [if_pos (show (placedStick sticks i stick).connected = true from rfl), hrun, hnext, hsub,
        hchunk]
      refine ⟨request :: requests, ?_, ?_⟩
      · have hhead : slice (bytesOf sticks) (address.toNat + done.toNat) c =
            slice stick.memory off c := by
          rw [OsSimulator.Memory.bytesOf_split hget, ← hplace, slice_append_right,
            slice_append_left _ (show off + c ≤ stick.memory.length from hin)]
        have hcut : slice (bytesOf sticks) (address.toNat + done.toNat)
            (size.toNat - done.toNat) = slice stick.memory off c ++
              slice (bytesOf sticks) (address.toNat + (done.toNat + c))
                (size.toNat - (done.toNat + c)) := by
          rw [← hhead, ← Nat.add_assoc, ← Nat.sub_sub, ← slice_add,
            Nat.add_sub_cancel' (show c ≤ size.toNat - done.toNat by omega)]
        rw [hcut]
        simp only [requested, Option.map_some, placedStick, List.append_assoc,
          List.singleton_append]
      · intro r hr
        rcases List.mem_cons.1 hr with rfl | hr
        · exact ⟨stick, hget, by rw [hchunk]; exact hpos, by rw [hsub, hchunk]; exact hin⟩
        · exact hbounds r hr

/-- **A CPU reads** the range of the memory, with requests that are in bounds. -/
theorem readMemory_eq (htotal : ((bytesOf sticks).length : ℤ) ≤ INT_MAX)
    (hsticks : cpu.memorySticks = memorySticksOf sticks)
    (hrange : address.toNat + size.toNat ≤ (bytesOf sticks).length) :
    ∃ requests, readMemory address size cpu =
        (some (slice (bytesOf sticks) address.toNat size.toNat),
          { cpu with stickRequests := cpu.stickRequests ++ requests }) ∧
      ∀ r ∈ requests, r.InBounds sticks := by
  have hrun := @readLoop_eq sticks address size 0 cpu htotal hrange size.toNat hsticks (by omega)
  simpa only [readMemory, UInt32.toNat_zero, Nat.add_zero, Nat.sub_zero] using hrun

/-- The rounds of `write_memory` write what is left of the data.

**Proof sketch.** Induction on the rounds. A round overwrites bytes of one stick (`flatWrite_set`),
after which the CPU still has the sticks of the same memory (`memorySticksOf_set`), and the next
round goes on behind them (`FlatWrite.append`). -/
lemma writeLoop_eq (htotal : ((bytesOf sticks).length : ℤ) ≤ INT_MAX) {data : List UInt8}
    (hdata : data.length = size.toNat)
    (hrange : address.toNat + size.toNat ≤ (bytesOf sticks).length) (rounds : ℕ)
    (hsticks : cpu.memorySticks = memorySticksOf sticks)
    (hrounds : size.toNat ≤ done.toNat + rounds) :
    ∃ sticks' requests, writeLoop address data size rounds done cpu =
        (true, { cpu with
          memorySticks := memorySticksOf sticks'
          stickRequests := cpu.stickRequests ++ requests }) ∧
      FlatWrite sticks sticks' (address.toNat + done.toNat) (data.drop done.toNat) ∧
      ∀ r ∈ requests, r.InBounds sticks := by
  have hend : ∀ (done : UInt32) (sticks : List Stick) (cpu : State),
      cpu.memorySticks = memorySticksOf sticks →
      size.toNat ≤ done.toNat → ∃ sticks' requests, ((true, cpu) : Bool × State) =
        (true, { cpu with
          memorySticks := memorySticksOf sticks'
          stickRequests := cpu.stickRequests ++ requests }) ∧
      FlatWrite sticks sticks' (address.toNat + done.toNat) (data.drop done.toNat) ∧
      ∀ r ∈ requests, r.InBounds sticks := by
    intro done sticks cpu hsticks hle
    refine ⟨sticks, [], ?_, ⟨rfl, ?_⟩, by simp⟩
    · rw [← hsticks, List.append_nil]
    · rw [List.drop_eq_nil_of_le (by omega), splice_nil]
  induction rounds generalizing done cpu sticks with
  | zero => exact hend done sticks cpu hsticks (by omega)
  | succ rounds ih =>
    rw [writeLoop]
    split
    · rename_i hdone
      rw [UInt32.le_iff_toNat_le] at hdone
      exact hend done sticks cpu hsticks hdone
    · rename_i hdone
      obtain ⟨i, off, c, stick, hget, hplace, hfind, hsub, hchunk, hpos, hin, hle, hnext⟩ :=
        exists_round htotal hsticks hrange hdone
      simp only [hfind]
      set request := StickRequest.write i (address + done - (placedStick sticks i stick).offset)
        (chunkSize (placedStick sticks i stick)
          (address + done - (placedStick sticks i stick).offset) (size - done))
        (slice data done.toNat (chunkSize (placedStick sticks i stick)
          (address + done - (placedStick sticks i stick).offset) (size - done)).toNat)
      rw [if_pos (show (placedStick sticks i stick).connected = true from rfl)]
      have hpart : (slice data done.toNat c).length = c := length_slice (by omega)
      have hwrite := flatWrite_set hget (show off + (slice data done.toNat c).length ≤
        stick.stickSize by omega)
      rw [hplace] at hwrite
      set written := sticks.set i ⟨splice stick.memory off (slice data done.toNat c)⟩
      have hsize : (splice stick.memory off (slice data done.toNat c)).length = stick.stickSize :=
        length_splice (show off + (slice data done.toNat c).length ≤ stick.memory.length by
          rw [hpart]
          exact hin)
      have hplaces := memorySticksOf_set hget hsize
      have hlength : (bytesOf written).length = (bytesOf sticks).length := by
        rw [OsSimulator.Memory.length_bytesOf, OsSimulator.Memory.length_bytesOf, hwrite.sizes]
      rw [hsub, hchunk]
      set requested : State := { cpu with
        memorySticks := cpu.memorySticks.set i { placedStick sticks i stick with
          memory := splice stick.memory off (slice data done.toNat c) }
        stickRequests := cpu.stickRequests ++ [request] }
      have hstate : requested.memorySticks = memorySticksOf written := by
        rw [hplaces, ← hsticks]
      obtain ⟨sticks', requests, hrun, hrest, hbounds⟩ := @ih written (done + chunkSize
        (placedStick sticks i stick) (address + done - (placedStick sticks i stick).offset)
        (size - done)) requested (by rw [hlength]; exact htotal) (by rw [hlength]; exact hrange)
        hstate (by omega)
      rw [hnext, ← Nat.add_assoc] at hrest
      refine ⟨sticks', request :: requests, ?_, ?_, ?_⟩
      · refine hrun.trans ?_
        simp only [requested, List.append_assoc, List.singleton_append]
      · have hcut : data.drop done.toNat =
            slice data done.toNat c ++ data.drop (done.toNat + c) := by
          rw [slice, ← List.drop_drop, List.take_append_drop]
        rw [hcut]
        apply hwrite.append
        · rw [hpart]
          exact hrest
        · rw [hpart, List.length_drop]
          omega
      · intro r hr
        rcases List.mem_cons.1 hr with rfl | hr
        · exact ⟨stick, hget, by rw [hchunk]; exact hpos, by rw [hsub, hchunk]; exact hin⟩
        · exact (hbounds r hr).of_sizes hwrite.sizes

/-- **A CPU writes** the range of the memory and nothing else, with requests that are in bounds. -/
theorem writeMemory_eq (htotal : ((bytesOf sticks).length : ℤ) ≤ INT_MAX) {data : List UInt8}
    (hdata : data.length = size.toNat) (hsticks : cpu.memorySticks = memorySticksOf sticks)
    (hrange : address.toNat + size.toNat ≤ (bytesOf sticks).length) :
    ∃ sticks' requests, writeMemory address data size cpu =
        (true, { cpu with
          memorySticks := memorySticksOf sticks'
          stickRequests := cpu.stickRequests ++ requests }) ∧
      FlatWrite sticks sticks' address.toNat data ∧ ∀ r ∈ requests, r.InBounds sticks := by
  have hrun := @writeLoop_eq sticks address size 0 cpu htotal data hdata hrange size.toNat hsticks
    (by omega)
  simpa only [writeMemory, UInt32.toNat_zero, Nat.add_zero, List.drop_zero] using hrun

end OsSimulator.Cpu

namespace OsSimulator

open Memory Cpu

/-- **Transfers over several sticks are transfers of the memory that the sticks are together**: a
read of Kernel Memory and one of a CPU that knows the sticks return the bytes of the range, a write
changes the bytes of the range, and no request leads out of its stick.

**Proof sketch.** For Kernel Memory, `readFromSticks_eq` and `bytesOf_writeToSticks`; for a CPU,
`readMemory_eq` and `writeMemory_eq`. The size of the memory is an `int` of Kernel Memory. -/
theorem transfers_flat {sticks : List Stick} (hpos : ∀ s ∈ sticks, 0 < s.stickSize)
    (htotal : ((bytesOf sticks).length : ℤ) ≤ INT_MAX) {a n : ℕ}
    (hrange : a + n ≤ (bytesOf sticks).length) {data : List UInt8} (hdata : data.length = n)
    {cpu : Cpu.State} (hsticks : cpu.memorySticks = memorySticksOf sticks) :
    (readFromSticks a n sticks = some (slice (bytesOf sticks) a n) ∧
      ∀ p ∈ readPackets a n sticks, p.InBounds sticks) ∧
    ((writeToSticks a data sticks).1 = true ∧
      FlatWrite sticks (writeToSticks a data sticks).2 a data ∧
      ∀ p ∈ writePackets a n sticks, p.InBounds sticks) ∧
    (∃ requests, readMemory (UInt32.ofNat a) (UInt32.ofNat n) cpu =
        (some (slice (bytesOf sticks) a n),
          { cpu with stickRequests := cpu.stickRequests ++ requests }) ∧
      ∀ r ∈ requests, r.InBounds sticks) ∧
    ∃ sticks' requests, writeMemory (UInt32.ofNat a) data (UInt32.ofNat n) cpu =
        (true, { cpu with
          memorySticks := memorySticksOf sticks'
          stickRequests := cpu.stickRequests ++ requests }) ∧
      FlatWrite sticks sticks' a data ∧ ∀ r ∈ requests, r.InBounds sticks := by
  have ha : (UInt32.ofNat a).toNat = a := by
    unfold INT_MAX at htotal
    rw [UInt32.toNat_ofNat']
    omega
  have hn : (UInt32.ofNat n).toNat = n := by
    unfold INT_MAX at htotal
    rw [UInt32.toNat_ofNat']
    omega
  have hrange' : (UInt32.ofNat a).toNat + (UInt32.ofNat n).toNat ≤ (bytesOf sticks).length := by
    rw [ha, hn]
    exact hrange
  have hread := readMemory_eq htotal hsticks hrange'
  have hwrite := writeMemory_eq htotal (hdata.trans hn.symm) hsticks hrange'
  rw [ha, hn] at hread
  rw [ha] at hwrite
  obtain ⟨hdone, hbytes⟩ := bytesOf_writeToSticks (show a + data.length ≤ (bytesOf sticks).length by
    rw [hdata]
    exact hrange)
  exact ⟨⟨readFromSticks_eq hrange, fun p hp => inBounds_readPacketsLoop hp⟩,
    ⟨hdone, ⟨map_stickSize_writeToSticks a data sticks, hbytes⟩,
      fun p hp => inBounds_writePackets hpos hp⟩, hread, hwrite⟩

/-- Two bytes on both sides of the boundary of two sticks. -/
def spanningSticks : List Stick := [⟨[1, 2, 3]⟩, ⟨[4, 5]⟩]

/-- A transfer of two bytes around a boundary. -/
theorem transfers_flat_spanning :
    readFromSticks 2 2 spanningSticks = some [3, 4] ∧
      bytesOf (writeToSticks 2 [8, 9] spanningSticks).2 = [1, 2, 8, 9, 5] := by
  have hflat := @transfers_flat spanningSticks (by decide) (by decide) 2 2 (by decide) [8, 9] rfl
    ⟨0, memorySticksOf spanningSticks, ⟨0, 0, 0, 0, 0, 0, 0, 0, 0, 0, 0⟩, [], false, true, [], [],
      []⟩ rfl
  exact ⟨hflat.1.1, hflat.2.1.2.1.bytes⟩

end OsSimulator
