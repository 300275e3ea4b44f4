import OsSimulator.Memory.StdIo

set_option relaxedAutoImplicit false
set_option autoImplicit false

/-!
# What a STDOUT request reveals

`handle_stdout_request` reads as many bytes as the request says and sends them as a string. Nothing
ends the string behind them, so the payload depends on the bytes of the range alone only if one of
them is zero. Otherwise what the allocator has left behind them is sent too.

## Main definitions

* `IsRange` — a request is about a range of bytes that the sticks have.
* `StdoutDetermined` — the payload depends on the bytes of the range, and is made of them.

## Main results

* `stdoutDetermined_iff` — the requests for which it does.
* `stdout_reveals_leftovers` — a text without a terminator.
-/

namespace OsSimulator.Memory

/-- The request is about the bytes behind `p`, all of which the sticks have. -/
structure IsRange (pid : ℕ) (count logicalAddress : UInt32) (p : ℤ) (k : KernelMemory) : Prop where
  translated : translateLogicalAddress pid logicalAddress k.mainMemory = some p
  accepted : p ≠ -1
  mapped : ∀ a, p ≤ a → a < p + count.toNat → (byteAt k.connectedSticks a).isSome

/-- The two states have the same bytes in the range. -/
def SameBytes (p : ℤ) (n : ℕ) (k k' : KernelMemory) : Prop :=
  ∀ a, p ≤ a → a < p + n → byteAt k'.connectedSticks a = byteAt k.connectedSticks a

/-- Whatever else the memory holds and the allocator has left, the answer is the same, and every
byte of its payload is a byte of the range. -/
def StdoutDetermined (pid : ℕ) (count logicalAddress : UInt32) (k : KernelMemory) : Prop :=
  ∀ p, IsRange pid count logicalAddress p k → ∀ k', IsRange pid count logicalAddress p k' →
    SameBytes p count.toNat k k' → ∀ leftovers leftovers',
      (handleStdoutRequest pid count logicalAddress leftovers' k').map IoOutcome.messages =
        (handleStdoutRequest pid count logicalAddress leftovers k).map IoOutcome.messages ∧
      ∃ payload, (handleStdoutRequest pid count logicalAddress leftovers k).map
          IoOutcome.messages = some [.stdoutResponse payload] ∧
        ∀ b ∈ payload, ∃ a, p ≤ a ∧ a < p + count.toNat ∧ byteAt k.connectedSticks a = some b

/-- A range that is not empty, of bytes that the sticks have, lies in the address space. -/
lemma exists_start_of_mapped {sticks : List Stick} {p : ℤ} {n : ℕ} (hn : 1 ≤ n)
    (hmapped : ∀ a, p ≤ a → a < p + n → (byteAt sticks a).isSome) :
    ∃ start : ℕ, p = start ∧ start + n ≤ (bytesOf sticks).length := by
  have hfirst := (isSome_byteAt sticks p).1 (hmapped p le_rfl (by omega))
  have hlast := (isSome_byteAt sticks (p + n - 1)).1 (hmapped (p + n - 1) (by omega) (by omega))
  rw [length_bytesOf]
  exact ⟨p.toNat, by omega, by omega⟩

/-- Bytes that the sticks have are read. -/
lemma readFromSticks_of_mapped {sticks : List Stick} {p : ℤ} {n : ℕ}
    (hmapped : ∀ a, p ≤ a → a < p + n → (byteAt sticks a).isSome) :
    ∃ bytes, readFromSticks p n sticks = some bytes ∧ bytes.length = n ∧
      ∀ i < n, bytes[i]? = byteAt sticks (p + i) := by
  cases n with
  | zero => exact ⟨[], by simp [readFromSticks, readLoop], rfl, by simp⟩
  | succ n =>
    obtain ⟨k, rfl, hrange⟩ := exists_start_of_mapped (Nat.succ_pos n) hmapped
    refine ⟨_, readFromSticks_eq hrange, length_slice hrange, fun i hi => ?_⟩
    rw [getElem?_slice, if_pos hi, byteAt_eq, if_pos (by omega)]
    congr 1

/-- The answer to a request for bytes that the sticks have. -/
lemma messages_handleStdoutRequest {pid : ℕ} {count logicalAddress : UInt32} {p : ℤ}
    {k : KernelMemory} (hcount : (count.toNat : ℤ) ≤ INT_MAX)
    (hrange : IsRange pid count logicalAddress p k) {bytes : List UInt8}
    (hread : readFromSticks p count.toNat k.connectedSticks = some bytes)
    (leftovers : List UInt8) :
    (handleStdoutRequest pid count logicalAddress leftovers k).map IoOutcome.messages =
      some [.stdoutResponse ((bytes ++ leftovers).takeWhile (· ≠ 0))] := by
  unfold handleStdoutRequest
  rw [hrange.translated, Option.bind_some, if_neg hrange.accepted, i32_count hcount]
  simp only [if_neg (not_lt.2 (Int.natCast_nonneg count.toNat)), Int.toNat_natCast, hread,
    Option.map_some]

/-- The text of a buffer with a terminator. -/
lemma takeWhile_append_of_mem {bytes : List UInt8} (h : (0 : UInt8) ∈ bytes)
    (leftovers : List UInt8) :
    (bytes ++ leftovers).takeWhile (· ≠ 0) = bytes.takeWhile (· ≠ 0) := by
  induction bytes with
  | nil => simp at h
  | cons b bytes ih =>
    by_cases hb : b = 0
    · simp [hb]
    · have hrest : (0 : UInt8) ∈ bytes := by simpa [Ne.symm hb] using h
      rw [List.cons_append, List.takeWhile_cons_of_pos (by simpa using hb),
        List.takeWhile_cons_of_pos (by simpa using hb), ih hrest]

/-- The text of a buffer without one. -/
lemma takeWhile_append_of_not_mem {bytes : List UInt8} (h : (0 : UInt8) ∉ bytes)
    (leftovers : List UInt8) :
    (bytes ++ leftovers).takeWhile (· ≠ 0) = bytes ++ leftovers.takeWhile (· ≠ 0) := by
  apply List.takeWhile_append_of_pos
  intro b hb
  have hne : b ≠ 0 := fun hzero => h (hzero ▸ hb)
  simpa using hne

/-- **The requests whose payload is determined by their bytes**: those with a zero byte in the
range. A request for no bytes has none.

**Proof sketch.** The text of the buffer ends at the zero byte, in front of the leftovers
(`takeWhile_append_of_mem`). Without one the leftovers are part of it, so two of them tell the
answers apart. -/
theorem stdoutDetermined_iff {pid : ℕ} {count logicalAddress : UInt32} {k : KernelMemory}
    (hcount : (count.toNat : ℤ) ≤ INT_MAX) :
    StdoutDetermined pid count logicalAddress k ↔
      ∀ p, IsRange pid count logicalAddress p k →
        ∃ a, p ≤ a ∧ a < p + count.toNat ∧ byteAt k.connectedSticks a = some 0 := by
  constructor
  · intro h p hrange
    obtain ⟨bytes, hread, hlength, hbytes⟩ := readFromSticks_of_mapped hrange.mapped
    obtain ⟨hsame, -⟩ := h p hrange k hrange (fun a _ _ => rfl) [] [1]
    by_contra hzero
    have hnot : (0 : UInt8) ∉ bytes := by
      intro hmem
      obtain ⟨i, hi⟩ := List.mem_iff_getElem?.1 hmem
      have hlt : i < count.toNat := by
        rw [← hlength]
        exact (List.getElem?_eq_some_iff.1 hi).1
      exact hzero ⟨p + i, by omega, by omega, by rw [← hbytes i hlt, hi]⟩
    rw [messages_handleStdoutRequest hcount hrange hread,
      messages_handleStdoutRequest hcount hrange hread, takeWhile_append_of_not_mem hnot,
      takeWhile_append_of_not_mem hnot] at hsame
    simp at hsame
  · intro h p hrange k' hrange' hagree leftovers leftovers'
    obtain ⟨a, hlow, hhigh, hzero⟩ := h p hrange
    obtain ⟨bytes, hread, hlength, hbytes⟩ := readFromSticks_of_mapped hrange.mapped
    obtain ⟨bytes', hread', hlength', hbytes'⟩ := readFromSticks_of_mapped hrange'.mapped
    have hsame : bytes' = bytes := by
      ext1 i
      by_cases hi : i < count.toNat
      · rw [hbytes i hi, hbytes' i hi]
        exact hagree (p + i) (by omega) (by omega)
      · rw [List.getElem?_eq_none (by omega), List.getElem?_eq_none (by omega)]
    subst hsame
    have hmem : (0 : UInt8) ∈ bytes' := by
      have hi : (a - p).toNat < count.toNat := by omega
      have hget := hbytes (a - p).toNat hi
      rw [show p + ((a - p).toNat : ℤ) = a by omega, hzero] at hget
      exact List.mem_of_getElem? hget
    have hanswer := messages_handleStdoutRequest hcount hrange hread leftovers
    rw [hanswer, messages_handleStdoutRequest hcount hrange' hread', takeWhile_append_of_mem hmem,
      takeWhile_append_of_mem hmem]
    refine ⟨rfl, _, rfl, fun b hb => ?_⟩
    obtain ⟨i, hi⟩ := List.mem_iff_getElem?.1 ((List.takeWhile_sublist _).subset hb)
    have hlt : i < count.toNat := by
      rw [← hlength]
      exact (List.getElem?_eq_some_iff.1 hi).1
    exact ⟨p + i, by omega, by omega, by rw [← hbytes i hlt, hi]⟩

/-- A process with the three bytes of a text, and the bytes of another process behind them. -/
def memoryOfText : KernelMemory where
  mainMemory := ⟨4, 4, [⟨0, 1, 0, 3⟩, ⟨0, 2, 3, 1⟩], [], .best⟩
  connectedSticks := [⟨[65, 66, 67, 0]⟩]
  swapData := none
  processes := []

/-- A request for the text and the byte behind it, which is zero. -/
theorem stdoutDetermined_iff_memoryOfText :
    StdoutDetermined 1 4 0 memoryOfText ↔
      ∀ p, IsRange 1 4 0 p memoryOfText →
        ∃ a, p ≤ a ∧ a < p + 4 ∧ byteAt memoryOfText.connectedSticks a = some 0 :=
  stdoutDetermined_iff (by decide)

/-- A request for the text: the byte that the allocator left behind the buffer is sent too. -/
theorem stdout_reveals_leftovers :
    Reachable kernelMemoryStep (initKernelMemoryData 4 .best) memoryOfText ∧
      IsRange 1 3 0 0 memoryOfText ∧ ¬ StdoutDetermined 1 3 0 memoryOfText ∧
      (handleStdoutRequest 1 3 0 [68] memoryOfText).map IoOutcome.messages =
        some [.stdoutResponse [65, 66, 67, 68]] := by
  have htranslated : translateLogicalAddress 1 0 memoryOfText.mainMemory = some 0 := by
    decide +kernel
  have hrange : IsRange 1 3 0 0 memoryOfText := by
    refine ⟨htranslated, by decide, fun a hlow hhigh => ?_⟩
    rw [isSome_byteAt]
    exact ⟨hlow, lt_trans hhigh (by decide)⟩
  have hleak : (handleStdoutRequest 1 3 0 [68] memoryOfText).map IoOutcome.messages =
      some [.stdoutResponse [65, 66, 67, 68]] := by decide +kernel
  have hclean : (handleStdoutRequest 1 3 0 [] memoryOfText).map IoOutcome.messages =
      some [.stdoutResponse [65, 66, 67]] := by decide +kernel
  have hrun : execute kernelMemoryStep (initKernelMemoryData 4 .best)
      [.stickConnected ⟨[65, 66, 67, 0]⟩, .createSegment 0 1 3, .createSegment 0 2 1] =
      some memoryOfText := by decide +kernel
  refine ⟨Run.of_execute hrun, hrange, fun h => ?_, hleak⟩
  obtain ⟨hsame, -⟩ := h 0 hrange memoryOfText hrange (fun a _ _ => rfl) [] [68]
  rw [hleak, hclean] at hsame
  exact absurd hsame (by decide)

end OsSimulator.Memory
