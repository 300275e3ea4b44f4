import OsSimulator.Library.ByteStore
import OsSimulator.Utils.Msg

set_option relaxedAutoImplicit false
set_option autoImplicit false

/-!
# Any payload in `receive_packet`

The loop of `receive_packet` on the bytes that it received, with its offset. A `memcpy` from outside
of them has no defined result, and the run ends there.

## Main definitions

* `copyPayload` — a `memcpy` from the payload.
* `receivePacketLoop`, `decodePacket` — the loop.
* `ConsecutiveSlices` — the elements lie in the payload one behind the other.
* `DecodedSafely` — the loop ends, and only with such elements.
* `PacketFormat` — elements that are not empty behind their sizes, and then nothing or a zero.

## Main results

* `receivePacketLoop_eq_iff` — what the loop returns, by the format of what is left.
* `decodedSafely_iff` — exactly the payloads with the format are decoded safely.
-/

namespace OsSimulator

/-! ## Four bytes -/

/-- A conversion to `int` gives an `int`. -/
lemma isInt_i32 (x : ℤ) : IsInt (i32 x) := by
  unfold IsInt INT_MIN INT_MAX i32
  rw [Int.bmod_def]
  split <;> omega

/-- Four bytes are those of the number they give. -/
lemma encodeInt_decodeInt {bytes : List UInt8} (h : bytes.length = 4) :
    encodeInt (decodeInt bytes) = bytes := by
  obtain ⟨a, b, c, d, rfl⟩ : ∃ a b c d, bytes = [a, b, c, d] := by
    match bytes, h with
    | [a, b, c, d], _ => exact ⟨a, b, c, d, rfl⟩
  have hvalue : u32 (a.toNat + 256 * b.toNat + 65536 * c.toNat + 16777216 * d.toNat) =
      a.toNat + 256 * b.toNat + 65536 * c.toNat + 16777216 * d.toNat := by
    have ha := a.toNat_lt
    have hb := b.toNat_lt
    have hc := c.toNat_lt
    have hd := d.toNat_lt
    unfold u32
    omega
  rw [decodeInt, encodeInt, u32_i32, hvalue]
  have ha := a.toNat_lt
  have hb := b.toNat_lt
  have hc := c.toNat_lt
  have hd := d.toNat_lt
  simp only [List.cons.injEq, and_true]
  refine ⟨?_, ?_, ?_, ?_⟩ <;>
  · rw [← UInt8.toNat_inj, UInt8.toNat_ofNat']
    omega

/-- So do four bytes. -/
lemma isInt_decodeInt (bytes : List UInt8) : IsInt (decodeInt bytes) := by
  unfold decodeInt
  split
  · exact isInt_i32 _
  · exact ⟨by decide, by decide⟩

/-! ## The loop -/

/-- `memcpy(_, buffer + offset, n)`, where the buffer has the bytes of the payload. -/
def copyPayload (payload : List UInt8) (offset n : ℤ) : Option (List UInt8) :=
  if 0 ≤ n ∧ offset + n ≤ payload.length then some (slice payload offset.toNat n.toNat) else none

/-- How the loop is left. -/
inductive PacketOutcome
  | returned (values : List (List UInt8))
  | outside
  | running
  deriving DecidableEq, Repr

/-- The loop of `receive_packet`, at most so many rounds of it. -/
def receivePacketLoop (payload : List UInt8) :
    ℕ → (offset : ℤ) → (values : List (List UInt8)) → PacketOutcome
  | 0, _, _ => .running
  | rounds + 1, offset, values =>
    if offset < payload.length then
      match copyPayload payload offset 4 with
      | none => .outside
      | some header =>
        let elementSize := decodeInt header
        if elementSize = 0 then .returned values
        else match copyPayload payload (offset + 4) elementSize with
          | none => .outside
          | some value =>
            receivePacketLoop payload rounds (offset + 4 + elementSize) (values ++ [value])
    else .returned values

/-- `receive_packet` on a payload. -/
def decodePacket (payload : List UInt8) : PacketOutcome :=
  receivePacketLoop payload (payload.length + 1) 0 []

/-- The values lie in the payload one behind the other, from an offset on, with room for a size in
front of each. -/
def ConsecutiveSlices (payload : List UInt8) : ℕ → List (List UInt8) → Prop
  | _, [] => True
  | offset, value :: rest =>
    offset + 4 + value.length ≤ payload.length ∧ slice payload (offset + 4) value.length = value ∧
      ConsecutiveSlices payload (offset + 4 + value.length) rest

/-- **The loop ends without a read outside**, and the values are consecutive slices. -/
def DecodedSafely (payload : List UInt8) : Prop :=
  ∃ values, (∀ rounds > payload.length, receivePacketLoop payload rounds 0 [] = .returned values) ∧
    ConsecutiveSlices payload 0 values

/-- The values behind their sizes. -/
def packElements (values : List (List UInt8)) : List UInt8 :=
  values.flatMap fun value => encodeInt value.length ++ value

/-- **The format of a payload**: values that are not empty behind their sizes, and then the end or a
size of zero. -/
def PacketFormat (payload : List UInt8) (values : List (List UInt8)) : Prop :=
  (∀ value ∈ values, value ≠ [] ∧ (value.length : ℤ) ≤ INT_MAX) ∧
    ∃ tail, payload = packElements values ++ tail ∧
      (tail = [] ∨ ∃ rest, tail = encodeInt 0 ++ rest)

/-! ### The format -/

/-- A value in front. -/
lemma PacketFormat.cons {value payload : List UInt8} {values : List (List UInt8)}
    (h : PacketFormat payload values) (hne : value ≠ []) (hlen : (value.length : ℤ) ≤ INT_MAX) :
    PacketFormat (encodeInt value.length ++ value ++ payload) (value :: values) := by
  obtain ⟨hvalues, tail, rfl, htail⟩ := h
  refine ⟨fun v hv => ?_, tail, ?_, htail⟩
  · rcases List.mem_cons.1 hv with rfl | hv
    · exact ⟨hne, hlen⟩
    · exact hvalues v hv
  · simp only [packElements, List.flatMap_cons, List.append_assoc]

/-- Behind the first value is the format again. -/
lemma PacketFormat.of_cons {value payload : List UInt8} {values : List (List UInt8)}
    (h : PacketFormat payload (value :: values)) :
    ∃ rest, payload = encodeInt value.length ++ value ++ rest ∧ PacketFormat rest values := by
  obtain ⟨hvalues, tail, rfl, htail⟩ := h
  refine ⟨packElements values ++ tail, ?_, fun v hv => hvalues v (List.mem_cons_of_mem value hv),
    tail, rfl, htail⟩
  simp only [packElements, List.flatMap_cons, List.append_assoc]

/-- The end of the payload. -/
lemma packetFormat_nil : PacketFormat [] [] :=
  ⟨fun _ h => absurd h List.not_mem_nil, [], rfl, .inl rfl⟩

/-- A size that is cut off. -/
lemma not_packetFormat_of_length_lt {payload : List UInt8} (hne : payload ≠ [])
    (hlt : payload.length < 4) (values : List (List UInt8)) : ¬ PacketFormat payload values := by
  intro h
  cases values with
  | nil =>
    obtain ⟨-, tail, rfl, rfl | ⟨rest, rfl⟩⟩ := h
    · exact hne rfl
    · simp at hlt
  | cons value values =>
    obtain ⟨rest, rfl, -⟩ := h.of_cons
    simp only [List.length_append, length_encodeInt] at hlt
    omega

/-- **What a size says about the rest**: zero ends the values, and another is that of the first. -/
lemma packetFormat_append_iff {header rest : List UInt8} (hheader : header.length = 4)
    {values : List (List UInt8)} :
    PacketFormat (header ++ rest) values ↔
      (decodeInt header = 0 ∧ values = []) ∨
      ∃ value behind more, value ≠ [] ∧ decodeInt header = value.length ∧ rest = value ++ behind ∧
        values = value :: more ∧ PacketFormat behind more := by
  constructor
  · intro h
    cases values with
    | nil =>
      obtain ⟨-, tail, heq, rfl | ⟨more, rfl⟩⟩ := h
      · have hlength := congrArg List.length heq
        simp [packElements, hheader] at hlength
      · rw [packElements, List.flatMap_nil, List.nil_append] at heq
        obtain ⟨rfl, -⟩ := List.append_inj heq (by rw [hheader, length_encodeInt])
        exact .inl ⟨decodeInt_encodeInt ⟨by decide, by decide⟩, rfl⟩
    | cons value more =>
      obtain ⟨hne, hlen⟩ := h.1 value List.mem_cons_self
      obtain ⟨behind, heq, hmore⟩ := h.of_cons
      rw [List.append_assoc] at heq
      obtain ⟨rfl, rfl⟩ := List.append_inj heq (by rw [hheader, length_encodeInt])
      exact .inr ⟨value, behind, more, hne, decodeInt_encodeInt (isInt_length hlen), rfl, rfl,
        hmore⟩
  · rintro (⟨hzero, rfl⟩ | ⟨value, behind, more, hne, hsize, rfl, rfl, hmore⟩)
    · refine ⟨fun _ h => absurd h List.not_mem_nil, header ++ rest, rfl, .inr ⟨rest, ?_⟩⟩
      rw [← hzero, encodeInt_decodeInt hheader]
    · have hlen : (value.length : ℤ) ≤ INT_MAX := by
        rw [← hsize]
        exact (isInt_decodeInt header).2
      have hcons := hmore.cons hne hlen
      rw [← hsize, encodeInt_decodeInt hheader, List.append_assoc] at hcons
      exact hcons

/-! ### The loop and the format -/

/-- A copy inside the payload. -/
lemma copyPayload_eq {payload : List UInt8} {offset n : ℕ} (h : offset + n ≤ payload.length) :
    copyPayload payload offset n = some (slice payload offset n) := by
  rw [copyPayload, if_pos (by omega), Int.toNat_natCast, Int.toNat_natCast]

/-- A copy that leaves it. -/
lemma copyPayload_eq_none {payload : List UInt8} {offset n : ℤ}
    (h : ¬ (0 ≤ n ∧ offset + n ≤ payload.length)) : copyPayload payload offset n = none :=
  if_neg h

/-- A payload from an offset on, in two parts. -/
lemma drop_eq_slice_append (payload : List UInt8) (offset n : ℕ) :
    payload.drop offset = slice payload offset n ++ payload.drop (offset + n) := by
  rw [slice, ← List.drop_drop, List.take_append_drop]

/-- **What the loop returns, by the format of what is left.**

**Proof sketch.** Induction on the rounds. A size that is cut off, negative or too large is one that
the format does not have; behind an element at least five bytes fewer are left. -/
theorem receivePacketLoop_eq_iff {payload : List UInt8} {rounds offset : ℕ}
    {values result : List (List UInt8)} (hrounds : payload.length < offset + rounds)
    (hpos : 0 < rounds) :
    receivePacketLoop payload rounds offset values = .returned result ↔
      ∃ more, result = values ++ more ∧ PacketFormat (payload.drop offset) more := by
  induction rounds generalizing offset values with
  | zero => exact absurd hpos (Nat.lt_irrefl 0)
  | succ rounds ih =>
    rw [receivePacketLoop]
    by_cases hend : (offset : ℤ) < payload.length
    · rw [if_pos hend]
      by_cases hheader : offset + 4 ≤ payload.length
      · have hlength : (slice payload offset 4).length = 4 := length_slice hheader
        have hcopy := copyPayload_eq hheader
        rw [Nat.cast_ofNat] at hcopy
        rw [hcopy, drop_eq_slice_append payload offset 4]
        simp only [packetFormat_append_iff hlength]
        set size := decodeInt (slice payload offset 4)
        by_cases hzero : size = 0
        · rw [if_pos hzero, PacketOutcome.returned.injEq]
          constructor
          · rintro rfl
            exact ⟨[], (List.append_nil _).symm, .inl ⟨hzero, rfl⟩⟩
          · rintro ⟨more, rfl, ⟨-, rfl⟩ | ⟨value, -, -, hne, hsize, -⟩⟩
            · exact (List.append_nil _).symm
            · have hlen := List.length_pos_iff.2 hne
              omega
        · rw [if_neg hzero]
          by_cases hin : 0 ≤ size ∧ (offset : ℤ) + 4 + size ≤ payload.length
          · obtain ⟨n, hn⟩ : ∃ n : ℕ, size = n := ⟨size.toNat, by omega⟩
            have hvalue := copyPayload_eq (show offset + 4 + n ≤ payload.length by omega)
            have hoffset : (offset : ℤ) + 4 + n = (offset + 4 + n : ℕ) := by omega
            have hbehind := drop_eq_slice_append payload (offset + 4) n
            have hlen : (slice payload (offset + 4) n).length = n := length_slice (by omega)
            rw [Nat.cast_add, Nat.cast_ofNat] at hvalue
            simp only [hn, hvalue]
            rw [hoffset, ih (by omega) (by omega)]
            constructor
            · rintro ⟨more, rfl, hmore⟩
              refine ⟨slice payload (offset + 4) n :: more, ?_, .inr ⟨_, _, more, ?_, ?_, hbehind,
                rfl, hmore⟩⟩
              · rw [List.append_assoc, List.singleton_append]
              · exact List.length_pos_iff.1 (by omega)
              · rw [hlen]
            · rintro ⟨_, rfl, ⟨hfalse, -⟩ | ⟨value, behind, more, -, hsize, hrest, rfl, hmore⟩⟩
              · omega
              · rw [hbehind] at hrest
                obtain ⟨rfl, rfl⟩ := List.append_inj hrest (by omega)
                refine ⟨more, ?_, hmore⟩
                rw [List.append_assoc, List.singleton_append]
          · rw [copyPayload_eq_none hin]
            constructor
            · exact fun hfalse => absurd hfalse (by simp)
            · rintro ⟨_, -, ⟨hfalse, -⟩ | ⟨value, behind, more, -, hsize, hrest, -, -⟩⟩
              · exact absurd hfalse hzero
              · have hlen := congrArg List.length hrest
                rw [List.length_drop, List.length_append] at hlen
                omega
      · rw [copyPayload_eq_none (by omega)]
        constructor
        · exact fun hfalse => absurd hfalse (by simp)
        · rintro ⟨more, -, hmore⟩
          have hlen : (payload.drop offset).length = payload.length - offset := List.length_drop
          exact absurd hmore (not_packetFormat_of_length_lt (List.length_pos_iff.1 (by omega))
            (by omega) more)
    · rw [if_neg hend, PacketOutcome.returned.injEq, List.drop_eq_nil_of_le (by omega)]
      constructor
      · rintro rfl
        exact ⟨[], (List.append_nil _).symm, packetFormat_nil⟩
      · rintro ⟨more, rfl, hmore⟩
        cases more with
        | nil => exact (List.append_nil _).symm
        | cons value more =>
          obtain ⟨rest, hfalse, -⟩ := hmore.of_cons
          exact absurd (congrArg List.length hfalse) (by simp; omega)

/-- The values of a format lie behind one another. -/
lemma consecutiveSlices_of_packetFormat {payload : List UInt8} {offset : ℕ}
    {values : List (List UInt8)} (hoffset : offset ≤ payload.length)
    (h : PacketFormat (payload.drop offset) values) : ConsecutiveSlices payload offset values := by
  induction values generalizing offset with
  | nil => trivial
  | cons value more ih =>
    obtain ⟨rest, heq, hmore⟩ := h.of_cons
    have hlength := congrArg List.length heq
    simp only [List.length_drop, List.length_append, length_encodeInt] at hlength
    have hdrop : payload.drop (offset + 4) = value ++ rest := by
      rw [← List.drop_drop, heq, List.append_assoc]
      exact List.drop_left' (length_encodeInt _)
    have hbehind : payload.drop (offset + 4 + value.length) = rest := by
      rw [← List.drop_drop, hdrop, List.drop_left]
    refine ⟨by omega, ?_, ih (by omega) (by rw [hbehind]; exact hmore)⟩
    rw [slice, hdrop, List.take_left]

/-- **The loop always ends**: a round takes at least four bytes of the payload. -/
theorem receivePacketLoop_ne_running {payload : List UInt8} {rounds offset : ℕ}
    {values : List (List UInt8)} (hrounds : payload.length < offset + rounds) (hpos : 0 < rounds) :
    receivePacketLoop payload rounds offset values ≠ .running := by
  induction rounds generalizing offset values with
  | zero => exact absurd hpos (Nat.lt_irrefl 0)
  | succ rounds ih =>
    rw [receivePacketLoop]
    by_cases hend : (offset : ℤ) < payload.length
    · rw [if_pos hend]
      split
      · simp
      · rename_i header _
        dsimp only
        split
        · simp
        · split
          · simp
          · rename_i hzero _ value hcopy
            have hin : 0 ≤ decodeInt header := by
              by_contra hneg
              rw [copyPayload_eq_none (by omega)] at hcopy
              exact absurd hcopy (by simp)
            obtain ⟨n, hn⟩ : ∃ n : ℕ, decodeInt header = n := ⟨_, (Int.toNat_of_nonneg hin).symm⟩
            have hoffset : (offset : ℤ) + 4 + n = (offset + 4 + n : ℕ) := by omega
            rw [hn, hoffset]
            exact ih (by omega) (by omega)
    · rw [if_neg hend]
      simp

/-- The loop from the beginning, with as many rounds as are enough. -/
lemma receivePacketLoop_zero_eq_iff {payload : List UInt8} {rounds : ℕ}
    {values : List (List UInt8)} (hrounds : payload.length < rounds) :
    receivePacketLoop payload rounds 0 [] = .returned values ↔ PacketFormat payload values := by
  have hiff := @receivePacketLoop_eq_iff payload rounds 0 [] values (by omega) (by omega)
  rw [Nat.cast_zero, List.drop_zero] at hiff
  rw [hiff]
  exact ⟨fun ⟨more, hvalues, hmore⟩ => hvalues ▸ hmore, fun h => ⟨values, rfl, h⟩⟩

/-- `receive_packet` returns the values of the format. -/
lemma decodePacket_eq_iff {payload : List UInt8} {values : List (List UInt8)} :
    decodePacket payload = .returned values ↔ PacketFormat payload values :=
  receivePacketLoop_zero_eq_iff (Nat.lt_succ_self _)

/-- A payload has one format. -/
lemma packetFormat_unique {payload : List UInt8} {values values' : List (List UInt8)}
    (h : PacketFormat payload values) (h' : PacketFormat payload values') : values = values' := by
  have hvalues := decodePacket_eq_iff.2 h
  rw [decodePacket_eq_iff.2 h'] at hvalues
  exact (PacketOutcome.returned.inj hvalues).symm

/-- **Exactly the payloads with the format are decoded safely.** A size that is cut off, negative or
larger than the rest leads the loop out of the payload. -/
theorem decodedSafely_iff (payload : List UInt8) :
    DecodedSafely payload ↔ ∃ values, PacketFormat payload values := by
  constructor
  · rintro ⟨values, hloop, -⟩
    exact ⟨values, decodePacket_eq_iff.1 (hloop _ (Nat.lt_succ_self payload.length))⟩
  · rintro ⟨values, hformat⟩
    exact ⟨values, fun rounds hrounds => (receivePacketLoop_zero_eq_iff hrounds).2 hformat,
      consecutiveSlices_of_packetFormat (Nat.zero_le _) hformat⟩

/-- Only the empty payload is at its end. -/
lemma packetFormat_nil_iff {values : List (List UInt8)} : PacketFormat [] values ↔ values = [] := by
  constructor
  · intro h
    cases values with
    | nil => rfl
    | cons value more =>
      obtain ⟨rest, hfalse, -⟩ := h.of_cons
      exact absurd (congrArg List.length hfalse) (by simp; omega)
  · rintro rfl
    exact packetFormat_nil

/-- The loop on what is left, which `receive_packet` is on a connection, reads the same format. -/
theorem receiveElements_eq_some_iff {payload : List UInt8} {rounds : ℕ} {values : List (List UInt8)}
    (hrounds : payload.length ≤ rounds) :
    receiveElements rounds payload = some values ↔ PacketFormat payload values := by
  induction rounds generalizing payload values with
  | zero =>
    obtain rfl : payload = [] := List.length_eq_zero_iff.1 (by omega)
    rw [receiveElements, packetFormat_nil_iff, Option.some.injEq, eq_comm]
  | succ rounds ih =>
    cases payload with
    | nil => rw [receiveElements, packetFormat_nil_iff, Option.some.injEq, eq_comm]
    | cons b bs =>
      rw [receiveElements]
      generalize hpayload : b :: bs = payload at hrounds ⊢
      by_cases hheader : 4 ≤ payload.length
      · rw [socketReceive, if_pos hheader, Option.bind_some]
        conv_rhs => rw [← List.take_append_drop 4 payload]
        rw [packetFormat_append_iff (List.length_take_of_le hheader)]
        set size := decodeInt (payload.take 4)
        have hdrop : (payload.drop 4).length = payload.length - 4 := List.length_drop
        dsimp only
        by_cases hzero : size = 0
        · rw [if_pos hzero, Option.some.injEq, eq_comm]
          refine ⟨fun hnil => .inl ⟨hzero, hnil⟩, ?_⟩
          rintro (⟨-, hnil⟩ | ⟨value, -, -, hne, hsize, -⟩)
          · exact hnil
          · have hlen := List.length_pos_iff.2 hne
            omega
        · rw [if_neg hzero]
          by_cases hin : 0 ≤ size ∧ size.toNat ≤ (payload.drop 4).length
          · have hlen : ((payload.drop 4).take size.toNat).length = size.toNat :=
              List.length_take_of_le hin.2
            have hbehind : ((payload.drop 4).drop size.toNat).length ≤ rounds := by
              rw [List.length_drop]
              omega
            rw [if_neg (by omega), socketReceive, if_pos hin.2, Option.bind_some,
              Option.map_eq_some_iff]
            constructor
            · rintro ⟨more, hmore, rfl⟩
              exact .inr ⟨_, _, more, List.length_pos_iff.1 (by omega), by omega,
                (List.take_append_drop size.toNat _).symm, rfl, (ih hbehind).1 hmore⟩
            · rintro (⟨hfalse, -⟩ | ⟨value, behind, more, -, hsize, hrest, rfl, hmore⟩)
              · exact absurd hfalse hzero
              · have htake : (payload.drop 4).take size.toNat = value := by
                  rw [hrest, hsize, Int.toNat_natCast, List.take_left]
                have hrestDrop : (payload.drop 4).drop size.toNat = behind := by
                  rw [hrest, hsize, Int.toNat_natCast, List.drop_left]
                refine ⟨more, (ih hbehind).2 (by rw [hrestDrop]; exact hmore), ?_⟩
                rw [htake]
          · constructor
            · intro hsome
              split at hsome
              · exact absurd hsome (by simp)
              · rw [socketReceive, if_neg (by omega)] at hsome
                exact absurd hsome (by simp)
            · rintro (⟨hfalse, -⟩ | ⟨value, behind, more, -, hsize, hrest, -, -⟩)
              · exact absurd hfalse hzero
              · have hlen := congrArg List.length hrest
                rw [List.length_append] at hlen
                omega
      · rw [socketReceive, if_neg hheader, Option.bind_none]
        constructor
        · exact fun hfalse => absurd hfalse (by simp)
        · intro hformat
          have hne : payload ≠ [] := by
            rintro rfl
            exact absurd hpayload (by simp)
          exact absurd hformat (not_packetFormat_of_length_lt hne (by omega) values)

/-- A payload of three bytes ends inside the first size. -/
theorem not_decodedSafely_truncated :
    decodePacket [5, 0, 0] = .outside ∧ ¬ DecodedSafely [5, 0, 0] := by
  refine ⟨by decide, ?_⟩
  rintro ⟨values, hloop, -⟩
  exact absurd (hloop 4 (by decide)) (by simp [receivePacketLoop, copyPayload])

end OsSimulator
