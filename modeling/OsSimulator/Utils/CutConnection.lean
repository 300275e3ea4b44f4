import OsSimulator.Utils.PacketDecoding

set_option relaxedAutoImplicit false
set_option autoImplicit false

/-!
# A connection that is cut

`recv` with `MSG_WAITALL` returns what has arrived when the other side is gone, and `socket_receive`
takes any number of bytes for a success. What is not received stays as it was in memory, and memory
that has not been written holds anything.

## Main definitions

* `Uninitialised` — what memory holds that has not been written.
* `Cut.receiveOpCode`, `Cut.receiveBuffer`, `Cut.receivePacket` — the receiving functions.
* `Cut.receiveRun` — messages are received until the connection is closed.
* `Honest` — the messages that were sent, up to one, and a failure.
* `CutSafely` — the cut is in front of a message or behind an operation code.

## Main results

* `honest_iff_cutSafely` — exactly then every content of the memory gives an honest run.
-/

namespace OsSimulator

/-- What `op_code`, `*size` and the bytes of a `malloc` hold before they are written. -/
structure Uninitialised where
  opCode : ℕ → UInt8
  size : ℕ → UInt8
  heap : ℕ → UInt8

namespace Cut

/-- `socket_receive` of at least one byte into memory: whether any byte came, and the memory. -/
def socketReceive (memory : ℕ → UInt8) (size : ℕ) (connection : List UInt8) :
    Bool × List UInt8 × List UInt8 :=
  (decide (0 < (connection.take size).length),
    (List.range size).map fun i => (connection[i]?).getD (memory i), connection.drop size)

/-- `receive_op_code`. -/
def receiveOpCode (memory : Uninitialised) (connection : List UInt8) : ℤ × List UInt8 :=
  let received := socketReceive memory.opCode 4 connection
  (if received.1 then decodeInt received.2.1 else OP_CODE_ERROR, received.2.2)

/-- `receive_buffer`. A `malloc` of a negative size gives a null pointer, into which `recv` writes
nothing. -/
def receiveBuffer (memory : Uninitialised) (connection : List UInt8) :
    Option (List UInt8) × List UInt8 :=
  let received := socketReceive memory.size 4 connection
  if received.1 then
    let size := decodeInt received.2.1
    if size ≤ 0 then (none, received.2.2)
    else
      let buffer := socketReceive memory.heap size.toNat received.2.2
      (some buffer.2.1, buffer.2.2)
  else (none, received.2.2)

/-- `receive_string`. -/
def receiveString (memory : Uninitialised) (connection : List UInt8) :
    Option (List UInt8) × List UInt8 :=
  receiveBuffer memory connection

/-- `receive_packet`. -/
def receivePacket (memory : Uninitialised) (connection : List UInt8) :
    PacketOutcome × List UInt8 :=
  let received := receiveBuffer memory connection
  (decodePacket (received.1.getD []), received.2)

end Cut

/-- What the receiving side is given: `OP_CODE_ERROR`, or an operation code with the bytes at the
pointer, or with the outcome of `receive_packet`. -/
inductive Reception
  | closed
  | bytes (opCode : ℤ) (content : Option (List UInt8))
  | packet (opCode : ℤ) (outcome : PacketOutcome)
  deriving DecidableEq, Repr

namespace Cut

/-- A message of a kind. -/
def receive (memory : Uninitialised) (kind : WireKind) (connection : List UInt8) :
    Reception × List UInt8 :=
  let received := receiveOpCode memory connection
  if received.1 = OP_CODE_ERROR then (.closed, received.2)
  else match kind with
    | .buffer =>
      let content := receiveBuffer memory received.2
      (.bytes received.1 content.1, content.2)
    | .string =>
      let content := receiveString memory received.2
      (.bytes received.1 content.1, content.2)
    | .packet =>
      let values := receivePacket memory received.2
      (.packet received.1 values.1, values.2)

/-- Messages of the given kinds, and then one more, until the connection is closed. -/
def receiveRun : List WireKind → (ℕ → Uninitialised) → List UInt8 → List Reception
  | [], memory, connection => [(receive (memory 0) .buffer connection).1]
  | kind :: kinds, memory, connection =>
    let received := receive (memory 0) kind connection
    if received.1 = .closed then [.closed]
    else received.1 :: receiveRun kinds (fun n => memory (n + 1)) received.2

end Cut

namespace WireMessage

/-- The operation code of a message. -/
def opCode : WireMessage → ℤ
  | .buffer opCode _ => opCode
  | .string opCode _ => opCode
  | .packet opCode _ => opCode

/-- What is behind the size. -/
def stream : WireMessage → List UInt8
  | .buffer _ payload => payload
  | .string _ text => cString text ++ [0]
  | .packet _ elements => elements.foldl packetAppend []

/-- A message that has arrived. -/
def delivered : WireMessage → Reception
  | .buffer opCode payload => .bytes opCode (if payload = [] then none else some payload)
  | .string opCode text => .bytes opCode (some (text ++ [0]))
  | .packet opCode elements => .packet opCode (.returned elements)

/-- The failure of the function that receives the rest of a message: a null pointer or an empty
list. -/
def lost : WireMessage → Reception
  | .buffer opCode _ => .bytes opCode none
  | .string opCode _ => .bytes opCode none
  | .packet opCode _ => .packet opCode (.returned [])

end WireMessage

/-- **A prefix of the messages that were sent and then a failure.** -/
def Honest (messages : List WireMessage) (receptions : List Reception) : Prop :=
  ∃ k ≤ messages.length,
    receptions = (messages.take k).map WireMessage.delivered ++ [.closed] ∨
    ∃ message, messages[k]? = some message ∧
      receptions = (messages.take k).map WireMessage.delivered ++ [message.lost, .closed]

/-- **The cut is in front of a message or behind an operation code.** -/
def CutSafely (messages : List WireMessage) (cut : ℕ) : Prop :=
  ∃ k ≤ messages.length, cut = (sendAll (messages.take k)).length ∨
    k < messages.length ∧ cut = (sendAll (messages.take k)).length + 4

/-! ## One call -/

/-- An `int` is not empty. -/
lemma encodeInt_ne_nil (x : ℤ) : encodeInt x ≠ [] := by
  simp [encodeInt]

namespace Cut

variable {memory : ℕ → UInt8} {bytes connection : List UInt8}

/-- When everything arrives, that is received. -/
lemma socketReceive_append (memory : ℕ → UInt8) (h : bytes ≠ []) (rest : List UInt8) :
    socketReceive memory bytes.length (bytes ++ rest) = (true, bytes, rest) := by
  have hlen := List.length_pos_iff.2 h
  have hcontent : ((List.range bytes.length).map fun i => ((bytes ++ rest)[i]?).getD (memory i)) =
      bytes := by
    apply List.ext_getElem?
    intro i
    rw [List.getElem?_map]
    rcases Nat.lt_or_ge i bytes.length with hlt | hge
    · rw [List.getElem?_range hlt, Option.map_some, List.getElem?_append_left hlt,
        List.getElem?_eq_getElem hlt, Option.getD_some]
    · rw [List.getElem?_eq_none (by rw [List.length_range]; omega), List.getElem?_eq_none hge,
        Option.map_none]
  rw [socketReceive, hcontent, List.drop_left, List.take_left, decide_eq_true hlen]

/-- Nothing arrives any more. -/
lemma socketReceive_nil (size : ℕ) :
    socketReceive memory size [] = (false, (List.range size).map memory, []) := by
  simp [socketReceive]

/-- Too few bytes are a success, and the others are as the memory was. -/
lemma socketReceive_of_length_le (memory : ℕ → UInt8) {size : ℕ} (hne : connection ≠ [])
    (hpos : 0 < size)
    (hle : connection.length ≤ size) :
    socketReceive memory size connection =
      (true, (List.range size).map (fun i => (connection[i]?).getD (memory i)), []) := by
  have hlen := List.length_pos_iff.2 hne
  rw [socketReceive, List.drop_eq_nil_of_le hle, decide_eq_true]
  rw [List.length_take]
  omega

/-- The connection is closed. -/
lemma receive_nil (memory : Uninitialised) (kind : WireKind) :
    receive memory kind [] = (.closed, []) := by
  simp [receive, receiveOpCode, socketReceive_nil]

/-- On a connection that has ended the first call finds it closed. -/
lemma receiveRun_nil (kinds : List WireKind) (memory : ℕ → Uninitialised) :
    receiveRun kinds memory [] = [.closed] := by
  cases kinds with
  | nil => rw [receiveRun, receive_nil]
  | cons kind kinds => rw [receiveRun, receive_nil, if_pos rfl]

/-- A code that has arrived is received. -/
lemma receiveOpCode_append (memory : Uninitialised) {opCode : ℤ} (h : IsInt opCode)
    (rest : List UInt8) : receiveOpCode memory (encodeInt opCode ++ rest) = (opCode, rest) := by
  have hreceived := socketReceive_append memory.opCode (encodeInt_ne_nil opCode) rest
  rw [length_encodeInt] at hreceived
  rw [receiveOpCode, hreceived, if_pos rfl, decodeInt_encodeInt h]

/-- A stream behind its size. -/
lemma receiveBuffer_append (memory : Uninitialised) {stream : List UInt8}
    (h : (stream.length : ℤ) ≤ INT_MAX) (rest : List UInt8) :
    receiveBuffer memory (encodeInt stream.length ++ (stream ++ rest)) =
      (if stream = [] then none else some stream, rest) := by
  have hreceived := socketReceive_append memory.size (encodeInt_ne_nil stream.length)
    (stream ++ rest)
  rw [length_encodeInt] at hreceived
  rw [receiveBuffer, hreceived]
  simp only [if_true, decodeInt_encodeInt (isInt_length h)]
  by_cases hempty : stream = []
  · subst hempty
    rfl
  · have hlen := List.length_pos_iff.2 hempty
    rw [if_neg (by omega), if_neg hempty, Int.toNat_natCast, socketReceive_append _ hempty]

/-- What a receiving function makes of an operation code and the bytes of a stream. -/
def reception (kind : WireKind) (opCode : ℤ) (content : Option (List UInt8)) : Reception :=
  match kind with
  | .buffer => .bytes opCode content
  | .string => .bytes opCode content
  | .packet => .packet opCode (decodePacket (content.getD []))

/-- With a code that is no error the content comes next. -/
lemma receive_eq (memory : Uninitialised) (kind : WireKind) {opCode : ℤ}
    (hopCode : (receiveOpCode memory connection).1 = opCode) (hne : opCode ≠ OP_CODE_ERROR) :
    receive memory kind connection =
      (reception kind opCode (receiveBuffer memory (receiveOpCode memory connection).2).1,
        (receiveBuffer memory (receiveOpCode memory connection).2).2) := by
  subst hopCode
  cases kind <;> rw [receive, if_neg hne] <;> rfl

/-- Who has a content has not found the connection closed. -/
lemma reception_ne_closed (kind : WireKind) (opCode : ℤ) (content : Option (List UInt8)) :
    reception kind opCode content ≠ .closed := by
  cases kind <;> simp [reception]

end Cut

/-! ## One message -/

namespace WireMessage

variable {message : WireMessage}

/-- A message on the connection: code, size and bytes. -/
lemma send_eq (message : WireMessage) :
    message.send = encodeInt message.opCode ++
      (encodeInt message.stream.length ++ message.stream) := by
  cases message <;>
    rw [send, opCode, stream, ← List.append_assoc] <;> rfl

/-- Eight bytes in front of its own. -/
lemma length_send (message : WireMessage) : message.send.length = 8 + message.stream.length := by
  rw [send_eq, List.length_append, List.length_append, length_encodeInt, length_encodeInt]
  omega

/-- The code of a message is an `int`. -/
lemma Sendable.isInt_opCode (h : message.Sendable) : IsInt message.opCode := by
  cases message <;> exact h.1

/-- The elements of a packet are its format. -/
lemma Sendable.packetFormat {opCode : ℤ} {elements : List (List UInt8)}
    (h : (WireMessage.packet opCode elements).Sendable) :
    PacketFormat (elements.foldl packetAppend []) elements := by
  obtain ⟨-, hne, hsize⟩ := h
  refine ⟨fun value hvalue => ⟨hne value hvalue, ?_⟩, [], ?_, .inl rfl⟩
  · have hle := List.le_sum_of_mem
      (List.mem_map_of_mem (f := fun value : List UInt8 => value.length + 4) hvalue)
    omega
  · rw [foldl_packetAppend, List.nil_append, List.append_nil, packElements]

/-- So is its size. -/
lemma Sendable.length_stream_le (h : message.Sendable) :
    (message.stream.length : ℤ) ≤ INT_MAX := by
  cases message with
  | buffer opCode payload =>
    obtain ⟨-, hsize⟩ := h
    rw [stream]
    omega
  | string opCode text =>
    obtain ⟨-, hsize, hzero⟩ := h
    rw [stream, cString_of_not_mem hzero, List.length_append, List.length_singleton]
    omega
  | packet opCode elements =>
    obtain ⟨-, -, hsize⟩ := h
    rw [stream, foldl_packetAppend, List.nil_append, List.length_flatMap]
    simp only [List.length_append, length_encodeInt, Nat.add_comm 4]
    omega

/-- A message that has arrived is what its function makes of the whole stream. -/
lemma Sendable.delivered_eq (h : message.Sendable) :
    message.delivered = Cut.reception message.kind message.opCode
      (if message.stream = [] then none else some message.stream) := by
  cases message with
  | buffer opCode payload => rfl
  | string opCode text =>
    rw [stream, if_neg (by simp), delivered, cString_of_not_mem h.2.2]
    rfl
  | packet opCode elements =>
    have hdecode := decodePacket_eq_iff.2 (Sendable.packetFormat h)
    have hcontent : (if (packet opCode elements).stream = [] then none
        else some (packet opCode elements).stream).getD [] = elements.foldl packetAppend [] := by
      rw [stream]
      split
      · rename_i hempty
        rw [hempty]
        rfl
      · rfl
    change Reception.packet opCode (.returned elements) = .packet opCode (decodePacket
      ((if (packet opCode elements).stream = [] then none
        else some (packet opCode elements).stream).getD []))
    rw [hcontent, hdecode]

/-- A failure is what its function makes of no stream. -/
lemma lost_eq (message : WireMessage) :
    message.lost = Cut.reception message.kind message.opCode none := by
  cases message <;> rfl

end WireMessage

open WireMessage in
/-- **A message that arrives is delivered**, and the rest stays on the connection. -/
lemma receive_append (memory : Uninitialised) {message : WireMessage} (h : message.Sendable)
    (hne : message.opCode ≠ OP_CODE_ERROR) (rest : List UInt8) :
    Cut.receive memory message.kind (message.send ++ rest) = (message.delivered, rest) := by
  have hopCode := Cut.receiveOpCode_append memory h.isInt_opCode
    (encodeInt message.stream.length ++ (message.stream ++ rest))
  have hsend : message.send ++ rest = encodeInt message.opCode ++
      (encodeInt message.stream.length ++ (message.stream ++ rest)) := by
    rw [message.send_eq, List.append_assoc, List.append_assoc]
  rw [hsend, Cut.receive_eq memory message.kind (congrArg Prod.fst hopCode) hne, hopCode,
    Cut.receiveBuffer_append memory h.length_stream_le, h.delivered_eq]

/-! ## The cut -/

/-- The bytes of the first messages of a list. -/
lemma length_sendAll_take_cons (message : WireMessage) (messages : List WireMessage) (k : ℕ) :
    (sendAll ((message :: messages).take (k + 1))).length =
      message.send.length + (sendAll (messages.take k)).length := by
  rw [List.take_succ_cons, sendAll, List.flatMap_cons, List.length_append, sendAll]

/-- In front of the next message, or behind its operation code. -/
lemma cutSafely_cons_of_lt {message : WireMessage} {messages : List WireMessage} {cut : ℕ}
    (hlt : cut < message.send.length) :
    CutSafely (message :: messages) cut ↔ cut = 0 ∨ cut = 4 := by
  constructor
  · rintro ⟨k, -, hcut⟩
    cases k with
    | zero =>
      have hzero : (sendAll ((message :: messages).take 0)).length = 0 := rfl
      omega
    | succ k =>
      have hlength := length_sendAll_take_cons message messages k
      omega
  · rintro (rfl | rfl)
    · exact ⟨0, Nat.zero_le _, .inl rfl⟩
    · exact ⟨0, Nat.zero_le _, .inr ⟨Nat.succ_pos _, rfl⟩⟩

/-- Behind the next message it is a cut of the others. -/
lemma cutSafely_cons_of_le {message : WireMessage} {messages : List WireMessage} {cut : ℕ}
    (hle : message.send.length ≤ cut) :
    CutSafely (message :: messages) cut ↔ CutSafely messages (cut - message.send.length) := by
  have hsize := message.length_send
  constructor
  · rintro ⟨k, hk, hcut⟩
    cases k with
    | zero =>
      have hzero : (sendAll ((message :: messages).take 0)).length = 0 := rfl
      omega
    | succ k =>
      have hlength := length_sendAll_take_cons message messages k
      simp only [List.length_cons] at hk hcut
      exact ⟨k, by omega, by omega⟩
  · rintro ⟨k, hk, hcut⟩
    have hlength := length_sendAll_take_cons message messages k
    refine ⟨k + 1, by simpa using hk, ?_⟩
    simp only [List.length_cons]
    omega

/-- An honest run begins with the end, with the next message, or with its failure. -/
lemma honest_cons_iff {message : WireMessage} {messages : List WireMessage}
    {receptions : List Reception} :
    Honest (message :: messages) receptions ↔ receptions = [.closed] ∨
      receptions = [message.lost, .closed] ∨
      ∃ rest, receptions = message.delivered :: rest ∧ Honest messages rest := by
  constructor
  · rintro ⟨k, hk, h⟩
    cases k with
    | zero =>
      rcases h with h | ⟨next, hnext, h⟩
      · exact .inl h
      · obtain rfl := Option.some.inj hnext
        exact .inr (.inl h)
    | succ k =>
      rw [List.take_succ_cons, List.map_cons] at h
      refine .inr (.inr ?_)
      rcases h with h | ⟨next, hnext, h⟩
      · exact ⟨_, h, k, by simpa using hk, .inl rfl⟩
      · exact ⟨_, h, k, by simpa using hk, .inr ⟨next, hnext, rfl⟩⟩
  · rintro (h | h | ⟨rest, rfl, k, hk, h⟩)
    · exact ⟨0, Nat.zero_le _, .inl h⟩
    · exact ⟨0, Nat.zero_le _, .inr ⟨message, rfl, h⟩⟩
    · refine ⟨k + 1, by simpa using hk, ?_⟩
      rw [List.take_succ_cons, List.map_cons]
      rcases h with rfl | ⟨next, hnext, rfl⟩
      · exact .inl rfl
      · exact .inr ⟨next, hnext, rfl⟩

/-- A message of a kind is received first. -/
lemma receiveRun_cons (memory : ℕ → Uninitialised) {kind : WireKind} (kinds : List WireKind)
    {connection rest : List UInt8} {reception : Reception}
    (h : Cut.receive (memory 0) kind connection = (reception, rest)) (hne : reception ≠ .closed) :
    Cut.receiveRun (kind :: kinds) memory connection =
      reception :: Cut.receiveRun kinds (fun n => memory (n + 1)) rest := by
  rw [Cut.receiveRun, h, if_neg hne]

/-! ## A cut inside a message -/

/-- What no honest run begins with. -/
def MadeUp (message : WireMessage) (reception : Reception) : Prop :=
  reception ≠ .closed ∧ reception ≠ message.delivered ∧ reception ≠ message.lost

/-- A number whose last byte is known. -/
lemma decodeInt_bounds (a b c : UInt8) {d : UInt8} (hd : d.toNat < 128) :
    16777216 * (d.toNat : ℤ) ≤ decodeInt [a, b, c, d] ∧
      decodeInt [a, b, c, d] < 16777216 * ((d.toNat : ℤ) + 1) := by
  have ha := a.toNat_lt
  have hb := b.toNat_lt
  have hc := c.toNat_lt
  rw [decodeInt, i32_of_nonneg (by omega) (by unfold INT_MAX; omega)]
  omega

/-- **Bytes that have not been written give another number**: four bytes of which the last is as the
memory was. -/
lemma exists_decodeInt_ne (x : ℤ) : ∃ b : UInt8, ∀ bytes : List UInt8, bytes.length < 4 →
    4 ≤ decodeInt ((List.range 4).map fun i => (bytes[i]?).getD b) ∧
      decodeInt ((List.range 4).map fun i => (bytes[i]?).getD b) ≠ x := by
  have hlast : ∀ (b : UInt8) (bytes : List UInt8), b.toNat < 128 → bytes.length < 4 →
      16777216 * (b.toNat : ℤ) ≤
        decodeInt ((List.range 4).map fun i => (bytes[i]?).getD b) ∧
      decodeInt ((List.range 4).map fun i => (bytes[i]?).getD b) <
        16777216 * ((b.toNat : ℤ) + 1) := by
    intro b bytes hb hbytes
    have hnone : (bytes[3]?).getD b = b := by
      rw [List.getElem?_eq_none (by omega), Option.getD_none]
    have hbounds := decodeInt_bounds ((bytes[0]?).getD b) ((bytes[1]?).getD b)
      ((bytes[2]?).getD b) hb
    have hrange : ((List.range 4).map fun i => (bytes[i]?).getD b) =
        [(bytes[0]?).getD b, (bytes[1]?).getD b, (bytes[2]?).getD b, (bytes[3]?).getD b] := rfl
    rw [hrange, hnone]
    exact hbounds
  by_cases hx : x < 33554432
  · refine ⟨2, fun bytes hbytes => ?_⟩
    have hbounds := hlast 2 bytes (by decide) hbytes
    have htwo : ((2 : UInt8).toNat : ℤ) = 2 := rfl
    omega
  · refine ⟨1, fun bytes hbytes => ?_⟩
    have hbounds := hlast 1 bytes (by decide) hbytes
    have hone : ((1 : UInt8).toNat : ℤ) = 1 := rfl
    omega

namespace Cut

variable {message : WireMessage}

/-- Another operation code is none that was sent. -/
lemma madeUp_of_opCode (h : message.Sendable) {opCode : ℤ} (hne : opCode ≠ message.opCode)
    (content : Option (List UInt8)) :
    MadeUp message (reception message.kind opCode content) := by
  refine ⟨reception_ne_closed _ _ _, ?_, ?_⟩
  · rw [h.delivered_eq]
    cases message <;> simp only [reception, WireMessage.kind] <;> intro heq <;>
      injection heq with hop _ <;> exact hne hop
  · rw [message.lost_eq]
    cases message <;> simp only [reception, WireMessage.kind] <;> intro heq <;>
      injection heq with hop _ <;> exact hne hop

/-- Other bytes are none that were sent. -/
lemma madeUp_of_content (h : message.Sendable) {content : List UInt8}
    (hne : content ≠ message.stream)
    (hpacket : message.kind = .packet → ∀ values, PacketFormat content values →
      values ≠ [] ∧ ¬ PacketFormat message.stream values) :
    MadeUp message (reception message.kind message.opCode (some content)) := by
  refine ⟨reception_ne_closed _ _ _, fun hdelivered => ?_, fun hlost => ?_⟩
  · cases message with
    | buffer opCode payload =>
      injection hdelivered with _ hcontent
      split at hcontent
      · exact absurd hcontent (by simp)
      · exact hne (Option.some.inj hcontent)
    | string opCode text =>
      injection hdelivered with _ hcontent
      apply hne
      rw [Option.some.inj hcontent, WireMessage.stream, cString_of_not_mem h.2.2]
    | packet opCode elements =>
      injection hdelivered with _ houtcome
      exact (hpacket rfl elements (decodePacket_eq_iff.1 houtcome)).2
        (WireMessage.Sendable.packetFormat h)
  · cases message with
    | buffer opCode payload =>
      injection hlost with _ hcontent
      exact absurd hcontent (by simp)
    | string opCode text =>
      injection hlost with _ hcontent
      exact absurd hcontent (by simp)
    | packet opCode elements =>
      injection hlost with _ houtcome
      exact (hpacket rfl [] (decodePacket_eq_iff.1 houtcome)).1 rfl

/-- **A cut inside the operation code.** -/
lemma exists_madeUp_of_cut_opCode (h : message.Sendable) {cut : ℕ} (hpos : 0 < cut)
    (hlt : cut < 4) :
    ∃ memory, MadeUp message (receive memory message.kind (message.send.take cut)).1 := by
  obtain ⟨b, hb⟩ := exists_decodeInt_ne message.opCode
  have hlength : (message.send.take cut).length = cut := by
    rw [List.length_take_of_le]
    rw [message.length_send]
    omega
  have hreceived := socketReceive_of_length_le (fun _ => b)
    (List.length_pos_iff.1 (by omega)) (show 0 < 4 by omega) (hlength.trans_le (Nat.le_of_lt hlt))
  obtain ⟨hvalue, hother⟩ := hb (message.send.take cut) (by omega)
  obtain ⟨opCode, hdef⟩ : ∃ opCode, opCode =
      decodeInt ((List.range 4).map fun i => ((message.send.take cut)[i]?).getD b) := ⟨_, rfl⟩
  rw [← hdef] at hvalue hother
  have hopCode : ∀ memory : Uninitialised, memory.opCode = (fun _ => b) →
      receiveOpCode memory (message.send.take cut) = (opCode, []) := by
    intro memory hmemory
    rw [receiveOpCode, hmemory, hreceived, hdef, if_pos rfl]
  refine ⟨⟨fun _ => b, fun _ => b, fun _ => b⟩, ?_⟩
  have hne : opCode ≠ OP_CODE_ERROR := by
    unfold OP_CODE_ERROR
    omega
  rw [receive_eq _ message.kind (congrArg Prod.fst (hopCode _ rfl)) hne]
  exact madeUp_of_opCode h hother _

/-- Behind the operation code. -/
lemma receive_take (memory : Uninitialised) (h : message.Sendable)
    (hne : message.opCode ≠ OP_CODE_ERROR) {cut : ℕ} (hle : 4 ≤ cut) :
    (receive memory message.kind (message.send.take cut)).1 =
      reception message.kind message.opCode (receiveBuffer memory
        ((encodeInt message.stream.length ++ message.stream).take (cut - 4))).1 := by
  have hconnection : message.send.take cut = encodeInt message.opCode ++
      (encodeInt message.stream.length ++ message.stream).take (cut - 4) := by
    rw [message.send_eq, List.take_append, length_encodeInt,
      List.take_of_length_le ((length_encodeInt _).trans_le hle)]
  have hopCode := receiveOpCode_append memory h.isInt_opCode
    ((encodeInt message.stream.length ++ message.stream).take (cut - 4))
  rw [hconnection, receive_eq memory message.kind (congrArg Prod.fst hopCode) hne, hopCode]

/-- Bytes that begin with a negative size are no packet. -/
lemma not_packetFormat_of_neg {header rest : List UInt8} (hheader : header.length = 4)
    (hneg : decodeInt header < 0) (values : List (List UInt8)) :
    ¬ PacketFormat (header ++ rest) values := by
  rw [packetFormat_append_iff hheader]
  rintro (⟨hzero, -⟩ | ⟨value, -, -, -, hsize, -⟩)
  · omega
  · omega

/-- **A cut inside the size**: another size, and as many bytes as the memory had. -/
lemma exists_madeUp_of_cut_size (h : message.Sendable) (hne : message.opCode ≠ OP_CODE_ERROR)
    {cut : ℕ} (hlt : 4 < cut) (hlt' : cut < 8) :
    ∃ memory, MadeUp message (receive memory message.kind (message.send.take cut)).1 := by
  obtain ⟨b, hb⟩ := exists_decodeInt_ne message.stream.length
  set part := (encodeInt message.stream.length ++ message.stream).take (cut - 4) with hpart
  have hlength : part.length = cut - 4 := by
    rw [hpart, List.length_take_of_le]
    rw [List.length_append, length_encodeInt]
    omega
  have hreceived := socketReceive_of_length_le (fun _ => b)
    (List.length_pos_iff.1 (show 0 < part.length by omega)) (show 0 < 4 by omega)
    (show part.length ≤ 4 by omega)
  obtain ⟨hvalue, hother⟩ := hb part (by omega)
  set size := decodeInt ((List.range 4).map fun i => (part[i]?).getD b) with hsize
  set memory : Uninitialised := ⟨fun _ => 0, fun _ => b, fun _ => 255⟩
  have hbuffer : (receiveBuffer memory part).1 =
      some ((List.range size.toNat).map fun _ => 255) := by
    rw [receiveBuffer, hreceived]
    simp only [if_true, ← hsize]
    rw [if_neg (by omega), socketReceive_nil]
  refine ⟨memory, ?_⟩
  rw [receive_take memory h hne hlt.le, hbuffer]
  apply madeUp_of_content h
  · intro heq
    have hlen := congrArg List.length heq
    rw [List.length_map, List.length_range] at hlen
    omega
  · -- a packet of such bytes begins with a negative size
    intro _ values hformat
    obtain ⟨n, hn⟩ : ∃ n, size.toNat = 4 + n := ⟨size.toNat - 4, by omega⟩
    rw [hn, List.map_const', List.length_range, List.replicate_add] at hformat
    exact absurd hformat (not_packetFormat_of_neg (List.length_replicate) (by decide) values)

/-- As many other bytes that have a format have not that of the packet that was sent. -/
lemma packetFormat_of_other (h : message.Sendable) (hkind : message.kind = .packet)
    {content : List UInt8} {values : List (List UInt8)} (hformat : PacketFormat content values)
    (hlength : content.length = message.stream.length) (hother : content ≠ message.stream)
    (hne : message.stream ≠ [])
    (hzero : content.take 4 = encodeInt 0 → message.stream.take 4 = encodeInt 0) :
    values ≠ [] ∧ ¬ PacketFormat message.stream values := by
  obtain ⟨opCode, elements, rfl⟩ : ∃ opCode elements, message = .packet opCode elements := by
    cases message with
    | packet opCode elements => exact ⟨opCode, elements, rfl⟩
    | buffer _ _ => exact absurd hkind (by simp [WireMessage.kind])
    | string _ _ => exact absurd hkind (by simp [WireMessage.kind])
  have hsent := WireMessage.Sendable.packetFormat h
  have hstream : (WireMessage.packet opCode elements).stream = packElements elements := by
    rw [WireMessage.stream, foldl_packetAppend, List.nil_append, packElements]
  constructor
  · rintro rfl
    obtain ⟨-, tail, heq, rfl | ⟨rest, rfl⟩⟩ := hformat
    · rw [packElements, List.flatMap_nil, List.append_nil] at heq
      rw [heq] at hlength
      exact hne (List.length_eq_zero_iff.1 hlength.symm)
    · rw [packElements, List.flatMap_nil, List.nil_append] at heq
      have htake := hzero (by rw [heq, ← length_encodeInt 0, List.take_left])
      have hempty : PacketFormat (WireMessage.packet opCode elements).stream [] := by
        refine ⟨fun _ hv => absurd hv List.not_mem_nil,
          (WireMessage.packet opCode elements).stream, rfl, .inr ⟨
          (WireMessage.packet opCode elements).stream.drop 4, ?_⟩⟩
        rw [← htake, List.take_append_drop]
      have helements := packetFormat_unique hempty hsent
      rw [hstream, ← helements] at hne
      exact hne rfl
  · intro hvalues
    obtain rfl := packetFormat_unique hvalues hsent
    obtain ⟨-, tail, heq, -⟩ := hformat
    rw [heq, hstream, List.length_append] at hlength
    obtain rfl : tail = [] := List.length_eq_zero_iff.1 (by omega)
    rw [List.append_nil, ← hstream] at heq
    exact hother heq

/-- **A cut inside the stream**: the missing bytes are as the memory was. -/
lemma exists_madeUp_of_cut_stream (h : message.Sendable) (hne : message.opCode ≠ OP_CODE_ERROR)
    {cut : ℕ} (hle : 8 ≤ cut) (hlt : cut < message.send.length) :
    ∃ memory, MadeUp message (receive memory message.kind (message.send.take cut)).1 := by
  rw [message.length_send] at hlt
  -- every missing byte is another one than was sent, and none is zero
  set heap : ℕ → UInt8 := fun i => if message.stream[i]? = some 255 then 254 else 255 with hheap
  set part := message.stream.take (cut - 8) with hpart
  set content := (List.range message.stream.length).map fun i => (part[i]?).getD (heap i)
    with hcontent
  have hlength : content.length = message.stream.length := by
    rw [hcontent, List.length_map, List.length_range]
  have hget : ∀ i < message.stream.length, content[i]? = some ((part[i]?).getD (heap i)) := by
    intro i hi
    rw [hcontent, List.getElem?_map, List.getElem?_range hi, Option.map_some]
  have hmissing : ∀ i < message.stream.length, cut - 8 ≤ i → content[i]? = some (heap i) := by
    intro i hi hge
    rw [hget i hi, hpart, List.getElem?_take_eq_none hge, Option.getD_none]
  have hother : content ≠ message.stream := by
    intro heq
    have hbyte := hmissing (cut - 8) (by omega) (Nat.le_refl _)
    rw [heq] at hbyte
    have hheapi : heap (cut - 8) = if message.stream[cut - 8]? = some 255 then 254 else 255 := rfl
    by_cases h255 : message.stream[cut - 8]? = some 255
    · rw [if_pos h255] at hheapi
      rw [h255, hheapi] at hbyte
      exact absurd hbyte (by decide)
    · rw [if_neg h255] at hheapi
      rw [hheapi] at hbyte
      exact h255 hbyte
  have hbuffer : (receiveBuffer ⟨heap, heap, heap⟩
      ((encodeInt message.stream.length ++ message.stream).take (cut - 4))).1 = some content := by
    have htake : (encodeInt message.stream.length ++ message.stream).take (cut - 4) =
        encodeInt message.stream.length ++ part := by
      rw [List.take_append, length_encodeInt, List.take_of_length_le
        ((length_encodeInt _).trans_le (by omega)), hpart, Nat.sub_sub]
    have hreceived := socketReceive_append heap (encodeInt_ne_nil message.stream.length) part
    rw [length_encodeInt] at hreceived
    rw [htake, receiveBuffer, hreceived]
    simp only [if_true, decodeInt_encodeInt (isInt_length h.length_stream_le)]
    rw [if_neg (by omega), Int.toNat_natCast]
    rfl
  refine ⟨⟨heap, heap, heap⟩, ?_⟩
  rw [receive_take _ h hne (by omega), hbuffer]
  apply madeUp_of_content h hother
  intro hkind values hformat
  have hne' : message.stream ≠ [] := List.length_pos_iff.1 (by omega)
  refine packetFormat_of_other h hkind hformat hlength hother hne' fun hzero => ?_
  have hfour : 4 ≤ content.length := by
    have hlen := congrArg List.length hzero
    rw [List.length_take, length_encodeInt] at hlen
    omega
  have hlast : content[3]? = some 0 := by
    rw [← List.getElem?_take_of_lt (show 3 < 4 by omega), hzero]
    rfl
  have hgt : 3 < cut - 8 := by
    by_contra hge
    rw [hmissing 3 (by omega) (by omega), Option.some.injEq, hheap] at hlast
    revert hlast
    dsimp only
    split <;> decide
  rw [← hzero]
  apply List.ext_getElem?
  intro i
  by_cases hi : i < 4
  · rw [List.getElem?_take_of_lt hi, List.getElem?_take_of_lt hi, hget i (by omega), hpart,
      List.getElem?_take_of_lt (by omega), List.getElem?_eq_getElem (by omega), Option.getD_some]
  · rw [List.getElem?_take_eq_none (by omega), List.getElem?_take_eq_none (by omega)]

end Cut

/-! ## The runs -/

/-- A cut inside a message. -/
lemma exists_not_honest {message : WireMessage} (messages : List WireMessage)
    (h : message.Sendable) (hne : message.opCode ≠ OP_CODE_ERROR) {cut : ℕ}
    (hlt : cut < message.send.length) (hzero : cut ≠ 0) (hfour : cut ≠ 4)
    (kinds : List WireKind) :
    ∃ memory : ℕ → Uninitialised, ¬ Honest (message :: messages)
      (Cut.receiveRun (message.kind :: kinds) memory (message.send.take cut)) := by
  have hfirst : ∃ memory, MadeUp message
      (Cut.receive memory message.kind (message.send.take cut)).1 := by
    rcases Nat.lt_or_ge cut 4 with hlow | hge
    · exact Cut.exists_madeUp_of_cut_opCode h (Nat.pos_of_ne_zero hzero) hlow
    · rcases Nat.lt_or_ge cut 8 with hmid | hhigh
      · exact Cut.exists_madeUp_of_cut_size h hne (by omega) hmid
      · exact Cut.exists_madeUp_of_cut_stream h hne hhigh hlt
  obtain ⟨memory, hclosed, hdelivered, hlost⟩ := hfirst
  refine ⟨fun _ => memory, ?_⟩
  rw [receiveRun_cons (fun _ => memory) kinds rfl hclosed, honest_cons_iff]
  rintro (h | h | ⟨rest, h, -⟩)
  · exact hclosed (List.cons.inj h).1
  · exact hlost (List.cons.inj h).1
  · exact hdelivered (List.cons.inj h).1

/-- A cut in front of a message or behind an operation code. -/
lemma honest_of_cut {message : WireMessage} {messages : List WireMessage}
    (h : message.Sendable) (hne : message.opCode ≠ OP_CODE_ERROR) {cut : ℕ}
    (hcut : cut = 0 ∨ cut = 4) (kinds : List WireKind) (memory : ℕ → Uninitialised) :
    Honest (message :: messages)
      (Cut.receiveRun (message.kind :: kinds) memory (message.send.take cut)) := by
  rw [honest_cons_iff]
  rcases hcut with rfl | rfl
  · rw [List.take_zero]
    exact .inl (Cut.receiveRun_nil _ _)
  · have hconnection : message.send.take 4 = encodeInt message.opCode ++ [] := by
      rw [message.send_eq, ← length_encodeInt message.opCode, List.take_left, List.append_nil]
    have hopCode := Cut.receiveOpCode_append (memory 0) h.isInt_opCode []
    have hbuffer : Cut.receiveBuffer (memory 0) [] = (none, []) := by
      rw [Cut.receiveBuffer, Cut.socketReceive_nil]
      rfl
    have hreceive : Cut.receive (memory 0) message.kind (message.send.take 4) =
        (message.lost, []) := by
      rw [hconnection, Cut.receive_eq _ message.kind (congrArg Prod.fst hopCode) hne, hopCode,
        hbuffer, message.lost_eq]
    have hlost : message.lost ≠ .closed := by
      rw [message.lost_eq]
      exact Cut.reception_ne_closed _ _ _
    rw [receiveRun_cons memory kinds hreceive hlost, Cut.receiveRun_nil]
    exact .inr (.inl rfl)

/-- **A cut connection gives a prefix of the messages and a failure, whatever the memory held,
exactly when the cut is in front of a message or behind an operation code.**

**Proof sketch.** Induction on the messages. In front of the first one that is cut everything is
received as it was sent. Inside it, one content of the memory gives another operation code, another
size, or other bytes of the stream. -/
theorem honest_iff_cutSafely {messages : List WireMessage}
    (h : ∀ message ∈ messages, message.Sendable ∧ message.opCode ≠ OP_CODE_ERROR) {cut : ℕ}
    (hcut : cut ≤ (sendAll messages).length) :
    (∀ memory, Honest messages
      (Cut.receiveRun (messages.map WireMessage.kind) memory ((sendAll messages).take cut))) ↔
    CutSafely messages cut := by
  induction messages generalizing cut with
  | nil =>
    obtain rfl : cut = 0 := by simpa [sendAll] using hcut
    constructor
    · exact fun _ => ⟨0, Nat.le_refl _, .inl rfl⟩
    · intro _ memory
      exact ⟨0, Nat.le_refl _, .inl (Cut.receiveRun_nil _ _)⟩
  | cons message messages ih =>
    obtain ⟨hsendable, hne⟩ := h message List.mem_cons_self
    have hrest : ∀ m ∈ messages, m.Sendable ∧ m.opCode ≠ OP_CODE_ERROR := fun m hm =>
      h m (List.mem_cons_of_mem message hm)
    have hsend : sendAll (message :: messages) = message.send ++ sendAll messages := rfl
    rw [hsend, List.length_append] at hcut
    rw [List.map_cons, hsend, List.take_append]
    rcases Nat.lt_or_ge cut message.send.length with hlt | hge
    · rw [cutSafely_cons_of_lt hlt, Nat.sub_eq_zero_of_le hlt.le, List.take_zero, List.append_nil]
      constructor
      · intro hhonest
        by_contra hinside
        obtain ⟨memory, hnot⟩ := exists_not_honest messages hsendable hne hlt
          (fun heq => hinside (.inl heq)) (fun heq => hinside (.inr heq))
          (messages.map WireMessage.kind)
        exact hnot (hhonest memory)
      · exact fun hcut memory => honest_of_cut hsendable hne hcut _ memory
    · rw [cutSafely_cons_of_le hge, List.take_of_length_le hge, ← ih hrest (by omega)]
      set rest := (sendAll messages).take (cut - message.send.length)
      have hdelivered : message.delivered ≠ .closed := by
        rw [hsendable.delivered_eq]
        exact Cut.reception_ne_closed _ _ _
      have hrun : ∀ memory : ℕ → Uninitialised,
          Cut.receiveRun (message.kind :: messages.map WireMessage.kind) memory
            (message.send ++ rest) = message.delivered ::
              Cut.receiveRun (messages.map WireMessage.kind) (fun n => memory (n + 1)) rest := by
        intro memory
        exact receiveRun_cons memory _ (receive_append (memory 0) hsendable hne rest) hdelivered
      constructor
      · intro hhonest memory
        have hfirst := hhonest fun n => memory (n - 1)
        rw [hrun, honest_cons_iff] at hfirst
        simp only [Nat.add_sub_cancel] at hfirst
        rcases hfirst with hfalse | hlost | ⟨tail, heq, hhonest'⟩
        · exact absurd (List.cons.inj hfalse).1 hdelivered
        · rw [(List.cons.inj hlost).2]
          exact ⟨0, Nat.zero_le _, .inl rfl⟩
        · rw [(List.cons.inj heq).2]
          exact hhonest'
      · intro hhonest memory
        rw [hrun, honest_cons_iff]
        exact .inr (.inr ⟨_, rfl, hhonest _⟩)

/-- Two messages, cut behind the second operation code. -/
theorem honest_iff_cutSafely_two :
    CutSafely [.buffer 5 [1, 2], .packet 6 [[3]]] 14 ∧
      ∀ memory, Honest [.buffer 5 [1, 2], .packet 6 [[3]]] (Cut.receiveRun [.buffer, .packet] memory
        ((sendAll [.buffer 5 [1, 2], .packet 6 [[3]]]).take 14)) := by
  have hsendable : ∀ message ∈ [WireMessage.buffer 5 [1, 2], .packet 6 [[3]]],
      message.Sendable ∧ message.opCode ≠ OP_CODE_ERROR := by
    intro message hmessage
    simp only [List.mem_cons, List.not_mem_nil, or_false] at hmessage
    rcases hmessage with rfl | rfl
    · exact ⟨⟨⟨by decide, by decide⟩, by decide⟩, by decide⟩
    · exact ⟨⟨⟨by decide, by decide⟩, by simp, by decide⟩, by decide⟩
  have hcut : CutSafely [.buffer 5 [1, 2], .packet 6 [[3]]] 14 := ⟨1, by decide, .inr (by decide)⟩
  exact ⟨hcut, (honest_iff_cutSafely hsendable (by decide)).2 hcut⟩

/-- The process id of a request is cut after its first byte: the other bytes of it are as the memory
was. -/
theorem not_honest_of_cut_payload :
    Cut.receiveRun [.buffer] (fun _ => ⟨fun _ => 0, fun _ => 0, fun _ => 7⟩)
        ((sendAll [.buffer OP_END_PROCESS (encodeInt 1)]).take 9) =
      [.bytes OP_END_PROCESS (some [1, 7, 7, 7]), .closed] ∧
    ¬ Honest [.buffer OP_END_PROCESS (encodeInt 1)]
      (Cut.receiveRun [.buffer] (fun _ => ⟨fun _ => 0, fun _ => 0, fun _ => 7⟩)
        ((sendAll [.buffer OP_END_PROCESS (encodeInt 1)]).take 9)) := by
  have hrun : Cut.receiveRun [.buffer] (fun _ => ⟨fun _ => 0, fun _ => 0, fun _ => 7⟩)
      ((sendAll [.buffer OP_END_PROCESS (encodeInt 1)]).take 9) =
        [.bytes OP_END_PROCESS (some [1, 7, 7, 7]), .closed] := by decide
  refine ⟨hrun, ?_⟩
  rw [hrun]
  rintro ⟨k, hk, h⟩
  have hcases : k = 0 ∨ k = 1 := by
    simp only [List.length_singleton] at hk
    omega
  rcases hcases with rfl | rfl
  · rcases h with h | ⟨message, hmessage, h⟩
    · exact absurd h (by decide)
    · obtain rfl := Option.some.inj hmessage
      exact absurd h (by decide)
  · rcases h with h | ⟨message, hmessage, -⟩
    · exact absurd h (by decide)
    · exact absurd hmessage (by simp)

end OsSimulator
