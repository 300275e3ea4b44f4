import OsSimulator.Utils.Msg

set_option relaxedAutoImplicit false
set_option autoImplicit false

/-!
# One direction of a connection

A message is read in two parts, its operation code and then its payload, by two calls that other
messages may arrive between. A channel keeps the bytes that are on their way together with the
messages that were put on it and the ones that were taken from it. Every message that is sent has a
note, which is not on the wire: who sent it, say.

## Main definitions

* `Frame` — an operation code with a payload.
* `Channel` — the bytes on their way, what was sent and what was received.
* `Channel.InStep` — what was received is the beginning of what was sent.
* `Channel.Whole c opened` — the reader stands between two messages, or behind the operation code
  `opened` of a message.

## Main results

* `Channel.Whole.receiveOpCode`, `Channel.Whole.receivePayload` — the two parts are read as they
  were sent, and the reader stands where it should.
-/

namespace OsSimulator

/-- A message on the wire. -/
structure Frame where
  opCode : ℤ
  payload : List UInt8
  deriving DecidableEq, Repr

namespace Frame

/-- `serialize_packet` of the message. -/
def wire (f : Frame) : List UInt8 := serializePacket f.opCode f.payload

/-- Both the operation code and the length on the wire are an `int`. -/
def Sendable (f : Frame) : Prop := IsInt f.opCode ∧ (f.payload.length + 8 : ℤ) ≤ INT_MAX

instance (f : Frame) : Decidable f.Sendable := inferInstanceAs (Decidable (_ ∧ _))

end Frame

/-- The bytes of messages that follow one another. -/
def wires {α : Type} (messages : List (Frame × α)) : List UInt8 :=
  messages.flatMap fun message => message.1.wire

/-- One direction of a connection, with the history of both its ends. -/
structure Channel (α : Type) where
  bytes : List UInt8
  sent : List (Frame × α)
  received : List Frame
  deriving DecidableEq, Repr

namespace Channel

variable {α : Type} {c : Channel α} {opened : Option ℤ}

/-- A channel that nothing was sent on. -/
def empty : Channel α := ⟨[], [], []⟩

/-- `socket_send` of a whole message. -/
def send (c : Channel α) (f : Frame) (note : α) : Channel α :=
  { c with bytes := c.bytes ++ f.wire, sent := c.sent ++ [(f, note)] }

/-- `receive_op_code`. -/
def receiveOpCode (c : Channel α) : Option (ℤ × Channel α) :=
  (OsSimulator.receiveOpCode c.bytes).map fun received =>
    (received.1, { c with bytes := received.2 })

/-- `receive_buffer` or `receive_string` of a message with that operation code. -/
def receivePayload (opCode : ℤ) (c : Channel α) : Option (Option (List UInt8) × Channel α) :=
  (receiveBuffer c.bytes).map fun payload =>
    (payload.1, ⟨payload.2, c.sent, c.received ++ [⟨opCode, payload.1.getD []⟩]⟩)

/-- The messages that were not read whole. -/
def unread (c : Channel α) : List (Frame × α) := c.sent.drop c.received.length

/-- The note of the next message. -/
def nextNote (c : Channel α) : Option α := c.unread.head?.map Prod.snd

/-- The messages were read as they were sent, in order and without a gap. -/
def InStep (c : Channel α) : Prop := c.received <+: c.sent.map Prod.fst

/-- The reader stands behind the operation code `opened` of the first unread message, or in front of
it if there is none. -/
structure Whole (c : Channel α) (opened : Option ℤ) : Prop where
  inStep : c.InStep
  sendable : ∀ message ∈ c.unread, message.1.Sendable
  bytes : c.bytes = if opened.isSome then (wires c.unread).drop 4 else wires c.unread
  opened : ∀ opCode ∈ opened, ∃ message rest, c.unread = message :: rest ∧
    message.1.opCode = opCode

/-- At the start nothing is unread. -/
@[simp] lemma unread_empty : (empty : Channel α).unread = [] := rfl

/-- At the start everything is whole. -/
lemma whole_empty : (empty : Channel α).Whole none :=
  ⟨List.nil_prefix, by simp, rfl, by simp⟩

/-- To receive a code changes nothing of what is recorded. -/
@[simp] lemma sent_receiveOpCode {opCode : ℤ} {c' : Channel α}
    (h : c.receiveOpCode = some (opCode, c')) : c'.sent = c.sent ∧ c'.received = c.received := by
  obtain ⟨received, -, heq⟩ := Option.map_eq_some_iff.1 h
  obtain ⟨-, rfl⟩ := Prod.mk.inj heq
  exact ⟨rfl, rfl⟩

/-- The operation code does not count as a message. -/
lemma unread_receiveOpCode {opCode : ℤ} {c' : Channel α}
    (h : c.receiveOpCode = some (opCode, c')) : c'.unread = c.unread := by
  obtain ⟨hsent, hreceived⟩ := sent_receiveOpCode h
  rw [unread, hsent, hreceived, unread]

/-- No more was received than was sent. -/
lemma InStep.length_le (h : c.InStep) : c.received.length ≤ c.sent.length := by
  have hle := List.IsPrefix.length_le h
  rwa [List.length_map] at hle

/-- A message is put behind the unread ones. -/
lemma InStep.unread_send (h : c.InStep) (f : Frame) (note : α) :
    (c.send f note).unread = c.unread ++ [(f, note)] := by
  rw [unread, send, List.drop_append_of_le_length h.length_le, unread]

/-- A message that is sent keeps the two in step. -/
lemma InStep.send (h : c.InStep) (f : Frame) (note : α) : (c.send f note).InStep := by
  rw [InStep, Channel.send, List.map_append]
  exact List.IsPrefix.trans h (List.prefix_append _ _)

namespace Whole

/-- **A message is sent** while the reader is anywhere. -/
lemma send (h : c.Whole opened) {f : Frame} (hf : f.Sendable) (note : α) :
    (c.send f note).Whole opened := by
  have hunread := h.inStep.unread_send f note
  refine ⟨h.inStep.send f note, ?_, ?_, ?_⟩
  · intro message hmessage
    rw [hunread] at hmessage
    rcases List.mem_append.1 hmessage with hold | hnew
    · exact h.sendable message hold
    · obtain rfl := List.mem_singleton.1 hnew
      exact hf
  · rw [hunread, show (c.send f note).bytes = c.bytes ++ f.wire from rfl, h.bytes]
    have hwires : wires (c.unread ++ [(f, note)]) = wires c.unread ++ f.wire := by
      simp [wires]
    rw [hwires]
    cases hopened : opened with
    | none => rfl
    | some opCode =>
      obtain ⟨message, rest, hhead, -⟩ := h.opened opCode hopened
      have hlen : 4 ≤ (wires c.unread).length := by
        rw [hhead, wires, List.flatMap_cons, Frame.wire, serializePacket]
        simp only [List.length_append, length_encodeInt]
        omega
      simp only [Option.isSome_some, if_true]
      rw [List.drop_append_of_le_length hlen]
  · intro opCode hopened
    obtain ⟨message, rest, hhead, hcode⟩ := h.opened opCode hopened
    exact ⟨message, rest ++ [(f, note)], by rw [hunread, hhead, List.cons_append], hcode⟩

/-- Nothing is read from a channel that has nothing unread. -/
lemma receiveOpCode_eq_none (h : c.Whole none) (hnil : c.unread = []) :
    c.receiveOpCode = none := by
  have hbytes : c.bytes = [] := by
    rw [h.bytes, hnil]
    rfl
  rw [Channel.receiveOpCode, hbytes]
  rfl

/-- **The operation code** is that of the first unread message. -/
lemma receiveOpCode (h : c.Whole none) {message : Frame × α} {rest : List (Frame × α)}
    (hunread : c.unread = message :: rest) :
    ∃ c', c.receiveOpCode = some (message.1.opCode, c') ∧ c'.Whole (some message.1.opCode) := by
  have hsendable := h.sendable message (by rw [hunread]; exact List.mem_cons_self)
  have hbytes : c.bytes = encodeInt message.1.opCode ++ (encodeInt message.1.payload.length ++
      message.1.payload ++ wires rest) := by
    rw [h.bytes, hunread, wires, List.flatMap_cons, Frame.wire, serializePacket]
    simp [wires]
  have hreceive : c.receiveOpCode = some (message.1.opCode, { c with
      bytes := encodeInt message.1.payload.length ++ message.1.payload ++ wires rest }) := by
    rw [Channel.receiveOpCode, hbytes, receiveOpCode_append hsendable.1, Option.map_some]
  refine ⟨_, hreceive, h.inStep, h.sendable, ?_, ?_⟩
  · show encodeInt message.1.payload.length ++ message.1.payload ++ wires rest =
      (wires c.unread).drop 4
    have hwires : wires c.unread = c.bytes := by
      rw [h.bytes]
      rfl
    rw [hwires, hbytes, List.drop_left' (length_encodeInt _)]
  · rintro _ ⟨⟩
    exact ⟨message, rest, hunread, rfl⟩

/-- **The payload** is that of the message whose operation code was read. -/
lemma receivePayload {opCode : ℤ} (h : c.Whole (some opCode)) :
    ∃ message rest c', c.unread = message :: rest ∧ message.1.opCode = opCode ∧
      c.receivePayload opCode = some (if message.1.payload = [] then none
        else some message.1.payload, c') ∧ c'.Whole none ∧ c'.unread = rest := by
  obtain ⟨message, rest, hunread, hcode⟩ := h.opened opCode rfl
  have hsendable := h.sendable message (by rw [hunread]; exact List.mem_cons_self)
  have hbytes : c.bytes = encodeInt message.1.payload.length ++ message.1.payload ++
      wires rest := by
    rw [h.bytes, hunread, wires, List.flatMap_cons, Frame.wire, serializePacket]
    simp only [Option.isSome_some, if_true, List.append_assoc]
    rw [List.drop_left' (length_encodeInt _)]
    rfl
  have hreceive : receiveBuffer c.bytes = some (if message.1.payload = [] then none
      else some message.1.payload, wires rest) := by
    rw [hbytes, receiveBuffer_append (by have := hsendable.2; omega)]
  have hpayload : (if message.1.payload = [] then none else some message.1.payload).getD [] =
      message.1.payload := by
    split
    · rename_i hempty
      rw [hempty]
      rfl
    · rfl
  have hframe : (⟨opCode, (if message.1.payload = [] then none
      else some message.1.payload).getD []⟩ : Frame) = message.1 := by
    rw [hpayload, ← hcode]
  refine ⟨message, rest, ⟨wires rest, c.sent, c.received ++ [message.1]⟩, hunread, hcode, ?_, ?_⟩
  · rw [Channel.receivePayload, hreceive, Option.map_some, hframe]
  · have hsplit : c.sent = c.sent.take c.received.length ++ message :: rest := by
      rw [← hunread, unread, List.take_append_drop]
    have hpast : c.received = (c.sent.take c.received.length).map Prod.fst := by
      rw [List.map_take]
      exact List.prefix_iff_eq_take.1 h.inStep
    have hrest : (⟨wires rest, c.sent, c.received ++ [message.1]⟩ : Channel α).unread = rest := by
      show c.sent.drop (c.received ++ [message.1]).length = rest
      rw [List.length_append, List.length_singleton, ← List.drop_drop]
      rw [show c.sent.drop c.received.length = message :: rest from hunread]
      rfl
    refine ⟨⟨?_, ?_, ?_, by simp⟩, hrest⟩
    · refine ⟨rest.map Prod.fst, ?_⟩
      show c.received ++ [message.1] ++ rest.map Prod.fst = c.sent.map Prod.fst
      conv_rhs => rw [hsplit, List.map_append, ← hpast]
      simp
    · rw [hrest]
      intro m hm
      exact h.sendable m (by rw [hunread]; exact List.mem_cons_of_mem _ hm)
    · rw [hrest]
      rfl

end Whole

end Channel

end OsSimulator
