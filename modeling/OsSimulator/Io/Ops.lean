import OsSimulator.Memory.StdoutPayload
import OsSimulator.Utils.File

set_option relaxedAutoImplicit false
set_option autoImplicit false

/-!
# Input and output

The way of a text from the keyboard into memory, and from memory to the screen: `ioops.c` of the IO
module, `connections/io.c` of the scheduler and the handlers of Kernel Memory, with the messages
between them as bytes.

## Main definitions

* `runStdin`, `runStdout` — the operations of the IO module.
* `communicationIoStdin`, `sendStdin`, `sendStdout`, `receiveKmOpcode` — the scheduler's part.
* `stdinRequest`, `stdoutRequest` — a request from its start to its end.
* `TextWritten` — a request has written the text to its range, and nothing else.

## Main results

* `stdinRequest_eq` — what a `STDIN` request writes.
* `stdin_then_stdout` — a `STDOUT` request shows what was typed.
-/

namespace OsSimulator

open Memory (KernelMemory IoOutcome IoMessage handleStdinRequest handleStdoutRequest IsRange byteAt
  bytesOf readFromSticks)

/-! ## Requests -/

/-- `t_stdin_request` and `t_stdout_request`, with `bytes` for `bytes_to_read` and
`bytes_to_write`. -/
structure IoRequest where
  pid : UInt32
  bytes : UInt32
  logicalAddress : UInt32
  deriving DecidableEq, Repr

/-- A request in memory. -/
def IoRequest.encode (request : IoRequest) : List UInt8 :=
  encodeInt request.pid.toNat ++ encodeInt request.bytes.toNat ++
    encodeInt request.logicalAddress.toNat

/-- The request in a buffer. -/
def IoRequest.decode (buffer : List UInt8) : IoRequest :=
  ⟨UInt32.ofInt (decodeInt (slice buffer 0 4)), UInt32.ofInt (decodeInt (slice buffer 4 4)),
    UInt32.ofInt (decodeInt (slice buffer 8 4))⟩

/-! ## The IO module -/

/-- `run_stdin`, on what the scheduler has sent and what is typed: what it sends back. -/
def runStdin (socketIo stdin : List UInt8) : Option (List UInt8) :=
  (receiveBuffer socketIo).bind fun received =>
    let request := IoRequest.decode (received.1.getD [])
    (fileReadLine stdin).1.map fun buffer =>
      let text :=
        if 0 < request.bytes.toNat ∧ request.bytes.toNat ≤ buffer.length then
          buffer.set (request.bytes.toNat - 1) 0
        else buffer
      sendString OP_STDIN_RESPONSE text

/-- `run_stdout`, on what the scheduler has sent: what it shows. A packet without a second element
is malformed. -/
def runStdout (socketIo : List UInt8) : Option (List UInt8) :=
  (receivePacket socketIo).bind fun packet => packet.1[1]?.map cString

/-- The loop of the IO module, on one `STDIN` request. -/
def serveStdin (socketIo stdin : List UInt8) : Option (List UInt8) :=
  (receiveOpCode socketIo).bind fun received =>
    if received.1 = OP_IO_STDIN_REQUEST then runStdin received.2 stdin else none

/-- The loop of the IO module, on one `STDOUT` request. -/
def serveStdout (socketIo : List UInt8) : Option (List UInt8) :=
  (receiveOpCode socketIo).bind fun received =>
    if received.1 = OP_IO_STDOUT_REQUEST then runStdout received.2 else none

/-! ## The scheduler -/

/-- `communication_io_stdin`, on what the IO module sends back. -/
def communicationIoStdin (socketIo : List UInt8) : Option (List UInt8) :=
  (receiveOpCode socketIo).bind fun received =>
    if received.1 = OP_CODE_ERROR then none
    else (receiveString received.2).bind fun buffer => buffer.1

/-- `send_stdin`. -/
def sendStdin (request : IoRequest) (buffer : List UInt8) : List UInt8 :=
  serializePacket OP_IO_STDIN_REQUEST
    (packetAppendString (packetAppend [] request.encode) buffer)

/-- `send_stdout`. -/
def sendStdout (request : IoRequest) (buffer : List UInt8) : List UInt8 :=
  serializePacket OP_IO_STDOUT_REQUEST
    (packetAppendString (packetAppend [] request.encode) buffer)

/-- `receive_km_opcode`, for at most as many notices as there are bytes: the notices of new sticks
in front of the reply are read. -/
def receiveKmOpcode (expected : List ℤ) : ℕ → List UInt8 → Option (ℤ × List UInt8)
  | 0, _ => none
  | rounds + 1, kmSocket =>
    (receiveOpCode kmSocket).bind fun received =>
      if received.1 ∈ expected then some received
      else
        (receiveString received.2).bind fun text =>
          if received.1 = OP_NEW_MEMORY_STICK then receiveKmOpcode expected rounds text.2
          else none

/-! ## Kernel Memory -/

/-- The listener of the scheduler, on one `STDIN` request. -/
def listenStdin (socketScheduler : List UInt8) (k : KernelMemory) : Option IoOutcome :=
  (receiveOpCode socketScheduler).bind fun received =>
    if received.1 = OP_IO_STDIN_REQUEST then
      (receivePacket received.2).bind fun packet =>
        packet.1[0]?.bind fun buffer => packet.1[1]?.bind fun writeBuffer =>
          let request := IoRequest.decode buffer
          handleStdinRequest request.pid.toNat request.bytes request.logicalAddress writeBuffer k
    else none

/-- The listener of the scheduler, on one `STDOUT` request. -/
def listenStdout (socketScheduler leftovers : List UInt8) (k : KernelMemory) : Option IoOutcome :=
  (receiveOpCode socketScheduler).bind fun received =>
    if received.1 = OP_IO_STDOUT_REQUEST then
      (receiveBuffer received.2).bind fun buffer =>
        let request := IoRequest.decode (buffer.1.getD [])
        handleStdoutRequest request.pid.toNat request.bytes request.logicalAddress leftovers k
    else none

/-- What a message of a handler is on the connection. -/
def wireMessage : IoMessage → WireMessage
  | .stdinResponse text => .string OP_STDIN_RESPONSE text
  | .stdoutResponse text => .string OP_STDOUT_RESPONSE text
  | .memoryCorrupted text => .string OP_MEMORY_CORRUPTED text

/-- The notice of `handshake` that a stick has connected. -/
def newStickNotice : WireMessage :=
  .string OP_NEW_MEMORY_STICK (Memory.textBytes "A new memory stick connected")

/-! ## A request from its start to its end -/

/-- A `STDIN` request: the scheduler asks the IO module for the text, and sends it to Kernel
Memory. -/
def stdinRequest (request : IoRequest) (stdin : List UInt8) (k : KernelMemory) :
    Option IoOutcome :=
  (serveStdin (sendBuffer OP_IO_STDIN_REQUEST request.encode) stdin).bind fun reply =>
    (communicationIoStdin reply).bind fun buffer => listenStdin (sendStdin request buffer) k

/-- A `STDOUT` request: the scheduler asks Kernel Memory for the bytes, and sends them to the IO
module. So many notices of new sticks are in front of the reply. -/
def stdoutRequest (request : IoRequest) (notices : ℕ) (leftovers : List UInt8)
    (k : KernelMemory) : Option (List UInt8) :=
  (listenStdout (sendBuffer OP_IO_STDOUT_REQUEST request.encode) leftovers k).bind fun outcome =>
    let kmSocket := sendAll
      (List.replicate notices newStickNotice ++ outcome.messages.map wireMessage)
    (receiveKmOpcode [OP_STDOUT_RESPONSE] kmSocket.length kmSocket).bind fun received =>
      (receiveString received.2).bind fun buffer =>
        buffer.1.bind fun text => serveStdout (sendStdout request text)

/-! ## The messages on the way -/

/-- A word is received as it was sent. -/
lemma ofInt_decodeInt_encodeInt (x : UInt32) : UInt32.ofInt (decodeInt (encodeInt x.toNat)) = x := by
  apply UInt32.toNat_inj.1
  have hlt := x.toNat_lt
  rw [toNat_ofInt, decodeInt_encodeInt_eq, u32_i32]
  unfold u32
  omega

/-- A request is received as it was sent. -/
@[simp] lemma IoRequest.decode_encode (request : IoRequest) :
    IoRequest.decode request.encode = request := by
  have hpid : slice request.encode 0 4 = encodeInt request.pid.toNat := rfl
  have hbytes : slice request.encode 4 4 = encodeInt request.bytes.toNat := rfl
  have haddress : slice request.encode 8 4 = encodeInt request.logicalAddress.toNat := rfl
  rw [IoRequest.decode, hpid, hbytes, haddress, ofInt_decodeInt_encodeInt,
    ofInt_decodeInt_encodeInt, ofInt_decodeInt_encodeInt]

/-- What a function finds behind the operation code of a message. -/
lemma receiveOpCode_serializePacket {opCode : ℤ} (h : IsInt opCode) (stream rest : List UInt8) :
    receiveOpCode (serializePacket opCode stream ++ rest) =
      some (opCode, encodeInt stream.length ++ stream ++ rest) := by
  rw [serializePacket, List.append_assoc, List.append_assoc, receiveOpCode_append h,
    List.append_assoc]

/-- A string is received with its terminator. -/
lemma receiveString_terminated {text : List UInt8} (h : (text.length + 1 : ℤ) ≤ INT_MAX)
    (rest : List UInt8) :
    receiveString (encodeInt (text ++ [0]).length ++ (text ++ [0]) ++ rest) =
      some (some (text ++ [0]), rest) := by
  have hlength : ((text ++ [0]).length : ℤ) ≤ INT_MAX := by
    rw [List.length_append, List.length_singleton]
    omega
  rw [receiveString, receiveBuffer_append hlength, if_neg (by simp)]

/-- What a request is, as it is received. -/
lemma receiveBuffer_request (request : IoRequest) :
    receiveBuffer (encodeInt request.encode.length ++ request.encode ++ []) =
      some (some request.encode, []) := by
  rw [receiveBuffer_append (by rw [show request.encode.length = 12 from rfl]; decide),
    if_neg (by exact List.ne_nil_of_length_pos (show 0 < 12 by omega))]

/-- A character overwritten by the terminator. -/
lemma cString_set {text : List UInt8} (h : 0 ∉ text) {i : ℕ} (hi : i < text.length) :
    cString (text.set i 0) = text.take i := by
  have hcut : text.set i 0 = text.take i ++ 0 :: text.drop (i + 1) :=
    List.set_eq_take_append_cons_drop.trans (if_pos hi)
  rw [hcut, cString_append fun hmem => h (List.mem_of_mem_take hmem)]

/-- **The IO module sends** as many characters as fit in front of a terminator. -/
lemma serveStdin_eq {request : IoRequest} {line stdin rest : List UInt8}
    (hline : StartsWithLine line stdin rest) (hcount : 1 ≤ request.bytes.toNat)
    (hsize : (min line.length (request.bytes.toNat - 1) + 29 : ℤ) ≤ INT_MAX) :
    serveStdin (sendBuffer OP_IO_STDIN_REQUEST request.encode) stdin =
      some (serializePacket OP_STDIN_RESPONSE (line.take (request.bytes.toNat - 1) ++ [0])) := by
  have hreceive := receiveOpCode_serializePacket (show IsInt OP_IO_STDIN_REQUEST by decide)
    request.encode []
  rw [List.append_nil] at hreceive
  rw [serveStdin, sendBuffer, hreceive, Option.bind_some, if_pos rfl, runStdin,
    receiveBuffer_request, Option.bind_some]
  have hzero : 0 ∉ line.take 2147483647 := fun h => hline.1 (List.mem_of_mem_take h)
  -- what is cut off a long line is not asked for
  have htake : (line.take 2147483647).take (request.bytes.toNat - 1) =
      line.take (request.bytes.toNat - 1) := by
    unfold INT_MAX at hsize
    rcases Nat.le_total line.length 2147483647 with hle | hge
    · rw [List.take_of_length_le hle]
    · rw [List.take_take, min_eq_left (by omega)]
  simp only [Option.getD_some, IoRequest.decode_encode, fileReadLine_of_startsWithLine hline,
    Option.map_some, sendString]
  congr 4
  split
  · rename_i hlong
    rw [cString_set hzero (by omega), htake]
  · rename_i hshort
    rw [cString_of_not_mem hzero, ← htake]
    exact (List.take_of_length_le (by omega)).symm

/-- The packet that carries a text behind a request. -/
lemma packet_eq (request : IoRequest) {text : List UInt8} (hzero : 0 ∉ text) :
    packetAppendString (packetAppend [] request.encode) (text ++ [0]) =
      [request.encode, text ++ [0]].foldl packetAppend [] := by
  rw [packetAppendString, cString_append hzero]
  rfl

/-- The packet of a request and its text are its two elements. -/
lemma receivePacket_packet (request : IoRequest) {text : List UInt8} (hzero : 0 ∉ text)
    (hsize : (text.length + 29 : ℤ) ≤ INT_MAX) :
    receivePacket (encodeInt (packetAppendString (packetAppend [] request.encode)
        (text ++ [0])).length ++
      packetAppendString (packetAppend [] request.encode) (text ++ [0]) ++ []) =
      some ([request.encode, text ++ [0]], []) := by
  rw [packet_eq request hzero, List.append_assoc]
  apply receivePacket_append
  · intro value hvalue
    simp only [List.mem_cons, List.not_mem_nil, or_false] at hvalue
    rcases hvalue with rfl | rfl
    · exact List.ne_nil_of_length_pos (show 0 < 12 by omega)
    · simp
  · simp only [List.map_cons, List.map_nil, List.sum_cons, List.sum_nil, List.length_append,
      List.length_singleton, show request.encode.length = 12 from rfl]
    omega

/-- What Kernel Memory does on a `STDIN` request. -/
lemma stdinRequest_eq {request : IoRequest} {line stdin rest : List UInt8} {k : KernelMemory}
    (hline : StartsWithLine line stdin rest) (hcount : 1 ≤ request.bytes.toNat)
    (hsize : (min line.length (request.bytes.toNat - 1) + 29 : ℤ) ≤ INT_MAX) :
    stdinRequest request stdin k =
      handleStdinRequest request.pid.toNat request.bytes request.logicalAddress
        (line.take (request.bytes.toNat - 1) ++ [0]) k := by
  set text := line.take (request.bytes.toNat - 1) with htext
  have hzero : 0 ∉ text := fun h => hline.1 (List.mem_of_mem_take h)
  have hlength : (text.length + 29 : ℤ) ≤ INT_MAX := by
    rw [htext, List.length_take]
    omega
  have hreply := receiveOpCode_serializePacket (show IsInt OP_STDIN_RESPONSE by decide)
    (text ++ [0]) []
  rw [List.append_nil] at hreply
  have htold : communicationIoStdin (serializePacket OP_STDIN_RESPONSE (text ++ [0])) =
      some (text ++ [0]) := by
    rw [communicationIoStdin, hreply, Option.bind_some,
      if_neg (show ¬ OP_STDIN_RESPONSE = OP_CODE_ERROR by decide),
      receiveString_terminated (by omega), Option.bind_some]
  have hpacket := receiveOpCode_serializePacket (show IsInt OP_IO_STDIN_REQUEST by decide)
    (packetAppendString (packetAppend [] request.encode) (text ++ [0])) []
  rw [List.append_nil] at hpacket
  rw [stdinRequest, serveStdin_eq hline hcount hsize, Option.bind_some, htold, Option.bind_some,
    listenStdin, sendStdin, hpacket, Option.bind_some, if_pos rfl,
    receivePacket_packet request hzero hlength, Option.bind_some]
  simp only [List.getElem?_cons_zero, List.getElem?_cons_succ, Option.bind_some,
    IoRequest.decode_encode]

/-- The notices in front of a reply are read. -/
lemma receiveKmOpcode_notices {expected : List ℤ} {opCode : ℤ} (hexpected : opCode ∈ expected)
    (hnotice : OP_NEW_MEMORY_STICK ∉ expected) (hop : IsInt opCode) (stream rest : List UInt8)
    {notices rounds : ℕ} (hrounds : notices < rounds) :
    receiveKmOpcode expected rounds
        (sendAll (List.replicate notices newStickNotice) ++ (serializePacket opCode stream ++ rest)) =
      some (opCode, encodeInt stream.length ++ stream ++ rest) := by
  induction notices generalizing rounds with
  | zero =>
    obtain ⟨rounds, rfl⟩ : ∃ n, rounds = n + 1 := ⟨rounds - 1, by omega⟩
    rw [List.replicate_zero, sendAll, List.flatMap_nil, List.nil_append, receiveKmOpcode,
      receiveOpCode_serializePacket hop, Option.bind_some, if_pos hexpected]
  | succ notices ih =>
    obtain ⟨rounds, rfl⟩ : ∃ n, rounds = n + 1 := ⟨rounds - 1, by omega⟩
    set text := Memory.textBytes "A new memory stick connected"
    have hsend : newStickNotice.send = serializePacket OP_NEW_MEMORY_STICK (text ++ [0]) := by
      decide +kernel
    have hbehind : sendAll (List.replicate (notices + 1) newStickNotice) =
        newStickNotice.send ++ sendAll (List.replicate notices newStickNotice) := rfl
    rw [hbehind, hsend, List.append_assoc, receiveKmOpcode,
      receiveOpCode_serializePacket (by decide), Option.bind_some, if_neg hnotice,
      receiveString_terminated (by decide +kernel), Option.bind_some, if_pos rfl]
    exact ih (by omega)

/-- What the IO module shows on a `STDOUT` request. -/
lemma stdoutRequest_eq {request : IoRequest} {text leftovers : List UInt8} {k : KernelMemory}
    (hanswer : (handleStdoutRequest request.pid.toNat request.bytes request.logicalAddress
      leftovers k).map IoOutcome.messages = some [.stdoutResponse text])
    (hzero : 0 ∉ text) (hsize : (text.length + 29 : ℤ) ≤ INT_MAX) (notices : ℕ) :
    stdoutRequest request notices leftovers k = some text := by
  obtain ⟨outcome, houtcome, hmessages⟩ := Option.map_eq_some_iff.1 hanswer
  have hasked := receiveOpCode_serializePacket (show IsInt OP_IO_STDOUT_REQUEST by decide)
    request.encode []
  rw [List.append_nil] at hasked
  have hkm : listenStdout (sendBuffer OP_IO_STDOUT_REQUEST request.encode) leftovers k =
      some outcome := by
    rw [listenStdout, sendBuffer, hasked, Option.bind_some, if_pos rfl, receiveBuffer_request,
      Option.bind_some]
    simp only [Option.getD_some, IoRequest.decode_encode, houtcome]
  have hreply : sendAll (List.replicate notices newStickNotice ++ [.string OP_STDOUT_RESPONSE text]) =
      sendAll (List.replicate notices newStickNotice) ++
        (serializePacket OP_STDOUT_RESPONSE (text ++ [0]) ++ []) := by
    rw [sendAll, List.flatMap_append, List.flatMap_singleton, WireMessage.send, sendString,
      cString_of_not_mem hzero, List.append_nil]
    rfl
  have hrounds : notices < (sendAll
      (List.replicate notices newStickNotice ++ [.string OP_STDOUT_RESPONSE text])).length := by
    have hle := length_le_length_sendAll
      (List.replicate notices newStickNotice ++ [.string OP_STDOUT_RESPONSE text])
    rw [List.length_append, List.length_replicate, List.length_singleton] at hle
    omega
  have hpacket := receiveOpCode_serializePacket (show IsInt OP_IO_STDOUT_REQUEST by decide)
    (packetAppendString (packetAppend [] request.encode) (text ++ [0])) []
  rw [List.append_nil] at hpacket
  have hshown : serveStdout (sendStdout request (text ++ [0])) = some text := by
    rw [serveStdout, sendStdout, hpacket, Option.bind_some, if_pos rfl, runStdout,
      receivePacket_packet request hzero hsize, Option.bind_some]
    simp only [List.getElem?_cons_zero, List.getElem?_cons_succ, Option.map_some,
      cString_append hzero]
  rw [stdoutRequest, hkm, Option.bind_some, hmessages]
  simp only [List.map_cons, List.map_nil, wireMessage]
  rw [hreply] at hrounds ⊢
  rw [receiveKmOpcode_notices (by simp) (by decide) (by decide) _ _ hrounds, Option.bind_some,
    receiveString_terminated (by omega), Option.bind_some, Option.bind_some, hshown]

/-! ## What was typed is shown -/

/-- **What a `STDIN` request leaves in the range** of `count` bytes from `p` on: the text, with
zeros behind it. The sticks keep their sizes and all other bytes, and the range is still one. -/
structure TextWritten (request : IoRequest) (p : ℤ) (text : List UInt8) (k : KernelMemory)
    (after : List Memory.Stick) : Prop where
  sizes : after.map Memory.Stick.stickSize = k.connectedSticks.map Memory.Stick.stickSize
  range : IsRange request.pid.toNat request.bytes request.logicalAddress p
    { k with connectedSticks := after }
  written : ∀ i < request.bytes.toNat, byteAt after (p + i) =
    (text ++ List.replicate (request.bytes.toNat - text.length) 0)[i]?
  others : ∀ a, a < p ∨ p + request.bytes.toNat ≤ a → byteAt after a = byteAt k.connectedSticks a

/-- What a text that is shorter than the range leaves in it: the text, and zeros. -/
lemma handleStdinRequest_eq {request : IoRequest} {text : List UInt8} {k : KernelMemory} {p : ℤ}
    (hzero : 0 ∉ text) (hshort : text.length < request.bytes.toNat)
    (htotal : ((bytesOf k.connectedSticks).length : ℤ) ≤ INT_MAX)
    (hrange : IsRange request.pid.toNat request.bytes request.logicalAddress p k) :
    ∃ o, handleStdinRequest request.pid.toNat request.bytes request.logicalAddress (text ++ [0]) k =
        some o ∧
      o.messages = [.stdinResponse (Memory.textBytes "Memory written")] ∧
      TextWritten request p text k o.connectedSticks := by
  obtain ⟨start, rfl, hstart⟩ := Memory.exists_start_of_mapped (by omega) hrange.mapped
  set safeBuffer := text ++ List.replicate (request.bytes.toNat - text.length) 0 with hbuffer
  have hlength : safeBuffer.length = request.bytes.toNat := by
    rw [hbuffer, List.length_append, List.length_replicate]
    omega
  have hfits : start + safeBuffer.length ≤ (bytesOf k.connectedSticks).length := by omega
  obtain ⟨hdone, hbytes⟩ := Memory.bytesOf_writeToSticks hfits
  have hsizes := Memory.map_stickSize_writeToSticks start safeBuffer k.connectedSticks
  have hchars : (text ++ [0]).takeWhile (· ≠ 0) = text := cString_append hzero []
  refine ⟨⟨[.stdinResponse (Memory.textBytes "Memory written")],
    Memory.writePackets start request.bytes.toNat k.connectedSticks,
    (Memory.writeToSticks start safeBuffer k.connectedSticks).2, true⟩, ?_, rfl, hsizes,
    ⟨hrange.translated, hrange.accepted, fun a hlow hhigh => ?_⟩, fun i hi => ?_, fun a ha => ?_⟩
  · unfold handleStdinRequest
    rw [hrange.translated, Option.bind_some, if_neg hrange.accepted,
      Memory.i32_count (by omega), if_neg (by omega)]
    simp only [hchars, Int.toNat_natCast, List.take_of_length_le hshort.le, ← hbuffer, hdone,
      if_true]
  · rw [Memory.isSome_byteAt, hsizes, ← Memory.isSome_byteAt]
    exact hrange.mapped a hlow hhigh
  · rw [Memory.byteAt_eq, if_pos (by omega), hbytes, getElem?_splice hfits]
    have hindex : ((start : ℤ) + i).toNat = start + i := by omega
    rw [hindex, if_pos (by omega), Nat.add_sub_cancel_left]
  · rw [Memory.byteAt_eq, Memory.byteAt_eq, hbytes]
    split
    · rw [getElem?_splice hfits, if_neg (by omega)]
    · rfl

/-- **`STDOUT` shows what was typed**: a `STDIN` request for a range of memory writes the characters
of the line that fit in front of a terminator to it, and nothing else, and a `STDOUT` request for
the same bytes shows them, whatever happens to the rest of the memory in between. The text and its
frame are a message, whose size is an `int`.

**Proof sketch.** The messages carry the text to Kernel Memory (`stdinRequest_eq`), which writes it
and zeros behind it (`handleStdinRequest_eq`). The bytes that are read back end in a zero, so their
string is the text, and the messages carry it to the screen (`stdoutRequest_eq`). -/
theorem stdin_then_stdout {request : IoRequest} {line stdin rest : List UInt8} {k : KernelMemory}
    {p : ℤ} (hline : StartsWithLine line stdin rest) (hcount : 1 ≤ request.bytes.toNat)
    (hsize : (min line.length (request.bytes.toNat - 1) + 29 : ℤ) ≤ INT_MAX)
    (htotal : ((bytesOf k.connectedSticks).length : ℤ) ≤ INT_MAX)
    (hrange : IsRange request.pid.toNat request.bytes request.logicalAddress p k) :
    ∃ o, stdinRequest request stdin k = some o ∧
      o.messages = [.stdinResponse (Memory.textBytes "Memory written")] ∧
      TextWritten request p (line.take (min line.length (request.bytes.toNat - 1))) k
        o.connectedSticks ∧
      ∀ k' p', IsRange request.pid.toNat request.bytes request.logicalAddress p' k' →
        (∀ i < request.bytes.toNat,
          byteAt k'.connectedSticks (p' + i) = byteAt o.connectedSticks (p + i)) →
        ∀ notices leftovers, stdoutRequest request notices leftovers k' =
          some (line.take (min line.length (request.bytes.toNat - 1))) := by
  have htake : line.take (min line.length (request.bytes.toNat - 1)) =
      line.take (request.bytes.toNat - 1) := by
    rw [← List.take_take]
    apply List.take_of_length_le
    rw [List.length_take]
    exact min_le_right _ _
  rw [htake, stdinRequest_eq hline hcount hsize]
  set text := line.take (request.bytes.toNat - 1) with htext
  have hzero : 0 ∉ text := fun h => hline.1 (List.mem_of_mem_take h)
  have hshort : text.length < request.bytes.toNat := by
    rw [htext, List.length_take]
    omega
  obtain ⟨start, rfl, hstart⟩ := Memory.exists_start_of_mapped hcount hrange.mapped
  obtain ⟨o, ho, hmessages, hwritten⟩ := handleStdinRequest_eq hzero hshort htotal hrange
  refine ⟨o, ho, hmessages, hwritten, fun k' p' hrange' hkept notices leftovers => ?_⟩
  obtain ⟨bytes, hread, hlength, hbytes'⟩ := Memory.readFromSticks_of_mapped hrange'.mapped
  have hsame : bytes = text ++ List.replicate (request.bytes.toNat - text.length) 0 := by
    ext1 i
    by_cases hi : i < request.bytes.toNat
    · rw [hbytes' i hi, hkept i hi, hwritten.written i hi]
    · rw [List.getElem?_eq_none (by omega), List.getElem?_eq_none (by simp; omega)]
  have hshown : (bytes ++ leftovers).takeWhile (· ≠ 0) = text := by
    have hpad : List.replicate (request.bytes.toNat - text.length) (0 : UInt8) =
        0 :: List.replicate (request.bytes.toNat - text.length - 1) 0 := by
      rw [← List.replicate_succ]
      congr 1
      omega
    rw [hsame, hpad, List.append_assoc, List.cons_append]
    exact cString_append hzero _
  have hanswer := Memory.messages_handleStdoutRequest (by omega) hrange' hread leftovers
  rw [hshown] at hanswer
  refine stdoutRequest_eq hanswer hzero ?_ notices
  rw [htext, List.length_take]
  omega

/-- A text of five characters for a range of three bytes: two of them are written with a zero, the
fourth byte of the stick stays, and the two are shown. -/
theorem stdin_then_stdout_truncated :
    TextWritten ⟨1, 3, 0⟩ 0 [104, 101] Memory.memoryOfText [⟨[104, 101, 0, 0]⟩] ∧
      stdoutRequest ⟨1, 3, 0⟩ 2 [7]
        { Memory.memoryOfText with connectedSticks := [⟨[104, 101, 0, 0]⟩] } = some [104, 101] := by
  have hline : StartsWithLine [104, 101, 108, 108, 111] [104, 101, 108, 108, 111, 10, 33] [33] :=
    ⟨by decide, by decide, .inl rfl⟩
  have htranslated : Memory.translateLogicalAddress 1 0 Memory.memoryOfText.mainMemory =
      some 0 := by decide +kernel
  have hmapped : ∀ a, (0 : ℤ) ≤ a → a < 0 + 3 →
      (byteAt Memory.memoryOfText.connectedSticks a).isSome := by
    have hsize : (Memory.memoryOfText.connectedSticks.map Memory.Stick.stickSize).sum = 4 := by
      decide
    intro a hlow hhigh
    rw [Memory.isSome_byteAt, hsize]
    exact ⟨hlow, by push_cast; omega⟩
  obtain ⟨o, ho, -, hbytes, hshown⟩ := @stdin_then_stdout ⟨1, 3, 0⟩ _ _ _ Memory.memoryOfText 0
    hline (by decide) (by decide) (by decide) ⟨htranslated, by decide, hmapped⟩
  have hwritten : stdinRequest ⟨1, 3, 0⟩ [104, 101, 108, 108, 111, 10, 33] Memory.memoryOfText =
      some ⟨[.stdinResponse (Memory.textBytes "Memory written")], [⟨0, 0, 3⟩],
        [⟨[104, 101, 0, 0]⟩], true⟩ := by decide +kernel
  obtain rfl := Option.some.inj (ho.symm.trans hwritten)
  have htext : [104, 101, 108, 108, 111].take (min [104, 101, 108, 108, 111].length
      ((⟨1, 3, 0⟩ : IoRequest).bytes.toNat - 1)) = [(104 : UInt8), 101] := by
    decide
  have hresult := hshown
    { Memory.memoryOfText with connectedSticks := [⟨[104, 101, 0, 0]⟩] } 0 hbytes.range
    (fun i _ => rfl) 2 [7]
  exact ⟨(congrArg (TextWritten _ _ · _ _) htext).mp hbytes, hresult.trans (congrArg some htext)⟩

end OsSimulator
