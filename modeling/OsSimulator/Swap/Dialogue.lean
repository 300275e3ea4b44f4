import OsSimulator.Library.ByteStream
import OsSimulator.Library.Runs
import OsSimulator.Library.SharedObject
import OsSimulator.Memory.BlockCut
import OsSimulator.Memory.Wire

set_option relaxedAutoImplicit false
set_option autoImplicit false

/-!
# Kernel Memory and the Swap module

`write_block_to_swap` and `read_block_from_swap` of Kernel Memory on one side of a connection, the
loop of the Swap module with its file on the other. Kernel Memory sends one request at a time and
waits for the answer, the bytes of which arrive in pieces of any length. Seen from Kernel Memory
there is a list of blocks, which is what the suspension and the resumption of a process work on.

## Main definitions

* `DiskRequest`, `DiskRequest.perform` — a call, and what it means for the list of blocks.
* `serve` — a round of the Swap module.
* `DiskLink`, `DiskLink.step` — the two sides and the connection.

## Main results

* `DiskLink.answers_of_run` — every call returns what the list of blocks gives.
-/

namespace OsSimulator.Swap

open Memory (SwapData writeBlockToSwap readStruct)

/-! ## The calls of Kernel Memory -/

/-- A call of `write_block_to_swap` or of `read_block_from_swap`. -/
inductive DiskRequest
  | write (blockNumber : ℕ) (content : List UInt8)
  | read (blockNumber : ℕ)
  deriving DecidableEq, Repr

namespace DiskRequest

/-- What the call does to the list of blocks, and what it returns: a null pointer, or the content of
a block. -/
def perform : DiskRequest → SwapData → Option (Option (List UInt8) × SwapData)
  | .write blockNumber content, swapData =>
    some (none, writeBlockToSwap blockNumber content swapData)
  | .read blockNumber, swapData => some (swapData.disk[blockNumber]?, swapData)

/-- What the call sends: the content of a block is filled up with zeros. -/
def message (blockSize : ℕ) : DiskRequest → WireMessage
  | .write blockNumber content => .packet OP_DISK_WRITE
    [encodeInt blockNumber, content ++ List.replicate (blockSize - content.length) 0]
  | .read blockNumber => .buffer OP_DISK_READ (encodeInt blockNumber)

/-- The rest of the call, on what the Swap module sends back: an answer that is not the expected one
is only logged. -/
def receiveAnswer : DiskRequest → List UInt8 → Option (Option (List UInt8) × List UInt8)
  | .write _ _, connection =>
    (receiveOpCode connection).bind fun received =>
      if received.1 = OP_DISK_WRITE_DONE then
        (receiveString received.2).map fun ack => (none, ack.2)
      else some (none, received.2)
  | .read _, connection =>
    (receiveOpCode connection).bind fun received =>
      if received.1 ≠ OP_DISK_READ_DONE then some (none, received.2)
      else receiveBuffer received.2

/-- A call for a block of the table, with no more content than a block has. -/
def IsCall (swapData : SwapData) : DiskRequest → Prop
  | .write blockNumber content =>
    blockNumber < swapData.blockList.length ∧ content.length ≤ swapData.blockSize
  | .read blockNumber => blockNumber < swapData.blockList.length

instance (swapData : SwapData) : DecidablePred (IsCall swapData)
  | .write _ _ => inferInstanceAs (Decidable (_ ∧ _))
  | .read _ => inferInstanceAs (Decidable (_ < _))

end DiskRequest

/-! ## The loop of the Swap module -/

/-- What a round leaves: the file, whether the loop goes on, and what was sent. -/
structure Served where
  swapFile : List UInt8
  keepRunning : Bool
  sent : List UInt8
  deriving DecidableEq, Repr

/-- `seek_block` goes to a place that an `int` can hold. -/
def Seekable (blockNumber : ℤ) (blockSize : ℕ) : Prop :=
  0 ≤ blockNumber ∧ blockNumber * blockSize ≤ INT_MAX

instance (blockNumber : ℤ) (blockSize : ℕ) : Decidable (Seekable blockNumber blockSize) :=
  inferInstanceAs (Decidable (_ ∧ _))

/-- The branch of `OP_DISK_WRITE`. A packet with another number of elements is only logged; a
content that is too short is read beyond its end. -/
def serveWrite (blockSize : ℕ) (swapFile : List UInt8) (packet : List (List UInt8)) :
    Option Served :=
  match packet with
  | [number, content] =>
    (readStruct 4 (some number)).bind fun memory =>
      let blockNumber := decodeInt (memory.take 4)
      if Seekable blockNumber blockSize ∧ blockSize ≤ content.length then
        some ⟨writeBlock swapFile blockNumber.toNat blockSize content, true,
          sendString OP_DISK_WRITE_DONE []⟩
      else none
  | _ => some ⟨swapFile, true, []⟩

/-- The branch of `OP_DISK_READ`. -/
def serveRead (blockSize : ℕ) (swapFile : List UInt8) (buffer : Option (List UInt8)) :
    Option Served :=
  match buffer with
  | none => some ⟨swapFile, true, []⟩
  | some number =>
    (readStruct 4 (some number)).bind fun memory =>
      let blockNumber := decodeInt (memory.take 4)
      if Seekable blockNumber blockSize then
        (readBlock swapFile blockNumber.toNat blockSize).map fun content =>
          ⟨swapFile, true, sendBuffer OP_DISK_READ_DONE content⟩
      else none

/-- A round of the loop in `main`. -/
def serve (blockSize : ℕ) (swapFile connection : List UInt8) : Option (Served × List UInt8) :=
  (receiveOpCode connection).bind fun received =>
    if received.1 = OP_DISK_WRITE then
      (receivePacket received.2).bind fun packet =>
        (serveWrite blockSize swapFile packet.1).map fun served => (served, packet.2)
    else if received.1 = OP_DISK_READ then
      (receiveBuffer received.2).bind fun buffer =>
        (serveRead blockSize swapFile buffer.1).map fun served => (served, buffer.2)
    else some (⟨swapFile, false, []⟩, received.2)

/-! ## What comes behind a message -/

/-- What arrives later does not change an answer. -/
lemma DiskRequest.steady_receiveAnswer (request : DiskRequest) : Steady request.receiveAnswer := by
  cases request with
  | write blockNumber content =>
    have hnext : ∀ opCode : ℤ, Steady fun connection =>
        if opCode = OP_DISK_WRITE_DONE then
          (receiveString connection).map fun ack => ((none : Option (List UInt8)), ack.2)
        else some (none, connection) := fun opCode =>
      (steady_receiveString.map fun _ => none).ite (steady_some none)
    exact steady_receiveOpCode.bind hnext
  | read blockNumber =>
    have hnext : ∀ opCode : ℤ, Steady fun connection =>
        if opCode ≠ OP_DISK_READ_DONE then some (none, connection)
        else receiveBuffer connection := fun opCode => (steady_some none).ite steady_receiveBuffer
    exact steady_receiveOpCode.bind hnext

/-- Nor a request. -/
lemma steady_serve (blockSize : ℕ) (swapFile : List UInt8) : Steady (serve blockSize swapFile) := by
  have hround : ∀ opCode : ℤ, Steady fun connection =>
      if opCode = OP_DISK_WRITE then
        (receivePacket connection).bind fun packet =>
          (serveWrite blockSize swapFile packet.1).map fun served => (served, packet.2)
      else if opCode = OP_DISK_READ then
        (receiveBuffer connection).bind fun buffer =>
          (serveRead blockSize swapFile buffer.1).map fun served => (served, buffer.2)
      else some (⟨swapFile, false, []⟩, connection) := fun opCode =>
    (steady_receivePacket.bind fun packet =>
        steady_option (serveWrite blockSize swapFile packet) id).ite
      ((steady_receiveBuffer.bind fun buffer =>
          steady_option (serveRead blockSize swapFile buffer) id).ite (steady_some _))
  exact steady_receiveOpCode.bind hround

/-! ## A request and its answer -/

section Exchange

variable {swapData : SwapData} {swapFile : List UInt8} {request : DiskRequest}

/-- A message of Kernel Memory can be sent. -/
lemma sendable_message (hcall : request.IsCall swapData)
    (hsize : (swapData.blockSize + 20 : ℤ) ≤ INT_MAX) (hpos : 0 < swapData.blockSize) :
    (request.message swapData.blockSize).Sendable := by
  cases request with
  | write blockNumber content =>
    obtain ⟨-, hcontent⟩ := hcall
    refine ⟨by decide, fun value hmem => ?_, ?_⟩
    · simp only [List.mem_cons, List.not_mem_nil, or_false] at hmem
      rcases hmem with rfl | rfl
      · simp [encodeInt]
      · apply List.ne_nil_of_length_pos
        rw [List.length_append, List.length_replicate]
        omega
    · simp only [List.map_cons, List.map_nil, List.sum_cons, List.sum_nil, length_encodeInt,
        List.length_append, List.length_replicate]
      omega
  | read blockNumber => exact ⟨by decide, by rw [length_encodeInt]; decide⟩

/-- A block number of the table, as it is received. -/
lemma seekable_of_lt {n : ℕ} (hstored : swapData.StoredIn swapFile)
    (hfile : (swapFile.length : ℤ) ≤ INT_MAX) (hpos : 0 < swapData.blockSize)
    (hn : n < swapData.blockList.length) : IsInt n ∧ Seekable n swapData.blockSize := by
  have hinside := (@seekBlock_add_le n swapData.blockList.length swapData.blockSize hn).trans
    hstored.2
  have hplace : n * swapData.blockSize ≤ swapFile.length := by
    unfold seekBlock at hinside
    omega
  have hle : n ≤ n * swapData.blockSize := Nat.le_mul_of_pos_right n hpos
  refine ⟨⟨?_, by omega⟩, by omega, ?_⟩
  · unfold INT_MIN
    omega
  · rw [← Nat.cast_mul]
    omega

/-- A number is read as it was sent. -/
lemma readStruct_encodeInt (x : ℤ) : readStruct 4 (some (encodeInt x)) = some (encodeInt x) := rfl

/-- What a round makes of a request, and Kernel Memory of the answer. -/
structure Exchanged (request : DiskRequest) (swapData : SwapData) (swapFile : List UInt8)
    (served : Served) (answer : Option (List UInt8)) (swapData' : SwapData) : Prop where
  perform : request.perform swapData = some (answer, swapData')
  serve : serve swapData.blockSize swapFile (request.message swapData.blockSize).send =
    some (served, [])
  receive : request.receiveAnswer served.sent = some (answer, [])
  keepRunning : served.keepRunning = true
  storedIn : swapData'.StoredIn served.swapFile
  sameFile : served.swapFile.length = swapFile.length
  sameTable : swapData'.blockSize = swapData.blockSize ∧ swapData'.blockList = swapData.blockList

/-- The answer to a write has an empty text. -/
lemma receiveAnswer_write (n : ℕ) (content : List UInt8) :
    (DiskRequest.write n content).receiveAnswer (sendString OP_DISK_WRITE_DONE []) =
      some (none, []) := by
  have hsend : sendString OP_DISK_WRITE_DONE [] =
      encodeInt OP_DISK_WRITE_DONE ++ (encodeInt ([0] : List UInt8).length ++ [0] ++ []) := rfl
  have hstring : receiveString (encodeInt ([0] : List UInt8).length ++ [0] ++ []) =
      some (some [0], []) := receiveBuffer_append (by decide) []
  rw [DiskRequest.receiveAnswer, hsend, receiveOpCode_append (by decide), Option.bind_some]
  dsimp only
  rw [if_pos rfl, hstring, Option.map_some]

/-- A block that is written. -/
lemma exchanged_write {n : ℕ} {content : List UInt8} (hstored : swapData.StoredIn swapFile)
    (hfile : (swapFile.length : ℤ) ≤ INT_MAX) (hpos : 0 < swapData.blockSize)
    (hsize : (swapData.blockSize + 20 : ℤ) ≤ INT_MAX)
    (hcall : (DiskRequest.write n content).IsCall swapData) :
    ∃ served answer swapData',
      Exchanged (.write n content) swapData swapFile served answer swapData' := by
  obtain ⟨hint, hseek⟩ := seekable_of_lt hstored hfile hpos hcall.1
  set padded := content ++ List.replicate (swapData.blockSize - content.length) 0 with hpadded
  have hlength : padded.length = swapData.blockSize := by
    have := hcall.2
    rw [hpadded, List.length_append, List.length_replicate]
    omega
  have hinside := (@seekBlock_add_le n swapData.blockList.length swapData.blockSize hcall.1).trans
    hstored.2
  obtain ⟨hop, hne, hsum⟩ := sendable_message hcall hsize hpos
  refine ⟨⟨writeBlock swapFile n swapData.blockSize padded, true, sendString OP_DISK_WRITE_DONE []⟩,
    none, writeBlockToSwap n content swapData,
    ⟨rfl, ?_, receiveAnswer_write n content, rfl, ⟨?_, ?_⟩, ?_, rfl, rfl⟩⟩
  · have hsend : ((DiskRequest.write n content).message swapData.blockSize).send =
        encodeInt OP_DISK_WRITE ++ (encodeInt
          ([encodeInt n, padded].foldl packetAppend []).length ++
            ([encodeInt n, padded].foldl packetAppend [] ++ [])) := by
      simp only [DiskRequest.message, WireMessage.send, sendPacket, serializePacket,
        List.append_assoc, List.append_nil]
      rfl
    rw [hsend, Swap.serve, receiveOpCode_append hop, Option.bind_some]
    dsimp only
    rw [if_pos rfl, receivePacket_append hne hsum, Option.bind_some]
    dsimp only [serveWrite]
    rw [readStruct_encodeInt, Option.bind_some, show (encodeInt n).take 4 = encodeInt n from rfl,
      decodeInt_encodeInt hint, if_pos ⟨hseek, hlength.ge⟩, Int.toNat_natCast]
    rfl
  · show swapData.disk.set n padded = _
    rw [hstored.1]
    exact (fileBlocks_writeBlock hstored.2 hcall.1 hlength).symm
  · show seekBlock swapData.blockList.length swapData.blockSize ≤ _
    rw [length_writeBlock hlength hinside]
    exact hstored.2
  · exact length_writeBlock hlength hinside

/-- A block that is read. -/
lemma exchanged_read {n : ℕ} (hstored : swapData.StoredIn swapFile)
    (hfile : (swapFile.length : ℤ) ≤ INT_MAX) (hpos : 0 < swapData.blockSize)
    (hsize : (swapData.blockSize + 20 : ℤ) ≤ INT_MAX)
    (hcall : (DiskRequest.read n).IsCall swapData) :
    ∃ served answer swapData', Exchanged (.read n) swapData swapFile served answer swapData' := by
  obtain ⟨hint, hseek⟩ := seekable_of_lt hstored hfile hpos hcall
  have hinside := (@seekBlock_add_le n swapData.blockList.length swapData.blockSize hcall).trans
    hstored.2
  set content := slice swapFile (seekBlock n swapData.blockSize) swapData.blockSize with hcontent
  have hread : readBlock swapFile n swapData.blockSize = some content := if_pos hinside
  have hlength : content.length = swapData.blockSize := by
    rw [hcontent, slice, List.length_take, List.length_drop]
    omega
  have hdisk : swapData.disk[n]? = some content := by
    rw [hstored.1, getElem?_fileBlocks hstored.2 hcall, hread]
  refine ⟨⟨swapFile, true, sendBuffer OP_DISK_READ_DONE content⟩, some content, swapData,
    ⟨?_, ?_, ?_, rfl, hstored, rfl, rfl, rfl⟩⟩
  · rw [DiskRequest.perform, hdisk]
  · have hsend : ((DiskRequest.read n).message swapData.blockSize).send =
        encodeInt OP_DISK_READ ++ (encodeInt (encodeInt n).length ++ encodeInt n ++ []) := by
      simp [DiskRequest.message, WireMessage.send, sendBuffer, serializePacket]
    rw [hsend, Swap.serve, receiveOpCode_append (by decide), Option.bind_some]
    dsimp only
    rw [if_neg (by decide), if_pos rfl, receiveBuffer_append (by rw [length_encodeInt]; decide),
      if_neg (by simp [encodeInt]), Option.bind_some]
    dsimp only [serveRead]
    rw [readStruct_encodeInt, Option.bind_some, show (encodeInt n).take 4 = encodeInt n from rfl,
      decodeInt_encodeInt hint, if_pos hseek, Int.toNat_natCast, hread]
    rfl
  · have hsend : sendBuffer OP_DISK_READ_DONE content =
        encodeInt OP_DISK_READ_DONE ++ (encodeInt content.length ++ content ++ []) := by
      simp [sendBuffer, serializePacket]
    rw [DiskRequest.receiveAnswer, hsend, receiveOpCode_append (by decide), Option.bind_some]
    dsimp only
    rw [if_neg (by simp), receiveBuffer_append (by omega), if_neg ?_]
    apply List.ne_nil_of_length_pos
    omega

/-- **A request and its answer**, over the whole connection. -/
lemma exists_exchanged (hstored : swapData.StoredIn swapFile)
    (hfile : (swapFile.length : ℤ) ≤ INT_MAX) (hpos : 0 < swapData.blockSize)
    (hsize : (swapData.blockSize + 20 : ℤ) ≤ INT_MAX) (hcall : request.IsCall swapData) :
    ∃ served answer swapData', Exchanged request swapData swapFile served answer swapData' := by
  cases request with
  | write n content => exact exchanged_write hstored hfile hpos hsize hcall
  | read n => exact exchanged_read hstored hfile hpos hsize hcall

end Exchange

/-! ## The sizes -/

/-- What `connect_to_kernel_memory` sends behind the handshake: a `t_swap_config`. -/
def sendSwapConfig (swapSize blockSize : ℕ) : List UInt8 :=
  sendBuffer OP_INFO_SWAP (encodeInt swapSize ++ encodeInt blockSize)

/-- `init_swap_data` on the connection: the block table, unless another message came. -/
def receiveSwapConfig (connection : List UInt8) : Option (Option SwapData × List UInt8) :=
  (receiveOpCode connection).bind fun received =>
    if received.1 ≠ OP_INFO_SWAP then some (none, received.2)
    else (receiveBuffer received.2).bind fun buffer =>
      (readStruct 8 buffer.1).bind fun config =>
        let swapSize := decodeInt (config.take 4)
        let blockSize := decodeInt ((config.drop 4).take 4)
        if 0 ≤ swapSize ∧ 0 < blockSize then
          some (Memory.initSwapData swapSize.toNat blockSize.toNat, buffer.2)
        else none

/-- **Both sides have the same sizes.** -/
lemma receiveSwapConfig_sendSwapConfig {swapSize blockSize : ℕ} (hswap : (swapSize : ℤ) ≤ INT_MAX)
    (hblock : (blockSize : ℤ) ≤ INT_MAX) (hpos : 0 < blockSize) :
    receiveSwapConfig (sendSwapConfig swapSize blockSize) =
      some (Memory.initSwapData swapSize blockSize, []) := by
  have hints : IsInt swapSize ∧ IsInt blockSize := by
    unfold IsInt INT_MIN
    omega
  set config := encodeInt swapSize ++ encodeInt blockSize with hconfig
  have hlength : config.length = 8 := rfl
  have hsend : sendSwapConfig swapSize blockSize =
      encodeInt OP_INFO_SWAP ++ (encodeInt config.length ++ config ++ []) := by
    simp [sendSwapConfig, sendBuffer, serializePacket, hconfig]
  have hread : readStruct 8 (some config) = some config := rfl
  have htake : config.take 4 = encodeInt swapSize := rfl
  have hdrop : (config.drop 4).take 4 = encodeInt blockSize := rfl
  rw [receiveSwapConfig, hsend, receiveOpCode_append (by decide), Option.bind_some]
  dsimp only
  rw [if_neg (by simp), receiveBuffer_append (by rw [hlength]; decide),
    if_neg (List.ne_nil_of_length_pos (by omega)), Option.bind_some]
  dsimp only
  rw [hread, Option.bind_some, htake, hdrop, decodeInt_encodeInt hints.1,
    decodeInt_encodeInt hints.2, if_pos (by omega), Int.toNat_natCast, Int.toNat_natCast]

/-! ## The two sides and the connection -/

/-- Kernel Memory with the call it is in, the Swap module, and the bytes between them. `order` and
`answers` are the calls so far and what they have returned, which no step reads. -/
structure DiskLink where
  waiting : Option DiskRequest
  swapFile : List UInt8
  keepRunning : Bool
  toSwap : ByteStream UInt8
  toMemory : ByteStream UInt8
  order : List (Unit × DiskRequest)
  answers : List (Unit × Option (List UInt8))

namespace DiskLink

/-- The Swap module has just connected. -/
def init (swapSize : ℕ) : DiskLink where
  waiting := none
  swapFile := initSwapFile swapSize
  keepRunning := true
  toSwap := .empty
  toMemory := .empty
  order := []
  answers := []

/-- What can happen: a call begins, the Swap module takes a round, a call returns, and bytes
arrive. -/
inductive Event
  | call (request : DiskRequest)
  | serve
  | answer
  | arriveAtSwap (n : ℕ)
  | arriveAtMemory (n : ℕ)
  deriving DecidableEq, Repr

/-- One step. -/
def step (blockSize : ℕ) (s : DiskLink) : Event → Option DiskLink
  | .call request =>
    if s.waiting = none then
      some { s with
        waiting := some request
        toSwap := s.toSwap.send (request.message blockSize).send
        order := s.order ++ [((), request)] }
    else none
  | .serve =>
    if s.keepRunning then
      (Swap.serve blockSize s.swapFile s.toSwap.arrived).map fun served =>
        { s with
          swapFile := served.1.swapFile
          keepRunning := served.1.keepRunning
          toSwap := ⟨s.toSwap.underWay, served.2⟩
          toMemory := s.toMemory.send served.1.sent }
    else none
  | .answer =>
    s.waiting.bind fun request =>
      (request.receiveAnswer s.toMemory.arrived).map fun answer =>
        { s with
          waiting := none
          toMemory := ⟨s.toMemory.underWay, answer.2⟩
          answers := s.answers ++ [((), answer.1)] }
  | .arriveAtSwap n => some { s with toSwap := s.toSwap.arrive n }
  | .arriveAtMemory n => some { s with toMemory := s.toMemory.arrive n }

/-- The calls are for blocks of the table. -/
def Proper (swapData : SwapData) (_ : DiskLink) : Event → Prop
  | .call request => request.IsCall swapData
  | _ => True

instance (swapData : SwapData) (s : DiskLink) : DecidablePred (Proper swapData s)
  | .call _ => inferInstanceAs (Decidable (DiskRequest.IsCall _ _))
  | .serve | .answer | .arriveAtSwap _ | .arriveAtMemory _ => .isTrue trivial

/-- Where the call is: there is none, the request is on its way, or the answer is. -/
inductive Stage (s : DiskLink) (swapData : SwapData) : Prop
  | idle (waiting : s.waiting = none) (stored : swapData.StoredIn s.swapFile)
      (toSwap : s.toSwap.bytes = []) (toMemory : s.toMemory.bytes = [])
  | asked (request : DiskRequest) (waiting : s.waiting = some request)
      (call : request.IsCall swapData) (stored : swapData.StoredIn s.swapFile)
      (toSwap : s.toSwap.bytes = (request.message swapData.blockSize).send)
      (toMemory : s.toMemory.bytes = [])
  | answered (request : DiskRequest) (swapFile : List UInt8) (served : Served)
      (answer : Option (List UInt8)) (swapData' : SwapData) (waiting : s.waiting = some request)
      (exchanged : Exchanged request swapData swapFile served answer swapData')
      (file : s.swapFile = served.swapFile) (toSwap : s.toSwap.bytes = [])
      (toMemory : s.toMemory.bytes = served.sent)

/-- **The calls so far** have returned what the list of blocks gives, and the file has the
blocks. -/
structure Agrees (swapData₀ : SwapData) (s : DiskLink) (performed : List (Unit × DiskRequest))
    (swapData : SwapData) : Prop where
  performs : performAll DiskRequest.perform performed swapData₀ = some (s.answers, swapData)
  order : s.order = performed ++ s.waiting.toList.map fun request => ((), request)
  sameTable : swapData.blockSize = swapData₀.blockSize ∧ swapData.blockList = swapData₀.blockList
  file : (s.swapFile.length : ℤ) ≤ INT_MAX
  keepRunning : s.keepRunning = true
  stage : s.Stage swapData

section Steps

variable {swapData₀ swapData : SwapData} {s s' : DiskLink} {performed : List (Unit × DiskRequest)}
  {blockSize : ℕ}

/-- Only the size of the blocks and their records count. -/
lemma IsCall.congr {request : DiskRequest} (h : request.IsCall swapData₀)
    (hsame : swapData.blockSize = swapData₀.blockSize ∧ swapData.blockList = swapData₀.blockList) :
    request.IsCall swapData := by
  cases request with
  | write n content => exact ⟨hsame.2 ▸ h.1, hsame.1 ▸ h.2⟩
  | read n =>
    show n < swapData.blockList.length
    rw [hsame.2]
    exact h

/-- Nothing is read of a stream without bytes. -/
lemma arrived_of_bytes {stream : ByteStream UInt8} (h : stream.bytes = []) : stream.arrived = [] :=
  (List.append_eq_nil_iff.1 h).1

/-- A call begins. -/
lemma Agrees.call (h : Agrees swapData₀ s performed swapData) {request : DiskRequest}
    (hcall : request.IsCall swapData₀)
    (hstep : s.step swapData₀.blockSize (.call request) = some s') :
    Agrees swapData₀ s' performed swapData := by
  simp only [step] at hstep
  split at hstep
  · rename_i hidle
    obtain rfl := Option.some.inj hstep
    cases h.stage with
    | idle waiting stored toSwap toMemory =>
      refine ⟨h.performs, ?_, h.sameTable, h.file, h.keepRunning, ?_⟩
      · rw [h.order, hidle]
        simp
      · refine .asked request rfl (IsCall.congr hcall h.sameTable) stored ?_ toMemory
        rw [ByteStream.bytes_send, toSwap, h.sameTable.1, List.nil_append]
    | asked request' waiting call stored toSwap toMemory =>
      exact absurd (hidle.symm.trans waiting) (by simp)
    | answered request' swapFile served answer swapData' waiting exchanged file toSwap toMemory =>
      exact absurd (hidle.symm.trans waiting) (by simp)
  · exact absurd hstep (by simp)

/-- The Swap module has taken a round. -/
lemma Agrees.serve (h : Agrees swapData₀ s performed swapData) (hpos : 0 < swapData₀.blockSize)
    (hsize : (swapData₀.blockSize + 20 : ℤ) ≤ INT_MAX)
    (hstep : s.step swapData₀.blockSize .serve = some s') :
    Agrees swapData₀ s' performed swapData := by
  simp only [step] at hstep
  rw [if_pos h.keepRunning] at hstep
  obtain ⟨⟨served, rest⟩, hserve, rfl⟩ := Option.map_eq_some_iff.1 hstep
  have hsomething : s.toSwap.bytes ≠ [] := by
    intro hbytes
    rw [arrived_of_bytes hbytes] at hserve
    exact absurd hserve (by simp [Swap.serve, receiveOpCode, socketReceive])
  cases h.stage with
  | idle waiting stored toSwap toMemory => exact absurd toSwap hsomething
  | answered request swapFile served answer swapData' waiting exchanged file toSwap toMemory =>
    exact absurd toSwap hsomething
  | asked request waiting call stored toSwap toMemory =>
    rw [← h.sameTable.1] at hpos hsize hserve
    obtain ⟨served', answer, swapData', hexchanged⟩ :=
      exists_exchanged stored h.file hpos hsize call
    obtain ⟨rfl, hrest⟩ := ByteStream.read_only (steady_serve _ _) hserve toSwap hexchanged.serve
    refine ⟨h.performs, h.order, h.sameTable, ?_, hexchanged.keepRunning, ?_⟩
    · show (served.swapFile.length : ℤ) ≤ INT_MAX
      rw [hexchanged.sameFile]
      exact h.file
    · refine .answered request s.swapFile served answer swapData' waiting hexchanged rfl hrest ?_
      rw [ByteStream.bytes_send, toMemory, List.nil_append]

/-- A call has returned. -/
lemma Agrees.answer (h : Agrees swapData₀ s performed swapData)
    (hstep : s.step swapData₀.blockSize .answer = some s') :
    ∃ performed' swapData', Agrees swapData₀ s' performed' swapData' := by
  obtain ⟨request, hrequest, hanswer⟩ := Option.bind_eq_some_iff.1 hstep
  obtain ⟨⟨received, rest⟩, hreceive, rfl⟩ := Option.map_eq_some_iff.1 hanswer
  have hsomething : s.toMemory.bytes ≠ [] := by
    intro hbytes
    rw [arrived_of_bytes hbytes] at hreceive
    cases request <;>
      exact absurd hreceive (by simp [DiskRequest.receiveAnswer, receiveOpCode, socketReceive])
  cases h.stage with
  | idle waiting stored toSwap toMemory => exact absurd toMemory hsomething
  | asked request' waiting call stored toSwap toMemory => exact absurd toMemory hsomething
  | answered request' swapFile served answer swapData' waiting exchanged file toSwap toMemory =>
    obtain rfl := Option.some.inj (hrequest.symm.trans waiting)
    obtain ⟨rfl, hrest⟩ := ByteStream.read_only request.steady_receiveAnswer hreceive toMemory
      exchanged.receive
    refine ⟨performed ++ [((), request)], swapData',
      performAll_concat h.performs exchanged.perform (), ?_, ?_, h.file, h.keepRunning,
      .idle rfl (file ▸ exchanged.storedIn) toSwap hrest⟩
    · rw [h.order, waiting]
      simp
    · exact ⟨exchanged.sameTable.1.trans h.sameTable.1, exchanged.sameTable.2.trans h.sameTable.2⟩

/-- Bytes have arrived. -/
lemma Agrees.arrive (h : Agrees swapData₀ s performed swapData) {toSwap toMemory : ByteStream UInt8}
    (hswap : toSwap.bytes = s.toSwap.bytes) (hmemory : toMemory.bytes = s.toMemory.bytes) :
    Agrees swapData₀ { s with toSwap := toSwap, toMemory := toMemory } performed swapData := by
  refine ⟨h.performs, h.order, h.sameTable, h.file, h.keepRunning, ?_⟩
  cases h.stage with
  | idle waiting stored empty empty' =>
    exact .idle waiting stored (hswap.trans empty) (hmemory.trans empty')
  | asked request waiting call stored sent empty =>
    exact .asked request waiting call stored (hswap.trans sent) (hmemory.trans empty)
  | answered request swapFile served answer swapData' waiting exchanged file empty sent =>
    exact .answered request swapFile served answer swapData' waiting exchanged file
      (hswap.trans empty) (hmemory.trans sent)

/-- **One step** keeps the agreement. -/
lemma Agrees.step (h : Agrees swapData₀ s performed swapData) (hpos : 0 < swapData₀.blockSize)
    (hsize : (swapData₀.blockSize + 20 : ℤ) ≤ INT_MAX) {e : Event} (hproper : s.Proper swapData₀ e)
    (hstep : s.step swapData₀.blockSize e = some s') :
    ∃ performed' swapData', Agrees swapData₀ s' performed' swapData' := by
  cases e with
  | call request => exact ⟨_, _, h.call hproper hstep⟩
  | serve => exact ⟨_, _, h.serve hpos hsize hstep⟩
  | answer => exact h.answer hstep
  | arriveAtSwap n =>
    obtain rfl := Option.some.inj hstep
    exact ⟨_, _, h.arrive (ByteStream.bytes_arrive n s.toSwap) rfl⟩
  | arriveAtMemory n =>
    obtain rfl := Option.some.inj hstep
    exact ⟨_, _, h.arrive rfl (ByteStream.bytes_arrive n s.toMemory)⟩

/-- A step that is not the beginning of a call. -/
def Event.goesOn : Event → Bool
  | .call _ => false
  | _ => true

/-- An answer that is on its way is received. -/
lemma exists_answer {request : DiskRequest} {answer : Option (List UInt8)}
    (hwaiting : s.waiting = some request)
    (hreceive : request.receiveAnswer s.toMemory.bytes = some (answer, [])) (blockSize : ℕ) :
    ∃ t, execute (DiskLink.step blockSize) s
        [.arriveAtMemory s.toMemory.underWay.length, .answer] = some t ∧ t.waiting = none := by
  have hread := ByteStream.read_arrived hreceive
  refine ⟨{ s with
    waiting := none
    toMemory := ⟨(s.toMemory.arrive s.toMemory.underWay.length).underWay, []⟩
    answers := s.answers ++ [((), answer)] }, ?_, rfl⟩
  simp only [execute, DiskLink.step, Option.bind_some, hwaiting, hread, Option.map_some]

/-- **A call returns**: whatever is under way, its arrival and the steps of the two sides lead to
the end of the call. -/
lemma Agrees.returns (h : Agrees swapData₀ s performed swapData) (hpos : 0 < swapData₀.blockSize)
    (hsize : (swapData₀.blockSize + 20 : ℤ) ≤ INT_MAX) :
    ∃ events t, events.all Event.goesOn = true ∧
      execute (DiskLink.step swapData₀.blockSize) s events = some t ∧ t.waiting = none := by
  cases h.stage with
  | idle waiting stored toSwap toMemory => exact ⟨[], s, rfl, rfl, waiting⟩
  | answered request swapFile served answer swapData' waiting exchanged file toSwap toMemory =>
    obtain ⟨t, ht, hidle⟩ :=
      exists_answer waiting (toMemory ▸ exchanged.receive) swapData₀.blockSize
    exact ⟨_, t, rfl, ht, hidle⟩
  | asked request waiting call stored toSwap toMemory =>
    rw [← h.sameTable.1] at hpos hsize ⊢
    obtain ⟨served, answer, swapData', hexchanged⟩ :=
      exists_exchanged stored h.file hpos hsize call
    have hread := ByteStream.read_arrived (toSwap ▸ hexchanged.serve)
    set after : DiskLink := { s with
      swapFile := served.swapFile
      keepRunning := served.keepRunning
      toSwap := ⟨(s.toSwap.arrive s.toSwap.underWay.length).underWay, []⟩
      toMemory := s.toMemory.send served.sent } with hafter
    have hserved : execute (DiskLink.step swapData.blockSize) s
        [.arriveAtSwap s.toSwap.underWay.length, .serve] = some after := by
      simp only [execute, DiskLink.step, Option.bind_some, h.keepRunning, if_true, hread,
        Option.map_some]
      rfl
    have hbytes : after.toMemory.bytes = served.sent := by
      rw [hafter, ByteStream.bytes_send, toMemory, List.nil_append]
    obtain ⟨t, ht, hidle⟩ := exists_answer (show after.waiting = some request from waiting)
      (hbytes ▸ hexchanged.receive) swapData.blockSize
    refine ⟨[.arriveAtSwap s.toSwap.underWay.length, .serve] ++
      [.arriveAtMemory after.toMemory.underWay.length, .answer], t, rfl, ?_, hidle⟩
    rw [execute_append, hserved, Option.bind_some, ht]

end Steps

/-- **The Swap module is a list of blocks.** However the bytes are cut into pieces on their way, and
in whatever order the two sides take their steps, every call that has returned has returned what the
list of blocks gives that Kernel Memory made when the Swap module connected; between two calls the
blocks of the list are those of the swap file; and a call always returns.

**Proof sketch.** At most one message is on the connection, so a reader finds all of it or waits.
The round of the Swap module changes the file as the request changes the list, and its answer is
what the list gives. -/
theorem answers_of_run {swapSize blockSize : ℕ} {swapData₀ : SwapData} {s : DiskLink}
    (hpos : 0 < blockSize) (hblock : (blockSize + 20 : ℤ) ≤ INT_MAX)
    (hswap : (swapSize : ℤ) ≤ INT_MAX)
    (hinit : receiveSwapConfig (sendSwapConfig swapSize blockSize) = some (some swapData₀, []))
    (h : Run (step blockSize) (Proper swapData₀) (init swapSize) s) :
    ∃ performed swapData,
      performAll DiskRequest.perform performed swapData₀ = some (s.answers, swapData) ∧
      s.order = performed ++ (s.waiting.toList.map fun request => ((), request)) ∧
      (s.waiting = none → swapData.StoredIn s.swapFile) ∧
      ∃ events t, events.all Event.goesOn = true ∧
        execute (step blockSize) s events = some t ∧ t.waiting = none := by
  rw [receiveSwapConfig_sendSwapConfig hswap (by omega) hpos] at hinit
  have hinit' : Memory.initSwapData swapSize blockSize = some swapData₀ := by simpa using hinit
  have hsize : blockSize = swapData₀.blockSize := by
    unfold Memory.initSwapData at hinit'
    rw [if_neg (by omega)] at hinit'
    obtain rfl := Option.some.inj hinit'
    rfl
  subst hsize
  have hstart : Agrees swapData₀ (init swapSize) [] swapData₀ := by
    refine ⟨rfl, rfl, ⟨rfl, rfl⟩, ?_, rfl,
      .idle rfl (Memory.storedIn_initSwapData hinit') rfl rfl⟩
    rw [init, initSwapFile, List.length_replicate]
    exact hswap
  obtain ⟨performed, swapData, hagrees⟩ : ∃ performed swapData,
      Agrees swapData₀ s performed swapData :=
    h.invariant (I := fun s => ∃ performed swapData, Agrees swapData₀ s performed swapData)
      ⟨[], swapData₀, hstart⟩ fun _ _ _ hI hproper hstep => by
        obtain ⟨performed, swapData, hagrees⟩ := hI
        exact hagrees.step hpos hblock hproper hstep
  refine ⟨performed, swapData, hagrees.performs, hagrees.order, fun hidle => ?_,
    hagrees.returns hpos hblock⟩
  cases hagrees.stage with
  | idle waiting stored toSwap toMemory => exact stored
  | asked request waiting call stored toSwap toMemory =>
    exact absurd (hidle.symm.trans waiting) (by simp)
  | answered request swapFile served answer swapData' waiting exchanged file toSwap toMemory =>
    exact absurd (hidle.symm.trans waiting) (by simp)

/-- A block is written and read again, and the last answer is still on its way. -/
def writeThenRead : List Event :=
  [.call (.write 1 [7]), .arriveAtSwap 3, .arriveAtSwap 40, .serve, .arriveAtMemory 20, .answer,
    .call (.read 1), .arriveAtSwap 40, .serve, .arriveAtMemory 9]

/-- A block is written and read again. -/
theorem answers_of_run_writeThenRead :
    ∃ swapData₀ s, Run (step 2) (Proper swapData₀) (init 4) s ∧ s.swapFile = [0, 0, 7, 0] ∧
      ∃ performed swapData,
        performAll DiskRequest.perform performed swapData₀ = some (s.answers, swapData) ∧
        s.order = performed ++ (s.waiting.toList.map fun request => ((), request)) ∧
        (s.waiting = none → swapData.StoredIn s.swapFile) ∧
        ∃ events t, events.all Event.goesOn = true ∧
          execute (step 2) s events = some t ∧ t.waiting = none := by
  have hinit : (receiveSwapConfig (sendSwapConfig 4 2)).any (fun config =>
      config.1.any (fun swapData₀ =>
        (executeOk (step 2) (Proper swapData₀) (init 4) writeThenRead).any fun s =>
          decide (config.2 = [] ∧ s.swapFile = [0, 0, 7, 0]))) = true := by decide +kernel
  obtain ⟨⟨config, rest⟩, hconfig, hsome⟩ := (Option.any_eq_true _ _).1 hinit
  obtain ⟨swapData₀, rfl, hrun⟩ := (Option.any_eq_true _ _).1 hsome
  obtain ⟨s, hs, hdec⟩ := (Option.any_eq_true _ _).1 hrun
  obtain ⟨rfl, hfile⟩ := of_decide_eq_true hdec
  exact ⟨swapData₀, s, .of_executeOk hs, hfile,
    answers_of_run (by decide) (by decide) (by decide) hconfig (.of_executeOk hs)⟩

end DiskLink

end OsSimulator.Swap
