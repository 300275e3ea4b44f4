import OsSimulator.Memory.Overlap
import OsSimulator.Utils.CString
import OsSimulator.Utils.Msg

set_option relaxedAutoImplicit false
set_option autoImplicit false

/-!
# The list of sticks

`handshake` puts a stick in the list before it knows whether its handshake has succeeded, and adds
its memory only if it has. An address is looked up in the list, so a stick whose memory was not
added moves the ones behind it.

## Main definitions

* `receiveIntField`, `handshakeMemoryStick` — the handshake of a stick.
* `Agrees` — the list and the address space agree.
* `Completes` — the stick sends both fields, with a positive size.

## Main results

* `agrees_iff` — the sequences of connections after which they agree.
* `agreement_lost` — a stick that does not send its port.
-/

namespace OsSimulator.Memory

/-- `t_stick_data`, as far as it is known: the address is not, when it cannot be resolved. -/
structure StickData where
  stickSize : ℤ
  ipMemoryStick : Option String
  stickPort : ℤ
  deriving DecidableEq, Repr

/-- A stick that connects: whether it takes the handshake, its address, and the messages it sends,
each an operation code and the text behind it, if there is one. -/
structure StickPeer where
  takesHandshake : Bool
  ip : Option String
  messages : List (ℤ × Option String)
  deriving DecidableEq, Repr

/-- The addresses for which the memory of a stick was added, and its index in the list. -/
structure StickPlace where
  index : ℕ
  base : ℤ
  size : ℤ
  deriving DecidableEq, Repr

/-- The list of sticks and the memory, with a record of what was added. -/
structure Registry where
  mainMemory : MainMemory
  connectedSticks : List StickData
  added : List StickPlace
  deriving DecidableEq, Repr

/-- `receive_int_field`: whether the field was received, its value, and what is left to receive. A
field of another kind closes the connection, from which nothing is received then. A text that does
not arrive is a null pointer, at which `atoi` fails. -/
def receiveIntField (expectedOp outValue : ℤ) (messages : List (ℤ × Option String)) :
    Option (Bool × ℤ × List (ℤ × Option String)) :=
  match messages with
  | [] => some (false, outValue, [])
  | (op, text) :: rest =>
    if op ≠ expectedOp then some (false, outValue, [])
    else text.map fun value => (true, atoi value, rest)

/-- `init_stick_data`. -/
def initStickData : StickData := ⟨-1, none, -1⟩

/-- `receive_stick_size`. -/
def receiveStickSize (stick : StickData) (messages : List (ℤ × Option String)) :
    Option (Bool × StickData × List (ℤ × Option String)) :=
  (receiveIntField OP_MEMORY_SIZE stick.stickSize messages).map fun field =>
    (field.1, { stick with stickSize := field.2.1 }, field.2.2)

/-- `receive_stick_listen_port`. -/
def receiveStickListenPort (stick : StickData) (messages : List (ℤ × Option String)) :
    Option (Bool × StickData × List (ℤ × Option String)) :=
  (receiveIntField OP_PORT stick.stickPort messages).map fun field =>
    (field.1, { stick with stickPort := field.2.1 }, field.2.2)

/-- `handshake` with a stick. Every field overwrites `init_ok`, so the last one decides. -/
def handshakeMemoryStick (r : Registry) (peer : StickPeer) : Option Registry :=
  if peer.takesHandshake = false then some r
  else
    let stickData := { initStickData with ipMemoryStick := peer.ip }
    (receiveStickSize stickData peer.messages).bind fun size =>
      (receiveStickListenPort size.2.1 size.2.2).bind fun port =>
        let connectedSticks := r.connectedSticks ++ [port.2.1]
        if port.1 then
          (addTotalMemory r.mainMemory port.2.1.stickSize).map fun mainMemory =>
            ⟨mainMemory, connectedSticks,
              r.added ++ [⟨r.connectedSticks.length, r.mainMemory.totalSize, port.2.1.stickSize⟩]⟩
        else some { r with connectedSticks := connectedSticks }

/-- The loop of `find_stick` over the list. -/
def findStickLoop (accumulatedBase : ℤ) (index : ℕ) (physicalAddress : ℤ) :
    List StickData → Option (ℕ × ℤ)
  | [] => none
  | currentItem :: rest =>
    if accumulatedBase ≤ physicalAddress ∧
        physicalAddress < accumulatedBase + currentItem.stickSize then
      some (index, physicalAddress - accumulatedBase)
    else findStickLoop (accumulatedBase + currentItem.stickSize) (index + 1) physicalAddress rest

/-- The sum of the sizes. -/
def sizesOf (sticks : List StickData) : ℤ := (sticks.map StickData.stickSize).sum

/-- The list and the address space agree: the total size is the sum of the sizes, which are
positive, and the stick that is found for an address is the one whose memory was added for it. -/
structure Agrees (r : Registry) : Prop where
  total : r.mainMemory.totalSize = sizesOf r.connectedSticks
  positive : ∀ s ∈ r.connectedSticks, 0 < s.stickSize
  found : ∀ a i off, findStickLoop 0 0 a r.connectedSticks = some (i, off) ↔
    ∃ place ∈ r.added, place.index = i ∧ place.base ≤ a ∧ a < place.base + place.size ∧
      off = a - place.base
  covered : ∀ a, (findStickLoop 0 0 a r.connectedSticks).isSome ↔
    0 ≤ a ∧ a < r.mainMemory.totalSize

/-- The stick sends its size, which is positive, and then its port; or it was not let in. -/
def Completes (peer : StickPeer) : Prop :=
  peer.takesHandshake = true → ∃ size port rest,
    peer.messages = (OP_MEMORY_SIZE, some size) :: (OP_PORT, some port) :: rest ∧ 0 < atoi size

/-! ## The search -/

/-- No sticks have no size. -/
@[simp] lemma sizesOf_nil : sizesOf [] = 0 := rfl

/-- The size of the first one and of the rest. -/
@[simp] lemma sizesOf_cons (s : StickData) (rest : List StickData) :
    sizesOf (s :: rest) = s.stickSize + sizesOf rest := by
  simp [sizesOf]

/-- The sizes of two lists together. -/
@[simp] lemma sizesOf_append (l r : List StickData) : sizesOf (l ++ r) = sizesOf l + sizesOf r := by
  simp [sizesOf]

/-- On the sticks of the memory model this is the search of that model. -/
theorem findStickLoop_eq {data : List StickData} {sticks : List Stick}
    (hsizes : data.map StickData.stickSize = sticks.map fun s => (s.stickSize : ℤ)) (base a : ℤ)
    (index : ℕ) :
    findStickLoop base index a data =
      (findStickFrom base index a sticks).map fun found => (found.1, (found.2 : ℤ)) := by
  induction data generalizing sticks base index with
  | nil =>
    obtain rfl : sticks = [] := by simpa using hsizes.symm
    rfl
  | cons d data ih =>
    cases sticks with
    | nil => simp at hsizes
    | cons s sticks =>
      obtain ⟨hsize, hrest⟩ := List.cons.inj hsizes
      rw [findStickLoop, findStickFrom, hsize]
      split
      · rename_i hin
        simp only [Option.map_some, Int.toNat_of_nonneg (show 0 ≤ a - base by omega)]
      · exact ih hrest _ _

/-- The stick that has an address. -/
lemma findStickLoop_eq_some {sticks : List StickData} (hpos : ∀ s ∈ sticks, 0 < s.stickSize)
    (base a : ℤ) (index i : ℕ) (off : ℤ) :
    findStickLoop base index a sticks = some (i, off) ↔
      ∃ j s, i = index + j ∧ sticks[j]? = some s ∧ base + sizesOf (sticks.take j) ≤ a ∧
        a < base + sizesOf (sticks.take j) + s.stickSize ∧
        off = a - (base + sizesOf (sticks.take j)) := by
  have hprefix : ∀ (l : List StickData) (j : ℕ), (∀ s ∈ l, 0 < s.stickSize) →
      0 ≤ sizesOf (l.take j) := by
    intro l j hl
    apply List.sum_nonneg
    intro n hn
    obtain ⟨s, hs, rfl⟩ := List.mem_map.1 hn
    exact (hl s (List.mem_of_mem_take hs)).le
  induction sticks generalizing base index with
  | nil => simp [findStickLoop]
  | cons s rest ih =>
    have hrest : ∀ t ∈ rest, 0 < t.stickSize := fun t ht => hpos t (List.mem_cons_of_mem s ht)
    rw [findStickLoop]
    split
    · rename_i hin
      constructor
      · rintro ⟨⟩
        exact ⟨0, s, rfl, rfl, by simp; omega, by simp; omega, by simp⟩
      · rintro ⟨j, t, rfl, hget, hlow, hhigh, rfl⟩
        cases j with
        | zero => simp
        | succ j =>
          have := hprefix rest j hrest
          rw [List.take_succ_cons, sizesOf_cons] at hlow
          omega
    · rename_i hout
      refine (ih hrest (base + s.stickSize) (index + 1)).trans ?_
      constructor
      · rintro ⟨j, t, rfl, hget, hlow, hhigh, rfl⟩
        refine ⟨j + 1, t, by omega, hget, ?_, ?_, ?_⟩ <;>
          rw [List.take_succ_cons, sizesOf_cons] <;> omega
      · rintro ⟨j, t, rfl, hget, hlow, hhigh, rfl⟩
        cases j with
        | zero =>
          obtain rfl := Option.some.inj hget
          simp only [List.take_zero, sizesOf_nil] at hlow hhigh
          omega
        | succ j =>
          rw [List.take_succ_cons, sizesOf_cons] at hlow hhigh ⊢
          exact ⟨j, t, by omega, hget, by omega, by omega, by omega⟩

/-- The addresses that a stick has. -/
lemma isSome_findStickLoop {sticks : List StickData} (hpos : ∀ s ∈ sticks, 0 < s.stickSize)
    (base a : ℤ) (index : ℕ) :
    (findStickLoop base index a sticks).isSome ↔ base ≤ a ∧ a < base + sizesOf sticks := by
  induction sticks generalizing base index with
  | nil =>
    simp only [findStickLoop, Option.isSome_none, Bool.false_eq_true, sizesOf_nil, false_iff]
    omega
  | cons s rest ih =>
    have hs := hpos s List.mem_cons_self
    have hrest : ∀ t ∈ rest, 0 < t.stickSize := fun t ht => hpos t (List.mem_cons_of_mem s ht)
    have hsum : 0 ≤ sizesOf rest := by
      apply List.sum_nonneg
      intro n hn
      obtain ⟨t, ht, rfl⟩ := List.mem_map.1 hn
      exact (hrest t ht).le
    rw [findStickLoop, sizesOf_cons]
    split
    · simp only [Option.isSome_some, true_iff]
      omega
    · rw [ih hrest]
      omega

/-! ## Connections -/

/-- Every stick has its place, behind the ones before it. -/
structure Sound (r : Registry) : Prop where
  total : r.mainMemory.totalSize = sizesOf r.connectedSticks
  positive : ∀ s ∈ r.connectedSticks, 0 < s.stickSize
  added : ∀ place, place ∈ r.added ↔ ∃ s, r.connectedSticks[place.index]? = some s ∧
    place.base = sizesOf (r.connectedSticks.take place.index) ∧ place.size = s.stickSize

/-- A stick without bytes is in the list, or one whose memory was not added. -/
def Broken (r : Registry) : Prop :=
  (∃ s ∈ r.connectedSticks, s.stickSize ≤ 0) ∨
    r.mainMemory.totalSize < sizesOf r.connectedSticks

/-- A sound registry agrees with the memory. -/
lemma Sound.agrees {r : Registry} (h : Sound r) : Agrees r := by
  refine ⟨h.total, h.positive, fun a i off => ?_, fun a => ?_⟩
  · rw [findStickLoop_eq_some h.positive]
    constructor
    · rintro ⟨j, s, rfl, hget, hlow, hhigh, rfl⟩
      rw [Int.zero_add] at hlow hhigh ⊢
      exact ⟨⟨j, sizesOf (r.connectedSticks.take j), s.stickSize⟩,
        (h.added _).2 ⟨s, hget, rfl, rfl⟩, (Nat.zero_add j).symm, hlow, hhigh, rfl⟩
    · rintro ⟨place, hplace, rfl, hlow, hhigh, rfl⟩
      obtain ⟨s, hget, hbase, hsize⟩ := (h.added place).1 hplace
      exact ⟨place.index, s, by omega, hget, by omega, by omega, by omega⟩
  · rw [isSome_findStickLoop h.positive, h.total, Int.zero_add]

/-- A broken one does not. -/
lemma Broken.not_agrees {r : Registry} (h : Broken r) : ¬ Agrees r := by
  intro hagrees
  rcases h with ⟨s, hs, hsize⟩ | hless
  · exact absurd (hagrees.positive s hs) (not_lt.2 hsize)
  · exact absurd hagrees.total hless.ne

/-- A field is received, or it is not and nothing is received behind it. -/
lemma receiveIntField_cases {op out value : ℤ} {messages rest : List (ℤ × Option String)} {ok : Bool}
    (h : receiveIntField op out messages = some (ok, value, rest)) :
    (ok = true ∧ ∃ text, messages = (op, some text) :: rest ∧ value = atoi text) ∨
      (ok = false ∧ rest = [] ∧ ∀ text behind, messages ≠ (op, some text) :: behind) := by
  unfold receiveIntField at h
  split at h
  · obtain ⟨rfl, rfl, rfl⟩ := h
    exact .inr ⟨rfl, rfl, by simp⟩
  · rename_i op' text behind
    split at h
    · rename_i hother
      obtain ⟨rfl, rfl, rfl⟩ := h
      exact .inr ⟨rfl, rfl, fun text' behind' heq => hother (congrArg Prod.fst (List.cons.inj heq).1)⟩
    · rename_i hsame
      obtain ⟨text, rfl, hfield⟩ := Option.map_eq_some_iff.1 h
      obtain ⟨rfl, rfl, rfl⟩ := hfield
      rw [not_not] at hsame
      exact .inl ⟨rfl, text, by rw [hsame], rfl⟩

/-- What a connection does: nothing; or the stick joins the list, and its memory the total or not.
It is added when both fields have been received, and a size that was not is `-1`. -/
lemma handshakeMemoryStick_cases {r r' : Registry} {peer : StickPeer}
    (h : handshakeMemoryStick r peer = some r') :
    (peer.takesHandshake = false ∧ r' = r) ∨
      ∃ s, r'.connectedSticks = r.connectedSticks ++ [s] ∧ peer.takesHandshake = true ∧
        (((∃ size port rest, s.stickSize = atoi size ∧
              peer.messages = (OP_MEMORY_SIZE, some size) :: (OP_PORT, some port) :: rest) ∧
            r'.mainMemory.totalSize = r.mainMemory.totalSize + s.stickSize ∧
            r'.added = r.added ++
              [⟨r.connectedSticks.length, r.mainMemory.totalSize, s.stickSize⟩]) ∨
          (¬ Completes peer ∧ r'.mainMemory = r.mainMemory)) := by
  unfold handshakeMemoryStick at h
  split at h
  · rename_i hnot
    exact .inl ⟨hnot, (Option.some.inj h).symm⟩
  · rename_i htakes
    have htakes : peer.takesHandshake = true := by simpa using htakes
    right
    obtain ⟨size, hsize, h⟩ := Option.bind_eq_some_iff.1 h
    obtain ⟨port, hport, h⟩ := Option.bind_eq_some_iff.1 h
    obtain ⟨sizeField, hsizeField, rfl⟩ := Option.map_eq_some_iff.1 hsize
    obtain ⟨portField, hportField, rfl⟩ := Option.map_eq_some_iff.1 hport
    obtain ⟨sizeOk, sizeValue, behind⟩ := sizeField
    obtain ⟨portOk, portValue, rest⟩ := portField
    rcases receiveIntField_cases hportField with ⟨rfl, port, hbehind, rfl⟩ | ⟨rfl, -, hbehind⟩
    · rcases receiveIntField_cases hsizeField with ⟨-, size, hmessages, hvalue⟩ | ⟨-, rfl, -⟩
      · obtain ⟨mainMemory, hadd, rfl⟩ := Option.map_eq_some_iff.1 h
        refine ⟨_, rfl, htakes, .inl ⟨⟨size, port, rest, hvalue, ?_⟩, ?_, rfl⟩⟩
        · exact hmessages.trans (congrArg _ hbehind)
        · unfold addTotalMemory at hadd
          split at hadd
          · obtain rfl := Option.some.inj hadd
            rfl
          · simp at hadd
      · simp at hbehind
    · obtain rfl := Option.some.inj h
      refine ⟨_, rfl, htakes, .inr ⟨fun hcompletes => ?_, rfl⟩⟩
      obtain ⟨size, port, rest', hmessages, -⟩ := hcompletes htakes
      rcases receiveIntField_cases hsizeField with ⟨-, size', hsent, -⟩ | ⟨-, -, hnot⟩
      · exact hbehind port rest' (List.cons.inj (hsent.symm.trans hmessages)).2
      · exact hnot size _ hmessages

/-- A connection that completes keeps the places of the sticks, and adds one. -/
lemma Sound.step {r r' : Registry} {peer : StickPeer} (h : Sound r) (hcompletes : Completes peer)
    (hstep : handshakeMemoryStick r peer = some r') : Sound r' := by
  rcases handshakeMemoryStick_cases hstep with
    ⟨-, rfl⟩ | ⟨s, hsticks, htakes, ⟨⟨size, port, rest, hsize, hmessages⟩, htotal, hadded⟩ | ⟨hnot, -⟩⟩
  · exact h
  · obtain ⟨size', port', rest', hmessages', hpos⟩ := hcompletes htakes
    obtain rfl : size = size' := by
      rw [hmessages] at hmessages'
      exact Option.some.inj (congrArg Prod.snd (List.cons.inj hmessages').1)
    refine ⟨?_, ?_, fun place => ?_⟩
    · rw [htotal, hsticks, h.total, sizesOf_append, sizesOf_cons, sizesOf_nil, Int.add_zero]
    · intro t ht
      rw [hsticks] at ht
      rcases List.mem_append.1 ht with ht | ht
      · exact h.positive t ht
      · obtain rfl := List.mem_singleton.1 ht
        rwa [hsize]
    · rw [hadded, hsticks, List.mem_append, List.mem_singleton, h.added]
      by_cases hold : place.index < r.connectedSticks.length
      · rw [List.getElem?_append_left hold, List.take_append_of_le_length hold.le]
        constructor
        · rintro (hplace | rfl)
          · exact hplace
          · exact absurd hold (lt_irrefl _)
        · exact .inl
      · rw [List.getElem?_eq_none (by omega)]
        constructor
        · rintro (⟨t, ht, -⟩ | rfl)
          · simp at ht
          · exact ⟨s, by simp, by simp [h.total], rfl⟩
        · rintro ⟨t, ht, hbase, hplaceSize⟩
          right
          have hindex : place.index = r.connectedSticks.length := by
            have hlt := (List.getElem?_eq_some_iff.1 ht).1
            rw [List.length_append, List.length_singleton] at hlt
            omega
          rw [hindex] at ht hbase
          obtain rfl : s = t := by simpa using ht
          obtain ⟨index, base, placeSize⟩ := place
          simp only [StickPlace.mk.injEq]
          refine ⟨hindex, ?_, hplaceSize⟩
          rw [h.total]
          simpa using hbase
  · exact absurd hcompletes hnot

/-- A connection that does not complete breaks the list. -/
lemma Sound.broken {r r' : Registry} {peer : StickPeer} (h : Sound r) (hnot : ¬ Completes peer)
    (hstep : handshakeMemoryStick r peer = some r') : Broken r' := by
  rcases handshakeMemoryStick_cases hstep with
    ⟨htakes, -⟩ | ⟨s, hsticks, htakes, ⟨⟨size, port, rest, hsize, hmessages⟩, -, -⟩ | ⟨-, hmemory⟩⟩
  · exact absurd (fun h' => absurd (htakes.symm.trans h') (by simp)) hnot
  · refine .inl ⟨s, by rw [hsticks]; exact List.mem_concat_self, ?_⟩
    by_contra hpos
    exact hnot fun _ => ⟨size, port, rest, hmessages, by omega⟩
  · by_cases hpos : s.stickSize ≤ 0
    · exact .inl ⟨s, by rw [hsticks]; exact List.mem_concat_self, hpos⟩
    · right
      rw [hmemory, hsticks, h.total, sizesOf_append, sizesOf_cons, sizesOf_nil]
      omega

/-- A broken list stays broken. -/
lemma Broken.step {r r' : Registry} {peer : StickPeer} (h : Broken r)
    (hstep : handshakeMemoryStick r peer = some r') : Broken r' := by
  rcases handshakeMemoryStick_cases hstep with ⟨-, rfl⟩ | ⟨s, hsticks, -, hrest⟩
  · exact h
  · by_cases hpos : s.stickSize ≤ 0
    · exact .inl ⟨s, by rw [hsticks]; exact List.mem_concat_self, hpos⟩
    · rcases h with ⟨t, ht, hsize⟩ | hless
      · exact .inl ⟨t, by rw [hsticks]; exact List.mem_append_left _ ht, hsize⟩
      · right
        rw [hsticks, sizesOf_append, sizesOf_cons, sizesOf_nil]
        rcases hrest with ⟨-, htotal, -⟩ | ⟨-, hmemory⟩
        · rw [htotal]
          omega
        · rw [hmemory]
          omega

/-- Kernel Memory before any stick has connected. -/
def initRegistry (segmentMaxSize : ℤ) (allocationStrategy : AllocationStrategy) : Registry :=
  ⟨(initKernelMemoryData segmentMaxSize allocationStrategy).mainMemory, [], []⟩

/-- The empty registry is sound. -/
lemma sound_init (segmentMaxSize : ℤ) (allocationStrategy : AllocationStrategy) :
    Sound (initRegistry segmentMaxSize allocationStrategy) :=
  ⟨rfl, by simp [initRegistry], by simp [initRegistry]⟩

/-- A broken registry is never repaired. -/
lemma Broken.run {r r' : Registry} {peers : List StickPeer} (h : Broken r)
    (hrun : execute handshakeMemoryStick r peers = some r') : Broken r' := by
  induction peers generalizing r with
  | nil => exact Option.some.inj hrun ▸ h
  | cons peer peers ih =>
    obtain ⟨next, hstep, hrest⟩ := Option.bind_eq_some_iff.1 hrun
    exact ih (h.step hstep) hrest

/-- The list after a sequence of connections: sound when all complete, and otherwise broken.

**Proof sketch.** Induction on the sequence. The first connection that does not complete breaks the
list (`Sound.broken`), and no later one repairs it (`Broken.run`). -/
lemma sound_or_broken {r r' : Registry} {peers : List StickPeer} (h : Sound r)
    (hrun : execute handshakeMemoryStick r peers = some r') :
    ((∀ peer ∈ peers, Completes peer) ∧ Sound r') ∨
      ((∃ peer ∈ peers, ¬ Completes peer) ∧ Broken r') := by
  induction peers generalizing r with
  | nil => exact .inl ⟨by simp, Option.some.inj hrun ▸ h⟩
  | cons peer peers ih =>
    obtain ⟨next, hstep, hrest⟩ := Option.bind_eq_some_iff.1 hrun
    by_cases hcompletes : Completes peer
    · rcases ih (h.step hcompletes hstep) hrest with ⟨hall, hsound⟩ | ⟨⟨p, hp, hnot⟩, hbroken⟩
      · exact .inl ⟨List.forall_mem_cons.2 ⟨hcompletes, hall⟩, hsound⟩
      · exact .inr ⟨⟨p, List.mem_cons_of_mem peer hp, hnot⟩, hbroken⟩
    · exact .inr ⟨⟨peer, List.mem_cons_self, hcompletes⟩, (h.broken hcompletes hstep).run hrest⟩

/-- **The list and the address space agree** after a sequence of connections exactly when every one
of them has completed. -/
theorem agrees_iff {segmentMaxSize : ℤ} {allocationStrategy : AllocationStrategy}
    {peers : List StickPeer} {r : Registry}
    (hrun : execute handshakeMemoryStick (initRegistry segmentMaxSize allocationStrategy) peers =
      some r) : Agrees r ↔ ∀ peer ∈ peers, Completes peer := by
  rcases sound_or_broken (sound_init segmentMaxSize allocationStrategy) hrun with
    ⟨hall, hsound⟩ | ⟨⟨peer, hpeer, hnot⟩, hbroken⟩
  · exact ⟨fun _ => hall, fun _ => hsound.agrees⟩
  · exact ⟨fun hagrees => absurd hagrees hbroken.not_agrees, fun hall => absurd (hall peer hpeer) hnot⟩

/-- A stick that sends its size and its port. -/
def wholePeer (size : String) : StickPeer :=
  ⟨true, some "127.0.0.1", [(OP_MEMORY_SIZE, some size), (OP_PORT, some "9091")]⟩

/-- A stick that closes the connection behind its size. -/
def silentPeer (size : String) : StickPeer :=
  ⟨true, some "127.0.0.1", [(OP_MEMORY_SIZE, some size)]⟩

/-- The list after a stick of eight bytes and one of four. -/
def registryOfTwo : Registry where
  mainMemory := ⟨12, 4, [], [⟨0, 12⟩], .best⟩
  connectedSticks := [⟨8, some "127.0.0.1", 9091⟩, ⟨4, some "127.0.0.1", 9091⟩]
  added := [⟨0, 0, 8⟩, ⟨1, 8, 4⟩]

/-- Two sticks that complete their handshake. -/
theorem agrees_iff_registryOfTwo :
    Agrees registryOfTwo ↔ ∀ peer ∈ [wholePeer "8", wholePeer "4"], Completes peer :=
  @agrees_iff 4 .best _ _ (by decide +kernel)

/-- The same, when the first one has not sent its port. -/
def registryWithSilent : Registry where
  mainMemory := ⟨4, 4, [], [⟨0, 4⟩], .best⟩
  connectedSticks := [⟨8, some "127.0.0.1", -1⟩, ⟨4, some "127.0.0.1", 9091⟩]
  added := [⟨1, 0, 4⟩]

/-- **The first address of the second stick** is looked up in the first one, whose memory was never
added. -/
theorem agreement_lost :
    execute handshakeMemoryStick (initRegistry 4 .best) [silentPeer "8", wholePeer "4"] =
        some registryWithSilent ∧
      ¬ Agrees registryWithSilent ∧
      findStickLoop 0 0 0 registryWithSilent.connectedSticks = some (0, 0) ∧
      registryWithSilent.added = [⟨1, 0, 4⟩] := by
  refine ⟨by decide +kernel, fun hagrees => ?_, by decide, rfl⟩
  exact absurd hagrees.total (by decide)

end OsSimulator.Memory
