import OsSimulator.Cpu.Connections
import OsSimulator.Memory.RoundTrip
import OsSimulator.Memory.Translation

set_option relaxedAutoImplicit false
set_option autoImplicit false

/-!
# The announcements of sticks

Kernel Memory's accept loop tells the CPUs about every stick, before it adds the stick's memory; the
segment tables come from other threads, over the same connections. A CPU reads what arrives in
order, so it knows the sticks that a table is about.

## Main definitions

* `CpuLink`, `System` — a connected CPU with what is on the way to it, and Kernel Memory.
* `step` — one action of a thread of Kernel Memory, or of a CPU that receives.
* `SameMemory` — every CPU hears of every stick in order, and finds the bytes of a segment where
  Kernel Memory does.

## Main results

* `sameMemory_of_run` — so it is in a run whose allocations shrink the hole they chose.
* `memory_differs` — a segment behind the end of the memory.
-/

namespace OsSimulator.Announcements

open Memory (KernelMemory Stick Segment Event MemoryInvariant EveryEdit MemoryOp kernelMemoryStep
  sendSegmentTable addTotalMemory bytesOf length_bytesOf initKernelMemoryData)
open Cpu (MemoryStickInfo connectMemoryStick memorySticksOf memorySticksOf_append placedStick)

/-- A message from Kernel Memory to a CPU. A stick is named by its position in the list, for its
address and port. -/
inductive CpuMessage
  | maxSegmentSize (size : ℤ)
  | stick (number : ℕ) (stick : Stick)
  | segmentTable (table : List Segment)
  | other
  deriving DecidableEq, Repr

/-- A connected CPU: what is on the way to it, the sticks it has connected to, the table it holds,
and whether its listener has started. -/
structure CpuLink where
  channel : List CpuMessage
  numbers : List ℕ
  memorySticks : List MemoryStickInfo
  segmentTable : Option (List Segment)
  listening : Bool
  deriving DecidableEq, Repr

/-- What the accept loop is doing: it waits; it tells the last CPU about the sticks, of which it has
told so many (`send_connected_sticks`); it tells the CPUs about a stick (`send_cpu_connection`); or
it adds the memory of the stick. -/
inductive AcceptPhase
  | idle
  | sendingSticks (sent : ℕ)
  | announcing (stick : Stick) (sent : ℕ)
  | adding (stick : Stick)
  deriving DecidableEq, Repr

/-- Kernel Memory and the CPUs. -/
structure System where
  kernelMemory : KernelMemory
  phase : AcceptPhase
  cpus : List CpuLink
  deriving DecidableEq, Repr

/-- An action: a request that Kernel Memory serves; a CPU or a stick that connects, or the accept
loop going on with the one that has; a listener that answers; or a CPU that receives. -/
inductive Action
  | request (event : Event)
  | acceptCpu
  | acceptStick (stick : Stick)
  | acceptStep
  | sendTable (cpu pid : ℕ)
  | sendOther (cpu : ℕ)
  | receive (cpu : ℕ)
  deriving DecidableEq, Repr

/-- A send to the CPU. -/
def CpuLink.send (message : CpuMessage) (link : CpuLink) : CpuLink :=
  { link with channel := link.channel ++ [message] }

/-- The CPU takes a message from its connection (`listen_kernel_memory`). -/
def CpuLink.receive (link : CpuLink) : Option CpuLink :=
  match link.channel with
  | [] => none
  | message :: rest =>
    let link := { link with channel := rest }
    match message with
    | .stick number stick => some { link with
        numbers := link.numbers ++ [number]
        memorySticks := connectMemoryStick link.memorySticks stick }
    | .segmentTable table => some { link with segmentTable := some table }
    | .maxSegmentSize _ | .other => some link

/-- What the accept loop does next with the CPU or the stick that has connected. -/
def acceptStep (s : System) : Option System :=
  match s.phase with
  | .idle => none
  | .sendingSticks sent =>
    match s.kernelMemory.connectedSticks[sent]? with
    | some stick => some { s with
        phase := .sendingSticks (sent + 1)
        cpus := s.cpus.modify (s.cpus.length - 1) (CpuLink.send (.stick sent stick)) }
    | none => some { s with
        phase := .idle
        cpus := s.cpus.modify (s.cpus.length - 1) fun link => { link with listening := true } }
  | .announcing stick sent =>
    if sent < s.cpus.length then some { s with
      phase := .announcing stick (sent + 1)
      cpus := s.cpus.modify sent
        (CpuLink.send (.stick (s.kernelMemory.connectedSticks.length - 1) stick)) }
    else some { s with phase := .adding stick }
  | .adding stick =>
    (addTotalMemory s.kernelMemory.mainMemory stick.stickSize).map fun mainMemory =>
      { s with phase := .idle, kernelMemory := { s.kernelMemory with mainMemory := mainMemory } }

/-- The state after an action. -/
def step (s : System) : Action → Option System
  | .request event =>
    match event with
    | .stickConnected _ => none
    | event => (kernelMemoryStep s.kernelMemory event).map fun k => { s with kernelMemory := k }
  | .acceptCpu =>
    match s.phase with
    | .idle => some { s with
        phase := .sendingSticks 0
        cpus := s.cpus ++
          [⟨[.maxSegmentSize s.kernelMemory.mainMemory.maxSegmentSize], [], [], none, false⟩] }
    | _ => none
  | .acceptStick stick =>
    match s.phase with
    | .idle => some { s with
        phase := .announcing stick 0
        kernelMemory := { s.kernelMemory with
          connectedSticks := s.kernelMemory.connectedSticks ++ [stick] } }
    | _ => none
  | .acceptStep => acceptStep s
  | .sendTable cpu pid =>
    match s.cpus[cpu]? with
    | none => none
    | some link =>
      if link.listening ∧ pid ∈ s.kernelMemory.processes then
        some { s with
          cpus := s.cpus.set cpu
            (link.send (.segmentTable (sendSegmentTable pid s.kernelMemory.mainMemory))) }
      else none
  | .sendOther cpu =>
    match s.cpus[cpu]? with
    | none => none
    | some link => if link.listening then some { s with cpus := s.cpus.set cpu (link.send .other) }
      else none
  | .receive cpu =>
    match s.cpus[cpu]? with
    | none => none
    | some link => link.receive.map fun link => { s with cpus := s.cpus.set cpu link }

/-- Kernel Memory without connections. -/
def init (segmentMaxSize : ℤ) (strategy : Memory.AllocationStrategy) : System :=
  ⟨initKernelMemoryData segmentMaxSize strategy, .idle, []⟩

/-- The sticks that a CPU is told about by the messages on the way to it. -/
def announcements (channel : List CpuMessage) : List (ℕ × Stick) :=
  channel.filterMap fun
    | .stick number stick => some (number, stick)
    | _ => none

/-- Every CPU hears of every stick once, in the order of the list, and finds every address of every
segment in its table in the same stick and at the same offset as Kernel Memory. -/
structure SameMemory (s : System) : Prop where
  inOrder : ∀ link ∈ s.cpus, ∃ n ≤ s.kernelMemory.connectedSticks.length,
    link.numbers ++ (announcements link.channel).map Prod.fst = List.range n ∧
      (s.phase = .idle → n = s.kernelMemory.connectedSticks.length)
  sameStick : ∀ link ∈ s.cpus, ∀ table ∈ link.segmentTable, ∀ segment ∈ table, ∀ a : ℕ,
    segment.base ≤ a → a < segment.base + segment.size →
      ∃ i off info, Memory.findStick a s.kernelMemory.connectedSticks = some (i, off) ∧
        Cpu.findStick (UInt32.ofNat a) 0 link.memorySticks = some (i, info) ∧
        link.numbers[i]? = some i ∧ (UInt32.ofNat a - info.offset).toNat = off

/-! ## The searches -/

/-- Kernel Memory's search finds the same among sticks of the same sizes with others behind them. -/
lemma findStickFrom_of_prefix {sticks more : List Stick} {base a : ℤ} {first : ℕ}
    {found : ℕ × ℕ} (hsizes : sticks.map Stick.stickSize <+: more.map Stick.stickSize)
    (hfound : Memory.findStickFrom base first a sticks = some found) :
    Memory.findStickFrom base first a more = some found := by
  induction sticks generalizing more base first with
  | nil => simp [Memory.findStickFrom] at hfound
  | cons s sticks ih =>
    cases more with
    | nil => simp at hsizes
    | cons t more =>
      obtain ⟨hsize, hrest⟩ := List.cons_prefix_cons.1 hsizes
      rw [Memory.findStickFrom] at hfound ⊢
      rw [← hsize]
      split at hfound
      · rename_i hin
        rw [if_pos hin]
        exact hfound
      · rename_i hout
        rw [if_neg hout]
        exact ih hrest hfound

/-- So does that of a CPU. -/
lemma findStick_append {address : UInt32} {sticks more : List MemoryStickInfo} {first : ℕ}
    {found : ℕ × MemoryStickInfo} (hfound : Cpu.findStick address first sticks = some found) :
    Cpu.findStick address first (sticks ++ more) = some found := by
  induction sticks generalizing first with
  | nil => simp [Cpu.findStick] at hfound
  | cons s sticks ih =>
    rw [Cpu.findStick] at hfound
    rw [List.cons_append, Cpu.findStick]
    split at hfound
    · rename_i hin
      rw [if_pos hin]
      exact hfound
    · rename_i hout
      rw [if_neg hout]
      exact ih hfound

/-- The sticks that a CPU has heard of stay in front. -/
lemma exists_memorySticksOf_append (sticks more : List Stick) :
    ∃ tail, memorySticksOf (sticks ++ more) = memorySticksOf sticks ++ tail := by
  induction more using List.reverseRecOn with
  | nil => exact ⟨[], by simp⟩
  | append_singleton more stick ih =>
    obtain ⟨tail, htail⟩ := ih
    rw [← List.append_assoc, memorySticksOf_append, connectMemoryStick, htail, List.append_assoc]
    exact ⟨_, rfl⟩

/-- Two lists of sticks whose first ones have the same sizes, as an address of these shows. -/
lemma sameStick_of_take {known all : List Stick} {m a : ℕ}
    (hsizes : known.map Stick.stickSize <+: all.map Stick.stickSize)
    (htotal : ((bytesOf (known.take m)).length : ℤ) ≤ INT_MAX)
    (ha : a < (bytesOf (known.take m)).length) :
    ∃ i off info, i < known.length ∧ Memory.findStick a all = some (i, off) ∧
      Cpu.findStick (UInt32.ofNat a) 0 (memorySticksOf known) = some (i, info) ∧
      (UInt32.ofNat a - info.offset).toNat = off := by
  obtain ⟨i, off, stick, hfind, hget, -, -, hcpu, hoff⟩ := Cpu.findStick_memorySticksOf htotal ha
  have hprefix : (known.take m).map Stick.stickSize <+: all.map Stick.stickSize :=
    ((List.take_prefix m known).map Stick.stickSize).trans hsizes
  obtain ⟨tail, htail⟩ := exists_memorySticksOf_append (known.take m) (known.drop m)
  rw [List.take_append_drop] at htail
  refine ⟨i, off, _, ?_, findStickFrom_of_prefix hprefix hfind, ?_, hoff⟩
  · have hlt := (List.getElem?_eq_some_iff.1 hget).1
    rw [List.length_take] at hlt
    omega
  · rw [htail]
    exact findStick_append hcpu

/-! ## One connection -/

/-- The sizes of the first sticks cover the segments of the table, and are an `int` together. -/
def Covered (sizes : List ℕ) (table : List Segment) : Prop :=
  ∃ m, ((sizes.take m).sum : ℤ) ≤ INT_MAX ∧
    ∀ segment ∈ table, segment.base + segment.size ≤ (sizes.take m).sum

/-- Every table on the way is covered by the sticks that are known when it arrives. -/
def TablesCovered : List ℕ → List CpuMessage → Prop
  | _, [] => True
  | sizes, .stick _ stick :: rest => TablesCovered (sizes ++ [stick.stickSize]) rest
  | sizes, .segmentTable table :: rest => Covered sizes table ∧ TablesCovered sizes rest
  | sizes, .maxSegmentSize _ :: rest | sizes, .other :: rest => TablesCovered sizes rest

/-- The CPU has been told about the first `announced` sticks, and the tables it gets are covered by
those it has heard of. -/
structure LinkSound (sizes : List ℕ) (announced : ℕ) (link : CpuLink) : Prop where
  within : announced ≤ sizes.length
  numbers : link.numbers ++ (announcements link.channel).map Prod.fst = List.range announced
  known : ∃ known : List Stick, link.memorySticks = memorySticksOf known ∧
    known.length = link.numbers.length ∧
    (known ++ (announcements link.channel).map Prod.snd).map Stick.stickSize =
      sizes.take announced ∧
    TablesCovered (known.map Stick.stickSize) link.channel ∧
    ∀ table ∈ link.segmentTable, Covered (known.map Stick.stickSize) table

/-- More sticks cover no less. -/
lemma Covered.append {sizes : List ℕ} {table : List Segment} (h : Covered sizes table)
    (more : List ℕ) : Covered (sizes ++ more) table := by
  obtain ⟨m, htotal, hcovers⟩ := h
  refine ⟨min m sizes.length, ?_⟩
  have htake : (sizes ++ more).take (min m sizes.length) = sizes.take m := by
    rw [List.take_append_of_le_length (min_le_right _ _), ← List.take_take, List.take_length]
  rw [htake]
  exact ⟨htotal, hcovers⟩

/-- The announcements in two stretches of a connection. -/
@[simp] lemma announcements_append (channel channel' : List CpuMessage) :
    announcements (channel ++ channel') = announcements channel ++ announcements channel' :=
  List.filterMap_append

/-- A message behind the others. -/
lemma tablesCovered_append {sizes : List ℕ} {channel : List CpuMessage} {message : CpuMessage}
    (h : TablesCovered sizes channel)
    (htable : ∀ table, message = .segmentTable table →
      Covered (sizes ++ (announcements channel).map fun told => told.2.stickSize) table) :
    TablesCovered sizes (channel ++ [message]) := by
  induction channel generalizing sizes with
  | nil =>
    cases message with
    | segmentTable table =>
      have hcovered := htable table rfl
      simp only [announcements, List.filterMap_nil, List.map_nil, List.append_nil] at hcovered
      exact ⟨hcovered, trivial⟩
    | maxSegmentSize size => trivial
    | stick number stick => trivial
    | other => trivial
  | cons first channel ih =>
    cases first with
    | stick number stick =>
      refine @ih (sizes ++ [stick.stickSize]) h fun table htable' => ?_
      simpa [announcements, List.append_assoc] using htable table htable'
    | segmentTable table => exact ⟨h.1, ih h.2 htable⟩
    | maxSegmentSize size => exact ih h htable
    | other => exact ih h htable

section Link

variable {sizes : List ℕ} {announced : ℕ} {link link' : CpuLink}

/-- More sticks behind those in the list. -/
lemma LinkSound.extend (h : LinkSound sizes announced link) (more : List ℕ) :
    LinkSound (sizes ++ more) announced link := by
  refine ⟨?_, h.numbers, ?_⟩
  · rw [List.length_append]
    exact h.within.trans (Nat.le_add_right _ _)
  · rw [List.take_append_of_le_length h.within]
    exact h.known

/-- The CPU is told about the next stick. -/
lemma LinkSound.sendStick (h : LinkSound sizes announced link) {stick : Stick}
    (hstick : sizes[announced]? = some stick.stickSize) :
    LinkSound sizes (announced + 1) (link.send (.stick announced stick)) := by
  obtain ⟨hlt, hsize⟩ := List.getElem?_eq_some_iff.1 hstick
  obtain ⟨known, hknown, hlength, hsizes, hcovered, htable⟩ := h.known
  have htold : announcements [.stick announced stick] = [(announced, stick)] := rfl
  refine ⟨hlt, ?_, known, hknown, hlength, ?_, tablesCovered_append hcovered (by simp), htable⟩
  · simp only [CpuLink.send, announcements_append, htold, List.map_append, List.map_cons,
      List.map_nil, ← List.append_assoc, h.numbers, List.range_succ]
  · simp only [CpuLink.send, announcements_append, htold, List.map_append, List.map_cons,
      List.map_nil, ← List.append_assoc] at hsizes ⊢
    rw [hsizes, List.take_add_one, hstick, Option.toList_some]

/-- The CPU is sent a table that the sticks it has been told about cover. -/
lemma LinkSound.sendTable (h : LinkSound sizes announced link) {table : List Segment}
    (hcovered : Covered (sizes.take announced) table) :
    LinkSound sizes announced (link.send (.segmentTable table)) := by
  obtain ⟨known, hknown, hlength, hsizes, htables, htable⟩ := h.known
  have htold : announcements [.segmentTable table] = [] := rfl
  refine ⟨h.within, ?_, known, hknown, hlength, ?_, ?_, htable⟩
  · simpa only [CpuLink.send, announcements_append, htold, List.append_nil] using h.numbers
  · simpa only [CpuLink.send, announcements_append, htold, List.append_nil] using hsizes
  · refine tablesCovered_append htables fun table' htable' => ?_
    obtain rfl := CpuMessage.segmentTable.inj htable'
    rw [← hsizes, List.map_append, List.map_map] at hcovered
    exact hcovered

/-- A message about something else keeps the link sound. -/
lemma LinkSound.sendOther (h : LinkSound sizes announced link) :
    LinkSound sizes announced (link.send .other) := by
  obtain ⟨known, hknown, hlength, hsizes, htables, htable⟩ := h.known
  have htold : announcements [.other] = [] := rfl
  refine ⟨h.within, ?_, known, hknown, hlength, ?_, tablesCovered_append htables (by simp), htable⟩
  · simpa only [CpuLink.send, announcements_append, htold, List.append_nil] using h.numbers
  · simpa only [CpuLink.send, announcements_append, htold, List.append_nil] using hsizes

/-- The CPU reads what is first on its connection: a stick is the next one of the list, and a table
is about the sticks it has heard of. -/
lemma LinkSound.receive (h : LinkSound sizes announced link) (hreceive : link.receive = some link') :
    LinkSound sizes announced link' ∧ link'.listening = link.listening := by
  obtain ⟨channel, numbers, memorySticks, segmentTable, listening⟩ := link
  obtain ⟨known, hknown, hlength, hsizes, htables, htable⟩ := h.known
  have hnumbers := h.numbers
  unfold CpuLink.receive at hreceive
  cases channel with
  | nil => simp at hreceive
  | cons message rest =>
    cases message with
    | stick number stick =>
      obtain rfl := Option.some.inj hreceive
      have htold : announcements (.stick number stick :: rest) =
          (number, stick) :: announcements rest := rfl
      simp only [htold, List.map_cons] at hnumbers hsizes
      refine ⟨⟨h.within, ?_, known ++ [stick], ?_, ?_, ?_, ?_, ?_⟩, rfl⟩
      · rw [← hnumbers]
        simp
      · rw [memorySticksOf_append, ← hknown]
      · simpa using hlength
      · rw [← hsizes]
        simp
      · rw [List.map_append]
        exact htables
      · intro table hmem
        rw [List.map_append]
        exact (htable table hmem).append _
    | segmentTable table =>
      obtain rfl := Option.some.inj hreceive
      exact ⟨⟨h.within, hnumbers, known, hknown, hlength, hsizes, htables.2, fun table' hmem => by
        obtain rfl := Option.some.inj hmem
        exact htables.1⟩, rfl⟩
    | maxSegmentSize size =>
      obtain rfl := Option.some.inj hreceive
      exact ⟨⟨h.within, hnumbers, known, hknown, hlength, hsizes, htables, htable⟩, rfl⟩
    | other =>
      obtain rfl := Option.some.inj hreceive
      exact ⟨⟨h.within, hnumbers, known, hknown, hlength, hsizes, htables, htable⟩, rfl⟩

end Link

/-! ## The system -/

/-- The sizes of the sticks in the list. -/
def System.sizes (s : System) : List ℕ := s.kernelMemory.connectedSticks.map Stick.stickSize

/-- How many sticks the CPU at an index has been told about. -/
def System.announced (s : System) (cpu : ℕ) : ℕ :=
  match s.phase with
  | .idle | .adding _ => s.sizes.length
  | .sendingSticks sent => if cpu + 1 = s.cpus.length then sent else s.sizes.length
  | .announcing _ sent => if cpu < sent then s.sizes.length else s.sizes.length - 1

/-- How many sticks the memory is made of. -/
def System.added (s : System) : ℕ :=
  match s.phase with
  | .idle | .sendingSticks _ => s.sizes.length
  | .announcing _ _ | .adding _ => s.sizes.length - 1

/-- What the accept loop works on: the sticks in the list, or the last one of them. -/
def PhaseSound (s : System) : Prop :=
  match s.phase with
  | .idle => True
  | .sendingSticks sent => sent ≤ s.sizes.length
  | .announcing stick _ | .adding stick => s.sizes.getLast? = some stick.stickSize

/-- The memory is that of the sticks that have been added, and a CPU with a listener has been told
about all of them. -/
structure Sound (s : System) : Prop where
  memory : MemoryInvariant s.kernelMemory
  total : s.kernelMemory.mainMemory.totalSize = ((s.sizes.take s.added).sum : ℕ)
  phase : PhaseSound s
  links : ∀ i link, s.cpus[i]? = some link → LinkSound s.sizes (s.announced i) link ∧
    (link.listening = true → s.added ≤ s.announced i)

/-- The allocations of a request shrink the hole they choose. -/
def ShrinksChosen (s : System) : Action → Prop
  | .request event => EveryEdit (fun m op => op.ShrinksChosen m) s.kernelMemory event
  | _ => True

variable {s s' : System}

/-- The tables that Kernel Memory sends are covered by the sticks that have been added. -/
lemma Sound.covered (h : Sound s) {announced : ℕ} (hadded : s.added ≤ announced) (pid : ℕ) :
    Covered (s.sizes.take announced) (sendSegmentTable pid s.kernelMemory.mainMemory) := by
  have htake : (s.sizes.take announced).take s.added = s.sizes.take s.added := by
    rw [List.take_take, min_eq_left hadded]
  refine ⟨s.added, ?_, fun segment hsegment => ?_⟩
  · rw [htake, ← h.total]
    exact h.memory.layout.total_range.2
  · rw [htake, ← h.total]
    exact (h.memory.layout.segment (List.mem_filter.1 hsegment).1).2.2

/-- One CPU changes, as long as its listener does not start. -/
lemma Sound.setLink (h : Sound s) {cpu : ℕ} {link link' : CpuLink} (hget : s.cpus[cpu]? = some link)
    (hlink : LinkSound s.sizes (s.announced cpu) link')
    (hlistening : link'.listening = link.listening) :
    Sound { s with cpus := s.cpus.set cpu link' } := by
  obtain ⟨hlt, -⟩ := List.getElem?_eq_some_iff.1 hget
  have hannounced : ∀ i, System.announced { s with cpus := s.cpus.set cpu link' } i =
      s.announced i := by
    intro i
    unfold System.announced
    simp only [List.length_set]
    rfl
  refine ⟨h.memory, h.total, h.phase, fun i l hl => ?_⟩
  rw [hannounced]
  rw [List.getElem?_set] at hl
  split at hl
  · rename_i heq
    subst heq
    obtain rfl := Option.some.inj hl
    exact ⟨hlink, fun hlistens => (h.links cpu link hget).2 (hlistening ▸ hlistens)⟩
  · exact h.links i l hl

/-- A request changes neither the sticks nor what the memory is made of. -/
lemma Sound.request (h : Sound s) {event : Event} {k : KernelMemory}
    (hnot : ∀ stick, event ≠ .stickConnected stick)
    (hok : EveryEdit (fun m op => op.ShrinksChosen m) s.kernelMemory event)
    (hstep : kernelMemoryStep s.kernelMemory event = some k) :
    Sound { s with kernelMemory := k } := by
  have hswap : ∀ swapData ∈ s.kernelMemory.swapData, swapData.WellFormed :=
    fun swapData hs => (h.memory.swap swapData hs).toWellFormed
  have hsizes : System.sizes { s with kernelMemory := k } = s.sizes :=
    Memory.map_stickSize_of_not_connected hnot hstep hswap
  have htotal : k.mainMemory.totalSize = s.kernelMemory.mainMemory.totalSize := by
    have hadded : event.bytesAdded = 0 := by
      cases event with
      | stickConnected stick => exact absurd rfl (hnot stick)
      | newProcess | createSegment | deleteSegment | suspendProcess | resumeProcess | endProcess
        | swapConnected | memoryWritten => rfl
    rw [Memory.totalSize_execute (Memory.execute_memoryOps hstep hswap), Memory.sum_added_memoryOps,
      hadded]
    simp
  have hannounced : ∀ i, System.announced { s with kernelMemory := k } i = s.announced i := by
    intro i
    unfold System.announced
    rw [hsizes]
  have hadded : System.added { s with kernelMemory := k } = s.added := by
    unfold System.added
    rw [hsizes]
  refine ⟨Memory.memoryInvariant_step h.memory hok hstep, ?_, ?_, fun i link hlink => ?_⟩
  · rw [hsizes, hadded, ← h.total]
    exact htotal
  · have hphase := h.phase
    unfold PhaseSound at hphase ⊢
    rw [hsizes]
    exact hphase
  · rw [hsizes, hannounced, hadded]
    exact h.links i link hlink

/-- What holds of the elements of a list, of which one is modified. -/
lemma forall_modify {α : Type} {l : List α} {f : α → α} {j : ℕ} {P Q : ℕ → α → Prop}
    (h : ∀ i a, l[i]? = some a → P i a) (hother : ∀ i a, i ≠ j → P i a → Q i a)
    (hself : ∀ a, j < l.length → P j a → Q j (f a)) (i : ℕ) (a : α)
    (ha : (l.modify j f)[i]? = some a) : Q i a := by
  rw [List.getElem?_modify] at ha
  obtain ⟨b, hb, hab⟩ := Option.map_eq_some_iff.1 ha
  split at hab
  · rename_i heq
    subst heq hab
    exact hself b (List.getElem?_eq_some_iff.1 hb).1 (h j b hb)
  · rename_i hne
    subst hab
    exact hother i b (Ne.symm hne) (h i b hb)

/-- The accept loop goes on: it tells a CPU about a stick that is the next one for it, or it is done
with the CPU or the stick. -/
lemma Sound.acceptStep (h : Sound s) (hstep : acceptStep s = some s') : Sound s' := by
  have hphase := h.phase
  have htotal := h.total
  have hlinks := h.links
  obtain ⟨k, phase, cpus⟩ := s
  have hsizes : ∀ phase cpus, System.sizes ⟨k, phase, cpus⟩ =
      k.connectedSticks.map Stick.stickSize := fun _ _ => rfl
  unfold Announcements.acceptStep at hstep
  unfold PhaseSound at hphase
  simp only [System.added, System.announced, hsizes] at hphase htotal hlinks
  set sizes := k.connectedSticks.map Stick.stickSize with hsizesEq
  cases phase with
  | idle => simp at hstep
  | sendingSticks sent =>
    dsimp only at hstep hphase htotal hlinks
    split at hstep
    · rename_i stick hstick
      obtain rfl := Option.some.inj hstep
      have hsize : sizes[sent]? = some stick.stickSize := by
        rw [hsizesEq, List.getElem?_map, hstick]
        rfl
      refine ⟨h.memory, htotal, (List.getElem?_eq_some_iff.1 hsize).1, ?_⟩
      refine forall_modify hlinks (fun i link hne hlink => ?_) fun link hlt hlink => ?_
      · simp only [System.announced, System.added, List.length_modify, hsizes]
        rw [if_neg (by omega)] at hlink ⊢
        exact hlink
      · simp only [System.announced, System.added, List.length_modify, hsizes]
        rw [if_pos (by omega)] at hlink ⊢
        exact ⟨hlink.1.sendStick hsize, fun hlistens => (hlink.2 hlistens).trans (Nat.le_succ sent)⟩
    · rename_i hnone
      obtain rfl := Option.some.inj hstep
      have hall : sent = sizes.length := by
        have hge := List.getElem?_eq_none_iff.1 hnone
        rw [hsizesEq, List.length_map] at hphase ⊢
        exact le_antisymm hphase hge
      refine ⟨h.memory, htotal, trivial, ?_⟩
      refine forall_modify hlinks (fun i link hne hlink => ?_) fun link hlt hlink => ?_
      · rw [hall, ite_self] at hlink
        exact hlink
      · rw [hall, ite_self] at hlink
        exact ⟨⟨hlink.1.within, hlink.1.numbers, hlink.1.known⟩, fun _ => le_rfl⟩
  | announcing stick sent =>
    dsimp only at hstep hphase htotal hlinks
    split at hstep
    · rename_i hsent
      obtain rfl := Option.some.inj hstep
      have hsize : sizes[sizes.length - 1]? = some stick.stickSize := by
        rw [← List.getLast?_eq_getElem?, hphase]
      have hnonempty := (List.getElem?_eq_some_iff.1 hsize).1
      refine ⟨h.memory, htotal, hphase, ?_⟩
      refine forall_modify hlinks (fun i link hne hlink => ?_) fun link hlt hlink => ?_
      · simp only [System.announced, System.added, hsizes]
        have hsame : (if i < sent + 1 then sizes.length else sizes.length - 1) =
            if i < sent then sizes.length else sizes.length - 1 := by
          split <;> split <;> omega
        rw [hsame]
        exact hlink
      · simp only [System.announced, System.added, hsizes]
        rw [if_neg (lt_irrefl sent)] at hlink
        rw [if_pos (Nat.lt_succ_self sent)]
        have htold := hlink.1.sendStick hsize
        rw [Nat.sub_add_cancel (by omega)] at htold
        have hnumber : k.connectedSticks.length = sizes.length := by
          rw [hsizesEq, List.length_map]
        rw [hnumber]
        exact ⟨htold, fun _ => Nat.sub_le _ _⟩
    · rename_i hsent
      obtain rfl := Option.some.inj hstep
      refine ⟨h.memory, htotal, hphase, fun i link hlink => ?_⟩
      obtain ⟨hlt, -⟩ := List.getElem?_eq_some_iff.1 (show cpus[i]? = some link from hlink)
      have hlink' := hlinks i link hlink
      rw [if_pos (by omega)] at hlink'
      exact hlink'
  | adding stick =>
    dsimp only at hstep hphase htotal hlinks
    obtain ⟨memory, hadd, rfl⟩ := Option.map_eq_some_iff.1 hstep
    have hedit : Memory.memoryStep k.mainMemory (.addTotalMemory stick.stickSize) = some memory :=
      hadd
    have hsum : memory.totalSize = k.mainMemory.totalSize + stick.stickSize :=
      (Memory.sameSizes_memoryStep hedit).totalSize
    have hrange : MemoryOp.InRange (.addTotalMemory stick.stickSize) := Int.natCast_nonneg _
    have hlayout := Memory.layout_step h.memory.layout hrange trivial hedit
    have hsplit : sizes.take (sizes.length - 1) ++ [stick.stickSize] = sizes := by
      rw [← List.dropLast_eq_take]
      exact List.dropLast_append_getLast? _ hphase
    refine ⟨⟨hlayout, h.memory.swap⟩, ?_, trivial, ?_⟩
    · show memory.totalSize = ((sizes.take sizes.length).sum : ℕ)
      rw [List.take_length, hsum, htotal]
      conv_rhs => rw [← hsplit, List.sum_append, List.sum_singleton, Nat.cast_add]
    · intro i link hlink
      exact ⟨(hlinks i link hlink).1, fun _ => le_rfl⟩

/-- An action keeps the system sound. -/
lemma sound_step {action : Action} (h : Sound s) (hok : ShrinksChosen s action)
    (hstep : step s action = some s') : Sound s' := by
  cases action with
  | request event =>
    cases event with
    | stickConnected stick => simp [step] at hstep
    | newProcess | createSegment | deleteSegment | suspendProcess | resumeProcess | endProcess
      | swapConnected | memoryWritten =>
      simp only [step] at hstep
      obtain ⟨k, hk, rfl⟩ := Option.map_eq_some_iff.1 hstep
      exact h.request (by simp) hok hk
  | acceptCpu =>
    have hlinks := h.links
    have htotal := h.total
    unfold System.announced System.added at hlinks
    unfold System.added at htotal
    simp only [step] at hstep
    cases hphase : s.phase with
    | idle =>
      simp only [hphase] at hstep hlinks htotal
      obtain rfl := Option.some.inj hstep
      refine ⟨h.memory, htotal, Nat.zero_le _, fun i link hlink => ?_⟩
      by_cases hold : i < s.cpus.length
      · rw [List.getElem?_append_left hold] at hlink
        simp only [System.announced, System.added, List.length_append, List.length_singleton]
        rw [if_neg (by omega)]
        exact hlinks i link hlink
      · obtain rfl : i = s.cpus.length := by
          have hlt := (List.getElem?_eq_some_iff.1 hlink).1
          rw [List.length_append, List.length_singleton] at hlt
          omega
        rw [List.getElem?_concat_length] at hlink
        obtain rfl := Option.some.inj hlink
        simp only [System.announced, System.added, List.length_append, List.length_singleton,
          if_true]
        exact ⟨⟨Nat.zero_le _, rfl, [], rfl, rfl, rfl, trivial, by simp⟩, by simp⟩
    | sendingSticks | announcing | adding => simp [hphase] at hstep
  | acceptStick stick =>
    have hlinks := h.links
    have htotal := h.total
    unfold System.announced System.added at hlinks
    unfold System.added at htotal
    simp only [step] at hstep
    cases hphase : s.phase with
    | idle =>
      simp only [hphase] at hstep hlinks htotal
      obtain rfl := Option.some.inj hstep
      have hsizes : System.sizes { s with
          phase := .announcing stick 0
          kernelMemory := { s.kernelMemory with
            connectedSticks := s.kernelMemory.connectedSticks ++ [stick] } } =
          s.sizes ++ [stick.stickSize] := by
        simp [System.sizes]
      refine ⟨⟨h.memory.layout, h.memory.swap⟩, ?_, ?_, fun i link hlink => ?_⟩
      · simp only [System.added, hsizes, List.length_append, List.length_singleton,
          Nat.add_sub_cancel, List.take_left]
        rw [List.take_length] at htotal
        exact htotal
      · simp only [PhaseSound, hsizes, List.getLast?_concat]
      · simp only [System.announced, System.added, hsizes, List.length_append,
          List.length_singleton, Nat.add_sub_cancel, Nat.not_lt_zero, if_false]
        exact ⟨(hlinks i link hlink).1.extend _, fun _ => le_rfl⟩
    | sendingSticks | announcing | adding => simp [hphase] at hstep
  | acceptStep => exact h.acceptStep hstep
  | sendTable cpu pid =>
    simp only [step] at hstep
    split at hstep
    · simp at hstep
    · rename_i link hget
      split at hstep
      · rename_i hlistening
        obtain rfl := Option.some.inj hstep
        obtain ⟨hlink, hadded⟩ := h.links cpu link hget
        exact h.setLink hget (hlink.sendTable (h.covered (hadded hlistening.1) pid)) rfl
      · simp at hstep
  | sendOther cpu =>
    simp only [step] at hstep
    split at hstep
    · simp at hstep
    · rename_i link hget
      split at hstep
      · obtain rfl := Option.some.inj hstep
        exact h.setLink hget (h.links cpu link hget).1.sendOther rfl
      · simp at hstep
  | receive cpu =>
    simp only [step] at hstep
    split at hstep
    · simp at hstep
    · rename_i link hget
      obtain ⟨link', hreceive, rfl⟩ := Option.map_eq_some_iff.1 hstep
      obtain ⟨hlink, hlistening⟩ := (h.links cpu link hget).1.receive hreceive
      exact h.setLink hget hlink hlistening

/-! ## Every run -/

/-- The invariant holds at the start. -/
lemma sound_init {segmentMaxSize : ℤ} {strategy : Memory.AllocationStrategy}
    (hmax : 0 ≤ segmentMaxSize ∧ segmentMaxSize ≤ INT_MAX)
    (hstrategy : strategy = .best ∨ strategy = .worst) : Sound (init segmentMaxSize strategy) :=
  ⟨Memory.memoryInvariant_init hmax hstrategy, rfl, trivial, by simp [init]⟩

/-- In a sound system every CPU has the memory of Kernel Memory. -/
lemma Sound.sameMemory (h : Sound s) : SameMemory s := by
  refine ⟨fun link hlink => ?_, fun link hlink table htable segment hsegment a hlow hhigh => ?_⟩
  · obtain ⟨i, hi⟩ := List.mem_iff_getElem?.1 hlink
    have hsound := (h.links i link hi).1
    have hlength : s.sizes.length = s.kernelMemory.connectedSticks.length := List.length_map _
    refine ⟨s.announced i, hlength ▸ hsound.within, hsound.numbers, fun hidle => ?_⟩
    unfold System.announced
    rw [hidle]
    exact hlength
  · obtain ⟨i, hi⟩ := List.mem_iff_getElem?.1 hlink
    have hsound := (h.links i link hi).1
    obtain ⟨known, hknown, hlength, hsizes, -, htables⟩ := hsound.known
    obtain ⟨m, htotal, hcovers⟩ := htables table htable
    have hbytes : (bytesOf (known.take m)).length = ((known.map Stick.stickSize).take m).sum := by
      rw [length_bytesOf, List.map_take]
    have hprefix : known.map Stick.stickSize <+:
        s.kernelMemory.connectedSticks.map Stick.stickSize := by
      rw [List.map_append] at hsizes
      exact (List.prefix_append _ _).trans (hsizes ▸ List.take_prefix _ _)
    obtain ⟨j, off, info, hj, hfind, hcpu, hoff⟩ := sameStick_of_take hprefix
      (show ((bytesOf (known.take m)).length : ℤ) ≤ INT_MAX by rw [hbytes]; exact htotal)
      (show a < (bytesOf (known.take m)).length by
        have := hcovers segment hsegment
        omega)
    refine ⟨j, off, info, hfind, hknown ▸ hcpu, ?_, hoff⟩
    -- the sticks it has connected to are the first ones of the list
    have hnumbers := hsound.numbers
    have hlt : j < link.numbers.length := hlength ▸ hj
    have hget : (List.range (s.announced i))[j]? = link.numbers[j]? := by
      rw [← hnumbers, List.getElem?_append_left hlt]
    rw [← hget]
    have hwithin : j < s.announced i := by
      have hlen := congrArg List.length hnumbers
      rw [List.length_append, List.length_range] at hlen
      omega
    rw [List.getElem?_range hwithin]

/-- **The CPUs and Kernel Memory see the same memory** in every run in which each allocation shrinks
a hole that has the bytes: every CPU hears of every stick once and in order, and the address of a
byte of a segment in its table names the same byte of the same stick for both.

**Proof sketch.** A stick is announced to every CPU before its memory is added, and a segment lies
in memory that has been added when its table is sent; both travel over one connection, so the CPU
knows the sticks when it gets the table (`sound_step`). The sticks behind them change neither
search. -/
theorem sameMemory_of_run {segmentMaxSize : ℤ} {strategy : Memory.AllocationStrategy}
    (hmax : 0 ≤ segmentMaxSize ∧ segmentMaxSize ≤ INT_MAX)
    (hstrategy : strategy = .best ∨ strategy = .worst)
    (hrun : Run step ShrinksChosen (init segmentMaxSize strategy) s) : SameMemory s := by
  have hsound : Sound s := hrun.invariant (sound_init hmax hstrategy)
    fun _ _ _ hs hok hst => sound_step hs hok hst
  exact hsound.sameMemory

instance (s : System) : ∀ action, Decidable (ShrinksChosen s action)
  | .request event =>
    inferInstanceAs (Decidable (EveryEdit (fun m op => op.ShrinksChosen m) s.kernelMemory event))
  | .acceptCpu | .acceptStick _ | .acceptStep | .sendTable _ _ | .sendOther _ | .receive _ =>
    .isTrue trivial

/-- A stick of ten bytes and a CPU have connected, and a process has started. -/
def connected : List Action :=
  [.acceptStick ⟨List.replicate 10 0⟩, .acceptStep, .acceptStep, .acceptCpu, .acceptStep,
    .acceptStep, .request (.newProcess 1 true)]

/-- The CPU gets the table of the process, and another stick connects. -/
def tableSent : List Action :=
  [.sendTable 0 1, .receive 0, .receive 0, .receive 0, .acceptStick ⟨[0, 0, 0, 0]⟩]

/-- The system after one allocation. -/
def systemWithTable : System where
  kernelMemory := ⟨⟨10, 10, [⟨0, 1, 0, 3⟩], [⟨3, 7⟩], .best⟩,
    [⟨List.replicate 10 0⟩, ⟨[0, 0, 0, 0]⟩], none, [1]⟩
  phase := .announcing ⟨[0, 0, 0, 0]⟩ 0
  cpus := [⟨[], [0], [⟨10, 0, List.replicate 10 0, true⟩], some [⟨0, 1, 0, 3⟩], true⟩]

/-- The two agree although the second stick is still to be announced. -/
theorem sameMemory_of_run_table : SameMemory systemWithTable := by
  have hrun : executeOk step ShrinksChosen (init 10 .best)
      (connected ++ [.request (.createSegment 0 1 3)] ++ tableSent) = some systemWithTable := by
    decide +kernel
  exact sameMemory_of_run ⟨by decide, by decide⟩ (.inl rfl) (Run.of_executeOk hrun)

/-- Requests of process 1 that leave a hole of a negative size behind the end of the memory, from
which the last one takes four bytes. -/
def requestsBehindEnd : List Action :=
  [.request (.createSegment 0 1 3), .request (.createSegment 1 1 0), .request (.deleteSegment 0 1),
    .request (.deleteSegment 1 1), .request (.createSegment 2 1 10), .request (.deleteSegment 2 1),
    .request (.createSegment 3 1 3), .request (.createSegment 4 1 4),
    .request (.createSegment 5 1 3), .request (.deleteSegment 4 1),
    .request (.createSegment 6 1 4)]

/-- The system after them. -/
def systemBehindEnd : System where
  kernelMemory := ⟨⟨10, 10, [⟨3, 1, 0, 3⟩, ⟨5, 1, 7, 3⟩, ⟨6, 1, 10, 4⟩], [⟨3, 7⟩, ⟨14, -7⟩], .best⟩,
    [⟨List.replicate 10 0⟩, ⟨[0, 0, 0, 0]⟩], none, [1]⟩
  phase := .announcing ⟨[0, 0, 0, 0]⟩ 0
  cpus := [⟨[], [0], [⟨10, 0, List.replicate 10 0, true⟩],
    some [⟨3, 1, 0, 3⟩, ⟨5, 1, 7, 3⟩, ⟨6, 1, 10, 4⟩], true⟩]

/-- **The last segment lies behind the end of the memory**, where Kernel Memory finds the stick that
has just connected and the CPU finds none. -/
theorem memory_differs :
    Reachable step (init 10 .best) systemBehindEnd ∧ ¬ SameMemory systemBehindEnd ∧
      Memory.findStick 10 systemBehindEnd.kernelMemory.connectedSticks = some (1, 0) ∧
      systemBehindEnd.cpus.map (fun link => Cpu.findStick 10 0 link.memorySticks) = [none] := by
  have hrun : execute step (init 10 .best) (connected ++ requestsBehindEnd ++ tableSent) =
      some systemBehindEnd := by decide +kernel
  refine ⟨Run.of_execute hrun, fun h => ?_, by decide, by decide⟩
  obtain ⟨i, off, info, -, hcpu, -⟩ := h.sameStick _ List.mem_cons_self _ rfl ⟨6, 1, 10, 4⟩
    (by decide) 10 (by decide) (by decide)
  exact absurd hcpu (by simp [Cpu.findStick])

end OsSimulator.Announcements
