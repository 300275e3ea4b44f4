import OsSimulator.Library.Runs
import OsSimulator.Scheduler.KernelMemoryLink

set_option relaxedAutoImplicit false
set_option autoImplicit false

/-!
# Requests and replies are not crossed

The threads of the scheduler send one request at a time, because they have the mutex of `km_socket`
until they have taken its reply, and Kernel Memory answers in order. So the two ends of the
connection are always equally far in one request, whatever other threads of Kernel Memory put
between the replies.

## Main definitions

* `Link.Inv` — the invariant of the connection.

## Main results

* `Link.uncrossed_of_run` — nothing is crossed in a run whose requests meet the condition.
* `Link.crossed_of_exceeded` — an allocation that is answered twice.
-/

namespace OsSimulator.Scheduler

open Memory (RequestKind Request parseRequest serve stringFrame textBytes)

variable {ι : Type}

namespace Link

/-! ## The invariant -/

/-- Where the thread with the mutex is. -/
def phase (s : Link ι) : HolderPhase := (s.holder.map Prod.snd).getD .locked

/-- The operation codes of messages. -/
def frameCodes (messages : List (Frame × Ticket ι)) : List ℤ :=
  messages.map fun message => message.1.opCode

/-- The messages of the listener among those to the scheduler. -/
def fromListener (messages : List (Frame × Ticket ι)) : List (Frame × Ticket ι) :=
  messages.filter fun message => message.2.isSome

/-- The operation code that the listener has read alone. -/
def openedRequest : ListenerPhase → Option ℤ
  | .reading kind => some kind.opCode
  | .drainingCan _ => some OP_CAN_COMPACT
  | _ => none

/-- The operation code that the thread with the mutex has read alone. -/
def openedReply : HolderPhase → Option ℤ
  | .noticed _ => some OP_NEW_MEMORY_STICK
  | .draining _ opCode => some opCode
  | _ => none

/-- The thread has set `compaction_active`. -/
def compacts : HolderPhase → Bool
  | .compacting | .awaiting .compactionDone | .noticed .compactionDone
  | .draining .compactionDone _ => true
  | _ => false

/-- **The invariant**: the readers stand where they should; the unread messages to the scheduler are
notices of other threads or belong to the request of the thread with the mutex; and the two ends are
equally far. -/
structure Inv (s : Link ι) : Prop where
  requestsWhole : s.toKernelMemory.Whole (openedRequest s.listener)
  repliesWhole : s.toScheduler.Whole (openedReply s.phase)
  foreign : ∀ message ∈ s.toScheduler.unread, message.2 = none →
    message.1.opCode = OP_NEW_MEMORY_STICK ∨ message.1.opCode = OP_MEMORY_CORRUPTED
  tickets : ∀ message ∈ s.toScheduler.unread, message.2 = none ∨ message.2 = s.asked
  last : ∀ message ∈ s.toKernelMemory.unread.getLast?, message.2 = s.asked
  served : (∀ opCode ∈ frameCodes s.toKernelMemory.unread, opCode = OP_CAN_COMPACT) →
    s.serving = s.asked
  asker : ∀ i phase, s.holder = some (i, phase) → phase ≠ .locked →
    s.asked = some (i, s.requests)
  active : s.compactionActive = compacts s.phase
  taken : ∀ taking ∈ s.taken, taking.2 = some taking.1
  expected : s.crossed = false
  talk : Talk s.phase (frameCodes s.toKernelMemory.unread)
    (frameCodes (fromListener s.toScheduler.unread)) s.listener

/-- What is left of the invariant when the connection is not used any more. -/
structure Sound (s : Link ι) : Prop where
  requestsWhole : s.toKernelMemory.InStep
  repliesWhole : s.toScheduler.InStep
  own : ∀ taking ∈ s.taken, taking.2 = some taking.1
  expected : s.crossed = false

/-- The invariant of a link makes it sound. -/
lemma Inv.sound {s : Link ι} (h : s.Inv) : s.Sound :=
  ⟨h.requestsWhole.inStep, h.repliesWhole.inStep, h.taken, h.expected⟩

/-- It holds at the start. -/
lemma inv_start (tables : Memory.Listener) : (start tables : Link ι).Inv where
  requestsWhole := Channel.whole_empty
  repliesWhole := Channel.whole_empty
  foreign := by simp [start]
  tickets := by simp [start]
  last := by simp [start]
  served := fun _ => rfl
  asker := by simp [start]
  active := rfl
  taken := by simp [start]
  expected := rfl
  talk := .quiet (by simp [start, frameCodes]) (.inl ⟨true, rfl⟩)

/-- No messages have no codes. -/
@[simp] lemma frameCodes_nil : frameCodes ([] : List (Frame × Ticket ι)) = [] := rfl

/-- The codes of two lists. -/
@[simp] lemma frameCodes_append (messages messages' : List (Frame × Ticket ι)) :
    frameCodes (messages ++ messages') = frameCodes messages ++ frameCodes messages' :=
  List.map_append

/-- The code of the first message and those of the rest. -/
@[simp] lemma frameCodes_cons (message : Frame × Ticket ι) (messages : List (Frame × Ticket ι)) :
    frameCodes (message :: messages) = message.1.opCode :: frameCodes messages := rfl

/-- What the listener sent, in two lists. -/
@[simp] lemma fromListener_append (messages messages' : List (Frame × Ticket ι)) :
    fromListener (messages ++ messages') = fromListener messages ++ fromListener messages' :=
  List.filter_append ..

/-- A message of somebody else is left out. -/
lemma fromListener_cons_none {message : Frame × Ticket ι} (h : message.2 = none)
    (messages : List (Frame × Ticket ι)) :
    fromListener (message :: messages) = fromListener messages :=
  List.filter_cons_of_neg (by simp [h])

/-- A message of the listener is kept. -/
lemma fromListener_cons_some {message : Frame × Ticket ι} (h : message.2.isSome)
    (messages : List (Frame × Ticket ι)) :
    fromListener (message :: messages) = message :: fromListener messages :=
  List.filter_cons_of_pos h

namespace Inv

variable {s t : Link ι}

/-- There is no message of the listener when none is left unread. -/
lemma eq_none_of_fromListener (hown : frameCodes (fromListener s.toScheduler.unread) = []) :
    ∀ message ∈ s.toScheduler.unread, message.2 = none := by
  intro message hmessage
  by_contra hsome
  have hmem : message ∈ fromListener s.toScheduler.unread :=
    List.mem_filter.2 ⟨hmessage, Option.isSome_iff_ne_none.2 hsome⟩
  rw [List.map_eq_nil_iff.1 hown] at hmem
  simp at hmem

/-- A request is sent. -/
lemma sendRequest {kind : RequestKind} {payload : List UInt8} (h : s.Inv)
    (hst : s.sendRequest kind payload = some t) : t.Inv := by
  unfold Link.sendRequest at hst
  split at hst
  · rename_i i hholder
    dsimp only at hst
    split at hst
    · rename_i hsendable
      obtain rfl := Option.some.inj hst
      have hunread := h.requestsWhole.inStep.unread_send ⟨kind.opCode, payload⟩
        (some (i, s.requests + 1))
      have hphase : s.phase = .locked := by simp [phase, hholder]
      have htalk := h.talk
      rw [hphase] at htalk
      have hforeign := eq_none_of_fromListener htalk.of_locked.2.1
      have hcodes : frameCodes (s.toKernelMemory.unread ++
          [(⟨kind.opCode, payload⟩, some (i, s.requests + 1))]) =
            frameCodes s.toKernelMemory.unread ++ [kind.opCode] := by simp
      refine { h with
        requestsWhole := h.requestsWhole.send hsendable _
        repliesWhole := ?_
        tickets := fun message hmessage => .inl (hforeign message hmessage)
        last := ?_
        served := ?_
        asker := ?_
        active := ?_
        talk := ?_ }
      · have hreplies := h.repliesWhole
        rw [hphase] at hreplies
        simp only [phase, Option.map_some, Option.getD_some]
        split <;> exact hreplies
      · simp only [hunread]
        simp
      · intro hcan
        simp only [hunread, hcodes] at hcan
        exact absurd (hcan kind.opCode (by simp)) kind.opCode_ne_canCompact
      · rintro j phase hj -
        obtain ⟨rfl, -⟩ := Prod.mk.inj (Option.some.inj hj)
        rfl
      · rw [show (_ : Link ι).compactionActive = s.compactionActive from rfl, h.active, hphase]
        simp only [phase, Option.map_some, Option.getD_some]
        split <;> rfl
      · simp only [hunread, hcodes]
        simp only [phase, Option.map_some, Option.getD_some]
        exact htalk.sendRequest kind
    · simp at hst
  · simp at hst

/-- The thread with the mutex has read an operation code. -/
lemma opened {i : ι} {phase phase' : HolderPhase} {channel : Channel (Ticket ι)} (h : s.Inv)
    (hholder : s.holder = some (i, phase)) (hphase : phase ≠ .locked)
    (hunread : channel.unread = s.toScheduler.unread) (hwhole : channel.Whole (openedReply phase'))
    (hactive : compacts phase' = compacts phase)
    (htalk : Talk phase' (frameCodes s.toKernelMemory.unread)
      (frameCodes (fromListener s.toScheduler.unread)) s.listener) :
    ({ s with toScheduler := channel, holder := some (i, phase') } : Link ι).Inv := by
  have hactive' := h.active
  rw [Link.phase, hholder] at hactive'
  exact { h with
    repliesWhole := hwhole
    foreign := by simpa only [hunread] using h.foreign
    tickets := by simpa only [hunread] using h.tickets
    asker := fun j _ hj _ => by
      obtain ⟨rfl, -⟩ := Prod.mk.inj (Option.some.inj hj)
      exact h.asker i phase hholder hphase
    active := hactive'.trans hactive.symm
    talk := by
      show Talk phase' _ (frameCodes (fromListener channel.unread)) _
      rw [hunread]
      exact htalk }

/-- **An operation code is read** that is expected, or of a notice, or the last one. -/
lemma receiveOpCode (h : s.Inv) (hst : s.receiveOpCode = some t) :
    t.Sound ∧ (t.closed = false → t.Inv) := by
  unfold Link.receiveOpCode at hst
  split at hst
  · rename_i i stage hholder
    have hphase : s.phase = .awaiting stage := by simp [phase, hholder]
    have hwhole := h.repliesWhole
    rw [hphase] at hwhole
    obtain ⟨⟨opCode, channel⟩, hreceive, heq⟩ := Option.map_eq_some_iff.1 hst
    obtain ⟨hsent, hreceived⟩ := Channel.sent_receiveOpCode hreceive
    have hunread := Channel.unread_receiveOpCode hreceive
    cases hmessages : s.toScheduler.unread with
    | nil =>
      have hnone := Channel.Whole.receiveOpCode_eq_none hwhole hmessages
      rw [hnone] at hreceive
      simp at hreceive
    | cons message rest =>
      obtain ⟨channel', hreceive', hwhole'⟩ := Channel.Whole.receiveOpCode hwhole hmessages
      obtain ⟨rfl, rfl⟩ := Prod.mk.inj (Option.some.inj (hreceive.symm.trans hreceive'))
      have htalk := h.talk
      rw [hphase] at htalk
      -- a message of the listener is expected or reports corruption, and any other is a notice
      have hcases : (message.1.opCode ∈ stage.expected ∧
          Talk (.draining stage message.1.opCode) (frameCodes s.toKernelMemory.unread)
            (frameCodes (fromListener s.toScheduler.unread)) s.listener) ∨
          (message.1.opCode ∉ stage.expected ∧ (message.1.opCode = OP_NEW_MEMORY_STICK ∨
            message.1.opCode = OP_MEMORY_CORRUPTED)) := by
        cases hticket : message.2 with
        | none =>
          have hcode := h.foreign message (by rw [hmessages]; exact List.mem_cons_self) hticket
          refine .inr ⟨?_, hcode⟩
          rcases hcode with hcode | hcode
          · rw [hcode]
            exact notice_not_mem_expected stage
          · rw [hcode]
            exact corrupted_not_mem_expected stage
        | some ticket =>
          rw [hmessages, fromListener_cons_some (by rw [hticket]; rfl), frameCodes_cons] at htalk ⊢
          rcases htalk.front rfl with ⟨hmem, -, hdraining⟩ | hcode
          · exact .inl ⟨hmem, hdraining⟩
          · refine .inr ⟨?_, .inr hcode⟩
            rw [hcode]
            exact corrupted_not_mem_expected stage
      rcases hcases with ⟨hmem, hdraining⟩ | ⟨hmem, hcode | hcode⟩
      · rw [if_pos hmem] at heq
        subst heq
        have hinv := @opened _ _ _ _ (.draining stage message.1.opCode) _ h hholder (by simp)
          hunread hwhole' (by cases stage <;> rfl) hdraining
        exact ⟨hinv.sound, fun _ => hinv⟩
      · rw [if_neg hmem, if_pos hcode] at heq
        subst heq
        rw [hcode] at hwhole'
        have hinv := @opened _ _ _ _ (.noticed stage) _ h hholder (by simp) hunread hwhole'
          (by cases stage <;> rfl) (htalk.congr_waitsFor rfl rfl)
        exact ⟨hinv.sound, fun _ => hinv⟩
      · rw [if_neg hmem, if_neg (by simp only [hcode]; decide)] at heq
        subst heq
        refine ⟨⟨h.requestsWhole.inStep, hwhole'.inStep, h.taken, ?_⟩,
          fun hopen => by simp at hopen⟩
        simp [hcode]
  · simp at hst

/-- **A payload is read.** Behind a notice the thread waits as before, and what it takes for a reply
belongs to its own request. -/
lemma receivePayload (h : s.Inv) (hst : s.receivePayload = some t) : t.Inv := by
  unfold Link.receivePayload at hst
  split at hst
  · rename_i i stage hholder
    have hphase : s.phase = .noticed stage := by simp [phase, hholder]
    have hwhole := h.repliesWhole
    rw [hphase] at hwhole
    obtain ⟨message, rest, channel, hmessages, hcode, hreceive, hwhole', hrest⟩ :=
      Channel.Whole.receivePayload hwhole
    have hticket : message.2 = none := by
      by_contra hsome
      have htalk := h.talk
      rw [hphase, hmessages, fromListener_cons_some (Option.isSome_iff_ne_none.2 hsome),
        frameCodes_cons] at htalk
      rcases htalk.front rfl with ⟨-, hne, -⟩ | hcorrupted
      · exact hne hcode
      · rw [hcode] at hcorrupted
        exact absurd hcorrupted (by decide)
    have htalk := h.talk
    rw [hphase, hmessages, fromListener_cons_none hticket] at htalk
    have hactive := h.active
    rw [hphase] at hactive
    rw [hreceive, Option.map_some, Option.some.injEq] at hst
    subst hst
    exact { h with
      repliesWhole := hwhole'
      foreign := fun m hm => h.foreign m (by
        rw [hmessages]
        exact List.mem_cons_of_mem _ (hrest ▸ hm))
      tickets := fun m hm => h.tickets m (by
        rw [hmessages]
        exact List.mem_cons_of_mem _ (hrest ▸ hm))
      asker := fun j _ hj _ => by
        obtain ⟨rfl, -⟩ := Prod.mk.inj (Option.some.inj hj)
        exact h.asker i _ hholder (by simp)
      active := by
        rw [hactive]
        cases stage <;> rfl
      talk := by
        show Talk (.awaiting stage) _ (frameCodes (fromListener channel.unread)) _
        rw [hrest]
        exact htalk.congr_waitsFor rfl rfl }
  · rename_i i stage opCode hholder
    have hphase : s.phase = .draining stage opCode := by simp [phase, hholder]
    have hwhole := h.repliesWhole
    rw [hphase] at hwhole
    obtain ⟨message, rest, channel, hmessages, hcode, hreceive, hwhole', hrest⟩ :=
      Channel.Whole.receivePayload hwhole
    have htalk := h.talk
    rw [hphase] at htalk
    obtain ⟨-, hnotice, hcorrupted⟩ := htalk.of_draining
    have hsome : message.2.isSome := by
      by_contra hnone
      have hnone' : message.2 = none := by simpa using hnone
      rcases h.foreign message (by rw [hmessages]; exact List.mem_cons_self) hnone' with h' | h'
      · exact hnotice (hcode.symm.trans h')
      · exact hcorrupted (hcode.symm.trans h')
    rw [hmessages, fromListener_cons_some hsome, frameCodes_cons, hcode] at htalk
    have hactive : s.compactionActive = decide (stage = .compactionDone) := by
      rw [h.active, hphase]
      cases stage <;> rfl
    have hasker : s.asked = some (i, s.requests) := h.asker i _ hholder (by simp)
    have hticket : message.2 = some (i, s.requests) := by
      rw [← hasker]
      refine (h.tickets message (by rw [hmessages]; exact List.mem_cons_self)).resolve_left ?_
      exact Option.isSome_iff_ne_none.1 hsome
    have hnote : s.toScheduler.nextNote.join = some (i, s.requests) := by
      rw [Channel.nextNote, hmessages, ← hticket]
      rfl
    rw [hreceive, Option.map_some, Option.some.injEq] at hst
    subst hst
    exact { h with
      repliesWhole := by
        have hopened : openedReply (goOn stage opCode s.compactionActive).1 = none := by
          unfold goOn
          split
          · rfl
          · split_ifs <;> rfl
        show channel.Whole (openedReply (goOn stage opCode s.compactionActive).1)
        rw [hopened]
        exact hwhole'
      foreign := fun m hm => h.foreign m (by
        rw [hmessages]
        exact List.mem_cons_of_mem _ (hrest ▸ hm))
      tickets := fun m hm => h.tickets m (by
        rw [hmessages]
        exact List.mem_cons_of_mem _ (hrest ▸ hm))
      asker := fun j _ hj _ => by
        obtain ⟨rfl, -⟩ := Prod.mk.inj (Option.some.inj hj)
        exact hasker
      active := by
        show (goOn stage opCode s.compactionActive).2 =
          compacts (goOn stage opCode s.compactionActive).1
        rw [hactive]
        cases stage with
        | compactionDone => rfl
        | reply kind =>
          unfold goOn
          split_ifs <;> simp_all [compacts]
      taken := fun taking htaking => by
        rcases List.mem_append.1 htaking with hold | hnew
        · exact h.taken taking hold
        · obtain rfl := List.mem_singleton.1 hnew
          exact hnote
      talk := by
        show Talk (goOn stage opCode s.compactionActive).1 _
          (frameCodes (fromListener channel.unread)) _
        rw [hrest, hactive]
        exact htalk.taken }
  · simp at hst

/-- **A compaction is allowed.** -/
lemma sendCanCompact (h : s.Inv) (hst : s.sendCanCompact = some t) : t.Inv := by
  unfold Link.sendCanCompact at hst
  split at hst
  · rename_i i hholder
    obtain rfl := Option.some.inj hst
    have hphase : s.phase = .compacting := by simp [phase, hholder]
    have hreplies := h.repliesWhole
    have htalk := h.talk
    have hactive := h.active
    rw [hphase] at hreplies htalk hactive
    have hunread := h.requestsWhole.inStep.unread_send canCompactFrame s.asked
    obtain ⟨hnil, hallowed⟩ := htalk.sendCanCompact
    exact { h with
      requestsWhole := h.requestsWhole.send (by decide) _
      repliesWhole := hreplies
      last := by
        simp only [hunread]
        simp
      served := fun _ => h.served (by simp [hnil])
      asker := fun j _ hj _ => by
        obtain ⟨rfl, -⟩ := Prod.mk.inj (Option.some.inj hj)
        exact h.asker i _ hholder (by simp)
      active := hactive
      talk := by
        simp only [hunread, frameCodes_append]
        exact hallowed }
  · simp at hst

/-- The listener has read an operation code. -/
lemma openedByListener {listener : ListenerPhase} {channel : Channel (Ticket ι)} (h : s.Inv)
    (hunread : channel.unread = s.toKernelMemory.unread)
    (hwhole : channel.Whole (openedRequest listener))
    (htalk : Talk s.phase (frameCodes s.toKernelMemory.unread)
      (frameCodes (fromListener s.toScheduler.unread)) listener) :
    ({ s with toKernelMemory := channel, listener := listener } : Link ι).Inv :=
  { h with
    requestsWhole := hwhole
    last := by simpa only [hunread] using h.last
    served := by simpa only [hunread] using h.served
    talk := by
      show Talk s.phase (frameCodes channel.unread) _ _
      rw [hunread]
      exact htalk }

/-- **The listener reads the operation code of a request.** -/
lemma listenerReceive (h : s.Inv) (hst : s.listenerReceive = some t) : t.Inv := by
  unfold Link.listenerReceive at hst
  split at hst
  · rename_i hlistener
    have hwhole := h.requestsWhole
    have htalk := h.talk
    rw [hlistener] at hwhole htalk
    obtain ⟨⟨opCode, channel⟩, hreceive, heq⟩ := Option.map_eq_some_iff.1 hst
    have hunread := Channel.unread_receiveOpCode hreceive
    cases hmessages : s.toKernelMemory.unread with
    | nil =>
      rw [Channel.Whole.receiveOpCode_eq_none hwhole hmessages] at hreceive
      simp at hreceive
    | cons message rest =>
      obtain ⟨channel', hreceive', hwhole'⟩ := Channel.Whole.receiveOpCode hwhole hmessages
      obtain ⟨rfl, rfl⟩ := Prod.mk.inj (Option.some.inj (hreceive.symm.trans hreceive'))
      have htalk' := htalk
      rw [hmessages, frameCodes_cons] at htalk'
      obtain ⟨kind, hkind, hreading⟩ := htalk'.listenerReceive
      have hcode : kind.opCode = message.1.opCode := by
        have hfound := List.find?_some hkind
        simpa using hfound
      simp only [hkind] at heq
      subst heq
      apply h.openedByListener hunread
      · rw [openedRequest, hcode]
        exact hwhole'
      · rw [hmessages, frameCodes_cons]
        exact hreading
  · simp at hst

/-- The last unread request is the last one, also when another one has been read. -/
lemma last_tail {message : Frame × Ticket ι} {rest : List (Frame × Ticket ι)} (h : s.Inv)
    (hmessages : s.toKernelMemory.unread = message :: rest) :
    ∀ m ∈ rest.getLast?, m.2 = s.asked := by
  intro m hm
  apply h.last
  rw [hmessages, List.getLast?_cons, hm]
  rfl

/-- **The payload of a request is read**, and its answer may be sent. -/
lemma requestRead {kind : RequestKind} {channel : Channel (Ticket ι)}
    {payload : Option (List UInt8)} {rest : List Frame} {alive : Bool} {tables : Memory.Listener}
    (h : s.Inv) (hlistener : s.listener = .reading kind)
    (hreceive : s.toKernelMemory.receivePayload kind.opCode = some (payload, channel))
    (hanswers : Memory.Answers kind (rest.map Frame.opCode) alive) :
    ({ s with
      toKernelMemory := channel
      serving := s.toKernelMemory.nextNote.join
      listener := .sending rest alive
      tables := tables } : Link ι).Inv := by
  have hwhole := h.requestsWhole
  have htalk := h.talk
  rw [hlistener] at hwhole htalk
  obtain ⟨message, behind, channel', hmessages, hcode, hreceive', hwhole', hbehind⟩ :=
    Channel.Whole.receivePayload hwhole
  obtain ⟨-, rfl⟩ := Prod.mk.inj (Option.some.inj (hreceive.symm.trans hreceive'))
  rw [hmessages, frameCodes_cons, hcode] at htalk
  have hnote : s.toKernelMemory.nextNote.join = message.2 := by
    rw [Channel.nextNote, hmessages]
    rfl
  exact { h with
    requestsWhole := hwhole'
    last := by
      show ∀ m ∈ channel.unread.getLast?, m.2 = s.asked
      rw [hbehind]
      exact h.last_tail hmessages
    served := fun hcan => by
      have hnil : behind = [] := by
        apply List.eq_nil_iff_forall_not_mem.2
        intro m hm
        have hmem : m.1.opCode ∈ frameCodes behind := List.mem_map_of_mem hm
        apply htalk.of_reading m.1.opCode (List.mem_cons_of_mem _ hmem)
        apply hcan
        rw [hbehind]
        exact hmem
      show s.toKernelMemory.nextNote.join = s.asked
      rw [hnote]
      apply h.last
      rw [hmessages, hnil]
      rfl
    talk := by
      show Talk s.phase (frameCodes channel.unread) _ _
      rw [hbehind]
      exact htalk.listenerServe hanswers }

/-- **A request is served.** -/
lemma listenerServe {scriptOpens : Bool} {leftovers : List UInt8} (h : s.Inv)
    (horderly : s.Orderly (.listenerServe scriptOpens leftovers))
    (hst : s.listenerServe scriptOpens leftovers = some t) :
    t.Sound ∧ (t.closed = false → t.Inv) := by
  unfold Link.listenerServe at hst
  split at hst
  · rename_i kind hlistener
    obtain ⟨⟨payload, channel⟩, hreceive, heq⟩ := Option.map_eq_some_iff.1 hst
    dsimp only at heq
    split at heq
    · rename_i served hserved
      obtain ⟨request, hparse, hserve⟩ := Option.bind_eq_some_iff.1 hserved
      have hnext : request ∈ s.nextRequest scriptOpens leftovers := by
        simp only [nextRequest, hlistener, hreceive]
        exact hparse
      have hanswers := Memory.answers_of_serve hserve (horderly request hnext)
      rw [Memory.kind_of_parseRequest hparse] at hanswers
      subst heq
      have hinv := @requestRead _ s _ _ _ (served.replies.map Memory.Reply.frame) _ served.listener
        h hlistener hreceive (by rw [List.map_map]; exact hanswers)
      exact ⟨hinv.sound, fun _ => hinv⟩
    · subst heq
      have hwhole := h.requestsWhole
      rw [hlistener] at hwhole
      obtain ⟨_, _, channel', -, -, hreceive', hwhole', -⟩ := Channel.Whole.receivePayload hwhole
      obtain ⟨-, rfl⟩ := Prod.mk.inj (Option.some.inj (hreceive.symm.trans hreceive'))
      refine ⟨⟨hwhole'.inStep, h.repliesWhole.inStep, h.taken, h.expected⟩, fun hopen => ?_⟩
      simp at hopen
  · simp at hst

/-- A handler finds a stick gone. -/
lemma listenerStickGone {rest : List Frame} {alive : Bool} (h : s.Inv)
    (hst : s.listenerStickGone rest alive = some t) : t.Inv := by
  unfold Link.listenerStickGone at hst
  split at hst
  · rename_i kind hlistener
    split at hst
    · rename_i hkind
      obtain ⟨⟨payload, channel⟩, hreceive, rfl⟩ := Option.map_eq_some_iff.1 hst
      have hawaits : kind.awaitsReply = true := by
        revert hkind
        cases kind <;> decide
      exact @requestRead _ s _ _ _ (corruptedFrame :: rest) _ s.tables h hlistener hreceive
        (.corrupted hawaits)
    · simp at hst
  · simp at hst

/-- **A message of an answer is sent** for the request of the thread with the mutex. -/
lemma listenerSend (h : s.Inv) (hst : s.listenerSend = some t) :
    t.Sound ∧ (t.closed = false → t.Inv) := by
  unfold Link.listenerSend at hst
  split at hst
  · rename_i f rest alive hlistener
    split at hst
    · rename_i hsendable
      obtain rfl := Option.some.inj hst
      have htalk := h.talk
      have hwhole := h.requestsWhole
      rw [hlistener] at htalk hwhole
      obtain ⟨hlocked, hnil, htalk'⟩ := htalk.listenerSend
      obtain ⟨i, hholder⟩ : ∃ i, s.holder = some (i, s.phase) := by
        cases hholder : s.holder with
        | none =>
          rw [phase, hholder] at hlocked
          exact absurd rfl hlocked
        | some holder => exact ⟨holder.1, by simp [phase, hholder]⟩
      have hserving : s.serving = some (i, s.requests) :=
        (h.served (by simp [hnil])).trans (h.asker i _ hholder hlocked)
      have hunread := h.repliesWhole.inStep.unread_send f s.serving
      have hinv : ({ s with
          toScheduler := s.toScheduler.send f s.serving
          listener := if f.opCode = OP_COMPACTION_NEEDED then .awaitingCan rest
            else .sending rest alive } : Link ι).Inv := { h with
        requestsWhole := by
          show s.toKernelMemory.Whole (openedRequest (if f.opCode = OP_COMPACTION_NEEDED then _
            else _))
          split <;> exact hwhole
        repliesWhole := h.repliesWhole.send hsendable _
        foreign := fun m hm hnone => by
          rw [hunread] at hm
          rcases List.mem_append.1 hm with hold | hnew
          · exact h.foreign m hold hnone
          · obtain rfl := List.mem_singleton.1 hnew
            simp [hserving] at hnone
        tickets := fun m hm => by
          rw [hunread] at hm
          rcases List.mem_append.1 hm with hold | hnew
          · exact h.tickets m hold
          · obtain rfl := List.mem_singleton.1 hnew
            exact .inr (h.served (by simp [hnil]))
        talk := by
          show Talk s.phase _ (frameCodes (fromListener (s.toScheduler.send f s.serving).unread)) _
          rw [hunread, fromListener_append, fromListener_cons_some (by rw [hserving]; rfl),
            frameCodes_append]
          exact htalk' }
      exact ⟨hinv.sound, fun _ => hinv⟩
    · obtain rfl := Option.some.inj hst
      exact ⟨⟨h.requestsWhole.inStep, h.repliesWhole.inStep, h.taken, h.expected⟩,
        fun hopen => by simp at hopen⟩
  · simp at hst

/-- The listener reads `OP_CAN_COMPACT`. -/
lemma receiveCan (h : s.Inv) (hst : s.receiveCan = some t) : t.Inv := by
  unfold Link.receiveCan at hst
  split at hst
  · rename_i rest hlistener
    have hwhole := h.requestsWhole
    have htalk := h.talk
    rw [hlistener] at hwhole htalk
    obtain ⟨⟨opCode, channel⟩, hreceive, heq⟩ := Option.map_eq_some_iff.1 hst
    have hunread := Channel.unread_receiveOpCode hreceive
    cases hmessages : s.toKernelMemory.unread with
    | nil =>
      rw [Channel.Whole.receiveOpCode_eq_none hwhole hmessages] at hreceive
      simp at hreceive
    | cons message behind =>
      obtain ⟨channel', hreceive', hwhole'⟩ := Channel.Whole.receiveOpCode hwhole hmessages
      obtain ⟨rfl, rfl⟩ := Prod.mk.inj (Option.some.inj (hreceive.symm.trans hreceive'))
      have htalk' := htalk
      rw [hmessages, frameCodes_cons] at htalk'
      obtain ⟨hcan, hdraining⟩ := htalk'.receiveCan
      rw [if_pos hcan] at heq
      subst heq
      apply h.openedByListener hunread
      · rw [openedRequest, ← hcan]
        exact hwhole'
      · rw [hmessages, frameCodes_cons]
        exact hdraining
  · simp at hst

/-- The listener goes on with the compaction. -/
lemma drainCan (h : s.Inv) (hst : s.drainCan = some t) : t.Inv := by
  unfold Link.drainCan at hst
  split at hst
  · rename_i rest hlistener
    have hwhole := h.requestsWhole
    have htalk := h.talk
    rw [hlistener] at hwhole htalk
    obtain ⟨message, behind, channel, hmessages, hcode, hreceive, hwhole', hbehind⟩ :=
      Channel.Whole.receivePayload hwhole
    rw [hmessages, frameCodes_cons] at htalk
    obtain ⟨hnil, hcompacted⟩ := htalk.drainCan
    rw [hreceive, Option.map_some, Option.some.injEq] at hst
    subst hst
    exact { h with
      requestsWhole := hwhole'
      last := by
        show ∀ m ∈ channel.unread.getLast?, m.2 = s.asked
        rw [hbehind]
        exact h.last_tail hmessages
      served := fun _ => h.served (by
        rw [hmessages, frameCodes_cons, hnil, hcode]
        simp)
      talk := by
        show Talk s.phase (frameCodes channel.unread) _ _
        rw [hbehind]
        exact hcompacted }
  · simp at hst

/-- **A message of another thread** of Kernel Memory is put between the others. -/
lemma sendForeign {f : Frame} {listener : ListenerPhase} (h : s.Inv) (hf : f.Sendable)
    (hcode : f.opCode = OP_NEW_MEMORY_STICK ∨ f.opCode = OP_MEMORY_CORRUPTED)
    (hopened : openedRequest listener = openedRequest s.listener)
    (htalk : Talk s.phase (frameCodes s.toKernelMemory.unread)
      (frameCodes (fromListener s.toScheduler.unread)) listener) :
    ({ s with toScheduler := s.toScheduler.send f none, listener := listener } : Link ι).Inv := by
  have hunread := h.repliesWhole.inStep.unread_send f none
  exact { h with
    requestsWhole := by
      show s.toKernelMemory.Whole (openedRequest listener)
      rw [hopened]
      exact h.requestsWhole
    repliesWhole := h.repliesWhole.send hf _
    foreign := fun m hm hnone => by
      rw [hunread] at hm
      rcases List.mem_append.1 hm with hold | hnew
      · exact h.foreign m hold hnone
      · obtain rfl := List.mem_singleton.1 hnew
        exact hcode
    tickets := fun m hm => by
      rw [hunread] at hm
      rcases List.mem_append.1 hm with hold | hnew
      · exact h.tickets m hold
      · obtain rfl := List.mem_singleton.1 hnew
        exact .inl rfl
    talk := by
      show Talk s.phase _ (frameCodes (fromListener (s.toScheduler.send f none).unread)) _
      rw [hunread, fromListener_append, fromListener_cons_none rfl]
      simpa [fromListener] using htalk }

end Inv

/-! ## Runs -/

section Runs

variable [DecidableEq ι]

/-- **Every orderly step keeps the invariant** as long as the connection is used. -/
lemma Inv.step {s t : Link ι} {action : Action ι} (h : s.Inv) (horderly : s.Orderly action)
    (hst : s.step action = some t) : t.Sound ∧ (t.closed = false → t.Inv) := by
  suffices hsuffices : t.Inv ∨ t.Sound ∧ (t.closed = false → t.Inv) from
    hsuffices.elim (fun hinv => ⟨hinv.sound, fun _ => hinv⟩) id
  unfold Link.step at hst
  split at hst
  · simp at hst
  · cases action with
    | lock i =>
      dsimp only at hst
      split at hst
      · rename_i hholder
        obtain rfl := Option.some.inj hst
        have hphase : s.phase = .locked := by simp [phase, hholder]
        have hreplies := h.repliesWhole
        have htalk := h.talk
        have hactive := h.active
        rw [hphase] at hreplies htalk hactive
        exact .inl { h with
          repliesWhole := hreplies
          asker := fun j phase hj hlocked => by
            obtain ⟨-, rfl⟩ := Prod.mk.inj (Option.some.inj hj)
            exact absurd rfl hlocked
          active := hactive
          talk := htalk }
      · simp at hst
    | unlock i =>
      dsimp only at hst
      split at hst
      · rename_i hholder
        obtain rfl := Option.some.inj hst
        have hphase : s.phase = .locked := by simp [phase, hholder]
        have hreplies := h.repliesWhole
        have htalk := h.talk
        have hactive := h.active
        rw [hphase] at hreplies htalk hactive
        exact .inl { h with
          repliesWhole := hreplies
          asker := by simp
          active := hactive
          talk := htalk }
      · simp at hst
    | sendRequest kind payload => exact .inl (h.sendRequest hst)
    | receiveOpCode => exact .inr (h.receiveOpCode hst)
    | receivePayload => exact .inl (h.receivePayload hst)
    | sendCanCompact => exact .inl (h.sendCanCompact hst)
    | listenerReceive => exact .inl (h.listenerReceive hst)
    | listenerServe scriptOpens leftovers => exact .inr (h.listenerServe horderly hst)
    | listenerStickGone rest alive => exact .inl (h.listenerStickGone hst)
    | listenerSend => exact .inr (h.listenerSend hst)
    | receiveCan => exact .inl (h.receiveCan hst)
    | drainCan => exact .inl (h.drainCan hst)
    | listenerEnd =>
      dsimp only [Link.listenerEnd] at hst
      split at hst
      · rename_i hlistener
        obtain rfl := Option.some.inj hst
        have htalk := h.talk
        rw [hlistener] at htalk
        exact .inl (h.sendForeign (by decide) (.inr rfl) (by rw [hlistener]; rfl)
          htalk.listenerEnd)
      · simp at hst
    | notice =>
      obtain rfl := Option.some.inj hst
      exact .inl (h.sendForeign (by decide) (.inl rfl) rfl h.talk)
    | corrupted =>
      obtain rfl := Option.some.inj hst
      exact .inl (h.sendForeign (by decide) (.inr rfl) rfl h.talk)
    | connect event =>
      have hconnect (hst : (Memory.kernelMemoryStep s.tables.kernelMemory event).map (fun k =>
          { s with tables := s.tables.withMemory k }) = some t) : t.Inv := by
        obtain ⟨k, -, rfl⟩ := Option.map_eq_some_iff.1 hst
        exact { h with }
      cases event with
      | stickConnected | swapConnected | memoryWritten => exact .inl (hconnect hst)
      | _ => simp [Link.connect] at hst

/-- The listener has something to do when the thread with the mutex waits in front of an empty
connection. -/
lemma Inv.listenerMoves {s : Link ι} {stage : Stage} (h : s.Inv) (hopen : s.closed = false)
    (hending : ¬ s.Ending)
    (htalk : Talk (.awaiting stage) (frameCodes s.toKernelMemory.unread) [] s.listener) :
    ∃ action, Action.exchanges action = true ∧ (s.step action).isSome := by
  have hwhole := h.requestsWhole
  have hsend {rest : List Frame} {alive : Bool} (hlistener : s.listener = .sending rest alive)
      (hrest : rest ≠ []) : (s.step .listenerSend).isSome := by
    obtain ⟨f, rest', rfl⟩ := List.exists_cons_of_ne_nil hrest
    simp only [Link.step, hopen, Bool.false_eq_true, if_false, Link.listenerSend, hlistener]
    split <;> rfl
  have hanswering (hl : s.listener.Answering) (hcodes : s.listener.codes ≠ []) :
      (s.step .listenerSend).isSome := by
    rcases hl with ⟨rest, alive, hlistener⟩ | hlistener
    · rw [hlistener] at hcodes
      exact hsend hlistener fun hnil => hcodes (by rw [hnil]; rfl)
    · rw [hlistener] at hcodes
      exact absurd rfl hcodes
  generalize hrequests : frameCodes s.toKernelMemory.unread = requests at htalk
  generalize hown : ([] : List ℤ) = own at htalk
  generalize hlistener : s.listener = listener at htalk
  have hunread (hne : requests ≠ []) : ∃ message rest,
      s.toKernelMemory.unread = message :: rest := by
    apply List.exists_cons_of_ne_nil
    intro hnil
    rw [hnil] at hrequests
    exact hne hrequests.symm
  cases htalk with
  | pending hw ha hs hi =>
    obtain ⟨message, rest, hmessages⟩ := hunread (by simp)
    rcases hi with ⟨alive, rfl⟩ | ⟨kind, rfl⟩ | rfl
    · cases alive with
      | false => exact absurd (.inr (.inr (.inl ⟨_, hlistener⟩))) hending
      | true =>
        rw [hlistener] at hwhole
        obtain ⟨channel, hreceive, -⟩ := Channel.Whole.receiveOpCode hwhole hmessages
        exact ⟨.listenerReceive, rfl, by
          simp [Link.step, hopen, Link.listenerReceive, hlistener, hreceive]⟩
    · rw [hlistener] at hwhole
      obtain ⟨_, _, channel, -, -, hreceive, -⟩ := Channel.Whole.receivePayload hwhole
      exact ⟨.listenerServe true [], rfl, by
        simp [Link.step, hopen, Link.listenerServe, hlistener, hreceive]⟩
    · exact absurd (.inr (.inl hlistener)) hending
  | answered hw ho hl hc =>
    subst hown
    refine ⟨.listenerSend, rfl, hanswering (hlistener ▸ hl) fun hnil => ?_⟩
    rw [← hlistener, hnil] at hc
    simp at hc
  | needed hw ho hr =>
    refine ⟨.listenerSend, rfl, hsend hlistener fun hnil => ?_⟩
    rw [hnil] at hr
    simp at hr
  | asking => simp at hown
  | allowed hw ho hr hl =>
    obtain ⟨message, rest, hmessages⟩ := hunread (by simp)
    rcases hl with rfl | rfl
    · rw [hlistener] at hwhole
      obtain ⟨channel, hreceive, -⟩ := Channel.Whole.receiveOpCode hwhole hmessages
      exact ⟨.receiveCan, rfl, by simp [Link.step, hopen, Link.receiveCan, hlistener, hreceive]⟩
    · rw [hlistener] at hwhole
      obtain ⟨_, _, channel, -, -, hreceive, -⟩ := Channel.Whole.receivePayload hwhole
      exact ⟨.drainCan, rfl, by simp [Link.step, hopen, Link.drainCan, hlistener, hreceive]⟩
  | compacted hw ho hr =>
    subst hown
    refine ⟨.listenerSend, rfl, hsend hlistener fun hnil => ?_⟩
    rw [hnil] at hr
    simp at hr
  | corrupted hw hl hc =>
    subst hown
    refine ⟨.listenerSend, rfl, hanswering (hlistener ▸ hl.resolve_right (by simp)) fun hnil => ?_⟩
    rw [← hlistener, hnil] at hc
    simp at hc

/-- **A thread that reads has something to wait for** until the listener ends. -/
lemma Inv.notInVain {s : Link ι} (h : s.Inv) (hending : ¬ s.Ending) {i : ι} {phase : HolderPhase}
    (hholder : s.holder = some (i, phase)) (hreads : phase.reads = true) :
    ∃ action, Action.exchanges action = true ∧ (s.step action).isSome := by
  have hopen : s.closed = false := by
    by_contra hopen
    exact hending (.inl (by simpa using hopen))
  have hphase : s.phase = phase := by simp [Link.phase, hholder]
  have hreplies := h.repliesWhole
  have htalk := h.talk
  rw [hphase] at hreplies htalk
  have hpayload (hopened : (openedReply phase).isSome) : (s.step .receivePayload).isSome := by
    obtain ⟨opCode, hopened⟩ := Option.isSome_iff_exists.1 hopened
    rw [hopened] at hreplies
    obtain ⟨message, rest, channel, -, -, hreceive, -, -⟩ :=
      Channel.Whole.receivePayload hreplies
    cases phase with
    | noticed stage =>
      obtain rfl := Option.some.inj hopened
      simp [Link.step, hopen, Link.receivePayload, hholder, hreceive]
    | draining stage opCode' =>
      obtain rfl := Option.some.inj hopened
      simp [Link.step, hopen, Link.receivePayload, hholder, hreceive]
    | _ => simp [openedReply] at hopened
  cases phase with
  | locked | compacting => simp [HolderPhase.reads] at hreads
  | noticed | draining => exact ⟨.receivePayload, rfl, hpayload rfl⟩
  | awaiting stage =>
    cases hmessages : s.toScheduler.unread with
    | cons message rest =>
      obtain ⟨channel, hreceive, -⟩ := Channel.Whole.receiveOpCode hreplies hmessages
      exact ⟨.receiveOpCode, rfl, by
        simp [Link.step, hopen, Link.receiveOpCode, hholder, hreceive]⟩
    | nil =>
      rw [hmessages] at htalk
      exact h.listenerMoves hopen hending htalk

/-- **Requests and replies are not crossed.** In every run in which no allocation is found too large
only by the second check, and no process is suspended that is not in the list, both ends read whole
messages, every reply is taken by the thread whose request it answers, no operation code is
unexpected, and no thread waits in vain.

**Proof sketch.** The two ends are equally far (`Talk`), which every step keeps (`Inv.step`): a
request is answered with what its sender expects (`Memory.answers_of_serve`), one request at a time
is on its way because its sender has the mutex, and the notices of other threads are read apart. -/
theorem uncrossed_of_run {tables : Memory.Listener} {t : Link ι}
    (h : Run step Orderly (start tables) t) : t.Uncrossed := by
  have hkept : t.Sound ∧ (t.closed = false → t.Inv) := by
    apply h.invariant (I := fun s => s.Sound ∧ (s.closed = false → s.Inv))
      ⟨(inv_start tables).sound, fun _ => inv_start tables⟩
    intro s action s' hs horderly hst
    refine (hs.2 ?_).step horderly hst
    by_contra hopen
    rw [Bool.not_eq_false] at hopen
    simp [step, hopen] at hst
  refine ⟨hkept.1.requestsWhole, hkept.1.repliesWhole, hkept.1.own, hkept.1.expected, ?_⟩
  intro hending i phase hholder hreads
  refine (hkept.2 ?_).notInVain hending hholder hreads
  by_contra hopen
  rw [Bool.not_eq_false] at hopen
  exact hending (.inl hopen)

end Runs

/-- Kernel Memory with one process, whose segment lies between two holes. -/
def tablesOfTwoHoles : Memory.Listener where
  processes := [some 1]
  mainMemory := ⟨4, 4, [⟨0, 1, 1, 2⟩], [⟨0, 1⟩, ⟨3, 1⟩], .best⟩
  connectedSticks := [⟨[1, 2, 3, 4]⟩]
  swapData := none

/-- Process 1 allocates two bytes, for which the memory is compacted, and a stick is announced in
between. -/
theorem uncrossed_of_run_compaction : ∃ s : Link (Fin 2),
    executeOk step Orderly (start tablesOfTwoHoles)
      [.lock 0, .sendRequest .createSegment [1, 0, 0, 0, 1, 0, 0, 0, 2, 0, 0, 0], .notice,
        .listenerReceive, .listenerServe true [], .listenerSend, .receiveOpCode, .receivePayload,
        .receiveOpCode, .receivePayload, .sendCanCompact, .receiveCan, .drainCan, .listenerSend,
        .receiveOpCode, .receivePayload, .listenerSend, .receiveOpCode, .receivePayload,
        .unlock 0] = some s ∧ s.taken = List.replicate 3 ((0, 1), some (0, 1)) ∧ s.Uncrossed := by
  have hrun : (executeOk step Orderly (start tablesOfTwoHoles : Link (Fin 2))
      [.lock 0, .sendRequest .createSegment [1, 0, 0, 0, 1, 0, 0, 0, 2, 0, 0, 0], .notice,
        .listenerReceive, .listenerServe true [], .listenerSend, .receiveOpCode, .receivePayload,
        .receiveOpCode, .receivePayload, .sendCanCompact, .receiveCan, .drainCan, .listenerSend,
        .receiveOpCode, .receivePayload, .listenerSend, .receiveOpCode, .receivePayload,
        .unlock 0]).map taken = some (List.replicate 3 ((0, 1), some (0, 1))) := by
    decide +kernel
  obtain ⟨s, hs, htaken⟩ := Option.map_eq_some_iff.1 hrun
  exact ⟨s, hs, htaken, uncrossed_of_run (Run.of_executeOk hs)⟩

/-- **An allocation is answered twice.** The limit is -1, which as a `uint32_t` lets every size
pass the first check. The second check reports that the size is too large and goes on, and the
allocation is reported as well. The next thread, which asks for the free memory, reads that. -/
theorem crossed_of_exceeded : ∃ s : Link (Fin 2),
    Reachable step (start { tablesOfTwoHoles with
      mainMemory := { tablesOfTwoHoles.mainMemory with maxSegmentSize := -1 } }) s ∧
        ¬ s.Uncrossed := by
  have hrun : (execute step (start { tablesOfTwoHoles with
      mainMemory := { tablesOfTwoHoles.mainMemory with maxSegmentSize := -1 } } : Link (Fin 2))
      [.lock 0, .sendRequest .createSegment [1, 0, 0, 0, 1, 0, 0, 0, 1, 0, 0, 0],
        .listenerReceive, .listenerServe true [], .listenerSend, .listenerSend, .receiveOpCode,
        .receivePayload, .unlock 0, .lock 1, .sendRequest .requestFreeMemory [0],
        .receiveOpCode]).any (fun s => s.crossed) = true := by
    decide +kernel
  obtain ⟨s, hs, hcrossed⟩ := (Option.any_eq_true _ _).1 hrun
  refine ⟨s, Run.of_execute hs, fun h => ?_⟩
  rw [h.expected] at hcrossed
  exact absurd hcrossed (by decide)

end Link

end OsSimulator.Scheduler
