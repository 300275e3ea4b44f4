import OsSimulator.Scheduler.ResumptionSteps

set_option relaxedAutoImplicit false
set_option autoImplicit false

/-!
# Resuming suspended processes: the wake-ups

Whoever makes room calls `create_resumption_routine_thread`, which does nothing when `resume_active`
is set, whatever the thread that has set it still does. So a wake-up can be dropped by a routine
that is past its last look at SUSP. READY, the notice of a new stick can lie unread while nobody
asks Kernel Memory for anything, and it is sent before the memory is there.

## Main definitions

* `Resuming.Looks`, `Resuming.TakesUp`, `Resuming.Called` — who will still ask Kernel Memory about
  the first process of SUSP. READY.
* `Resuming.Heeded` — the condition on a step.

## Main results

* `Resuming.nothingMissed_of_run` — nothing is missed in a run whose steps meet the condition.
* `Resuming.missed_of_stick` — a process that stays suspended although a stick has been added.
-/

namespace OsSimulator.Scheduler

open Locks (ThreadState)
open Memory (RequestKind)

/-! ## The condition -/

/-- The routine will look at the front of SUSP. READY. -/
def RoutinePhase.looks : RoutinePhase → Bool
  | .created | .entered | .testingList | .testingCompaction | .removing => true
  | .picked _ | .attempting _ _ | .clearing => false

/-- The process a worker has, with the stage of its attempt if it has begun. -/
def ResumerPhase.attempt : ResumerPhase → Option (ℕ × Option AttemptStage)
  | .picked p => some (p, none)
  | .attempting p stage => some (p, some stage)
  | _ => none

/-- The process the routine has picked, with the stage of its attempt if it has begun. -/
def RoutinePhase.attempt : RoutinePhase → Option (ℕ × Option AttemptStage)
  | .picked p => some (p, none)
  | .attempting p stage => some (p, some stage)
  | _ => none

/-- The answer that decides an attempt is still to be asked for. -/
def AttemptStage.isOpen : AttemptStage → Bool
  | .secondQuery _ => false
  | .query | .resume | .taking => true

/-- An attempt will send a request, after the one that is under way if it is asking. -/
def AttemptStage.willAsk (stage : AttemptStage) (asks : Bool) : Bool :=
  decide (stage = .query) || !asks && stage.request.isSome

/-- The thread with the mutex is about to call `create_resumption_routine_thread`. -/
def KmHolder.calls : KmHolder → Bool
  | .noticed _ | .freed | .calling => true
  | _ => false

/-- The thread with the mutex will call it for a notice or a `MEM_FREE`. -/
def KmHolder.willCall : KmHolder → Bool
  | .noticed _ | .freed | .awaiting (.user .deleteSegment) => true
  | _ => false

/-- The message says that it worked. -/
def KmMessage.isOk : KmMessage → Bool
  | .notice => false
  | .answer _ ok => ok

namespace Resuming

/-- The two threads that resume processes. -/
def attemptOf (s : Resuming) : Asker → Option (ℕ × Option AttemptStage)
  | .resumer => s.resumer.attempt
  | .routine => s.routine.bind RoutinePhase.attempt
  | .user _ | .compaction => none

/-- **Somebody will look** at the front of SUSP. READY: the resumer, when it is not blocked or will
be unlocked, or the routine. -/
def Looks (s : Resuming) : Prop :=
  s.resumer.isFree = true ∧
      (s.resumerState ≠ .blocked ∨ s.resumeActive = true ∨ s.tail = some .unlocking) ∨
    s.routine.any RoutinePhase.looks = true

/-- A compaction will make its call. -/
def Compacting (s : Resuming) : Prop := s.holder.any KmHolder.compacts = true

/-- A thread has a process and has not begun, or has not asked for the answer that decides. -/
def takesUp (p : ℕ) (asks : Bool) : Option (ℕ × Option AttemptStage) → Bool
  | some (q, none) => decide (q = p)
  | some (q, some stage) => decide (q = p) && stage.isOpen && !asks
  | none => false

/-- **Somebody has taken up** a process, and Kernel Memory is still to be asked. -/
def TakesUp (p : ℕ) (s : Resuming) : Prop :=
  takesUp p (s.asker = some .resumer) (s.attemptOf .resumer) = true ∨
    takesUp p (s.asker = some .routine) (s.attemptOf .routine) = true

/-- **A wake-up is under way**: a notice is unread, somebody is about to make the call, or the
suspender is behind a suspension. -/
def Called (s : Resuming) : Prop :=
  .notice ∈ s.messages ∨ s.holder.any KmHolder.willCall = true ∨
    (s.holder = some (.awaiting (.user .suspendProcess)) ∧ s.messages.any KmMessage.isOk = true) ∨
    0 < s.ending ∨ 0 < s.endingTested ∨ s.suspender ≠ .elsewhere

/-- Somebody will still read the connection: a request is to be answered, a compaction will be
allowed, or an attempt goes on with a request. -/
def ReaderComes (s : Resuming) : Prop :=
  s.demands.any (fun d => decide (d.replies ≠ 0)) = true ∨
    s.holder ∈ [some .entering, some .locking, some .asking] ∨
    ∃ asker ∈ [Asker.resumer, .routine], ∃ attempt ∈ s.attemptOf asker,
      attempt.2.any (AttemptStage.willAsk · (s.asker = some asker)) = true

/-- Every notice will be read: an answer is behind it, or somebody will still read the
connection. -/
def NoticesRead (s : Resuming) : Prop :=
  .notice ∈ s.messages → s.ReaderComes ∨ ∃ epoch ok, s.messages.getLast? = some (.answer epoch ok)

/-- **A step is heeded**, where SUSP. READY is not empty. A call that finds `resume_active` set is
dropped only while somebody will look at the front of SUSP. READY or has just taken it up; so is
what the suspender does behind a suspension, when it does nothing or finds the resumer with a
process; a process comes to the front only then, or while a wake-up is under way, and to an empty
list only when every notice will be read; a stick announces itself only while somebody will still
read it; and its memory is added only before that, or while somebody will look. -/
def Heeded (s : Resuming) : Action → Prop
  | .holder => s.holder.any KmHolder.calls = true → s.compactionActive = false →
      s.resumeActive = true → ∀ p ∈ s.suspReady.head?, s.Looks ∨ s.TakesUp p
  | .endCall => s.resumeActive = true →
      ∀ p ∈ s.suspReady.head?, s.Looks ∨ s.Compacting ∨ s.TakesUp p
  | .suspender =>
      s.suspender = .testingResume ∧ s.resumeActive = true ∨
        s.suspender = .unlocking ∧ s.resumer.isFree = false →
      ∀ p ∈ s.suspReady.head?, s.Looks ∨ s.Compacting ∨ s.TakesUp p
  | .toSuspReady pcbs p =>
      ((insertPcbSorted pcbs p s.suspReady).2.head? = some p →
        s.Looks ∨ s.Compacting ∨ s.Called ∨ s.TakesUp p) ∧ (s.suspReady = [] → s.NoticesRead)
  | .newMemoryStick => s.suspReady ≠ [] → s.ReaderComes
  | .addTotalMemory =>
      ∀ p ∈ s.suspReady.head?, s.Looks ∨ s.Compacting ∨ s.Called ∨ s.TakesUp p
  | _ => True

/-! ## Attended processes -/

variable {s s' : Resuming} {p q : ℕ}

/-- The answer that decides an attempt is of the present count: it is still to be asked for, or to
be given, or it is under way, or has been given, with nothing in front of it that makes room. -/
def Timely (s : Resuming) (asker : Asker) : AttemptStage → Prop
  | .query | .resume => s.asker ≠ some asker ∨ (∃ d ∈ s.demands, d.replies ≠ 0) ∨
      (∀ epoch ok, .answer epoch ok ∈ s.messages → epoch = s.epoch) ∧
        .endProcess true ∉ s.demands
  | .secondQuery answered => answered = s.epoch ∧ .endProcess true ∉ s.demands
  | .taking => True

/-- **A process is in hand**: somebody has picked it, or its last attempt and those that are under
way are decided by answers of the present count. -/
def InHand (p : ℕ) (s : Resuming) : Prop :=
  (∃ asker, s.attemptOf asker = some (p, none)) ∨
    (s.lastAnswer p = some s.epoch ∧ .endProcess true ∉ s.demands ∨
        ∃ asker stage, s.attemptOf asker = some (p, some stage)) ∧
      ∀ asker stage, s.attemptOf asker = some (p, some stage) → s.Timely asker stage

/-- **Somebody attends to a process.** -/
def Attended (p : ℕ) (s : Resuming) : Prop :=
  s.Looks ∨ s.Compacting ∨ s.Called ∨ s.InHand p

/-- The first process of SUSP. READY is attended to. -/
def FirstAttended (s : Resuming) : Prop := ∀ p, s.suspReady.head? = some p → s.Attended p

/-- The attempt of the thread, by its phase. -/
lemma attemptOf_resumer {stage : AttemptStage} :
    s.attemptOf .resumer = some (p, some stage) ↔ s.resumer = .attempting p stage := by
  rw [attemptOf]
  cases s.resumer <;> simp [ResumerPhase.attempt]

/-- The attempt of the routine, by its phase. -/
lemma attemptOf_routine {stage : AttemptStage} :
    s.attemptOf .routine = some (p, some stage) ↔ s.routine = some (.attempting p stage) := by
  rw [attemptOf]
  cases s.routine with
  | none => simp
  | some phase => cases phase <;> simp [RoutinePhase.attempt]

/-- Only one thread attempts a process. -/
lemma Threads.attempts_unique (h : Threads s) {asker asker' : Asker} {stage stage' : AttemptStage}
    (hasker : s.attemptOf asker = some (p, some stage))
    (hasker' : s.attemptOf asker' = some (p, some stage')) : asker = asker' := by
  match asker, asker', hasker, hasker' with
  | .resumer, .resumer, _, _ => rfl
  | .routine, .routine, _, _ => rfl
  | .resumer, .routine, hresumer, hroutine =>
    exact absurd (attemptOf_routine.1 hroutine)
      (h.exclusive p stage stage' (attemptOf_resumer.1 hresumer))
  | .routine, .resumer, hroutine, hresumer =>
    exact absurd (attemptOf_routine.1 hroutine)
      (h.exclusive p stage' stage (attemptOf_resumer.1 hresumer))
  | .user _, _, hnone, _ => exact absurd hnone (by simp [attemptOf])
  | .compaction, _, hnone, _ => exact absurd hnone (by simp [attemptOf])
  | .resumer, .user _, _, hnone => exact absurd hnone (by simp [attemptOf])
  | .resumer, .compaction, _, hnone => exact absurd hnone (by simp [attemptOf])
  | .routine, .user _, _, hnone => exact absurd hnone (by simp [attemptOf])
  | .routine, .compaction, _, hnone => exact absurd hnone (by simp [attemptOf])

/-- What has been taken up is in hand, whatever has made room since. -/
lemma TakesUp.inHand (hthreads : Threads s) (h : s.TakesUp p) : s.InHand p := by
  have hone {asker : Asker}
      (htakes : takesUp p (s.asker = some asker) (s.attemptOf asker) = true) : s.InHand p := by
    cases hattempt : s.attemptOf asker with
    | none => simp [hattempt, takesUp] at htakes
    | some attempt =>
      obtain ⟨q, stage⟩ := attempt
      cases stage with
      | none =>
        simp only [hattempt, takesUp, decide_eq_true_eq] at htakes
        exact .inl ⟨asker, htakes ▸ hattempt⟩
      | some stage =>
        simp only [hattempt, takesUp, Bool.and_eq_true, decide_eq_true_eq, Bool.not_eq_true',
          decide_eq_false_iff_not] at htakes
        obtain ⟨⟨rfl, hopen⟩, hask⟩ := htakes
        refine .inr ⟨.inr ⟨asker, stage, hattempt⟩, fun asker' stage' hattempt' => ?_⟩
        obtain rfl := hthreads.attempts_unique hattempt' hattempt
        obtain rfl : stage' = stage := by simpa [hattempt] using hattempt'.symm
        cases stage' with
        | query => exact .inl hask
        | secondQuery answered => exact absurd hopen (by simp [AttemptStage.isOpen])
        | resume => exact .inl hask
        | taking => trivial
  rcases h with hresumer | hroutine
  · exact hone hresumer
  · exact hone hroutine

/-! ## What keeps a process attended -/

/-- Whoever looks goes on to look. -/
lemma Looks.mono (h : s.Looks) (hfree : s.resumer.isFree = true → s'.resumer.isFree = true)
    (hstate : s'.resumerState = .blocked → s.resumerState = .blocked)
    (hcomes : s.resumeActive = true ∨ s.tail = some .unlocking →
      s'.resumerState ≠ .blocked ∨ s'.resumeActive = true ∨ s'.tail = some .unlocking)
    (hlooks : s.routine.any RoutinePhase.looks = true →
      s'.routine.any RoutinePhase.looks = true) : s'.Looks := by
  rcases h with ⟨hf, hnot | hcome⟩ | hroutine
  · exact .inl ⟨hfree hf, .inl fun hblocked => hnot (hstate hblocked)⟩
  · exact .inl ⟨hfree hf, hcomes hcome⟩
  · exact .inr (hlooks hroutine)

/-- A step that leaves the threads alone. -/
lemma Looks.frame (h : s.Looks) (hresumer : s'.resumer = s.resumer)
    (hstate : s'.resumerState = s.resumerState) (hroutine : s'.routine = s.routine)
    (htail : s'.tail = s.tail) : s'.Looks := by
  unfold Looks resumeActive
  rw [hresumer, hstate, hroutine, htail]
  exact h

/-- A wake-up stays under way while the notices, the holder and the counts stay. -/
lemma Called.mono (h : s.Called)
    (hnotice : .notice ∈ s.messages → .notice ∈ s'.messages)
    (hholder : s'.holder = s.holder) (hok : s.messages.any KmMessage.isOk = true →
      s'.messages.any KmMessage.isOk = true) (hending : s.ending ≤ s'.ending)
    (htested : s.endingTested ≤ s'.endingTested) (hsuspender : s'.suspender = s.suspender) :
    s'.Called := by
  rcases h with hn | hh | ⟨hh, ho⟩ | he | he | hs
  · exact .inl (hnotice hn)
  · exact .inr (.inl (hholder ▸ hh))
  · exact .inr (.inr (.inl ⟨hholder ▸ hh, hok ho⟩))
  · exact .inr (.inr (.inr (.inl (he.trans_le hending))))
  · exact .inr (.inr (.inr (.inr (.inl (he.trans_le htested)))))
  · exact .inr (.inr (.inr (.inr (.inr (hsuspender ▸ hs)))))

/-- The decisive answer stays of the present count, if nothing makes room and no answer is added. -/
lemma Timely.mono {asker : Asker} {stage : AttemptStage} (h : s.Timely asker stage)
    (hepoch : s'.epoch = s.epoch)
    (hends : Demand.endProcess true ∈ s'.demands → Demand.endProcess true ∈ s.demands)
    (hasker : s'.asker = some asker →
      (∃ d ∈ s'.demands, d.replies ≠ 0) ∨ s.asker = some asker ∧
        ((∃ d ∈ s.demands, d.replies ≠ 0) → ∃ d ∈ s'.demands, d.replies ≠ 0) ∧
        ∀ epoch ok, KmMessage.answer epoch ok ∈ s'.messages → .answer epoch ok ∈ s.messages) :
    s'.Timely asker stage := by
  have hmain (hold : s.asker ≠ some asker ∨ (∃ d ∈ s.demands, d.replies ≠ 0) ∨
      (∀ epoch ok, KmMessage.answer epoch ok ∈ s.messages → epoch = s.epoch) ∧
        Demand.endProcess true ∉ s.demands) :
      s'.asker ≠ some asker ∨ (∃ d ∈ s'.demands, d.replies ≠ 0) ∨
        (∀ epoch ok, KmMessage.answer epoch ok ∈ s'.messages → epoch = s'.epoch) ∧
          Demand.endProcess true ∉ s'.demands := by
    by_cases hask : s'.asker = some asker
    · rcases hasker hask with hpending | ⟨hsame, hpending, hanswers⟩
      · exact .inr (.inl hpending)
      · rcases hold with hne | hold | ⟨hall, hno⟩
        · exact absurd hsame hne
        · exact .inr (.inl (hpending hold))
        · exact .inr (.inr ⟨fun epoch ok hmem => (hall epoch ok (hanswers epoch ok hmem)).trans
            hepoch.symm, fun hmem => hno (hends hmem)⟩)
    · exact .inl hask
  cases stage with
  | query => exact hmain h
  | secondQuery answered => exact ⟨h.1.trans hepoch.symm, fun hmem => h.2 (hends hmem)⟩
  | resume => exact hmain h
  | taking => trivial

/-- A process stays in hand in a step that leaves its attempts and the count alone. -/
lemma InHand.mono (h : s.InHand p)
    (hattempt : ∀ asker attempt, s'.attemptOf asker = some (p, attempt) ↔
      s.attemptOf asker = some (p, attempt))
    (hlast : s'.lastAnswer p = s.lastAnswer p) (hepoch : s'.epoch = s.epoch)
    (hends : Demand.endProcess true ∈ s'.demands → Demand.endProcess true ∈ s.demands)
    (htimely : ∀ asker stage, s.attemptOf asker = some (p, some stage) → s.Timely asker stage →
      s'.Timely asker stage) : s'.InHand p := by
  rcases h with ⟨asker, hpicked⟩ | ⟨hlive, hall⟩
  · exact .inl ⟨asker, (hattempt asker none).2 hpicked⟩
  · refine .inr ⟨?_, fun asker stage hst => ?_⟩
    · rcases hlive with ⟨hfresh, hno⟩ | ⟨asker, stage, hst⟩
      · exact .inl ⟨by rw [hlast, hepoch, hfresh], fun hmem => hno (hends hmem)⟩
      · exact .inr ⟨asker, stage, (hattempt asker (some stage)).2 hst⟩
    · rw [hattempt asker] at hst
      exact htimely asker stage hst (hall asker stage hst)

/-- A step that leaves the connection and the count alone. -/
lemma InHand.frame (h : s.InHand p)
    (hattempt : ∀ asker attempt, s'.attemptOf asker = some (p, attempt) ↔
      s.attemptOf asker = some (p, attempt))
    (hlast : s'.lastAnswer = s.lastAnswer) (hepoch : s'.epoch = s.epoch)
    (hdemands : s'.demands = s.demands) (hmessages : s'.messages = s.messages)
    (hholder : s'.holder = s.holder) : s'.InHand p := by
  refine h.mono hattempt (by rw [hlast]) hepoch (by rw [hdemands]; exact id)
    fun asker stage _ ht => ht.mono hepoch (by rw [hdemands]; exact id) fun hask => .inr ⟨?_, ?_, ?_⟩
  · rw [← hask, Resuming.asker, Resuming.asker, hholder]
  · rw [hdemands]
    exact id
  · rw [hmessages]
    exact fun _ _ => id

/-- The attempts of a process after a step of one worker. -/
lemma attemptOf_iff_of_other {p : ℕ} (asker : Asker)
    (hothers : ∀ other, other ≠ asker → s'.attemptOf other = s.attemptOf other)
    (hold : ∀ attempt, s.attemptOf asker ≠ some (p, attempt))
    (hnew : ∀ attempt, s'.attemptOf asker ≠ some (p, attempt)) (other : Asker)
    (attempt : Option AttemptStage) :
    s'.attemptOf other = some (p, attempt) ↔ s.attemptOf other = some (p, attempt) := by
  by_cases hsame : other = asker
  · subst hsame
    exact ⟨fun h => absurd h (hnew attempt), fun h => absurd h (hold attempt)⟩
  · rw [hothers other hsame]

/-- Attempts depend on the phases only. -/
lemma attemptOf_congr {p : ℕ} (hresumer : s'.resumer.attempt = s.resumer.attempt)
    (hroutine : s'.routine.bind RoutinePhase.attempt = s.routine.bind RoutinePhase.attempt)
    (asker : Asker) (attempt : Option AttemptStage) :
    s'.attemptOf asker = some (p, attempt) ↔ s.attemptOf asker = some (p, attempt) := by
  have heq : s'.attemptOf asker = s.attemptOf asker := by
    cases asker with
    | resumer => exact hresumer
    | routine => exact hroutine
    | user _ => rfl
    | compaction => rfl
  rw [heq]

/-- A worker begins the attempt of a process it has picked. -/
lemma InHand.begin (asker : Asker) (hthreads : Threads s')
    (hattempt : s'.attemptOf asker = some (p, some .query)) (hask : s'.asker ≠ some asker) :
    s'.InHand p := by
  refine .inr ⟨.inr ⟨asker, .query, hattempt⟩, fun other stage hother => ?_⟩
  obtain rfl := hthreads.attempts_unique hother hattempt
  obtain rfl : stage = .query := by simpa [hattempt] using hother.symm
  exact .inl hask

/-- A thread takes the free mutex and sends a request. -/
lemma Attended.ask {asker : Asker} {kind : RequestKind} (h : s.Attended p)
    (hst : s.ask asker kind = some s') : s'.Attended p := by
  obtain ⟨hfree, rfl⟩ := ask_eq_some hst
  rcases h with hlooks | hcompacting | hcalled | hhand
  · exact .inl hlooks
  · rw [Compacting, hfree] at hcompacting
    exact absurd hcompacting (by simp)
  · refine .inr (.inr (.inl ?_))
    rcases hcalled with hnotice | hholder | ⟨hholder, -⟩ | hrest
    · exact .inl hnotice
    · rw [hfree] at hholder
      exact absurd hholder (by simp)
    · rw [hfree] at hholder
      exact absurd hholder (by simp)
    · exact .inr (.inr (.inr hrest))
  · have hpending : ∃ d ∈ s.demands ++ [Demand.request kind], d.replies ≠ 0 :=
      ⟨.request kind, by simp, by simp [Demand.replies]⟩
    have hends : Demand.endProcess true ∈ s.demands ++ [Demand.request kind] →
        Demand.endProcess true ∈ s.demands := by
      simp
    exact .inr (.inr (.inr (hhand.mono (fun _ _ => Iff.rfl) rfl rfl hends fun _ _ _ ht =>
      ht.mono rfl hends fun _ => .inl hpending)))

/-- A thread that is free attempts nothing. -/
lemma ResumerPhase.attempt_of_isFree {phase : ResumerPhase} (h : phase.isFree = true) :
    phase.attempt = none := by
  cases phase <;> first | rfl | exact absurd h (by simp [ResumerPhase.isFree])

/-- Who has the flag is compacting. -/
lemma KmHolder.compacts_of_hasFlag {holder : KmHolder} (h : holder.hasFlag = true) :
    holder.compacts = true := by
  rw [KmHolder.hasFlag, Bool.and_eq_true] at h
  exact h.1

/-- An active compaction will make its call. -/
lemma Threads.compacting (h : Threads s) (hactive : s.compactionActive = true) : s.Compacting := by
  obtain ⟨holder, hholder, hflag⟩ := (Option.any_eq_true _ _).1 (h.compaction hactive)
  exact (Option.any_eq_true _ _).2 ⟨holder, hholder, KmHolder.compacts_of_hasFlag hflag⟩

/-! ## The steps of the two workers -/

/-- The first process stays attended over a step of the resumption thread. -/
lemma FirstAttended.resumerStep (h : s.FirstAttended) (hthreads : Threads s)
    (hexchange : Exchange s) (hst : s.resumerStep = some s') : s'.FirstAttended := by
  have hnew := hthreads.resumerStep hst
  intro q hq
  rcases resumerStep_cases hst with ⟨phase, state, rfl, hfree, hphase, -, hblocked⟩ |
    ⟨p, rfl, hfree, -, hp⟩ | ⟨p, hpicked, -, rfl⟩ | ⟨p, stage, kind, -, -, hholder, rfl⟩ |
    ⟨p, htaking, rfl⟩ | ⟨hfailed, rfl⟩
  · rcases h q hq with hlooks | hcompacting | hcalled | hhand
    · exact .inl (hlooks.mono (fun _ => hphase) hblocked .inr id)
    · exact .inr (.inl hcompacting)
    · exact .inr (.inr (.inl hcalled))
    · have hattempt : phase.attempt = s.resumer.attempt :=
        (ResumerPhase.attempt_of_isFree hphase).trans (ResumerPhase.attempt_of_isFree hfree).symm
      exact .inr (.inr (.inr (hhand.frame (attemptOf_congr hattempt rfl) rfl rfl rfl rfl rfl)))
  · obtain rfl : p = q := Option.some.inj (hp.symm.trans hq)
    exact .inr (.inr (.inr (.inl ⟨.resumer, rfl⟩)))
  · have hask : s.asker ≠ some .resumer := by
      intro hask
      obtain ⟨r, stage, kind, hresumer, -⟩ := hexchange.resumer hask
      rw [hpicked] at hresumer
      exact absurd hresumer (by simp)
    by_cases hpq : p = q
    · subst hpq
      have hmem : p ∈ s.suspReady := List.mem_of_mem_head? hq
      exact .inr (.inr (.inr (.begin .resumer hnew
        (by simp [attemptOf, hmem, ResumerPhase.attempt]) hask)))
    · rcases h q hq with hlooks | hcompacting | hcalled | hhand
      · refine .inl (hlooks.mono (fun hfree => ?_) id .inr id)
        rw [hpicked] at hfree
        exact absurd hfree (by simp [ResumerPhase.isFree])
      · exact .inr (.inl hcompacting)
      · exact .inr (.inr (.inl hcalled))
      · refine .inr (.inr (.inr (hhand.frame (attemptOf_iff_of_other .resumer
          (fun other hother => ?_) (fun attempt => ?_) fun attempt => ?_) rfl rfl rfl rfl rfl)))
        · cases other <;> first | rfl | exact absurd rfl hother
        · simp [attemptOf, hpicked, ResumerPhase.attempt, hpq]
        · by_cases hmem : p ∈ s.suspReady <;>
            simp [attemptOf, hmem, ResumerPhase.attempt, hpq]
  · exact (h q hq).ask (by rw [Resuming.ask, if_pos hholder])
  · by_cases hblocked : s.resumerState = .blocked
    · rcases hthreads.blocked (by rw [htaking]; rfl) hblocked with hresume | htail | hcompacts
      · exact .inl (.inl ⟨rfl, .inr (.inl hresume)⟩)
      · exact .inl (.inl ⟨rfl, .inr (.inr htail)⟩)
      · exact .inr (.inl hcompacts)
    · exact .inl (.inl ⟨rfl, .inl hblocked⟩)
  · rcases h q hq with hlooks | hcompacting | hcalled | hhand
    · rcases hlooks with ⟨hfree, -⟩ | hroutine
      · rw [hfailed] at hfree
        exact absurd hfree (by simp [ResumerPhase.isFree])
      · exact .inl (.inr hroutine)
    · exact .inr (.inl hcompacting)
    · exact .inr (.inr (.inl hcalled))
    · have hattempt : ResumerPhase.atSwitch.attempt = s.resumer.attempt := by
        rw [hfailed]
        rfl
      exact .inr (.inr (.inr (hhand.frame (attemptOf_congr hattempt rfl) rfl rfl rfl rfl rfl)))

/-- Over one of the resumption routine. -/
lemma FirstAttended.routineStep (h : s.FirstAttended) (hthreads : Threads s)
    (hexchange : Exchange s) (hst : s.routineStep = some s') : s'.FirstAttended := by
  have hnew := hthreads.routineStep hst
  intro q hq
  rcases routineStep_cases hst with ⟨-, -, rfl⟩ | ⟨-, rfl⟩ | ⟨phase, next, -, rfl, -, hnext⟩ |
    ⟨phase, -, rfl, hnext⟩ | ⟨p, -, hp, rfl⟩ | ⟨p, hpicked, -, -, rfl⟩ |
    ⟨p, stage, kind, -, -, hholder, rfl⟩ | ⟨p, -, rfl⟩ | ⟨hclearing, rfl⟩
  · exact .inl (.inr rfl)
  · exact .inl (.inr rfl)
  · rcases hnext with ⟨-, rfl⟩ | ⟨-, rfl⟩ | ⟨-, rfl⟩ <;> exact .inl (.inr rfl)
  · rcases hnext with ⟨-, hempty⟩ | ⟨-, hactive⟩
    · simp only [hempty] at hq
      exact absurd hq (by simp)
    · exact .inr (.inl (hthreads.compacting hactive))
  · obtain rfl : p = q := Option.some.inj (hp.symm.trans hq)
    exact .inr (.inr (.inr (.inl ⟨.routine, rfl⟩)))
  · have hask : s.asker ≠ some .routine := by
      intro hask
      obtain ⟨r, stage, kind, hroutine, -⟩ := hexchange.routine hask
      rw [hpicked] at hroutine
      exact absurd hroutine (by simp)
    by_cases hpq : p = q
    · subst hpq
      exact .inr (.inr (.inr (.begin .routine hnew rfl hask)))
    · rcases h q hq with hlooks | hcompacting | hcalled | hhand
      · refine .inl (hlooks.mono id id (fun _ => .inr (.inl rfl)) fun hroutine => ?_)
        rw [hpicked] at hroutine
        exact absurd hroutine (by simp [RoutinePhase.looks])
      · exact .inr (.inl hcompacting)
      · exact .inr (.inr (.inl hcalled))
      · refine .inr (.inr (.inr (hhand.frame (attemptOf_iff_of_other .routine
          (fun other hother => ?_) (fun attempt => ?_) fun attempt => ?_) rfl rfl rfl rfl rfl)))
        · cases other <;> first | rfl | exact absurd rfl hother
        · simp [attemptOf, hpicked, RoutinePhase.attempt, hpq]
        · simp [attemptOf, RoutinePhase.attempt, hpq]
  · exact (h q hq).ask (by rw [Resuming.ask, if_pos hholder])
  · exact .inl (.inr rfl)
  · rcases h q hq with hlooks | hcompacting | hcalled | hhand
    · refine .inl (hlooks.mono id id (fun _ => .inr (.inr rfl)) fun hroutine => ?_)
      rw [hclearing] at hroutine
      exact absurd hroutine (by simp [RoutinePhase.looks])
    · exact .inr (.inl hcompacting)
    · exact .inr (.inr (.inl hcalled))
    · have hattempt : (none : Option RoutinePhase).bind RoutinePhase.attempt =
          s.routine.bind RoutinePhase.attempt := by
        rw [hclearing]
        rfl
      exact .inr (.inr (.inr (hhand.frame (attemptOf_congr rfl hattempt) rfl rfl rfl rfl rfl)))

/-! ## The steps of the connection -/

/-- Over one of whoever has the socket, where it is heeded. -/
lemma FirstAttended.holderStep (h : s.FirstAttended) (hthreads : Threads s)
    (hheeded : s.Heeded .holder) (hst : s.holderStep = some s') : s'.FirstAttended := by
  intro q hq
  rcases holderStep_cases hst with ⟨-, -, rfl⟩ | ⟨-, rfl⟩ | ⟨-, rfl⟩ | ⟨-, rfl⟩ |
    ⟨hleaving, rfl⟩ | ⟨holder, holder', hholder, rfl, hcall⟩
  · exact .inr (.inl rfl)
  · exact .inr (.inl rfl)
  · exact .inr (.inl rfl)
  · exact .inr (.inl rfl)
  · have hasker : s.asker = none := by rw [asker, hleaving]; rfl
    rcases h q hq with hlooks | hcompacting | hcalled | hhand
    · exact .inl hlooks
    · rw [Compacting, hleaving] at hcompacting
      exact absurd hcompacting (by simp [KmHolder.compacts])
    · refine .inr (.inr (.inl ?_))
      rcases hcalled with hnotice | hwill | ⟨hsuspend, -⟩ | hrest
      · exact .inl hnotice
      · rw [hleaving] at hwill
        exact absurd hwill (by simp [KmHolder.willCall])
      · rw [hleaving] at hsuspend
        exact absurd hsuspend (by simp)
      · exact .inr (.inr (.inr hrest))
    · refine .inr (.inr (.inr (hhand.mono (fun _ _ => Iff.rfl) rfl rfl id
        fun asker stage hattempt ht => ht.mono rfl id fun hask => ?_)))
      cases hask
      exact absurd hattempt (by simp [attemptOf])
  · have hlist : s.createResumptionRoutineThread.suspReady = s.suspReady := by
      rcases s.createResumptionRoutineThread_eq with ⟨-, heq⟩ | ⟨heq, -⟩ <;> rw [heq]
    have hq' : s.suspReady.head? = some q := hlist ▸ hq
    have hcalls : s.holder.any KmHolder.calls = true := by
      rw [hholder]
      rcases hcall with ⟨asker, rfl, rfl⟩ | ⟨rfl, rfl⟩ | ⟨rfl, rfl⟩ <;> rfl
    rcases s.createResumptionRoutineThread_eq with ⟨-, heq⟩ | ⟨heq, hdropped⟩
    · rw [heq]
      exact .inl (.inr rfl)
    · rw [heq]
      cases hactive : s.compactionActive with
      | true =>
        -- the compaction is this thread's own, and its call is still to come
        have hcompacting := hthreads.compacting hactive
        rw [Compacting, hholder, Option.any_some] at hcompacting
        rcases hcall with ⟨asker, rfl, rfl⟩ | ⟨rfl, rfl⟩ | ⟨rfl, rfl⟩
        · rw [KmHolder.compacts_noticed] at hcompacting
          exact .inr (.inl hcompacting)
        · exact absurd hcompacting (by simp [KmHolder.compacts])
        · have hflag := hthreads.compactionActive_eq_false hholder rfl
          exact absurd (hflag.symm.trans hactive) (by simp)
      | false =>
        have hresume : s.resumeActive = true := by simpa [hactive] using hdropped
        rcases hheeded hcalls hactive hresume q hq' with hlooks | htakes
        · exact .inl hlooks
        · refine .inr (.inr (.inr ((TakesUp.inHand hthreads htakes).mono (fun _ _ => Iff.rfl) rfl
            rfl id fun asker stage hattempt ht => ht.mono rfl id fun hask => .inr ⟨?_, id,
              fun _ _ => id⟩)))
          rw [← hask, Resuming.asker, Resuming.asker, hholder]
          rcases hcall with ⟨asker, rfl, rfl⟩ | ⟨rfl, rfl⟩ | ⟨rfl, rfl⟩ <;> rfl

/-- Who asks for itself waits for one answer. -/
lemma expectedAnswers_of_asker {asker : Asker} (h : s.asker = some asker)
    (hne : asker ≠ .compaction) : expectedAnswers s.holder = 1 := by
  simp only [Resuming.asker, Option.bind_eq_some_iff] at h
  obtain ⟨holder, hholder, h⟩ := h
  rw [hholder]
  cases holder with
  | awaiting other | noticed other =>
    obtain rfl : other = asker := Option.some.inj h
    cases other <;> first | rfl | exact absurd rfl hne
  | _ => exact absurd h (by simp [KmHolder.asker])

/-- The answer that a thread takes is the only one. -/
lemma Exchange.only_answer (h : Exchange s) {asker : Asker} {epoch : ℕ} {ok : Bool}
    {rest : List KmMessage} (hholder : s.holder = some (.awaiting asker))
    (hmessages : s.messages = .answer epoch ok :: rest) (hasker : asker ≠ .compaction) :
    rest.countP KmMessage.isAnswer = 0 ∧ ∀ d ∈ s.demands, d.replies = 0 := by
  have hcount := h.count
  have hexpected := expectedAnswers_of_asker (by rw [Resuming.asker, hholder]; rfl) hasker
  rw [hmessages, List.countP_cons_of_pos rfl, hexpected] at hcount
  refine ⟨by omega, fun d hd => ?_⟩
  have hle : d.replies ≤ (s.demands.map Demand.replies).sum :=
    List.single_le_sum (fun _ _ => Nat.zero_le _) _ (List.mem_map_of_mem hd)
  omega

/-- An attempt that goes on behind an answer is decided by the present count, if it was. -/
lemma Timely.goOn {asker : Asker} {stage next : AttemptStage} {epoch : ℕ} {ok : Bool}
    (h : s.Timely asker stage) (hask : s.asker = some asker) (hno : ∀ d ∈ s.demands, d.replies = 0)
    (hmem : .answer epoch ok ∈ s.messages) (hnext : stage.afterAnswer epoch ok = .inl next)
    (hasker : s'.asker = none) (hepoch : s'.epoch = s.epoch) (hdemands : s'.demands = s.demands) :
    s'.Timely asker next := by
  have hfree : s'.asker ≠ some asker := by simp [hasker]
  cases stage with
  | query =>
    cases hnext
    rcases h with hne | ⟨d, hd, hreplies⟩ | ⟨hall, hends⟩
    · exact absurd hask hne
    · exact absurd (hno d hd) hreplies
    · exact ⟨(hall epoch ok hmem).trans hepoch.symm, hdemands ▸ hends⟩
  | secondQuery answered =>
    cases ok
    · exact absurd hnext (by simp [AttemptStage.afterAnswer])
    · cases hnext
      exact .inl hfree
  | resume =>
    cases ok
    · exact absurd hnext (by simp [AttemptStage.afterAnswer])
    · cases hnext
      trivial
  | taking =>
    cases hnext
    trivial

/-- An attempt that fails is decided by the present count, if it was to be. -/
lemma Timely.fail {asker : Asker} {stage : AttemptStage} {epoch last : ℕ} {ok : Bool}
    (h : s.Timely asker stage) (hask : s.asker = some asker) (hno : ∀ d ∈ s.demands, d.replies = 0)
    (hmem : .answer epoch ok ∈ s.messages) (hlast : stage.afterAnswer epoch ok = .inr last) :
    last = s.epoch ∧ .endProcess true ∉ s.demands := by
  cases stage with
  | query => exact absurd hlast (by simp [AttemptStage.afterAnswer])
  | secondQuery answered =>
    cases ok
    · cases hlast
      exact h
    · exact absurd hlast (by simp [AttemptStage.afterAnswer])
  | resume =>
    cases ok
    · cases hlast
      rcases h with hne | ⟨d, hd, hreplies⟩ | ⟨hall, hends⟩
      · exact absurd hask hne
      · exact absurd (hno d hd) hreplies
      · exact ⟨hall epoch false hmem, hends⟩
    · exact absurd hlast (by simp [AttemptStage.afterAnswer])
  | taking => exact absurd hlast (by simp [AttemptStage.afterAnswer])

/-- Another attempt does not depend on the answer. -/
lemma Timely.release {asker : Asker} {stage : AttemptStage} (h : s.Timely asker stage)
    (hasker : s'.asker = none) (hepoch : s'.epoch = s.epoch) (hdemands : s'.demands = s.demands) :
    s'.Timely asker stage :=
  h.mono hepoch (by rw [hdemands]; exact id) fun hask => absurd (hasker.symm.trans hask) (by simp)

/-- A process stays in hand when an attempt goes on behind an answer. -/
lemma InHand.goOn {asker : Asker} {stage next : AttemptStage} {epoch : ℕ} {ok : Bool}
    (h : s.InHand q) (hask : s.asker = some asker) (hno : ∀ d ∈ s.demands, d.replies = 0)
    (hmem : .answer epoch ok ∈ s.messages) (hattempt : s.attemptOf asker = some (p, some stage))
    (hnext : stage.afterAnswer epoch ok = .inl next)
    (hnew : s'.attemptOf asker = some (p, some next))
    (hothers : ∀ other, other ≠ asker → s'.attemptOf other = s.attemptOf other)
    (hlast : s'.lastAnswer = s.lastAnswer) (hasker : s'.asker = none)
    (hepoch : s'.epoch = s.epoch) (hdemands : s'.demands = s.demands) : s'.InHand q := by
  rcases h with ⟨other, hpicked⟩ | ⟨hlive, hall⟩
  · have hne : other ≠ asker := by
      rintro rfl
      exact absurd (hattempt.symm.trans hpicked) (by simp)
    exact .inl ⟨other, (hothers other hne).trans hpicked⟩
  · refine .inr ⟨?_, fun other stage' hother => ?_⟩
    · rcases hlive with ⟨hfresh, hends⟩ | ⟨other, stage', hother⟩
      · exact .inl ⟨by rw [hlast, hepoch, hfresh], hdemands ▸ hends⟩
      · by_cases hsame : other = asker
        · subst hsame
          obtain rfl : p = q := by
            have := hattempt.symm.trans hother
            simp only [Option.some.injEq, Prod.mk.injEq] at this
            exact this.1
          exact .inr ⟨other, next, hnew⟩
        · exact .inr ⟨other, stage', (hothers other hsame).trans hother⟩
    · by_cases hsame : other = asker
      · subst hsame
        have heq := hnew.symm.trans hother
        simp only [Option.some.injEq, Prod.mk.injEq] at heq
        obtain ⟨rfl, rfl⟩ := heq
        exact (hall other stage hattempt).goOn hask hno hmem hnext hasker hepoch hdemands
      · rw [hothers other hsame] at hother
        exact (hall other stage' hother).release hasker hepoch hdemands

/-- A process stays in hand when an attempt fails. -/
lemma InHand.fail {asker : Asker} {stage : AttemptStage} {epoch last : ℕ} {ok : Bool}
    (h : s.InHand q) (hask : s.asker = some asker) (hno : ∀ d ∈ s.demands, d.replies = 0)
    (hmem : .answer epoch ok ∈ s.messages) (hattempt : s.attemptOf asker = some (p, some stage))
    (hfail : stage.afterAnswer epoch ok = .inr last) (hnew : s'.attemptOf asker = none)
    (hothers : ∀ other, other ≠ asker → s'.attemptOf other = s.attemptOf other)
    (hlast : s'.lastAnswer = Function.update s.lastAnswer p (some last))
    (hasker : s'.asker = none) (hepoch : s'.epoch = s.epoch) (hdemands : s'.demands = s.demands) :
    s'.InHand q := by
  rcases h with ⟨other, hpicked⟩ | ⟨hlive, hall⟩
  · have hne : other ≠ asker := by
      rintro rfl
      exact absurd (hattempt.symm.trans hpicked) (by simp)
    exact .inl ⟨other, (hothers other hne).trans hpicked⟩
  · refine .inr ⟨?_, fun other stage' hother => ?_⟩
    · by_cases hpq : p = q
      · subst hpq
        obtain ⟨heq, hends⟩ := (hall asker stage hattempt).fail hask hno hmem hfail
        exact .inl ⟨by rw [hlast, Function.update_self, heq, hepoch], hdemands ▸ hends⟩
      · rcases hlive with ⟨hfresh, hends⟩ | ⟨other, stage', hother⟩
        · exact .inl ⟨by rw [hlast, Function.update_of_ne (Ne.symm hpq), hepoch, hfresh],
            hdemands ▸ hends⟩
        · have hne : other ≠ asker := by
            rintro rfl
            have := hattempt.symm.trans hother
            simp only [Option.some.injEq, Prod.mk.injEq] at this
            exact hpq this.1
          exact .inr ⟨other, stage', (hothers other hne).trans hother⟩
    · have hne : other ≠ asker := by
        rintro rfl
        exact absurd (hnew.symm.trans hother) (by simp)
      rw [hothers other hne] at hother
      exact (hall other stage' hother).release hasker hepoch hdemands

/-- A wake-up stays under way when a thread takes an answer that is not itself a wake-up. -/
lemma Called.answered {asker : Asker} {epoch : ℕ} {ok : Bool} {rest : List KmMessage}
    (h : s.Called) (hexchange : Exchange s) (hholder : s.holder = some (.awaiting asker))
    (hmessages : s.messages = .answer epoch ok :: rest) (hcompaction : asker ≠ .compaction)
    (hdelete : asker ≠ .user .deleteSegment) (hsuspend : asker = .user .suspendProcess → ok = false)
    (hnew : s'.messages = rest) (hending : s'.ending = s.ending)
    (htested : s'.endingTested = s.endingTested) (hsuspender : s'.suspender = s.suspender) :
    s'.Called := by
  rcases h with hnotice | hwill | ⟨hask, hok⟩ | hrest
  · refine .inl ?_
    rw [hmessages, List.mem_cons] at hnotice
    rw [hnew]
    exact hnotice.resolve_left (by simp)
  · rw [hholder, Option.any_some] at hwill
    simp only [KmHolder.willCall] at hwill
    split at hwill
    · simp_all
    · simp_all
    · simp_all
    · exact absurd hwill (by simp)
  · rw [hholder, Option.some.injEq, KmHolder.awaiting.injEq] at hask
    obtain rfl := hsuspend hask
    have hnone := (hexchange.only_answer hholder hmessages hcompaction).1
    rw [hmessages, List.any_cons, KmMessage.isOk, Bool.false_or, List.any_eq_true] at hok
    obtain ⟨m, hm, hmok⟩ := hok
    refine absurd (List.countP_eq_zero.1 hnone m hm) ?_
    cases m with
    | notice => exact absurd hmok (by simp [KmMessage.isOk])
    | answer _ _ => simp [KmMessage.isAnswer]
  · exact .inr (.inr (.inr (by rw [hending, htested, hsuspender]; exact hrest)))

/-- What keeps a process attended while a thread waits for the answer to a request: nobody is in the
middle of a compaction then. -/
lemma Attended.taken {p : ℕ} {asker : Asker} (h : s.Attended p)
    (hholder : s.holder = some (.awaiting asker)) (hcompaction : asker ≠ .compaction)
    (hlooks : s.Looks → s'.Looks) (hcalled : s.Called → s'.Called)
    (hhand : s.InHand p → s'.InHand p) : s'.Attended p := by
  rcases h with hold | hcompacting | hold | hold
  · exact .inl (hlooks hold)
  · rw [Compacting, hholder] at hcompacting
    cases asker with
    | compaction => exact absurd rfl hcompaction
    | _ => exact absurd hcompacting (by simp [KmHolder.compacts])
  · exact .inr (.inr (.inl (hcalled hold)))
  · exact .inr (.inr (.inr (hhand hold)))

/-- The process stays attended when a thread takes the answer of an attempt. -/
lemma FirstAttended.receive (h : s.FirstAttended) (hthreads : Threads s) (hexchange : Exchange s)
    (hst : s.receive = some s') : s'.FirstAttended := by
  rcases receive_cases hst with ⟨asker, rest, hholder, hmessages, rfl⟩ |
    ⟨asker, epoch, ok, rest, hholder, hmessages, rfl⟩
  · exact fun q _ => .inr (.inr (.inl (.inr (.inl rfl))))
  have hask : s.asker = some asker := by rw [Resuming.asker, hholder]; rfl
  have hmem : KmMessage.answer epoch ok ∈ s.messages := by rw [hmessages]; exact List.mem_cons_self
  set t : Resuming := { s with messages := rest } with ht
  have hcalled {u : Resuming} (hthread : asker = .resumer ∨ asker = .routine)
      (hmess : u.messages = rest) (hending : u.ending = s.ending)
      (htested : u.endingTested = s.endingTested) (hsuspender : u.suspender = s.suspender)
      (hcalled : s.Called) : u.Called := by
    have huser : ∀ kind, asker ≠ .user kind := by
      rintro kind rfl
      simp at hthread
    have hcompaction : asker ≠ .compaction := by
      rintro rfl
      simp at hthread
    exact hcalled.answered hexchange hholder hmessages hcompaction (huser _)
      (fun heq => absurd heq (huser _)) hmess hending htested hsuspender
  cases asker with
  | user kind =>
    rcases t.answered_user kind epoch ok with ⟨heq, hdelete, hsuspend⟩ | ⟨-, hactive⟩ | ⟨-, heq⟩ |
      ⟨-, heq⟩ | ⟨-, heq⟩
    · rw [heq]
      intro q hq
      exact (h q hq).taken hholder (by simp) id
        (fun hcalled => hcalled.answered hexchange hholder hmessages (by simp)
          (by simpa using hdelete) (by simpa using hsuspend) rfl rfl rfl rfl)
        fun hhand => hhand.mono (fun _ _ => Iff.rfl) rfl rfl id
          fun _ _ _ htimely => htimely.release rfl rfl rfl
    · have hflag := hthreads.compactionActive_eq_false hholder rfl
      exact absurd (hflag.symm.trans hactive) (by simp)
    · exact heq ▸ fun q _ => .inr (.inl rfl)
    · exact heq ▸ fun q _ => .inr (.inr (.inl (.inr (.inl rfl))))
    · exact heq ▸ fun q _ => .inr (.inr (.inl (.inr (.inr (.inr (.inr (.inr (by simp))))))))
  | compaction => exact fun q _ => .inr (.inl rfl)
  | resumer =>
    obtain ⟨p, stage, kind, hresumer, -⟩ := hexchange.resumer hask
    have hno := (hexchange.only_answer hholder hmessages (by simp)).2
    have hbusy {phase : ResumerPhase} (hfree : s.resumer.isFree = true) : phase.isFree = true := by
      rw [hresumer] at hfree
      exact absurd hfree (by simp [ResumerPhase.isFree])
    have hothers {u : Resuming} (hu : u.routine = s.routine) (other : Asker)
        (hother : other ≠ .resumer) : u.attemptOf other = s.attemptOf other := by
      cases other with
      | resumer => exact absurd rfl hother
      | routine => simp only [attemptOf, hu]
      | user _ => rfl
      | compaction => rfl
    intro q hq
    rcases answered_resumer (s := t) hresumer epoch ok with ⟨next, hnext, heq⟩ | ⟨last, hlast, heq⟩
    · rw [heq] at hq ⊢
      exact (h q hq).taken hholder (by simp) (fun hlooks => hlooks.mono hbusy id .inr id)
        (hcalled (.inl rfl) rfl rfl rfl rfl)
        fun hhand => hhand.goOn hask hno hmem (attemptOf_resumer.2 hresumer) hnext rfl
          (hothers rfl) rfl rfl rfl rfl
    · rw [heq] at hq ⊢
      exact (h q hq).taken hholder (by simp) (fun hlooks => hlooks.mono hbusy id .inr id)
        (hcalled (.inl rfl) rfl rfl rfl rfl)
        fun hhand => hhand.fail hask hno hmem (attemptOf_resumer.2 hresumer) hlast rfl
          (hothers rfl) rfl rfl rfl rfl
  | routine =>
    obtain ⟨p, stage, kind, hroutine, -⟩ := hexchange.routine hask
    have hno := (hexchange.only_answer hholder hmessages (by simp)).2
    have hbusy {next : Option RoutinePhase} (hlooks : s.routine.any RoutinePhase.looks = true) :
        next.any RoutinePhase.looks = true := by
      rw [hroutine] at hlooks
      exact absurd hlooks (by simp [RoutinePhase.looks])
    have hothers {u : Resuming} (hu : u.resumer = s.resumer) (other : Asker)
        (hother : other ≠ .routine) : u.attemptOf other = s.attemptOf other := by
      cases other with
      | resumer => simp only [attemptOf, hu]
      | routine => exact absurd rfl hother
      | user _ => rfl
      | compaction => rfl
    intro q hq
    rcases answered_routine (s := t) hroutine epoch ok with ⟨next, hnext, heq⟩ | ⟨last, hlast, heq⟩
    · rw [heq] at hq ⊢
      exact (h q hq).taken hholder (by simp)
        (fun hlooks => hlooks.mono id id (fun _ => .inr (.inl rfl)) hbusy)
        (hcalled (.inr rfl) rfl rfl rfl rfl)
        fun hhand => hhand.goOn hask hno hmem (attemptOf_routine.2 hroutine) hnext rfl
          (hothers rfl) rfl rfl rfl rfl
    · rw [heq] at hq ⊢
      exact (h q hq).taken hholder (by simp)
        (fun hlooks => hlooks.mono id id (fun _ => .inr (.inl rfl)) hbusy)
        (hcalled (.inr rfl) rfl rfl rfl rfl)
        fun hhand => hhand.fail hask hno hmem (attemptOf_routine.2 hroutine) hlast rfl
          (hothers rfl) rfl rfl rfl rfl

/-- Kernel Memory serves a request that makes room: its sender will make a call. -/
lemma Exchange.called_of_makesRoom (h : Exchange s) {kind : RequestKind} {ok : Bool} {epoch : ℕ}
    (hkind : .request kind ∈ s.demands) (hroom : makesRoom kind ok = true)
    (hholder : s'.holder = s.holder) (hmessages : .answer epoch ok ∈ s'.messages) : s'.Called := by
  simp only [makesRoom, Bool.or_eq_true, Bool.and_eq_true, decide_eq_true_eq] at hroom
  have hask := h.room kind hkind (hroom.imp_right And.left)
  simp only [asker, Option.bind_eq_some_iff] at hask
  obtain ⟨holder, hold, hask⟩ := hask
  have hnew : s'.holder = some holder := hholder.trans hold
  cases holder with
  | noticed asker => exact .inr (.inl (by rw [hnew]; rfl))
  | awaiting asker =>
    obtain rfl : asker = .user kind := Option.some.inj hask
    rcases hroom with rfl | ⟨rfl, rfl⟩
    · exact .inr (.inl (by rw [hnew]; rfl))
    · exact .inr (.inr (.inl ⟨hnew, List.any_eq_true.2 ⟨_, hmessages, rfl⟩⟩))
  | _ => exact absurd hask (by simp [KmHolder.asker])

/-- Over a request that Kernel Memory serves. -/
lemma FirstAttended.serve {ok : Bool} (h : s.FirstAttended) (hexchange : Exchange s)
    (hst : s.serve ok = some s') : s'.FirstAttended := by
  intro q hq
  have hcount := hexchange.count
  have hfifo := hexchange.fifo
  rcases serve_cases hst with ⟨kind, rest, epoch, hdemands, hepoch, rfl⟩ | ⟨rest, hdemands, rfl⟩ |
    ⟨d, rest, epoch, hdemands, hzero, rfl, hepoch⟩
  · rw [hdemands, List.map_cons, List.sum_cons] at hcount
    simp only [Demand.replies] at hcount
    by_cases hroom : makesRoom kind ok = true
    · refine .inr (.inr (.inl (hexchange.called_of_makesRoom (by rw [hdemands]; simp) hroom rfl
        (?_ : KmMessage.answer epoch ok ∈ _))))
      simp
    · rw [if_neg hroom] at hepoch
      subst hepoch
      have hempty : rest = [] := by
        rw [hdemands, List.pairwise_cons] at hfifo
        exact List.eq_nil_iff_forall_not_mem.2 fun d hd =>
          absurd (hfifo.1 d hd) (by simp [Demand.replies])
      rcases h q hq with hlooks | hcompacting | hcalled | hhand
      · exact .inl hlooks
      · exact .inr (.inl hcompacting)
      · exact .inr (.inr (.inl (hcalled.mono (by simp +contextual) rfl
          (fun hok => by rw [List.any_append, hok]; rfl) le_rfl le_rfl rfl)))
      · refine .inr (.inr (.inr (hhand.mono (fun _ _ => Iff.rfl) rfl rfl (by simp [hempty])
          fun asker stage hattempt htimely => ?_)))
        -- the answer is the only one that is under way, and nothing is behind the request
        have hdecided (hask : s.asker = some asker) : ∀ epoch' ok',
            KmMessage.answer epoch' ok' ∈ s.messages ++ [.answer s.epoch ok] →
              epoch' = s.epoch := by
          intro epoch' ok' hin
          rcases List.mem_append.1 hin with hold | hnew
          · have hone := expectedAnswers_of_asker hask (by
              rintro rfl
              exact absurd hattempt (by simp [attemptOf]))
            have hpos := List.countP_pos_iff.2 ⟨_, hold, (rfl : KmMessage.isAnswer _ = true)⟩
            omega
          · rw [List.mem_singleton, KmMessage.answer.injEq] at hnew
            exact hnew.1
        have hnone : Demand.endProcess true ∉ rest := by simp [hempty]
        cases stage with
        | query =>
          by_cases hask : s.asker = some asker
          · exact .inr (.inr ⟨hdecided hask, hnone⟩)
          · exact .inl hask
        | secondQuery answered => exact ⟨htimely.1, hnone⟩
        | resume =>
          by_cases hask : s.asker = some asker
          · exact .inr (.inr ⟨hdecided hask, hnone⟩)
          · exact .inl hask
        | taking => trivial
  · -- the demand is that of a compaction
    refine .inr (.inl ?_)
    rw [hdemands, List.map_cons, List.sum_cons] at hcount
    simp only [Demand.replies] at hcount
    show s.holder.any KmHolder.compacts = true
    cases hholder : s.holder with
    | none =>
      rw [hholder] at hcount
      simp only [expectedAnswers] at hcount
      omega
    | some holder =>
      rw [hholder] at hcount
      cases holder with
      | awaiting asker | noticed asker =>
        cases asker <;> first | rfl | (simp only [expectedAnswers] at hcount; omega)
      | _ => simp only [expectedAnswers] at hcount; omega
  · have hpending : (∃ d ∈ s.demands, d.replies ≠ 0) → ∃ d ∈ rest, d.replies ≠ 0 := by
      rintro ⟨d, hd, hreplies⟩
      rw [hdemands, List.mem_cons] at hd
      rcases hd with rfl | hd
      · exact absurd hzero hreplies
      · exact ⟨d, hd, hreplies⟩
    have hends : Demand.endProcess true ∈ rest → Demand.endProcess true ∈ s.demands :=
      fun hmem => hdemands ▸ List.mem_cons_of_mem _ hmem
    rcases h q hq with hlooks | hcompacting | hcalled | hhand
    · exact .inl hlooks
    · exact .inr (.inl hcompacting)
    · exact .inr (.inr (.inl hcalled))
    · refine .inr (.inr (.inr ?_))
      rcases hepoch with rfl | ⟨-, rfl⟩
      · -- what is decided is decided behind the end of the process
        have hmem : Demand.endProcess true ∈ s.demands := hdemands ▸ List.mem_cons_self
        rcases hhand with hpicked | ⟨hlive, hall⟩
        · exact .inl hpicked
        · refine .inr ⟨.inr (hlive.resolve_left fun hfresh => hfresh.2 hmem),
            fun asker stage hattempt => ?_⟩
          have hdecided (hold : s.asker ≠ some asker ∨ (∃ d ∈ s.demands, d.replies ≠ 0) ∨
              (∀ epoch ok, KmMessage.answer epoch ok ∈ s.messages → epoch = s.epoch) ∧
                Demand.endProcess true ∉ s.demands) :
              s.asker ≠ some asker ∨ (∃ d ∈ rest, d.replies ≠ 0) := by
            rcases hold with hne | hold | ⟨-, hno⟩
            · exact .inl hne
            · exact .inr (hpending hold)
            · exact absurd hmem hno
          have htimely := hall asker stage hattempt
          cases stage with
          | query => exact (hdecided htimely).imp_right .inl
          | secondQuery answered => exact absurd hmem htimely.2
          | resume => exact (hdecided htimely).imp_right .inl
          | taking => trivial
      · exact hhand.mono (fun _ _ => Iff.rfl) rfl rfl hends fun _ _ _ htimely =>
          htimely.mono rfl hends fun hask => .inr ⟨hask, hpending, fun _ _ => id⟩

/-! ## The other steps -/

/-- Over the end of a call. -/
lemma FirstAttended.tailStep (h : s.FirstAttended) (hst : s.tailStep = some s') :
    s'.FirstAttended := by
  simp only [Resuming.tailStep] at hst
  intro q hq
  split at hst
  · exact absurd hst (by simp)
  · cases hst
    obtain ⟨state, heq, hstate⟩ := s.unlockResumer_eq
    rw [heq] at hq ⊢
    rcases h q hq with hlooks | hcompacting | hcalled | hhand
    · exact .inl (hlooks.mono id (fun hblocked => absurd hblocked hstate)
        (fun _ => .inl hstate) id)
    · exact .inr (.inl hcompacting)
    · exact .inr (.inr (.inl hcalled))
    · exact .inr (.inr (.inr hhand))
  · rename_i hleaving
    cases hst
    rcases h q hq with hlooks | hcompacting | hcalled | hhand
    · refine .inl (hlooks.mono id id (fun hcomes => ?_) id)
      rcases hcomes with hresume | htail
      · exact .inr (.inl hresume)
      · rw [hleaving] at htail
        exact absurd htail (by simp)
    · exact .inr (.inl hcompacting)
    · exact .inr (.inr (.inl hcalled))
    · exact .inr (.inr (.inr hhand))

/-- A suspension puts its process where it is attended, where it is heeded. -/
lemma firstAttended_suspenderStep (hthreads : Threads s)
    (hheeded : s.Heeded .suspender) (hst : s.suspenderStep = some s') : s'.FirstAttended := by
  simp only [Resuming.suspenderStep] at hst
  intro q hq
  split at hst
  · exact absurd hst (by simp)
  · cases hst
    cases hactive : s.compactionActive with
    | true => exact .inr (.inl (hthreads.compacting hactive))
    | false => exact .inr (.inr (.inl (.inr (.inr (.inr (.inr (.inr (by simp))))))))
  · rename_i htesting
    cases hst
    cases hresume : s.resumeActive with
    | false => exact .inr (.inr (.inl (.inr (.inr (.inr (.inr (.inr (by simp))))))))
    | true =>
      rcases hheeded (.inl ⟨htesting, hresume⟩) q hq with hlooks | hcompacting | htakes
      · exact .inl hlooks
      · exact .inr (.inl hcompacting)
      · exact .inr (.inr (.inr (TakesUp.inHand hthreads htakes : s.InHand q)))
  · rename_i hunlocking
    cases hst
    obtain ⟨state, heq, hstate⟩ := s.unlockResumer_eq
    rw [heq] at hq ⊢
    by_cases hfree : s.resumer.isFree = true
    · exact .inl (.inl ⟨hfree, .inl hstate⟩)
    · rcases hheeded (.inr ⟨hunlocking, by simpa using hfree⟩) q hq with
        hlooks | hcompacting | htakes
      · exact .inl (hlooks.mono id (fun hblocked => absurd hblocked hstate)
          (fun _ => .inl hstate) id)
      · exact .inr (.inl hcompacting)
      · exact .inr (.inr (.inr (TakesUp.inHand hthreads htakes : s.InHand q)))

/-- A process arrives: the first one is the same, or it is the new one. -/
lemma head?_insertPcbSorted (pcbs : ℕ → Pcb) (p : ℕ) (list : List ℕ) :
    (insertPcbSorted pcbs p list).2.head? = some p ∨
      (insertPcbSorted pcbs p list).2.head? = list.head? := by
  by_cases hzero : (insertPcbSorted pcbs p list).1 = 0
  · left
    rw [insertPcbSorted] at hzero ⊢
    rw [listAddSorted_of_index_eq_zero _ _ hzero]
    rfl
  · obtain ⟨y, hold, hnew, -⟩ := head?_listAddSorted_of_index_ne_zero _ _ hzero
    exact .inr (hnew.trans hold.symm)

/-- A process stays attended when SUSP. READY grows and the resumer may be woken up. -/
lemma Attended.arrive (h : s.Attended p) (list : List ℕ) (phase : ResumerPhase)
    (hphase : phase = s.resumer ∨ s.resumer = .parked ∧ phase = .woken) :
    ({ s with resumer := phase, suspReady := list } : Resuming).Attended p := by
  have hfree : s.resumer.isFree = true → phase.isFree = true := by
    rcases hphase with rfl | ⟨-, rfl⟩
    · exact id
    · exact fun _ => rfl
  have hattempt : phase.attempt = s.resumer.attempt := by
    rcases hphase with rfl | ⟨hparked, rfl⟩
    · rfl
    · rw [hparked]
      rfl
  rcases h with hlooks | hcompacting | hcalled | hhand
  · exact .inl (hlooks.mono hfree id .inr id)
  · exact .inr (.inl hcompacting)
  · exact .inr (.inr (.inl hcalled))
  · exact .inr (.inr (.inr (hhand.frame (attemptOf_congr hattempt rfl) rfl rfl rfl rfl rfl)))

/-- A process stays attended when a message is sent that makes no room. -/
lemma Attended.notify {d : Demand} (h : s.Attended p) (hfree : s.holder = none)
    (hd : d ≠ .endProcess true) :
    ({ s with demands := s.demands ++ [d] } : Resuming).Attended p := by
  rcases h with hlooks | hcompacting | hcalled | hhand
  · exact .inl hlooks
  · exact .inr (.inl hcompacting)
  · exact .inr (.inr (.inl hcalled))
  · have hends : Demand.endProcess true ∈ s.demands ++ [d] →
        Demand.endProcess true ∈ s.demands := by
      simp [Ne.symm hd]
    refine .inr (.inr (.inr (hhand.mono (fun _ _ => Iff.rfl) rfl rfl hends
      fun _ _ _ htimely => htimely.mono rfl hends fun hask => ?_)))
    exact absurd ((asker_eq_none hfree).symm.trans hask) (by simp)

/-- **A heeded step keeps the first process attended.** -/
lemma FirstAttended.step {a : Action} (h : s.FirstAttended) (hthreads : Threads s)
    (hexchange : Exchange s) (hheeded : s.Heeded a) (hst : s.step a = some s') :
    s'.FirstAttended := by
  have hnew := hthreads.step hexchange hst
  cases a with
  | resumer => exact h.resumerStep hthreads hexchange hst
  | routine => exact h.routineStep hthreads hexchange hst
  | tail => exact h.tailStep hst
  | suspender => exact firstAttended_suspenderStep hthreads hheeded hst
  | endTest =>
    simp only [Resuming.step, Option.ite_none_right_eq_some, Option.some.injEq] at hst
    obtain ⟨-, rfl⟩ := hst
    intro q hq
    cases hactive : s.compactionActive with
    | true => exact .inr (.inl (hthreads.compacting hactive))
    | false => exact .inr (.inr (.inl (.inr (.inr (.inr (.inr (.inl (by simp))))))))
  | endCall =>
    simp only [Resuming.step, Option.ite_none_right_eq_some, Option.some.injEq] at hst
    obtain ⟨-, rfl⟩ := hst
    intro q hq
    rcases s.setIsResuming_eq with ⟨-, heq⟩ | ⟨hresume, heq⟩
    · rw [heq]
      exact .inl (.inr rfl)
    · rw [heq] at hq ⊢
      rcases hheeded hresume q hq with hlooks | hcompacting | htakes
      · exact .inl hlooks
      · exact .inr (.inl hcompacting)
      · exact .inr (.inr (.inr (TakesUp.inHand hthreads htakes : s.InHand q)))
  | receive => exact h.receive hthreads hexchange hst
  | holder => exact h.holderStep hthreads hheeded hst
  | serve ok => exact h.serve hexchange hst
  | addTotalMemory =>
    simp only [Resuming.step, Option.ite_none_right_eq_some, Option.some.injEq] at hst
    obtain ⟨-, rfl⟩ := hst
    intro q hq
    rcases hheeded q hq with hlooks | hcompacting | hcalled | htakes
    · exact .inl hlooks
    · exact .inr (.inl hcompacting)
    · exact .inr (.inr (.inl hcalled))
    · exact .inr (.inr (.inr (TakesUp.inHand hnew htakes)))
  | request kind =>
    simp only [Resuming.step, Option.ite_none_right_eq_some] at hst
    obtain ⟨-, hask⟩ := hst
    intro q hq
    obtain ⟨-, rfl⟩ := ask_eq_some hask
    exact (h q hq).ask hask
  | endProcess sized =>
    simp only [Resuming.step, Option.ite_none_right_eq_some, Option.some.injEq] at hst
    obtain ⟨hfree, rfl⟩ := hst
    intro q hq
    cases sized with
    | true => exact .inr (.inr (.inl (.inr (.inr (.inr (.inl (by simp)))))))
    | false => exact (h q hq).notify (d := .endProcess false) hfree (by simp)
  | ping =>
    simp only [Resuming.step, Option.ite_none_right_eq_some, Option.some.injEq] at hst
    obtain ⟨hfree, rfl⟩ := hst
    exact fun q hq => (h q hq).notify (d := .running) hfree (by simp)
  | toSuspReady pcbs p =>
    simp only [Resuming.step, Option.ite_none_right_eq_some, Option.some.injEq] at hst
    obtain ⟨-, rfl⟩ := hst
    intro q hq
    have hattended : s.Attended q := by
      rcases head?_insertPcbSorted pcbs p s.suspReady with hfirst | hsame
      · obtain rfl : p = q := Option.some.inj (hfirst.symm.trans hq)
        rcases hheeded.1 hfirst with hlooks | hcompacting | hcalled | htakes
        · exact .inl hlooks
        · exact .inr (.inl hcompacting)
        · exact .inr (.inr (.inl hcalled))
        · exact .inr (.inr (.inr (TakesUp.inHand hthreads htakes)))
      · exact h q (hsame.symm.trans hq)
    split
    · obtain ⟨phase, heq, -, hphase⟩ := s.signalProcess_eq
      rw [heq]
      exact hattended.arrive _ phase hphase
    · exact hattended.arrive _ s.resumer (.inl rfl)
  | newMemoryStick =>
    simp only [Resuming.step, Option.ite_none_left_eq_some, Option.some.injEq] at hst
    obtain ⟨-, rfl⟩ := hst
    exact fun q _ => .inr (.inr (.inl (.inl (by simp))))
  | spurious =>
    simp only [Resuming.step, Option.ite_none_right_eq_some, Option.some.injEq] at hst
    obtain ⟨hparked, rfl⟩ := hst
    exact fun q hq => (h q hq).arrive s.suspReady .woken (.inr ⟨hparked, rfl⟩)

/-! ## The notices -/

/-- Who will read the connection still will, if the demands stay and the attempts go on. -/
lemma ReaderComes.mono (h : s.ReaderComes)
    (hdemands : (∃ d ∈ s.demands, d.replies ≠ 0) → ∃ d ∈ s'.demands, d.replies ≠ 0)
    (hholder : s.holder ∈ [some .entering, some .locking, some .asking] →
      s'.holder ∈ [some .entering, some .locking, some .asking])
    (hattempt : ∀ asker p stage, s.attemptOf asker = some (p, some stage) →
      stage.willAsk (s.asker = some asker) = true → ∃ q next,
        s'.attemptOf asker = some (q, some next) ∧
          next.willAsk (s'.asker = some asker) = true) : s'.ReaderComes := by
  rcases h with hpending | hcompacts | ⟨asker, hasker, ⟨p, attempt⟩, hmem, hwill⟩
  · left
    simp only [List.any_eq_true, decide_eq_true_eq] at hpending ⊢
    exact hdemands hpending
  · exact .inr (.inl (hholder hcompacts))
  · obtain ⟨stage, rfl, hwill⟩ := (Option.any_eq_true _ _).1 hwill
    obtain ⟨q, next, hnext, hwill'⟩ := hattempt asker p stage hmem hwill
    exact .inr (.inr ⟨asker, hasker, (q, some next), hnext, hwill'⟩)

/-- The connection stays as it is, and no attempt that goes on with a request ends. -/
lemma ReaderComes.frame (h : s.ReaderComes) (hdemands : s'.demands = s.demands)
    (hholder : s'.holder = s.holder)
    (hresumer : ∀ p stage, s.resumer = .attempting p stage → stage ≠ .taking →
      s'.resumer = s.resumer)
    (hroutine : ∀ p stage, s.routine = some (.attempting p stage) → stage ≠ .taking →
      s'.routine = s.routine) : s'.ReaderComes := by
  refine h.mono (by rw [hdemands]; exact id) (by rw [hholder]; exact id)
    fun asker p stage hattempt hwill => ⟨p, stage, ?_, ?_⟩
  · have hne : stage ≠ .taking := by
      rintro rfl
      exact absurd hwill (by simp [AttemptStage.willAsk, AttemptStage.request])
    rw [← hattempt]
    cases asker with
    | resumer => rw [attemptOf, attemptOf, hresumer p stage (attemptOf_resumer.1 hattempt) hne]
    | routine => rw [attemptOf, attemptOf, hroutine p stage (attemptOf_routine.1 hattempt) hne]
    | user _ => rfl
    | compaction => rfl
  · rw [Resuming.asker, hholder]
    exact hwill

/-- A request that is to be answered has been sent. -/
lemma ReaderComes.of_sent {d : Demand} (hdemands : s'.demands = s.demands ++ [d])
    (hreplies : d.replies ≠ 0) : s'.ReaderComes := by
  left
  rw [hdemands, List.any_append, Bool.or_eq_true]
  right
  simpa using hreplies

/-- A step that leaves the messages alone. -/
lemma NoticesRead.frame (h : s.NoticesRead) (hmessages : s'.messages = s.messages)
    (hreader : s.ReaderComes → s'.ReaderComes) : s'.NoticesRead := by
  intro hnotice
  rw [hmessages] at hnotice ⊢
  exact (h hnotice).imp_left hreader

/-- Somebody still comes to read the notices after a step of the resumption thread. -/
lemma NoticesRead.resumerStep (h : s.NoticesRead) (hst : s.resumerStep = some s') :
    s'.NoticesRead := by
  have hfree {p : ℕ} {stage : AttemptStage} (hf : s.resumer.isFree = true)
      (hresumer : s.resumer = .attempting p stage) : s'.resumer = s.resumer := by
    rw [hresumer] at hf
    exact absurd hf (by simp [ResumerPhase.isFree])
  rcases resumerStep_cases hst with ⟨phase, state, rfl, hf, -⟩ | ⟨p, rfl, hf, -⟩ |
    ⟨p, hpicked, -, rfl⟩ | ⟨p, stage, kind, -, -, -, rfl⟩ | ⟨p, htaking, rfl⟩ | ⟨hfailed, rfl⟩
  · exact h.frame rfl fun hreader => hreader.frame rfl rfl (fun _ _ heq _ => hfree hf heq)
      fun _ _ _ _ => rfl
  · exact h.frame rfl fun hreader => hreader.frame rfl rfl (fun _ _ heq _ => hfree hf heq)
      fun _ _ _ _ => rfl
  · exact h.frame rfl fun hreader => hreader.frame rfl rfl
      (fun _ _ heq _ => absurd (hpicked.symm.trans heq) (by simp)) fun _ _ _ _ => rfl
  · exact h.frame rfl fun _ => .of_sent (d := .request kind) rfl (by simp [Demand.replies])
  · refine h.frame rfl fun hreader => hreader.frame rfl rfl (fun q stage heq hne => ?_)
      fun _ _ _ _ => rfl
    exact absurd (ResumerPhase.attempting.inj (htaking.symm.trans heq)).2.symm hne
  · exact h.frame rfl fun hreader => hreader.frame rfl rfl
      (fun _ _ heq _ => absurd (hfailed.symm.trans heq) (by simp)) fun _ _ _ _ => rfl

/-- After one of the resumption routine. -/
lemma NoticesRead.routineStep (h : s.NoticesRead) (hst : s.routineStep = some s') :
    s'.NoticesRead := by
  have hidle {phase : RoutinePhase} (hphase : s.routine = some phase)
      (hne : ∀ p stage, stage ≠ AttemptStage.taking → phase ≠ .attempting p stage)
      (hresumer : ∀ p stage, s.resumer = .attempting p stage → s'.resumer = s.resumer)
      (hdemands : s'.demands = s.demands) (hholder : s'.holder = s.holder)
      (hmessages : s'.messages = s.messages) : s'.NoticesRead := by
    refine h.frame hmessages fun hreader => hreader.frame hdemands hholder
      (fun p stage heq _ => hresumer p stage heq) fun p stage heq hstage => ?_
    exact absurd (Option.some.inj (hphase.symm.trans heq)) (hne p stage hstage)
  rcases routineStep_cases hst with ⟨hcreated, -, rfl⟩ | ⟨hentered, rfl⟩ |
    ⟨phase, next, hphase, rfl, -, hnext⟩ | ⟨phase, hphase, rfl, hnext⟩ | ⟨p, hremoving, -, rfl⟩ |
    ⟨p, hpicked, -, -, rfl⟩ | ⟨p, stage, kind, -, -, -, rfl⟩ | ⟨p, htaking, rfl⟩ |
    ⟨hclearing, rfl⟩
  · exact hidle hcreated (by simp) (fun _ _ _ => rfl) rfl rfl rfl
  · obtain ⟨phase, heq, hphase⟩ := s.lockResumer_eq
    rw [heq] at hidle ⊢
    refine hidle hentered (by simp) (fun p stage hresumer => ?_) rfl rfl rfl
    rcases hphase with rfl | ⟨hparked, -⟩
    · rfl
    · exact absurd (hparked.symm.trans hresumer) (by simp)
  · refine hidle hphase ?_ (fun _ _ _ => rfl) rfl rfl rfl
    rcases hnext with ⟨rfl, -⟩ | ⟨rfl, -⟩ | ⟨⟨p, rfl, -⟩, -⟩ <;> simp
  · refine hidle hphase ?_ (fun _ _ _ => rfl) rfl rfl rfl
    rcases hnext with ⟨rfl, -⟩ | ⟨rfl, -⟩ <;> simp
  · exact hidle hremoving (by simp) (fun _ _ _ => rfl) rfl rfl rfl
  · exact hidle hpicked (by simp) (fun _ _ _ => rfl) rfl rfl rfl
  · exact h.frame rfl fun _ => .of_sent (d := .request kind) rfl (by simp [Demand.replies])
  · refine hidle htaking (fun q stage hne heq => ?_) (fun _ _ _ => rfl) rfl rfl rfl
    exact hne (RoutinePhase.attempting.inj heq).2.symm
  · exact hidle hclearing (by simp) (fun _ _ _ => rfl) rfl rfl rfl

/-- An attempt that will ask does so also where less has to be asked. -/
lemma AttemptStage.willAsk_mono {stage : AttemptStage} {asks asks' : Prop} [Decidable asks]
    [Decidable asks'] (h : stage.willAsk asks = true) (hasks : asks' → asks) :
    stage.willAsk asks' = true := by
  simp only [AttemptStage.willAsk, Bool.or_eq_true, decide_eq_true_eq, Bool.and_eq_true,
    Bool.not_eq_true', decide_eq_false_iff_not] at h ⊢
  exact h.imp_right (And.imp_left fun hnot hask => hnot (hasks hask))

/-- Somebody still comes to read the notices after a step of whoever has the socket. -/
lemma NoticesRead.holderStep (h : s.NoticesRead) (hst : s.holderStep = some s') :
    s'.NoticesRead := by
  have hrest (hmessages : s'.messages = s.messages) (hdemands : s'.demands = s.demands)
      (hnot : s.holder ∉ [some KmHolder.entering, some .locking, some .asking])
      (hattempt : ∀ asker attempt, s.attemptOf asker = some attempt →
        s'.attemptOf asker = some attempt)
      (hasker : ∀ asker p stage, s.attemptOf asker = some (p, some stage) →
        s'.asker = some asker → s.asker = some asker) : s'.NoticesRead :=
    h.frame hmessages fun hreader => hreader.mono (by rw [hdemands]; exact id)
      (fun hin => absurd hin hnot) fun asker p stage hold hwill =>
        ⟨p, stage, hattempt asker _ hold, AttemptStage.willAsk_mono hwill (hasker asker p stage hold)⟩
  rcases holderStep_cases hst with ⟨-, -, rfl⟩ | ⟨-, rfl⟩ | ⟨-, rfl⟩ | ⟨hclearing, rfl⟩ |
    ⟨hleaving, rfl⟩ | ⟨holder, holder', hholder, rfl, hcall⟩
  · exact h.frame rfl fun _ => .inr (.inl (by simp))
  · obtain ⟨phase, heq, -⟩ := s.lockResumer_eq
    rw [heq]
    exact h.frame rfl fun _ => .inr (.inl (by simp))
  · exact h.frame rfl fun _ => .of_sent (d := .canCompact) rfl (by simp [Demand.replies])
  · exact hrest rfl rfl (by simp [hclearing]) (fun _ _ => id) fun _ _ _ _ hask =>
      absurd hask (by simp [Resuming.asker, KmHolder.asker])
  · refine hrest rfl rfl (by simp [hleaving]) (fun _ _ => id) fun asker _ _ hattempt hask => ?_
    cases hask
    exact absurd hattempt (by simp [attemptOf])
  · have hasker : holder'.bind KmHolder.asker = s.asker := by
      rw [Resuming.asker, hholder]
      rcases hcall with ⟨asker, rfl, rfl⟩ | ⟨rfl, rfl⟩ | ⟨rfl, rfl⟩ <;> rfl
    have hnot : s.holder ∉ [some KmHolder.entering, some .locking, some .asking] := by
      rw [hholder]
      rcases hcall with ⟨asker, rfl, rfl⟩ | ⟨rfl, rfl⟩ | ⟨rfl, rfl⟩ <;> simp
    rcases s.createResumptionRoutineThread_eq with ⟨hnone, heq⟩ | ⟨heq, -⟩
    · rw [heq] at hrest ⊢
      refine hrest rfl rfl hnot (fun asker attempt hattempt => ?_) fun asker _ _ _ hask =>
        hasker ▸ hask
      cases asker with
      | routine => exact absurd hattempt (by simp [attemptOf, hnone])
      | _ => exact hattempt
    · rw [heq] at hrest ⊢
      exact hrest rfl rfl hnot (fun _ _ => id) fun asker _ _ _ hask => hasker ▸ hask

/-- The last message is still the last one when the first has been read. -/
lemma getLast?_tail {m : KmMessage} {rest : List KmMessage} (hrest : rest ≠ []) :
    (m :: rest).getLast? = rest.getLast? := by
  obtain ⟨m', rest', rfl⟩ := List.exists_cons_of_ne_nil hrest
  rfl

/-- After a message is read. -/
lemma NoticesRead.receive (h : s.NoticesRead) (hthreads : Threads s) (hexchange : Exchange s)
    (hst : s.receive = some s') : s'.NoticesRead := by
  rcases receive_cases hst with ⟨asker, rest, hholder, hmessages, rfl⟩ |
    ⟨asker, epoch, ok, rest, hholder, hmessages, rfl⟩
  · have hask : s.asker = some asker := by rw [Resuming.asker, hholder]; rfl
    intro hnotice
    have hlast := h (by rw [hmessages]; exact List.mem_cons_self)
    rw [hmessages, getLast?_tail (List.ne_nil_of_mem hnotice)] at hlast
    refine hlast.imp_left fun hreader => hreader.mono id (fun hin => ?_)
      fun asker' p stage hattempt hwill => ⟨p, stage, hattempt, ?_⟩
    · rw [hholder] at hin
      exact absurd hin (by simp)
    · rw [hask] at hwill
      exact hwill
  have hask : s.asker = some asker := by rw [Resuming.asker, hholder]; rfl
  set t : Resuming := { s with messages := rest } with ht
  -- whoever else would read still will, and the thread itself if its attempt goes on
  have hrest {u : Resuming} (hmess : u.messages = rest) (hdemands : u.demands = s.demands)
      (hnone : u.asker = none) (hother : ∀ other attempt, other ≠ asker →
        s.attemptOf other = some attempt → u.attemptOf other = some attempt)
      (hown : ∀ p stage, s.attemptOf asker = some (p, some stage) →
        stage.willAsk true = true → ∃ q next, u.attemptOf asker = some (q, some next) ∧
          next.willAsk false = true) : u.NoticesRead := by
    intro hnotice
    rw [hmess] at hnotice ⊢
    have hlast := h (by rw [hmessages]; exact List.mem_cons_of_mem _ hnotice)
    rw [hmessages, getLast?_tail (List.ne_nil_of_mem hnotice)] at hlast
    refine hlast.imp_left fun hreader => hreader.mono (by rw [hdemands]; exact id) (fun hin => ?_)
      fun asker' p stage hattempt hwill => ?_
    · rw [hholder] at hin
      exact absurd hin (by simp)
    · by_cases hsame : asker' = asker
      · subst hsame
        simp only [hask, hnone, reduceCtorEq, decide_true, decide_false] at hwill ⊢
        exact hown p stage hattempt hwill
      · refine ⟨p, stage, hother asker' _ hsame hattempt, AttemptStage.willAsk_mono hwill ?_⟩
        rw [hnone]
        simp
  cases asker with
  | user kind =>
    have huser {u : Resuming} (hmess : u.messages = rest) (hdemands : u.demands = s.demands)
        (hnone : u.asker = none) (hattempt : ∀ other, u.attemptOf other = s.attemptOf other) :
        u.NoticesRead :=
      hrest hmess hdemands hnone (fun other _ _ hold => (hattempt other).trans hold)
        fun _ _ hold => absurd hold (by simp [attemptOf])
    rcases t.answered_user kind epoch ok with ⟨heq, -⟩ | ⟨-, hactive⟩ | ⟨-, heq⟩ | ⟨-, heq⟩ |
      ⟨-, heq⟩
    · exact heq ▸ huser rfl rfl rfl fun _ => rfl
    · have hflag := hthreads.compactionActive_eq_false hholder rfl
      exact absurd (hflag.symm.trans hactive) (by simp)
    · exact heq ▸ huser rfl rfl rfl fun _ => rfl
    · exact heq ▸ huser rfl rfl rfl fun _ => rfl
    · exact heq ▸ huser rfl rfl rfl fun _ => rfl
  | compaction =>
    exact hrest rfl rfl rfl (fun _ _ _ => id) fun _ _ hold => absurd hold (by simp [attemptOf])
  | resumer =>
    obtain ⟨p, stage, kind, hresumer, hkind⟩ := hexchange.resumer hask
    have hown (q : ℕ) (stage' : AttemptStage)
        (hattempt : s.attemptOf .resumer = some (q, some stage')) : p = q ∧ stage = stage' :=
      ResumerPhase.attempting.inj (hresumer.symm.trans (attemptOf_resumer.1 hattempt))
    rcases answered_resumer (s := t) hresumer epoch ok with ⟨next, hnext, heq⟩ | ⟨last, hlast, heq⟩
    · rw [heq]
      refine hrest rfl rfl rfl (fun other _ hne hold => ?_) fun q stage' hattempt hwill => ?_
      · cases other <;> first | exact absurd rfl hne | exact hold
      · obtain ⟨rfl, rfl⟩ := hown q stage' hattempt
        obtain rfl : stage = .query := by simpa [AttemptStage.willAsk] using hwill
        cases hnext
        exact ⟨p, _, rfl, rfl⟩
    · rw [heq]
      refine hrest rfl rfl rfl (fun other _ hne hold => ?_) fun q stage' hattempt hwill => ?_
      · cases other <;> first | exact absurd rfl hne | exact hold
      · obtain ⟨rfl, rfl⟩ := hown q stage' hattempt
        obtain rfl : stage = .query := by simpa [AttemptStage.willAsk] using hwill
        exact absurd hlast (by simp [AttemptStage.afterAnswer])
  | routine =>
    obtain ⟨p, stage, kind, hroutine, hkind⟩ := hexchange.routine hask
    have hown (q : ℕ) (stage' : AttemptStage)
        (hattempt : s.attemptOf .routine = some (q, some stage')) : p = q ∧ stage = stage' :=
      RoutinePhase.attempting.inj
        (Option.some.inj (hroutine.symm.trans (attemptOf_routine.1 hattempt)))
    rcases answered_routine (s := t) hroutine epoch ok with ⟨next, hnext, heq⟩ | ⟨last, hlast, heq⟩
    · rw [heq]
      refine hrest rfl rfl rfl (fun other _ hne hold => ?_) fun q stage' hattempt hwill => ?_
      · cases other <;> first | exact absurd rfl hne | exact hold
      · obtain ⟨rfl, rfl⟩ := hown q stage' hattempt
        obtain rfl : stage = .query := by simpa [AttemptStage.willAsk] using hwill
        cases hnext
        exact ⟨p, _, rfl, rfl⟩
    · rw [heq]
      refine hrest rfl rfl rfl (fun other _ hne hold => ?_) fun q stage' hattempt hwill => ?_
      · cases other <;> first | exact absurd rfl hne | exact hold
      · obtain ⟨rfl, rfl⟩ := hown q stage' hattempt
        obtain rfl : stage = .query := by simpa [AttemptStage.willAsk] using hwill
        exact absurd hlast (by simp [AttemptStage.afterAnswer])

/-- After a request that Kernel Memory serves. -/
lemma NoticesRead.serve {ok : Bool} (h : s.NoticesRead) (hst : s.serve ok = some s') :
    s'.NoticesRead := by
  rcases serve_cases hst with ⟨kind, rest, epoch, hdemands, -, rfl⟩ | ⟨rest, hdemands, rfl⟩ |
    ⟨d, rest, epoch, hdemands, hzero, rfl, -⟩
  · exact fun _ => .inr ⟨epoch, ok, List.getLast?_concat⟩
  · exact fun _ => .inr ⟨s.epoch, true, List.getLast?_concat⟩
  · refine h.frame rfl fun hreader => hreader.mono ?_ id fun _ p stage hattempt hwill =>
      ⟨p, stage, hattempt, hwill⟩
    rintro ⟨e, he, hreplies⟩
    rw [hdemands, List.mem_cons] at he
    rcases he with rfl | he
    · exact absurd hzero hreplies
    · exact ⟨e, he, hreplies⟩

/-- A step keeps the notices to be read, if a stick announces itself to a reader. -/
lemma NoticesRead.step {a : Action} (h : s.NoticesRead) (hthreads : Threads s)
    (hexchange : Exchange s) (hstick : a = .newMemoryStick → s.ReaderComes)
    (hst : s.step a = some s') : s'.NoticesRead := by
  cases a with
  | resumer => exact h.resumerStep hst
  | routine => exact h.routineStep hst
  | tail =>
    simp only [Resuming.step, tailStep] at hst
    split at hst
    · exact absurd hst (by simp)
    · obtain ⟨state, heq, -⟩ := s.unlockResumer_eq
      rw [heq] at hst
      cases hst
      exact h.frame rfl fun hreader => hreader.frame rfl rfl (fun _ _ _ _ => rfl)
        fun _ _ _ _ => rfl
    · cases hst
      exact h.frame rfl fun hreader => hreader.frame rfl rfl (fun _ _ _ _ => rfl)
        fun _ _ _ _ => rfl
  | suspender =>
    simp only [Resuming.step, suspenderStep] at hst
    split at hst
    · exact absurd hst (by simp)
    · cases hst
      exact h
    · cases hst
      exact h
    · obtain ⟨state, heq, -⟩ := s.unlockResumer_eq
      rw [heq] at hst
      cases hst
      exact h.frame rfl fun hreader => hreader.frame rfl rfl (fun _ _ _ _ => rfl)
        fun _ _ _ _ => rfl
  | endTest =>
    simp only [Resuming.step, Option.ite_none_right_eq_some, Option.some.injEq] at hst
    obtain ⟨-, rfl⟩ := hst
    exact h
  | endCall =>
    simp only [Resuming.step, Option.ite_none_right_eq_some, Option.some.injEq] at hst
    obtain ⟨-, rfl⟩ := hst
    rcases s.setIsResuming_eq with ⟨hnone, heq⟩ | ⟨-, heq⟩
    · rw [heq]
      exact h.frame rfl fun hreader => hreader.frame rfl rfl (fun _ _ _ _ => rfl)
        fun _ _ hroutine _ => absurd (hnone.symm.trans hroutine) (by simp)
    · rw [heq]
      exact h
  | receive => exact h.receive hthreads hexchange hst
  | holder => exact h.holderStep hst
  | serve ok => exact h.serve hst
  | addTotalMemory =>
    simp only [Resuming.step, Option.ite_none_right_eq_some, Option.some.injEq] at hst
    obtain ⟨-, rfl⟩ := hst
    exact h
  | request kind =>
    simp only [Resuming.step, Option.ite_none_right_eq_some] at hst
    obtain ⟨-, rfl⟩ := ask_eq_some hst.2
    exact h.frame rfl fun _ => .of_sent (d := .request kind) rfl (by simp [Demand.replies])
  | endProcess _ | ping =>
    simp only [Resuming.step, Option.ite_none_right_eq_some, Option.some.injEq] at hst
    obtain ⟨-, rfl⟩ := hst
    refine h.frame rfl fun hreader => hreader.mono ?_ id fun _ p stage hattempt hwill =>
      ⟨p, stage, hattempt, hwill⟩
    rintro ⟨d, hd, hreplies⟩
    exact ⟨d, List.mem_append_left _ hd, hreplies⟩
  | toSuspReady pcbs p =>
    simp only [Resuming.step, Option.ite_none_right_eq_some, Option.some.injEq] at hst
    obtain ⟨-, rfl⟩ := hst
    split
    · obtain ⟨phase, heq, -, hphase⟩ := s.signalProcess_eq
      rw [heq]
      refine h.frame rfl fun hreader => hreader.frame rfl rfl (fun q stage hresumer _ => ?_)
        fun _ _ _ _ => rfl
      rcases hphase with rfl | ⟨hparked, -⟩
      · rfl
      · exact absurd (hparked.symm.trans hresumer) (by simp)
    · exact h
  | newMemoryStick =>
    simp only [Resuming.step, Option.ite_none_left_eq_some, Option.some.injEq] at hst
    obtain ⟨-, rfl⟩ := hst
    exact fun _ => .inl (hstick rfl)
  | spurious =>
    simp only [Resuming.step, Option.ite_none_right_eq_some, Option.some.injEq] at hst
    obtain ⟨hparked, rfl⟩ := hst
    exact h.frame rfl fun hreader => hreader.frame rfl rfl
      (fun _ _ hresumer _ => absurd (hparked.symm.trans hresumer) (by simp)) fun _ _ _ _ => rfl

/-- What comes behind an answer leaves SUSP. READY alone. -/
lemma suspReady_answered (s : Resuming) (asker : Asker) (epoch : ℕ) (ok : Bool) :
    (s.answered asker epoch ok).suspReady = s.suspReady := by
  unfold answered
  split
  · split
    · rfl
    · split <;> rfl
  · rfl
  · rfl
  · rfl
  · rfl
  · split
    · split <;> rfl
    · rfl
  · split
    · split <;> rfl
    · rfl

/-- Only a process that becomes SUSP. READY comes to the list. -/
lemma suspReady_subset_of_step {a : Action} (hother : ∀ pcbs p, a ≠ .toSuspReady pcbs p)
    (hst : s.step a = some s') : s'.suspReady ⊆ s.suspReady := by
  cases a with
  | resumer =>
    rcases resumerStep_cases hst with ⟨_, _, rfl, -⟩ | ⟨_, rfl, -⟩ | ⟨_, -, -, rfl⟩ |
      ⟨_, _, _, -, -, -, rfl⟩ | ⟨_, -, rfl⟩ | ⟨-, rfl⟩
    all_goals first | exact List.Subset.refl _ | exact List.erase_subset
  | routine =>
    rcases routineStep_cases hst with ⟨-, -, rfl⟩ | ⟨-, rfl⟩ | ⟨_, _, -, rfl, -⟩ | ⟨_, -, rfl, -⟩ |
      ⟨_, -, -, rfl⟩ | ⟨_, -, -, -, rfl⟩ | ⟨_, _, _, -, -, -, rfl⟩ | ⟨_, -, rfl⟩ | ⟨-, rfl⟩
    case inr.inl =>
      obtain ⟨phase, heq, -⟩ := s.lockResumer_eq
      rw [heq]
      exact List.Subset.refl _
    all_goals first | exact List.Subset.refl _ | exact List.erase_subset
  | tail =>
    simp only [Resuming.step, tailStep] at hst
    obtain ⟨state, heq, -⟩ := s.unlockResumer_eq
    rw [heq] at hst
    split at hst <;> cases hst <;> exact List.Subset.refl _
  | suspender =>
    simp only [Resuming.step, suspenderStep] at hst
    obtain ⟨state, heq, -⟩ := s.unlockResumer_eq
    rw [heq] at hst
    split at hst <;> cases hst <;> exact List.Subset.refl _
  | endCall =>
    simp only [Resuming.step, Option.ite_none_right_eq_some, Option.some.injEq] at hst
    obtain ⟨-, rfl⟩ := hst
    rcases s.setIsResuming_eq with ⟨-, heq⟩ | ⟨-, heq⟩ <;> rw [heq] <;> exact List.Subset.refl _
  | receive =>
    rcases receive_cases hst with ⟨_, _, -, -, rfl⟩ | ⟨_, _, _, _, -, -, rfl⟩
    · exact List.Subset.refl _
    · rw [suspReady_answered]
      exact List.Subset.refl _
  | holder =>
    rcases holderStep_cases hst with ⟨-, -, rfl⟩ | ⟨-, rfl⟩ | ⟨-, rfl⟩ | ⟨-, rfl⟩ | ⟨-, rfl⟩ |
      ⟨_, _, -, rfl, -⟩
    case inr.inl =>
      obtain ⟨phase, heq, -⟩ := s.lockResumer_eq
      rw [heq]
      exact List.Subset.refl _
    case inr.inr.inr.inr.inr =>
      rcases s.createResumptionRoutineThread_eq with ⟨-, heq⟩ | ⟨heq, -⟩ <;> rw [heq] <;>
        exact List.Subset.refl _
    all_goals exact List.Subset.refl _
  | serve ok =>
    rcases serve_cases hst with ⟨_, _, _, -, -, rfl⟩ | ⟨_, -, rfl⟩ | ⟨_, _, _, -, -, rfl, -⟩
    all_goals exact List.Subset.refl _
  | request kind =>
    simp only [Resuming.step, Option.ite_none_right_eq_some] at hst
    obtain ⟨-, rfl⟩ := ask_eq_some hst.2
    exact List.Subset.refl _
  | toSuspReady pcbs p => exact absurd rfl (hother pcbs p)
  | endTest | addTotalMemory | endProcess _ | ping | spurious =>
    simp only [Resuming.step, Option.ite_none_right_eq_some, Option.some.injEq] at hst
    obtain ⟨-, rfl⟩ := hst
    exact List.Subset.refl _
  | newMemoryStick =>
    simp only [Resuming.step, Option.ite_none_left_eq_some, Option.some.injEq] at hst
    obtain ⟨-, rfl⟩ := hst
    exact List.Subset.refl _

/-- **A heeded step keeps the notices to be read**, where SUSP. READY is not empty. -/
lemma noticesRead_step {a : Action} (h : s.suspReady ≠ [] → s.NoticesRead) (hthreads : Threads s)
    (hexchange : Exchange s) (hheeded : s.Heeded a) (hst : s.step a = some s') :
    s'.suspReady ≠ [] → s'.NoticesRead := by
  intro hne
  by_cases hempty : s.suspReady = []
  · -- a process has come to the empty list
    have hcomes : ∃ pcbs p, a = .toSuspReady pcbs p := by
      by_contra hother
      push Not at hother
      have hsub := suspReady_subset_of_step hother hst
      rw [hempty] at hsub
      exact hne (List.subset_nil.1 hsub)
    obtain ⟨pcbs, p, rfl⟩ := hcomes
    exact (hheeded.2 hempty).step hthreads hexchange (fun heq => absurd heq (by simp)) hst
  · refine (h hempty).step hthreads hexchange (fun heq => ?_) hst
    subst heq
    exact hheeded hempty

/-! ## The system at rest -/

/-- At rest with a process in SUSP. READY, the resumer is blocked, and there is no routine. -/
lemma Quiescent.threads (h : s.Quiescent) (hthreads : Threads s) (hp : s.suspReady.head? = some p) :
    s.resumer = .atSwitch ∧ s.resumerState = .blocked ∧ s.routine = none ∧ s.tail = none := by
  obtain ⟨hholder, -, hrest⟩ := h
  have hne : s.suspReady ≠ [] := by
    rintro hempty
    rw [hempty] at hp
    exact absurd hp (by simp)
  have hask (asker : Asker) (kind : RequestKind) : s.ask asker kind ≠ none := by
    rw [ask, if_pos hholder]
    simp
  have htail : s.tail = none := by
    have hstep : s.tailStep = none := hrest .tail rfl
    unfold tailStep at hstep
    split at hstep
    · assumption
    · exact absurd hstep (by simp)
    · exact absurd hstep (by simp)
  have hstep : s.resumerStep = none := hrest .resumer rfl
  have hattempting : ∀ q stage, s.resumer ≠ .attempting q stage := by
    intro q stage hresumer
    rw [resumerStep, hresumer] at hstep
    dsimp only at hstep
    split at hstep
    · exact hask _ _ hstep
    · exact absurd hstep (by simp)
  have hroutine : s.routine = none := by
    have hstep : s.routineStep = none := hrest .routine rfl
    unfold routineStep at hstep
    split at hstep
    · assumption
    · rename_i hcreated
      split at hstep
      · rename_i hactive
        rcases hthreads.active hactive with hentered | hleaving | hcompacting
        · rw [hcreated] at hentered
          exact absurd hentered (by simp [RoutinePhase.hasEntered])
        · rw [htail] at hleaving
          exact absurd hleaving (by simp)
        · rw [hholder] at hcompacting
          exact absurd hcompacting (by simp)
      · exact absurd hstep (by simp)
    · exact absurd hstep (by simp)
    · exact absurd hstep (by simp)
    · exact absurd hstep (by simp)
    · rw [hp] at hstep
      exact absurd hstep (by simp)
    · rename_i q _
      have hfree : s.resumerAttempts q = false := resumerAttempts_eq_false.2 (hattempting q)
      rw [hfree] at hstep
      exact absurd hstep (by simp)
    · split at hstep
      · exact absurd hstep (hask _ _)
      · exact absurd hstep (by simp)
    · exact absurd hstep (by simp)
  have hresumer : s.resumer = .atSwitch ∧ s.resumerState = .blocked := by
    unfold resumerStep at hstep
    split at hstep
    · rename_i hat
      refine ⟨hat, ?_⟩
      split at hstep
      · split at hstep <;> exact absurd hstep (by simp)
      · exact absurd hstep (by simp)
      · assumption
    · rename_i q _
      have hfree : s.routineAttempts q = false := by rw [routineAttempts, hroutine]
      rw [hfree] at hstep
      exact absurd hstep (by simp)
    · rename_i q stage hresumer
      exact absurd hresumer (hattempting q stage)
    · exact absurd hstep (by simp)
    · exact absurd hstep (by simp)
    · rename_i hparked
      exact absurd (hthreads.parked hparked) hne
    · exact absurd hstep (by simp)
    · exact absurd hstep (by simp)
  exact ⟨hresumer.1, hresumer.2, hroutine, htail⟩

/-- At rest, no notice is unread. -/
lemma Quiescent.notice_notMem (h : s.Quiescent) (hexchange : Exchange s)
    (hnotices : s.NoticesRead) : .notice ∉ s.messages := by
  obtain ⟨hholder, hdemands, hrest⟩ := h
  intro hnotice
  rcases hnotices hnotice with hreader | ⟨epoch, ok, hlast⟩
  · rcases hreader with hpending | hcompacts | ⟨asker, -, ⟨p, attempt⟩, hattempt, hwill⟩
    · rw [hdemands] at hpending
      exact absurd hpending (by simp)
    · rw [hholder] at hcompacts
      exact absurd hcompacts (by simp)
    · obtain ⟨stage, rfl, hwill⟩ := (Option.any_eq_true _ _).1 hwill
      have hkind : ∃ kind, stage.request = some kind := by
        cases stage <;> simp_all [AttemptStage.willAsk, AttemptStage.request]
      obtain ⟨kind, hkind⟩ := hkind
      -- its thread can send that request
      cases asker with
      | resumer =>
        have hstep : s.resumerStep = none := hrest .resumer rfl
        rw [resumerStep, attemptOf_resumer.1 hattempt] at hstep
        simp [hkind, ask, hholder] at hstep
      | routine =>
        have hstep : s.routineStep = none := hrest .routine rfl
        rw [routineStep, attemptOf_routine.1 hattempt] at hstep
        simp [hkind, ask, hholder] at hstep
      | user _ => exact absurd hattempt (by simp [attemptOf])
      | compaction => exact absurd hattempt (by simp [attemptOf])
  · have hcount := hexchange.count
    have hpos : 0 < s.messages.countP KmMessage.isAnswer :=
      List.countP_pos_iff.2 ⟨_, List.mem_of_getLast? hlast, rfl⟩
    rw [hholder] at hcount
    simp only [expectedAnswers] at hcount
    omega

/-- **What is attended to is not missed.** -/
lemma FirstAttended.nothingMissed (h : s.FirstAttended) (hthreads : Threads s)
    (hexchange : Exchange s) (hnotices : s.suspReady ≠ [] → s.NoticesRead) : s.NothingMissed := by
  intro hquiet _ p hp
  have hne : s.suspReady ≠ [] := by
    intro hempty
    rw [hempty] at hp
    exact absurd hp (by simp)
  have hnotice := hquiet.notice_notMem hexchange (hnotices hne)
  obtain ⟨hresumer, hstate, hroutine, htail⟩ := hquiet.threads hthreads hp
  obtain ⟨hholder, -, hrest⟩ := hquiet
  refine ⟨?_, hnotice⟩
  have hnone (asker : Asker) (attempt : ℕ × Option AttemptStage) :
      s.attemptOf asker ≠ some attempt := by
    cases asker <;> simp [attemptOf, hresumer, hroutine, ResumerPhase.attempt]
  rcases h p hp with hlooks | hcompacting | hcalled | hhand
  · rcases hlooks with ⟨-, hne | hresume | hunlock⟩ | hlooks
    · exact absurd hstate hne
    · rw [resumeActive, hroutine] at hresume
      exact absurd hresume (by simp)
    · rw [htail] at hunlock
      exact absurd hunlock (by simp)
    · rw [hroutine] at hlooks
      exact absurd hlooks (by simp)
  · rw [Compacting, hholder] at hcompacting
    exact absurd hcompacting (by simp)
  · rcases hcalled with hin | hwill | ⟨hsuspend, -⟩ | hending | htested | hsuspender
    · exact absurd hin hnotice
    · rw [hholder] at hwill
      exact absurd hwill (by simp)
    · rw [hholder] at hsuspend
      exact absurd hsuspend (by simp)
    · have hstep := hrest .endTest rfl
      rw [Resuming.step, if_pos hending] at hstep
      exact absurd hstep (by simp)
    · have hstep := hrest .endCall rfl
      rw [Resuming.step, if_pos htested] at hstep
      exact absurd hstep (by simp)
    · have hstep : s.suspenderStep = none := hrest .suspender rfl
      unfold Resuming.suspenderStep at hstep
      split at hstep
      · rename_i helse
        exact absurd helse hsuspender
      all_goals exact absurd hstep (by simp)
  · rcases hhand with ⟨asker, hpicked⟩ | ⟨⟨hfresh, -⟩ | ⟨asker, stage, hattempt⟩, -⟩
    · exact absurd hpicked (hnone asker _)
    · exact hfresh
    · exact absurd hattempt (hnone asker _)

/-- **Freed or added memory is not missed** in a run whose steps are heeded.

**Proof sketch.** The exchange with Kernel Memory and the phases of the threads are kept by every
step. With them a heeded step keeps the first process of SUSP. READY attended: somebody will look at
it, a wake-up is under way, or its last attempt is decided by answers of the present count. At rest
nobody can be about to do anything, and the last of these remains. -/
theorem nothingMissed_of_run (h : Run step Heeded start s) : s.NothingMissed := by
  have hinv : (Threads s ∧ Exchange s) ∧ s.FirstAttended ∧ (s.suspReady ≠ [] → s.NoticesRead) := by
    refine h.invariant (I := fun s => (Threads s ∧ Exchange s) ∧ s.FirstAttended ∧
      (s.suspReady ≠ [] → s.NoticesRead)) ⟨⟨Threads.start, Exchange.start⟩, ?_, ?_⟩ ?_
    · exact fun p hp => absurd hp (by simp [start])
    · exact fun hne => absurd rfl hne
    · rintro t a t' ⟨⟨hthreads, hexchange⟩, hattended, hnotices⟩ hheeded hst
      exact ⟨⟨hthreads.step hexchange hst, hexchange.step hthreads hst⟩,
        hattended.step hthreads hexchange hheeded hst,
        noticesRead_step hnotices hthreads hexchange hheeded hst⟩
  obtain ⟨⟨hthreads, hexchange⟩, hattended, hnotices⟩ := hinv
  exact hattended.nothingMissed hthreads hexchange hnotices

/-! ## Runs -/

instance (s : Resuming) : Decidable s.Looks := inferInstanceAs (Decidable (_ ∧ _ ∨ _))

instance (s : Resuming) : Decidable s.Compacting := inferInstanceAs (Decidable (_ = _))

instance (s : Resuming) : Decidable s.Called :=
  inferInstanceAs (Decidable (_ ∨ _ ∨ (_ ∧ _) ∨ _ ∨ _ ∨ _))

instance (p : ℕ) (s : Resuming) : Decidable (s.TakesUp p) := inferInstanceAs (Decidable (_ ∨ _))

instance (s : Resuming) : Decidable s.ReaderComes := inferInstanceAs (Decidable (_ ∨ _ ∨ _))

instance (s : Resuming) : Decidable s.NoticesRead :=
  decidable_of_iff (.notice ∈ s.messages →
      s.ReaderComes ∨ s.messages.getLast?.any KmMessage.isAnswer = true) <| by
    refine imp_congr_right fun _ => or_congr_right ?_
    rw [Option.any_eq_true]
    constructor
    · rintro ⟨message, hlast, hanswer⟩
      cases message with
      | notice => exact absurd hanswer (by simp [KmMessage.isAnswer])
      | answer epoch ok => exact ⟨epoch, ok, hlast⟩
    · rintro ⟨epoch, ok, hlast⟩
      exact ⟨_, hlast, rfl⟩

instance (s : Resuming) : ∀ a, Decidable (s.Heeded a)
  | .holder => inferInstanceAs (Decidable (_ → _ → _ → _))
  | .endCall => inferInstanceAs (Decidable (_ → _))
  | .suspender => inferInstanceAs (Decidable (_ → _))
  | .toSuspReady _ _ => inferInstanceAs (Decidable ((_ → _) ∧ (_ → _)))
  | .newMemoryStick => inferInstanceAs (Decidable (_ → _))
  | .addTotalMemory => inferInstanceAs (Decidable (∀ p ∈ s.suspReady.head?, _))
  | .resumer | .routine | .tail | .endTest | .receive | .serve _ | .request _ | .endProcess _
  | .ping | .spurious => .isTrue trivial

/-- A process is suspended and becomes SUSP. READY; the resumer picks it up. -/
def suspendAndPick : List Action :=
  [.request .suspendProcess, .serve true, .receive, .suspender, .suspender, .suspender,
    .toSuspReady (fun _ => createPcb .suspReady 0) 1, .resumer, .resumer]

/-- An attempt of the resumer or the routine that fails at the second question. -/
def failingAttempt (worker : Action) : List Action :=
  [worker, .serve true, .receive, worker, .serve false, .receive]

/-- **A stick is missed**: an attempt of process `1` has failed, and the resumer is blocked. A stick
connects while nobody asks Kernel Memory for anything. Its notice stays unread, and the process
suspended, although it may fit now. -/
theorem missed_of_stick : ¬ ∀ s, Reachable step start s → s.NothingMissed := by
  have hrun : (execute step start (suspendAndPick ++ failingAttempt .resumer ++
      [.resumer, .newMemoryStick, .addTotalMemory])).any
        (fun s => decide (¬ s.NothingMissed)) = true := by decide +kernel
  obtain ⟨s, hs, hmissed⟩ := (Option.any_eq_true _ _).1 hrun
  exact fun hall => (of_decide_eq_true hmissed) (hall s (Run.of_execute hs))

/-- A stick that announces itself while the resumer asks: its notice starts a routine, which asks
again, and so does the resumer. -/
theorem nothingMissed_of_run_stick : ∃ s, Run step Heeded start s ∧ s.Quiescent ∧
    s.compactionActive = false ∧ s.suspReady = [1] ∧ s.epoch = 2 ∧ s.lastAnswer 1 = some 2 := by
  have hrun : (executeOk step Heeded start (suspendAndPick ++
      [.resumer, .newMemoryStick, .addTotalMemory, .serve true, .receive, .holder, .receive,
        .resumer, .serve false, .receive, .resumer] ++
      [.routine, .routine, .routine, .routine, .routine, .routine] ++ failingAttempt .routine ++
      [.routine, .tail, .tail, .resumer, .resumer] ++ failingAttempt .resumer ++ [.resumer])).any
        (fun s => decide (s.Quiescent ∧ s.compactionActive = false ∧ s.suspReady = [1] ∧
          s.epoch = 2)) = true := by decide +kernel
  obtain ⟨s, hs, hstate⟩ := (Option.any_eq_true _ _).1 hrun
  obtain ⟨hquiet, hactive, hlist, hepoch⟩ := of_decide_eq_true hstate
  have h := Run.of_executeOk hs
  have hfresh := nothingMissed_of_run h hquiet hactive 1 (by rw [hlist]; rfl)
  exact ⟨s, h, hquiet, hactive, hlist, hepoch, hepoch ▸ hfresh.1⟩

end Resuming

end OsSimulator.Scheduler
