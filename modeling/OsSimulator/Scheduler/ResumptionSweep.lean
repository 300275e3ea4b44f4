import OsSimulator.Memory.Replies
import OsSimulator.Scheduler.SuspendedOrder

set_option relaxedAutoImplicit false
set_option autoImplicit false

/-!
# The sweep over SUSP. READY

`resumption_routine` asks Kernel Memory for the process at the head of SUSP. READY, again and again,
until the list is empty or an attempt fails. This file runs it on the queues of the scheduler and
the state of Kernel Memory together, with no other thread in between.

## Main definitions

* `attempt` — the dialogue of `transition_susp_ready_no_mutex` with Kernel Memory.
* `Sweep`, `removeOfTheList`, `resumptionRoutine` — the routine.
* `LeavesNobodyBehind` — whoever is left has been refused for lack of space.
* `RefusesLastOnly` — Kernel Memory has room for all the processes in turn, but perhaps the last
  one.

## Main results

* `resumptionRoutine_spec` — the routine resumes the processes up to the first that is refused.
* `leavesNobodyBehind_iff` — it leaves nobody behind exactly when only the last process is refused.
-/

namespace OsSimulator.Scheduler

open Memory (Listener serve)
open Queues

/-! ## The dialogue -/

/-- `receive_space`: another message is an error, which is `-1`. -/
def receiveSpace : Memory.Reply → ℤ
  | .freeMemory size => size
  | _ => -1

/-- `receive_size`. -/
def receiveSize : Memory.Reply → ℤ
  | .processSize size => size
  | _ => -1

/-- `space_available`, if Kernel Memory answers. -/
def spaceAvailable (l : Listener) : Option ℤ :=
  (serve .requestFreeMemory l).bind fun served => served.replies.head?.map receiveSpace

/-- `process_size`, if Kernel Memory answers. -/
def processSize (p : ℕ) (l : Listener) : Option ℤ :=
  (serve (.requestProcessSize (UInt32.ofNat p)) l).bind fun served =>
    served.replies.head?.map receiveSize

/-- How an attempt to resume a process ends: it is resumed, or refused for lack of space, or refused
for another reason. -/
inductive Outcome
  | resumed
  | noSpace
  | failed
  deriving DecidableEq, Repr

/-- The texts with which Kernel Memory refuses a process that it has no room for. -/
def noSpaceTexts : List String :=
  ["The process does not fit in memory", "There are not memory enough", "Could not allocate holes."]

/-- `fits_process`: `OP_RESUME_SUSPENSION_OK` or not, and why not. -/
def fitsProcess : Memory.Reply → Outcome
  | .message ⟨.resumeSuspensionOk, _⟩ => .resumed
  | .message ⟨.resumeSuspensionFailed, text⟩ => if text ∈ noSpaceTexts then .noSpace else .failed
  | _ => .failed

/-- `notify_process_resume_suspended`, with the state of Kernel Memory behind it. -/
def notifyProcessResumeSuspended (p : ℕ) (l : Listener) : Option (Outcome × Listener) :=
  (serve (.resumeSuspendedProcess (UInt32.ofNat p)) l).bind fun served =>
    served.replies.head?.map fun reply => (fitsProcess reply, served.listener)

/-- The questions of `transition_susp_ready_no_mutex`: `can_resume_suspended`, and only then the
request. -/
def attempt (p : ℕ) (l : Listener) : Option (Outcome × Listener) :=
  (spaceAvailable l).bind fun space => (processSize p l).bind fun size =>
    if space < size then some (.noSpace, l) else notifyProcessResumeSuspended p l

/-! ## The routine -/

/-- The scheduler and Kernel Memory in the routine, with the attempts so far. -/
structure Sweep where
  queues : Queues
  listener : Listener
  compactionActive : Bool
  attempts : List (ℕ × Outcome)

/-- `remove_of_the_list`, with whether the routine goes on. -/
def removeOfTheList (s : Sweep) : Option (Bool × Sweep) :=
  match s.queues.suspReady with
  | [] => none
  | p :: _ =>
    if (s.queues.pcbs p).state = .suspReady then
      (attempt p s.listener).bind fun (outcome, listener) =>
        (s.queues.transitionSuspReady p (decide (outcome = .resumed))).map fun queues =>
          (decide (outcome = .resumed), { s with
            queues := queues
            listener := listener
            attempts := s.attempts ++ [(p, outcome)] })
    else some (true, s)

/-- `resumption_routine`, when it ends within the given number of rounds. -/
def resumptionRoutine : ℕ → Sweep → Option Sweep
  | 0, _ => none
  | rounds + 1, s =>
    if s.queues.suspReady = [] ∨ s.compactionActive then some s
    else (removeOfTheList s).bind fun (keepRunning, s) =>
      if keepRunning then resumptionRoutine rounds s else some s

/-- **The sweep leaves nobody behind who fits**: the processes moved to READY were tried in priority
order, and whoever is still in SUSP. READY was itself refused for lack of space. -/
structure LeavesNobodyBehind (s s' : Sweep) : Prop where
  inOrder : SortedByPriority s.queues.pcbs
    ((s'.attempts.filter fun attempt => attempt.2 = .resumed).map Prod.fst)
  refused : ∀ p ∈ s'.queues.suspReady, (p, .noSpace) ∈ s'.attempts

/-- Kernel Memory resumes the processes one after another. -/
def resumeInTurn : List ℕ → Listener → Option Listener
  | [], l => some l
  | p :: rest, l => (attempt p l).bind fun (outcome, l) =>
    if outcome = .resumed then resumeInTurn rest l else none

/-- **Kernel Memory has room for the processes in turn**, but perhaps for the last one, and those it
resumes are in priority order. -/
def RefusesLastOnly (s : Sweep) : Prop :=
  (SortedByPriority s.queues.pcbs s.queues.suspReady ∧
    resumeInTurn s.queues.suspReady s.listener ≠ none) ∨
  ∃ others last l l', s.queues.suspReady = others ++ [last] ∧
    SortedByPriority s.queues.pcbs others ∧ resumeInTurn others s.listener = some l ∧
    attempt last l = some (.noSpace, l')

/-! ## What the routine does -/

section Spec

variable {s s' : Sweep} {rounds : ℕ} {keepRunning : Bool}

/-- One process after others. -/
lemma resumeInTurn_append (ps qs : List ℕ) (l : Listener) :
    resumeInTurn (ps ++ qs) l = (resumeInTurn ps l).bind (resumeInTurn qs) := by
  induction ps generalizing l with
  | nil => rfl
  | cons p ps ih =>
    simp only [List.cons_append, resumeInTurn]
    rw [Option.bind_assoc]
    congr 1
    funext ⟨outcome, l'⟩
    simp only
    split
    · exact ih l'
    · rfl

/-- Whoever is resumed in turn is resumed after those in front of it. -/
lemma attempt_of_resumeInTurn {ps qs : List ℕ} {p : ℕ} {l l' l'' : Listener}
    (hbefore : resumeInTurn ps l = some l')
    (hall : resumeInTurn (ps ++ p :: qs) l = some l'') :
    ∃ m, attempt p l' = some (.resumed, m) := by
  rw [resumeInTurn_append, hbefore, Option.bind_some, resumeInTurn] at hall
  obtain ⟨⟨outcome, m⟩, hattempt, hrest⟩ := Option.bind_eq_some_iff.1 hall
  simp only at hrest
  split at hrest
  · rename_i hresumed
    exact ⟨m, hattempt.trans (congrArg (fun o => some (o, m)) hresumed)⟩
  · exact absurd hrest (by simp)

/-- What `remove_of_the_list` does to a process of SUSP. READY: it is taken from the list when it is
resumed, and nothing but Kernel Memory changes otherwise. -/
lemma removeOfTheList_spec {p : ℕ} {rest : List ℕ} (hlist : s.queues.suspReady = p :: rest)
    (hstate : (s.queues.pcbs p).state = .suspReady)
    (hrun : removeOfTheList s = some (keepRunning, s')) :
    ∃ outcome, attempt p s.listener = some (outcome, s'.listener) ∧
      keepRunning = decide (outcome = .resumed) ∧
      s'.compactionActive = s.compactionActive ∧ s'.attempts = s.attempts ++ [(p, outcome)] ∧
      s'.queues.suspReady = (if outcome = .resumed then rest else p :: rest) ∧
      ∀ q, (s'.queues.pcbs q).priority = (s.queues.pcbs q).priority := by
  unfold removeOfTheList at hrun
  rw [hlist] at hrun
  simp only [hstate, if_true] at hrun
  obtain ⟨⟨outcome, l⟩, hattempt, hmoved⟩ := Option.bind_eq_some_iff.1 hrun
  obtain ⟨queues, htransition, heq⟩ := Option.map_eq_some_iff.1 hmoved
  obtain ⟨hkeep, rfl⟩ := Prod.mk.inj heq
  refine ⟨outcome, hattempt, hkeep.symm, rfl, rfl, ?_⟩
  unfold transitionSuspReady at htransition
  split at htransition
  · -- the process goes to READY
    rename_i hcond
    have hresumed : outcome = .resumed := of_decide_eq_true hcond.2
    obtain ⟨heq, -⟩ := transitionToReady_spec htransition
    obtain ⟨hmoved, -⟩ := moved_transitionToReady htransition rfl rfl rfl rfl
    refine ⟨?_, hmoved.priority⟩
    rw [if_pos hresumed, heq]
    show (s.queues.suspReady.erase p) = rest
    rw [hlist, List.erase_cons_head]
  · rename_i hcond
    obtain rfl := Option.some.inj htransition
    have hrefused : ¬ outcome = .resumed := fun h => hcond ⟨hstate, decide_eq_true h⟩
    exact ⟨by rw [if_neg hrefused, hlist], fun _ => rfl⟩

/-- **The routine resumes the processes in turn**, up to the end of the list or to the first one
that is refused.

**Proof sketch.** Induction on the rounds: a process that is resumed leaves the head of the list,
and the rest of the list is swept from the state that Kernel Memory is in then. -/
theorem resumptionRoutine_spec (hcompaction : s.compactionActive = false)
    (hrun : resumptionRoutine rounds s = some s') :
    ∃ moved l, resumeInTurn moved s.listener = some l ∧
      ((s.queues.suspReady = moved ∧ s'.queues.suspReady = [] ∧
          s'.attempts = s.attempts ++ moved.map (·, .resumed)) ∨
        ∃ p rest outcome l', s.queues.suspReady = moved ++ p :: rest ∧
          s'.queues.suspReady = p :: rest ∧ attempt p l = some (outcome, l') ∧
          outcome ≠ .resumed ∧
          s'.attempts = s.attempts ++ moved.map (·, .resumed) ++ [(p, outcome)]) := by
  induction rounds generalizing s with
  | zero => exact absurd hrun (by simp [resumptionRoutine])
  | succ rounds ih =>
    unfold resumptionRoutine at hrun
    split at hrun
    · rename_i hend
      obtain rfl := Option.some.inj hrun
      have hnil : s.queues.suspReady = [] := hend.resolve_right (by simp [hcompaction])
      exact ⟨[], s.listener, rfl, .inl ⟨hnil, hnil, by simp⟩⟩
    rename_i hgoes
    obtain ⟨⟨keepRunning, t⟩, hremove, hnext⟩ := Option.bind_eq_some_iff.1 hrun
    obtain ⟨p, rest, hlist⟩ := List.exists_cons_of_ne_nil (fun h => hgoes (.inl h))
    by_cases hstate : (s.queues.pcbs p).state = .suspReady
    · obtain ⟨outcome, hattempt, rfl, hflag, hattempts, hqueue, -⟩ :=
        removeOfTheList_spec hlist hstate hremove
      by_cases hresumed : outcome = .resumed
      · -- the process is resumed, and the rest is swept
        subst hresumed
        simp only [decide_true, if_true] at hnext hqueue
        obtain ⟨moved, l, hturn, hcases⟩ := ih (hflag.trans hcompaction) hnext
        have hturn' : resumeInTurn (p :: moved) s.listener = some l := by
          rw [resumeInTurn, hattempt]
          exact hturn
        refine ⟨p :: moved, l, hturn', ?_⟩
        rw [hqueue, hattempts] at hcases
        rcases hcases with ⟨rfl, hnil, hlog⟩ | ⟨q, others, outcome, l', rfl, hleft, hq, hne, hlog⟩
        · exact .inl ⟨hlist, hnil, by rw [hlog]; simp⟩
        · exact .inr ⟨q, others, outcome, l', by rw [hlist]; rfl, hleft, hq, hne, by rw [hlog]; simp⟩
      · -- the process is refused, and the routine ends
        simp only [hresumed, decide_false, Bool.false_eq_true, if_false] at hnext
        obtain rfl := Option.some.inj hnext
        rw [if_neg hresumed] at hqueue
        exact ⟨[], s.listener, rfl, .inr ⟨p, rest, outcome, t.listener, hlist, hqueue, hattempt,
          hresumed, by rw [hattempts]; simp⟩⟩
    · -- a process that is in another state stays at the head for ever
      have hsame : removeOfTheList s = some (true, s) := by
        unfold removeOfTheList
        rw [hlist]
        exact if_neg hstate
      obtain ⟨rfl, rfl⟩ := Prod.mk.inj (Option.some.inj (hsame.symm.trans hremove))
      exact ih hcompaction hnext

end Spec

/-! ## Who is left behind -/

section Left

variable {s s' : Sweep} {rounds : ℕ}

/-- **The sweep leaves nobody behind** exactly when Kernel Memory has room for all the processes in
turn but perhaps the last one: the first process that is refused ends it. -/
theorem leavesNobodyBehind_iff (hcompaction : s.compactionActive = false)
    (hattempts : s.attempts = []) (hnodup : s.queues.suspReady.Nodup)
    (hrun : resumptionRoutine rounds s = some s') :
    LeavesNobodyBehind s s' ↔ RefusesLastOnly s := by
  obtain ⟨moved, l, hturn, hcases⟩ := resumptionRoutine_spec hcompaction hrun
  rw [hattempts, List.nil_append] at hcases
  have hfilter : (moved.map (·, Outcome.resumed)).filter (fun attempt => attempt.2 = .resumed) =
      moved.map (·, Outcome.resumed) := by
    apply List.filter_eq_self.2
    simp
  have hmoved : (moved.map (·, Outcome.resumed)).map Prod.fst = moved := by
    rw [List.map_map]
    exact List.map_id moved
  rcases hcases with ⟨hlist, hnil, hlog⟩ |
    ⟨p, rest, outcome, l', hlist, hleft, hrefused, hne, hlog⟩
  · -- everybody is resumed
    constructor
    · rintro ⟨horder, -⟩
      rw [hlog, hfilter, hmoved] at horder
      refine .inl ⟨hlist ▸ horder, ?_⟩
      rw [hlist, hturn]
      simp
    · intro hcond
      have horder : SortedByPriority s.queues.pcbs moved := by
        rcases hcond with ⟨horder, -⟩ | ⟨others, last, l₁, l₂, hsplit, -, hothers, hlast⟩
        · exact hlist ▸ horder
        · exfalso
          rw [← hlist, hsplit] at hturn
          obtain ⟨m, hm⟩ := attempt_of_resumeInTurn hothers hturn
          rw [hlast] at hm
          exact absurd hm (by simp)
      refine ⟨?_, fun q hq => ?_⟩
      · rw [hlog, hfilter, hmoved]
        exact horder
      · rw [hnil] at hq
        exact absurd hq List.not_mem_nil
  · -- the first process that is refused, and those behind it
    have hfilter' : (moved.map (·, Outcome.resumed) ++ [(p, outcome)]).filter
        (fun attempt => attempt.2 = .resumed) = moved.map (·, Outcome.resumed) := by
      rw [List.filter_append, hfilter]
      simp [hne]
    have hnot : ∀ l₂, resumeInTurn (moved ++ p :: rest) s.listener ≠ some l₂ := by
      intro l₂ hall
      obtain ⟨m, hm⟩ := attempt_of_resumeInTurn hturn hall
      rw [hrefused] at hm
      exact hne (Prod.mk.inj (Option.some.inj hm)).1
    constructor
    · rintro ⟨horder, hleftRefused⟩
      rw [hlog, hfilter', hmoved] at horder
      -- nobody else than the refused process has been refused
      have hself : ∀ q ∈ p :: rest, q = p ∧ outcome = .noSpace := by
        intro q hq
        have hmem := hleftRefused q (hleft ▸ hq)
        rw [hlog, List.mem_append, List.mem_singleton] at hmem
        rcases hmem with hmem | heq
        · obtain ⟨r, -, hr⟩ := List.mem_map.1 hmem
          exact absurd (Prod.mk.inj hr).2 (by simp)
        · obtain ⟨rfl, rfl⟩ := Prod.mk.inj heq
          exact ⟨rfl, rfl⟩
      have hrest : rest = [] := by
        refine List.eq_nil_iff_forall_not_mem.2 fun q hq => ?_
        obtain ⟨rfl, -⟩ := hself q (List.mem_cons_of_mem _ hq)
        rw [hlist] at hnodup
        exact (List.nodup_cons.1 (List.nodup_append.1 hnodup).2.1).1 hq
      obtain ⟨-, rfl⟩ := hself p List.mem_cons_self
      rw [hrest] at hlist
      exact .inr ⟨moved, p, l, l', hlist, horder, hturn, hrefused⟩
    · rintro (⟨-, hall⟩ | ⟨others, last, l₁, l₂, hsplit, horder, hothers, hlast⟩)
      · obtain ⟨l₂, hl₂⟩ := Option.ne_none_iff_exists'.1 hall
        exact absurd (hlist ▸ hl₂) (hnot l₂)
      · -- the refused process is the last one
        rw [hlist] at hsplit
        have hrest : rest = [] := by
          by_contra hne'
          obtain ⟨init, q, rfl⟩ := List.eq_nil_or_concat rest |>.resolve_left hne'
          have hothers' : others = moved ++ p :: init := by
            have happ : (moved ++ p :: init) ++ [q] = others ++ [last] := by
              simpa using hsplit
            exact (List.append_inj' happ rfl).1.symm
          rw [hothers'] at hothers
          obtain ⟨m, hm⟩ := attempt_of_resumeInTurn hturn hothers
          rw [hrefused] at hm
          exact hne (Prod.mk.inj (Option.some.inj hm)).1
        rw [hrest] at hsplit hleft
        obtain ⟨rfl, hlastEq⟩ := List.append_inj' hsplit rfl
        obtain rfl : p = last := by simpa using hlastEq
        obtain rfl := Option.some.inj (hturn.symm.trans hothers)
        obtain ⟨rfl, -⟩ := Prod.mk.inj (Option.some.inj (hrefused.symm.trans hlast))
        refine ⟨?_, fun q hq => ?_⟩
        · rw [hlog, hfilter', hmoved]
          exact horder
        · rw [hleft, List.mem_singleton] at hq
          rw [hlog, hq]
          exact List.mem_append_right _ (List.mem_singleton_self _)

/-- Kernel Memory with four free bytes, and two processes on disk of the given sizes. -/
def twoOnDisk (size₀ size₁ : ℤ) : Listener where
  processes := [some 0, some 1, some 2]
  mainMemory := ⟨8, 8, [⟨0, 2, 4, 4⟩], [⟨0, 4⟩], .best⟩
  connectedSticks := [⟨List.replicate 8 0⟩]
  swapData := some ⟨[⟨0, 0, 0, 0, size₀⟩, ⟨1, 1, 0, 0, size₁⟩], 8,
    [List.replicate 8 0, List.replicate 8 0]⟩

/-- Two processes that are suspended and unblocked; the process `0` has the better priority. -/
def twoSuspended : List Action :=
  [.newReady 0 true, .newReady 1 true, .dispatch, .dispatch, .execBlock 0, .execBlock 1,
    .blockSuspBlock 0 true, .blockSuspBlock 1 true, .unlock 0, .unlock 1]

/-- Two bytes fit, and the eight bytes of the last process do not. -/
theorem leavesNobodyBehind_iff_twoOnDisk :
    ∃ queues s', execute step (initQueues false [.fifo] false) twoSuspended = some queues ∧
      resumptionRoutine 3 ⟨queues, twoOnDisk 2 8, false, []⟩ = some s' ∧
      s'.queues.suspReady = [1] ∧ RefusesLastOnly ⟨queues, twoOnDisk 2 8, false, []⟩ := by
  have hrun : (execute step (initQueues false [.fifo] false) twoSuspended).map (fun queues =>
      (queues.suspReady, (resumptionRoutine 3 ⟨queues, twoOnDisk 2 8, false, []⟩).map fun s' =>
        (s'.queues.suspReady, s'.attempts))) =
      some ([0, 1], some ([1], [(0, .resumed), (1, .noSpace)])) := by decide
  obtain ⟨queues, hqueues, heq⟩ := Option.map_eq_some_iff.1 hrun
  obtain ⟨hlist, hswept⟩ := Prod.mk.inj heq
  obtain ⟨s', hs', hend⟩ := Option.map_eq_some_iff.1 hswept
  obtain ⟨hleft, hattempts⟩ := Prod.mk.inj hend
  have hnodup : queues.suspReady.Nodup := by
    rw [hlist]
    decide
  refine ⟨queues, s', hqueues, hs', hleft, (leavesNobodyBehind_iff rfl rfl hnodup hs').1 ⟨?_, ?_⟩⟩
  · rw [hattempts]
    exact List.pairwise_singleton _ _
  · intro p hp
    rw [hleft, List.mem_singleton] at hp
    rw [hattempts, hp]
    decide

/-- **The process at the head needs eight bytes, and the one behind it two**, with four bytes free:
the sweep ends at the head, and the second process is never asked for. -/
theorem not_leavesNobodyBehind_of_large_head :
    ∃ queues s', Reachable step (initQueues false [.fifo] false) queues ∧
      resumptionRoutine 3 ⟨queues, twoOnDisk 8 2, false, []⟩ = some s' ∧
      1 ∈ s'.queues.suspReady ∧ (attempt 1 s'.listener).map Prod.fst = some .resumed ∧
      ¬ LeavesNobodyBehind ⟨queues, twoOnDisk 8 2, false, []⟩ s' := by
  have hrun : (execute step (initQueues false [.fifo] false) twoSuspended).map (fun queues =>
      (resumptionRoutine 3 ⟨queues, twoOnDisk 8 2, false, []⟩).map fun s' =>
        ((s'.queues.suspReady, s'.attempts), (attempt 1 s'.listener).map Prod.fst)) =
      some (some (([0, 1], [(0, .noSpace)]), some .resumed)) := by decide
  obtain ⟨queues, hqueues, hswept⟩ := Option.map_eq_some_iff.1 hrun
  obtain ⟨s', hs', hend⟩ := Option.map_eq_some_iff.1 hswept
  simp only [Prod.mk.injEq] at hend
  obtain ⟨⟨hleft, hattempts⟩, hfits⟩ := hend
  have hmem : 1 ∈ s'.queues.suspReady := by
    rw [hleft]
    decide
  refine ⟨queues, s', Run.of_execute hqueues, hs', hmem, hfits, fun hnobody => ?_⟩
  have hrefused := hnobody.refused 1 hmem
  rw [hattempts] at hrefused
  exact absurd hrefused (by decide)

end Left

end OsSimulator.Scheduler
