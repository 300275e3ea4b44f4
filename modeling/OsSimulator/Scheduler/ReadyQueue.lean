import Mathlib.Algebra.BigOperators.Group.List.Basic
import OsSimulator.Scheduler.Pcb

set_option relaxedAutoImplicit false
set_option autoImplicit false

/-!
# The READY queue

The subqueues of `ready_queue.c` with their redundant count and cached best level, and the
operations on them. The functions here work on the queue alone: the priority of a PCB is an
argument. An index outside the array of subqueues has no meaning, so such an operation does not
return.

## Main definitions

* `ReadyQueue` — `t_ready_queue`.
* `ReadyQueue.add`, `ReadyQueue.take`, `ReadyQueue.takeNext` — `transition_to_ready`,
  `transition_take_ready` and `transition_take_ready_next_no_mutex`.
* `ReadyQueue.Represents r prio isReady` — the queue holds exactly the given PCBs, once each and
  in the subqueue of their priority, and its count and its best level are right.

## Main results

* `ReadyQueue.represents_add`, `ReadyQueue.represents_takeNext` — an addition and a dispatch keep
  this.
-/

namespace OsSimulator.Scheduler

/-- `t_scheduling_algorithm`, as far as a subqueue can have it. -/
inductive SchedulingAlgorithm
  | fifo
  | rr
  deriving DecidableEq, Repr

/-- `t_ready_subqueue`. -/
structure ReadySubqueue where
  queue : List ℕ
  algorithm : SchedulingAlgorithm
  deriving DecidableEq, Repr

/-- `t_ready_queue`; `queue_count` is the length of `queues`. The flags `preempt_all` and
`terminate_queue` only decide when a CPU thread may take a process. -/
structure ReadyQueue where
  queues : List ReadySubqueue
  multilevelQueue : Bool
  readyProcessCount : ℤ
  highestPriority : ℤ
  deriving DecidableEq, Repr

namespace ReadyQueue

/-- `init_ready_queue` with the algorithms of its subqueues, one of them when it is not
multilevel. -/
def init (multilevel : Bool) (algorithms : List SchedulingAlgorithm) : ReadyQueue where
  queues := algorithms.map fun algorithm => ⟨[], algorithm⟩
  multilevelQueue := multilevel
  readyProcessCount := 0
  highestPriority := INT_MAX

/-- The index of the first subqueue that is not empty. -/
def firstNonEmpty (queues : List ReadySubqueue) : Option ℕ :=
  queues.findIdx? fun subqueue => !subqueue.queue.isEmpty

/-- `update_highest_priority_ready_no_mutex`. -/
def updateHighestPriority (ready : ReadyQueue) : ReadyQueue :=
  match firstNonEmpty ready.queues with
  | some i =>
    if 0 < ready.readyProcessCount ∧ ready.multilevelQueue then
      { ready with highestPriority := i }
    else { ready with highestPriority := ready.queues.length }
  | none => { ready with highestPriority := ready.queues.length }

/-- The subqueues with `f` applied to the list at an index, which has to be one of the array. -/
def modifyAt (i : ℤ) (f : List ℕ → List ℕ) (queues : List ReadySubqueue) :
    Option (List ReadySubqueue) :=
  if 0 ≤ i ∧ i < queues.length then
    some (queues.modify i.toNat fun subqueue => { subqueue with queue := f subqueue.queue })
  else none

/-- The index of the subqueue for a priority. -/
def level (ready : ReadyQueue) (priority : ℤ) : ℤ := if ready.multilevelQueue then priority else 0

/-- `transition_to_ready`. -/
def add (p : ℕ) (priority : ℤ) (ready : ReadyQueue) : Option ReadyQueue :=
  (modifyAt (ready.level priority) (· ++ [p]) ready.queues).map fun queues =>
    { ready with
      queues := queues
      readyProcessCount := ready.readyProcessCount + 1
      highestPriority :=
        if ready.readyProcessCount = 0 ∨ priority < ready.highestPriority then priority
        else ready.highestPriority }

/-- `transition_take_ready`: the best level is recomputed before the count goes down. -/
def take (p : ℕ) (priority : ℤ) (ready : ReadyQueue) : Option ReadyQueue :=
  (modifyAt (ready.level priority) (·.erase p) ready.queues).map fun queues =>
    let ready := { ready with queues := queues }.updateHighestPriority
    { ready with readyProcessCount := ready.readyProcessCount - 1 }

/-- `transition_take_ready_next_no_mutex`: `none` when every subqueue is empty. -/
def takeNext (ready : ReadyQueue) : Option (ℕ × ReadyQueue) :=
  (firstNonEmpty ready.queues).bind fun i =>
    match ready.queues[i]? with
    | some ⟨p :: rest, algorithm⟩ =>
      let ready := { ready with
        readyProcessCount := ready.readyProcessCount - 1
        queues := ready.queues.set i ⟨rest, algorithm⟩ }
      some (p, if rest.isEmpty then ready.updateHighestPriority else ready)
    | _ => none

/-! ## The configuration -/

/-- What never changes: whether the queue is multilevel, and the number of subqueues. -/
def levels (ready : ReadyQueue) : Bool × ℕ := (ready.multilevelQueue, ready.queues.length)

/-- A level can be changed if it exists, and there are as many afterwards. -/
lemma length_modifyAt {i : ℤ} {f : List ℕ → List ℕ} {queues queues' : List ReadySubqueue}
    (h : modifyAt i f queues = some queues') :
    queues'.length = queues.length ∧ 0 ≤ i ∧ i < queues.length := by
  unfold modifyAt at h
  split at h
  · rename_i hbound
    obtain rfl := Option.some.inj h
    exact ⟨List.length_modify _ _ _, hbound⟩
  · exact absurd h (by simp)

/-- There are as many levels after an addition. -/
lemma levels_add {p : ℕ} {priority : ℤ} {ready ready' : ReadyQueue}
    (h : add p priority ready = some ready') : ready'.levels = ready.levels := by
  obtain ⟨queues, hqueues, rfl⟩ := Option.map_eq_some_iff.1 h
  simp only [levels, (length_modifyAt hqueues).1]

/-- After a process is taken. -/
lemma levels_take {p : ℕ} {priority : ℤ} {ready ready' : ReadyQueue}
    (h : take p priority ready = some ready') : ready'.levels = ready.levels := by
  obtain ⟨queues, hqueues, rfl⟩ := Option.map_eq_some_iff.1 h
  simp only [levels, updateHighestPriority]
  split
  · split <;> simp [(length_modifyAt hqueues).1]
  · simp [(length_modifyAt hqueues).1]

/-- After the next one is taken. -/
lemma levels_takeNext {p : ℕ} {ready ready' : ReadyQueue}
    (h : takeNext ready = some (p, ready')) : ready'.levels = ready.levels := by
  obtain ⟨i, -, hmatch⟩ := Option.bind_eq_some_iff.1 h
  split at hmatch
  · obtain ⟨-, rfl⟩ := Prod.mk.inj (Option.some.inj hmatch)
    simp only [levels, updateHighestPriority]
    split
    · split
      · split <;> simp
      · simp
    · simp
  · exact absurd hmatch (by simp)

/-! ## What the subqueues hold -/

/-- The list of a subqueue; there is none behind the last one. -/
def levelList (queues : List ReadySubqueue) (i : ℕ) : List ℕ :=
  (queues[i]?.map ReadySubqueue.queue).getD []

/-- The number of queued PCBs. -/
def total (queues : List ReadySubqueue) : ℕ :=
  (queues.map fun subqueue => subqueue.queue.length).sum

/-- **The READY invariant**: the subqueues hold exactly the PCBs of `isReady`, once each and in the
subqueue of their priority; the count is the number of queued PCBs; and the best level is that of
the first subqueue with a PCB. -/
structure Represents (ready : ReadyQueue) (prio : ℕ → ℤ) (isReady : ℕ → Prop) : Prop where
  mem : ∀ i p, p ∈ levelList ready.queues i ↔ isReady p ∧ prio p = i
  nodup : ∀ i, (levelList ready.queues i).Nodup
  count : ready.readyProcessCount = total ready.queues
  highest : ready.readyProcessCount ≠ 0 →
    ∃ i, firstNonEmpty ready.queues = some i ∧ ready.highestPriority = i

/-- The first subqueue with a PCB has one, and those before it have none. -/
lemma firstNonEmpty_eq_some {queues : List ReadySubqueue} {i : ℕ} :
    firstNonEmpty queues = some i ↔
      levelList queues i ≠ [] ∧ ∀ j < i, levelList queues j = [] := by
  induction queues generalizing i with
  | nil => simp [firstNonEmpty, levelList]
  | cons subqueue rest ih =>
    have hzero : levelList (subqueue :: rest) 0 = subqueue.queue := by simp [levelList]
    have hsucc : ∀ j, levelList (subqueue :: rest) (j + 1) = levelList rest j := by
      simp [levelList]
    by_cases hempty : subqueue.queue = []
    · have hstep : firstNonEmpty (subqueue :: rest) = (firstNonEmpty rest).map (· + 1) := by
        simp [firstNonEmpty, List.findIdx?_cons, hempty]
      rw [hstep]
      cases i with
      | zero => simp [hzero, hempty]
      | succ i =>
        simp only [Option.map_eq_some_iff, Nat.add_right_cancel_iff, exists_eq_right, ih, hsucc]
        refine and_congr_right fun _ => ⟨fun h j hj => ?_, fun h j hj => ?_⟩
        · cases j with
          | zero => rw [hzero, hempty]
          | succ j => rw [hsucc, h j (by omega)]
        · rw [← hsucc, h (j + 1) (by omega)]
    · have hstep : firstNonEmpty (subqueue :: rest) = some 0 := by
        simp [firstNonEmpty, List.findIdx?_cons, hempty]
      rw [hstep, Option.some.injEq]
      constructor
      · rintro rfl
        exact ⟨by rwa [hzero], fun j hj => absurd hj (Nat.not_lt_zero j)⟩
      · rintro ⟨-, hbefore⟩
        by_contra hne
        exact hempty (hzero ▸ hbefore 0 (by omega))

/-- No subqueue has a PCB exactly when their number is `0`. -/
lemma total_eq_zero {queues : List ReadySubqueue} :
    total queues = 0 ↔ ∀ i, levelList queues i = [] := by
  have hsum : total queues = 0 ↔ ∀ subqueue ∈ queues, subqueue.queue = [] := by
    simp [total, List.sum_eq_zero_iff_forall_eq_nat]
  rw [hsum]
  constructor
  · intro h i
    rw [levelList]
    cases hi : queues[i]? with
    | none => rfl
    | some subqueue => simpa using h subqueue (List.mem_of_getElem? hi)
  · intro h subqueue hmem
    obtain ⟨i, hi⟩ := List.mem_iff_getElem?.1 hmem
    simpa [levelList, hi] using h i

/-- A subqueue with a PCB, when there is any. -/
lemma exists_firstNonEmpty {queues : List ReadySubqueue} (h : total queues ≠ 0) :
    ∃ i, firstNonEmpty queues = some i := by
  by_contra hnone
  refine h (total_eq_zero.2 fun i => ?_)
  -- the least index with a PCB would be found
  induction i using Nat.strong_induction_on with
  | _ i ih =>
    by_contra hne
    exact hnone ⟨i, firstNonEmpty_eq_some.2 ⟨hne, ih⟩⟩

/-- What `modifyAt` does to the subqueues: one of them changes. -/
lemma levelList_modifyAt {i : ℤ} {f : List ℕ → List ℕ} {queues queues' : List ReadySubqueue}
    (h : modifyAt i f queues = some queues') :
    0 ≤ i ∧ levelList queues' i.toNat = f (levelList queues i.toNat) ∧
      (∀ j, j ≠ i.toNat → levelList queues' j = levelList queues j) ∧
      total queues' + (levelList queues i.toNat).length =
        total queues + (f (levelList queues i.toNat)).length := by
  unfold modifyAt at h
  split at h
  · rename_i hi
    obtain rfl := Option.some.inj h
    have hlt : i.toNat < queues.length := by omega
    refine ⟨hi.1, ?_, fun j hj => ?_, ?_⟩
    · simp [levelList, hlt]
    · simp [levelList, Ne.symm hj]
    · generalize i.toNat = k at hlt ⊢
      clear hi h
      induction queues generalizing k with
      | nil => simp at hlt
      | cons subqueue rest ih =>
        cases k with
        | zero =>
          simp only [total, levelList, List.modify_zero_cons, List.map_cons, List.sum_cons,
            List.getElem?_cons_zero, Option.map_some, Option.getD_some]
          omega
        | succ k =>
          have hrest := ih k (by simpa using hlt)
          simp only [total, levelList, List.modify_succ_cons, List.map_cons, List.sum_cons,
            List.getElem?_cons_succ] at hrest ⊢
          omega
  · exact absurd h (by simp)

/-! ## The operations keep the invariant -/

variable {ready ready' : ReadyQueue} {prio prio' : ℕ → ℤ} {isReady isReady' : ℕ → Prop} {p : ℕ}

/-- The invariant only depends on which PCBs are ready and on their priorities. -/
lemma Represents.congr (h : ready.Represents prio isReady) (hr : ∀ q, isReady' q ↔ isReady q)
    (hp : ∀ q, isReady q → prio' q = prio q) : ready.Represents prio' isReady' where
  mem i q := by
    rw [h.mem, hr]
    exact and_congr_right fun hq => by rw [hp q hq]
  nodup := h.nodup
  count := h.count
  highest := h.highest

/-- The levels of a new queue are empty. -/
lemma levelList_init (multilevel : Bool) (algorithms : List SchedulingAlgorithm) (i : ℕ) :
    levelList (init multilevel algorithms).queues i = [] := by
  simp only [levelList, init, List.getElem?_map, Option.map_map]
  cases algorithms[i]? <;> rfl

/-- An empty queue holds nobody. -/
lemma represents_init (algorithms : List SchedulingAlgorithm) :
    (init true algorithms).Represents prio fun _ => False := by
  have hlevel : ∀ i, levelList (init true algorithms).queues i = [] := levelList_init true algorithms
  have htotal : total (init true algorithms).queues = 0 := total_eq_zero.2 hlevel
  refine ⟨fun i q => ?_, fun i => ?_, ?_, fun hne => absurd rfl hne⟩
  · simp [hlevel i]
  · simp [hlevel i]
  · rw [htotal]
    rfl

/-- `transition_to_ready` of a PCB that was not ready keeps the invariant. -/
theorem represents_add (h : ready.Represents prio isReady) (hm : ready.multilevelQueue = true)
    (hp : ¬ isReady p) (hadd : add p (prio p) ready = some ready') :
    ready'.Represents prio fun q => isReady q ∨ q = p := by
  obtain ⟨queues, hqueues, rfl⟩ := Option.map_eq_some_iff.1 hadd
  rw [level, if_pos hm] at hqueues
  obtain ⟨hpos, hself, hother, htotal⟩ := levelList_modifyAt hqueues
  have hat : ((prio p).toNat : ℤ) = prio p := by omega
  refine ⟨fun i q => ?_, fun i => ?_, ?_, fun _ => ?_⟩
  · by_cases hi : i = (prio p).toNat
    · subst hi
      rw [hself, List.mem_append, List.mem_singleton, h.mem, hat]
      constructor
      · rintro (⟨hq, heq⟩ | rfl)
        · exact ⟨.inl hq, heq⟩
        · exact ⟨.inr rfl, rfl⟩
      · rintro ⟨hq | rfl, heq⟩
        · exact .inl ⟨hq, heq⟩
        · exact .inr rfl
    · rw [hother i hi, h.mem]
      refine ⟨fun ⟨hq, heq⟩ => ⟨.inl hq, heq⟩, ?_⟩
      rintro ⟨hq | rfl, heq⟩
      · exact ⟨hq, heq⟩
      · exact absurd (by omega) hi
  · by_cases hi : i = (prio p).toNat
    · subst hi
      rw [hself]
      refine List.nodup_append.2 ⟨h.nodup _, by simp, ?_⟩
      rintro a ha b hb rfl
      obtain rfl := List.mem_singleton.1 hb
      exact hp ((h.mem _ _).1 ha).1
    · rw [hother i hi]
      exact h.nodup i
  · have hcount := h.count
    simp only [List.length_append, List.length_singleton] at htotal
    simp only
    omega
  · by_cases hzero : ready.readyProcessCount = 0
    · -- the first PCB of the queue makes its level the best one
      have hempty := total_eq_zero.1 (show total ready.queues = 0 by have := h.count; omega)
      refine ⟨(prio p).toNat, firstNonEmpty_eq_some.2 ⟨?_, fun j hj => ?_⟩, ?_⟩
      · rw [hself]
        exact List.append_ne_nil_of_right_ne_nil _ (List.cons_ne_nil _ _)
      · rw [hother j (by omega), hempty]
      · simp only [hzero, true_or, if_true]
        omega
    · obtain ⟨i, hfirst, hbest⟩ := h.highest hzero
      obtain ⟨hne, hbefore⟩ := firstNonEmpty_eq_some.1 hfirst
      by_cases hlt : prio p < ready.highestPriority
      · refine ⟨(prio p).toNat, firstNonEmpty_eq_some.2 ⟨?_, fun j hj => ?_⟩, ?_⟩
        · rw [hself]
          exact List.append_ne_nil_of_right_ne_nil _ (List.cons_ne_nil _ _)
        · rw [hother j (by omega), hbefore j (by omega)]
        · simp only [hlt, or_true, if_true]
          omega
      · refine ⟨i, firstNonEmpty_eq_some.2 ⟨?_, fun j hj => ?_⟩, ?_⟩
        · by_cases hi : i = (prio p).toNat
          · rw [hi, hself]
            exact List.append_ne_nil_of_right_ne_nil _ (List.cons_ne_nil _ _)
          · rwa [hother i hi]
        · rw [hother j (by omega), hbefore j hj]
        · simp only [hzero, hlt, or_self, if_false]
          exact hbest

/-- A recomputation changes nothing but the best level. -/
@[simp] lemma updateHighestPriority_queues (ready : ReadyQueue) :
    ready.updateHighestPriority.queues = ready.queues := by
  unfold updateHighestPriority
  split
  · split <;> rfl
  · rfl

/-- The highest priority does not change the count. -/
@[simp] lemma updateHighestPriority_readyProcessCount (ready : ReadyQueue) :
    ready.updateHighestPriority.readyProcessCount = ready.readyProcessCount := by
  unfold updateHighestPriority
  split
  · split <;> rfl
  · rfl

/-- Nor whether there are levels. -/
@[simp] lemma updateHighestPriority_multilevelQueue (ready : ReadyQueue) :
    ready.updateHighestPriority.multilevelQueue = ready.multilevelQueue := by
  unfold updateHighestPriority
  split
  · split <;> rfl
  · rfl

/-- With a positive count the recomputed best level is that of the first subqueue with a PCB. -/
lemma updateHighestPriority_highestPriority {i : ℕ} (hm : ready.multilevelQueue = true)
    (hc : 0 < ready.readyProcessCount) (hi : firstNonEmpty ready.queues = some i) :
    ready.updateHighestPriority.highestPriority = i := by
  unfold updateHighestPriority
  simp [hi, hc, hm]

/-- What a dispatch does to the queue: the first PCB of the first subqueue with one leaves it, and
the best level is recomputed if it was the last one there. -/
lemma takeNext_spec (h : takeNext ready = some (p, ready')) :
    ∃ i rest, firstNonEmpty ready.queues = some i ∧ levelList ready.queues i = p :: rest ∧
      levelList ready'.queues i = rest ∧
      (∀ j, j ≠ i → levelList ready'.queues j = levelList ready.queues j) ∧
      total ready'.queues + 1 = total ready.queues ∧
      ready'.readyProcessCount = ready.readyProcessCount - 1 ∧
      ready'.multilevelQueue = ready.multilevelQueue ∧
      (rest ≠ [] → ready'.highestPriority = ready.highestPriority) ∧
      (rest = [] → ready.multilevelQueue = true → 0 < ready'.readyProcessCount →
        ∀ j, firstNonEmpty ready'.queues = some j → ready'.highestPriority = j) := by
  obtain ⟨i, hfirst, hmatch⟩ := Option.bind_eq_some_iff.1 h
  split at hmatch
  · rename_i q rest algorithm hget
    obtain ⟨rfl, hready'⟩ := Prod.mk.inj (Option.some.inj hmatch)
    obtain ⟨hi, -⟩ := List.getElem?_eq_some_iff.1 hget
    have hlevel : levelList ready.queues i = q :: rest := by simp [levelList, hget]
    have hmodify : modifyAt i (fun _ => rest) ready.queues =
        some (ready.queues.set i ⟨rest, algorithm⟩) := by
      rw [modifyAt, if_pos ⟨by omega, by omega⟩, Int.toNat_natCast, List.modify_eq_set_getElem?,
        hget]
      rfl
    obtain ⟨-, hself, hother, hsum⟩ := levelList_modifyAt hmodify
    rw [Int.toNat_natCast] at hself hother hsum
    rw [hlevel, List.length_cons] at hsum
    refine ⟨i, rest, hfirst, hlevel, ?_⟩
    by_cases hrest : rest = []
    · rw [if_pos (by simp [hrest])] at hready'
      subst hready'
      simp only [updateHighestPriority_queues, updateHighestPriority_readyProcessCount,
        updateHighestPriority_multilevelQueue]
      refine ⟨hself, hother, by omega, trivial, trivial, fun hne => absurd hrest hne, ?_⟩
      intro _ hm hc j hj
      exact updateHighestPriority_highestPriority hm hc hj
    · rw [if_neg (by simp [hrest])] at hready'
      subst hready'
      exact ⟨hself, hother, by simp only; omega, rfl, rfl, fun _ => rfl,
        fun hnil => absurd hnil hrest⟩
  · exact absurd hmatch (by simp)

/-- `transition_take_ready_next` takes a PCB that is ready, and keeps the invariant for the
others. -/
theorem represents_takeNext (h : ready.Represents prio isReady)
    (hm : ready.multilevelQueue = true) (htake : takeNext ready = some (p, ready')) :
    isReady p ∧ ready'.Represents prio fun q => isReady q ∧ q ≠ p := by
  obtain ⟨i, rest, hfirst, hlevel, hself, hother, htotal, hcount, -, hkeep, hnew⟩ :=
    takeNext_spec htake
  obtain ⟨-, hbefore⟩ := firstNonEmpty_eq_some.1 hfirst
  have hready := (h.mem i p).1 (by rw [hlevel]; exact List.mem_cons_self)
  have hnodup := hlevel ▸ h.nodup i
  have hold := h.count
  refine ⟨hready.1, fun j q => ?_, fun j => ?_, by omega, fun hne => ?_⟩
  · by_cases hj : j = i
    · subst hj
      have hmem := h.mem j q
      rw [hlevel, List.mem_cons] at hmem
      rw [hself]
      constructor
      · intro hq
        have hq' := hmem.1 (.inr hq)
        exact ⟨⟨hq'.1, fun heq => (List.nodup_cons.1 hnodup).1 (heq ▸ hq)⟩, hq'.2⟩
      · rintro ⟨⟨hq, hqne⟩, hprio⟩
        exact (hmem.2 ⟨hq, hprio⟩).resolve_left hqne
    · rw [hother j hj, h.mem]
      refine ⟨fun ⟨hq, hprio⟩ => ⟨⟨hq, ?_⟩, hprio⟩, fun ⟨⟨hq, _⟩, hprio⟩ => ⟨hq, hprio⟩⟩
      rintro rfl
      have := hready.2
      omega
  · by_cases hj : j = i
    · subst hj
      rw [hself]
      exact (List.nodup_cons.1 hnodup).2
    · rw [hother j hj]
      exact h.nodup j
  · by_cases hrest : rest = []
    · obtain ⟨j, hj⟩ := exists_firstNonEmpty (show total ready'.queues ≠ 0 by omega)
      exact ⟨j, hj, hnew hrest hm (by omega) j hj⟩
    · -- the subqueue still has a PCB, so it stays the first one that has
      obtain ⟨i', hfirst', hbest⟩ := h.highest (by omega)
      obtain rfl : i = i' := Option.some.inj (hfirst ▸ hfirst')
      refine ⟨i, firstNonEmpty_eq_some.2 ⟨by rwa [hself], fun j hj => ?_⟩, ?_⟩
      · rw [hother j (by omega), hbefore j hj]
      · rw [hkeep hrest, hbest]

end ReadyQueue

end OsSimulator.Scheduler
