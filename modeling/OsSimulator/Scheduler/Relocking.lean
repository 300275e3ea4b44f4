import OsSimulator.Scheduler.Levels

set_option relaxedAutoImplicit false
set_option autoImplicit false

/-!
# When `mutex_lock` returns

`replace_priority` and `propagate_priority_transitive` climb from a mutex to its holder, from there
to the mutex that the holder waits for, and so on, and keep the lock of every mutex on the way. The
climb ends at a process that does not get a better priority. If it comes back to a mutex before,
the call waits for a lock that it owns itself.

## Main definitions

* `Position`, `ClimbStep s v` — how far the climb is, and one step of it.
* `Relocks` — the climb of a `mutex_lock` comes back to a mutex.
* `MeetsEnded` — it meets the freed PCB of a holder that has ended.

## Main results

* `length_raised_le` — the climb raises no more processes than there are mutexes.
* `returns_iff_of_reachable` — a `mutex_lock` returns exactly when its climb neither comes back to a
  mutex nor meets an ended holder.
-/

namespace OsSimulator.Scheduler

open Queues

/-- How far the climb of a call is: the mutexes it has passed and locked, the mutex it has come to,
and the processes it has given the new priority. -/
structure Position where
  locked : List String
  id : String
  raised : List ℕ

/-- One step of the climb of a call with the priority `v`: the holder is not one that has the
priority already, and is worse; it gets the priority, and the climb goes on with the mutex it waits
for. -/
inductive ClimbStep (s : Queues) (v : ℤ) : Position → Position → Prop
  | raise {w : Position} {m : Mutex} {h : ℕ} {id : String} (mutex : s.mutex w.id = some m)
      (holder : m.currentProcess = some h) (fresh : h ∉ w.raised)
      (worse : v < (s.pcbs h).priority) (waits : (s.pcbs h).blockingMutex = some id) :
      ClimbStep s v w ⟨w.id :: w.locked, id, h :: w.raised⟩

/-- The start of the climb of a `mutex_lock`. -/
def climbStart (id : String) : Position := ⟨[], id, []⟩

/-- The climb has come to a mutex that it has locked. -/
def Position.Relocks (w : Position) : Prop := w.id ∈ w.locked

/-- The climb has come to a mutex whose holder has ended, and whose next priority it makes better;
for the first mutex it is enough not to make it worse. -/
def Position.MeetsEnded (s : Queues) (v : ℤ) (w : Position) : Prop :=
  ∃ m h, s.mutex w.id = some m ∧ m.currentProcess = some h ∧ (s.pcbs h).destroyed = true ∧
    (v < m.nextPriority ∨ w.locked = [] ∧ v ≤ m.nextPriority)

/-- **The climb of a `mutex_lock` comes back to a mutex**, so that the call waits for itself. -/
def Relocks (s : Queues) (id : String) (p : ℕ) : Prop :=
  ∃ w, Relation.ReflTransGen (ClimbStep s (s.pcbs p).priority) (climbStart id) w ∧ w.Relocks

/-- The climb of a `mutex_lock` meets the freed PCB of a holder. -/
def MeetsEnded (s : Queues) (id : String) (p : ℕ) : Prop :=
  ∃ w, Relation.ReflTransGen (ClimbStep s (s.pcbs p).priority) (climbStart id) w ∧
    w.MeetsEnded s (s.pcbs p).priority

/-! ## The climb -/

section Climb

variable {s : Queues} {v : ℤ} {w w' : Position} {m : Mutex} {h : ℕ}

/-- From here the climb comes to a point at which the call is stuck. -/
def GetsStuck (s : Queues) (v : ℤ) (w : Position) : Prop :=
  ∃ w', Relation.ReflTransGen (ClimbStep s v) w w' ∧ (w'.Relocks ∨ w'.MeetsEnded s v)

/-- The climb gets stuck here or after one step. -/
lemma getsStuck_iff : GetsStuck s v w ↔ (w.Relocks ∨ w.MeetsEnded s v) ∨
    ∃ w', ClimbStep s v w w' ∧ GetsStuck s v w' := by
  constructor
  · rintro ⟨w', hclimb, hstuck⟩
    rcases Relation.ReflTransGen.cases_head hclimb with rfl | ⟨w₁, hfirst, hrest⟩
    · exact .inl hstuck
    · exact .inr ⟨w₁, hfirst, w', hrest, hstuck⟩
  · rintro (hstuck | ⟨w₁, hfirst, w', hrest, hstuck⟩)
    · exact ⟨w, .refl, hstuck⟩
    · exact ⟨w', .head hfirst hrest, hstuck⟩

/-- A climb gets stuck at a mutex that it has locked already, or at the freed PCB of a holder. -/
lemma getsStuck_climbStart {id : String} {p : ℕ} :
    GetsStuck s (s.pcbs p).priority (climbStart id) ↔ Relocks s id p ∨ MeetsEnded s id p := by
  constructor
  · rintro ⟨w, hclimb, hrelocks | hended⟩
    · exact .inl ⟨w, hclimb, hrelocks⟩
    · exact .inr ⟨w, hclimb, hended⟩
  · rintro (⟨w, hclimb, hrelocks⟩ | ⟨w, hclimb, hended⟩)
    · exact ⟨w, hclimb, .inl hrelocks⟩
    · exact ⟨w, hclimb, .inr hended⟩

/-- At a mutex that is not locked, with its holder. -/
lemma getsStuck_iff_of_holder (hm : s.mutex w.id = some m) (hh : m.currentProcess = some h)
    (hfresh : ¬ w.Relocks) : GetsStuck s v w ↔
      ((s.pcbs h).destroyed = true ∧ (v < m.nextPriority ∨ w.locked = [] ∧ v ≤ m.nextPriority)) ∨
      (h ∉ w.raised ∧ v < (s.pcbs h).priority ∧ ∃ id, (s.pcbs h).blockingMutex = some id ∧
        GetsStuck s v ⟨w.id :: w.locked, id, h :: w.raised⟩) := by
  rw [getsStuck_iff, or_iff_right hfresh]
  refine or_congr ⟨?_, fun hended => ⟨m, h, hm, hh, hended⟩⟩ ⟨?_, ?_⟩
  · rintro ⟨m', h', hm', hh', hended⟩
    obtain rfl := Option.some.inj (hm.symm.trans hm')
    obtain rfl := Option.some.inj (hh.symm.trans hh')
    exact hended
  · rintro ⟨w', hstep, hstuck⟩
    cases hstep with
    | raise hm' hh' hnot hworse hwaits =>
      obtain rfl := Option.some.inj (hm.symm.trans hm')
      obtain rfl := Option.some.inj (hh.symm.trans hh')
      exact ⟨hnot, hworse, _, hwaits, hstuck⟩
  · rintro ⟨hnot, hworse, id, hwaits, hstuck⟩
    exact ⟨_, .raise hm hh hnot hworse hwaits, hstuck⟩

/-- A mutex without a holder ends the climb. -/
lemma not_getsStuck_of_free (hm : s.mutex w.id = some m) (hh : m.currentProcess = none)
    (hfresh : ¬ w.Relocks) : ¬ GetsStuck s v w := by
  rw [getsStuck_iff, or_iff_right hfresh]
  rintro (⟨m', h', hm', hh', -⟩ | ⟨w', hstep, -⟩)
  · obtain rfl := Option.some.inj (hm.symm.trans hm')
    rw [hh] at hh'
    exact absurd hh' (by simp)
  · cases hstep with
    | raise hm' hh' =>
      obtain rfl := Option.some.inj (hm.symm.trans hm')
      rw [hh] at hh'
      exact absurd hh' (by simp)

/-- **The climb is finite**: the raised processes are different holders. -/
lemma length_raised_le {id : String}
    (hclimb : Relation.ReflTransGen (ClimbStep s v) (climbStart id) w) :
    w.locked.length = w.raised.length ∧ w.raised.length ≤ s.mutexes.length := by
  have hall : w.locked.length = w.raised.length ∧ w.raised.Nodup ∧
      w.raised ⊆ s.mutexes.filterMap Mutex.currentProcess := by
    induction hclimb with
    | refl => exact ⟨rfl, List.nodup_nil, List.nil_subset _⟩
    | tail _ hstep ih =>
      obtain ⟨hlength, hnodup, hsub⟩ := ih
      cases hstep with
      | raise hm hh hfresh =>
        refine ⟨by simp [hlength], List.nodup_cons.2 ⟨hfresh, hnodup⟩,
          List.cons_subset.2 ⟨?_, hsub⟩⟩
        exact List.mem_filterMap.2 ⟨_, (lookupKey_eq_some hm).2, hh⟩
  obtain ⟨hlength, hnodup, hsub⟩ := hall
  exact ⟨hlength, (List.subperm_of_subset hnodup hsub).length_le.trans (List.length_filterMap_le _ _)⟩

end Climb

/-! ## The call follows the climb -/

/-- What the call has changed so far of the state it started in: the raised processes have the
priority `v`, and only the locked mutexes may be different. -/
structure Climbed (s₀ : Queues) (v : ℤ) (locked : List String) (raised : List ℕ) (s : Queues) :
    Prop where
  blocking : ∀ q, (s.pcbs q).blockingMutex = (s₀.pcbs q).blockingMutex
  destroyed : ∀ q, (s.pcbs q).destroyed = (s₀.pcbs q).destroyed
  better : ∀ q ∈ raised, (s.pcbs q).priority = v
  kept : ∀ q, q ∉ raised → (s.pcbs q).priority = (s₀.pcbs q).priority
  mutex : ∀ id, id ∉ locked → s.mutex id = s₀.mutex id
  ids : s.mutexes.map Mutex.id = s₀.mutexes.map Mutex.id
  levels : s.ready.levels = s₀.ready.levels

section Follows

variable {pending : Option (ℕ × String)} {s₀ s t : Queues} {v : ℤ} {w : Position} {m : Mutex}
  {h : ℕ}

/-- A take from a level that exists returns. -/
lemma exists_take {ready : ReadyQueue} {priority : ℤ} (hlevel : ready.HasLevel priority) (p : ℕ) :
    ∃ ready', ready.take p priority = some ready' := by
  have hbound : 0 ≤ ready.level priority ∧ ready.level priority < ready.queues.length := hlevel
  unfold ReadyQueue.take ReadyQueue.modifyAt
  rw [if_pos hbound]
  exact ⟨_, rfl⟩

/-- `update_priority` returns for a process with a level. -/
lemma exists_updatePriority (hlevel : s.ready.HasLevel (s.pcbs h).priority) :
    ∃ s', s.updatePriority h = some s' := by
  unfold updatePriority
  split
  · obtain ⟨ready, htake⟩ := exists_take hlevel h
    obtain ⟨ready', hadd⟩ := (hlevel.congr (ReadyQueue.levels_take htake)).exists_add h
    have hto : ({ s with ready := ready } : Queues).transitionToReady h =
        some { s with ready := ready' } := by
      rw [transitionToReady, hadd, Option.map_some]
    refine ⟨{ s with ready := ready' }, ?_⟩
    rw [transitionTakeReady, htake, Option.map_some, Option.bind_some, hto]
  · exact ⟨_, rfl⟩

/-- **The call goes on at the holder of a mutex** as the climb does, when what follows does. -/
lemma replacePriorityWith_isSome_iff {propagate : ℕ → ℤ → Queues → Option Queues}
    {old : ℤ} {rest : List ℤ} (hlevel : s₀.ready.HasLevel v)
    (hprop : ∀ q u, Raising pending (w.id :: w.locked) q v t u →
      Climbed s₀ v (w.id :: w.locked) (q :: w.raised) u →
      ((propagate q v u).isSome = true ↔ ∀ id, (s₀.pcbs q).blockingMutex = some id →
        ¬ GetsStuck s₀ v ⟨w.id :: w.locked, id, q :: w.raised⟩))
    (hclimbed : Climbed s₀ v (w.id :: w.locked) w.raised t) (hs : Sound pending t)
    (hpend : ∀ p id, pending = some (p, id) → (t.pcbs p).priority ≤ v ∧ id ∈ w.id :: w.locked)
    (hbal : ∀ q, q ≠ h → ((t.pcbs q).priorityList).Perm ((t.pcbs q).basePriority :: owed t q))
    (hold : ((t.pcbs h).priorityList).Perm (old :: rest))
    (hnew : ((t.pcbs h).basePriority :: owed t h).Perm (v :: rest)) (hle : v ≤ old) :
    (replacePriorityWith propagate h old v t).isSome = true ↔ (s₀.pcbs h).destroyed = false ∧
      ¬ (h ∉ w.raised ∧ v < (s₀.pcbs h).priority ∧ ∃ id, (s₀.pcbs h).blockingMutex = some id ∧
        GetsStuck s₀ v ⟨w.id :: w.locked, id, h :: w.raised⟩) := by
  unfold replacePriorityWith
  rw [hclimbed.destroyed]
  by_cases hdestroyed : (s₀.pcbs h).destroyed = true
  · simp [hdestroyed]
  rw [if_neg hdestroyed, and_iff_right (by simpa using hdestroyed)]
  obtain ⟨hlists, hcases⟩ := replaceEntry_cases hs hbal hold hnew hle
  simp only
  rcases hcases with ⟨hlt, hr⟩ | ⟨hnot, hr⟩
  · -- the holder is raised
    have hv := hr.priority
    have hfresh : h ∉ w.raised := by
      intro hmem
      have := hclimbed.better h hmem
      omega
    have hworse : v < (s₀.pcbs h).priority := by rwa [← hclimbed.kept h hfresh]
    rw [if_pos (by rw [hv]; exact hlt.ne), hv]
    have hlevel' : (t.replaceEntry h old v).ready.HasLevel
        ((t.replaceEntry h old v).pcbs h).priority := by
      rw [hv]
      exact hlevel.congr hclimbed.levels
    obtain ⟨u, hu⟩ := exists_updatePriority hlevel'
    rw [hu, Option.bind_some]
    obtain ⟨ready, rfl, -, hlevels⟩ := updatePriority_spec hu
    have hready := hr.withReady ready
    have hafter : Climbed s₀ v (w.id :: w.locked) (h :: w.raised)
        { t.replaceEntry h old v with ready := ready } := by
      refine ⟨fun q => (hready.blocking q).trans (hclimbed.blocking q),
        fun q => (hready.destroyed q).trans (hclimbed.destroyed q), fun q hq => ?_, fun q hq => ?_,
        hclimbed.mutex, hclimbed.ids, hlevels.trans hclimbed.levels⟩
      · by_cases heq : q = h
        · rw [heq]
          exact hready.priority
        · rw [hready.other q heq]
          exact hclimbed.better q ((List.mem_cons.1 hq).resolve_left heq)
      · obtain ⟨hne, hnotin⟩ := not_or.1 (fun hor => hq (List.mem_cons.2 hor))
        rw [hready.other q hne]
        exact hclimbed.kept q hnotin
    rw [hprop h _ ⟨hs, hpend, hready, hlt, hlists⟩ hafter]
    constructor
    · rintro hnone ⟨-, -, id, hwaits, hstuck⟩
      exact hnone id hwaits hstuck
    · intro hnone id hwaits hstuck
      exact hnone ⟨hfresh, hworse, id, hwaits, hstuck⟩
  · -- the holder has the priority, or a better one
    rw [if_neg (by rw [hr.priority]; exact fun hne => hne rfl)]
    refine iff_of_true rfl ?_
    rintro ⟨hfresh, hworse, -⟩
    rw [← hclimbed.kept h hfresh] at hworse
    exact hnot hworse

/-- The priority of a holder is not worse than the next priority of its mutex. -/
lemma Raising.priority_le_next {locked : List String} {p : ℕ} {u : Queues}
    (hR : Raising pending locked p v t u) (hm : m ∈ t.mutexes) (hunlocked : m.id ∉ locked)
    (hholder : m.currentProcess = some h) : (u.pcbs h).priority ≤ m.nextPriority := by
  have hnext := (hR.sound.mutex m hm).next fun q hq => hunlocked (hR.pending q m.id hq).2
  have hpcb := hR.replaced.pcbSound hR.sound h
  refine (le_of_head?_of_pairwise hpcb.first hpcb.sorted).2 _ ((hR.entries h).mem_iff.2 ?_)
  refine List.mem_cons_of_mem _ (List.mem_flatMap.2 ⟨m, hm, ?_⟩)
  rw [owedBy, if_pos hholder, hnext]
  exact List.mem_singleton_self _

/-- Behind the head of the list, the process finds a next priority that is better than its own. -/
lemma Raising.next_lt {locked : List String} {p : ℕ} {u : Queues}
    (hR : Raising pending locked p v t u) (hm : m ∈ t.mutexes) (hunlocked : m.id ∉ locked)
    (hmem : p ∈ m.list) (hindex : (insertPcbSorted u.pcbs p (m.list.erase p)).1 ≠ 0) :
    m.nextPriority < v := by
  have hms := hR.sound.mutex m hm
  have hsame := (nextOf_reposition hR.replaced hms hmem hR.better).2 hindex
  rw [hms.next fun q hq => hunlocked (hR.pending q m.id hq).2, ← hsame]
  obtain ⟨first, -, hfirst, hpass⟩ := head?_listAddSorted_of_index_ne_zero _ _ hindex
  obtain ⟨others, hlist⟩ := List.head?_eq_some_iff.1 hfirst
  rw [nextOf, show (insertPcbSorted u.pcbs p (m.list.erase p)).2 = first :: others from hlist]
  simpa [isHighestPriority, hR.replaced.priority] using hpass

/-- The ids of the mutexes decide. -/
lemma unlockedIds_congr {locked : List String}
    (h : t.mutexes.map Mutex.id = s.mutexes.map Mutex.id) :
    unlockedIds locked t = unlockedIds locked s := by
  rw [unlockedIds, unlockedIds, h]

/-- **The propagation follows the climb.**

**Proof sketch.** Induction on the rounds. The process is the first one of its waiting list now and
the call goes on at the holder, or the next priority of the mutex is not worse than `v`; then
neither is the holder, and the climb ends as well. -/
lemma propagatePriorityTransitive_isSome_iff {rounds : ℕ} {locked : List String}
    {raised : List ℕ} {u : Queues} (hlevel : s₀.ready.HasLevel v)
    (hR : Raising pending locked h v t u) (hclimbed : Climbed s₀ v locked (h :: raised) u)
    (hlocked : locked ≠ []) (hrounds : (unlockedIds locked u).length < rounds) :
    (propagatePriorityTransitive rounds locked h v u).isSome = true ↔
      ∀ id, (s₀.pcbs h).blockingMutex = some id →
        ¬ GetsStuck s₀ v ⟨locked, id, h :: raised⟩ := by
  induction rounds generalizing locked raised h t u with
  | zero => exact absurd hrounds (by omega)
  | succ rounds ih =>
    have hr := hR.replaced
    rw [propagatePriorityTransitive]
    cases hblock : (u.pcbs h).blockingMutex with
    | none =>
      rw [hclimbed.blocking] at hblock
      simp [hblock]
    | some id =>
      have hblock₀ : (s₀.pcbs h).blockingMutex = some id := (hclimbed.blocking h).symm.trans hblock
      rw [hr.blocking] at hblock
      simp only [hblock₀, Option.some.injEq, forall_eq']
      by_cases hrelocks : id ∈ locked
      · rw [if_pos hrelocks]
        refine iff_of_false (by simp) (not_not.2 (getsStuck_iff.2 (.inl (.inl hrelocks))))
      rw [if_neg hrelocks]
      obtain ⟨m, hm, rfl, hmutex, hmem⟩ := hR.sound.exists_mutex hblock
      have hms := hR.sound.mutex m hm
      have hmutex' : u.mutex m.id = some m := by
        rw [Queues.mutex, hr.mutexes]
        exact hmutex
      have hmutex₀ : s₀.mutex m.id = some m := by rw [← hclimbed.mutex m.id hrelocks, hmutex']
      obtain ⟨holder, hholder⟩ : ∃ holder, m.currentProcess = some holder :=
        Option.ne_none_iff_exists'.1 (hms.held (List.ne_nil_of_mem hmem))
      have hstuck := getsStuck_iff_of_holder (v := v) (w := ⟨locked, m.id, h :: raised⟩) hmutex₀ hholder
        hrelocks
      rw [hmutex', hstuck]
      simp only
      rw [if_neg (by simp [hms.active, hmem])]
      split
      · -- the process is the first one now, and the holder gets another entry
        rename_i hfirst
        rw [hholder]
        simp only
        rw [modifyMutex_modifyMutex _ (by exact fun _ => rfl)]
        set f : Mutex → Mutex := fun m' => { m' with
          list := (insertPcbSorted u.pcbs h (m.list.erase h)).2, nextPriority := v } with hf
        set x := u.modifyMutex m.id f with hx
        obtain ⟨hsound, hpend, hlists, hle, rest, hold, hnew⟩ :=
          hR.next hm hblock hrelocks hholder hfirst.1 hx
        have hids : x.mutexes.map Mutex.id = u.mutexes.map Mutex.id :=
          map_id_modifyMutex m.id (by exact fun _ => rfl) u
        have hafter : Climbed s₀ v (m.id :: locked) (h :: raised) x := by
          refine ⟨hclimbed.blocking, hclimbed.destroyed, hclimbed.better, hclimbed.kept,
            fun id hid => ?_, hids.trans hclimbed.ids, hclimbed.levels⟩
          obtain ⟨hne, hnot⟩ := not_or.1 fun hor => hid (List.mem_cons.2 hor)
          rw [hx, mutex_modifyMutex_of_ne hne (by exact fun _ => rfl)]
          exact hclimbed.mutex id hnot
        have hfewer := length_unlockedIds_cons
          (List.mem_map_of_mem (lookupKey_eq_some hmutex').2) hrelocks
        have hiff := replacePriorityWith_isSome_iff (w := ⟨locked, m.id, h :: raised⟩) hlevel
          (fun q y hRy hy => by
            refine ih hRy hy (List.cons_ne_nil _ _) ?_
            rw [unlockedIds_congr ((congrArg (List.map Mutex.id) hRy.replaced.mutexes).trans hids)]
            exact lt_of_lt_of_le hfewer (Nat.lt_succ_iff.1 hrounds))
          hafter hsound hpend hlists hold hnew hle
        rw [hiff, not_or]
        refine and_congr_left fun _ => ?_
        have hlt : v < m.nextPriority := lt_of_le_of_ne hle hfirst.2
        simp [hlt]
      · -- the head of the list is not worse than `v`, and neither is the holder
        rename_i hfirst
        have hnext : m.nextPriority ≤ v := by
          by_cases hindex : (insertPcbSorted u.pcbs h (m.list.erase h)).1 = 0
          · exact (not_not.1 fun hne => hfirst ⟨hindex, hne⟩).ge
          · exact (hR.next_lt hm hrelocks hmem hindex).le
        have hpriority := (hR.priority_le_next hm hrelocks hholder).trans hnext
        refine iff_of_true rfl ?_
        rintro (⟨-, hlt | ⟨hnil, -⟩⟩ | ⟨hfresh, hworse, -⟩)
        · omega
        · exact hlocked hnil
        · rw [hclimbed.kept holder hfresh] at hpriority
          omega

end Follows

/-! ## The call -/

variable {p : ℕ} {id : String} {s : Queues} {m : Mutex}

/-- **A `mutex_lock` returns** exactly when its climb does not get stuck. -/
lemma mutexLock_isSome_iff (hi : Inheriting s) (hl : Levelled s) (hm : m ∈ s.mutexes)
    (hexec : (s.pcbs p).state = .exec) :
    (s.mutexLock m p).isSome = true ↔ ¬ GetsStuck s (s.pcbs p).priority (climbStart m.id) := by
  have hms := hi.sound.mutex m hm
  have hcount := hms.state (by simp)
  have hlookup := hi.sound.mutex_eq hm
  have hlevel : s.ready.HasLevel (s.pcbs p).priority := by
    apply hl.priority p
    rw [hexec]
    exact ⟨by decide, by decide⟩
  have hfresh : ¬ (climbStart m.id).Relocks := by simp [climbStart, Position.Relocks]
  unfold mutexLock
  simp only
  by_cases hfree : m.state = 1
  · rw [if_pos hfree]
    refine iff_of_true rfl (not_getsStuck_of_free hlookup ?_ hfresh)
    by_contra hne
    rw [if_neg hne] at hcount
    omega
  obtain ⟨holder, hholder⟩ : ∃ holder, m.currentProcess = some holder := by
    refine Option.ne_none_iff_exists'.1 fun hnone => hfree ?_
    have hempty : m.list = [] := by
      by_contra hne
      exact hms.held hne hnone
    rw [hcount, hnone, hempty]
    simp
  rw [if_neg hfree, if_pos hms.active, getsStuck_iff_of_holder hlookup hholder hfresh]
  split
  · -- the caller waits first
    rename_i hindex
    rw [hholder]
    simp only [Option.isSome_map]
    set f : Mutex → Mutex := fun m' => { m' with list := (insertPcbSorted s.pcbs p m.list).2 }
    set t := s.modifyMutex m.id f with ht
    obtain ⟨hsound, hpend, hlists, hle, rest, hold, hnew⟩ :=
      lock_link hi.sound hi.balanced hm hexec hholder hindex ht
    have hids : t.mutexes.map Mutex.id = s.mutexes.map Mutex.id :=
      map_id_modifyMutex m.id (by exact fun _ => rfl) s
    have hclimbed : Climbed s (s.pcbs p).priority [m.id] [] t := by
      refine ⟨fun _ => rfl, fun _ => rfl, fun _ hq => absurd hq (by simp), fun _ _ => rfl,
        fun id hid => ?_, hids, rfl⟩
      exact mutex_modifyMutex_of_ne (by simpa using hid) (by exact fun _ => rfl) s
    have hprop : ∀ q u, Raising (some (p, m.id)) [m.id] q (s.pcbs p).priority t u →
        Climbed s (s.pcbs p).priority [m.id] [q] u →
        ((propagatePriorityTransitive (t.mutexes.length + 1) [m.id] q (s.pcbs p).priority
          u).isSome = true ↔ ∀ id, (s.pcbs q).blockingMutex = some id →
            ¬ GetsStuck s (s.pcbs p).priority ⟨[m.id], id, [q]⟩) := by
      intro q u hRu hu
      apply propagatePriorityTransitive_isSome_iff hlevel hRu hu (List.cons_ne_nil _ _)
      rw [unlockedIds_congr (congrArg (List.map Mutex.id) hRu.replaced.mutexes), unlockedIds]
      have hlength := List.length_filter_le (fun id => decide (id ∉ [m.id]))
        (t.mutexes.map Mutex.id)
      rw [List.length_map] at hlength
      omega
    have hiff := replacePriorityWith_isSome_iff (w := climbStart m.id) hlevel hprop hclimbed hsound
      hpend hlists hold hnew hle
    rw [replacePriority, hiff, not_or]
    refine and_congr_left fun _ => ?_
    simp [climbStart, hle]
  · -- the head of the list is not worse than the caller, and neither is the holder
    rename_i hindex
    obtain ⟨first, hfirst, -, hpass⟩ := head?_listAddSorted_of_index_ne_zero _ _ hindex
    obtain ⟨others, hlist⟩ := List.head?_eq_some_iff.1 hfirst
    have hnext : m.nextPriority < (s.pcbs p).priority := by
      rw [hms.next (by simp), nextOf, hlist]
      simpa [isHighestPriority] using hpass
    have hpriority := priority_le_of_mem hi (nextOf_mem hi hm hholder)
    rw [← hms.next (by simp)] at hpriority
    refine iff_of_true rfl ?_
    rintro (⟨-, hlt | ⟨-, hle⟩⟩ | ⟨-, hworse, -⟩) <;> omega

/-- **Propagation terminates, and re-locks only when its climb comes back.** In every reachable
state the climb of a `mutex_lock` raises no more processes than there are mutexes, and the call
returns exactly when the climb does not come to a mutex that it has locked, nor to an ended
holder. -/
theorem returns_iff_of_reachable {multilevel : Bool} {algorithms : List SchedulingAlgorithm}
    {preemption : Bool} {s : Queues}
    (h : Reachable step (initQueues multilevel algorithms preemption) s) {p : ℕ}
    (hexec : (s.pcbs p).state = .exec) (id : String) :
    (∀ w, Relation.ReflTransGen (ClimbStep s (s.pcbs p).priority) (climbStart id) w →
      w.locked.length ≤ s.mutexes.length) ∧
    ((s.listMutexLock id p).isSome = true ↔ ¬ Relocks s id p ∧ ¬ MeetsEnded s id p) := by
  have hi := inheriting_of_reachable h
  have hl := levelled_of_reachable h
  refine ⟨fun w hclimb => ?_, ?_⟩
  · obtain ⟨hlength, hle⟩ := length_raised_le hclimb
    omega
  rw [← not_or, ← getsStuck_climbStart, listMutexLock]
  cases hlookup : s.mutex id with
  | none =>
    -- an unknown name: there is nothing to climb
    refine iff_of_true rfl ?_
    rw [getsStuck_iff]
    rintro ((hrelocks | ⟨m, h, hm, -⟩) | ⟨w, hstep, -⟩)
    · simp [climbStart, Position.Relocks] at hrelocks
    · exact absurd (hlookup.symm.trans hm) (by simp)
    · cases hstep with
      | raise hm => exact absurd (hlookup.symm.trans hm) (by simp)
  | some m =>
    obtain ⟨rfl, hm⟩ := lookupKey_eq_some hlookup
    exact mutexLock_isSome_iff hi hl hm hexec

/-- The last lock of the chain of three processes returns. -/
theorem returns_iff_of_reachable_chainOfThree :
    ∃ s, execute step (initQueues true (List.replicate 3 .fifo) false) chainOfThree.dropLast =
        some s ∧
      (∀ w, Relation.ReflTransGen (ClimbStep s (s.pcbs 2).priority) (climbStart "b") w →
        w.locked.length ≤ s.mutexes.length) ∧
      ¬ Relocks s "b" 2 ∧ ¬ MeetsEnded s "b" 2 := by
  have hrun : (execute step (initQueues true (List.replicate 3 .fifo) false)
      chainOfThree.dropLast).map (fun s =>
        ((s.pcbs 2).state, (s.listMutexLock "b" 2).isSome)) = some (.exec, true) := by decide
  obtain ⟨s, hs, heq⟩ := Option.map_eq_some_iff.1 hrun
  obtain ⟨hexec, hreturns⟩ := Prod.mk.inj heq
  obtain ⟨hfinite, hiff⟩ := returns_iff_of_reachable (Run.of_execute hs) hexec "b"
  exact ⟨s, hs, hfinite, hiff.1 hreturns⟩

/-- **A process locks a mutex that it holds, and then a better one asks for it**: the climb goes
from the mutex to its holder and back to the mutex, and the call does not return. -/
theorem not_returns_of_relock :
    ∃ s, Reachable step (initQueues true (List.replicate 2 .fifo) false) s ∧
      (s.pcbs 1).state = .exec ∧ Relocks s "m" 1 ∧ s.listMutexLock "m" 1 = none := by
  have hrun : (execute step (initQueues true (List.replicate 2 .fifo) false)
      [.newReady 1 true, .newReady 0 true, .dispatch, .dispatch, .mutexCreate "m" 0,
        .mutexLock "m" 0, .mutexLock "m" 0]).map (fun s =>
        ((s.pcbs 1).state, ((s.pcbs 0).blockingMutex, (s.mutex "m").bind Mutex.currentProcess),
          ((s.pcbs 0).priority, (s.pcbs 1).priority, (s.listMutexLock "m" 1).isNone))) =
      some (.exec, (some "m", some 0), (1, 0, true)) := by decide
  obtain ⟨s, hs, heq⟩ := Option.map_eq_some_iff.1 hrun
  simp only [Prod.mk.injEq] at heq
  obtain ⟨hexec, ⟨hwaits, hholder⟩, hprio, hcaller, hnone⟩ := heq
  obtain ⟨m, hm, hcur⟩ := Option.bind_eq_some_iff.1 hholder
  refine ⟨s, Run.of_execute hs, hexec, ?_, Option.isNone_iff_eq_none.1 hnone⟩
  have hstep : ClimbStep s (s.pcbs 1).priority (climbStart "m") ⟨["m"], "m", [0]⟩ :=
    .raise (w := climbStart "m") hm hcur (by simp [climbStart]) (by rw [hprio, hcaller]; decide)
      hwaits
  exact ⟨_, .single hstep, List.mem_singleton_self _⟩

end OsSimulator.Scheduler
