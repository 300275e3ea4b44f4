import Mathlib.Logic.Function.Basic
import OsSimulator.Library.LockGraph
import OsSimulator.Library.Runs

set_option relaxedAutoImplicit false
set_option autoImplicit false

/-!
# Programs that take and release locks

A thread is in a phase of its program, and in a phase it has a list of operations to choose from:
take a lock, release the one taken last, or work on the shared data. A lock has one owner, and a
thread that takes a lock which is owned does not get on.

## Main definitions

* `LockOp`, `LockState`, `lockStep` — the operations, the state and its steps.
* `OwnedAsHeld` — who owns a lock is what the phases say.
* `wants` — the lock that a thread waits for.

## Main results

* `ownedAsHeld_of_step` — it stays so in every step.
-/

namespace OsSimulator

universe u v w x

/-- An operation, with the phase after it. -/
inductive LockOp (Phase : Type u) (Lock : Type v) (Data : Type w)
  | lock (l : Lock) (next : Phase)
  | unlock (l : Lock) (next : Phase)
  | compute (next : Phase) (data : Data)

namespace LockOp

variable {Phase : Type u} {Lock : Type v} {Data : Type w}

/-- The phase after an operation. -/
def next : LockOp Phase Lock Data → Phase
  | lock _ next => next
  | unlock _ next => next
  | compute next _ => next

/-- The data after an operation. -/
def dataAfter (data : Data) : LockOp Phase Lock Data → Data
  | compute _ data => data
  | _ => data

/-- The lock of a phase in which there is nothing to do but to take it. -/
def wanted : List (LockOp Phase Lock Data) → Option Lock
  | [lock l _] => some l
  | _ => none

/-- An operation in the phase `p` does to the stack of the locks of a phase what it says. -/
def Respects (held : Phase → List Lock) (p : Phase) : LockOp Phase Lock Data → Prop
  | lock l next => held next = l :: held p
  | unlock l next => held p = l :: held next ∧ l ∉ held next
  | compute next _ => held next = held p

end LockOp

/-- The owners of the locks, the phases of the threads, and the data they share. -/
structure LockState {Thread : Type u} (Phase : Thread → Type v) (Lock : Type w) (Data : Type x) where
  owner : Lock → Option Thread
  phase : (t : Thread) → Phase t
  data : Data

variable {Thread : Type u} {Phase : Thread → Type v} {Lock : Type w} {Data : Type x}
  [DecidableEq Thread] [DecidableEq Lock]
  {ops : (t : Thread) → Data → Phase t → List (LockOp (Phase t) Lock Data)}
  {held : (t : Thread) → Phase t → List Lock}
  {s s' : LockState Phase Lock Data}

/-- An operation of a thread, if it can be done. -/
def LockState.apply (s : LockState Phase Lock Data) (t : Thread) :
    LockOp (Phase t) Lock Data → Option (LockState Phase Lock Data)
  | .lock l next =>
    if s.owner l = none then
      some { s with
        owner := Function.update s.owner l (some t), phase := Function.update s.phase t next }
    else none
  | .unlock l next =>
    some { s with owner := Function.update s.owner l none, phase := Function.update s.phase t next }
  | .compute next data => some { s with phase := Function.update s.phase t next, data := data }

/-- One step: a thread does one of the operations of its phase. -/
def lockStep (ops : (t : Thread) → Data → Phase t → List (LockOp (Phase t) Lock Data))
    (s : LockState Phase Lock Data) (choice : Thread × ℕ) : Option (LockState Phase Lock Data) :=
  match (ops choice.1 s.data (s.phase choice.1))[choice.2]? with
  | some op => s.apply choice.1 op
  | none => none

/-- The lock that a thread waits for, in a phase in which it can do nothing but take it. -/
def wants (ops : (t : Thread) → Data → Phase t → List (LockOp (Phase t) Lock Data))
    (s : LockState Phase Lock Data) (t : Thread) : Option Lock :=
  LockOp.wanted (ops t s.data (s.phase t))

/-- The owner of a lock is the thread whose phase holds it. -/
def OwnedAsHeld (held : (t : Thread) → Phase t → List Lock) (s : LockState Phase Lock Data) : Prop :=
  ∀ l t, s.owner l = some t ↔ l ∈ held t (s.phase t)

omit [DecidableEq Thread] [DecidableEq Lock] in
/-- A lock is held by one thread. -/
lemma OwnedAsHeld.eq (h : OwnedAsHeld held s) {l : Lock} {t u : Thread}
    (ht : l ∈ held t (s.phase t)) (hu : l ∈ held u (s.phase u)) : t = u := by
  have howner : some t = some u := ((h l t).2 ht).symm.trans ((h l u).2 hu)
  exact Option.some.inj howner

/-- What a step does: one thread does one of its operations. -/
lemma exists_op_of_lockStep {choice : Thread × ℕ} (h : lockStep ops s choice = some s') :
    ∃ op, (ops choice.1 s.data (s.phase choice.1))[choice.2]? = some op ∧
      s.apply choice.1 op = some s' := by
  unfold lockStep at h
  split at h
  · rename_i op hop
    exact ⟨op, hop, h⟩
  · exact absurd h (by simp)

/-- The phases and the data after an operation. -/
lemma phase_data_of_apply {t : Thread} {op : LockOp (Phase t) Lock Data}
    (h : s.apply t op = some s') :
    s'.phase = Function.update s.phase t op.next ∧ s'.data = op.dataAfter s.data := by
  cases op with
  | lock l next =>
    simp only [LockState.apply] at h
    split at h
    · obtain rfl := Option.some.inj h
      exact ⟨rfl, rfl⟩
    · exact absurd h (by simp)
  | unlock l next =>
    obtain rfl := Option.some.inj h
    exact ⟨rfl, rfl⟩
  | compute next data =>
    obtain rfl := Option.some.inj h
    exact ⟨rfl, rfl⟩

/-- The other threads stay where they are. -/
lemma phase_of_lockStep {choice : Thread × ℕ} (h : lockStep ops s choice = some s') {t : Thread}
    (ht : t ≠ choice.1) : s'.phase t = s.phase t := by
  obtain ⟨op, -, happly⟩ := exists_op_of_lockStep h
  rw [(phase_data_of_apply happly).1, Function.update_of_ne ht]

/-- **An operation keeps the owners as the phases say.** -/
lemma ownedAsHeld_of_apply (h : OwnedAsHeld held s) {t : Thread} {op : LockOp (Phase t) Lock Data}
    (hop : op.Respects (held t) (s.phase t)) (happly : s.apply t op = some s') :
    OwnedAsHeld held s' := by
  intro m u
  cases op with
  | lock l next =>
    simp only [LockState.apply] at happly
    split at happly
    · rename_i hfree
      obtain rfl := Option.some.inj happly
      show Function.update s.owner l (some t) m = some u ↔ m ∈ held u (Function.update s.phase t next u)
      by_cases hu : u = t
      · subst hu
        have hnext : held u next = l :: held u (s.phase u) := hop
        rw [Function.update_self, hnext]
        by_cases hm : m = l
        · simp [hm]
        · simp [hm, h m u]
      · rw [Function.update_of_ne hu]
        by_cases hm : m = l
        · -- nobody held the lock before
          subst hm
          rw [Function.update_self, ← h m u, hfree]
          simp [Ne.symm hu]
        · rw [Function.update_of_ne hm]
          exact h m u
    · exact absurd happly (by simp)
  | unlock l next =>
    obtain rfl := Option.some.inj happly
    obtain ⟨hstack, hout⟩ := hop
    show Function.update s.owner l none m = some u ↔ m ∈ held u (Function.update s.phase t next u)
    by_cases hu : u = t
    · subst hu
      rw [Function.update_self]
      by_cases hm : m = l
      · simp [hm, hout]
      · simp [hm, h m u, hstack]
    · rw [Function.update_of_ne hu]
      by_cases hm : m = l
      · -- the lock was held by `t`, so `u` did not hold it
        subst hm
        have hnot : m ∉ held u (s.phase u) := fun hmem => hu (h.eq hmem (by simp [hstack]))
        rw [Function.update_self]
        simp [hnot]
      · rw [Function.update_of_ne hm]
        exact h m u
  | compute next data =>
    obtain rfl := Option.some.inj happly
    show s.owner m = some u ↔ m ∈ held u (Function.update s.phase t next u)
    by_cases hu : u = t
    · subst hu
      have hnext : held u next = held u (s.phase u) := hop
      rw [Function.update_self, hnext]
      exact h m u
    · rw [Function.update_of_ne hu]
      exact h m u

/-- Every step of a program whose operations do what they say keeps the owners as the phases say. -/
lemma ownedAsHeld_of_step
    (hops : ∀ t data p, ∀ op ∈ ops t data p, op.Respects (held t) p) (h : OwnedAsHeld held s)
    {choice : Thread × ℕ} (hstep : lockStep ops s choice = some s') : OwnedAsHeld held s' := by
  obtain ⟨op, hop, happly⟩ := exists_op_of_lockStep hstep
  exact ownedAsHeld_of_apply h (hops _ _ _ op (List.mem_of_getElem? hop)) happly

end OsSimulator
