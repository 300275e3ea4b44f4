import OsSimulator.Utils.CInt
import OsSimulator.Utils.List

set_option relaxedAutoImplicit false
set_option autoImplicit false

/-!
# Process control blocks

The PCB of `domain/pcb.h` without its locks. A PCB is named by its pid, so a list of PCB pointers
is a list of pids, and the table of PCBs is a function of the pid.

## Main definitions

* `ProcessState`, `Pcb` — `t_process_state` and `t_pcb`.
* `isHighestPriority`, `insertPcbSorted` — the order of the sorted PCB lists and the insertion.
-/

namespace OsSimulator.Scheduler

/-- `t_process_state`. -/
inductive ProcessState
  | new
  | ready
  | exec
  | block
  | suspBlock
  | suspReady
  | exit
  deriving DecidableEq, Repr

/-- A process that has been created and has not ended. -/
def ProcessState.Live (state : ProcessState) : Prop := state ≠ .new ∧ state ≠ .exit

/-- `t_pcb`. `basePriority` is the priority `create_pcb` was given, which the source only keeps as
an entry of `priority_list`; `destroyed` says that `destroy_pcb` has freed the block. The blocking
mutex is named by its id. -/
structure Pcb where
  basePriority : ℤ
  priority : ℤ
  priorityList : List ℤ
  state : ProcessState
  blockingMutex : Option String
  destroyed : Bool
  deriving DecidableEq, Repr

/-- `create_pcb`. -/
def createPcb (state : ProcessState) (priority : ℤ) : Pcb where
  basePriority := priority
  priority := priority
  priorityList := [priority]
  state := state
  blockingMutex := none
  destroyed := false

/-- `is_highest_priority`: a PCB passes those whose priority is not better than its own. -/
def isHighestPriority (pcbs : ℕ → Pcb) (pcb1 pcb2 : ℕ) : Bool :=
  decide ((pcbs pcb1).priority ≤ (pcbs pcb2).priority)

/-- `insert_pcb_sorted`. -/
def insertPcbSorted (pcbs : ℕ → Pcb) (pcb : ℕ) (list : List ℕ) : ℕ × List ℕ :=
  listAddSorted (isHighestPriority pcbs) pcb list

/-- A list of PCBs in the order of their current priorities. -/
def SortedByPriority (pcbs : ℕ → Pcb) (list : List ℕ) : Prop :=
  list.Pairwise fun a b => (pcbs a).priority ≤ (pcbs b).priority

/-- A sorted insertion keeps the order. -/
lemma sortedByPriority_insertPcbSorted {pcbs : ℕ → Pcb} {list : List ℕ}
    (h : SortedByPriority pcbs list) (p : ℕ) :
    SortedByPriority pcbs (insertPcbSorted pcbs p list).2 := by
  refine pairwise_listAddSorted _ _ (fun a b => (pcbs a).priority ≤ (pcbs b).priority)
    (fun a b c hab hbc => le_trans hab hbc) (fun y hy => ?_) (fun y hy => ?_) h
  · simpa [isHighestPriority] using hy
  · have hlt : (pcbs y).priority < (pcbs p).priority := by simpa [isHighestPriority] using hy
    exact hlt.le

/-- The list after the insertion has one process more. -/
lemma perm_insertPcbSorted (pcbs : ℕ → Pcb) (p : ℕ) (list : List ℕ) :
    ((insertPcbSorted pcbs p list).2).Perm (p :: list) :=
  perm_listAddSorted _ _ _

/-- That process and the old ones are in it. -/
lemma mem_insertPcbSorted {pcbs : ℕ → Pcb} {p q : ℕ} {list : List ℕ} :
    q ∈ (insertPcbSorted pcbs p list).2 ↔ q = p ∨ q ∈ list :=
  mem_listAddSorted _ _

end OsSimulator.Scheduler
