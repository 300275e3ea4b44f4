import Mathlib.Logic.Function.Basic
import OsSimulator.Library.Runs
import OsSimulator.Memory.Replies
import OsSimulator.Memory.Script

set_option relaxedAutoImplicit false
set_option autoImplicit false

/-!
# The registry of the processes

The list `processes` of Kernel Memory, into which `handle_new_process` puts whatever `init_process`
returns, and in which everybody looks a process up.

## Main definitions

* `ProcessRegistry.findProcess` — `find_process`; `none` is the null pointer that it reads.
* `ProcessRequest`, `ProcessRegistry.step` — the requests, on the list and on the processes that
  exist.
* `Registered` — the list has one entry for each process that exists, and nothing else.
* `Creates` — a new process has a script and a pid that no other one has.

## Main results

* `registered_iff_creates` — the registry is right in every state of a run exactly when all its new
  processes are so.
-/

namespace OsSimulator.Memory

namespace ProcessRegistry

/-- `find_process`: the entry or a null pointer. -/
def findProcess (pid : UInt32) : List (Option Process) → Option (Option Process)
  | [] => some none
  | none :: _ => none
  | some process :: rest =>
    if process.pid = pid then some (some process) else findProcess pid rest

/-- `handle_new_process` adds what `init_process` returns. -/
def handleNewProcess (pid : UInt32) (script : Option (List UInt8))
    (processes : List (Option Process)) : List (Option Process) :=
  processes ++ [initProcess pid script]

/-- `handle_end_process`. -/
def handleEndProcess (pid : UInt32) (processes : List (Option Process)) :
    Option (List (Option Process)) :=
  (findProcess pid processes).map fun found => match found with
    | none => processes
    | some process => processes.erase (some process)

end ProcessRegistry

/-- The requests that use the registry. A script that cannot be opened is `none`. -/
inductive ProcessRequest
  | newProcess (pid : UInt32) (script : Option (List UInt8))
  | endProcess (pid : UInt32)
  | findProcess (pid : UInt32)
  deriving DecidableEq, Repr

/-- The list of the processes, and the processes that exist. -/
structure ProcessRegistry where
  processes : List (Option Process)
  live : UInt32 → Option Process

namespace ProcessRegistry

/-- No process. -/
def empty : ProcessRegistry := ⟨[], fun _ => none⟩

/-- A process exists when `init_process` does not return a null pointer. -/
def newProcess (pid : UInt32) (script : Option (List UInt8)) (r : ProcessRegistry) :
    ProcessRegistry where
  processes := handleNewProcess pid script r.processes
  live := match initProcess pid script with
    | none => r.live
    | some process => Function.update r.live pid (some process)

/-- A process exists until it is ended. -/
def endProcess (pid : UInt32) (r : ProcessRegistry) : Option ProcessRegistry :=
  (handleEndProcess pid r.processes).map fun processes =>
    ⟨processes, Function.update r.live pid none⟩

/-- A request. A lookup that reads a null pointer does not return. -/
def step (r : ProcessRegistry) : ProcessRequest → Option ProcessRegistry
  | .newProcess pid script => some (r.newProcess pid script)
  | .endProcess pid => r.endProcess pid
  | .findProcess pid => (findProcess pid r.processes).map fun _ => r

end ProcessRegistry

/-- **The registry is right**: the list has exactly one entry for each process that exists and no
null pointer, and a lookup finds it. -/
structure Registered (r : ProcessRegistry) : Prop where
  entries : ∃ processes : List Process, r.processes = processes.map some ∧
    (processes.map Process.pid).Nodup ∧
    ∀ pid process, r.live pid = some process ↔ process ∈ processes ∧ process.pid = pid
  finds : ∀ pid, ProcessRegistry.findProcess pid r.processes = some (r.live pid)

/-- **A new process has a script, and its pid is that of no process that exists.** -/
def Creates (r : ProcessRegistry) : ProcessRequest → Prop
  | .newProcess pid script => script ≠ none ∧ r.live pid = none
  | _ => True

namespace ProcessRegistry

variable {r : ProcessRegistry} {pid : UInt32}

/-- The lookup in a list without null pointers. -/
lemma findProcess_map_some (pid : UInt32) (processes : List Process) :
    findProcess pid (processes.map some) = some (processes.find? fun p => p.pid = pid) := by
  induction processes with
  | nil => rfl
  | cons process rest ih =>
    rw [List.map_cons, findProcess, List.find?_cons]
    by_cases h : process.pid = pid
    · simp [h]
    · simp [h, ih]

/-- One entry for each process is enough for the lookups. -/
lemma registered_of_entries {processes : List Process} (hlist : r.processes = processes.map some)
    (hnodup : (processes.map Process.pid).Nodup)
    (hlive : ∀ pid process, r.live pid = some process ↔ process ∈ processes ∧ process.pid = pid) :
    Registered r := by
  refine ⟨⟨processes, hlist, hnodup, hlive⟩, fun pid => ?_⟩
  rw [hlist, findProcess_map_some]
  congr 1
  cases hfind : processes.find? fun p => p.pid = pid with
  | none =>
    symm
    rw [Option.eq_none_iff_forall_ne_some]
    intro process hprocess
    obtain ⟨hmem, hpid⟩ := (hlive pid process).1 hprocess
    exact absurd hpid (by simpa using List.find?_eq_none.1 hfind process hmem)
  | some process =>
    have hpid : process.pid = pid := by simpa using List.find?_some hfind
    exact ((hlive pid process).2 ⟨List.mem_of_find?_eq_some hfind, hpid⟩).symm

/-- Nobody is registered in the empty table. -/
lemma registered_empty : Registered empty := by
  refine @registered_of_entries empty [] rfl List.nodup_nil fun pid process => ?_
  simp [empty]

/-- A request that is admitted keeps the registry right. -/
lemma exists_step_of_creates {r : ProcessRegistry} {request : ProcessRequest} (h : Registered r)
    (hcreates : Creates r request) : ∃ r', r.step request = some r' ∧ Registered r' := by
  obtain ⟨⟨processes, hlist, hnodup, hlive⟩, hfinds⟩ := h
  cases request with
  | newProcess pid script =>
    obtain ⟨hscript, hfresh⟩ := hcreates
    obtain ⟨file, rfl⟩ := Option.ne_none_iff_exists'.1 hscript
    obtain ⟨process, hinit, hpid⟩ : ∃ process, initProcess pid (some file) = some process ∧
        process.pid = pid := ⟨_, rfl, rfl⟩
    have hnone : ∀ p ∈ processes, p.pid ≠ pid := by
      intro p hp heq
      have hsome := (hlive pid p).2 ⟨hp, heq⟩
      rw [hfresh] at hsome
      exact absurd hsome (by simp)
    refine ⟨r.newProcess pid (some file), rfl,
      @registered_of_entries _ (processes ++ [process]) ?_ ?_ fun pid' p => ?_⟩
    · rw [newProcess, handleNewProcess, hinit, hlist, List.map_append, List.map_singleton]
    · rw [List.map_append, List.map_singleton, List.nodup_append]
      refine ⟨hnodup, List.nodup_singleton _, fun a ha b hb => ?_⟩
      obtain ⟨p, hp, rfl⟩ := List.mem_map.1 ha
      rw [List.mem_singleton.1 hb, hpid]
      exact hnone p hp
    · rw [newProcess, hinit, List.mem_append, List.mem_singleton]
      change Function.update r.live pid (some process) pid' = some p ↔ _
      by_cases heq : pid' = pid
      · subst heq
        rw [Function.update_self, Option.some.injEq]
        constructor
        · rintro rfl
          exact ⟨.inr rfl, hpid⟩
        · rintro ⟨hp | rfl, hppid⟩
          · exact absurd hppid (hnone p hp)
          · rfl
      · rw [Function.update_of_ne heq, hlive]
        constructor
        · exact fun ⟨hp, hppid⟩ => ⟨.inl hp, hppid⟩
        · rintro ⟨hp | rfl, hppid⟩
          · exact ⟨hp, hppid⟩
          · exact absurd (hppid.symm.trans hpid) heq
  | endProcess pid =>
    rw [step, endProcess, handleEndProcess, hfinds, Option.map_some, Option.map_some]
    refine ⟨_, rfl, ?_⟩
    cases hpid : r.live pid with
    | none =>
      refine registered_of_entries hlist hnodup fun pid' p => ?_
      dsimp only
      rw [← hlive]
      by_cases heq : pid' = pid
      · rw [heq, Function.update_self, hpid]
      · rw [Function.update_of_ne heq]
    | some process =>
      obtain ⟨hmem, hprocess⟩ := (hlive pid process).1 hpid
      have herase : (processes.map some).erase (some process) =
          (processes.erase process).map some := by
        rw [List.map_erase (Option.some_injective _)]
      have hnodup' := hnodup.of_map
      refine @registered_of_entries _ (processes.erase process) ?_ ?_ fun pid' p => ?_
      · rw [hlist]
        exact herase
      · exact hnodup.sublist ((List.erase_sublist).map _)
      · rw [hnodup'.mem_erase_iff]
        dsimp only
        by_cases heq : pid' = pid
        · subst heq
          rw [Function.update_self]
          refine ⟨fun hfalse => absurd hfalse (by simp), ?_⟩
          rintro ⟨⟨hne, hp⟩, hppid⟩
          exact absurd (Option.some.inj (((hlive pid' p).2 ⟨hp, hppid⟩).symm.trans hpid)) hne
        · rw [Function.update_of_ne heq, hlive]
          refine ⟨fun ⟨hp, hppid⟩ => ⟨⟨?_, hp⟩, hppid⟩, fun ⟨⟨_, hp⟩, hppid⟩ => ⟨hp, hppid⟩⟩
          rintro rfl
          exact heq (hppid.symm.trans hprocess)
  | findProcess pid =>
    rw [step, hfinds, Option.map_some]
    exact ⟨r, rfl, ⟨processes, hlist, hnodup, hlive⟩, hfinds⟩

/-- Another new process spoils the registry: it puts a null pointer into the list, or a second entry
for a pid. -/
lemma not_registered_of_not_creates {r : ProcessRegistry} {request : ProcessRequest}
    (h : Registered r) (hnot : ¬ Creates r request) :
    ∀ r', r.step request = some r' → ¬ Registered r' := by
  rintro r' hstep ⟨⟨processes', hlist', hnodup', -⟩, -⟩
  obtain ⟨⟨processes, hlist, -, hlive⟩, -⟩ := h
  cases request with
  | newProcess pid script =>
    obtain rfl := Option.some.inj hstep
    rw [newProcess, handleNewProcess] at hlist'
    cases script with
    | none =>
      have hnull : (none : Option Process) ∈ processes'.map some := by
        rw [← hlist']
        exact List.mem_append_right _ List.mem_cons_self
      exact absurd hnull (by simp)
    | some file =>
      have hlivepid : r.live pid ≠ none := fun hfresh => hnot ⟨by simp, hfresh⟩
      obtain ⟨old, hold⟩ := Option.ne_none_iff_exists'.1 hlivepid
      obtain ⟨hmem, hpid⟩ := (hlive pid old).1 hold
      obtain ⟨process, hinit, hprocess⟩ : ∃ process, initProcess pid (some file) = some process ∧
          process.pid = pid := ⟨_, rfl, rfl⟩
      have heq : processes' = processes ++ [process] := by
        apply List.map_injective_iff.2 (Option.some_injective _)
        rw [← hlist', hinit, hlist, List.map_append, List.map_singleton]
      rw [heq, List.map_append, List.map_singleton, List.nodup_append] at hnodup'
      refine hnodup'.2.2 _ (List.mem_map_of_mem hmem) _ List.mem_cons_self ?_
      rw [hpid, hprocess]
  | endProcess pid => exact hnot trivial
  | findProcess pid => exact hnot trivial

end ProcessRegistry

/-- **The registry is right in every state of a run exactly when every new process has a script and
a pid of its own.** -/
theorem registered_iff_creates (requests : List ProcessRequest) :
    (∀ k ≤ requests.length, ∃ r,
      execute ProcessRegistry.step ProcessRegistry.empty (requests.take k) = some r ∧
        Registered r) ↔
    Admitted ProcessRegistry.step Creates ProcessRegistry.empty requests :=
  forall_execute_take_iff_admitted
    (fun _ _ => ProcessRegistry.exists_step_of_creates)
    (fun _ _ => ProcessRegistry.not_registered_of_not_creates)
    ProcessRegistry.registered_empty requests

/-- A process is started and another one whose script cannot be opened, and the first one ends; then
the lookup of a third one reads the null pointer. -/
theorem not_registered_of_unreadable_script :
    ∃ r, execute ProcessRegistry.step ProcessRegistry.empty
        [.newProcess 0 (some [69, 88, 73, 84]), .newProcess 1 none, .endProcess 0] = some r ∧
      r.processes = [none] ∧ r.live 1 = none ∧ ¬ Registered r ∧
      ProcessRegistry.findProcess 2 r.processes = none := by
  refine ⟨_, rfl, by decide, by decide, ?_, by decide⟩
  rintro ⟨⟨processes, hlist, -, -⟩, -⟩
  have hnull : (none : Option Process) ∈ processes.map some := by
    rw [← hlist]
    decide
  exact absurd hnull (by simp)

end OsSimulator.Memory
