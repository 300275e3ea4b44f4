import Mathlib.Data.Option.Basic

set_option relaxedAutoImplicit false
set_option autoImplicit false

/-!
# Runs of a partial step function

A system is a step function `step : σ → α → Option σ`: from a state and an action either the
next state, or `none` when the action is not enabled there (or does not return). This file
has the runs of such a system, the runs all of whose steps meet a side condition, and the
induction rule by which every safety result of the development is proved.

## Main definitions

* `Run step ok s t` — `t` is reached from `s` by steps of `step`, each of whose actions meets
  `ok` in the state before it.
* `Reachable step s t` — the same without a side condition.
* `execute step s as` — the state after a list of actions, as a computation.
* `executeOk step ok s as` — the same, where the side condition is tested.
* `Admitted step ok s as` — every action of the list meets `ok` in the state it is taken in.

## Main results

* `Run.invariant` — what holds initially and is kept by every admitted step holds throughout.
* `Run.mono` — a weaker side condition admits more runs.
* `Run.of_execute_of_invariant`, `Run.of_execute_of_forall`, `Run.of_execute_of_admitted`,
  `Run.of_executeOk` — a computed list of actions is a run.
* `forall_execute_take_iff_admitted`, `forall_execute_take_iff_admitted_of_execute` — what holds all
  the way along a list of actions, by what one action does.
-/

namespace OsSimulator

universe u v

variable {σ : Type u} {α : Type v}

/-- The runs of `step` whose every step meets the side condition `ok`. -/
inductive Run (step : σ → α → Option σ) (ok : σ → α → Prop) (s : σ) : σ → Prop
  | refl : Run step ok s s
  | tail {t t' : σ} (a : α) : Run step ok s t → ok t a → step t a = some t' →
      Run step ok s t'

/-- Reachability: runs with no side condition. -/
def Reachable (step : σ → α → Option σ) (s t : σ) : Prop :=
  Run step (fun _ _ => True) s t

/-- The state after a list of actions, if every one of them is enabled in turn. -/
def execute (step : σ → α → Option σ) : σ → List α → Option σ
  | s, [] => some s
  | s, a :: as => (step s a).bind fun t => execute step t as

/-- Every action of a list is admitted in the state it is taken in. -/
def Admitted (step : σ → α → Option σ) (ok : σ → α → Prop) : σ → List α → Prop
  | _, [] => True
  | s, a :: as => ok s a ∧ ∀ t, step s a = some t → Admitted step ok t as

/-- `execute`, which also tests the side condition of every action. -/
def executeOk (step : σ → α → Option σ) (ok : σ → α → Prop) [∀ s a, Decidable (ok s a)] :
    σ → List α → Option σ
  | s, [] => some s
  | s, a :: as => if ok s a then (step s a).bind fun t => executeOk step ok t as else none

/-- A weaker condition admits more, and need only be weaker for the actions of the list. -/
lemma Admitted.mono {step : σ → α → Option σ} {ok ok' : σ → α → Prop} {s : σ} {as : List α}
    (h : Admitted step ok s as) (hok : ∀ a ∈ as, ∀ t, ok t a → ok' t a) :
    Admitted step ok' s as := by
  induction as generalizing s with
  | nil => trivial
  | cons a as ih =>
    exact ⟨hok a List.mem_cons_self s h.1, fun t ht =>
      ih (h.2 t ht) fun b hb => hok b (List.mem_cons_of_mem a hb)⟩

/-- Actions that are admitted in every state. -/
lemma Admitted.of_forall {step : σ → α → Option σ} {ok : σ → α → Prop} {s : σ} {as : List α}
    (h : ∀ a ∈ as, ∀ t, ok t a) : Admitted step ok s as := by
  induction as generalizing s with
  | nil => trivial
  | cons a as ih =>
    exact ⟨h a List.mem_cons_self s, fun t _ => ih fun b hb => h b (List.mem_cons_of_mem a hb)⟩

/-- Whether a list of actions is admitted is tested along the list. -/
instance Admitted.decidable (step : σ → α → Option σ) (ok : σ → α → Prop)
    [∀ s a, Decidable (ok s a)] : ∀ s as, Decidable (Admitted step ok s as)
  | _, [] => .isTrue trivial
  | s, a :: as =>
    match hst : step s a with
    | none => decidable_of_iff (ok s a)
        ⟨fun h => ⟨h, fun t ht => absurd (hst.symm.trans ht) (by simp)⟩, And.left⟩
    | some t =>
      have := Admitted.decidable step ok t as
      decidable_of_iff (ok s a ∧ Admitted step ok t as)
        ⟨fun h => ⟨h.1, fun u hu => Option.some.inj (hst.symm.trans hu) ▸ h.2⟩,
          fun h => ⟨h.1, h.2 t hst⟩⟩

namespace Run

variable {step : σ → α → Option σ} {ok ok' : σ → α → Prop} {s t t' : σ}

/-- **The invariant rule**: a predicate that holds in the first state and is kept by every
admitted step holds in every state of the run. -/
theorem invariant {I : σ → Prop} (h : Run step ok s t) (h₀ : I s)
    (hstep : ∀ t a t', I t → ok t a → step t a = some t' → I t') : I t := by
  induction h with
  | refl => exact h₀
  | tail a _ hok hst ih => exact hstep _ a _ ih hok hst

/-- A weaker side condition admits more runs. -/
theorem mono (h : Run step ok s t) (hok : ∀ t a, ok t a → ok' t a) : Run step ok' s t := by
  induction h with
  | refl => exact .refl
  | tail a _ ha hst ih => exact .tail a ih (hok _ _ ha) hst

/-- Runs compose. -/
theorem trans (h : Run step ok s t) (h' : Run step ok t t') : Run step ok s t' := by
  induction h' with
  | refl => exact h
  | tail a _ ha hst ih => exact .tail a ih ha hst

/-- A step before a run is a run. -/
theorem head {u : σ} (a : α) (ha : ok s a) (hst : step s a = some t) (h : Run step ok t u) :
    Run step ok s u :=
  (Run.tail a .refl ha hst).trans h

end Run

/-- Every run is a run without its side condition. -/
theorem Run.reachable {step : σ → α → Option σ} {ok : σ → α → Prop} {s t : σ}
    (h : Run step ok s t) : Reachable step s t :=
  h.mono fun _ _ _ => trivial

/-- A computed list of actions, which are admitted as long as an invariant of them holds, is a run.

**Proof sketch.** Induction on the list: the head action is the first step, and the rest of the
list runs from the state after it. -/
theorem Run.of_execute_of_invariant {step : σ → α → Option σ} {ok : σ → α → Prop} {I : σ → Prop}
    {s t : σ} {as : List α} (h : execute step s as = some t) (h₀ : I s)
    (hstep : ∀ a ∈ as, ∀ u u', I u → step u a = some u' → I u')
    (hok : ∀ a ∈ as, ∀ u, I u → ok u a) : Run step ok s t := by
  induction as generalizing s with
  | nil =>
    simp only [execute, Option.some.injEq] at h
    exact h ▸ .refl
  | cons a as ih =>
    simp only [execute, Option.bind_eq_some_iff] at h
    obtain ⟨u, hu, hrest⟩ := h
    have htail := ih hrest (hstep a List.mem_cons_self s u h₀ hu)
      (fun b hb => hstep b (List.mem_cons_of_mem a hb))
      fun b hb => hok b (List.mem_cons_of_mem a hb)
    exact Run.head a (hok a List.mem_cons_self s h₀) hu htail

/-- A computed list of admitted actions is a run. -/
theorem Run.of_execute_of_forall {step : σ → α → Option σ} {ok : σ → α → Prop} {s t : σ}
    {as : List α} (h : execute step s as = some t) (hok : ∀ a ∈ as, ∀ u, ok u a) :
    Run step ok s t :=
  Run.of_execute_of_invariant (I := fun _ => True) h trivial (fun _ _ _ _ _ _ => trivial)
    fun a ha u _ => hok a ha u

/-- A computed list of actions that are admitted in turn is a run. -/
theorem Run.of_execute_of_admitted {step : σ → α → Option σ} {ok : σ → α → Prop} {s t : σ}
    {as : List α} (h : execute step s as = some t) (hok : Admitted step ok s as) :
    Run step ok s t := by
  induction as generalizing s with
  | nil =>
    simp only [execute, Option.some.injEq] at h
    exact h ▸ .refl
  | cons a as ih =>
    simp only [execute, Option.bind_eq_some_iff] at h
    obtain ⟨u, hu, hrest⟩ := h
    exact Run.head a hok.1 hu (ih hrest (hok.2 u hu))

/-- A computed list of actions whose side conditions have been tested is a run. -/
theorem Run.of_executeOk {step : σ → α → Option σ} {ok : σ → α → Prop}
    [∀ s a, Decidable (ok s a)] {s t : σ} {as : List α} (h : executeOk step ok s as = some t) :
    Run step ok s t := by
  induction as generalizing s with
  | nil =>
    simp only [executeOk, Option.some.injEq] at h
    exact h ▸ .refl
  | cons a as ih =>
    simp only [executeOk] at h
    split at h
    · rename_i hok
      obtain ⟨u, hu, hrest⟩ := Option.bind_eq_some_iff.1 h
      exact Run.head a hok hu (ih hrest)
    · exact absurd h (by simp)

/-- Two lists one after the other. -/
lemma execute_append (step : σ → α → Option σ) (s : σ) (as bs : List α) :
    execute step s (as ++ bs) = (execute step s as).bind fun t => execute step t bs := by
  induction as generalizing s with
  | nil => rfl
  | cons a as ih =>
    simp only [List.cons_append, execute, Option.bind_assoc, ih]

/-- A computed list of actions is a run. -/
theorem Run.of_execute {step : σ → α → Option σ} {s t : σ} {as : List α}
    (h : execute step s as = some t) : Reachable step s t :=
  Run.of_execute_of_forall h fun _ _ _ => trivial

/-- **The actions that keep a property are exactly those that are admitted.** Where an admitted
action is enabled and keeps it, and another one that is enabled breaks it, the property holds all
the way along a list of actions exactly when they are admitted in turn. -/
theorem forall_execute_take_iff_admitted {step : σ → α → Option σ} {ok : σ → α → Prop}
    {I : σ → Prop} (hkeep : ∀ s a, I s → ok s a → ∃ t, step s a = some t ∧ I t)
    (hbreak : ∀ s a, I s → ¬ ok s a → ∀ t, step s a = some t → ¬ I t) {s : σ} (h₀ : I s)
    (as : List α) :
    (∀ k ≤ as.length, ∃ t, execute step s (as.take k) = some t ∧ I t) ↔
      Admitted step ok s as := by
  induction as generalizing s with
  | nil =>
    refine ⟨fun _ => trivial, fun _ k hk => ⟨s, ?_, h₀⟩⟩
    obtain rfl : k = 0 := by simpa using hk
    rfl
  | cons a as ih =>
    constructor
    · intro h
      obtain ⟨t, ht, hI⟩ := h 1 (by simp)
      have hstep : step s a = some t := by
        simpa [execute] using ht
      refine ⟨?_, fun t' ht' => ?_⟩
      · by_contra hok
        exact hbreak s a h₀ hok t hstep hI
      · obtain rfl := Option.some.inj (hstep.symm.trans ht')
        refine (ih hI).1 fun k hk => ?_
        obtain ⟨u, hu, hIu⟩ := h (k + 1) (by simpa using hk)
        rw [List.take_succ_cons, execute, hstep, Option.bind_some] at hu
        exact ⟨u, hu, hIu⟩
    · rintro ⟨hok, hrest⟩ k hk
      obtain ⟨t, hstep, hI⟩ := hkeep s a h₀ hok
      cases k with
      | zero => exact ⟨s, rfl, h₀⟩
      | succ k =>
        obtain ⟨u, hu, hIu⟩ := (ih hI).2 (hrest t hstep) k (by simpa using hk)
        refine ⟨u, ?_, hIu⟩
        rw [List.take_succ_cons, execute, hstep, Option.bind_some, hu]

/-- The same along a list of actions that is a run, with an invariant of the system: it is enough
that an admitted action keeps the property and another one breaks it. -/
theorem forall_execute_take_iff_admitted_of_execute {step : σ → α → Option σ} {ok : σ → α → Prop}
    {I P : σ → Prop} (hinv : ∀ s a t, I s → step s a = some t → I t)
    (hkeep : ∀ s a t, I s → P s → ok s a → step s a = some t → P t)
    (hbreak : ∀ s a t, I s → P s → ¬ ok s a → step s a = some t → ¬ P t) {s u : σ} {as : List α}
    (h : execute step s as = some u) (hI : I s) (hP : P s) :
    (∀ k ≤ as.length, ∀ t, execute step s (as.take k) = some t → P t) ↔ Admitted step ok s as := by
  induction as generalizing s with
  | nil =>
    refine ⟨fun _ => trivial, fun _ k hk t ht => ?_⟩
    obtain rfl : k = 0 := by simpa using hk
    exact Option.some.inj ht ▸ hP
  | cons a as ih =>
    obtain ⟨t, hstep, hrest⟩ := Option.bind_eq_some_iff.1 h
    have hI' : I t := hinv s a t hI hstep
    have htake : ∀ k, execute step s ((a :: as).take (k + 1)) = execute step t (as.take k) := by
      intro k
      rw [List.take_succ_cons, execute, hstep, Option.bind_some]
    constructor
    · intro hall
      have hP' : P t := hall 1 (by simp) t (by rw [htake, List.take_zero, execute])
      refine ⟨?_, fun t' ht' => ?_⟩
      · by_contra hok
        exact hbreak s a t hI hP hok hstep hP'
      · obtain rfl := Option.some.inj (hstep.symm.trans ht')
        refine (ih hrest hI' hP').1 fun k hk u' hu' => ?_
        exact hall (k + 1) (by simpa using hk) u' (by rw [htake, hu'])
    · rintro ⟨hok, hadmitted⟩ k hk u' hu'
      have hP' : P t := hkeep s a t hI hP hok hstep
      cases k with
      | zero => exact Option.some.inj hu' ▸ hP
      | succ k =>
        rw [htake] at hu'
        exact (ih hrest hI' hP').2 (hadmitted t hstep) k (by simpa using hk) u' hu'

end OsSimulator
