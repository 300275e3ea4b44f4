import Mathlib.Data.List.Forall2

set_option relaxedAutoImplicit false
set_option autoImplicit false

/-!
# Two runs side by side

A system whose steps can be watched: `step : σ → α → Option (ω × σ)` gives what is seen of an action
beside the next state. This file compares two runs of such a system on actions that are the same but
for a part that should not matter. The method is an unwinding: a relation between states that a step
of both runs keeps, and with it the outputs.

## Main definitions

* `outputs step s as` — what is seen of a list of actions.
* `BothMeet step ok s₁ s₂ as₁ as₂` — every step of two runs, taken together, meets `ok`.
* `Unwinding step Alike Same ok` — a step of both runs that meets `ok` looks the same and leaves the
  states alike, and one that does not meet it looks different.

## Main results

* `Unwinding.outputs_eq_iff` — two runs look the same exactly when every step meets the condition.
* `BothMeet.of_invariant` — a condition that follows from an invariant is met.
-/

namespace OsSimulator

universe u v w

variable {σ : Type u} {α : Type v} {ω : Type w} {step : σ → α → Option (ω × σ)}

/-- What is seen of a list of actions, if every one of them is enabled in turn. -/
def outputs (step : σ → α → Option (ω × σ)) : σ → List α → Option (List ω)
  | _, [] => some []
  | s, a :: as => (step s a).bind fun r => (outputs step r.2 as).map (r.1 :: ·)

/-- Every step of two runs, taken together, meets a condition. -/
def BothMeet (step : σ → α → Option (ω × σ)) (ok : σ → σ → α → Prop) :
    σ → σ → List α → List α → Prop
  | s₁, s₂, a₁ :: as₁, a₂ :: as₂ =>
    ok s₁ s₂ a₁ ∧ ∀ r₁ r₂, step s₁ a₁ = some r₁ → step s₂ a₂ = some r₂ →
      BothMeet step ok r₁.2 r₂.2 as₁ as₂
  | _, _, _, _ => True

/-- A step of two runs that meets the condition looks the same in both of them and leaves the states
alike; a step that looks the same meets the condition. -/
structure Unwinding (step : σ → α → Option (ω × σ)) (Alike : σ → σ → Prop) (Same : α → α → Prop)
    (ok : σ → σ → α → Prop) : Prop where
  keeps : ∀ {s₁ s₂ a₁ a₂ r₁ r₂}, Alike s₁ s₂ → Same a₁ a₂ → ok s₁ s₂ a₁ → step s₁ a₁ = some r₁ →
    step s₂ a₂ = some r₂ → r₁.1 = r₂.1 ∧ Alike r₁.2 r₂.2
  shows : ∀ {s₁ s₂ a₁ a₂ r₁ r₂}, Alike s₁ s₂ → Same a₁ a₂ → step s₁ a₁ = some r₁ →
    step s₂ a₂ = some r₂ → r₁.1 = r₂.1 → ok s₁ s₂ a₁

/-- The first output, and the others. -/
lemma outputs_cons {s : σ} {a : α} {as : List α} {os : List ω}
    (h : outputs step s (a :: as) = some os) :
    ∃ r os', step s a = some r ∧ outputs step r.2 as = some os' ∧ os = r.1 :: os' := by
  obtain ⟨r, hr, hrest⟩ := Option.bind_eq_some_iff.1 h
  obtain ⟨os', hos', rfl⟩ := Option.map_eq_some_iff.1 hrest
  exact ⟨r, os', hr, hos', rfl⟩

/-- The condition on the first step, and on the others. -/
lemma bothMeet_cons {ok : σ → σ → α → Prop} {s₁ s₂ : σ} {a₁ a₂ : α} {as₁ as₂ : List α}
    {r₁ r₂ : ω × σ} (h₁ : step s₁ a₁ = some r₁) (h₂ : step s₂ a₂ = some r₂) :
    BothMeet step ok s₁ s₂ (a₁ :: as₁) (a₂ :: as₂) ↔
      ok s₁ s₂ a₁ ∧ BothMeet step ok r₁.2 r₂.2 as₁ as₂ := by
  rw [BothMeet]
  refine and_congr_right fun _ => ⟨fun h => h r₁ r₂ h₁ h₂, fun h r₁' r₂' h₁' h₂' => ?_⟩
  obtain rfl := Option.some.inj (h₁.symm.trans h₁')
  obtain rfl := Option.some.inj (h₂.symm.trans h₂')
  exact h

/-- **Two runs look the same** exactly when every step of them meets the condition.

**Proof sketch.** Induction on the two lists of actions. The states are alike before the first step.
When it meets the condition it looks the same and leaves the states alike, and the rest of the lists
runs from there. When it does not, it already looks different. -/
theorem Unwinding.outputs_eq_iff {Alike : σ → σ → Prop} {Same : α → α → Prop}
    {ok : σ → σ → α → Prop} (h : Unwinding step Alike Same ok) {s₁ s₂ : σ} {as₁ as₂ : List α}
    {os₁ os₂ : List ω} (halike : Alike s₁ s₂) (hsame : List.Forall₂ Same as₁ as₂)
    (h₁ : outputs step s₁ as₁ = some os₁) (h₂ : outputs step s₂ as₂ = some os₂) :
    os₁ = os₂ ↔ BothMeet step ok s₁ s₂ as₁ as₂ := by
  induction hsame generalizing s₁ s₂ os₁ os₂ with
  | nil =>
    obtain rfl := Option.some.inj h₁
    obtain rfl := Option.some.inj h₂
    simp [BothMeet]
  | cons hhead _ ih =>
    obtain ⟨r₁, os₁, hr₁, hos₁, rfl⟩ := outputs_cons h₁
    obtain ⟨r₂, os₂, hr₂, hos₂, rfl⟩ := outputs_cons h₂
    rw [bothMeet_cons hr₁ hr₂, List.cons.injEq]
    constructor
    · rintro ⟨hout, hrest⟩
      have hok := h.shows halike hhead hr₁ hr₂ hout
      exact ⟨hok, (ih (h.keeps halike hhead hok hr₁ hr₂).2 hos₁ hos₂).1 hrest⟩
    · rintro ⟨hok, hrest⟩
      obtain ⟨hout, hnext⟩ := h.keeps halike hhead hok hr₁ hr₂
      exact ⟨hout, (ih hnext hos₁ hos₂).2 hrest⟩

/-- A condition that an invariant of both runs implies is met at every step. -/
theorem BothMeet.of_invariant {ok : σ → σ → α → Prop} {I : σ → Prop}
    (hstep : ∀ s a r, I s → step s a = some r → I r.2) (hok : ∀ s₁ s₂ a, I s₁ → I s₂ → ok s₁ s₂ a)
    {s₁ s₂ : σ} (h₁ : I s₁) (h₂ : I s₂) (as₁ as₂ : List α) : BothMeet step ok s₁ s₂ as₁ as₂ := by
  induction as₁ generalizing s₁ s₂ as₂ with
  | nil => trivial
  | cons a₁ as₁ ih =>
    cases as₂ with
    | nil => trivial
    | cons a₂ as₂ =>
      exact ⟨hok s₁ s₂ a₁ h₁ h₂, fun r₁ r₂ hr₁ hr₂ =>
        ih (hstep s₁ a₁ r₁ h₁ hr₁) (hstep s₂ a₂ r₂ h₂ hr₂) as₂⟩

end OsSimulator
