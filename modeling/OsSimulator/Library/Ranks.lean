import Mathlib.Algebra.BigOperators.Group.Finset.Piecewise
import Mathlib.Algebra.Order.BigOperators.Group.Finset
import Mathlib.Data.Fintype.Card
import OsSimulator.Library.Runs

set_option relaxedAutoImplicit false
set_option autoImplicit false

/-!
# Ranks

A rank that some actions lower, and that no action raises, bounds how many of those actions a run
can have. The rank of a family of threads is the sum of what each of them still has to do.

## Main definitions

* `threadRank weight phase` — the weights of the phases of all threads together.

## Main results

* `threadRank_update` — the rank after a step of one thread.
* `countP_add_rank_le` — the bound on the number of actions.
* `exists_execute_of_rank` — actions that lower the rank lead to a goal.
-/

namespace OsSimulator

/-- What the threads of a family have to do, all together. -/
def threadRank {ι β : Type} [Fintype ι] (weight : β → ℕ) (phase : ι → β) : ℕ :=
  Finset.univ.sum fun i => weight (phase i)

/-- **A step of one thread** changes the rank by the change of its own weight. -/
lemma threadRank_update {ι β : Type} [Fintype ι] [DecidableEq ι] (weight : β → ℕ) (phase : ι → β)
    (i : ι) (x : β) :
    threadRank weight (Function.update phase i x) + weight (phase i) =
      threadRank weight phase + weight x := by
  have hsum : ∀ f : ι → β, threadRank weight f =
      weight (f i) + (Finset.univ.erase i).sum fun j => weight (f j) := fun f =>
    (Finset.add_sum_erase _ (fun j => weight (f j)) (Finset.mem_univ i)).symm
  have hothers : ((Finset.univ.erase i).sum fun j => weight (Function.update phase i x j)) =
      (Finset.univ.erase i).sum fun j => weight (phase j) := by
    refine Finset.sum_congr rfl fun j hj => ?_
    rw [Function.update_of_ne (Finset.ne_of_mem_erase hj)]
  rw [hsum, hsum, Function.update_self, hothers]
  omega

/-- A bound on the weights is one on the rank. -/
lemma threadRank_le {ι β : Type} [Fintype ι] {weight : β → ℕ} {bound : ℕ}
    (h : ∀ x, weight x ≤ bound) (phase : ι → β) :
    threadRank weight phase ≤ Fintype.card ι * bound := by
  have hsum := Finset.sum_le_card_nsmul Finset.univ (fun i => weight (phase i)) bound
    fun i _ => h (phase i)
  simpa [threadRank] using hsum

universe u v

/-- **The bound**: along a list of admitted actions, those that lower the rank are at most as many
as the rank has gone down, and as the others have raised it. An invariant of the actions may be used
for it. -/
theorem countP_add_rank_le {σ : Type u} {α : Type v} {step : σ → α → Option σ} {ok : σ → α → Prop}
    {I : σ → Prop} {rank : σ → ℕ} {lowers raises : α → Bool} {amount : ℕ}
    (hinv : ∀ s a t, I s → ok s a → step s a = some t → I t)
    (hrank : ∀ s a t, I s → ok s a → step s a = some t →
      rank t + (lowers a).toNat ≤ rank s + amount * (raises a).toNat) {s t : σ} {as : List α}
    (h : execute step s as = some t) (hok : Admitted step ok s as) (hI : I s) :
    as.countP lowers + rank t ≤ rank s + amount * as.countP raises ∧ I t := by
  induction as generalizing s with
  | nil =>
    obtain rfl := Option.some.inj h
    exact ⟨by simp, hI⟩
  | cons a as ih =>
    obtain ⟨u, hu, hrest⟩ := Option.bind_eq_some_iff.1 h
    obtain ⟨hle, hIt⟩ := ih hrest (hok.2 u hu) (hinv s a u hI hok.1 hu)
    have hlower := hrank s a u hI hok.1 hu
    refine ⟨?_, hIt⟩
    have hcount : ∀ p : α → Bool, (a :: as).countP p = as.countP p + (p a).toNat := by
      intro p
      rw [List.countP_cons]
      cases p a <;> rfl
    rw [hcount, hcount, Nat.mul_add]
    omega

/-- **A goal is reached**: where, short of the goal, one kind of action is always enabled and lowers
the rank, whatever it is given, actions of that kind alone lead to the goal. -/
theorem exists_execute_of_rank {σ : Type u} {α : Type v} {β : Type} {step : σ → α → Option σ}
    {I goal : σ → Prop} {rank : σ → ℕ} {action : β → α}
    (hstep : ∀ s, I s → ∀ b, ∃ t, step s (action b) = some t ∧
      (goal t ∨ I t ∧ rank t < rank s)) {s : σ} (h : I s) (inputs : ℕ → β) :
    ∃ n ≤ rank s + 1, ∃ t,
      execute step s ((List.range n).map fun k => action (inputs k)) = some t ∧ goal t := by
  -- by the rank; the first input is used up by the first action
  generalize hr : rank s = r
  induction r using Nat.strong_induction_on generalizing s inputs with
  | _ r ih =>
    subst hr
    obtain ⟨t, hst, hgoal | ⟨hI, hlt⟩⟩ := hstep s h (inputs 0)
    · exact ⟨1, by omega, t, by simp [execute, hst], hgoal⟩
    · obtain ⟨n, hn, u, hu, hgoal⟩ := ih (rank t) hlt hI (fun k => inputs (k + 1)) rfl
      refine ⟨n + 1, by omega, u, ?_, hgoal⟩
      rw [List.range_succ_eq_map, List.map_cons, List.map_map, execute, hst]
      exact hu

end OsSimulator
