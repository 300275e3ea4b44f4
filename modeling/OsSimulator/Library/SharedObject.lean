import Mathlib.Data.List.Basic
import Mathlib.Logic.Function.Basic
import OsSimulator.Library.Runs

set_option relaxedAutoImplicit false
set_option autoImplicit false

/-!
# Requests to a shared object

An object is changed by requests, each of which is performed at one go and has an answer. Several
clients ask for them; each has one request at a time, which is asked, performed and answered in
three steps, and the steps of the clients come in any order. Whatever that order is, there is one
order of the requests, in which they were performed, that explains all answers.

## Main definitions

* `performAll` — requests one after another: the answers and the object afterwards.
* `ofClient` — what belongs to one client.
* `SharedObject` — the object, where each client is, and the order of the requests so far.
* `SharedObject.Linear` — that order explains the object and the answers.

## Main results

* `SharedObject.Linear.ask`, `SharedObject.Linear.access`, `SharedObject.Linear.answer` — it does so
  after each step of a client.
-/

namespace OsSimulator

variable {ι σ ρ α β : Type}

/-! ## One after another -/

/-- The answers to requests that are performed one after another, with who asked, and the object
after them. -/
def performAll (perform : ρ → σ → Option (α × σ)) :
    List (ι × ρ) → σ → Option (List (ι × α) × σ)
  | [], object => some ([], object)
  | (i, request) :: rest, object =>
    (perform request object).bind fun done =>
      (performAll perform rest done.2).map fun after => ((i, done.1) :: after.1, after.2)

/-- What belongs to a client, in order. -/
def ofClient [DecidableEq ι] (i : ι) (entries : List (ι × β)) : List β :=
  (entries.filter fun entry => entry.1 = i).map Prod.snd

section OfClient

variable [DecidableEq ι]

/-- What a client has in two lists. -/
@[simp] lemma ofClient_append (i : ι) (entries entries' : List (ι × β)) :
    ofClient i (entries ++ entries') = ofClient i entries ++ ofClient i entries' := by
  simp [ofClient]

/-- Its own entry. -/
@[simp] lemma ofClient_singleton_self (i : ι) (b : β) : ofClient i [(i, b)] = [b] := by
  simp [ofClient]

/-- The entry of another one. -/
lemma ofClient_singleton_of_ne {i j : ι} (h : j ≠ i) (b : β) : ofClient i [(j, b)] = [] := by
  simp [ofClient, h]

end OfClient

/-- Requests in two parts. -/
lemma performAll_append (perform : ρ → σ → Option (α × σ)) (first second : List (ι × ρ))
    (object : σ) :
    performAll perform (first ++ second) object =
      (performAll perform first object).bind fun done =>
        (performAll perform second done.2).map fun after =>
          (done.1 ++ after.1, after.2) := by
  induction first generalizing object with
  | nil => simp [performAll]
  | cons entry rest ih =>
    obtain ⟨i, request⟩ := entry
    rw [List.cons_append, performAll, performAll]
    cases perform request object with
    | none => rfl
    | some done =>
      simp only [Option.bind_some, ih]
      cases performAll perform rest done.2 with
      | none => rfl
      | some after =>
        simp only [Option.bind_some, Option.map_some, Option.map_map]
        rfl

/-- One more request. -/
lemma performAll_concat {perform : ρ → σ → Option (α × σ)} {order : List (ι × ρ)}
    {object object' object'' : σ} {answers : List (ι × α)} {request : ρ} {answer : α}
    (h : performAll perform order object = some (answers, object'))
    (hperform : perform request object' = some (answer, object'')) (i : ι) :
    performAll perform (order ++ [(i, request)]) object =
      some (answers ++ [(i, answer)], object'') := by
  rw [performAll_append, h, Option.bind_some, performAll, hperform, Option.bind_some, performAll,
    Option.map_some, Option.map_some]

/-- A property of the object that every request keeps. -/
lemma performAll_invariant {perform : ρ → σ → Option (α × σ)} {I : σ → Prop}
    (hstep : ∀ request object answer object', I object →
      perform request object = some (answer, object') → I object')
    {order : List (ι × ρ)} {object object' : σ} {answers : List (ι × α)}
    (h : performAll perform order object = some (answers, object')) (h₀ : I object) :
    I object' := by
  induction order generalizing object answers with
  | nil =>
    obtain ⟨-, rfl⟩ := Prod.mk.inj (Option.some.inj h)
    exact h₀
  | cons entry rest ih =>
    obtain ⟨done, hdone, hrest⟩ := Option.bind_eq_some_iff.1 h
    obtain ⟨after, hafter, heq⟩ := Option.map_eq_some_iff.1 hrest
    obtain ⟨-, rfl⟩ := Prod.mk.inj heq
    exact ih hafter (hstep _ _ _ _ h₀ hdone)

/-- **A client on its own.** If what a client asks for depends only on its view of the object, and
nobody else's requests change that view, then its own requests alone have the same answers.

**Proof sketch.** Induction on the order: a request of the client is performed on both objects, one
of another client on one of them. -/
lemma performAll_own [DecidableEq ι] {perform : ρ → σ → Option (α × σ)} {R : σ → σ → Prop}
    {i : ι} {order : List (ι × ρ)} {object object' after : σ} {answers : List (ι × α)}
    (hown : ∀ request, (i, request) ∈ order → ∀ a b answer a', R a b →
      perform request a = some (answer, a') →
        ∃ b', perform request b = some (answer, b') ∧ R a' b')
    (hother : ∀ j request, (j, request) ∈ order → j ≠ i → ∀ a b answer a', R a b →
      perform request a = some (answer, a') → R a' b)
    (h : performAll perform order object = some (answers, after)) (halike : R object object') :
    ∃ after', performAll perform (order.filter fun entry => entry.1 = i) object' =
      some (answers.filter fun entry => entry.1 = i, after') ∧ R after after' := by
  induction order generalizing object object' answers with
  | nil =>
    obtain ⟨rfl, rfl⟩ := Prod.mk.inj (Option.some.inj h)
    exact ⟨object', rfl, halike⟩
  | cons entry rest ih =>
    obtain ⟨j, request⟩ := entry
    obtain ⟨⟨answer, between⟩, hfirst, hrest⟩ := Option.bind_eq_some_iff.1 h
    obtain ⟨⟨later, last⟩, hlater, heq⟩ := Option.map_eq_some_iff.1 hrest
    obtain ⟨rfl, rfl⟩ := Prod.mk.inj heq
    have ih := fun object₁ object₂ answers₁ => @ih object₁ object₂ answers₁
      (fun r hr => hown r (List.mem_cons_of_mem _ hr))
      fun k r hr => hother k r (List.mem_cons_of_mem _ hr)
    rcases eq_or_ne j i with rfl | hj
    · obtain ⟨between', hfirst', halike'⟩ :=
        hown request List.mem_cons_self _ _ _ _ halike hfirst
      obtain ⟨after', hafter, hlast⟩ := ih _ _ _ hlater halike'
      refine ⟨after', ?_, hlast⟩
      simp only [List.filter_cons, decide_true, if_true, performAll, hfirst', Option.bind_some,
        hafter, Option.map_some]
    · obtain ⟨after', hafter, hlast⟩ :=
        ih _ _ _ hlater (hother j request List.mem_cons_self hj _ _ _ _ halike hfirst)
      refine ⟨after', ?_, hlast⟩
      simpa only [List.filter_cons, hj, decide_false, Bool.false_eq_true, if_false] using hafter

/-! ## The clients -/

/-- Where a client is: without a request, with one that was not performed yet, or with an answer
that was not given yet. -/
inductive Stage (ρ α : Type)
  | idle
  | asked (request : ρ)
  | performed (answer : α)
  deriving DecidableEq, Repr

namespace Stage

/-- The request that was not performed yet. -/
def request : Stage ρ α → List ρ
  | asked request => [request]
  | _ => []

/-- The answer that was not given yet. -/
def answer : Stage ρ α → List α
  | performed answer => [answer]
  | _ => []

end Stage

/-- The object, the stage of each client, the requests in the order in which they were performed,
and what each client has asked for and has been answered. -/
structure SharedObject (ι σ ρ α : Type) where
  object : σ
  stage : ι → Stage ρ α
  order : List (ι × ρ)
  asked : ι → List ρ
  answered : ι → List α

namespace SharedObject

/-- Nobody has asked for anything yet. -/
def init (object : σ) : SharedObject ι σ ρ α :=
  ⟨object, fun _ => .idle, [], fun _ => [], fun _ => []⟩

section Steps

variable [DecidableEq ι] (perform : ρ → σ → Option (α × σ))

/-- A client asks. -/
def ask (i : ι) (request : ρ) (s : SharedObject ι σ ρ α) : Option (SharedObject ι σ ρ α) :=
  match s.stage i with
  | .idle => some
    { s with
      stage := Function.update s.stage i (.asked request)
      asked := Function.update s.asked i (s.asked i ++ [request]) }
  | _ => none

/-- The request of a client is performed. -/
def access (i : ι) (s : SharedObject ι σ ρ α) : Option (SharedObject ι σ ρ α) :=
  match s.stage i with
  | .asked request =>
    (perform request s.object).map fun done =>
      { s with
        object := done.2
        stage := Function.update s.stage i (.performed done.1)
        order := s.order ++ [(i, request)] }
  | _ => none

/-- A client is answered. -/
def answer (i : ι) (s : SharedObject ι σ ρ α) : Option (α × SharedObject ι σ ρ α) :=
  match s.stage i with
  | .performed answer => some (answer,
    { s with
      stage := Function.update s.stage i .idle
      answered := Function.update s.answered i (s.answered i ++ [answer]) })
  | _ => none

/-- **The order explains everything**: performed in it, the requests lead to the object and to the
answers, and it has the requests of each client in the order in which the client asked for them. -/
structure Linear (object₀ : σ) (s : SharedObject ι σ ρ α) : Prop where
  performed : ∃ answers, performAll perform s.order object₀ = some (answers, s.object) ∧
    ∀ i, ofClient i answers = s.answered i ++ (s.stage i).answer
  asked : ∀ i, s.asked i = ofClient i s.order ++ (s.stage i).request

end Steps

variable [DecidableEq ι] {perform : ρ → σ → Option (α × σ)} {object₀ : σ}
  {s s' : SharedObject ι σ ρ α} {i : ι}

/-- A client asks when it is idle. -/
lemma ask_eq_some {request : ρ} (h : s.ask i request = some s') :
    s.stage i = .idle ∧ s' = { s with
      stage := Function.update s.stage i (.asked request)
      asked := Function.update s.asked i (s.asked i ++ [request]) } := by
  unfold ask at h
  split at h
  · rename_i hstage
    exact ⟨hstage, (Option.some.inj h).symm⟩
  · exact absurd h (by simp)

/-- Its request is performed once it has asked. -/
lemma access_eq_some (h : s.access perform i = some s') :
    ∃ request done, s.stage i = .asked request ∧ perform request s.object = some done ∧
      s' = { s with
        object := done.2
        stage := Function.update s.stage i (.performed done.1)
        order := s.order ++ [(i, request)] } := by
  unfold access at h
  split at h
  · rename_i request hstage
    obtain ⟨done, hdone, rfl⟩ := Option.map_eq_some_iff.1 h
    exact ⟨request, done, hstage, hdone, rfl⟩
  · exact absurd h (by simp)

/-- It is answered once that is done. -/
lemma answer_eq_some {answer : α} (h : s.answer i = some (answer, s')) :
    s.stage i = .performed answer ∧ s' = { s with
      stage := Function.update s.stage i .idle
      answered := Function.update s.answered i (s.answered i ++ [answer]) } := by
  unfold SharedObject.answer at h
  split at h
  · rename_i given hstage
    obtain ⟨rfl, rfl⟩ := Prod.mk.inj (Option.some.inj h)
    exact ⟨hstage, rfl⟩
  · exact absurd h (by simp)

/-- At the start nothing has been performed. -/
lemma linear_init (perform : ρ → σ → Option (α × σ)) (object : σ) :
    (init object : SharedObject ι σ ρ α).Linear perform object :=
  ⟨⟨[], rfl, fun _ => rfl⟩, fun _ => rfl⟩

/-- The request that is asked is not in the order yet. -/
lemma Linear.ask (h : s.Linear perform object₀) {request : ρ} (hask : s.ask i request = some s') :
    s'.Linear perform object₀ := by
  obtain ⟨hstage, rfl⟩ := ask_eq_some hask
  obtain ⟨⟨answers, hall, hanswers⟩, hasked⟩ := h
  refine ⟨⟨answers, hall, fun j => ?_⟩, fun j => ?_⟩ <;> dsimp only
  · rw [hanswers j]
    rcases eq_or_ne j i with rfl | hj
    · rw [hstage, Function.update_self]
      rfl
    · rw [Function.update_of_ne hj]
  · rcases eq_or_ne j i with rfl | hj
    · rw [Function.update_self, Function.update_self, hasked j, hstage]
      simp [Stage.request]
    · rw [Function.update_of_ne hj, Function.update_of_ne hj, hasked j]

/-- The request that is performed is the last one of the order. -/
lemma Linear.access (h : s.Linear perform object₀) (haccess : s.access perform i = some s') :
    s'.Linear perform object₀ := by
  obtain ⟨request, ⟨answer, object⟩, hstage, hperform, rfl⟩ := access_eq_some haccess
  obtain ⟨⟨answers, hall, hanswers⟩, hasked⟩ := h
  refine ⟨⟨_, performAll_concat hall hperform i, fun j => ?_⟩, fun j => ?_⟩ <;> dsimp only
  · rw [ofClient_append, hanswers j]
    rcases eq_or_ne j i with rfl | hj
    · rw [hstage, Function.update_self, ofClient_singleton_self]
      simp [Stage.answer]
    · rw [Function.update_of_ne hj, ofClient_singleton_of_ne hj.symm, List.append_nil]
  · rw [ofClient_append, hasked j]
    rcases eq_or_ne j i with rfl | hj
    · rw [hstage, Function.update_self, ofClient_singleton_self]
      simp [Stage.request]
    · rw [Function.update_of_ne hj, ofClient_singleton_of_ne hj.symm, List.append_nil]

/-- The answer that is given is the last one of the client. -/
lemma Linear.answer (h : s.Linear perform object₀) {answer : α}
    (hanswer : s.answer i = some (answer, s')) : s'.Linear perform object₀ := by
  obtain ⟨hstage, rfl⟩ := answer_eq_some hanswer
  obtain ⟨⟨answers, hall, hanswers⟩, hasked⟩ := h
  refine ⟨⟨answers, hall, fun j => ?_⟩, fun j => ?_⟩ <;> dsimp only
  · rw [hanswers j]
    rcases eq_or_ne j i with rfl | hj
    · rw [hstage, Function.update_self, Function.update_self]
      simp [Stage.answer]
    · rw [Function.update_of_ne hj, Function.update_of_ne hj]
  · rw [hasked j]
    rcases eq_or_ne j i with rfl | hj
    · rw [hstage, Function.update_self]
      rfl
    · rw [Function.update_of_ne hj]

end SharedObject

end OsSimulator
