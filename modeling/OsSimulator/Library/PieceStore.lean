import Mathlib.Data.Set.BooleanAlgebra
import Mathlib.Data.Set.Disjoint
import Mathlib.Order.CompletePartialOrder
import Mathlib.Order.Lattice
import OsSimulator.Library.ByteStore
import OsSimulator.Library.SharedObject

set_option relaxedAutoImplicit false
set_option autoImplicit false

/-!
# Transfers in pieces

Several clients read and write stretches of one store. A transfer is cut into pieces, each of which
is performed at one go, and between two pieces of one client the others perform theirs. Where no
transfer is begun while another one that conflicts with it is going on, the transfers are as if each
had been performed at one go, in the order in which they have ended.

## Main definitions

* `Transfer`, `Transfer.perform` — a transfer, and what it does at one go.
* `PieceStore`, `PieceStore.step` — the store, with the transfers that are going on.
* `PieceStore.Apart` — what begins does not conflict with what is going on.
* `PieceStore.Explained` — the order explains the store and the answers.

## Main results

* `PieceStore.explained_of_run` — it does so in every run without conflicts.
* `PieceStore.own_of_run` — a client whose part of the store nobody else writes to has the store for
  itself.
-/

namespace OsSimulator

variable {ι β : Type}

/-- A transfer of a stretch of a store. -/
inductive Transfer (β : Type)
  | read (start count : ℕ)
  | write (start : ℕ) (data : List β)
  deriving DecidableEq, Repr

namespace Transfer

/-- The first cell. -/
def start : Transfer β → ℕ
  | read start _ | write start _ => start

/-- The number of cells. -/
def count : Transfer β → ℕ
  | read _ count => count
  | write _ data => data.length

/-- The transfer is a write. -/
def isWrite : Transfer β → Bool
  | read _ _ => false
  | write _ _ => true

/-- The stretch is in a store of that size. -/
def Fits (t : Transfer β) (size : ℕ) : Prop := t.start + t.count ≤ size

instance (t : Transfer β) (size : ℕ) : Decidable (t.Fits size) :=
  inferInstanceAs (Decidable (_ ≤ _))

/-- The transfer at one go: what is read, and the store afterwards. -/
def perform (t : Transfer β) (store : List β) : Option (List β × List β) :=
  if t.Fits store.length then
    match t with
    | read start count => some (slice store start count, store)
    | write start data => some ([], splice store start data)
  else none

/-- A read of cells that exist. -/
lemma perform_read {start count : ℕ} {store : List β} (h : start + count ≤ store.length) :
    (read start count).perform store = some (slice store start count, store) :=
  if_pos h

/-- A write of cells that exist. -/
lemma perform_write {start : ℕ} {data store : List β} (h : start + data.length ≤ store.length) :
    (write start data).perform store = some ([], splice store start data) :=
  if_pos h

/-- Both are about one cell, which one of them writes. -/
def Conflicts (t t' : Transfer β) : Prop :=
  (t.isWrite || t'.isWrite) = true ∧ max t.start t'.start < min (t.start + t.count)
    (t'.start + t'.count)

instance (t t' : Transfer β) : Decidable (t.Conflicts t') := inferInstanceAs (Decidable (_ ∧ _))

/-- The transfer is about the cell. -/
def Has (t : Transfer β) (x : ℕ) : Prop := t.start ≤ x ∧ x < t.start + t.count

/-- To conflict is mutual. -/
lemma conflicts_comm {t t' : Transfer β} : t.Conflicts t' ↔ t'.Conflicts t := by
  unfold Conflicts
  rw [Bool.or_comm, max_comm, min_comm]

/-- A cell that is written belongs to one of two transfers that do not conflict. -/
lemma not_has_of_not_conflicts {t t' : Transfer β} (h : ¬ t.Conflicts t')
    (hwrite : (t.isWrite || t'.isWrite) = true) {x : ℕ} (hx : t.Has x) : ¬ t'.Has x := by
  intro hx'
  refine h ⟨hwrite, ?_⟩
  obtain ⟨hlow, hhigh⟩ := hx
  obtain ⟨hlow', hhigh'⟩ := hx'
  omega

end Transfer

/-- A transfer that is going on, with the cells that are done and what has been read of them. -/
structure Ongoing (β : Type) where
  transfer : Transfer β
  done : ℕ
  bytes : List β
  deriving DecidableEq, Repr

namespace Ongoing

/-- The cell is done. -/
def Done (o : Ongoing β) (x : ℕ) : Prop := o.transfer.start ≤ x ∧ x < o.transfer.start + o.done

/-- The next piece of a transfer, and the store afterwards. -/
def piece (n : ℕ) (store : List β) (o : Ongoing β) : Ongoing β × List β :=
  match o.transfer with
  | .read start _ => (⟨o.transfer, o.done + n, o.bytes ++ slice store (start + o.done) n⟩, store)
  | .write start data =>
    (⟨o.transfer, o.done + n, o.bytes⟩, splice store (start + o.done) (slice data o.done n))

end Ongoing

/-- The store, the transfer that each client has begun and not ended, and those that have ended,
with their answers. -/
structure PieceStore (ι β : Type) where
  store : List β
  ongoing : ι → Option (Ongoing β)
  order : List (ι × Transfer β)
  answers : List (ι × List β)

namespace PieceStore

/-- Nothing has begun. -/
def init (store : List β) : PieceStore ι β := ⟨store, fun _ => none, [], []⟩

/-- A client begins a transfer, performs a piece of so many cells, or ends it. -/
inductive Event (ι β : Type)
  | start (i : ι) (transfer : Transfer β)
  | piece (i : ι) (n : ℕ)
  | finish (i : ι)
  deriving DecidableEq, Repr

section Steps

variable [DecidableEq ι]

/-- One step. -/
def step (s : PieceStore ι β) : Event ι β → Option (PieceStore ι β)
  | .start i transfer =>
    if (s.ongoing i).isNone ∧ transfer.Fits s.store.length then
      some { s with ongoing := Function.update s.ongoing i (some ⟨transfer, 0, []⟩) }
    else none
  | .piece i n =>
    (s.ongoing i).bind fun o =>
      if o.done + n ≤ o.transfer.count then
        some { s with
          store := (o.piece n s.store).2
          ongoing := Function.update s.ongoing i (some (o.piece n s.store).1) }
      else none
  | .finish i =>
    (s.ongoing i).bind fun o =>
      if o.done = o.transfer.count then
        some { s with
          ongoing := Function.update s.ongoing i none
          order := s.order ++ [(i, o.transfer)]
          answers := s.answers ++ [(i, o.bytes)] }
      else none

/-- What a client begins does not conflict with what another one is about. -/
def Apart (s : PieceStore ι β) : Event ι β → Prop
  | .start i transfer => ∀ j, j ≠ i → ∀ o ∈ s.ongoing j, ¬ transfer.Conflicts o.transfer
  | _ => True

/-- **The order explains everything.** There is a store that the ended transfers lead to, performed
one after another at one go, and their answers are those; the store is that one but for the cells
that writes have done, which are as they will be; and reads have read that one. -/
structure Explained (store₀ flat : List β) (s : PieceStore ι β) : Prop where
  performed : performAll Transfer.perform s.order store₀ = some (s.answers, flat)
  size : flat.length = s.store.length
  fits : ∀ i, ∀ o ∈ s.ongoing i, o.transfer.Fits s.store.length ∧ o.done ≤ o.transfer.count
  apart : ∀ i j, i ≠ j → ∀ o ∈ s.ongoing i, ∀ o' ∈ s.ongoing j,
    ¬ o.transfer.Conflicts o'.transfer
  outside : ∀ x, (∀ i, ∀ o ∈ s.ongoing i, o.transfer.isWrite = true → ¬ o.Done x) →
    s.store[x]? = flat[x]?
  written : ∀ i, ∀ o ∈ s.ongoing i, ∀ start data, o.transfer = .write start data →
    o.bytes = [] ∧ ∀ x, o.Done x → s.store[x]? = data[x - start]?
  read : ∀ i, ∀ o ∈ s.ongoing i, ∀ start count, o.transfer = .read start count →
    o.bytes = slice flat start o.done

end Steps

section Explained

/-- What a function gives after a change at one place. -/
lemma mem_update {γ : Type} [DecidableEq ι] {f : ι → Option γ} {i j : ι} {v : Option γ} {o : γ} :
    o ∈ Function.update f i v j ↔ j = i ∧ o ∈ v ∨ j ≠ i ∧ o ∈ f j := by
  rcases eq_or_ne j i with rfl | hj
  · simp
  · simp [hj]

/-- At the start nothing is to be explained. -/
lemma explained_init (store : List β) : Explained store store (init store : PieceStore ι β) :=
  ⟨rfl, rfl, by simp [init], by simp [init], fun _ _ => rfl, by simp [init], by simp [init]⟩

variable {store₀ flat : List β} {s s' : PieceStore ι β} {i : ι}

/-- A cell that is done is one that the transfer is about. -/
lemma Explained.has_of_done (h : Explained store₀ flat s) {o : Ongoing β} (ho : o ∈ s.ongoing i)
    {x : ℕ} (hx : o.Done x) : o.transfer.Has x := by
  have hle := (h.fits i o ho).2
  obtain ⟨hlow, hhigh⟩ := hx
  exact ⟨hlow, by omega⟩

variable [DecidableEq ι]

/-- A transfer that begins has done nothing yet. -/
lemma Explained.start (h : Explained store₀ flat s) {transfer : Transfer β}
    (hapart : s.Apart (.start i transfer)) (hst : s.step (.start i transfer) = some s') :
    Explained store₀ flat s' := by
  obtain ⟨⟨hnone, hfits⟩, heq⟩ := Option.ite_none_right_eq_some.1 hst
  obtain rfl := Option.some.inj heq
  refine ⟨h.performed, h.size, fun j o ho => ?_, fun j k hjk o ho o' ho' => ?_,
    fun x hx => h.outside x fun j o ho => hx j o (mem_update.2 (.inr ⟨?_, ho⟩)),
    fun j o ho start data htransfer => ?_, fun j o ho start count htransfer => ?_⟩
  · rcases mem_update.1 ho with ⟨-, ho⟩ | ⟨-, ho⟩
    · obtain rfl := Option.some.inj ho
      exact ⟨hfits, Nat.zero_le _⟩
    · exact h.fits j o ho
  · rcases mem_update.1 ho with ⟨rfl, hnew⟩ | ⟨hj, hold⟩
    · obtain rfl := Option.some.inj hnew
      rcases mem_update.1 ho' with ⟨rfl, -⟩ | ⟨-, hold'⟩
      · exact absurd rfl hjk
      · exact hapart k hjk.symm o' hold'
    · rcases mem_update.1 ho' with ⟨rfl, hnew⟩ | ⟨-, hold'⟩
      · obtain rfl := Option.some.inj hnew
        exact fun hconflict => hapart j hj o hold (Transfer.conflicts_comm.1 hconflict)
      · exact h.apart j k hjk o hold o' hold'
  · rintro rfl
    rw [Option.isNone_iff_eq_none.1 hnone] at ho
    exact absurd ho (by simp)
  · rcases mem_update.1 ho with ⟨-, ho⟩ | ⟨-, ho⟩
    · obtain rfl := Option.some.inj ho
      refine ⟨rfl, fun x hdone => ?_⟩
      obtain ⟨hlow, hhigh⟩ := hdone
      dsimp only at hlow hhigh
      omega
    · exact h.written j o ho start data htransfer
  · rcases mem_update.1 ho with ⟨-, ho⟩ | ⟨-, ho⟩
    · obtain rfl := Option.some.inj ho
      exact (slice_zero flat start).symm
    · exact h.read j o ho start count htransfer

/-- A transfer goes on: its own cells are as they will be, and no other cell changes. -/
lemma Explained.advance (h : Explained store₀ flat s) {o : Ongoing β} (ho : o ∈ s.ongoing i) {n : ℕ}
    (hn : o.done + n ≤ o.transfer.count) (store bytes : List β)
    (hsize : store.length = s.store.length)
    (hwritten : ∀ start data, o.transfer = .write start data →
      bytes = [] ∧ ∀ x, start ≤ x → x < start + (o.done + n) → store[x]? = data[x - start]?)
    (hread : ∀ start count, o.transfer = .read start count →
      bytes = slice flat start (o.done + n))
    (hother : ∀ x, (o.transfer.isWrite = true → ¬ (⟨o.transfer, o.done + n, bytes⟩ :
      Ongoing β).Done x) → store[x]? = s.store[x]?) :
    Explained store₀ flat { s with
      store := store
      ongoing := Function.update s.ongoing i (some ⟨o.transfer, o.done + n, bytes⟩) } := by
  have hdone : ∀ x, o.Done x → (⟨o.transfer, o.done + n, bytes⟩ : Ongoing β).Done x :=
    fun x hx => ⟨hx.1, lt_of_lt_of_le hx.2 (by dsimp only; omega)⟩
  refine ⟨h.performed, h.size.trans hsize.symm, fun j o' ho' => ?_,
    fun j k hjk o₁ ho₁ o₂ ho₂ => ?_, fun x hx => ?_, fun j o' ho' start data htransfer => ?_,
    fun j o' ho' start count htransfer => ?_⟩
  · rw [hsize]
    rcases mem_update.1 ho' with ⟨-, hnew⟩ | ⟨-, hold⟩
    · obtain rfl := Option.some.inj hnew
      exact ⟨(h.fits i o ho).1, hn⟩
    · exact h.fits j o' hold
  · rcases mem_update.1 ho₁ with ⟨rfl, hnew⟩ | ⟨-, hold⟩
    · obtain rfl := Option.some.inj hnew
      rcases mem_update.1 ho₂ with ⟨rfl, -⟩ | ⟨-, hold'⟩
      · exact absurd rfl hjk
      · exact h.apart _ _ hjk o ho o₂ hold'
    · rcases mem_update.1 ho₂ with ⟨rfl, hnew⟩ | ⟨-, hold'⟩
      · obtain rfl := Option.some.inj hnew
        exact h.apart _ _ hjk o₁ hold o ho
      · exact h.apart _ _ hjk o₁ hold o₂ hold'
  · rw [hother x fun hwrite => hx i _ (mem_update.2 (.inl ⟨rfl, rfl⟩)) hwrite]
    refine h.outside x fun j o' ho' hwrite hx' => ?_
    rcases eq_or_ne j i with rfl | hj
    · obtain rfl := Option.some.inj (ho.symm.trans ho')
      exact hx j _ (mem_update.2 (.inl ⟨rfl, rfl⟩)) hwrite (hdone x hx')
    · exact hx j o' (mem_update.2 (.inr ⟨hj, ho'⟩)) hwrite hx'
  · rcases mem_update.1 ho' with ⟨-, hnew⟩ | ⟨hj, hold⟩
    · obtain rfl := Option.some.inj hnew
      obtain ⟨hbytes, hcells⟩ := hwritten start data htransfer
      have hstart : o.transfer.start = start := congrArg Transfer.start htransfer
      exact ⟨hbytes, fun x hx => hcells x (hstart ▸ hx.1) (hstart ▸ hx.2)⟩
    · obtain ⟨hbytes, hcells⟩ := h.written j o' hold start data htransfer
      refine ⟨hbytes, fun x hx => (hother x fun _ hx' => ?_).trans (hcells x hx)⟩
      have hhas : o.transfer.Has x := ⟨hx'.1, lt_of_lt_of_le hx'.2 (by dsimp only; omega)⟩
      refine Transfer.not_has_of_not_conflicts (h.apart i j hj.symm o ho o' hold) ?_ hhas
        (h.has_of_done hold hx)
      rw [htransfer]
      simp [Transfer.isWrite]
  · rcases mem_update.1 ho' with ⟨-, hnew⟩ | ⟨-, hold⟩
    · obtain rfl := Option.some.inj hnew
      exact hread start count htransfer
    · exact h.read j o' hold start count htransfer

/-- **The next piece**: what is read there is what would be read at one go, because nobody writes
there; and what is written there is part of the data. -/
lemma Explained.piece (h : Explained store₀ flat s) {n : ℕ} (hst : s.step (.piece i n) = some s') :
    Explained store₀ flat s' := by
  obtain ⟨o, ho, hite⟩ := Option.bind_eq_some_iff.1 hst
  obtain ⟨hn, heq⟩ := Option.ite_none_right_eq_some.1 hite
  obtain rfl := Option.some.inj heq
  have hfits := (h.fits i o ho).1
  unfold Transfer.Fits at hfits
  cases htransfer : o.transfer with
  | read start count =>
    have hpiece : slice s.store (start + o.done) n = slice flat (start + o.done) n := by
      refine slice_congr fun x hlow hhigh => h.outside x fun j o' ho' hwrite hdone => ?_
      have hj : i ≠ j := by
        rintro rfl
        obtain rfl := Option.some.inj (ho.symm.trans ho')
        rw [htransfer] at hwrite
        exact absurd hwrite (by simp [Transfer.isWrite])
      refine Transfer.not_has_of_not_conflicts (h.apart i j hj o ho o' ho') (by simp [hwrite])
        ?_ (h.has_of_done ho' hdone)
      rw [htransfer] at hn ⊢
      simp only [Transfer.Has, Transfer.start, Transfer.count] at hn ⊢
      omega
    have hadvance := h.advance ho hn s.store (o.bytes ++ slice s.store (start + o.done) n) rfl
      (fun start' data hwrite => absurd (htransfer.symm.trans hwrite) (by simp))
      (fun start' count' hread => by
        obtain ⟨rfl, rfl⟩ := Transfer.read.inj (htransfer.symm.trans hread)
        rw [h.read i o ho start count htransfer, hpiece, slice_add])
      (fun _ _ => rfl)
    simpa only [Ongoing.piece, htransfer] using hadvance
  | write start data =>
    rw [htransfer] at hn hfits
    simp only [Transfer.start, Transfer.count] at hn hfits
    obtain ⟨hbytes, hcells⟩ := h.written i o ho start data htransfer
    have hlength : (slice data o.done n).length = n := length_slice hn
    have hinside : start + o.done + (slice data o.done n).length ≤ s.store.length := by omega
    have hadvance := h.advance ho (by rw [htransfer]; exact hn)
      (splice s.store (start + o.done) (slice data o.done n)) o.bytes (length_splice hinside)
      (fun start' data' hwrite => by
        obtain ⟨rfl, rfl⟩ := Transfer.write.inj (htransfer.symm.trans hwrite)
        refine ⟨hbytes, fun x hlow hhigh => ?_⟩
        rw [getElem?_splice hinside, hlength]
        split
        · rw [getElem?_slice, if_pos (by omega)]
          congr 1
          omega
        · refine hcells x ?_
          simp only [Ongoing.Done, htransfer, Transfer.start]
          omega)
      (fun start' count' hread => absurd (htransfer.symm.trans hread) (by simp))
      (fun x hx => by
        rw [getElem?_splice hinside, if_neg]
        rintro ⟨hlow, hhigh⟩
        refine hx (by rw [htransfer]; rfl) ?_
        simp only [Ongoing.Done, htransfer, Transfer.start]
        omega)
    simpa only [Ongoing.piece, htransfer] using hadvance

/-- **The end of a transfer**: it comes last in the order. A read has read what it would read now,
and a write has left nothing that it would change now. -/
lemma Explained.finish (h : Explained store₀ flat s) (hst : s.step (.finish i) = some s') :
    ∃ flat', Explained store₀ flat' s' := by
  obtain ⟨o, ho, hite⟩ := Option.bind_eq_some_iff.1 hst
  obtain ⟨hdone, heq⟩ := Option.ite_none_right_eq_some.1 hite
  obtain rfl := Option.some.inj heq
  have hfits : o.transfer.Fits flat.length := by
    rw [h.size]
    exact (h.fits i o ho).1
  have hrest : ∀ {j : ι} {o' : Ongoing β}, o' ∈ Function.update s.ongoing i none j →
      j ≠ i ∧ o' ∈ s.ongoing j := by
    intro j o' ho'
    rcases mem_update.1 ho' with ⟨-, hnew⟩ | hold
    · exact absurd hnew (by simp)
    · exact hold
  have hclear : ∀ {j : ι} {o' : Ongoing β}, o' ∈ Function.update s.ongoing i none j →
      o.transfer.isWrite = true → ∀ x, o'.Done x → ¬ o.transfer.Has x := by
    intro j o' ho' hwrite x hx
    obtain ⟨hj, hold⟩ := hrest ho'
    exact Transfer.not_has_of_not_conflicts (h.apart j i hj o' hold o ho) (by simp [hwrite])
      (h.has_of_done hold hx)
  cases htransfer : o.transfer with
  | read start count =>
    have hperform : o.transfer.perform flat = some (o.bytes, flat) := by
      rw [h.read i o ho start count htransfer, hdone]
      rw [htransfer] at hfits ⊢
      exact Transfer.perform_read hfits
    rw [← htransfer]
    refine ⟨flat, performAll_concat h.performed hperform i, h.size, fun j o' ho' => ?_,
      fun j k hjk o₁ ho₁ o₂ ho₂ => h.apart j k hjk o₁ (hrest ho₁).2 o₂ (hrest ho₂).2,
      fun x hx => h.outside x fun j o' ho' hwrite => ?_,
      fun j o' ho' => h.written j o' (hrest ho').2, fun j o' ho' => h.read j o' (hrest ho').2⟩
    · exact h.fits j o' (hrest ho').2
    · refine hx j o' (mem_update.2 (.inr ⟨?_, ho'⟩)) hwrite
      rintro rfl
      obtain rfl := Option.some.inj (ho.symm.trans ho')
      rw [htransfer] at hwrite
      exact absurd hwrite (by simp [Transfer.isWrite])
  | write start data =>
    obtain ⟨hbytes, hcells⟩ := h.written i o ho start data htransfer
    have hinside : start + data.length ≤ flat.length := by
      rw [htransfer] at hfits
      exact hfits
    have hperform : o.transfer.perform flat = some (o.bytes, splice flat start data) := by
      rw [hbytes, htransfer]
      exact Transfer.perform_write hinside
    have hwrites : o.transfer.isWrite = true := by
      rw [htransfer]
      rfl
    have hhas : ∀ x, o.transfer.Has x ↔ start ≤ x ∧ x < start + data.length := by
      intro x
      rw [htransfer]
      rfl
    have hall : ∀ x, o.Done x ↔ o.transfer.Has x := by
      intro x
      rw [Ongoing.Done, hdone]
      rfl
    have hsame : ∀ x, ¬ o.transfer.Has x → (splice flat start data)[x]? = flat[x]? := by
      intro x hx
      rw [getElem?_splice hinside, if_neg fun hin => hx ((hhas x).2 hin)]
    rw [← htransfer]
    refine ⟨_, performAll_concat h.performed hperform i, (length_splice hinside).trans h.size,
      fun j o' ho' => h.fits j o' (hrest ho').2,
      fun j k hjk o₁ ho₁ o₂ ho₂ => h.apart j k hjk o₁ (hrest ho₁).2 o₂ (hrest ho₂).2,
      fun x hx => ?_, fun j o' ho' => h.written j o' (hrest ho').2,
      fun j o' ho' start' count hread => ?_⟩
    · by_cases hin : o.transfer.Has x
      · rw [hcells x ((hall x).2 hin), getElem?_splice hinside, if_pos ((hhas x).1 hin)]
      · rw [hsame x hin]
        refine h.outside x fun j o' ho' hwrite hx' => ?_
        rcases eq_or_ne j i with rfl | hj
        · obtain rfl := Option.some.inj (ho.symm.trans ho')
          exact hin ((hall x).1 hx')
        · exact hx j o' (mem_update.2 (.inr ⟨hj, ho'⟩)) hwrite hx'
    · rw [h.read j o' (hrest ho').2 start' count hread]
      refine slice_congr fun x hlow hhigh => (hsame x (hclear ho' hwrites x ?_)).symm
      rw [Ongoing.Done, hread]
      exact ⟨hlow, hhigh⟩

/-- **One step.** -/
lemma Explained.step (h : Explained store₀ flat s) {e : Event ι β} (hapart : s.Apart e)
    (hst : s.step e = some s') : ∃ flat', Explained store₀ flat' s' := by
  cases e with
  | start i transfer => exact ⟨flat, h.start hapart hst⟩
  | piece i n => exact ⟨flat, h.piece hst⟩
  | finish i => exact h.finish hst

/-- **Transfers that do not conflict are as if performed at one go**, in the order in which they
have ended. -/
theorem explained_of_run (h : Run PieceStore.step Apart (init store₀) s) :
    ∃ flat, Explained store₀ flat s :=
  Run.invariant (I := fun s => ∃ flat, Explained store₀ flat s) h ⟨_, explained_init store₀⟩
    fun _ _ _ ⟨_, hexplained⟩ hapart hst => hexplained.step hapart hst

/-! ## Everybody in a part of its own -/

/-- What a client begins is in its part. -/
def Inside (region : ι → Set ℕ) : PieceStore ι β → Event ι β → Prop
  | _, .start i transfer => ∀ x, transfer.Has x → x ∈ region i
  | _, _ => True

/-- Everything that has been begun is in the part of its client. -/
structure AllInside (region : ι → Set ℕ) (s : PieceStore ι β) : Prop where
  ongoing : ∀ i, ∀ o ∈ s.ongoing i, ∀ x, o.transfer.Has x → x ∈ region i
  order : ∀ i t, (i, t) ∈ s.order → ∀ x, t.Has x → x ∈ region i

omit [DecidableEq ι] in
/-- At the start nothing is going on. -/
lemma allInside_init (region : ι → Set ℕ) (store : List β) :
    AllInside region (init store : PieceStore ι β) :=
  ⟨by simp [init], by simp [init]⟩

/-- What begins inside stays inside. -/
lemma AllInside.step {region : ι → Set ℕ} (h : AllInside region s) {e : Event ι β}
    (hinside : Inside region s e) (hst : s.step e = some s') : AllInside region s' := by
  cases e with
  | start i transfer =>
    obtain ⟨-, heq⟩ := Option.ite_none_right_eq_some.1 hst
    obtain rfl := Option.some.inj heq
    refine ⟨fun j o ho => ?_, h.order⟩
    rcases mem_update.1 ho with ⟨rfl, hnew⟩ | ⟨-, hold⟩
    · obtain rfl := Option.some.inj hnew
      exact hinside
    · exact h.ongoing j o hold
  | piece i n =>
    obtain ⟨o, ho, hite⟩ := Option.bind_eq_some_iff.1 hst
    obtain ⟨-, heq⟩ := Option.ite_none_right_eq_some.1 hite
    obtain rfl := Option.some.inj heq
    refine ⟨fun j o' ho' => ?_, h.order⟩
    rcases mem_update.1 ho' with ⟨rfl, hnew⟩ | ⟨-, hold⟩
    · obtain rfl := Option.some.inj hnew
      have hsame : (o.piece n s.store).1.transfer = o.transfer := by
        unfold Ongoing.piece
        split <;> rfl
      rw [hsame]
      exact h.ongoing j o ho
    · exact h.ongoing j o' hold
  | finish i =>
    obtain ⟨o, ho, hite⟩ := Option.bind_eq_some_iff.1 hst
    obtain ⟨-, heq⟩ := Option.ite_none_right_eq_some.1 hite
    obtain rfl := Option.some.inj heq
    refine ⟨fun j o' ho' => ?_, fun j t ht => ?_⟩
    · rcases mem_update.1 ho' with ⟨-, hnew⟩ | ⟨-, hold⟩
      · exact absurd hnew (by simp)
      · exact h.ongoing j o' hold
    · rcases List.mem_append.1 ht with ht | ht
      · exact h.order j t ht
      · obtain ⟨rfl, rfl⟩ := Prod.mk.inj (List.mem_singleton.1 ht)
        exact h.ongoing j o ho

omit [DecidableEq ι] in
/-- Transfers in parts that do not meet do not conflict. -/
lemma AllInside.apart {region : ι → Set ℕ} (h : AllInside region s)
    (hdisjoint : ∀ i j, i ≠ j → Disjoint (region i) (region j)) {e : Event ι β}
    (hinside : Inside region s e) : s.Apart e := by
  cases e with
  | start i transfer =>
    rintro j hj o ho ⟨-, hmeet⟩
    refine Set.disjoint_left.1 (hdisjoint i j hj.symm)
      (hinside (max transfer.start o.transfer.start) ?_) (h.ongoing j o ho _ ?_)
    · exact ⟨by omega, by omega⟩
    · exact ⟨by omega, by omega⟩
  | piece i n => trivial
  | finish i => trivial

/-- The same store in a part of it. -/
def AlikeIn (region : Set ℕ) (store store' : List β) : Prop :=
  store.length = store'.length ∧ ∀ x ∈ region, store[x]? = store'[x]?

/-- A transfer in the part does the same in both stores. -/
lemma AlikeIn.own {region : Set ℕ} {store store' after bytes : List β}
    (h : AlikeIn region store store') {t : Transfer β} (ht : ∀ x, t.Has x → x ∈ region)
    (hperform : t.perform store = some (bytes, after)) :
    ∃ after', t.perform store' = some (bytes, after') ∧ AlikeIn region after after' := by
  obtain ⟨hlength, hcells⟩ := h
  obtain ⟨hfits, heq⟩ := Option.ite_none_right_eq_some.1 hperform
  cases t with
  | read start count =>
    obtain ⟨rfl, rfl⟩ := Prod.mk.inj (Option.some.inj heq)
    refine ⟨store', ?_, hlength, hcells⟩
    rw [Transfer.perform_read (hlength ▸ hfits)]
    have hslice : slice store' start count = slice store start count :=
      slice_congr fun x hlow hhigh => (hcells x (ht x ⟨hlow, hhigh⟩)).symm
    rw [hslice]
  | write start data =>
    obtain ⟨rfl, rfl⟩ := Prod.mk.inj (Option.some.inj heq)
    have hfits : start + data.length ≤ store.length := hfits
    have hfits' : start + data.length ≤ store'.length := hlength ▸ hfits
    refine ⟨_, Transfer.perform_write hfits', ?_, fun x hx => ?_⟩
    · rw [length_splice hfits, length_splice hfits', hlength]
    · rw [getElem?_splice hfits, getElem?_splice hfits', hcells x hx]

/-- A transfer outside the part changes nothing in it. -/
lemma AlikeIn.other {region : Set ℕ} {store store' after bytes : List β}
    (h : AlikeIn region store store') {t : Transfer β} (ht : ∀ x, t.Has x → x ∉ region)
    (hperform : t.perform store = some (bytes, after)) : AlikeIn region after store' := by
  obtain ⟨hlength, hcells⟩ := h
  obtain ⟨hfits, heq⟩ := Option.ite_none_right_eq_some.1 hperform
  cases t with
  | read start count =>
    obtain ⟨-, rfl⟩ := Prod.mk.inj (Option.some.inj heq)
    exact ⟨hlength, hcells⟩
  | write start data =>
    obtain ⟨-, rfl⟩ := Prod.mk.inj (Option.some.inj heq)
    have hfits : start + data.length ≤ store.length := hfits
    refine ⟨(length_splice hfits).trans hlength, fun x hx => ?_⟩
    have hout : ¬ (start ≤ x ∧ x < start + data.length) := fun hin => ht x hin hx
    rw [getElem?_splice hfits, if_neg hout]
    exact hcells x hx

/-- **Everybody has the store for itself**: where nobody leaves its part, what a client has read,
and what is in its part when it is at rest, is what its own transfers give, performed alone and at
one go. -/
theorem own_of_run {region : ι → Set ℕ}
    (hdisjoint : ∀ i j, i ≠ j → Disjoint (region i) (region j))
    (h : Run PieceStore.step (Inside region) (init store₀) s) (i : ι) :
    ∃ own, performAll Transfer.perform (s.order.filter fun entry => entry.1 = i) store₀ =
        some (s.answers.filter fun entry => entry.1 = i, own) ∧
      (s.ongoing i = none → ∀ x ∈ region i, s.store[x]? = own[x]?) := by
  obtain ⟨hall, flat, hexplained⟩ := Run.invariant
    (I := fun s => AllInside region s ∧ ∃ flat, Explained store₀ flat s) h
    ⟨allInside_init region store₀, _, explained_init store₀⟩
    fun _ _ _ ⟨hall, _, hexplained⟩ hinside hst =>
      ⟨hall.step hinside hst, hexplained.step (hall.apart hdisjoint hinside) hst⟩
  obtain ⟨own, hown, -, hcells⟩ := performAll_own (R := AlikeIn (region i))
    (fun t ht a b bytes a' halike hperform => halike.own (hall.order i t ht) hperform)
    (fun j t ht hj a b bytes a' halike hperform =>
      halike.other (fun x hx hin => Set.disjoint_left.1 (hdisjoint i j hj.symm) hin
        (hall.order j t ht x hx)) hperform)
    hexplained.performed ⟨rfl, fun _ _ => rfl⟩
  refine ⟨own, hown, fun hnone x hx => (hexplained.outside x fun j o ho _ hdone => ?_).trans
    (hcells x hx)⟩
  have hj : i ≠ j := by
    rintro rfl
    rw [hnone] at ho
    exact absurd ho (by simp)
  exact Set.disjoint_left.1 (hdisjoint i j hj) hx
    (hall.ongoing j o ho x (hexplained.has_of_done ho hdone))

end Explained

end PieceStore

end OsSimulator
