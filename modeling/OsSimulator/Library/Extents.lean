import Mathlib.Data.Int.Interval
import Mathlib.Data.List.Pairwise
import Mathlib.Order.Interval.Finset.Basic
import Mathlib.Algebra.Order.BigOperators.Group.List

set_option relaxedAutoImplicit false
set_option autoImplicit false

/-!
# Dividing an address range into extents

An allocator divides the addresses from `0` to a total into extents: the blocks it has handed out
and the free ones. Each of its operations takes some extents of the division away and puts others
with the same addresses, or fewer, in their place, so that one rule about such an exchange covers
a block cut from a free extent, a block merged with its free neighbours, and a list of blocks
moved together.

## Main definitions

* `interval a b` — the addresses from one up to another.
* `Extent`, `addresses` — a base with a size, and the addresses of a list of them.
* `Fits total l` — the extents of `l` are disjoint and lie in the range.
* `Fills total l` — besides, no address of the range is left out.
* `Touches e f` — one of the two ends where the other starts.

## Main results

* `Fits.exchange`, `Fills.exchange` — extents replaced by others with the same addresses.
* `Fits.extend`, `Fills.extend` — the range grows by an extent at its end.
* `Fits.sum_size_le`, `Fills.sum_size` — the sizes add up to the total at most, and exactly.
* `fills_pack` — extents put one behind the other.
* `Fills.exists_whole` — extents that fill the range without two of them touching are one extent.
-/

namespace OsSimulator

/-- The addresses from one up to another. The integers have their order in more than one way in the
library; this is the one of its intervals. -/
def interval (a b : ℤ) : Finset ℤ :=
  @Finset.Ico ℤ Lattice.toSemilatticeInf.toPartialOrder.toPreorder Int.instLocallyFiniteOrder a b

/-- A half-open interval. -/
lemma mem_interval {a b x : ℤ} : x ∈ interval a b ↔ a ≤ x ∧ x < b := Finset.mem_Ico

/-- From a point to itself there is nothing. -/
@[simp] lemma interval_self (a : ℤ) : interval a a = ∅ := Finset.Ico_self a

/-- An interval has as many points as its ends are apart. -/
lemma card_interval (a b : ℤ) : (interval a b).card = (b - a).toNat := Int.card_Ico a b

/-- A range of addresses. -/
structure Extent where
  base : ℤ
  size : ℤ
  deriving DecidableEq, Repr

namespace Extent

/-- The first address behind the extent. -/
def stop (e : Extent) : ℤ := e.base + e.size

/-- The addresses of the extent. -/
def addresses (e : Extent) : Finset ℤ := interval e.base e.stop

/-- The points from the base up to the end. -/
lemma mem_addresses {e : Extent} {a : ℤ} : a ∈ e.addresses ↔ e.base ≤ a ∧ a < e.stop :=
  mem_interval

/-- One of the two extents ends where the other starts. -/
def Touches (e f : Extent) : Prop := e.stop = f.base ∨ f.stop = e.base

instance (e f : Extent) : Decidable (Touches e f) := inferInstanceAs (Decidable (_ ∨ _))

/-- To touch is mutual. -/
lemma Touches.symm {e f : Extent} (h : Touches e f) : Touches f e := Or.symm h

end Extent

/-- The addresses of a list of extents. -/
def addresses : List Extent → Finset ℤ
  | [] => ∅
  | e :: l => e.addresses ∪ addresses l

/-- No extents have no points. -/
@[simp] lemma addresses_nil : addresses [] = ∅ := rfl

/-- The points of the first one and of the rest. -/
@[simp] lemma addresses_cons (e : Extent) (l : List Extent) :
    addresses (e :: l) = e.addresses ∪ addresses l := rfl

/-- A point of the extents is one of some extent. -/
lemma mem_addresses {l : List Extent} {a : ℤ} :
    a ∈ addresses l ↔ ∃ e ∈ l, e.base ≤ a ∧ a < e.stop := by
  induction l with
  | nil => simp
  | cons e l ih => simp [Extent.mem_addresses, ih]

/-- The points of two lists together. -/
lemma addresses_append (l m : List Extent) : addresses (l ++ m) = addresses l ∪ addresses m := by
  ext a
  simp only [mem_addresses, List.mem_append, or_and_right, exists_or, Finset.mem_union]

/-- The order does not count. -/
lemma addresses_perm {l m : List Extent} (h : l.Perm m) : addresses l = addresses m := by
  ext a
  simp only [mem_addresses, h.mem_iff]

/-- Two extents without a common address. -/
def Apart (e f : Extent) : Prop := Disjoint e.addresses f.addresses

/-- To be apart is mutual. -/
lemma Apart.symm {e f : Extent} (h : Apart e f) : Apart f e := Disjoint.symm h

instance : Std.Symm Apart := ⟨fun _ _ => Apart.symm⟩

instance : Std.Symm fun e f : Extent => ¬ e.Touches f := ⟨fun _ _ h ht => h ht.symm⟩

/-- Extents are apart if no point lies in both. -/
lemma apart_iff {e f : Extent} :
    Apart e f ↔ ∀ a, ¬ ((e.base ≤ a ∧ a < e.stop) ∧ f.base ≤ a ∧ a < f.stop) := by
  simp only [Apart, Finset.disjoint_left, Extent.mem_addresses, not_and]

/-- The extents of the list lie in the range and share no address. -/
structure Fits (total : ℤ) (l : List Extent) : Prop where
  inside : ∀ e ∈ l, 0 ≤ e.base ∧ 0 ≤ e.size ∧ e.stop ≤ total
  apart : l.Pairwise Apart

/-- The extents of the list fit and leave out no address of the range. -/
structure Fills (total : ℤ) (l : List Extent) : Prop extends Fits total l where
  covers : addresses l = interval 0 total

variable {total : ℤ}

/-! ## Exchanges -/

/-- The order does not count. -/
lemma Fits.perm {l m : List Extent} (h : Fits total l) (hlm : l.Perm m) : Fits total m where
  inside e he := h.inside e (hlm.mem_iff.2 he)
  apart := (hlm.pairwise_iff Apart.symm).1 h.apart

/-- Nor does it here. -/
lemma Fills.perm {l m : List Extent} (h : Fills total l) (hlm : l.Perm m) : Fills total m where
  toFits := h.toFits.perm hlm
  covers := addresses_perm hlm ▸ h.covers

/-- Nothing fits anywhere. -/
lemma Fits.nil : Fits total [] := ⟨by simp, .nil⟩

/-- An extent of the range by itself. -/
lemma Fits.singleton {e : Extent} (h : 0 ≤ e.base ∧ 0 ≤ e.size ∧ e.stop ≤ total) :
    Fits total [e] :=
  ⟨by simpa using h, List.pairwise_singleton _ _⟩

/-- Two neighbouring extents by themselves. -/
lemma Fits.pair {e f : Extent} (he : 0 ≤ e.base ∧ 0 ≤ e.size) (hf : 0 ≤ f.size ∧ f.stop ≤ total)
    (hef : e.stop = f.base) : Fits total [e, f] := by
  refine ⟨?_, ?_⟩
  · simp only [List.mem_cons, List.not_mem_nil, or_false, forall_eq_or_imp, forall_eq]
    simp only [Extent.stop] at *
    omega
  · rw [List.pairwise_pair, apart_iff]
    intro a ha
    omega

/-- **The exchange rule**: some extents of a division may be replaced by others that fit by
themselves and have none but their addresses.

**Proof sketch.** An address shared by a new extent and one that stays would be an address of an
old extent, and that one is apart from all that stay. -/
theorem Fits.exchange {old new rest : List Extent} (h : Fits total (old ++ rest))
    (hnew : Fits total new) (hsub : addresses new ⊆ addresses old) :
    Fits total (new ++ rest) := by
  obtain ⟨-, hrest, hold⟩ := List.pairwise_append.1 h.apart
  refine ⟨fun e he => ?_, List.pairwise_append.2 ⟨hnew.apart, hrest, fun e he f hf => ?_⟩⟩
  · rcases List.mem_append.1 he with he | he
    · exact hnew.inside e he
    · exact h.inside e (List.mem_append_right old he)
  · rw [apart_iff]
    rintro a ⟨hae, haf⟩
    have ha : a ∈ addresses old := hsub (mem_addresses.2 ⟨e, he, hae⟩)
    obtain ⟨g, hg, hag⟩ := mem_addresses.1 ha
    exact apart_iff.1 (hold g hg f hf) a ⟨hag, haf⟩

/-- The exchange rule for a division without gaps. -/
theorem Fills.exchange {old new rest : List Extent} (h : Fills total (old ++ rest))
    (hnew : Fits total new) (heq : addresses new = addresses old) :
    Fills total (new ++ rest) where
  toFits := h.toFits.exchange hnew heq.subset
  covers := by rw [← h.covers, addresses_append, addresses_append, heq]

/-- The range grows by an extent at its end. -/
theorem Fits.extend {l : List Extent} {n : ℤ} (h : Fits total l) (h₀ : 0 ≤ total) (hn : 0 ≤ n) :
    Fits (total + n) (⟨total, n⟩ :: l) := by
  refine ⟨fun e he => ?_, List.pairwise_cons.2 ⟨fun e he => ?_, h.apart⟩⟩
  · rcases List.mem_cons.1 he with rfl | he
    · exact ⟨h₀, hn, le_rfl⟩
    · have := h.inside e he
      omega
  · have := h.inside e he
    rw [apart_iff]
    intro a ha
    simp only at ha
    omega

/-- The range grows by an extent at its end, without a gap. -/
theorem Fills.extend {l : List Extent} {n : ℤ} (h : Fills total l) (h₀ : 0 ≤ total)
    (hn : 0 ≤ n) : Fills (total + n) (⟨total, n⟩ :: l) where
  toFits := h.toFits.extend h₀ hn
  covers := by
    rw [addresses_cons, h.covers]
    ext a
    simp only [Finset.mem_union, Extent.mem_addresses, mem_interval, Extent.stop]
    omega

/-- The addresses of an extent in two parts. -/
lemma addresses_cut {b n k : ℤ} (hn : 0 ≤ n) (hk : 0 ≤ k) :
    addresses [⟨b, n⟩, ⟨b + n, k⟩] = addresses [⟨b, n + k⟩] := by
  ext a
  simp only [mem_addresses, List.mem_cons, List.not_mem_nil, or_false, exists_eq_or_imp,
    exists_eq_left, Extent.stop]
  omega

/-! ## Sizes -/

/-- The number of addresses is the sum of the sizes. -/
lemma Fits.card_addresses {l : List Extent} (h : Fits total l) :
    ((addresses l).card : ℤ) = (l.map Extent.size).sum := by
  induction l with
  | nil => rfl
  | cons e l ih =>
    obtain ⟨hel, hl⟩ := List.pairwise_cons.1 h.apart
    have htail : Fits total l := ⟨fun f hf => h.inside f (List.mem_cons_of_mem e hf), hl⟩
    have hdisj : Disjoint e.addresses (addresses l) := by
      rw [Finset.disjoint_left]
      intro a ha hal
      obtain ⟨f, hf, haf⟩ := mem_addresses.1 hal
      exact apart_iff.1 (hel f hf) a ⟨Extent.mem_addresses.1 ha, haf⟩
    have he := h.inside e List.mem_cons_self
    have hcard : (e.addresses.card : ℤ) = e.size := by
      rw [Extent.addresses, card_interval, Extent.stop]
      omega
    rw [addresses_cons, Finset.card_union_of_disjoint hdisj, Nat.cast_add, hcard, ih htail,
      List.map_cons, List.sum_cons]

/-- The points are below the total. -/
lemma Fits.addresses_subset {l : List Extent} (h : Fits total l) :
    addresses l ⊆ interval 0 total := by
  intro a ha
  obtain ⟨e, he, hae⟩ := mem_addresses.1 ha
  have := h.inside e he
  rw [mem_interval]
  omega

/-- Disjoint extents of a range have no more bytes than the range. -/
theorem Fits.sum_size_le {l : List Extent} (h : Fits total l) (h₀ : 0 ≤ total) :
    (l.map Extent.size).sum ≤ total := by
  have hcard := Finset.card_le_card h.addresses_subset
  rw [card_interval] at hcard
  have := h.card_addresses
  omega

/-- Extents that fill a range have its bytes. -/
theorem Fills.sum_size {l : List Extent} (h : Fills total l) (h₀ : 0 ≤ total) :
    (l.map Extent.size).sum = total := by
  have hcard := congrArg Finset.card h.covers
  rw [card_interval] at hcard
  have := h.card_addresses
  omega

/-! ## Extents one behind the other -/

/-- Extents of the given sizes one behind the other. -/
def pack : ℤ → List ℤ → List Extent
  | _, [] => []
  | base, n :: sizes => ⟨base, n⟩ :: pack (base + n) sizes

/-- Packed extents start at their base and end at it plus their sizes.

**Proof sketch.** Induction on the sizes: the extents behind the first one lie behind its end. -/
lemma pack_spec (base : ℤ) (sizes : List ℤ) (h : ∀ n ∈ sizes, 0 ≤ n) :
    (∀ e ∈ pack base sizes, base ≤ e.base ∧ 0 ≤ e.size ∧ e.stop ≤ base + sizes.sum) ∧
      (pack base sizes).Pairwise Apart ∧
      addresses (pack base sizes) = interval base (base + sizes.sum) := by
  induction sizes generalizing base with
  | nil => simp [pack]
  | cons n sizes ih =>
    have hn : 0 ≤ n := h n List.mem_cons_self
    have hrest : ∀ k ∈ sizes, 0 ≤ k := fun k hk => h k (List.mem_cons_of_mem n hk)
    obtain ⟨hin, hapart, hcovers⟩ := ih (base + n) hrest
    have hsum : 0 ≤ sizes.sum := List.sum_nonneg hrest
    rw [List.sum_cons, ← Int.add_assoc]
    refine ⟨fun e he => ?_, List.pairwise_cons.2 ⟨fun e he => ?_, hapart⟩, ?_⟩
    · rcases List.mem_cons.1 he with rfl | he
      · simp only [Extent.stop]
        omega
      · have := hin e he
        omega
    · have := hin e he
      rw [apart_iff]
      intro a ha
      simp only [Extent.stop] at *
      omega
    · rw [pack, addresses_cons, hcovers]
      ext a
      simp only [Finset.mem_union, Extent.mem_addresses, mem_interval, Extent.stop]
      omega

/-- Packed from the start, extents fill the sum of their sizes. -/
theorem fills_pack {sizes : List ℤ} (h : ∀ n ∈ sizes, 0 ≤ n) :
    Fills sizes.sum (pack 0 sizes) := by
  obtain ⟨hin, hapart, hcovers⟩ := pack_spec 0 sizes h
  rw [Int.zero_add] at hcovers
  exact ⟨⟨fun e he => by simpa using hin e he, hapart⟩, hcovers⟩

/-- Extents that fill a range without two of them touching are one extent, empty ones apart.

**Proof sketch.** The extent with address `0` starts there. If it ended inside the range, the
extent with the address behind it would start there, since it cannot start inside the first. -/
theorem Fills.exists_whole {l : List Extent} (h : Fills total l)
    (htouch : l.Pairwise fun e f => ¬ e.Touches f) (h₀ : 0 < total) :
    ⟨0, total⟩ ∈ l := by
  have hcover : ∀ a, 0 ≤ a → a < total → ∃ e ∈ l, e.base ≤ a ∧ a < e.stop := fun a ha₀ ha =>
    mem_addresses.1 (h.covers ▸ mem_interval.2 ⟨ha₀, ha⟩)
  obtain ⟨e, he, hbase, hstop⟩ := hcover 0 le_rfl h₀
  have hein := h.inside e he
  have hbase : e.base = 0 := by omega
  by_cases hend : e.stop = total
  · have : e = ⟨0, total⟩ := by
      cases e
      simp only [Extent.stop] at *
      subst hbase
      simpa using hend
    exact this ▸ he
  · exfalso
    obtain ⟨f, hf, hfbase, hfstop⟩ := hcover e.stop (by omega) (by omega)
    have hfin := h.inside f hf
    have hne : e ≠ f := by
      rintro rfl
      omega
    have hapart : Apart e f := h.apart.forall he hf hne
    have hnot : ¬ e.Touches f := htouch.forall he hf hne
    rcases eq_or_lt_of_le hfbase with heq | hlt
    · exact hnot (Or.inl heq.symm)
    · exact apart_iff.1 hapart f.base ⟨by omega, by omega⟩

end OsSimulator
