-- Histograms: counts of 64 bits in slots, added slot by slot, and the value that
-- a part of what was recorded stays under.
import Mathlib.Algebra.BigOperators.Group.Finset.Basic
import Mathlib.Algebra.BigOperators.Pi
import Mathlib.Algebra.Group.Pi.Basic
import Mathlib.Algebra.Order.BigOperators.Group.Finset

namespace histograms

/-- What is added at each step is added by all of them. -/
theorem foldl_additive {α M : Type*} [AddCommMonoid M] {φ : α → M} {op : α → α → α}
    (h : ∀ a b, φ (op a b) = φ a + φ b) (l : List α) (a : α) :
    φ (l.foldl op a) = φ a + (l.map φ).sum := by
  induction l generalizing a with
  | nil => exact (add_zero _).symm
  | cons b l ih => rw [List.foldl_cons, ih, h, List.map_cons, List.sum_cons, add_assoc]

/-! ## Counts -/

/-- A count of 64 bits that stays at its greatest value. -/
structure Count where
  val : Nat
  fits : val < 2 ^ 64
deriving DecidableEq

namespace Count

theorem ext {a b : Count} (h : a.val = b.val) : a = b := by
  cases a
  cases b
  cases h
  rfl

instance : Zero Count := ⟨⟨0, by decide⟩⟩

instance : One Count := ⟨⟨1, by decide⟩⟩

instance : Add Count := ⟨fun a b => ⟨min (a.val + b.val) (2 ^ 64 - 1), by omega⟩⟩

@[simp] theorem val_zero : (0 : Count).val = 0 := rfl

@[simp] theorem val_one : (1 : Count).val = 1 := rfl

theorem val_add (a b : Count) : (a + b).val = min (a.val + b.val) (2 ^ 64 - 1) := rfl

instance : AddCommMonoid Count where
  add_assoc a b c := ext (by simp only [val_add]; omega)
  add_comm a b := ext (by simp only [val_add]; omega)
  zero_add a := ext (by have := a.fits; simp only [val_add, val_zero]; omega)
  add_zero a := ext (by have := a.fits; simp only [val_add, val_zero]; omega)
  nsmul := nsmulRec

theorem eq_zero_iff {a : Count} : a = 0 ↔ a.val = 0 :=
  ⟨fun h => h ▸ rfl, fun h => ext h⟩

/-- Nothing is taken away. -/
theorem add_eq_zero {a b : Count} : a + b = 0 ↔ a = 0 ∧ b = 0 := by
  rw [eq_zero_iff, eq_zero_iff, eq_zero_iff, val_add]
  omega

theorem sum_eq_zero {l : List Count} : l.sum = 0 ↔ ∀ a ∈ l, a = 0 := by
  induction l with
  | nil => simp
  | cons a l ih => rw [List.sum_cons, add_eq_zero, ih, List.forall_mem_cons]

end Count

/-! ## Histograms -/

/-- The counts of `n` slots. -/
abbrev Histogram (n : Nat) := Fin n → Count

namespace Histogram

variable {m n : Nat}

/-- What is counted in a slot, if there is one. -/
def at_slot (h : Histogram n) (k : Nat) : Nat := if hk : k < n then (h ⟨k, hk⟩).val else 0

def total_count (h : Histogram n) : Nat :=
  min (∑ k ∈ Finset.range n, h.at_slot k) (2 ^ 64 - 1)

def is_empty (h : Histogram n) : Bool := h.total_count = 0

/-- What is counted up to a slot. -/
def up_to (h : Histogram n) (k : Nat) : Nat := ∑ j ∈ Finset.range (k + 1), h.at_slot j

/-- The greatest value of the first slot up to which as many are counted as the rank
of the quantile says. -/
def value_at_quantile (highest rank : Nat → Nat) (h : Histogram n) : Nat :=
  let count_at_quantile := max 1 (rank h.total_count)
  match (List.range n).find? fun k => count_at_quantile ≤ h.up_to k with
  | some k => highest k
  | none => 0

/-- The same counts in other slots. -/
def resize (n : Nat) (other : Histogram m) : Histogram n :=
  fun i => if h : i < m then other ⟨i, h⟩ else 0

/-- Add the counts, if there is a slot for each. -/
def add (h : Histogram n) (other : Histogram m) : Option (Histogram n) :=
  if ∀ j : Fin m, other j ≠ 0 → j < n then some fun i => h i + resize n other i else none

/-- There is a slot for each count. -/
def Fits (n : Nat) (other : Histogram m) : Prop := ∀ j : Fin m, other j ≠ 0 → j < n

variable {h other : Histogram m}

theorem add_fits {into : Histogram n} (hfits : Fits n other) :
    into.add other = some (into + resize n other) := if_pos hfits

theorem add_of_not_fits {into : Histogram n} (hfits : ¬ Fits n other) : into.add other = none :=
  if_neg hfits

theorem fits_self : Fits m h := fun j _ => j.isLt

theorem resize_self : resize m h = h := by
  funext i
  exact dif_pos i.isLt

theorem add_self_range {into : Histogram m} : into.add other = some (into + other) := by
  rw [add_fits fits_self, resize_self]

theorem resize_zero : resize n (0 : Histogram m) = 0 := by
  funext i
  unfold resize
  split <;> rfl

theorem resize_add : resize n (h + other) = resize n h + resize n other := by
  funext i
  show resize n (h + other) i = resize n h i + resize n other i
  unfold resize
  split
  · rfl
  · exact (add_zero _).symm

theorem sum_apply (l : List (Histogram m)) (i : Fin m) : l.sum i = (l.map (· i)).sum := by
  induction l with
  | nil => rfl
  | cons h l ih =>
    rw [List.sum_cons, List.map_cons, List.sum_cons, ← ih]
    rfl

theorem fits_sum {l : List (Histogram m)} : Fits n l.sum ↔ ∀ h ∈ l, Fits n h := by
  unfold Fits
  simp only [sum_apply, ne_eq, Count.sum_eq_zero, List.forall_mem_map, not_forall]
  constructor
  · intro hall h hh j hj
    exact hall j ⟨h, hh, hj⟩
  · rintro hall j ⟨h, hh, hj⟩
    exact hall h hh j hj

theorem fits_add : Fits n (h + other) ↔ Fits n h ∧ Fits n other := by
  have hsum := fits_sum (n := n) (l := [h, other])
  rwa [List.sum_cons, List.sum_singleton, List.forall_mem_cons, List.forall_mem_singleton] at hsum

theorem at_slot_resize (hfits : Fits n h) (k : Nat) : (resize n h).at_slot k = h.at_slot k := by
  unfold at_slot resize
  by_cases hm : k < m
  · by_cases hn : k < n
    · rw [dif_pos hn, dif_pos hm, dif_pos hm]
    · rw [dif_neg hn, dif_pos hm]
      by_contra hne
      exact hn (hfits ⟨k, hm⟩ fun hz => hne (Count.eq_zero_iff.mp hz).symm)
  · rw [dif_neg hm]
    split <;> first | exact dif_neg hm ▸ rfl | rfl

theorem is_empty_iff : h.is_empty = true ↔ h = 0 := by
  unfold is_empty total_count
  rw [decide_eq_true_iff]
  have hzero : min (∑ k ∈ Finset.range m, h.at_slot k) (2 ^ 64 - 1) = 0 ↔
      ∑ k ∈ Finset.range m, h.at_slot k = 0 := by omega
  rw [hzero, Finset.sum_eq_zero_iff]
  constructor
  · intro hall
    funext i
    have hi := hall i (Finset.mem_range.mpr i.isLt)
    unfold at_slot at hi
    rw [dif_pos i.isLt] at hi
    exact Count.eq_zero_iff.mpr hi
  · rintro rfl k _
    unfold at_slot
    split <;> rfl

/-- Beyond the slots nothing is counted any more. -/
theorem up_to_beyond {k : Nat} (hk : m ≤ k + 1) :
    h.up_to k = ∑ j ∈ Finset.range m, h.at_slot j := by
  unfold up_to
  refine (Finset.sum_subset (Finset.range_mono hk) fun j _ hj => ?_).symm
  exact dif_neg (by simpa using hj)

theorem quantile_zero (highest rank : Nat → Nat) :
    value_at_quantile highest rank (0 : Histogram m) = 0 := by
  have hnone : (0 : Histogram m).up_to = fun _ => 0 := by
    funext k
    refine Finset.sum_eq_zero fun j _ => ?_
    unfold at_slot
    split <;> rfl
  unfold value_at_quantile
  rw [hnone]
  dsimp only
  rw [List.find?_eq_none.mpr fun k _ => by simp]

/-- A quantile does not depend on how many slots there are. -/
theorem quantile_resize (highest rank : Nat → Nat) (hfits : Fits n h) (hle : n ≤ m) :
    value_at_quantile highest rank (resize n h) = value_at_quantile highest rank h := by
  have hat : (resize n h).at_slot = h.at_slot := funext (at_slot_resize hfits)
  have hup : (resize n h).up_to = h.up_to := by
    unfold up_to
    rw [hat]
  have hbeyond : ∀ j ∈ Finset.range m, j ∉ Finset.range n → h.at_slot j = 0 := by
    intro j _ hj
    rw [← at_slot_resize hfits]
    exact dif_neg (by simpa using hj)
  have hsum : ∑ j ∈ Finset.range n, h.at_slot j = ∑ j ∈ Finset.range m, h.at_slot j :=
    Finset.sum_subset (Finset.range_mono hle) hbeyond
  have htotal : (resize n h).total_count = h.total_count := by
    unfold total_count
    rw [hat, hsum]
  unfold value_at_quantile
  rw [hup, htotal]
  dsimp only
  obtain ⟨d, rfl⟩ := Nat.exists_eq_add_of_le hle
  rw [List.range_add, List.find?_append]
  cases hfind : (List.range n).find? fun k => max 1 (rank h.total_count) ≤ h.up_to k with
  | some k => rfl
  | none =>
    -- no slot was enough, and those that follow add nothing
    have hrest : ((List.range d).map (n + ·)).find?
        (fun k => max 1 (rank h.total_count) ≤ h.up_to k) = none := by
      rw [List.find?_eq_none] at hfind ⊢
      intro k hk
      obtain ⟨j, _, rfl⟩ := List.mem_map.mp hk
      have hsame : h.up_to (n + j) = ∑ i ∈ Finset.range n, h.at_slot i := by
        rw [← hup, up_to_beyond (by omega), hat]
      rw [hsame]
      cases n with
      | zero => simp
      | succ n => exact hfind n (List.mem_range.mpr (Nat.lt_succ_self n))
    rw [hrest]
    rfl

/-- A count in one slot alone. -/
def single (i : Fin m) (c : Count) : Histogram m := Pi.single i c

/-- What was recorded in one slot alone is the value of every quantile. -/
theorem quantile_single (highest rank : Nat → Nat) {i : Fin m} {c : Count} (hc : 0 < c.val)
    (hrank : rank c.val ≤ c.val) :
    value_at_quantile highest rank (single i c) = highest i := by
  have hat : ∀ j, (single i c).at_slot j = if j = i then c.val else 0 := by
    intro j
    unfold at_slot single
    by_cases hj : j < m
    · rw [dif_pos hj, Pi.single_apply]
      by_cases hi : (⟨j, hj⟩ : Fin m) = i
      · rw [if_pos hi, if_pos (congrArg Fin.val hi)]
      · rw [if_neg hi, if_neg fun h => hi (Fin.ext h)]
        rfl
    · rw [dif_neg hj, if_neg (by have := i.isLt; omega)]
  have hup : ∀ k, (single i c).up_to k = if i ≤ k then c.val else 0 := by
    intro k
    unfold up_to
    rw [Finset.sum_congr rfl fun j _ => hat j, Finset.sum_ite_eq']
    simp [Nat.lt_succ_iff]
  have htotal : (single i c).total_count = c.val := by
    have := c.fits
    unfold total_count
    rw [Finset.sum_congr rfl fun j _ => hat j, Finset.sum_ite_eq',
      if_pos (Finset.mem_range.mpr i.isLt)]
    omega
  have hfind : (List.range m).find? (fun k => max 1 (rank c.val) ≤
      (single i c).up_to k) = some i.val := by
    rw [List.find?_range_eq_some]
    refine ⟨?_, List.mem_range.mpr i.isLt, fun j hj => ?_⟩
    · rw [hup, if_pos (Nat.le_refl _), decide_eq_true_iff]
      omega
    · rw [hup, if_neg (by omega)]
      simp
  unfold value_at_quantile
  rw [htotal]
  dsimp only
  rw [hfind]

end Histogram

end histograms
