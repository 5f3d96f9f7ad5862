-- Association lists used as hash tables: an entry is put in, changed in
-- place, or all entries are changed, and the keys are counted.
import Mathlib.Algebra.GroupWithZero.Nat
import Mathlib.Data.List.AList
import Mathlib.Data.Finset.Card
import Mathlib.Algebra.BigOperators.Group.Finset.Basic

namespace AList

variable {κ α : Type*}

/-- Change every entry. -/
def mapValues (f : α → α) (t : AList fun _ : κ => α) : AList fun _ : κ => α :=
  ⟨t.entries.map fun e => ⟨e.1, f e.2⟩, by
    have h := t.nodupKeys
    unfold List.NodupKeys List.keys at h ⊢
    simpa [List.map_map, Function.comp_def] using h⟩

/-- The entries, in some order. -/
def values (t : AList fun _ : κ => α) : List α := t.entries.map (·.2)

def keySet (t : AList fun _ : κ => α) : Finset κ := ⟨t.keys, t.keys_nodup⟩

def size (t : AList fun _ : κ => α) : Nat := t.keys.length

@[simp] theorem mem_keySet {t : AList fun _ : κ => α} {k : κ} : k ∈ t.keySet ↔ k ∈ t := Iff.rfl

@[simp] theorem keySet_empty : (∅ : AList fun _ : κ => α).keySet = ∅ := rfl

theorem card_keySet {t : AList fun _ : κ => α} : t.keySet.card = t.size := rfl

variable [DecidableEq κ]

/-- Change the entry of a key, if there is one. -/
def modify (k : κ) (f : α → α) (t : AList fun _ : κ => α) : AList fun _ : κ => α :=
  match t.lookup k with
  | some v => t.insert k (f v)
  | none => t

variable {t : AList fun _ : κ => α} {k j : κ} {v : α} {f : α → α}

theorem lookup_insert_if : (t.insert k v).lookup j = if j = k then some v else t.lookup j := by
  split
  · rename_i h
    rw [h, lookup_insert]
  · rename_i h
    exact lookup_insert_ne h

theorem lookup_modify : (t.modify k f).lookup j = if j = k then (t.lookup k).map f else t.lookup j := by
  unfold modify
  split
  · rename_i v hk
    rw [lookup_insert_if, hk]
    rfl
  · rename_i hk
    split
    · rename_i h
      rw [h, hk]
      rfl
    · rfl

theorem lookup_mapValues : (t.mapValues f).lookup j = (t.lookup j).map f := by
  have hlist : ∀ l : List (Sigma fun _ : κ => α),
      List.dlookup j (l.map fun e => (⟨e.1, f e.2⟩ : Sigma fun _ : κ => α)) =
        (List.dlookup j l).map f := by
    intro l
    induction l with
    | nil => rfl
    | cons e l ih =>
      obtain ⟨k, v⟩ := e
      by_cases h : j = k
      · subst h
        simp
      · rw [List.map_cons, List.dlookup_cons_ne _ _ h, List.dlookup_cons_ne _ _ h, ih]
  exact hlist t.entries

theorem mem_iff_lookup : k ∈ t ↔ ∃ v, t.lookup k = some v := by
  rw [← lookup_isSome, Option.isSome_iff_exists]

@[simp] theorem keySet_insert : (t.insert k v).keySet = Insert.insert k t.keySet := by
  ext j
  simp

@[simp] theorem mem_modify : j ∈ t.modify k f ↔ j ∈ t := by
  rw [mem_iff_lookup, mem_iff_lookup, lookup_modify]
  by_cases h : j = k
  · subst h
    cases t.lookup j <;> simp
  · simp [h]

@[simp] theorem keySet_modify : (t.modify k f).keySet = t.keySet := by
  ext j
  simp

@[simp] theorem mem_mapValues : j ∈ t.mapValues f ↔ j ∈ t := by
  rw [mem_iff_lookup, mem_iff_lookup, lookup_mapValues]
  cases t.lookup j <;> simp

@[simp] theorem keySet_mapValues : (t.mapValues f).keySet = t.keySet := by
  ext j
  simp

theorem mem_values : v ∈ t.values ↔ ∃ k, t.lookup k = some v := by
  unfold values
  rw [List.mem_map]
  constructor
  · rintro ⟨⟨k, w⟩, he, rfl⟩
    exact ⟨k, mem_lookup_iff.mpr he⟩
  · rintro ⟨k, hk⟩
    exact ⟨⟨k, v⟩, mem_lookup_iff.mp hk, rfl⟩

theorem entries_eq_nil : t.entries = [] ↔ ∀ k, t.lookup k = none := by
  constructor
  · intro h k
    unfold lookup
    rw [h]
    rfl
  · intro h
    by_contra hne
    obtain ⟨⟨k, v⟩, he⟩ := List.exists_mem_of_ne_nil _ hne
    have hk : t.lookup k = some v := mem_lookup_iff.mpr he
    rw [h k] at hk
    cases hk

/-- A sum over the entries is a sum over the keys. -/
theorem sum_values {M : Type*} [AddCommMonoid M] (t : AList fun _ : κ => α) (g : α → M) :
    (t.values.map g).sum = ∑ k ∈ t.keySet, ((t.lookup k).map g).getD 0 := by
  have hkeys : ∑ k ∈ t.keySet, ((t.lookup k).map g).getD 0 =
      (t.keys.map fun k => ((t.lookup k).map g).getD 0).sum := rfl
  rw [hkeys]
  unfold values keys List.keys
  rw [List.map_map, List.map_map]
  congr 1
  refine List.map_congr_left fun e he => ?_
  have hlook : t.lookup e.1 = some e.2 := mem_lookup_iff.mpr he
  simp [hlook]

/-- The sum over more keys is the same. -/
theorem sum_values_of_subset {M : Type*} [AddCommMonoid M] (ks : Finset κ) (h : t.keySet ⊆ ks)
    (g : α → M) :
    (t.values.map g).sum = ∑ k ∈ ks, ((t.lookup k).map g).getD 0 := by
  rw [sum_values]
  refine Finset.sum_subset h fun k _ hk => ?_
  rw [lookup_eq_none.mpr hk]
  rfl

/-- A new value at a key takes the place of the old one in the sum. -/
theorem sum_values_insert {M : Type*} [AddCommMonoid M] (t : AList fun _ : κ => α) (k : κ)
    (v : α) (g : α → M) :
    ((t.insert k v).values.map g).sum + ((t.lookup k).map g).getD 0 =
      (t.values.map g).sum + g v := by
  have hself : ((t.insert k v).lookup k).map g = some (g v) := by simp
  rw [sum_values, sum_values_of_subset (Insert.insert k t.keySet) (by simp), keySet_insert,
    ← Finset.add_sum_erase _ _ (Finset.mem_insert_self k t.keySet),
    ← Finset.add_sum_erase _ _ (Finset.mem_insert_self k t.keySet), hself, Option.getD_some]
  have hrest : ∑ j ∈ (Insert.insert k t.keySet).erase k, (((t.insert k v).lookup j).map g).getD 0 =
      ∑ j ∈ (Insert.insert k t.keySet).erase k, ((t.lookup j).map g).getD 0 := by
    refine Finset.sum_congr rfl fun j hj => ?_
    rw [lookup_insert_ne (Finset.ne_of_mem_erase hj)]
  rw [hrest]
  ac_rfl

/-- Entries are counted by their keys. -/
theorem countP_entries (t : AList fun _ : κ => α) (p : κ → α → Bool) :
    t.entries.countP (fun e => p e.1 e.2) =
      (t.keySet.filter fun k => ∃ v, t.lookup k = some v ∧ p k v = true).card := by
  have hkeys : (t.keySet.filter fun k => ∃ v, t.lookup k = some v ∧ p k v = true).card =
      t.keys.countP fun k => decide (∃ v, t.lookup k = some v ∧ p k v = true) := by
    rw [List.countP_eq_length_filter]
    rfl
  rw [hkeys]
  unfold keys List.keys
  rw [List.countP_map]
  refine List.countP_congr fun e he => ?_
  have hlook : t.lookup e.1 = some e.2 := mem_lookup_iff.mpr he
  simp [hlook]

/-! ## Tallies -/

/-- Add to the number of a key. -/
def addTo (t : AList fun _ : κ => Nat) (k : κ) (n : Nat) : AList fun _ : κ => Nat :=
  t.insert k ((t.lookup k).getD 0 + n)

/-- What was added to the number of a key, one thing after the other. -/
theorem foldl_addTo {β : Type*} (key : β → κ) (amount : β → Nat) (l : List β)
    (t : AList fun _ : κ => Nat) :
    ((l.foldl (fun t b => t.addTo (key b) (amount b)) t).lookup k).getD 0 =
      (t.lookup k).getD 0 + ((l.filter fun b => key b = k).map amount).sum := by
  induction l generalizing t with
  | nil => rfl
  | cons b l ih =>
    rw [List.foldl_cons, ih]
    unfold addTo
    rw [lookup_insert_if, List.filter_cons]
    by_cases hk : k = key b
    · subst hk
      rw [if_pos rfl, if_pos (decide_eq_true rfl), List.map_cons, List.sum_cons, Option.getD_some]
      omega
    · rw [if_neg hk, if_neg (by simpa using Ne.symm hk)]

/-- The number of a key is all that the entries say of it. -/
theorem sum_entries_of_key (t : AList fun _ : κ => Nat) (k : κ) :
    ((t.entries.filter fun e => e.1 = k).map (·.2)).sum = (t.lookup k).getD 0 := by
  have hlist : ∀ l : List (Sigma fun _ : κ => Nat), l.NodupKeys →
      ((l.filter fun e => e.1 = k).map (·.2)).sum = (l.dlookup k).getD 0 := by
    intro l
    induction l with
    | nil => exact fun _ => rfl
    | cons e l ih =>
      intro hnodup
      obtain ⟨hnew, hrest⟩ := List.nodupKeys_cons.mp hnodup
      by_cases hk : k = e.1
      · subst hk
        have hnone : l.filter (fun e' => e'.1 = e.1) = [] := by
          rw [List.filter_eq_nil_iff]
          intro e' he' heq
          exact hnew (of_decide_eq_true heq ▸ List.mem_keys_of_mem he')
        rw [List.filter_cons, if_pos (decide_eq_true rfl), hnone, List.dlookup_cons_eq]
        rfl
      · rw [List.filter_cons_of_neg (by simpa using Ne.symm hk), List.dlookup_cons_ne _ _ hk, ih hrest]
  exact hlist t.entries t.nodupKeys

/-! ## Tables added together -/

/-- Add the entries of another table, each to the entry of its key. -/
def plus [AddZeroClass α] (t other : AList fun _ : κ => α) : AList fun _ : κ => α :=
  other.entries.foldl (fun t e => t.insert e.1 ((t.lookup e.1).getD 0 + e.2)) t

theorem lookup_plus [AddZeroClass α] (t other : AList fun _ : κ => α) (k : κ) :
    (t.plus other).lookup k = Option.merge (· + ·) (t.lookup k) (other.lookup k) := by
  have hlist : ∀ (l : List (Sigma fun _ : κ => α)) (t : AList fun _ : κ => α), l.NodupKeys →
      (l.foldl (fun t e => t.insert e.1 ((t.lookup e.1).getD 0 + e.2)) t).lookup k =
        Option.merge (· + ·) (t.lookup k) (l.dlookup k) := by
    intro l
    induction l with
    | nil =>
      intro t _
      rw [List.foldl_nil, List.dlookup_nil, Option.merge_none_right]
    | cons e l ih =>
      intro t hnodup
      obtain ⟨hnew, hrest⟩ := List.nodupKeys_cons.mp hnodup
      rw [List.foldl_cons, ih _ hrest, lookup_insert_if]
      by_cases hk : k = e.1
      · subst hk
        rw [if_pos rfl, List.dlookup_eq_none.mpr hnew, List.dlookup_cons_eq]
        cases t.lookup e.1 with
        | none => exact congrArg some (zero_add _)
        | some v => rfl
      · rw [if_neg hk, List.dlookup_cons_ne _ _ hk]
  exact hlist other.entries t other.nodupKeys

theorem getD_plus [AddZeroClass α] (t other : AList fun _ : κ => α) (k : κ) :
    ((t.plus other).lookup k).getD 0 = (t.lookup k).getD 0 + (other.lookup k).getD 0 := by
  rw [lookup_plus]
  cases t.lookup k with
  | none =>
    rw [Option.merge_none_left]
    exact (zero_add _).symm
  | some v => cases other.lookup k with
    | none => exact (add_zero _).symm
    | some w => rfl

theorem lookup_foldl_plus [AddZeroClass α] {t t' : AList fun _ : κ => α}
    (h : ∀ k, t.lookup k = t'.lookup k) (l : List (AList fun _ : κ => α)) (k : κ) :
    (l.foldl plus t).lookup k = (l.foldl plus t').lookup k := by
  induction l generalizing t t' with
  | nil => exact h k
  | cons other l ih =>
    refine ih fun j => ?_
    rw [lookup_plus, lookup_plus, h]

section

variable {M : Type*} [AddCancelCommMonoid M] [AddZeroClass α] {g : α → M}

/-- More at one key is that much more in the sum. -/
theorem sum_values_add (hg : ∀ a b, g (a + b) = g a + g b) (t : AList fun _ : κ => α) (k : κ)
    (v : α) : ((t.insert k ((t.lookup k).getD 0 + v)).values.map g).sum =
      (t.values.map g).sum + g v := by
  have hsum := sum_values_insert t k ((t.lookup k).getD 0 + v) g
  have hold : ((t.lookup k).map g).getD 0 = g ((t.lookup k).getD 0) := by
    cases t.lookup k with
    | some w => rfl
    | none =>
      have hzero := hg 0 0
      rw [add_zero] at hzero
      exact (left_eq_add.mp hzero).symm
  rw [hold, hg, ← add_assoc, add_right_comm] at hsum
  exact add_right_cancel hsum

theorem sum_values_plus (hg : ∀ a b, g (a + b) = g a + g b) (t other : AList fun _ : κ => α) :
    ((t.plus other).values.map g).sum = (t.values.map g).sum + (other.values.map g).sum := by
  have hlist : ∀ (l : List (Sigma fun _ : κ => α)) (t : AList fun _ : κ => α),
      ((l.foldl (fun t e => t.insert e.1 ((t.lookup e.1).getD 0 + e.2)) t).values.map g).sum =
        (t.values.map g).sum + (l.map fun e => g e.2).sum := by
    intro l
    induction l with
    | nil =>
      intro t
      rw [List.foldl_nil, List.map_nil, List.sum_nil, add_zero]
    | cons e l ih =>
      intro t
      rw [List.foldl_cons, ih, sum_values_add hg, List.map_cons, List.sum_cons, add_assoc]
  have hall := hlist other.entries t
  unfold plus
  rw [hall]
  congr 2
  unfold values
  rw [List.map_map]
  rfl

end

end AList
