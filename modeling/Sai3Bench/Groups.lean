-- A list in groups: each element goes to the list of its key in a table.
import Mathlib.Data.List.AList
import Mathlib.Data.List.Flatten
import Mathlib.Data.List.Nodup

namespace groups

variable {α κ : Type*} [DecidableEq κ]

/-- The element goes to the end of the list of the key. -/
def push (t : AList fun _ : κ => List α) (k : κ) (x : α) : AList fun _ : κ => List α :=
  t.insert k ((t.lookup k).getD [] ++ [x])

/-- The list of a key, if it has one. -/
def part (t : AList fun _ : κ => List α) (k : κ) : List α := (t.lookup k).getD []

variable {key : α → κ} {l : List α} {k : κ} {x : α}

theorem part_push (t : AList fun _ : κ => List α) (j : κ) :
    part (push t j x) k = if j = k then part t k ++ [x] else part t k := by
  unfold part push
  split
  · rename_i heq
    rw [heq, AList.lookup_insert]
    rfl
  · rename_i hne
    rw [AList.lookup_insert_ne fun h => hne h.symm]

/-- The list of a key has the values of the elements with that key, in their order. -/
theorem part_foldl {β : Type*} (value : β → α) {key : β → κ} (l : List β)
    (t : AList fun _ : κ => List α) :
    part (l.foldl (fun t x => push t (key x) (value x)) t) k =
      part t k ++ (l.filter (key · = k)).map value := by
  induction l generalizing t with
  | nil => rw [List.foldl_nil, List.filter_nil, List.map_nil, List.append_nil]
  | cons x l ih =>
    rw [List.foldl_cons, ih, part_push, List.filter_cons]
    by_cases hkey : key x = k
    · simp [hkey]
    · simp [hkey]

/-- The groups together are the list. -/
theorem parts_perm {keys : List κ} (hkeys : keys.Nodup) (h : ∀ x ∈ l, key x ∈ keys) :
    (keys.flatMap fun k => l.filter (key · = k)).Perm l := by
  induction l with
  | nil => simp
  | cons x l ih =>
    rw [List.forall_mem_cons] at h
    obtain ⟨before, after, rfl⟩ := List.append_of_mem h.1
    have hnew : ∀ k, k ∈ before ∨ k ∈ after → (x :: l).filter (key · = k) =
        l.filter (key · = k) := by
      intro k hk
      refine List.filter_cons_of_neg ?_
      rw [decide_eq_true_eq]
      rintro rfl
      have hmiddle := List.nodup_middle.mp hkeys
      rw [List.nodup_cons, List.mem_append] at hmiddle
      exact hmiddle.1 hk
    have hown : (x :: l).filter (key · = key x) = x :: l.filter (key · = key x) :=
      List.filter_cons_of_pos (decide_eq_true rfl)
    have hrest := ih h.2
    rw [List.flatMap_append, List.flatMap_cons] at hrest ⊢
    rw [List.flatMap_congr fun k hk => hnew k (.inl hk),
      List.flatMap_congr fun k hk => hnew k (.inr hk), hown, List.cons_append]
    exact List.perm_middle.trans (hrest.cons x)

end groups
