-- Sorting by a key: lists that are merged through a heap, and a list that is
-- sorted through a window of bounded length.
import Mathlib.Data.List.Basic
import Mathlib.Data.List.Flatten
import Mathlib.Data.List.Nodup
import Mathlib.Data.List.Pairwise
import Mathlib.Data.List.Perm.Subperm
import Mathlib.Order.Lattice

namespace merges

variable {α κ : Type*} [LinearOrder κ] {key : α → κ}

/-- In the order of the keys. -/
def Sorted (key : α → κ) (l : List α) : Prop := l.Pairwise fun x y => key x ≤ key y

instance (l : List α) : Decidable (Sorted key l) :=
  inferInstanceAs (Decidable (l.Pairwise fun x y => key x ≤ key y))

theorem sorted_cons {x : α} {l : List α} :
    Sorted key (x :: l) ↔ (∀ y ∈ l, key x ≤ key y) ∧ Sorted key l := List.pairwise_cons

theorem Sorted.sublist {l m : List α} (hm : Sorted key m) (h : l.Sublist m) : Sorted key l :=
  List.Pairwise.sublist h hm

/-! ## Flattened lists -/

/-- A flattened list that has as many elements as one with more in each place. -/
theorem flatMap_perm_iff {ι : Type*} {js : List ι} {f g : ι → List α}
    (h : ∀ j ∈ js, (f j).Sublist (g j)) :
    (js.flatMap f).Perm (js.flatMap g) ↔ ∀ j ∈ js, f j = g j := by
  constructor
  · intro hperm
    have hle : ∀ js : List ι, (∀ j ∈ js, (f j).Sublist (g j)) →
        (js.flatMap f).length ≤ (js.flatMap g).length := by
      intro js h
      induction js with
      | nil => exact Nat.le_refl _
      | cons j js ih =>
        rw [List.forall_mem_cons] at h
        simp only [List.flatMap_cons, List.length_append]
        exact Nat.add_le_add h.1.length_le (ih h.2)
    have hlength := hperm.length_eq
    clear hperm
    induction js with
    | nil => nofun
    | cons j js ih =>
      rw [List.forall_mem_cons] at h
      have hfirst := h.1.length_le
      have hrest := hle js h.2
      simp only [List.flatMap_cons, List.length_append] at hlength
      exact List.forall_mem_cons.mpr
        ⟨h.1.eq_of_length (by omega), ih h.2 (by omega)⟩
  · intro heq
    rw [List.flatMap_congr heq]

/-- Different places of a row, in any order. -/
theorem flatMap_places {places : List Nat} {g : Nat → List α} {n : Nat}
    (hnodup : places.Nodup) (hnone : ∀ j, n ≤ j → g j = []) :
    (places.flatMap g).Perm ((List.range n).flatMap fun j => if j ∈ places then g j else []) := by
  have hfilter : ∀ (js : List Nat) (p : Nat → Bool),
      (js.filter p).flatMap g = js.flatMap fun j => if p j then g j else [] := by
    intro js p
    induction js with
    | nil => rfl
    | cons j js ih =>
      rw [List.filter_cons, List.flatMap_cons, ← ih]
      split <;> rfl
  have hplaces : places.flatMap g = (places.filter (· < n)).flatMap g := by
    rw [hfilter]
    refine List.flatMap_congr fun j _ => ?_
    split
    · rfl
    · rename_i hj
      exact hnone j (by simpa using hj)
  have hrange : (List.range n).flatMap (fun j => if j ∈ places then g j else []) =
      ((List.range n).filter (· ∈ places)).flatMap g := by
    rw [hfilter]
    simp only [decide_eq_true_eq]
  rw [hplaces, hrange]
  apply List.Perm.flatMap_right
  rw [List.perm_ext_iff_of_nodup (hnodup.filter _) (List.nodup_range.filter _)]
  intro j
  simp only [List.mem_filter, List.mem_range, decide_eq_true_eq]
  exact and_comm

/-! ## Heaps -/

/-- A heap that gives its least element first. Which one of several it is is left open. -/
structure MinHeap (key : α → κ) where
  pop : List α → Option (α × List α)
  none_iff : ∀ {heap}, pop heap = none ↔ heap = []
  perm : ∀ {heap x rest}, pop heap = some (x, rest) → heap.Perm (x :: rest)
  least : ∀ {heap x rest}, pop heap = some (x, rest) → ∀ y ∈ rest, key x ≤ key y

/-- The least element, the first one of several. -/
def popLeast (key : α → κ) : List α → Option (α × List α)
  | [] => none
  | x :: xs => match popLeast key xs with
    | none => some (x, [])
    | some (y, ys) => if key x ≤ key y then some (x, y :: ys) else some (y, x :: ys)

theorem popLeast_eq_none {heap : List α} : popLeast key heap = none ↔ heap = [] := by
  cases heap with
  | nil => simp [popLeast]
  | cons x xs =>
    unfold popLeast
    split
    · simp
    · split <;> simp

theorem popLeast_spec {heap rest : List α} {x : α} (h : popLeast key heap = some (x, rest)) :
    heap.Perm (x :: rest) ∧ ∀ y ∈ rest, key x ≤ key y := by
  induction heap generalizing x rest with
  | nil => cases h
  | cons z zs ih =>
    unfold popLeast at h
    split at h
    · rename_i hnone
      cases h
      rw [popLeast_eq_none.mp hnone]
      exact ⟨.refl _, nofun⟩
    · rename_i y ys hy
      obtain ⟨hperm, hleast⟩ := ih hy
      split at h
      · rename_i hle
        cases h
        refine ⟨hperm.cons _, ?_⟩
        intro w hw
        rcases List.mem_cons.mp hw with rfl | hw
        · exact hle
        · exact hle.trans (hleast w hw)
      · rename_i hlt
        cases h
        refine ⟨(hperm.cons _).trans (.swap ..), ?_⟩
        intro w hw
        rcases List.mem_cons.mp hw with rfl | hw
        · exact (not_le.mp hlt).le
        · exact hleast w hw

def MinHeap.first (key : α → κ) : MinHeap key where
  pop := popLeast key
  none_iff := popLeast_eq_none
  perm h := (popLeast_spec h).1
  least h := (popLeast_spec h).2

/-! ## Merging -/

/-- Lists are merged: the first element that is taken from any of them is not
after the first one of another. -/
inductive Merge (key : α → κ) : List (List α) → List α → Prop
  | done {ls : List (List α)} (hnil : ∀ l ∈ ls, l = []) : Merge key ls []
  | take {ls rest : List (List α)} {x : α} {l out : List α} (hperm : ls.Perm ((x :: l) :: rest))
      (hleast : ∀ m ∈ rest, ∀ y ∈ m.head?, key x ≤ key y) (h : Merge key (l :: rest) out) :
      Merge key ls (x :: out)

variable {ls ms : List (List α)} {out : List α}

theorem Merge.of_perm (h : Merge key ls out) (hperm : ls.Perm ms) : Merge key ms out := by
  cases h with
  | done hnil => exact .done fun l hl => hnil l (hperm.mem_iff.mpr hl)
  | take hfirst hleast h => exact .take (hperm.symm.trans hfirst) hleast h

/-- A list that is over changes nothing. -/
theorem Merge.cons_nil (h : Merge key ls out) : Merge key ([] :: ls) out := by
  induction h with
  | done hnil => exact .done (List.forall_mem_cons.mpr ⟨rfl, hnil⟩)
  | @take ls rest x l out hperm hleast h ih =>
    refine .take ((hperm.cons _).trans (.swap ..)) ?_ (ih.of_perm (.swap ..))
    exact List.forall_mem_cons.mpr ⟨nofun, hleast⟩

/-- What is merged is all there is. -/
theorem Merge.perm (h : Merge key ls out) : out.Perm ls.flatten := by
  induction h with
  | done hnil =>
    rw [List.flatten_eq_nil_iff.mpr hnil]
  | take hperm hleast h ih =>
    refine .trans ?_ hperm.flatten.symm
    exact ih.cons _

/-- The elements of one list stay in their order. -/
theorem Merge.sublist (h : Merge key ls out) : ∀ l ∈ ls, l.Sublist out := by
  induction h with
  | done hnil =>
    intro l hl
    rw [hnil l hl]
  | take hperm hleast h ih =>
    intro l hl
    rcases List.mem_cons.mp (hperm.mem_iff.mp hl) with rfl | hl
    · exact (ih _ List.mem_cons_self).cons_cons _
    · exact (ih l (List.mem_cons_of_mem _ hl)).cons _

/-- Nothing in a sorted list is before its first element. -/
theorem Sorted.le_of_head {b : κ} {l : List α} (h : Sorted key l)
    (hb : ∀ y ∈ l.head?, b ≤ key y) : ∀ y ∈ l, b ≤ key y := by
  cases l with
  | nil => nofun
  | cons x l =>
    have hx : b ≤ key x := hb x rfl
    exact List.forall_mem_cons.mpr ⟨hx, fun y hy => hx.trans ((sorted_cons.mp h).1 y hy)⟩

theorem Merge.sorted (h : Merge key ls out) (hls : ∀ l ∈ ls, Sorted key l) : Sorted key out := by
  induction h with
  | done => exact .nil
  | @take ls rest x l out hperm hleast h ih =>
    have hall : ∀ m ∈ (x :: l) :: rest, Sorted key m := fun m hm => hls m (hperm.mem_iff.mpr hm)
    rw [List.forall_mem_cons, sorted_cons] at hall
    obtain ⟨⟨hx, hl⟩, hrest⟩ := hall
    refine sorted_cons.mpr ⟨?_, ih (List.forall_mem_cons.mpr ⟨hl, hrest⟩)⟩
    intro y hy
    have hmem := h.perm.mem_iff.mp hy
    rw [List.flatten_cons, List.mem_append, List.mem_flatten] at hmem
    rcases hmem with hy | ⟨m, hm, hy⟩
    · exact hx y hy
    · exact (hrest m hm).le_of_head (hleast m hm) y hy

/-- What is merged is sorted if and only if each list is. -/
theorem Merge.sorted_iff (h : Merge key ls out) :
    Sorted key out ↔ ∀ l ∈ ls, Sorted key l := by
  constructor
  · exact fun hout l hl => hout.sublist (h.sublist l hl)
  · exact h.sorted

/-! ## Sorting through a window -/

/-- A search in a sorted window. Which one of several matches it finds is left open. -/
structure Search (key : α → κ) where
  position : List α → κ → Nat
  before : ∀ {window k}, Sorted key window →
    ∀ x ∈ window.take (position window k), key x ≤ k
  after : ∀ {window k}, Sorted key window → ∀ x ∈ window.drop (position window k), k ≤ key x

theorem le_of_mem_takeWhile {window : List α} {k : κ} :
    ∀ x ∈ window.takeWhile (fun y => key y < k), key x ≤ k := by
  intro x hx
  induction window with
  | nil => cases hx
  | cons y window ih =>
    rw [List.takeWhile_cons] at hx
    split at hx
    · rename_i hlt
      rcases List.mem_cons.mp hx with rfl | hx
      · exact (of_decide_eq_true hlt).le
      · exact ih hx
    · cases hx

theorem le_of_mem_dropWhile {window : List α} {k : κ} (h : Sorted key window) :
    ∀ x ∈ window.dropWhile (fun y => key y < k), k ≤ key x := by
  induction window with
  | nil => nofun
  | cons y window ih =>
    obtain ⟨hy, hrest⟩ := sorted_cons.mp h
    rw [List.dropWhile_cons]
    split
    · exact ih hrest
    · rename_i hle
      rw [decide_eq_true_eq, not_lt] at hle
      exact List.forall_mem_cons.mpr ⟨hle, fun x hx => hle.trans (hy x hx)⟩

/-- The first place that is not before the key. -/
def Search.first (key : α → κ) : Search key where
  position window k := window.findIdx fun y => !decide (key y < k)
  before _ := by
    rw [← List.takeWhile_eq_take_findIdx_not]
    exact le_of_mem_takeWhile
  after h := by
    rw [← List.dropWhile_eq_drop_findIdx_not]
    exact le_of_mem_dropWhile h

/-- The element is put where the search says. -/
def insertAt (search : Search key) (window : List α) (x : α) : List α :=
  window.take (search.position window (key x)) ++
    x :: window.drop (search.position window (key x))

/-- The oldest elements are given away while there are too many. -/
def drain (size : Nat) : List α → List α × List α
  | [] => ([], [])
  | x :: window =>
    if size < (x :: window).length then
      let (out, window) := drain size window
      (x :: out, window)
    else ([], x :: window)

/-- What comes out of a window while elements come in, and what is left in it. -/
def through (search : Search key) (size : Nat) : List α → List α → List α × List α
  | window, [] => ([], window)
  | window, x :: xs =>
    let (out, window) := drain size (insertAt search window x)
    let (outs, window) := through search size window xs
    (out ++ outs, window)

/-- At most `size` elements are before one that is less. -/
def Displaced (key : α → κ) (size : Nat) (window l : List α) : Prop :=
  ∀ pre x post, l = pre ++ x :: post → (window ++ pre).countP (fun y => key x < key y) ≤ size

variable {search : Search key} {size : Nat} {window xs : List α} {x : α}

theorem insertAt_perm : (insertAt search window x).Perm (x :: window) := by
  unfold insertAt
  refine List.perm_middle.trans ?_
  rw [List.take_append_drop]

theorem insertAt_sorted (h : Sorted key window) : Sorted key (insertAt search window x) := by
  unfold insertAt Sorted
  rw [List.pairwise_append]
  refine ⟨h.sublist (List.take_sublist ..), ?_, ?_⟩
  · exact sorted_cons.mpr ⟨search.after h, h.sublist (List.drop_sublist ..)⟩
  · intro y hy z hz
    have hbefore := search.before h y hy
    rcases List.mem_cons.mp hz with rfl | hz
    · exact hbefore
    · exact hbefore.trans (search.after h z hz)

theorem drain_append : (drain size window).1 ++ (drain size window).2 = window := by
  induction window with
  | nil => rfl
  | cons x window ih =>
    unfold drain
    split
    · exact congrArg (x :: ·) ih
    · rfl

theorem drain_of_le (h : window.length ≤ size) : drain size window = ([], window) := by
  cases window with
  | nil => rfl
  | cons x window =>
    unfold drain
    rw [if_neg (by omega)]

/-- One too many is one that comes out. -/
theorem drain_of_succ (h : (x :: window).length = size + 1) :
    drain size (x :: window) = ([x], window) := by
  unfold drain
  rw [List.length_cons] at h
  rw [if_pos (by rw [List.length_cons]; omega), drain_of_le (by omega)]

/-- All that has come in comes out or is left. -/
theorem through_perm :
    ((through search size window xs).1 ++ (through search size window xs).2).Perm
      (window ++ xs) := by
  induction xs generalizing window with
  | nil => simp [through]
  | cons x xs ih =>
    unfold through
    dsimp only
    have hdrain := @drain_append α size (insertAt search window x)
    rw [List.append_assoc]
    refine (ih.append_left _).trans ?_
    rw [← List.append_assoc, hdrain]
    exact (insertAt_perm.append_right xs).trans List.perm_middle.symm

theorem displaced_nil : Displaced key size window [] := by
  intro pre y post hxs
  cases pre <;> cases hxs

theorem displaced_cons : Displaced key size window (x :: xs) ↔
    window.countP (fun y => key x < key y) ≤ size ∧ Displaced key size (x :: window) xs := by
  constructor
  · intro h
    refine ⟨by simpa using h [] x xs rfl, ?_⟩
    rintro pre y post rfl
    have hpre := h (x :: pre) y post rfl
    rwa [List.perm_middle.countP_eq] at hpre
  · rintro ⟨hx, h⟩ pre y post hxs
    cases pre with
    | nil =>
      cases hxs
      simpa using hx
    | cons z pre =>
      cases hxs
      rw [List.perm_middle.countP_eq]
      exact h pre y post rfl

theorem Displaced.mono {window' : List α} (h : Displaced key size window xs)
    (hsub : window'.Subperm window) : Displaced key size window' xs := by
  intro pre y post hxs
  have hcount := h pre y post hxs
  rw [List.countP_append] at hcount ⊢
  exact Nat.le_trans (Nat.add_le_add_right (hsub.countP_le _) _) hcount

/-- What comes out is sorted, and so is what comes out followed by what is left,
when no element is displaced by more than the window holds. -/
theorem through_sorted (hwindow : Sorted key window) (hlen : window.length ≤ size)
    (h : Displaced key size window xs) :
    Sorted key ((through search size window xs).1 ++ (through search size window xs).2) := by
  induction xs generalizing window with
  | nil => exact hwindow
  | cons x xs ih =>
    have hsorted : Sorted key (insertAt search window x) := insertAt_sorted hwindow
    have hperm : (insertAt search window x).Perm (x :: window) := insertAt_perm
    have hnext : Displaced key size (insertAt search window x) xs :=
        (displaced_cons.mp h).2.mono hperm.subperm
    have hlength := hperm.length_eq
    rw [List.length_cons] at hlength
    unfold through
    dsimp only
    by_cases hfull : (insertAt search window x).length ≤ size
    · rw [drain_of_le hfull]
      exact ih hsorted hfull hnext
    · cases hinsert : insertAt search window x with
      | nil =>
        rw [hinsert] at hlength
        cases hlength
      | cons y rest =>
        rw [hinsert] at hsorted hnext hlength hfull
        rw [drain_of_succ (by omega)]
        obtain ⟨hy, hrest⟩ := sorted_cons.mp hsorted
        refine sorted_cons.mpr ⟨?_, ih hrest ?_ (hnext.mono (List.sublist_cons_self ..).subperm)⟩
        · intro z hz
          rcases List.mem_append.mp (through_perm.mem_iff.mp hz) with hz | hz
          · exact hy z hz
          · -- all of a full window would stand before an element that is less
            by_contra hlt
            obtain ⟨pre, post, rfl⟩ := List.append_of_mem hz
            have hcount := hnext pre z post rfl
            have hless : (y :: rest).countP (fun y => key z < key y) = (y :: rest).length := by
              rw [List.countP_eq_length]
              intro w hw
              rw [decide_eq_true_eq]
              rcases List.mem_cons.mp hw with rfl | hw
              · exact not_le.mp hlt
              · exact (not_le.mp hlt).trans_le (hy w hw)
            rw [List.countP_append, hless] at hcount
            omega
        · rw [List.length_cons] at hlength
          show rest.length ≤ size
          omega

end merges
