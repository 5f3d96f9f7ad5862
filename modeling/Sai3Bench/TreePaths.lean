-- The paths of a tree, level by level: where each stands in the list, how many
-- slashes it has, and which masks make them different.
import Mathlib.Algebra.Order.BigOperators.Group.List
import Mathlib.Tactic.Ring
import Sai3Bench.DirectoryTrees
import Sai3Bench.Templates

namespace sai3_bench.directory_tree

open templates texts

namespace DirectoryTree

variable {config : DirectoryStructureConfig} {tree : DirectoryTree}

/-- What an accepted configuration makes. -/
theorem new_ok (h : new config = .ok tree) :
    0 < config.width ∧ 0 < config.depth ∧ tree.config = config ∧
      tree.by_level = (List.range config.depth).map (level_paths config) ∧
      tree.all_paths = tree.by_level.flatten ∧
      (config.distribution = "bottom" ∧
          tree.total_files = config.width ^ config.depth * config.files_per_dir ∨
        config.distribution = "all" ∧ tree.total_files =
          ((List.range config.depth).map fun below => config.width ^ (below + 1)).sum *
            config.files_per_dir) := by
  unfold new at h
  split at h
  · cases h
  split at h
  · cases h
  rename_i hw hd
  dsimp only at h
  have hpos := And.intro (Nat.pos_of_ne_zero hw) (Nat.pos_of_ne_zero hd)
  split at h
  · rename_i hb
    cases h
    exact ⟨hpos.1, hpos.2, rfl, rfl, rfl, .inl ⟨hb, rfl⟩⟩
  · split at h
    · rename_i ha
      cases h
      exact ⟨hpos.1, hpos.2, rfl, rfl, rfl, .inr ⟨ha, rfl⟩⟩
    · cases h

/-! ## One path -/

theorem dir_name_eq (depth i : Nat) :
    dir_name config depth (i + 1) = fill config.dir_mask depth (i % config.width + 1) := rfl

theorem full_path_succ (below i : Nat) : full_path config (below + 1) (i + 1) =
    full_path config below (i / config.width + 1) ++ '/' :: dir_name config (below + 2) (i + 1) := rfl

theorem count_dir_name (depth i : Nat) :
    (dir_name config depth (i + 1)).count '/' = config.dir_mask.count '/' := by
  rw [dir_name_eq]
  exact count_fill rfl (by decide) _ _

/-- The slashes of a path tell its level. -/
theorem count_full_path (below i : Nat) : (full_path config below (i + 1)).count '/' =
    (below + 1) * config.dir_mask.count '/' + below := by
  induction below generalizing i with
  | zero =>
    show (dir_name config 1 (i + 1)).count '/' = _
    rw [count_dir_name]
    ring
  | succ below ih =>
    rw [full_path_succ, List.count_append, List.count_cons_self, ih, count_dir_name]
    ring

theorem level_eq_of_count {s k l : Nat} (h : (k + 1) * s + k = (l + 1) * s + l) : k = l := by
  have hfactor : (k + 1) * (s + 1) = (l + 1) * (s + 1) := by
    rw [Nat.mul_succ, Nat.mul_succ]
    omega
  have := Nat.eq_of_mul_eq_mul_right (Nat.succ_pos s) hfactor
  omega

/-- With two placeholders in the mask the paths of a level are different. -/
theorem full_path_injective (h : 2 ≤ holes config.dir_mask) {below i j : Nat}
    (hi : i < config.width ^ (below + 1)) (hj : j < config.width ^ (below + 1))
    (heq : full_path config below (i + 1) = full_path config below (j + 1)) : i = j := by
  have hname : ∀ {depth i j}, dir_name config depth (i + 1) = dir_name config depth (j + 1) →
      i % config.width = j % config.width := by
    intro depth i j hdir
    rw [dir_name_eq, dir_name_eq] at hdir
    exact Nat.succ.inj (fill_injective h hdir)
  induction below generalizing i j with
  | zero =>
    rw [zero_add, pow_one] at hi hj
    have hmod := hname heq
    rwa [Nat.mod_eq_of_lt hi, Nat.mod_eq_of_lt hj] at hmod
  | succ below ih =>
    rw [full_path_succ, full_path_succ] at heq
    obtain ⟨hparent, hdir⟩ := append_cons_inj heq (by rw [count_full_path, count_full_path])
    have hw : ∀ {i}, i < config.width ^ (below + 1 + 1) → i / config.width < config.width ^ (below + 1) := by
      intro i hi
      exact Nat.div_lt_of_lt_mul (by rwa [pow_succ, Nat.mul_comm] at hi)
    have hdiv := ih (hw hi) (hw hj) hparent
    rw [← Nat.div_add_mod i config.width, ← Nat.div_add_mod j config.width, hdiv, hname hdir]

/-! ## The paths of the first levels -/

/-- The paths of the levels down to a depth. -/
def paths (config : DirectoryStructureConfig) (depth : Nat) : List Path :=
  ((List.range depth).map (level_paths config)).flatten

/-- Where the paths of a level begin. -/
def offset (config : DirectoryStructureConfig) (below : Nat) : Nat :=
  ((List.range below).map fun k => config.width ^ (k + 1)).sum

theorem paths_succ (depth : Nat) :
    paths config (depth + 1) = paths config depth ++ level_paths config depth := by
  unfold paths
  rw [List.range_succ, List.map_append, List.flatten_append]
  simp

theorem offset_succ (below : Nat) :
    offset config (below + 1) = offset config below + config.width ^ (below + 1) := by
  unfold offset
  rw [List.range_succ, List.map_append, List.sum_append]
  simp

theorem length_level_paths (below : Nat) :
    (level_paths config below).length = config.width ^ (below + 1) := by
  unfold level_paths
  rw [List.length_map, List.length_range]

theorem length_paths (depth : Nat) : (paths config depth).length = offset config depth := by
  induction depth with
  | zero => rfl
  | succ depth ih => rw [paths_succ, List.length_append, ih, length_level_paths, offset_succ]

theorem mem_level_paths {below : Nat} {p : Path} : p ∈ level_paths config below ↔
    ∃ i < config.width ^ (below + 1), full_path config below (i + 1) = p := by
  unfold level_paths
  simp

theorem offset_mono (config : DirectoryStructureConfig) {k l : Nat} (h : k ≤ l) : offset config k ≤ offset config l := by
  induction h with
  | refl => exact Nat.le_refl _
  | step _ ih =>
    rw [offset_succ]
    omega

/-- The place of a path in the list. -/
theorem paths_at (config : DirectoryStructureConfig) {depth below i : Nat} (h : below < depth)
    (hi : i < config.width ^ (below + 1)) :
    (paths config depth)[offset config below + i]? = some (full_path config below (i + 1)) := by
  induction depth with
  | zero => exact absurd h (Nat.not_lt_zero _)
  | succ depth ih =>
    rw [paths_succ]
    rcases Nat.lt_succ_iff_lt_or_eq.mp h with hlt | rfl
    · have hle : offset config (below + 1) ≤ offset config depth := offset_mono config hlt
      rw [offset_succ] at hle
      rw [List.getElem?_append_left (by rw [length_paths]; omega), ih hlt]
    · rw [List.getElem?_append_right (by rw [length_paths]; omega), length_paths,
        Nat.add_sub_cancel_left]
      unfold level_paths
      rw [List.getElem?_map, List.getElem?_range hi]
      rfl

/-- Each place in the list is that of a path. -/
theorem place_of_lt (config : DirectoryStructureConfig) {depth n : Nat} (h : n < offset config depth) :
    ∃ below i, below < depth ∧ i < config.width ^ (below + 1) ∧ n = offset config below + i := by
  induction depth with
  | zero => exact absurd h (Nat.not_lt_zero _)
  | succ depth ih =>
    by_cases hn : n < offset config depth
    · obtain ⟨below, i, hb, hi, rfl⟩ := ih hn
      exact ⟨below, i, by omega, hi, rfl⟩
    · rw [offset_succ] at h
      exact ⟨depth, n - offset config depth, by omega, by omega, by omega⟩

/-! ## Paths with as many slashes -/

theorem filter_level_paths (below n : Nat) :
    (level_paths config below).filter (fun p => p.count '/' = n) =
      if (below + 1) * config.dir_mask.count '/' + below = n then level_paths config below else [] := by
  split
  · rename_i hn
    rw [List.filter_eq_self]
    intro p hp
    obtain ⟨i, _, rfl⟩ := mem_level_paths.mp hp
    rw [count_full_path]
    exact decide_eq_true hn
  · rename_i hn
    rw [List.filter_eq_nil_iff]
    intro p hp
    obtain ⟨i, _, rfl⟩ := mem_level_paths.mp hp
    rw [count_full_path]
    simpa using hn

/-- The paths with as many slashes as those of one level are those of the level. -/
theorem filter_paths (config : DirectoryStructureConfig) {depth below : Nat} (h : below < depth) :
    (paths config depth).filter
      (fun p => p.count '/' = (below + 1) * config.dir_mask.count '/' + below) =
        level_paths config below := by
  induction depth with
  | zero => exact absurd h (Nat.not_lt_zero _)
  | succ depth ih =>
    rw [paths_succ, List.filter_append, filter_level_paths]
    rcases Nat.lt_succ_iff_lt_or_eq.mp h with hlt | rfl
    · rw [if_neg fun hcount => hlt.ne' (level_eq_of_count hcount), List.append_nil, ih hlt]
    · rw [if_pos rfl, List.filter_eq_nil_iff.mpr, List.nil_append]
      intro p hp
      obtain ⟨n, hlt, rfl⟩ := List.mem_iff_getElem.mp hp
      rw [length_paths] at hlt
      obtain ⟨k, i, hk, hi, rfl⟩ := place_of_lt config hlt
      have hget := (List.getElem?_eq_getElem (by rwa [length_paths])).symm.trans (paths_at config hk hi)
      rw [Option.some.inj hget, count_full_path]
      simpa using fun hcount => hk.ne (level_eq_of_count hcount)

theorem mem_paths {depth : Nat} {p : Path} : p ∈ paths config depth ↔
    ∃ below < depth, ∃ i < config.width ^ (below + 1), full_path config below (i + 1) = p := by
  unfold paths
  simp [mem_level_paths]

/-- The paths are different when those of each level are. -/
theorem nodup_paths (hlevel : ∀ below, (level_paths config below).Nodup) (depth : Nat) :
    (paths config depth).Nodup := by
  induction depth with
  | zero => exact List.nodup_nil
  | succ depth ih =>
    rw [paths_succ, List.nodup_append]
    refine ⟨ih, hlevel depth, ?_⟩
    rintro p hp _ hq rfl
    obtain ⟨below, hb, i, _, rfl⟩ := mem_paths.mp hp
    obtain ⟨j, _, hj⟩ := mem_level_paths.mp hq
    have hcount := congrArg (List.count '/') hj
    rw [count_full_path, count_full_path] at hcount
    exact hb.ne (level_eq_of_count hcount).symm

end DirectoryTree

end sai3_bench.directory_tree
