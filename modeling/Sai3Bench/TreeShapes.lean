-- The shape of a tree: its levels, its paths, each once, and under which masks
-- each path extends the one of its parent.
import Mathlib.Data.List.Nodup
import Sai3Bench.FilePlacements

namespace sai3_bench.directory_tree

open DirectoryTree TreeManifest templates

variable {config : DirectoryStructureConfig} {tree : DirectoryTree} {m : TreeManifest}

/-! ## Distinct paths -/

theorem nodup_level_paths (h : config.width = 1 ∨ 2 ≤ holes config.dir_mask) (below : Nat) :
    (level_paths config below).Nodup := by
  unfold level_paths
  refine List.Nodup.map_on ?_ List.nodup_range
  intro i hi j hj heq
  rw [List.mem_range] at hi hj
  rcases h with hw | hmask
  · rw [hw, one_pow] at hi hj
    omega
  · exact full_path_injective hmask hi hj heq

/-- The second path of a level is the first one again when the mask has no place for its number. -/
theorem not_nodup_paths {depth : Nat} (hd : 0 < depth) (hw : 2 ≤ config.width)
    (hmask : holes config.dir_mask < 2) : ¬ (paths config depth).Nodup := by
  have hlevel : 2 ≤ config.width ^ (0 + 1) := by rwa [zero_add, pow_one]
  have hfirst := paths_at config (i := 0) hd (by omega)
  have hsecond := paths_at config (i := 1) hd (by omega)
  have hsame : full_path config 0 (0 + 1) = full_path config 0 (1 + 1) := by
    show dir_name config 1 (0 + 1) = dir_name config 1 (1 + 1)
    rw [dir_name_eq, dir_name_eq]
    exact fill_const hmask _ _ _
  rw [hsame, ← hsecond] at hfirst
  intro hnodup
  rw [List.nodup_iff_getElem?_ne_getElem?] at hnodup
  refine hnodup _ _ (Nat.lt_succ_self _) ?_ hfirst
  rw [length_paths]
  have := offset_mono config (Nat.succ_le_of_lt hd)
  rw [offset_succ] at this
  omega

theorem nodup_paths_iff {depth : Nat} (hd : 0 < depth) (hw : 0 < config.width) :
    (paths config depth).Nodup ↔ config.width = 1 ∨ 2 ≤ holes config.dir_mask := by
  constructor
  · intro hnodup
    by_contra hcond
    exact not_nodup_paths hd (by omega) (by omega) hnodup
  · intro h
    exact nodup_paths (nodup_level_paths h) depth

/-! ## Parents -/

/-- A path is another one and one more component. -/
def Extends (p q : Path) : Prop := ∃ component ≠ [], '/' ∉ component ∧ p = q ++ '/' :: component

/-- Each path after those of the first level extends one that stands before it. -/
def ParentsFirst (width : Nat) (paths : List Path) : Prop :=
  ∀ earlier p later, paths = earlier ++ p :: later → width ≤ earlier.length →
    ∃ q ∈ earlier, Extends p q

theorem parents_first (hmask : '/' ∉ config.dir_mask) (hne : config.dir_mask ≠ []) (depth : Nat) :
    ParentsFirst config.width (paths config depth) := by
  intro earlier p later hsplit hwidth
  have hp : (paths config depth)[earlier.length]? = some p := by
    rw [hsplit, List.getElem?_append_right (Nat.le_refl _), Nat.sub_self]
    rfl
  obtain ⟨below, i, hb, hi, hplace⟩ := place_of_lt config (n := earlier.length)
    (by rw [← length_paths]; exact (List.getElem?_eq_some_iff.mp hp).1)
  rw [hplace, paths_at config hb hi] at hp
  cases hp
  cases below with
  | zero =>
    rw [zero_add, pow_one] at hi
    have hzero : offset config 0 = 0 := rfl
    omega
  | succ below =>
    have hparent : i / config.width < config.width ^ (below + 1) :=
      Nat.div_lt_of_lt_mul (by rwa [pow_succ, Nat.mul_comm] at hi)
    have hq := paths_at config (Nat.lt_of_succ_lt hb) hparent
    rw [hsplit, List.getElem?_append_left (by rw [offset_succ] at hplace; omega)] at hq
    refine ⟨_, List.mem_of_getElem? hq, dir_name config (below + 2) (i + 1), ?_, ?_, rfl⟩
    · rw [dir_name_eq]
      exact fun hnil => hne (fill_eq_nil.mp hnil)
    · rw [← List.count_eq_zero, count_dir_name]
      exact List.count_eq_zero.mpr hmask

/-- A name with a slash in it is more than one component. -/
theorem mask_of_parents_first {depth : Nat} (hw : 0 < config.width) (hd : 1 < depth)
    (h : ParentsFirst config.width (paths config depth)) :
    '/' ∉ config.dir_mask ∧ config.dir_mask ≠ [] := by
  have hplace := paths_at config (i := 0) hd (Nat.pow_pos hw)
  have hoffset : offset config 1 = config.width := by
    rw [offset_succ, zero_add, pow_one]
    exact Nat.zero_add _
  rw [hoffset, Nat.add_zero] at hplace
  obtain ⟨hlt, hget⟩ := List.getElem?_eq_some_iff.mp hplace
  have hsplit : paths config depth = (paths config depth).take config.width ++
      full_path config 1 1 :: (paths config depth).drop (config.width + 1) := by
    rw [← hget, List.getElem_cons_drop, List.take_append_drop]
  obtain ⟨q, hq, component, hne, hslash, heq⟩ := h _ _ _ hsplit
    (by rw [List.length_take, Nat.min_eq_left (Nat.le_of_lt hlt)])
  obtain ⟨below, _, i, _, rfl⟩ := mem_paths.mp (List.mem_of_mem_take hq)
  have hcount := congrArg (List.count '/') heq
  rw [List.count_append, List.count_cons_self, List.count_eq_zero.mpr hslash, count_full_path,
    count_full_path] at hcount
  have hmask : config.dir_mask.count '/' = 0 ∧ below = 0 := by
    rcases below with - | below
    · omega
    · have hle : 2 * config.dir_mask.count '/' ≤ (below + 1 + 1) * config.dir_mask.count '/' :=
        Nat.mul_le_mul_right _ (by omega)
      omega
  obtain ⟨hzero, rfl⟩ := hmask
  refine ⟨List.count_eq_zero.mp hzero, fun hnil => hne ?_⟩
  rw [full_path_succ] at heq
  have hname := (append_cons_inj heq (by rw [count_full_path, count_full_path])).2
  rw [← hname, dir_name_eq]
  exact fill_eq_nil.mpr hnil

/-! ## One path for each file -/

theorem length_file_dirs_bottom (h : m.Describes config) (hw : 0 < config.width)
    (hdist : config.distribution = "bottom") :
    m.file_dirs.length ≤ config.width ^ config.depth := by
  by_cases hlevel : config.dir_mask.count '/' + 1 ∣ config.depth
  · obtain ⟨levels, hlevels⟩ := hlevel
    rw [Nat.mul_comm] at hlevels
    cases levels with
    | zero =>
      rw [file_dirs_bottom h hdist, hlevels, Nat.zero_mul]
      exact Nat.zero_le _
    | succ below =>
      rw [file_dirs_level h hdist hlevels.symm, length_level_paths]
      apply Nat.pow_le_pow_right hw
      rw [hlevels]
      exact Nat.le_mul_of_pos_right _ (Nat.succ_pos _)
  · rw [file_dirs_none h hdist hlevel]
    exact Nat.zero_le _

/-- Each file has a path. -/
theorem get_file_path_isSome (h : m.Describes config) (hw : 0 < config.width) (hd : 0 < config.depth)
    (hdist : config.distribution = "bottom" ∨ config.distribution = "all") {i : Nat}
    (hi : i < m.total_files) : ∃ p, m.get_file_path i = some p := by
  have hf : 0 < m.files_per_dir := by
    rw [h.total_files] at hi
    exact Nat.pos_of_ne_zero fun hzero => by simp [hzero] at hi
  rcases hdist with hdist | hdist
  · have hplace := Nat.lt_of_lt_of_le (place_lt h hi) (length_file_dirs_bottom h hw hdist)
    exact ⟨_, get_file_path_bottom h hf hd hdist hi hplace⟩
  · obtain ⟨dir_path, _, hpath⟩ := (placed_iff h hf).mp (placed_all h hf hdist hi)
    exact ⟨_, hpath⟩

/-! ## The shape -/

/-- The list has the levels one after the other, level `k` with `width ^ k` paths, and
no path twice; each path after the first level extends one before it; and no two
files have the same path. -/
structure WellShaped (tree : DirectoryTree) : Prop where
  levels : tree.all_paths = tree.by_level.flatten
  level_lengths : tree.by_level.map List.length =
    (List.range tree.config.depth).map fun below => tree.config.width ^ (below + 1)
  distinct : tree.all_paths.Nodup
  parents : ParentsFirst tree.config.width tree.all_paths
  files : ∀ i < (from_tree tree).total_files, ∀ j < (from_tree tree).total_files,
    (from_tree tree).get_file_path i = (from_tree tree).get_file_path j → i = j

theorem well_shaped_iff (h : DirectoryTree.new config = .ok tree) : WellShaped tree ↔
    (config.width = 1 ∨ 2 ≤ holes config.dir_mask) ∧
      (config.depth = 1 ∨ '/' ∉ config.dir_mask ∧ config.dir_mask ≠ []) := by
  have hm := describes_from_tree h
  obtain ⟨hw, hd, rfl, hlevels, hflatten, hdist⟩ := new_ok h
  have hall : tree.all_paths = paths tree.config tree.config.depth := by
    rw [hflatten, hlevels]
    rfl
  constructor
  · rintro ⟨_, _, hdistinct, hparents, _⟩
    rw [hall] at hdistinct hparents
    refine ⟨(nodup_paths_iff hd hw).mp hdistinct, ?_⟩
    rcases Nat.lt_or_ge 1 tree.config.depth with hdepth | hdepth
    · exact .inr (mask_of_parents_first hw hdepth hparents)
    · exact .inl (by omega)
  · rintro ⟨hmask, hslash⟩
    refine ⟨hflatten, ?_, ?_, ?_, ?_⟩
    · rw [hlevels, List.map_map]
      exact List.map_congr_left fun below _ => length_level_paths below
    · rw [hall]
      exact (nodup_paths_iff hd hw).mpr hmask
    · rw [hall]
      rcases hslash with hone | ⟨hslash, hne⟩
      · intro earlier p later hsplit hwidth
        have hlength := congrArg List.length hsplit
        rw [hone, length_paths, offset_succ, zero_add, pow_one, List.length_append,
          List.length_cons] at hlength
        have hzero : offset tree.config 0 = 0 := rfl
        omega
      · exact parents_first hslash hne _
    · intro i hi j _ heq
      obtain ⟨p, hp⟩ := get_file_path_isSome hm hw hd
        (hdist.imp And.left And.left) hi
      exact get_file_path_injective hp (heq ▸ hp)

theorem well_shaped_two_levels : ∃ tree,
    DirectoryTree.new { width := 2, depth := 2, files_per_dir := 3 } = .ok tree ∧ WellShaped tree := by
  have hnew : DirectoryTree.new { width := 2, depth := 2, files_per_dir := 3 } = .ok _ := rfl
  exact ⟨_, hnew, (well_shaped_iff hnew).mpr ⟨.inr (by decide), .inr (by decide)⟩⟩

/-- A mask without placeholders: both directories have one path. -/
theorem not_well_shaped : ¬ ∀ config tree, DirectoryTree.new config = .ok tree →
    WellShaped tree := by
  intro hall
  have hdistinct := (hall { width := 2, depth := 1, files_per_dir := 1, dir_mask := "dir".toList }
    _ rfl).distinct
  revert hdistinct
  decide

end sai3_bench.directory_tree
