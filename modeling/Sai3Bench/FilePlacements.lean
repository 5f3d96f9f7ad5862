-- Where the files of a tree are: the ranges of the manifest's directories, and
-- the directory that the path of a file names.
import Sai3Bench.TreePaths

namespace sai3_bench.directory_tree

open DirectoryTree

namespace TreeManifest

variable {m : TreeManifest}

/-! ## The ranges -/

/-- The directories that are to have files. -/
def file_dirs (m : TreeManifest) : List Path := m.all_directories.filter m.should_have_files

/-- The range of the `n`-th directory with files. -/
def range (m : TreeManifest) (d : Path × Nat) : Path × Nat × Nat :=
  (d.1, d.2 * m.files_per_dir, (d.2 + 1) * m.files_per_dir)

theorem rangesFrom_zero (h : m.files_per_dir = 0) (start : Nat) (dirs : List Path) :
    m.rangesFrom start dirs = ([], start) := by
  induction dirs with
  | nil => rfl
  | cons dir_path dirs ih =>
    unfold rangesFrom
    rw [if_neg (by simp [h]), ih]

/-- The ranges stand one after the other. -/
theorem rangesFrom_eq (h : 0 < m.files_per_dir) (k : Nat) (dirs : List Path) :
    m.rangesFrom (k * m.files_per_dir) dirs =
      (((dirs.filter m.should_have_files).zipIdx k).map m.range,
        (k + (dirs.filter m.should_have_files).length) * m.files_per_dir) := by
  induction dirs generalizing k with
  | nil => rfl
  | cons dir_path dirs ih =>
    unfold rangesFrom
    rw [decide_eq_true h, Bool.and_true, List.filter_cons]
    split
    · rw [← Nat.succ_mul, ih, List.length_cons, Nat.succ_eq_add_one, Nat.add_assoc, Nat.add_comm 1]
      rfl
    · exact ih k

/-- A number is in the range of one directory. -/
theorem mem_range_iff (h : 0 < m.files_per_dir) {d : Path × Nat} {i : Nat} :
    (m.range d).2.1 ≤ i ∧ i < (m.range d).2.2 ↔ i / m.files_per_dir = d.2 := by
  show d.2 * m.files_per_dir ≤ i ∧ i < (d.2 + 1) * m.files_per_dir ↔ _
  rw [Nat.le_div_iff_mul_le h |>.symm, ← Nat.div_lt_iff_lt_mul h]
  omega

/-! ## The manifest of a tree -/

/-- What a manifest says of the tree of a configuration. -/
structure Describes (m : TreeManifest) (config : DirectoryStructureConfig) : Prop where
  all_directories : m.all_directories = paths config config.depth
  levels : m.by_level.length = config.depth
  files_per_dir : m.files_per_dir = config.files_per_dir
  distribution : m.distribution = config.distribution
  leaf_start_index : m.leaf_start_index = offset config (config.depth - 1)
  file_ranges : 0 < m.files_per_dir → m.file_ranges = m.file_dirs.zipIdx.map m.range
  total_files : m.total_files = m.file_dirs.length * m.files_per_dir

theorem rangesFrom_first (h : 0 < m.files_per_dir) : m.rangesFrom 0 m.all_directories =
    (m.file_dirs.zipIdx.map m.range, m.file_dirs.length * m.files_per_dir) := by
  have heq := rangesFrom_eq h 0 m.all_directories
  rw [Nat.zero_mul, Nat.zero_add] at heq
  exact heq

end TreeManifest

open TreeManifest

variable {config : DirectoryStructureConfig} {tree : DirectoryTree} {m : TreeManifest}

theorem describes_from_tree (h : DirectoryTree.new config = .ok tree) :
    (from_tree tree).Describes config := by
  obtain ⟨_, hd, rfl, hlevels, hpaths, _⟩ := new_ok h
  have hlength : tree.by_level.length = tree.config.depth := by
    rw [hlevels, List.length_map, List.length_range]
  have hne : tree.by_level.isEmpty = false := by
    rw [List.isEmpty_eq_false_iff, ← List.length_pos_iff, hlength]
    exact hd
  have hall : tree.all_paths = paths tree.config tree.config.depth := by
    rw [hpaths, hlevels]
    rfl
  have hstart : ((tree.by_level.take (tree.by_level.length - 1)).map List.length).sum =
      offset tree.config (tree.config.depth - 1) := by
    rw [hlength, hlevels, ← List.map_take, List.take_range, List.map_map,
      Nat.min_eq_left (Nat.sub_le _ _)]
    exact congrArg List.sum (List.map_congr_left fun k _ => length_level_paths k)
  unfold from_tree compute_file_ranges
  dsimp only
  rw [if_neg (by simp [hne])]
  rcases Nat.eq_zero_or_pos tree.config.files_per_dir with hf | hf
  · refine ⟨hall, hlength, rfl, rfl, hstart, fun hpos => absurd hf hpos.ne', ?_⟩
    dsimp only
    rw [rangesFrom_zero hf, hf, Nat.mul_zero]
  · exact ⟨hall, hlength, rfl, rfl, hstart, fun _ => congrArg Prod.fst (rangesFrom_first hf),
      congrArg Prod.snd (rangesFrom_first hf)⟩

theorem describes_assigned (h : m.Describes config) (n : Nat) :
    (m.assign_agents n).Describes config := by
  unfold assign_agents
  split
  · exact h
  · exact ⟨h.1, h.2, h.3, h.4, h.5, h.6, h.7⟩

theorem describes_manifest_only {num_agents : Nat}
    (h : create_tree_manifest_only config num_agents = .ok m) :
    ∃ tree, DirectoryTree.new config = .ok tree ∧ m.Describes config := by
  unfold create_tree_manifest_only at h
  cases hnew : DirectoryTree.new config with
  | error e =>
    rw [hnew] at h
    cases h
  | ok tree =>
    rw [hnew] at h
    cases h
    exact ⟨tree, rfl, describes_assigned (describes_from_tree hnew) num_agents⟩

/-! ## The directory of a file -/

/-- The range that contains the number of a file is that of the directory with the file's place. -/
theorem mem_file_ranges_iff (h : m.Describes config) (hf : 0 < m.files_per_dir) {r : Path × Nat × Nat}
    {i : Nat} : r ∈ m.file_ranges ∧ r.2.1 ≤ i ∧ i < r.2.2 ↔
      ∃ dir_path, m.file_dirs[i / m.files_per_dir]? = some dir_path ∧
        m.range (dir_path, i / m.files_per_dir) = r := by
  rw [h.file_ranges hf, List.mem_map]
  constructor
  · rintro ⟨⟨d, hd, rfl⟩, hrange⟩
    rw [(mem_range_iff hf).mp hrange]
    exact ⟨d.1, List.mem_zipIdx_iff_getElem?.mp hd, rfl⟩
  · rintro ⟨dir_path, hdir, rfl⟩
    exact ⟨⟨(dir_path, i / m.files_per_dir), List.mem_zipIdx_iff_getElem?.mpr hdir, rfl⟩,
      (mem_range_iff hf).mpr rfl⟩

theorem file_dirs_all (h : m.Describes config) (hdist : config.distribution = "all") :
    m.file_dirs = paths config config.depth := by
  unfold file_dirs should_have_files
  rw [h.distribution, hdist, h.all_directories]
  simp

/-- At the bottom the directories with files have as many slashes as there are levels, less one. -/
theorem file_dirs_bottom (h : m.Describes config) (hdist : config.distribution = "bottom") :
    m.file_dirs = (paths config config.depth).filter fun p => p.count '/' + 1 = config.depth := by
  unfold file_dirs should_have_files
  rw [h.distribution, hdist, h.all_directories, h.levels]
  simp

/-- Each level adds the slashes of one mask and one more, so these are the directories of one level. -/
theorem file_dirs_level (h : m.Describes config) (hdist : config.distribution = "bottom") {below : Nat}
    (hlevel : (below + 1) * (config.dir_mask.count '/' + 1) = config.depth) :
    m.file_dirs = level_paths config below := by
  rw [Nat.mul_succ] at hlevel
  rw [file_dirs_bottom h hdist, ← filter_paths config (show below < config.depth by omega)]
  refine List.filter_congr fun p _ => ?_
  congr 1
  apply propext
  omega

/-- Or there are none. -/
theorem file_dirs_none (h : m.Describes config) (hdist : config.distribution = "bottom")
    (hlevel : ¬ config.dir_mask.count '/' + 1 ∣ config.depth) : m.file_dirs = [] := by
  rw [file_dirs_bottom h hdist, List.filter_eq_nil_iff]
  intro p hp hcount
  obtain ⟨below, _, i, _, rfl⟩ := mem_paths.mp hp
  have heq := of_decide_eq_true hcount
  rw [count_full_path, Nat.add_assoc, ← Nat.mul_succ] at heq
  exact hlevel (Dvd.intro_left _ heq)

/-- Without a slash in the mask these are the directories of the last level. -/
theorem file_dirs_last (h : m.Describes config) (hd : 0 < config.depth)
    (hdist : config.distribution = "bottom") (hmask : '/' ∉ config.dir_mask) :
    m.file_dirs = level_paths config (config.depth - 1) := by
  apply file_dirs_level h hdist
  rw [List.count_eq_zero.mpr hmask]
  omega

theorem get_file_path_of_index {i k : Nat} {dir_path : Path} (hf : 0 < m.files_per_dir)
    (hi : i < m.total_files) (hk : m.dir_index i = some k)
    (hdir : m.all_directories[k]? = some dir_path) :
    m.get_file_path i = some (dir_path ++ '/' :: get_file_name i) := by
  unfold get_file_path
  rw [if_neg (by omega), hk, Option.bind_some, hdir]
  rfl

theorem dir_index_all (h : m.Describes config) (hdist : config.distribution = "all") (i : Nat) :
    m.dir_index i = some (i / m.files_per_dir) := by
  unfold dir_index
  rw [h.distribution, hdist]
  rfl

theorem dir_index_bottom (h : m.Describes config) (hdist : config.distribution = "bottom") (i : Nat) :
    m.dir_index i = some (offset config (config.depth - 1) + i / m.files_per_dir) := by
  unfold dir_index
  rw [h.distribution, hdist, h.leaf_start_index]
  rfl

/-- At the bottom the path of a file names a directory of the last level. -/
theorem get_file_path_bottom (h : m.Describes config) (hf : 0 < m.files_per_dir)
    (hd : 0 < config.depth) (hdist : config.distribution = "bottom") {i : Nat}
    (hi : i < m.total_files) (hplace : i / m.files_per_dir < config.width ^ config.depth) :
    m.get_file_path i = some
      (full_path config (config.depth - 1) (i / m.files_per_dir + 1) ++ '/' :: get_file_name i) := by
  apply get_file_path_of_index hf hi (dir_index_bottom h hdist i)
  rw [h.all_directories]
  apply paths_at config (Nat.sub_lt hd Nat.one_pos)
  rwa [Nat.sub_add_cancel hd]

/-! ## The two placements -/

/-- The path of a file names the one directory whose range has the file's number. -/
def Placed (m : TreeManifest) (i : Nat) : Prop :=
  ∃ r ∈ m.file_ranges, r.2.1 ≤ i ∧ i < r.2.2 ∧
    (∀ other ∈ m.file_ranges, other.2.1 ≤ i → i < other.2.2 → other = r) ∧
    m.get_file_path i = some (r.1 ++ '/' :: get_file_name i)

/-- Each file is placed, and the manifest has as many files as the tree. -/
def PlacementsAgree (tree : DirectoryTree) : Prop :=
  (∀ i < (from_tree tree).total_files, Placed (from_tree tree) i) ∧
    (from_tree tree).total_files = tree.total_files

theorem placed_iff (h : m.Describes config) (hf : 0 < m.files_per_dir) {i : Nat} : Placed m i ↔
    ∃ dir_path, m.file_dirs[i / m.files_per_dir]? = some dir_path ∧
      m.get_file_path i = some (dir_path ++ '/' :: get_file_name i) := by
  constructor
  · rintro ⟨r, hr, hlow, hhigh, _, hpath⟩
    obtain ⟨dir_path, hdir, rfl⟩ := (mem_file_ranges_iff h hf).mp ⟨hr, hlow, hhigh⟩
    exact ⟨dir_path, hdir, hpath⟩
  · rintro ⟨dir_path, hdir, hpath⟩
    obtain ⟨hmem, hlow, hhigh⟩ := (mem_file_ranges_iff h hf).mpr ⟨dir_path, hdir, rfl⟩
    refine ⟨_, hmem, hlow, hhigh, fun other hother h₁ h₂ => ?_, hpath⟩
    obtain ⟨_, hdir', rfl⟩ := (mem_file_ranges_iff h hf).mp ⟨hother, h₁, h₂⟩
    rw [Option.some.inj (hdir.symm.trans hdir')]

theorem place_lt (h : m.Describes config) {i : Nat} (hi : i < m.total_files) :
    i / m.files_per_dir < m.file_dirs.length := by
  rw [h.total_files, Nat.mul_comm] at hi
  exact Nat.div_lt_of_lt_mul hi

theorem placed_all (h : m.Describes config) (hf : 0 < m.files_per_dir)
    (hdist : config.distribution = "all") {i : Nat} (hi : i < m.total_files) : Placed m i := by
  have hdir := List.getElem?_eq_getElem (place_lt h hi)
  refine (placed_iff h hf).mpr ⟨_, hdir, ?_⟩
  apply get_file_path_of_index hf hi (dir_index_all h hdist i)
  rwa [h.all_directories, ← file_dirs_all h hdist]

theorem placed_last (h : m.Describes config) (hf : 0 < m.files_per_dir) (hd : 0 < config.depth)
    (hdist : config.distribution = "bottom") (hmask : '/' ∉ config.dir_mask) {i : Nat}
    (hi : i < m.total_files) : Placed m i := by
  have hplace := place_lt h hi
  rw [file_dirs_last h hd hdist hmask, length_level_paths, Nat.sub_add_cancel hd] at hplace
  refine (placed_iff h hf).mpr ⟨_, ?_, get_file_path_bottom h hf hd hdist hi hplace⟩
  rw [file_dirs_last h hd hdist hmask]
  unfold level_paths
  rw [Nat.sub_add_cancel hd, List.getElem?_map, List.getElem?_range hplace]
  rfl

/-- The ranges tell the last level by the slashes of a path, so the first file is not
placed when a name of a directory has a slash. -/
theorem no_slash_of_placed (h : m.Describes config) (hf : 0 < m.files_per_dir) (hw : 0 < config.width)
    (hd : 0 < config.depth) (hdist : config.distribution = "bottom") (htotal : 0 < m.total_files)
    (hplaced : Placed m 0) : '/' ∉ config.dir_mask := by
  obtain ⟨dir_path, hdir, hpath⟩ := (placed_iff h hf).mp hplaced
  rw [Nat.zero_div] at hdir
  have hlast := get_file_path_bottom h hf hd hdist htotal (by rw [Nat.zero_div]; exact Nat.pow_pos hw)
  have heq := List.append_cancel_right (Option.some.inj (hpath.symm.trans hlast))
  have hcount := List.mem_of_getElem? hdir
  rw [file_dirs_bottom h hdist, List.mem_filter, heq, count_full_path, Nat.sub_add_cancel hd] at hcount
  have hzero : config.depth * config.dir_mask.count '/' = 0 := by
    have := of_decide_eq_true hcount.2
    omega
  rcases Nat.mul_eq_zero.mp hzero with hnone | hnone
  · omega
  · exact List.count_eq_zero.mp hnone

/-- The placements agree where files are at every level, where there are none, and
where no name of a directory has a slash. -/
theorem placements_agree_iff (h : DirectoryTree.new config = .ok tree) : PlacementsAgree tree ↔
    config.distribution = "all" ∨ config.files_per_dir = 0 ∨ '/' ∉ config.dir_mask := by
  have hm := describes_from_tree h
  obtain ⟨hw, hd, rfl, _, _, htotal⟩ := new_ok h
  constructor
  · rintro ⟨hplaced, hsame⟩
    rcases htotal with ⟨hdist, htotal⟩ | ⟨hdist, _⟩
    · rcases Nat.eq_zero_or_pos tree.config.files_per_dir with hf | hf
      · exact .inr (.inl hf)
      · have hpos : 0 < (from_tree tree).total_files := by
          rw [hsame, htotal]
          exact Nat.mul_pos (Nat.pow_pos hw) hf
        exact .inr (.inr (no_slash_of_placed hm (hm.files_per_dir ▸ hf) hw hd hdist hpos
          (hplaced 0 hpos)))
    · exact .inl hdist
  · intro hcond
    rcases Nat.eq_zero_or_pos tree.config.files_per_dir with hf | hf
    · have hnone : (from_tree tree).total_files = 0 := by
        rw [hm.total_files, hm.files_per_dir, hf, Nat.mul_zero]
      refine ⟨fun i hi => ?_, ?_⟩
      · rw [hnone] at hi
        exact absurd hi (Nat.not_lt_zero i)
      · rw [hnone]
        rcases htotal with ⟨_, htotal⟩ | ⟨_, htotal⟩
        · rw [htotal, hf, Nat.mul_zero]
        · rw [htotal, hf, Nat.mul_zero]
    · have hf' : 0 < (from_tree tree).files_per_dir := hm.files_per_dir ▸ hf
      rcases htotal with ⟨hdist, htotal⟩ | ⟨hdist, htotal⟩
      · have hmask : '/' ∉ tree.config.dir_mask := by
          rcases hcond with hall | hnone | hmask
          · rw [hdist] at hall
            exact absurd hall (by decide)
          · omega
          · exact hmask
        refine ⟨fun i hi => placed_last hm hf' hd hdist hmask hi, ?_⟩
        rw [hm.total_files, hm.files_per_dir, file_dirs_last hm hd hdist hmask, length_level_paths,
          Nat.sub_add_cancel hd, htotal]
      · refine ⟨fun i hi => placed_all hm hf' hdist hi, ?_⟩
        rw [hm.total_files, hm.files_per_dir, file_dirs_all hm hdist, length_paths, htotal]
        rfl

theorem placements_agree_two_levels : ∃ tree,
    DirectoryTree.new { width := 2, depth := 2, files_per_dir := 3 } = .ok tree ∧
    PlacementsAgree tree := by
  have hnew : DirectoryTree.new { width := 2, depth := 2, files_per_dir := 3 } = .ok _ := rfl
  exact ⟨_, hnew, (placements_agree_iff hnew).mpr (.inr (.inr (by decide)))⟩

/-- A mask with a slash: the first level gets the files, and only half of them. -/
theorem placements_disagree : ¬ ∀ config tree, DirectoryTree.new config = .ok tree →
    PlacementsAgree tree := by
  intro hall
  have hsame := (hall { width := 2, depth := 2, files_per_dir := 1, dir_mask := "d%d/w%d".toList }
    _ rfl).2
  revert hsame
  decide

end sai3_bench.directory_tree
