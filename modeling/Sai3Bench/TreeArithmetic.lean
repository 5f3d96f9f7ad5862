-- The arithmetic of a tree (directory_tree.rs): powers, sums and products that are made
-- without a check, and when they are those of unbounded numbers.
import Sai3Bench.TreeTotals

namespace sai3_bench.directory_tree

open DirectoryTree TreeManifest
open serde (bind_ok)

/-! ## The constructor -/

/-- What a result that does not fit does: a debug build panics, a release build wraps. -/
inductive Profile
  | debug
  | release
deriving DecidableEq, Repr

/-- The result as a usize; none is a panic. -/
def fit (profile : Profile) (n : Nat) : Option Nat :=
  if n < 2 ^ 64 then some n
  else match profile with
    | .debug => none
    | .release => some (n % 2 ^ 64)

/-- `width.pow(level as u32)`: the cast keeps the low 32 bits in every build. -/
def level_size (profile : Profile) (width level : Nat) : Option Nat :=
  fit profile (width ^ (level % 2 ^ 32))

def sum_levels (profile : Profile) (width : Nat) : List Nat → Nat → Option Nat
  | [], total_directories => some total_directories
  | level :: levels, total_directories => do
    let dirs_at_level ← level_size profile width level
    let total_directories ← fit profile (total_directories + dirs_at_level)
    sum_levels profile width levels total_directories

structure Totals where
  level_sizes : List Nat
  total_directories : Nat
  total_files : Nat
deriving DecidableEq, Repr

/-- The progress reports are left out: they change nothing in the tree. -/
def generate (profile : Profile) (config : DirectoryStructureConfig) :
    Option (Except String Totals) := do
  let levels := List.range' 1 config.depth
  let total_directories ← sum_levels profile config.width levels 0
  let level_sizes ← levels.mapM (level_size profile config.width)
  if config.distribution = "bottom" then
    let leaf_dirs ← level_size profile config.width config.depth
    let total_files ← fit profile (leaf_dirs * config.files_per_dir)
    return .ok ⟨level_sizes, total_directories, total_files⟩
  else if config.distribution = "all" then
    let total_files ← fit profile (total_directories * config.files_per_dir)
    return .ok ⟨level_sizes, total_directories, total_files⟩
  else
    return .error s!"Invalid distribution strategy: '{config.distribution}'. Must be 'bottom' or 'all'"

def new_with_progress (profile : Profile) (config : DirectoryStructureConfig) :
    Option (Except String Totals) :=
  if config.width = 0 then some (.error "Directory width must be at least 1")
  else if config.depth = 0 then some (.error "Directory depth must be at least 1")
  else generate profile config

/-- The ranges of the directories with each end as a usize. -/
def fitted_ranges (profile : Profile) (m : TreeManifest) :
    Nat → List Path → Option (List (Path × Nat × Nat) × Nat)
  | global_idx, [] => some ([], global_idx)
  | global_idx, dir_path :: dirs =>
    if m.should_have_files dir_path && decide (0 < m.files_per_dir) then do
      let end_idx ← fit profile (global_idx + m.files_per_dir)
      let (ranges, last) ← fitted_ranges profile m end_idx dirs
      return ((dir_path, global_idx, end_idx) :: ranges, last)
    else fitted_ranges profile m global_idx dirs

/-! ## Overflows -/

/-- The constructor returns an error, or each number of a level fits u32, the sizes of
the levels and the totals are those of the tree of unbounded numbers, and so are the
ranges of its manifest. -/
def NeverOverflows (profile : Profile) (config : DirectoryStructureConfig) : Prop :=
  (∃ e, new_with_progress profile config = some (.error e)) ∨
    (∀ level, 1 ≤ level → level ≤ config.depth → level < 2 ^ 32) ∧
    ∃ tree, DirectoryTree.new config = .ok tree ∧
      new_with_progress profile config =
        some (.ok ⟨tree.by_level.map List.length, tree.total_directories, tree.total_files⟩) ∧
      fitted_ranges profile (from_tree tree) 0 (from_tree tree).all_directories =
        some ((from_tree tree).rangesFrom 0 (from_tree tree).all_directories)

/-- The number of directories. -/
def directories (config : DirectoryStructureConfig) : Nat :=
  if config.width = 1 then config.depth
  else config.width * (config.width ^ config.depth - 1) / (config.width - 1)

/-- The number of directories that have files. -/
def directories_with_files (config : DirectoryStructureConfig) : Nat :=
  if config.distribution = "bottom" then config.width ^ config.depth else directories config

section

variable {profile : Profile} {config : DirectoryStructureConfig} {m : TreeManifest} {n : Nat}

theorem fit_of_lt (h : n < 2 ^ 64) : fit profile n = some n := if_pos h

theorem fit_lt {k : Nat} (h : fit profile n = some k) : k < 2 ^ 64 := by
  unfold fit at h
  split at h
  · rename_i hlt
    cases h
    exact hlt
  · cases profile with
    | debug => cases h
    | release =>
      cases h
      exact Nat.mod_lt _ (Nat.two_pow_pos 64)

/-- The sum of the powers, without a division. -/
theorem mul_offset {v : Nat} (hw : config.width = v + 1) (depth : Nat) :
    v * offset config depth + config.width = config.width ^ (depth + 1) := by
  induction depth with
  | zero =>
    unfold offset
    simp
  | succ depth ih =>
    rw [offset_succ, Nat.mul_add, Nat.add_right_comm, ih, hw, Nat.pow_succ (v + 1) (depth + 1)]
    rw [Nat.mul_succ, Nat.add_comm, Nat.mul_comm v]

theorem directories_eq (hw : 1 ≤ config.width) :
    directories config = offset config config.depth := by
  unfold directories
  split
  · rename_i hone
    unfold offset
    simp [hone]
  · rename_i hmore
    obtain ⟨v, hv⟩ := Nat.exists_eq_add_of_le' hw
    have hsum := mul_offset hv config.depth
    have hpow : config.width * (config.width ^ config.depth - 1) =
        v * offset config config.depth := by
      rw [Nat.mul_sub, Nat.mul_one, Nat.mul_comm, ← Nat.pow_succ, ← hsum, Nat.add_sub_cancel]
    have hless : config.width - 1 = v := by omega
    rw [hpow, hless, Nat.mul_div_cancel_left _ (by omega)]

/-! ### The levels -/

theorem level_size_eq {level : Nat} (hlevel : level < 2 ^ 32) (h : config.width ^ level < 2 ^ 64) :
    level_size profile config.width level = some (config.width ^ level) := by
  unfold level_size
  rw [Nat.mod_eq_of_lt hlevel, fit_of_lt h]

theorem pow_le_offset (below : Nat) : config.width ^ (below + 1) ≤ offset config (below + 1) := by
  rw [offset_succ]
  exact Nat.le_add_left _ _

theorem sum_levels_eq {below left : Nat} (hdepth : below + left < 2 ^ 32)
    (hfits : offset config (below + left) < 2 ^ 64) :
    sum_levels profile config.width (List.range' (below + 1) left) (offset config below) =
      some (offset config (below + left)) := by
  induction left generalizing below with
  | zero => rfl
  | succ left ih =>
    have hnext : below + (left + 1) = below + 1 + left := by omega
    rw [hnext] at hdepth hfits ⊢
    have htotal := (offset_mono config (Nat.le_add_right (below + 1) left)).trans_lt hfits
    have hlevel := @level_size_eq profile config _ (show below + 1 < 2 ^ 32 by omega)
      ((pow_le_offset below).trans_lt htotal)
    rw [List.range'_succ]
    unfold sum_levels
    rw [hlevel, Option.bind_eq_bind, Option.bind_some, ← offset_succ, fit_of_lt htotal,
      Option.bind_some]
    exact ih hdepth hfits

theorem sum_levels_lt {levels : List Nat} {total_directories : Nat}
    (hlt : total_directories < 2 ^ 64)
    (h : sum_levels profile config.width levels total_directories = some n) : n < 2 ^ 64 := by
  induction levels generalizing total_directories with
  | nil =>
    cases h
    exact hlt
  | cons level levels ih =>
    unfold sum_levels at h
    obtain ⟨dirs_at_level, _, h⟩ := Option.bind_eq_some_iff.mp h
    obtain ⟨total, htotal, h⟩ := Option.bind_eq_some_iff.mp h
    exact ih (fit_lt htotal) h

theorem level_sizes_eq (hdepth : config.depth < 2 ^ 32)
    (hfits : offset config config.depth < 2 ^ 64) :
    (List.range' 1 config.depth).mapM (level_size profile config.width) =
      some ((List.range config.depth).map fun below => config.width ^ (below + 1)) := by
  have hmap : ∀ levels : List Nat, (∀ level ∈ levels, 1 ≤ level ∧ level ≤ config.depth) →
      levels.mapM (level_size profile config.width) =
        some (levels.map fun level => config.width ^ level) := by
    intro levels hlevels
    induction levels with
    | nil => rfl
    | cons level levels ih =>
      rw [List.forall_mem_cons] at hlevels
      obtain ⟨⟨hone, hle⟩, hrest⟩ := hlevels
      obtain ⟨below, rfl⟩ := Nat.exists_eq_add_of_le' hone
      have hsize := (pow_le_offset below).trans_lt ((offset_mono config hle).trans_lt hfits)
      rw [List.mapM_cons, level_size_eq (by omega) hsize, ih hrest]
      rfl
  rw [hmap _ fun level hlevel => ?_, List.range'_eq_map_range, List.map_map]
  · refine congrArg some (List.map_congr_left fun below _ => ?_)
    rw [Function.comp_apply, Nat.add_comm]
  · rw [List.mem_range'_1] at hlevel
    omega

/-! ### The checked totals -/

theorem checked_mul_ok {message : String} {a b n : Nat} :
    validation.ok_or message (validation.checked_mul a b) = .ok n ↔ a * b = n ∧ n < 2 ^ 64 := by
  rw [validation.ok_or_ok]
  unfold validation.checked_mul prepare.u64
  split
  · rename_i hlt
    rw [Option.some.injEq]
    exact ⟨fun h => ⟨h, h ▸ hlt⟩, And.left⟩
  · rename_i hle
    exact ⟨nofun, fun h => absurd (h.1 ▸ h.2) hle⟩

theorem checked_add_ok {message : String} {a b n : Nat} :
    validation.ok_or message (validation.checked_add a b) = .ok n ↔ a + b = n ∧ n < 2 ^ 64 := by
  rw [validation.ok_or_ok]
  unfold validation.checked_add prepare.u64
  split
  · rename_i hlt
    rw [Option.some.injEq]
    exact ⟨fun h => ⟨h, h ▸ hlt⟩, And.left⟩
  · rename_i hle
    exact ⟨nofun, fun h => absurd (h.1 ▸ h.2) hle⟩

theorem levels_from_iff {below left : Nat} (hstart : offset config below < 2 ^ 64) :
    validation.levels_from config.width left (offset config below) (config.width ^ below) =
        .ok (offset config (below + left), config.width ^ (below + left)) ↔
      offset config (below + left) < 2 ^ 64 := by
  induction left generalizing below with
  | zero => exact iff_of_true rfl hstart
  | succ left ih =>
    have hnext : below + (left + 1) = below + 1 + left := by omega
    rw [hnext]
    unfold validation.levels_from
    constructor
    · intro h
      obtain ⟨dirs_at_level, hmul, h⟩ := bind_ok.mp h
      obtain ⟨total_dirs, hadd, h⟩ := bind_ok.mp h
      obtain ⟨rfl, _⟩ := checked_mul_ok.mp hmul
      obtain ⟨rfl, hlt⟩ := checked_add_ok.mp hadd
      rw [← pow_succ, ← offset_succ] at h hlt
      exact (ih hlt).mp h
    · intro hlt
      have hle := (offset_mono config (Nat.le_add_right (below + 1) left)).trans_lt hlt
      refine bind_ok.mpr ⟨config.width ^ (below + 1),
        checked_mul_ok.mpr ⟨(pow_succ _ _).symm, (pow_le_offset below).trans_lt hle⟩, ?_⟩
      refine bind_ok.mpr ⟨offset config (below + 1),
        checked_add_ok.mpr ⟨(offset_succ below).symm, hle⟩, ?_⟩
      exact (ih hle).mpr hlt

theorem files_of_iff (hdist : config.distribution = "bottom" ∨ config.distribution = "all") :
    (∃ total_files, validation.files_of config (offset config config.depth)
      (config.width ^ config.depth) = .ok total_files) ↔
      (if config.distribution = "bottom" then config.width ^ config.depth
        else offset config config.depth) * config.files_per_dir < 2 ^ 64 := by
  unfold validation.files_of
  split
  · constructor
    · rintro ⟨total_files, h⟩
      obtain ⟨rfl, hlt⟩ := checked_mul_ok.mp h
      exact hlt
    · exact fun hlt => ⟨_, checked_mul_ok.mpr ⟨rfl, hlt⟩⟩
  · rename_i hbottom
    rw [if_pos (hdist.resolve_left hbottom)]
    constructor
    · rintro ⟨total_files, h⟩
      obtain ⟨rfl, hlt⟩ := checked_mul_ok.mp h
      exact hlt
    · exact fun hlt => ⟨_, checked_mul_ok.mpr ⟨rfl, hlt⟩⟩

/-- The totals of a validated configuration are checked for just this, whatever the depth. -/
theorem estimate_iff (hw : 1 ≤ config.width) (hd : 1 ≤ config.depth)
    (hdist : config.distribution = "bottom" ∨ config.distribution = "all") :
    (∃ totals, validation.estimate_directory_tree_totals config = .ok totals) ↔
      directories config < 2 ^ 64 ∧
        directories_with_files config * config.files_per_dir < 2 ^ 64 := by
  have hlevels := @levels_from_iff config 0 config.depth (Nat.two_pow_pos 64)
  rw [Nat.zero_add] at hlevels
  unfold directories_with_files
  rw [directories_eq hw, ← files_of_iff hdist, ← hlevels]
  unfold validation.estimate_directory_tree_totals
  rw [if_neg (by omega), if_neg (by omega)]
  constructor
  · rintro ⟨totals, h⟩
    obtain ⟨levels, hfrom, h⟩ := bind_ok.mp h
    obtain ⟨total_files, hfiles, _⟩ := bind_ok.mp h
    have hvalue := @validation.levels_from_ok config config.depth 0 levels hfrom
    rw [Nat.zero_add] at hvalue
    rw [hvalue] at hfrom hfiles
    exact ⟨hfrom, total_files, hfiles⟩
  · rintro ⟨hfrom, total_files, hfiles⟩
    exact ⟨_, bind_ok.mpr ⟨_, hfrom, bind_ok.mpr ⟨total_files, hfiles, rfl⟩⟩⟩

/-! ### The ranges -/

theorem le_rangesFrom (global_idx : Nat) (dirs : List Path) :
    global_idx ≤ (m.rangesFrom global_idx dirs).2 := by
  induction dirs generalizing global_idx with
  | nil => exact Nat.le_refl _
  | cons dir_path dirs ih =>
    unfold rangesFrom
    split
    · exact (Nat.le_add_right _ _).trans (ih _)
    · exact ih _

theorem fitted_ranges_eq {global_idx : Nat} {dirs : List Path}
    (h : (m.rangesFrom global_idx dirs).2 < 2 ^ 64) :
    fitted_ranges profile m global_idx dirs = some (m.rangesFrom global_idx dirs) := by
  induction dirs generalizing global_idx with
  | nil => rfl
  | cons dir_path dirs ih =>
    unfold rangesFrom at h ⊢
    unfold fitted_ranges
    split
    · rename_i hfiles
      rw [if_pos hfiles] at h
      have hend := (le_rangesFrom (global_idx + m.files_per_dir) dirs).trans_lt h
      rw [fit_of_lt hend, Option.bind_eq_bind, Option.bind_some, ih h]
      rfl
    · rename_i hnone
      rw [if_neg hnone] at h
      exact ih h

/-- The directories with files are not more than those of the last level, or than all. -/
theorem length_file_dirs_le (hm : m.Describes config) (hw : 1 ≤ config.width)
    (hd : 1 ≤ config.depth) (hdist : config.distribution = "bottom" ∨ config.distribution = "all") :
    m.file_dirs.length ≤ directories_with_files config := by
  unfold directories_with_files
  split
  · rename_i hbottom
    by_cases hlevel : config.dir_mask.count '/' + 1 ∣ config.depth
    · obtain ⟨levels, hlevels⟩ := hlevel
      cases levels with
      | zero =>
        rw [Nat.mul_zero] at hlevels
        omega
      | succ below =>
        rw [Nat.mul_comm] at hlevels
        rw [file_dirs_level hm hbottom hlevels.symm, length_level_paths]
        refine Nat.pow_le_pow_right hw ?_
        rw [hlevels]
        exact Nat.le_mul_of_pos_right _ (Nat.succ_pos _)
    · rw [file_dirs_none hm hbottom hlevel]
      exact Nat.zero_le _
  · rename_i hall
    rw [file_dirs_all hm (hdist.resolve_left hall), length_paths, directories_eq hw]

/-! ### The constructor -/

/-- What the constructor returns fits. -/
theorem generate_fits {result : Except String Totals}
    (hdist : config.distribution = "bottom" ∨ config.distribution = "all")
    (h : generate profile config = some result) :
    ∃ totals, result = .ok totals ∧ totals.total_directories < 2 ^ 64 ∧
      totals.total_files < 2 ^ 64 := by
  unfold generate at h
  obtain ⟨total_directories, htotal, h⟩ := Option.bind_eq_some_iff.mp h
  obtain ⟨level_sizes, _, h⟩ := Option.bind_eq_some_iff.mp h
  have hdirs := sum_levels_lt (by decide) htotal
  split at h
  · obtain ⟨leaf_dirs, _, h⟩ := Option.bind_eq_some_iff.mp h
    obtain ⟨total_files, hfiles, h⟩ := Option.bind_eq_some_iff.mp h
    cases h
    exact ⟨_, rfl, hdirs, fit_lt hfiles⟩
  · rename_i hbottom
    rw [if_pos (hdist.resolve_left hbottom)] at h
    obtain ⟨total_files, hfiles, h⟩ := Option.bind_eq_some_iff.mp h
    cases h
    exact ⟨_, rfl, hdirs, fit_lt hfiles⟩

theorem new_exists (hw : 1 ≤ config.width) (hd : 1 ≤ config.depth)
    (hdist : config.distribution = "bottom" ∨ config.distribution = "all") :
    ∃ tree, DirectoryTree.new config = .ok tree := by
  unfold DirectoryTree.new
  rw [if_neg (by omega), if_neg (by omega)]
  dsimp only
  split
  · exact ⟨_, rfl⟩
  · rename_i hbottom
    rw [if_pos (hdist.resolve_left hbottom)]
    exact ⟨_, rfl⟩

/-- The totals of the tree of unbounded numbers. -/
theorem totals_of_new {tree : DirectoryTree} (h : DirectoryTree.new config = .ok tree) :
    tree.by_level.map List.length =
        (List.range config.depth).map (fun below => config.width ^ (below + 1)) ∧
      tree.total_directories = directories config ∧
      tree.total_files = directories_with_files config * config.files_per_dir := by
  obtain ⟨hw, hd, rfl, hlevels, _, htotal⟩ := new_ok h
  refine ⟨?_, ?_, ?_⟩
  · rw [hlevels, List.map_map]
    exact List.map_congr_left fun below _ => length_level_paths below
  · rw [validation.total_directories_of_new h, directories_eq hw]
  · unfold directories_with_files
    rcases htotal with ⟨hdist, htotal⟩ | ⟨hdist, htotal⟩
    · rw [if_pos hdist, htotal]
    · rw [if_neg (by rw [hdist]; decide), htotal, directories_eq hw]
      rfl

theorem generate_eq (hw : 1 ≤ config.width) (hd : 1 ≤ config.depth)
    (hdist : config.distribution = "bottom" ∨ config.distribution = "all")
    (hdepth : config.depth < 2 ^ 32) (hdirs : directories config < 2 ^ 64)
    (hfiles : directories_with_files config * config.files_per_dir < 2 ^ 64) :
    generate profile config = some (.ok
      ⟨(List.range config.depth).map fun below => config.width ^ (below + 1), directories config,
        directories_with_files config * config.files_per_dir⟩) := by
  rw [directories_eq hw] at hdirs
  have hsum := @sum_levels_eq profile config 0 config.depth (by omega) (by rwa [Nat.zero_add])
  rw [Nat.zero_add, Nat.zero_add] at hsum
  have hzero : offset config 0 = 0 := rfl
  rw [hzero] at hsum
  unfold generate
  dsimp only
  rw [hsum, level_sizes_eq hdepth hdirs]
  unfold directories_with_files at hfiles ⊢
  by_cases hbottom : config.distribution = "bottom"
  · rw [if_pos hbottom] at hfiles ⊢
    obtain ⟨below, hbelow⟩ := Nat.exists_eq_add_of_le' hd
    have hleaf : config.width ^ config.depth < 2 ^ 64 := by
      rw [hbelow] at hdirs ⊢
      exact (pow_le_offset below).trans_lt hdirs
    simp only [Option.bind_eq_bind, Option.bind_some, if_pos hbottom,
      level_size_eq hdepth hleaf, fit_of_lt hfiles, directories_eq hw]
    rfl
  · rw [if_neg hbottom] at hfiles ⊢
    rw [directories_eq hw] at hfiles ⊢
    simp only [Option.bind_eq_bind, Option.bind_some, if_neg hbottom,
      if_pos (hdist.resolve_left hbottom), fit_of_lt hfiles]
    rfl

/-- In every build the arithmetic is right if and only if the number of the last level
fits u32 and the numbers of directories and of files fit usize. -/
theorem never_overflows_iff {profile : Profile} {config : DirectoryStructureConfig}
    (hw : 1 ≤ config.width) (hd : 1 ≤ config.depth)
    (hdist : config.distribution = "bottom" ∨ config.distribution = "all") :
    NeverOverflows profile config ↔ config.depth < 2 ^ 32 ∧ directories config < 2 ^ 64 ∧
      directories_with_files config * config.files_per_dir < 2 ^ 64 := by
  have hnew_eq : new_with_progress profile config = generate profile config := by
    unfold new_with_progress
    rw [if_neg (by omega), if_neg (by omega)]
  unfold NeverOverflows
  rw [hnew_eq]
  constructor
  · rintro (⟨e, herror⟩ | ⟨hlevels, tree, htree, hnew, _⟩)
    · obtain ⟨totals, hok, _⟩ := generate_fits hdist herror
      cases hok
    · obtain ⟨totals, hok, hdirs, hfiles⟩ := generate_fits hdist hnew
      cases hok
      obtain ⟨_, hdirs_eq, hfiles_eq⟩ := totals_of_new htree
      rw [hdirs_eq] at hdirs
      rw [hfiles_eq] at hfiles
      exact ⟨hlevels config.depth hd (Nat.le_refl _), hdirs, hfiles⟩
  · rintro ⟨hdepth, hdirs, hfiles⟩
    obtain ⟨tree, htree⟩ := new_exists hw hd hdist
    obtain ⟨hlevels, hdirs_eq, hfiles_eq⟩ := totals_of_new htree
    have hm := describes_from_tree htree
    refine .inr ⟨fun level _ hle => by omega, tree, htree, ?_, fitted_ranges_eq ?_⟩
    · rw [hlevels, hdirs_eq, hfiles_eq]
      exact generate_eq hw hd hdist hdepth hdirs hfiles
    · have hlength := length_file_dirs_le hm hw hd hdist
      rcases Nat.eq_zero_or_pos (from_tree tree).files_per_dir with hnone | hsome
      · rw [rangesFrom_zero hnone]
        decide
      · rw [rangesFrom_first hsome, hm.files_per_dir]
        exact (Nat.mul_le_mul_right _ hlength).trans_lt hfiles

theorem never_overflows_two_levels :
    NeverOverflows .debug { width := 2, depth := 2, files_per_dir := 3 } :=
  (never_overflows_iff (by decide) (by decide) (.inl rfl)).mpr
    ⟨by decide, by decide, by decide⟩

/-- Two directories with 2^63 files each: a debug build panics, and a release build
makes a tree without files. -/
theorem overflows_large_directories : ¬∃ profile, ∀ config : DirectoryStructureConfig,
    1 ≤ config.width → 1 ≤ config.depth →
    config.distribution = "bottom" ∨ config.distribution = "all" →
    NeverOverflows profile config := by
  rintro ⟨profile, h⟩
  have hnever := h { width := 2, depth := 1, files_per_dir := 2 ^ 63 } (by decide) (by decide)
    (.inl rfl)
  cases profile with
  | debug =>
    have hpanic : new_with_progress .debug { width := 2, depth := 1, files_per_dir := 2 ^ 63 } =
        none := rfl
    rcases hnever with ⟨e, herror⟩ | ⟨_, tree, _, hnew, _⟩
    · rw [hpanic] at herror
      cases herror
    · rw [hpanic] at hnew
      cases hnew
  | release =>
    have hwraps : new_with_progress .release { width := 2, depth := 1, files_per_dir := 2 ^ 63 } =
        some (.ok ⟨[2], 2, 0⟩) := rfl
    rcases hnever with ⟨e, herror⟩ | ⟨_, tree, htree, hnew, _⟩
    · rw [hwraps] at herror
      cases herror
    · rw [hwraps] at hnew
      have hfiles := congrArg (fun result => result.map (·.map Totals.total_files)) hnew
      cases htree
      cases hfiles

end

end sai3_bench.directory_tree
