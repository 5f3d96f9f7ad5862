-- How large a tree is to be (validation.rs): the totals that are reckoned before
-- the tree is made, and the counts that they set in a prepare phase.
import Sai3Bench.FilePlacements
import Sai3Bench.PrepareTurns
import Sai3Bench.Serde

namespace sai3_bench.validation

open directory_tree DirectoryTree TreeManifest
open serde (bind_ok mem_mapM_ok)

/-! ## The code -/

def checked_mul (a b : Nat) : Option Nat := if a * b < prepare.u64 then some (a * b) else none

def checked_add (a b : Nat) : Option Nat := if a + b < prepare.u64 then some (a + b) else none

/-- An overflow is an error. -/
def ok_or (message : String) : Option Nat → Except String Nat
  | some n => .ok n
  | none => .error message

/-- The levels that are left, with the directories so far and those of the last level. -/
def levels_from (width : Nat) : Nat → Nat → Nat → Except String (Nat × Nat)
  | 0, total_dirs, dirs_at_level => .ok (total_dirs, dirs_at_level)
  | left + 1, total_dirs, dirs_at_level => do
    let dirs_at_level ← ok_or "Directory tree size overflow (width/depth too large)"
      (checked_mul dirs_at_level width)
    let total_dirs ← ok_or "Directory tree size overflow (too many directories)"
      (checked_add total_dirs dirs_at_level)
    levels_from width left total_dirs dirs_at_level

def files_of (dir_config : DirectoryStructureConfig) (total_dirs dirs_at_level : Nat) :
    Except String Nat :=
  if dir_config.distribution = "bottom" then
    ok_or "Directory tree size overflow (too many files)"
      (checked_mul dirs_at_level dir_config.files_per_dir)
  else if dir_config.distribution = "all" then
    ok_or "Directory tree size overflow (too many files)"
      (checked_mul total_dirs dir_config.files_per_dir)
  else
    .error s!"Invalid distribution strategy: '{dir_config.distribution}'. Must be 'bottom' or 'all'"

def estimate_directory_tree_totals (dir_config : DirectoryStructureConfig) :
    Except String (Nat × Nat) :=
  if dir_config.width = 0 then .error "Directory width must be at least 1"
  else if dir_config.depth = 0 then .error "Directory depth must be at least 1"
  else do
    let (total_dirs, dirs_at_level) ← levels_from dir_config.width dir_config.depth 0 1
    let total_files ← files_of dir_config total_dirs dirs_at_level
    pure (total_dirs, total_files)

/-- A prepare phase with the tree that it is to make. -/
structure PrepareConfig extends prepare.PrepareConfig where
  directory_structure : Option DirectoryStructureConfig := none

structure Config where
  prepare : Option PrepareConfig := none

/-- A count of zero is to be set; any other one is to be the number of files. -/
def set_count (total_files : Nat) (spec : prepare.EnsureSpec) : Except String prepare.EnsureSpec :=
  if spec.count = 0 then .ok { spec with count := total_files }
  else if spec.count = total_files then .ok spec
  else .error s!"ensure_objects.count ({spec.count}) does not match directory tree total files ({total_files}). Set count to {total_files} or 0 to auto-calculate"

def apply_directory_tree_counts (config : Config) : Except String Config :=
  match config.prepare with
  | none => .ok config
  | some phase =>
    match phase.directory_structure with
    | none => .ok config
    | some dir_config => do
      let totals ← estimate_directory_tree_totals dir_config
      if phase.ensure_objects.isEmpty then
        .error "directory_structure requires at least one ensure_objects entry"
      else
        let ensure_objects ← phase.ensure_objects.mapM (set_count totals.2)
        pure { config with prepare := some { phase with ensure_objects := ensure_objects } }

/-! ## The three totals -/

variable {config : DirectoryStructureConfig} {tree : DirectoryTree}

theorem ok_or_ok {message : String} {o : Option Nat} {n : Nat} :
    ok_or message o = .ok n ↔ o = some n := by
  cases o <;> simp [ok_or]

theorem checked_mul_some {a b n : Nat} (h : checked_mul a b = some n) : n = a * b := by
  unfold checked_mul at h
  split at h
  · exact (Option.some.inj h).symm
  · cases h

theorem checked_add_some {a b n : Nat} (h : checked_add a b = some n) : n = a + b := by
  unfold checked_add at h
  split at h
  · exact (Option.some.inj h).symm
  · cases h

/-- From a level on, the rest of the levels is added. -/
theorem levels_from_ok {left below : Nat} {totals : Nat × Nat}
    (h : levels_from config.width left (offset config below) (config.width ^ below) = .ok totals) :
    totals = (offset config (below + left), config.width ^ (below + left)) := by
  induction left generalizing below with
  | zero =>
    cases h
    rfl
  | succ left ih =>
    unfold levels_from at h
    obtain ⟨dirs_at_level, hmul, h⟩ := bind_ok.mp h
    obtain ⟨total_dirs, hadd, h⟩ := bind_ok.mp h
    rw [checked_mul_some (ok_or_ok.mp hmul), ← pow_succ] at hadd h
    rw [checked_add_some (ok_or_ok.mp hadd), ← offset_succ] at h
    rw [ih h, Nat.add_right_comm, Nat.add_assoc]

theorem estimate_ok {totals : Nat × Nat} (h : estimate_directory_tree_totals config = .ok totals) :
    totals.1 = offset config config.depth ∧
      (config.distribution = "bottom" ∧
          totals.2 = config.width ^ config.depth * config.files_per_dir ∨
        config.distribution = "all" ∧
          totals.2 = offset config config.depth * config.files_per_dir) := by
  unfold estimate_directory_tree_totals at h
  split at h
  · cases h
  split at h
  · cases h
  obtain ⟨levels, hlevels, h⟩ := bind_ok.mp h
  have htotals : levels = (offset config (0 + config.depth), config.width ^ (0 + config.depth)) :=
    levels_from_ok hlevels
  rw [Nat.zero_add] at htotals
  subst htotals
  obtain ⟨total_files, hfiles, h⟩ := bind_ok.mp h
  cases h
  refine ⟨rfl, ?_⟩
  unfold files_of at hfiles
  split at hfiles
  · rename_i hbottom
    exact .inl ⟨hbottom, checked_mul_some (ok_or_ok.mp hfiles)⟩
  split at hfiles
  · rename_i hall
    exact .inr ⟨hall, checked_mul_some (ok_or_ok.mp hfiles)⟩
  · cases hfiles

theorem total_directories_of_new (h : DirectoryTree.new config = .ok tree) :
    tree.total_directories = offset config config.depth := by
  unfold DirectoryTree.new at h
  split at h
  · cases h
  split at h
  · cases h
  split at h
  · cases h
    rfl
  split at h
  · cases h
    rfl
  · cases h

/-- The reckoned totals are those of the tree. -/
theorem totals_of_tree {totals : Nat × Nat}
    (he : estimate_directory_tree_totals config = .ok totals)
    (h : DirectoryTree.new config = .ok tree) :
    totals = (tree.total_directories, tree.total_files) ∧
      tree.all_paths.length = tree.total_directories := by
  obtain ⟨hdirs, hfiles⟩ := estimate_ok he
  obtain ⟨_, _, rfl, hlevels, hpaths, htotal⟩ := new_ok h
  have hall : tree.all_paths = paths tree.config tree.config.depth := by
    rw [hpaths, hlevels]
    rfl
  refine ⟨Prod.ext ?_ ?_, ?_⟩
  · rw [hdirs, total_directories_of_new h]
  · rcases hfiles with ⟨hdist, hfiles⟩ | ⟨hdist, hfiles⟩ <;>
      rcases htotal with ⟨hdist', htotal⟩ | ⟨hdist', htotal⟩
    · rw [hfiles, htotal]
    · rw [hdist] at hdist'
      exact absurd hdist' (by decide)
    · rw [hdist] at hdist'
      exact absurd hdist' (by decide)
    · rw [hfiles, htotal]
      rfl
  · rw [hall, length_paths, total_directories_of_new h]

/-! ## The counts that are set -/

theorem set_count_ok {n : Nat} {spec spec' : prepare.EnsureSpec}
    (h : set_count n spec = .ok spec') : spec'.count = n := by
  unfold set_count at h
  split at h
  · cases h
    rfl
  split at h
  · rename_i hcount
    cases h
    exact hcount
  · cases h

theorem set_counts_ok {n : Nat} {specs specs' : List prepare.EnsureSpec}
    (h : specs.mapM (set_count n) = .ok specs') : ∀ spec ∈ specs', spec.count = n := by
  intro spec' hspec'
  obtain ⟨spec, _, hspec⟩ := (mem_mapM_ok h).mp hspec'
  exact set_count_ok hspec

/-- Each entry of a phase with a tree gets the reckoned number of files. -/
theorem apply_ok {config config' : Config} {phase : PrepareConfig}
    {dir_config : DirectoryStructureConfig} {totals : Nat × Nat}
    (hphase : config.prepare = some phase) (hdir : phase.directory_structure = some dir_config)
    (he : estimate_directory_tree_totals dir_config = .ok totals)
    (h : apply_directory_tree_counts config = .ok config') :
    ∃ phase', config'.prepare = some phase' ∧
      ∀ spec ∈ phase'.ensure_objects, spec.count = totals.2 := by
  unfold apply_directory_tree_counts at h
  rw [hphase] at h
  dsimp only at h
  rw [hdir] at h
  dsimp only at h
  rw [he] at h
  obtain ⟨_, hok, h⟩ := bind_ok.mp h
  cases hok
  split at h
  · cases h
  · obtain ⟨specs, hspecs, h⟩ := bind_ok.mp h
    cases h
    exact ⟨_, rfl, set_counts_ok hspecs⟩

/-! ## The manifest -/

/-- The totals are those of the tree and of its list of directories, its manifest has as
many files, and each entry of a phase with the tree gets their number. -/
structure TotalsAgree (dir_config : DirectoryStructureConfig) (totals : Nat × Nat)
    (tree : DirectoryTree) : Prop where
  reckoned : totals = (tree.total_directories, tree.total_files)
  directories : totals.1 = tree.all_paths.length
  manifest : totals.2 = (from_tree tree).total_files
  counts : ∀ config config' phase, config.prepare = some phase →
    phase.directory_structure = some dir_config → apply_directory_tree_counts config = .ok config' →
      ∃ phase', config'.prepare = some phase' ∧
        ∀ spec ∈ phase'.ensure_objects, spec.count = (from_tree tree).total_files

/-- The directories with files are as many as the last level has: they are those of a
level, and a level of one width is as long as the last one. -/
theorem length_file_dirs_iff {m : TreeManifest} (h : m.Describes config) (hw : 0 < config.width)
    (hd : 0 < config.depth) (hdist : config.distribution = "bottom") :
    m.file_dirs.length = config.width ^ config.depth ↔ '/' ∉ config.dir_mask ∨
      config.width = 1 ∧ config.dir_mask.count '/' + 1 ∣ config.depth := by
  constructor
  · intro hlength
    by_cases hmask : '/' ∈ config.dir_mask
    · right
      by_cases hlevel : config.dir_mask.count '/' + 1 ∣ config.depth
      · refine ⟨?_, hlevel⟩
        obtain ⟨levels, hlevels⟩ := hlevel
        obtain ⟨below, rfl⟩ := Nat.exists_eq_succ_of_ne_zero
          (show levels ≠ 0 by rintro rfl; omega)
        rw [Nat.mul_comm] at hlevels
        rw [file_dirs_level h hdist hlevels.symm, length_level_paths] at hlength
        have hslash : 0 < config.dir_mask.count '/' := List.count_pos_iff.mpr hmask
        have hlt : below + 1 < config.depth := by
          rw [hlevels, Nat.succ_eq_add_one, Nat.mul_succ]
          exact Nat.lt_add_of_pos_left (Nat.mul_pos (Nat.succ_pos _) hslash)
        by_contra hone
        exact (Nat.pow_lt_pow_right (by omega) hlt).ne hlength
      · rw [file_dirs_none h hdist hlevel] at hlength
        exact absurd hlength (Nat.pow_pos hw).ne
    · exact .inl hmask
  · rintro (hmask | ⟨hone, levels, hlevels⟩)
    · rw [file_dirs_last h hd hdist hmask, length_level_paths, Nat.sub_add_cancel hd]
    · obtain ⟨below, rfl⟩ := Nat.exists_eq_succ_of_ne_zero
        (show levels ≠ 0 by rintro rfl; omega)
      rw [Nat.mul_comm] at hlevels
      rw [file_dirs_level h hdist hlevels.symm, length_level_paths, hone, one_pow, one_pow]

theorem manifest_total_iff (h : DirectoryTree.new config = .ok tree) :
    tree.total_files = (from_tree tree).total_files ↔ config.distribution = "all" ∨
      config.files_per_dir = 0 ∨ '/' ∉ config.dir_mask ∨
        config.width = 1 ∧ config.dir_mask.count '/' + 1 ∣ config.depth := by
  have hm := describes_from_tree h
  obtain ⟨hw, hd, _, _, _, htotal⟩ := new_ok h
  rw [hm.total_files, hm.files_per_dir]
  rcases htotal with ⟨hdist, htotal⟩ | ⟨hdist, htotal⟩
  · have hnotall : ¬ config.distribution = "all" := by
      rw [hdist]
      decide
    rw [htotal, mul_eq_mul_right_iff, ← length_file_dirs_iff hm hw hd hdist]
    simp only [hnotall, false_or]
    rw [or_comm, eq_comm (a := config.width ^ config.depth)]
  · simp only [hdist, true_or, iff_true]
    rw [htotal, file_dirs_all hm hdist, length_paths]
    rfl

theorem totals_agree_iff {totals : Nat × Nat}
    (he : estimate_directory_tree_totals config = .ok totals)
    (h : DirectoryTree.new config = .ok tree) :
    TotalsAgree config totals tree ↔ config.distribution = "all" ∨
      config.files_per_dir = 0 ∨ '/' ∉ config.dir_mask ∨
        config.width = 1 ∧ config.dir_mask.count '/' + 1 ∣ config.depth := by
  obtain ⟨htotals, hlength⟩ := totals_of_tree he h
  rw [← manifest_total_iff h]
  constructor
  · intro hagree
    rw [← hagree.manifest, htotals]
  · intro htotal
    have hfiles : totals.2 = (from_tree tree).total_files := by rw [htotals, htotal]
    refine ⟨htotals, by rw [htotals, hlength], hfiles, ?_⟩
    intro config config' phase hphase hdir happly
    obtain ⟨phase', hphase', hcounts⟩ := apply_ok hphase hdir he happly
    rw [hfiles] at hcounts
    exact ⟨phase', hphase', hcounts⟩

theorem totals_agree_two_levels : ∃ tree,
    TotalsAgree { width := 2, depth := 2, files_per_dir := 3 } (6, 12) tree :=
  ⟨_, (totals_agree_iff rfl rfl).mpr (.inr (.inr (.inl (by decide))))⟩

/-- A mask with a slash: the tree has four directories at the bottom, the manifest two with files. -/
theorem totals_disagree : ¬ ∀ config totals tree, estimate_directory_tree_totals config = .ok totals →
    DirectoryTree.new config = .ok tree → TotalsAgree config totals tree := by
  intro h
  have hagree := h { width := 2, depth := 2, files_per_dir := 1, dir_mask := "d%d/w%d".toList }
    _ _ rfl rfl
  exact absurd hagree.manifest (by decide)

end sai3_bench.validation
