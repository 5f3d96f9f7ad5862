-- The tree of directories of a prepare phase (directory_tree.rs), and the
-- manifest that gives each file of the tree a number and each agent its part.
import Sai3Bench.Texts

namespace sai3_bench.directory_tree

open texts

/-- A path or an address, character by character. -/
abbrev Path := List Char

/-! ## The tree -/

structure DirectoryStructureConfig where
  width : Nat
  depth : Nat
  files_per_dir : Nat := 0
  distribution : String := "bottom"
  dir_mask : Path := "sai3bench.d%d_w%d.dir".toList

structure DirectoryTree where
  config : DirectoryStructureConfig
  all_paths : List Path
  by_level : List (List Path)
  total_directories : Nat
  total_files : Nat

namespace DirectoryTree

def dir_name (config : DirectoryStructureConfig) (depth global_width_idx : Nat) : Path :=
  let local_width := (global_width_idx - 1) % config.width + 1
  let temp := replaceFirst "%d".toList (Nat.toDigits 10 depth) config.dir_mask
  replaceFirst "%d".toList (Nat.toDigits 10 local_width) temp

/-- The full path of a directory `below` levels under the first one. -/
def full_path (config : DirectoryStructureConfig) : Nat → Nat → Path
  | 0, global_width_idx => dir_name config 1 global_width_idx
  | below + 1, global_width_idx =>
    let parent_global_idx := (global_width_idx - 1) / config.width + 1
    full_path config below parent_global_idx ++
      '/' :: dir_name config (below + 2) global_width_idx

def level_paths (config : DirectoryStructureConfig) (below : Nat) : List Path :=
  (List.range (config.width ^ (below + 1))).map fun i => full_path config below (i + 1)

def new (config : DirectoryStructureConfig) : Except String DirectoryTree :=
  if config.width = 0 then .error "Directory width must be at least 1"
  else if config.depth = 0 then .error "Directory depth must be at least 1"
  else
    let by_level := (List.range config.depth).map (level_paths config)
    let total_directories :=
      ((List.range config.depth).map fun below => config.width ^ (below + 1)).sum
    let tree (total_files : Nat) : DirectoryTree :=
      { config := config
        all_paths := by_level.flatten
        by_level := by_level
        total_directories := total_directories
        total_files := total_files }
    if config.distribution = "bottom" then
      .ok (tree (config.width ^ config.depth * config.files_per_dir))
    else if config.distribution = "all" then .ok (tree (total_directories * config.files_per_dir))
    else .error s!"Invalid distribution strategy: '{config.distribution}'. Must be 'bottom' or 'all'"

end DirectoryTree

/-! ## The manifest -/

/-- `file_ranges` has the numbers of the files in each directory that has files. -/
structure TreeManifest where
  all_directories : List Path
  by_level : List (List Path) := []
  agent_assignments : Nat → List Path := fun _ => []
  total_dirs : Nat := 0
  total_files : Nat := 0
  files_per_dir : Nat := 0
  distribution : String := "bottom"
  file_ranges : List (Path × Nat × Nat) := []
  max_depth : Nat := 0
  leaf_start_index : Nat := 0

namespace TreeManifest

/-- The directory is to have files. Its depth is read off its path. -/
def should_have_files (m : TreeManifest) (dir_path : Path) : Bool :=
  if m.distribution = "bottom" then decide (dir_path.count '/' + 1 = m.by_level.length)
  else m.distribution = "all"

/-- The ranges of the directories, from a first number on, and the number after them. -/
def rangesFrom (m : TreeManifest) : Nat → List Path → List (Path × Nat × Nat) × Nat
  | global_idx, [] => ([], global_idx)
  | global_idx, dir_path :: dirs =>
    if m.should_have_files dir_path && decide (0 < m.files_per_dir) then
      let (ranges, last) := m.rangesFrom (global_idx + m.files_per_dir) dirs
      ((dir_path, global_idx, global_idx + m.files_per_dir) :: ranges, last)
    else m.rangesFrom global_idx dirs

def compute_file_ranges (m : TreeManifest) : TreeManifest :=
  if m.by_level.isEmpty then { m with file_ranges := [] }
  else
    let (ranges, last) := m.rangesFrom 0 m.all_directories
    { m with file_ranges := ranges, total_files := last }

def from_tree (tree : DirectoryTree) : TreeManifest :=
  let m : TreeManifest :=
    { all_directories := tree.all_paths
      by_level := tree.by_level
      total_dirs := tree.total_directories
      total_files := tree.total_files
      files_per_dir := tree.config.files_per_dir
      distribution := tree.config.distribution }
  let m := m.compute_file_ranges
  { m with
    max_depth := m.by_level.length
    leaf_start_index := ((m.by_level.take (m.by_level.length - 1)).map List.length).sum }

/-- The directories go to the agents in turn. -/
def assign_agents (m : TreeManifest) (num_agents : Nat) : TreeManifest :=
  if num_agents = 0 then m
  else { m with agent_assignments := fun agent_id =>
    (m.all_directories.zipIdx.filter fun d => d.2 % num_agents = agent_id).map (·.1) }

def get_agent_dirs (m : TreeManifest) (agent_id : Nat) : List Path := m.agent_assignments agent_id

def get_file_name (global_idx : Nat) : Path :=
  "file_".toList ++ padded 10 8 global_idx ++ ".dat".toList

def dir_index (m : TreeManifest) (global_idx : Nat) : Option Nat :=
  if m.distribution = "bottom" then some (m.leaf_start_index + global_idx / m.files_per_dir)
  else if m.distribution = "all" then some (global_idx / m.files_per_dir)
  else none

def get_file_path (m : TreeManifest) (global_idx : Nat) : Option Path :=
  if m.files_per_dir = 0 ∨ m.total_files ≤ global_idx then none
  else (m.dir_index global_idx).bind fun k =>
    m.all_directories[k]?.map fun dir_path => dir_path ++ '/' :: get_file_name global_idx

/-! ## The files of a manifest -/

theorem slash_not_mem_file_name (i : Nat) : '/' ∉ get_file_name i := by
  unfold get_file_name
  have hdigits : '/' ∉ padded 10 8 i := not_mem_padded rfl
  rw [List.mem_append, List.mem_append]
  rintro ((h | h) | h)
  · revert h
    decide
  · exact hdigits h
  · revert h
    decide

theorem get_file_name_injective {i j : Nat} (h : get_file_name i = get_file_name j) : i = j := by
  unfold get_file_name at h
  rw [List.append_cancel_right_eq, List.append_cancel_left_eq] at h
  exact padded_injective h

theorem get_file_path_eq {m : TreeManifest} {i : Nat} {p : Path} (h : m.get_file_path i = some p) :
    ∃ dir_path, p = dir_path ++ '/' :: get_file_name i := by
  unfold get_file_path at h
  split at h
  · cases h
  · obtain ⟨k, _, h⟩ := Option.bind_eq_some_iff.mp h
    obtain ⟨dir_path, _, rfl⟩ := Option.map_eq_some_iff.mp h
    exact ⟨dir_path, rfl⟩

/-- A path is that of one file. -/
theorem get_file_path_injective {m : TreeManifest} {i j : Nat} {p : Path}
    (hi : m.get_file_path i = some p) (hj : m.get_file_path j = some p) : i = j := by
  obtain ⟨d, rfl⟩ := get_file_path_eq hi
  obtain ⟨d', h⟩ := get_file_path_eq hj
  have hname := congrArg (lastPart '/') h
  rw [lastPart_append (slash_not_mem_file_name i), lastPart_append (slash_not_mem_file_name j)]
    at hname
  exact get_file_name_injective hname

end TreeManifest

/-- The manifest that each of `num_agents` agents makes. -/
def create_tree_manifest_only (config : DirectoryStructureConfig) (num_agents : Nat) :
    Except String TreeManifest :=
  (DirectoryTree.new config).map fun tree => (TreeManifest.from_tree tree).assign_agents num_agents

end sai3_bench.directory_tree
