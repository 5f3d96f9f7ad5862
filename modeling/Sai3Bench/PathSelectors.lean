-- Which paths of a tree a workload works on (prepare/directory_tree.rs,
-- workload.rs): the selector of a run, its draws, and what keeps two agents apart.
import Sai3Bench.ConfigTrips
import Sai3Bench.TreeShapes

namespace sai3_bench.directory_tree

def TreeManifest.get_file_range (m : TreeManifest) (dir_path : Path) : Option (Nat × Nat) :=
  (m.file_ranges.find? fun r => r.1 = dir_path).map (·.2)

end sai3_bench.directory_tree

namespace sai3_bench.prepare

open directory_tree DirectoryTree TreeManifest templates
open config.written (PathSelectionStrategy)

/-! ## The selector -/

/-- The draws of one selection: whether it is to stay with the agent's own directories,
and the places in the list of directories and in the range of files. -/
structure Draws where
  assigned : Bool
  dir : Nat
  file : Nat

/-- The overlap weighs the first of the draws. -/
structure PathSelector where
  manifest : TreeManifest
  agent_id : Nat
  num_agents : Nat
  strategy : PathSelectionStrategy
  partition_overlap : serde.F64

def pick (paths : List Path) (draw : Nat) : Path := paths.getD (draw % paths.length) []

namespace PathSelector

variable (s : PathSelector) (r : Draws)

def assigned : List Path := s.manifest.get_agent_dirs s.agent_id

def select_random : Path := pick s.manifest.all_directories r.dir

def select_partitioned : Path :=
  if r.assigned && !s.assigned.isEmpty then pick s.assigned r.dir else s.select_random r

def select_exclusive : Path :=
  if s.assigned.isEmpty then s.select_random r else pick s.assigned r.dir

def select_weighted : Path :=
  if r.assigned && !s.assigned.isEmpty then pick s.assigned r.dir
  else
    let other_dirs := s.manifest.all_directories.filter fun d => d ∉ s.assigned
    if other_dirs.isEmpty then s.select_exclusive r else pick other_dirs r.dir

def select_directory : Path :=
  if s.manifest.all_directories.isEmpty then "fallback_dir".toList
  else match s.strategy with
    | .Random => s.select_random r
    | .Partitioned => s.select_partitioned r
    | .Exclusive => s.select_exclusive r
    | .Weighted => s.select_weighted r

def dirs_with_files : List Path := s.manifest.file_ranges.map (·.1)

def assigned_with_files : List Path :=
  s.assigned.filter fun d => (s.manifest.get_file_range d).isSome

def select_directory_with_files : Path :=
  if s.dirs_with_files.isEmpty then s.select_directory r
  else match s.strategy with
    | .Random => pick s.dirs_with_files r.dir
    | .Exclusive =>
      if s.assigned_with_files.isEmpty then pick s.dirs_with_files r.dir
      else pick s.assigned_with_files r.dir
    | .Partitioned | .Weighted =>
      if r.assigned && !s.assigned_with_files.isEmpty then pick s.assigned_with_files r.dir
      else pick s.dirs_with_files r.dir

def fallback_file (dir : Path) : Path :=
  if dir.isEmpty then "fallback_file_00000.dat".toList
  else dir ++ "/fallback_file_00000.dat".toList

def select_file : Path :=
  let dir := s.select_directory_with_files r
  match s.manifest.get_file_range dir with
  | some (start_idx, end_idx) =>
    if start_idx < end_idx then
      (s.manifest.get_file_path (start_idx + r.file % (end_idx - start_idx))).getD (fallback_file dir)
    else fallback_file dir
  | none => fallback_file dir

end PathSelector

end sai3_bench.prepare

namespace sai3_bench.workload

open directory_tree DirectoryTree TreeManifest prepare templates
open config.written (Config OpSpec DistributedConfig)

/-! ## The selector of a run -/

/-- Each run takes itself for the first agent. -/
def path_selector (cfg : Config) (tree_manifest : Option TreeManifest) : Option PathSelector :=
  tree_manifest.map fun manifest =>
    match cfg.distributed with
    | some dist =>
      { manifest := manifest
        agent_id := 0
        num_agents := dist.agents.length
        strategy := dist.path_selection
        partition_overlap := dist.partition_overlap }
    | none =>
      { manifest := manifest
        agent_id := 0
        num_agents := 1
        strategy := .Random
        partition_overlap := config.written.default_partition_overlap }

/-- What an operation works on. -/
inductive Target
  | directory (path : Path)
  | file (path : Path)
deriving DecidableEq

/-- What is drawn for an operation of a workload on a tree: a file and the directory
that it is looked up in, a directory, or nothing. -/
def selected (s : PathSelector) (r : Draws) : OpSpec → List Target
  | .Get .. | .Put .. | .Stat .. | .Delete .. =>
    [.directory (s.select_directory_with_files r), .file (s.select_file r)]
  | .Mkdir .. | .Rmdir .. => [.directory (s.select_directory r)]
  | .List .. => []

/-- No two selections, whatever their operations and draws, have a path in common. -/
def Apart (s t : PathSelector) : Prop :=
  ∀ r r' op op', ∀ target ∈ selected s r op, target ∉ selected t r' op'

/-- The runs of any two of the agents are apart. -/
def Exclusive (manifest : TreeManifest) (cfgs : Nat → Config) (n : Nat) : Prop :=
  ∀ a < n, ∀ b < n, a ≠ b → ∀ s ∈ path_selector (cfgs a) (some manifest),
    ∀ t ∈ path_selector (cfgs b) (some manifest), Apart s t

theorem not_apart_self (s : PathSelector) : ¬ Apart s s := by
  intro h
  have hmem : Target.file (s.select_file ⟨true, 0, 0⟩) ∈ selected s ⟨true, 0, 0⟩ (.Get "") := by
    simp [selected]
  exact h _ _ _ _ _ hmem hmem

theorem path_selector_eq {cfg cfg' : Config} (h : cfg.distributed = cfg'.distributed)
    (tree_manifest : Option TreeManifest) :
    path_selector cfg tree_manifest = path_selector cfg' tree_manifest := by
  unfold path_selector
  rw [h]

/-- The agents share their section of the config, so all of them have one selector. -/
theorem exclusive_iff {manifest : TreeManifest} {cfgs : Nat → Config} {dist : DistributedConfig}
    (hdist : ∀ agent < dist.agents.length, (cfgs agent).distributed = some dist)
    (hn : 1 ≤ dist.agents.length) :
    Exclusive manifest cfgs dist.agents.length ↔ dist.agents.length = 1 := by
  constructor
  · intro h
    by_contra hne
    have hsame := path_selector_eq ((hdist 1 (by omega)).trans (hdist 0 (by omega)).symm)
      (some manifest)
    exact not_apart_self _ (h 0 (by omega) 1 (by omega) (by decide) _ rfl _ hsame)
  · intro h a ha b hb hab
    omega

/-- A config of `n` agents that are to work on directories of their own. -/
def exclusive_config (n : Nat) : DistributedConfig :=
  { agents := List.replicate n { address := "agent:7167" }
    shared_filesystem := true
    tree_creation_mode := .Concurrent
    path_selection := .Exclusive }

/-- Two directories with one file each, and two agents with one of the directories each. -/
def two_directories : TreeManifest :=
  TreeManifest.assign_agents
    { all_directories := ["a".toList, "b".toList]
      by_level := [["a".toList, "b".toList]]
      total_dirs := 2
      total_files := 2
      files_per_dir := 1
      file_ranges := [("a".toList, 0, 1), ("b".toList, 1, 2)]
      max_depth := 1 } 2

theorem one_agent_is_exclusive : Exclusive two_directories
    (fun _ => { workload := [], distributed := some (exclusive_config 1) }) 1 :=
  (@exclusive_iff two_directories _ (exclusive_config 1) (fun _ _ => rfl) (by decide)).mpr rfl

theorem two_agents_are_not_exclusive : ¬ ∀ (manifest : TreeManifest) (cfgs : Nat → Config)
    (dist : DistributedConfig), (∀ agent < dist.agents.length, (cfgs agent).distributed = some dist) →
      1 ≤ dist.agents.length → dist.path_selection = .Exclusive →
        (∀ agent < dist.agents.length, ∃ d ∈ manifest.get_agent_dirs agent,
          (manifest.get_file_range d).isSome) → Exclusive manifest cfgs dist.agents.length := by
  intro h
  have hexclusive := h two_directories
    (fun _ => { workload := [], distributed := some (exclusive_config 2) }) (exclusive_config 2)
    (fun _ _ => rfl) (by decide) rfl (by decide)
  exact not_apart_self _ (hexclusive 0 (by decide) 1 (by decide) (by decide) _ rfl _ rfl)

/-! ## Selectors with numbers of their own -/

variable {config : DirectoryStructureConfig} {tree : DirectoryTree} {m : TreeManifest}

theorem pick_mem {paths : List Path} (h : paths ≠ []) (draw : Nat) : pick paths draw ∈ paths := by
  unfold pick
  have hlt := Nat.mod_lt draw (List.length_pos_iff.mpr h)
  rw [List.getD_eq_getElem?_getD, List.getElem?_eq_getElem hlt]
  exact List.getElem_mem hlt

/-- The directories of an agent are those whose places leave its number. -/
theorem mem_agent_dirs {n agent : Nat} (hn : 0 < n) {d : Path} :
    d ∈ (m.assign_agents n).get_agent_dirs agent ↔
      ∃ k, m.all_directories[k]? = some d ∧ k % n = agent := by
  unfold assign_agents get_agent_dirs
  rw [if_neg hn.ne']
  simp [List.mem_zipIdx_iff_getElem?]

theorem agent_dirs_disjoint {n a b : Nat} (hn : 0 < n) (hab : a ≠ b) (h : m.all_directories.Nodup)
    {d : Path} (ha : d ∈ (m.assign_agents n).get_agent_dirs a) :
    d ∉ (m.assign_agents n).get_agent_dirs b := by
  intro hb
  obtain ⟨i, hi, rfl⟩ := (mem_agent_dirs hn).mp ha
  obtain ⟨j, hj, rfl⟩ := (mem_agent_dirs hn).mp hb
  obtain ⟨hlt, _⟩ := List.getElem?_eq_some_iff.mp hi
  have hij : i = j := (List.getElem?_inj hlt h).mp (hi.trans hj.symm)
  rw [hij] at hab
  exact hab rfl

/-- An exclusive selector of an agent that has a directory with files. -/
structure Own (s : PathSelector) (m : TreeManifest) (agent : Nat) : Prop where
  manifest : s.manifest = m
  agent_id : s.agent_id = agent
  strategy : s.strategy = .Exclusive
  some_files : ∃ d ∈ m.get_agent_dirs agent, (m.get_file_range d).isSome

namespace Own

variable {s : PathSelector} {agent : Nat}

theorem select_directory_mem (h : Own s m agent) (hall : m.all_directories ≠ []) (r : Draws) :
    s.select_directory r ∈ m.get_agent_dirs agent := by
  obtain ⟨d, hd, _⟩ := h.some_files
  have hassigned : s.assigned = m.get_agent_dirs agent := by
    unfold PathSelector.assigned
    rw [h.manifest, h.agent_id]
  have hne := List.ne_nil_of_mem hd
  unfold PathSelector.select_directory
  rw [h.manifest, if_neg (by simpa using hall), h.strategy]
  unfold PathSelector.select_exclusive
  rw [hassigned, if_neg (by simpa using hne)]
  exact pick_mem hne _

theorem select_directory_with_files_mem (h : Own s m agent) (r : Draws) :
    s.select_directory_with_files r ∈ m.get_agent_dirs agent ∧
      (m.get_file_range (s.select_directory_with_files r)).isSome := by
  obtain ⟨d, hd, hrange⟩ := h.some_files
  have hmem : d ∈ s.assigned_with_files := by
    unfold PathSelector.assigned_with_files PathSelector.assigned
    rw [h.manifest, h.agent_id]
    exact List.mem_filter.mpr ⟨hd, hrange⟩
  have hne := List.ne_nil_of_mem hmem
  have hfiles : s.dirs_with_files ≠ [] := by
    unfold PathSelector.dirs_with_files
    rw [h.manifest]
    intro hnil
    rw [List.map_eq_nil_iff] at hnil
    simp [get_file_range, hnil] at hrange
  unfold PathSelector.select_directory_with_files
  rw [if_neg (by simpa using hfiles), h.strategy]
  dsimp only
  rw [if_neg (by simpa using hne)]
  have hpick := pick_mem hne r.dir
  unfold PathSelector.assigned_with_files PathSelector.assigned at hpick ⊢
  rw [h.manifest, h.agent_id] at hpick ⊢
  exact List.mem_filter.mp hpick

/-- The file is one of the range of the selected directory. -/
theorem select_file_mem (h : Own s m agent) (hm : m.Describes config) (hw : 0 < config.width)
    (hd : 0 < config.depth) (hf : 0 < m.files_per_dir)
    (hdist : config.distribution = "bottom" ∨ config.distribution = "all") (r : Draws) :
    ∃ i, m.get_file_path i = some (s.select_file r) ∧
      m.file_dirs[i / m.files_per_dir]? = some (s.select_directory_with_files r) := by
  obtain ⟨_, hsome⟩ := h.select_directory_with_files_mem r
  obtain ⟨⟨start_idx, end_idx⟩, hrange⟩ := Option.isSome_iff_exists.mp hsome
  obtain ⟨entry, hentry, heq⟩ := Option.map_eq_some_iff.mp hrange
  have hdir : entry.1 = s.select_directory_with_files r := by simpa using List.find?_some hentry
  have hmem := List.mem_of_find?_eq_some hentry
  rw [hm.file_ranges hf, List.mem_map] at hmem
  obtain ⟨⟨dir_path, k⟩, hk, rfl⟩ := hmem
  cases heq
  have hplace := List.mem_zipIdx_iff_getElem?.mp hk
  have hlt : k < m.file_dirs.length := (List.getElem?_eq_some_iff.mp hplace).1
  have hwidth : (k + 1) * m.files_per_dir - k * m.files_per_dir = m.files_per_dir := by
    rw [Nat.succ_mul, Nat.add_sub_cancel_left]
  have hdraw := Nat.mod_lt r.file hf
  have hi : (k * m.files_per_dir + r.file % m.files_per_dir) / m.files_per_dir = k := by
    rw [Nat.mul_comm, Nat.mul_add_div hf, Nat.div_eq_of_lt hdraw, Nat.add_zero]
  obtain ⟨p, hp⟩ := get_file_path_isSome hm hw hd hdist
    (i := k * m.files_per_dir + r.file % m.files_per_dir) (by
      rw [hm.total_files]
      calc k * m.files_per_dir + r.file % m.files_per_dir
          < (k + 1) * m.files_per_dir := by
            rw [Nat.succ_mul]
            exact Nat.add_lt_add_left hdraw _
        _ ≤ m.file_dirs.length * m.files_per_dir := Nat.mul_le_mul_right _ hlt)
  refine ⟨k * m.files_per_dir + r.file % m.files_per_dir, ?_, ?_⟩
  · rw [hp]
    unfold PathSelector.select_file
    dsimp only
    rw [h.manifest, hrange]
    dsimp only
    rw [if_pos (Nat.mul_lt_mul_of_pos_right (Nat.lt_succ_self k) hf), hwidth, hp]
    rfl
  · rw [hi, hplace]
    exact congrArg some hdir

/-- What it selects: a directory of the agent, or a file of a directory of the agent. -/
theorem mem_selected (h : Own s m agent) (hall : m.all_directories ≠ []) {r : Draws} {op : OpSpec}
    {target : Target} (hmem : target ∈ selected s r op) :
    (∃ d ∈ m.get_agent_dirs agent, target = .directory d) ∨ target = .file (s.select_file r) := by
  have hdir := h.select_directory_mem hall r
  have hfile := (h.select_directory_with_files_mem r).1
  cases op with
  | Get | Put | Stat | Delete =>
    rcases List.mem_pair.mp hmem with rfl | rfl
    · exact .inl ⟨_, hfile, rfl⟩
    · exact .inr rfl
  | Mkdir | Rmdir =>
    rw [List.mem_singleton.mp hmem]
    exact .inl ⟨_, hdir, rfl⟩
  | List => cases hmem

end Own

/-- With a number of its own for each of them, and no path twice in the tree, two agents
are apart. -/
theorem own_apart {n a b : Nat} {s t : PathSelector} (h : DirectoryTree.new config = .ok tree)
    (hmask : config.width = 1 ∨ 2 ≤ holes config.dir_mask) (hf : 0 < config.files_per_dir)
    (hn : 0 < n) (hab : a ≠ b) (hs : Own s ((from_tree tree).assign_agents n) a)
    (ht : Own t ((from_tree tree).assign_agents n) b) : Apart s t := by
  have hm := describes_assigned (describes_from_tree h) n
  have hassign : ((from_tree tree).assign_agents n).all_directories =
      (from_tree tree).all_directories := by
    rw [hm.all_directories, (describes_from_tree h).all_directories]
  obtain ⟨hw, hd, _, _, _, hdist⟩ := new_ok h
  have hdist := hdist.imp And.left And.left
  have hnodup : (from_tree tree).all_directories.Nodup := by
    rw [(describes_from_tree h).all_directories]
    exact (nodup_paths_iff hd hw).mpr hmask
  have hall : ((from_tree tree).assign_agents n).all_directories ≠ [] := by
    obtain ⟨d, hdir, _⟩ := hs.some_files
    obtain ⟨k, hk, _⟩ := (mem_agent_dirs hn).mp hdir
    rw [hassign]
    exact List.ne_nil_of_mem (List.mem_of_getElem? hk)
  rw [← hm.files_per_dir] at hf
  intro r r' op op' target hfirst hsecond
  rcases hs.mem_selected hall hfirst with ⟨d, hda, rfl⟩ | rfl <;>
    rcases ht.mem_selected hall hsecond with ⟨d', hdb, heq⟩ | heq
  · cases heq
    exact agent_dirs_disjoint hn hab hnodup hda hdb
  · cases heq
  · cases heq
  · have heq : s.select_file r = t.select_file r' := Target.file.inj heq
    obtain ⟨i, hi, hdi⟩ := hs.select_file_mem hm hw hd hf hdist r
    obtain ⟨j, hj, hdj⟩ := ht.select_file_mem hm hw hd hf hdist r'
    rw [← heq] at hj
    obtain rfl := get_file_path_injective hi hj
    have hda := (hs.select_directory_with_files_mem r).1
    have hdb := (ht.select_directory_with_files_mem r').1
    rw [Option.some.inj (hdi.symm.trans hdj)] at hda
    exact agent_dirs_disjoint hn hab hnodup hda hdb

end sai3_bench.workload
