-- Making the files of a tree (prepare/directory_tree.rs): agents that share a store list
-- what exists, and each puts those of the missing files that are its own.
import Sai3Bench.ObjectData
import Sai3Bench.Parties
import Sai3Bench.TreeShapes

namespace sai3_bench.prepare.tree

open directory_tree DirectoryTree TreeManifest texts size_generator parties machines
open config.written (FillPattern)

/-! ## The config -/

structure PrepareConfig where
  directory_structure : Option DirectoryStructureConfig := none
  ensure_objects : List DataSpec := []

/-- What `create_directory_tree` is called with, but for the number of the agent. -/
structure TreeJob where
  config : PrepareConfig
  base_uri : Path
  num_agents : Nat := 1
  info_enabled : Bool := false

/-- The size, the fill and the factors of the files: those of the first spec. -/
def file_data (config : PrepareConfig) : SizeSpec × FillPattern × Nat × Nat :=
  match config.ensure_objects with
  | ensure_spec :: _ => (ensure_spec.get_size_spec, ensure_spec.fill, ensure_spec.dedup_factor,
      ensure_spec.compress_factor)
  | [] => (.Fixed 1024, .Zero, 1, 1)

/-! ## The files that are made -/

def expected_files (manifest : TreeManifest) : Finset Path :=
  ((List.range manifest.total_files).filterMap manifest.get_file_path).toFinset

def relative_path (base_uri file_uri : Path) : Option Path :=
  ( strip_prefix base_uri file_uri).map (·.dropWhile (· = '/'))

def dir_prefix (base_uri dir_path : Path) : Path := joinUri base_uri dir_path ++ ['/']

section

variable {r : Random}

/-- The file of the next number, if it is missing and the agent's own. Its size is drawn
when it is made. -/
def next_file (job : TreeJob) (agent_id : Nat) (missing_files : Finset Path) (dir_path : Path)
    (global_file_idx : Nat) (g : SizeGenerator r) : Option Write × SizeGenerator r :=
  let file_name := get_file_name global_file_idx
  let file_relative_path := dir_path ++ '/' :: file_name
  let file_uri := joinUri job.base_uri dir_path ++ '/' :: file_name
  if file_relative_path ∈ missing_files ∧ global_file_idx % job.num_agents = agent_id then
    let (_, fill_pattern, dedup_factor, compress_factor) := file_data job.config
    let (size, g) := g.generate
    (some ⟨file_uri, generate_data fill_pattern size dedup_factor compress_factor⟩, g)
  else (none, g)

/-- The files of a directory, from a number on. -/
def dir_files (job : TreeJob) (agent_id : Nat) (missing_files : Finset Path) (dir_path : Path) :
    Nat → Nat → SizeGenerator r → List Write × SizeGenerator r
  | 0, _, g => ([], g)
  | left + 1, global_file_idx, g =>
    let (write, g) := next_file job agent_id missing_files dir_path global_file_idx g
    let (writes, g) := dir_files job agent_id missing_files dir_path left (global_file_idx + 1) g
    (write.toList ++ writes, g)

/-- The files of some directories, with a running number. -/
def tree_files (job : TreeJob) (agent_id : Nat) (missing_files : Finset Path) (files_per_dir : Nat) :
    List Path → Nat → SizeGenerator r → List Write
  | [], _, _ => []
  | dir_path :: dirs, global_file_idx, g =>
    let (writes, g) := dir_files job agent_id missing_files dir_path files_per_dir global_file_idx g
    writes ++ tree_files job agent_id missing_files files_per_dir dirs
      (global_file_idx + files_per_dir) g

end

/-! ## One agent -/

inductive Creation
  | Mkdirs (manifest : TreeManifest) (dirs_to_create : List Path)
  | Lists (manifest : TreeManifest) (dirs_with_files : List Path) (existing_files : Finset Path)
  | Puts (manifest : TreeManifest) (writes : List Write)
  | Returned (manifest : TreeManifest)
  | Failed (error : String)

namespace Creation

def puts (manifest : TreeManifest) (writes : List Write) : Creation :=
  if writes.isEmpty then .Returned manifest else .Puts manifest writes

/-- What an agent does when all directories are listed. -/
def creates (r : Random) (job : TreeJob) (agent_id : Nat) (manifest : TreeManifest)
    (existing_files : Finset Path) : Creation :=
  let missing_files := expected_files manifest \ existing_files
  if missing_files = ∅ then .Returned manifest
  else match SizeGenerator.new r (file_data job.config).1 with
    | .error _ => .Failed "Failed to create size generator for tree files"
    | .ok g =>
      -- the line that logs the sizes takes some of them
      let g := if job.info_enabled then g.description else g
      puts manifest (tree_files job agent_id missing_files manifest.files_per_dir
        (manifest.file_ranges.map (·.1)) 0 g)

def lists (r : Random) (job : TreeJob) (agent_id : Nat) (manifest : TreeManifest)
    (dirs_with_files : List Path) (existing_files : Finset Path) : Creation :=
  if dirs_with_files.isEmpty then creates r job agent_id manifest existing_files
  else .Lists manifest dirs_with_files existing_files

def mkdirs (r : Random) (job : TreeJob) (agent_id : Nat) (manifest : TreeManifest)
    (dirs_to_create : List Path) : Creation :=
  if dirs_to_create.isEmpty then
    if 0 < manifest.files_per_dir then
      lists r job agent_id manifest (manifest.file_ranges.map (·.1)) ∅
    else .Returned manifest
  else .Mkdirs manifest dirs_to_create

/-- Object stores have no directories of their own. -/
def needs_mkdir (base_uri : Path) : Bool :=
  "file://".toList.isPrefixOf base_uri || "direct://".toList.isPrefixOf base_uri

/-- How `create_directory_tree` begins. -/
def start (r : Random) (job : TreeJob) (agent_id : Nat) : Creation :=
  match job.config.directory_structure with
  | none => .Failed "No directory_structure specified in PrepareConfig"
  | some dir_config => match create_tree_manifest_only dir_config job.num_agents with
    | .error _ => .Failed "Failed to create DirectoryTree"
    | .ok manifest =>
      let dirs_to_create :=
        if job.num_agents = 1 then manifest.all_directories else manifest.get_agent_dirs agent_id
      mkdirs r job agent_id manifest (if needs_mkdir job.base_uri then dirs_to_create else [])

end Creation

/-! ## All agents -/

/-- The objects of the store, and what was put by whom. -/
structure Store where
  objects : Finset Path
  puts : List (Nat × Write) := []

/-- The object is in the directory itself. -/
def direct_child ( dir_prefix uri : Path) : Bool :=
  ( strip_prefix dir_prefix uri).any fun name => '/' ∉ name

/-- A listing of a directory has the objects in it, and nothing but objects below it. -/
def Store.Lists (s : Store) ( dir_prefix : Path) (files : List Path) : Prop :=
  (∀ uri ∈ files, uri ∈ s.objects ∧ dir_prefix <+: uri) ∧
    ∀ uri ∈ s.objects, direct_child dir_prefix uri = true → uri ∈ files

instance (s : Store) ( dir_prefix : Path) (files : List Path) : Decidable (s.Lists dir_prefix files) := by
  unfold Store.Lists
  infer_instance

def Store.put (s : Store) (agent_id : Nat) (write : Write) : Store :=
  ⟨insert write.uri s.objects, s.puts ++ [(agent_id, write)]⟩

/-- The answer of the store to a call. -/
inductive Answer
  | Mkdir (result : Except String Unit)
  | List (result : Except String (List Path))
  | Put (result : Except String Unit)

def Answer.succeeds : Answer → Bool
  | .Mkdir result => result.isOk
  | .List result => result.isOk
  | .Put result => result.isOk

/-- One call of an agent to the store. -/
def Creation.step (r : Random) (job : TreeJob) (s : Store) (agent_id : Nat) :
    Creation → Answer → Option (Store × Creation)
  | .Mkdirs manifest (dir_path :: dirs), .Mkdir result => match result with
    | .ok _ => some (s, mkdirs r job agent_id manifest dirs)
    | .error _ => some (s, .Failed
        ("Failed to create directory: " ++ String.ofList (joinUri job.base_uri dir_path)))
  | .Lists manifest (dir_path :: dirs) existing_files, .List result => match result with
    | .ok files =>
      if s.Lists ( dir_prefix job.base_uri dir_path) files then
        some (s, lists r job agent_id manifest dirs
          (existing_files ∪ (files.filterMap (relative_path job.base_uri)).toFinset))
      else none
    | .error _ => some (s, lists r job agent_id manifest dirs existing_files)
  | .Puts manifest (write :: writes), .Put result => match result with
    | .ok _ => some (s.put agent_id write, puts manifest writes)
    | .error _ => some (s, .Failed ("Failed to create file: " ++ String.ofList write.uri))
  | _, _ => none

def creation (r : Random) (job : TreeJob) : Party Store Creation Answer where
  step s agent_id c a := c.step r job s agent_id a

/-- The agents with the numbers below `num_agents`, and a store. -/
def TreeJob.start (r : Random) (job : TreeJob) (objects : Finset Path) : Table Store Creation :=
  ⟨{ objects := objects }, (List.range job.num_agents).map (Creation.start r job)⟩

/-! ## The numbers of the files -/

/-- The path of the file of a number. -/
def file_path (m : TreeManifest) (i : Nat) : Path := (m.get_file_path i).getD []

/-- The address of the file of a number. -/
def file_uri (job : TreeJob) (m : TreeManifest) (i : Nat) : Path := joinUri job.base_uri (file_path m i)

/-- The directory of a file is found by the file's number alone. -/
def FoundByNumber (m : TreeManifest) : Prop :=
  ∀ i < m.total_files, ∃ dir_path, m.file_dirs[i / m.files_per_dir]? = some dir_path ∧
    m.get_file_path i = some (dir_path ++ '/' :: get_file_name i)

section

variable {r : Random} {dir_config : DirectoryStructureConfig} {m : TreeManifest} {job : TreeJob}
  {agent_id i j : Nat} {missing_files : Finset Path} {g : SizeGenerator r}

theorem found_by_number (hm : create_tree_manifest_only dir_config job.num_agents = .ok m)
    (hmask : '/' ∉ dir_config.dir_mask) : FoundByNumber m := by
  intro i hi
  obtain ⟨tree, hnew, hdescribes⟩ := describes_manifest_only hm
  obtain ⟨_, hd, _, _, _, hdist⟩ := new_ok hnew
  have hf : 0 < m.files_per_dir := by
    rw [hdescribes.total_files] at hi
    exact Nat.pos_of_mul_pos_left (Nat.zero_lt_of_lt hi)
  apply (placed_iff hdescribes hf).mp
  rcases hdist with ⟨hdist, _⟩ | ⟨hdist, _⟩
  · exact placed_last hdescribes hf hd hdist hmask hi
  · exact placed_all hdescribes hf hdist hi

theorem file_path_eq (h : FoundByNumber m) (hi : i < m.total_files) :
    m.get_file_path i = some (file_path m i) := by
  obtain ⟨dir_path, _, hpath⟩ := h i hi
  unfold file_path
  rw [hpath]
  rfl

theorem file_path_inj (h : FoundByNumber m) (hi : i < m.total_files) (hj : j < m.total_files) :
    file_path m i = file_path m j ↔ i = j := by
  constructor
  · intro heq
    refine get_file_path_injective (file_path_eq h hi) ?_
    rw [file_path_eq h hj, heq]
  · rintro rfl
    rfl

theorem file_uri_inj (h : FoundByNumber m) (hi : i < m.total_files) (hj : j < m.total_files) :
    file_uri job m i = file_uri job m j ↔ i = j := by
  unfold file_uri joinUri
  rw [List.append_cancel_left_eq]
  exact file_path_inj h hi hj

theorem mem_expected_files (h : FoundByNumber m) (hi : i < m.total_files) :
    file_path m i ∈ expected_files m := by
  unfold expected_files
  rw [List.mem_toFinset, List.mem_filterMap]
  exact ⟨i, List.mem_range.mpr hi, file_path_eq h hi⟩

theorem dirs_with_files (hm : m.Describes dir_config) (hf : 0 < m.files_per_dir) :
    m.file_ranges.map (·.1) = m.file_dirs := by
  rw [hm.file_ranges hf, List.map_map]
  exact List.zipIdx_map_fst 0 m.file_dirs

/-- The files of a directory are the agent's own among the next numbers. -/
theorem dir_files_uris (dir_path : Path) (left idx : Nat) :
    (dir_files job agent_id missing_files dir_path left idx g).1.map (·.uri) =
      ((List.range' idx left).filter fun i =>
        dir_path ++ '/' :: get_file_name i ∈ missing_files ∧ i % job.num_agents = agent_id).map
          fun i => joinUri job.base_uri dir_path ++ '/' :: get_file_name i := by
  induction left generalizing idx g with
  | zero => rfl
  | succ left ih =>
    unfold dir_files next_file
    dsimp only
    rw [List.range'_succ, List.filter_cons]
    by_cases hown : dir_path ++ '/' :: get_file_name idx ∈ missing_files ∧ idx % job.num_agents = agent_id
    · rw [if_pos hown, if_pos (decide_eq_true hown), List.map_append, ih]
      rfl
    · rw [if_neg hown, if_neg (by simpa using hown), List.map_append, ih]
      rfl

/-- The loop over the directories counts the files as the manifest does. -/
theorem tree_files_uris (hm : m.Describes dir_config) (h : FoundByNumber m) {k : Nat} {dirs : List Path}
    (hdirs : m.file_dirs.drop k = dirs) :
    (tree_files job agent_id missing_files m.files_per_dir dirs (k * m.files_per_dir) g).map (·.uri) =
      ((List.range' (k * m.files_per_dir) (dirs.length * m.files_per_dir)).filter fun i =>
        file_path m i ∈ missing_files ∧ i % job.num_agents = agent_id).map (file_uri job m) := by
  induction dirs generalizing k g with
  | nil =>
    rw [List.length_nil, Nat.zero_mul]
    rfl
  | cons dir_path dirs ih =>
    have hk : m.file_dirs[k]? = some dir_path := by
      rw [← List.head?_drop, hdirs]
      rfl
    have hrest : m.file_dirs.drop (k + 1) = dirs := by
      rw [← List.tail_drop, hdirs]
      rfl
    -- the numbers of this directory are those that lead to it
    have hpath : ∀ i ∈ List.range' (k * m.files_per_dir) m.files_per_dir,
        file_path m i = dir_path ++ '/' :: get_file_name i := by
      intro i hi
      rw [List.mem_range'_1] at hi
      have hf : 0 < m.files_per_dir := by omega
      have hdiv : i / m.files_per_dir = k :=
        Nat.div_eq_of_lt_le hi.1 (by rw [Nat.succ_mul]; exact hi.2)
      have htotal : i < m.total_files := by
        obtain ⟨hlt, _⟩ := List.getElem?_eq_some_iff.mp hk
        rw [hm.total_files]
        exact (Nat.div_lt_iff_lt_mul hf).mp (by rwa [hdiv])
      obtain ⟨found, hfound, hfile⟩ := h i htotal
      rw [hdiv, hk] at hfound
      cases hfound
      unfold file_path
      rw [hfile]
      rfl
    have hnext := ih (k := k + 1) (g := (dir_files job agent_id missing_files dir_path m.files_per_dir
      (k * m.files_per_dir) g).2) hrest
    rw [Nat.succ_mul] at hnext
    unfold tree_files
    dsimp only
    rw [List.map_append, hnext, dir_files_uris, List.length_cons, Nat.succ_mul, Nat.add_comm (dirs.length * _),
      ← List.range'_append_1, List.filter_append, List.map_append]
    congr 1
    have hsame : ∀ i ∈ List.range' (k * m.files_per_dir) m.files_per_dir,
        joinUri job.base_uri dir_path ++ '/' :: get_file_name i = file_uri job m i := by
      intro i hi
      unfold file_uri joinUri
      rw [hpath i hi, List.append_assoc]
    rw [List.filter_congr (q := fun i => decide (file_path m i ∈ missing_files ∧
      i % job.num_agents = agent_id)) fun i hi => by rw [hpath i hi]]
    exact List.map_congr_left fun i hi => hsame i (List.mem_of_mem_filter hi)

end

end sai3_bench.prepare.tree
