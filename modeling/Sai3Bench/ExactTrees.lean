-- Which files the agents of a tree put (prepare/directory_tree.rs), in whatever order
-- their calls reach the store: each that was missing once, but for an empty mask.
import Sai3Bench.TreeCreations

namespace sai3_bench.prepare.tree

open directory_tree DirectoryTree TreeManifest templates texts size_generator parties machines

/-! ## What a listing shows -/

section

variable {config : DirectoryStructureConfig} {below i : Nat} {base_uri dir_path tail : Path}

/-- With an empty mask the names of directories are empty, so a path begins with a slash. -/
theorem full_path_of_empty (hmask : config.dir_mask = []) (below i : Nat) (rest : Path) :
    (full_path config below (i + 1) ++ '/' :: rest).head? = some '/' := by
  have hname : ∀ depth i, dir_name config depth (i + 1) = [] := by
    intro depth i
    rw [dir_name_eq]
    exact fill_eq_nil.mpr hmask
  induction below generalizing i rest with
  | zero =>
    have hpath : full_path config 0 (i + 1) = [] := hname 1 i
    rw [hpath]
    rfl
  | succ below ih =>
    rw [full_path_succ, List.append_assoc, List.cons_append]
    exact ih _ _

/-- With any other mask without a slash it does not. -/
theorem full_path_of_mask (hmask : config.dir_mask ≠ []) (hslash : '/' ∉ config.dir_mask)
    (below i : Nat) : ∃ c rest, full_path config below (i + 1) = c :: rest ∧ c ≠ '/' := by
  induction below generalizing i with
  | zero =>
    have hne : full_path config 0 (i + 1) ≠ [] := by
      intro hnil
      exact hmask (fill_eq_nil.mp hnil)
    obtain ⟨c, rest, hpath⟩ := List.exists_cons_of_ne_nil hne
    refine ⟨c, rest, hpath, ?_⟩
    rintro rfl
    have hcount : (full_path config 0 (i + 1)).count '/' = _ := count_full_path 0 i
    rw [List.count_eq_zero.mpr hslash, hpath, List.count_cons_self] at hcount
    omega
  | succ below ih =>
    obtain ⟨c, rest, hpath, hc⟩ := ih (i / config.width)
    refine ⟨c, rest ++ '/' :: dir_name config (below + 2) (i + 1), ?_, hc⟩
    rw [full_path_succ, hpath]
    rfl

theorem dir_prefix_eq (base_uri dir_path tail : Path) :
    dir_prefix base_uri dir_path ++ tail = withSlash base_uri ++ (dir_path ++ '/' :: tail) := by
  unfold dir_prefix joinUri
  simp only [List.append_assoc, List.singleton_append]

/-- The slashes between the base and a path are not part of the path. -/
theorem relative_path_eq (base_uri rest : Path) :
    relative_path base_uri (withSlash base_uri ++ rest) = some (rest.dropWhile (· = '/')) := by
  unfold relative_path withSlash
  by_cases hends : base_uri.getLast? = some '/'
  · rw [if_pos hends, strip_prefix_append]
    rfl
  · rw [if_neg hends, List.append_assoc, strip_prefix_append]
    rfl

theorem dropWhile_of_head {c : Char} {rest : Path} (hc : c ≠ '/') :
    (c :: rest).dropWhile (· = '/') = c :: rest := by
  rw [List.dropWhile_cons, if_neg (by simpa using hc)]

end

/-! ## The files that an agent is to put -/

/-- What `create_directory_tree` does not reject, and a mask without a slash. -/
structure Accepted (r : Random) (job : TreeJob) (dir_config : DirectoryStructureConfig)
    (m : TreeManifest) : Prop where
  config : job.config.directory_structure = some dir_config
  manifest : create_tree_manifest_only dir_config job.num_agents = .ok m
  sizes : ∃ g, SizeGenerator.new r (file_data job.config).1 = .ok g
  mask : '/' ∉ dir_config.dir_mask
  agents : 0 < job.num_agents

/-- The file is put: it was missing, or it is not known when it exists. -/
def ToPut (job : TreeJob) (dir_config : DirectoryStructureConfig) (m : TreeManifest)
    (initial : Finset Path) (i : Nat) : Prop :=
  dir_config.dir_mask = [] ∨ file_uri job m i ∉ initial

instance (job : TreeJob) (dir_config : DirectoryStructureConfig) (m : TreeManifest)
    (initial : Finset Path) (i : Nat) : Decidable (ToPut job dir_config m initial i) :=
  inferInstanceAs (Decidable (_ ∨ _))

/-- The files that an agent puts, one after the other. -/
def own_files (job : TreeJob) (dir_config : DirectoryStructureConfig) (m : TreeManifest)
    (initial : Finset Path) (agent_id : Nat) : List Path :=
  ((List.range m.total_files).filter fun i =>
    ToPut job dir_config m initial i ∧ i % job.num_agents = agent_id).map (file_uri job m)

section

variable {r : Random} {dir_config : DirectoryStructureConfig} {m : TreeManifest} {job : TreeJob}
  {initial : Finset Path} {agent_id i : Nat} {uri dir_path : Path} {s : Store} {files : List Path}

theorem Accepted.describes (h : Accepted r job dir_config m) : m.Describes dir_config := by
  obtain ⟨_, _, hdescribes⟩ := describes_manifest_only h.manifest
  exact hdescribes

theorem Accepted.found (h : Accepted r job dir_config m) : FoundByNumber m :=
  found_by_number h.manifest h.mask

theorem mem_own_files : uri ∈ own_files job dir_config m initial agent_id ↔
    ∃ i < m.total_files, ToPut job dir_config m initial i ∧ i % job.num_agents = agent_id ∧
      file_uri job m i = uri := by
  unfold own_files
  simp only [List.mem_map, List.mem_filter, List.mem_range, decide_eq_true_eq, and_assoc]

theorem file_mem_own_files (h : FoundByNumber m) (hi : i < m.total_files) :
    file_uri job m i ∈ own_files job dir_config m initial agent_id ↔
      ToPut job dir_config m initial i ∧ i % job.num_agents = agent_id := by
  rw [mem_own_files]
  constructor
  · rintro ⟨j, hj, hput, hown, hsame⟩
    obtain rfl := (file_uri_inj h hj hi).mp hsame
    exact ⟨hput, hown⟩
  · rintro ⟨hput, hown⟩
    exact ⟨i, hi, hput, hown, rfl⟩

theorem nodup_own_files (h : FoundByNumber m) : (own_files job dir_config m initial agent_id).Nodup := by
  unfold own_files
  refine List.Nodup.map_on ?_ (List.nodup_range.filter _)
  intro i hi j hj hsame
  exact (file_uri_inj h (List.mem_range.mp (List.mem_of_mem_filter hi))
    (List.mem_range.mp (List.mem_of_mem_filter hj))).mp hsame

/-- A directory of the tree, and whether its path begins with a slash. -/
theorem dir_head (h : Accepted r job dir_config m) (hdir : dir_path ∈ m.all_directories) :
    (dir_config.dir_mask = [] → ∀ rest, (dir_path ++ '/' :: rest).head? = some '/') ∧
      (dir_config.dir_mask ≠ [] → ∃ c rest, dir_path = c :: rest ∧ c ≠ '/') := by
  rw [h.describes.all_directories, mem_paths] at hdir
  obtain ⟨below, _, i, _, rfl⟩ := hdir
  exact ⟨fun hmask => full_path_of_empty hmask below i,
    fun hmask => full_path_of_mask hmask h.mask below i⟩

/-- The path of a file, below a directory of the tree. -/
theorem file_path_dir (h : Accepted r job dir_config m) (hi : i < m.total_files) :
    ∃ dir_path, m.file_dirs[i / m.files_per_dir]? = some dir_path ∧ dir_path ∈ m.all_directories ∧
      file_path m i = dir_path ++ '/' :: get_file_name i := by
  obtain ⟨dir_path, hdir, hpath⟩ := h.found i hi
  refine ⟨dir_path, hdir, List.mem_of_mem_filter (List.mem_of_getElem? hdir), ?_⟩
  unfold file_path
  rw [hpath]
  rfl

/-- What is listed as a file of the manifest exists, and the mask is not empty. -/
theorem listed_exists (h : Accepted r job dir_config m) (hdir : dir_path ∈ m.all_directories)
    (hlists : s.Lists ( dir_prefix job.base_uri dir_path) files) (hi : i < m.total_files)
    (hlisted : file_path m i ∈ files.filterMap (relative_path job.base_uri)) :
    dir_config.dir_mask ≠ [] ∧ file_uri job m i ∈ s.objects := by
  obtain ⟨uri, huri, hrelative⟩ := List.mem_filterMap.mp hlisted
  obtain ⟨hobject, tail, rfl⟩ := hlists.1 uri huri
  rw [dir_prefix_eq, relative_path_eq, Option.some.injEq] at hrelative
  have hmask : dir_config.dir_mask ≠ [] := by
    intro hmask
    obtain ⟨file_dir, _, hfile_dir, hpath⟩ := file_path_dir h hi
    have hhead := (dir_head h hfile_dir).1 hmask (get_file_name i)
    rw [← hpath, ← hrelative] at hhead
    have hnot := List.head?_dropWhile_not (p := (· = '/')) (dir_path ++ '/' :: tail)
    rw [hhead] at hnot
    simp at hnot
  refine ⟨hmask, ?_⟩
  obtain ⟨c, rest, rfl, hc⟩ := (dir_head h hdir).2 hmask
  rw [List.cons_append, dropWhile_of_head hc, ← List.cons_append] at hrelative
  unfold file_uri joinUri
  rw [← hrelative, ← dir_prefix_eq]
  exact hobject

/-- A file that exists is listed with its directory, unless the mask is empty. -/
theorem existing_listed (h : Accepted r job dir_config m) (hi : i < m.total_files)
    (hdir : m.file_dirs[i / m.files_per_dir]? = some dir_path)
    (hlists : s.Lists ( dir_prefix job.base_uri dir_path) files) (hmask : dir_config.dir_mask ≠ [])
    (hobject : file_uri job m i ∈ s.objects) :
    file_path m i ∈ files.filterMap (relative_path job.base_uri) := by
  obtain ⟨found, hfound, hmem, hpath⟩ := file_path_dir h hi
  rw [hdir] at hfound
  cases hfound
  have huri : file_uri job m i = dir_prefix job.base_uri dir_path ++ get_file_name i := by
    unfold file_uri joinUri
    rw [hpath, dir_prefix_eq]
  have hchild : direct_child ( dir_prefix job.base_uri dir_path) (file_uri job m i) = true := by
    unfold direct_child
    rw [huri, strip_prefix_append, Option.any_some]
    exact decide_eq_true (slash_not_mem_file_name i)
  obtain ⟨c, rest, hcons, hc⟩ := (dir_head h hmem).2 hmask
  refine List.mem_filterMap.mpr ⟨_, hlists.2 _ hobject hchild, ?_⟩
  rw [huri, dir_prefix_eq, relative_path_eq, ← hpath]
  rw [hcons, List.cons_append] at hpath
  rw [hpath, dropWhile_of_head hc]

/-! ## What holds while the agents run -/

/-- What an agent has put. -/
def Store.put_by (s : Store) (agent_id : Nat) : List Path :=
  (s.puts.filter (·.1 = agent_id)).map (·.2.uri)

theorem put_by_put {write : Write} : (s.put agent_id write).put_by agent_id =
    s.put_by agent_id ++ [write.uri] := by
  unfold Store.put_by Store.put
  rw [List.filter_append, List.map_append, List.filter_singleton]
  simp

theorem put_by_put_other {write : Write} {other : Nat} (h : other ≠ agent_id) :
    (s.put agent_id write).put_by other = s.put_by other := by
  unfold Store.put_by Store.put
  rw [List.filter_append, List.filter_singleton]
  simp [Ne.symm h]

/-- The objects are the first ones and those that were put. Each agent has put files of
its own, and no file was put twice. -/
structure Kept (job : TreeJob) (dir_config : DirectoryStructureConfig) (m : TreeManifest)
    (initial : Finset Path) (s : Store) : Prop where
  objects : ∀ uri, uri ∈ s.objects ↔ uri ∈ initial ∨ uri ∈ s.puts.map (·.2.uri)
  own : ∀ p ∈ s.puts, p.2.uri ∈ own_files job dir_config m initial p.1
  once : (s.puts.map (·.2.uri)).Nodup

/-- What is found of the agent's own files, when some directories are not listed yet: those
that are not to be put, and only those. -/
def Sees (job : TreeJob) (dir_config : DirectoryStructureConfig) (m : TreeManifest)
    (initial : Finset Path) (agent_id : Nat) (dirs : List Path) (existing_files : Finset Path) : Prop :=
  ∀ i < m.total_files, i % job.num_agents = agent_id →
    (file_path m i ∈ existing_files → ¬ ToPut job dir_config m initial i) ∧
      (¬ ToPut job dir_config m initial i → file_path m i ∈ existing_files ∨
        ∃ dir_path ∈ dirs, m.file_dirs[i / m.files_per_dir]? = some dir_path)

/-- What holds of an agent at any time. -/
def Sound (job : TreeJob) (dir_config : DirectoryStructureConfig) (m : TreeManifest)
    (initial : Finset Path) (s : Store) (agent_id : Nat) : Creation → Prop
  | .Mkdirs manifest dirs => manifest = m ∧ dirs ≠ [] ∧ s.put_by agent_id = []
  | .Lists manifest dirs existing_files => manifest = m ∧ dirs ≠ [] ∧ 0 < m.files_per_dir ∧
      s.put_by agent_id = [] ∧ (∀ dir_path ∈ dirs, dir_path ∈ m.all_directories) ∧
      Sees job dir_config m initial agent_id dirs existing_files
  | .Puts manifest writes => manifest = m ∧ writes ≠ [] ∧
      s.put_by agent_id ++ writes.map (·.uri) = own_files job dir_config m initial agent_id
  | .Returned manifest => manifest = m ∧
      s.put_by agent_id = own_files job dir_config m initial agent_id
  | .Failed _ => False

/-- How many calls an agent has left at most. -/
def calls_left (m : TreeManifest) : Creation → Nat
  | .Mkdirs _ dirs => dirs.length + (m.file_dirs.length + m.total_files)
  | .Lists _ dirs _ => dirs.length + m.total_files
  | .Puts _ writes => writes.length
  | .Returned _ => 0
  | .Failed _ => 0

theorem puts_sound {writes : List Write} (hputs : s.put_by agent_id ++ writes.map (·.uri) =
    own_files job dir_config m initial agent_id) :
    Sound job dir_config m initial s agent_id (.puts m writes) ∧
      calls_left m (.puts m writes) ≤ writes.length := by
  unfold Creation.puts
  by_cases hempty : writes = []
  · subst hempty
    rw [List.map_nil, List.append_nil] at hputs
    exact ⟨⟨rfl, hputs⟩, Nat.zero_le _⟩
  · rw [if_neg (by simpa using hempty)]
    exact ⟨⟨rfl, hempty, hputs⟩, le_rfl⟩

theorem creates_sound (h : Accepted r job dir_config m) (hf : 0 < m.files_per_dir)
    (hnone : s.put_by agent_id = []) {existing_files : Finset Path}
    (hsees : Sees job dir_config m initial agent_id [] existing_files) :
    Sound job dir_config m initial s agent_id (.creates r job agent_id m existing_files) ∧
      calls_left m (.creates r job agent_id m existing_files) ≤ m.total_files := by
  have hmissing : ∀ i < m.total_files, i % job.num_agents = agent_id →
      (file_path m i ∈ expected_files m \ existing_files ↔ ToPut job dir_config m initial i) := by
    intro i hi hown
    obtain ⟨hexists, hknown⟩ := hsees i hi hown
    rw [Finset.mem_sdiff, and_iff_right (mem_expected_files h.found hi)]
    constructor
    · intro hnot
      by_contra hput
      rcases hknown hput with hin | ⟨_, hin, _⟩
      · exact hnot hin
      · cases hin
    · exact fun hput hin => hexists hin hput
  have hown : ∀ missing_files, missing_files = expected_files m \ existing_files →
      ((List.range m.total_files).filter fun i => file_path m i ∈ missing_files ∧
        i % job.num_agents = agent_id).map (file_uri job m) =
          own_files job dir_config m initial agent_id := by
    rintro _ rfl
    unfold own_files
    congr 1
    refine List.filter_congr fun i hi => decide_eq_decide.mpr (and_congr_left fun hown => ?_)
    exact hmissing i (List.mem_range.mp hi) hown
  unfold Creation.creates
  dsimp only
  by_cases hempty : expected_files m \ existing_files = ∅
  · rw [if_pos hempty]
    refine ⟨⟨rfl, ?_⟩, Nat.zero_le _⟩
    rw [hnone, ← hown _ hempty.symm]
    simp
  · rw [if_neg hempty]
    obtain ⟨g, hg⟩ := h.sizes
    rw [hg]
    dsimp only
    rw [dirs_with_files h.describes hf]
    have huris : (tree_files job agent_id (expected_files m \ existing_files) m.files_per_dir m.file_dirs
        (0 * m.files_per_dir) (if job.info_enabled then g.description else g)).map (·.uri) = _ :=
      tree_files_uris h.describes h.found List.drop_zero
    rw [Nat.zero_mul, ← h.describes.total_files, ← List.range_eq_range', hown _ rfl] at huris
    obtain ⟨hsound, hleft⟩ := puts_sound (s := s) (by rw [hnone, List.nil_append]; exact huris)
    refine ⟨hsound, hleft.trans ?_⟩
    have hlength := congrArg List.length huris
    unfold own_files at hlength
    rw [List.length_map, List.length_map] at hlength
    rw [hlength]
    exact (List.length_filter_le _ _).trans_eq List.length_range

theorem lists_sound (h : Accepted r job dir_config m) (hf : 0 < m.files_per_dir)
    (hnone : s.put_by agent_id = []) {dirs : List Path} {existing_files : Finset Path}
    (hdirs : ∀ dir_path ∈ dirs, dir_path ∈ m.all_directories)
    (hsees : Sees job dir_config m initial agent_id dirs existing_files) :
    Sound job dir_config m initial s agent_id (.lists r job agent_id m dirs existing_files) ∧
      calls_left m (.lists r job agent_id m dirs existing_files) ≤ dirs.length + m.total_files := by
  unfold Creation.lists
  by_cases hempty : dirs = []
  · subst hempty
    obtain ⟨hsound, hleft⟩ := creates_sound h hf hnone hsees
    exact ⟨hsound, hleft.trans (Nat.le_add_left _ _)⟩
  · rw [if_neg (by simpa using hempty)]
    exact ⟨⟨rfl, hempty, hf, hnone, hdirs, hsees⟩, le_rfl⟩

theorem mkdirs_sound (h : Accepted r job dir_config m) (hnone : s.put_by agent_id = [])
    (dirs : List Path) : Sound job dir_config m initial s agent_id (.mkdirs r job agent_id m dirs) ∧
      calls_left m (.mkdirs r job agent_id m dirs) ≤
        dirs.length + (m.file_dirs.length + m.total_files) := by
  unfold Creation.mkdirs
  by_cases hempty : dirs = []
  · subst hempty
    rw [List.isEmpty_nil, if_pos rfl]
    by_cases hf : 0 < m.files_per_dir
    · rw [if_pos hf, dirs_with_files h.describes hf]
      have hsees : Sees job dir_config m initial agent_id m.file_dirs ∅ := by
        intro i hi _
        obtain ⟨dir_path, hdir, _⟩ := h.found i hi
        exact ⟨fun hin => absurd hin (Finset.notMem_empty _),
          fun _ => .inr ⟨dir_path, List.mem_of_getElem? hdir, hdir⟩⟩
      obtain ⟨hsound, hleft⟩ := lists_sound h hf hnone
        (fun dir_path hdir => List.mem_of_mem_filter hdir) hsees
      exact ⟨hsound, hleft.trans (Nat.le_add_left _ _)⟩
    · rw [if_neg hf]
      have hnofiles : m.total_files = 0 := by
        rw [h.describes.total_files, Nat.eq_zero_of_not_pos hf, Nat.mul_zero]
      refine ⟨⟨rfl, ?_⟩, Nat.zero_le _⟩
      unfold own_files
      rw [hnone, hnofiles]
      rfl
  · rw [if_neg (by simpa using hempty)]
    exact ⟨⟨rfl, hempty, hnone⟩, le_rfl⟩

/-! ## Steps -/

/-- The agents when every call succeeds. -/
def succeeding (r : Random) (job : TreeJob) : Party Store Creation Answer :=
  (creation r job).only Answer.succeeds

/-- What an agent and the store become in a step. -/
theorem step_cases {c : Creation} {answer : Answer} {next : Store × Creation}
    (h : (succeeding r job).step s agent_id c answer = some next) :
    (∃ manifest dir_path dirs, c = .Mkdirs manifest (dir_path :: dirs) ∧
        next = (s, .mkdirs r job agent_id manifest dirs)) ∨
      (∃ manifest dir_path dirs existing_files files,
        c = .Lists manifest (dir_path :: dirs) existing_files ∧
        s.Lists ( dir_prefix job.base_uri dir_path) files ∧
        next = (s, .lists r job agent_id manifest dirs
          (existing_files ∪ (files.filterMap (relative_path job.base_uri)).toFinset))) ∨
      ∃ manifest write writes, c = .Puts manifest (write :: writes) ∧
        next = (s.put agent_id write, .puts manifest writes) := by
  obtain ⟨hok, hstep⟩ := only_step.mp h
  change c.step r job s agent_id answer = some next at hstep
  unfold Creation.step at hstep
  split at hstep
  · rename_i manifest dir_path dirs result
    cases result with
    | error e => cases hok
    | ok _ =>
      cases hstep
      exact .inl ⟨manifest, dir_path, dirs, rfl, rfl⟩
  · rename_i manifest dir_path dirs existing_files result
    cases result with
    | error e => cases hok
    | ok files =>
      dsimp only at hstep
      split at hstep
      · rename_i hlists
        cases hstep
        exact .inr (.inl ⟨manifest, dir_path, dirs, existing_files, files, rfl, hlists, rfl⟩)
      · cases hstep
  · rename_i manifest write writes result
    cases result with
    | error e => cases hok
    | ok _ =>
      cases hstep
      exact .inr (.inr ⟨manifest, write, writes, rfl, rfl⟩)
  · cases hstep

/-- A file that was put was put by the agent that it belongs to. -/
theorem put_by_owner (h : Accepted r job dir_config m) (hkept : Kept job dir_config m initial s)
    (hi : i < m.total_files) (hown : i % job.num_agents = agent_id)
    (hput : file_uri job m i ∈ s.puts.map (·.2.uri)) : file_uri job m i ∈ s.put_by agent_id := by
  obtain ⟨p, hp, huri⟩ := List.mem_map.mp hput
  have hmine := hkept.own p hp
  rw [huri, file_mem_own_files h.found hi, hown] at hmine
  unfold Store.put_by
  exact List.mem_map.mpr ⟨p, List.mem_filter.mpr ⟨hp, decide_eq_true hmine.2.symm⟩, huri⟩

/-- Before an agent puts anything, its files exist as they did at first. -/
theorem own_untouched (h : Accepted r job dir_config m) (hkept : Kept job dir_config m initial s)
    (hnone : s.put_by agent_id = []) (hi : i < m.total_files) (hown : i % job.num_agents = agent_id) :
    file_uri job m i ∈ s.objects ↔ file_uri job m i ∈ initial := by
  rw [hkept.objects, or_iff_left]
  intro hput
  have hin := put_by_owner h hkept hi hown hput
  rw [hnone] at hin
  cases hin

/-- A listing finds the own files of a directory that exist. -/
theorem sees_listed (h : Accepted r job dir_config m) (hkept : Kept job dir_config m initial s)
    (hnone : s.put_by agent_id = []) {dirs : List Path} {existing_files : Finset Path}
    (hdir : dir_path ∈ m.all_directories)
    (hsees : Sees job dir_config m initial agent_id (dir_path :: dirs) existing_files)
    (hlists : s.Lists ( dir_prefix job.base_uri dir_path) files) :
    Sees job dir_config m initial agent_id dirs
      (existing_files ∪ (files.filterMap (relative_path job.base_uri)).toFinset) := by
  intro i hi hown
  obtain ⟨hexists, hknown⟩ := hsees i hi hown
  have huntouched := own_untouched h hkept hnone hi hown
  simp only [Finset.mem_union, List.mem_toFinset]
  constructor
  · rintro (hin | hlisted)
    · exact hexists hin
    · obtain ⟨hmask, hobject⟩ := listed_exists h hdir hlists hi hlisted
      rintro (hempty | hmissing)
      · exact hmask hempty
      · exact hmissing (huntouched.mp hobject)
  · intro hput
    rcases hknown hput with hin | ⟨found, hfound, hplace⟩
    · exact .inl (.inl hin)
    · rcases List.mem_cons.mp hfound with rfl | hlater
      · unfold ToPut at hput
        rw [not_or, not_not] at hput
        exact .inl (.inr (existing_listed h hi hplace hlists hput.1 (huntouched.mpr hput.2)))
      · exact .inr ⟨found, hlater, hplace⟩

/-- An agent puts a file of its own that was not put before. -/
theorem kept_put (h : Accepted r job dir_config m) (hkept : Kept job dir_config m initial s)
    {write : Write} {writes : List Write} (hputs : s.put_by agent_id ++ (write :: writes).map (·.uri) =
      own_files job dir_config m initial agent_id) :
    Kept job dir_config m initial (s.put agent_id write) := by
  have hown : write.uri ∈ own_files job dir_config m initial agent_id := by
    rw [← hputs]
    exact List.mem_append_right _ List.mem_cons_self
  refine ⟨?_, ?_, ?_⟩
  · intro uri
    unfold Store.put
    dsimp only
    rw [Finset.mem_insert, hkept.objects, List.map_append, List.mem_append, List.map_singleton,
      List.mem_singleton]
    tauto
  · intro p hp
    rcases List.mem_append.mp hp with hp | hp
    · exact hkept.own p hp
    · rw [List.mem_singleton.mp hp]
      exact hown
  · unfold Store.put
    dsimp only
    rw [List.map_append, List.map_singleton, List.nodup_append]
    refine ⟨hkept.once, List.nodup_singleton _, ?_⟩
    rintro _ hold _ hnew rfl
    -- what is its own is put by no other agent, and it has put nothing twice
    obtain ⟨i, hi, _, hmine, hfile⟩ := mem_own_files.mp hown
    rw [List.mem_singleton.mp hnew, ← hfile] at hold
    have hin := put_by_owner h hkept hi hmine hold
    rw [hfile] at hin
    have hnodup : (own_files job dir_config m initial agent_id).Nodup := nodup_own_files h.found
    rw [← hputs, List.nodup_append] at hnodup
    exact hnodup.2.2 _ hin _ List.mem_cons_self rfl

theorem sound_of_put_by {t : Store} {c : Creation} (hsame : t.put_by agent_id = s.put_by agent_id)
    (h : Sound job dir_config m initial s agent_id c) : Sound job dir_config m initial t agent_id c := by
  cases c with
  | Mkdirs manifest dirs => exact ⟨h.1, h.2.1, hsame.trans h.2.2⟩
  | Lists manifest dirs existing_files => exact ⟨h.1, h.2.1, h.2.2.1, hsame.trans h.2.2.2.1, h.2.2.2.2⟩
  | Puts manifest writes => exact ⟨h.1, h.2.1, by rw [hsame]; exact h.2.2⟩
  | Returned manifest => exact ⟨h.1, hsame.trans h.2⟩
  | Failed e => exact h

/-- What a step of an agent keeps, and how many calls it leaves. -/
theorem own_step (h : Accepted r job dir_config m) {c : Creation} {answer : Answer}
    {next : Store × Creation} (hkept : Kept job dir_config m initial s)
    (hsound : Sound job dir_config m initial s agent_id c)
    (hstep : (succeeding r job).step s agent_id c answer = some next) :
    Kept job dir_config m initial next.1 ∧ Sound job dir_config m initial next.1 agent_id next.2 ∧
      calls_left m next.2 < calls_left m c := by
  rcases step_cases hstep with ⟨manifest, dir_path, dirs, rfl, rfl⟩ |
    ⟨manifest, dir_path, dirs, existing_files, files, rfl, hlists, rfl⟩ |
    ⟨manifest, write, writes, rfl, rfl⟩
  · obtain ⟨rfl, _, hnone⟩ := hsound
    obtain ⟨hnext, hleft⟩ : Sound job dir_config manifest initial s agent_id _ ∧ _ :=
      mkdirs_sound h hnone dirs
    refine ⟨hkept, hnext, hleft.trans_lt ?_⟩
    change _ < (dir_path :: dirs).length + _
    rw [List.length_cons]
    omega
  · obtain ⟨rfl, _, hf, hnone, hdirs, hsees⟩ := hsound
    have hnow := sees_listed h hkept hnone (hdirs _ List.mem_cons_self) hsees hlists
    obtain ⟨hnext, hleft⟩ := lists_sound h hf hnone
      (fun d hd => hdirs d (List.mem_cons_of_mem _ hd)) hnow
    refine ⟨hkept, hnext, hleft.trans_lt ?_⟩
    change _ < (dir_path :: dirs).length + _
    rw [List.length_cons]
    omega
  · obtain ⟨rfl, _, hputs⟩ := hsound
    have hrest : (s.put agent_id write).put_by agent_id ++ writes.map (·.uri) =
        own_files job dir_config manifest initial agent_id := by
      rw [put_by_put, List.append_assoc]
      exact hputs
    obtain ⟨hnext, hleft⟩ := puts_sound hrest
    exact ⟨kept_put h hkept hputs, hnext, Nat.lt_succ_of_le hleft⟩

theorem step_keeps (h : Accepted r job dir_config m) :
    Preserves (succeeding r job) (Kept job dir_config m initial) (Sound job dir_config m initial) where
  own hkept hsound hstep := by
    obtain ⟨hkept', hsound', _⟩ := own_step h hkept hsound hstep
    exact ⟨hkept', hsound'⟩
  others hkept hsound hstep hother hsound_other := by
    rcases step_cases hstep with ⟨_, _, _, _, rfl⟩ | ⟨_, _, _, _, _, _, _, rfl⟩ | ⟨_, _, _, _, rfl⟩
    · exact hsound_other
    · exact hsound_other
    · exact sound_of_put_by (put_by_put_other hother) hsound_other

/-- An agent goes on until it returns. -/
theorem goes_on {c : Creation} (hsound : Sound job dir_config m initial s agent_id c) :
    c = .Returned m ∨ ∃ answer next, (succeeding r job).step s agent_id c answer = some next := by
  cases c with
  | Mkdirs manifest dirs =>
    obtain ⟨dir_path, dirs, rfl⟩ := List.exists_cons_of_ne_nil hsound.2.1
    exact .inr ⟨.Mkdir (.ok ()), _, only_step.mpr ⟨rfl, rfl⟩⟩
  | Lists manifest dirs existing_files =>
    obtain ⟨dir_path, dirs, rfl⟩ := List.exists_cons_of_ne_nil hsound.2.1
    let files := s.objects.toList.filter fun uri => direct_child ( dir_prefix job.base_uri dir_path) uri
    have hlists : s.Lists ( dir_prefix job.base_uri dir_path) files := by
      constructor
      · intro uri huri
        obtain ⟨hobject, hchild⟩ := List.mem_filter.mp huri
        unfold direct_child at hchild
        obtain ⟨name, hname, _⟩ := Option.any_eq_true _ _ |>.mp hchild
        rw [ eq_of_strip_prefix hname]
        exact ⟨ eq_of_strip_prefix hname ▸ Finset.mem_toList.mp hobject, List.prefix_append _ _⟩
      · intro uri hobject hchild
        exact List.mem_filter.mpr ⟨Finset.mem_toList.mpr hobject, hchild⟩
    have hstep : (creation r job).step s agent_id (.Lists manifest (dir_path :: dirs) existing_files)
        (.List (.ok files)) = some _ := if_pos hlists
    exact .inr ⟨_, _, only_step.mpr ⟨rfl, hstep⟩⟩
  | Puts manifest writes =>
    obtain ⟨write, writes, rfl⟩ := List.exists_cons_of_ne_nil hsound.2.1
    exact .inr ⟨.Put (.ok ()), _, only_step.mpr ⟨rfl, rfl⟩⟩
  | Returned manifest =>
    rw [hsound.1]
    exact .inl rfl
  | Failed e => exact hsound.elim

/-! ## What was put in the end -/

/-- The addresses of all files of the manifest. -/
def file_uris (job : TreeJob) (m : TreeManifest) : List Path :=
  ((List.range m.total_files).filterMap m.get_file_path).map (joinUri job.base_uri)

/-- Each file that was missing is put once, and nothing else is put. -/
structure CreatesMissing (files : List Path) (initial : Finset Path) (puts : List Path) : Prop where
  once : puts.Nodup
  missing : ∀ uri, uri ∈ puts ↔ uri ∈ files ∧ uri ∉ initial

/-- All agents have returned the manifest, and have made what was missing. -/
def TreeCreated (job : TreeJob) (m : TreeManifest) (initial : Finset Path)
    (t : Table Store Creation) : Prop :=
  (∀ c ∈ t.members, c = .Returned m) ∧
    CreatesMissing (file_uris job m) initial (t.shared.puts.map (·.2.uri))

theorem mem_file_uris (h : FoundByNumber m) :
    uri ∈ file_uris job m ↔ ∃ i < m.total_files, file_uri job m i = uri := by
  unfold file_uris
  rw [List.mem_map]
  constructor
  · rintro ⟨path, hpath, rfl⟩
    obtain ⟨i, hi, hfile⟩ := List.mem_filterMap.mp hpath
    refine ⟨i, List.mem_range.mp hi, ?_⟩
    unfold file_uri file_path
    rw [hfile]
    rfl
  · rintro ⟨i, hi, rfl⟩
    exact ⟨file_path m i, List.mem_filterMap.mpr ⟨i, List.mem_range.mpr hi, file_path_eq h hi⟩, rfl⟩

theorem holds_start (h : Accepted r job dir_config m) (initial : Finset Path) :
    (job.start r initial).Holds (Kept job dir_config m initial) (Sound job dir_config m initial) := by
  constructor
  · refine ⟨fun uri => ?_, fun p hp => ?_, List.nodup_nil⟩
    · exact (or_iff_left List.not_mem_nil).symm
    · cases hp
  · intro a c hc
    unfold TreeJob.start at hc
    dsimp only at hc
    rw [List.getElem?_map, Option.map_eq_some_iff] at hc
    obtain ⟨agent_id, hagent, rfl⟩ := hc
    obtain ⟨_, hsame⟩ := List.getElem?_eq_some_iff.mp hagent
    rw [List.getElem_range] at hsame
    subst hsame
    unfold Creation.start
    rw [h.config]
    dsimp only
    rw [h.manifest]
    exact (mkdirs_sound h rfl _).1

/-- The agents all return in the end. -/
theorem agents_return (h : Accepted r job dir_config m) (initial : Finset Path) :
    (succeeding r job).machine.Ends (fun t => ∀ c ∈ t.members, c = .Returned m)
      (job.start r initial) :=
  (step_keeps h).ends (calls_left m)
    (fun hkept hsound hstep => (own_step h hkept hsound hstep).2.2)
    (fun _ hsound => goes_on hsound) (holds_start h initial)

/-- When all have returned, all files that are to be put have been, each once. -/
theorem puts_of_returned (h : Accepted r job dir_config m) {es : List (Nat × Answer)}
    {t : Table Store Creation} (hrun : (succeeding r job).machine.run (job.start r initial) es = some t)
    (hreturned : ∀ c ∈ t.members, c = .Returned m) :
    (t.shared.puts.map (·.2.uri)).Nodup ∧ ∀ uri, uri ∈ t.shared.puts.map (·.2.uri) ↔
      ∃ i < m.total_files, ToPut job dir_config m initial i ∧ file_uri job m i = uri := by
  have hholds := (step_keeps h).run (holds_start h initial) hrun
  refine ⟨hholds.shared.once, fun uri => ?_⟩
  constructor
  · intro huri
    obtain ⟨p, hp, rfl⟩ := List.mem_map.mp huri
    obtain ⟨i, hi, hput, _, hfile⟩ := mem_own_files.mp (hholds.shared.own p hp)
    exact ⟨i, hi, hput, hfile⟩
  · rintro ⟨i, hi, hput, rfl⟩
    -- the agent that the file belongs to has returned
    have hagents : i % job.num_agents < t.members.length := by
      rw [length_run hrun]
      unfold TreeJob.start
      rw [List.length_map, List.length_range]
      exact Nat.mod_lt i h.agents
    have hmember := List.getElem?_eq_getElem hagents
    have hsound := hholds.members _ _ hmember
    rw [hreturned _ (List.getElem_mem hagents)] at hsound
    have hin : file_uri job m i ∈ t.shared.put_by (i % job.num_agents) := by
      rw [hsound.2]
      exact (file_mem_own_files h.found hi).mpr ⟨hput, rfl⟩
    obtain ⟨p, hp, huri⟩ := List.mem_map.mp hin
    exact List.mem_map.mpr ⟨p, List.mem_of_mem_filter hp, huri⟩

/-- With an empty mask no file is known, so one that existed is put. -/
theorem none_existed_of_created (h : Accepted r job dir_config m) (hmask : dir_config.dir_mask = [])
    (hends : (succeeding r job).machine.Ends (TreeCreated job m initial) (job.start r initial)) :
    ∀ uri ∈ file_uris job m, uri ∉ initial := by
  obtain ⟨es, t, hrun, hreturned, hcreated⟩ := hends.reaches
  obtain ⟨_, hput⟩ := puts_of_returned h hrun hreturned
  intro uri huri
  obtain ⟨i, hi, hfile⟩ := (mem_file_uris h.found).mp huri
  exact ((hcreated.missing uri).mp ((hput uri).mpr ⟨i, hi, .inl hmask, hfile⟩)).2

/-- The files that were missing are made, each once, exactly when the mask is not empty
or no file existed. -/
theorem tree_creation_is_exact_iff (h : Accepted r job dir_config m) (initial : Finset Path) :
    (succeeding r job).machine.Ends (TreeCreated job m initial) (job.start r initial) ↔
      dir_config.dir_mask ≠ [] ∨ ∀ uri ∈ file_uris job m, uri ∉ initial := by
  constructor
  · intro hends
    by_cases hmask : dir_config.dir_mask = []
    · exact .inr (none_existed_of_created h hmask hends)
    · exact .inl hmask
  · intro hcond
    have hreturn := agents_return h initial
    refine ⟨hreturn.bounded, fun es t hrun => (hreturn.goes_on es t hrun).imp_left ?_⟩
    intro hreturned
    obtain ⟨honce, hput⟩ := puts_of_returned h hrun hreturned
    refine ⟨hreturned, honce, fun uri => ?_⟩
    rw [hput, mem_file_uris h.found]
    constructor
    · rintro ⟨i, hi, hto_put, rfl⟩
      refine ⟨⟨i, hi, rfl⟩, ?_⟩
      rcases hcond with hmask | hnone
      · exact hto_put.resolve_left hmask
      · exact hnone _ ((mem_file_uris h.found).mpr ⟨i, hi, rfl⟩)
    · rintro ⟨⟨i, hi, rfl⟩, hmissing⟩
      exact ⟨i, hi, .inr hmissing, rfl⟩

end

/-! ### A tree of one directory -/

def one_dir (dir_mask : String) : DirectoryStructureConfig :=
  { width := 1, depth := 1, files_per_dir := 1, dir_mask := dir_mask.toList }

/-- Two agents are to make the file of one directory. -/
def one_file (dir_mask : String) : TreeJob :=
  { config := { directory_structure := some (one_dir dir_mask) }
    base_uri := "s3://bucket".toList
    num_agents := 2 }

theorem one_file_is_kept : ∃ m, (succeeding noRandom (one_file "dir.d%d_w%d")).machine.Ends
    (TreeCreated (one_file "dir.d%d_w%d") m {"s3://bucket/dir.d1_w1/file_00000000.dat".toList})
    ((one_file "dir.d%d_w%d").start noRandom {"s3://bucket/dir.d1_w1/file_00000000.dat".toList}) := by
  have hmanifest : create_tree_manifest_only (one_dir "dir.d%d_w%d") 2 = .ok _ := rfl
  exact ⟨_, (tree_creation_is_exact_iff ⟨rfl, hmanifest, ⟨_, rfl⟩, by decide, by decide⟩ _).mpr
    (.inl (by decide))⟩

/-- An empty mask: the file exists below two slashes, and is put again. -/
theorem one_file_is_put_again : ¬ ∀ (r : Random) (job : TreeJob) (dir_config : DirectoryStructureConfig)
    (m : TreeManifest) (initial : Finset Path), Accepted r job dir_config m →
      (succeeding r job).machine.Ends (TreeCreated job m initial) (job.start r initial) := by
  intro hall
  have hmanifest : create_tree_manifest_only (one_dir "") 2 = .ok _ := rfl
  have haccepted : Accepted noRandom (one_file "") (one_dir "") _ :=
    ⟨rfl, hmanifest, ⟨_, rfl⟩, by decide, by decide⟩
  have hends := hall _ _ _ _ {"s3://bucket//file_00000000.dat".toList} haccepted
  exact none_existed_of_created haccepted rfl hends "s3://bucket//file_00000000.dat".toList
    (by decide) (Finset.mem_singleton_self _)

end sai3_bench.prepare.tree
