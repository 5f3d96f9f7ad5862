-- On which endpoint a file of a tree is (workload.rs, prepare/sequential.rs,
-- prepare/parallel.rs): the address that each prepare strategy gives it, and the
-- one under which a workload works on it.
import Sai3Bench.ConfigTrips
import Sai3Bench.ParallelPlans
import Sai3Bench.SequentialPrepares
import Sai3Bench.TreeShapes

namespace sai3_bench.workload

open directory_tree TreeManifest prepare texts size_generator
open config.written (Config PrepareStrategy)

/-! ## The address in a workload -/

def extract_file_index_from_path (path : Path) : Option Nat :=
  let filename := lastPart '/' path
  let name_without_ext := ( strip_suffix ".dat".toList filename).getD filename
  if '_' ∈ name_without_ext then parse_u64 (lastPart '_' name_without_ext)
  else if '-' ∈ name_without_ext then parse_u64 (lastPart '-' name_without_ext)
  else none

/-- The files go to the endpoints in turn; without endpoints all are under the target. -/
def tree_base_uri (cfg : Config) (file_path : Path) : Except String Path :=
  match cfg.multi_endpoint with
  | some me_cfg =>
    let file_idx := (extract_file_index_from_path file_path).getD 0
    match me_cfg.endpoints[file_idx % me_cfg.endpoints.length]? with
    | some base_uri => .ok base_uri.toList
    | none => .error "attempt to calculate the remainder with a divisor of zero"
  | none => match cfg.target with
    | some target => .ok target.toList
    | none => .error "target required in tree mode"

/-- What GET, PUT, STAT and DELETE make of the path of a file. -/
def tree_uri (cfg : Config) (file_path : Path) : Except String Path :=
  (tree_base_uri cfg file_path).map (joinUri · file_path)

/-- The number of a file is read back from its path. -/
theorem extract_file_index (dir_path : Path) {i : Nat} (h : i < 2 ^ 64) :
    extract_file_index_from_path (dir_path ++ '/' :: get_file_name i) = some i := by
  have hmark : '_' ∉ padded 10 8 i := not_mem_padded rfl
  have hname : "file_".toList ++ padded 10 8 i = "file".toList ++ '_' :: padded 10 8 i := rfl
  unfold extract_file_index_from_path
  dsimp only
  rw [lastPart_append (slash_not_mem_file_name i)]
  unfold get_file_name
  rw [strip_suffix_append, Option.getD_some, hname, if_pos (by simp), lastPart_append hmark,
    parse_padded h]

/-! ## The address in a prepare phase -/

/-- The address that a strategy gives to the object of a number. -/
def prepare_uri (job : Job) (turn : Turn) (idx : Nat) : PrepareStrategy → Option Path
  | .Sequential => (turn.spec.get_base_uri job.multi_endpoint_uris).toOption.bind fun base_uri =>
    turn.uri job base_uri idx
  | .Parallel => (parallel.endpointsOf job turn.spec).toOption.map fun endpoints =>
    (parallel.planOf job turn endpoints ∅).uri job idx

/-- What the sequential strategy puts has this address. -/
theorem sequential_task_uri {r : Random} {job : Job} {turn : Turn}
    {cache : Option metadata_cache.MetadataCache} {e : TurnEvent} {tasks : List PrepareTask} {n : Nat} {task : PrepareTask}
    (h : turn.plan r job cache e = .ok (.Create tasks n)) (htask : task ∈ tasks) :
    prepare_uri job turn task.file_idx .Sequential = some task.uri := by
  obtain ⟨base_uri, existing, hbase, _, ⟨_, _, _, hplan⟩ | ⟨_, g, _, hplan⟩⟩ := Turn.plan_ok h
  · cases hplan
  · cases hplan
    unfold prepare_uri
    rw [hbase]
    exact (mem_createTasks.mp htask).2.2.1

/-- And what the parallel one puts. -/
theorem parallel_task_uri {r : Random} {job : Job} {turn : Turn}
    {stream : Path → List (Except String Path)} {covers_all : Bool} {plan : parallel.PreparePlan}
    {n : Nat} {g : SizeGenerator r} {task : PrepareTask}
    (h : parallel.planTurn job stream covers_all turn = .ok (some (plan, n)))
    (htask : task ∈ plan.tasks job g) :
    prepare_uri job turn task.file_idx .Parallel = some task.uri := by
  obtain ⟨endpoints, e, hendpoints, _, ⟨_, hplan⟩ | ⟨_, hplan⟩⟩ := parallel.planTurn_ok h
  · cases hplan
  · cases hplan
    unfold prepare_uri
    rw [hendpoints]
    exact (mem_createTasks.mp htask).2.2.1

/-! ## The two addresses -/

/-- Each file of the tree is worked on under the address that prepare gives it. -/
def PlacementAgrees (cfg : Config) (job : Job) (turn : Turn) (manifest : TreeManifest)
    (strategy : PrepareStrategy) : Prop :=
  ∀ i < manifest.total_files, ∃ file_path uri, manifest.get_file_path i = some file_path ∧
    tree_uri cfg file_path = .ok uri ∧ prepare_uri job turn i strategy = some uri

/-- The endpoint of a file. -/
def endpointOf (endpoints : List Path) (i : Nat) : Path := endpoints.getD (i % endpoints.length) []

theorem joinUri_inj {b b' key : Path} :
    joinUri b key = joinUri b' key ↔ withSlash b = withSlash b' := by
  unfold joinUri
  exact List.append_left_inj key

/-- The endpoints that the files are on are the first ones. -/
theorem forall_endpointOf {endpoints : List Path} (hne : endpoints ≠ []) {total : Nat}
    {P : Path → Prop} : (∀ i < total, P (endpointOf endpoints i)) ↔
      ∀ endpoint ∈ endpoints.take total, P endpoint := by
  have hpos := List.length_pos_iff.mpr hne
  constructor
  · intro h endpoint hmem
    obtain ⟨k, hk, rfl⟩ := List.mem_iff_getElem.mp hmem
    rw [List.length_take, Nat.lt_min] at hk
    have hend := h k hk.1
    unfold endpointOf at hend
    rw [Nat.mod_eq_of_lt hk.2, List.getD_eq_getElem?_getD, List.getElem?_eq_getElem hk.2] at hend
    rwa [List.getElem_take]
  · intro h i hi
    have hlt := Nat.mod_lt i hpos
    unfold endpointOf
    rw [List.getD_eq_getElem?_getD, List.getElem?_eq_getElem hlt]
    apply h
    rw [List.mem_take_iff_getElem]
    exact ⟨i % endpoints.length, by have := Nat.mod_le i endpoints.length; omega, rfl⟩

section

variable {dir_config : DirectoryStructureConfig} {num_agents : Nat} {manifest : TreeManifest}
  {cfg : Config} {me_cfg : config.written.MultiEndpointConfig} {job : Job} {turn : Turn}

/-- A manifest has a path for each file. -/
theorem file_path_of_tree (hm : create_tree_manifest_only dir_config num_agents = .ok manifest) {i : Nat}
    (hi : i < manifest.total_files) :
    ∃ dir_path, manifest.get_file_path i = some (dir_path ++ '/' :: get_file_name i) := by
  obtain ⟨tree, hnew, hdescribes⟩ := describes_manifest_only hm
  obtain ⟨hw, hd, _, _, _, hdist⟩ := DirectoryTree.new_ok hnew
  obtain ⟨p, hp⟩ := get_file_path_isSome hdescribes hw hd (hdist.imp And.left And.left) hi
  obtain ⟨dir_path, rfl⟩ := get_file_path_eq hp
  exact ⟨dir_path, hp⟩

/-- The endpoint that a workload takes for a file. -/
theorem tree_uri_of_file (hme : cfg.multi_endpoint = some me_cfg) (hne : me_cfg.endpoints ≠ [])
    (dir_path : Path) {i : Nat} (hi : i < 2 ^ 64) :
    tree_uri cfg (dir_path ++ '/' :: get_file_name i) =
      .ok (joinUri (endpointOf (me_cfg.endpoints.map String.toList) i)
        (dir_path ++ '/' :: get_file_name i)) := by
  have hlt := Nat.mod_lt i (List.length_pos_iff.mpr hne)
  unfold tree_uri tree_base_uri endpointOf
  rw [hme]
  dsimp only
  rw [extract_file_index dir_path hi, Option.getD_some, List.length_map,
    List.getD_eq_getElem?_getD, List.getElem?_map, List.getElem?_eq_getElem hlt]
  rfl

/-- The first endpoints, as many as there are files, are the base of the spec when the
strategy is sequential: it puts all files under one base. -/
theorem placement_agrees_iff {base_uri : Path} (strategy : PrepareStrategy)
    (hm : create_tree_manifest_only dir_config num_agents = .ok manifest)
    (hfits : manifest.total_files ≤ 2 ^ 64) (hme : cfg.multi_endpoint = some me_cfg)
    (hne : me_cfg.endpoints ≠ [])
    (hjob : job.multi_endpoint_uris = some (me_cfg.endpoints.map String.toList))
    (htree : job.tree_manifest = some manifest)
    (hbase : turn.spec.get_base_uri job.multi_endpoint_uris = .ok base_uri) :
    PlacementAgrees cfg job turn manifest strategy ↔ strategy = .Parallel ∨
      ∀ endpoint ∈ (me_cfg.endpoints.map String.toList).take manifest.total_files,
        withSlash endpoint = withSlash base_uri := by
  have hpath := fun i (hi : i < manifest.total_files) => file_path_of_tree hm hi
  have hneed : me_cfg.endpoints.map String.toList ≠ [] := by simpa using hne
  cases strategy with
  | Parallel =>
    simp only [true_or, iff_true]
    intro i hi
    obtain ⟨dir_path, hfile⟩ := hpath i hi
    obtain ⟨multi_ep, hmulti, hendpoints⟩ := Option.map_eq_some_iff.mp hjob
    refine ⟨_, _, hfile, tree_uri_of_file hme hne dir_path (by omega), ?_⟩
    unfold prepare_uri parallel.endpointsOf
    rw [hmulti]
    show some ((parallel.planOf job turn multi_ep.endpoints ∅).uri job i) = _
    unfold parallel.PreparePlan.uri
    dsimp only
    rw [htree]
    dsimp only
    rw [hfile, ← hendpoints]
    rfl
  | Sequential =>
    have hprepare : ∀ i dir_path, manifest.get_file_path i = some (dir_path ++ '/' :: get_file_name i) →
        prepare_uri job turn i .Sequential =
          some (joinUri base_uri (dir_path ++ '/' :: get_file_name i)) := by
      intro i dir_path hfile
      unfold prepare_uri
      rw [hbase]
      show turn.uri job base_uri i = _
      unfold Turn.uri
      rw [htree]
      dsimp only
      rw [hfile]
      rfl
    rw [← forall_endpointOf hneed]
    simp only [reduceCtorEq, false_or]
    constructor
    · intro h i hi
      obtain ⟨dir_path, hfile⟩ := hpath i hi
      obtain ⟨file_path, uri, hfile', huri, hput⟩ := h i hi
      cases hfile.symm.trans hfile'
      rw [tree_uri_of_file hme hne dir_path (by omega)] at huri
      rw [hprepare i dir_path hfile, ← Except.ok.inj huri] at hput
      exact (joinUri_inj.mp (Option.some.inj hput)).symm
    · intro h i hi
      obtain ⟨dir_path, hfile⟩ := hpath i hi
      refine ⟨_, _, hfile, tree_uri_of_file hme hne dir_path (by omega), ?_⟩
      rw [hprepare i dir_path hfile, joinUri_inj.mpr (h i hi)]

end

/-! ### Two directories on two endpoints -/

def two_files : DirectoryStructureConfig := { width := 2, depth := 1, files_per_dir := 1 }

def two_endpoints : Config :=
  { workload := [], multi_endpoint := some { endpoints := ["s3://a/", "s3://b/"] } }

/-- The job that prepares the tree on the endpoints. -/
def two_endpoints_job (manifest : TreeManifest) : Job :=
  { config := { ensure_objects := [{ count := 2 }] }
    multi_endpoint := some ⟨["s3://a/".toList, "s3://b/".toList], by decide⟩
    tree_manifest := some manifest }

theorem parallel_placement_agrees : ∃ manifest, create_tree_manifest_only two_files 1 = .ok manifest ∧
    PlacementAgrees two_endpoints (two_endpoints_job manifest) ⟨{ count := 2 }, "prepared".toList⟩
      manifest .Parallel := by
  have hm : create_tree_manifest_only two_files 1 = .ok _ := rfl
  exact ⟨_, hm, (placement_agrees_iff .Parallel hm (by decide) rfl (by decide) rfl rfl rfl).mpr
    (.inl rfl)⟩

theorem sequential_placement_disagrees : ¬ ∀ (strategy : PrepareStrategy)
    (dir_config : DirectoryStructureConfig) (num_agents : Nat) (manifest : TreeManifest) (cfg : Config)
    (me_cfg : config.written.MultiEndpointConfig) (job : Job) (turn : Turn) (base_uri : Path),
    create_tree_manifest_only dir_config num_agents = .ok manifest →
      manifest.total_files ≤ 2 ^ 64 → cfg.multi_endpoint = some me_cfg → me_cfg.endpoints ≠ [] →
        job.multi_endpoint_uris = some (me_cfg.endpoints.map String.toList) →
          job.tree_manifest = some manifest →
            turn.spec.get_base_uri job.multi_endpoint_uris = .ok base_uri →
              PlacementAgrees cfg job turn manifest strategy := by
  intro h
  have hagree := h .Sequential two_files 1 _ two_endpoints _ (two_endpoints_job _)
    ⟨{ count := 2 }, "prepared".toList⟩ _ rfl (by decide) rfl (by decide) rfl rfl rfl 1 (by decide)
  obtain ⟨file_path, uri, hfile, huri, hput⟩ := hagree
  have hpath : file_path = "sai3bench.d1_w2.dir/file_00000001.dat".toList := by
    rw [← Option.some.inj hfile]
    decide
  rw [hpath] at huri
  have hsame := hput.trans (congrArg some (Except.ok.inj huri).symm)
  exact absurd hsame (by decide)

end sai3_bench.workload
