-- The objects that a cleanup deletes without listing any (prepare/cleanup.rs), beside
-- those that a whole prepare phase writes.
import Sai3Bench.ObjectAddresses
import Sai3Bench.ParallelPlans
import Sai3Bench.RunConfigs
import Sai3Bench.SequentialPrepares

namespace sai3_bench.prepare

open directory_tree texts size_generator
open config.written (PrepareStrategy)

/-! ## The cleanup -/

def cleanup_pools : List Path := ["prepared".toList, "deletable".toList]

def generate_cleanup_objects (config : PrepareConfig) (agent_id num_agents : Nat) :
    List PreparedObject :=
  config.ensure_objects.flatMap fun spec =>
    let base_uri := match spec.get_base_uri none with
      | .ok base_uri => base_uri
      | .error _ => []
    if base_uri = [] then []
    else cleanup_pools.flatMap fun pool =>
      ((List.range spec.count).filter fun index =>
        decide (num_agents ≤ 1) || index % num_agents = agent_id).map fun i =>
          { uri := joinUri base_uri (objectKey config.key_prefix_shards pool i)
            size := 0
            created := true }

/-! ## A whole prepare phase -/

/-- The job of an agent that finds nothing, and so makes all that is its own. -/
def fullJob (job : Job) (num_agents agent_id : Nat) : Job :=
  parallel.agentOf { job with config := { job.config with skip_verification := false } }
    num_agents agent_id

/-- What is put of a turn where nothing is yet. -/
def full_tasks {r : Random} (strategy : PrepareStrategy) (job : Job) (g : SizeGenerator r)
    (turn : Turn) : List PrepareTask :=
  match strategy with
  | .Sequential =>
    match turn.spec.get_base_uri job.multi_endpoint_uris with
    | .error _ => []
    | .ok base_uri =>
      createTasks (Turn.selects job ⟨0, ∅⟩) (turn.uri job base_uri) g (List.range turn.spec.count)
  | .Parallel =>
    match parallel.endpointsOf job turn.spec with
    | .error _ => []
    | .ok endpoints => (parallel.planOf job turn endpoints ∅).tasks job g

/-- One of the agents writes an object under the address. -/
def Written {r : Random} (strategy : PrepareStrategy) (job : Job) (num_agents : Nat)
    (g : SizeGenerator r) (uri : Path) : Prop :=
  ∃ agent_id < num_agents, ∃ turn ∈ job.turns,
    ∃ task ∈ full_tasks strategy (fullJob job num_agents agent_id) g turn, task.uri = uri

/-- The base that the object of a number goes to. -/
def base_of (strategy : PrepareStrategy) (job : Job) (spec : EnsureSpec) (idx : Nat) : Option Path :=
  match strategy with
  | .Sequential => (spec.get_base_uri job.multi_endpoint_uris).toOption
  | .Parallel => (parallel.endpointsOf job spec).toOption.map fun endpoints =>
      endpoints.getD (idx % endpoints.length) []

/-- The file of the tree that has a number. -/
def tree_file (job : Job) (idx : Nat) : Option Path :=
  job.tree_manifest.bind fun manifest => manifest.get_file_path idx

/-! ## Directories and names -/

def shard_dir (key_prefix_shards idx : Nat) : Path :=
  if 0 < key_prefix_shards then padded 16 2 (idx % key_prefix_shards) ++ ['/'] else []

def object_name (pool : Path) (idx : Nat) : Path := pool ++ '-' :: padded 10 8 idx ++ ".dat".toList

theorem objectKey_eq (key_prefix_shards : Nat) (pool : Path) (idx : Nat) :
    objectKey key_prefix_shards pool idx =
      shard_dir key_prefix_shards idx ++ object_name pool idx := by
  unfold objectKey shard_dir object_name
  dsimp only
  split
  · exact List.append_cons ..
  · rfl

/-- Where an object goes that has no file in the tree: it keeps the name of its pool. -/
def pool_dir (strategy : PrepareStrategy) (job : Job) (idx : Nat) : Option Path :=
  match job.tree_manifest, strategy with
  | none, _ => some (shard_dir job.config.key_prefix_shards idx)
  | some _, .Parallel => some []
  | some _, .Sequential => none

def prepare_dir (strategy : PrepareStrategy) (job : Job) (spec : EnsureSpec) (idx : Nat) :
    Option Path :=
  (base_of strategy job spec idx).bind fun base_uri =>
    (pool_dir strategy job idx).map fun dir => withSlash base_uri ++ dir

def cleanup_dir (config : PrepareConfig) (spec : EnsureSpec) (idx : Nat) : Option Path :=
  spec.base_uri.bind fun base_uri =>
    if base_uri = [] then none
    else some (withSlash base_uri ++ shard_dir config.key_prefix_shards idx)

/-- The address of an object of a turn. -/
def object_uri (strategy : PrepareStrategy) (job : Job) (turn : Turn) (idx : Nat) : Option Path :=
  match tree_file job idx with
  | some rel_path => (base_of strategy job turn.spec idx).map fun base_uri => joinUri base_uri rel_path
  | none => (prepare_dir strategy job turn.spec idx).map fun dir => dir ++ object_name turn.pool idx

variable {strategy : PrepareStrategy} {job : Job} {turn : Turn} {idx : Nat} {uri : Path}

theorem sequential_uri (base_uri : Path) : turn.uri job base_uri idx =
    match tree_file job idx with
    | some rel_path => some (joinUri base_uri rel_path)
    | none => (pool_dir .Sequential job idx).map fun dir =>
        withSlash base_uri ++ dir ++ object_name turn.pool idx := by
  unfold Turn.uri tree_file pool_dir
  cases job.tree_manifest with
  | none =>
    show some (joinUri base_uri (objectKey _ _ _)) = some (_ ++ _ ++ _)
    rw [objectKey_eq, List.append_assoc]
    rfl
  | some manifest =>
    dsimp only [Option.bind_some]
    cases manifest.get_file_path idx <;> rfl

theorem parallel_uri (endpoints : List Path) :
    (parallel.planOf job turn endpoints ∅).uri job idx =
      match tree_file job idx with
      | some rel_path => joinUri (endpoints.getD (idx % endpoints.length) []) rel_path
      | none => withSlash (endpoints.getD (idx % endpoints.length) []) ++
          (pool_dir .Parallel job idx).getD [] ++ object_name turn.pool idx := by
  unfold parallel.PreparePlan.uri tree_file pool_dir
  cases job.tree_manifest with
  | none =>
    dsimp only [Option.bind_none, Option.getD_some]
    show joinUri _ (objectKey _ _ _) = _
    rw [objectKey_eq]
    unfold joinUri
    rw [List.append_assoc]
    rfl
  | some manifest =>
    dsimp only [Option.bind_some, Option.getD_some]
    cases manifest.get_file_path idx with
    | none =>
      dsimp only
      rw [objectKey_eq]
      unfold joinUri
      rw [List.append_assoc]
      rfl
    | some rel_path => rfl

theorem object_uri_sequential : object_uri .Sequential job turn idx =
    (base_of .Sequential job turn.spec idx).bind fun base_uri => turn.uri job base_uri idx := by
  unfold object_uri prepare_dir
  cases base_of .Sequential job turn.spec idx with
  | none => cases tree_file job idx <;> rfl
  | some base_uri =>
    show _ = turn.uri job base_uri idx
    rw [sequential_uri]
    cases tree_file job idx with
    | some rel_path => rfl
    | none => cases pool_dir .Sequential job idx <;> rfl

theorem object_uri_parallel : object_uri .Parallel job turn idx =
    (parallel.endpointsOf job turn.spec).toOption.map fun endpoints =>
      (parallel.planOf job turn endpoints ∅).uri job idx := by
  unfold object_uri prepare_dir base_of
  cases (parallel.endpointsOf job turn.spec).toOption with
  | none => cases tree_file job idx <;> rfl
  | some endpoints =>
    simp only [Option.map_some]
    rw [parallel_uri]
    have hdir : ∃ dir, pool_dir .Parallel job idx = some dir := by
      unfold pool_dir
      cases job.tree_manifest with
      | none => exact ⟨_, rfl⟩
      | some manifest => exact ⟨_, rfl⟩
    obtain ⟨dir, hdir⟩ := hdir
    rw [hdir]
    cases tree_file job idx <;> rfl

/-! ## What a whole prepare phase writes -/

/-- One of the agents has each number. -/
theorem exists_mine {n : Nat} (hn : 0 < n) (idx : Nat) :
    ∃ agent_id < n, (n ≤ 1 ∨ idx % n = agent_id) := by
  rcases Nat.lt_or_ge 1 n with h | h
  · exact ⟨idx % n, Nat.mod_lt _ hn, .inr rfl⟩
  · exact ⟨0, hn, .inl h⟩

theorem mem_created {r : Random} {g : SizeGenerator r} {select : Nat → Bool} {n : Nat}
    {f : Nat → Option Path} : (∃ task ∈ createTasks select f g (List.range n), task.uri = uri) ↔
      ∃ idx < n, select idx = true ∧ f idx = some uri := by
  constructor
  · rintro ⟨task, htask, rfl⟩
    obtain ⟨hlt, hselect, huri, _⟩ := mem_createTasks.mp htask
    exact ⟨task.file_idx, hlt, hselect, huri⟩
  · rintro ⟨idx, hlt, hselect, huri⟩
    exact ⟨⟨uri, g.size idx, idx⟩, mem_createTasks.mpr ⟨hlt, hselect, huri, rfl⟩, rfl⟩

theorem selects_full {n a : Nat} :
    Turn.selects (fullJob job n a) ⟨0, ∅⟩ idx = true ↔ n ≤ 1 ∨ idx % n = a := by
  show (decide (idx ∉ (∅ : Finset Nat)) && (decide (n ≤ 1) || decide (idx % n = a))) = true ↔ _
  simp

theorem parallel_selects_full {n a : Nat} {endpoints : List Path} :
    (parallel.planOf (fullJob job n a) turn endpoints ∅).selects (fullJob job n a) idx = true ↔
      n ≤ 1 ∨ idx % n = a := by
  have hcreate : (parallel.planOf (fullJob job n a) turn endpoints ∅).should_create idx = true := by
    unfold parallel.PreparePlan.should_create
    show (if false && !job.config.force_overwrite then false
      else if job.config.force_overwrite then true else decide (idx ∉ (∅ : Finset Nat))) = true
    simp
  unfold parallel.PreparePlan.selects
  rw [hcreate, Bool.true_and]
  show (!(true && decide (1 < n)) || decide (idx % n = a)) = true ↔ _
  simp

/-- The tasks of an agent are those of its numbers. -/
theorem mem_full_tasks {r : Random} {g : SizeGenerator r} {n a : Nat} :
    (∃ task ∈ full_tasks strategy (fullJob job n a) g turn, task.uri = uri) ↔
      ∃ idx < turn.spec.count, (n ≤ 1 ∨ idx % n = a) ∧ object_uri strategy job turn idx = some uri := by
  cases strategy with
  | Sequential =>
    have huris : (fullJob job n a).multi_endpoint_uris = job.multi_endpoint_uris := rfl
    simp only [object_uri_sequential]
    unfold full_tasks base_of
    dsimp only
    rw [huris]
    cases turn.spec.get_base_uri job.multi_endpoint_uris with
    | error e => simp [Except.toOption]
    | ok base_uri =>
      dsimp only
      rw [mem_created]
      simp only [selects_full]
      rfl
  | Parallel =>
    have hendpoints : parallel.endpointsOf (fullJob job n a) turn.spec =
        parallel.endpointsOf job turn.spec := rfl
    simp only [object_uri_parallel]
    unfold full_tasks
    dsimp only
    rw [hendpoints]
    cases parallel.endpointsOf job turn.spec with
    | error e => simp [Except.toOption]
    | ok endpoints =>
      dsimp only
      unfold parallel.PreparePlan.tasks
      rw [mem_created]
      simp only [parallel_selects_full]
      rfl

theorem written_iff {r : Random} {g : SizeGenerator r} {n : Nat} (hn : 0 < n) :
    Written strategy job n g uri ↔
      ∃ turn ∈ job.turns, ∃ idx < turn.spec.count, object_uri strategy job turn idx = some uri := by
  unfold Written
  simp only [mem_full_tasks]
  constructor
  · rintro ⟨_, _, turn, hturn, idx, hlt, _, huri⟩
    exact ⟨turn, hturn, idx, hlt, huri⟩
  · rintro ⟨turn, hturn, idx, hlt, huri⟩
    obtain ⟨a, ha, hmine⟩ := exists_mine hn idx
    exact ⟨a, ha, turn, hturn, idx, hlt, hmine, huri⟩

/-! ## What the cleanup names -/

/-- The addresses of one agent's list. -/
def cleanup_uris (config : PrepareConfig) (agent_id num_agents : Nat) : List Path :=
  (generate_cleanup_objects config agent_id num_agents).map (·.uri)

theorem mem_cleanup_uris {config : PrepareConfig} {n a : Nat} : uri ∈ cleanup_uris config a n ↔
    ∃ spec ∈ config.ensure_objects, ∃ pool ∈ cleanup_pools, ∃ idx < spec.count,
      (n ≤ 1 ∨ idx % n = a) ∧ ∃ dir, cleanup_dir config spec idx = some dir ∧
        uri = dir ++ object_name pool idx := by
  unfold cleanup_uris generate_cleanup_objects
  rw [List.map_flatMap, List.mem_flatMap]
  refine exists_congr fun spec => and_congr_right fun _ => ?_
  unfold cleanup_dir EnsureSpec.get_base_uri
  cases spec.base_uri with
  | none => simp
  | some base_uri =>
    dsimp only [Option.bind_some]
    split
    · simp
    · simp only [List.map_flatMap, List.map_map, List.mem_flatMap, List.mem_map, List.mem_filter,
        List.mem_range, Bool.or_eq_true, decide_eq_true_eq, Function.comp_def, Option.some.injEq,
        exists_eq_left', and_assoc]
      refine exists_congr fun pool => and_congr_right fun _ => exists_congr fun idx =>
        and_congr_right fun _ => and_congr_right fun _ => ?_
      unfold joinUri
      rw [objectKey_eq, List.append_assoc, eq_comm]

/-- A directory ends in a slash. -/
def Directory (dir : Path) : Prop := ∃ before, dir = before ++ ['/']

theorem directory_withSlash (base_uri : Path) (key_prefix_shards idx : Nat) :
    Directory (withSlash base_uri ++ shard_dir key_prefix_shards idx) := by
  unfold shard_dir
  split
  · exact ⟨_, (List.append_assoc ..).symm⟩
  · rw [List.append_nil]
    exact withSlash_eq base_uri

theorem directory_cleanup {config : PrepareConfig} {spec : EnsureSpec} {dir : Path}
    (h : cleanup_dir config spec idx = some dir) : Directory dir := by
  obtain ⟨base_uri, _, h⟩ := Option.bind_eq_some_iff.mp h
  split at h
  · cases h
  · cases h
    exact directory_withSlash _ _ _

theorem directory_prepare {spec : EnsureSpec} {dir : Path}
    (h : prepare_dir strategy job spec idx = some dir) : Directory dir := by
  obtain ⟨base_uri, _, h⟩ := Option.bind_eq_some_iff.mp h
  obtain ⟨part, hpart, rfl⟩ := Option.map_eq_some_iff.mp h
  unfold pool_dir at hpart
  split at hpart
  · cases hpart
    exact directory_withSlash _ _ _
  · cases hpart
    rw [List.append_nil]
    exact withSlash_eq base_uri
  · cases hpart

theorem lastPart_object {dir pool : Path} (hdir : Directory dir) (hpool : '/' ∉ pool) (idx : Nat) :
    lastPart '/' (dir ++ object_name pool idx) = object_name pool idx := by
  obtain ⟨before, rfl⟩ := hdir
  rw [List.append_assoc, List.singleton_append]
  exact lastPart_append (slash_not_mem_name hpool idx)

theorem object_name_inj {pool pool' : Path} {i j : Nat} (hpool : pool ∈ cleanup_pools)
    (hpool' : pool' ∈ cleanup_pools) (h : object_name pool i = object_name pool' j) :
    pool = pool' ∧ i = j := by
  have hnames : pool = pool' := by
    have hhead := congrArg List.head? h
    unfold cleanup_pools at hpool hpool'
    simp only [List.mem_cons, List.not_mem_nil, or_false] at hpool hpool'
    rcases hpool with rfl | rfl <;> rcases hpool' with rfl | rfl
    · rfl
    · exact nomatch hhead
    · exact nomatch hhead
    · rfl
  subst hnames
  unfold object_name at h
  rw [List.append_cancel_right_eq, List.append_cancel_left_eq, List.cons.injEq] at h
  exact ⟨rfl, padded_injective h.2⟩

theorem slash_not_mem_pool {pool : Path} (h : pool ∈ cleanup_pools) : '/' ∉ pool := by
  revert pool
  decide

/-- An address tells its directory, its pool and its number. -/
theorem address_inj {dir dir' pool pool' : Path} {i j : Nat} (hdir : Directory dir)
    (hdir' : Directory dir') (hpool : pool ∈ cleanup_pools) (hpool' : pool' ∈ cleanup_pools)
    (h : dir ++ object_name pool i = dir' ++ object_name pool' j) :
    dir = dir' ∧ pool = pool' ∧ i = j := by
  have hname := congrArg (lastPart '/') h
  rw [lastPart_object hdir (slash_not_mem_pool hpool),
    lastPart_object hdir' (slash_not_mem_pool hpool')] at hname
  obtain ⟨rfl, rfl⟩ := object_name_inj hpool hpool' hname
  exact ⟨List.append_cancel_right h, rfl, rfl⟩

/-- A file of the tree has another name than the objects of a pool. -/
theorem tree_file_ne {rel_path base_uri dir pool : Path} {i j : Nat}
    (hfile : tree_file job i = some rel_path) (hdir : Directory dir) (hpool : pool ∈ cleanup_pools) :
    joinUri base_uri rel_path ≠ dir ++ object_name pool j := by
  intro h
  obtain ⟨manifest, _, hfile⟩ := Option.bind_eq_some_iff.mp hfile
  have hname := congrArg (lastPart '/') h
  rw [lastPart_file hfile, lastPart_object hdir (slash_not_mem_pool hpool)] at hname
  have hhead := congrArg List.head? hname
  revert hhead
  unfold cleanup_pools at hpool
  simp only [List.mem_cons, List.not_mem_nil, or_false] at hpool
  rcases hpool with rfl | rfl
  · exact fun hhead => nomatch hhead
  · exact fun hhead => nomatch hhead

/-! ## The cleanup and the prepare phase -/

/-- The agents delete what a whole prepare phase writes, and no two of them the same. -/
structure CoversPrepare {r : Random} (strategy : PrepareStrategy) (job : Job) (num_agents : Nat)
    (g : SizeGenerator r) : Prop where
  same : ∀ uri, (∃ agent_id < num_agents, uri ∈ cleanup_uris job.config agent_id num_agents) ↔
    Written strategy job num_agents g uri
  disjoint : ∀ a < num_agents, ∀ b < num_agents, a ≠ b → ∀ uri ∈ cleanup_uris job.config a num_agents,
    uri ∉ cleanup_uris job.config b num_agents

/-- None of the numbers is that of a file in the tree; both pools are made, or there is
nothing to delete; and each number goes to the directories in which the cleanup looks for
it, under the base_uri of a spec that has one. -/
structure CleanupMatches (strategy : PrepareStrategy) (job : Job) : Prop where
  no_files : ∀ spec ∈ job.config.ensure_objects, ∀ idx < spec.count,
    base_of strategy job spec idx ≠ none → tree_file job idx = none
  pools : job.needs_separate_pools = true ∨ ∀ spec ∈ job.config.ensure_objects,
    ∀ idx < spec.count, cleanup_dir job.config spec idx = none
  dirs : ∀ idx dir,
    (∃ spec ∈ job.config.ensure_objects, idx < spec.count ∧
      prepare_dir strategy job spec idx = some dir) ↔
    ∃ spec ∈ job.config.ensure_objects, idx < spec.count ∧
      cleanup_dir job.config spec idx = some dir

theorem mem_turns : turn ∈ job.turns ↔
    turn.spec ∈ job.config.ensure_objects ∧ turn.pool ∈ job.pools := by
  unfold Job.turns
  simp only [List.mem_flatMap, List.mem_map]
  constructor
  · rintro ⟨spec, hspec, pool, hpool, rfl⟩
    exact ⟨hspec, hpool⟩
  · rintro ⟨hspec, hpool⟩
    exact ⟨turn.spec, hspec, turn.pool, hpool, rfl⟩

theorem mem_cleanup_of_pools {pool : Path} (h : pool ∈ job.pools) : pool ∈ cleanup_pools := by
  unfold Job.pools at h
  split at h
  · exact h
  · exact List.mem_cons.mpr (.inl (List.mem_singleton.mp h))

theorem prepared_mem_pools : "prepared".toList ∈ job.pools := by
  unfold Job.pools
  split <;> exact List.mem_cons_self

/-- The lists of two agents have no address in common. -/
theorem cleanup_disjoint {config : PrepareConfig} {n a b : Nat} (ha : a < n) (hb : b < n)
    (hne : a ≠ b) (huri : uri ∈ cleanup_uris config a n) : uri ∉ cleanup_uris config b n := by
  intro huri'
  obtain ⟨_, _, pool, hpool, i, _, hi, dir, hdir, rfl⟩ := mem_cleanup_uris.mp huri
  obtain ⟨_, _, pool', hpool', j, _, hj, dir', hdir', heq⟩ := mem_cleanup_uris.mp huri'
  obtain ⟨_, _, rfl⟩ := address_inj (directory_cleanup hdir) (directory_cleanup hdir') hpool hpool' heq
  omega

/-- What any of the agents deletes. -/
theorem cleanup_union {config : PrepareConfig} {n : Nat} (hn : 0 < n) :
    (∃ a < n, uri ∈ cleanup_uris config a n) ↔
      ∃ spec ∈ config.ensure_objects, ∃ pool ∈ cleanup_pools, ∃ idx < spec.count,
        ∃ dir, cleanup_dir config spec idx = some dir ∧ uri = dir ++ object_name pool idx := by
  simp only [mem_cleanup_uris]
  constructor
  · rintro ⟨_, _, spec, hspec, pool, hpool, idx, hlt, _, h⟩
    exact ⟨spec, hspec, pool, hpool, idx, hlt, h⟩
  · rintro ⟨spec, hspec, pool, hpool, idx, hlt, h⟩
    obtain ⟨a, ha, hmine⟩ := exists_mine hn idx
    exact ⟨a, ha, spec, hspec, pool, hpool, idx, hlt, hmine, h⟩

/-- An address under a pool's name is written where there is no file of the tree. -/
theorem object_uri_eq_some {dir pool : Path} {i : Nat} (hdir : Directory dir)
    (hpool : pool ∈ cleanup_pools) (hturn : turn.pool ∈ cleanup_pools)
    (h : object_uri strategy job turn idx = some (dir ++ object_name pool i)) :
    prepare_dir strategy job turn.spec idx = some dir ∧ turn.pool = pool ∧ idx = i := by
  unfold object_uri at h
  split at h
  · rename_i rel_path hfile
    obtain ⟨base_uri, _, heq⟩ := Option.map_eq_some_iff.mp h
    exact absurd heq (tree_file_ne hfile hdir hpool)
  · obtain ⟨dir', hdir', heq⟩ := Option.map_eq_some_iff.mp h
    obtain ⟨rfl, hsame, rfl⟩ := address_inj (directory_prepare hdir') hdir hturn hpool heq
    exact ⟨hdir', hsame, rfl⟩

theorem object_uri_of_dir {dir : Path} (hfile : tree_file job idx = none)
    (h : prepare_dir strategy job turn.spec idx = some dir) :
    object_uri strategy job turn idx = some (dir ++ object_name turn.pool idx) := by
  unfold object_uri
  rw [hfile, h]
  rfl

theorem base_ne_none {spec : EnsureSpec} {dir : Path}
    (h : prepare_dir strategy job spec idx = some dir) : base_of strategy job spec idx ≠ none := by
  obtain ⟨base_uri, hbase, _⟩ := Option.bind_eq_some_iff.mp h
  rw [hbase]
  exact nofun

theorem matches_of_covers {r : Random} {g : SizeGenerator r} {n : Nat} (hn : 0 < n)
    (h : CoversPrepare strategy job n g) : CleanupMatches strategy job := by
  have hsame := h.same
  simp only [cleanup_union hn, written_iff hn] at hsame
  have hprepared : "prepared".toList ∈ cleanup_pools := List.mem_cons_self
  have hno_files : ∀ spec ∈ job.config.ensure_objects, ∀ idx < spec.count,
      base_of strategy job spec idx ≠ none → tree_file job idx = none := by
    intro spec hspec idx hlt hbase
    by_contra hfile
    obtain ⟨rel_path, hfile⟩ := Option.ne_none_iff_exists'.mp hfile
    obtain ⟨base_uri, hbase⟩ := Option.ne_none_iff_exists'.mp hbase
    have huri : object_uri strategy job ⟨spec, "prepared".toList⟩ idx =
        some (joinUri base_uri rel_path) := by
      unfold object_uri
      rw [hfile, hbase]
      rfl
    obtain ⟨_, _, pool, hpool, _, _, dir, hdir, heq⟩ := (hsame _).mpr
      ⟨_, mem_turns.mpr ⟨hspec, prepared_mem_pools⟩, idx, hlt, huri⟩
    exact tree_file_ne hfile (directory_cleanup hdir) hpool heq
  refine ⟨hno_files, ?_, fun idx dir => ⟨?_, ?_⟩⟩
  · by_contra hpools
    rw [not_or, not_forall] at hpools
    obtain ⟨hone, spec, hmore⟩ := hpools
    rw [Classical.not_imp, not_forall] at hmore
    obtain ⟨hspec, idx, hmore⟩ := hmore
    rw [Classical.not_imp] at hmore
    obtain ⟨hlt, hdir⟩ := hmore
    obtain ⟨dir, hdir⟩ := Option.ne_none_iff_exists'.mp hdir
    have hdeletable : "deletable".toList ∈ cleanup_pools := by decide
    obtain ⟨turn, hturn, i, _, huri⟩ := (hsame _).mp
      ⟨spec, hspec, _, hdeletable, idx, hlt, dir, hdir, rfl⟩
    obtain ⟨_, hpool⟩ := mem_turns.mp hturn
    obtain ⟨_, hsame, _⟩ := object_uri_eq_some (directory_cleanup hdir) hdeletable
      (mem_cleanup_of_pools hpool) huri
    unfold Job.pools at hpool
    rw [if_neg hone, List.mem_singleton, hsame] at hpool
    exact absurd hpool (by decide)
  · rintro ⟨spec, hspec, hlt, hdir⟩
    have huri : object_uri strategy job ⟨spec, "prepared".toList⟩ idx =
        some (dir ++ object_name "prepared".toList idx) :=
      object_uri_of_dir (hno_files spec hspec idx hlt (base_ne_none hdir)) hdir
    obtain ⟨spec', hspec', pool, hpool, i, hi, dir', hdir', heq⟩ := (hsame _).mpr
      ⟨_, mem_turns.mpr ⟨hspec, prepared_mem_pools⟩, idx, hlt, huri⟩
    obtain ⟨rfl, _, rfl⟩ := address_inj (directory_prepare hdir) (directory_cleanup hdir')
      hprepared hpool heq
    exact ⟨spec', hspec', hi, hdir'⟩
  · rintro ⟨spec, hspec, hlt, hdir⟩
    obtain ⟨turn, hturn, i, hi, huri⟩ := (hsame _).mp
      ⟨spec, hspec, _, hprepared, idx, hlt, dir, hdir, rfl⟩
    obtain ⟨hspec', hpool⟩ := mem_turns.mp hturn
    obtain ⟨hdir', _, rfl⟩ := object_uri_eq_some (directory_cleanup hdir) hprepared
      (mem_cleanup_of_pools hpool) huri
    exact ⟨turn.spec, hspec', hi, hdir'⟩

theorem covers_of_matches {r : Random} {g : SizeGenerator r} {n : Nat} (hn : 0 < n)
    (h : CleanupMatches strategy job) : CoversPrepare strategy job n g where
  same uri := by
    rw [cleanup_union hn, written_iff hn]
    constructor
    · rintro ⟨spec, hspec, pool, hpool, idx, hlt, dir, hdir, rfl⟩
      obtain ⟨spec', hspec', hlt', hdir'⟩ := (h.dirs idx dir).mpr ⟨spec, hspec, hlt, hdir⟩
      have hmade : pool ∈ job.pools := by
        rcases h.pools with hboth | hnone
        · unfold Job.pools
          rwa [if_pos hboth]
        · rw [hnone spec hspec idx hlt] at hdir
          cases hdir
      exact ⟨⟨spec', pool⟩, mem_turns.mpr ⟨hspec', hmade⟩, idx, hlt', object_uri_of_dir
        (h.no_files spec' hspec' idx hlt' (base_ne_none hdir')) hdir'⟩
    · rintro ⟨turn, hturn, idx, hlt, huri⟩
      obtain ⟨hspec, hpool⟩ := mem_turns.mp hturn
      unfold object_uri at huri
      split at huri
      · rename_i rel_path hfile
        obtain ⟨base_uri, hbase, _⟩ := Option.map_eq_some_iff.mp huri
        rw [h.no_files turn.spec hspec idx hlt (by rw [hbase]; exact nofun)] at hfile
        cases hfile
      · obtain ⟨dir, hdir, rfl⟩ := Option.map_eq_some_iff.mp huri
        obtain ⟨spec', hspec', hlt', hdir'⟩ := (h.dirs idx dir).mp ⟨turn.spec, hspec, hlt, hdir⟩
        exact ⟨spec', hspec', turn.pool, mem_cleanup_of_pools hpool, idx, hlt', dir, hdir', rfl⟩
  disjoint _ ha _ hb hne _ := cleanup_disjoint ha hb hne

/-- Sizes of one page. -/
def onePage : SizeGenerator noRandom := ⟨.Fixed 4096, ()⟩

/-- Objects of both pools in one bucket. -/
def bothPools (count : Nat) : Job :=
  { config := { ensure_objects := [{ base_uri := some "s3://bucket/".toList, count := count }] }
    needs_separate_pools := true }

/-- One file in a tree of one directory. -/
def oneFile : Job :=
  { bothPools 1 with
    tree_manifest :=
      (create_tree_manifest_only { width := 1, depth := 1, files_per_dir := 1 } 1).toOption }

end sai3_bench.prepare
