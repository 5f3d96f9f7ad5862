-- A run of a workload (workload.rs, config.rs): the objects it finds for the patterns
-- of its operations, the stores it makes, and what its workers are given.
import Sai3Bench.Checkpoints
import Sai3Bench.PathSelectors
import Sai3Bench.PatternResolutions
import Sai3Bench.TreeEndpoints

namespace sai3_bench.config.written

open directory_tree texts size_generator
open prepare (joinUri)

/-! ## The addresses of a config -/

/-- As the generator of sizes takes it. -/
def SizeSpec.spec : SizeSpec → size_generator.SizeSpec
  | .Fixed size => .Fixed size.toNat
  | .Distribution dist => .Distribution
    { dist_type := dist.dist_type
      min := dist.min.map BitVec.toNat
      max := dist.max.map BitVec.toNat
      params :=
        { mean := dist.params.mean.map BitVec.toNat
          std_dev := dist.params.std_dev.map BitVec.toNat } }

namespace Config

variable (cfg : Config)

def resolve_uri (path : Path) : Path :=
  match cfg.target with
  | some base => if contains "://".toList path then path else joinUri base.toList path
  | none => path

/-- None where the code panics. -/
def get_uri : OpSpec → Option Path
  | .Get path => some (cfg.resolve_uri path.toList)
  | _ => none

def get_put_size_spec : OpSpec → Except String (Path × SizeSpec)
  | .Put path object_size size_spec _ _ =>
    let base_uri :=
      match cfg.multi_endpoint with
      | some me =>
        if path.isEmpty then (me.endpoints.head?.map String.toList).getD
          (cfg.resolve_uri path.toList)
        else cfg.resolve_uri path.toList
      | none => cfg.resolve_uri path.toList
    match size_spec, object_size with
    | some spec, _ => .ok (base_uri, spec)
    | none, some sz => .ok (base_uri, .Fixed sz)
    | none, none => .error "PUT operation must specify either object_size or size_spec"
  | _ => .error "Expected PUT operation"

def get_meta_uri : OpSpec → Option Path
  | .List path | .Stat path | .Delete path | .Mkdir path | .Rmdir path _ =>
    some (cfg.resolve_uri path.toList)
  | _ => none

end Config

end sai3_bench.config.written

namespace sai3_bench.workload

open directory_tree texts size_generator globs
open prepare (joinUri Draws PathSelector)
open config.written (Config OpSpec WeightedOp MultiEndpointConfig RangeEngineConfig PageCacheMode)
open metadata_cache (trim_end_slashes)

/-! ## Patterns -/

def detect_pool_requirements (workload : List WeightedOp) : Bool × Bool :=
  (workload.any fun wo => match wo.spec with | .Delete .. | .Rmdir .. => true | _ => false,
    workload.any fun wo => match wo.spec with | .Get .. | .Stat .. => true | _ => false)

def rewrite_pattern_for_pool (pattern : Path) (is_delete needs_separate_pools : Bool) : Path :=
  if !needs_separate_pools then pattern
  else if contains "prepared-".toList pattern then
    if is_delete then replaceAll "prepared-".toList "deletable-".toList pattern else pattern
  else pattern

/-- The kinds of operations whose patterns are resolved. -/
inductive Kind
  | get
  | delete
  | stat
deriving DecidableEq

def Kind.name : Kind → String
  | .get => "GET"
  | .delete => "DELETE"
  | .stat => "STAT"

def needs_separate_pools (cfg : Config) : Bool :=
  (detect_pool_requirements cfg.workload).1 && (detect_pool_requirements cfg.workload).2

/-- The pattern that an operation takes its objects from. -/
def pattern_of (cfg : Config) (op : OpSpec) : Option (Kind × Path) :=
  match op with
  | .Get .. => (cfg.get_uri op).map fun original_uri =>
    (.get, rewrite_pattern_for_pool original_uri false (needs_separate_pools cfg))
  | .Delete .. => (cfg.get_meta_uri op).map fun original_uri =>
    (.delete, rewrite_pattern_for_pool original_uri true (needs_separate_pools cfg))
  | .Stat .. => (cfg.get_meta_uri op).map fun original_uri =>
    (.stat, rewrite_pattern_for_pool original_uri false (needs_separate_pools cfg))
  | _ => none

structure UriSource where
  full_uris : List Path
  uri : Path

structure PreResolved where
  get_lists : List UriSource := []
  delete_lists : List UriSource := []
  stat_lists : List UriSource := []

namespace PreResolved

variable (pre : PreResolved)

def lists : Kind → List UriSource
  | .get => pre.get_lists
  | .delete => pre.delete_lists
  | .stat => pre.stat_lists

def push (src : UriSource) : Kind → PreResolved
  | .get => { pre with get_lists := pre.get_lists ++ [src] }
  | .delete => { pre with delete_lists := pre.delete_lists ++ [src] }
  | .stat => { pre with stat_lists := pre.stat_lists ++ [src] }

/-- `get_for_uri`, `delete_for_uri` and `stat_for_uri`. -/
def for_uri (kind : Kind) (uri : Path) : Option UriSource :=
  (pre.lists kind).find? fun src => src.uri = uri

end PreResolved

inductive LoadBalanceStrategy
  | RoundRobin
  | LeastConnections

/-- What a run takes from its storage libraries: the stores of one address, and those
of several endpoints. -/
structure Stores where
  create_store_for_uri_with_config : Path → Option RangeEngineConfig → Option PageCacheMode →
    Except String Lister
  multi_endpoint_store : List String → LoadBalanceStrategy → Except String Lister

namespace Stores

variable (stores : Stores)

def create_store_for_uri (uri : Path) : Except String Lister :=
  stores.create_store_for_uri_with_config uri none none

def create_store_with_logger (uri : Path) : Except String Lister :=
  stores.create_store_for_uri_with_config uri none none

def create_multi_endpoint_store (multi_ep_config : MultiEndpointConfig) : Except String Lister :=
  if multi_ep_config.endpoints.isEmpty then .error "multi_endpoint.endpoints cannot be empty"
  else
    match multi_ep_config.strategy.toLower with
    | "round_robin" | "roundrobin" =>
      stores.multi_endpoint_store multi_ep_config.endpoints .RoundRobin
    | "least_connections" | "leastconnections" =>
      stores.multi_endpoint_store multi_ep_config.endpoints .LeastConnections
    | _ => .error s!"Invalid load_balance_strategy '{multi_ep_config.strategy}': must be 'round_robin' or 'least_connections'"

end Stores

section Resolution

variable (stores : Stores) (cfg : Config)

/-- The store of all endpoints, if it can be made. -/
def multi_store_for_resolution : Option Lister :=
  cfg.multi_endpoint.bind fun me_cfg =>
    (stores.multi_endpoint_store me_cfg.endpoints
      (if me_cfg.strategy = "least_connections" then .LeastConnections else .RoundRobin)).toOption

def prefetch_uris (uri : Path) : Except String (List Path) :=
  match multi_store_for_resolution stores cfg with
  | some multi_store => prefetch_uris_multi_endpoint multi_store uri
  | none => prefetch_uris_multi_backend stores.create_store_with_logger uri

def should_prestat (uri : Path) : Bool :=
  ("s3://".toList.isPrefixOf uri || "gs://".toList.isPrefixOf uri ||
    "gcs://".toList.isPrefixOf uri || "az://".toList.isPrefixOf uri) &&
      (cfg.range_engine.map (·.enabled)).getD false

def resolve_pattern (kind : Kind) (uri : Path) : Except String UriSource :=
  match prefetch_uris stores cfg uri with
  | .ok full_uris =>
    if full_uris.isEmpty then .error s!"No URIs found for {kind.name} pattern: {String.ofList uri}"
    else if kind = .get ∧ should_prestat cfg uri then
      (stores.create_store_for_uri uri).map fun _ => ⟨full_uris, uri⟩
    else .ok ⟨full_uris, uri⟩
  | .error e => .error s!"Failed to resolve {kind.name} pattern {String.ofList uri}: {e}"

def resolve_op (pre : PreResolved) (wo : WeightedOp) : Except String PreResolved :=
  match pattern_of cfg wo.spec with
  | some (kind, uri) => (resolve_pattern stores cfg kind uri).map (pre.push · kind)
  | none => .ok pre

/-- With a tree nothing is resolved. -/
def pre_resolve (tree_manifest : Option TreeManifest) : Except String PreResolved :=
  if tree_manifest.isSome then .ok {} else cfg.workload.foldlM (resolve_op stores cfg) {}

end Resolution

/-! ## Stores -/

/-- The scheme with the first part after it. -/
def extract_base_uri (uri : Path) : Path :=
  match beforeFirst "://".toList uri with
  | some scheme =>
    match beforeFirst ['/'] (uri.drop (scheme.length + 3)) with
    | some bucket => uri.take (scheme.length + 3 + bucket.length)
    | none => uri
  | none => uri

abbrev PreCreatedStores := List (Path × Lister)

def MULTI_EP_STORE_KEY : Path := "__multi_endpoint_store__".toList

def get_cached_store (uri : Path) (cache : PreCreatedStores) (use_multi_endpoint : Bool) :
    Except String Lister :=
  if use_multi_endpoint then
    match cache.lookup MULTI_EP_STORE_KEY with
    | some store => .ok store
    | none => .error "multi_endpoint: block present but MultiEndpointStore was not pre-created (internal error — this should not happen)."
  else
    let base_uri := extract_base_uri uri
    match cache.lookup base_uri with
    | some store => .ok store
    | none =>
      .error s!"Store not found for base URI: {String.ofList base_uri} (from {String.ofList uri})"

section Creation

variable (stores : Stores) (cfg : Config) (tree_manifest : Option TreeManifest)

def put_base_uris : Except String (List Path) :=
  (cfg.workload.filter fun wo => match wo.spec with | .Put .. => true | _ => false).mapM fun wo =>
    (cfg.get_put_size_spec wo.spec).map fun uri => extract_base_uri uri.1

/-- The bases of what was found, of the tree, and of the PUT operations: a set in the source. -/
def unique_base_uris (pre : PreResolved) : Except String (List Path) := do
  let puts ← if cfg.multi_endpoint.isSome then pure [] else put_base_uris cfg
  let found := (pre.get_lists ++ pre.delete_lists ++ pre.stat_lists).flatMap fun source =>
    source.full_uris.map extract_base_uri
  let tree := if tree_manifest.isSome then
      (cfg.target.toList ++ (cfg.multi_endpoint.map (·.endpoints)).getD []).map fun uri =>
        extract_base_uri uri.toList
    else []
  pure (found ++ tree ++ puts)

def pre_create_stores (pre : PreResolved) : Except String PreCreatedStores := do
  let base_uris ← unique_base_uris cfg tree_manifest pre
  let store_map ← base_uris.mapM fun base_uri =>
    (stores.create_store_for_uri_with_config base_uri cfg.range_engine cfg.page_cache_mode).map
      fun store => (base_uri, store)
  match cfg.multi_endpoint with
  | some me_cfg =>
    (stores.create_multi_endpoint_store me_cfg).map fun multi_store =>
      (MULTI_EP_STORE_KEY, multi_store) :: store_map
  | none => pure store_map

end Creation

/-! ## The run -/

/-- What is made before the workers start. -/
structure Run where
  cfg : Config
  path_selector : Option PathSelector
  store_cache : PreCreatedStores

/-- `WeightedIndex::new` of `u32` weights. -/
def chooser (cfg : Config) : Except String Unit :=
  let total := (cfg.workload.map fun wo => wo.weight.toNat).sum
  if 0 < total ∧ total < 2 ^ 32 then .ok () else .error "invalid weights"

def start (stores : Stores) (cfg : Config) (tree_manifest : Option TreeManifest) :
    Except String (Run × PreResolved) := do
  let pre ← pre_resolve stores cfg tree_manifest
  chooser cfg
  let store_cache ← pre_create_stores stores cfg tree_manifest pre
  pure ({ cfg, path_selector := path_selector cfg tree_manifest, store_cache }, pre)

/-- What a worker draws for an operation: the path in a tree, the place in a list of
objects, and the number of a new object. -/
structure WorkerDraws where
  selection : Draws
  object : Nat
  rand_val : BitVec 64

/-- The key of a new object. -/
def put_key (cfg : Config) (rand_val : BitVec 64) : Path :=
  let shards := (cfg.prepare.map fun p => p.key_prefix_shards.toNat).getD 0
  let name := "obj_".toList ++ Nat.toDigits 10 rand_val.toNat
  if 0 < shards then padded 16 2 (rand_val.toNat % shards) ++ '/' :: name else name

/-- The base of new objects. A size is drawn for each, which fails for some specs. -/
def put_base (cfg : Config) (op : OpSpec) : Except String Path := do
  let (base_uri, size_spec) ← cfg.get_put_size_spec op
  match size_spec with
  | .Fixed _ => pure base_uri
  | .Distribution _ => (SizeGeneratorImpl.of size_spec.spec).map fun _ => base_uri

namespace Run

variable (run : Run) (pre : PreResolved)

def uses_multi_endpoint : Bool := run.cfg.multi_endpoint.isSome

/-- One of the objects that were found for the pattern of an operation. -/
def found_uri (r : WorkerDraws) (op : OpSpec) : Except String Path :=
  match pattern_of run.cfg op with
  | some (kind, uri) =>
    match pre.for_uri kind uri with
    | some src =>
      match src.full_uris[r.object % src.full_uris.length]? with
      | some full_uri => .ok full_uri
      | none => .error "cannot sample empty range"
    | none => .error s!"No pre-resolved URIs for {kind.name} pattern: {String.ofList uri}"
  | none => .error "Expected operation with a pattern"

/-- The address that an operation of a worker is given. -/
def op_uri (r : WorkerDraws) (op : OpSpec) : Except String Path :=
  match op, run.path_selector with
  | .Get .., some selector | .Stat .., some selector | .Delete .., some selector =>
    tree_uri run.cfg (selector.select_file r.selection)
  | .Get .., none | .Stat .., none | .Delete .., none => run.found_uri pre r op
  | .Put .., some selector => do
    let _ ← put_base run.cfg op
    tree_uri run.cfg (selector.select_file r.selection)
  | .Put .., none => (put_base run.cfg op).map (joinUri · (put_key run.cfg r.rand_val))
  | .List path, _ => .ok (run.cfg.resolve_uri path.toList)
  | .Mkdir .., some selector | .Rmdir .., some selector =>
    match run.cfg.target with
    | some base_uri => .ok (joinUri base_uri.toList (selector.select_directory r.selection))
    | none => .error "target required in tree mode"
  | .Mkdir .., none => .error <|
    "MKDIR operation requires directory_structure in prepare config. " ++
    "MKDIR/RMDIR are only for testing structured directory trees. " ++
    "Configure prepare.directory_structure with width/depth/files_per_dir."
  | .Rmdir .., none => .error <|
    "RMDIR operation requires directory_structure in prepare config. " ++
    "MKDIR/RMDIR are only for testing structured directory trees. " ++
    "Configure prepare.directory_structure with width/depth/files_per_dir."

/-- The store of an address. -/
def store (uri : Path) : Except String Lister :=
  get_cached_store uri run.store_cache run.uses_multi_endpoint

/-- A new object goes on from the pattern of a list. -/
def goes_on (uri full_uri : Path) : Bool :=
  let src_base := trim_end_slashes uri
  (src_base ++ ['/']).isPrefixOf full_uri || src_base.isPrefixOf full_uri

/-- It goes to the first of these lists. -/
def add_put_uri (full_uri : Path) : List UriSource → List UriSource
  | [] => []
  | get_src :: get_lists =>
    if goes_on get_src.uri full_uri then
      { get_src with full_uris := get_src.full_uris ++ [full_uri] } :: get_lists
    else get_src :: add_put_uri full_uri get_lists

/-- An operation of a worker, and whether the storage carries it out. -/
structure Event where
  op : OpSpec
  draws : WorkerDraws
  succeeds : Bool

/-- Only the objects of PUT operations are added to what was found. -/
def step (pre : PreResolved) (e : Event) : PreResolved :=
  match e.op with
  | .Put .. =>
    match run.op_uri pre e.draws e.op with
    | .ok full_uri =>
      match run.store full_uri with
      | .ok _ =>
        if e.succeeds && run.cfg.dynamic_put_pool && run.path_selector.isNone then
          { pre with get_lists := add_put_uri full_uri pre.get_lists }
        else pre
      | .error _ => pre
    | .error _ => pre
  | _ => pre

def after (events : List Event) : PreResolved := events.foldl run.step pre

end Run

/-- A worker can issue an operation with a weight: there is a worker, it has time, and
the operation has a permit. -/
def Issues (cfg : Config) (op : OpSpec) : Prop :=
  0 < cfg.concurrency ∧ (0 < cfg.duration.secs ∨ 0 < cfg.duration.nanos.val) ∧
    ∃ wo ∈ cfg.workload, 0 < wo.weight ∧ wo.concurrency ≠ some 0 ∧ wo.spec = op

/-! ## What is resolved -/

section

variable {stores : Stores} {cfg : Config} {tree_manifest : Option TreeManifest}
  {pre pre' : PreResolved} {kind : Kind} {uri : Path}

/-- The patterns of a kind, in the order of the operations. -/
def patterns (cfg : Config) (workload : List WeightedOp) (kind : Kind) : List Path :=
  workload.filterMap fun wo =>
    (pattern_of cfg wo.spec).bind fun found => if found.1 = kind then some found.2 else none

theorem lists_push (src : UriSource) (k : Kind) :
    (pre.push src k).lists kind = if k = kind then pre.lists kind ++ [src] else pre.lists kind := by
  cases k <;> cases kind <;> rfl

/-- A source is what was found for its pattern, and not nothing. -/
structure UriSource.Good (stores : Stores) (cfg : Config) (src : UriSource) : Prop where
  found : prefetch_uris stores cfg src.uri = .ok src.full_uris
  some_uri : src.full_uris ≠ []

structure Resolves (stores : Stores) (cfg : Config) (workload : List WeightedOp)
    (pre : PreResolved) :
    Prop where
  uris : ∀ kind, (pre.lists kind).map UriSource.uri = patterns cfg workload kind
  good : ∀ kind, ∀ src ∈ pre.lists kind, src.Good stores cfg

theorem resolve_pattern_ok {src : UriSource} (h : resolve_pattern stores cfg kind uri = .ok src) :
    src.uri = uri ∧ src.Good stores cfg := by
  unfold resolve_pattern at h
  split at h
  · rename_i full_uris hfound
    split at h
    · cases h
    · rename_i hempty
      have hne : full_uris ≠ [] := by simpa using hempty
      split at h
      · obtain ⟨_, _, rfl⟩ := serde.map_ok.mp h
        exact ⟨rfl, hfound, hne⟩
      · cases h
        exact ⟨rfl, hfound, hne⟩
  · cases h

theorem resolves_op {workload : List WeightedOp} {wo : WeightedOp}
    (h : Resolves stores cfg workload pre) (hop : resolve_op stores cfg pre wo = .ok pre') :
    Resolves stores cfg (workload ++ [wo]) pre' := by
  unfold resolve_op at hop
  cases hpattern : pattern_of cfg wo.spec with
  | none =>
    rw [hpattern] at hop
    cases hop
    refine ⟨fun kind => ?_, h.good⟩
    rw [h.uris kind]
    simp [patterns, hpattern]
  | some found =>
    obtain ⟨k, uri⟩ := found
    rw [hpattern] at hop
    obtain ⟨src, hsrc, rfl⟩ := serde.map_ok.mp hop
    obtain ⟨rfl, hgood⟩ := resolve_pattern_ok hsrc
    refine ⟨fun kind => ?_, fun kind src' hmem => ?_⟩
    · have huris := h.uris kind
      unfold patterns at huris ⊢
      rw [lists_push, List.filterMap_append, ← huris]
      by_cases hk : k = kind
      · simp [hk, hpattern]
      · simp [hk, hpattern]
    · rw [lists_push] at hmem
      split at hmem
      · rcases List.mem_append.mp hmem with hmem | hmem
        · exact h.good kind src' hmem
        · rw [List.mem_singleton.mp hmem]
          exact hgood
      · exact h.good kind src' hmem

theorem resolves_fold {rest done : List WeightedOp} (h : Resolves stores cfg done pre)
    (hfold : rest.foldlM (resolve_op stores cfg) pre = .ok pre') :
    Resolves stores cfg (done ++ rest) pre' := by
  induction rest generalizing done pre with
  | nil =>
    cases hfold
    rwa [List.append_nil]
  | cons wo rest ih =>
    rw [List.foldlM_cons] at hfold
    obtain ⟨next, hop, hrest⟩ := serde.bind_ok.mp hfold
    have hall := ih (resolves_op h hop) hrest
    rwa [List.append_assoc] at hall

/-- Without a tree all patterns of the workload are resolved. -/
theorem pre_resolve_flat (h : pre_resolve stores cfg none = .ok pre) :
    Resolves stores cfg cfg.workload pre := by
  have hnone : Resolves stores cfg [] {} := by
    refine ⟨fun kind => ?_, fun kind src hmem => ?_⟩
    · cases kind <;> rfl
    · cases kind <;> cases hmem
  exact resolves_fold hnone h

theorem mem_patterns {workload : List WeightedOp} : uri ∈ patterns cfg workload kind ↔
    ∃ wo ∈ workload, pattern_of cfg wo.spec = some (kind, uri) := by
  unfold patterns
  rw [List.mem_filterMap]
  refine exists_congr fun wo => and_congr_right fun _ => ?_
  cases hpattern : pattern_of cfg wo.spec with
  | none => simp
  | some found =>
    obtain ⟨k, pattern⟩ := found
    by_cases hk : k = kind
    · simp [hk]
    · simp [hk]

/-- A list is found for each pattern that has one. -/
theorem for_uri_isSome (h : uri ∈ (pre.lists kind).map UriSource.uri) :
    ∃ src ∈ pre.lists kind, pre.for_uri kind uri = some src ∧ src.uri = uri := by
  obtain ⟨src, hsrc, huri⟩ := List.mem_map.mp h
  cases hfind : pre.for_uri kind uri with
  | none =>
    unfold PreResolved.for_uri at hfind
    have hnone := List.find?_eq_none.mp hfind src hsrc
    simp [huri] at hnone
  | some found =>
    have hmem := List.mem_of_find?_eq_some hfind
    have hfound := List.find?_some hfind
    exact ⟨found, hmem, rfl, by simpa using hfound⟩

/-! ### What is found -/

/-- What the storage lists for a pattern. -/
def listing (stores : Stores) (cfg : Config) (pattern dir : Path) (recursive : Bool) :
    Except String (List Path) :=
  match multi_store_for_resolution stores cfg with
  | some multi_store => multi_store dir recursive
  | none => stores.create_store_with_logger pattern >>= fun list => list dir recursive

/-- The whole address fits, or a part of it when there are several endpoints. -/
def Fits (stores : Stores) (cfg : Config) (pattern uri : Path) : Prop :=
  match multi_store_for_resolution stores cfg with
  | some _ => search (.gap :: ofGlob (lastPart '/' pattern)) uri = true
  | none =>
    glob_to_regex (normalize_scheme_for_matching pattern) (normalize_scheme_for_matching uri) = true

/-- A pattern stands for the listed addresses that fit it, for a directory, or for itself. -/
def Finds (stores : Stores) (cfg : Config) (pattern uri : Path) : Prop :=
  if '*' ∈ pattern then
    ∃ uris, listing stores cfg pattern (glob_list_params pattern).1 (glob_list_params pattern).2 =
      .ok uris ∧ uri ∈ uris ∧ Fits stores cfg pattern uri
  else if pattern.getLast? = some '/' then
    ∃ uris, listing stores cfg pattern pattern false = .ok uris ∧ uri ∈ uris
  else uri = pattern

/-- What is selected of the two listings. -/
theorem mem_prefetched {listed dir : Except String (List Path)} {re : Path → Bool}
    {pattern : Path} {uris : List Path}
    (h : (if '*' ∈ pattern then listed >>= fun l => pure (l.filter re)
      else if pattern.getLast? = some '/' then dir else .ok [pattern]) = .ok uris) :
    uri ∈ uris ↔ if '*' ∈ pattern then ∃ l, listed = .ok l ∧ uri ∈ l ∧ re uri = true
      else if pattern.getLast? = some '/' then ∃ l, dir = .ok l ∧ uri ∈ l else uri = pattern := by
  by_cases hstar : '*' ∈ pattern
  · rw [if_pos hstar] at h
    obtain ⟨l, hl, h⟩ := serde.bind_ok.mp h
    cases h
    rw [if_pos hstar, List.mem_filter]
    constructor
    · rintro ⟨hmem, hfits⟩
      exact ⟨l, hl, hmem, hfits⟩
    · rintro ⟨l', hl', hmem, hfits⟩
      cases hl.symm.trans hl'
      exact ⟨hmem, hfits⟩
  · rw [if_neg hstar] at h
    rw [if_neg hstar]
    by_cases hdir : pattern.getLast? = some '/'
    · rw [if_pos hdir] at h
      rw [if_pos hdir]
      constructor
      · exact fun hmem => ⟨uris, h, hmem⟩
      · rintro ⟨l, hl, hmem⟩
        cases h.symm.trans hl
        exact hmem
    · rw [if_neg hdir] at h
      cases h
      rw [if_neg hdir, List.mem_singleton]

theorem finds_iff {pattern : Path} {uris : List Path}
    (h : prefetch_uris stores cfg pattern = .ok uris) :
      uri ∈ uris ↔ Finds stores cfg pattern uri := by
  unfold Finds listing Fits
  unfold prefetch_uris at h
  cases hmulti : multi_store_for_resolution stores cfg with
  | none =>
    rw [hmulti] at h
    obtain ⟨list, hlist, h⟩ := serde.bind_ok.mp h
    dsimp only
    rw [hlist]
    exact mem_prefetched h
  | some multi_store =>
    rw [hmulti] at h
    exact mem_prefetched h

end

/-! ## The run goes on -/

section

variable {stores : Stores} {cfg : Config} {tree_manifest : Option TreeManifest} {run : Run}
  {pre : PreResolved} {kind : Kind} {uri full_uri : Path}

/-- A run with what it has made. -/
structure Run.Started (stores : Stores) (tree_manifest : Option TreeManifest) (run : Run)
    (pre : PreResolved) : Prop where
  resolved : pre_resolve stores run.cfg tree_manifest = .ok pre
  selector : run.path_selector = workload.path_selector run.cfg tree_manifest
  created : pre_create_stores stores run.cfg tree_manifest pre = .ok run.store_cache

theorem start_ok (h : start stores cfg tree_manifest = .ok (run, pre)) :
    run.cfg = cfg ∧ run.Started stores tree_manifest pre := by
  obtain ⟨pre', hpre, h⟩ := serde.bind_ok.mp h
  obtain ⟨_, _, h⟩ := serde.bind_ok.mp h
  obtain ⟨cache, hcache, h⟩ := serde.bind_ok.mp h
  cases h
  exact ⟨rfl, hpre, rfl, hcache⟩

/-! ### Stores -/

theorem get_cached_store_ok {cache : PreCreatedStores} :
    (∃ store, get_cached_store uri cache false = .ok store) ↔
      extract_base_uri uri ∈ cache.map Prod.fst := by
  have hkeys : (cache.lookup (extract_base_uri uri)).isSome ↔
      extract_base_uri uri ∈ cache.map Prod.fst := by
    induction cache with
    | nil => simp
    | cons entry cache ih =>
      rw [List.lookup_cons, List.map_cons, List.mem_cons, ← ih]
      by_cases hkey : extract_base_uri uri = entry.1
      · simp [hkey]
      · rw [beq_false_of_ne hkey]
        simp [hkey]
  unfold get_cached_store
  rw [if_neg Bool.false_ne_true, ← hkeys]
  dsimp only
  cases cache.lookup (extract_base_uri uri) with
  | none => simp
  | some store => simp

theorem keys_of_mapM {create : Path → Except String Lister} {base_uris : List Path}
    {entries : PreCreatedStores}
    (h : base_uris.mapM (fun base_uri => (create base_uri).map fun store => (base_uri, store)) =
      .ok entries) : entries.map Prod.fst = base_uris := by
  induction base_uris generalizing entries with
  | nil =>
    cases h
    rfl
  | cons base_uri base_uris ih =>
    obtain ⟨entry, rest, hentry, hrest, rfl⟩ := serde.mapM_cons_ok.mp h
    obtain ⟨store, _, rfl⟩ := serde.map_ok.mp hentry
    rw [List.map_cons, ih hrest]

/-- The stores of a run without several endpoints are those of its bases. -/
theorem store_keys (h : run.Started stores tree_manifest pre)
    (hmulti : run.cfg.multi_endpoint = none) :
    unique_base_uris run.cfg tree_manifest pre = .ok (run.store_cache.map Prod.fst) := by
  have hcreated := h.created
  unfold pre_create_stores at hcreated
  obtain ⟨base_uris, hbases, hcreated⟩ := serde.bind_ok.mp hcreated
  obtain ⟨store_map, hmap, hcreated⟩ := serde.bind_ok.mp hcreated
  rw [hmulti] at hcreated
  cases hcreated
  rw [hbases, keys_of_mapM hmap]

/-- With several endpoints one store is for all addresses. -/
theorem store_of_multi {me_cfg : MultiEndpointConfig} (h : run.Started stores tree_manifest pre)
    (hmulti : run.cfg.multi_endpoint = some me_cfg) (uri : Path) :
      ∃ store, run.store uri = .ok store := by
  have hcreated := h.created
  unfold pre_create_stores at hcreated
  rw [hmulti] at hcreated
  obtain ⟨base_uris, _, hcreated⟩ := serde.bind_ok.mp hcreated
  obtain ⟨store_map, _, hcreated⟩ := serde.bind_ok.mp hcreated
  obtain ⟨multi_store, _, hcache⟩ := serde.map_ok.mp hcreated
  refine ⟨multi_store, ?_⟩
  unfold Run.store Run.uses_multi_endpoint get_cached_store
  rw [hmulti, ← hcache, List.lookup_cons_self]
  rfl

/-! ### Lists -/

/-- What a step does: nothing to the lists, or it adds the object of a PUT that succeeds. -/
theorem step_cases (run : Run) (pre : PreResolved) (e : Run.Event) : run.step pre e = pre ∨
    ∃ base, put_base run.cfg e.op = .ok base ∧ run.cfg.dynamic_put_pool = true ∧
      run.path_selector = none ∧ e.succeeds = true ∧
      (∃ store, run.store (joinUri base (put_key run.cfg e.draws.rand_val)) = .ok store) ∧
        run.step pre e = { pre with
          get_lists := Run.add_put_uri
            (joinUri base (put_key run.cfg e.draws.rand_val)) pre.get_lists } := by
  unfold Run.step
  split
  · rename_i hop
    split
    · rename_i full_uri huri
      split
      · rename_i store hstore
        split
        · rename_i hadds
          simp only [Bool.and_eq_true, Option.isNone_iff_eq_none] at hadds
          obtain ⟨⟨hsucceeds, hdynamic⟩, hflat⟩ := hadds
          right
          unfold Run.op_uri at huri
          rw [hop, hflat] at huri
          rw [hop]
          obtain ⟨base, hbase, rfl⟩ := serde.map_ok.mp huri
          exact ⟨base, hbase, hdynamic, hflat, hsucceeds, ⟨store, hstore⟩, rfl⟩
        · exact .inl rfl
      · exact .inl rfl
    · exact .inl rfl
  · exact .inl rfl

theorem add_put_uri_uris (full_uri : Path) (l : List UriSource) :
    (Run.add_put_uri full_uri l).map UriSource.uri = l.map UriSource.uri := by
  induction l with
  | nil => rfl
  | cons src l ih =>
    unfold Run.add_put_uri
    split
    · rfl
    · rw [List.map_cons, List.map_cons, ih]

theorem mem_add_put_uri {l : List UriSource} {src : UriSource}
    (h : src ∈ Run.add_put_uri full_uri l) : src ∈ l ∨ ∃ old ∈ l,
      src = { old with full_uris := old.full_uris ++ [full_uri] } ∧
        (l.map UriSource.uri).find? (Run.goes_on · full_uri) = some old.uri := by
  induction l with
  | nil => cases h
  | cons first l ih =>
    unfold Run.add_put_uri at h
    rw [List.map_cons]
    split at h
    · rename_i hgoes
      rcases List.mem_cons.mp h with rfl | h
      · exact .inr ⟨first, List.mem_cons_self, rfl, List.find?_cons_of_pos hgoes⟩
      · exact .inl (List.mem_cons_of_mem _ h)
    · rename_i hgoes
      rcases List.mem_cons.mp h with rfl | h
      · exact .inl List.mem_cons_self
      · rcases ih h with h | ⟨old, hold, hsrc, hfind⟩
        · exact .inl (List.mem_cons_of_mem _ h)
        · refine .inr ⟨old, List.mem_cons_of_mem _ hold, hsrc, ?_⟩
          rw [Bool.not_eq_true] at hgoes
          simp only [List.find?_cons, hgoes, hfind]

/-- A new object can be added to what was found for a pattern. -/
structure Run.Feeds (run : Run) (pattern full_uri : Path) : Prop where
  dynamic : run.cfg.dynamic_put_pool = true
  put : ∃ op rand_val base, Issues run.cfg op ∧ put_base run.cfg op = .ok base ∧
    full_uri = joinUri base (put_key run.cfg rand_val)
  stored : ∃ store, run.store full_uri = .ok store
  first : (patterns run.cfg run.cfg.workload .get).find? (Run.goes_on · full_uri) = some pattern

/-- What the lists of a run have, at any time. -/
structure Run.Lists (stores : Stores) (run : Run) (pre : PreResolved) : Prop where
  uris : ∀ kind, (pre.lists kind).map UriSource.uri = patterns run.cfg run.cfg.workload kind
  some_uri : ∀ kind, ∀ src ∈ pre.lists kind, src.full_uris ≠ []
  origin : ∀ kind, ∀ src ∈ pre.lists kind, ∀ full_uri ∈ src.full_uris,
    Finds stores run.cfg src.uri full_uri ∨ kind = .get ∧ run.Feeds src.uri full_uri

theorem lists_of_resolves (h : Resolves stores run.cfg run.cfg.workload pre) :
    run.Lists stores pre := by
  refine ⟨h.uris, fun kind src hsrc => (h.good kind src hsrc).some_uri, ?_⟩
  intro kind src hsrc full_uri hmem
  exact .inl ((finds_iff (h.good kind src hsrc).found).mp hmem)

theorem lists_step (h : run.Lists stores pre) {e : Run.Event} (he : Issues run.cfg e.op) :
    run.Lists stores (run.step pre e) := by
  rcases step_cases run pre e with hsame | ⟨base, hbase, hdynamic, _, _, hstore, hadd⟩
  · rwa [hsame]
  · rw [hadd]
    have horigin : ∀ src ∈ Run.add_put_uri (joinUri base (put_key run.cfg e.draws.rand_val))
        pre.get_lists, src.full_uris ≠ [] ∧ ∀ full_uri ∈ src.full_uris,
          Finds stores run.cfg src.uri full_uri ∨ run.Feeds src.uri full_uri := by
      intro src hsrc
      have hold := fun src hsrc => h.origin .get src hsrc
      simp only [true_and] at hold
      rcases mem_add_put_uri hsrc with hmem | ⟨old, hmem, rfl, hfirst⟩
      · exact ⟨h.some_uri .get src hmem, hold src hmem⟩
      · refine ⟨List.append_ne_nil_of_left_ne_nil (h.some_uri .get old hmem) _, ?_⟩
        intro full_uri hfull
        rcases List.mem_append.mp hfull with hfull | hfull
        · exact hold old hmem full_uri hfull
        · obtain rfl := List.mem_singleton.mp hfull
          have huris := h.uris .get
          refine .inr ⟨hdynamic, ⟨e.op, _, base, he, hbase, rfl⟩, hstore, ?_⟩
          rw [← huris]
          exact hfirst
    refine ⟨fun kind => ?_, fun kind src hsrc => ?_, fun kind src hsrc full_uri hfull => ?_⟩
    · cases kind with
      | get => exact (add_put_uri_uris _ _).trans (h.uris .get)
      | delete => exact h.uris .delete
      | stat => exact h.uris .stat
    · cases kind with
      | get => exact (horigin src hsrc).1
      | delete => exact h.some_uri .delete src hsrc
      | stat => exact h.some_uri .stat src hsrc
    · cases kind with
      | get => exact ((horigin src hsrc).2 full_uri hfull).imp_right fun hfeeds => ⟨rfl, hfeeds⟩
      | delete => exact h.origin .delete src hsrc full_uri hfull
      | stat => exact h.origin .stat src hsrc full_uri hfull

theorem lists_after (h : run.Lists stores pre) {events : List Run.Event}
    (hevents : ∀ e ∈ events, Issues run.cfg e.op) : run.Lists stores (run.after pre events) := by
  induction events generalizing pre with
  | nil => exact h
  | cons e events ih =>
    exact ih (lists_step h (hevents e List.mem_cons_self)) fun e' he' =>
      hevents e' (List.mem_cons_of_mem _ he')

/-- An operation is given an object of the list of its pattern. -/
theorem found_uri_ok {r : WorkerDraws} {op : OpSpec}
    (hop : pattern_of run.cfg op = some (kind, uri))
    (h : run.found_uri pre r op = .ok full_uri) :
    ∃ src ∈ pre.lists kind, src.uri = uri ∧ full_uri ∈ src.full_uris := by
  unfold Run.found_uri at h
  rw [hop] at h
  dsimp only at h
  split at h
  · rename_i src hsrc
    have hmem := List.mem_of_find?_eq_some hsrc
    have huri := List.find?_some hsrc
    split at h
    · rename_i found hfound
      cases h
      exact ⟨src, hmem, by simpa using huri, List.mem_of_getElem? hfound⟩
    · cases h
  · cases h

/-- And it can be given any of them. -/
theorem exists_found_uri {src : UriSource} {op : OpSpec}
    (hop : pattern_of run.cfg op = some (kind, uri)) (hsrc : pre.for_uri kind uri = some src)
    (h : full_uri ∈ src.full_uris) : ∃ r, run.found_uri pre r op = .ok full_uri := by
  obtain ⟨i, hi, hget⟩ := List.mem_iff_getElem.mp h
  refine ⟨⟨⟨true, 0, 0⟩, i, 0⟩, ?_⟩
  unfold Run.found_uri
  rw [hop]
  dsimp only
  rw [hsrc]
  dsimp only
  rw [Nat.mod_eq_of_lt hi, List.getElem?_eq_getElem hi, hget]

end

end sai3_bench.workload
