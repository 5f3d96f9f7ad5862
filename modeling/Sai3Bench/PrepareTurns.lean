-- What a prepare phase is asked for, turn by turn: the objects of one pool of
-- one spec, their addresses and sizes, and which of them are taken to exist.
import Sai3Bench.Listings
import Sai3Bench.SizeGenerators
import Sai3Bench.MetadataCaches

namespace sai3_bench.prepare

open directory_tree texts size_generator metadata_cache

/-! ## The config -/

def DEFAULT_MIN_SIZE : Nat := 1024 * 1024

def DEFAULT_MAX_SIZE : Nat := 1024 * 1024

structure EnsureSpec where
  base_uri : Option Path := none
  count : Nat
  min_size : Option Nat := none
  max_size : Option Nat := none
  size_spec : Option SizeSpec := none

structure PrepareConfig where
  ensure_objects : List EnsureSpec := []
  skip_verification : Bool := false
  force_overwrite : Bool := false
  key_prefix_shards : Nat := 0

/-- A store of several endpoints has at least one. -/
structure MultiEndpointConfig where
  endpoints : List Path
  some_endpoint : endpoints ≠ []

namespace EnsureSpec

def get_base_uri (spec : EnsureSpec) (multi_endpoint_uris : Option (List Path)) :
    Except String Path :=
  match spec.base_uri, multi_endpoint_uris with
  | some uri, _ => .ok uri
  | none, some (first :: _) => .ok first
  | none, some [] => .error "multi_endpoint list is empty — cannot determine base_uri"
  | none, none => .error "base_uri is required when no multi_endpoint configuration is provided"

def get_size_spec (spec : EnsureSpec) : SizeSpec :=
  match spec.size_spec with
  | some size_spec => size_spec
  | none =>
    let min := spec.min_size.getD DEFAULT_MIN_SIZE
    let max := spec.max_size.getD DEFAULT_MAX_SIZE
    if min = max then .Fixed min
    else .Distribution { dist_type := .Uniform, min := some min, max := some max }

end EnsureSpec

/-- One pool of one spec. -/
structure Turn where
  spec : EnsureSpec
  pool : Path

/-- What `prepare_sequential` and `prepare_parallel` are called with. -/
structure Job where
  config : PrepareConfig
  needs_separate_pools : Bool := false
  multi_endpoint : Option MultiEndpointConfig := none
  tree_manifest : Option TreeManifest := none
  concurrency : Nat := 1
  agent_id : Nat := 0
  num_agents : Nat := 1
  shared_storage : Bool := true

namespace Job

def pools (job : Job) : List Path :=
  if job.needs_separate_pools then ["prepared".toList, "deletable".toList]
  else ["prepared".toList]

def turns (job : Job) : List Turn :=
  job.config.ensure_objects.flatMap fun spec => job.pools.map fun pool => ⟨spec, pool⟩

def multi_endpoint_uris (job : Job) : Option (List Path) := job.multi_endpoint.map (·.endpoints)

end Job

/-! ## The addresses of the objects -/

/-- The name of an object, in one of the directories of its shards. -/
def objectKey (key_prefix_shards : Nat) (pool : Path) (idx : Nat) : Path :=
  let name := pool ++ '-' :: padded 10 8 idx ++ ".dat".toList
  if 0 < key_prefix_shards then padded 16 2 (idx % key_prefix_shards) ++ '/' :: name else name

def joinUri (base_uri key : Path) : Path := withSlash base_uri ++ key

namespace Turn

/-- The address under a base, if the manifest has the file. -/
def uri (turn : Turn) (job : Job) (base_uri : Path) (idx : Nat) : Option Path :=
  match job.tree_manifest with
  | some manifest => (manifest.get_file_path idx).map (joinUri base_uri)
  | none => some (joinUri base_uri (objectKey job.config.key_prefix_shards turn.pool idx))

/-- What is listed for a turn without a tree. -/
def list_pattern (turn : Turn) (job : Job) (base_uri : Path) : Path :=
  if 0 < job.config.key_prefix_shards then withSlash base_uri
  else withSlash base_uri ++ turn.pool ++ ['-']

end Turn

/-! ## Which objects are taken to exist -/

structure Existing where
  count : Nat
  indices : Finset Nat

namespace Turn

/-- `covers_all` is the answer of the cache. -/
def existing (turn : Turn) (job : Job) (stream : Path → List (Except String Path))
    (covers_all : Bool) (base_uri : Path) : Except String Existing :=
  if job.config.skip_verification && !job.config.force_overwrite then .ok ⟨turn.spec.count, ∅⟩
  else if job.config.force_overwrite then .ok ⟨0, ∅⟩
  else if covers_all then .ok ⟨turn.spec.count, ∅⟩
  else
    let listing := match job.tree_manifest with
      | some manifest => list_existing_objects_distributed stream base_uri (some manifest)
          job.agent_id job.num_agents
      | none => list_existing_objects_distributed stream (turn.list_pattern job base_uri) none
          job.agent_id job.num_agents
    match listing with
    | .ok result => .ok ⟨result.file_count, result.indices⟩
    | .error _ => .error "Failed to list existing objects"

def to_create (turn : Turn) (e : Existing) : Nat :=
  if turn.spec.count ≤ e.count then 0 else turn.spec.count - e.count

/-! ### Turns whose listings succeed -/

/-- What is listed for a turn. -/
def listed (turn : Turn) (job : Job) (list : Path → List Path) (base_uri : Path) : List Path :=
  match job.tree_manifest with
  | some manifest => listedPaths list base_uri (some manifest) job.agent_id job.num_agents
  | none => listedPaths list (turn.list_pattern job base_uri) none job.agent_id job.num_agents

/-- What is taken to exist: all, nothing, or what is listed. -/
def taken (turn : Turn) (job : Job) (list : Path → List Path) (covers_all : Bool)
    (base_uri : Path) : Existing :=
  if job.config.skip_verification && !job.config.force_overwrite then ⟨turn.spec.count, ∅⟩
  else if job.config.force_overwrite then ⟨0, ∅⟩
  else if covers_all then ⟨turn.spec.count, ∅⟩
  else ⟨(turn.listed job list base_uri).length, parsedIndices (turn.listed job list base_uri)⟩

theorem existing_succeeds (turn : Turn) (job : Job) (list : Path → List Path) (covers_all : Bool)
    (base_uri : Path) : turn.existing job (succeeds list) covers_all base_uri =
      .ok (turn.taken job list covers_all base_uri) := by
  have hlisting : ∀ result paths, Counts result paths →
      (⟨result.file_count, result.indices⟩ : Existing) = ⟨paths.length, parsedIndices paths⟩ := by
    rintro result paths ⟨hcount, hindices, _⟩
    rw [hcount, hindices]
  unfold existing taken listed
  dsimp only
  split
  · rfl
  · split
    · rfl
    · split
      · rfl
      · cases job.tree_manifest with
        | none =>
          obtain ⟨result, hresult, hcounts⟩ := listing_succeeds list (turn.list_pattern job base_uri)
            none job.agent_id job.num_agents
          dsimp only
          rw [hresult]
          dsimp only
          rw [hlisting _ _ hcounts]
        | some manifest =>
          obtain ⟨result, hresult, hcounts⟩ := listing_succeeds list base_uri (some manifest)
            job.agent_id job.num_agents
          dsimp only
          rw [hresult]
          dsimp only
          rw [hlisting _ _ hcounts]

theorem to_create_eq_zero {turn : Turn} {e : Existing} :
    turn.to_create e = 0 ↔ turn.spec.count ≤ e.count := by
  unfold to_create
  split <;> omega

end Turn

/-- The answer of the cache to a turn, when there is one. -/
def coverage (cache : Option MetadataCache) (turn : Turn) : Bool :=
  (cache.map (·.covers_all turn.spec.count)).getD false

/-! ## The objects of a turn -/

structure PreparedObject where
  uri : Path
  size : Nat
  created : Bool
deriving DecidableEq, Repr

/-- An object that is to be put. -/
structure PrepareTask where
  uri : Path
  size : Nat
  file_idx : Nat
deriving DecidableEq, Repr

def u64 : Nat := 2 ^ 64

/-- The seed of the sizes under a base. -/
def seedOf (base_uri : Path) : Nat :=
  (base_uri.flatMap String.utf8EncodeChar).foldl (fun acc b => (acc * 31 + b.toNat) % u64) 0

section

variable {r : Random}

/-- Tasks for the numbers that are selected. A size is drawn for each number. -/
def createTasks (select : Nat → Bool) (uri : Nat → Option Path) :
    SizeGenerator r → List Nat → List PrepareTask
  | _, [] => []
  | g, idx :: idxs =>
    let (size, g) := g.generate
    match select idx, uri idx with
    | true, some uri₀ => ⟨uri₀, size, idx⟩ :: createTasks select uri g idxs
    | _, _ => createTasks select uri g idxs

/-- The objects that exist already. A size is drawn for each that has an address. -/
def reconstruct (uri : Nat → Option Path) : SizeGenerator r → List Nat → List PreparedObject
  | _, [] => []
  | g, idx :: idxs =>
    match uri idx with
    | some uri₀ =>
      let (size, g) := g.generate
      ⟨uri₀, size, false⟩ :: reconstruct uri g idxs
    | none => reconstruct uri g idxs

theorem mem_createTasks_range {select : Nat → Bool} {uri : Nat → Option Path}
    {g : SizeGenerator r} {start n : Nat} {task : PrepareTask} :
    task ∈ createTasks select uri (g.after start) (List.range' start n) ↔
      start ≤ task.file_idx ∧ task.file_idx < start + n ∧ select task.file_idx = true ∧
        uri task.file_idx = some task.uri ∧ task.size = g.size task.file_idx := by
  induction n generalizing start with
  | zero =>
    simp only [List.range'_zero, createTasks, List.not_mem_nil, false_iff]
    omega
  | succ n ih =>
    have hrest := @ih (start + 1)
    rw [SizeGenerator.after_succ] at hrest
    have hsplit : (start ≤ task.file_idx ∧ task.file_idx < start + (n + 1)) ↔
        task.file_idx = start ∨ start + 1 ≤ task.file_idx ∧ task.file_idx < start + 1 + n := by
      omega
    have hself : ∀ uri₀, select start = true → uri start = some uri₀ →
        (task = ⟨uri₀, (g.after start).generate.1, start⟩ ↔ task.file_idx = start ∧
          select task.file_idx = true ∧ uri task.file_idx = some task.uri ∧
            task.size = g.size task.file_idx) := by
      intro uri₀ hsel huri
      obtain ⟨u, z, i⟩ := task
      simp only [PrepareTask.mk.injEq]
      constructor
      · rintro ⟨rfl, rfl, rfl⟩
        exact ⟨rfl, hsel, huri, rfl⟩
      · rintro ⟨rfl, _, hu, rfl⟩
        rw [huri] at hu
        exact ⟨(Option.some.inj hu).symm, rfl, rfl⟩
    rw [List.range'_succ, ← and_assoc, hsplit, or_and_right]
    unfold createTasks
    dsimp only
    split
    · rename_i hsel huri
      rw [List.mem_cons, hrest, hself _ hsel huri]
      simp only [and_assoc]
    · rename_i hnot
      rw [hrest]
      constructor
      · intro h
        exact .inr ⟨⟨h.1, h.2.1⟩, h.2.2⟩
      · rintro (⟨rfl, hsel, huri, _⟩ | ⟨⟨h1, h2⟩, h⟩)
        · exact absurd huri (hnot _ hsel)
        · exact ⟨h1, h2, h⟩

/-- What is put is what is selected, with the size of its number. -/
theorem mem_createTasks {select : Nat → Bool} {uri : Nat → Option Path} {g : SizeGenerator r}
    {n : Nat} {task : PrepareTask} :
    task ∈ createTasks select uri g (List.range n) ↔ task.file_idx < n ∧
      select task.file_idx = true ∧ uri task.file_idx = some task.uri ∧
        task.size = g.size task.file_idx := by
  have h := @mem_createTasks_range r select uri g 0 n task
  rw [List.range_eq_range']
  simpa using h

end

end sai3_bench.prepare
