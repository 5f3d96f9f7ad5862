-- The plans of the parallel prepare strategy (prepare/parallel.rs): how many
-- objects an agent is to make of each turn, and which ones.
import Sai3Bench.PrepareTurns

namespace sai3_bench.prepare.parallel

open directory_tree texts size_generator metadata_cache

/-! ## Plans -/

structure PreparePlan where
  count : Nat
  size_spec : SizeSpec
  pool : Path
  endpoints : List Path
  existing_indices : Finset Nat
  force_overwrite : Bool
  skip_verification : Bool
  seed : Nat
  prefix_shards : Nat

/-- Numbers of 64 bits, which wrap around. -/
def wrapping_add (a b : Nat) : Nat := (a + b) % u64

def wrapping_sub (a b : Nat) : Nat := (a + u64 - b) % u64

/-- The number is one of this agent's, when the agents share the storage. -/
def mine (job : Job) (idx : Nat) : Bool :=
  !(job.shared_storage && decide (1 < job.num_agents)) || idx % job.num_agents = job.agent_id

/-- How many objects of a turn the agent is to make. -/
def actual_to_create (job : Job) (turn : Turn) (existing_indices : Finset Nat) : Nat :=
  if job.config.skip_verification && !job.config.force_overwrite then 0
  else if job.config.force_overwrite then
    if job.shared_storage && decide (1 < job.num_agents) then
      wrapping_sub (wrapping_sub (wrapping_add turn.spec.count job.num_agents) 1) job.agent_id /
        job.num_agents
    else turn.spec.count
  else (List.range turn.spec.count).countP fun idx => idx ∉ existing_indices && mine job idx

/-- The endpoints that the objects of a spec go to. -/
def endpointsOf (job : Job) (spec : EnsureSpec) : Except String (List Path) :=
  match job.multi_endpoint with
  | some multi_ep => .ok multi_ep.endpoints
  | none => (spec.get_base_uri none).map ([·])

def planOf (job : Job) (turn : Turn) (endpoints : List Path) (existing_indices : Finset Nat) :
    PreparePlan :=
  { count := turn.spec.count
    size_spec := turn.spec.get_size_spec
    pool := turn.pool
    endpoints := endpoints
    existing_indices := existing_indices
    force_overwrite := job.config.force_overwrite
    skip_verification := job.config.skip_verification
    seed := seedOf (endpoints.headD [])
    prefix_shards := job.config.key_prefix_shards }

/-- The plan of a turn, with how many objects it makes, if there are any. -/
def planTurn (job : Job) (stream : Path → List (Except String Path)) (covers_all : Bool)
    (turn : Turn) : Except String (Option (PreparePlan × Nat)) :=
  match endpointsOf job turn.spec with
  | .error e => .error e
  | .ok endpoints => match turn.existing job stream covers_all (endpoints.headD []) with
    | .error e => .error e
    | .ok e =>
      let count := actual_to_create job turn e.indices
      if 0 < count then .ok (some (planOf job turn endpoints e.indices, count)) else .ok none

namespace PreparePlan

def should_create (plan : PreparePlan) (idx : Nat) : Bool :=
  if plan.skip_verification && !plan.force_overwrite then false
  else if plan.force_overwrite then true
  else decide (idx ∉ plan.existing_indices)

/-- The numbers that the agent makes. -/
def selects (plan : PreparePlan) (job : Job) (idx : Nat) : Bool :=
  plan.should_create idx && mine job idx

/-- The objects go to the endpoints in turn. A file that the manifest does not
have gets a name without a directory. -/
def uri (plan : PreparePlan) (job : Job) (idx : Nat) : Path :=
  let endpoint := plan.endpoints.getD (idx % plan.endpoints.length) []
  match job.tree_manifest with
  | some manifest => match manifest.get_file_path idx with
    | some rel_path => joinUri endpoint rel_path
    | none => joinUri endpoint (objectKey 0 plan.pool idx)
  | none => joinUri endpoint (objectKey plan.prefix_shards plan.pool idx)

/-- The tasks of a plan, with the sizes that its generator draws. -/
def tasks {r : Random} (plan : PreparePlan) (job : Job) (g : SizeGenerator r) : List PrepareTask :=
  createTasks (plan.selects job) (fun idx => some (plan.uri job idx)) g (List.range plan.count)

end PreparePlan

variable {job : Job} {stream : Path → List (Except String Path)} {covers_all : Bool} {turn : Turn}

/-- All that planning a turn can give. -/
theorem planTurn_ok {p : Option (PreparePlan × Nat)}
    (h : planTurn job stream covers_all turn = .ok p) :
    ∃ endpoints e, endpointsOf job turn.spec = .ok endpoints ∧
      turn.existing job stream covers_all (endpoints.headD []) = .ok e ∧
      (actual_to_create job turn e.indices = 0 ∧ p = none ∨
        0 < actual_to_create job turn e.indices ∧
          p = some (planOf job turn endpoints e.indices, actual_to_create job turn e.indices)) := by
  unfold planTurn at h
  split at h
  · cases h
  · rename_i endpoints hendpoints
    split at h
    · cases h
    · rename_i e he
      refine ⟨endpoints, e, hendpoints, he, ?_⟩
      dsimp only at h
      split at h
      · rename_i hpos
        cases h
        exact .inr ⟨hpos, rfl⟩
      · rename_i hzero
        cases h
        exact .inl ⟨Nat.eq_zero_of_not_pos hzero, rfl⟩

/-- The address of an object that exists already, if the manifest has the file. -/
def existing_uri (job : Job) (turn : Turn) (endpoints : List Path) (idx : Nat) : Option Path :=
  turn.uri job (endpoints.getD (idx % endpoints.length) []) idx

/-- The objects of a turn, when nothing is to be made. -/
def existingObjects (r : Random) (job : Job) (turn : Turn) : Except String (List PreparedObject) :=
  match endpointsOf job turn.spec with
  | .error _ => .error "Failed to determine base_uri for reconstructing existing objects"
  | .ok endpoints => match SizeGenerator.new r turn.spec.get_size_spec with
    | .error _ => .error "Failed to create size generator"
    | .ok g =>
      .ok (reconstruct (existing_uri job turn endpoints) g (List.range turn.spec.count))

/-! ## The numbers that the agents take -/

/-- The numbers of a turn that are put by an agent. -/
def taskIndices (job : Job) (turn : Turn) (endpoints : List Path) (existing_indices : Finset Nat) :
    Finset Nat :=
  if 0 < actual_to_create job turn existing_indices then
    (Finset.range turn.spec.count).filter fun idx =>
      (planOf job turn endpoints existing_indices).selects job idx = true
  else ∅

/-- The numbers of a turn that are to be made by anyone. -/
def missingIndices (job : Job) (turn : Turn) (existing_indices : Finset Nat) : Finset Nat :=
  (Finset.range turn.spec.count).filter fun idx =>
    (planOf job turn [] existing_indices).should_create idx = true

/-- One of the agents that share the storage. -/
def agentOf (job : Job) (num_agents agent_id : Nat) : Job :=
  { job with agent_id := agent_id, num_agents := num_agents, shared_storage := true }

end sai3_bench.prepare.parallel
