-- The settings of the agents and of their stages (config.rs), as they are
-- written and read back.
import Sai3Bench.RunSettings

namespace sai3_bench.config.written

open serde serde.Codec serde.Field serde.Entries serde_helpers

variable {w : Wire}

/-! ## Barriers -/

structure PhaseBarrierConfig where
  barrier_type : BarrierType
  heartbeat_interval : U64 := 30
  missed_threshold : U32 := 3
  query_timeout : U64 := 10
  query_retries : U32 := 2
  agent_barrier_timeout : U64 := 120

structure BarrierSyncConfig where
  enabled : Bool := false
  default_heartbeat_interval : U64 := 30
  default_missed_threshold : U32 := 3
  default_query_timeout : U64 := 10
  default_query_retries : U32 := 2
  validation : Option PhaseBarrierConfig := none
  prepare : Option PhaseBarrierConfig := none
  execute : Option PhaseBarrierConfig := none
  cleanup : Option PhaseBarrierConfig := none

def barrier_type : Codec BarrierType :=
  .unit [.AllOrNothing, .Majority, .BestEffort] fun
    | .AllOrNothing => "all_or_nothing"
    | .Majority => "majority"
    | .BestEffort => "best_effort"

def PhaseBarrierConfig.codec : Codec PhaseBarrierConfig := .struct <| .via
  (.field (required "type" written.barrier_type) <|
   .field (defaulted "heartbeat_interval" u64 30) <|
   .field (defaulted "missed_threshold" u32 3) <|
   .field (defaulted "query_timeout" seconds 10) <|
   .field (defaulted "query_retries" u32 2) <|
   .field (defaulted "agent_barrier_timeout" seconds 120) .nil)
  { toFun b := (b.barrier_type, b.heartbeat_interval, b.missed_threshold, b.query_timeout,
      b.query_retries, b.agent_barrier_timeout, ())
    invFun := fun (barrier_type, heartbeat_interval, missed_threshold, query_timeout,
        query_retries, agent_barrier_timeout, _) =>
      { barrier_type, heartbeat_interval, missed_threshold, query_timeout, query_retries,
        agent_barrier_timeout }
    left_inv _ := rfl
    right_inv _ := rfl }

def BarrierSyncConfig.codec : Codec BarrierSyncConfig := .struct <| .via
  (.field (defaulted "enabled" .bool false) <|
   .field (defaulted "default_heartbeat_interval" seconds 30) <|
   .field (defaulted "default_missed_threshold" u32 3) <|
   .field (defaulted "default_query_timeout" seconds 10) <|
   .field (defaulted "default_query_retries" u32 2) <|
   .field (.optional "validation" PhaseBarrierConfig.codec) <|
   .field (.optional "prepare" PhaseBarrierConfig.codec) <|
   .field (.optional "execute" PhaseBarrierConfig.codec) <|
   .field (.optional "cleanup" PhaseBarrierConfig.codec) .nil)
  { toFun b := (b.enabled, b.default_heartbeat_interval, b.default_missed_threshold,
      b.default_query_timeout, b.default_query_retries, b.validation, b.prepare, b.execute,
      b.cleanup, ())
    invFun := fun (enabled, default_heartbeat_interval, default_missed_threshold,
        default_query_timeout, default_query_retries, validation, prepare, execute, cleanup, _) =>
      { enabled, default_heartbeat_interval, default_missed_threshold, default_query_timeout,
        default_query_retries, validation, prepare, execute, cleanup }
    left_inv _ := rfl
    right_inv _ := rfl }

@[simp] theorem barrier_type_keeps (t : BarrierType) : barrier_type.Keeps t := by
  apply unit_keeps
  cases t <;> rfl

@[simp] theorem phase_barrier_keeps (b : PhaseBarrierConfig) :
    PhaseBarrierConfig.codec.Keeps b := by
  simp [PhaseBarrierConfig.codec, struct_keeps, via_keeps, field_keeps, required_keeps,
    defaulted_keeps]

@[simp] theorem phase_barrier_solid : PhaseBarrierConfig.codec.Solid := struct_solid

@[simp] theorem barrier_sync_keeps (b : BarrierSyncConfig) : BarrierSyncConfig.codec.Keeps b := by
  simp [BarrierSyncConfig.codec, struct_keeps, via_keeps, field_keeps, defaulted_keeps,
    optional_keeps]

/-! ## Stages -/

inductive StageSpecificConfig
  | Execute (duration : Duration)
  | Prepare (expected_objects : Option U64)
  | Cleanup (expected_objects : Option U64)
  | Custom (command : String) (args : List String)
  | Hybrid (max_duration : Option Duration) (expected_tasks : Option U64)
  | Validation

structure StageConfig where
  name : String
  order : U64
  completion : CompletionCriteria := .Duration
  barrier : Option PhaseBarrierConfig := none
  timeout_secs : Option U64 := none
  optional : Bool := false
  config : StageSpecificConfig

def completion_criteria : Codec CompletionCriteria :=
  .unit [.Duration, .TasksDone, .ScriptExit, .ValidationPassed, .DurationOrTasks] fun
    | .Duration => "duration"
    | .TasksDone => "tasks_done"
    | .ScriptExit => "script_exit"
    | .ValidationPassed => "validation_passed"
    | .DurationOrTasks => "duration_or_tasks"

def execute_entries (w : Wire) : Entries (Duration × Unit) :=
  .field (required "duration" w.humantime) .nil

def objects_entries : Entries (Option U64 × Unit) := .field (.optional "expected_objects" u64) .nil

def custom_entries : Entries (String × List String × Unit) :=
  .field (required "command" .string) <| .field (defaulted "args" (.vec .string) []) .nil

def hybrid_entries (w : Wire) : Entries (Option Duration × Option U64 × Unit) :=
  .field (.optional "max_duration" w.humantime) <| .field (.optional "expected_tasks" u64) .nil

def stage_variant : StageSpecificConfig → String
  | .Execute .. => "execute"
  | .Prepare .. => "prepare"
  | .Cleanup .. => "cleanup"
  | .Custom .. => "custom"
  | .Hybrid .. => "hybrid"
  | .Validation => "validation"

def stage_write (w : Wire) : StageSpecificConfig → List (String × Value)
  | .Execute duration => (execute_entries w).write (duration, ())
  | .Prepare expected_objects | .Cleanup expected_objects =>
    objects_entries.write (expected_objects, ())
  | .Custom command args => custom_entries.write (command, args, ())
  | .Hybrid max_duration expected_tasks =>
    (hybrid_entries w).write (max_duration, expected_tasks, ())
  | .Validation => []

def stage_read (w : Wire) (name : String) (entries : List (String × Value)) :
    Except String StageSpecificConfig :=
  match name with
  | "execute" => (fun f => .Execute f.1) <$> (execute_entries w).read entries
  | "prepare" => (fun f => .Prepare f.1) <$> objects_entries.read entries
  | "cleanup" => (fun f => .Cleanup f.1) <$> objects_entries.read entries
  | "custom" => (fun (command, args, _) => .Custom command args) <$> custom_entries.read entries
  | "hybrid" =>
    (fun (max_duration, expected_tasks, _) => .Hybrid max_duration expected_tasks) <$>
      (hybrid_entries w).read entries
  | "validation" => .ok .Validation
  | _ => .error ("unknown variant " ++ name)

def stage_names (w : Wire) : List String :=
  (execute_entries w).names ++ objects_entries.names ++ custom_entries.names ++
    (hybrid_entries w).names

theorem stage_write_names (config : StageSpecificConfig) : ∀ e ∈ stage_write w config,
    e.1 ∈ stage_names w := by
  intro e he
  unfold stage_names
  simp only [List.mem_append]
  cases config with
  | Execute duration => exact .inl (.inl (.inl ((execute_entries w).write_names _ e he)))
  | Prepare n | Cleanup n => exact .inl (.inl (.inr (objects_entries.write_names _ e he)))
  | Custom command args => exact .inl (.inr (custom_entries.write_names _ e he))
  | Hybrid max_duration n => exact .inr ((hybrid_entries w).write_names _ e he)
  | Validation => cases he

def stage_entries (w : Wire) : Entries StageSpecificConfig :=
  .tagged "type" (stage_names w) stage_variant (stage_write w) (stage_read w) stage_write_names

def StageConfig.codec (w : Wire) : Codec StageConfig := .struct <| .via
  (.field (required "name" .string) <|
   .field (required "order" u64) <|
   .field (defaulted "completion" completion_criteria .Duration) <|
   .field (.optional "barrier" PhaseBarrierConfig.codec) <|
   .field (.optional "timeout_secs" u64) <|
   .field (defaulted "optional" .bool false) <|
   stage_entries w)
  { toFun s := (s.name, s.order, s.completion, s.barrier, s.timeout_secs, s.optional, s.config)
    invFun := fun (name, order, completion, barrier, timeout_secs, optional, config) =>
      { name, order, completion, barrier, timeout_secs, optional, config }
    left_inv _ := rfl
    right_inv _ := rfl }

@[simp] theorem completion_criteria_keeps (c : CompletionCriteria) :
    completion_criteria.Keeps c := by
  apply unit_keeps
  cases c <;> rfl

@[simp] theorem execute_entries_keeps (f : Duration × Unit) : (execute_entries w).Keeps f := by
  simp [execute_entries, field_keeps, required_keeps]

@[simp] theorem objects_entries_keeps (f : Option U64 × Unit) : objects_entries.Keeps f := by
  simp [objects_entries, field_keeps, optional_keeps]

@[simp] theorem custom_entries_keeps (f : String × List String × Unit) :
    custom_entries.Keeps f := by
  simp [custom_entries, field_keeps, required_keeps, defaulted_keeps, vec_keeps]

@[simp] theorem hybrid_entries_keeps (f : Option Duration × Option U64 × Unit) :
    (hybrid_entries w).Keeps f := by
  simp [hybrid_entries, field_keeps, optional_keeps]

@[simp] theorem stage_entries_keeps (config : StageSpecificConfig) :
    (stage_entries w).Keeps config := by
  unfold stage_entries
  rw [tagged_keeps (of_decide_eq_true rfl)]
  cases config with
  | Execute duration => exact map_ok.mpr ⟨_, execute_entries_keeps _, rfl⟩
  | Prepare n | Cleanup n => exact map_ok.mpr ⟨_, objects_entries_keeps _, rfl⟩
  | Custom command args => exact map_ok.mpr ⟨_, custom_entries_keeps _, rfl⟩
  | Hybrid max_duration n => exact map_ok.mpr ⟨_, hybrid_entries_keeps _, rfl⟩
  | Validation => rfl

@[simp] theorem stage_config_keeps (s : StageConfig) : (StageConfig.codec w).Keeps s := by
  simp [StageConfig.codec, struct_keeps, via_keeps, field_keeps, required_keeps, defaulted_keeps,
    optional_keeps]

/-! ## Agents -/

abbrev StringTable := AList fun _ : String => String

structure AgentConfig where
  address : String
  id : Option String := none
  target_override : Option String := none
  concurrency_override : Option U64 := none
  env : StringTable := ∅
  volumes : List String := []
  path_template : Option String := none
  listen_port : U16 := 7167
  multi_endpoint : Option MultiEndpointConfig := none
  kv_cache_dir : Option String := none

structure SshConfig where
  enabled : Bool := false
  user : Option String := none
  key_path : Option String := none
  timeout : U64 := 10
  known_hosts : Option String := none

structure DeploymentConfig where
  deploy_type : String := "docker"
  container_runtime : String := "docker"
  image : String := "sai3bench:latest"
  network_mode : String := "host"
  pull_policy : String := "if_not_present"
  binary_path : String := "/usr/local/bin/sai3bench-agent"
  docker_args : List String := []

inductive TreeCreationMode
  | Isolated
  | Coordinator
  | Concurrent
deriving DecidableEq, Repr

inductive PathSelectionStrategy
  | Random
  | Partitioned
  | Exclusive
  | Weighted
deriving DecidableEq, Repr

/-- Three tenths. -/
def default_partition_overlap : F64 := .finite false 1021 900719925474099

structure DistributedConfig where
  agents : List AgentConfig
  ssh : Option SshConfig := none
  deployment : Option DeploymentConfig := none
  start_delay : U64 := 2
  path_template : String := "agent-\x7bid\x7d/"
  shared_filesystem : Bool
  tree_creation_mode : TreeCreationMode
  path_selection : PathSelectionStrategy
  partition_overlap : F64 := default_partition_overlap
  grpc_keepalive_interval : U64 := 30
  grpc_keepalive_timeout : U64 := 10
  agent_ready_timeout : U64 := 120
  barrier_sync : BarrierSyncConfig := {}
  stages : List StageConfig := []
  kv_cache_dir : Option String := none

def AgentConfig.codec : Codec AgentConfig := .struct <| .via
  (.field (required "address" .string) <|
   .field (.optional "id" .string) <|
   .field (.optional "target_override" .string) <|
   .field (.optional "concurrency_override" u64) <|
   .field (defaulted "env" (.table .string) ∅) <|
   .field (defaulted "volumes" (.vec .string) []) <|
   .field (.optional "path_template" .string) <|
   .field (defaulted "listen_port" u16 7167) <|
   .field (.optional "multi_endpoint" MultiEndpointConfig.codec) <|
   .field (.optional "kv_cache_dir" .string) .nil)
  { toFun a := (a.address, a.id, a.target_override, a.concurrency_override, a.env, a.volumes,
      a.path_template, a.listen_port, a.multi_endpoint, a.kv_cache_dir, ())
    invFun := fun (address, id, target_override, concurrency_override, env, volumes,
        path_template, listen_port, multi_endpoint, kv_cache_dir, _) =>
      { address, id, target_override, concurrency_override, env, volumes, path_template,
        listen_port, multi_endpoint, kv_cache_dir }
    left_inv _ := rfl
    right_inv _ := rfl }

def SshConfig.codec : Codec SshConfig := .struct <| .via
  (.field (defaulted "enabled" .bool false) <|
   .field (.optional "user" .string) <|
   .field (.optional "key_path" .string) <|
   .field (defaulted "timeout" seconds 10) <|
   .field (.optional "known_hosts" .string) .nil)
  { toFun s := (s.enabled, s.user, s.key_path, s.timeout, s.known_hosts, ())
    invFun := fun (enabled, user, key_path, timeout, known_hosts, _) =>
      { enabled, user, key_path, timeout, known_hosts }
    left_inv _ := rfl
    right_inv _ := rfl }

def DeploymentConfig.codec : Codec DeploymentConfig :=
  let default : DeploymentConfig := {}
  .struct <| .via
  (.field (defaulted "deploy_type" .string default.deploy_type) <|
   .field (defaulted "container_runtime" .string default.container_runtime) <|
   .field (defaulted "image" .string default.image) <|
   .field (defaulted "network_mode" .string default.network_mode) <|
   .field (defaulted "pull_policy" .string default.pull_policy) <|
   .field (defaulted "binary_path" .string default.binary_path) <|
   .field (defaulted "docker_args" (.vec .string) []) .nil)
  { toFun d := (d.deploy_type, d.container_runtime, d.image, d.network_mode, d.pull_policy,
      d.binary_path, d.docker_args, ())
    invFun := fun (deploy_type, container_runtime, image, network_mode, pull_policy, binary_path,
        docker_args, _) =>
      { deploy_type, container_runtime, image, network_mode, pull_policy, binary_path,
        docker_args }
    left_inv _ := rfl
    right_inv _ := rfl }

def tree_creation_mode : Codec TreeCreationMode :=
  .unit [.Isolated, .Coordinator, .Concurrent] fun
    | .Isolated => "isolated"
    | .Coordinator => "coordinator"
    | .Concurrent => "concurrent"

def path_selection : Codec PathSelectionStrategy :=
  .unit [.Random, .Partitioned, .Exclusive, .Weighted] fun
    | .Random => "random"
    | .Partitioned => "partitioned"
    | .Exclusive => "exclusive"
    | .Weighted => "weighted"

def DistributedConfig.codec (w : Wire) : Codec DistributedConfig := .struct <| .via
  (.field (required "agents" AgentConfig.codec.vec) <|
   .field (.optional "ssh" SshConfig.codec) <|
   .field (.optional "deployment" DeploymentConfig.codec) <|
   .field (defaulted "start_delay" seconds 2) <|
   .field (defaulted "path_template" .string "agent-\x7bid\x7d/") <|
   .field (required "shared_filesystem" .bool) <|
   .field (required "tree_creation_mode" written.tree_creation_mode) <|
   .field (required "path_selection" written.path_selection) <|
   .field (defaulted "partition_overlap" w.f64 default_partition_overlap) <|
   .field (defaulted "grpc_keepalive_interval" seconds 30) <|
   .field (defaulted "grpc_keepalive_timeout" seconds 10) <|
   .field (defaulted "agent_ready_timeout" seconds 120) <|
   .field (defaulted "barrier_sync" BarrierSyncConfig.codec {}) <|
   .field (defaulted "stages" (StageConfig.codec w).vec []) <|
   .field (.optional "kv_cache_dir" .string) .nil)
  { toFun d := (d.agents, d.ssh, d.deployment, d.start_delay, d.path_template,
      d.shared_filesystem, d.tree_creation_mode, d.path_selection, d.partition_overlap,
      d.grpc_keepalive_interval, d.grpc_keepalive_timeout, d.agent_ready_timeout, d.barrier_sync,
      d.stages, d.kv_cache_dir, ())
    invFun := fun (agents, ssh, deployment, start_delay, path_template, shared_filesystem,
        tree_creation_mode, path_selection, partition_overlap, grpc_keepalive_interval,
        grpc_keepalive_timeout, agent_ready_timeout, barrier_sync, stages, kv_cache_dir, _) =>
      { agents, ssh, deployment, start_delay, path_template, shared_filesystem,
        tree_creation_mode, path_selection, partition_overlap, grpc_keepalive_interval,
        grpc_keepalive_timeout, agent_ready_timeout, barrier_sync, stages, kv_cache_dir }
    left_inv _ := rfl
    right_inv _ := rfl }

@[simp] theorem string_table_keeps (t : StringTable) : (table string).Keeps t :=
  table_keeps string_keeps

@[simp] theorem agent_config_keeps (a : AgentConfig) : AgentConfig.codec.Keeps a := by
  simp [AgentConfig.codec, struct_keeps, via_keeps, field_keeps, required_keeps, defaulted_keeps,
    optional_keeps, vec_keeps]

@[simp] theorem ssh_config_keeps (s : SshConfig) : SshConfig.codec.Keeps s := by
  simp [SshConfig.codec, struct_keeps, via_keeps, field_keeps, defaulted_keeps, optional_keeps]

@[simp] theorem ssh_config_solid : SshConfig.codec.Solid := struct_solid

@[simp] theorem deployment_keeps (d : DeploymentConfig) : DeploymentConfig.codec.Keeps d := by
  simp [DeploymentConfig.codec, struct_keeps, via_keeps, field_keeps, defaulted_keeps, vec_keeps]

@[simp] theorem deployment_solid : DeploymentConfig.codec.Solid := struct_solid

@[simp] theorem tree_creation_mode_keeps (m : TreeCreationMode) :
    tree_creation_mode.Keeps m := by
  apply unit_keeps
  cases m <;> rfl

@[simp] theorem path_selection_keeps (s : PathSelectionStrategy) : path_selection.Keeps s := by
  apply unit_keeps
  cases s <;> rfl

theorem distributed_keeps (d : DistributedConfig) :
    (DistributedConfig.codec w).Keeps d ↔ w.f64.Keeps d.partition_overlap := by
  simp [DistributedConfig.codec, struct_keeps, via_keeps, field_keeps, required_keeps,
    defaulted_keeps, optional_keeps, vec_keeps]

theorem distributed_reads (d : DistributedConfig) :
    (DistributedConfig.codec w).Reads d ↔ w.f64.Reads d.partition_overlap := by
  simp [DistributedConfig.codec, struct_reads, via_reads, field_reads, required_reads,
    defaulted_reads, optional_reads, vec_keeps, Codec.reads_of_keeps]

@[simp] theorem distributed_solid : (DistributedConfig.codec w).Solid := struct_solid

end sai3_bench.config.written
