-- The messages between the controller and an agent, as the proto file has
-- them. The floating point numbers (times and latencies) are left out.
import Mathlib.Data.List.Basic

namespace sai3_bench.pb

/-- The operations and bytes of one kind of request. -/
structure OpAggregateMetrics where
  bytes : Nat := 0
  ops : Nat := 0
deriving DecidableEq, Repr

/-- What a finished workload tells of itself. -/
structure WorkloadSummary where
  agent_id : String := ""
  total_ops : Nat := 0
  total_bytes : Nat := 0
  get : OpAggregateMetrics := {}
  put : OpAggregateMetrics := {}
  «meta» : OpAggregateMetrics := {}
deriving DecidableEq, Repr

/-- What a finished prepare phase tells of itself. -/
structure PrepareSummary where
  agent_id : String := ""
  objects_created : Nat := 0
  objects_existed : Nat := 0
  put : OpAggregateMetrics := {}
deriving DecidableEq, Repr

/-- What a finished stage tells of itself. -/
structure StageSummary where
  stage_index : Nat := 0
  stage_name : String := ""
  stage_type : String := ""
  get_ops : Nat := 0
  get_bytes : Nat := 0
  put_ops : Nat := 0
  put_bytes : Nat := 0
  meta_ops : Nat := 0
  errors : Nat := 0
deriving DecidableEq, Repr

/-- The message of an agent. `status` is 1 READY, 2 RUNNING, 3 ERROR,
4 COMPLETED, 5 ABORTED, 6 ACKNOWLEDGE, 7 PREFLIGHT_RESULT. -/
structure LiveStats where
  agent_id : String := ""
  get_ops : Nat := 0
  get_bytes : Nat := 0
  put_ops : Nat := 0
  put_bytes : Nat := 0
  meta_ops : Nat := 0
  completed : Bool := false
  final_summary : Option WorkloadSummary := none
  status : Int := 0
  error_message : String := ""
  in_prepare_phase : Bool := false
  prepare_objects_created : Nat := 0
  prepare_objects_total : Nat := 0
  prepare_summary : Option PrepareSummary := none
  sequence : Int := 0
  current_stage : Int := 0
  stage_name : String := ""
  stage_progress_current : Nat := 0
  stage_progress_total : Nat := 0
  concurrency : Nat := 0
  at_barrier : Bool := false
  barrier_name : String := ""
  barrier_sequence : Nat := 0
  stage_summary : Option StageSummary := none
deriving DecidableEq, Repr

/-- What the controller asks of an agent. -/
inductive Command
  | Ping
  | Start
  | Abort
  | Preflight
  | Acknowledge
  | ReleaseBarrier
  | Goodbye
  | Reset
  | SyncState
deriving DecidableEq, Repr

/-- The message of the controller. `command` is `none` for a number that
names no command. -/
structure ControlMessage where
  command : Option Command
  config_yaml : String := ""
  agent_id : String := ""
  path_prefix : String := ""
  shared_storage : Bool := false
  agent_index : Nat := 0
  num_agents : Nat := 0
  ack_sequence : Int := 0
  barrier_name : String := ""
  barrier_sequence : Nat := 0
  target_stage_index : Nat := 0
  target_stage_name : String := ""
  ready_for_next : Bool := false
deriving DecidableEq, Repr

/-- What an agent is doing. -/
inductive WorkloadPhase
  | PhaseIdle
  | PhaseValidating
  | PhasePrepareReady
  | PhasePreparing
  | PhaseExecuteReady
  | PhaseExecuting
  | PhaseCleanupReady
  | PhaseCleaning
  | PhaseCompleted
  | PhaseFailed
  | PhaseAborting
deriving DecidableEq, Repr

/-- The heartbeat of an agent. -/
structure PhaseProgress where
  agent_id : String := ""
  current_phase : WorkloadPhase := .PhaseIdle
  objects_created : Nat := 0
  objects_total : Nat := 0
  current_operation : String := ""
  bytes_written : Nat := 0
  operations_completed : Nat := 0
  objects_deleted : Nat := 0
  objects_remaining : Nat := 0
  phase_completed : Bool := false
  at_barrier : Bool := false
deriving DecidableEq, Repr

/-- The kind of stage that a message is of. -/
inductive WorkloadStage
  | StageUnknown
  | StagePrepare
  | StageWorkload
  | StageCleanup
  | StageListing
  | StageCustom
deriving DecidableEq, Repr

/-- `try_from(..).unwrap_or(StageUnknown)`. -/
def WorkloadStage.of : Int → WorkloadStage
  | 1 => .StagePrepare
  | 2 => .StageWorkload
  | 3 => .StageCleanup
  | 4 => .StageListing
  | 10 => .StageCustom
  | _ => .StageUnknown

end sai3_bench.pb
