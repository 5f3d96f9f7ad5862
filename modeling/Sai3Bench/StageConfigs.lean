-- The stages of a run as the YAML gives them: which lists of stages a run
-- takes, in which order it runs them, and the barrier of each stage.
import Mathlib.Data.List.Sort
import Mathlib.Data.Finset.Dedup

namespace sai3_bench.config

/-- How strict a barrier is. -/
inductive BarrierType
  | AllOrNothing
  | Majority
  | BestEffort
deriving DecidableEq, Repr

/-- The barrier of one phase. Times are in seconds. -/
structure PhaseBarrierConfig where
  barrier_type : BarrierType
  heartbeat_interval : Nat
  missed_threshold : Nat
  query_timeout : Nat
  query_retries : Nat
  agent_barrier_timeout : Nat
deriving DecidableEq, Repr

/-- How a stage knows that it is done. -/
inductive CompletionCriteria
  | Duration
  | TasksDone
  | ScriptExit
  | ValidationPassed
  | DurationOrTasks
deriving DecidableEq, Repr

/-- What a stage does. Durations are in nanoseconds. -/
inductive StageSpecificConfig
  | Execute (duration : Nat)
  | Prepare (expected_objects : Option Nat)
  | Cleanup (expected_objects : Option Nat)
  | Custom (command : String) (args : List String)
  | Hybrid (max_duration : Option Nat) (expected_tasks : Option Nat)
  | Validation
deriving DecidableEq, Repr

structure StageConfig where
  name : String
  order : Nat
  completion : CompletionCriteria
  barrier : Option PhaseBarrierConfig
  timeout_secs : Option Nat
  optional : Bool
  config : StageSpecificConfig
deriving DecidableEq, Repr

def default_heartbeat_interval : Nat := 30
def default_missed_threshold : Nat := 3
def default_query_timeout : Nat := 10
def default_query_retries : Nat := 2
def default_agent_barrier_timeout : Nat := 120

/-- The barriers of a whole run. -/
structure BarrierSyncConfig where
  enabled : Bool := false
  default_heartbeat_interval : Nat := config.default_heartbeat_interval
  default_missed_threshold : Nat := config.default_missed_threshold
  default_query_timeout : Nat := config.default_query_timeout
  default_query_retries : Nat := config.default_query_retries
  validation : Option PhaseBarrierConfig := none
  prepare : Option PhaseBarrierConfig := none
  execute : Option PhaseBarrierConfig := none
  cleanup : Option PhaseBarrierConfig := none
deriving DecidableEq, Repr

/-- The barrier of a phase: its own, or one made of the defaults. -/
def BarrierSyncConfig.get_phase_config (b : BarrierSyncConfig) (phase : String) :
    PhaseBarrierConfig :=
  let own := match phase with
    | "validation" => b.validation
    | "prepare" => b.prepare
    | "execute" => b.execute
    | "cleanup" => b.cleanup
    | _ => none
  own.getD
    { barrier_type := .AllOrNothing
      heartbeat_interval := b.default_heartbeat_interval
      missed_threshold := b.default_missed_threshold
      query_timeout := b.default_query_timeout
      query_retries := b.default_query_retries
      agent_barrier_timeout := config.default_agent_barrier_timeout }

/-- The part of `DistributedConfig` that says what the stages are. -/
structure DistributedConfig where
  stages : List StageConfig
  barrier_sync : BarrierSyncConfig
deriving DecidableEq, Repr

/-! ## Which lists of stages are taken -/

/-- The first stage whose key stands before it too. -/
def firstRepeat {κ : Type} [DecidableEq κ] (key : StageConfig → κ) :
    List κ → List StageConfig → Option StageConfig
  | _, [] => none
  | seen, s :: rest => if key s ∈ seen then some s else firstRepeat key (key s :: seen) rest

/-- The completion criteria that fit a stage. -/
def completionsOf : StageSpecificConfig → List CompletionCriteria
  | .Execute _ => [.Duration, .DurationOrTasks]
  | .Prepare _ => [.TasksDone, .DurationOrTasks]
  | .Cleanup _ => [.TasksDone, .DurationOrTasks]
  | .Custom _ _ => [.ScriptExit, .DurationOrTasks]
  | .Hybrid _ _ => [.DurationOrTasks]
  | .Validation => [.ValidationPassed]

/-- What a stage with another completion criterion is told. -/
def completionError (s : StageConfig) : String :=
  match s.config with
  | .Execute _ =>
    s!"Execute stage '{s.name}' should use Duration or DurationOrTasks completion"
  | .Prepare _ | .Cleanup _ =>
    s!"Prepare/Cleanup stage '{s.name}' should use TasksDone or DurationOrTasks completion"
  | .Custom _ _ =>
    s!"Custom stage '{s.name}' should use ScriptExit or DurationOrTasks completion"
  | .Hybrid _ _ =>
    s!"Hybrid stage '{s.name}' must use DurationOrTasks completion"
  | .Validation =>
    s!"Validation stage '{s.name}' should use ValidationPassed completion"

def validate_stages (stages : List StageConfig) : Except String Unit :=
  if stages.isEmpty then .error "stages list cannot be empty"
  else match firstRepeat (·.name) [] stages with
    | some s => .error s!"duplicate stage name: {s.name}"
    | none => match firstRepeat (·.order) [] stages with
      | some s => .error s!"duplicate stage order: {s.order}"
      | none => match stages.find? (fun s => s.completion ∉ completionsOf s.config) with
        | some s => .error (completionError s)
        | none => .ok ()

/-- The phase whose barrier a stage takes when it has none of its own. -/
def phaseOf : StageSpecificConfig → String
  | .Validation => "validation"
  | .Prepare _ => "prepare"
  | .Cleanup _ => "cleanup"
  | .Execute _ => "execute"
  | .Custom _ _ | .Hybrid _ _ => "execute"

/-- A stage with the barrier that the run gives it. -/
def withBarrier (b : BarrierSyncConfig) (s : StageConfig) : StageConfig :=
  if b.enabled && s.barrier.isNone then
    { s with barrier := some (b.get_phase_config (phaseOf s.config)) }
  else s

/-- The stages in the order they run. The sort is stable, as `sort_by_key` is. -/
def DistributedConfig.get_sorted_stages (d : DistributedConfig) :
    Except String (List StageConfig) :=
  match validate_stages d.stages with
  | .error e => .error e
  | .ok () =>
    .ok ((d.stages.insertionSort (fun s t => s.order ≤ t.order)).map (withBarrier d.barrier_sync))

/-! ## What a taken list is -/

theorem firstRepeat_none {κ : Type} [DecidableEq κ] {key : StageConfig → κ} {seen : List κ}
    {ls : List StageConfig} (h : firstRepeat key seen ls = none) :
    (ls.map key).Nodup ∧ ∀ s ∈ ls, key s ∉ seen := by
  induction ls generalizing seen with
  | nil => simp
  | cons s rest ih =>
    simp only [firstRepeat] at h
    split at h
    · cases h
    · rename_i hs
      obtain ⟨hnd, hout⟩ := ih h
      refine ⟨?_, ?_⟩
      · rw [List.map_cons, List.nodup_cons]
        refine ⟨?_, hnd⟩
        intro hm
        obtain ⟨t, ht, hte⟩ := List.mem_map.mp hm
        exact hout t ht (by simp [hte])
      · intro t ht
        rcases List.mem_cons.mp ht with rfl | ht
        · exact hs
        · exact fun hk => hout t ht (List.mem_cons_of_mem _ hk)

/-- A list that `validate_stages` takes. -/
structure Stages (ls : List StageConfig) : Prop where
  nonempty : ls ≠ []
  names : (ls.map (·.name)).Nodup
  orders : (ls.map (·.order)).Nodup
  fits : ∀ s ∈ ls, s.completion ∈ completionsOf s.config

theorem validate_stages_ok {ls : List StageConfig} (h : validate_stages ls = .ok ()) :
    Stages ls := by
  unfold validate_stages at h
  split at h
  · cases h
  rename_i hne
  split at h
  · cases h
  rename_i hnames
  split at h
  · cases h
  rename_i horders
  split at h
  · cases h
  rename_i hfits
  refine ⟨by simpa using hne, (firstRepeat_none hnames).1, (firstRepeat_none horders).1, ?_⟩
  intro s hs
  simpa using List.find?_eq_none.mp hfits s hs

@[simp] theorem withBarrier_name (b : BarrierSyncConfig) (s : StageConfig) :
    (withBarrier b s).name = s.name := by
  unfold withBarrier; split <;> rfl

@[simp] theorem withBarrier_order (b : BarrierSyncConfig) (s : StageConfig) :
    (withBarrier b s).order = s.order := by
  unfold withBarrier; split <;> rfl

/-- The sorted stages are the configured ones, each once, and each runs
before the stages of higher order. -/
theorem get_sorted_stages_ok {d : DistributedConfig} {ls : List StageConfig}
    (h : d.get_sorted_stages = .ok ls) :
    ls ≠ [] ∧ (ls.map (·.name)).Perm (d.stages.map (·.name)) ∧
      (ls.map (·.order)).Pairwise (· < ·) := by
  unfold DistributedConfig.get_sorted_stages at h
  split at h
  · cases h
  rename_i hv
  have hok := validate_stages_ok hv
  cases h
  have hperm := List.perm_insertionSort (fun s t : StageConfig => s.order ≤ t.order) d.stages
  have hsorted : (d.stages.insertionSort (fun s t => s.order ≤ t.order)).Pairwise
      (fun s t => s.order ≤ t.order) := List.pairwise_insertionSort _ _
  refine ⟨?_, ?_, ?_⟩
  · intro he
    rw [List.map_eq_nil_iff] at he
    exact hok.nonempty (List.perm_nil.mp (he ▸ hperm).symm)
  · simpa [List.map_map, Function.comp_def] using hperm.map (·.name)
  · have hnd := (hperm.map (·.order)).nodup_iff.mpr hok.orders
    have hle := List.pairwise_map.mpr hsorted
    simp only [List.map_map, Function.comp_def, withBarrier_order]
    exact (hle.and hnd).imp fun h => lt_of_le_of_ne h.1 h.2

end sai3_bench.config
