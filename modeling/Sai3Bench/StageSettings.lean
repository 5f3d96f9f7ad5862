-- The settings that the stages of a workflow are given (agent.rs): all stages share one
-- config, and a stage that sets its duration sets it for those after it.
import Sai3Bench.ConfigTrips

namespace sai3_bench.stage_settings

open config.written

/-! ## The stages of a workflow -/

def get_base_uri (spec : EnsureSpec) (multi_endpoint_uris : Option (List String)) :
    Except String String :=
  match spec.base_uri, multi_endpoint_uris with
  | some uri, _ => .ok uri
  | none, some (first :: _) => .ok first
  | none, some [] => .error "multi_endpoint list is empty — cannot determine base_uri"
  | none, none => .error "base_uri is required when no multi_endpoint configuration is provided"

/-- What a stage takes from the config. Where it hashes the config it takes all of it. -/
inductive Settings
  | Run (config : Config)
  | PrepareObjects (prepare_config : PrepareConfig) (workload : List WeightedOp)
      (multi_endpoint : Option MultiEndpointConfig) (concurrency : U64) (hashed : Option Config)
  | CleanupObjects (cleanup_mode : CleanupMode)
  | Command (command : String) (args : List String)
  | Coverage (queries : List (Except String (String × Config × U64)))
  | None

def set_duration (config : Config) (duration : Duration) : Config :=
  { config with duration := duration }

/-- The config with the duration of the stage. -/
def override (config : Config) : StageSpecificConfig → Config
  | .Execute duration | .Hybrid (some duration) _ => set_duration config duration
  | .Hybrid none _ | .Prepare _ | .Cleanup _ | .Custom _ _ | .Validation => config

/-- The config is hashed for the metadata cache. -/
def prepare_settings (config : Config) (prepare_config : PrepareConfig) : Settings :=
  .PrepareObjects prepare_config config.workload config.multi_endpoint config.concurrency
    (if config.enable_metadata_cache then some config else none)

/-- What the cache is asked for one group of objects. The config is hashed for it. -/
def coverage_query (config : Config) (spec : EnsureSpec) :
    Except String (String × Config × U64) :=
  (get_base_uri spec (config.multi_endpoint.map (·.endpoints))).map fun endpoint_uri =>
    (endpoint_uri, config, spec.count)

def settings (config : Config) : StageSpecificConfig → Settings
  | .Execute _ | .Hybrid _ _ => .Run config
  | .Prepare _ => config.prepare.elim .None (prepare_settings config)
  | .Cleanup _ => config.prepare.elim .None fun prepare_config =>
    .CleanupObjects prepare_config.cleanup_mode
  | .Custom command args => .Command command args
  | .Validation => config.prepare.elim .None fun prepare_config =>
    .Coverage (prepare_config.ensure_objects.map (coverage_query config))

/-- The settings of the stages, one after the other. -/
def run_stages : Config → List StageConfig → List Settings
  | _, [] => []
  | config, stage :: stages =>
    let config := override config stage.config
    settings config stage.config :: run_stages config stages

def wire_tracker (config : Config) (tracker : Nat) : Config :=
  { config with live_stats_tracker := some tracker }

/-- The tracker goes into the config first. -/
def execute_stages_workflow (config : Config) (tracker : Nat) (stages : List StageConfig) :
    List Settings :=
  run_stages (wire_tracker config tracker) stages

/-! ## The properties -/

/-- The settings of a stage that no stage came before. -/
def alone (config : Config) (tracker : Nat) (stage : StageConfig) : Settings :=
  let config := wire_tracker config tracker
  settings (override config stage.config) stage.config

/-- Each stage has the settings that it has alone. -/
def Unleaked (config : Config) (tracker : Nat) (stages : List StageConfig) : Prop :=
  execute_stages_workflow config tracker stages = stages.map (alone config tracker)

def own_duration : StageSpecificConfig → Option Duration
  | .Execute duration => some duration
  | .Hybrid max_duration _ => max_duration
  | .Prepare _ | .Cleanup _ | .Custom _ _ | .Validation => none

/-- A stage that reads the duration of the config without setting it: it runs for it, or it
hashes the config. -/
def ReadsDuration (config : Config) : StageSpecificConfig → Prop
  | .Hybrid none _ => True
  | .Prepare _ => config.prepare.isSome = true ∧ config.enable_metadata_cache = true
  | .Validation => ∃ prepare_config ∈ config.prepare, ∃ spec ∈ prepare_config.ensure_objects,
      ∃ uri, get_base_uri spec (config.multi_endpoint.map (·.endpoints)) = .ok uri
  | .Execute _ | .Hybrid (some _) _ | .Cleanup _ | .Custom _ _ => False

/-- Before each stage that reads the duration, the last one that was set is the one of the
config. -/
def DurationsKept (config : Config) : Duration → List StageConfig → Prop
  | _, [] => True
  | last, stage :: stages =>
    (ReadsDuration config stage.config → last = config.duration) ∧
      DurationsKept config ((own_duration stage.config).getD last) stages

/-! ## One stage -/

section

variable {config : Config} {last : Duration} {stage : StageSpecificConfig}

@[simp] theorem set_duration_prepare :
    (set_duration config last).prepare = config.prepare := rfl

@[simp] theorem set_duration_multi_endpoint :
    (set_duration config last).multi_endpoint = config.multi_endpoint := rfl

@[simp] theorem set_duration_twice (duration : Duration) :
    set_duration (set_duration config last) duration = set_duration config duration := rfl

theorem set_duration_eq_iff : set_duration config last = config ↔ last = config.duration := by
  constructor
  · intro h
    rw [← h]
    rfl
  · rintro rfl
    rfl

theorem override_eq : override (set_duration config last) stage =
    set_duration config ((own_duration stage).getD last) := by
  cases stage with
  | Hybrid max_duration expected_tasks => cases max_duration <;> rfl
  | _ => rfl

theorem prepare_settings_iff (prepare_config : PrepareConfig) :
    prepare_settings (set_duration config last) prepare_config =
        prepare_settings config prepare_config ↔
      (config.enable_metadata_cache = true → last = config.duration) := by
  have hsame : prepare_settings (set_duration config last) prepare_config =
      .PrepareObjects prepare_config config.workload config.multi_endpoint config.concurrency
        (if config.enable_metadata_cache then some (set_duration config last) else none) := rfl
  rw [hsame]
  unfold prepare_settings
  by_cases hcache : config.enable_metadata_cache = true
  · rw [if_pos hcache, if_pos hcache]
    simp only [Settings.PrepareObjects.injEq, true_and, Option.some.injEq, set_duration_eq_iff,
      hcache, true_implies]
  · rw [if_neg hcache, if_neg hcache]
    simp [hcache]

theorem coverage_query_iff (spec : EnsureSpec) :
    coverage_query (set_duration config last) spec = coverage_query config spec ↔
      ((∃ uri, get_base_uri spec (config.multi_endpoint.map (·.endpoints)) = .ok uri) →
        last = config.duration) := by
  unfold coverage_query
  rw [set_duration_multi_endpoint]
  cases get_base_uri spec (config.multi_endpoint.map (·.endpoints)) with
  | error e => simp [Except.map]
  | ok uri => simp [Except.map, set_duration_eq_iff]

/-- A stage is given the same where it does not read the duration, or the duration is the same. -/
theorem settings_iff :
    settings (override (set_duration config last) stage) stage =
        settings (override config stage) stage ↔
      (ReadsDuration config stage → last = config.duration) := by
  cases stage with
  | Execute duration => simp [override, ReadsDuration]
  | Hybrid max_duration expected_tasks =>
    cases max_duration with
    | some duration => simp [override, ReadsDuration]
    | none =>
      simp only [override, settings, Settings.Run.injEq, ReadsDuration, true_implies]
      exact set_duration_eq_iff
  | Cleanup expected_objects => simp [override, settings, ReadsDuration]
  | Custom command args => simp [settings, ReadsDuration]
  | Prepare expected_objects =>
    simp only [override, settings, ReadsDuration, set_duration_prepare]
    cases config.prepare with
    | none => simp
    | some prepare_config =>
      simp only [Option.elim_some, Option.isSome_some, true_and]
      exact prepare_settings_iff prepare_config
  | Validation =>
    simp only [override, settings, ReadsDuration, set_duration_prepare]
    cases config.prepare with
    | none => simp
    | some prepare_config =>
      simp only [Option.elim_some, Settings.Coverage.injEq, List.map_inj_left,
        coverage_query_iff]
      constructor
      · rintro h ⟨_, hp, spec, hspec, huri⟩
        cases hp
        exact h spec hspec huri
      · intro h spec hspec huri
        exact h ⟨prepare_config, rfl, spec, hspec, huri⟩

/-! ## All stages -/

theorem run_stages_iff {stages : List StageConfig} :
    run_stages (set_duration config last) stages =
        stages.map (fun stage => settings (override config stage.config) stage.config) ↔
      DurationsKept config last stages := by
  induction stages generalizing last with
  | nil => simp [run_stages, DurationsKept]
  | cons stage stages ih =>
    have hrest := @ih ((own_duration stage.config).getD last)
    rw [← override_eq] at hrest
    simp only [run_stages, List.map_cons, List.cons.injEq, DurationsKept, settings_iff, hrest]

/-- The tracker says nothing about durations. -/
theorem durationsKept_wired {tracker : Nat} {stages : List StageConfig} :
    DurationsKept (wire_tracker config tracker) last stages ↔
      DurationsKept config last stages := by
  induction stages generalizing last with
  | nil => exact Iff.rfl
  | cons stage stages ih =>
    have hreads : ReadsDuration (wire_tracker config tracker) stage.config ↔
        ReadsDuration config stage.config := by
      cases stage.config with
      | Hybrid max_duration expected_tasks => cases max_duration <;> exact Iff.rfl
      | _ => exact Iff.rfl
    simp only [DurationsKept, ih, hreads]
    exact Iff.rfl

theorem unleaked_iff_wired {tracker : Nat} {stages : List StageConfig} :
    Unleaked config tracker stages ↔
      DurationsKept (wire_tracker config tracker) config.duration stages :=
  @run_stages_iff (wire_tracker config tracker) config.duration stages

end

/-- When no stage has the settings of another one. -/
theorem settings_unleaked_iff (config : Config) (tracker : Nat) (stages : List StageConfig) :
    Unleaked config tracker stages ↔ DurationsKept config config.duration stages := by
  rw [unleaked_iff_wired, durationsKept_wired]

/-- A hybrid stage without a duration runs for that of the stage before it. -/
theorem duration_leaked : ¬ ∀ (config : Config) (tracker : Nat) (stages : List StageConfig),
    Unleaked config tracker stages := by
  intro h
  have hkept := unleaked_iff_wired.mp (h { workload := [] } 0
    [{ name := "execute", order := 1, config := .Execute (Duration.from_secs 300) },
      { name := "mixed", order := 2, config := .Hybrid none none }])
  have hsame : Duration.from_secs 300 = Duration.from_secs 60 := hkept.2.1 trivial
  revert hsame
  decide

end sai3_bench.stage_settings
