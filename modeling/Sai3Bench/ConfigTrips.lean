-- A config on its way: the controller writes it for each agent as YAML, and a
-- run writes it for its child processes as JSON (controller.rs, multiprocess.rs).
import Sai3Bench.AgentConfigs

namespace sai3_bench.config.written

open serde serde.Codec serde.Field serde.Entries serde_helpers

variable {w : Wire}

/-! ## The config -/

/-- The tracker is a handle on a part of the running process. -/
structure Config where
  duration : Duration := Duration.from_secs 60
  concurrency : U64 := 16
  target : Option String := none
  workload : List WeightedOp
  prepare : Option PrepareConfig := none
  range_engine : Option RangeEngineConfig := none
  page_cache_mode : Option PageCacheMode := none
  distributed : Option DistributedConfig := none
  io_rate : Option IoRateConfig := none
  processes : Option ProcessScaling := none
  processing_mode : ProcessingMode := .MultiRuntime
  live_stats_tracker : Option Nat := none
  error_handling : ErrorHandlingConfig := {}
  op_log_path : Option String := none
  warmup_period : Option Duration := none
  perf_log : Option PerfLogConfig := none
  multi_endpoint : Option MultiEndpointConfig := none
  cache_checkpoint_interval_secs : U64 := 300
  enable_metadata_cache : Bool := true
  s3dlio_optimization : Option S3dlioOptimizationConfig := none
  distributed_env : StringTable := ∅
  dynamic_put_pool : Bool := false

/-- The credentials are not written when there are none. -/
def distributed_env_field : serde.Field StringTable :=
  { name := "distributed_env", codec := .table .string, absent := some ∅,
    omitted := fun env => env.entries.isEmpty }

def Config.codec (w : Wire) : Codec Config := .struct <| .via
  (.field (defaulted "duration" w.humantime (Duration.from_secs 60)) <|
   .field (defaulted "concurrency" u64 16) <|
   .field (.optional "target" .string) <|
   .field (required "workload" (WeightedOp.codec w).vec) <|
   .field (.optional "prepare" (PrepareConfig.codec w)) <|
   .field (.optional "range_engine" RangeEngineConfig.codec) <|
   .field (.optional "page_cache_mode" written.page_cache_mode) <|
   .field (.optional "distributed" (DistributedConfig.codec w)) <|
   .field (.optional "io_rate" IoRateConfig.codec) <|
   .field (.optional "processes" process_scaling) <|
   .field (defaulted "processing_mode" written.processing_mode .MultiRuntime) <|
   .skip none <|
   .field (defaulted "error_handling" (ErrorHandlingConfig.codec w) {}) <|
   .field (.optional "op_log_path" .string) <|
   .field (.optional "warmup_period" w.humantime) <|
   .field (.optional "perf_log" (PerfLogConfig.codec w)) <|
   .field (.optional "multi_endpoint" MultiEndpointConfig.codec) <|
   .field (defaulted "cache_checkpoint_interval_secs" u64 300) <|
   .field (defaulted "enable_metadata_cache" .bool true) <|
   .field (.optional "s3dlio_optimization" S3dlioOptimizationConfig.codec) <|
   .field distributed_env_field <|
   .field (defaulted "dynamic_put_pool" .bool false) .nil)
  { toFun c := (c.duration, c.concurrency, c.target, c.workload, c.prepare, c.range_engine,
      c.page_cache_mode, c.distributed, c.io_rate, c.processes, c.processing_mode,
      c.live_stats_tracker, c.error_handling, c.op_log_path, c.warmup_period, c.perf_log,
      c.multi_endpoint, c.cache_checkpoint_interval_secs, c.enable_metadata_cache,
      c.s3dlio_optimization, c.distributed_env, c.dynamic_put_pool, ())
    invFun := fun (duration, concurrency, target, workload, prepare, range_engine,
        page_cache_mode, distributed, io_rate, processes, processing_mode, live_stats_tracker,
        error_handling, op_log_path, warmup_period, perf_log, multi_endpoint,
        cache_checkpoint_interval_secs, enable_metadata_cache, s3dlio_optimization,
        distributed_env, dynamic_put_pool, _) =>
      { duration, concurrency, target, workload, prepare, range_engine, page_cache_mode,
        distributed, io_rate, processes, processing_mode, live_stats_tracker, error_handling,
        op_log_path, warmup_period, perf_log, multi_endpoint, cache_checkpoint_interval_secs,
        enable_metadata_cache, s3dlio_optimization, distributed_env, dynamic_put_pool }
    left_inv _ := rfl
    right_inv _ := rfl }

/-- The floats of a config. -/
def Config.floats (c : Config) : List F64 :=
  c.error_handling.floats ++ (c.distributed.map (·.partition_overlap)).toList

@[simp] theorem distributed_env_keeps (env : StringTable) : distributed_env_field.Keeps env := by
  cases h : env.entries.isEmpty with
  | true =>
    rw [keeps_of_omitted h]
    have hempty : env = ∅ := AList.ext (List.isEmpty_iff.mp h)
    rw [hempty]
    rfl
  | false =>
    rw [keeps_of_written h]
    exact string_table_keeps env

/-- What is lost of a config: its rate, a count of processes, its tracker, and
the floats that the text does not carry. -/
theorem config_keeps (c : Config) : (Config.codec w).Keeps c ↔
    c.io_rate = none ∧ (∀ n, c.processes ≠ some (.Manual n)) ∧ c.live_stats_tracker = none ∧
      ∀ x ∈ c.floats, w.f64.Keeps x := by
  have hrate : (∀ r ∈ c.io_rate, IoRateConfig.codec.Keeps r) ↔ c.io_rate = none := by
    cases c.io_rate with
    | none => simp
    | some r => simp
  have hprocesses : (∀ p ∈ c.processes, process_scaling.Keeps p) ↔
      ∀ n, c.processes ≠ some (.Manual n) := by
    cases c.processes with
    | none => simp
    | some p => simp [process_scaling_keeps]
  have hfloats : (∀ x ∈ c.floats, w.f64.Keeps x) ↔
      (ErrorHandlingConfig.codec w).Keeps c.error_handling ∧
        ∀ d ∈ c.distributed, (DistributedConfig.codec w).Keeps d := by
    unfold Config.floats
    rw [List.forall_mem_append, error_handling_keeps]
    cases c.distributed with
    | none => simp
    | some d => simp [distributed_keeps]
  rw [← hrate, ← hprocesses, hfloats]
  simp only [Config.codec, struct_keeps, via_keeps, field_keeps, skip_keeps, required_keeps,
    defaulted_keeps, optional_keeps, vec_keeps, humantime_keeps, humantime_solid, u64_keeps,
    string_keeps, string_solid, weighted_op_keeps, prepare_config_keeps, prepare_config_solid,
    range_engine_keeps, range_engine_solid, page_cache_mode_keeps, page_cache_mode_solid,
    distributed_solid, io_rate_solid, process_scaling_solid, processing_mode_keeps,
    perf_log_keeps, perf_log_solid, multi_endpoint_keeps, multi_endpoint_solid, bool_keeps,
    s3dlio_optimization_keeps, s3dlio_optimization_solid, distributed_env_keeps, nil_keeps,
    Equiv.coe_fn_mk, implies_true, and_true, true_and]
  constructor
  · rintro ⟨hdistributed, hrate, hprocesses, htracker, herrors⟩
    exact ⟨hrate, hprocesses, htracker, herrors, hdistributed⟩
  · rintro ⟨hrate, hprocesses, htracker, herrors, hdistributed⟩
    exact ⟨hdistributed, hrate, hprocesses, htracker, herrors⟩

/-- What keeps a config from being read at all. -/
theorem config_reads (c : Config) : (Config.codec w).Reads c ↔
    c.io_rate = none ∧ (∀ n, c.processes ≠ some (.Manual n)) ∧ ∀ x ∈ c.floats, w.f64.Reads x := by
  have hrate : (∀ r ∈ c.io_rate, IoRateConfig.codec.Reads r) ↔ c.io_rate = none := by
    cases c.io_rate with
    | none => simp
    | some r => simp
  have hprocesses : (∀ p ∈ c.processes, process_scaling.Reads p) ↔
      ∀ n, c.processes ≠ some (.Manual n) := by
    cases c.processes with
    | none => simp
    | some p => simp [process_scaling_reads]
  have hfloats : (∀ x ∈ c.floats, w.f64.Reads x) ↔
      (ErrorHandlingConfig.codec w).Reads c.error_handling ∧
        ∀ d ∈ c.distributed, (DistributedConfig.codec w).Reads d := by
    unfold Config.floats
    rw [List.forall_mem_append, error_handling_reads]
    cases c.distributed with
    | none => simp
    | some d => simp [distributed_reads]
  rw [← hrate, ← hprocesses, hfloats]
  simp only [Config.codec, struct_reads, via_reads, field_reads, skip_reads, required_reads,
    defaulted_reads, optional_reads, Codec.reads_of_keeps, Field.reads_of_keeps, vec_keeps,
    humantime_keeps, humantime_solid, u64_keeps, string_keeps, string_solid, weighted_op_keeps,
    prepare_config_keeps, prepare_config_solid, range_engine_keeps, range_engine_solid,
    page_cache_mode_keeps, page_cache_mode_solid, distributed_solid, io_rate_solid,
    process_scaling_solid, processing_mode_keeps, perf_log_keeps, perf_log_solid,
    multi_endpoint_keeps, multi_endpoint_solid, bool_keeps, s3dlio_optimization_keeps,
    s3dlio_optimization_solid, distributed_env_keeps, nil_reads, Equiv.coe_fn_mk, implies_true,
    and_true, true_and]
  constructor
  · rintro ⟨hdistributed, hrate, hprocesses, herrors⟩
    exact ⟨hrate, hprocesses, herrors, hdistributed⟩
  · rintro ⟨hrate, hprocesses, herrors, hdistributed⟩
    exact ⟨hdistributed, hrate, hprocesses, herrors⟩

/-- A config that was read back is still about the same operations. -/
theorem config_trip {c d : Config}
    (h : (Config.codec w).deserialize ((Config.codec w).serialize c) = .ok d) :
    d.concurrency = c.concurrency ∧ d.workload = c.workload ∧ d.io_rate = none := by
  obtain ⟨parts, hparts, rfl⟩ := map_ok.mp h
  obtain ⟨_, hparts⟩ := field_trip hparts
  obtain ⟨hconcurrency, hparts⟩ := field_trip hparts
  obtain ⟨_, hparts⟩ := field_trip hparts
  obtain ⟨hworkload, hparts⟩ := field_trip hparts
  -- four fields come before the rate
  iterate 4 obtain ⟨_, hparts⟩ := field_trip hparts
  obtain ⟨hrate, _⟩ := field_trip hparts
  have hsame : (defaulted "concurrency" u64 16).Keeps c.concurrency :=
    defaulted_keeps.mpr (u64_keeps _)
  have hops : (required "workload" (WeightedOp.codec w).vec).Keeps c.workload :=
    required_keeps.mpr (vec_keeps.mpr fun o _ => weighted_op_keeps o)
  have hnone : (Field.optional "io_rate" IoRateConfig.codec).Keeps c.io_rate := by
    rw [(config_reads c).mp ⟨_, h⟩ |>.1]
    exact (optional_keeps io_rate_solid).mpr nofun
  refine ⟨Except.ok.inj (hconcurrency.symm.trans hsame),
    Except.ok.inj (hworkload.symm.trans hops), ?_⟩
  exact (Except.ok.inj (hrate.symm.trans hnone)).trans ((config_reads c).mp ⟨_, h⟩).1

/-- A config that was read has no tracker. -/
theorem tracker_of_read {v : Value} {c : Config} (h : (Config.codec w).deserialize v = .ok c) :
    c.live_stats_tracker = none := by
  unfold Config.codec struct via at h
  dsimp only at h
  split at h
  · obtain ⟨parts, hparts, rfl⟩ := map_ok.mp h
    -- eleven fields come before the tracker
    iterate 11 obtain ⟨_, hparts⟩ := field_read hparts
    exact skip_read hparts
  · cases h

/-! ## The texts -/

/-- What the code takes from its libraries. `read_f64` is what `serde_json` reads
of the digits that it wrote for a finite float. -/
structure Libraries where
  time : Humantime
  scaled : List Char → Nat → Option U64
  read_f64 : F64 → F64

namespace Libraries

/-- YAML carries every float. -/
def yaml (lib : Libraries) : Wire where
  carried := .float
  time := lib.time
  scaled := lib.scaled

/-- JSON has no numbers but finite ones, the others are written as null. -/
def json (lib : Libraries) : Wire where
  carried
    | .finite negative exponent mantissa => .float (lib.read_f64 (.finite negative exponent mantissa))
    | _ => .null
  time := lib.time
  scaled := lib.scaled

variable {lib : Libraries}

theorem yaml_float_keeps (x : F64) : lib.yaml.f64.Keeps x := rfl

theorem json_float_keeps (x : F64) : lib.json.f64.Keeps x ↔
    (∃ negative exponent mantissa, x = .finite negative exponent mantissa) ∧
      lib.read_f64 x = x := by
  cases x with
  | nan =>
    refine iff_of_false (fun h => by cases h) ?_
    rintro ⟨⟨_, _, _, h⟩, _⟩
    cases h
  | infinite negative =>
    refine iff_of_false (fun h => by cases h) ?_
    rintro ⟨⟨_, _, _, h⟩, _⟩
    cases h
  | finite negative exponent mantissa =>
    constructor
    · exact fun h => ⟨⟨_, _, _, rfl⟩, Except.ok.inj h⟩
    · exact fun h => congrArg Except.ok h.2

end Libraries

/-! ## The agents -/

/-- The config of an agent as `run_distributed_workload` changes it. -/
def apply_overrides (config : Config) (agent_cfg : AgentConfig) : Config :=
  let modified_config := match agent_cfg.target_override with
    | some target => { config with target := some target }
    | none => config
  let modified_config := match agent_cfg.multi_endpoint with
    | some agent_multi_ep => { modified_config with multi_endpoint := some agent_multi_ep }
    | none => modified_config
  match agent_cfg.concurrency_override with
  | some override_concurrency => { modified_config with concurrency := override_concurrency }
  | none => modified_config

/-- The text for the agent with a number. -/
def agent_specific_config (lib : Libraries) (config : Config) (idx : Nat) : Value :=
  let config_yaml := (Config.codec lib.yaml).serialize config
  match config.distributed with
  | some distributed =>
    match distributed.agents[idx]? with
    | some agent_cfg =>
      let has_multi_ep := agent_cfg.multi_endpoint.isSome
      let has_target := agent_cfg.target_override.isSome
      let has_concurrency_override := agent_cfg.concurrency_override.isSome
      if has_multi_ep || has_target || has_concurrency_override then
        (Config.codec lib.yaml).serialize (apply_overrides config agent_cfg)
      else config_yaml
    | none => config_yaml
  | none => config_yaml

/-- The same config with just the overrides of an agent. -/
def overridden (config : Config) (agent_cfg : AgentConfig) : Config :=
  { config with
    target := agent_cfg.target_override.or config.target
    multi_endpoint := agent_cfg.multi_endpoint.or config.multi_endpoint
    concurrency := agent_cfg.concurrency_override.getD config.concurrency }

def with_overrides (config : Config) (idx : Nat) : Config :=
  match config.distributed.bind (·.agents[idx]?) with
  | some agent_cfg => overridden config agent_cfg
  | none => config

/-! ## The child processes -/

def ProcessScaling.resolve (detect_physical_cores : Nat) : ProcessScaling → Nat
  | .Single => 1
  | .Auto => detect_physical_cores
  | .Manual n => n.toNat

def process_count (config : Config) (detect_physical_cores : Nat) : Nat :=
  (config.processes.map (·.resolve detect_physical_cores)).getD 1

def child_config (config : Config) (threads_per_process : U64) : Config :=
  { config with concurrency := threads_per_process, processes := none }

/-- The configs that `run_multiprocess` writes for its children. -/
def child_configs (config : Config) (detect_physical_cores : Nat) : List Config :=
  let process_count := process_count config detect_physical_cores
  if process_count = 1 then []
  else
    let threads_per_process := (config.concurrency.toNat + process_count - 1) / process_count
    List.replicate process_count (child_config config (BitVec.ofNat 64 threads_per_process))

/-! ## Which configs survive -/

/-- Each agent reads its config with its overrides, and each child its own. -/
structure Survives (lib : Libraries) (detect_physical_cores : Nat) (config : Config) : Prop where
  agents : ∀ idx, (Config.codec lib.yaml).deserialize (agent_specific_config lib config idx) =
    .ok (with_overrides config idx)
  children : ∀ child ∈ child_configs config detect_physical_cores,
    (Config.codec lib.json).deserialize ((Config.codec lib.json).serialize child) = .ok child

/-- A config that has all its parts carried. -/
structure Carried (lib : Libraries) (detect_physical_cores : Nat) (config : Config) : Prop where
  no_rate : config.io_rate = none
  no_count : ∀ n, config.processes ≠ some (.Manual n)
  no_tracker : config.live_stats_tracker = none
  floats : 1 < process_count config detect_physical_cores → ∀ x ∈ config.floats,
    (∃ negative exponent mantissa, x = .finite negative exponent mantissa) ∧ lib.read_f64 x = x

variable {lib : Libraries} {config : Config} {idx cores : Nat}

/-- The overrides that are applied are just those of the agent. -/
theorem apply_overrides_eq (config : Config) (agent_cfg : AgentConfig) :
    apply_overrides config agent_cfg = overridden config agent_cfg := by
  unfold apply_overrides overridden
  cases agent_cfg.target_override <;> cases agent_cfg.multi_endpoint <;>
    cases agent_cfg.concurrency_override <;> rfl

theorem agent_specific_config_eq (lib : Libraries) (config : Config) (idx : Nat) :
    agent_specific_config lib config idx =
      (Config.codec lib.yaml).serialize (with_overrides config idx) := by
  unfold agent_specific_config with_overrides
  dsimp only
  cases config.distributed with
  | none => rfl
  | some distributed =>
    rw [Option.bind_some]
    dsimp only
    cases distributed.agents[idx]? with
    | none => rfl
    | some agent_cfg =>
      dsimp only
      rw [← apply_overrides_eq]
      split
      · rfl
      · rename_i hnone
        simp only [Bool.or_eq_true, Option.isSome_iff_ne_none, not_or, not_not] at hnone
        obtain ⟨⟨hmulti, htarget⟩, hconcurrency⟩ := hnone
        unfold apply_overrides
        rw [hmulti, htarget, hconcurrency]

/-- The overrides leave alone what may be lost. -/
theorem with_overrides_fields (config : Config) (idx : Nat) :
    (with_overrides config idx).io_rate = config.io_rate ∧
      (with_overrides config idx).processes = config.processes ∧
      (with_overrides config idx).live_stats_tracker = config.live_stats_tracker := by
  unfold with_overrides
  split
  · exact ⟨rfl, rfl, rfl⟩
  · exact ⟨rfl, rfl, rfl⟩

/-- An agent reads the config that was written for it. -/
theorem agent_keeps : (Config.codec lib.yaml).deserialize (agent_specific_config lib config idx) =
      .ok (with_overrides config idx) ↔
    config.io_rate = none ∧ (∀ n, config.processes ≠ some (.Manual n)) ∧
      config.live_stats_tracker = none := by
  obtain ⟨hrate, hprocesses, htracker⟩ := with_overrides_fields config idx
  rw [agent_specific_config_eq]
  refine config_keeps (with_overrides config idx) |>.trans ?_
  rw [hrate, hprocesses, htracker]
  constructor
  · exact fun h => ⟨h.1, h.2.1, h.2.2.1⟩
  · exact fun h => ⟨h.1, h.2.1, h.2.2, fun x _ => Libraries.yaml_float_keeps x⟩

/-- A child reads the config that was written for it. -/
theorem children_keep : (∀ child ∈ child_configs config cores,
      (Config.codec lib.json).deserialize ((Config.codec lib.json).serialize child) = .ok child) ↔
    (1 < process_count config cores → config.io_rate = none ∧ config.live_stats_tracker = none ∧
      ∀ x ∈ config.floats, (∃ negative exponent mantissa, x = .finite negative exponent mantissa) ∧
        lib.read_f64 x = x) := by
  have hchild : ∀ threads, (Config.codec lib.json).Keeps (child_config config threads) ↔
      config.io_rate = none ∧ config.live_stats_tracker = none ∧ ∀ x ∈ config.floats,
        (∃ negative exponent mantissa, x = .finite negative exponent mantissa) ∧
          lib.read_f64 x = x := by
    intro threads
    rw [config_keeps]
    simp only [Libraries.json_float_keeps]
    constructor
    · exact fun h => ⟨h.1, h.2.2.1, h.2.2.2⟩
    · intro h
      refine ⟨h.1, ?_, h.2.1, h.2.2⟩
      intro n hn
      cases hn
  unfold child_configs
  dsimp only
  split
  · rename_i hone
    refine iff_of_true ?_ (fun hcount => absurd hcount (by omega))
    intro child hmem
    cases hmem
  · rename_i hone
    constructor
    · intro h hcount
      apply (hchild _).mp
      apply h
      exact List.mem_replicate.mpr ⟨by omega, rfl⟩
    · intro h child hmem
      obtain ⟨hpos, rfl⟩ := List.mem_replicate.mp hmem
      exact (hchild _).mpr (h (by omega))

/-- A config survives its way exactly when all its parts are carried. -/
theorem the_config_survives_iff (lib : Libraries) (detect_physical_cores : Nat) (config : Config) :
    Survives lib detect_physical_cores config ↔ Carried lib detect_physical_cores config := by
  constructor
  · intro h
    obtain ⟨hrate, hprocesses, htracker⟩ := agent_keeps.mp (h.agents 0)
    exact ⟨hrate, hprocesses, htracker, fun hcount => (children_keep.mp h.children hcount).2.2⟩
  · intro h
    refine ⟨fun idx => agent_keeps.mpr ⟨h.no_rate, h.no_count, h.no_tracker⟩, ?_⟩
    exact children_keep.mpr fun hcount => ⟨h.no_rate, h.no_tracker, h.floats hcount⟩

/-! ## A config with a rate -/

/-- Seconds and nanoseconds, the way `humantime` writes less than a minute. -/
def plain_format (d : Duration) : List Char :=
  texts.padded 10 1 d.secs.toNat ++ 's' ::
    if d.nanos = 0 then [] else ' ' :: (texts.padded 10 1 d.nanos.val ++ 'n' :: ['s'])

def plain_parse (s : List Char) : Except String Duration :=
  match texts.parse_u64 (s.takeWhile Char.isDigit), s.dropWhile Char.isDigit with
  | some secs, ['s'] => .ok (Duration.from_secs (BitVec.ofNat 64 secs))
  | some secs, 's' :: ' ' :: rest =>
    match texts.parse_u64 (rest.takeWhile Char.isDigit) with
    | some nanos => .ok ⟨BitVec.ofNat 64 secs, Fin.ofNat _ nanos⟩
    | none => .error "time unit needed"
  | _, _ => .error "expected number at 0"

theorem takeWhile_padded (n : Nat) {c : Char} (hc : c.isDigit = false) (t : List Char) :
    (texts.padded 10 1 n ++ c :: t).takeWhile Char.isDigit = texts.padded 10 1 n := by
  rw [List.takeWhile_append_of_pos fun _ h => texts.padded_digits h,
    List.takeWhile_cons_of_neg (by simp [hc]), List.append_nil]

theorem dropWhile_padded (n : Nat) {c : Char} (hc : c.isDigit = false) (t : List Char) :
    (texts.padded 10 1 n ++ c :: t).dropWhile Char.isDigit = c :: t := by
  rw [List.dropWhile_append_of_pos fun _ h => texts.padded_digits h,
    List.dropWhile_cons_of_neg (by simp [hc])]

theorem plain_parse_format (d : Duration) : plain_parse (plain_format d) = .ok d := by
  have hsecs : texts.parse_u64 (texts.padded 10 1 d.secs.toNat) = some d.secs.toNat :=
    texts.parse_padded d.secs.isLt
  have hnanos : texts.parse_u64 (texts.padded 10 1 d.nanos.val) = some d.nanos.val :=
    texts.parse_padded (by omega)
  have hback : BitVec.ofNat 64 d.secs.toNat = d.secs := by
    rw [BitVec.ofNat_toNat, BitVec.setWidth_eq]
  unfold plain_format plain_parse
  rw [takeWhile_padded _ rfl, dropWhile_padded _ rfl, hsecs]
  by_cases hzero : d.nanos = 0
  · rw [if_pos hzero]
    show Except.ok (Duration.from_secs (BitVec.ofNat 64 d.secs.toNat)) = .ok d
    rw [hback, Duration.from_secs, ← hzero]
  · rw [if_neg hzero]
    simp only
    rw [takeWhile_padded _ rfl, hnanos]
    simp only
    rw [hback, Fin.ofNat_val_eq_self]

def plainTime : Humantime where
  format_duration d := String.ofList (plain_format d)
  parse_duration s := plain_parse s.toList
  parse_format d := by
    rw [String.toList_ofList]
    exact plain_parse_format d

/-- Sizes here have no fraction, and floats are read back as they were. -/
def plainLibraries : Libraries where
  time := plainTime
  scaled _ _ := none
  read_f64 := id

def limitedYaml : Value :=
  .map [("duration", .str "10s"), ("workload", .seq []), ("io_rate", .map [("iops", .int 1000)])]

def limited : Config :=
  { duration := Duration.from_secs 10
    workload := []
    io_rate := some { iops := .Fixed 1000 } }

/-- A config with a rate parses, and does not reach any agent. -/
theorem a_rate_does_not_survive :
    (Config.codec plainLibraries.yaml).deserialize limitedYaml = .ok limited ∧
      ¬Survives plainLibraries 8 limited := by
  constructor
  · rfl
  · intro h
    have hrate := (agent_keeps.mp (h.agents 0)).1
    cases hrate

end sai3_bench.config.written
