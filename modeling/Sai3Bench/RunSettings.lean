-- The settings of a run (config.rs), as they are written and read back: errors,
-- logs, endpoints, ranges, the rate of operations and the number of processes.
import Sai3Bench.RunConfigs

namespace sai3_bench.config.written

open serde serde.Codec serde.Field serde.Entries serde_helpers

variable {w : Wire}

/-! ## The rate of operations -/

inductive IopsTarget
  | Max
  | Fixed (n : U64)
deriving DecidableEq

inductive ArrivalDistribution
  | Exponential
  | Uniform
  | Deterministic
deriving DecidableEq, Repr

def default_distribution : ArrivalDistribution := .Exponential

structure IoRateConfig where
  iops : IopsTarget
  distribution : ArrivalDistribution := default_distribution

/-- What the visitor of `deserialize_iops` makes of a number. -/
def iops_of (n : U64) : IopsTarget := if n = 0 then .Max else .Fixed n

/-- A number, "max", or a text that is a number. -/
def deserialize_iops : Value → Except String IopsTarget
  | .int i =>
    if -2 ^ 63 ≤ i ∧ i ≤ 0 then .ok .Max
    else (as_u64 i).elim (.error "integer out of range") fun n => .ok (iops_of n)
  | .str s =>
    if s = "max" ∨ s = "MAX" then .ok .Max
    else
      match texts.parse_u64 s.toList with
      | some n => .ok (iops_of (BitVec.ofNat 64 n))
      | none => .error ("invalid IOPS value: " ++ s)
  | v => .error (invalid_type v "a positive integer, 0, or \"max\"")

/-- The derived serializer names the variant, with its data under the name. -/
def iops_target : Codec IopsTarget where
  serialize
    | .Max => .str "Max"
    | .Fixed n => .map [("Fixed", u64.serialize n)]
  deserialize := deserialize_iops

def arrival_distribution : Codec ArrivalDistribution :=
  .unit [.Exponential, .Uniform, .Deterministic] fun
    | .Exponential => "exponential"
    | .Uniform => "uniform"
    | .Deterministic => "deterministic"

def IoRateConfig.codec : Codec IoRateConfig := .struct <| .via
  (.field (required "iops" iops_target) <|
   .field (defaulted "distribution" arrival_distribution default_distribution) .nil)
  { toFun r := (r.iops, r.distribution, ())
    invFun := fun (iops, distribution, _) => { iops, distribution }
    left_inv _ := rfl
    right_inv _ := rfl }

/-- No target is read back from what is written for it. -/
theorem iops_target_lost (t : IopsTarget) : ¬iops_target.Keeps t := by
  cases t with
  | Max =>
    intro h
    cases h
  | Fixed n =>
    intro h
    cases h

theorem iops_target_unread (t : IopsTarget) : ¬iops_target.Reads t := by
  rintro ⟨t', h⟩
  cases t with
  | Max => cases h
  | Fixed n => cases h

@[simp] theorem io_rate_lost (r : IoRateConfig) : ¬IoRateConfig.codec.Keeps r := by
  simp [IoRateConfig.codec, struct_keeps, via_keeps, field_keeps, required_keeps, iops_target_lost]

@[simp] theorem io_rate_unread (r : IoRateConfig) : ¬IoRateConfig.codec.Reads r := by
  simp [IoRateConfig.codec, struct_reads, via_reads, field_reads, required_reads,
    iops_target_unread]

@[simp] theorem io_rate_solid : IoRateConfig.codec.Solid := struct_solid

/-! ## The number of processes -/

inductive ProcessScaling
  | Single
  | Auto
  | Manual (n : U64)
deriving DecidableEq

inductive ProcessingMode
  | MultiProcess
  | MultiRuntime
deriving DecidableEq, Repr

/-- What the visitor of `ProcessScaling` makes of a number. -/
def processes_of (i : Int) : Except String ProcessScaling :=
  if i = 1 then .ok .Single
  else if 1 < i then .ok (.Manual (BitVec.ofInt 64 i))
  else .error "processes must be >= 1"

def deserialize_processes : Value → Except String ProcessScaling
  | .int i =>
    if i < 2 ^ 64 then processes_of i else .error "integer out of range"
  | .str s =>
    match s with
    | "auto" | "Auto" | "AUTO" => .ok .Auto
    | "single" | "Single" | "SINGLE" | "1" => .ok .Single
    | _ =>
      match texts.parse_u64 s.toList with
      | some n => processes_of n
      | none => .error ("invalid process scaling value: " ++ s)
  | v => .error (invalid_type v "\"auto\", \"single\", 1, or a positive integer")

def process_scaling : Codec ProcessScaling where
  serialize
    | .Single => .str "Single"
    | .Auto => .str "Auto"
    | .Manual n => .map [("Manual", u64.serialize n)]
  deserialize := deserialize_processes

def processing_mode : Codec ProcessingMode :=
  .unit [.MultiProcess, .MultiRuntime] fun
    | .MultiProcess => "multi_process"
    | .MultiRuntime => "multi_runtime"

/-- A count of processes is not read back, the other two ways are. -/
theorem process_scaling_keeps (p : ProcessScaling) :
    process_scaling.Keeps p ↔ ∀ n, p ≠ .Manual n := by
  cases p with
  | Single => exact iff_of_true rfl nofun
  | Auto => exact iff_of_true rfl nofun
  | Manual n =>
    refine iff_of_false ?_ (fun h => h n rfl)
    intro h
    cases h

theorem process_scaling_reads (p : ProcessScaling) :
    process_scaling.Reads p ↔ ∀ n, p ≠ .Manual n := by
  cases p with
  | Single => exact iff_of_true (Codec.reads_of_keeps rfl) nofun
  | Auto => exact iff_of_true (Codec.reads_of_keeps rfl) nofun
  | Manual n =>
    refine iff_of_false ?_ (fun h => h n rfl)
    rintro ⟨p, h⟩
    cases h

@[simp] theorem process_scaling_solid : process_scaling.Solid := by
  intro p h
  cases p <;> cases h

@[simp] theorem processing_mode_keeps (m : ProcessingMode) : processing_mode.Keeps m := by
  apply unit_keeps
  cases m <;> rfl

/-! ## Errors and logs -/

structure ErrorHandlingConfig where
  max_total_errors : U64 := 100
  error_rate_threshold : F64 := F64.ofInt 5
  backoff_duration : Duration := Duration.from_secs 5
  error_rate_window : F64 := F64.ofInt 1
  retry_on_error : Bool := false
  max_retries : U32 := 3
  initial_retry_delay_ms : U64 := 100
  max_retry_delay_ms : U64 := 5000
  retry_backoff_multiplier : F64 := F64.ofInt 2
  /-- A quarter. -/
  retry_jitter_factor : F64 := .finite false 1021 0

structure PerfLogConfig where
  path : Option String := none
  interval : Duration := Duration.from_secs 1

def ErrorHandlingConfig.codec (w : Wire) : Codec ErrorHandlingConfig :=
  let default : ErrorHandlingConfig := {}
  .struct <| .via
  (.field (defaulted "max_total_errors" u64 default.max_total_errors) <|
   .field (defaulted "error_rate_threshold" w.f64 default.error_rate_threshold) <|
   .field (defaulted "backoff_duration" w.humantime default.backoff_duration) <|
   .field (defaulted "error_rate_window" w.f64 default.error_rate_window) <|
   .field (defaulted "retry_on_error" .bool false) <|
   .field (defaulted "max_retries" u32 default.max_retries) <|
   .field (defaulted "initial_retry_delay_ms" u64 default.initial_retry_delay_ms) <|
   .field (defaulted "max_retry_delay_ms" u64 default.max_retry_delay_ms) <|
   .field (defaulted "retry_backoff_multiplier" w.f64 default.retry_backoff_multiplier) <|
   .field (defaulted "retry_jitter_factor" w.f64 default.retry_jitter_factor) .nil)
  { toFun e := (e.max_total_errors, e.error_rate_threshold, e.backoff_duration,
      e.error_rate_window, e.retry_on_error, e.max_retries, e.initial_retry_delay_ms,
      e.max_retry_delay_ms, e.retry_backoff_multiplier, e.retry_jitter_factor, ())
    invFun := fun (max_total_errors, error_rate_threshold, backoff_duration, error_rate_window,
        retry_on_error, max_retries, initial_retry_delay_ms, max_retry_delay_ms,
        retry_backoff_multiplier, retry_jitter_factor, _) =>
      { max_total_errors, error_rate_threshold, backoff_duration, error_rate_window,
        retry_on_error, max_retries, initial_retry_delay_ms, max_retry_delay_ms,
        retry_backoff_multiplier, retry_jitter_factor }
    left_inv _ := rfl
    right_inv _ := rfl }

def PerfLogConfig.codec (w : Wire) : Codec PerfLogConfig := .struct <| .via
  (.field (.optional "path" .string) <|
   .field (defaulted "interval" w.humantime (Duration.from_secs 1)) .nil)
  { toFun p := (p.path, p.interval, ())
    invFun := fun (path, interval, _) => { path, interval }
    left_inv _ := rfl
    right_inv _ := rfl }

/-- The floats of the settings. -/
def ErrorHandlingConfig.floats (e : ErrorHandlingConfig) : List F64 :=
  [e.error_rate_threshold, e.error_rate_window, e.retry_backoff_multiplier, e.retry_jitter_factor]

theorem error_handling_keeps (e : ErrorHandlingConfig) :
    (ErrorHandlingConfig.codec w).Keeps e ↔ ∀ x ∈ e.floats, w.f64.Keeps x := by
  simp [ErrorHandlingConfig.codec, ErrorHandlingConfig.floats, struct_keeps, via_keeps,
    field_keeps, defaulted_keeps]

theorem error_handling_reads (e : ErrorHandlingConfig) :
    (ErrorHandlingConfig.codec w).Reads e ↔ ∀ x ∈ e.floats, w.f64.Reads x := by
  simp [ErrorHandlingConfig.codec, ErrorHandlingConfig.floats, struct_reads, via_reads,
    field_reads, defaulted_reads, Codec.reads_of_keeps]

@[simp] theorem perf_log_keeps (p : PerfLogConfig) : (PerfLogConfig.codec w).Keeps p := by
  simp [PerfLogConfig.codec, struct_keeps, via_keeps, field_keeps, defaulted_keeps,
    optional_keeps]

@[simp] theorem perf_log_solid : (PerfLogConfig.codec w).Solid := struct_solid

/-! ## Storage -/

structure MultiEndpointConfig where
  strategy : String := "round_robin"
  endpoints : List String

structure RangeEngineConfig where
  enabled : Bool := false
  chunk_size : U64 := 67108864
  max_concurrent_ranges : U64 := 16
  min_split_size : U64 := 16777216
  range_timeout_secs : U64 := 30

structure S3dlioOptimizationConfig where
  enable_range_downloads : Bool := false
  range_threshold_mb : U64 := 64
  range_concurrency : Option U64 := none
  chunk_size_mb : Option U64 := none
  gcs_channel_count : Option U64 := none
  gcs_rapid_mode : Option Bool := none
  gcs_write_chunk_size_bytes : Option U64 := none
  gcs_project : Option String := none
  h2c : Option Bool := none
  h2_adaptive_window : Option Bool := none
  h2_stream_window_mb : Option U32 := none
  h2_conn_window_mb : Option U32 := none
  s3dlio_rt_threads : Option U64 := none
  tokio_worker_threads : Option U64 := none
  auto_threads : Bool := true

inductive PageCacheMode
  | Auto
  | Sequential
  | Random
  | DontNeed
  | Normal
deriving DecidableEq, Repr

def MultiEndpointConfig.codec : Codec MultiEndpointConfig := .struct <| .via
  (.field (defaulted "strategy" .string "round_robin") <|
   .field (required "endpoints" (.vec .string)) .nil)
  { toFun m := (m.strategy, m.endpoints, ())
    invFun := fun (strategy, endpoints, _) => { strategy, endpoints }
    left_inv _ := rfl
    right_inv _ := rfl }

def RangeEngineConfig.codec : Codec RangeEngineConfig := .struct <| .via
  (.field (defaulted "enabled" .bool false) <|
   .field (defaulted "chunk_size" u64 67108864) <|
   .field (defaulted "max_concurrent_ranges" u64 16) <|
   .field (defaulted "min_split_size" u64 16777216) <|
   .field (defaulted "range_timeout_secs" u64 30) .nil)
  { toFun r := (r.enabled, r.chunk_size, r.max_concurrent_ranges, r.min_split_size,
      r.range_timeout_secs, ())
    invFun := fun (enabled, chunk_size, max_concurrent_ranges, min_split_size,
        range_timeout_secs, _) =>
      { enabled, chunk_size, max_concurrent_ranges, min_split_size, range_timeout_secs }
    left_inv _ := rfl
    right_inv _ := rfl }

def S3dlioOptimizationConfig.codec : Codec S3dlioOptimizationConfig := .struct <| .via
  (.field (defaulted "enable_range_downloads" .bool false) <|
   .field (defaulted "range_threshold_mb" u64 64) <|
   .field (.optional "range_concurrency" u64) <|
   .field (.optional "chunk_size_mb" u64) <|
   .field (.optional "gcs_channel_count" u64) <|
   .field (.optional "gcs_rapid_mode" .bool) <|
   .field (.optional "gcs_write_chunk_size_bytes" u64) <|
   .field (.optional "gcs_project" .string) <|
   .field (.optional "h2c" .bool) <|
   .field (.optional "h2_adaptive_window" .bool) <|
   .field (.optional "h2_stream_window_mb" u32) <|
   .field (.optional "h2_conn_window_mb" u32) <|
   .field (.optional "s3dlio_rt_threads" u64) <|
   .field (.optional "tokio_worker_threads" u64) <|
   .field (defaulted "auto_threads" .bool true) .nil)
  { toFun o := (o.enable_range_downloads, o.range_threshold_mb, o.range_concurrency,
      o.chunk_size_mb, o.gcs_channel_count, o.gcs_rapid_mode, o.gcs_write_chunk_size_bytes,
      o.gcs_project, o.h2c, o.h2_adaptive_window, o.h2_stream_window_mb, o.h2_conn_window_mb,
      o.s3dlio_rt_threads, o.tokio_worker_threads, o.auto_threads, ())
    invFun := fun (enable_range_downloads, range_threshold_mb, range_concurrency, chunk_size_mb,
        gcs_channel_count, gcs_rapid_mode, gcs_write_chunk_size_bytes, gcs_project, h2c,
        h2_adaptive_window, h2_stream_window_mb, h2_conn_window_mb, s3dlio_rt_threads,
        tokio_worker_threads, auto_threads, _) =>
      { enable_range_downloads, range_threshold_mb, range_concurrency, chunk_size_mb,
        gcs_channel_count, gcs_rapid_mode, gcs_write_chunk_size_bytes, gcs_project, h2c,
        h2_adaptive_window, h2_stream_window_mb, h2_conn_window_mb, s3dlio_rt_threads,
        tokio_worker_threads, auto_threads }
    left_inv _ := rfl
    right_inv _ := rfl }

def page_cache_mode : Codec PageCacheMode :=
  .unit [.Auto, .Sequential, .Random, .DontNeed, .Normal] fun
    | .Auto => "auto"
    | .Sequential => "sequential"
    | .Random => "random"
    | .DontNeed => "dontneed"
    | .Normal => "normal"

@[simp] theorem multi_endpoint_keeps (m : MultiEndpointConfig) :
    MultiEndpointConfig.codec.Keeps m := by
  simp [MultiEndpointConfig.codec, struct_keeps, via_keeps, field_keeps, required_keeps,
    defaulted_keeps, vec_keeps]

@[simp] theorem multi_endpoint_solid : MultiEndpointConfig.codec.Solid := struct_solid

@[simp] theorem range_engine_keeps (r : RangeEngineConfig) : RangeEngineConfig.codec.Keeps r := by
  simp [RangeEngineConfig.codec, struct_keeps, via_keeps, field_keeps, defaulted_keeps]

@[simp] theorem range_engine_solid : RangeEngineConfig.codec.Solid := struct_solid

@[simp] theorem s3dlio_optimization_keeps (o : S3dlioOptimizationConfig) :
    S3dlioOptimizationConfig.codec.Keeps o := by
  simp [S3dlioOptimizationConfig.codec, struct_keeps, via_keeps, field_keeps, defaulted_keeps,
    optional_keeps]

@[simp] theorem s3dlio_optimization_solid : S3dlioOptimizationConfig.codec.Solid := struct_solid

@[simp] theorem page_cache_mode_keeps (m : PageCacheMode) : page_cache_mode.Keeps m := by
  apply unit_keeps
  cases m <;> rfl

@[simp] theorem page_cache_mode_solid : page_cache_mode.Solid := unit_solid

end sai3_bench.config.written
