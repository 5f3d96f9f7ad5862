-- The perf-log of a run (perf_log.rs): each entry has the difference of a counter to the
-- entry before it, while the counters are set to zero with each stage (live_stats.rs).
import Sai3Bench.LiveTrackers
import Sai3Bench.Meters

namespace sai3_bench.perf_log

open live_stats meters

/-! ## The tracker -/

/-- The cumulative counters of a sample. Latencies and processor times go into an entry as
they are, and are left out. -/
structure PerfMetrics where
  get_ops : Nat
  get_bytes : Nat
  put_ops : Nat
  put_bytes : Nat
  meta_ops : Nat
  errors : Nat

/-- One line, with the differences. The rates are left out, and times are in nanoseconds. -/
structure PerfLogEntry where
  agent_id : String
  elapsed : Nat
  stage_name : String
  get_ops : Nat
  get_bytes : Nat
  put_ops : Nat
  put_bytes : Nat
  meta_ops : Nat
  errors : Nat

structure PerfLogDeltaTracker where
  prev_get_ops : Nat := 0
  prev_get_bytes : Nat := 0
  prev_put_ops : Nat := 0
  prev_put_bytes : Nat := 0
  prev_meta_ops : Nat := 0
  prev_errors : Nat := 0
  prev_timestamp : Option Nat := none
  workload_start : Option Nat := none
  warmup_end : Option Nat := none

namespace PerfLogDeltaTracker

def new : PerfLogDeltaTracker := {}

def start (tracker : PerfLogDeltaTracker) (warmup_duration : Option Nat) (now : Nat) :
    PerfLogDeltaTracker :=
  { tracker with
    workload_start := some now
    prev_timestamp := some now
    warmup_end := warmup_duration.map (now + ·) }

/-- The counters stay. -/
def reset_warmup_for_workload (tracker : PerfLogDeltaTracker) (warmup_duration : Option Nat)
    (now : Nat) : PerfLogDeltaTracker :=
  { tracker with
    workload_start := some now
    prev_timestamp := some now
    warmup_end := warmup_duration.map (now + ·) }

/-- The counters stay. -/
def reset_for_stage (tracker : PerfLogDeltaTracker) (now : Nat) : PerfLogDeltaTracker :=
  { tracker with
    workload_start := some now
    prev_timestamp := some now }

/-- A difference is saturating. -/
def compute_delta (tracker : PerfLogDeltaTracker) (agent_id : String) (metrics : PerfMetrics)
    (stage_name : String) (now : Nat) : PerfLogEntry × PerfLogDeltaTracker :=
  ({ agent_id := agent_id
     elapsed := (tracker.workload_start.map (now - ·)).getD 0
     stage_name := stage_name
     get_ops := metrics.get_ops - tracker.prev_get_ops
     get_bytes := metrics.get_bytes - tracker.prev_get_bytes
     put_ops := metrics.put_ops - tracker.prev_put_ops
     put_bytes := metrics.put_bytes - tracker.prev_put_bytes
     meta_ops := metrics.meta_ops - tracker.prev_meta_ops
     errors := metrics.errors - tracker.prev_errors },
    { tracker with
      prev_get_ops := metrics.get_ops
      prev_get_bytes := metrics.get_bytes
      prev_put_ops := metrics.put_ops
      prev_put_bytes := metrics.put_bytes
      prev_meta_ops := metrics.meta_ops
      prev_errors := metrics.errors
      prev_timestamp := some now })

end PerfLogDeltaTracker

/-! ## A run of one agent -/

inductive Event
  | Performed (request : Request)
  | Sampled (stage_name : String) (now : Nat)
  | StageReset
  | TrackerStage (now : Nat)
  | TrackerWorkload (warmup_duration : Option Nat) (now : Nat)

/-- The counters of the agent, the tracker of its log, and the lines. -/
structure PerfLog where
  live : LiveStatsTracker := {}
  tracker : PerfLogDeltaTracker := .new
  entries : List PerfLogEntry := []

/-- Errors are not tracked. -/
def metrics_of (live : LiveStatsTracker) : PerfMetrics where
  get_ops := live.get_ops
  get_bytes := live.get_bytes
  put_ops := live.put_ops
  put_bytes := live.put_bytes
  meta_ops := live.meta_ops
  errors := 0

def PerfLog.step (agent_id : String) (log : PerfLog) : Event → PerfLog
  | .Performed request => { log with live := log.live.record request }
  | .Sampled stage_name now =>
    let (entry, tracker) :=
      log.tracker.compute_delta agent_id (metrics_of log.live) stage_name now
    { log with tracker := tracker, entries := log.entries ++ [entry] }
  | .StageReset => { log with live := log.live.reset_for_stage }
  | .TrackerStage now => { log with tracker := log.tracker.reset_for_stage now }
  | .TrackerWorkload warmup_duration now =>
    { log with tracker := log.tracker.reset_warmup_for_workload warmup_duration now }

def PerfLog.run (agent_id : String) (log : PerfLog) (events : List Event) : PerfLog :=
  events.foldl (PerfLog.step agent_id) log

/-! ## What is measured -/

/-- The operations of a kind, or their bytes. -/
inductive Measure
  | Ops (kind : OpKind)
  | Bytes (kind : OpKind)

namespace Measure

/-- What one operation adds. -/
def amount (request : Request) : Measure → Nat
  | Ops kind => if request.kind = kind then 1 else 0
  | Bytes kind => if request.kind = kind then request.bytes else 0

def counter (live : LiveStatsTracker) : Measure → Nat
  | Ops kind => live.ops kind
  | Bytes kind => live.bytes kind

/-- What an entry says. Other operations have no bytes. -/
def written (entry : PerfLogEntry) : Measure → Nat
  | Ops .Get => entry.get_ops
  | Ops .Put => entry.put_ops
  | Ops .Meta => entry.meta_ops
  | Bytes .Get => entry.get_bytes
  | Bytes .Put => entry.put_bytes
  | Bytes .Meta => 0

def previous (tracker : PerfLogDeltaTracker) : Measure → Nat
  | Ops .Get => tracker.prev_get_ops
  | Ops .Put => tracker.prev_put_ops
  | Ops .Meta => tracker.prev_meta_ops
  | Bytes .Get => tracker.prev_get_bytes
  | Bytes .Put => tracker.prev_put_bytes
  | Bytes .Meta => 0

end Measure

/-- What an event does to the counter of a measure, and to its last reading. -/
def tick (measure : Measure) : Event → Option Tick
  | .Performed request => some (.Add (measure.amount request))
  | .Sampled _ _ => some .Read
  | .StageReset => some .Reset
  | .TrackerStage _ | .TrackerWorkload _ _ => none

def ticks (measure : Measure) (events : List Event) : List Tick :=
  events.filterMap (tick measure)

/-- The operations that the run performs. -/
def requests (events : List Event) : List Request :=
  events.filterMap fun
    | .Performed request => some request
    | _ => none

/-! ## The properties -/

/-- A sample is taken right before each reset and at the end: nothing is performed between. -/
def SampledOut : (pending : Bool) → List Event → Prop
  | pending, [] => pending = false
  | _, .Performed _ :: events => SampledOut true events
  | _, .Sampled _ _ :: events => SampledOut false events
  | pending, .StageReset :: events => pending = false ∧ SampledOut false events
  | pending, .TrackerStage _ :: events | pending, .TrackerWorkload _ _ :: events =>
    SampledOut pending events

/-- The entries have each operation and each byte once, in its kind. -/
def Conserved (agent_id : String) (events : List Event) : Prop :=
  ∀ measure : Measure,
    (((PerfLog.run agent_id {} events).entries.map fun entry => measure.written entry)).sum =
      ((requests events).map fun request => measure.amount request).sum

/-- After a reset of the counters, the first sample that is taken shows nothing of what the
last one before it showed too. -/
def ResetsApart (events : List Event) : Prop :=
  ∀ measure : Measure, Apart 0 0 false (ticks measure events)

section

variable {measure : Measure} {agent_id : String} {log : PerfLog} {event : Event}
  {events : List Event}

/-! ## One event -/

theorem counter_record (live : LiveStatsTracker) (request : Request) :
    measure.counter (live.record request) = measure.counter live + measure.amount request := by
  cases measure with
  | Ops kind => exact LiveStatsTracker.record_ops
  | Bytes kind => exact LiveStatsTracker.record_bytes

theorem counter_reset (live : LiveStatsTracker) : measure.counter live.reset_for_stage = 0 := by
  rcases measure with kind | kind <;> cases kind <;> rfl

/-- An entry has the difference, and the reading is remembered. -/
theorem compute_delta_measure (tracker : PerfLogDeltaTracker) (live : LiveStatsTracker)
    (stage_name : String) (now : Nat) :
    measure.written (tracker.compute_delta agent_id (metrics_of live) stage_name now).1 =
        measure.counter live - measure.previous tracker ∧
      measure.previous (tracker.compute_delta agent_id (metrics_of live) stage_name now).2 =
        measure.counter live := by
  rcases measure with kind | kind <;> cases kind <;> exact ⟨rfl, rfl⟩

theorem previous_reset_for_stage (tracker : PerfLogDeltaTracker) (now : Nat) :
    measure.previous (tracker.reset_for_stage now) = measure.previous tracker := by
  rcases measure with kind | kind <;> cases kind <;> rfl

theorem previous_reset_warmup (tracker : PerfLogDeltaTracker) (warmup : Option Nat)
    (now : Nat) :
    measure.previous (tracker.reset_warmup_for_workload warmup now) =
      measure.previous tracker := by
  rcases measure with kind | kind <;> cases kind <;> rfl

/-! ## Every run -/

/-- The entries of a run are the differences of its counters. -/
theorem run_written :
    (log.run agent_id events).entries.map (fun entry => measure.written entry) =
      log.entries.map (fun entry => measure.written entry) ++
        deltas (measure.counter log.live) (measure.previous log.tracker)
          (ticks measure events) := by
  induction events generalizing log with
  | nil =>
    have hnone : deltas (measure.counter log.live) (measure.previous log.tracker)
        (ticks measure []) = [] := rfl
    rw [hnone, List.append_nil]
    rfl
  | cons event events ih =>
    have hrun : log.run agent_id (event :: events) =
        (log.step agent_id event).run agent_id events := rfl
    rw [hrun, ih]
    cases event with
    | Performed request =>
      have hnext := @counter_record measure log.live request
      simp only [PerfLog.step, hnext]
      rfl
    | Sampled stage_name now =>
      obtain ⟨hentry, hprev⟩ :=
        @compute_delta_measure measure agent_id log.tracker log.live stage_name now
      simp only [PerfLog.step, List.map_append, List.map_cons, List.map_nil, hentry, hprev,
        List.append_assoc]
      rfl
    | StageReset =>
      simp only [PerfLog.step, counter_reset]
      rfl
    | TrackerStage now =>
      simp only [PerfLog.step, previous_reset_for_stage]
      rfl
    | TrackerWorkload warmup now =>
      simp only [PerfLog.step, previous_reset_warmup]
      rfl

theorem added_ticks : added (ticks measure events) =
    ((requests events).map fun request => measure.amount request).sum := by
  induction events with
  | nil => rfl
  | cons event events ih =>
    cases event with
    | Performed request =>
      have hadded : added (ticks measure (.Performed request :: events)) =
          measure.amount request + added (ticks measure events) := rfl
      have hrequests : requests (.Performed request :: events) =
          request :: requests events := rfl
      rw [hadded, hrequests, List.map_cons, List.sum_cons, ih]
    | Sampled stage_name now => exact ih
    | StageReset => exact ih
    | TrackerStage now => exact ih
    | TrackerWorkload warmup now => exact ih

theorem readOut_ticks {pending : Bool} (h : SampledOut pending events) :
    ReadOut pending (ticks measure events) := by
  induction events generalizing pending with
  | nil => exact h
  | cons event events ih =>
    cases event with
    | Performed request => exact @ih true h
    | Sampled stage_name now => exact @ih false h
    | StageReset => exact ⟨h.1, @ih false h.2⟩
    | TrackerStage now => exact @ih pending h
    | TrackerWorkload warmup now => exact @ih pending h

end

/-- When the log has all that a run performs. -/
theorem rows_conserved_iff (agent_id : String) {events : List Event} (h : SampledOut false events) :
    Conserved agent_id events ↔ ResetsApart events := by
  apply forall_congr'
  intro measure
  have hzero : measure.counter {} = 0 := by
    rcases measure with kind | kind <;> cases kind <;> rfl
  have hprev : measure.previous .new = 0 := by
    rcases measure with kind | kind <;> cases kind <;> rfl
  rw [run_written, ← added_ticks, ← sum_deltas_iff (readOut_ticks h)]
  simp only [List.map_nil, List.nil_append, hzero, hprev]

/-- An object is put, and in the next stage it is read. -/
def put_then_get : List Event :=
  [.Performed (.Put 1024 {}), .Sampled "prepare" 1, .StageReset, .TrackerStage 1,
    .Performed (.Get 1024 {}), .Sampled "execute" 2]

theorem put_then_get_apart : ResetsApart put_then_get := by
  intro measure
  rcases measure with kind | kind <;> cases kind <;> decide

theorem conserved_put_then_get : Conserved "agent-1" put_then_get :=
  (rows_conserved_iff "agent-1" (by simp [SampledOut, put_then_get])).mpr put_then_get_apart

/-- A get of the second stage is taken for one of the first. -/
theorem second_stage_lost : ¬ ∀ (agent_id : String) (events : List Event),
    SampledOut false events → Conserved agent_id events := by
  intro h
  have hget := h "agent-1"
    [.Performed (.Get 1024 {}), .Sampled "first" 1, .StageReset, .TrackerStage 1,
      .Performed (.Get 1024 {}), .Sampled "second" 2] (by simp [SampledOut]) (.Ops .Get)
  revert hget
  decide

end sai3_bench.perf_log
