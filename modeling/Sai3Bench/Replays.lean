-- A replay of an op-log (replay_streaming.rs): each row that can be read is counted and
-- spawned, results are collected in three loops, and flapping ends a replay early.
import Sai3Bench.Remaps

namespace sai3_bench.replay_streaming

open oplog_merge (OpLogEntry Row entries)

/-! ## Backpressure -/

inductive ReplayMode
  | Normal
  | BestEffort
deriving DecidableEq, Repr

/-- All times are in nanoseconds since the epoch of the replay. -/
structure FlappingTracker where
  transitions : List Nat := []
  max_per_minute : Nat

def FlappingTracker.record_transition (tracker : FlappingTracker) (now : Nat) :
    Bool × FlappingTracker :=
  let transitions := tracker.transitions.filter (fun t => now < t + 60 * 1000000000) ++ [now]
  (tracker.max_per_minute < transitions.length, { tracker with transitions := transitions })

structure ReplayConfig where
  lag_threshold : Nat := 5 * 1000000000
  recovery_threshold : Nat := 1000000000
  max_flaps_per_minute : Nat := 3
  drain_timeout : Nat := 10 * 1000000000

structure BackpressureController where
  mode : ReplayMode := .Normal
  lag_threshold : Nat
  recovery_threshold : Nat
  flap_tracker : FlappingTracker
  drain_timeout : Nat
  total_transitions : Nat := 0
  flap_limit_exceeded : Bool := false

namespace BackpressureController

def from_config (config : ReplayConfig) : BackpressureController where
  lag_threshold := config.lag_threshold
  recovery_threshold := config.recovery_threshold
  flap_tracker := { max_per_minute := config.max_flaps_per_minute }
  drain_timeout := config.drain_timeout

def default_controller : BackpressureController := from_config {}

/-- To another mode, and whether the replay may continue. -/
def transition (controller : BackpressureController) (mode : ReplayMode) (now : Nat) :
    Bool × BackpressureController :=
  let (exceeded, flap_tracker) := controller.flap_tracker.record_transition now
  (!exceeded,
    { controller with
      mode := mode
      total_transitions := controller.total_transitions + 1
      flap_tracker := flap_tracker
      flap_limit_exceeded := controller.flap_limit_exceeded || exceeded })

/-- Says whether the replay may continue. -/
def update (controller : BackpressureController) (current_lag now : Nat) :
    Bool × BackpressureController :=
  match controller.mode with
  | .Normal =>
    if controller.lag_threshold < current_lag then controller.transition .BestEffort now
    else (true, controller)
  | .BestEffort =>
    if current_lag < controller.recovery_threshold then controller.transition .Normal now
    else (true, controller)

end BackpressureController

/-! ## The state of a replay -/

structure ReplayRunConfig where
  continue_on_error : Bool := false
  max_concurrent : Option Nat := some 1000
  backpressure : Option ReplayConfig := none

structure ReplayStats where
  total_operations : Nat := 0
  completed_operations : Nat := 0
  failed_operations : Nat := 0
  skipped_operations : Nat := 0
  mode_transitions : Nat := 0
  flap_exit : Bool := false
  peak_lag : Nat := 0
  best_effort_time : Nat := 0

/-- An operation that was spawned. -/
structure Task where
  entry : OpLogEntry
  delay : Nat
  mode : ReplayMode

inductive TaskResult
  | Completed
  | Failed (e : String)
  | Panicked (e : String)

/-- A task that finishes: its place among those in flight, and its result. -/
structure Completion where
  place : Nat
  result : TaskResult

/-- What the clock says where a row is handled. -/
structure Moment where
  now : Nat
  recorded : Nat
  switched : Nat

abbrev Reading := Row × Moment

/-- What a replay meets: the delay for a time of the log, if it is one, the tasks in the
order in which they finish, the polls of a drain, and the end. -/
structure Runtime where
  delay : Nat → Option Nat
  completions : Nat → Completion
  drain_polls : List (Nat × Bool)
  finished : Nat

structure Replay where
  stats : ReplayStats := {}
  tasks : List Task := []
  backpressure : BackpressureController
  best_effort_start : Option Nat := none
  spawned : List Task := []
  collected : Nat := 0

def handle_task_result (result : TaskResult) (stats : ReplayStats) (continue_on_error : Bool) :
    Except String Unit × ReplayStats :=
  match result with
  | .Completed =>
    (.ok (), { stats with completed_operations := stats.completed_operations + 1 })
  | .Failed e =>
    (if continue_on_error then .ok () else .error s!"Operation failed: {e}",
      { stats with failed_operations := stats.failed_operations + 1 })
  | .Panicked e =>
    (if continue_on_error then .ok () else .error e,
      { stats with failed_operations := stats.failed_operations + 1 })

/-- The next task that finishes. Nothing finishes where nothing is in flight. -/
def next (runtime : Runtime) (s : Replay) : Option (TaskResult × Replay) :=
  if s.tasks.isEmpty then none
  else
    let completion := runtime.completions s.collected
    some (completion.result,
      { s with
        tasks := s.tasks.eraseIdx (completion.place % s.tasks.length)
        collected := s.collected + 1 })

/-- The next result goes into the statistics. -/
def collect (runtime : Runtime) (continue_on_error : Bool) (s : Replay) :
    Option (Except String Unit × Replay) :=
  match next runtime s with
  | none => none
  | some (result, s) =>
    let (handled, stats) := handle_task_result result s.stats continue_on_error
    some (handled, { s with stats := stats })

def abort_and_drain (s : Replay) : Replay := { s with tasks := [] }

def spawn_operation (entry : OpLogEntry) (delay : Nat) (s : Replay) : Replay :=
  let task : Task := ⟨entry, delay, s.backpressure.mode⟩
  { s with tasks := s.tasks ++ [task], spawned := s.spawned ++ [task] }

/-! ## The loops. Where one gets no end, no fuel is enough. -/

/-- Down to the limit, after an operation was spawned. -/
def poll_completed (runtime : Runtime) (config : ReplayRunConfig) :
    Nat → Replay → Option (Except String Unit × Replay)
  | 0, _ => none
  | fuel + 1, s =>
    if s.tasks.length < config.max_concurrent.getD 1000 then some (.ok (), s)
    else match collect runtime config.continue_on_error s with
      | none => poll_completed runtime config fuel s
      | some (.error e, s) => some (.error e, abort_and_drain s)
      | some (.ok _, s) => poll_completed runtime config fuel s

/-- After the flap limit. A poll has the time it is made at, and may end without a result;
after the last of them the time is over. -/
def drain (runtime : Runtime) : List (Nat × Bool) → Replay → Except String Unit × Replay
  | [], s => (.ok (), s)
  | (elapsed, finishes) :: polls, s =>
    if s.tasks.isEmpty ∨ s.backpressure.drain_timeout ≤ elapsed then (.ok (), s)
    else if finishes = false then drain runtime polls s
    else match collect runtime true s with
      | none => drain runtime polls s
      | some (.error e, s) => (.error e, s)
      | some (.ok _, s) => drain runtime polls s

/-- In the end. -/
def wait_remaining (runtime : Runtime) (config : ReplayRunConfig) :
    Nat → Replay → Option (Except String Unit × Replay)
  | 0, _ => none
  | fuel + 1, s => match collect runtime config.continue_on_error s with
    | none => some (.ok (), s)
    | some (.error e, s) => some (.error e, abort_and_drain s)
    | some (.ok _, s) => wait_remaining runtime config fuel s

/-! ## The stream -/

def row_error (e : String) : String :=
  s!"replay stopped at an unsupported or unreadable op-log row: {e} " ++
    "(operations before this row, if any, have already run, and operations already submitted " ++
    "may have changed storage; use --continue-on-error to skip such rows)"

/-- The rows up to the first that can be read. -/
def first_entry (config : ReplayRunConfig) :
    List Reading → ReplayStats → Except String (Option OpLogEntry) × ReplayStats × List Reading
  | [], stats => (.ok none, stats, [])
  | (.ok entry, _) :: rows, stats => (.ok (some entry), stats, rows)
  | (.error e, _) :: rows, stats =>
    let stats := { stats with skipped_operations := stats.skipped_operations + 1 }
    if config.continue_on_error then first_entry config rows stats
    else (.error (row_error e), stats, rows)

/-- How the loop over the rows goes on. -/
inductive Flow
  | Next
  | Flap
  | Err (e : String)
  | Panic

/-- `none` where the delay is no duration. A time before the first one has no delay. -/
def delay_of (runtime : Runtime) (first_time : Int) (entry : OpLogEntry) : Option Nat :=
  if first_time ≤ entry.start then runtime.delay (entry.start - first_time).toNat else some 0

/-- The time in best-effort mode. -/
def track_mode (prev_mode : ReplayMode) (now : Nat) (s : Replay) : Replay :=
  if prev_mode = s.backpressure.mode then s
  else match s.backpressure.mode with
    | .BestEffort => { s with best_effort_start := some now }
    | .Normal => match s.best_effort_start with
      | none => s
      | some start =>
        { s with
          best_effort_start := none
          stats :=
            { s.stats with best_effort_time := s.stats.best_effort_time + (now - start) } }

def replay_entry (runtime : Runtime) (config : ReplayRunConfig) (fuel : Nat) (first_time : Int)
    (entry : OpLogEntry) (moment : Moment) (s : Replay) : Option (Flow × Replay) :=
  let stats := { s.stats with total_operations := s.stats.total_operations + 1 }
  match delay_of runtime first_time entry with
  | none => some (.Panic, { s with stats := stats })
  | some delay =>
    let current_lag := moment.now - delay
    let stats := { stats with peak_lag := max stats.peak_lag current_lag }
    match s.backpressure.update current_lag moment.recorded with
    | (false, backpressure) =>
      let s := { s with stats := stats, backpressure := backpressure }
      match drain runtime runtime.drain_polls s with
      | (.error e, s) => some (.Err e, s)
      | (.ok _, s) => some (.Flap, { s with stats := { s.stats with flap_exit := true } })
    | (true, backpressure) =>
      let prev_mode := s.backpressure.mode
      let s := track_mode prev_mode moment.switched
        { s with stats := stats, backpressure := backpressure }
      match poll_completed runtime config fuel (spawn_operation entry delay s) with
      | none => none
      | some (.error e, s) => some (.Err e, s)
      | some (.ok _, s) => some (.Next, s)

/-- The rows after the first entry, and those that are not read any more. -/
def replay_rows (runtime : Runtime) (config : ReplayRunConfig) (fuel : Nat) (first_time : Int) :
    List Reading → Replay → Option (Flow × Replay × List Reading)
  | [], s => some (.Next, s, [])
  | (.error e, _) :: rows, s =>
    let s := { s with
      stats := { s.stats with skipped_operations := s.stats.skipped_operations + 1 } }
    if config.continue_on_error then replay_rows runtime config fuel first_time rows s
    else some (.Err (row_error e), abort_and_drain s, rows)
  | (.ok entry, moment) :: rows, s =>
    match replay_entry runtime config fuel first_time entry moment s with
    | none => none
    | some (.Next, s) => replay_rows runtime config fuel first_time rows s
    | some (flow, s) => some (flow, s, rows)

inductive Exit
  | Ok (stats : ReplayStats)
  | Err (e : String)
  | Panic

/-- What a replay returns, with the operations that it spawned and the rows it left. -/
structure Replayed where
  exit : Exit
  spawned : List Task
  unread : List Reading

def finish (runtime : Runtime) (config : ReplayRunConfig) (fuel : Nat) (unread : List Reading)
    (s : Replay) : Option Replayed :=
  let rest := (s.best_effort_start.map fun start => runtime.finished - start).getD 0
  let s := { s with
    stats := { s.stats with best_effort_time := s.stats.best_effort_time + rest } }
  match wait_remaining runtime config fuel s with
  | none => none
  | some (.error e, s) => some ⟨.Err e, s.spawned, unread⟩
  | some (.ok _, s) =>
    some ⟨.Ok { s.stats with mode_transitions := s.backpressure.total_transitions },
      s.spawned, unread⟩

/-- The controller of the configuration. -/
def controller (config : ReplayRunConfig) : BackpressureController :=
  match config.backpressure with
  | some bp_config => .from_config bp_config
  | none => .default_controller

def replay_workload_streaming (runtime : Runtime) (config : ReplayRunConfig)
    (rows : List Reading) (fuel : Nat) : Option Replayed :=
  match first_entry config rows {} with
  | (.error e, _, rows) => some ⟨.Err e, [], rows⟩
  | (.ok none, stats, rows) => some ⟨.Ok stats, [], rows⟩
  | (.ok (some first), stats, rows) =>
    let s := spawn_operation first 0
      { stats := { stats with total_operations := stats.total_operations + 1 }
        backpressure := controller config }
    match replay_rows runtime config fuel first.start rows s with
    | none => none
    | some (.Err e, s, rows) => some ⟨.Err e, s.spawned, rows⟩
    | some (.Panic, s, rows) => some ⟨.Panic, s.spawned, rows⟩
    | some (.Flap, s, rows) | some (.Next, s, rows) => finish runtime config fuel rows s

end sai3_bench.replay_streaming
