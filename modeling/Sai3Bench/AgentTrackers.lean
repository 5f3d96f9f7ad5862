-- The controller's view of one agent: the states of its tracker, the guard on
-- their changes, and what one message does to it.
import Sai3Bench.Tables
import Sai3Bench.Messages

namespace sai3_bench.controller

open pb

inductive ControllerAgentState
  | Connecting
  | Validating
  | Ready
  | Preparing
  | Running
  | Cleaning
  | Completed
  | Failed
  | Disconnected
  | Aborting
deriving DecidableEq, Repr

namespace ControllerAgentState

def can_transition : ControllerAgentState → ControllerAgentState → Bool
  -- startup
  | Connecting, Validating | Validating, Ready | Validating, Failed
  -- the workload
  | Ready, Preparing | Ready, Running | Preparing, Running | Preparing, Failed
  | Running, Cleaning | Running, Completed | Cleaning, Completed
  | Running, Failed | Cleaning, Failed
  -- no message for too long
  | Connecting, Disconnected | Validating, Disconnected | Ready, Disconnected
  | Preparing, Disconnected | Running, Disconnected | Cleaning, Disconnected
  -- abort
  | Ready, Aborting | Preparing, Aborting | Running, Aborting | Cleaning, Aborting
  | Aborting, Completed | Aborting, Failed | Aborting, Disconnected
  -- recovery
  | Disconnected, Preparing | Disconnected, Running | Disconnected, Cleaning
  | Disconnected, Completed | Disconnected, Failed
  | Completed, Completed | Failed, Failed | Disconnected, Disconnected => true
  | _, _ => false

/-- A state as `{:?}` writes it. -/
def debug : ControllerAgentState → String
  | Connecting => "Connecting"
  | Validating => "Validating"
  | Ready => "Ready"
  | Preparing => "Preparing"
  | Running => "Running"
  | Cleaning => "Cleaning"
  | Completed => "Completed"
  | Failed => "Failed"
  | Disconnected => "Disconnected"
  | Aborting => "Aborting"

end ControllerAgentState

/-- `last_seen` is a reading of the controller's clock. -/
structure AgentTracker where
  agent_id : String
  state : ControllerAgentState := .Connecting
  last_seen : Nat := 0
  error_message : Option String := none
  latest_stats : Option LiveStats := none
  reconnect_count : Nat := 0

namespace AgentTracker

open ControllerAgentState

def new (agent_id : String) (now : Nat) : AgentTracker := { agent_id := agent_id, last_seen := now }

def transition_to (t : AgentTracker) (new_state : ControllerAgentState) (reason : String)
    (now : Nat) : Except String AgentTracker :=
  if can_transition t.state new_state then .ok { t with state := new_state, last_seen := now }
  else .error s!"Invalid agent state transition: {t.state.debug} → {new_state.debug} ({reason})"

/-- A change whose refusal is at most logged. -/
def moves (t : AgentTracker) (new_state : ControllerAgentState) (reason : String) (now : Nat) :
    AgentTracker :=
  match t.transition_to new_state reason now with
  | .ok t' => t'
  | .error _ => t

def touch (t : AgentTracker) (now : Nat) : AgentTracker := { t with last_seen := now }

def is_terminal (t : AgentTracker) : Bool := t.state = .Completed || t.state = .Failed

def is_active (t : AgentTracker) : Bool := t.state = .Preparing || t.state = .Running

/-! ## What a message does -/

/-- A message during startup. -/
def starts (t : AgentTracker) (stats : LiveStats) (now : Nat) : AgentTracker :=
  let t : AgentTracker :=
    if t.state = .Connecting then t.moves .Validating "first message received" now else t
  let t : AgentTracker := match stats.status with
    | 1 => t.moves .Ready "READY status received" now
    | 3 => { t with error_message := some stats.error_message }.moves .Failed
        "ERROR status received" now
    | 5 => { t with error_message := some "Agent aborted during startup" }.moves .Failed
        "ABORTED status during startup" now
    | _ =>
      if !t.is_terminal && decide (t.state ≠ .Ready) then
        t.moves .Ready "unexpected status during startup" now
      else t
  t.touch now

/-- A message in the main loop, first of all. -/
def hears (t : AgentTracker) (stats : LiveStats) (now : Nat) : AgentTracker :=
  { t.touch now with latest_stats := some stats }

/-- A message of an agent that was marked Disconnected. -/
def recovers (t : AgentTracker) (stats : LiveStats) (now : Nat) : AgentTracker :=
  if t.state = .Disconnected then
    let new_state := if stats.completed then Completed
      else match WorkloadStage.of stats.current_stage with
        | .StagePrepare => Preparing
        | .StageCleanup => Cleaning
        | _ => Running
    { t with reconnect_count := t.reconnect_count + 1 }.moves new_state "recovered from timeout" now
  else t

/-- The stage of a message moves the tracker. -/
def follows (t : AgentTracker) (stats : LiveStats) (now : Nat) : AgentTracker :=
  match WorkloadStage.of stats.current_stage with
  | .StagePrepare => if t.state = .Ready then t.moves .Preparing "prepare phase started" now else t
  | .StageWorkload =>
    if t.state = .Preparing then t.moves .Running "workload phase started" now
    else if t.state = .Ready then t.moves .Running "workload started (no prepare)" now
    else t
  | .StageCleanup => if t.state = .Running then t.moves .Cleaning "cleanup phase started" now else t
  | _ => t

/-- What the controller says of an ERROR message. -/
def errorOf (stats : LiveStats) : String :=
  if stats.error_message = "" then "Unknown error (no message provided)" else stats.error_message

/-- The status of a message moves the tracker. -/
def settles (t : AgentTracker) (stats : LiveStats) (now : Nat) : AgentTracker :=
  if stats.status = 3 then
    { t with error_message := some (errorOf stats) }.moves .Failed "error status received" now
  else if stats.status = 5 then t.moves .Completed "abort acknowledged" now
  else if stats.status = 4 && !stats.completed then
    t.moves .Completed "status 4 received (completed flag mismatch)" now
  else if stats.completed then t.moves .Completed "workload completed" now
  else t

/-- A message in the main loop that is read to its end. -/
def reads (t : AgentTracker) (stats : LiveStats) (now : Nat) : AgentTracker :=
  (((t.hears stats now).recovers stats now).follows stats now).settles stats now

/-- `abort_all_agents` on the tracker of an address. -/
def aborts (t : AgentTracker) (now : Nat) : AgentTracker :=
  if t.state = .Ready || t.state = .Preparing || t.state = .Running then
    t.moves .Aborting "abort RPC sent" now
  else t

/-- No message for ten minutes. -/
def stalls (t : AgentTracker) (now : Nat) : AgentTracker :=
  if !t.is_terminal && t.is_active then t.moves .Disconnected "timeout" now else t

/-! ## The state of a tracker -/

variable {t : AgentTracker} {stats : LiveStats} {now : Nat}

theorem moves_state (new_state : ControllerAgentState) (reason : String) :
    (t.moves new_state reason now).state =
      if can_transition t.state new_state then new_state else t.state := by
  unfold moves transition_to
  by_cases h : can_transition t.state new_state = true <;> simp [h]

theorem moves_last_seen (new_state : ControllerAgentState) (reason : String) :
    (t.moves new_state reason now).last_seen = t.last_seen ∨
      (t.moves new_state reason now).last_seen = now := by
  unfold moves transition_to
  by_cases h : can_transition t.state new_state = true <;> simp [h]

/-- Where a message finds the tracker when its status is read. -/
def arrives (s : ControllerAgentState) (stage : WorkloadStage) (completed : Bool) :
    ControllerAgentState :=
  let s := match s with
    | .Disconnected =>
      if completed then Completed
      else match stage with
        | .StagePrepare => Preparing
        | .StageCleanup => Cleaning
        | _ => Running
    | s => s
  match stage, s with
  | .StagePrepare, .Ready => Preparing
  | .StageWorkload, .Preparing => Running
  | .StageWorkload, .Ready => Running
  | .StageCleanup, .Running => Cleaning
  | _, s => s

theorem follows_state : ((t.hears stats now).recovers stats now |>.follows stats now).state =
    arrives t.state (WorkloadStage.of stats.current_stage) stats.completed := by
  unfold follows recovers hears touch arrives
  cases ht : t.state <;> cases hw : WorkloadStage.of stats.current_stage <;>
    cases hc : stats.completed <;> simp [moves_state, can_transition]

end AgentTracker

end sai3_bench.controller
