-- The barrier manager of the controller: who has reached which barrier, who is
-- lost, and when a barrier is satisfied.
import Sai3Bench.Machines
import Sai3Bench.Tables
import Sai3Bench.StageConfigs
import Sai3Bench.Messages

namespace sai3_bench.controller

open config machines pb

/-- The heartbeats of one agent. The time of the last one is left out. -/
structure AgentHeartbeat where
  last_progress : Option PhaseProgress := none
  missed_count : Nat := 0
  is_alive : Bool := true
  query_in_progress : Bool := false

inductive BarrierStatus
  | Ready
  | Waiting
  | Degraded
  | Failed
deriving DecidableEq, Repr

/-- The agents that are ready at one numbered barrier, with the sequence
number of their report. -/
structure BarrierState where
  ready_agents : AList fun _ : String => Nat := ∅
  released : Bool := false

structure BarrierReleaseInfo where
  barrier_index : Nat
  ready_agents : List String

structure BarrierManager where
  agents : AList fun _ : String => AgentHeartbeat
  config : PhaseBarrierConfig
  ready_agents : Finset String := ∅
  failed_agents : Finset String := ∅
  barrier_agents : AList fun _ : Nat => BarrierState := ∅

/-- A heartbeat says that the agent has reached its barrier. -/
def reached (progress : PhaseProgress) : Bool := progress.phase_completed || progress.at_barrier

namespace BarrierManager

def new (agent_ids : List String) (config : PhaseBarrierConfig) : BarrierManager :=
  { agents := agent_ids.foldl (fun m id => m.insert id {}) ∅, config := config }

def process_heartbeat (bm : BarrierManager) (agent_id : String) (progress : PhaseProgress) :
    BarrierManager :=
  match bm.agents.lookup agent_id with
  | none => bm
  | some _ => { bm with
      agents := bm.agents.insert agent_id { last_progress := some progress }
      ready_agents :=
        if reached progress then insert agent_id bm.ready_agents else bm.ready_agents }

/-! ## Liveness -/

/-- The heartbeat of an agent is late. The second component says that the
agent is to be queried now. -/
def missed (bm : BarrierManager) (agent_id : String) : BarrierManager × Bool :=
  match bm.agents.lookup agent_id with
  | none => (bm, false)
  | some hb =>
    if agent_id ∈ bm.failed_agents then (bm, false)
    else
      let missed_count := hb.missed_count + 1
      let query := decide (bm.config.missed_threshold ≤ missed_count) && !hb.query_in_progress
      ({ bm with agents := bm.agents.insert agent_id { hb with
          missed_count := missed_count
          query_in_progress := hb.query_in_progress || query } }, query)

/-- A query stayed without an answer, after all its retries. -/
def unanswered (bm : BarrierManager) (agent_id : String) : BarrierManager :=
  { bm with
    agents := bm.agents.modify agent_id fun hb =>
      { hb with is_alive := false, query_in_progress := false }
    failed_agents := insert agent_id bm.failed_agents }

/-- What comes from outside in one check of liveness: the agents whose
heartbeat is recent, and the answer of each agent to a query with its
retries. -/
structure Liveness where
  recent : String → Bool
  answer : String → Except String (Option PhaseProgress)

/-- `query_agent_with_retry`. -/
def query_agent_with_retry (client_pool : List String) (l : Liveness) (agent_id : String) :
    Except String (Option PhaseProgress) :=
  if agent_id ∈ client_pool then l.answer agent_id else .error s!"No client for agent {agent_id}"

/-- The first pass of `check_liveness`, over the agents in their order. -/
def lateAgents (l : Liveness) : BarrierManager → List String → BarrierManager × List String
  | bm, [] => (bm, [])
  | bm, id :: ids =>
    if l.recent id then lateAgents l bm ids
    else
      let (bm', query) := bm.missed id
      let (bm'', rest) := lateAgents l bm' ids
      (bm'', if query then id :: rest else rest)

/-- The second pass, for one agent. -/
def queried (client_pool : List String) (l : Liveness) (bm : BarrierManager) (agent_id : String) :
    BarrierManager :=
  match query_agent_with_retry client_pool l agent_id with
  | .ok (some progress) => bm.process_heartbeat agent_id progress
  | .ok none => bm
  | .error _ => bm.unanswered agent_id

def check_liveness (bm : BarrierManager) (client_pool : List String) (l : Liveness) :
    BarrierManager :=
  let (bm', agents_to_query) := lateAgents l bm bm.agents.keys
  agents_to_query.foldl (queried client_pool l) bm'

/-! ## The barrier of a phase -/

def check_barrier (bm : BarrierManager) : BarrierStatus :=
  let ready_count := bm.ready_agents.card
  let total_count := bm.agents.size
  let failed_count := bm.failed_agents.card
  let alive_count := total_count - failed_count
  match bm.config.barrier_type with
  | .AllOrNothing =>
    if 0 < failed_count then .Failed
    else if ready_count = alive_count then .Ready
    else .Waiting
  | .Majority =>
    if alive_count ≤ total_count / 2 then .Failed
    else if ready_count = alive_count ∧ failed_count = 0 then .Ready
    else if total_count / 2 < ready_count then .Degraded
    else if alive_count - ready_count < total_count / 2 + 1 - ready_count then .Failed
    else .Waiting
  | .BestEffort =>
    if alive_count = 0 then .Failed
    else if ready_count = alive_count ∧ failed_count = 0 then .Ready
    else if 0 < ready_count then .Degraded
    else .Waiting

def reset_barrier_state (bm : BarrierManager) : BarrierManager :=
  { bm with
    ready_agents := ∅
    failed_agents := ∅
    barrier_agents := ∅
    agents := bm.agents.mapValues fun _ => {} }

/-- One turn of the loop of `wait_for_barrier`: the timeout is over after
`elapsed`, or it is not and liveness may be due for a check. -/
inductive Turn
  | TimedOut (elapsed : String)
  | Polls (liveness : Option Liveness)

/-- One turn: the manager after it, and what the wait returns, if it does. -/
def wait_turn (bm : BarrierManager) (phase_name : String) (client_pool : List String) :
    Turn → BarrierManager × Option (Except String BarrierStatus)
  | .TimedOut elapsed => (bm.reset_barrier_state, some (.error
      s!"Barrier '{phase_name}' timeout after {elapsed} - agents may be desynchronized. Use RESET to recover."))
  | .Polls liveness => match bm.check_barrier with
    | .Ready => (bm, some (.ok .Ready))
    | .Degraded => (bm, some (.ok .Degraded))
    | .Failed => (bm, some (.error "Barrier failed - insufficient agents"))
    | .Waiting => match liveness with
      | some l => (bm.check_liveness client_pool l, none)
      | none => (bm, none)

/-- The whole wait. `none` says that it does not return in these turns. -/
def wait_for_barrier (bm : BarrierManager) (phase_name : String) (client_pool : List String) :
    List Turn → Option (BarrierManager × Except String BarrierStatus)
  | [] => none
  | turn :: turns => match bm.wait_turn phase_name client_pool turn with
    | (bm', some r) => some (bm', r)
    | (bm', none) => bm'.wait_for_barrier phase_name client_pool turns

/-! ## The numbered barriers -/

def agent_at_barrier (bm : BarrierManager) (agent_id : String) (barrier_index : Nat)
    (barrier_sequence : Nat) : BarrierManager :=
  let barrier_state := (bm.barrier_agents.lookup barrier_index).getD {}
  -- only a newer sequence number takes the place of an older one
  let should_update := match barrier_state.ready_agents.lookup agent_id with
    | some existing_seq => decide (existing_seq < barrier_sequence)
    | none => true
  { bm with
    barrier_agents := bm.barrier_agents.insert barrier_index
      (if should_update then { barrier_state with
        ready_agents := barrier_state.ready_agents.insert agent_id barrier_sequence }
      else barrier_state) }

/-- The policy of the barrier, by its counts. -/
def can_release (bm : BarrierManager) (ready_count : Nat) : Bool :=
  let total_count := bm.agents.size
  let failed_count := bm.failed_agents.card
  let alive_count := total_count - failed_count
  match bm.config.barrier_type with
  | .AllOrNothing => failed_count = 0 && ready_count = alive_count
  | .Majority => total_count / 2 < ready_count
  | .BestEffort => ready_count = alive_count && 0 < alive_count

def check_barrier_ready (bm : BarrierManager) (barrier_index : Nat) : Option BarrierReleaseInfo :=
  match bm.barrier_agents.lookup barrier_index with
  | none => none
  | some barrier_state =>
    if barrier_state.released then none
    else if bm.can_release barrier_state.ready_agents.size then
      some ⟨barrier_index, barrier_state.ready_agents.keys⟩
    else none

def clear_barrier (bm : BarrierManager) (barrier_index : Nat) : BarrierManager :=
  { bm with
    barrier_agents := bm.barrier_agents.modify barrier_index ({ · with released := true }) }

end BarrierManager

/-! ## The manager as a machine -/

/-- What can happen to a manager. -/
inductive ManagerEvent
  | Heartbeat (agent_id : String) (progress : PhaseProgress)
  | Missed (agent_id : String)
  | Unanswered (agent_id : String)
  | AtBarrier (agent_id : String) (barrier_index barrier_sequence : Nat)
  | Clear (barrier_index : Nat)
  | Reset

/-- A query can fail only while it is on its way. -/
def BarrierManager.step (bm : BarrierManager) : ManagerEvent → Option BarrierManager
  | .Heartbeat id progress => some (bm.process_heartbeat id progress)
  | .Missed id => some (bm.missed id).1
  | .Unanswered id =>
    if (bm.agents.lookup id).any (·.query_in_progress) then some (bm.unanswered id) else none
  | .AtBarrier id k seq => some (bm.agent_at_barrier id k seq)
  | .Clear k => some (bm.clear_barrier k)
  | .Reset => some bm.reset_barrier_state

def managerMachine : Machine BarrierManager ManagerEvent := ⟨BarrierManager.step⟩

end sai3_bench.controller
