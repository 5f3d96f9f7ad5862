-- The controller's run over its agents: the startup, the main loop over their
-- messages, and the end. Each event is one message, or something that comes
-- from outside.
import Sai3Bench.BarrierManagers
import Sai3Bench.AgentTrackers

namespace sai3_bench.controller

open config machines pb

/-! ## What a run is set up with -/

/-- The white space that `trim` takes off. -/
def is_whitespace (c : Char) : Bool :=
  let n := c.toNat
  (9 ≤ n && n ≤ 13) || n = 32 || n = 0x85 || n = 0xA0 || n = 0x1680 ||
    (0x2000 ≤ n && n ≤ 0x200A) || n = 0x2028 || n = 0x2029 || n = 0x202F || n = 0x205F || n = 0x3000

def trim (s : List Char) : List Char :=
  ((s.dropWhile is_whitespace).reverse.dropWhile is_whitespace).reverse

/-- The ids of the agents: custom ones between commas, or "agent-1" and so on. -/
def agentIds (agent_ids : Option String) (num_agents : Nat) : List String :=
  match agent_ids with
  | some custom_ids => (custom_ids.toList.splitOn ',').map fun s => String.ofList (trim s)
  | none => (List.range num_agents).map fun i => s!"agent-{i + 1}"

/-- A run has an id for each address. -/
structure Setup where
  agent_addrs : List String
  ids : List String
  distributed : Option DistributedConfig
  same_length : ids.length = agent_addrs.length

/-- A run of agents that go by their addresses. -/
def Setup.ofAgents (agents : List String) (distributed : Option DistributedConfig) : Setup :=
  ⟨agents, agents, distributed, rfl⟩

def Setup.new (agent_addrs : List String) (agent_ids : Option String)
    (distributed : Option DistributedConfig) : Except String Setup :=
  let ids := agentIds agent_ids agent_addrs.length
  if h : ids.length = agent_addrs.length then .ok ⟨agent_addrs, ids, distributed, h⟩
  else .error s!"Number of agent IDs ({ids.length}) doesn't match number of agent addresses ({agent_addrs.length})"

/-- The manager of a run, if its config has barriers. -/
def Setup.barrier_manager (s : Setup) : Option BarrierManager :=
  match s.distributed with
  | none => none
  | some d =>
    if d.barrier_sync.enabled || d.stages.any (·.barrier.isSome) then
      some (BarrierManager.new s.agent_addrs (d.barrier_sync.get_phase_config "prepare"))
    else none

def Setup.using_yaml_stages (s : Setup) : Bool := s.distributed.any fun d => !d.stages.isEmpty

/-! ## The statistics of the agents -/

structure LiveStatsAggregator where
  agent_stats : AList fun _ : String => LiveStats := ∅
  expected_agents : Nat

namespace LiveStatsAggregator

def update (a : LiveStatsAggregator) (stats : LiveStats) : LiveStatsAggregator :=
  { a with agent_stats := a.agent_stats.insert stats.agent_id stats }

def mark_completed (a : LiveStatsAggregator) (agent_id : String) : LiveStatsAggregator :=
  { a with agent_stats := a.agent_stats.modify agent_id ({ · with completed := true }) }

def reset_stats (a : LiveStatsAggregator) : LiveStatsAggregator := { a with agent_stats := ∅ }

def all_completed (a : LiveStatsAggregator) : Bool :=
  !a.agent_stats.entries.isEmpty && a.agent_stats.values.all (·.completed)

/-- A reconnected agent that has not completed is not completed any more. -/
def unmark (a : LiveStatsAggregator) (stats : LiveStats) : LiveStatsAggregator :=
  { a with agent_stats := a.agent_stats.modify stats.agent_id fun s =>
      if s.completed && !stats.completed then { s with completed := false } else s }

end LiveStatsAggregator

/-! ## The controller -/

inductive Phase
  | Startup
  | Loop
  | Finishing
  | Exited (outcome : Except String Unit)

/-- `control` is what was put on the broadcast channel to the agents, and
`clock` counts the events. The stage summaries have the agents' names. -/
structure Controller where
  phase : Phase := .Startup
  clock : Nat := 0
  trackers : AList fun _ : String => AgentTracker
  barrier_manager : Option BarrierManager := none
  aggregator : LiveStatsAggregator
  last_stage : WorkloadStage := .StageUnknown
  last_stage_name : String := ""
  agent_summaries : List WorkloadSummary := []
  prepare_summaries : List PrepareSummary := []
  stage_summaries : AList fun _ : Nat × String => List (String × StageSummary) := ∅
  stages_written : Finset (Nat × String) := ∅
  control : List ControlMessage := []

/-- `turns` are the turns of a wait at a barrier that the event may begin, and
`tsv_written` says that the results of a stage could be written. -/
inductive Event
  | Stats (stats : LiveStats) (turns : List BarrierManager.Turn) (tsv_written : Bool)
  | Stalled (agent_id : String)
  | StartupTimeout
  | Signal (sig : String)
  | ChannelClosed
  | Finish (turns : List BarrierManager.Turn)

/-- A release of barrier `k` for one agent. -/
def releaseMessage (k : Nat) (agent_id : String) : ControlMessage :=
  { command := some .ReleaseBarrier, agent_id := agent_id, barrier_sequence := k }

def goodbyeMessage : ControlMessage := { command := some .Goodbye }

/-- The heartbeat that a message is. -/
def progressOf (stats : LiveStats) : PhaseProgress :=
  let current_stage := WorkloadStage.of stats.current_stage
  { agent_id := stats.agent_id
    current_phase := match current_stage with
      | .StagePrepare => .PhasePreparing
      | .StageWorkload => .PhaseExecuting
      | .StageCleanup => .PhaseCleaning
      | _ => .PhaseIdle
    objects_created := stats.prepare_objects_created
    objects_total := stats.prepare_objects_total
    current_operation := stats.stage_name
    bytes_written := stats.put_bytes
    operations_completed := stats.get_ops + stats.put_ops + stats.meta_ops
    objects_deleted := if current_stage = .StageCleanup then stats.stage_progress_current else 0
    objects_remaining := if current_stage = .StageCleanup then
        stats.stage_progress_total - stats.stage_progress_current else 0
    phase_completed := stats.completed
    at_barrier := stats.at_barrier }

namespace Controller

def tracker (c : Controller) (agent_id : String) : AgentTracker :=
  (c.trackers.lookup agent_id).getD (AgentTracker.new agent_id c.clock)

/-- The tracker of a message's agent, made if it is not there. -/
def withTracker (c : Controller) (agent_id : String) (f : AgentTracker → AgentTracker) :
    Controller :=
  { c with trackers := c.trackers.insert agent_id (f (c.tracker agent_id)) }

def abort_all_agents (s : Setup) (c : Controller) : Controller :=
  { c with
    trackers := s.agent_addrs.foldl (fun m addr => m.modify addr (·.aborts c.clock)) c.trackers }

def exits (c : Controller) (outcome : Except String Unit) : Controller :=
  { c with phase := .Exited outcome }

/-! ### Startup -/

/-- The agents that have answered. -/
def responded (c : Controller) : Nat :=
  (c.trackers.values.filter fun t => t.state = .Ready || t.state = .Failed).length

/-- All agents have answered: the main loop begins, if none has failed. -/
def finish_startup (s : Setup) (c : Controller) : Controller :=
  let failed_agents := c.trackers.values.filter fun t => decide (t.state = .Failed)
  if failed_agents.isEmpty then { c with phase := .Loop, barrier_manager := s.barrier_manager }
  else (c.abort_all_agents s).exits
    (.error s!"{failed_agents.length} agent(s) failed startup validation")

def start (s : Setup) (c : Controller) (stats : LiveStats) : Controller :=
  let c := c.withTracker stats.agent_id (·.starts stats c.clock)
  if s.agent_addrs.length ≤ c.responded then c.finish_startup s else c

/-! ### The main loop -/

/-- Keep the summary of a stage, and write the results of the stage when
every agent has one there. -/
def collect (s : Setup) (c : Controller) (stats : LiveStats) (tsv_written : Bool) : Controller :=
  match stats.stage_summary with
  | none => c
  | some stage_sum =>
    let stage_key := (stage_sum.stage_index, stage_sum.stage_name)
    let summaries :=
      (c.stage_summaries.lookup stage_key).getD [] ++ [(stats.agent_id, stage_sum)]
    let write := s.agent_addrs.length ≤ summaries.length ∧ stage_key ∉ c.stages_written ∧
      tsv_written = true
    { c with
      stage_summaries := c.stage_summaries.insert stage_key summaries
      stages_written := if write then insert stage_key c.stages_written else c.stages_written }

/-- A report at a barrier releases the barrier when it is satisfied now. -/
def report (c : Controller) (bm : BarrierManager) (agent_id : String) (barrier_index : Nat) :
    Controller :=
  let bm := bm.agent_at_barrier agent_id barrier_index barrier_index
  match bm.check_barrier_ready barrier_index with
  | some info => { c with
      barrier_manager := some (bm.clear_barrier barrier_index)
      control := c.control ++ info.ready_agents.map (releaseMessage info.barrier_index) }
  | none => { c with barrier_manager := some bm }

/-- A message is a heartbeat, when there is a manager. -/
def heartbeat (s : Setup) (c : Controller) (stats : LiveStats) (tsv_written : Bool) : Controller :=
  match c.barrier_manager with
  | none => c
  | some bm =>
    let bm := bm.process_heartbeat stats.agent_id (progressOf stats)
    let c := if stats.at_barrier then c.report bm stats.agent_id stats.barrier_sequence
      else { c with barrier_manager := some bm }
    c.collect s stats tsv_written

/-- What comes before the status of a message is read. -/
def hear (s : Setup) (c : Controller) (stats : LiveStats) (tsv_written : Bool) : Controller :=
  let disconnected := decide ((c.tracker stats.agent_id).state = .Disconnected)
  let c := c.withTracker stats.agent_id (·.hears stats c.clock)
  let c := c.heartbeat s stats tsv_written
  let c := c.withTracker stats.agent_id fun t =>
    (t.recovers stats c.clock).follows stats c.clock
  { c with
    aggregator := if disconnected then c.aggregator.unmark stats else c.aggregator
    last_stage := WorkloadStage.of stats.current_stage
    last_stage_name := stats.stage_name }

/-- The loop is over: the agents are told goodbye. -/
def finish_loop (c : Controller) : Controller :=
  { c with phase := .Finishing, control := c.control ++ [goodbyeMessage] }

/-- The status of a message is read, and the loop goes on or is over. -/
def settle (s : Setup) (c : Controller) (stats : LiveStats) : Controller :=
  let c := c.withTracker stats.agent_id (·.settles stats c.clock)
  let marked : Controller := { c with aggregator := c.aggregator.mark_completed stats.agent_id }
  if stats.status = 3 then
    (marked.abort_all_agents s).exits (.error
      s!"Agent {stats.agent_id} workload execution failed: {AgentTracker.errorOf stats}")
  -- these two go on with the next message at once
  else if stats.status = 5 then marked
  else if stats.status = 4 && !stats.completed then marked
  else
    let c : Controller := if stats.completed then
        { marked with
          agent_summaries := c.agent_summaries ++ stats.final_summary.toList
          prepare_summaries := c.prepare_summaries ++ stats.prepare_summary.toList }
      else { c with aggregator := c.aggregator.update { stats with
        stage_summary := if c.barrier_manager.isSome then none else stats.stage_summary } }
    if c.aggregator.all_completed then c.finish_loop else c

/-- A wait at a barrier of a phase, and how the run goes on after it. -/
def await (s : Setup) (c : Controller) (phase_name Phase_name : String)
    (turns : List BarrierManager.Turn) (next : Controller → Controller) : Option Controller :=
  match c.barrier_manager with
  | none => some (next c)
  | some bm => (bm.wait_for_barrier phase_name s.ids turns).map fun (bm, r) =>
    let c : Controller := { c with barrier_manager := some bm }
    match r with
    | .ok .Failed => (c.abort_all_agents s).exits
        (.error s!"{Phase_name} barrier failed - aborting workload")
    | .ok _ => next c
    | .error e => (c.abort_all_agents s).exits (.error s!"{Phase_name} barrier error: {e}")

/-- One message in the main loop. -/
def take (s : Setup) (c : Controller) (stats : LiveStats) (turns : List BarrierManager.Turn)
    (tsv_written : Bool) : Option Controller :=
  let heard := c.hear s stats tsv_written
  if c.last_stage = .StagePrepare ∧ heard.last_stage = .StageWorkload then
    { heard with aggregator := heard.aggregator.reset_stats }.await s "prepare" "Prepare" turns
      (·.settle s stats)
  else some (heard.settle s stats)

/-- An agent has not been heard of for ten minutes. -/
def stall (c : Controller) (agent_id : String) : Controller :=
  { c with trackers := c.trackers.modify agent_id (·.stalls c.clock) }

/-- The controller when an event comes. -/
def ticked (c : Controller) : Controller := { c with clock := c.clock + 1 }

def step (s : Setup) (c : Controller) (e : Event) : Option Controller :=
  match c.phase, e with
  | .Startup, .Stats stats _ _ => some (c.ticked.start s stats)
  | .Startup, .StartupTimeout =>
    some ((c.ticked.abort_all_agents s).exits (.error "Agent startup validation timeout"))
  | .Startup, .Signal sig =>
    some ((c.ticked.abort_all_agents s).exits (.error s!"Interrupted by {sig}"))
  | .Loop, .Stats stats turns tsv_written => c.ticked.take s stats turns tsv_written
  | .Loop, .Stalled agent_id => some (c.ticked.stall agent_id)
  | .Loop, .ChannelClosed => some c.ticked.finish_loop
  | .Loop, .Signal sig =>
    some ((c.ticked.abort_all_agents s).exits (.error s!"Interrupted by {sig}"))
  | .Finishing, .Finish turns =>
    if s.using_yaml_stages then some (c.ticked.exits (.ok ()))
    else c.ticked.await s "execute" "Execute" turns (·.exits (.ok ()))
  | _, _ => none

/-- The controller right after it has started the tasks of its agents. -/
def new (s : Setup) : Controller :=
  { trackers := s.agent_addrs.foldl (fun m addr => m.insert addr (AgentTracker.new addr 0)) ∅
    aggregator := { expected_agents := s.agent_addrs.length } }

end Controller

def controllerMachine (s : Setup) : Machine Controller Event := ⟨Controller.step s⟩

end sai3_bench.controller
