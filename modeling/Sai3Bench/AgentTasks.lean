-- The tasks of one agent process over the state that they share: for each
-- ExecuteWorkload call a control reader and a stats writer, for each accepted
-- START a workflow, and the abort RPCs with their timers. Each event is one
-- step of one task, or something that comes from outside.
import Sai3Bench.Machines
import Sai3Bench.StageWorkflows

namespace sai3_bench.agent

open broadcasts config machines pb

/-! ## What comes from outside -/

/-- The part of the YAML config that START reads itself. -/
structure Config where
  distributed : Option DistributedConfig
  op_log_path : Option String
deriving Inhabited

/-- What the calls of a START or PREFLIGHT handler answer: the YAML parser,
`apply_agent_prefix`, `validate_workload_config`, the paths of
`staged_op_log_path` and `key_of`, the logger, and the checks of PREFLIGHT. -/
structure Answers where
  parsed : Except String Config
  prefixed : Except String Config
  validated : Except String Unit
  op_log_path : String
  op_log_key : String
  logger : Except String Unit
  preflight : String
deriving Inhabited

/-- The op-log session of the process (`oplog_session.rs`). -/
inductive OpLogSession
  | Idle
  | Active (requested key : String)
  | Finalized (requested : String)

/-- `oplog_session::begin`. -/
def OpLogSession.begin (s : OpLogSession) (path key : String) (logger : Except String Unit) :
    Except String OpLogSession :=
  match s with
  | .Idle => match logger with
    | .error e => .error e
    | .ok () => .ok (.Active path key)
  | .Active requested old =>
    if old = key then .ok s
    else .error s!"op-log path conflict: this process already has an op-log session writing to '{requested}' (s3dlio allows one op-log session per process), but this job requests '{path}'. Use the same op_log_path for every job on this agent, or restart the agent"
  | .Finalized requested =>
    .error s!"op-log session for '{requested}' was already finalized and s3dlio cannot start a new one in this process; cannot open the requested op-log '{path}'. Restart the agent"

/-! ## The messages of an agent -/

def errorStats (agent_id error : String) (sequence : Int) : LiveStats :=
  { agent_id := agent_id, status := 3, error_message := error, sequence := sequence }

def ackStats (agent_id : String) : LiveStats := { agent_id := agent_id, status := 6 }

def abortedStats (agent_id : String) : LiveStats :=
  { agent_id := agent_id, status := 5, error_message := "Aborted by controller" }

def preflightStats (agent_id results : String) : LiveStats :=
  { agent_id := agent_id, status := 7, error_message := results }

def resetStats (agent_id : String) : LiveStats :=
  { agent_id := agent_id, status := 1, error_message := "Reset complete - back to Idle" }

def syncStats (m : ControlMessage) (agent_id : String) : LiveStats :=
  { agent_id := agent_id
    status := if m.ready_for_next then 2 else 1
    error_message := s!"Synced to stage {m.target_stage_index} '{m.target_stage_name}' (ready={m.ready_for_next})" }

/-- READY, sent again every second until the workload runs. -/
def readyStats (agent_id : String) (sequence : Int) : LiveStats :=
  { agent_id := agent_id, status := 1, sequence := sequence, at_barrier := true,
    barrier_name := "", barrier_sequence := 0 }

def runningStats (agent_id : String) (sequence : Int) (s : Snapshot) : LiveStats :=
  { agent_id := agent_id
    get_ops := s.get_ops
    get_bytes := s.get_bytes
    put_ops := s.put_ops
    put_bytes := s.put_bytes
    meta_ops := s.meta_ops
    status := 2
    in_prepare_phase := s.in_prepare_phase
    prepare_objects_created := s.prepare_objects_created
    prepare_objects_total := s.prepare_objects_total
    sequence := sequence
    current_stage := s.current_stage
    stage_name := s.stage_name
    stage_progress_current := s.stage_progress_current
    stage_progress_total := s.stage_progress_total
    concurrency := s.concurrency }

/-- The RUNNING messages of a workload that is done, with its final counters. -/
def lastStats (agent_id : String) (sequence : Int) (p : Option PrepareSummary) (s : Snapshot) :
    LiveStats :=
  { runningStats agent_id sequence s with
    in_prepare_phase := false
    prepare_objects_created := 0
    prepare_objects_total := 0
    prepare_summary := p }

def completedStats (agent_id : String) (sequence : Int) (p : Option PrepareSummary)
    (final : Option WorkloadSummary) (s : Snapshot) : LiveStats :=
  { lastStats agent_id sequence p s with completed := true, final_summary := final, status := 4 }

def summary_to_proto (agent_id : String) (s : Summary) : WorkloadSummary :=
  { agent_id := agent_id
    total_ops := s.total_ops
    total_bytes := s.total_bytes
    get := s.get
    put := s.put
    «meta» := s.meta }

/-! ## The steps that tasks are made of -/

/-- A write of the workload state: through the guard, or past it. -/
inductive Move
  | To (new : WorkloadState)
  | Force (new : WorkloadState)
deriving DecidableEq

/-- The state after a write. A refused change leaves it. -/
def Move.settle (old : WorkloadState) : Move → WorkloadState
  | .To new => (transition_to old new).getD old
  | .Force new => new

/-- One step of a reader, of a writer that finishes, or of an abort RPC. A
step that reads the state first and then goes on is a step of its own. -/
inductive Op
  | Put (f : Cells → Cells)
  | SendAbort
  | ToAborting
  | ToIdle
  | ToFailed
  | ForceIdle
  | ForceStage (stage_index : Nat) (stage_name : String) (ready_for_next : Bool)
  | Named (msg : String → LiveStats)
  | NamedOrBreak (msg : String → LiveStats)
  | Send (msg : LiveStats)
  | SendOrBreak (msg : LiveStats)
  | TxDone (result : Except String Summary)
  | Start (m : ControlMessage) (answers : Answers)
  | BeginOpLog (base : String) (m : ControlMessage) (answers : Answers)
      (stages : Option (List StageConfig))
  | EnterPreflight (op_log_path : Option String)
  | PrepareSpawn (workload : Nat) (op_log_path : Option String)
  | Spawn (workload : Nat) (agent_id : String)
  | Release (barrier_index : Nat)
  | StreamError (e : String)
  | Disconnect
  | Return
  | AbortRpc
  | SpawnTimer (stages_too : Bool)
  | CheckAborting
  | CheckStuck (stages_too : Bool)

/-- The write that a step asks for. -/
def Op.move : Op → Option Move
  | .ToAborting => some (.To .Aborting)
  | .ToIdle => some (.To .Idle)
  | .ToFailed => some (.To .Failed)
  | .ForceIdle => some (.Force .Idle)
  | .ForceStage i name ready => some (.Force (.AtStage i name ready))
  | .EnterPreflight _ => some (.To (.AtStage 0 "preflight" false))
  | _ => none

/-- How a START fails before its workload is launched: the error that it
records in the state, and the error that it puts on `tx_done`. -/
structure StartFailure where
  recorded : String
  sent : String

/-- The checks of a START up to the op-log, in their order. -/
def checkStart (answers : Answers) : Except StartFailure (Config × Option (List StageConfig)) :=
  match answers.parsed with
  | .error e => .error ⟨s!"Invalid YAML: {e}", s!"Invalid YAML config: {e}"⟩
  | .ok _ => match answers.prefixed with
    | .error e =>
      .error ⟨s!"Failed to apply path prefix: {e}", s!"Failed to apply path prefix: {e}"⟩
    | .ok config => match answers.validated with
      | .error e => .error ⟨s!"Config validation failed: {e}", s!"Config validation failed: {e}"⟩
      | .ok () => match config.distributed with
        | none => .ok (config, none)
        | some d => match d.get_sorted_stages with
          | .error e => .error ⟨s!"Stage parsing failed: {e}", s!"Stage parsing failed: {e}"⟩
          | .ok ls => .ok (config, if ls.isEmpty then none else some ls)

/-- The steps of a START in Idle. -/
def startScript (agent_op_log_path : Option String) (m : ControlMessage) (answers : Answers) :
    List Op :=
  [.Put (.set_agent_id m.agent_id), .Put .reset_completion_sent,
    .Put (.set_agent_index m.agent_index), .Put (.set_num_agents m.num_agents),
    .Put (.set_shared_storage m.shared_storage), .Put (.set_config_yaml m.config_yaml)] ++
  match checkStart answers with
  | .error f => [.Put (.set_error f.recorded), .ToFailed, .TxDone (.error f.sent), .Return]
  | .ok (config, stages) => match config.op_log_path.or agent_op_log_path with
    | some base => [.BeginOpLog base m answers stages]
    | none => [.Put (.set_stages stages), .EnterPreflight none]

/-- The steps of the control reader for one message. -/
def handle (m : ControlMessage) (answers : Answers) : List Op :=
  match m.command with
  | none => []
  | some .Ping => [.NamedOrBreak ackStats]
  | some .Start => [.Start m answers]
  | some .Abort => [.SendAbort, .ToAborting, .Named abortedStats, .ToIdle]
  | some .Preflight => [.SendOrBreak (preflightStats m.agent_id answers.preflight)]
  | some .Acknowledge => []
  | some .ReleaseBarrier => [.Release m.barrier_sequence]
  | some .Goodbye => [.ToIdle, .Disconnect]
  | some .Reset =>
    [.SendAbort, .Put ({ · with error_message := none }), .ForceIdle,
      .Put .reset_completion_sent, .Put ({ · with config_yaml := none }),
      .Put ({ · with tracker := none }), .Put ({ · with agent_index := none }),
      .Put ({ · with num_agents := none }), .Put ({ · with shared_storage := none }),
      .Put ({ · with stages := none }), .Named resetStats]
  | some .SyncState =>
    [.ForceStage m.target_stage_index m.target_stage_name m.ready_for_next,
      .Named (syncStats m)]

/-- What the reader does when its loop ends. -/
def disconnectScript : WorkloadState → List Op
  | .Idle => [.Return]
  | .Aborting => [.ToFailed, .ToIdle, .Return]
  | .Failed => [.Return]
  | .Completed => [.Return]
  | .AtStage _ _ true => [.ToIdle, .Return]
  | .AtStage _ _ false => [.SendAbort, .ToFailed, .ToIdle, .Return]

/-- `AbortWorkload`, by the state that it finds. -/
def abortScript : WorkloadState → List Op
  | .AtStage _ _ _ => [.ToAborting, .SendAbort, .SpawnTimer true]
  | .Aborting => []
  | .Idle => []
  | .Failed => []
  | .Completed => [.ToAborting, .SendAbort, .SpawnTimer false]

/-! ## The agent -/

/-- Where the stats writer stands. `Finishing` has the result of a workload
and its last steps: `born` counts the workloads up to that one. -/
inductive WriterPc
  | WaitStart
  | SendReady
  | ReadySleep (wait_count : Nat)
  | ReadyCheck (wait_count : Nat)
  | GetTracker
  | Streaming
  | Finishing (born : Nat) (script : List Op)
  | Exited

structure Writer where
  pc : WriterPc := .WaitStart
  agent_id : String := ""
  sequence : Int := 0
  prepare_proto : Option PrepareSummary := none

/-- A result on `tx_done`, with the number of workloads accepted up to the
one that it is of. -/
structure Done where
  born : Nat
  result : Except String Summary

/-- One `ExecuteWorkload` call. `connected` says that the controller still
takes messages, and `sent` is what it was sent. `tx_done` holds one result. -/
structure Stream where
  connected : Bool := true
  reader : Option (List Op) := some []
  writer : Writer := {}
  sent : List LiveStats := []
  done : Option Done := none

/-- A send on `tx_stats`: lost when the controller is gone. -/
def Stream.send (s : Stream) (msg : LiveStats) : Stream :=
  if s.connected then { s with sent := s.sent ++ [msg] } else s

/-- An abort RPC or its timer. `born` counts the workloads accepted before
the RPC. -/
structure Background where
  born : Nat
  timer : Bool
  script : List Op

/-- The agent process. `workflows` has one workflow for each accepted START,
in the order of the STARTs. -/
structure Agent where
  state : WorkloadState := .Idle
  cells : Cells := {}
  op_log : OpLogSession := .Idle
  workflows : List Workflow := []
  streams : List Stream := []
  backgrounds : List Background := []

inductive WriterEvent
  | Poll
  | SendReady
  | ResendReady
  | CheckReady
  | GetTracker
  | Tick (snapshot : Snapshot)
  | TakePrepare (prepare_proto : Option PrepareSummary)
  | TakeDone (snapshot : Snapshot) (intervals : Nat) (summary_written : Bool)
  | TakeNone
  | Finish

inductive Event
  | Connect
  | Disconnect (stream : Nat)
  | Command (stream : Nat) (m : ControlMessage) (answers : Answers)
  | StreamError (stream : Nat) (e : String)
  | StreamEnd (stream : Nat)
  | ReadyTimeout (stream : Nat) (elapsed_secs : Nat)
  | Read (stream : Nat)
  | Write (stream : Nat) (e : WriterEvent)
  | AbortRpc
  | Background (task : Nat)
  | Work (workload : Nat) (e : WorkEvent)
  | SendDone (workload : Nat)

def AGENT_READY_TIMEOUT_SECS : Nat := 60
def MAX_WAIT_SECS : Nat := 60

namespace Agent

def modifyStream (a : Agent) (i : Nat) (f : Stream → Stream) : Agent :=
  { a with streams := a.streams.modify i f }

def send (a : Agent) (i : Nat) (msg : LiveStats) : Agent := a.modifyStream i (·.send msg)

def isConnected (a : Agent) (i : Nat) : Bool := (a.streams[i]?.map (·.connected)).getD false

def writerExited (s : Stream) : Bool :=
  match s.writer.pc with
  | .Exited => true
  | _ => false

/-- A send on `tx_done`: it waits while another result is there, and is lost
when the stats writer has exited. -/
def sendDone (a : Agent) (i : Nat) (d : Done) : Option Agent :=
  match a.streams[i]? with
  | none => none
  | some s =>
    if writerExited s then some a
    else match s.done with
      | none => some (a.modifyStream i fun s => { s with done := some d })
      | some _ => none

def agentName (a : Agent) : String := a.cells.agent_id.getD "unknown"

/-- A write of the workload state. -/
def moved (a : Agent) (m : Option Move) : WorkloadState := (m.map (Move.settle a.state)).getD a.state

/-- One step of a task: the agent after it, and the steps that now come
first in the task's script. `i` is the stream of the task and `born` the
number of workloads up to its own. -/
def exec (a : Agent) (i born : Nat) (op : Op) : Option (Agent × List Op) :=
  match op with
  | .Put f => some ({ a with cells := f a.cells }, [])
  | .SendAbort => some ({ a with workflows := a.workflows.map (·.hearAbort) }, [])
  | .ToAborting | .ToIdle | .ToFailed | .ForceIdle | .ForceStage _ _ _ =>
    some ({ a with state := a.moved op.move }, [])
  | .Named msg => some (a, [.Send (msg a.agentName)])
  | .NamedOrBreak msg => some (a, [.SendOrBreak (msg a.agentName)])
  | .Send msg => some (a.send i msg, [])
  | .SendOrBreak msg => if a.isConnected i then some (a.send i msg, []) else some (a, [.Disconnect])
  | .TxDone r => (a.sendDone i ⟨born, r⟩).map fun b => (b, [])
  | .Start m answers =>
    if a.state = .Idle then some (a, startScript a.cells.agent_op_log_path m answers)
    else some (a, [.TxDone (.error ("Agent in unexpected state: " ++ a.state.debug)), .Return])
  | .BeginOpLog base m answers stages =>
    match a.op_log.begin answers.op_log_path answers.op_log_key answers.logger with
    | .error e =>
      let reason := s!"Op-log rejected: {e}"
      some (a, [.Put (.set_error reason), .Send (errorStats m.agent_id reason 0), .Return])
    | .ok s =>
      some ({ a with op_log := s }, [.Put (.set_stages stages), .EnterPreflight (some base)])
  | .EnterPreflight path =>
    let executing_state := WorkloadState.AtStage 0 "preflight" false
    if (transition_to a.state executing_state).isSome then
      some ({ a with
        state := a.moved op.move
        workflows := a.workflows ++ [⟨i, "", [], .Pending, Receiver.subscribe⟩] },
        [.PrepareSpawn a.workflows.length path])
    else some (a, [.TxDone (.error ("State transition failed: " ++
      transitionError a.state executing_state "starting preflight (stage 0)")), .Return])
  | .PrepareSpawn w path =>
    some (a, [.Put (.set_tracker w), .Put (.set_op_log_path path), .Spawn w a.agentName])
  | .Spawn w id =>
    some ({ a with workflows := a.workflows.modify w (·.spawn id) }, [])
  | .Release k => some ({ a with workflows := a.workflows.map (·.hear (k, k)) }, [])
  | .StreamError e =>
    if a.state = .Idle then some (a, [.Disconnect])
    else some (a, [.Named fun id => errorStats id s!"Connection error: {e}" 0, .Disconnect])
  | .Disconnect => some (a, disconnectScript a.state)
  | .Return => some (a, [])
  | .AbortRpc => some (a, abortScript a.state)
  | .SpawnTimer stages_too =>
    some ({ a with
      backgrounds := a.backgrounds ++ [⟨born, true, [.CheckAborting, .CheckStuck stages_too]⟩] }, [])
  | .CheckAborting => some (a, if a.state = .Aborting then [.ToIdle] else [])
  | .CheckStuck stages_too =>
    match a.state with
    | .Aborting => some (a, [.ForceIdle])
    | .AtStage _ _ _ => some (a, if stages_too then [.ForceIdle] else [])
    | _ => some (a, [])

/-- The reader of stream `i` takes its next step. -/
def read (a : Agent) (i : Nat) : Option Agent :=
  match a.streams[i]?.bind (·.reader) with
  | some (.Return :: _) => some (a.modifyStream i fun s => { s with reader := none })
  | some (op :: rest) =>
    (a.exec i a.workflows.length op).map fun (b, next) =>
      b.modifyStream i fun s => { s with reader := some (next ++ rest) }
  | _ => none

/-- The reader of stream `i` has no step left and takes something new. -/
def readsNew (a : Agent) (i : Nat) (script : List Op) : Option Agent :=
  match a.streams[i]?.bind (·.reader) with
  | some [] => some (a.modifyStream i fun s => { s with reader := some script })
  | _ => none

/-- All senders of `tx_done` of a stream are gone. -/
def doneClosed (a : Agent) (i : Nat) (s : Stream) : Bool :=
  s.done.isNone && s.reader.isNone &&
    a.workflows.all fun wf => wf.stream != i || match wf.pc with
      | .Ended => true
      | _ => false

/-- The last steps of a writer that has a result. -/
def finishScript (w : Writer) (snapshot : Snapshot) (intervals : Nat) (summary_written : Bool) :
    Except String Summary → List Op
  | .ok summary =>
    (List.range intervals).map (fun k =>
      Op.Send (lastStats w.agent_id (w.sequence + k + 1) w.prepare_proto snapshot)) ++
    [.Put .mark_completion_sent,
      .Send (completedStats w.agent_id (w.sequence + intervals + 1) w.prepare_proto
        (if summary_written then some (summary_to_proto w.agent_id summary) else none) snapshot),
      .ToIdle]
  | .error e =>
    [.Send (errorStats w.agent_id e w.sequence), .Put (.set_error e), .ToFailed, .ToIdle]

/-- A step of a stats writer that runs no script: stream `i` after it. -/
def writes (a : Agent) (i : Nat) (s : Stream) (e : WriterEvent) : Option Stream :=
  let go (pc : WriterPc) : Option Stream := some { s with writer := { s.writer with pc := pc } }
  match s.writer.pc, e with
  | .WaitStart, .Poll => match a.state with
    | .AtStage _ _ true => go .SendReady
    | .Failed => go .Exited
    | .Idle => go .Exited
    | _ => go .WaitStart
  | .SendReady, .SendReady =>
    some { s.send (readyStats a.agentName s.writer.sequence) with
      writer := { s.writer with
        pc := if s.connected then .ReadySleep 0 else .Exited
        agent_id := a.agentName
        sequence := s.writer.sequence + 1 } }
  | .ReadySleep n, .ResendReady =>
    some { s.send (readyStats s.writer.agent_id s.writer.sequence) with
      writer := { s.writer with
        pc := if s.connected then .ReadyCheck (n + 1) else .Exited
        sequence := s.writer.sequence + 1 } }
  | .ReadyCheck n, .CheckReady => match a.state with
    | .AtStage _ _ false => go .GetTracker
    | .Failed => go .Exited
    | .Idle => go .Exited
    | .Aborting => go .Exited
    | _ => if MAX_WAIT_SECS ≤ n then go .Exited else go (.ReadySleep n)
  | .GetTracker, .GetTracker => if a.cells.tracker.isSome then go .Streaming else go .Exited
  | .Streaming, .TakePrepare p => some { s with writer := { s.writer with prepare_proto := p } }
  | .Streaming, .Tick snapshot =>
    some { s.send (runningStats s.writer.agent_id s.writer.sequence snapshot) with
      writer := { s.writer with
        pc := if s.connected then .Streaming else .Exited
        sequence := s.writer.sequence + 1 } }
  | .Streaming, .TakeDone snapshot intervals summary_written => match s.done with
    | none => none
    | some d =>
      if intervals ≤ 3 then
        let script := finishScript s.writer snapshot intervals summary_written d.result
        some { s with
          done := none
          writer := { s.writer with pc := .Finishing d.born script } }
      else none
  | .Streaming, .TakeNone => if a.doneClosed i s then go .Exited else none
  | .Finishing _ [], .Finish => go .Exited
  | _, _ => none

/-- The stats writer of stream `i` takes a step. -/
def write (a : Agent) (i : Nat) (e : WriterEvent) : Option Agent :=
  match a.streams[i]? with
  | none => none
  | some s => match s.writer.pc, e with
    | .Finishing born (op :: rest), .Finish =>
      (a.exec i born op).map fun (b, next) =>
        b.modifyStream i fun s => { s with
          writer := { s.writer with pc := .Finishing born (next ++ rest) } }
    | _, _ => (a.writes i s e).map fun s' => { a with streams := a.streams.set i s' }

/-- An abort RPC or a timer takes its next step. -/
def background (a : Agent) (t : Nat) : Option Agent :=
  match a.backgrounds[t]? with
  | some ⟨born, _, op :: rest⟩ =>
    (a.exec a.streams.length born op).map fun (b, next) =>
      { b with backgrounds := b.backgrounds.modify t fun g => { g with script := next ++ rest } }
  | _ => none

/-- The workflow of workload `w` takes a step. -/
def work (a : Agent) (w : Nat) (e : WorkEvent) : Option Agent :=
  match a.workflows[w]? with
  | none => none
  | some wf =>
    (wf.step a.state a.cells.stages e).map fun (wf', notice) =>
      let b : Agent := { a with
        state := a.moved ((wf.asks e).map Move.To)
        workflows := a.workflows.set w wf' }
      match notice with
      | some msg => b.send wf.stream msg
      | none => b

/-- The task of workload `w` sends its result and ends. -/
def sendResult (a : Agent) (w : Nat) : Option Agent :=
  match a.workflows[w]? with
  | some wf => match wf.pc with
    | .Finished r => (a.sendDone wf.stream ⟨w + 1, r⟩).map fun b =>
        { b with workflows := b.workflows.set w { wf with pc := .Ended } }
    | _ => none
  | none => none

/-- What the reader does after 60 s in the READY state of a START. -/
def readyTimeoutScript (elapsed_secs : Nat) : List Op :=
  [.Named fun id => errorStats id s!"Timeout in READY state after {elapsed_secs}s - controller did not send coordinated START" 0,
    .Put (.set_error "READY state timeout"), .ToFailed, .ToIdle, .Disconnect]

def step (a : Agent) : Event → Option Agent
  | .Connect => some { a with streams := a.streams ++ [{}] }
  | .Disconnect i => some (a.modifyStream i fun s => { s with connected := false })
  | .Command i m answers => a.readsNew i (handle m answers)
  | .StreamError i e => a.readsNew i [.StreamError e]
  | .StreamEnd i => a.readsNew i [.Disconnect]
  | .ReadyTimeout i elapsed_secs => match a.state with
    | .AtStage _ name true =>
      if name = "validated" ∧ AGENT_READY_TIMEOUT_SECS < elapsed_secs then
        a.readsNew i (readyTimeoutScript elapsed_secs)
      else none
    | _ => none
  | .Read i => a.read i
  | .Write i e => a.write i e
  | .AbortRpc =>
    some { a with backgrounds := a.backgrounds ++ [⟨a.workflows.length, false, [.AbortRpc]⟩] }
  | .Background t => a.background t
  | .Work w e => a.work w e
  | .SendDone w => a.sendResult w

end Agent

/-- The agent as a machine. -/
def agentMachine : Machine Agent Event := ⟨Agent.step⟩

/-- An agent process right after its start. -/
def Agent.new (agent_op_log_path : Option String) : Agent :=
  { cells := { agent_op_log_path := agent_op_log_path } }

end sai3_bench.agent
