-- The task that runs the stages of one workload (`execute_stages_workflow`
-- and the task around it), one event for each point where another task of
-- the agent can come between.
import Sai3Bench.AgentStates
import Sai3Bench.BarrierWaits

namespace sai3_bench.agent

open broadcasts config pb

/-- The counters that a task reads from the live stats tracker. -/
structure Snapshot where
  get_ops : Nat := 0
  get_bytes : Nat := 0
  put_ops : Nat := 0
  put_bytes : Nat := 0
  meta_ops : Nat := 0
  in_prepare_phase : Bool := false
  prepare_objects_created : Nat := 0
  prepare_objects_total : Nat := 0
  current_stage : Int := 0
  stage_name : String := ""
  stage_progress_current : Nat := 0
  stage_progress_total : Nat := 0
  concurrency : Nat := 0
deriving DecidableEq, Repr

/-- What a workflow that ran all its stages gives. -/
structure Summary where
  total_ops : Nat
  total_bytes : Nat
  get : OpAggregateMetrics
  put : OpAggregateMetrics
  «meta» : OpAggregateMetrics
deriving DecidableEq, Repr

def Summary.of (s : Snapshot) : Summary :=
  { total_ops := s.get_ops + s.put_ops + s.meta_ops
    total_bytes := s.get_bytes + s.put_bytes
    get := { bytes := s.get_bytes, ops := s.get_ops }
    put := { bytes := s.put_bytes, ops := s.put_ops }
    «meta» := { bytes := 0, ops := s.meta_ops } }

/-- Where the task of a workload stands. `Pending` is a workload whose START
is accepted and whose task is not spawned yet. `i` counts the YAML stages
from 0: their stage index is `i + 1`, since index 0 is the preflight. -/
inductive Pc
  | Pending
  | Spawned
  | Loaded
  | StageTop (i : Nat)
  | Entering (i : Nat)
  | Executing (i : Nat)
  | Executed (i : Nat)
  | Ready (i : Nat)
  | AtBarrier (i : Nat) (stage : StageConfig) (stage_summary : StageSummary) (w : BarrierWait)
  | AllDone
  | Finished (result : Except String Summary)
  | Ended

structure Workflow where
  stream : Nat
  agent_id : String
  stages : List StageConfig
  pc : Pc
  abort_rx : Receiver Unit 16

inductive WorkEvent
  | LoadStages
  | SubscribeAbort
  | CheckAbort (aborted : Bool)
  | Enter
  | Execute (result : Except String Unit)
  | MarkReady
  | SubscribeBarrier (snapshot : Snapshot)
  | Notify (snapshot : Snapshot)
  | Recv
  | Timeout
  | Complete (snapshot : Snapshot)

def stage_type : StageSpecificConfig → String
  | .Prepare _ => "prepare"
  | .Execute _ => "execute"
  | .Cleanup _ => "cleanup"
  | .Custom _ _ => "custom"
  | .Hybrid _ _ => "hybrid"
  | .Validation => "validation"

def stageSummaryOf (i : Nat) (stage : StageConfig) (s : Snapshot) : StageSummary :=
  { stage_index := (i + 1) % 2 ^ 32
    stage_name := stage.name
    stage_type := stage_type stage.config
    get_ops := s.get_ops
    get_bytes := s.get_bytes
    put_ops := s.put_ops
    put_bytes := s.put_bytes
    meta_ops := s.meta_ops
    errors := 0 }

/-- The notice that an agent is at a barrier. The summary of the stage goes
with the first one only. -/
def barrierStats (agent_id : String) (w : BarrierWait) (summary : StageSummary) (s : Snapshot) :
    LiveStats :=
  { agent_id := agent_id
    status := 2
    at_barrier := true
    barrier_name := ""
    barrier_sequence := w.barrier_index
    get_ops := s.get_ops
    get_bytes := s.get_bytes
    put_ops := s.put_ops
    put_bytes := s.put_bytes
    meta_ops := s.meta_ops
    stage_summary := if w.retry = 0 then some summary else none }

def barrierFailure (stage : StageConfig) (w : BarrierWait) : String :=
  let secs := (stage.barrier.map (·.agent_barrier_timeout)).getD 120
  s!"Barrier coordination failed: stage {w.barrier_index} not released after {secs}s x {max_barrier_retries} retries. Controller may be unresponsive."

namespace Workflow

/-- The stage after stage `i`, or the end of the list. -/
def afterStage (wf : Workflow) (i : Nat) : Pc :=
  if i + 1 < wf.stages.length then .StageTop (i + 1) else .AllDone

/-- How the task goes on after a step of its wait at the barrier of stage `i`. -/
def afterWait (wf : Workflow) (i : Nat) (stage : StageConfig) (summary : StageSummary)
    (w : BarrierWait) : WaitResult → Workflow
  | .Waiting w' => { wf with pc := .AtBarrier i stage summary w' }
  | .Released => { wf with pc := wf.afterStage i }
  | .NotReleased => { wf with pc := .Finished (.error (barrierFailure stage w)) }

/-- The state that a step asks `transition_to` for. -/
def asks (wf : Workflow) : WorkEvent → Option WorkloadState
  | .Enter => match wf.pc with
    | .Entering i => wf.stages[i]?.map fun stage => .AtStage (i + 1) stage.name false
    | _ => none
  | .MarkReady => match wf.pc with
    | .Executed i => wf.stages[i]?.map fun stage => .AtStage (i + 1) stage.name true
    | _ => none
  | .Complete _ => match wf.pc with
    | .AllDone => some .Completed
    | _ => none
  | _ => none

/-- One step of the task: the task after it, and the notice that it sends.
`state` and `stages` are the cells of the agent that the task reads. -/
def step (wf : Workflow) (state : WorkloadState) (stages : Option (List StageConfig)) :
    WorkEvent → Option (Workflow × Option LiveStats)
  | .LoadStages => match wf.pc with
    | .Spawned => match stages with
      -- `.expect("FATAL: No stages found …")` ends the task with a panic
      | none => some ({ wf with pc := .Ended }, none)
      | some ls => some ({ wf with pc := .Loaded, stages := ls }, none)
    | _ => none
  | .SubscribeAbort => match wf.pc with
    | .Loaded => some ({ wf with
        pc := if 0 < wf.stages.length then .StageTop 0 else .AllDone
        abort_rx := Receiver.subscribe }, none)
    | _ => none
  | .CheckAbort aborted => match wf.pc with
    | .StageTop i =>
      -- the select! takes either branch when a signal is there
      if aborted then
        if wf.abort_rx.isEmpty then none
        else some ({ wf with pc := .Finished (.error "Workload aborted by user") }, none)
      else some ({ wf with pc := .Entering i }, none)
    | _ => none
  | .Enter => match wf.pc with
    | .Entering i => match wf.stages[i]? with
      | none => none
      | some stage =>
        let at_stage := WorkloadState.AtStage (i + 1) stage.name false
        if (transition_to state at_stage).isSome then some ({ wf with pc := .Executing i }, none)
        else some ({ wf with pc := .Finished (.error ("State transition failed: " ++
          transitionError state at_stage s!"starting stage {stage.name}")) }, none)
    | _ => none
  | .Execute result => match wf.pc with
    | .Executing i => match result with
      | .ok () => some ({ wf with pc := .Executed i }, none)
      | .error e => some ({ wf with pc := .Finished (.error e) }, none)
    | _ => none
  | .MarkReady => match wf.pc with
    | .Executed i => match wf.stages[i]? with
      | none => none
      | some stage =>
        let ready_state := WorkloadState.AtStage (i + 1) stage.name true
        if (transition_to state ready_state).isSome then some ({ wf with pc := .Ready i }, none)
        else some ({ wf with pc := .Finished (.error ("State transition failed: " ++
          transitionError state ready_state s!"stage {stage.name} complete, at barrier")) }, none)
    | _ => none
  | .SubscribeBarrier snapshot => match wf.pc with
    | .Ready i => match wf.stages[i]? with
      | none => none
      | some stage => some ({ wf with
          pc := .AtBarrier i stage (stageSummaryOf i stage snapshot)
            (BarrierWait.begins (i + 1)) }, none)
    | _ => none
  | .Notify snapshot => match wf.pc with
    | .AtBarrier i stage summary w => w.notify.map fun r =>
      (wf.afterWait i stage summary w r, some (barrierStats wf.agent_id w summary snapshot))
    | _ => none
  | .Recv => match wf.pc with
    | .AtBarrier i stage summary w =>
      w.recv.map fun r => (wf.afterWait i stage summary w r, none)
    | _ => none
  | .Timeout => match wf.pc with
    | .AtBarrier i stage summary w =>
      w.timeout.map fun r => (wf.afterWait i stage summary w r, none)
    | _ => none
  | .Complete snapshot => match wf.pc with
    -- a refused change to Completed is only logged
    | .AllDone => some ({ wf with pc := .Finished (.ok (Summary.of snapshot)) }, none)
    | _ => none

/-- The task of an accepted START is spawned. -/
def spawn (wf : Workflow) (agent_id : String) : Workflow :=
  match wf.pc with
  | .Pending => { wf with pc := .Spawned, agent_id := agent_id }
  | _ => wf

/-- A release reaches the receiver of a task that waits. -/
def hear (wf : Workflow) (m : Nat × Nat) : Workflow :=
  match wf.pc with
  | .AtBarrier i stage summary w => { wf with pc := .AtBarrier i stage summary (w.hear m) }
  | _ => wf

/-- An abort signal reaches the receiver of a task that has subscribed. The
receiver of a task that has not is made anew when it does. -/
def hearAbort (wf : Workflow) : Workflow := { wf with abort_rx := wf.abort_rx.push () }

/-- The wait of a task at the barrier of stage `i`. -/
def waitAt (wf : Workflow) (i : Nat) : Option BarrierWait :=
  match wf.pc with
  | .AtBarrier j _ _ w => if j = i then some w else none
  | _ => none

/-! ## What one step can do -/

/-- A step of the wait, by its event. -/
def waitStep (w : BarrierWait) : WorkEvent → Option WaitResult
  | .Notify _ => w.notify
  | .Recv => w.recv
  | .Timeout => w.timeout
  | _ => none

/-- The steps of a task, one case for each way it can go on. -/
inductive Steps (wf : Workflow) (state : WorkloadState) (stages : Option (List StageConfig)) :
    WorkEvent → Workflow → Prop
  | noStages : wf.pc = .Spawned → stages = none →
      Steps wf state stages .LoadStages { wf with pc := .Ended }
  | loads {ls : List StageConfig} : wf.pc = .Spawned → stages = some ls →
      Steps wf state stages .LoadStages { wf with pc := .Loaded, stages := ls }
  | subscribesAbort : wf.pc = .Loaded → Steps wf state stages .SubscribeAbort { wf with
      pc := if 0 < wf.stages.length then .StageTop 0 else .AllDone
      abort_rx := Receiver.subscribe }
  | aborted {i : Nat} {e : String} : wf.pc = .StageTop i →
      Steps wf state stages (.CheckAbort true) { wf with pc := .Finished (.error e) }
  | goesOn {i : Nat} : wf.pc = .StageTop i →
      Steps wf state stages (.CheckAbort false) { wf with pc := .Entering i }
  | enters {i : Nat} {stage : StageConfig} : wf.pc = .Entering i → wf.stages[i]? = some stage →
      (transition_to state (.AtStage (i + 1) stage.name false)).isSome →
      Steps wf state stages .Enter { wf with pc := .Executing i }
  | notEnters {i : Nat} {stage : StageConfig} {e : String} : wf.pc = .Entering i →
      wf.stages[i]? = some stage →
      transition_to state (.AtStage (i + 1) stage.name false) = none →
      Steps wf state stages .Enter { wf with pc := .Finished (.error e) }
  | executes {i : Nat} : wf.pc = .Executing i →
      Steps wf state stages (.Execute (.ok ())) { wf with pc := .Executed i }
  | fails {i : Nat} {e : String} : wf.pc = .Executing i →
      Steps wf state stages (.Execute (.error e)) { wf with pc := .Finished (.error e) }
  | readies {i : Nat} {stage : StageConfig} : wf.pc = .Executed i → wf.stages[i]? = some stage →
      (transition_to state (.AtStage (i + 1) stage.name true)).isSome →
      Steps wf state stages .MarkReady { wf with pc := .Ready i }
  | notReadies {i : Nat} {stage : StageConfig} {e : String} : wf.pc = .Executed i →
      wf.stages[i]? = some stage →
      transition_to state (.AtStage (i + 1) stage.name true) = none →
      Steps wf state stages .MarkReady { wf with pc := .Finished (.error e) }
  | subscribes {i : Nat} {stage : StageConfig} {s : Snapshot} : wf.pc = .Ready i →
      wf.stages[i]? = some stage → Steps wf state stages (.SubscribeBarrier s) { wf with
        pc := .AtBarrier i stage (stageSummaryOf i stage s) (BarrierWait.begins (i + 1)) }
  | waits {i : Nat} {stage : StageConfig} {summary : StageSummary} {w : BarrierWait}
      {we : WorkEvent} {r : WaitResult} : wf.pc = .AtBarrier i stage summary w →
      waitStep w we = some r → Steps wf state stages we (wf.afterWait i stage summary w r)
  | completes {s : Snapshot} : wf.pc = .AllDone → Steps wf state stages (.Complete s)
      { wf with pc := .Finished (.ok (Summary.of s)) }

theorem step_cases {wf wf' : Workflow} {state : WorkloadState}
    {stages : Option (List StageConfig)} {we : WorkEvent} {notice : Option LiveStats}
    (h : wf.step state stages we = some (wf', notice)) : wf.Steps state stages we wf' := by
  cases we with
  | LoadStages =>
    simp only [step] at h
    split at h <;> try cases h
    rename_i hpc
    split at h <;> cases h
    · exact .noStages hpc rfl
    · exact .loads hpc rfl
  | SubscribeAbort =>
    simp only [step] at h
    split at h <;> cases h
    rename_i hpc
    exact .subscribesAbort hpc
  | CheckAbort aborted =>
    simp only [step] at h
    split at h <;> try cases h
    rename_i hpc
    cases aborted
    · cases h
      exact .goesOn hpc
    · simp only [↓reduceIte] at h
      split at h <;> cases h
      exact .aborted hpc
  | Enter =>
    simp only [step] at h
    split at h <;> try cases h
    rename_i hpc
    split at h <;> try cases h
    rename_i hstage
    split at h
    · rename_i hok
      cases h
      exact .enters hpc hstage hok
    · rename_i hno
      cases h
      exact .notEnters hpc hstage (by simpa using hno)
  | Execute result =>
    simp only [step] at h
    split at h <;> try cases h
    rename_i hpc
    split at h <;> cases h
    · exact .executes hpc
    · exact .fails hpc
  | MarkReady =>
    simp only [step] at h
    split at h <;> try cases h
    rename_i hpc
    split at h <;> try cases h
    rename_i hstage
    split at h
    · rename_i hok
      cases h
      exact .readies hpc hstage hok
    · rename_i hno
      cases h
      exact .notReadies hpc hstage (by simpa using hno)
  | SubscribeBarrier s =>
    simp only [step] at h
    split at h <;> try cases h
    rename_i hpc
    split at h <;> cases h
    exact .subscribes hpc ‹_›
  | Complete s =>
    simp only [step] at h
    split at h <;> cases h
    exact .completes ‹_›
  | Notify s =>
    simp only [step] at h
    split at h <;> try cases h
    obtain ⟨r, hr, hw⟩ := Option.map_eq_some_iff.mp h
    cases hw
    exact .waits ‹_› hr
  | Recv =>
    simp only [step] at h
    split at h <;> try cases h
    obtain ⟨r, hr, hw⟩ := Option.map_eq_some_iff.mp h
    cases hw
    exact .waits ‹_› hr
  | Timeout =>
    simp only [step] at h
    split at h <;> try cases h
    obtain ⟨r, hr, hw⟩ := Option.map_eq_some_iff.mp h
    cases hw
    exact .waits ‹_› hr

/-- A message goes out only with a notice at a barrier. -/
theorem step_notice {wf wf' : Workflow} {state : WorkloadState}
    {stages : Option (List StageConfig)} {we : WorkEvent} {notice : Option LiveStats}
    (h : wf.step state stages we = some (wf', notice)) :
    notice = none ∧ (∀ s, we ≠ .Notify s) ∨ ∃ s i stage summary w, we = .Notify s ∧
      wf.pc = .AtBarrier i stage summary w ∧ w.phase = .Notifying ∧
      notice = some (barrierStats wf.agent_id w summary s) ∧
      wf' = { wf with pc := .AtBarrier i stage summary { w with phase := .Listening } } := by
  cases we with
  | Notify s =>
    simp only [step] at h
    split at h <;> try cases h
    rename_i i stage summary w hpc
    obtain ⟨r, hr, hw⟩ := Option.map_eq_some_iff.mp h
    unfold BarrierWait.notify at hr
    split at hr <;> cases hr
    rename_i hphase
    cases hw
    exact .inr ⟨s, i, stage, summary, w, rfl, hpc, hphase, rfl, rfl⟩
  | LoadStages | Enter | CheckAbort _ | Execute _ | MarkReady | SubscribeBarrier _ =>
    refine .inl ⟨?_, by simp⟩
    simp only [step] at h
    repeat' split at h
    all_goals cases h
    all_goals rfl
  | SubscribeAbort | Complete _ =>
    refine .inl ⟨?_, by simp⟩
    simp only [step] at h
    split at h <;> cases h
    rfl
  | Recv | Timeout =>
    refine .inl ⟨?_, by simp⟩
    simp only [step] at h
    split at h <;> try cases h
    obtain ⟨r, _, hw⟩ := Option.map_eq_some_iff.mp h
    cases hw
    rfl

end Workflow

end sai3_bench.agent
