-- A distributed run: the controller, the task that it has for each agent, and
-- the agents with all that their processes do. A call is one ExecuteWorkload
-- of an agent, and a run has one call at each of its agents.
import Sai3Bench.AgentMessages
import Sai3Bench.ControllerManagers

namespace sai3_bench.distributed

open agent config controller machines pb

/-! ## An agent and its call -/

/-- The controller's task for an agent: it forwards the first messages, up to
READY or an ERROR, and then every message, until it ends. -/
inductive TaskPhase
  | Startup
  | Streaming
  | Ended

/-- An agent, and the call of this run at it. `stream` is the number of the
call in the agent's process, and `taken` is what the controller's task has
taken off its stream. `ran` records the stages that workloads of the call have
run; nothing reads it. -/
structure Peer where
  agent : Agent
  stream : Nat
  ran : List Nat := []
  task : TaskPhase := .Startup
  taken : List LiveStats := []

/-- The message of a task whose stream has failed. -/
def streamErrorStats (agent_id e : String) : LiveStats :=
  { agent_id := agent_id, completed := true, status := 3
    error_message := s!"Agent workload failed: Stream error: {e}" }

namespace Peer

def sent (p : Peer) : List LiveStats := (p.agent.streams[p.stream]?.map (·.sent)).getD []

/-- The stage that a step of the agent has run for this call. -/
def runs (p : Peer) : agent.Event → Option Nat
  | .Work w (.Execute (.ok ())) => p.agent.workflows[w]?.bind fun wf => match wf.pc with
    | .Executing i => if wf.stream = p.stream then some i else none
    | _ => none
  | _ => none

def step (p : Peer) (e : agent.Event) : Option Peer :=
  (agentMachine.step p.agent e).map fun b =>
    { p with agent := b, ran := p.ran ++ (p.runs e).toList }

/-- The task takes the next message. The second component is what it forwards. -/
def forward (p : Peer) : Option (Peer × Option LiveStats) :=
  match p.sent[p.taken.length]? with
  | none => none
  | some m =>
    let q := { p with taken := p.taken ++ [m] }
    match p.task with
    | .Startup =>
      if m.status = 1 then some ({ q with task := .Streaming }, some m)
      else if m.status = 3 then some ({ q with task := .Ended }, none)
      else some (q, some m)
    | .Streaming => some (q, some m)
    | .Ended => none

def ends (p : Peer) : Peer := { p with task := .Ended }

end Peer

/-! ## The whole run -/

/-- `rx_stats` has the messages that are forwarded and not read yet. -/
structure System where
  controller : Controller
  peers : List Peer
  rx_stats : List LiveStats := []

/-- A step of agent `i`, of the task for it, or of the controller. Whoever
sends an agent its commands, they are steps of the agent. -/
inductive SystemEvent
  | Agent (i : Nat) (e : agent.Event)
  | Forward (i : Nat)
  | TaskEnds (i : Nat)
  | StreamError (i : Nat) (e : String)
  | Read (turns : List BarrierManager.Turn) (tsv_written : Bool)
  | Control (e : controller.Event)

namespace System

def step (s : Setup) (x : System) : SystemEvent → Option System
  | .Agent i e => x.peers[i]?.bind fun p =>
    (p.step e).map fun q => { x with peers := x.peers.set i q }
  | .Forward i => x.peers[i]?.bind fun p => p.forward.map fun (q, m) =>
    { x with peers := x.peers.set i q, rx_stats := x.rx_stats ++ m.toList }
  | .TaskEnds i => x.peers[i]?.map fun p => { x with peers := x.peers.set i p.ends }
  | .StreamError i e => x.peers[i]?.bind fun p => match p.task with
    | .Streaming => s.ids[i]?.map fun id =>
      { x with peers := x.peers.set i p.ends, rx_stats := x.rx_stats ++ [streamErrorStats id e] }
    | _ => none
  | .Read turns tsv_written => match x.rx_stats with
    | [] => none
    | m :: rest => ((controllerMachine s).step x.controller (.Stats m turns tsv_written)).map
      fun c => { x with controller := c, rx_stats := rest }
  | .Control e => match e with
    | .Stats _ _ _ => none
    | e => ((controllerMachine s).step x.controller e).map fun c => { x with controller := c }

/-- A run begins with agent processes right after their start: what they have
done before the run is the first steps of it. `stream` says which call of each
agent is the one of this run. -/
def new (s : Setup) (op_log_path : Nat → Option String) (stream : Nat → Nat) : System :=
  { controller := Controller.new s
    peers := (List.range s.ids.length).map fun i =>
      { agent := Agent.new (op_log_path i), stream := stream i } }

end System

def systemMachine (s : Setup) : Machine System SystemEvent := ⟨System.step s⟩

/-! ## What a peer keeps -/

/-- The agent has run the stage of barrier `k` in this call. -/
def Peer.Finished (p : Peer) (k : Nat) : Prop := ∃ i ∈ p.ran, barrier_index_of (i + 1) = k

/-- The task has taken a report at barrier `k` under this id. -/
def Peer.Reported (p : Peer) (k : Nat) (id : String) : Prop :=
  ∃ m ∈ p.taken, m.at_barrier = true ∧ m.barrier_sequence = k ∧ m.agent_id = id

/-- A workflow that is past the run of a stage, and not in the next one yet. -/
def Behind (ran : List Nat) (wf : Workflow) : Prop :=
  match wf.pc with
  | .Executed i | .Ready i => i ∈ ran
  | .AtBarrier i _ _ w => i ∈ ran ∧ w.barrier_index = barrier_index_of (i + 1)
  | _ => True

/-- Whatever says that the agent is at a barrier, the stage has run. -/
structure Peer.Sound (p : Peer) : Prop where
  quiet : ∀ s, p.agent.streams[p.stream]? = some s → s.Quiet
  ready : ∀ s, p.agent.streams[p.stream]? = some s → SaysReady s.writer → p.Finished 0
  workflows : ∀ wf ∈ p.agent.workflows, wf.stream = p.stream → Behind p.ran wf
  sent : ∀ m ∈ p.sent, m.at_barrier = true → p.Finished m.barrier_sequence
  taken : ∀ m ∈ p.taken, m.at_barrier = true → p.Finished m.barrier_sequence

section

variable {p q : Peer} {e : agent.Event} {k : Nat} {id : String} {ran : List Nat} {wf wf' : Workflow}

theorem Peer.Finished.mono (h : p.Finished k) (hsub : p.ran ⊆ q.ran) : q.Finished k := by
  obtain ⟨i, hi, hk⟩ := h
  exact ⟨i, hsub hi, hk⟩

theorem Behind.mono (h : Behind ran wf) {more : List Nat} (hsub : ran ⊆ more) : Behind more wf := by
  unfold Behind at h ⊢
  cases hpc : wf.pc <;> simp only [hpc] at h ⊢
  case Executed i => exact hsub h
  case Ready i => exact hsub h
  case AtBarrier i stage summary w => exact ⟨hsub h.1, h.2⟩

/-- A workflow that waits at its barrier has run the stage. -/
theorem Behind.finished (h : Behind p.ran wf) (hat : wf.standsAt = some k) : p.Finished k := by
  unfold Behind at h
  unfold Workflow.standsAt at hat
  split at hat <;> cases hat
  rename_i i stage summary w hpc
  rw [hpc] at h
  exact ⟨i, h.1, h.2.symm⟩

theorem waitStep_index {w w' : BarrierWait} {we : WorkEvent}
    (h : Workflow.waitStep w we = some (.Waiting w')) : w'.barrier_index = w.barrier_index := by
  cases we with
  | Notify s => exact (BarrierWait.notify_goesOn h).same
  | Recv => exact (BarrierWait.recv_goesOn h).same
  | Timeout => exact (BarrierWait.timeout_goesOn h).same
  | _ => cases h

/-- One step of a workflow. Only the step that runs a stage needs a new record. -/
theorem Behind.steps {state stages we} (h : Behind ran wf) (hs : wf.Steps state stages we wf')
    (hran : ∀ i, wf.pc = .Executing i → we = .Execute (.ok ()) → i ∈ ran) : Behind ran wf' := by
  cases hs with
  | subscribesAbort hpc =>
    unfold Behind
    dsimp only
    split <;> first | trivial | (rename_i hno; split at hno <;> cases hno)
  | executes hpc => exact hran _ hpc rfl
  | readies hpc _ _ =>
    unfold Behind at h
    rw [hpc] at h
    exact h
  | subscribes hpc _ =>
    unfold Behind at h
    rw [hpc] at h
    exact ⟨h, rfl⟩
  | @waits i stage summary w we r hpc hw =>
    unfold Behind at h
    rw [hpc] at h
    cases r with
    | Waiting w' => exact ⟨h.1, (waitStep_index hw).trans h.2⟩
    | Released =>
      unfold Workflow.afterWait Workflow.afterStage Behind
      dsimp only
      split <;> first | trivial | (rename_i hno; split at hno <;> cases hno)
    | NotReleased => trivial
  | _ => trivial

theorem steps_stream {state stages we} (hs : wf.Steps state stages we wf') :
    wf'.stream = wf.stream := by
  cases hs with
  | @waits i stage summary w we r _ _ => cases r <;> rfl
  | _ => rfl

/-- A change of a workflow keeps its call, and whether it is behind its stage. -/
theorem Behind.change {w : Nat} (hc : p.agent.Change e w wf wf')
    (hw : p.agent.workflows[w]? = some wf) :
    wf'.stream = wf.stream ∧ (wf.stream = p.stream → Behind p.ran wf →
      Behind (p.ran ++ (p.runs e).toList) wf') := by
  have hsub : p.ran ⊆ p.ran ++ (p.runs e).toList := List.subset_append_left _ _
  cases hc with
  | same _ => exact ⟨rfl, fun _ h => h.mono hsub⟩
  | abort _ => exact ⟨rfl, fun _ h => show Behind _ wf.hearAbort from Behind.mono h hsub⟩
  | release k _ =>
    unfold Workflow.hear
    split
    · rename_i i stage summary bw hpc
      refine ⟨rfl, fun _ h => ?_⟩
      unfold Behind at h
      rw [hpc] at h
      exact ⟨hsub h.1, h.2⟩
    · exact ⟨rfl, fun _ h => h.mono hsub⟩
  | spawn id _ =>
    unfold Workflow.spawn
    split
    · exact ⟨rfl, fun _ _ => trivial⟩
    · exact ⟨rfl, fun _ h => h.mono hsub⟩
  | step he hs =>
    subst he
    have hsteps := Workflow.step_cases hs
    refine ⟨steps_stream hsteps, fun hcall h => (h.mono hsub).steps hsteps ?_⟩
    rintro i hpc rfl
    have hruns : p.runs (.Work w (.Execute (.ok ()))) = some i := by
      simp [Peer.runs, hw, hpc, hcall]
    simp [hruns]
  | done _ _ => exact ⟨rfl, fun _ _ => trivial⟩

/-- A step of the agent keeps the peer sound, unless the stats writer takes
the state of the agent for that of its own call. -/
theorem Peer.Sound.step (h : p.Sound) (hs : p.step e = some q)
    (hown : p.agent.findsReady p.stream e = true → p.Finished 0) : q.Sound := by
  obtain ⟨b, hb, rfl⟩ := Option.map_eq_some_iff.mp hs
  have hsub : p.ran ⊆ p.ran ++ (p.runs e).toList := List.subset_append_left _ _
  have hkeep : ∀ {k}, p.Finished k →
      Peer.Finished { p with agent := b, ran := p.ran ++ (p.runs e).toList } k :=
    fun hk => hk.mono hsub
  -- what becomes of the stream of the call
  have hstream : ∀ s', b.streams[p.stream]? = some s' → s' = {} ∨
      ∃ s, p.agent.streams[p.stream]? = some s ∧ StreamSteps p.agent e p.stream s s' :=
    fun s' hs' => (step_stream hb hs').imp_left And.right
  refine ⟨fun s' hs' => ?_, fun s' hs' hsaid => ?_, fun wf' hmem hcall => ?_, fun m hm hbar => ?_,
    fun m hm hbar => hkeep (h.taken m hm hbar)⟩
  · rcases hstream s' hs' with rfl | ⟨s, hs, hstep⟩
    · exact ⟨by simp, by simp [scriptOf]⟩
    · exact hstep.quiet (h.quiet s hs)
  · rcases hstream s' hs' with rfl | ⟨s, hs, hstep⟩
    · simp [SaysReady] at hsaid
    · rcases hstep.ready hsaid with hold | hfinds
      · exact hkeep (h.ready s hs hold)
      · exact hkeep (hown hfinds)
  · obtain ⟨w, hw⟩ := List.mem_iff_getElem?.mp hmem
    rcases Agent.step_workflow_back hb hw with ⟨wf, hwf, hc⟩ | ⟨_, hpc⟩
    · obtain ⟨hsame, hbehind⟩ := Behind.change hc hwf
      have hcall' : wf.stream = p.stream := hsame.symm.trans hcall
      exact hbehind hcall' (h.workflows wf (List.mem_of_getElem? hwf) hcall')
    · unfold Behind
      rw [hpc]
      trivial
  · unfold Peer.sent at hm
    cases hs' : b.streams[p.stream]? with
    | none => simp [hs'] at hm
    | some s' =>
      rw [hs'] at hm
      rcases hstream s' hs' with rfl | ⟨s, hs, hstep⟩
      · cases hm
      · rcases hstep.sent m hm hbar with hold | ⟨hsaid, hzero⟩ | hloud | ⟨wf, hwf, hcall, hat⟩
        · refine hkeep (h.sent m ?_ hbar)
          simpa [Peer.sent, hs] using hold
        · rw [hzero]
          exact hkeep (h.ready s hs hsaid)
        · exact absurd (h.quiet s hs) hloud
        · exact hkeep ((h.workflows wf hwf hcall).finished hat)

/-- The task takes the next message that was sent. -/
theorem forward_cases {m : Option LiveStats} (h : p.forward = some (q, m)) :
    ∃ stats, p.sent[p.taken.length]? = some stats ∧ q.taken = p.taken ++ [stats] ∧
      (m = none ∨ m = some stats) ∧ q.agent = p.agent ∧ q.stream = p.stream ∧ q.ran = p.ran := by
  unfold Peer.forward at h
  split at h
  · cases h
  · rename_i stats hnext
    dsimp only at h
    split at h
    · split at h
      · cases h
        exact ⟨stats, hnext, rfl, .inr rfl, rfl, rfl, rfl⟩
      · split at h <;> cases h
        · exact ⟨stats, hnext, rfl, .inl rfl, rfl, rfl, rfl⟩
        · exact ⟨stats, hnext, rfl, .inr rfl, rfl, rfl, rfl⟩
    · cases h
      exact ⟨stats, hnext, rfl, .inr rfl, rfl, rfl, rfl⟩
    · cases h

/-- The peer after a task has taken a message, or has ended. -/
theorem Peer.Sound.takes (h : p.Sound) (hagent : q.agent = p.agent) (hstream : q.stream = p.stream)
    (hran : q.ran = p.ran) (htaken : ∀ m ∈ q.taken, m ∈ p.taken ∨ m ∈ p.sent) : q.Sound := by
  have hsame : ∀ {k}, p.Finished k → q.Finished k := fun hk => hk.mono (hran ▸ List.Subset.refl _)
  have hsent : q.sent = p.sent := by
    unfold Peer.sent
    rw [hagent, hstream]
  refine ⟨?_, ?_, ?_, ?_, ?_⟩
  · rw [hagent, hstream]
    exact h.quiet
  · rw [hagent, hstream]
    exact fun s hs hsaid => hsame (h.ready s hs hsaid)
  · rw [hagent, hstream, hran]
    exact h.workflows
  · rw [hsent]
    exact fun m hm hbar => hsame (h.sent m hm hbar)
  · intro m hm hbar
    rcases htaken m hm with hold | hnew
    · exact hsame (h.taken m hold hbar)
    · exact hsame (h.sent m hnew hbar)

theorem Peer.Sound.forward {m : Option LiveStats} (h : p.Sound) (hf : p.forward = some (q, m)) :
    q.Sound := by
  obtain ⟨stats, hnext, htaken, _, hagent, hstream, hran⟩ := forward_cases hf
  apply h.takes hagent hstream hran
  intro x hx
  rw [htaken, List.mem_append, List.mem_singleton] at hx
  rcases hx with hold | rfl
  · exact .inl hold
  · exact .inr (List.mem_of_getElem? hnext)

theorem Peer.Sound.ends (h : p.Sound) : p.ends.Sound :=
  h.takes rfl rfl rfl fun _ hm => .inl hm

theorem Peer.Sound.new (path : Option String) (stream : Nat) :
    Peer.Sound { agent := Agent.new path, stream := stream } := by
  have hnone : (Agent.new path).streams[stream]? = none := rfl
  refine ⟨?_, ?_, ?_, ?_, ?_⟩
  · intro s hs
    rw [hnone] at hs
    cases hs
  · intro s hs
    rw [hnone] at hs
    cases hs
  · intro wf hwf
    cases hwf
  · intro m hm
    simp [Peer.sent, hnone] at hm
  · intro m hm
    cases hm

end

end sai3_bench.distributed
