-- The status that the controller reports of a test, from the states of its
-- trackers, and when the messages of the agents bear it out.
import Sai3Bench.AllCompleted

namespace sai3_bench.controller

open config machines pb Controller

/-! ## The status of a test -/

structure TestStatus where
  success : Bool
  total_agents : Nat
  completed : Nat
  failed : Nat
  disconnected : Nat
  aborting : Nat
  reconnect_count : Nat
  total_ops : Nat
  agent_details : List (String × ControllerAgentState × String)

/-- A key that is an address, "host:port", and no id. -/
def isAddress (id : String) : Bool := id.toList.contains ':'

/-- The trackers that have an agent's id. -/
def realAgents (agent_trackers : AList fun _ : String => AgentTracker) :
    List (String × AgentTracker) :=
  (agent_trackers.entries.filter fun e => !isAddress e.1).map fun e => (e.1, e.2)

def countIn (st : ControllerAgentState) (agents : List (String × AgentTracker)) : Nat :=
  agents.countP fun a => a.2.state = st

def check_test_status (agent_trackers : AList fun _ : String => AgentTracker)
    (agent_summaries : List WorkloadSummary) : TestStatus :=
  let real_agents := realAgents agent_trackers
  let total_agents := real_agents.length
  let completed := countIn .Completed real_agents
  let failed := countIn .Failed real_agents
  let disconnected := countIn .Disconnected real_agents
  let aborting := countIn .Aborting real_agents
  { success := decide (0 < total_agents ∧ completed = total_agents ∧ failed = 0 ∧
      disconnected = 0 ∧ aborting = 0)
    total_agents := total_agents
    completed := completed
    failed := failed
    disconnected := disconnected
    aborting := aborting
    reconnect_count := (real_agents.map (·.2.reconnect_count)).sum
    total_ops := (agent_summaries.map (·.total_ops)).sum
    agent_details :=
      (real_agents.map fun a => (a.1, a.2.state, a.2.error_message.getD a.2.state.debug)).mergeSort
        fun a b => decide (a.1 ≤ b.1) }

variable {agent_trackers : AList fun _ : String => AgentTracker}
  {agent_summaries : List WorkloadSummary}

theorem mem_realAgents {id : String} {t : AgentTracker} : (id, t) ∈ realAgents agent_trackers ↔
    agent_trackers.lookup id = some t ∧ isAddress id = false := by
  unfold realAgents
  rw [List.mem_map]
  constructor
  · rintro ⟨⟨k, v⟩, he, heq⟩
    cases heq
    obtain ⟨hmem, haddr⟩ := List.mem_filter.mp he
    exact ⟨AList.mem_lookup_iff.mpr hmem, by simpa using haddr⟩
  · rintro ⟨hlook, haddr⟩
    exact ⟨⟨id, t⟩, List.mem_filter.mpr ⟨AList.mem_lookup_iff.mp hlook, by simp [haddr]⟩, rfl⟩

/-- An agent in one state is in no other one. -/
theorem countIn_other {agents : List (String × AgentTracker)} {st st' : ControllerAgentState}
    (h : countIn st agents = agents.length) (hne : st ≠ st') : countIn st' agents = 0 := by
  unfold countIn at *
  rw [List.countP_eq_length] at h
  rw [List.countP_eq_zero]
  intro a ha ha'
  exact hne ((of_decide_eq_true (h a ha)).symm.trans (of_decide_eq_true ha'))

/-- A test succeeds when there is an agent, and all agents are Completed. -/
theorem success_iff : (check_test_status agent_trackers agent_summaries).success = true ↔
    (∃ id t, agent_trackers.lookup id = some t ∧ isAddress id = false) ∧
      ∀ id t, agent_trackers.lookup id = some t → isAddress id = false → t.state = .Completed := by
  unfold check_test_status
  dsimp only
  rw [decide_eq_true_eq, List.length_pos_iff_exists_mem]
  have hall : countIn .Completed (realAgents agent_trackers) = (realAgents agent_trackers).length ↔
      ∀ id t, agent_trackers.lookup id = some t → isAddress id = false → t.state = .Completed := by
    unfold countIn
    rw [List.countP_eq_length]
    constructor
    · intro h id t hlook haddr
      exact of_decide_eq_true (h (id, t) (mem_realAgents.mpr ⟨hlook, haddr⟩))
    · rintro h ⟨id, t⟩ ha
      obtain ⟨hlook, haddr⟩ := mem_realAgents.mp ha
      exact decide_eq_true (h id t hlook haddr)
  constructor
  · rintro ⟨⟨⟨id, t⟩, ha⟩, hc, _⟩
    exact ⟨⟨id, t, mem_realAgents.mp ha⟩, hall.mp hc⟩
  · rintro ⟨⟨id, t, ha⟩, h⟩
    have hc := hall.mpr h
    exact ⟨⟨(id, t), mem_realAgents.mpr ha⟩, hc, countIn_other hc (by decide),
      countIn_other hc (by decide), countIn_other hc (by decide)⟩

/-! ## What the agents have sent -/

def messageOf : Event → Option LiveStats
  | .Stats stats _ _ => some stats
  | _ => none

/-- The agent has sent such a message. -/
def Sent (id : String) (p : LiveStats → Bool) (es : List Event) : Prop :=
  ∃ m ∈ es.filterMap messageOf, m.agent_id = id ∧ p m = true

/-- A completed message that is neither an error nor an abort. -/
def delivers (stats : LiveStats) : Bool :=
  (stats.completed || stats.status = 4) && stats.status ≠ 3 && stats.status ≠ 5

def Delivered (id : String) (es : List Event) : Prop := Sent id delivers es

def Erred (id : String) (es : List Event) : Prop := Sent id (fun m => m.status = 3) es

def Aborted (id : String) (es : List Event) : Prop := Sent id (fun m => m.status = 5) es

/-- The agent was marked Disconnected and has sent nothing since. -/
def Lost (s : Setup) (id : String) (es : List Event) : Prop :=
  ∃ pre post c, es = pre ++ .Stalled id :: post ∧
    (controllerMachine s).run (Controller.new s) pre = some c ∧
    (c.tracker id).is_active = true ∧ ¬ Sent id (fun _ => true) post

theorem sent_snoc {id : String} {p : LiveStats → Bool} {es : List Event} {e : Event} :
    Sent id p (es ++ [e]) ↔
      Sent id p es ∨ ∃ m, messageOf e = some m ∧ m.agent_id = id ∧ p m = true := by
  unfold Sent
  rw [List.filterMap_append]
  cases h : messageOf e with
  | none => simp [h]
  | some m =>
    simp only [List.filterMap_cons, h, List.filterMap_nil, List.mem_append, List.mem_singleton]
    constructor
    · rintro ⟨x, hx | rfl, hp⟩
      · exact .inl ⟨x, hx, hp⟩
      · exact .inr ⟨x, rfl, hp⟩
    · rintro (⟨x, hx, hp⟩ | ⟨x, hx, hp⟩)
      · exact ⟨x, .inl hx, hp⟩
      · cases hx
        exact ⟨m, .inr rfl, hp⟩

/-- The messages of other agents, and what is no message, add nothing. -/
theorem sent_snoc_other {id : String} {p : LiveStats → Bool} {es : List Event} {e : Event}
    (h : ∀ m, messageOf e = some m → m.agent_id ≠ id) : Sent id p (es ++ [e]) ↔ Sent id p es := by
  rw [sent_snoc]
  constructor
  · rintro (hs | ⟨m, hm, hid, _⟩)
    · exact hs
    · exact absurd hid (h m hm)
  · exact .inl

theorem sent_snoc_self {p : LiveStats → Bool} {es : List Event} {stats : LiveStats}
    {turns : List BarrierManager.Turn} {tsv_written : Bool} :
    Sent stats.agent_id p (es ++ [.Stats stats turns tsv_written]) ↔
      Sent stats.agent_id p es ∨ p stats = true := by
  rw [sent_snoc]
  simp [messageOf]

section

variable {es : List Event} {stats : LiveStats} {turns : List BarrierManager.Turn}
  {tsv_written : Bool}

theorem delivered_snoc_self :
    Delivered stats.agent_id (es ++ [.Stats stats turns tsv_written]) ↔
      Delivered stats.agent_id es ∨ delivers stats = true := sent_snoc_self

theorem aborted_snoc_self :
    Aborted stats.agent_id (es ++ [.Stats stats turns tsv_written]) ↔
      Aborted stats.agent_id es ∨ stats.status = 5 := by
  unfold Aborted
  rw [sent_snoc_self, decide_eq_true_eq]

theorem erred_snoc_self :
    Erred stats.agent_id (es ++ [.Stats stats turns tsv_written]) ↔
      Erred stats.agent_id es ∨ stats.status = 3 := by
  unfold Erred
  rw [sent_snoc_self, decide_eq_true_eq]

end

/-! ## The reports of a run -/

/-- The controller whose trackers a status is computed of. An ERROR message is
reported before the other agents are told to abort. -/
inductive Reports (s : Setup) (c : Controller) : Event → Controller → Prop
  | fails {stats : LiveStats} {turns : List BarrierManager.Turn} {tsv_written : Bool}
      (loop : c.phase = .Loop) (error : stats.status = 3)
      (goes : c.ticked.GoesOn s stats turns tsv_written) :
      Reports s c (.Stats stats turns tsv_written)
        ((c.ticked.hear s stats tsv_written).withTracker stats.agent_id
          (·.settles stats c.ticked.clock))
  | ends {turns : List BarrierManager.Turn} {b : Controller} (finishing : c.phase = .Finishing)
      (h : (controllerMachine s).step c (.Finish turns) = some b)
      (ok : b.phase = .Exited (.ok ())) : Reports s c (.Finish turns) b

/-- The status is what the messages of the started agents say. -/
structure Truthful (s : Setup) (es : List Event) (status : TestStatus) : Prop where
  success_iff : status.success = true ↔ ∀ id ∈ s.ids, Delivered id es
  no_success : ∀ id ∈ s.ids, Erred id es ∨ Aborted id es ∨ Lost s id es ∨ ¬ Delivered id es →
    status.success = false

/-! ## What an event does to the trackers -/

variable {s : Setup} {c b d : Controller} {e : Event} {es : List Event} {id : String}

/-- The trackers after an event, in a run that goes on. -/
def moved (c : Controller) (e : Event) : AList fun _ : String => AgentTracker :=
  match c.phase, e with
  | .Startup, .Stats stats _ _ => c.trackers.insert stats.agent_id
      ((c.ticked.tracker stats.agent_id).starts stats c.ticked.clock)
  | .Loop, .Stats stats _ _ => c.trackers.insert stats.agent_id
      ((c.ticked.tracker stats.agent_id).reads stats c.ticked.clock)
  | .Loop, .Stalled agent_id => c.trackers.modify agent_id (·.stalls c.ticked.clock)
  | _, _ => c.trackers

theorem read_lookup (s : Setup) (c : Controller) (id : String) (stats : LiveStats)
    (tsv_written : Bool) :
    ((c.hear s stats tsv_written).withTracker stats.agent_id
        (·.settles stats c.clock)).trackers.lookup id =
      if id = stats.agent_id then some ((c.tracker stats.agent_id).reads stats c.clock)
      else c.trackers.lookup id := by
  have hself : (c.hear s stats tsv_written).trackers.lookup stats.agent_id = _ :=
    hear_lookup.trans (if_pos rfl)
  rw [withTracker_lookup, tracker_of_lookup hself, hear_lookup]
  by_cases h : id = stats.agent_id
  · rw [if_pos h, if_pos h]
    rfl
  · rw [if_neg h, if_neg h, if_neg h]

theorem step_moved (h : (controllerMachine s).step c e = some b) (hb : Going b) :
    b.trackers.lookup id = (moved c e).lookup id := by
  cases step_cases h with
  | answers hp | begins hp =>
    simp only [moved, hp]
    rfl
  | stalls hp =>
    simp only [moved, hp]
    rfl
  | closes hp => simp only [moved, hp]; rfl
  | fails _ => exact absurd hb not_going_exits
  | aborts _ => exact absurd hb not_going_exits
  | finishes _ => exact absurd hb not_going_exits
  | awaits _ hw =>
    obtain ⟨bm, _, ⟨rfl, _⟩ | ⟨_, _, _, msg, _, _, rfl⟩⟩ := await_cases hw <;>
      exact absurd hb not_going_exits
  | @takes stats turns tsv_written _ hp htake =>
    obtain ⟨bm, _, ⟨rfl, _⟩ | ⟨_, msg, rfl⟩⟩ := take_cases htake
    · by_cases h3 : stats.status = 3
      · rw [settle_error h3] at hb
        exact absurd hb not_going_exits
      · obtain ⟨ht, _, _⟩ := settle_regular (s := s) (c := c.ticked.waited s stats tsv_written bm) h3
        have hread := read_lookup s c.ticked id stats tsv_written
        have hclock : (c.ticked.waited s stats tsv_written bm).clock = c.ticked.clock :=
          hear_frame.1
        rw [ht, hclock]
        simp only [moved, hp]
        rw [AList.lookup_insert_if]
        exact hread
    · exact absurd hb not_going_exits

theorem reports_moved (h : Reports s c e d) :
    d.trackers.lookup id = (moved c e).lookup id := by
  cases h with
  | fails hp _ _ =>
    simp only [moved, hp]
    rw [AList.lookup_insert_if]
    exact read_lookup ..
  | ends hp h hok =>
    simp only [moved, hp]
    simp only [controllerMachine, step, hp] at h
    split at h
    · cases h
      rfl
    · obtain ⟨bm, _, ⟨rfl, _⟩ | ⟨_, _, _, msg, _, _, rfl⟩⟩ := await_cases h
      · rfl
      · cases hok

/-! ## When a message is borne out by its tracker -/

/-- Where a message of the loop finds the tracker of its agent. -/
def arrived (c : Controller) (stats : LiveStats) : ControllerAgentState :=
  AgentTracker.arrives (c.tracker stats.agent_id).state (WorkloadStage.of stats.current_stage)
    stats.completed

/-- A message of the loop: an error is not of a Completed agent, an abort does
not make one, and a completed message does, unless the agent has aborted. -/
def ReadTruly (es : List Event) (c : Controller) (stats : LiveStats) : Prop :=
  (stats.status = 3 → arrived c stats ≠ .Completed) ∧
  (stats.status = 5 → ControllerAgentState.can_transition (arrived c stats) .Completed = false) ∧
  (delivers stats = true →
    ControllerAgentState.can_transition (arrived c stats) .Completed = true ∧
      ¬ Aborted stats.agent_id es)

/-- A message of the startup: it is of a started agent that has not completed,
and an error or an abort does not come after an answer. -/
def AnsweredTruly (s : Setup) (c : Controller) (stats : LiveStats) : Prop :=
  stats.agent_id ∈ s.ids ∧ delivers stats = false ∧
    (stats.status = 3 ∨ stats.status = 5 → (c.tracker stats.agent_id).state ≠ .Ready)

def BorneOut (s : Setup) (es : List Event) (c : Controller) (e : Event) : Prop :=
  ∀ stats, messageOf e = some stats →
    (c.phase = .Startup → AnsweredTruly s c stats) ∧
    (c.phase = .Loop → (isAddress stats.agent_id = true ∨ stats.agent_id ∈ s.ids) ∧
      (stats.agent_id ∈ s.ids → ReadTruly es c stats))

/-- No id is an address, and an address that is no id looks like one. -/
structure Setup.Named (s : Setup) : Prop where
  some_agent : s.ids ≠ []
  ids : ∀ id ∈ s.ids, isAddress id = false
  addresses : ∀ addr ∈ s.agent_addrs, isAddress addr = true ∨ addr ∈ s.ids

namespace AgentTracker

variable {t : AgentTracker} {stats : LiveStats} {now : Nat}

theorem arrives_completed_iff {st : ControllerAgentState} {stage : WorkloadStage}
    {completed : Bool} : arrives st stage completed = .Completed ↔
      st = .Completed ∨ st = .Disconnected ∧ completed = true := by
  cases st <;> cases stage <;> cases completed <;> decide

/-- When a message leaves the tracker Completed. -/
theorem reads_completed_iff : (t.reads stats now).state = .Completed ↔
    if delivers stats = true ∨ stats.status = 5 then
      ControllerAgentState.can_transition
        (arrives t.state (WorkloadStage.of stats.current_stage) stats.completed) .Completed = true
    else arrives t.state (WorkloadStage.of stats.current_stage) stats.completed = .Completed := by
  have hgo : ∀ st : ControllerAgentState,
      (if ControllerAgentState.can_transition st .Completed = true then
        ControllerAgentState.Completed else st) = .Completed ↔
        ControllerAgentState.can_transition st .Completed = true := by
    intro st
    cases st <;> decide
  have hfail : ∀ st : ControllerAgentState,
      (if ControllerAgentState.can_transition st .Failed = true then
        ControllerAgentState.Failed else st) = .Completed ↔ st = .Completed := by
    intro st
    cases st <;> decide
  unfold reads settles
  rw [← @follows_state t stats now]
  generalize ((t.hears stats now).recovers stats now).follows stats now = u
  by_cases h3 : stats.status = 3
  · simp [h3, delivers, moves_state, hfail]
  · by_cases h5 : stats.status = 5
    · simp [h5, moves_state, hgo]
    · by_cases hc : stats.completed = true
      · simp [h3, h5, hc, delivers, moves_state, hgo]
      · by_cases h4 : stats.status = 4
        · simp [h4, hc, delivers, moves_state, hgo]
        · simp [h3, h4, h5, hc, delivers]

/-- An answer of the startup. -/
theorem starts_state (h : t.state = .Connecting ∨ t.state = .Ready ∨ t.state = .Failed) :
    (t.starts stats now).state =
      if t.state = .Connecting then
        if stats.status = 3 ∨ stats.status = 5 then .Failed else .Ready
      else t.state := by
  unfold starts touch
  rcases h with h | h | h
  all_goals
    simp only [h]
    split <;> simp_all [moves_state, ControllerAgentState.can_transition, is_terminal]

end AgentTracker

end sai3_bench.controller
