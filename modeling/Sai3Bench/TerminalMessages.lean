-- The last message of an agent: completed, or an error. When its tracker
-- follows, and when the guard on its states refuses.
import Sai3Bench.ControllerSteps

namespace sai3_bench.controller

open config machines pb Controller

/-! ## Where a last message takes a tracker -/

/-- Where the last message of an agent should take its tracker. -/
def endOf (stats : LiveStats) : ControllerAgentState :=
  if stats.status = 3 then .Failed else .Completed

/-- A tracker in this state follows the last message. -/
def accepts (st : ControllerAgentState) (stats : LiveStats) : Bool :=
  let stage := WorkloadStage.of stats.current_stage
  if stats.status = 3 then match st with
    | .Validating | .Preparing | .Running | .Cleaning | .Aborting => true
    | .Ready => stage = .StagePrepare || stage = .StageWorkload
    -- the recovery has made a completed agent of it
    | .Disconnected => !stats.completed
    | _ => false
  else match st with
    | .Running | .Cleaning | .Aborting | .Disconnected => true
    | .Ready | .Preparing => stage = .StageWorkload
    | _ => false

namespace AgentTracker

variable {t : AgentTracker} {stats : LiveStats} {now : Nat}

theorem settles_error (h : stats.status = 3) : (t.settles stats now).state =
    if ControllerAgentState.can_transition t.state .Failed then .Failed else t.state := by
  unfold settles
  rw [if_pos h, moves_state]

theorem settles_completed (h3 : stats.status ≠ 3) (hc : stats.completed = true) :
    (t.settles stats now).state =
      if ControllerAgentState.can_transition t.state .Completed then .Completed else t.state := by
  unfold settles
  rw [if_neg h3]
  by_cases h5 : stats.status = 5
  · rw [if_pos h5, moves_state]
  · simp [h5, hc, moves_state]

/-- Where a message finds the tracker decides whether the guard lets it through. -/
theorem reads_end_iff (hend : stats.completed = true ∨ stats.status = 3)
    (ht : t.is_terminal = false) :
    (t.reads stats now).state = endOf stats ↔ accepts t.state stats = true := by
  have hst : t.state ≠ .Completed ∧ t.state ≠ .Failed := by
    simpa [is_terminal] using ht
  unfold reads endOf accepts
  by_cases h3 : stats.status = 3
  · rw [settles_error h3, follows_state, if_pos h3, if_pos h3]
    generalize t.state = st at hst ⊢
    generalize WorkloadStage.of stats.current_stage = stage
    generalize stats.completed = completed
    revert hst
    cases st <;> cases stage <;> cases completed <;> decide
  · have hc : stats.completed = true := hend.resolve_right h3
    rw [settles_completed h3 hc, follows_state, hc, if_neg h3, if_neg h3]
    generalize t.state = st at hst ⊢
    generalize WorkloadStage.of stats.current_stage = stage
    revert hst
    cases st <;> cases stage <;> decide

/-- The guard lets nothing out of an end. -/
theorem moves_end {st : ControllerAgentState} (hst : st = .Completed ∨ st = .Failed)
    (ht : t.state = st) (new_state : ControllerAgentState) (reason : String) :
    (t.moves new_state reason now).state = st := by
  rw [moves_state, ht]
  rcases hst with rfl | rfl <;> cases new_state <;> rfl

/-- A tracker that has come to an end stays there. -/
theorem kept_end {st : ControllerAgentState} (hst : st = .Completed ∨ st = .Failed) :
    Kept (·.state = st) where
  starts t stats now ht := by
    have hne : t.state ≠ .Connecting := by
      rw [ht]
      rcases hst with rfl | rfl <;> simp
    have hend : t.is_terminal = true := by
      unfold is_terminal
      rw [ht]
      rcases hst with rfl | rfl <;> simp
    unfold starts touch
    simp only [if_neg hne]
    split
    · exact moves_end hst ht _ _
    · exact moves_end (t := { t with error_message := some stats.error_message }) hst ht _ _
    · exact moves_end (t := { t with error_message := some "Agent aborted during startup" })
        hst ht _ _
    · simp [hend, ht]
  follows t stats now ht := by
    rw [follows_state, ht]
    rcases hst with rfl | rfl <;> cases WorkloadStage.of stats.current_stage <;>
      cases stats.completed <;> rfl
  settles t stats now ht := by
    unfold settles
    split
    · exact moves_end (t := { t with error_message := some (errorOf stats) }) hst ht _ _
    · split
      · exact moves_end hst ht _ _
      · split
        · exact moves_end hst ht _ _
        · split
          · exact moves_end hst ht _ _
          · exact ht
  aborts t now ht := (aborts_state_iff hst).mpr ht
  stalls t now ht := by
    unfold stalls is_terminal
    rcases hst with rfl | rfl <;> simp [ht]

end AgentTracker

/-! ## The last message in a run -/

/-- The loop reads the last message of an agent that had not come to its end. -/
def LastMessage (s : Setup) (c : Controller) (e : Event) (stats : LiveStats) : Prop :=
  ∃ turns tsv_written, c.phase = .Loop ∧ e = .Stats stats turns tsv_written ∧
    (stats.completed = true ∨ stats.status = 3) ∧
    (c.tracker stats.agent_id).is_terminal = false ∧ c.ticked.GoesOn s stats turns tsv_written

/-- Once the message is read, the tracker is where it should be, for good. -/
def FollowsLast (s : Setup) (c : Controller) (e : Event) : Prop :=
  ∀ stats, LastMessage s c e stats → ∀ fs b, (controllerMachine s).run c (e :: fs) = some b →
    (b.tracker stats.agent_id).state = endOf stats

def LastAccepted (s : Setup) (c : Controller) (e : Event) : Prop :=
  ∀ stats, LastMessage s c e stats → accepts (c.tracker stats.agent_id).state stats = true

variable {s : Setup} {c b : Controller} {e : Event} {stats : LiveStats}

theorem endOf_end : endOf stats = .Completed ∨ endOf stats = .Failed := by
  unfold endOf
  split
  · exact .inr rfl
  · exact .inl rfl

/-- A state that is an end is that of a tracker, not of a new one. -/
theorem tracks_of_end {st : ControllerAgentState} (hst : st = .Completed ∨ st = .Failed)
    {id : String} : (c.tracker id).state = st ↔ c.Tracks (·.state = st) id := by
  constructor
  · intro h
    cases hlook : c.trackers.lookup id with
    | some t => exact ⟨t, hlook, by rw [← h, tracker_of_lookup hlook]⟩
    | none =>
      have hnew : c.tracker id = AgentTracker.new id c.clock := by
        unfold tracker
        rw [hlook]
        rfl
      rw [hnew] at h
      rcases hst with rfl | rfl <;> cases h
  · rintro ⟨t, hlook, ht⟩
    rw [tracker_of_lookup hlook, ht]

/-- One message: the tracker follows it for good exactly when the guard lets it through. -/
theorem follows_last_iff (h : (controllerMachine s).step c e = some b) :
    FollowsLast s c e ↔ LastAccepted s c e := by
  have hread : ∀ stats, LastMessage s c e stats →
      ((b.tracker stats.agent_id).state = endOf stats ↔
        accepts (c.tracker stats.agent_id).state stats = true) := by
    rintro stats ⟨turns, tsv_written, hp, rfl, hend, ht, hg⟩
    have htake : c.ticked.take s stats turns tsv_written = some b := by
      simpa only [controllerMachine, step, hp] using h
    have ht' : (c.ticked.tracker stats.agent_id).is_terminal = false := by
      simpa [AgentTracker.is_terminal, ticked_tracker] using ht
    rw [take_tracker hg htake endOf_end, AgentTracker.reads_end_iff hend ht', ticked_tracker]
  constructor
  · intro hf stats hm
    exact (hread stats hm).mp (hf stats hm [] b (Machine.run_cons_iff.mpr ⟨b, h, rfl⟩))
  · intro ha stats hm fs d hrun
    obtain ⟨b', hb', hd⟩ := Machine.run_cons_iff.mp hrun
    rw [h] at hb'
    cases hb'
    have hb := (tracks_of_end endOf_end).mp ((hread stats hm).mpr (ha stats hm))
    exact (tracks_of_end endOf_end).mpr (run_tracks (AgentTracker.kept_end endOf_end) hb hd)

/-- In a run, the trackers follow all last messages, and stay there, exactly
when each of them finds its tracker in a state that the guard lets it out of. -/
theorem the_trackers_follow_iff {s : Setup} {es : List Event} {c : Controller}
    (hrun : (controllerMachine s).run (Controller.new s) es = some c) :
    (controllerMachine s).Along (FollowsLast s) (Controller.new s) es ↔
      (controllerMachine s).Along (LastAccepted s) (Controller.new s) es :=
  Machine.along_congr (I := fun _ => True) (fun _ _ _ _ _ => trivial)
    (fun _ _ _ _ h => follows_last_iff h) trivial hrun

/-! ## Two runs of one agent -/

def oneAgent : Setup := ⟨["host:7761"], ["agent-1"], none, rfl⟩

def readyMessage (agent_id : String) : LiveStats := { agent_id := agent_id, status := 1 }

/-- An agent is done, with a message of this stage. -/
def doneMessage (agent_id : String) (current_stage : Int) : LiveStats :=
  { agent_id := agent_id, status := 4, completed := true, current_stage := current_stage }

def readyThenDone (current_stage : Int) : List Event :=
  [.Stats (readyMessage "agent-1") [] true, .Stats (doneMessage "agent-1" current_stage) [] true]

/-- The condition on one event, to be evaluated. -/
def lastAccepted (c : Controller) : Event → Bool
  | .Stats stats _ _ =>
    accepts (c.tracker stats.agent_id).state stats || !(stats.completed || stats.status = 3)
  | _ => true

theorem lastAccepted_holds (s : Setup) (c : Controller) (e : Event)
    (h : lastAccepted c e = true) : LastAccepted s c e := by
  rintro stats ⟨turns, tsv_written, _, rfl, hend, _⟩
  rcases hend with hend | hend <;> simpa [lastAccepted, hend] using h

theorem an_agent_that_ends_its_workload_is_followed :
    (controllerMachine oneAgent).Along (FollowsLast oneAgent) (Controller.new oneAgent)
      (readyThenDone 2) := by
  have hrun : ∃ c, (controllerMachine oneAgent).run (Controller.new oneAgent)
      (readyThenDone 2) = some c := ⟨_, rfl⟩
  obtain ⟨c, hc⟩ := hrun
  exact (the_trackers_follow_iff hc).mpr
    (Machine.along_of_check (lastAccepted_holds oneAgent) (by decide))

/-- An agent whose only stage is a custom one stays Ready when it is done. -/
theorem an_agent_that_ends_a_custom_stage_stays_ready :
    ∃ c, (controllerMachine oneAgent).run (Controller.new oneAgent) (readyThenDone 10) = some c ∧
      (c.tracker "agent-1").state = .Ready ∧
      ¬ (controllerMachine oneAgent).Along (FollowsLast oneAgent) (Controller.new oneAgent)
        (readyThenDone 10) := by
  have hrun : ∃ c b, (controllerMachine oneAgent).run (Controller.new oneAgent)
        [.Stats (readyMessage "agent-1") [] true] = some c ∧
      (controllerMachine oneAgent).step c (.Stats (doneMessage "agent-1" 10) [] true) = some b ∧
      (b.tracker "agent-1").state = .Ready ∧ c.phase = .Loop ∧ c.last_stage = .StageUnknown ∧
      (c.tracker "agent-1").is_terminal = false := ⟨_, _, rfl, rfl, rfl, rfl, rfl, rfl⟩
  obtain ⟨c, b, hc, hb, hready, hp, hls, ht⟩ := hrun
  have hb' : (controllerMachine oneAgent).run (Controller.new oneAgent) (readyThenDone 10) = some b :=
    Machine.run_snoc_iff.mpr ⟨c, hc, hb⟩
  refine ⟨b, hb', hready, fun hA => ?_⟩
  have hf : FollowsLast oneAgent c _ := ((Machine.along_snoc hc).mp hA).2
  have hlast := hf _ ⟨[], true, hp, rfl, .inl rfl, ht, fun hturns => by
    have := hturns.1
    rw [show c.ticked.last_stage = c.last_stage from rfl, hls] at this
    cases this⟩ [] b (Machine.run_cons_iff.mpr ⟨b, hb, rfl⟩)
  cases hready.symm.trans hlast

end sai3_bench.controller
