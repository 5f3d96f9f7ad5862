-- What one event can do to each part of the controller. The laws of the
-- controller rest on these lemmas, not on the loop.
import Sai3Bench.Controllers
import Sai3Bench.PhaseBarriers

namespace sai3_bench.controller

open config machines pb

/-- The run goes on. -/
def Going (c : Controller) : Prop := ∀ outcome, c.phase ≠ .Exited outcome

/-! ## A wait at the barrier of a phase -/

namespace BarrierManager

variable {bm b : BarrierManager} {client_pool : List String} {l : Liveness}

theorem lateAgents_barriers (ids : List String) :
    (lateAgents l bm ids).1.barrier_agents = bm.barrier_agents := by
  induction ids generalizing bm with
  | nil => rfl
  | cons id ids ih =>
    unfold lateAgents
    split
    · exact ih
    · exact ih.trans (bm.missed_frame id).1

theorem queried_barriers {id : String} :
    (queried client_pool l bm id).barrier_agents = bm.barrier_agents := by
  unfold queried
  split
  · exact process_heartbeat_barriers _
  · rfl
  · rfl

theorem check_liveness_barriers :
    (bm.check_liveness client_pool l).barrier_agents = bm.barrier_agents := by
  have hfold : ∀ (ids : List String) (b : BarrierManager),
      (ids.foldl (queried client_pool l) b).barrier_agents = b.barrier_agents := by
    intro ids
    induction ids with
    | nil => exact fun _ => rfl
    | cons id ids ih => exact fun b => (ih _).trans queried_barriers
  exact (hfold _ _).trans (lateAgents_barriers _)

theorem check_liveness_agents :
    (bm.check_liveness client_pool l).agents.keySet = bm.agents.keySet := by
  obtain ⟨es, hes⟩ := check_liveness_run bm client_pool l
  exact (run_frame hes).1

/-- A wait keeps the agents, and one that ends well keeps the numbered barriers. -/
theorem wait_frame {phase : String} {turns : List Turn} {r : Except String BarrierStatus}
    (h : bm.wait_for_barrier phase client_pool turns = some (b, r)) :
    b.agents.keySet = bm.agents.keySet ∧
      ∀ st, r = .ok st → st ≠ .Failed ∧ b.barrier_agents = bm.barrier_agents := by
  induction turns generalizing bm with
  | nil => cases h
  | cons turn turns ih =>
    unfold wait_for_barrier wait_turn at h
    cases turn with
    | TimedOut elapsed =>
      cases h
      exact ⟨reset_agents, fun st hst => by cases hst⟩
    | Polls liveness =>
      cases hc : bm.check_barrier <;> simp only [hc] at h
      · cases h
        exact ⟨rfl, fun st hst => by cases hst; exact ⟨by simp, rfl⟩⟩
      · cases liveness with
        | none => exact ih h
        | some l =>
          obtain ⟨hk, hok⟩ := ih h
          exact ⟨hk.trans check_liveness_agents, fun st hst =>
            ⟨(hok st hst).1, (hok st hst).2.trans check_liveness_barriers⟩⟩
      · cases h
        exact ⟨rfl, fun st hst => by cases hst; exact ⟨by simp, rfl⟩⟩
      · cases h
        exact ⟨rfl, fun st hst => by cases hst⟩

end BarrierManager

/-! ## Aborting an agent -/

namespace AgentTracker

variable {t : AgentTracker} {now : Nat}

/-- The agents that an abort moves are not done. -/
theorem aborts_state : (t.aborts now).state =
    if t.state = .Ready ∨ t.state = .Preparing ∨ t.state = .Running then .Aborting
    else t.state := by
  unfold aborts
  cases h : t.state <;> simp [h, moves_state, ControllerAgentState.can_transition]

theorem aborts_state_iff {st : ControllerAgentState} (hst : st = .Completed ∨ st = .Failed) :
    (t.aborts now).state = st ↔ t.state = st := by
  rw [aborts_state]
  rcases hst with rfl | rfl <;> cases h : t.state <;> simp

theorem aborts_last_seen (h : t.last_seen = now) : (t.aborts now).last_seen = now := by
  unfold aborts
  split
  · exact (moves_last_seen _ _).elim (·.trans h) id
  · exact h

theorem aborts_latest_stats : (t.aborts now).latest_stats = t.latest_stats := by
  unfold aborts moves transition_to
  split
  · by_cases h : ControllerAgentState.can_transition t.state .Aborting = true <;> simp [h]
  · rfl

end AgentTracker

namespace Controller

variable {s : Setup} {c b d : Controller} {stats : LiveStats} {turns : List BarrierManager.Turn}
  {tsv_written : Bool} {id j : String}

/-- What is kept by the abort of one tracker is kept by the abort of all. -/
theorem abort_keeps {P : AgentTracker → Prop} (hP : ∀ t, P t → P (t.aborts c.clock))
    (h : ∃ t, c.trackers.lookup id = some t ∧ P t) :
    ∃ t, (c.abort_all_agents s).trackers.lookup id = some t ∧ P t := by
  have hfold : ∀ (addrs : List String) (m : AList fun _ : String => AgentTracker),
      (∃ t, m.lookup id = some t ∧ P t) → ∃ t,
        (addrs.foldl (fun m addr => m.modify addr (·.aborts c.clock)) m).lookup id = some t ∧
          P t := by
    intro addrs
    induction addrs with
    | nil => exact fun _ h => h
    | cons addr addrs ih =>
      rintro m ⟨t, ht, hPt⟩
      apply ih
      rw [AList.lookup_modify]
      split
      · rename_i hid
        exact ⟨t.aborts c.clock, by rw [← hid, ht, Option.map_some], hP t hPt⟩
      · exact ⟨t, ht, hPt⟩
  exact hfold _ _ h

/-! ## Trackers -/

theorem withTracker_lookup {f : AgentTracker → AgentTracker} :
    (c.withTracker j f).trackers.lookup id =
      if id = j then some (f (c.tracker j)) else c.trackers.lookup id :=
  AList.lookup_insert_if

theorem tracker_of_lookup {t : AgentTracker} (h : c.trackers.lookup id = some t) :
    c.tracker id = t := by
  unfold tracker
  rw [h, Option.getD_some]

theorem withTracker_tracker {f : AgentTracker → AgentTracker} :
    (c.withTracker id f).tracker id = f (c.tracker id) :=
  tracker_of_lookup (by rw [withTracker_lookup, if_pos rfl])

theorem tracker_congr (ht : b.trackers = c.trackers) (hc : b.clock = c.clock) :
    b.tracker id = c.tracker id := by
  unfold tracker
  rw [ht, hc]

theorem ticked_tracker : (c.ticked.tracker id).state = (c.tracker id).state := by
  unfold tracker ticked
  dsimp only
  cases c.trackers.lookup id <;> rfl

/-! ## A heartbeat -/

theorem report_frame (bm : BarrierManager) (k : Nat) :
    (c.report bm id k).trackers = c.trackers ∧ (c.report bm id k).aggregator = c.aggregator ∧
      (c.report bm id k).clock = c.clock ∧ (c.report bm id k).phase = c.phase := by
  unfold report
  dsimp only
  split <;> exact ⟨rfl, rfl, rfl, rfl⟩

theorem collect_frame (s : Setup) (c : Controller) (stats : LiveStats) (tsv_written : Bool) :
    (c.collect s stats tsv_written).trackers = c.trackers ∧
    (c.collect s stats tsv_written).aggregator = c.aggregator ∧
    (c.collect s stats tsv_written).clock = c.clock ∧
    (c.collect s stats tsv_written).phase = c.phase := by
  unfold collect
  split <;> exact ⟨rfl, rfl, rfl, rfl⟩

theorem collect_barriers : (c.collect s stats tsv_written).control = c.control ∧
    (c.collect s stats tsv_written).barrier_manager = c.barrier_manager := by
  unfold collect
  split <;> exact ⟨rfl, rfl⟩

theorem heartbeat_frame (s : Setup) (c : Controller) (stats : LiveStats) (tsv_written : Bool) :
    (c.heartbeat s stats tsv_written).trackers = c.trackers ∧
    (c.heartbeat s stats tsv_written).aggregator = c.aggregator ∧
    (c.heartbeat s stats tsv_written).clock = c.clock ∧
    (c.heartbeat s stats tsv_written).phase = c.phase := by
  unfold heartbeat
  split
  · exact ⟨rfl, rfl, rfl, rfl⟩
  · rename_i bm _
    dsimp only
    obtain ⟨ht, ha, hc, hp⟩ := collect_frame s (if stats.at_barrier then
        c.report (bm.process_heartbeat stats.agent_id (progressOf stats)) stats.agent_id
          stats.barrier_sequence
        else { c with
          barrier_manager := some (bm.process_heartbeat stats.agent_id (progressOf stats)) })
      stats tsv_written
    rw [ht, ha, hc, hp]
    split
    · exact report_frame _ _
    · exact ⟨rfl, rfl, rfl, rfl⟩

/-! ## A message before its status is read -/

theorem hear_lookup : (c.hear s stats tsv_written).trackers.lookup id =
    if id = stats.agent_id then some (((c.tracker stats.agent_id).hears stats c.clock |>.recovers
      stats c.clock).follows stats c.clock)
    else c.trackers.lookup id := by
  obtain ⟨ht, _, hc, _⟩ := heartbeat_frame s
    (c.withTracker stats.agent_id (·.hears stats c.clock)) stats tsv_written
  unfold hear
  dsimp only
  rw [withTracker_lookup, tracker_congr ht hc, withTracker_tracker, hc, ht, withTracker_lookup]
  by_cases h : id = stats.agent_id
  · rw [if_pos h, if_pos h]
    rfl
  · rw [if_neg h, if_neg h, if_neg h]

theorem hear_frame : (c.hear s stats tsv_written).clock = c.clock ∧
    (c.hear s stats tsv_written).phase = c.phase ∧
    (c.hear s stats tsv_written).last_stage = WorkloadStage.of stats.current_stage := by
  obtain ⟨_, _, hc, hp⟩ := heartbeat_frame s
    (c.withTracker stats.agent_id (·.hears stats c.clock)) stats tsv_written
  exact ⟨hc, hp, rfl⟩

theorem hear_aggregator : (c.hear s stats tsv_written).aggregator =
    if (c.tracker stats.agent_id).state = .Disconnected then c.aggregator.unmark stats
    else c.aggregator := by
  obtain ⟨_, ha, _, _⟩ := heartbeat_frame s
    (c.withTracker stats.agent_id (·.hears stats c.clock)) stats tsv_written
  unfold hear
  dsimp only
  simp only [decide_eq_true_eq]
  unfold withTracker at ha ⊢
  rw [ha]

theorem hear_unmanaged (s : Setup) (stats : LiveStats) (tsv_written : Bool)
    (h : c.barrier_manager = none) :
    (c.hear s stats tsv_written).barrier_manager = none ∧
      (c.hear s stats tsv_written).control = c.control := by
  unfold hear heartbeat withTracker
  simp only [h, and_self]

theorem hear_managed (s : Setup) (stats : LiveStats) (tsv_written : Bool) {bm : BarrierManager}
    (h : c.barrier_manager = some bm) :
    (c.hear s stats tsv_written).barrier_manager = (if stats.at_barrier then
        (c.report (bm.process_heartbeat stats.agent_id (progressOf stats)) stats.agent_id
          stats.barrier_sequence).barrier_manager
      else some (bm.process_heartbeat stats.agent_id (progressOf stats))) ∧
    (c.hear s stats tsv_written).control = (if stats.at_barrier then
        (c.report (bm.process_heartbeat stats.agent_id (progressOf stats)) stats.agent_id
          stats.barrier_sequence).control
      else c.control) := by
  unfold hear heartbeat withTracker
  simp only [h, collect_barriers]
  by_cases hb : stats.at_barrier = true
  · simp only [hb, if_true]
    unfold report
    dsimp only
    split <;> exact ⟨rfl, rfl⟩
  · simp only [hb]
    exact ⟨rfl, rfl⟩

theorem hear_agents : (c.hear s stats tsv_written).barrier_manager.map (·.agents.keySet) =
    c.barrier_manager.map (·.agents.keySet) := by
  cases hbm : c.barrier_manager with
  | none => rw [(hear_unmanaged s stats tsv_written hbm).1]
  | some bm =>
    rw [(hear_managed s stats tsv_written hbm).1]
    split
    · unfold report
      dsimp only
      split <;> simp [BarrierManager.clear_barrier, BarrierManager.agent_at_barrier]
    · simp

/-! ## The status of a message -/

/-- A message that marks its agent as completed. -/
def completes (stats : LiveStats) : Bool :=
  stats.completed || stats.status = 4 || stats.status = 5

theorem settle_error (h : stats.status = 3) : c.settle s stats =
    ({ c.withTracker stats.agent_id (·.settles stats c.clock) with
        aggregator := c.aggregator.mark_completed stats.agent_id }.abort_all_agents s).exits
      (.error s!"Agent {stats.agent_id} workload execution failed: {AgentTracker.errorOf stats}") := by
  unfold settle
  dsimp only
  rw [if_pos h]
  rfl

/-- A message that is no error: the tracker and the aggregator follow it. -/
theorem settle_regular (h : stats.status ≠ 3) :
    (c.settle s stats).trackers =
        (c.withTracker stats.agent_id (·.settles stats c.clock)).trackers ∧
      (c.settle s stats).clock = c.clock ∧
      ((c.settle s stats).phase = c.phase ∨ (c.settle s stats).phase = .Finishing) := by
  unfold settle
  dsimp only
  rw [if_neg h]
  repeat' split
  all_goals first
    | exact ⟨rfl, rfl, .inl rfl⟩
    | exact ⟨rfl, rfl, .inr rfl⟩

theorem settle_barriers (s : Setup) (c : Controller) (stats : LiveStats) :
    (c.settle s stats).barrier_manager = c.barrier_manager ∧
      ((c.settle s stats).control = c.control ∨
        (c.settle s stats).control = c.control ++ [goodbyeMessage]) := by
  unfold settle
  dsimp only
  repeat' split
  all_goals first
    | exact ⟨rfl, .inl rfl⟩
    | exact ⟨rfl, .inr rfl⟩

/-- The entry of a message that goes on: a manager has taken the summary out. -/
def entryOf (c : Controller) (stats : LiveStats) : LiveStats :=
  { stats with
    stage_summary := if c.barrier_manager.isSome then none else stats.stage_summary }

theorem finish_aggregator : (if c.aggregator.all_completed then c.finish_loop else c).aggregator =
    c.aggregator := by
  split <;> rfl

theorem settle_aggregator (h : stats.status ≠ 3) : (c.settle s stats).aggregator =
    if completes stats then c.aggregator.mark_completed stats.agent_id
    else c.aggregator.update (c.entryOf stats) := by
  unfold settle completes
  dsimp only
  rw [if_neg h]
  by_cases h5 : stats.status = 5
  · rw [if_pos h5, if_pos (by simp [h5])]
    rfl
  rw [if_neg h5]
  by_cases h4 : stats.status = 4 ∧ stats.completed = false
  · rw [if_pos (by simp [h4]), if_pos (by simp [h4])]
    rfl
  rw [if_neg (by simpa using h4)]
  refine finish_aggregator.trans ?_
  by_cases hc : stats.completed = true
  · rw [if_pos hc, if_pos (by simp [hc])]
    rfl
  · have hnot : ¬(stats.completed || stats.status = 4 || stats.status = 5) = true := by simp_all
    rw [if_neg hc, if_neg hnot]
    rfl

/-! ## One message -/

/-- The message is the first one of a workload stage after a prepare stage. -/
def Turns (c : Controller) (stats : LiveStats) : Prop :=
  c.last_stage = .StagePrepare ∧ WorkloadStage.of stats.current_stage = .StageWorkload

instance (c : Controller) (stats : LiveStats) : Decidable (c.Turns stats) :=
  inferInstanceAs (Decidable (_ ∧ _))

/-- The controller that reads the status of a message. `bm` is the manager
that the wait at the prepare barrier has left, if there was one. -/
def waited (s : Setup) (c : Controller) (stats : LiveStats) (tsv_written : Bool)
    (bm : Option BarrierManager) : Controller :=
  { c.hear s stats tsv_written with
    aggregator :=
      if c.Turns stats then (c.hear s stats tsv_written).aggregator.reset_stats
      else (c.hear s stats tsv_written).aggregator
    barrier_manager := bm }

/-- The wait at the prepare barrier, if the message begins one, ends well. -/
def GoesOn (s : Setup) (c : Controller) (stats : LiveStats) (turns : List BarrierManager.Turn)
    (tsv_written : Bool) : Prop :=
  c.Turns stats → ∀ bm, (c.hear s stats tsv_written).barrier_manager = some bm →
    ∃ b st, bm.wait_for_barrier "prepare" s.ids turns = some (b, .ok st)

/-- A wait ends well, with the numbered barriers as they were, or ends the run. -/
theorem await_cases {phase_name Phase_name : String} {next : Controller → Controller}
    (h : c.await s phase_name Phase_name turns next = some b) :
    ∃ bm, bm.map (·.agents.keySet) = c.barrier_manager.map (·.agents.keySet) ∧
      ((b = next { c with barrier_manager := bm } ∧
          bm.map (·.barrier_agents) = c.barrier_manager.map (·.barrier_agents)) ∨
        ∃ bm₀ b₀ e msg, c.barrier_manager = some bm₀ ∧
          bm₀.wait_for_barrier phase_name s.ids turns = some (b₀, .error e) ∧
          b = ({ c with barrier_manager := bm }.abort_all_agents s).exits (.error msg)) := by
  unfold await at h
  cases hbm : c.barrier_manager with
  | none =>
    simp only [hbm, Option.some.injEq] at h
    refine ⟨none, rfl, .inl ⟨?_, rfl⟩⟩
    rw [← h, ← hbm]
  | some bm =>
    simp only [hbm] at h
    obtain ⟨⟨bm', r⟩, hw, rfl⟩ := Option.map_eq_some_iff.mp h
    obtain ⟨hk, hok⟩ := BarrierManager.wait_frame hw
    refine ⟨some bm', by simp [hk], ?_⟩
    cases r with
    | error e => exact .inr ⟨bm, bm', e, _, rfl, hw, rfl⟩
    | ok st =>
      obtain ⟨hst, hb⟩ := hok st rfl
      refine .inl ⟨?_, by simp [hb]⟩
      cases st with
      | Failed => exact absurd rfl hst
      | Ready | Waiting | Degraded => rfl

theorem take_cases (h : c.take s stats turns tsv_written = some b) :
    ∃ bm, bm.map (·.agents.keySet) =
        (c.hear s stats tsv_written).barrier_manager.map (·.agents.keySet) ∧
      ((b = (c.waited s stats tsv_written bm).settle s stats ∧ bm.map (·.barrier_agents) =
          (c.hear s stats tsv_written).barrier_manager.map (·.barrier_agents)) ∨
        ¬ c.GoesOn s stats turns tsv_written ∧
          ∃ msg, b = ((c.waited s stats tsv_written bm).abort_all_agents s).exits (.error msg)) := by
  unfold take at h
  dsimp only at h
  split at h
  · rename_i hturns
    obtain ⟨bm, hk, hcase⟩ := await_cases h
    have hw : { { c.hear s stats tsv_written with
        aggregator := (c.hear s stats tsv_written).aggregator.reset_stats } with
        barrier_manager := bm } = c.waited s stats tsv_written bm := by
      unfold waited
      rw [if_pos (show c.Turns stats from hturns)]
    refine ⟨bm, hk, ?_⟩
    rcases hcase with ⟨rfl, hb⟩ | ⟨bm₀, b₀, e, msg, hbm₀, hwait, rfl⟩
    · exact .inl ⟨by rw [hw], hb⟩
    · refine .inr ⟨fun hg => ?_, msg, by rw [hw]⟩
      obtain ⟨b₁, st, hok⟩ := hg hturns bm₀ hbm₀
      rw [hwait] at hok
      cases hok
  · rename_i hturns
    cases h
    refine ⟨(c.hear s stats tsv_written).barrier_manager, rfl, .inl ⟨?_, rfl⟩⟩
    unfold waited
    rw [if_neg (show ¬ c.Turns stats from hturns)]

/-- A message that is read to its end: its agent's tracker has read it. -/
theorem take_tracker (hg : c.GoesOn s stats turns tsv_written)
    (h : c.take s stats turns tsv_written = some b) {st : ControllerAgentState}
    (hst : st = .Completed ∨ st = .Failed) :
    (b.tracker stats.agent_id).state = st ↔
      ((c.tracker stats.agent_id).reads stats c.clock).state = st := by
  obtain ⟨bm, _, ⟨rfl, _⟩ | ⟨hn, _⟩⟩ := take_cases h
  · have hheard : ((c.waited s stats tsv_written bm).withTracker stats.agent_id
        (·.settles stats (c.waited s stats tsv_written bm).clock)).trackers.lookup stats.agent_id =
          some ((c.tracker stats.agent_id).reads stats c.clock) := by
      have hlook : (c.waited s stats tsv_written bm).trackers.lookup stats.agent_id = _ :=
        hear_lookup.trans (if_pos rfl)
      have hclock : (c.waited s stats tsv_written bm).clock = c.clock :=
        hear_frame.1
      rw [withTracker_lookup, if_pos rfl, tracker_of_lookup hlook, hclock]
      rfl
    by_cases h3 : stats.status = 3
    · rw [settle_error h3]
      have hiff := abort_keeps (s := s) (c := { (c.waited s stats tsv_written bm).withTracker
          stats.agent_id (·.settles stats (c.waited s stats tsv_written bm).clock) with
          aggregator := (c.waited s stats tsv_written bm).aggregator.mark_completed
            stats.agent_id })
        (P := fun t => t.state = st ↔ ((c.tracker stats.agent_id).reads stats c.clock).state = st)
        (fun t ht => (AgentTracker.aborts_state_iff hst).trans ht) ⟨_, hheard, Iff.rfl⟩
      obtain ⟨t, ht, hstate⟩ := hiff
      rw [← hstate, ← tracker_of_lookup ht]
      rfl
    · obtain ⟨ht, _, _⟩ := settle_regular (s := s) (c := c.waited s stats tsv_written bm) h3
      rw [← ht] at hheard
      rw [tracker_of_lookup hheard]
  · exact absurd hg hn

/-! ## One event -/

/-- What an event can make of the controller. -/
inductive Steps (s : Setup) (c : Controller) : Event → Controller → Prop
  | answers {stats : LiveStats} {turns : List BarrierManager.Turn} {tsv_written : Bool}
      (startup : c.phase = .Startup) : Steps s c (.Stats stats turns tsv_written)
        (c.ticked.withTracker stats.agent_id (·.starts stats c.ticked.clock))
  | begins {stats : LiveStats} {turns : List BarrierManager.Turn} {tsv_written : Bool}
      (startup : c.phase = .Startup) : Steps s c (.Stats stats turns tsv_written)
        { c.ticked.withTracker stats.agent_id (·.starts stats c.ticked.clock) with
          phase := .Loop, barrier_manager := s.barrier_manager }
  | fails {stats : LiveStats} {turns : List BarrierManager.Turn} {tsv_written : Bool}
      {msg : String} (startup : c.phase = .Startup) : Steps s c (.Stats stats turns tsv_written)
        (((c.ticked.withTracker stats.agent_id (·.starts stats c.ticked.clock)).abort_all_agents
          s).exits (.error msg))
  | takes {stats : LiveStats} {turns : List BarrierManager.Turn} {tsv_written : Bool}
      {b : Controller} (loop : c.phase = .Loop)
      (h : c.ticked.take s stats turns tsv_written = some b) :
      Steps s c (.Stats stats turns tsv_written) b
  | stalls {id : String} (loop : c.phase = .Loop) : Steps s c (.Stalled id) (c.ticked.stall id)
  | closes (loop : c.phase = .Loop) : Steps s c .ChannelClosed c.ticked.finish_loop
  | aborts {e : Event} {msg : String}
      (he : ∀ stats turns tsv_written, e ≠ .Stats stats turns tsv_written) :
      Steps s c e ((c.ticked.abort_all_agents s).exits (.error msg))
  | finishes {turns : List BarrierManager.Turn} (finishing : c.phase = .Finishing) :
      Steps s c (.Finish turns) (c.ticked.exits (.ok ()))
  | awaits {turns : List BarrierManager.Turn} {b : Controller} (finishing : c.phase = .Finishing)
      (h : c.ticked.await s "execute" "Execute" turns (·.exits (.ok ())) = some b) :
      Steps s c (.Finish turns) b

theorem step_cases {e : Event} (h : (controllerMachine s).step c e = some b) : Steps s c e b := by
  cases hp : c.phase <;> cases e <;> simp only [controllerMachine, step, hp] at h <;> try cases h
  case Startup.Stats stats turns tsv_written =>
    unfold start finish_startup
    dsimp only
    split
    · split
      · exact .begins hp
      · exact .fails hp
    · exact .answers hp
  case Startup.StartupTimeout => exact .aborts (by simp)
  case Startup.Signal sig => exact .aborts (by simp)
  case Loop.Stats stats turns tsv_written => exact .takes hp h
  case Loop.Stalled id => exact .stalls hp
  case Loop.Signal sig => exact .aborts (by simp)
  case Loop.ChannelClosed => exact .closes hp
  case Finishing.Finish turns =>
    split at h
    · cases h
      exact .finishes hp
    · exact .awaits hp h

/-! ## What every event keeps -/

/-- What a tracker keeps, whatever is done to it. -/
structure Kept (P : AgentTracker → Prop) : Prop where
  starts : ∀ t stats now, P t → P (t.starts stats now)
  follows : ∀ t stats now, P t → P ((t.hears stats now |>.recovers stats now).follows stats now)
  settles : ∀ t stats now, P t → P (t.settles stats now)
  aborts : ∀ t now, P t → P (t.aborts now)
  stalls : ∀ t now, P t → P (t.stalls now)

/-- There is a tracker for the agent, which meets `P`. -/
def Tracks (P : AgentTracker → Prop) (id : String) (c : Controller) : Prop :=
  ∃ t, c.trackers.lookup id = some t ∧ P t

variable {P : AgentTracker → Prop}

theorem withTracker_tracks {f : AgentTracker → AgentTracker} (hf : ∀ t, P t → P (f t))
    (h : c.Tracks P id) : (c.withTracker j f).Tracks P id := by
  obtain ⟨t, ht, hP⟩ := h
  unfold Tracks
  rw [withTracker_lookup]
  split
  · rename_i hid
    subst hid
    exact ⟨_, rfl, hf _ (by rw [tracker_of_lookup ht]; exact hP)⟩
  · exact ⟨t, ht, hP⟩

theorem abort_tracks (hP : ∀ t, P t → P (t.aborts c.clock)) (h : c.Tracks P id) :
    (c.abort_all_agents s).Tracks P id :=
  abort_keeps hP h

theorem hear_tracks (hP : Kept P) (h : c.Tracks P id) :
    (c.hear s stats tsv_written).Tracks P id := by
  obtain ⟨t, ht, hPt⟩ := h
  unfold Tracks
  rw [hear_lookup]
  split
  · rename_i hid
    subst hid
    exact ⟨_, rfl, hP.follows _ _ _ (by rw [tracker_of_lookup ht]; exact hPt)⟩
  · exact ⟨t, ht, hPt⟩

theorem settle_tracks (hsettles : ∀ t, P t → P (t.settles stats c.clock))
    (haborts : ∀ t, P t → P (t.aborts c.clock)) (h : c.Tracks P id) :
    (c.settle s stats).Tracks P id := by
  have hw : (c.withTracker stats.agent_id (·.settles stats c.clock)).Tracks P id :=
    withTracker_tracks hsettles h
  by_cases h3 : stats.status = 3
  · rw [settle_error h3]
    exact abort_tracks (c := { c.withTracker stats.agent_id (·.settles stats c.clock) with
      aggregator := c.aggregator.mark_completed stats.agent_id }) haborts hw
  · obtain ⟨ht, _, _⟩ := settle_regular (s := s) (c := c) h3
    unfold Tracks
    rw [ht]
    exact hw

/-- After a message, a tracker meets what it meets when it is heard and what
the status of the message and an abort keep. -/
theorem take_tracks (h0 : (c.hear s stats tsv_written).Tracks P id)
    (hsettles : ∀ t, P t → P (t.settles stats c.clock))
    (haborts : ∀ t, P t → P (t.aborts c.clock))
    (h : c.take s stats turns tsv_written = some b) : b.Tracks P id := by
  have hclock : ∀ bm, (c.waited s stats tsv_written bm).clock = c.clock := fun _ => hear_frame.1
  obtain ⟨bm, _, ⟨rfl, _⟩ | ⟨_, msg, rfl⟩⟩ := take_cases h
  · exact settle_tracks (c := c.waited s stats tsv_written bm) (by rwa [hclock])
      (by rwa [hclock]) h0
  · exact abort_tracks (c := c.waited s stats tsv_written bm) (by rwa [hclock]) h0

/-- The same for a message of the startup. -/
theorem start_tracks
    (h0 : (c.withTracker stats.agent_id (·.starts stats c.clock)).Tracks P id)
    (haborts : ∀ t, P t → P (t.aborts c.clock)) : (c.start s stats).Tracks P id := by
  unfold start finish_startup
  dsimp only
  split
  · split
    · exact h0
    · exact abort_tracks haborts h0
  · exact h0

theorem await_tracks {phase_name Phase_name : String} {next : Controller → Controller}
    (hP : Kept P) (hnext : ∀ d : Controller, d.Tracks P id → (next d).Tracks P id)
    (hc : c.Tracks P id) (h : c.await s phase_name Phase_name turns next = some b) :
    b.Tracks P id := by
  obtain ⟨bm, _, ⟨rfl, _⟩ | ⟨_, _, _, msg, _, _, rfl⟩⟩ := await_cases h
  · exact hnext _ hc
  · exact abort_tracks (c := { c with barrier_manager := bm }) (fun t => hP.aborts t _) hc

theorem step_tracks (hP : Kept P) {e : Event} (hc : c.Tracks P id)
    (h : (controllerMachine s).step c e = some b) : b.Tracks P id := by
  have ht : c.ticked.Tracks P id := hc
  have hstarts : ∀ stats : LiveStats, (c.ticked.withTracker stats.agent_id
      (·.starts stats c.ticked.clock)).Tracks P id :=
    fun stats => withTracker_tracks (fun t => hP.starts t stats _) ht
  cases step_cases h with
  | answers _ => exact hstarts _
  | begins _ => exact hstarts _
  | fails _ => exact abort_tracks (fun t => hP.aborts t _) (hstarts _)
  | aborts _ => exact abort_tracks (fun t => hP.aborts t _) ht
  | takes _ htake =>
    exact take_tracks (hear_tracks hP ht) (fun t => hP.settles t _ _) (fun t => hP.aborts t _) htake
  | stalls _ =>
    obtain ⟨t, hlook, hPt⟩ := ht
    unfold Tracks stall
    dsimp only
    rw [AList.lookup_modify]
    split
    · rename_i hid
      exact ⟨_, by rw [← hid, hlook, Option.map_some], hP.stalls _ _ hPt⟩
    · exact ⟨t, hlook, hPt⟩
  | closes _ => exact ht
  | finishes _ => exact ht
  | awaits _ hw =>
    exact await_tracks hP (fun d hd => show (d.exits (.ok ())).Tracks P id from hd) ht hw

theorem run_tracks (hP : Kept P) {es : List Event} (hc : c.Tracks P id)
    (h : (controllerMachine s).run c es = some b) : b.Tracks P id :=
  Machine.run_always (fun _ _ _ hI hs => step_tracks hP hI hs) hc h

/-! ## Going on -/

/-- Nothing happens after the end. -/
theorem going_of_step {e : Event} (h : (controllerMachine s).step c e = some b) : Going c := by
  intro outcome hout
  simp [controllerMachine, step, hout] at h

theorem not_going_exits {outcome : Except String Unit} : ¬ Going (c.exits outcome) :=
  fun h => h outcome rfl

end Controller

end sai3_bench.controller
