-- The wait at the prepare barrier inside the main loop: who can still reach
-- the manager while the loop stands still.
import Sai3Bench.ControllerManagers
import Sai3Bench.BarrierDeciders

namespace sai3_bench.controller

open config machines pb Controller BarrierManager

/-! ## When a wait lets the agents through -/

/-- What a policy asks before a phase may begin, of the agents, the failed
ones and those who are ready. -/
def Synchronized (policy : BarrierType) (agents failed ready : Finset String) : Prop :=
  match policy with
  | .AllOrNothing => failed = ∅ ∧ ready = agents
  | .Majority => agents.card < 2 * (agents \ failed).card ∧ agents.card < 2 * ready.card
  | .BestEffort => (agents \ failed).Nonempty ∧ ready.Nonempty

/-- An agent that fails helps no policy. -/
theorem Synchronized.mono {policy : BarrierType} {agents failed failed' ready : Finset String}
    (h : Synchronized policy agents failed' ready) (hf : failed ⊆ failed') :
    Synchronized policy agents failed ready := by
  have hsub : agents \ failed' ⊆ agents \ failed := Finset.sdiff_subset_sdiff subset_rfl hf
  cases policy with
  | AllOrNothing => exact ⟨Finset.subset_empty.mp (h.1 ▸ hf), h.2⟩
  | Majority =>
    have hcard := Finset.card_le_card hsub
    have hmany := h.1
    exact ⟨by omega, h.2⟩
  | BestEffort => exact ⟨h.1.mono hsub, h.2⟩

namespace BarrierManager

variable {bm b : BarrierManager} {client_pool : List String} {phase : String} {l : Liveness}
  {turns : List Turn} {st : BarrierStatus}

/-- The agents of the manager may begin the phase. -/
def Passes (bm : BarrierManager) : Prop :=
  Synchronized bm.config.barrier_type bm.agents.keySet bm.failed_agents bm.ready_agents

theorem passes_iff_synchronized (hr : Registered bm) : bm.check_barrier.passes ↔ bm.Passes := by
  rw [check_barrier_passes_iff hr.failed]
  unfold Passes Synchronized
  cases bm.config.barrier_type with
  | AllOrNothing =>
    dsimp only
    rw [Finset.card_eq_zero]
    refine and_congr_right fun hnone => ?_
    rw [hnone, Finset.sdiff_empty]
    constructor
    · intro hcard
      exact Finset.eq_of_subset_of_card_le hr.ready hcard.ge
    · intro hall
      rw [hall]
  | Majority => rfl
  | BestEffort => rfl

theorem degraded_policy (h : bm.check_barrier = .Degraded) :
    bm.config.barrier_type ≠ .AllOrNothing := by
  intro htype
  unfold check_barrier at h
  simp only [htype] at h
  split at h
  · cases h
  · split at h <;> cases h

/-! ## What the wait itself can learn -/

/-- No query of a check of liveness is answered by an agent at its barrier. -/
def Silent (client_pool : List String) (l : Liveness) : Prop :=
  ∀ id ∈ client_pool, ∀ progress, l.answer id = .ok (some progress) → reached progress = false

theorem lateAgents_sets (l : Liveness) (bm : BarrierManager) (ids : List String) :
    (lateAgents l bm ids).1.ready_agents = bm.ready_agents ∧
      (lateAgents l bm ids).1.failed_agents = bm.failed_agents := by
  induction ids generalizing bm with
  | nil => exact ⟨rfl, rfl⟩
  | cons id ids ih =>
    obtain ⟨_, hf, hr, _, _⟩ := bm.missed_frame id
    unfold lateAgents
    split
    · exact ih bm
    · obtain ⟨hr', hf'⟩ := ih (bm.missed id).1
      exact ⟨hr'.trans hr, hf'.trans hf⟩

theorem queried_silent (hs : Silent client_pool l) (bm : BarrierManager) (id : String) :
    (queried client_pool l bm id).ready_agents = bm.ready_agents ∧
      bm.failed_agents ⊆ (queried client_pool l bm id).failed_agents := by
  unfold queried
  split
  · rename_i progress hq
    unfold query_agent_with_retry at hq
    split at hq
    · rename_i hid
      refine ⟨?_, by simp⟩
      rw [process_heartbeat_ready, if_neg]
      rw [hs id hid progress hq]
      simp
    · cases hq
  · exact ⟨rfl, subset_rfl⟩
  · exact ⟨rfl, Finset.subset_insert _ _⟩

theorem check_liveness_silent (hs : Silent client_pool l) (bm : BarrierManager) :
    (bm.check_liveness client_pool l).ready_agents = bm.ready_agents ∧
      bm.failed_agents ⊆ (bm.check_liveness client_pool l).failed_agents := by
  have hfold : ∀ (ids : List String) (b : BarrierManager),
      (ids.foldl (queried client_pool l) b).ready_agents = b.ready_agents ∧
        b.failed_agents ⊆ (ids.foldl (queried client_pool l) b).failed_agents := by
    intro ids
    induction ids with
    | nil => exact fun _ => ⟨rfl, subset_rfl⟩
    | cons id ids ih =>
      intro b
      obtain ⟨hr, hf⟩ := queried_silent hs b id
      obtain ⟨hr', hf'⟩ := ih (queried client_pool l b id)
      exact ⟨hr'.trans hr, hf.trans hf'⟩
  obtain ⟨hr, hf⟩ := lateAgents_sets l bm bm.agents.keys
  obtain ⟨hr', hf'⟩ := hfold (lateAgents l bm bm.agents.keys).2 (lateAgents l bm bm.agents.keys).1
  exact ⟨hr'.trans hr, hf ▸ hf'⟩

theorem check_liveness_registered (client_pool : List String) (l : Liveness) (hr : Registered bm) :
    Registered (bm.check_liveness client_pool l) ∧
      (bm.check_liveness client_pool l).config = bm.config := by
  obtain ⟨es, hes⟩ := check_liveness_run bm client_pool l
  exact ⟨Machine.run_always (fun _ _ _ hI hs => step_registered hI hs) hr hes, (run_frame hes).2⟩

/-- A manager that passes ends its wait in the first turn. -/
theorem passes_wait (hr : Registered bm) (h : bm.Passes) (liveness : Option Liveness)
    (turns : List Turn) : bm.wait_for_barrier phase client_pool (.Polls liveness :: turns) =
      some (bm, .ok bm.check_barrier) := by
  unfold wait_for_barrier wait_turn
  rcases (passes_iff_synchronized hr).mpr h with hc | hc <;> simp only [hc]

/-- A wait in which no query is answered by an agent at its barrier ends well
only if it could have ended at once. -/
theorem silent_wait_passes (hr : Registered bm)
    (hs : ∀ l, .Polls (some l) ∈ turns → Silent client_pool l)
    (h : bm.wait_for_barrier phase client_pool turns = some (b, .ok st)) : bm.Passes := by
  induction turns generalizing bm with
  | nil => cases h
  | cons turn turns ih =>
    have hs' : ∀ l, .Polls (some l) ∈ turns → Silent client_pool l :=
      fun l hl => hs l (List.mem_cons_of_mem _ hl)
    unfold wait_for_barrier wait_turn at h
    cases turn with
    | TimedOut elapsed => cases h
    | Polls liveness =>
      cases hc : bm.check_barrier <;> simp only [hc] at h
      case Ready => exact (passes_iff_synchronized hr).mp (.inl hc)
      case Degraded => exact (passes_iff_synchronized hr).mp (.inr hc)
      case Failed => cases h
      case Waiting =>
        cases liveness with
        | none => exact ih hr hs' h
        | some l =>
          -- the check of liveness can only add to the failed agents
          obtain ⟨hreg, hconfig⟩ := check_liveness_registered client_pool l hr
          obtain ⟨hready, hfailed⟩ := check_liveness_silent (hs l List.mem_cons_self) bm
          have hlater := ih hreg hs' h
          unfold Passes at hlater ⊢
          rw [hconfig, hready, check_liveness_agents] at hlater
          exact hlater.mono hfailed

end BarrierManager

/-! ## The agents while the controller waits -/

/-- What the agents have sent since the last turn of the wait, and the next
turn. The messages stay on the channel of the main loop, which the wait does
not read. -/
structure Round where
  sent : List LiveStats
  turn : Turn

/-- What was sent before the timeout was over. -/
def sentInTime : List Round → List LiveStats
  | [] => []
  | ⟨sent, .Polls _⟩ :: rounds => sent ++ sentInTime rounds
  | ⟨_, .TimedOut _⟩ :: _ => []

/-- The timeout leaves the wait a first look, every agent keeps sending, and
each one reports before the timeout. -/
structure InTime (ids : List String) (rounds : List Round) : Prop where
  first : ∃ sent liveness rest, rounds = ⟨sent, .Polls liveness⟩ :: rest
  sending : ∀ round ∈ rounds, ∀ id ∈ ids, ∃ stats ∈ round.sent, stats.agent_id = id
  reports : ∀ id ∈ ids, ∃ stats ∈ sentInTime rounds,
    stats.agent_id = id ∧ reached (progressOf stats) = true

/-- The wait ends with Ready, or with Degraded when the policy is a weaker one. -/
def EndsWell (s : Setup) (bm : BarrierManager) (rounds : List Round) : Prop :=
  ∃ b st, bm.wait_for_barrier "prepare" s.ids (rounds.map (·.turn)) = some (b, .ok st) ∧
    (st = .Ready ∨ st = .Degraded ∧ bm.config.barrier_type ≠ .AllOrNothing)

/-- The manager with which an event begins to wait at the prepare barrier. -/
def waitsWith (s : Setup) (c : Controller) : Event → Option BarrierManager
  | .Stats stats _ tsv_written => match c.phase with
    | .Loop =>
      if c.Turns stats then (c.ticked.hear s stats tsv_written).barrier_manager else none
    | _ => none
  | _ => none

/-- A wait that the event begins ends well, when the agents report in time. -/
def SeesItsAgents (s : Setup) (c : Controller) (e : Event) : Prop :=
  ∀ bm, waitsWith s c e = some bm → ∀ rounds, InTime s.ids rounds → EndsWell s bm rounds

/-- A wait that the event begins finds its policy satisfied already. -/
def BeginsSynchronized (s : Setup) (c : Controller) (e : Event) : Prop :=
  ∀ bm, waitsWith s c e = some bm → bm.Passes

/-- All agents report at once, and the timeout is over at the second turn. -/
def promptRounds (ids : List String) : List Round :=
  let reports := ids.map fun id => { agent_id := id, at_barrier := true }
  [⟨reports, .Polls none⟩, ⟨reports, .TimedOut "120s"⟩]

theorem promptRounds_inTime (ids : List String) : InTime ids (promptRounds ids) where
  first := ⟨_, none, _, rfl⟩
  sending := by
    intro round hround id hid
    have hsent : round.sent = ids.map fun id => { agent_id := id, at_barrier := true } := by
      rcases List.mem_pair.mp hround with rfl | rfl <;> rfl
    rw [hsent]
    exact ⟨_, List.mem_map_of_mem hid, rfl⟩
  reports := by
    intro id hid
    exact ⟨_, List.mem_append_left _ (List.mem_map_of_mem hid), rfl, rfl⟩

variable {s : Setup} {c b : Controller} {e : Event} {bm : BarrierManager}

/-- One wait: only what the manager knows when it begins decides how it ends. -/
theorem wait_ends_well_iff (hr : Registered bm) :
    (∀ rounds, InTime s.ids rounds → EndsWell s bm rounds) ↔ bm.Passes := by
  constructor
  · intro h
    obtain ⟨b, st, hw, _⟩ := h _ (promptRounds_inTime s.ids)
    refine silent_wait_passes hr (fun l hl => ?_) hw
    simp [promptRounds] at hl
  · intro h rounds hin
    obtain ⟨sent, liveness, rest, rfl⟩ := hin.first
    refine ⟨bm, bm.check_barrier, passes_wait hr h liveness _, ?_⟩
    rcases (passes_iff_synchronized hr).mpr h with hc | hc
    · exact .inl hc
    · exact .inr ⟨hc, degraded_policy hc⟩

/-- The manager of the controller counts only its own agents. -/
def WellCounted (c : Controller) : Prop := ∀ bm, c.barrier_manager = some bm → Registered bm

theorem setup_registered (h : s.barrier_manager = some bm) : Registered bm := by
  unfold Setup.barrier_manager at h
  split at h
  · cases h
  · split at h <;> cases h
    exact (run_registered (Machine.run_nil (m := managerMachine))).1

theorem wellCounted_runs (hI : WellCounted c) (h : ManagerRuns c b) : WellCounted b := by
  intro bm hbm
  obtain ⟨bm₀, es, hc, hrun⟩ := h bm hbm
  exact Machine.run_always (fun _ _ _ hI hs => step_registered hI hs) (hI bm₀ hc) hrun

theorem step_wellCounted (hI : WellCounted c) (h : (controllerMachine s).step c e = some b) :
    WellCounted b := by
  rcases step_manager h with ⟨hb, _⟩ | hruns
  · exact fun bm hbm => setup_registered (hb ▸ hbm)
  · exact wellCounted_runs hI hruns

theorem waitsWith_registered (hI : WellCounted c) (h : waitsWith s c e = some bm) :
    Registered bm := by
  unfold waitsWith at h
  split at h
  · rename_i stats turns tsv_written
    split at h
    · split at h
      · have hticked : WellCounted c.ticked := hI
        exact wellCounted_runs hticked (hear_manager s c.ticked stats tsv_written) bm h
      · cases h
    · cases h
  · cases h

/-- In a run of the controller each wait at the prepare barrier ends well for
agents that report in time, exactly when each one finds its policy satisfied
when it begins: what is reported during the wait does not count. -/
theorem the_prepare_barrier_sees_its_agents_iff {s : Setup} {es : List Event} {c : Controller}
    (hrun : (controllerMachine s).run (Controller.new s) es = some c) :
    (controllerMachine s).Along (SeesItsAgents s) (Controller.new s) es ↔
      (controllerMachine s).Along (BeginsSynchronized s) (Controller.new s) es := by
  refine Machine.along_congr (I := WellCounted) (fun _ _ _ hI hs => step_wellCounted hI hs)
    (fun c e _ hI _ => ?_) (fun bm hbm => by cases hbm) hrun
  constructor
  · intro h bm hbm
    exact (wait_ends_well_iff (waitsWith_registered hI hbm)).mp (h bm hbm)
  · intro h bm hbm
    exact (wait_ends_well_iff (waitsWith_registered hI hbm)).mpr (h bm hbm)

/-! ## One agent is a little later -/

def pairOfAgents : Setup := .ofAgents ["a", "b"] (some ⟨[], { enabled := true }⟩)

/-- An agent runs its prepare stage, or has done it and is at its barrier. -/
def inPrepare (agent_id : String) (at_barrier : Bool) : Event :=
  .Stats { agent_id := agent_id, status := 2, current_stage := 1, at_barrier := at_barrier } [] true

/-- The first message of the workload stage of an agent. -/
def beginsWorkload (agent_id : String) (turns : List Turn) : Event :=
  .Stats { agent_id := agent_id, status := 2, current_stage := 2 } turns true

/-- Both agents start and run their prepare stage, at whose barrier "a" is already. -/
def aIsReady (b_ready : Bool) : List Event :=
  [.Stats { agent_id := "a", status := 1 } [] true, .Stats { agent_id := "b", status := 1 } [] true,
    inPrepare "a" true, inPrepare "b" b_ready]

/-- The condition on one event, when both agents are alive and ready. -/
def bothReady (c : Controller) (e : Event) : Bool :=
  (waitsWith pairOfAgents c e).all fun bm =>
    bm.config.barrier_type = .AllOrNothing && bm.failed_agents = ∅ &&
      bm.ready_agents = bm.agents.keySet

theorem bothReady_synchronized (c : Controller) (e : Event) (h : bothReady c e = true) :
    BeginsSynchronized pairOfAgents c e := by
  intro bm hbm
  simp only [bothReady, hbm, Option.all_some, Bool.and_eq_true, decide_eq_true_eq] at h
  obtain ⟨⟨htype, hfailed⟩, hready⟩ := h
  unfold Passes
  rw [htype]
  exact ⟨hfailed, hready⟩

/-- Both have reported before the first message of the workload. -/
theorem a_wait_for_reports_before_it_ends_well :
    (controllerMachine pairOfAgents).Along (SeesItsAgents pairOfAgents)
      (Controller.new pairOfAgents) (aIsReady true ++ [beginsWorkload "a" [.Polls none]]) := by
  have hrun : ∃ c, (controllerMachine pairOfAgents).run (Controller.new pairOfAgents)
      (aIsReady true ++ [beginsWorkload "a" [.Polls none]]) = some c := ⟨_, rfl⟩
  obtain ⟨c, hc⟩ := hrun
  apply (the_prepare_barrier_sees_its_agents_iff hc).mpr
  exact Machine.along_of_check bothReady_synchronized (by decide)

/-- Agent "b" reports only while the controller waits for it, and the wait
ends with its timeout, and the run with it. -/
theorem a_report_during_the_wait_is_not_seen :
    InTime pairOfAgents.ids (promptRounds pairOfAgents.ids) ∧
    (∃ c e, (controllerMachine pairOfAgents).run (Controller.new pairOfAgents)
        (aIsReady false ++ [beginsWorkload "a" [.Polls none, .TimedOut "120s"]]) = some c ∧
      c.phase = .Exited (.error e)) ∧
    ¬ (controllerMachine pairOfAgents).Along (SeesItsAgents pairOfAgents)
      (Controller.new pairOfAgents)
      (aIsReady false ++ [beginsWorkload "a" [.Polls none, .TimedOut "120s"]]) := by
  have hin := promptRounds_inTime pairOfAgents.ids
  refine ⟨hin, ⟨_, _, rfl, rfl⟩, fun hall => ?_⟩
  have hrun : ∃ c bm b e, (controllerMachine pairOfAgents).run (Controller.new pairOfAgents)
        (aIsReady false) = some c ∧
      waitsWith pairOfAgents c (beginsWorkload "a" [.Polls none, .TimedOut "120s"]) = some bm ∧
      bm.wait_for_barrier "prepare" pairOfAgents.ids
        ((promptRounds pairOfAgents.ids).map (·.turn)) = some (b, .error e) :=
    ⟨_, _, _, _, rfl, rfl, rfl⟩
  obtain ⟨c, bm, b, e, hc, hbm, hwait⟩ := hrun
  obtain ⟨b', st, hend, _⟩ := ((Machine.along_snoc hc).mp hall).2 bm hbm _ hin
  rw [hwait] at hend
  cases hend

end sai3_bench.controller
