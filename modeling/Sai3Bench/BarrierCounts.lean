-- The counts of `check_barrier`: no subtraction goes below zero, and a majority fails when
-- the agents that are still alive are too few for one.
import Sai3Bench.BarrierDeciders

namespace sai3_bench.controller

open config machines pb

def checked_sub (a b : Nat) : Option Nat := if b ≤ a then some (a - b) else none

theorem checked_sub_eq {a b : Nat} (h : b ≤ a) : checked_sub a b = some (a - b) := if_pos h

namespace BarrierManager

/-- `check_barrier` where each subtraction may go below zero. -/
def checked_barrier (bm : BarrierManager) : Option BarrierStatus :=
  let ready_count := bm.ready_agents.card
  let total_count := bm.agents.size
  let failed_count := bm.failed_agents.card
  (checked_sub total_count failed_count).bind fun alive_count =>
    match bm.config.barrier_type with
    | .AllOrNothing =>
      if 0 < failed_count then some .Failed
      else if ready_count = alive_count then some .Ready
      else some .Waiting
    | .Majority =>
      if alive_count ≤ total_count / 2 then some .Failed
      else if ready_count = alive_count ∧ failed_count = 0 then some .Ready
      else if total_count / 2 < ready_count then some .Degraded
      else
        (checked_sub alive_count ready_count).bind fun left =>
          (checked_sub (total_count / 2 + 1) ready_count).bind fun missing =>
            if left < missing then some .Failed else some .Waiting
    | .BestEffort =>
      if alive_count = 0 then some .Failed
      else if ready_count = alive_count ∧ failed_count = 0 then some .Ready
      else if 0 < ready_count then some .Degraded
      else some .Waiting

/-! ## The properties -/

/-- Events without a reset lead to a state in which the counted agents are more than half
of all agents. -/
def Attainable (counted : BarrierManager → Finset String) (bm : BarrierManager) : Prop :=
  ∃ events later, (∀ event ∈ events, event ≠ .Reset) ∧
    managerMachine.run bm events = some later ∧
    later.agents.keySet.card < 2 * (counted later).card

/-- The agents that are ready and were not lost since. -/
def ready_alive (bm : BarrierManager) : Finset String := bm.ready_agents \ bm.failed_agents

/-- No subtraction goes below zero, a majority passes with more than half of all agents ready,
and it fails when the counted agents can no longer be a majority. -/
structure CountsRight (counted : BarrierManager → Finset String) (bm : BarrierManager) : Prop where
  subtracts : bm.checked_barrier = some bm.check_barrier
  passes : bm.config.barrier_type = .Majority → bm.check_barrier.passes →
    bm.agents.keySet.card < 2 * (bm.agents.keySet ∩ bm.ready_agents).card
  fails : bm.config.barrier_type = .Majority →
    (bm.check_barrier = .Failed ↔ ¬ Attainable counted bm)

variable {bm later : BarrierManager} {event : ManagerEvent} {events : List ManagerEvent}

/-! ## The counts of one state -/

theorem checked_barrier_eq (hr : Registered bm) : bm.checked_barrier = some bm.check_barrier := by
  have hfailed : bm.failed_agents.card ≤ bm.agents.size := by
    rw [← AList.card_keySet]
    exact Finset.card_le_card hr.failed
  unfold checked_barrier check_barrier
  dsimp only
  rw [checked_sub_eq hfailed, Option.bind_some]
  cases bm.config.barrier_type with
  | AllOrNothing =>
    dsimp only
    split_ifs <;> rfl
  | BestEffort =>
    dsimp only
    split_ifs <;> rfl
  | Majority =>
    dsimp only
    split_ifs with hfew hall hhalf hleft
    · rfl
    · rfl
    · rfl
    · rw [checked_sub_eq (by omega), checked_sub_eq (by omega)]
      simp [hleft]
    · -- No more than half are ready here, and more than half are alive.
      rw [checked_sub_eq (by omega), checked_sub_eq (by omega)]
      simp [hleft]

/-- A majority fails when no more than half of the agents are alive. -/
theorem majority_fails_iff (hr : Registered bm) (hm : bm.config.barrier_type = .Majority) :
    bm.check_barrier = .Failed ↔
      2 * (bm.agents.keySet \ bm.failed_agents).card ≤ bm.agents.keySet.card := by
  have hfailed : bm.failed_agents.card ≤ bm.agents.keySet.card := Finset.card_le_card hr.failed
  rw [Finset.card_sdiff_of_subset hr.failed]
  unfold check_barrier
  rw [hm, ← AList.card_keySet]
  dsimp only
  split_ifs with hfew hall hhalf hleft
  · exact iff_of_true rfl (by omega)
  · exact iff_of_false (by decide) (by omega)
  · exact iff_of_false (by decide) (by omega)
  · omega
  · exact iff_of_false (by decide) (by omega)

/-! ## What can still happen -/

/-- Without a reset nobody who failed comes back. -/
theorem step_failed (h : managerMachine.step bm event = some later) (he : event ≠ .Reset) :
    bm.failed_agents ⊆ later.failed_agents := by
  cases event with
  | Heartbeat id p =>
    cases h
    simp
  | Missed id =>
    cases h
    rw [(bm.missed_frame id).2.1]
  | Unanswered id =>
    simp only [managerMachine, step] at h
    split at h
    · cases h
      exact Finset.subset_insert _ _
    · cases h
  | AtBarrier id k seq =>
    cases h
    exact Finset.Subset.refl _
  | Clear k =>
    cases h
    exact Finset.Subset.refl _
  | Reset => exact absurd rfl he

theorem run_failed (h : managerMachine.run bm events = some later)
    (he : ∀ event ∈ events, event ≠ .Reset) : bm.failed_agents ⊆ later.failed_agents := by
  induction events generalizing bm with
  | nil =>
    cases h
    exact Finset.Subset.refl _
  | cons event events ih =>
    obtain ⟨next, hstep, hrun⟩ := Machine.run_cons_iff.mp h
    exact (step_failed hstep (he _ (by simp))).trans (ih hrun fun e hmem => he e (by simp [hmem]))

/-- The agents reach their barrier one after the other. -/
def heartbeats (ids : List String) : List ManagerEvent :=
  ids.map fun id => .Heartbeat id { at_barrier := true }

theorem run_heartbeats (bm : BarrierManager) (ids : List String) :
    ∃ later, managerMachine.run bm (heartbeats ids) = some later ∧
      later.failed_agents = bm.failed_agents ∧ bm.ready_agents ⊆ later.ready_agents ∧
      ∀ id ∈ ids, id ∈ bm.agents.keySet → id ∈ later.ready_agents := by
  induction ids generalizing bm with
  | nil => exact ⟨bm, rfl, rfl, Finset.Subset.refl _, by simp⟩
  | cons id ids ih =>
    obtain ⟨later, hrun, hfailed, hready, hall⟩ :=
      ih (bm.process_heartbeat id { at_barrier := true })
    rw [process_heartbeat_failed] at hfailed
    rw [process_heartbeat_ready] at hready
    rw [process_heartbeat_agents] at hall
    refine ⟨later, hrun, hfailed, ?_, ?_⟩
    · refine Finset.Subset.trans ?_ hready
      split
      · exact Finset.subset_insert _ _
      · exact Finset.Subset.refl _
    · intro other hother hmem
      rcases List.mem_cons.mp hother with rfl | hother
      · rw [if_pos ⟨AList.mem_keySet.mp hmem, rfl⟩] at hready
        exact hready (Finset.mem_insert_self _ _)
      · exact hall other hother hmem

/-- More than half of the agents can be ready and alive as long as that many are alive. -/
theorem attainable_iff (hr : Registered bm) : Attainable ready_alive bm ↔
    bm.agents.keySet.card < 2 * (bm.agents.keySet \ bm.failed_agents).card := by
  constructor
  · rintro ⟨events, later, he, hrun, hmost⟩
    have hagents := (run_frame hrun).1
    have hlater : Registered later := Machine.run_always (fun _ _ _ => step_registered) hr hrun
    have hsub : later.ready_agents \ later.failed_agents ⊆
        bm.agents.keySet \ bm.failed_agents := by
      rw [← hagents]
      exact Finset.sdiff_subset_sdiff hlater.ready (run_failed hrun he)
    have hcard := Finset.card_le_card hsub
    unfold ready_alive at hmost
    rw [hagents] at hmost
    omega
  · intro hmost
    obtain ⟨later, hrun, hfailed, -, hall⟩ :=
      run_heartbeats bm (bm.agents.keySet \ bm.failed_agents).toList
    refine ⟨_, later, ?_, hrun, ?_⟩
    · intro event he
      obtain ⟨id, -, rfl⟩ := List.mem_map.mp he
      exact fun h => by cases h
    · have hsub : bm.agents.keySet \ bm.failed_agents ⊆ later.ready_alive := by
        intro id hid
        have hmem := Finset.mem_sdiff.mp hid
        refine Finset.mem_sdiff.mpr ⟨hall id (Finset.mem_toList.mpr hid) hmem.1, ?_⟩
        rw [hfailed]
        exact hmem.2
      have hcard := Finset.card_le_card hsub
      rw [(run_frame hrun).1]
      omega

end BarrierManager

open BarrierManager

/-- In every state that a manager can get to. -/
theorem run_counts_right {agent_ids : List String} {config : PhaseBarrierConfig}
    {events : List ManagerEvent} {bm : BarrierManager}
    (hrun : managerMachine.run (BarrierManager.new agent_ids config) events = some bm) :
    CountsRight ready_alive bm := by
  obtain ⟨hreg, -, -⟩ := run_registered hrun
  refine ⟨checked_barrier_eq hreg, ?_, ?_⟩
  · intro hm hpasses
    rw [check_barrier_passes_iff hreg.failed, hm] at hpasses
    rw [Finset.inter_eq_right.mpr hreg.ready]
    exact hpasses.2
  · intro hm
    rw [majority_fails_iff hreg hm, attainable_iff hreg]
    omega

/-- One of two agents is lost before anybody is ready. -/
theorem counts_right_two_agents : ∃ bm,
    managerMachine.run (twoAgents .Majority) [.Missed "b", .Unanswered "b"] = some bm ∧
      CountsRight ready_alive bm := by
  have hrun : ∃ bm, managerMachine.run (twoAgents .Majority)
      [.Missed "b", .Unanswered "b"] = some bm := ⟨_, rfl⟩
  obtain ⟨bm, hbm⟩ := hrun
  exact ⟨bm, hbm, run_counts_right hbm⟩

/-- Both agents are ready, then one is lost: a majority is reached and has failed. -/
theorem reached_majority_fails : ¬ ∀ (agent_ids : List String) (config : PhaseBarrierConfig)
    (events : List ManagerEvent) (bm : BarrierManager),
    managerMachine.run (BarrierManager.new agent_ids config) events = some bm →
      CountsRight (·.ready_agents) bm := by
  intro h
  have hstate : ∃ bm, managerMachine.run (twoAgents .Majority)
      [.Heartbeat "a" { at_barrier := true }, .Heartbeat "b" { at_barrier := true },
        .Missed "b", .Unanswered "b"] = some bm ∧
      bm.config.barrier_type = .Majority ∧ bm.check_barrier = .Failed ∧
      bm.agents.keySet.card < 2 * bm.ready_agents.card :=
    ⟨_, rfl, rfl, rfl, by decide⟩
  obtain ⟨bm, hrun, hm, hfailed, hmost⟩ := hstate
  refine ((h _ _ _ bm hrun).fails hm).mp hfailed ?_
  exact ⟨[], bm, by simp, rfl, hmost⟩

end sai3_bench.controller
