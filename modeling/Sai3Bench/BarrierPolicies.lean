-- When the manager finds a numbered barrier satisfied: the counts that it
-- compares, against the agents that have reported and the agents that failed.
import Sai3Bench.BarrierManagers
import Mathlib.Data.Finset.Filter
import Mathlib.Algebra.Order.Group.Nat

namespace sai3_bench.controller

open config machines pb

/-! ## Counting -/

section

variable {ι : Type*} [DecidableEq ι] {agents failed reported : Finset ι}

/-- No agent failed and the counts agree: every agent has reported. -/
theorem all_reported_iff (hf : failed ⊆ agents) (hr : reported ⊆ agents \ failed) :
    failed.card = 0 ∧ reported.card = agents.card - failed.card ↔ ∀ x ∈ agents, x ∈ reported := by
  have hle : reported ⊆ agents := hr.trans Finset.sdiff_subset
  constructor
  · rintro ⟨h0, hc⟩
    have heq : reported = agents := Finset.eq_of_subset_of_card_le hle (by omega)
    intro x hx
    rwa [heq]
  · intro h
    have hnone : failed = ∅ := by
      refine Finset.eq_empty_of_forall_notMem fun x hx => ?_
      exact (Finset.mem_sdiff.mp (hr (h x (hf hx)))).2 hx
    have heq : reported = agents := Finset.Subset.antisymm hle h
    simp [hnone, heq]

/-- The counts of those who are alive agree: all of them have reported. -/
theorem alive_reported_iff (hf : failed ⊆ agents) (hr : reported ⊆ agents \ failed) :
    reported.card = agents.card - failed.card ∧ 0 < agents.card - failed.card ↔
      (∀ x ∈ agents, x ∉ failed → x ∈ reported) ∧ ∃ x ∈ agents, x ∉ failed := by
  have hcard : (agents \ failed).card = agents.card - failed.card := Finset.card_sdiff_of_subset hf
  constructor
  · rintro ⟨hc, hpos⟩
    have heq : reported = agents \ failed := Finset.eq_of_subset_of_card_le hr (by omega)
    have hne : (agents \ failed).Nonempty := Finset.card_pos.mp (by omega)
    refine ⟨fun x hx hxf => heq ▸ Finset.mem_sdiff.mpr ⟨hx, hxf⟩, ?_⟩
    obtain ⟨x, hx⟩ := hne
    exact ⟨x, (Finset.mem_sdiff.mp hx).1, (Finset.mem_sdiff.mp hx).2⟩
  · rintro ⟨hall, x, hx, hxf⟩
    have heq : reported = agents \ failed := by
      refine Finset.Subset.antisymm hr fun y hy => ?_
      exact hall y (Finset.mem_sdiff.mp hy).1 (Finset.mem_sdiff.mp hy).2
    have hpos : 0 < (agents \ failed).card :=
      Finset.card_pos.mpr ⟨x, Finset.mem_sdiff.mpr ⟨hx, hxf⟩⟩
    exact ⟨by rw [heq, hcard], by omega⟩

theorem half_reported_iff (hr : reported ⊆ agents) :
    agents.card / 2 < reported.card ↔ agents.card < 2 * (agents.filter (· ∈ reported)).card := by
  have heq : agents.filter (· ∈ reported) = reported := by
    ext x
    simp only [Finset.mem_filter]
    exact ⟨And.right, fun h => ⟨hr h, h⟩⟩
  rw [heq]
  omega

end

/-- What a policy asks of the agents, the failed ones and those who have
reported. -/
def Satisfied (policy : BarrierType) (agents failed reported : Finset String) : Prop :=
  match policy with
  | .AllOrNothing => ∀ id ∈ agents, id ∈ reported
  | .BestEffort => (∀ id ∈ agents, id ∉ failed → id ∈ reported) ∧ ∃ id ∈ agents, id ∉ failed
  | .Majority => agents.card < 2 * (agents.filter (· ∈ reported)).card

namespace BarrierManager

/-- The agents that are ready at barrier `k`. -/
def readyAt (bm : BarrierManager) (k : Nat) : Finset String :=
  ((bm.barrier_agents.lookup k).map (·.ready_agents.keySet)).getD ∅

def releasedAt (bm : BarrierManager) (k : Nat) : Bool :=
  ((bm.barrier_agents.lookup k).map (·.released)).getD false

variable {bm : BarrierManager} {id : String} {j k seq : Nat}

/-! ## What the operations do to the barriers -/

@[simp] theorem process_heartbeat_barriers (p : PhaseProgress) :
    (bm.process_heartbeat id p).barrier_agents = bm.barrier_agents := by
  unfold process_heartbeat
  split <;> rfl

@[simp] theorem process_heartbeat_failed (p : PhaseProgress) :
    (bm.process_heartbeat id p).failed_agents = bm.failed_agents := by
  unfold process_heartbeat
  split <;> rfl

@[simp] theorem process_heartbeat_config (p : PhaseProgress) :
    (bm.process_heartbeat id p).config = bm.config := by
  unfold process_heartbeat
  split <;> rfl

@[simp] theorem process_heartbeat_agents (p : PhaseProgress) :
    (bm.process_heartbeat id p).agents.keySet = bm.agents.keySet := by
  unfold process_heartbeat
  split
  · rfl
  · rename_i hb h
    rw [AList.keySet_insert]
    exact Finset.insert_eq_of_mem (AList.mem_iff_lookup.mpr ⟨hb, h⟩)

theorem missed_frame (bm : BarrierManager) (id : String) : (bm.missed id).1.barrier_agents = bm.barrier_agents ∧
    (bm.missed id).1.failed_agents = bm.failed_agents ∧
    (bm.missed id).1.ready_agents = bm.ready_agents ∧ (bm.missed id).1.config = bm.config ∧
    (bm.missed id).1.agents.keySet = bm.agents.keySet := by
  unfold missed
  split
  · exact ⟨rfl, rfl, rfl, rfl, rfl⟩
  · rename_i hb h
    split
    · exact ⟨rfl, rfl, rfl, rfl, rfl⟩
    · refine ⟨rfl, rfl, rfl, rfl, ?_⟩
      rw [AList.keySet_insert]
      exact Finset.insert_eq_of_mem (AList.mem_iff_lookup.mpr ⟨hb, h⟩)

/-- A report is recorded once, whatever its sequence number. -/
@[simp] theorem agent_at_barrier_readyAt : (bm.agent_at_barrier id k seq).readyAt j =
    if j = k then insert id (bm.readyAt k) else bm.readyAt j := by
  unfold readyAt agent_at_barrier
  simp only [AList.lookup_insert_if]
  by_cases hj : j = k
  · simp only [hj, if_true, Option.map_some, Option.getD_some]
    cases hk : bm.barrier_agents.lookup k with
    | none => rfl
    | some s =>
      simp only [Option.getD_some, Option.map_some]
      cases hid : s.ready_agents.lookup id with
      | none => simp
      | some old =>
        -- an older number leaves the table, which has the agent already
        have hmem : id ∈ s.ready_agents.keySet := AList.mem_iff_lookup.mpr ⟨old, hid⟩
        by_cases hlt : old < seq
        · simp [hlt]
        · simp [hlt, Finset.insert_eq_of_mem hmem]
  · simp [hj]

@[simp] theorem agent_at_barrier_releasedAt :
    (bm.agent_at_barrier id k seq).releasedAt j = bm.releasedAt j := by
  unfold releasedAt agent_at_barrier
  simp only [AList.lookup_insert_if]
  by_cases hj : j = k
  · subst hj
    cases hk : bm.barrier_agents.lookup j with
    | none => simp
    | some s =>
      simp only [if_true, Option.getD_some, Option.map_some]
      split
      · split <;> rfl
      · rfl
  · simp [hj]

@[simp] theorem clear_barrier_readyAt : (bm.clear_barrier k).readyAt j = bm.readyAt j := by
  unfold readyAt clear_barrier
  simp only [AList.lookup_modify]
  by_cases hj : j = k
  · subst hj
    cases bm.barrier_agents.lookup j <;> simp
  · simp [hj]

/-! ## What every manager keeps -/

/-- Only agents of the manager are ready for a phase, or failed. -/
structure Registered (bm : BarrierManager) : Prop where
  ready : bm.ready_agents ⊆ bm.agents.keySet
  failed : bm.failed_agents ⊆ bm.agents.keySet

theorem process_heartbeat_ready (p : PhaseProgress) : (bm.process_heartbeat id p).ready_agents =
    if id ∈ bm.agents ∧ reached p = true then insert id bm.ready_agents else bm.ready_agents := by
  unfold process_heartbeat
  split
  · rename_i h
    simp [AList.lookup_eq_none.mp h]
  · rename_i hb h
    simp [AList.mem_iff_lookup.mpr ⟨hb, h⟩]

@[simp] theorem unanswered_agents : (bm.unanswered id).agents.keySet = bm.agents.keySet := by
  simp [unanswered]

@[simp] theorem reset_agents : bm.reset_barrier_state.agents.keySet = bm.agents.keySet := by
  simp [reset_barrier_state]

variable {b : BarrierManager} {e : ManagerEvent} {es : List ManagerEvent}

/-- The agents and the policy of a manager never change. -/
theorem step_frame (h : managerMachine.step bm e = some b) :
    b.agents.keySet = bm.agents.keySet ∧ b.config = bm.config := by
  cases e with
  | Heartbeat id p => cases h; simp
  | Missed id =>
    cases h
    obtain ⟨_, _, _, hc, hk⟩ := bm.missed_frame id
    exact ⟨hk, hc⟩
  | Unanswered id =>
    simp only [managerMachine, step] at h
    split at h <;> cases h
    exact ⟨unanswered_agents, rfl⟩
  | AtBarrier id k seq => cases h; exact ⟨rfl, rfl⟩
  | Clear k => cases h; exact ⟨rfl, rfl⟩
  | Reset => cases h; exact ⟨reset_agents, rfl⟩

theorem run_frame (h : managerMachine.run bm es = some b) :
    b.agents.keySet = bm.agents.keySet ∧ b.config = bm.config :=
  Machine.run_always (I := fun c => c.agents.keySet = bm.agents.keySet ∧ c.config = bm.config)
    (fun _ _ _ hI hs => ⟨(step_frame hs).1.trans hI.1, (step_frame hs).2.trans hI.2⟩) ⟨rfl, rfl⟩ h

theorem step_registered (hr : Registered bm) (h : managerMachine.step bm e = some b) :
    Registered b := by
  cases e with
  | Heartbeat id p =>
    cases h
    refine ⟨?_, by simpa using hr.failed⟩
    rw [process_heartbeat_ready, process_heartbeat_agents]
    split
    · rename_i hid
      exact Finset.insert_subset hid.1 hr.ready
    · exact hr.ready
  | Missed id =>
    cases h
    obtain ⟨_, hf, hrd, _, hk⟩ := bm.missed_frame id
    exact ⟨by rw [hrd, hk]; exact hr.ready, by rw [hf, hk]; exact hr.failed⟩
  | Unanswered id =>
    simp only [managerMachine, step] at h
    split at h <;> cases h
    rename_i hq
    have hid : id ∈ bm.agents := by
      rw [← AList.lookup_isSome]
      cases hl : bm.agents.lookup id with
      | none => simp [hl] at hq
      | some hb => rfl
    refine ⟨by rw [unanswered_agents]; exact hr.ready, ?_⟩
    rw [unanswered_agents]
    exact Finset.insert_subset hid hr.failed
  | AtBarrier id k seq => cases h; exact ⟨hr.ready, hr.failed⟩
  | Clear k => cases h; exact ⟨hr.ready, hr.failed⟩
  | Reset => cases h; exact ⟨by simp [reset_barrier_state], by simp [reset_barrier_state]⟩

theorem new_keySet (agent_ids : List String) (config : PhaseBarrierConfig) :
    (new agent_ids config).agents.keySet = agent_ids.toFinset := by
  have hfold : ∀ (ids : List String) (m : AList fun _ : String => AgentHeartbeat),
      (ids.foldl (fun m id => m.insert id {}) m).keySet = m.keySet ∪ ids.toFinset := by
    intro ids
    induction ids with
    | nil => simp
    | cons id ids ih =>
      intro m
      rw [List.foldl_cons, ih, AList.keySet_insert, List.toFinset_cons, Finset.insert_union,
        Finset.union_insert]
  simpa [new] using hfold agent_ids ∅

theorem run_registered {agent_ids : List String} {config : PhaseBarrierConfig}
    (h : managerMachine.run (new agent_ids config) es = some b) :
    Registered b ∧ b.agents.keySet = agent_ids.toFinset ∧ b.config = config := by
  have h0 : Registered (new agent_ids config) := ⟨by simp [new], by simp [new]⟩
  have hreg := Machine.run_always (fun _ _ _ hI hs => step_registered hI hs) h0 h
  obtain ⟨hk, hc⟩ := run_frame h
  exact ⟨hreg, hk.trans (new_keySet agent_ids config), hc⟩

/-! ## The reports at a barrier -/

/-- The agents that have reported at barrier `k`, after one more event. -/
def hearReport (k : Nat) (reported : Finset String) : ManagerEvent → Finset String
  | .AtBarrier id j _ => if j = k then insert id reported else reported
  | .Reset => ∅
  | _ => reported

/-- The agents that have reported at barrier `k` since the last reset. -/
def reported (k : Nat) (es : List ManagerEvent) : Finset String := es.foldl (hearReport k) ∅

theorem step_readyAt (h : managerMachine.step bm e = some b) :
    b.readyAt k = hearReport k (bm.readyAt k) e := by
  cases e with
  | Heartbeat id p => cases h; simp [hearReport, readyAt]
  | Missed id =>
    cases h
    simp only [readyAt, (bm.missed_frame id).1, hearReport]
  | Unanswered id =>
    simp only [managerMachine, step] at h
    split at h <;> cases h
    rfl
  | AtBarrier id j seq =>
    cases h
    by_cases hj : j = k <;> simp [hearReport, hj, Ne.symm]
  | Clear j => cases h; exact clear_barrier_readyAt
  | Reset => cases h; rfl

/-- The manager knows exactly the agents that have reported. -/
theorem run_readyAt {agent_ids : List String} {config : PhaseBarrierConfig}
    (h : managerMachine.run (new agent_ids config) es = some b) : b.readyAt k = reported k es := by
  refine Machine.run_remembers (P := fun _ _ => True)
    (I := fun es c => c.readyAt k = reported k es) (fun fs c e d _ hI _ hs => ?_) rfl
    (Machine.along_of_mem fun _ _ _ => trivial) h
  rw [step_readyAt hs, hI, reported, reported, List.foldl_append]
  rfl

/-! ## The policies -/

/-- The counts of the manager say what its policy asks, as long as only
agents that are registered and have not failed are counted. -/
theorem can_release_iff (hr : Registered bm) {reported : Finset String}
    (hin : reported ⊆ bm.agents.keySet \ bm.failed_agents) :
    bm.can_release reported.card = true ↔
      Satisfied bm.config.barrier_type bm.agents.keySet bm.failed_agents reported := by
  unfold can_release Satisfied
  rw [← AList.card_keySet]
  cases bm.config.barrier_type with
  | AllOrNothing => simpa using all_reported_iff hr.failed hin
  | BestEffort => simpa using alive_reported_iff hr.failed hin
  | Majority => simpa using half_reported_iff (hin.trans Finset.sdiff_subset)

/-- Nobody has reported: no policy is satisfied. -/
theorem not_satisfied_empty {policy : BarrierType} {agents failed : Finset String}
    (hne : agents.Nonempty) : ¬ Satisfied policy agents failed ∅ := by
  obtain ⟨x, hx⟩ := hne
  cases policy with
  | AllOrNothing => exact fun h => by simpa using h x hx
  | BestEffort =>
    rintro ⟨hall, y, hy, hyf⟩
    simpa using hall y hy hyf
  | Majority => simp [Satisfied]

theorem known_of_ready (h : (bm.readyAt k).Nonempty) : k ∈ bm.barrier_agents := by
  cases hk : bm.barrier_agents.lookup k with
  | none => simp [readyAt, hk] at h
  | some state => exact AList.mem_iff_lookup.mpr ⟨state, hk⟩

/-- An unreleased barrier is ready when somebody has come there and the counts
allow it. -/
theorem check_barrier_ready_isSome_iff (hrel : bm.releasedAt k = false) :
    (bm.check_barrier_ready k).isSome = true ↔
      k ∈ bm.barrier_agents ∧ bm.can_release (bm.readyAt k).card = true := by
  unfold check_barrier_ready
  cases hk : bm.barrier_agents.lookup k with
  | none => simp [AList.lookup_eq_none.mp hk]
  | some state =>
    have hopen : state.released = false := by simpa [releasedAt, hk] using hrel
    have hcard : (bm.readyAt k).card = state.ready_agents.size := by
      simp [readyAt, hk, AList.card_keySet]
    have hmem : k ∈ bm.barrier_agents := AList.mem_iff_lookup.mpr ⟨state, hk⟩
    rw [hcard]
    by_cases hc : bm.can_release state.ready_agents.size = true <;> simp [hopen, hc, hmem]

theorem check_barrier_ready_iff (hr : Registered bm) (hne : bm.agents.keySet.Nonempty)
    (hrel : bm.releasedAt k = false) (hin : bm.readyAt k ⊆ bm.agents.keySet \ bm.failed_agents) :
    (bm.check_barrier_ready k).isSome = true ↔
      Satisfied bm.config.barrier_type bm.agents.keySet bm.failed_agents (bm.readyAt k) := by
  rw [check_barrier_ready_isSome_iff hrel, can_release_iff hr hin]
  refine and_iff_right_of_imp fun h => known_of_ready ?_
  by_contra hnone
  rw [Finset.not_nonempty_iff_eq_empty.mp hnone] at h
  exact not_satisfied_empty hne h

end BarrierManager

open BarrierManager

def twoAgents (policy : BarrierType) : BarrierManager :=
  BarrierManager.new ["a", "b"]
    { barrier_type := policy, heartbeat_interval := 30, missed_threshold := 1, query_timeout := 10,
      query_retries := 2, agent_barrier_timeout := 120 }

end sai3_bench.controller
