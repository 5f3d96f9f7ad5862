-- Each stage has a barrier type of its own, and one manager with one type
-- decides on all of them: when the decisions are the same.
import Sai3Bench.ControllerManagers

namespace sai3_bench.config

/-- The type of a stage's barrier: that of its own block, or else of its phase. -/
def BarrierSyncConfig.typeOf (b : BarrierSyncConfig) (stage : StageConfig) : BarrierType :=
  (stage.barrier.getD (b.get_phase_config (phaseOf stage.config))).barrier_type

/-- The type of the barrier of stage `k`, in the order the stages run. -/
def DistributedConfig.typeOfStage (d : DistributedConfig) (k : Nat) : Option BarrierType :=
  match d.get_sorted_stages with
  | .ok stages => stages[k]?.map d.barrier_sync.typeOf
  | .error _ => none

end sai3_bench.config

namespace sai3_bench.controller

open config machines pb Controller

namespace BarrierManager

variable {bm b : BarrierManager} {t : BarrierType} {k : Nat} {id : String}

/-- The same manager under another policy. -/
def withType (bm : BarrierManager) (t : BarrierType) : BarrierManager :=
  { bm with config := { bm.config with barrier_type := t } }

/-- The manager decides on barrier `k` as the policy does. -/
def DecidesAs (bm : BarrierManager) (t : BarrierType) (k : Nat) : Prop :=
  (bm.check_barrier_ready k).isSome = ((bm.withType t).check_barrier_ready k).isSome

theorem withType_same (h : bm.config.barrier_type = t) : bm.withType t = bm := by
  unfold withType
  rw [← h]

/-! ## Policies that decide the same -/

/-- A barrier where nobody has reported is not known. -/
def Reported (bm : BarrierManager) : Prop :=
  ∀ k state, bm.barrier_agents.lookup k = some state → 0 < state.ready_agents.size

theorem size_insert_pos (m : AList fun _ : String => Nat) (seq : Nat) :
    0 < (m.insert id seq).size := by
  rw [← AList.card_keySet, Finset.card_pos]
  exact ⟨id, by simp⟩

theorem agent_at_barrier_reported (h : Reported bm) (seq : Nat) :
    Reported (bm.agent_at_barrier id k seq) := by
  intro j state hj
  unfold agent_at_barrier at hj
  simp only [AList.lookup_insert_if] at hj
  by_cases hjk : j = k
  · rw [if_pos hjk, Option.some.injEq] at hj
    subst hj
    cases hk : bm.barrier_agents.lookup k with
    | none => exact size_insert_pos _ _
    | some old =>
      have hold := h k old hk
      simp only [Option.getD_some]
      split
      · split
        · exact size_insert_pos _ _
        · exact hold
      · exact size_insert_pos _ _
  · rw [if_neg hjk] at hj
    exact h j state hj

theorem step_reported {e : ManagerEvent} (h : Reported bm)
    (hs : managerMachine.step bm e = some b) : Reported b := by
  cases e with
  | Heartbeat id p =>
    cases hs
    intro j state hj
    rw [process_heartbeat_barriers] at hj
    exact h j state hj
  | Missed id =>
    cases hs
    intro j state hj
    rw [(bm.missed_frame id).1] at hj
    exact h j state hj
  | Unanswered id =>
    simp only [managerMachine, step] at hs
    split at hs <;> cases hs
    exact h
  | AtBarrier id k seq =>
    cases hs
    exact agent_at_barrier_reported h seq
  | Clear k =>
    cases hs
    intro j state hj
    unfold clear_barrier at hj
    simp only [AList.lookup_modify] at hj
    split at hj
    · obtain ⟨old, hold, rfl⟩ := Option.map_eq_some_iff.mp hj
      exact h k old hold
    · exact h j state hj
  | Reset =>
    cases hs
    intro j state hj
    simp [reset_barrier_state] at hj

/-- With at most one agent, all-or-nothing and best effort ask for the same. -/
theorem few_agents_decide (hr : Registered bm) (hb : Reported bm)
    (hfew : bm.agents.keySet.card ≤ 1) (hown : bm.config.barrier_type ≠ .Majority)
    (ht : t ≠ .Majority) : bm.DecidesAs t k := by
  have hle : bm.failed_agents.card ≤ bm.agents.keySet.card := Finset.card_le_card hr.failed
  unfold DecidesAs check_barrier_ready withType
  dsimp only
  cases hk : bm.barrier_agents.lookup k with
  | none => rfl
  | some state =>
    have hpos := hb k state hk
    dsimp only
    split
    · rfl
    · have hcan : bm.can_release state.ready_agents.size = ({ bm with
          config := { bm.config with barrier_type := t } } : BarrierManager).can_release
            state.ready_agents.size := by
        unfold can_release
        rw [← AList.card_keySet, Bool.eq_iff_iff]
        cases hty : bm.config.barrier_type <;> cases t <;>
          first
          | exact absurd rfl ht
          | exact absurd hty hown
          | simp only [Bool.and_eq_true, decide_eq_true_eq]
        all_goals omega
      rw [hcan]

/-! ## A state that tells the policies apart -/

/-- An agent can fail at any time. -/
theorem can_fail (hid : id ∈ bm.agents) (hf : id ∉ bm.failed_agents) :
    ∃ es b, managerMachine.run bm es = some b ∧ b.failed_agents = insert id bm.failed_agents ∧
      b.barrier_agents = bm.barrier_agents ∧ b.agents.keySet = bm.agents.keySet := by
  obtain ⟨hb, hhb⟩ := AList.mem_iff_lookup.mp hid
  -- it is late until it is queried, and the query stays without an answer
  induction hn : bm.config.missed_threshold - hb.missed_count generalizing bm hb with
  | zero =>
    have hquery : ((bm.missed id).1.agents.lookup id).any (·.query_in_progress) = true := by
      unfold missed
      simp only [hhb, if_neg hf, AList.lookup_insert, Option.any_some]
      cases hb.query_in_progress <;> simp
      omega
    obtain ⟨hbar, hfail, _, _, hk⟩ := bm.missed_frame id
    refine ⟨[.Missed id, .Unanswered id], (bm.missed id).1.unanswered id, ?_, ?_, hbar, ?_⟩
    · rw [Machine.run_cons_iff]
      refine ⟨(bm.missed id).1, rfl, ?_⟩
      rw [Machine.run_cons_iff]
      exact ⟨_, by simp only [managerMachine, step, if_pos hquery], rfl⟩
    · exact congrArg (insert id) hfail
    · rw [unanswered_agents, hk]
  | succ n ih =>
    obtain ⟨hbar, hfail, _, hc, hk⟩ := bm.missed_frame id
    have hlook : ∃ hb', (bm.missed id).1.agents.lookup id = some hb' ∧
        hb'.missed_count = hb.missed_count + 1 := by
      unfold missed
      simp only [hhb, if_neg hf, AList.lookup_insert]
      exact ⟨_, rfl, rfl⟩
    obtain ⟨hb', hhb', hcount⟩ := hlook
    obtain ⟨es, b, hrun, h1, h2, h3⟩ := @ih (bm.missed id).1
      (AList.mem_iff_lookup.mpr ⟨hb', hhb'⟩) (by rwa [hfail]) hb' hhb'
      (by rw [hc, hcount]; omega)
    exact ⟨.Missed id :: es, b, Machine.run_cons_iff.mpr ⟨_, rfl, hrun⟩, by rw [h1, hfail],
      h2.trans hbar, h3.trans hk⟩

theorem can_fail_all (ids : List String) (hids : ∀ id ∈ ids, id ∈ bm.agents) :
    ∃ es b, managerMachine.run bm es = some b ∧
      b.failed_agents = bm.failed_agents ∪ ids.toFinset ∧ b.barrier_agents = bm.barrier_agents ∧
        b.agents.keySet = bm.agents.keySet := by
  induction ids generalizing bm with
  | nil => exact ⟨[], bm, rfl, by simp, rfl, rfl⟩
  | cons id ids ih =>
    have hin : ∀ j ∈ ids, j ∈ bm.agents := fun j hj => hids j (List.mem_cons_of_mem _ hj)
    by_cases hf : id ∈ bm.failed_agents
    · obtain ⟨es, b, hrun, h1, h2, h3⟩ := ih hin
      refine ⟨es, b, hrun, ?_, h2, h3⟩
      rw [h1, List.toFinset_cons, Finset.union_insert, ← Finset.insert_union,
        Finset.insert_eq_of_mem hf]
    · obtain ⟨es, d, hrun, h1, h2, h3⟩ := can_fail (hids id List.mem_cons_self) hf
      obtain ⟨fs, b, hrun', h1', h2', h3'⟩ := @ih d fun j hj => by
        rw [← AList.mem_keySet, h3]
        exact hin j hj
      refine ⟨es ++ fs, b, Machine.run_append_iff.mpr ⟨d, hrun, hrun'⟩, ?_, h2'.trans h2,
        h3'.trans h3⟩
      rw [h1', h1, List.toFinset_cons, Finset.union_insert, Finset.insert_union]

theorem can_report_all (bm : BarrierManager) (k : Nat) (ids : List String) :
    ∃ es b, managerMachine.run bm es = some b ∧ b.readyAt k = bm.readyAt k ∪ ids.toFinset ∧
      b.releasedAt k = bm.releasedAt k ∧ b.failed_agents = bm.failed_agents ∧
        b.agents.keySet = bm.agents.keySet := by
  induction ids generalizing bm with
  | nil => exact ⟨[], bm, rfl, by simp, rfl, rfl, rfl⟩
  | cons id ids ih =>
    obtain ⟨es, b, hrun, h1, h2, h3, h4⟩ := @ih (bm.agent_at_barrier id k k)
    refine ⟨.AtBarrier id k k :: es, b, Machine.run_cons_iff.mpr ⟨_, rfl, hrun⟩, ?_, ?_, h3, h4⟩
    · rw [h1, agent_at_barrier_readyAt, if_pos rfl, List.toFinset_cons, Finset.union_insert,
        Finset.insert_union]
    · rw [h2, agent_at_barrier_releasedAt]

/-- The decision on an open barrier where some have reported. -/
theorem decidesAs_iff (hrel : bm.releasedAt k = false) (hready : (bm.readyAt k).Nonempty) :
    bm.DecidesAs t k ↔ bm.can_release (bm.readyAt k).card =
      (bm.withType t).can_release (bm.readyAt k).card := by
  have hdecision : ∀ {b : BarrierManager}, b.releasedAt k = false → (b.readyAt k).Nonempty →
      (b.check_barrier_ready k).isSome = b.can_release (b.readyAt k).card := by
    intro b hrel hready
    rw [Bool.eq_iff_iff, check_barrier_ready_isSome_iff hrel]
    exact and_iff_right (known_of_ready hready)
  have hother : ((bm.withType t).check_barrier_ready k).isSome =
      (bm.withType t).can_release (bm.readyAt k).card := hdecision hrel hready
  unfold DecidesAs
  rw [hdecision hrel hready, hother]

/-- Any registered agents can have failed while any others have reported. -/
theorem can_count (agent_ids : List String) (config : PhaseBarrierConfig) (k : Nat)
    (lost reporters : List String) (hlost : ∀ id ∈ lost, id ∈ agent_ids) :
    ∃ es b, managerMachine.run (new agent_ids config) es = some b ∧
      b.agents.keySet = agent_ids.toFinset ∧ b.failed_agents = lost.toFinset ∧
      b.readyAt k = reporters.toFinset ∧ b.releasedAt k = false ∧ b.config = config := by
  have hin : ∀ id ∈ lost, id ∈ (new agent_ids config).agents := by
    intro id hid
    rw [← AList.mem_keySet, new_keySet, List.mem_toFinset]
    exact hlost id hid
  obtain ⟨es, d, hrun, hf, hbar, hk⟩ := can_fail_all lost hin
  obtain ⟨fs, b, hrun', hr, hrel, hf', hk'⟩ := can_report_all d k reporters
  have hall : managerMachine.run (new agent_ids config) (es ++ fs) = some b :=
    Machine.run_append_iff.mpr ⟨d, hrun, hrun'⟩
  have hnone : d.barrier_agents = ∅ := hbar
  refine ⟨es ++ fs, b, hall, ?_, ?_, ?_, ?_, (run_registered hall).2.2⟩
  · rw [hk', hk, new_keySet]
  · rw [hf', hf]
    exact Finset.empty_union _
  · rw [hr]
    simp [readyAt, hnone]
  · rw [hrel]
    simp [releasedAt, hnone]

/-- Two policies differ on some manager of these agents, when there are at
least two agents or one of the policies is a majority. -/
theorem can_differ (agent_ids : List String) (config : PhaseBarrierConfig)
    (hne : config.barrier_type ≠ t)
    (hmany : 2 ≤ agent_ids.toFinset.card ∨ config.barrier_type = .Majority ∨ t = .Majority) :
    ∃ es b, managerMachine.run (new agent_ids config) es = some b ∧ ¬ b.DecidesAs t k := by
  by_cases hmaj : config.barrier_type = .Majority ∨ t = .Majority
  · -- everyone fails and everyone reports, and only a majority is content
    obtain ⟨es, b, hrun, hk, hf, hr, hrel, hc⟩ :=
      can_count agent_ids config k agent_ids ("" :: agent_ids) fun _ h => h
    have hne' : (b.readyAt k).Nonempty := by
      rw [hr, List.toFinset_nonempty_iff]
      simp
    have hle : agent_ids.toFinset.card ≤ (b.readyAt k).card := by
      rw [hr]
      exact Finset.card_le_card (by simp)
    have hpos : 0 < (b.readyAt k).card := Finset.card_pos.mpr hne'
    refine ⟨es, b, hrun, ?_⟩
    rw [decidesAs_iff hrel hne', Bool.eq_iff_iff]
    unfold can_release withType
    rw [← AList.card_keySet, hk, hf, hc]
    rcases hmaj with hmaj | hmaj
    · rw [hmaj] at hne ⊢
      cases t <;> first | exact absurd rfl hne | simp only [Bool.and_eq_true, decide_eq_true_eq]
      all_goals omega
    · rw [hmaj] at hne ⊢
      cases hty : config.barrier_type <;> first
        | exact absurd hty hne
        | simp only [Bool.and_eq_true, decide_eq_true_eq]
      all_goals omega
  · -- one agent fails and the others report, and only best effort is content
    have htwo : 2 ≤ agent_ids.toFinset.card := hmany.resolve_right hmaj
    obtain ⟨x, hx⟩ : agent_ids.toFinset.Nonempty := Finset.card_pos.mp (by omega)
    obtain ⟨es, b, hrun, hk, hf, hr, hrel, hc⟩ :=
      can_count agent_ids config k [x] (agent_ids.filter (· ≠ x)) (by simpa using hx)
    have hcard : (b.readyAt k).card = agent_ids.toFinset.card - 1 := by
      rw [hr, ← Finset.card_erase_of_mem hx]
      congr 1
      ext y
      simp [and_comm]
    have hlost : b.failed_agents.card = 1 := by
      rw [hf]
      rfl
    refine ⟨es, b, hrun, ?_⟩
    rw [decidesAs_iff hrel (Finset.card_pos.mp (by omega)), Bool.eq_iff_iff]
    unfold can_release withType
    rw [← AList.card_keySet, hk, hlost, hc, hcard]
    push Not at hmaj
    cases hty : config.barrier_type <;> cases t <;> first
      | exact absurd hty hne
      | exact absurd hty hmaj.1
      | exact absurd rfl hmaj.2
      | simp only [Bool.and_eq_true, decide_eq_true_eq, true_and, and_true]
    all_goals omega

end BarrierManager

open BarrierManager

/-! ## A run -/

/-- A report at barrier `k` releases it exactly when type `t` lets it. -/
def ReleasesAs (s : Setup) (t : BarrierType) (k : Nat) (c : Controller) (e : Event) : Prop :=
  ∀ bm b, deciderAt k c e = some bm → (controllerMachine s).step c e = some b →
    (releasesOf k b.control ≠ releasesOf k c.control ↔
      ((bm.withType t).check_barrier_ready k).isSome = true)

/-- The two types ask the same of so many agents. -/
def SamePolicy (t own : BarrierType) (num_agents : Nat) : Prop :=
  t = own ∨ num_agents ≤ 1 ∧ t ≠ .Majority ∧ own ≠ .Majority

variable {s : Setup} {c : Controller} {e : Event} {bm : BarrierManager} {k : Nat} {t : BarrierType}

/-- Who decides on a barrier has just heard a report there. -/
theorem deciderAt_run (h : deciderAt k c e = some bm) :
    (bm.readyAt k).Nonempty ∧
      ∃ bm₁ fs, c.barrier_manager = some bm₁ ∧ managerMachine.run bm₁ fs = some bm := by
  unfold deciderAt at h
  split at h
  · rename_i bm₁ stats turns tsv_written hp hbm₁
    split at h <;> cases h
    refine ⟨?_, bm₁, [.Heartbeat stats.agent_id (progressOf stats),
      .AtBarrier stats.agent_id k k], hbm₁, rfl⟩
    rw [agent_at_barrier_readyAt, if_pos rfl]
    exact Finset.insert_nonempty _ _
  · cases h

/-- A decision to release is seen on the channel. -/
theorem released_iff (hready : (bm.readyAt k).Nonempty) (xs : List String) :
    xs ++ released (some bm) k ≠ xs ↔ (bm.check_barrier_ready k).isSome = true := by
  unfold released
  cases hc : bm.check_barrier_ready k with
  | none => simp [hc]
  | some info =>
    obtain ⟨_, _, hmem, _, _⟩ := check_barrier_ready_some hc
    obtain ⟨x, hx⟩ := hready
    simp only [hc, Option.bind_some, Option.map_some, Option.getD_some, Option.isSome_some, iff_true]
    intro hnil
    have hx' := (hmem x).mpr hx
    rw [List.append_right_eq_self.mp hnil] at hx'
    cases hx'

/-- The barrier of each stage is decided on by the stage's own type, whatever
happens to the manager, exactly when this type asks the same of the agents as
that of the prepare phase. Then it is so at every report of every run. -/
theorem a_stage_follows_its_own_policy_iff {s : Setup} {d : DistributedConfig}
    {bm : BarrierManager} (hd : s.distributed = some d) (hbm : s.barrier_manager = some bm) :
    ∀ k t, d.typeOfStage k = some t →
      ((∀ fs b, managerMachine.run bm fs = some b → b.DecidesAs t k) ↔
        SamePolicy (d.barrier_sync.get_phase_config "prepare").barrier_type t
          s.agent_addrs.toFinset.card) ∧
      (SamePolicy (d.barrier_sync.get_phase_config "prepare").barrier_type t
          s.agent_addrs.toFinset.card →
        ∀ es c, (controllerMachine s).run (Controller.new s) es = some c →
          (controllerMachine s).Along (ReleasesAs s t k) (Controller.new s) es) := by
  intro k t _
  have hnew : bm = BarrierManager.new s.agent_addrs (d.barrier_sync.get_phase_config "prepare") := by
    unfold Setup.barrier_manager at hbm
    rw [hd] at hbm
    dsimp only at hbm
    split at hbm <;> cases hbm
    rfl
  have hiff : (∀ fs b, managerMachine.run bm fs = some b → b.DecidesAs t k) ↔
      SamePolicy (d.barrier_sync.get_phase_config "prepare").barrier_type t
        s.agent_addrs.toFinset.card := by
    constructor
    · intro hall
      by_contra hsame
      unfold SamePolicy at hsame
      obtain ⟨fs, b, hrun, hdiff⟩ := can_differ (k := k) (t := t) s.agent_addrs
        (d.barrier_sync.get_phase_config "prepare") (by tauto) (by
          by_contra hfew
          push Not at hfew
          exact hsame (.inr ⟨by omega, hfew.2⟩))
      exact hdiff (hall fs b (hnew ▸ hrun))
    · rintro hsame fs b hrun
      rw [hnew] at hrun
      obtain ⟨hreg, hk, hc⟩ := run_registered hrun
      rcases hsame with heq | ⟨hfew, hown, ht⟩
      · unfold DecidesAs
        rw [withType_same (hc ▸ heq)]
      · have hrep := Machine.run_always (fun _ _ _ hI hs => step_reported hI hs)
          (I := Reported) (fun _ _ hj => by cases hj) hrun
        exact few_agents_decide hreg hrep (hk ▸ hfew) (hc ▸ hown) ht
  refine ⟨hiff, fun hsame es c hrun => ?_⟩
  have hall := hiff.mpr hsame
  induction es using List.reverseRecOn generalizing c with
  | nil => trivial
  | append_singleton es e ih =>
    obtain ⟨c₀, hc₀, hstep⟩ := Machine.run_snoc_iff.mp hrun
    refine (Machine.along_snoc hc₀).mpr ⟨ih c₀ hc₀, fun b₀ b hdec hb => ?_⟩
    obtain ⟨hready, bm₁, fs, hbm₁, hfs⟩ := deciderAt_run hdec
    obtain ⟨bm₀, fs₀, hbm₀, hfs₀⟩ := run_manager hc₀ hbm₁
    rw [hbm, Option.some.injEq] at hbm₀
    subst hbm₀
    have hdecides := hall _ _ (Machine.run_append_iff.mpr ⟨bm₁, hfs₀, hfs⟩)
    rw [step_releases hb, hdec, released_iff hready, hdecides]

/-! ## Three agents and a majority of their own -/

/-- The second stage has a majority barrier, the prepare phase has the default. -/
def mixedConfig : DistributedConfig :=
  { stages := [
      { name := "fill", order := 1, completion := .TasksDone, barrier := none,
        timeout_secs := none, optional := false, config := .Prepare none },
      { name := "run", order := 2, completion := .Duration, barrier := some majority,
        timeout_secs := none, optional := false, config := .Execute 60 }]
    barrier_sync := {} }

def mixedAgents : Setup := .ofAgents ["a", "b", "c"] (some mixedConfig)

def mixedRun : List Event :=
  [saysReady "a", saysReady "b", saysReady "c", saysAtBarrier "a" 1]

/-- The barrier of the first stage follows its own policy in this run. -/
theorem the_first_stage_follows_its_own_policy :
    (controllerMachine mixedAgents).Along (ReleasesAs mixedAgents .AllOrNothing 0)
      (Controller.new mixedAgents) mixedRun := by
  have hrun : ∃ c, (controllerMachine mixedAgents).run (Controller.new mixedAgents) mixedRun =
      some c := ⟨_, rfl⟩
  obtain ⟨c, hc⟩ := hrun
  exact (a_stage_follows_its_own_policy_iff (s := mixedAgents) (d := mixedConfig) rfl rfl 0
    .AllOrNothing (by decide)).2 (.inl rfl) _ c hc

/-- Two of three agents report at the barrier of the second stage, and its own
majority would release it. -/
theorem the_second_stage_does_not :
    mixedConfig.typeOfStage 1 = some .Majority ∧
    ∃ c, (controllerMachine mixedAgents).run (Controller.new mixedAgents) mixedRun = some c ∧
      ¬ ReleasesAs mixedAgents .Majority 1 c (saysAtBarrier "b" 1) := by
  have hrun : ∃ c bm b, (controllerMachine mixedAgents).run (Controller.new mixedAgents) mixedRun =
        some c ∧ deciderAt 1 c (saysAtBarrier "b" 1) = some bm ∧
      (controllerMachine mixedAgents).step c (saysAtBarrier "b" 1) = some b ∧
      releasesOf 1 c.control = [] ∧ releasesOf 1 b.control = [] ∧
      ((bm.withType .Majority).check_barrier_ready 1).isSome = true :=
    ⟨_, _, _, rfl, rfl, rfl, rfl, rfl, rfl⟩
  obtain ⟨c, bm, b, hc, hdec, hb, hbefore, hafter, hready⟩ := hrun
  exact ⟨by decide, c, hc, fun h => (h bm b hdec hb).mpr hready (hafter.trans hbefore.symm)⟩

end sai3_bench.controller
