-- A barrier over a whole run of the controller: it is released at one
-- message, and a report that comes later brings no release.
import Sai3Bench.ControllerSteps

namespace sai3_bench.controller

open config machines pb Controller

/-! ## What a run says of a barrier -/

/-- The agents that were sent a release of barrier `k`. -/
def releasesOf (k : Nat) (control : List ControlMessage) : List String :=
  (control.filter fun m => m.command = some .ReleaseBarrier && m.barrier_sequence = k).map (·.agent_id)

/-- The agent that an event reports at barrier `k`. -/
def reportAt (k : Nat) (c : Controller) (e : Event) : Option String :=
  match c.phase, c.barrier_manager, e with
  | .Loop, some _, .Stats stats _ _ =>
    if stats.at_barrier && stats.barrier_sequence = k then some stats.agent_id else none
  | _, _, _ => none

/-- The agents that have reported at barrier `k` in a run, in their order. -/
def reporters (s : Setup) (k : Nat) (es : List Event) : List String :=
  (controllerMachine s).log (fun c e _ => reportAt k c e) (Controller.new s) es

def Controller.readyAt (c : Controller) (k : Nat) : Finset String :=
  (c.barrier_manager.map (·.readyAt k)).getD ∅

def Controller.releasedAt (c : Controller) (k : Nat) : Bool :=
  (c.barrier_manager.map (·.releasedAt k)).getD false

variable {k j : Nat} {s : Setup} {c b : Controller} {e : Event} {stats : LiveStats} {id : String}

theorem releasesOf_append (xs ys : List ControlMessage) :
    releasesOf k (xs ++ ys) = releasesOf k xs ++ releasesOf k ys := by
  simp [releasesOf]

theorem releasesOf_releases (ids : List String) :
    releasesOf k (ids.map (releaseMessage j)) = if j = k then ids else [] := by
  unfold releasesOf
  by_cases h : j = k
  · subst h
    rw [if_pos rfl, List.filter_eq_self.mpr (by simp [releaseMessage])]
    simp [releaseMessage, Function.comp_def]
  · rw [if_neg h, List.filter_eq_nil_iff.mpr (by simp [releaseMessage, h])]
    rfl

theorem releasesOf_goodbye (xs : List ControlMessage) :
    releasesOf k (xs ++ [goodbyeMessage]) = releasesOf k xs := by
  rw [releasesOf_append]
  simp [releasesOf, goodbyeMessage]

/-! ## A report -/

namespace BarrierManager

variable {bm : BarrierManager} {info : BarrierReleaseInfo}

theorem releasedAt_clear : (bm.clear_barrier j).releasedAt k =
    if k = j then (bm.barrier_agents.lookup j).isSome else bm.releasedAt k := by
  unfold releasedAt clear_barrier
  simp only [AList.lookup_modify]
  by_cases h : k = j
  · simp only [if_pos h]
    cases bm.barrier_agents.lookup j <;> rfl
  · simp only [if_neg h]

/-- A release is for the agents that are ready at an unreleased barrier. -/
theorem check_barrier_ready_some (h : bm.check_barrier_ready j = some info) :
    info.barrier_index = j ∧ info.ready_agents.Nodup ∧
      (∀ id, id ∈ info.ready_agents ↔ id ∈ bm.readyAt j) ∧ bm.releasedAt j = false ∧
      (bm.clear_barrier j).releasedAt j = true := by
  rw [releasedAt_clear, if_pos rfl]
  unfold check_barrier_ready at h
  cases hs : bm.barrier_agents.lookup j with
  | none => simp [hs] at h
  | some state =>
    simp only [hs] at h
    cases hrel : state.released with
    | true => simp [hrel] at h
    | false =>
      rw [hrel, if_neg (by simp)] at h
      split at h <;> cases h
      refine ⟨rfl, AList.keys_nodup _, fun id => ?_, ?_, rfl⟩
      · unfold readyAt
        rw [hs]
        exact Iff.rfl
      · unfold releasedAt
        rw [hs]
        exact hrel

end BarrierManager

/-- What one report does to barrier `k`. -/
theorem report_barrier (bm : BarrierManager) (id : String) :
    (c.report bm id j).readyAt k = (if k = j then insert id (bm.readyAt k) else bm.readyAt k) ∧
    ((releasesOf k (c.report bm id j).control = releasesOf k c.control ∧
        (c.report bm id j).releasedAt k = bm.releasedAt k) ∨
      k = j ∧ bm.releasedAt k = false ∧ (c.report bm id j).releasedAt k = true ∧
        ∃ ids : List String, ids.Nodup ∧ (∀ a, a ∈ ids ↔ a ∈ insert id (bm.readyAt k)) ∧
          releasesOf k (c.report bm id j).control = releasesOf k c.control ++ ids) := by
  unfold report
  dsimp only
  cases hc : (bm.agent_at_barrier id j j).check_barrier_ready j with
  | none =>
    refine ⟨?_, .inl ⟨rfl, BarrierManager.agent_at_barrier_releasedAt⟩⟩
    by_cases h : k = j
    · subst h
      exact BarrierManager.agent_at_barrier_readyAt
    · exact BarrierManager.agent_at_barrier_readyAt.trans (by simp [h])
  | some info =>
    obtain ⟨hidx, hnd, hmem, hrel, hclear⟩ := BarrierManager.check_barrier_ready_some hc
    have hready : ((bm.agent_at_barrier id j j).clear_barrier j).readyAt k =
        if k = j then insert id (bm.readyAt k) else bm.readyAt k := by
      rw [BarrierManager.clear_barrier_readyAt, BarrierManager.agent_at_barrier_readyAt]
      split
      · rename_i h
        rw [h]
      · rfl
    refine ⟨hready, ?_⟩
    dsimp only
    rw [releasesOf_append, hidx, releasesOf_releases]
    by_cases h : k = j
    · subst h
      refine .inr ⟨rfl, ?_, hclear, info.ready_agents, hnd, fun a => ?_, by rw [if_pos rfl]⟩
      · rwa [BarrierManager.agent_at_barrier_releasedAt] at hrel
      · rw [hmem, BarrierManager.agent_at_barrier_readyAt, if_pos rfl]
    · refine .inl ⟨by rw [if_neg (Ne.symm h), List.append_nil], ?_⟩
      show ((bm.agent_at_barrier id j j).clear_barrier j).releasedAt k = _
      rw [BarrierManager.releasedAt_clear, if_neg h, BarrierManager.agent_at_barrier_releasedAt]

/-! ## One event -/

/-- The event releases nothing of barrier `k`, and at most reports there. -/
def KeepsBarrier (k : Nat) (c : Controller) (reporter : Option String) (b : Controller) : Prop :=
  releasesOf k b.control = releasesOf k c.control ∧ (Going b →
    (∀ id, id ∈ b.readyAt k ↔ id ∈ c.readyAt k ∨ reporter = some id) ∧
      b.releasedAt k = c.releasedAt k)

/-- The event is a report that releases barrier `k`, for all that have reported. -/
def ReleasesBarrier (k : Nat) (c : Controller) (reporter : Option String) (b : Controller) : Prop :=
  ∃ ids : List String, reporter.isSome = true ∧ c.releasedAt k = false ∧ ids.Nodup ∧
    (∀ id, id ∈ ids ↔ id ∈ c.readyAt k ∨ reporter = some id) ∧
    releasesOf k b.control = releasesOf k c.control ++ ids ∧ (Going b → b.releasedAt k = true)

def BarrierStep (k : Nat) (c : Controller) (reporter : Option String) (b : Controller) : Prop :=
  KeepsBarrier k c reporter b ∨ ReleasesBarrier k c reporter b

theorem barriers_congr (h : b.barrier_manager.map (·.barrier_agents) =
    c.barrier_manager.map (·.barrier_agents)) :
    b.readyAt k = c.readyAt k ∧ b.releasedAt k = c.releasedAt k := by
  unfold Controller.readyAt Controller.releasedAt BarrierManager.readyAt BarrierManager.releasedAt
  cases hb : b.barrier_manager <;> cases hc : c.barrier_manager <;> simp_all

theorem hear_barrier (s : Setup) (k : Nat) (stats : LiveStats) (turns : List BarrierManager.Turn)
    (tsv_written : Bool) (hp : c.phase = .Loop) :
    BarrierStep k c (reportAt k c (.Stats stats turns tsv_written)) (c.hear s stats tsv_written) := by
  unfold reportAt
  rw [hp]
  cases hbm : c.barrier_manager with
  | none =>
    obtain ⟨hm, hcontrol⟩ := hear_unmanaged s stats tsv_written hbm
    obtain ⟨hr, hrel⟩ := barriers_congr (k := k) (b := c.hear s stats tsv_written) (c := c)
      (by rw [hm, hbm])
    exact .inl ⟨by rw [hcontrol], fun _ => ⟨fun id => by simp [hr], hrel⟩⟩
  | some bm =>
    obtain ⟨hm, hcontrol⟩ := hear_managed s stats tsv_written hbm
    let bm' := bm.process_heartbeat stats.agent_id (progressOf stats)
    have hready : bm'.readyAt k = c.readyAt k := by
      simp [Controller.readyAt, hbm, BarrierManager.readyAt, bm']
    have hreleased : bm'.releasedAt k = c.releasedAt k := by
      simp [Controller.releasedAt, hbm, BarrierManager.releasedAt, bm']
    by_cases hb : stats.at_barrier = true
    · simp only [hb, if_true, Bool.true_and, decide_eq_true_eq] at hm hcontrol ⊢
      -- the barrier manager and the channel are those of the report
      have hr : (c.hear s stats tsv_written).readyAt k =
          (c.report bm' stats.agent_id stats.barrier_sequence).readyAt k := by
        unfold Controller.readyAt
        rw [hm]
      have hrel : (c.hear s stats tsv_written).releasedAt k =
          (c.report bm' stats.agent_id stats.barrier_sequence).releasedAt k := by
        unfold Controller.releasedAt
        rw [hm]
      obtain ⟨h1, h2⟩ := report_barrier (c := c) (k := k) (j := stats.barrier_sequence) bm'
        stats.agent_id
      rw [hready] at h1
      have hmem : ∀ id, id ∈ (c.hear s stats tsv_written).readyAt k ↔ id ∈ c.readyAt k ∨
          (if stats.barrier_sequence = k then some stats.agent_id else none) = some id := by
        intro id
        rw [hr, h1]
        by_cases hk : k = stats.barrier_sequence
        · simp [hk, or_comm, eq_comm]
        · simp [hk, Ne.symm hk]
      rcases h2 with ⟨hsent, hsame⟩ | ⟨hk, hun, hnow, ids, hnd, hids, hsent⟩
      · exact .inl ⟨by rw [hcontrol, hsent], fun _ => ⟨hmem, by rw [hrel, hsame, hreleased]⟩⟩
      · refine .inr ⟨ids, by simp [hk], by rw [← hreleased, hun], hnd, fun id => ?_,
          by rw [hcontrol, hsent], fun _ => by rw [hrel, hnow]⟩
        rw [hids, hready]
        simp [hk, or_comm, eq_comm]
    · simp only [hb] at hm hcontrol ⊢
      refine .inl ⟨by rw [hcontrol]; rfl, fun _ => ⟨fun id => ?_, ?_⟩⟩
      · have hr : (c.hear s stats tsv_written).readyAt k = bm'.readyAt k := by
          unfold Controller.readyAt
          rw [hm]
          rfl
        rw [hr, hready]
        simp
      · rw [← hreleased]
        unfold Controller.releasedAt
        rw [hm]
        rfl

/-- What follows leaves the barrier as it is. -/
theorem BarrierStep.trans {r : Option String} {d : Controller} (h : BarrierStep k c r d)
    (hsent : releasesOf k b.control = releasesOf k d.control)
    (hgo : Going b → Going d ∧ b.readyAt k = d.readyAt k ∧ b.releasedAt k = d.releasedAt k) :
    BarrierStep k c r b := by
  rcases h with ⟨hs, hk⟩ | ⟨ids, hr, hun, hnd, hids, hs, hk⟩
  · refine .inl ⟨hsent.trans hs, fun hb => ?_⟩
    obtain ⟨hd, h1, h2⟩ := hgo hb
    rw [h1, h2]
    exact hk hd
  · refine .inr ⟨ids, hr, hun, hnd, hids, hsent.trans hs, fun hb => ?_⟩
    obtain ⟨hd, _, h2⟩ := hgo hb
    rw [h2]
    exact hk hd

theorem BarrierStep.refl : BarrierStep k c none c :=
  .inl ⟨rfl, fun _ => ⟨by simp, rfl⟩⟩

theorem settle_barrier : releasesOf k (c.settle s stats).control = releasesOf k c.control := by
  rcases settle_barriers s c stats with ⟨_, h | h⟩
  · rw [h]
  · rw [h, releasesOf_goodbye]

theorem take_barrier {tsv_written : Bool} {turns : List BarrierManager.Turn}
    (hp : c.phase = .Loop) (h : c.take s stats turns tsv_written = some b) :
    BarrierStep k c (reportAt k c (.Stats stats turns tsv_written)) b := by
  have hheard := hear_barrier s k stats turns tsv_written hp
  have hgoing : Going (c.hear s stats tsv_written) := by
    intro outcome
    rw [hear_frame.2.1, hp]
    simp
  obtain ⟨bm, _, ⟨rfl, hbm⟩ | ⟨_, msg, rfl⟩⟩ := take_cases h
  · refine hheard.trans settle_barrier fun _ => ⟨hgoing, barriers_congr ?_⟩
    rw [(settle_barriers _ _ _).1]
    exact hbm
  · exact hheard.trans rfl fun hb => absurd hb not_going_exits

/-- There is no manager before the startup is over. -/
def Unmanaged (c : Controller) : Prop := c.phase = .Startup → c.barrier_manager = none

theorem setup_barriers : ∀ bm, s.barrier_manager = some bm → bm.barrier_agents = ∅ := by
  intro bm h
  unfold Setup.barrier_manager at h
  split at h
  · cases h
  · split at h <;> cases h
    rfl

/-- The manager of the setup knows of no barrier, as if there were none. -/
theorem begin_barrier (hp : c.phase = .Startup) (hs : c.barrier_manager = none)
    (hb : b.barrier_manager = s.barrier_manager) (hcontrol : b.control = c.control) :
    BarrierStep k c none b := by
  have hgoing : Going c := by
    intro outcome
    rw [hp]
    simp
  refine BarrierStep.refl.trans (by rw [hcontrol]) fun _ => ⟨hgoing, ?_⟩
  unfold Controller.readyAt Controller.releasedAt
  rw [hs, hb]
  cases hm : s.barrier_manager with
  | none => exact ⟨rfl, rfl⟩
  | some bm =>
    have hempty := setup_barriers bm hm
    simp [BarrierManager.readyAt, BarrierManager.releasedAt, hempty]

theorem step_unmanaged (h : (controllerMachine s).step c e = some b) (hs : Unmanaged c) :
    Unmanaged b := by
  intro hb
  cases step_cases h with
  | answers hp => exact hs hp
  | @takes stats turns tsv_written _ hp htake =>
    have hphase : (c.ticked.hear s stats tsv_written).phase = .Loop := hear_frame.2.1.trans hp
    obtain ⟨bm, _, ⟨rfl, _⟩ | ⟨_, msg, rfl⟩⟩ := take_cases htake
    · by_cases h3 : stats.status = 3
      · rw [settle_error h3] at hb
        cases hb
      · rcases (settle_regular (s := s) (c := c.ticked.waited s stats tsv_written bm) h3).2.2 with
          heq | heq
        · have hsame : (c.ticked.waited s stats tsv_written bm).phase = .Loop := hphase
          rw [heq, hsame] at hb
          cases hb
        · rw [heq] at hb
          cases hb
    · cases hb
  | stalls hp => exact absurd (hp.symm.trans hb) (by simp)
  | awaits _ hw =>
    obtain ⟨bm, _, ⟨rfl, _⟩ | ⟨_, _, _, msg, _, _, rfl⟩⟩ := await_cases hw <;> cases hb
  | _ => cases hb

theorem reportAt_other (h : ∀ stats turns tsv_written, e ≠ .Stats stats turns tsv_written) :
    reportAt k c e = none := by
  unfold reportAt
  cases e with
  | Stats stats turns tsv_written => exact absurd rfl (h stats turns tsv_written)
  | _ => split <;> first | rfl | simp_all

/-- An event that ends the run releases nothing. -/
theorem exit_barrier {d : Controller} {outcome : Except String Unit}
    (hd : d.control = c.control) : BarrierStep k c none (d.exits outcome) :=
  .inl ⟨congrArg (releasesOf k) hd, fun hb => absurd hb not_going_exits⟩

theorem step_barrier (hs : Unmanaged c) (h : (controllerMachine s).step c e = some b) :
    BarrierStep k c (reportAt k c e) b := by
  have hstartup : ∀ {stats turns tsv_written}, c.phase = .Startup →
      reportAt k c (.Stats stats turns tsv_written) = none := by
    intro stats turns tsv_written hp
    simp [reportAt, hp]
  cases step_cases h with
  | answers hp =>
    rw [hstartup hp]
    exact BarrierStep.refl.trans rfl fun hb => ⟨hb, rfl, rfl⟩
  | begins hp =>
    rw [hstartup hp]
    exact begin_barrier hp (hs hp) rfl rfl
  | fails hp =>
    rw [hstartup hp]
    exact exit_barrier rfl
  | takes hp htake => exact take_barrier (c := c.ticked) hp htake
  | aborts he =>
    rw [reportAt_other he]
    exact exit_barrier rfl
  | stalls _ =>
    rw [reportAt_other (by simp)]
    exact (BarrierStep.refl (c := c)).trans rfl fun hb => ⟨hb, rfl, rfl⟩
  | closes hp =>
    have hgoing : Going c := by
      intro outcome
      rw [hp]
      simp
    rw [reportAt_other (by simp)]
    exact (BarrierStep.refl (c := c)).trans (releasesOf_goodbye _) fun _ => ⟨hgoing, rfl, rfl⟩
  | finishes _ =>
    rw [reportAt_other (by simp)]
    exact exit_barrier rfl
  | awaits _ hw =>
    rw [reportAt_other (by simp)]
    obtain ⟨bm, _, ⟨rfl, _⟩ | ⟨_, _, _, msg, _, _, rfl⟩⟩ := await_cases hw
    · exact exit_barrier rfl
    · exact exit_barrier rfl

/-! ## A run -/

/-- What a run knows of barrier `k` before its release. -/
def NotYet (s : Setup) (k : Nat) (es : List Event) (c : Controller) : Prop :=
  releasesOf k c.control = [] ∧ (Going c →
    (∀ id, id ∈ c.readyAt k ↔ id ∈ reporters s k es) ∧ c.releasedAt k = false)

/-- The run has released barrier `k` at one message, for all reporters up to it. -/
def ReleasedAtOne (s : Setup) (k : Nat) (es : List Event) (c : Controller) : Prop :=
  ∃ pre e post, es = pre ++ e :: post ∧
    (∀ d, (controllerMachine s).run (Controller.new s) pre = some d → releasesOf k d.control = []) ∧
    (∀ d, (controllerMachine s).run (Controller.new s) (pre ++ [e]) = some d →
      releasesOf k d.control = releasesOf k c.control) ∧
    (releasesOf k c.control).Nodup ∧
    ∀ id, id ∈ releasesOf k c.control ↔ id ∈ reporters s k (pre ++ [e])

theorem step_once {es : List Event} (hrun : (controllerMachine s).run (Controller.new s) es = some c)
    (hI : Unmanaged c ∧
      (NotYet s k es c ∨ ReleasedAtOne s k es c ∧ (Going c → c.releasedAt k = true)))
    (h : (controllerMachine s).step c e = some b) :
    Unmanaged b ∧ (NotYet s k (es ++ [e]) b ∨
      ReleasedAtOne s k (es ++ [e]) b ∧ (Going b → b.releasedAt k = true)) := by
  have hgoing : Going c := going_of_step h
  have hlog : reporters s k (es ++ [e]) = reporters s k es ++ (reportAt k c e).toList :=
    Machine.log_snoc hrun h
  have hmem : ∀ id, id ∈ reporters s k (es ++ [e]) ↔
      id ∈ reporters s k es ∨ reportAt k c e = some id := by
    intro id
    rw [hlog, List.mem_append, Option.mem_toList]
  refine ⟨step_unmanaged h hI.1, ?_⟩
  rcases step_barrier (k := k) hI.1 h with ⟨hsent, hkeep⟩ | ⟨ids, _, hun, hnd, hids, hsent, hnow⟩
  · rcases hI.2 with ⟨hnone, hbar⟩ | ⟨⟨pre, f, post, rfl, hpre, hat, hnd, hall⟩, hrel⟩
    · refine .inl ⟨hsent.trans hnone, fun hb => ?_⟩
      obtain ⟨hr, hu⟩ := hbar hgoing
      obtain ⟨hr', hu'⟩ := hkeep hb
      exact ⟨fun id => by rw [hr', hr, hmem], hu'.trans hu⟩
    · refine .inr ⟨⟨pre, f, post ++ [e], by simp, hpre, ?_, ?_, ?_⟩, fun hb => ?_⟩
      · intro d hd
        rw [hsent]
        exact hat d hd
      · rwa [hsent]
      · rwa [hsent]
      · rw [(hkeep hb).2]
        exact hrel hgoing
  · -- a barrier that is released is not released again
    rcases hI.2 with ⟨hnone, hbar⟩ | ⟨_, hrel⟩
    · rw [hnone, List.nil_append] at hsent
      refine .inr ⟨⟨es, e, [], rfl, ?_, ?_, by rwa [hsent], fun id => ?_⟩, hnow⟩
      · intro d hd
        rw [hrun] at hd
        cases hd
        exact hnone
      · intro d hd
        have hb : (controllerMachine s).run (Controller.new s) (es ++ [e]) = some b :=
          Machine.run_snoc_iff.mpr ⟨c, hrun, h⟩
        rw [hb] at hd
        cases hd
        rfl
      · rw [hsent, hids, (hbar hgoing).1, hmem]
    · rw [hrel hgoing] at hun
      cases hun

/-- In a run a barrier is not released, or it is released at one message: to
each agent that has reported there up to this message, once, and to no agent
that reports later. -/
theorem a_barrier_is_released_once {s : Setup} {k : Nat} {es : List Event} {c : Controller}
    (hrun : (controllerMachine s).run (Controller.new s) es = some c) :
    releasesOf k c.control = [] ∨ ReleasedAtOne s k es c := by
  have h0 : Unmanaged (Controller.new s) ∧ (NotYet s k [] (Controller.new s) ∨
      ReleasedAtOne s k [] (Controller.new s) ∧
        (Going (Controller.new s) → (Controller.new s).releasedAt k = true)) := by
    refine ⟨fun _ => rfl, .inl ⟨rfl, fun _ => ⟨fun id => ?_, rfl⟩⟩⟩
    exact iff_of_false (Finset.notMem_empty id) List.not_mem_nil
  obtain ⟨_, ⟨hnone, _⟩ | ⟨hone, _⟩⟩ := Machine.run_remembers (P := fun _ _ => True)
    (I := fun es c => Unmanaged c ∧
      (NotYet s k es c ∨ ReleasedAtOne s k es c ∧ (Going c → c.releasedAt k = true)))
    (fun _ _ _ _ hr hI _ hs => step_once hr hI hs) h0
    (Machine.along_of_mem fun _ _ _ => trivial) hrun
  · exact .inl hnone
  · exact .inr hone

/-! ## Three agents under a majority -/

def majority : PhaseBarrierConfig :=
  { barrier_type := .Majority, heartbeat_interval := 30, missed_threshold := 3,
    query_timeout := 10, query_retries := 2, agent_barrier_timeout := 120 }

def majorityConfig : DistributedConfig :=
  { stages := [], barrier_sync := { enabled := true, prepare := some majority } }

def threeAgents : Setup := .ofAgents ["a", "b", "c"] (some majorityConfig)

def saysReady (agent_id : String) : Event := .Stats { agent_id := agent_id, status := 1 } [] true

/-- An agent reports at barrier `k`. -/
def saysAtBarrier (agent_id : String) (k : Nat) : Event :=
  .Stats { agent_id := agent_id, status := 1, at_barrier := true, barrier_sequence := k } [] true

def majorityRun : List Event :=
  [saysReady "a", saysReady "b", saysReady "c", saysAtBarrier "a" 1, saysAtBarrier "b" 1,
    saysAtBarrier "c" 1]

/-- The two agents that make the majority are released. -/
theorem a_majority_is_released_once :
    ∃ c, (controllerMachine threeAgents).run (Controller.new threeAgents) majorityRun = some c ∧
      ReleasedAtOne threeAgents 1 majorityRun c := by
  have hrun : ∃ c, (controllerMachine threeAgents).run (Controller.new threeAgents) majorityRun =
      some c ∧ releasesOf 1 c.control = ["b", "a"] := ⟨_, rfl, rfl⟩
  obtain ⟨c, hc, hsent⟩ := hrun
  exact ⟨c, hc, (a_barrier_is_released_once hc).resolve_left (by simp [hsent])⟩

/-- The third agent reports after the release, and no release is sent to it. -/
theorem a_late_agent_is_not_released :
    ∃ c b bm, (controllerMachine threeAgents).run (Controller.new threeAgents)
        (majorityRun.take 5) = some c ∧ releasesOf 1 c.control = ["b", "a"] ∧
      c.barrier_manager = some bm ∧ bm.failed_agents = ∅ ∧
      (controllerMachine threeAgents).step c (saysAtBarrier "c" 1) = some b ∧
      reportAt 1 c (saysAtBarrier "c" 1) = some "c" ∧ releasesOf 1 b.control = ["b", "a"] :=
  ⟨_, _, _, rfl, rfl, rfl, rfl, rfl, rfl, rfl⟩

end sai3_bench.controller
