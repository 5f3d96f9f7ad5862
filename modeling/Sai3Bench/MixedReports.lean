-- Startup reports and stage barriers in one run: READY reports at the barrier
-- of the first stage, and counts there like the report of a workload.
import Sai3Bench.AgentKeys
import Sai3Bench.BarrierReleases
import Sai3Bench.DistributedRuns

namespace sai3_bench.distributed

open agent config controller machines pb

/-! ## What a barrier may count -/

/-- The agent of this id has run the stage of barrier `k`, and has reported there. -/
def System.Counts (s : Setup) (x : System) (k : Nat) (id : String) : Prop :=
  ∃ (i : Nat) (p : Peer), s.ids[i]? = some id ∧ x.peers[i]? = some p ∧ p.Finished k ∧ p.Reported k id

/-- So many reports are all agents, a majority of them, or the ones that are left. -/
def Enough (policy : BarrierType) (agents failed count : Nat) : Prop :=
  match policy with
  | .AllOrNothing => failed = 0 ∧ count = agents
  | .Majority => agents < 2 * count
  | .BestEffort => 0 < count ∧ count = agents - failed

/-- No report from before its stage was sent, is counted at a barrier that
waits, has released one or has used one up. -/
structure System.Unmixed (s : Setup) (x : System) : Prop where
  sent : ∀ p ∈ x.peers, ∀ m ∈ p.sent, m.at_barrier = true → p.Finished m.barrier_sequence
  counted : Going x.controller → ∀ k, x.controller.releasedAt k = false →
    ∀ id ∈ x.controller.readyAt k, x.Counts s k id
  released : ∀ k, ∀ id ∈ releasesOf k x.controller.control, x.Counts s k id
  used : Going x.controller → ∀ k, x.controller.releasedAt k = true →
    releasesOf k x.controller.control ≠ []

/-- What the step releases of barrier `k` is for agents that count there, and
for enough of them. -/
def ReleasesEnough (s : Setup) (k : Nat) (x y : System) : Prop :=
  ∀ ids, releasesOf k y.controller.control = releasesOf k x.controller.control ++ ids → ids ≠ [] →
    ids.Nodup ∧ (∀ id ∈ ids, y.Counts s k id) ∧ ∃ bm, x.controller.barrier_manager = some bm ∧
      Enough bm.config.barrier_type s.agent_addrs.toFinset.card bm.failed_agents.card ids.length

/-- The state that a stats writer takes for READY, and the id of a report at a
barrier, are those of the agent's own call. -/
def OwnReports (s : Setup) (x : System) : SystemEvent → Prop
  | .Agent i e => ∀ p, x.peers[i]? = some p → p.agent.findsReady p.stream e = true → p.Finished 0
  | .Forward i => ∀ p m, x.peers[i]? = some p → p.sent[p.taken.length]? = some m →
    m.at_barrier = true → s.ids[i]? = some m.agent_id
  | _ => True

/-! ## A release, by its counts -/

section

variable {s : Setup} {c : Controller} {e : controller.Event} {bm : BarrierManager} {k : Nat}
  {id : String}

theorem enough_of_ready {info : BarrierReleaseInfo} (h : bm.check_barrier_ready k = some info) :
    Enough bm.config.barrier_type bm.agents.size bm.failed_agents.card
      info.ready_agents.length := by
  obtain ⟨_, hnodup, hmem, hrel, _⟩ := BarrierManager.check_barrier_ready_some h
  have hready : info.ready_agents.toFinset = bm.readyAt k := by
    ext id
    rw [List.mem_toFinset, hmem]
  have hcan := ((BarrierManager.check_barrier_ready_isSome_iff hrel).mp (by rw [h]; rfl)).2
  rw [← hready, List.toFinset_card_of_nodup hnodup] at hcan
  unfold BarrierManager.can_release at hcan
  unfold Enough
  cases htype : bm.config.barrier_type with
  | AllOrNothing =>
    simp only [htype, Bool.and_eq_true, decide_eq_true_eq] at hcan
    dsimp only
    omega
  | Majority =>
    simp only [htype, decide_eq_true_eq] at hcan
    dsimp only
    omega
  | BestEffort =>
    simp only [htype, Bool.and_eq_true, decide_eq_true_eq] at hcan
    dsimp only
    omega

/-- The manager that decides has the agents, the failed ones and the policy
that it had before the report. -/
theorem deciderAt_some {b : BarrierManager} (h : deciderAt k c e = some b) :
    ∃ bm, c.barrier_manager = some bm ∧ b.config = bm.config ∧
      b.agents.keySet = bm.agents.keySet ∧ b.failed_agents = bm.failed_agents := by
  unfold deciderAt at h
  split at h
  · rename_i bm stats turns tsv_written _ hbm
    split at h <;> cases h
    refine ⟨bm, hbm, ?_, ?_, ?_⟩ <;> simp [BarrierManager.agent_at_barrier]
  · cases h

theorem released_enough (h : released (deciderAt k c e) k ≠ []) :
    ∃ bm, c.barrier_manager = some bm ∧ Enough bm.config.barrier_type bm.agents.size
      bm.failed_agents.card (released (deciderAt k c e) k).length := by
  unfold released at h ⊢
  cases hd : deciderAt k c e with
  | none => simp [hd] at h
  | some b =>
    rw [hd, Option.bind_some] at h
    rw [Option.bind_some]
    cases hready : b.check_barrier_ready k with
    | none => simp [hready] at h
    | some info =>
      obtain ⟨bm, hbm, hconfig, hagents, hfailed⟩ := deciderAt_some hd
      have henough := enough_of_ready hready
      rw [← AList.card_keySet, hconfig, hagents, hfailed, AList.card_keySet] at henough
      exact ⟨bm, hbm, henough⟩

theorem reportAt_some {stats : LiveStats} {turns : List BarrierManager.Turn} {tsv_written : Bool}
    (h : reportAt k c (.Stats stats turns tsv_written) = some id) :
    stats.at_barrier = true ∧ stats.barrier_sequence = k ∧ stats.agent_id = id := by
  unfold reportAt at h
  split at h
  · rename_i heq
    cases heq
    split at h <;> cases h
    rename_i hat
    simp only [Bool.and_eq_true, decide_eq_true_eq] at hat
    exact ⟨hat.1, hat.2, rfl⟩
  · cases h

end

/-! ## What grows -/

/-- The records of the peers only grow. -/
def Grows (ps qs : List Peer) : Prop :=
  ∀ (i : Nat) p, ps[i]? = some p → ∃ q, qs[i]? = some q ∧ p.ran ⊆ q.ran ∧ p.taken ⊆ q.taken

section

variable {s : Setup} {x y : System} {p q : Peer} {ps : List Peer} {i k : Nat} {id : String}

theorem grows_refl (ps : List Peer) : Grows ps ps :=
  fun _ p hp => ⟨p, hp, List.Subset.refl _, List.Subset.refl _⟩

theorem grows_set (hp : ps[i]? = some p) (hran : p.ran ⊆ q.ran) (htaken : p.taken ⊆ q.taken) :
    Grows ps (ps.set i q) := by
  intro j r hr
  by_cases hij : i = j
  · subst hij
    cases hp.symm.trans hr
    have hlt := (List.getElem?_eq_some_iff.mp hp).1
    exact ⟨q, by simp [hlt], hran, htaken⟩
  · rw [List.getElem?_set_ne hij]
    exact ⟨r, hr, List.Subset.refl _, List.Subset.refl _⟩

theorem System.Counts.mono (h : x.Counts s k id) (hgrows : Grows x.peers y.peers) :
    y.Counts s k id := by
  obtain ⟨i, p, hid, hp, hfin, m, hm, hrep⟩ := h
  obtain ⟨q, hq, hran, htaken⟩ := hgrows i p hp
  exact ⟨i, q, hid, hq, hfin.mono hran, m, htaken hm, hrep⟩

/-! ## The steps of the controller -/

/-- The event is one of the controller. -/
def SystemEvent.ofController : SystemEvent → Bool
  | .Read _ _ | .Control _ => true
  | _ => false

/-- The controller takes a step, and each report that it hears was on its way. -/
structure System.Hears (s : Setup) (x y : System) (e : controller.Event) : Prop where
  step : (controllerMachine s).step x.controller e = some y.controller
  peers : y.peers = x.peers
  rx_stats : y.rx_stats ⊆ x.rx_stats
  reports : ∀ k id, reportAt k x.controller e = some id →
    ∃ m ∈ x.rx_stats, m.at_barrier = true ∧ m.barrier_sequence = k ∧ m.agent_id = id

theorem step_hears {e : SystemEvent} (he : e.ofController = true)
    (hs : (systemMachine s).step x e = some y) : ∃ ce, x.Hears s y ce := by
  cases e with
  | Read turns tsv_written =>
    cases hrx : x.rx_stats with
    | nil => simp [systemMachine, System.step, hrx] at hs
    | cons m rest =>
      simp only [systemMachine, System.step, hrx] at hs
      obtain ⟨c, hc, rfl⟩ := Option.map_eq_some_iff.mp hs
      refine ⟨_, hc, rfl, by simp [hrx], fun k id hrep => ?_⟩
      exact ⟨m, by simp [hrx], reportAt_some hrep⟩
  | Control e =>
    cases e with
    | Stats stats turns tsv_written => cases hs
    | _ =>
      obtain ⟨c, hc, rfl⟩ := Option.map_eq_some_iff.mp hs
      refine ⟨_, hc, rfl, List.Subset.refl _, fun k id hrep => ?_⟩
      rw [reportAt_other (by simp)] at hrep
      cases hrep
  | _ => cases he

theorem step_leaves {e : SystemEvent} (he : e.ofController = false)
    (hs : (systemMachine s).step x e = some y) : y.controller = x.controller := by
  cases e with
  | Agent i e =>
    obtain ⟨p, _, hp'⟩ := Option.bind_eq_some_iff.mp hs
    obtain ⟨q, _, rfl⟩ := Option.map_eq_some_iff.mp hp'
    rfl
  | Forward i =>
    obtain ⟨p, _, hp'⟩ := Option.bind_eq_some_iff.mp hs
    obtain ⟨q, _, rfl⟩ := Option.map_eq_some_iff.mp hp'
    rfl
  | TaskEnds i =>
    obtain ⟨p, _, rfl⟩ := Option.map_eq_some_iff.mp hs
    rfl
  | StreamError i e =>
    obtain ⟨p, _, hp'⟩ := Option.bind_eq_some_iff.mp hs
    cases ht : p.task <;> simp only [ht] at hp' <;> try cases hp'
    obtain ⟨id, _, rfl⟩ := Option.map_eq_some_iff.mp hp'
    rfl
  | _ => cases he

/-! ## The invariant of a run -/

/-- What keeps a run unmixed. A report on its way to the controller is one
that the task of its agent has taken. -/
structure System.Sound (s : Setup) (x : System) : Prop where
  peers : ∀ p ∈ x.peers, p.Sound
  arrived : ∀ m ∈ x.rx_stats, m.at_barrier = true →
    ∃ (i : Nat) (p : Peer), s.ids[i]? = some m.agent_id ∧ x.peers[i]? = some p ∧ m ∈ p.taken
  unmanaged : Unmanaged x.controller
  managed : Managed s x.controller
  counted : Going x.controller → ∀ k, x.controller.releasedAt k = false →
    ∀ id ∈ x.controller.readyAt k, x.Counts s k id
  released : ∀ k, ∀ id ∈ releasesOf k x.controller.control, x.Counts s k id
  used : Going x.controller → ∀ k, x.controller.releasedAt k = true →
    releasesOf k x.controller.control ≠ []

namespace System.Sound

theorem unmixed (h : x.Sound s) : x.Unmixed s :=
  ⟨fun p hp => (h.peers p hp).sent, h.counted, h.released, h.used⟩

/-- A report that arrives may count. -/
theorem counts {m : LiveStats} (h : x.Sound s) (hm : m ∈ x.rx_stats) (hbar : m.at_barrier = true) :
    x.Counts s m.barrier_sequence m.agent_id := by
  obtain ⟨i, p, hid, hp, htaken⟩ := h.arrived m hm hbar
  have hfin := (h.peers p (List.mem_of_getElem? hp)).taken m htaken hbar
  exact ⟨i, p, hid, hp, hfin, m, htaken, hbar, rfl, rfl⟩

/-- A step of a peer, or of the task for it. -/
theorem setPeer {ms : List LiveStats} (h : x.Sound s) (hp : x.peers[i]? = some p) (hq : q.Sound)
    (hran : p.ran ⊆ q.ran) (htaken : p.taken ⊆ q.taken)
    (hms : ∀ m ∈ ms, m.at_barrier = true → s.ids[i]? = some m.agent_id ∧ m ∈ q.taken) :
    System.Sound s { x with peers := x.peers.set i q, rx_stats := x.rx_stats ++ ms } := by
  have hgrows : Grows x.peers (x.peers.set i q) := grows_set hp hran htaken
  have hlt := (List.getElem?_eq_some_iff.mp hp).1
  refine ⟨fun r hr => ?_, fun m hm hbar => ?_, h.unmanaged, h.managed,
    fun hgo k hrel id hid => ?_, fun k id hid => ?_, h.used⟩
  · rcases List.mem_or_eq_of_mem_set hr with hold | rfl
    · exact h.peers r hold
    · exact hq
  · rcases List.mem_append.mp hm with hold | hnew
    · obtain ⟨j, r, hid, hr, hmem⟩ := h.arrived m hold hbar
      obtain ⟨r', hr', _, hsub⟩ := hgrows j r hr
      exact ⟨j, r', hid, hr', hsub hmem⟩
    · obtain ⟨hid, hmem⟩ := hms m hnew hbar
      exact ⟨i, q, hid, by simp [hlt], hmem⟩
  · exact (h.counted hgo k hrel id hid).mono hgrows
  · exact (h.released k id hid).mono hgrows

/-- Whoever is ready at a barrier that waits, or reports there now, counts. -/
theorem ready_counts {e : controller.Event} (h : x.Sound s) (hears : x.Hears s y e)
    (hrel : x.controller.releasedAt k = false)
    (hid : id ∈ x.controller.readyAt k ∨ reportAt k x.controller e = some id) :
    y.Counts s k id := by
  have hgrows : Grows x.peers y.peers := hears.peers ▸ grows_refl x.peers
  rcases hid with hold | hnew
  · exact (h.counted (Controller.going_of_step hears.step) k hrel id hold).mono hgrows
  · obtain ⟨m, hm, hbar, rfl, rfl⟩ := hears.reports k id hnew
    exact (h.counts hm hbar).mono hgrows

/-- A step of the controller. -/
theorem controls {e : controller.Event} (h : x.Sound s) (hears : x.Hears s y e) : y.Sound s := by
  have hgoing : Going x.controller := Controller.going_of_step hears.step
  have hgrows : Grows x.peers y.peers := hears.peers ▸ grows_refl x.peers
  refine ⟨hears.peers ▸ h.peers, fun m hm => hears.peers ▸ h.arrived m (hears.rx_stats hm),
    step_unmanaged hears.step h.unmanaged, step_managed h.managed hears.step,
    fun hgo k hrel id hid => ?_, fun k id hid => ?_, fun hgo k hused => ?_⟩
  all_goals
    rcases step_barrier (k := k) h.unmanaged hears.step with ⟨hsame, hkeep⟩ |
      ⟨ids, hsome, hwaits, _, hids, hsent, hnow⟩
  · obtain ⟨hready, hrel'⟩ := hkeep hgo
    exact h.ready_counts hears (hrel' ▸ hrel) ((hready id).mp hid)
  · rw [hnow hgo] at hrel
    cases hrel
  · rw [hsame] at hid
    exact (h.released k id hid).mono hgrows
  · rw [hsent, List.mem_append] at hid
    rcases hid with hold | hnew
    · exact (h.released k id hold).mono hgrows
    · exact h.ready_counts hears hwaits ((hids id).mp hnew)
  · rw [hsame]
    exact h.used hgoing k ((hkeep hgo).2 ▸ hused)
  · -- the reporter itself is released
    obtain ⟨id, hid⟩ := Option.isSome_iff_exists.mp hsome
    intro hnil
    rw [hsent, List.append_eq_nil_iff] at hnil
    have hmem := (hids id).mpr (.inr hid)
    rw [hnil.2] at hmem
    cases hmem

end System.Sound

/-! ## A run -/

variable {e : SystemEvent}

theorem step_sound (h : x.Sound s) (hown : OwnReports s x e)
    (hs : (systemMachine s).step x e = some y) : y.Sound s := by
  cases e with
  | Agent i e =>
    obtain ⟨p, hp, hp'⟩ := Option.bind_eq_some_iff.mp hs
    obtain ⟨q, hq, rfl⟩ := Option.map_eq_some_iff.mp hp'
    have hsound := (h.peers p (List.mem_of_getElem? hp)).step hq (hown p hp)
    obtain ⟨b, _, rfl⟩ := Option.map_eq_some_iff.mp hq
    simpa using h.setPeer hp hsound (List.subset_append_left _ _) (List.Subset.refl _)
      fun _ hm => absurd hm List.not_mem_nil
  | Forward i =>
    obtain ⟨p, hp, hp'⟩ := Option.bind_eq_some_iff.mp hs
    obtain ⟨⟨q, forwarded⟩, hq, rfl⟩ := Option.map_eq_some_iff.mp hp'
    have hsound := (h.peers p (List.mem_of_getElem? hp)).forward hq
    obtain ⟨stats, hnext, htaken, hm, _, _, hran⟩ := forward_cases hq
    apply h.setPeer hp hsound (hran ▸ List.Subset.refl _) (htaken ▸ List.subset_append_left _ _)
    intro m hmem hbar
    -- what is forwarded is what was taken
    rcases hm with rfl | rfl
    · cases hmem
    · obtain rfl := List.mem_singleton.mp hmem
      exact ⟨hown p _ hp hnext hbar, by simp [htaken]⟩
  | TaskEnds i =>
    obtain ⟨p, hp, rfl⟩ := Option.map_eq_some_iff.mp hs
    have hsound := (h.peers p (List.mem_of_getElem? hp)).ends
    simpa using h.setPeer hp hsound (List.Subset.refl _) (List.Subset.refl _)
      fun _ hm => absurd hm List.not_mem_nil
  | StreamError i e =>
    obtain ⟨p, hp, hp'⟩ := Option.bind_eq_some_iff.mp hs
    cases ht : p.task <;> simp only [ht] at hp' <;> try cases hp'
    obtain ⟨id, _, rfl⟩ := Option.map_eq_some_iff.mp hp'
    have hsound := (h.peers p (List.mem_of_getElem? hp)).ends
    apply h.setPeer hp hsound (List.Subset.refl _) (List.Subset.refl _)
    intro m hm hbar
    obtain rfl := List.mem_singleton.mp hm
    cases hbar
  | Read turns tsv_written =>
    obtain ⟨ce, hears⟩ := step_hears rfl hs
    exact h.controls hears
  | Control e =>
    obtain ⟨ce, hears⟩ := step_hears rfl hs
    exact h.controls hears

theorem new_sound (s : Setup) (op_log_path : Nat → Option String) (stream : Nat → Nat) :
    (System.new s op_log_path stream).Sound s := by
  have hnone : (Controller.new s).barrier_manager = none := rfl
  refine ⟨fun p hp => ?_, ?_, fun _ => rfl, ?_, ?_, ?_, ?_⟩
  · obtain ⟨i, _, rfl⟩ := List.mem_map.mp hp
    exact Peer.Sound.new _ _
  · intro m hm
    cases hm
  · intro bm hbm
    cases hnone.symm.trans hbm
  · intro _ k _ id hid
    simp [System.new, Controller.readyAt, hnone] at hid
  · intro k id hid
    simp [System.new, Controller.new, releasesOf] at hid
  · intro _ k hused
    simp [System.new, Controller.releasedAt, hnone] at hused

/-- A step releases for the agents that count, and for enough of them. -/
theorem releases_enough (h : x.Sound s) (hs : (systemMachine s).step x e = some y) :
    ReleasesEnough s k x y := by
  intro ids hadded hne
  have hnone : releasesOf k y.controller.control = releasesOf k x.controller.control → False := by
    intro hsame
    rw [hsame] at hadded
    exact hne (List.self_eq_append_right.mp hadded)
  cases hof : e.ofController with
  | false => exact (hnone (by rw [step_leaves hof hs])).elim
  | true =>
    obtain ⟨ce, hears⟩ := step_hears hof hs
    rcases step_barrier (k := k) h.unmanaged hears.step with ⟨hsame, _⟩ |
      ⟨ids', _, hwaits, hnodup, hids, hsent, _⟩
    · exact (hnone hsame).elim
    · rw [hsent] at hadded
      obtain rfl := List.append_cancel_left hadded
      have hdecided : ids' = released (deciderAt k x.controller ce) k :=
        List.append_cancel_left (hsent.symm.trans (step_releases hears.step))
      rw [hdecided] at hne
      obtain ⟨bm, hbm, henough⟩ := released_enough hne
      rw [← hdecided, ← AList.card_keySet, h.managed bm hbm] at henough
      exact ⟨hnodup, fun id hid => h.ready_counts hears hwaits ((hids id).mp hid), bm, hbm, henough⟩

/-- As many ids as there are agents: every agent counts. -/
theorem all_agents_count {ids : List String} (hnodup : ids.Nodup)
    (hcounts : ∀ id ∈ ids, y.Counts s k id) (hlen : ids.length = s.agent_addrs.length) :
    ∀ id ∈ s.ids, y.Counts s k id := by
  have hsub : ids ⊆ s.ids := by
    intro id hid
    obtain ⟨i, _, hi, _⟩ := hcounts id hid
    exact List.mem_of_getElem? hi
  have hperm : ids.Perm s.ids :=
    (hnodup.subperm hsub).perm_of_length_le (by rw [hlen, s.same_length])
  exact fun id hid => hcounts id (hperm.mem_iff.mpr hid)

/-- A release of all or nothing is for all agents, each of which has run the stage. -/
theorem ReleasesEnough.for_all (h : ReleasesEnough s k x y) (haddrs : s.agent_addrs.Nodup)
    (hall : ∀ bm, x.controller.barrier_manager = some bm → bm.config.barrier_type = .AllOrNothing)
    {ids : List String}
    (hadded : releasesOf k y.controller.control = releasesOf k x.controller.control ++ ids)
    (hne : ids ≠ []) : ∀ id ∈ s.ids, y.Counts s k id := by
  obtain ⟨hnodup, hcounts, bm, hbm, henough⟩ := h ids hadded hne
  rw [hall bm hbm, List.toFinset_card_of_nodup haddrs] at henough
  exact all_agents_count hnodup hcounts henough.2

end

/-- In a run in which each stats writer takes only the state of its own call
for READY, and each report at a barrier has the id of its agent, startup
reports and stage barriers do not mix. -/
theorem startup_reports_and_stage_barriers_do_not_mix {s : Setup}
    {op_log_path : Nat → Option String} {stream : Nat → Nat} {es : List SystemEvent} {x : System}
    (hrun : (systemMachine s).run (System.new s op_log_path stream) es = some x)
    (hown : (systemMachine s).Along (OwnReports s) (System.new s op_log_path stream) es) :
    x.Unmixed s ∧ ∀ k e y, (systemMachine s).step x e = some y → ReleasesEnough s k x y := by
  have hsound : x.Sound s := Machine.run_keeps (fun _ _ _ hI hP hs => step_sound hI hP hs)
    (new_sound s op_log_path stream) hown hrun
  exact ⟨hsound.unmixed, fun k e y hs => releases_enough hsound hs⟩

/-! ## An agent with an old workload -/

def oneAgent : Setup :=
  .ofAgents ["agent-1"] (some { oneStage with barrier_sync := { enabled := true } })

/-- A workload up to the run of its first stage. -/
def entersStage (w : Nat) : List agent.Event :=
  [.Work w .LoadStages, .Work w .SubscribeAbort, .Work w (.CheckAbort false), .Work w .Enter]

/-- Workload `w` runs its first stage, and the writer of stream `i` says READY twice. -/
def saysReadyFor (w i : Nat) : List agent.Event :=
  [.Work w (.Execute (.ok ())), .Work w .MarkReady, .Write i .Poll, .Write i .SendReady,
    .Write i .ResendReady]

/-- The controller hears READY twice: it begins its main loop, and counts the second. -/
def hearsTwice : List SystemEvent :=
  [.Forward 0, .Read [] true, .Forward 0, .Read [] true]

/-- The first call at a new agent is the one of the run. -/
def ownRun : List SystemEvent :=
  (.Connect :: startEvents 0 ++ entersStage 0 ++ saysReadyFor 0 0).map (.Agent 0) ++ hearsTwice

/-- The workload of the first call is aborted while it runs its first stage. -/
def abortedCall : List agent.Event :=
  .Connect :: startEvents 0 ++ entersStage 0 ++ .AbortRpc :: List.replicate 4 (.Background 0) ++
    List.replicate 2 (.Background 1)

/-- The second call at the agent is the one of the run. The stage of the old
workload ends while the new one runs its own. -/
def secondCall : List agent.Event :=
  .Connect :: startEvents 1 ++ entersStage 1 ++ saysReadyFor 0 1

def mixedRun : List SystemEvent := (abortedCall ++ secondCall).map (.Agent 0) ++ hearsTwice

/-- The condition on one event, evaluated. -/
def ownReports (s : Setup) (x : System) : SystemEvent → Bool
  | .Agent i e => x.peers[i]?.all fun p =>
    !p.agent.findsReady p.stream e || p.ran.any fun j => barrier_index_of (j + 1) = 0
  | .Forward i => x.peers[i]?.all fun p => p.sent[p.taken.length]?.all fun m =>
    !m.at_barrier || s.ids[i]? = some m.agent_id
  | _ => true

theorem ownReports_holds {s : Setup} (x : System) (e : SystemEvent) (h : ownReports s x e = true) :
    OwnReports s x e := by
  cases e with
  | Agent i e =>
    intro p hp hfinds
    simp only [ownReports, hp, Option.all_some, hfinds, Bool.not_true, Bool.false_or,
      List.any_eq_true, decide_eq_true_eq] at h
    exact h
  | Forward i =>
    intro p m hp hm hbar
    simp only [ownReports, hp, Option.all_some, hm, hbar, Bool.not_true, Bool.false_or,
      decide_eq_true_eq] at h
    exact h
  | _ => trivial

/-- READY after the first stage counts, and releases its barrier. -/
theorem a_ready_after_the_stage_is_a_report_at_its_barrier :
    ∃ x, (systemMachine oneAgent).run (System.new oneAgent (fun _ => none) fun _ => 0) ownRun =
        some x ∧
      releasesOf 0 x.controller.control = ["agent-1"] ∧ x.Unmixed oneAgent ∧
      ∀ k e y, (systemMachine oneAgent).step x e = some y → ReleasesEnough oneAgent k x y := by
  have hrun : ∃ x, (systemMachine oneAgent).run (System.new oneAgent (fun _ => none) fun _ => 0)
        ownRun = some x ∧ releasesOf 0 x.controller.control = ["agent-1"] :=
    ⟨_, rfl, by decide +kernel⟩
  obtain ⟨x, hx, hreleased⟩ := hrun
  have hown : (systemMachine oneAgent).Along (OwnReports oneAgent)
      (System.new oneAgent (fun _ => none) fun _ => 0) ownRun :=
    Machine.along_of_check ownReports_holds (by decide +kernel)
  exact ⟨x, hx, hreleased, startup_reports_and_stage_barriers_do_not_mix hx hown⟩

/-- The old workload makes the agent say READY in a run whose first stage is
not over, and this report releases the barrier of the stage. -/
theorem a_ready_of_an_old_workload_releases_the_barrier :
    ∃ x, (systemMachine oneAgent).run (System.new oneAgent (fun _ => none) fun _ => 1) mixedRun =
        some x ∧
      releasesOf 0 x.controller.control = ["agent-1"] ∧ x.controller.releasedAt 0 = true ∧
      (∀ p ∈ x.peers, p.ran = []) ∧ ¬ x.Unmixed oneAgent := by
  have hrun : ∃ x, (systemMachine oneAgent).run (System.new oneAgent (fun _ => none) fun _ => 1)
        mixedRun = some x ∧ releasesOf 0 x.controller.control = ["agent-1"] ∧
      x.controller.releasedAt 0 = true ∧ x.peers.map (·.ran) = [[]] :=
    ⟨_, rfl, by decide +kernel, by decide +kernel, rfl⟩
  obtain ⟨x, hx, hreleased, hused, hran⟩ := hrun
  have hnone : ∀ p ∈ x.peers, p.ran = [] := by
    intro p hp
    have hmem := List.mem_map_of_mem (f := (·.ran)) hp
    rw [hran] at hmem
    exact List.mem_singleton.mp hmem
  refine ⟨x, hx, hreleased, hused, hnone, fun h => ?_⟩
  obtain ⟨i, p, _, hp, ⟨j, hj, _⟩, _⟩ := h.released 0 "agent-1" (by simp [hreleased])
  rw [hnone p (List.mem_of_getElem? hp)] at hj
  cases hj

end sai3_bench.distributed
