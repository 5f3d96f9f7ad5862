-- The keys of the controller's tables: the trackers and the barrier manager
-- are made for addresses, and the messages carry ids.
import Sai3Bench.ControllerSteps

namespace sai3_bench.controller

open config machines pb Controller

/-! ## The tracker of a message -/

namespace AgentTracker

/-- The tracker has just heard this message. -/
def Heard (stats : LiveStats) (now : Nat) (t : AgentTracker) : Prop :=
  t.last_seen = now ∧ t.latest_stats = some stats

variable {t : AgentTracker} {stats : LiveStats} {now : Nat}

theorem moves_latest_stats (new_state : ControllerAgentState) (reason : String) :
    (t.moves new_state reason now).latest_stats = t.latest_stats := by
  unfold moves transition_to
  by_cases h : ControllerAgentState.can_transition t.state new_state = true <;> simp [h]

theorem moves_heard (h : Heard stats now t) (new_state : ControllerAgentState) (reason : String) :
    Heard stats now (t.moves new_state reason now) :=
  ⟨(moves_last_seen new_state reason).elim (·.trans h.1) id,
    (moves_latest_stats new_state reason).trans h.2⟩

theorem hears_heard : Heard stats now (t.hears stats now) := ⟨rfl, rfl⟩

theorem recovers_heard (h : Heard stats now t) : Heard stats now (t.recovers stats now) := by
  unfold recovers
  split
  · exact moves_heard (t := { t with reconnect_count := t.reconnect_count + 1 }) h _ _
  · exact h

theorem follows_heard (h : Heard stats now t) : Heard stats now (t.follows stats now) := by
  unfold follows
  repeat' split
  all_goals first
    | exact moves_heard h _ _
    | exact h

theorem settles_heard (h : Heard stats now t) : Heard stats now (t.settles stats now) := by
  unfold settles
  split
  · exact moves_heard (t := { t with error_message := some (errorOf stats) }) h _ _
  · repeat' split
    all_goals first
      | exact moves_heard h _ _
      | exact h

theorem aborts_heard (h : Heard stats now t) : Heard stats now (t.aborts now) :=
  ⟨aborts_last_seen h.1, aborts_latest_stats.trans h.2⟩

end AgentTracker

variable {s : Setup} {c b : Controller} {e : Event} {stats : LiveStats} {addr : String}

/-- After a message its tracker has it, in the startup as a sign of life only. -/
theorem step_hears {turns : List BarrierManager.Turn} {tsv_written : Bool}
    (h : (controllerMachine s).step c (.Stats stats turns tsv_written) = some b) :
    b.Tracks (fun t => t.last_seen = c.clock + 1 ∧ (c.phase = .Loop → t.latest_stats = some stats))
      stats.agent_id := by
  cases hp : c.phase <;> simp only [controllerMachine, step, hp] at h <;> try cases h
  case Startup =>
    have haborts : ∀ t : AgentTracker, t.last_seen = c.clock + 1 ∧
        (Phase.Startup = .Loop → t.latest_stats = some stats) →
        (t.aborts c.ticked.clock).last_seen = c.clock + 1 ∧
          (Phase.Startup = .Loop → (t.aborts c.ticked.clock).latest_stats = some stats) :=
      fun t ht => ⟨AgentTracker.aborts_last_seen ht.1, fun h => by cases h⟩
    refine start_tracks ⟨_, withTracker_lookup.trans (if_pos rfl), ?_⟩ haborts
    exact ⟨rfl, fun h => by cases h⟩
  case Loop =>
    have hheard : b.Tracks (AgentTracker.Heard stats c.ticked.clock) stats.agent_id :=
      take_tracks ⟨_, hear_lookup.trans (if_pos rfl), AgentTracker.follows_heard
          (AgentTracker.recovers_heard AgentTracker.hears_heard)⟩
        (fun _ => AgentTracker.settles_heard) (fun _ => AgentTracker.aborts_heard) h
    obtain ⟨t, ht, hseen, hlatest⟩ := hheard
    exact ⟨t, ht, hseen, fun _ => hlatest⟩

/-! ## The tables of a run -/

theorem new_tracks (h : addr ∈ s.agent_addrs) :
    (Controller.new s).Tracks (· = AgentTracker.new addr 0) addr := by
  have hfold : ∀ (addrs : List String) (m : AList fun _ : String => AgentTracker),
      addr ∈ addrs ∨ m.lookup addr = some (AgentTracker.new addr 0) →
        (addrs.foldl (fun m addr => m.insert addr (AgentTracker.new addr 0)) m).lookup addr =
          some (AgentTracker.new addr 0) := by
    intro addrs
    induction addrs with
    | nil => exact fun m hm => hm.resolve_left List.not_mem_nil
    | cons a addrs ih =>
      intro m hm
      refine ih _ ?_
      rw [AList.lookup_insert_if]
      by_cases ha : addr = a
      · exact .inr (by rw [if_pos ha, ha])
      · rw [if_neg ha]
        exact hm.imp_left fun hmem => (List.mem_cons.mp hmem).resolve_left ha
  exact ⟨_, hfold s.agent_addrs ∅ (.inl h), rfl⟩

theorem kept_true : Kept fun _ => True :=
  ⟨fun _ _ _ h => h, fun _ _ _ h => h, fun _ _ _ h => h, fun _ _ h => h, fun _ _ h => h⟩

/-- The manager has the addresses as its agents. -/
def Managed (s : Setup) (c : Controller) : Prop :=
  ∀ bm, c.barrier_manager = some bm → bm.agents.keySet = s.agent_addrs.toFinset

theorem managed_of_map {old new : Option BarrierManager}
    (h : new.map (·.agents.keySet) = old.map (·.agents.keySet))
    (hold : ∀ bm, old = some bm → bm.agents.keySet = s.agent_addrs.toFinset) :
    ∀ bm, new = some bm → bm.agents.keySet = s.agent_addrs.toFinset := by
  rintro bm rfl
  obtain ⟨bm', rfl, hbm'⟩ := Option.map_eq_some_iff.mp h.symm
  exact hbm'.symm.trans (hold bm' rfl)

theorem setup_managed : ∀ bm, s.barrier_manager = some bm →
    bm.agents.keySet = s.agent_addrs.toFinset := by
  intro bm h
  unfold Setup.barrier_manager at h
  split at h
  · cases h
  · split at h
    · cases h
      exact BarrierManager.new_keySet _ _
    · cases h

theorem step_managed (hI : Managed s c) (h : (controllerMachine s).step c e = some b) :
    Managed s b := by
  have hI' : Managed s c.ticked := hI
  cases step_cases h with
  | begins _ => exact setup_managed
  | takes _ htake =>
    obtain ⟨bm, hbm, ⟨rfl, _⟩ | ⟨_, msg, rfl⟩⟩ := take_cases htake
    · intro bm' hbm'
      rw [(settle_barriers _ _ _).1] at hbm'
      exact managed_of_map (hbm.trans hear_agents) hI' bm' hbm'
    · exact managed_of_map (hbm.trans hear_agents) hI'
  | awaits _ hw =>
    obtain ⟨bm, hbm, ⟨rfl, _⟩ | ⟨_, _, _, msg, _, _, rfl⟩⟩ := await_cases hw
    · exact managed_of_map hbm hI'
    · exact managed_of_map hbm hI'
  | _ => exact hI

/-! ## Agreement -/

/-- A message of an agent goes to the tracker that was made for its address,
and one at a barrier is of an agent of the manager. -/
def Attributed (s : Setup) (c : Controller) (e : Event) : Prop :=
  ∀ (i : Nat) (addr : String) (stats : LiveStats) (turns : List BarrierManager.Turn)
    (tsv_written : Bool), s.agent_addrs[i]? = some addr → s.ids[i]? = some stats.agent_id →
    e = .Stats stats turns tsv_written →
    (∀ b, (controllerMachine s).step c e = some b → b.Tracks (fun t =>
      t.last_seen = c.clock + 1 ∧ (c.phase = .Loop → t.latest_stats = some stats)) addr) ∧
    ∀ bm, c.barrier_manager = some bm → reached (progressOf stats) = true →
      stats.agent_id ∈ bm.agents

/-- In each run all messages are attributed, and an abort finds the tracker
of each address. -/
def KeysAgree (s : Setup) : Prop :=
  ∀ es c, (controllerMachine s).run (Controller.new s) es = some c →
    (controllerMachine s).Along (Attributed s) (Controller.new s) es ∧
      ∀ addr ∈ s.agent_addrs, addr ∈ c.trackers

theorem agree_of_ids (h : s.ids = s.agent_addrs) : KeysAgree s := by
  intro es c hrun
  constructor
  · have hcond : ∀ c e b, Managed s c → (controllerMachine s).step c e = some b →
        (Attributed s c e ↔ True) := by
      intro c e b hc hs
      refine iff_of_true ?_ trivial
      rintro i addr stats turns tsv_written haddr hid rfl
      rw [h, haddr, Option.some.injEq] at hid
      subst hid
      refine ⟨fun d hd => step_hears hd, fun bm hbm _ => ?_⟩
      rw [← AList.mem_keySet, hc bm hbm, List.mem_toFinset]
      exact List.mem_of_getElem? haddr
    refine (Machine.along_congr (Q := fun _ _ => True) (fun c e d hc hs => step_managed hc hs)
      hcond ?_ hrun).mpr (Machine.along_of_mem fun _ _ _ => trivial)
    intro bm hbm
    cases hbm
  · intro addr haddr
    obtain ⟨t, ht, _⟩ := run_tracks kept_true (new_tracks haddr |>.imp fun _ h => ⟨h.1, trivial⟩) hrun
    exact AList.mem_iff_lookup.mpr ⟨t, ht⟩

/-- The first message of an agent whose id is not its address misses its tracker. -/
theorem ids_of_agree (h : KeysAgree s) : s.ids = s.agent_addrs := by
  refine List.ext_getElem? fun i => ?_
  cases haddr : s.agent_addrs[i]? with
  | none =>
    rw [List.getElem?_eq_none_iff] at haddr ⊢
    rw [s.same_length]
    exact haddr
  | some addr =>
    have hi : i < s.ids.length := by
      rw [s.same_length]
      exact (List.getElem?_eq_some_iff.mp haddr).1
    obtain ⟨id, hid⟩ : ∃ id, s.ids[i]? = some id := ⟨_, List.getElem?_eq_getElem hi⟩
    rw [hid, Option.some.injEq]
    by_contra hne
    let stats : LiveStats := { agent_id := id, status := 1 }
    let c := (Controller.new s).ticked
    have hrun : (controllerMachine s).run (Controller.new s) [.Stats stats [] true] =
        some (c.start s stats) := rfl
    obtain ⟨t, ht, hseen, _⟩ := ((h _ _ hrun).1.1 i addr stats [] true haddr hid rfl).1 _ rfl
    -- the tracker of the address is as it was made
    have hold : (c.start s stats).Tracks (fun t => t.state = .Connecting ∧ t.last_seen = 0) addr := by
      refine start_tracks ?_ fun t ht => ?_
      · obtain ⟨t, ht, rfl⟩ := new_tracks (List.mem_of_getElem? haddr)
        exact ⟨_, withTracker_lookup.trans ((if_neg (Ne.symm hne)).trans ht), rfl, rfl⟩
      · have hsame : t.aborts c.clock = t := by
          unfold AgentTracker.aborts
          simp [ht.1]
        rw [hsame]
        exact ht
    obtain ⟨t', ht', _, hzero⟩ := hold
    rw [ht] at ht'
    cases ht'
    rw [hseen] at hzero
    cases hzero

/-- The tables agree in every run exactly when the ids are the addresses. -/
theorem the_keys_agree_iff {s : Setup} : KeysAgree s ↔ s.ids = s.agent_addrs :=
  ⟨ids_of_agree, agree_of_ids⟩

/-- With the ids that the controller makes, they do not. -/
theorem made_ids_do_not_agree :
    ∃ s, Setup.new ["host:7761"] none none = .ok s ∧ s.ids = ["agent-1"] ∧ ¬ KeysAgree s := by
  have hnew : ∃ s, Setup.new ["host:7761"] none none = .ok s ∧ s.ids = ["agent-1"] ∧
      s.agent_addrs = ["host:7761"] := ⟨_, rfl, rfl, rfl⟩
  obtain ⟨s, hs, hids, haddrs⟩ := hnew
  refine ⟨s, hs, hids, fun h => ?_⟩
  have heq := ids_of_agree h
  rw [hids, haddrs] at heq
  exact absurd heq (by decide)

end sai3_bench.controller
