-- The barriers between phases, one manager for all of them: what the wait for
-- a phase lets through.
import Sai3Bench.BarrierPolicies

namespace sai3_bench.controller

open config machines pb BarrierManager

/-- One manager, and the phase whose wait goes on. -/
structure PhaseWaits where
  manager : BarrierManager
  phase : Option String := none

/-- What can happen between and in the waits. A wait checks the barrier in
each turn of its loop; a check of liveness is made of events of the manager. -/
inductive PhaseEvent
  | Manager (e : ManagerEvent)
  | Begin (phase_name : String)
  | Check
  | TimedOut

namespace PhaseWaits

def step (s : PhaseWaits) : PhaseEvent → Option PhaseWaits
  | .Manager e => (managerMachine.step s.manager e).map ({ s with manager := · })
  | .Begin phase_name => if s.phase.isNone then some { s with phase := some phase_name } else none
  | .Check =>
    if s.phase.isSome then
      some { s with phase := if s.manager.check_barrier = .Waiting then s.phase else none }
    else none
  | .TimedOut => if s.phase.isSome then some ⟨s.manager.reset_barrier_state, none⟩ else none

end PhaseWaits

def phaseMachine : Machine PhaseWaits PhaseEvent := ⟨PhaseWaits.step⟩

/-! ## The code of the wait runs this machine -/

section

variable {bm b : BarrierManager} {id : String} {client_pool : List String} {l : Liveness}

/-- A query of this agent is on its way. -/
def Queried (bm : BarrierManager) (id : String) : Prop :=
  (bm.agents.lookup id).any (·.query_in_progress) = true

theorem missed_queried {j : String} (h : Queried bm id) : Queried (bm.missed j).1 id := by
  unfold Queried missed at *
  split
  · exact h
  · rename_i hb hj
    split
    · exact h
    · simp only [AList.lookup_insert_if]
      split
      · rename_i hid
        subst hid
        rw [hj] at h
        simp only [Option.any_some] at h ⊢
        simp [h]
      · exact h

theorem missed_query (h : (bm.missed id).2 = true) : Queried (bm.missed id).1 id := by
  unfold Queried missed at *
  split at h
  · cases h
  · split at h
    · cases h
    · rename_i hb hid hf
      simp only [if_neg hf, AList.lookup_insert, Option.any_some, Bool.or_eq_true]
      exact .inr h

/-- The first pass is made of events, and asks for queries that are on their way. -/
theorem lateAgents_run (ids : List String) (hnd : ids.Nodup) (bm : BarrierManager) :
    ∃ es, managerMachine.run bm es = some (lateAgents l bm ids).1 ∧
      (lateAgents l bm ids).2.Nodup ∧
      (∀ id ∈ (lateAgents l bm ids).2, id ∈ ids ∧ Queried (lateAgents l bm ids).1 id) ∧
      ∀ id, Queried bm id → Queried (lateAgents l bm ids).1 id := by
  induction ids generalizing bm with
  | nil => exact ⟨[], rfl, by simp [lateAgents], by simp [lateAgents], fun _ h => h⟩
  | cons id ids ih =>
    obtain ⟨hid, hnd⟩ := List.nodup_cons.mp hnd
    unfold lateAgents
    split
    · obtain ⟨es, hrun, hnd', hq, hkeep⟩ := ih hnd bm
      exact ⟨es, hrun, hnd', fun j hj => ⟨List.mem_cons_of_mem _ (hq j hj).1, (hq j hj).2⟩, hkeep⟩
    · obtain ⟨es, hrun, hnd', hq, hkeep⟩ := ih hnd (bm.missed id).1
      refine ⟨.Missed id :: es, Machine.run_cons_iff.mpr ⟨_, rfl, hrun⟩, ?_, ?_, ?_⟩
      · dsimp only
        split
        · exact List.nodup_cons.mpr ⟨fun h => hid (hq id h).1, hnd'⟩
        · exact hnd'
      · intro j hj
        dsimp only at hj ⊢
        split at hj
        · rename_i hquery
          rcases List.mem_cons.mp hj with rfl | hj
          · exact ⟨by simp, hkeep j (missed_query hquery)⟩
          · exact ⟨List.mem_cons_of_mem _ (hq j hj).1, (hq j hj).2⟩
        · exact ⟨List.mem_cons_of_mem _ (hq j hj).1, (hq j hj).2⟩
      · exact fun j hj => hkeep j (missed_queried hj)

theorem queried_other {j : String} (hj : j ≠ id) (h : Queried bm id) :
    Queried (queried client_pool l bm j) id := by
  unfold queried
  split
  · unfold process_heartbeat Queried at *
    split
    · exact h
    · simpa [AList.lookup_insert_if, hj.symm] using h
  · exact h
  · simpa [Queried, unanswered, AList.lookup_modify, hj.symm] using h

/-- The second pass is made of events too. -/
theorem queries_run (client_pool : List String) (l : Liveness) (ids : List String)
    (hnd : ids.Nodup) (bm : BarrierManager) (hq : ∀ id ∈ ids, Queried bm id) :
    ∃ es, managerMachine.run bm es = some (ids.foldl (queried client_pool l) bm) := by
  induction ids generalizing bm with
  | nil => exact ⟨[], rfl⟩
  | cons id ids ih =>
    obtain ⟨hid, hnd⟩ := List.nodup_cons.mp hnd
    obtain ⟨es, hes⟩ := ih hnd (queried client_pool l bm id) fun j hj =>
      queried_other (fun h => hid (h ▸ hj)) (hq j (List.mem_cons_of_mem _ hj))
    have hstep : ∃ fs, managerMachine.run bm fs = some (queried client_pool l bm id) := by
      unfold queried
      split
      · exact ⟨[.Heartbeat id _], rfl⟩
      · exact ⟨[], rfl⟩
      · refine ⟨[.Unanswered id], Machine.run_cons_iff.mpr ⟨_, ?_, rfl⟩⟩
        exact if_pos (hq id (by simp))
    obtain ⟨fs, hfs⟩ := hstep
    exact ⟨fs ++ es, Machine.run_append_iff.mpr ⟨_, hfs, hes⟩⟩

theorem check_liveness_run (bm : BarrierManager) (client_pool : List String) (l : Liveness) :
    ∃ es, managerMachine.run bm es = some (bm.check_liveness client_pool l) := by
  obtain ⟨es, hes, hnd, hq, _⟩ := lateAgents_run (l := l) bm.agents.keys bm.agents.keys_nodup bm
  obtain ⟨fs, hfs⟩ := queries_run client_pool l _ hnd _
    fun id hid => (hq id hid).2
  exact ⟨es ++ fs, Machine.run_append_iff.mpr ⟨_, hes, hfs⟩⟩

/-- Events of the manager during a wait. -/
theorem manager_run {es : List ManagerEvent} {phase : Option String}
    (h : managerMachine.run bm es = some b) :
    phaseMachine.run ⟨bm, phase⟩ (es.map .Manager) = some ⟨b, phase⟩ := by
  induction es generalizing bm with
  | nil => cases h; rfl
  | cons e es ih =>
    obtain ⟨c, hc, hb⟩ := Machine.run_cons_iff.mp h
    refine Machine.run_cons_iff.mpr ⟨⟨c, phase⟩, ?_, ih hb⟩
    simp [phaseMachine, PhaseWaits.step, hc]

/-- A wait that returns is a run of the machine, which ends with the check or
the timeout that it returns from. -/
theorem wait_for_barrier_run {phase : String} {turns : List Turn} {r : Except String BarrierStatus}
    (h : bm.wait_for_barrier phase client_pool turns = some (b, r)) :
    ∃ es c e, phaseMachine.run ⟨bm, some phase⟩ es = some ⟨c, some phase⟩ ∧
      (∀ p, .Begin p ∉ es) ∧ phaseMachine.step ⟨c, some phase⟩ e = some ⟨b, none⟩ ∧
      (r = .ok .Ready → e = .Check ∧ c.check_barrier = .Ready) := by
  induction turns generalizing bm with
  | nil => cases h
  | cons turn turns ih =>
    unfold wait_for_barrier at h
    cases turn with
    | TimedOut elapsed =>
      cases h
      exact ⟨[], bm, .TimedOut, rfl, by simp, rfl, fun h => by cases h⟩
    | Polls liveness =>
      have hreturns : ∀ {st : BarrierStatus}, bm.check_barrier = st → st ≠ .Waiting →
          phaseMachine.step ⟨bm, some phase⟩ .Check = some ⟨bm, none⟩ := by
        rintro st rfl hne
        simp [phaseMachine, PhaseWaits.step, hne]
      unfold wait_turn at h
      cases hc : bm.check_barrier with
      | Ready =>
        simp only [hc] at h
        cases h
        exact ⟨[], _, .Check, rfl, by simp, hreturns hc (by simp), fun _ => ⟨rfl, hc⟩⟩
      | Degraded =>
        simp only [hc] at h
        cases h
        exact ⟨[], _, .Check, rfl, by simp, hreturns hc (by simp), fun h => by cases h⟩
      | Failed =>
        simp only [hc] at h
        cases h
        exact ⟨[], _, .Check, rfl, by simp, hreturns hc (by simp), fun h => by cases h⟩
      | Waiting =>
        simp only [hc] at h
        -- the rest of the wait starts after the check of liveness, if there is one
        obtain ⟨bm', fs, hfs, hrest⟩ : ∃ bm' fs, managerMachine.run bm fs = some bm' ∧
            bm'.wait_for_barrier phase client_pool turns = some (b, r) := by
          cases liveness with
          | none => exact ⟨bm, [], rfl, h⟩
          | some l =>
            obtain ⟨fs, hfs⟩ := check_liveness_run bm client_pool l
            exact ⟨_, fs, hfs, h⟩
        obtain ⟨es, c, e, hes, hno, hlast, hready⟩ := ih hrest
        refine ⟨.Check :: fs.map .Manager ++ es, c, e, ?_, ?_, hlast, hready⟩
        · refine Machine.run_cons_iff.mpr ⟨⟨bm, some phase⟩, ?_, ?_⟩
          · simp [phaseMachine, PhaseWaits.step, hc]
          · exact Machine.run_append_iff.mpr ⟨_, manager_run hfs, hes⟩
        · simpa using hno

end

/-! ## Who has reported since the wait began -/

/-- The agents that have said that they reached the barrier, after one more
event. -/
def hearHeartbeat (heard : Finset String) : PhaseEvent → Finset String
  | .Manager (.Heartbeat id progress) => if reached progress then insert id heard else heard
  | _ => heard

def heard (es : List PhaseEvent) : Finset String := es.foldl hearHeartbeat ∅

/-- While the wait goes on, its check returns Ready only when every agent has
reported since it began. -/
def WaitsForAll (agent_ids : List String) (s : PhaseWaits) : Prop :=
  ∀ es t, phaseMachine.run s es = some t → (∀ p, .Begin p ∉ es) → t.phase.isSome = true →
    t.manager.check_barrier = .Ready → ∀ id ∈ agent_ids, id ∈ heard es

section

variable {s t : PhaseWaits} {e : PhaseEvent} {es : List PhaseEvent} {agent_ids : List String}
  {config : PhaseBarrierConfig}

/-- All-or-nothing is ready when nobody failed and everybody is ready. -/
theorem check_barrier_ready_all {bm : BarrierManager} (hr : Registered bm)
    (htype : bm.config.barrier_type = .AllOrNothing) :
    bm.check_barrier = .Ready ↔ bm.failed_agents = ∅ ∧ bm.ready_agents = bm.agents.keySet := by
  have hsize : bm.agents.size = bm.agents.keySet.card := rfl
  unfold check_barrier
  simp only [htype]
  constructor
  · intro h
    split at h
    · cases h
    · split at h
      · have hf : bm.failed_agents.card = 0 := by omega
        exact ⟨Finset.card_eq_zero.mp hf, Finset.eq_of_subset_of_card_le hr.ready (by omega)⟩
      · cases h
  · rintro ⟨hf, hready⟩
    simp [hf, hready, hsize]

/-- The manager under the waits. -/
theorem phase_step_manager (h : phaseMachine.step s e = some t) :
    t.manager = s.manager ∨ ∃ me, managerMachine.step s.manager me = some t.manager := by
  cases e with
  | Manager me =>
    obtain ⟨bm, hbm, rfl⟩ := Option.map_eq_some_iff.mp h
    exact .inr ⟨me, hbm⟩
  | Begin p =>
    simp only [phaseMachine, PhaseWaits.step] at h
    split at h <;> cases h
    exact .inl rfl
  | Check =>
    simp only [phaseMachine, PhaseWaits.step] at h
    split at h <;> cases h
    exact .inl rfl
  | TimedOut =>
    simp only [phaseMachine, PhaseWaits.step] at h
    split at h <;> cases h
    exact .inr ⟨.Reset, rfl⟩

/-- What a phase run keeps of its manager. -/
def OfAgents (agent_ids : List String) (config : PhaseBarrierConfig) (s : PhaseWaits) : Prop :=
  Registered s.manager ∧ s.manager.agents.keySet = agent_ids.toFinset ∧ s.manager.config = config

theorem phase_step_ofAgents (hI : OfAgents agent_ids config s)
    (h : phaseMachine.step s e = some t) : OfAgents agent_ids config t := by
  rcases phase_step_manager h with heq | ⟨me, hme⟩
  · unfold OfAgents
    rw [heq]
    exact hI
  · obtain ⟨hreg, hk, hc⟩ := hI
    obtain ⟨hk', hc'⟩ := step_frame hme
    exact ⟨step_registered hreg hme, hk'.trans hk, hc'.trans hc⟩

theorem phase_run_ofAgents (hI : OfAgents agent_ids config s)
    (h : phaseMachine.run s es = some t) : OfAgents agent_ids config t :=
  Machine.run_always (fun _ _ _ hs he => phase_step_ofAgents hs he) hI h

theorem new_ofAgents : OfAgents agent_ids config ⟨BarrierManager.new agent_ids config, none⟩ :=
  run_registered (Machine.run_nil (m := managerMachine))

/-- Who is ready has been heard, when nobody was ready before. -/
theorem step_ready_heard (h : phaseMachine.step s e = some t) {hs : Finset String}
    (hI : s.manager.ready_agents ⊆ hs) : t.manager.ready_agents ⊆ hearHeartbeat hs e := by
  cases e with
  | Manager me =>
    obtain ⟨bm, hbm, rfl⟩ := Option.map_eq_some_iff.mp h
    cases me with
    | Heartbeat id p =>
      cases hbm
      simp only [process_heartbeat_ready, hearHeartbeat]
      by_cases hp : reached p = true
      · simp only [hp, and_true, if_true]
        split
        · exact Finset.insert_subset_insert id hI
        · exact hI.trans (Finset.subset_insert id hs)
      · simpa [hp] using hI
    | Missed id =>
      cases hbm
      simpa [hearHeartbeat, (s.manager.missed_frame id).2.2.1] using hI
    | Unanswered id =>
      simp only [managerMachine, BarrierManager.step] at hbm
      split at hbm <;> cases hbm
      exact hI
    | AtBarrier id k seq => cases hbm; exact hI
    | Clear k => cases hbm; exact hI
    | Reset => cases hbm; exact Finset.empty_subset _
  | Begin p =>
    simp only [phaseMachine, PhaseWaits.step] at h
    split at h <;> cases h
    exact hI
  | Check =>
    simp only [phaseMachine, PhaseWaits.step] at h
    split at h <;> cases h
    exact hI
  | TimedOut =>
    simp only [phaseMachine, PhaseWaits.step] at h
    split at h <;> cases h
    exact Finset.empty_subset _

/-- An agent that failed stays failed, until a reset clears everything. -/
theorem manager_step_failed {bm b : BarrierManager} {me : ManagerEvent}
    (h : managerMachine.step bm me = some b) (hf : bm.failed_agents.Nonempty) :
    b.failed_agents.Nonempty ∨ b.ready_agents = ∅ := by
  cases me with
  | Heartbeat id p => cases h; exact .inl (by simpa using hf)
  | Missed id =>
    cases h
    exact .inl (by rw [(bm.missed_frame id).2.1]; exact hf)
  | Unanswered id =>
    simp only [managerMachine, BarrierManager.step] at h
    split at h <;> cases h
    exact .inl (Finset.insert_nonempty id _)
  | AtBarrier id k seq => cases h; exact .inl hf
  | Clear k => cases h; exact .inl hf
  | Reset => cases h; exact .inr rfl

/-- Whoever is ready has been heard, or an agent has failed. -/
theorem run_heard_or_failed (h : phaseMachine.run s es = some t)
    (hI : s.manager.ready_agents = ∅ ∨ s.manager.failed_agents.Nonempty) :
    t.manager.ready_agents ⊆ heard es ∨ t.manager.failed_agents.Nonempty := by
  refine Machine.run_remembers (P := fun _ _ => True) (I := fun es t =>
    t.manager.ready_agents ⊆ heard es ∨ t.manager.failed_agents.Nonempty)
    (fun fs u e v _ hu _ hv => ?_) (hI.imp (fun h => by rw [h]; exact Finset.empty_subset _) id)
    (Machine.along_of_mem fun _ _ _ => trivial) h
  have hsnoc : heard (fs ++ [e]) = hearHeartbeat (heard fs) e := by
    simp [heard, List.foldl_append]
  rw [hsnoc]
  rcases hu with hu | hu
  · exact .inl (step_ready_heard hv hu)
  · rcases phase_step_manager hv with heq | ⟨me, hme⟩
    · exact .inr (heq ▸ hu)
    · rcases manager_step_failed hme hu with hf | hr
      · exact .inr hf
      · exact .inl (by rw [hr]; exact Finset.empty_subset _)

/-- The agents of a list report one after the other. -/
def reports (ids : List String) : List PhaseEvent :=
  ids.map fun id => .Manager (.Heartbeat id { agent_id := id, at_barrier := true })

theorem heard_reports (ids : List String) (hs : Finset String) :
    (reports ids).foldl hearHeartbeat hs = hs ∪ ids.toFinset := by
  induction ids generalizing hs with
  | nil => simp [reports]
  | cons id ids ih =>
    have := ih (insert id hs)
    simp only [reports, List.map_cons, List.foldl_cons] at this ⊢
    rw [show hearHeartbeat hs (.Manager (.Heartbeat id { agent_id := id, at_barrier := true })) =
      insert id hs from rfl, this, List.toFinset_cons, Finset.insert_union, Finset.union_insert]

theorem reports_run (ids : List String) (hids : ∀ id ∈ ids, id ∈ s.manager.agents) :
    ∃ t, phaseMachine.run s (reports ids) = some t ∧ t.phase = s.phase ∧
      t.manager.failed_agents = s.manager.failed_agents ∧
      t.manager.ready_agents = s.manager.ready_agents ∪ ids.toFinset := by
  induction ids generalizing s with
  | nil => exact ⟨s, rfl, rfl, rfl, by simp⟩
  | cons id ids ih =>
    let p : PhaseProgress := { agent_id := id, at_barrier := true }
    let u : PhaseWaits := { s with manager := s.manager.process_heartbeat id p }
    have hmem : ∀ j, j ∈ u.manager.agents ↔ j ∈ s.manager.agents := by
      intro j
      rw [← AList.mem_keySet, ← AList.mem_keySet, process_heartbeat_agents]
    obtain ⟨t, ht, hphase, hfailed, hready⟩ := ih (s := u) fun j hj =>
      (hmem j).mpr (hids j (List.mem_cons_of_mem _ hj))
    refine ⟨t, Machine.run_cons_iff.mpr ⟨u, rfl, ht⟩, hphase, ?_, ?_⟩
    · rw [hfailed, process_heartbeat_failed]
    · rw [hready, process_heartbeat_ready, if_pos ⟨hids id (by simp), rfl⟩, List.toFinset_cons,
        Finset.insert_union, Finset.union_insert]

end

/-- Under all-or-nothing the wait for a phase waits for every agent exactly
when nobody is still ready from before it, or an agent has failed. -/
theorem a_phase_waits_for_every_agent_iff {agent_ids : List String} {config : PhaseBarrierConfig}
    {es : List PhaseEvent} {s t : PhaseWaits} {phase_name : String}
    (htype : config.barrier_type = .AllOrNothing)
    (hrun : phaseMachine.run ⟨BarrierManager.new agent_ids config, none⟩ es = some s)
    (hb : phaseMachine.step s (.Begin phase_name) = some t) :
    WaitsForAll agent_ids t ↔
      s.manager.ready_agents = ∅ ∨ s.manager.failed_agents.Nonempty := by
  have hsame : t.manager = s.manager ∧ t.phase = some phase_name := by
    simp only [phaseMachine, PhaseWaits.step] at hb
    split at hb <;> cases hb
    exact ⟨rfl, rfl⟩
  have ht : OfAgents agent_ids config t := phase_step_ofAgents (phase_run_ofAgents new_ofAgents hrun) hb
  have hagents : ∀ id, id ∈ agent_ids ↔ id ∈ t.manager.agents := by
    intro id
    rw [← AList.mem_keySet, ht.2.1, List.mem_toFinset]
  rw [← hsame.1]
  constructor
  · intro h
    by_contra hnot
    rw [not_or, Finset.not_nonempty_iff_eq_empty] at hnot
    obtain ⟨hready, hfailed⟩ := hnot
    obtain ⟨x, hx⟩ := Finset.nonempty_iff_ne_empty.mpr hready
    -- all agents but the one that is ready already report in this wait
    let others := agent_ids.filter (· ≠ x)
    obtain ⟨u, hu, hphase, hf, hr⟩ := reports_run (s := t) others fun id hid =>
      (hagents id).mp (List.mem_filter.mp hid).1
    have hu' := phase_run_ofAgents ht hu
    have hall : u.manager.check_barrier = .Ready := by
      refine (check_barrier_ready_all hu'.1 (by rw [hu'.2.2, htype])).mpr ⟨hf.trans hfailed, ?_⟩
      refine Finset.Subset.antisymm hu'.1.ready fun id hid => ?_
      rw [hu'.2.1, List.mem_toFinset] at hid
      rw [hr, Finset.mem_union, List.mem_toFinset]
      by_cases hxid : id = x
      · exact .inl (hxid ▸ hx)
      · exact .inr (List.mem_filter.mpr ⟨hid, by simpa using hxid⟩)
    have hxa : x ∈ agent_ids := (hagents x).mpr (ht.1.ready hx)
    have hheard := h _ u hu (by simp [reports]) (by simp [hphase, hsame.2]) hall x hxa
    rw [heard, heard_reports] at hheard
    simp [others] at hheard
  · intro h fs u hu _ _ hc id hid
    have hu' := phase_run_ofAgents ht hu
    obtain ⟨hfailed, hready⟩ := (check_barrier_ready_all hu'.1 (by rw [hu'.2.2, htype])).mp hc
    have hidu : id ∈ u.manager.ready_agents := by
      rw [hready, hu'.2.1]
      exact List.mem_toFinset.mpr hid
    rcases run_heard_or_failed hu h with hsub | hne
    · exact hsub hidu
    · rw [hfailed] at hne
      simp at hne

/-! ## Two phases -/

def atBarrier : PhaseProgress := { phase_completed := false, at_barrier := true }

/-- Both agents reach the barrier of the first phase, and the wait for it is
over. -/
def firstPhase : List PhaseEvent :=
  [.Manager (.Heartbeat "a" atBarrier), .Manager (.Heartbeat "b" atBarrier), .Begin "prepare",
    .Check]

theorem the_first_phase_waits_for_both_agents :
    ∃ t, phaseMachine.step ⟨twoAgents .AllOrNothing, none⟩ (.Begin "prepare") = some t ∧
      WaitsForAll ["a", "b"] t :=
  ⟨_, rfl, (a_phase_waits_for_every_agent_iff rfl (Machine.run_nil (m := phaseMachine)) rfl).mpr
    (.inl rfl)⟩

/-- The second phase is ready at once, though no agent has reported in it. -/
theorem the_second_phase_waits_for_nobody :
    ∃ s t, phaseMachine.run ⟨twoAgents .AllOrNothing, none⟩ firstPhase = some s ∧
      phaseMachine.step s (.Begin "execute") = some t ∧ t.manager.check_barrier = .Ready ∧
      ¬ WaitsForAll ["a", "b"] t := by
  have hrun : ∃ s t, phaseMachine.run ⟨twoAgents .AllOrNothing, none⟩ firstPhase = some s ∧
      phaseMachine.step s (.Begin "execute") = some t ∧ t.phase.isSome = true ∧
      t.manager.check_barrier = .Ready := ⟨_, _, rfl, rfl, rfl, by decide⟩
  obtain ⟨s, t, hs, ht, hp, hc⟩ := hrun
  refine ⟨s, t, hs, ht, hc, fun h => ?_⟩
  have hheard := h [] t rfl (by simp) hp hc "a" (by simp)
  simp [heard] at hheard

end sai3_bench.controller
