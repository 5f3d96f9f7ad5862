-- The status of a test is truthful: in a run whose messages are borne out by
-- the trackers, what is reported is what the agents have sent.
import Sai3Bench.TestStatuses
import Sai3Bench.AgentTasks

namespace sai3_bench.controller

open config machines pb Controller

variable {s : Setup} {c b d : Controller} {e : Event} {es : List Event} {id : String}

/-! ## The trackers bear out the messages -/

/-- The state of an agent's tracker, if there is one. -/
def stateIn (ts : AList fun _ : String => AgentTracker) (id : String) :
    Option ControllerAgentState := (ts.lookup id).map (·.state)

/-- The trackers that are Completed are of the agents that have delivered. -/
structure Told (s : Setup) (es : List Event) (ts : AList fun _ : String => AgentTracker) :
    Prop where
  known : ∀ id, stateIn ts id ≠ none → isAddress id = true ∨ id ∈ s.ids
  completed_iff : ∀ id ∈ s.ids, stateIn ts id = some .Completed ↔ Delivered id es
  aborted : ∀ id ∈ s.ids, Aborted id es → ¬ Delivered id es

/-- What the trackers of the startup are like. -/
structure Answering (s : Setup) (es : List Event) (ts : AList fun _ : String => AgentTracker) :
    Prop where
  answered : ∀ id st, stateIn ts id = some st →
    st = .Connecting ∨ id ∈ s.ids ∧ (st = .Ready ∨ st = .Failed)
  failed : ∀ id, Erred id es ∨ Aborted id es → stateIn ts id = some .Failed

/-- All agents have answered, and none with an error. -/
structure Answered (s : Setup) (es : List Event) (ts : AList fun _ : String => AgentTracker) :
    Prop where
  present : ∀ id ∈ s.ids, stateIn ts id ≠ none
  no_error : ∀ id ∈ s.ids, ¬ Erred id es

theorem ticked_state {st : ControllerAgentState} (h : stateIn c.trackers id = some st) :
    (c.ticked.tracker id).state = st := by
  obtain ⟨t, hlook, rfl⟩ := Option.map_eq_some_iff.mp h
  rw [ticked_tracker, tracker_of_lookup hlook]

theorem tracker_new (h : stateIn c.trackers id = none) :
    (c.tracker id).state = .Connecting := by
  unfold tracker
  rw [Option.map_eq_none_iff.mp h]
  rfl

/-- A state that no new tracker has. -/
theorem stateIn_of_tracker {st : ControllerAgentState} (hst : st ≠ .Connecting)
    (h : (c.tracker id).state = st) : stateIn c.trackers id = some st := by
  cases hs : stateIn c.trackers id with
  | none =>
    rw [tracker_new hs] at h
    exact absurd h.symm hst
  | some st' =>
    rw [← h, ← ticked_tracker, ticked_state hs]

theorem stateIn_insert {ts : AList fun _ : String => AgentTracker} {j : String} {t : AgentTracker} :
    stateIn (ts.insert j t) id = if id = j then some t.state else stateIn ts id := by
  unfold stateIn
  rw [AList.lookup_insert_if]
  split <;> rfl

theorem stateIn_congr {ts us : AList fun _ : String => AgentTracker}
    (h : ∀ id, us.lookup id = ts.lookup id) : stateIn us = stateIn ts := by
  funext id
  unfold stateIn
  rw [h]

theorem stateIn_stall {ts : AList fun _ : String => AgentTracker} {j : String} {now : Nat} :
    stateIn (ts.modify j (·.stalls now)) id =
      if id = j ∧ (stateIn ts j = some .Preparing ∨ stateIn ts j = some .Running) then
        some .Disconnected
      else stateIn ts id := by
  unfold stateIn
  rw [AList.lookup_modify]
  by_cases hj : id = j
  · subst hj
    cases h : ts.lookup id with
    | none => simp
    | some t =>
      unfold AgentTracker.stalls AgentTracker.is_active AgentTracker.is_terminal
      cases ht : t.state <;> simp [ht, AgentTracker.moves_state, ControllerAgentState.can_transition]
  · simp [hj]

theorem told_congr {ts us : AList fun _ : String => AgentTracker} (h : stateIn us = stateIn ts)
    (hT : Told s es ts) : Told s es us :=
  ⟨by rw [h]; exact hT.known, by rw [h]; exact hT.completed_iff, hT.aborted⟩

/-- The state that a message of the loop leaves. -/
theorem moved_reads {stats : LiveStats} {turns : List BarrierManager.Turn} {tsv_written : Bool}
    (hp : c.phase = .Loop) : stateIn (moved c (.Stats stats turns tsv_written)) id =
      if id = stats.agent_id then
        some ((c.ticked.tracker stats.agent_id).reads stats c.ticked.clock).state
      else stateIn c.trackers id := by
  simp only [moved, hp]
  exact stateIn_insert

/-- The tracker of the agent of a message that is borne out. -/
theorem reads_truly {stats : LiveStats} {turns : List BarrierManager.Turn} {tsv_written : Bool}
    (hT : Told s es c.trackers) (hid : stats.agent_id ∈ s.ids) (htrue : ReadTruly es c stats) :
    (((c.ticked.tracker stats.agent_id).reads stats c.ticked.clock).state = .Completed ↔
      Delivered stats.agent_id (es ++ [.Stats stats turns tsv_written])) ∧
    (Aborted stats.agent_id (es ++ [.Stats stats turns tsv_written]) →
      ¬ Delivered stats.agent_id (es ++ [.Stats stats turns tsv_written])) := by
  obtain ⟨herr, habort, hdone⟩ := htrue
  have hwas : (c.tracker stats.agent_id).state = .Completed ↔ Delivered stats.agent_id es := by
    rw [← hT.completed_iff _ hid]
    refine ⟨stateIn_of_tracker (by simp), fun h => ?_⟩
    rw [← ticked_tracker]
    exact ticked_state h
  have hkeep : (c.tracker stats.agent_id).state = .Completed → arrived c stats = .Completed :=
    fun h => AgentTracker.arrives_completed_iff.mpr (.inl h)
  have hreads := @AgentTracker.reads_completed_iff (c.ticked.tracker stats.agent_id) stats
    c.ticked.clock
  rw [ticked_tracker] at hreads
  rw [hreads, delivered_snoc_self, aborted_snoc_self]
  by_cases hd : delivers stats = true
  · obtain ⟨hcan, hnot⟩ := hdone hd
    have h5 : stats.status ≠ 5 := by
      intro h5
      simp [delivers, h5] at hd
    rw [if_pos (.inl hd)]
    exact ⟨⟨fun _ => .inr hd, fun _ => hcan⟩, fun ha => absurd ha (by simpa [h5] using hnot)⟩
  · by_cases h5 : stats.status = 5
    · have hno := habort h5
      have hwasnot : ¬ Delivered stats.agent_id es := by
        rw [← hwas]
        intro h
        rw [hkeep h] at hno
        cases hno
      rw [if_pos (.inr h5)]
      exact ⟨⟨fun h => absurd (hno.symm.trans h) (by simp), fun h => absurd h (by simp [hd, hwasnot])⟩,
        fun _ => by simp [hd, hwasnot]⟩
    · rw [if_neg (by simp [hd, h5])]
      have hold := hT.aborted _ hid
      refine ⟨?_, fun ha => by simpa [hd] using hold (by simpa [h5] using ha)⟩
      rw [or_iff_left hd, ← hwas]
      refine ⟨fun h => ?_, hkeep⟩
      by_cases h3 : stats.status = 3
      · exact absurd h (herr h3)
      · rcases AgentTracker.arrives_completed_iff.mp h with h | ⟨_, hc⟩
        · exact h
        · simp [delivers, h3, h5, hc] at hd

/-- A message of the loop that is borne out by its tracker. -/
theorem told_reads {stats : LiveStats} {turns : List BarrierManager.Turn} {tsv_written : Bool}
    (hT : Told s es c.trackers) (hp : c.phase = .Loop)
    (hknown : isAddress stats.agent_id = true ∨ stats.agent_id ∈ s.ids)
    (htrue : stats.agent_id ∈ s.ids → ReadTruly es c stats) :
    Told s (es ++ [.Stats stats turns tsv_written])
      (moved c (.Stats stats turns tsv_written)) := by
  have hother : ∀ id, id ≠ stats.agent_id →
      stateIn (moved c (.Stats stats turns tsv_written)) id = stateIn c.trackers id := by
    intro id hid
    rw [moved_reads hp, if_neg hid]
  have hsent : ∀ id, id ≠ stats.agent_id → ∀ p,
      (Sent id p (es ++ [.Stats stats turns tsv_written]) ↔ Sent id p es) := by
    intro id hid p
    refine sent_snoc_other fun m hm => ?_
    cases hm
    exact hid.symm
  -- only the tracker of the message's agent has to be looked at
  refine ⟨fun id hid => ?_, fun id hid => ?_, fun id hid => ?_⟩
  · by_cases h : id = stats.agent_id
    · rw [h]
      exact hknown
    · rw [hother id h] at hid
      exact hT.known id hid
  · by_cases h : id = stats.agent_id
    · subst h
      rw [moved_reads hp, if_pos rfl, Option.some.injEq]
      exact (reads_truly hT hid (htrue hid)).1
    · rw [hother id h, hT.completed_iff id hid]
      exact (hsent id h _).symm
  · by_cases h : id = stats.agent_id
    · subst h
      exact (reads_truly hT hid (htrue hid)).2
    · rw [Aborted, Delivered, hsent id h, hsent id h]
      exact hT.aborted id hid

/-- An event that is no message. -/
theorem sent_snoc_silent {p : LiveStats → Bool} (h : messageOf e = none) :
    Sent id p (es ++ [e]) ↔ Sent id p es :=
  sent_snoc_other fun m hm => by rw [h] at hm; cases hm

theorem told_silent {ts us : AList fun _ : String => AgentTracker} (hT : Told s es ts)
    (he : messageOf e = none) (hsome : ∀ id, stateIn us id = none ↔ stateIn ts id = none)
    (hcompleted : ∀ id, stateIn us id = some .Completed ↔ stateIn ts id = some .Completed) :
    Told s (es ++ [e]) us := by
  refine ⟨fun id hid => hT.known id (fun h => hid ((hsome id).mpr h)), fun id hid => ?_,
    fun id hid => ?_⟩
  · rw [hcompleted, hT.completed_iff id hid]
    exact (sent_snoc_silent he).symm
  · rw [Aborted, Delivered, sent_snoc_silent he, sent_snoc_silent he]
    exact hT.aborted id hid

/-- A stall makes a tracker Disconnected that was not Completed. -/
theorem told_stalls {j : String} {now : Nat} {ts : AList fun _ : String => AgentTracker}
    (hT : Told s es ts) : Told s (es ++ [.Stalled j]) (ts.modify j (·.stalls now)) := by
  refine told_silent hT rfl (fun id => ?_) (fun id => ?_)
  · rw [stateIn_stall]
    split
    · rename_i h
      obtain ⟨rfl, h | h⟩ := h <;> simp [h]
    · exact Iff.rfl
  · rw [stateIn_stall]
    split
    · rename_i h
      obtain ⟨rfl, h | h⟩ := h <;> simp [h]
    · exact Iff.rfl

/-! ## The startup -/

/-- No tracker of the startup is Completed, and no agent has delivered. -/
theorem Answering.not_delivered {ts : AList fun _ : String => AgentTracker}
    (hA : Answering s es ts) (hT : Told s es ts) (hid : id ∈ s.ids) : ¬ Delivered id es := by
  rw [← hT.completed_iff id hid]
  intro h
  rcases hA.answered id _ h with h | ⟨_, h | h⟩ <;> cases h

theorem Answering.tracker {c : Controller} (hA : Answering s es c.trackers) (id : String) :
    (c.ticked.tracker id).state = .Connecting ∨ (c.ticked.tracker id).state = .Ready ∨
      (c.ticked.tracker id).state = .Failed := by
  cases h : stateIn c.trackers id with
  | none =>
    rw [ticked_tracker, tracker_new h]
    exact .inl rfl
  | some st =>
    rw [ticked_state h]
    rcases hA.answered id st h with rfl | ⟨_, h⟩
    · exact .inl rfl
    · exact .inr h

theorem moved_starts {stats : LiveStats} {turns : List BarrierManager.Turn} {tsv_written : Bool}
    (hp : c.phase = .Startup) : stateIn (moved c (.Stats stats turns tsv_written)) id =
      if id = stats.agent_id then
        some ((c.ticked.tracker stats.agent_id).starts stats c.ticked.clock).state
      else stateIn c.trackers id := by
  simp only [moved, hp]
  exact stateIn_insert

theorem answering_starts {stats : LiveStats} {turns : List BarrierManager.Turn} {tsv_written : Bool}
    (hA : Answering s es c.trackers) (hp : c.phase = .Startup) (htrue : AnsweredTruly s c stats) :
    Answering s (es ++ [.Stats stats turns tsv_written])
      (moved c (.Stats stats turns tsv_written)) := by
  obtain ⟨hid, _, hready⟩ := htrue
  have hst := @AgentTracker.starts_state _ stats c.ticked.clock (hA.tracker stats.agent_id)
  refine ⟨fun j st hj => ?_, fun j hj => ?_⟩
  · rw [moved_starts hp] at hj
    by_cases h : j = stats.agent_id
    · rw [if_pos h, hst] at hj
      cases hj
      refine .inr ⟨h ▸ hid, ?_⟩
      rcases hA.tracker stats.agent_id with hc | hc | hc
      · rw [if_pos hc]
        split
        · exact .inr rfl
        · exact .inl rfl
      · simp [hc]
      · simp [hc]
    · rw [if_neg h] at hj
      exact hA.answered j st hj
  · rw [moved_starts hp]
    by_cases h : j = stats.agent_id
    · subst h
      rw [if_pos rfl, hst]
      rw [erred_snoc_self, aborted_snoc_self] at hj
      by_cases hold : Erred stats.agent_id es ∨ Aborted stats.agent_id es
      · rw [ticked_state (hA.failed _ hold)]
        rfl
      · have hnow : stats.status = 3 ∨ stats.status = 5 := by
          rw [not_or] at hold
          rcases hj with (he | h3) | (ha | h5)
          · exact absurd he hold.1
          · exact .inl h3
          · exact absurd ha hold.2
          · exact .inr h5
        have hnr := hready hnow
        rw [← ticked_tracker] at hnr
        rcases hA.tracker stats.agent_id with hc | hc | hc
        · rw [if_pos hc, if_pos hnow]
        · exact absurd hc hnr
        · rw [hc]
          rfl
    · rw [if_neg h]
      have hother : ∀ m, messageOf (.Stats stats turns tsv_written) = some m → m.agent_id ≠ j := by
        intro m hm
        cases hm
        exact Ne.symm h
      rw [Erred, Aborted, sent_snoc_other hother, sent_snoc_other hother] at hj
      exact hA.failed j hj

theorem told_starts {stats : LiveStats} {turns : List BarrierManager.Turn} {tsv_written : Bool}
    (hT : Told s es c.trackers) (hA : Answering s es c.trackers) (hp : c.phase = .Startup)
    (htrue : AnsweredTruly s c stats) :
    Told s (es ++ [.Stats stats turns tsv_written])
      (moved c (.Stats stats turns tsv_written)) := by
  have hA' : Answering s (es ++ [.Stats stats turns tsv_written])
      (moved c (.Stats stats turns tsv_written)) := answering_starts hA hp htrue
  have hnot : ∀ id ∈ s.ids, ¬ Delivered id (es ++ [.Stats stats turns tsv_written]) := by
    intro id hid
    by_cases h : id = stats.agent_id
    · subst h
      rw [delivered_snoc_self, htrue.2.1]
      simpa using hA.not_delivered hT hid
    · rw [Delivered, sent_snoc_other (by rintro m ⟨⟩; exact Ne.symm h)]
      exact hA.not_delivered hT hid
  refine ⟨fun id hid => ?_, fun id hid => ?_, fun id hid _ => hnot id hid⟩
  · rw [moved_starts hp] at hid
    by_cases h : id = stats.agent_id
    · exact .inr (h ▸ htrue.1)
    · rw [if_neg h] at hid
      exact hT.known id hid
  · refine iff_of_false (fun h => ?_) (hnot id hid)
    rcases hA'.answered id _ h with h | ⟨_, h | h⟩ <;> cases h

/-- The loop begins when enough agents have answered, none of them with an error. -/
theorem begins_when (h : (controllerMachine s).step c e = some b) (hp : c.phase = .Startup)
    (hb : b.phase ≠ .Startup) (hgo : Going b) :
    s.agent_addrs.length ≤ b.responded ∧ ∀ id, stateIn b.trackers id ≠ some .Failed := by
  cases e <;> simp only [controllerMachine, step, hp] at h <;> try cases h
  case Stats stats turns tsv_written =>
    unfold start finish_startup at hb hgo ⊢
    dsimp only at hb hgo ⊢
    split at hb
    · rename_i hlen
      rw [if_pos hlen] at hgo ⊢
      split at hb
      · rename_i hnone
        rw [if_pos hnone]
        refine ⟨hlen, fun id hid => ?_⟩
        obtain ⟨t, hlook, ht⟩ := Option.map_eq_some_iff.mp hid
        rw [List.isEmpty_iff, List.filter_eq_nil_iff] at hnone
        exact hnone t (AList.mem_values.mpr ⟨id, hlook⟩) (decide_eq_true ht)
      · rename_i hsome
        rw [if_neg hsome] at hgo
        exact absurd hgo not_going_exits
    · exact absurd hp hb
  all_goals exact absurd hgo not_going_exits

/-- When there are as many answers as agents, they are of all agents. -/
theorem Answering.present {c : Controller} (hA : Answering s es c.trackers)
    (hlen : s.agent_addrs.length ≤ c.responded) (hid : id ∈ s.ids) :
    stateIn c.trackers id ≠ none := by
  let answer : AgentTracker → Bool := fun t => t.state = .Ready || t.state = .Failed
  let keys := (c.trackers.entries.filter fun e => answer e.2).map (·.1)
  have hcount : keys.length = c.responded := by
    unfold responded AList.values
    rw [List.filter_map, List.length_map, List.length_map]
    rfl
  have hnodup : keys.Nodup :=
    List.Nodup.sublist (List.filter_sublist.map _) c.trackers.nodupKeys
  have hsub : keys ⊆ s.ids := by
    intro k hk
    obtain ⟨⟨j, t⟩, he, rfl⟩ := List.mem_map.mp hk
    obtain ⟨hmem, hans⟩ := List.mem_filter.mp he
    have hstate : stateIn c.trackers j = some t.state := by
      unfold stateIn
      rw [AList.mem_lookup_iff.mpr hmem]
      rfl
    rcases hA.answered j _ hstate with hc | ⟨hj, _⟩
    · simp [answer, hc] at hans
    · exact hj
  have hall : s.ids.toFinset = keys.toFinset := by
    symm
    refine Finset.eq_of_subset_of_card_le (fun k hk => ?_) ?_
    · rw [List.mem_toFinset] at hk ⊢
      exact hsub hk
    · rw [List.toFinset_card_of_nodup hnodup, hcount]
      exact (List.toFinset_card_le _).trans (s.same_length.trans_le hlen)
  have hk : id ∈ keys := by
    rw [← List.mem_toFinset, ← hall, List.mem_toFinset]
    exact hid
  obtain ⟨⟨j, t⟩, he, rfl⟩ := List.mem_map.mp hk
  unfold stateIn
  rw [AList.mem_lookup_iff.mpr (List.mem_filter.mp he).1]
  simp

/-! ## A run whose messages are borne out -/

structure Straight (s : Setup) (es : List Event) (c : Controller) : Prop where
  told : Told s es c.trackers
  startup : c.phase = .Startup → Answering s es c.trackers
  later : c.phase ≠ .Startup → Answered s es c.trackers

theorem foldl_new_state (addrs : List String) (m : AList fun _ : String => AgentTracker)
    {st : ControllerAgentState}
    (h : stateIn (addrs.foldl (fun m addr => m.insert addr (AgentTracker.new addr 0)) m) id =
      some st) : st = .Connecting ∧ id ∈ addrs ∨ stateIn m id = some st := by
  induction addrs generalizing m with
  | nil => exact .inr h
  | cons addr addrs ih =>
    rcases ih _ h with ⟨hst, hid⟩ | hm
    · exact .inl ⟨hst, List.mem_cons_of_mem _ hid⟩
    · rw [stateIn_insert] at hm
      split at hm
      · rename_i hid
        cases hm
        exact .inl ⟨rfl, by rw [hid]; exact List.mem_cons_self⟩
      · exact .inr hm

theorem straight_new (hs : s.Named) : Straight s [] (Controller.new s) := by
  have hnew : ∀ id st, stateIn (Controller.new s).trackers id = some st →
      st = .Connecting ∧ id ∈ s.agent_addrs := by
    intro id st h
    rcases foldl_new_state _ _ h with h | h
    · exact h
    · cases h
  have hnone : ∀ id p, ¬ Sent id p [] := by
    rintro id p ⟨m, hm, _⟩
    cases hm
  refine ⟨⟨fun id hid => ?_, fun id _ => ?_, fun id _ ha => absurd ha (hnone _ _)⟩,
    fun _ => ⟨fun id st h => .inl (hnew id st h).1, fun id h => ?_⟩, fun h => absurd rfl h⟩
  · obtain ⟨st, hst⟩ := Option.ne_none_iff_exists'.mp hid
    exact hs.addresses id (hnew id st hst).2
  · refine iff_of_false (fun h => ?_) (hnone _ _)
    cases (hnew id _ h).1
  · exact h.elim (fun h => absurd h (hnone _ _)) (fun h => absurd h (hnone _ _))

/-- After the startup, whatever happens, the trackers bear out the messages. -/
theorem told_moved (hT : Told s es c.trackers) (hp : c.phase ≠ .Startup)
    (htrue : BorneOut s es c e) (hloop : messageOf e ≠ none → c.phase = .Loop) :
    Told s (es ++ [e]) (moved c e) := by
  cases e with
  | Stats stats turns tsv_written =>
    have hl := hloop (by simp [messageOf])
    obtain ⟨hknown, hread⟩ := (htrue stats rfl).2 hl
    exact told_reads hT hl hknown hread
  | Stalled id =>
    cases hp' : c.phase with
    | Loop =>
      simp only [moved, hp']
      exact told_stalls hT
    | _ =>
      simp only [moved, hp']
      exact told_silent hT rfl (fun _ => Iff.rfl) (fun _ => Iff.rfl)
  | _ =>
    unfold moved
    split
    all_goals first
      | exact told_silent hT rfl (fun _ => Iff.rfl) (fun _ => Iff.rfl)
      | simp_all

theorem moved_present (h : stateIn c.trackers id ≠ none) : stateIn (moved c e) id ≠ none := by
  unfold moved
  split
  · rw [stateIn_insert]
    split <;> simp_all
  · rw [stateIn_insert]
    split <;> simp_all
  · rw [stateIn_stall]
    split <;> simp_all
  · exact h

theorem answered_moved (hA : Answered s es c.trackers)
    (herr : ∀ stats, messageOf e = some stats → stats.agent_id ∈ s.ids → stats.status ≠ 3) :
    Answered s (es ++ [e]) (moved c e) := by
  refine ⟨fun id hid => moved_present (hA.present id hid), fun id hid h => ?_⟩
  · rcases sent_snoc.mp h with h | ⟨m, hm, rfl, h3⟩
    · exact hA.no_error id hid h
    · exact herr m hm hid (of_decide_eq_true h3)

/-- A run that goes on does not start again, and has read no error. -/
theorem step_later (h : (controllerMachine s).step c e = some b) (hb : Going b)
    (hp : c.phase ≠ .Startup) : b.phase ≠ .Startup ∧
      ∀ stats, messageOf e = some stats → c.phase = .Loop ∧ stats.status ≠ 3 := by
  cases step_cases h with
  | answers hs | begins hs | fails hs => exact absurd hs hp
  | stalls _ => exact ⟨hp, fun _ h => by cases h⟩
  | closes _ => exact ⟨by simp [finish_loop], fun _ h => by cases h⟩
  | aborts _ => exact absurd hb not_going_exits
  | finishes _ => exact absurd hb not_going_exits
  | awaits _ hw =>
    obtain ⟨bm, _, ⟨rfl, _⟩ | ⟨_, _, _, msg, _, _, rfl⟩⟩ := await_cases hw <;>
      exact absurd hb not_going_exits
  | @takes stats turns tsv_written _ hl htake =>
    obtain ⟨bm, _, ⟨rfl, _⟩ | ⟨_, msg, rfl⟩⟩ := take_cases htake
    · have h3 : stats.status ≠ 3 := by
        intro h3
        rw [settle_error h3] at hb
        exact not_going_exits hb
      refine ⟨?_, fun m hm => by cases hm; exact ⟨hl, h3⟩⟩
      obtain ⟨_, _, hph⟩ := settle_regular (s := s) (c := c.ticked.waited s stats tsv_written bm) h3
      have hph' : (c.ticked.waited s stats tsv_written bm).phase = c.phase := hear_frame.2.1
      rcases hph with hph | hph <;> rw [hph]
      · rw [hph']
        exact hp
      · simp
    · exact absurd hb not_going_exits

theorem straight_step (hI : Straight s es c) (htrue : BorneOut s es c e)
    (h : (controllerMachine s).step c e = some b) (hb : Going b) : Straight s (es ++ [e]) b := by
  have hsame : stateIn b.trackers = stateIn (moved c e) := stateIn_congr fun _ => step_moved h hb
  by_cases hp : c.phase = .Startup
  · have hmsg : ∃ stats turns tsv_written, e = .Stats stats turns tsv_written := by
      cases e <;> simp only [controllerMachine, step, hp] at h <;> try cases h
      case Stats stats turns tsv_written => exact ⟨_, _, _, rfl⟩
      all_goals exact absurd hb not_going_exits
    obtain ⟨stats, turns, tsv_written, rfl⟩ := hmsg
    have hans := (htrue stats rfl).1 hp
    have hA := hI.startup hp
    have hA' : Answering s (es ++ [.Stats stats turns tsv_written]) b.trackers := by
      have : Answering s (es ++ [.Stats stats turns tsv_written])
          (moved c (.Stats stats turns tsv_written)) := answering_starts hA hp hans
      exact ⟨by rw [hsame]; exact this.answered, by rw [hsame]; exact this.failed⟩
    refine ⟨told_congr hsame (told_starts hI.told hA hp hans), fun _ => hA', fun hbp => ?_⟩
    obtain ⟨hlen, hnone⟩ := begins_when h hp hbp hb
    exact ⟨fun id hid => hA'.present hlen hid, fun id _ he => hnone id (hA'.failed id (.inl he))⟩
  · obtain ⟨hbp, hmsg⟩ := step_later h hb hp
    have hloop : messageOf e ≠ none → c.phase = .Loop := by
      intro he
      obtain ⟨stats, hm⟩ := Option.ne_none_iff_exists'.mp he
      exact (hmsg stats hm).1
    refine ⟨told_congr hsame (told_moved hI.told hp htrue hloop), fun h => absurd h hbp, fun _ => ?_⟩
    have hA := answered_moved (hI.later hp) fun stats hm _ => (hmsg stats hm).2
    exact ⟨by rw [hsame]; exact hA.present, hA.no_error⟩

theorem straight_run (hs : s.Named) (hrun : (controllerMachine s).run (Controller.new s) es = some c)
    (hA : (controllerMachine s).AlongWith (BorneOut s) (Controller.new s) es) (hc : Going c) :
    Straight s es c :=
  Machine.run_recalls (I := fun es c => Going c → Straight s es c)
    (fun _ _ _ _ _ hI htrue h hb => straight_step (hI (going_of_step h)) htrue h hb)
    (fun _ => straight_new hs) hA hrun hc

/-! ## Agents that are lost -/

theorem lost_snoc : Lost s id (es ++ [e]) ↔
    (Lost s id es ∧ ∀ m, messageOf e = some m → m.agent_id ≠ id) ∨
      e = .Stalled id ∧ ∃ c, (controllerMachine s).run (Controller.new s) es = some c ∧
        (c.tracker id).is_active = true := by
  constructor
  · rintro ⟨pre, post, c, hes, hrun, hact, hno⟩
    rcases List.eq_nil_or_concat post with rfl | ⟨post', x, rfl⟩
    · obtain ⟨rfl, he⟩ := List.append_inj' hes rfl
      exact .inr ⟨by simpa using he, c, hrun, hact⟩
    · rw [List.concat_eq_append] at hes hno
      rw [← List.cons_append, ← List.append_assoc] at hes
      obtain ⟨rfl, he⟩ := List.append_inj' hes rfl
      cases he
      rw [sent_snoc, not_or] at hno
      exact .inl ⟨⟨pre, post', c, rfl, hrun, hact, hno.1⟩,
        fun m hm hid => hno.2 ⟨m, hm, hid, rfl⟩⟩
  · rintro (⟨⟨pre, post, c, rfl, hrun, hact, hno⟩, he⟩ | ⟨rfl, c, hrun, hact⟩)
    · refine ⟨pre, post ++ [e], c, by simp, hrun, hact, ?_⟩
      rw [sent_snoc_other he]
      exact hno
    · exact ⟨es, [], c, rfl, hrun, hact, by rintro ⟨m, hm, _⟩; cases hm⟩

theorem lost_moved (hrun : (controllerMachine s).run (Controller.new s) es = some c)
    (hI : Lost s id es → stateIn c.trackers id = some .Disconnected)
    (hstall : e = .Stalled id → c.phase = .Loop) (h : Lost s id (es ++ [e])) :
    stateIn (moved c e) id = some .Disconnected := by
  rcases lost_snoc.mp h with ⟨hl, he⟩ | ⟨rfl, c', hc', hact⟩
  · have hwas := hI hl
    have hne : ∀ stats turns tsv_written, e = .Stats stats turns tsv_written →
        id ≠ stats.agent_id := by
      rintro stats turns tsv_written rfl
      exact Ne.symm (he stats rfl)
    unfold moved
    split
    · rw [stateIn_insert, if_neg (hne _ _ _ rfl)]
      exact hwas
    · rw [stateIn_insert, if_neg (hne _ _ _ rfl)]
      exact hwas
    · rw [stateIn_stall]
      split
      · rfl
      · exact hwas
    · exact hwas
  · rw [hrun] at hc'
    cases hc'
    have hst : stateIn c.trackers id = some .Preparing ∨ stateIn c.trackers id = some .Running := by
      rw [AgentTracker.is_active, Bool.or_eq_true, decide_eq_true_eq, decide_eq_true_eq] at hact
      exact hact.imp (stateIn_of_tracker (by simp)) (stateIn_of_tracker (by simp))
    simp only [moved, hstall rfl]
    rw [stateIn_stall, if_pos ⟨rfl, hst⟩]

theorem lost_run (hrun : (controllerMachine s).run (Controller.new s) es = some c) (hc : Going c)
    (h : Lost s id es) : stateIn c.trackers id = some .Disconnected := by
  refine Machine.run_remembers (P := fun _ _ => True)
    (I := fun es c => Going c → Lost s id es → stateIn c.trackers id = some .Disconnected)
    (fun es c e b hr hI _ hs hb hl => ?_) (fun _ hl => ?_)
    (Machine.along_of_mem fun _ _ _ => trivial) hrun hc h
  · rw [stateIn_congr fun _ => step_moved hs hb]
    refine lost_moved hr (hI (going_of_step hs)) (fun he => ?_) hl
    subst he
    cases hp : c.phase <;> simp_all [controllerMachine, step]
  · obtain ⟨pre, post, _, hes, _⟩ := hl
    simp at hes

/-! ## The status is truthful -/

/-- Once all agents have answered, a status of trackers that bear out the
messages is what the messages say. -/
theorem told_truthful (hs : s.Named) {ts : AList fun _ : String => AgentTracker}
    {sums : List WorkloadSummary} (hT : Told s es ts)
    (hpresent : ∀ id ∈ s.ids, stateIn ts id ≠ none)
    (herr : ∀ id ∈ s.ids, Erred id es → ¬ Delivered id es)
    (hlost : ∀ id ∈ s.ids, Lost s id es → stateIn ts id = some .Disconnected) :
    Truthful s es (check_test_status ts sums) := by
  have hiff : (check_test_status ts sums).success = true ↔ ∀ id ∈ s.ids, Delivered id es := by
    rw [success_iff]
    constructor
    · rintro ⟨_, hall⟩ id hid
      obtain ⟨st, hst⟩ := Option.ne_none_iff_exists'.mp (hpresent id hid)
      obtain ⟨t, hlook, ht⟩ := Option.map_eq_some_iff.mp hst
      rw [← hT.completed_iff id hid, hst, ← ht, hall id t hlook (hs.ids id hid)]
    · intro hall
      constructor
      · obtain ⟨id, hid⟩ := List.exists_mem_of_ne_nil _ hs.some_agent
        obtain ⟨st, hst⟩ := Option.ne_none_iff_exists'.mp (hpresent id hid)
        obtain ⟨t, hlook, _⟩ := Option.map_eq_some_iff.mp hst
        exact ⟨id, t, hlook, hs.ids id hid⟩
      · intro id t hlook haddr
        have hst : stateIn ts id = some t.state := by
          unfold stateIn
          rw [hlook]
          rfl
        rcases hT.known id (by rw [hst]; simp) with h | h
        · rw [haddr] at h
          cases h
        · have hc := (hT.completed_iff id h).mpr (hall id h)
          rw [hst, Option.some.injEq] at hc
          exact hc
  refine ⟨hiff, fun id hid hbad => ?_⟩
  have hnot : ¬ Delivered id es := by
    rcases hbad with h | h | h | h
    · exact herr id hid h
    · exact hT.aborted id hid h
    · rw [← hT.completed_iff id hid, hlost id hid h]
      simp
    · exact h
  rw [← Bool.not_eq_true, hiff]
  exact fun hall => hnot (hall id hid)

/-- In a run of named agents whose messages are all borne out by their
trackers, every status that is reported is what the messages say. -/
theorem the_status_is_truthful {s : Setup} {es : List Event} {c d : Controller} {e : Event}
    (hs : s.Named) (hrun : (controllerMachine s).run (Controller.new s) es = some c)
    (htrue : (controllerMachine s).AlongWith (BorneOut s) (Controller.new s) (es ++ [e]))
    (hd : Reports s c e d) :
    Truthful s (es ++ [e]) (check_test_status d.trackers d.agent_summaries) := by
  obtain ⟨hA, he⟩ := (Machine.alongWith_snoc hrun).mp htrue
  have hgoing : Going c := by
    intro outcome hout
    cases hd with
    | fails hp _ _ => rw [hout] at hp; cases hp
    | ends hp _ _ => rw [hout] at hp; cases hp
  have hp : c.phase ≠ .Startup := by
    cases hd with
    | fails hp _ _ => rw [hp]; simp
    | ends hp _ _ => rw [hp]; simp
  have hI := straight_run hs hrun hA hgoing
  have hsame : stateIn d.trackers = stateIn (moved c e) := stateIn_congr fun _ => reports_moved hd
  have hT : Told s (es ++ [e]) d.trackers := by
    refine told_congr hsame (told_moved hI.told hp he fun hm => ?_)
    cases hd with
    | fails hp _ _ => exact hp
    | ends _ _ _ => exact absurd rfl hm
  have hlater := hI.later hp
  refine told_truthful hs hT (fun id hid => ?_) (fun id hid herr => ?_) (fun id hid hl => ?_)
  · rw [hsame]
    exact (moved_present (hlater.present id hid))
  · cases hd with
    | ends _ _ _ => exact absurd ((sent_snoc_silent rfl).mp herr) (hlater.no_error id hid)
    | @fails stats turns tsv_written hp h3 _ =>
      by_cases hself : id = stats.agent_id
      · subst hself
        rw [← hT.completed_iff _ hid, hsame, moved_reads hp, if_pos rfl, Option.some.injEq,
          AgentTracker.reads_completed_iff, if_neg (by simp [delivers, h3]), ticked_tracker]
        exact (((he stats rfl).2 hp).2 hid).1 h3
      · rw [Erred, sent_snoc_other (by rintro m ⟨⟩; exact Ne.symm hself)] at herr
        exact absurd herr (hlater.no_error id hid)
  · rw [hsame]
    refine lost_moved hrun (fun h => lost_run hrun hgoing h) (fun he => ?_) hl
    subst he
    cases hd

/-! ## A run that completes, and one that is aborted -/

theorem oneAgent_named : oneAgent.Named := by
  refine ⟨by decide, ?_, ?_⟩
  · intro id hid
    rw [List.mem_singleton.mp hid]
    decide
  · intro addr haddr
    rw [List.mem_singleton.mp haddr]
    exact .inl (by decide)

/-- An agent is ready, and runs its workload. -/
def readyThenRunning : List Event :=
  [.Stats (readyMessage "agent-1") [] true, .Stats (runningMessage "agent-1") [] true]

theorem readyThenRunning_borneOut : (controllerMachine oneAgent).AlongWith (BorneOut oneAgent)
    (Controller.new oneAgent) readyThenRunning := by
  have hready : ∃ c, (controllerMachine oneAgent).run (Controller.new oneAgent)
      [.Stats (readyMessage "agent-1") [] true] = some c ∧ c.phase = .Loop := ⟨_, rfl, rfl⟩
  obtain ⟨c, hc, hp⟩ := hready
  refine (Machine.alongWith_snoc hc).mpr ⟨(Machine.alongWith_snoc Machine.run_nil).mpr
    ⟨Machine.alongWith_nil, ?_⟩, ?_⟩
  · rintro stats ⟨⟩
    exact ⟨fun _ => ⟨by decide, by decide, by decide⟩, fun h => by cases h⟩
  · rintro stats ⟨⟩
    refine ⟨fun h => ?_, fun _ => ⟨.inr (by decide), fun _ => ⟨?_, ?_, ?_⟩⟩⟩
    · rw [hp] at h
      cases h
    all_goals
      intro h
      cases h

/-- The agent completes its workload, which the status says. -/
theorem a_completed_run_is_a_success : ∃ c d, (controllerMachine oneAgent).run
      (Controller.new oneAgent) (readyThenRunning ++ [.Stats (doneMessage "agent-1" 2) [] true]) =
        some c ∧ Reports oneAgent c (.Finish []) d ∧
      Truthful oneAgent (readyThenRunning ++ [.Stats (doneMessage "agent-1" 2) [] true] ++
        [.Finish []]) (check_test_status d.trackers d.agent_summaries) ∧
      (check_test_status d.trackers d.agent_summaries).success = true := by
  have hrun : ∃ c₀ c d, (controllerMachine oneAgent).run (Controller.new oneAgent)
        readyThenRunning = some c₀ ∧
      (controllerMachine oneAgent).step c₀ (.Stats (doneMessage "agent-1" 2) [] true) = some c ∧
      (controllerMachine oneAgent).step c (.Finish []) = some d ∧ c₀.phase = .Loop ∧
      arrived c₀ (doneMessage "agent-1" 2) = .Running ∧ c.phase = .Finishing ∧
      d.phase = .Exited (.ok ()) ∧
      (check_test_status d.trackers d.agent_summaries).success = true :=
    ⟨_, _, _, rfl, rfl, rfl, rfl, rfl, rfl, rfl, rfl⟩
  obtain ⟨c₀, c, d, hc₀, hc, hd, hp₀, harr, hp, hok, hsuccess⟩ := hrun
  have hrun := Machine.run_snoc_iff.mpr ⟨c₀, hc₀, hc⟩
  have hreport : Reports oneAgent c (.Finish []) d := .ends hp hd hok
  refine ⟨c, d, hrun, hreport, the_status_is_truthful oneAgent_named hrun ?_ hreport, hsuccess⟩
  refine (Machine.alongWith_snoc hrun).mpr ⟨(Machine.alongWith_snoc hc₀).mpr
    ⟨readyThenRunning_borneOut, ?_⟩, by rintro stats ⟨⟩⟩
  rintro stats ⟨⟩
  refine ⟨fun h => ?_, fun _ => ⟨.inr (by decide), fun _ => ⟨?_, ?_, fun _ => ⟨?_, ?_⟩⟩⟩⟩
  · rw [hp₀] at h
    cases h
  · intro h
    cases h
  · intro h
    cases h
  · rw [harr]
    rfl
  · rintro ⟨m, hm, _, h5⟩
    simp only [readyThenRunning, List.filterMap_cons, messageOf, List.filterMap_nil,
      List.mem_cons, List.not_mem_nil, or_false] at hm
    rcases hm with rfl | rfl <;> cases h5

/-- The agent tells that it was aborted. It has not completed, and the status
is a success. -/
theorem an_aborted_run_is_a_success : ∃ c d, (controllerMachine oneAgent).run
      (Controller.new oneAgent) (readyThenRunning ++
        [.Stats (agent.abortedStats "agent-1") [] true, .ChannelClosed]) = some c ∧
      Reports oneAgent c (.Finish []) d ∧
      (check_test_status d.trackers d.agent_summaries).success = true ∧
      ¬ Truthful oneAgent (readyThenRunning ++
        [.Stats (agent.abortedStats "agent-1") [] true, .ChannelClosed] ++ [.Finish []])
        (check_test_status d.trackers d.agent_summaries) := by
  have hrun : ∃ c d, (controllerMachine oneAgent).run (Controller.new oneAgent)
        (readyThenRunning ++ [.Stats (agent.abortedStats "agent-1") [] true, .ChannelClosed]) =
          some c ∧
      (controllerMachine oneAgent).step c (.Finish []) = some d ∧ c.phase = .Finishing ∧
      d.phase = .Exited (.ok ()) ∧
      (check_test_status d.trackers d.agent_summaries).success = true :=
    ⟨_, _, rfl, rfl, rfl, rfl, rfl⟩
  obtain ⟨c, d, hc, hd, hp, hok, hsuccess⟩ := hrun
  refine ⟨c, d, hc, .ends hp hd hok, hsuccess, fun ht => ?_⟩
  have haborted := ht.no_success "agent-1" (by decide) (.inr (.inl
    ⟨agent.abortedStats "agent-1", by simp [readyThenRunning, messageOf], rfl, rfl⟩))
  rw [hsuccess] at haborted
  cases haborted

end sai3_bench.controller
