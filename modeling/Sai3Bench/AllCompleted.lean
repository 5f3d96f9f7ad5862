-- When the statistics say that all agents have completed: the entries that the
-- messages make, mark and drop, against the messages themselves.
import Sai3Bench.TerminalMessages

namespace sai3_bench.controller

open config machines pb Controller

/-! ## The flag of an entry -/

namespace LiveStatsAggregator

/-- The completed flag of an agent's entry, if it has one. -/
def flag (a : LiveStatsAggregator) (id : String) : Option Bool :=
  (a.agent_stats.lookup id).map (·.completed)

variable {a : LiveStatsAggregator} {stats : LiveStats} {id j : String}

theorem flag_update : (a.update stats).flag id =
    if id = stats.agent_id then some stats.completed else a.flag id := by
  unfold flag update
  rw [AList.lookup_insert_if]
  split <;> rfl

theorem flag_mark : (a.mark_completed j).flag id =
    if id = j then (a.flag id).map fun _ => true else a.flag id := by
  unfold flag mark_completed
  rw [AList.lookup_modify]
  split
  · rename_i h
    subst h
    cases a.agent_stats.lookup id <;> rfl
  · rfl

theorem flag_unmark_other (h : id ≠ stats.agent_id) : (a.unmark stats).flag id = a.flag id := by
  unfold flag unmark
  rw [AList.lookup_modify, if_neg h]

/-- A message that takes the mark off is not a completed one. -/
theorem flag_unmark_isSome : ((a.unmark stats).flag id).isSome = (a.flag id).isSome := by
  unfold flag unmark
  rw [AList.lookup_modify]
  split
  · rename_i h
    subst h
    cases a.agent_stats.lookup stats.agent_id <;> rfl
  · rfl

theorem flag_reset : a.reset_stats.flag id = none := rfl

theorem all_completed_iff :
    a.all_completed = true ↔ (∃ id, (a.flag id).isSome = true) ∧ ∀ id, a.flag id ≠ some false := by
  unfold all_completed flag
  rw [Bool.and_eq_true, List.all_eq_true, Bool.not_eq_true', List.isEmpty_eq_false_iff, Ne,
    AList.entries_eq_nil]
  constructor
  · rintro ⟨hne, hall⟩
    constructor
    · by_contra hnone
      refine hne fun k => ?_
      by_contra hk
      exact hnone ⟨k, by simpa [Option.isSome_iff_ne_none] using hk⟩
    · intro id hid
      obtain ⟨st, hst, hc⟩ := Option.map_eq_some_iff.mp hid
      rw [hall st (AList.mem_values.mpr ⟨id, hst⟩)] at hc
      cases hc
  · rintro ⟨⟨id, hid⟩, hall⟩
    constructor
    · intro hnone
      rw [hnone id] at hid
      cases hid
    · intro st hst
      obtain ⟨k, hk⟩ := AList.mem_values.mp hst
      have hflag := hall k
      rw [hk] at hflag
      simpa using hflag

end LiveStatsAggregator

/-! ## What a message does to the flags -/

variable {s : Setup} {c b : Controller} {e : Event} {stats : LiveStats} {id : String}

/-- The flag of an agent after one of its messages. -/
def flagAfter (flag : Option Bool) (stats : LiveStats) : Option Bool :=
  if completes stats then flag.map fun _ => true else some false

theorem settle_flag (h : stats.status ≠ 3) : (c.settle s stats).aggregator.flag id =
    if id = stats.agent_id then flagAfter (c.aggregator.flag id) stats
    else c.aggregator.flag id := by
  rw [settle_aggregator h]
  unfold flagAfter
  by_cases hc : completes stats = true
  · rw [if_pos hc, if_pos hc, LiveStatsAggregator.flag_mark]
  · have hdone : stats.completed = false := by
      simp only [completes, Bool.or_eq_true, not_or, Bool.not_eq_true] at hc
      exact hc.1.1
    rw [if_neg hc, if_neg hc, LiveStatsAggregator.flag_update]
    simp [entryOf, hdone]

/-- Only whether there is an entry matters. -/
theorem flagAfter_congr {x y : Option Bool} (h : x.isSome = y.isSome) :
    flagAfter x stats = flagAfter y stats := by
  unfold flagAfter
  cases x <;> cases y <;> simp_all

theorem take_flag (id : String) {turns : List BarrierManager.Turn} {tsv_written : Bool}
    (h : c.take s stats turns tsv_written = some b) (hb : Going b) :
    b.aggregator.flag id =
      if id = stats.agent_id then
        flagAfter (if c.Turns stats then none else c.aggregator.flag id) stats
      else if c.Turns stats then none else c.aggregator.flag id := by
  obtain ⟨bm, _, ⟨rfl, _⟩ | ⟨_, msg, rfl⟩⟩ := take_cases h
  · by_cases h3 : stats.status = 3
    · rw [settle_error h3] at hb
      exact absurd hb not_going_exits
    · rw [settle_flag h3]
      -- the mark that a recovery takes off makes no difference
      have hheard : (c.waited s stats tsv_written bm).aggregator =
          if c.Turns stats then (c.hear s stats tsv_written).aggregator.reset_stats
          else (c.hear s stats tsv_written).aggregator := rfl
      have hother : id ≠ stats.agent_id →
          (c.hear s stats tsv_written).aggregator.flag id = c.aggregator.flag id := by
        intro hid
        rw [hear_aggregator]
        split
        · exact LiveStatsAggregator.flag_unmark_other hid
        · rfl
      have hsame : ((c.hear s stats tsv_written).aggregator.flag id).isSome =
          (c.aggregator.flag id).isSome := by
        rw [hear_aggregator]
        split
        · exact LiveStatsAggregator.flag_unmark_isSome
        · rfl
      rw [hheard]
      by_cases ht : c.Turns stats
      · simp only [if_pos ht, LiveStatsAggregator.flag_reset]
      · simp only [if_neg ht]
        by_cases hid : id = stats.agent_id
        · simp only [if_pos hid]
          exact flagAfter_congr hsame
        · simp only [if_neg hid]
          exact hother hid
  · exact absurd hb not_going_exits

/-! ## The messages of a run -/

/-- The message that an event brings to the loop, and whether the statistics
begin anew with it. -/
def takenOf (c : Controller) (e : Event) : Option (LiveStats × Bool) :=
  match c.phase, e with
  | .Loop, .Stats stats _ _ => some (stats, decide (c.Turns stats))
  | _, _ => none

theorem takenOf_other (h : ∀ stats turns tsv_written, e ≠ .Stats stats turns tsv_written) :
    takenOf c e = none := by
  unfold takenOf
  cases e with
  | Stats stats turns tsv_written => exact absurd rfl (h stats turns tsv_written)
  | _ => split <;> first | rfl | simp_all

/-- What the loop keeps of the messages is the same. -/
structure SameTables (c b : Controller) : Prop where
  aggregator : b.aggregator = c.aggregator
  last_stage : b.last_stage = c.last_stage
  summaries : b.stage_summaries = c.stage_summaries
  written : b.stages_written = c.stages_written

/-- An event is a message that the loop takes, or it keeps the tables. -/
theorem step_taken (h : (controllerMachine s).step c e = some b) :
    (takenOf c e = none ∧ SameTables c b) ∨ ∃ stats turns tsv_written,
      e = .Stats stats turns tsv_written ∧ c.phase = .Loop ∧
      takenOf c e = some (stats, decide (c.Turns stats)) ∧
      c.ticked.take s stats turns tsv_written = some b := by
  cases step_cases h with
  | @takes stats turns tsv_written _ hp htake =>
    exact .inr ⟨stats, turns, tsv_written, rfl, hp, by simp only [takenOf, hp], htake⟩
  | answers hp => exact .inl ⟨by simp only [takenOf, hp], rfl, rfl, rfl, rfl⟩
  | begins hp => exact .inl ⟨by simp only [takenOf, hp], rfl, rfl, rfl, rfl⟩
  | fails hp => exact .inl ⟨by simp only [takenOf, hp], rfl, rfl, rfl, rfl⟩
  | aborts he => exact .inl ⟨takenOf_other he, rfl, rfl, rfl, rfl⟩
  | awaits hp hw =>
    refine .inl ⟨by simp only [takenOf, hp], ?_⟩
    obtain ⟨bm, _, ⟨rfl, _⟩ | ⟨_, _, _, msg, _, _, rfl⟩⟩ := await_cases hw <;>
      exact ⟨rfl, rfl, rfl, rfl⟩
  | _ => exact .inl ⟨takenOf_other (by simp), rfl, rfl, rfl, rfl⟩

def sinceReset (ls : List LiveStats) (taken : LiveStats × Bool) : List LiveStats :=
  if taken.2 then [taken.1] else ls ++ [taken.1]

/-- The messages that the loop has read since the statistics began anew. -/
def recent (s : Setup) (es : List Event) : List LiveStats :=
  ((controllerMachine s).log (fun c e _ => takenOf c e) (Controller.new s) es).foldl sinceReset []

def messagesOf (id : String) (ls : List LiveStats) : List LiveStats :=
  ls.filter (·.agent_id = id)

/-- The flag that these messages leave of an agent. -/
def flagOf (id : String) (ls : List LiveStats) : Option Bool :=
  (messagesOf id ls).foldl flagAfter none

theorem flagOf_snoc (ls : List LiveStats) : flagOf id (ls ++ [stats]) =
    if id = stats.agent_id then flagAfter (flagOf id ls) stats else flagOf id ls := by
  unfold flagOf messagesOf
  rw [List.filter_append, List.foldl_append]
  by_cases h : id = stats.agent_id
  · simp [h]
  · simp [h, Ne.symm h]

theorem recent_snoc {es : List Event}
    (hrun : (controllerMachine s).run (Controller.new s) es = some c)
    (h : (controllerMachine s).step c e = some b) :
    recent s (es ++ [e]) = (takenOf c e).toList.foldl sinceReset (recent s es) := by
  unfold recent
  rw [Machine.log_snoc hrun h, List.foldl_append]

theorem step_flag {es : List Event} (hrun : (controllerMachine s).run (Controller.new s) es = some c)
    (hI : c.aggregator.flag id = flagOf id (recent s es))
    (h : (controllerMachine s).step c e = some b) (hb : Going b) :
    b.aggregator.flag id = flagOf id (recent s (es ++ [e])) := by
  rw [recent_snoc hrun h]
  rcases step_taken h with ⟨hnone, hsame⟩ | ⟨stats, turns, tsv_written, rfl, _, ht, htake⟩
  · rw [hnone, hsame.aggregator]
    exact hI
  · have hflag := take_flag id htake hb
    have hturns : c.ticked.Turns stats ↔ c.Turns stats := Iff.rfl
    simp only [ht, Option.toList_some, List.foldl_cons, List.foldl_nil, sinceReset,
      decide_eq_true_eq]
    rw [hflag]
    by_cases hturn : c.Turns stats
    · simp only [hturns, if_pos hturn]
      exact (flagOf_snoc []).symm
    · simp only [hturns, if_neg hturn]
      rw [flagOf_snoc, ← hI]
      rfl

/-- In a run that goes on, the entries are what the recent messages say. -/
theorem run_flag {es : List Event} (hrun : (controllerMachine s).run (Controller.new s) es = some c)
    (hc : Going c) : c.aggregator.flag id = flagOf id (recent s es) :=
  Machine.run_remembers (P := fun _ _ => True)
    (I := fun es c => Going c → c.aggregator.flag id = flagOf id (recent s es))
    (fun _ _ _ _ hr hI _ hs hb => step_flag hr (hI (going_of_step hs)) hs hb) (fun _ => rfl)
    (Machine.along_of_mem fun _ _ _ => trivial) hrun hc

theorem mem_foldl_sinceReset {m : LiveStats} (taken : List (LiveStats × Bool)) (ls : List LiveStats)
    (h : m ∈ taken.foldl sinceReset ls) : m ∈ ls ∨ ∃ turns, (m, turns) ∈ taken := by
  induction taken generalizing ls with
  | nil => exact .inl h
  | cons x taken ih =>
    rcases ih _ h with hm | ⟨turns, hm⟩
    · unfold sinceReset at hm
      split at hm
      · rw [List.mem_singleton] at hm
        exact .inr ⟨x.2, by simp [hm]⟩
      · rcases List.mem_append.mp hm with hm | hm
        · exact .inl hm
        · rw [List.mem_singleton] at hm
          exact .inr ⟨x.2, by simp [hm]⟩
    · exact .inr ⟨turns, List.mem_cons_of_mem _ hm⟩

theorem recent_of_event {es : List Event} {m : LiveStats} (h : m ∈ recent s es) :
    ∃ turns tsv_written, .Stats m turns tsv_written ∈ es := by
  rcases mem_foldl_sinceReset _ _ h with h | ⟨reset, h⟩
  · cases h
  · obtain ⟨e, he, c, b, htaken⟩ := Machine.exists_of_mem_log h
    unfold takenOf at htaken
    split at htaken
    · cases htaken
      exact ⟨_, _, he⟩
    · cases htaken

/-- After a regular message the flag is that of the last message. -/
theorem foldl_flagAfter {ls : List LiveStats} (h : ∃ m ∈ ls, completes m = false)
    (flag : Option Bool) :
    ∃ last, ls.getLast? = some last ∧ ls.foldl flagAfter flag = some (completes last) := by
  induction ls using List.reverseRecOn with
  | nil => simp at h
  | append_singleton ls m ih =>
    refine ⟨m, by simp, ?_⟩
    rw [List.foldl_append]
    simp only [List.foldl_cons, List.foldl_nil, flagAfter]
    split
    · rename_i hm
      obtain ⟨x, hx, hreg⟩ := h
      rcases List.mem_append.mp hx with hx | hx
      · obtain ⟨last, _, hflag⟩ := ih ⟨x, hx, hreg⟩
        rw [hflag, hm]
        rfl
      · rw [List.mem_singleton] at hx
        rw [hx, hm] at hreg
        cases hreg
    · rename_i hm
      rw [Bool.not_eq_true] at hm
      rw [hm]

/-- All messages are of agents that the controller has started. -/
def FromStarted (s : Setup) (es : List Event) : Prop :=
  ∀ e ∈ es, ∀ stats turns tsv_written, e = .Stats stats turns tsv_written → stats.agent_id ∈ s.ids

/-- After each message of the loop the statistics say that all have completed
exactly when the last message of every agent says so, once each agent has sent
a regular message since they began anew. An agent marked as disconnected is
not done. -/
theorem all_completed_iff_all_done {s : Setup} {es : List Event} {c₀ c : Controller}
    {stats : LiveStats} {turns : List BarrierManager.Turn} {tsv_written : Bool}
    (hrun : (controllerMachine s).run (Controller.new s) es = some c₀)
    (hstep : (controllerMachine s).step c₀ (.Stats stats turns tsv_written) = some c)
    (hgoing : Going c)
    (hids : FromStarted s (es ++ [.Stats stats turns tsv_written]))
    (hregular : ∀ id ∈ s.ids,
      ∃ m ∈ messagesOf id (recent s (es ++ [.Stats stats turns tsv_written])), completes m = false) :
    c.aggregator.all_completed = true ↔ ∀ id ∈ s.ids, ∃ last,
      (messagesOf id (recent s (es ++ [.Stats stats turns tsv_written]))).getLast? = some last ∧
        completes last = true := by
  let ls := recent s (es ++ [.Stats stats turns tsv_written])
  have hflag : ∀ id, c.aggregator.flag id = flagOf id ls := fun id =>
    run_flag (Machine.run_snoc_iff.mpr ⟨c₀, hrun, hstep⟩) hgoing
  have hlast : ∀ id ∈ s.ids, ∃ last, (messagesOf id ls).getLast? = some last ∧
      c.aggregator.flag id = some (completes last) := by
    intro id hid
    rw [hflag]
    exact foldl_flagAfter (hregular id hid) none
  -- an entry is of an agent that has sent a message
  have hout : ∀ id, id ∉ s.ids → c.aggregator.flag id = none := by
    intro id hid
    have hnone : messagesOf id ls = [] := by
      refine List.filter_eq_nil_iff.mpr fun m hm hmid => ?_
      obtain ⟨turns', written', he⟩ := recent_of_event hm
      rw [← of_decide_eq_true hmid] at hid
      exact hid (hids _ he m turns' written' rfl)
    rw [hflag]
    unfold flagOf
    rw [hnone]
    rfl
  have hmem : stats.agent_id ∈ s.ids :=
    hids _ (List.mem_append_right es List.mem_cons_self) stats turns tsv_written rfl
  rw [LiveStatsAggregator.all_completed_iff]
  constructor
  · rintro ⟨_, hall⟩ id hid
    obtain ⟨last, hl, hf⟩ := hlast id hid
    refine ⟨last, hl, ?_⟩
    by_contra hc
    rw [Bool.not_eq_true] at hc
    exact hall id (by rw [hf, hc])
  · intro hall
    refine ⟨⟨stats.agent_id, ?_⟩, fun id hfalse => ?_⟩
    · obtain ⟨last, _, hf⟩ := hlast _ hmem
      rw [hf]
      rfl
    · by_cases hid : id ∈ s.ids
      · obtain ⟨last, hl, hf⟩ := hlast id hid
        obtain ⟨last', hl', hc⟩ := hall id hid
        rw [hl, Option.some.injEq] at hl'
        rw [hf, hl', hc] at hfalse
        cases hfalse
      · rw [hout id hid] at hfalse
        cases hfalse

/-! ## Two agents -/

def twoRunners : Setup := .ofAgents ["a", "b"] none

/-- A message of an agent in its workload. -/
def runningMessage (agent_id : String) : LiveStats :=
  { agent_id := agent_id, status := 2, current_stage := 2 }

def bothRun : List Event :=
  [.Stats (readyMessage "a") [] true, .Stats (readyMessage "b") [] true,
    .Stats (runningMessage "a") [] true, .Stats (runningMessage "b") [] true]

/-- Both agents complete: the statistics say so. -/
theorem both_agents_are_done :
    ∃ c, (controllerMachine twoRunners).run (Controller.new twoRunners)
        (bothRun ++ [.Stats (doneMessage "a" 2) [] true] ++ [.Stats (doneMessage "b" 2) [] true]) =
          some c ∧ c.aggregator.all_completed = true := by
  have hrun : ∃ c₀ c, (controllerMachine twoRunners).run (Controller.new twoRunners)
        (bothRun ++ [.Stats (doneMessage "a" 2) [] true]) = some c₀ ∧
      (controllerMachine twoRunners).step c₀ (.Stats (doneMessage "b" 2) [] true) = some c ∧
      c.phase = .Finishing := ⟨_, _, rfl, rfl, rfl⟩
  obtain ⟨c₀, c, hc₀, hc, hp⟩ := hrun
  have hrecent : recent twoRunners
      (bothRun ++ [.Stats (doneMessage "a" 2) [] true] ++ [.Stats (doneMessage "b" 2) [] true]) =
        [runningMessage "a", runningMessage "b", doneMessage "a" 2, doneMessage "b" 2] := rfl
  have hids : FromStarted twoRunners
      (bothRun ++ [.Stats (doneMessage "a" 2) [] true] ++ [.Stats (doneMessage "b" 2) [] true]) := by
    rintro e he stats turns tsv_written rfl
    simp only [bothRun, List.cons_append, List.nil_append, List.mem_cons, Event.Stats.injEq,
      List.not_mem_nil, or_false] at he
    rcases he with he | he | he | he | he | he <;> rw [he.1] <;> decide
  have hiff := all_completed_iff_all_done hc₀ hc (fun outcome => by rw [hp]; simp) hids
    (by rw [hrecent]; decide)
  refine ⟨c, Machine.run_snoc_iff.mpr ⟨c₀, hc₀, hc⟩, hiff.mpr ?_⟩
  rw [hrecent]
  intro id hid
  have hid : id = "a" ∨ id = "b" := by simpa [twoRunners, Setup.ofAgents] using hid
  rcases hid with rfl | rfl
  · exact ⟨doneMessage "a" 2, rfl, rfl⟩
  · exact ⟨doneMessage "b" 2, rfl, rfl⟩

/-- One agent is marked Disconnected and the other completes: the statistics
do not say that all have completed. -/
theorem a_disconnected_agent_is_not_done :
    ∃ c, (controllerMachine twoRunners).run (Controller.new twoRunners)
        (bothRun ++ [.Stalled "b", .Stats (doneMessage "a" 2) [] true]) = some c ∧
      (c.tracker "b").state = .Disconnected ∧ (c.tracker "a").state = .Completed ∧
      c.aggregator.all_completed = false :=
  ⟨_, rfl, rfl, rfl, rfl⟩

end sai3_bench.controller
