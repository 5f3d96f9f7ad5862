-- The results of a stage: the summaries that the loop collects, and the file
-- that it writes of them when it has enough.
import Sai3Bench.StageTurns

namespace sai3_bench.controller

open config machines pb Controller

/-! ## What a run collects and writes -/

/-- A stage, by its index and name. -/
abbrev StageKey := Nat × String

/-- A summary with the name of its agent. -/
abbrev Named := String × StageSummary

/-- The summary of a stage in a message. -/
def summaryOf (key : StageKey) (stats : LiveStats) : Option StageSummary :=
  match stats.stage_summary with
  | some sum => if (sum.stage_index, sum.stage_name) = key then some sum else none
  | none => none

/-- The summary of a stage that an event brings to the loop, and whether the
file could be written now. -/
def summaryAt (key : StageKey) (c : Controller) (e : Event) : Option (Named × Bool) :=
  match c.phase, e with
  | .Loop, .Stats stats _ tsv_written =>
    (summaryOf key stats).map fun sum => ((stats.agent_id, sum), tsv_written)
  | _, _ => none

/-- The summaries of a stage that a run has received, oldest first. -/
def received (s : Setup) (key : StageKey) (es : List Event) : List (Named × Bool) :=
  (controllerMachine s).log (fun c e _ => summaryAt key c e) (Controller.new s) es

/-- What is written to the file of a stage in one event. -/
def writtenAt (key : StageKey) (c b : Controller) : Option (List Named) :=
  if key ∉ c.stages_written ∧ key ∈ b.stages_written then
    some ((b.stage_summaries.lookup key).getD [])
  else none

/-- What a run has written to the file of a stage. -/
def files (s : Setup) (key : StageKey) (es : List Event) : List (List Named) :=
  (controllerMachine s).log (fun c _ b => writtenAt key c b) (Controller.new s) es

def EveryAgentSends (s : Setup) (key : StageKey) (es : List Event) : Prop :=
  ∀ id ∈ s.ids, ∃ r ∈ received s key es, r.1.1 = id

/-- The file is written once, with one summary of each agent, and every
summary that was received is in it. -/
def WrittenInFull (s : Setup) (key : StageKey) (es : List Event) : Prop :=
  ∃ content, files s key es = [content] ∧ (content.map (·.1)).Perm s.ids ∧
    ∀ r ∈ received s key es, r.1 ∈ content

/-- The first summaries are of one agent each, the file can be written when
the last of them comes, and whatever comes later has come before. -/
def OneOfEach (ids : List String) (rs : List (Named × Bool)) : Prop :=
  ∃ first last later, rs = first ++ (last, true) :: later ∧
    ((first.map (·.1) ++ [last]).map (·.1)).Perm ids ∧
    ∀ r ∈ later, r.1 ∈ first.map (·.1) ++ [last]

/-! ## One event -/

variable {s : Setup} {c b : Controller} {e : Event} {stats : LiveStats} {tsv_written : Bool}
  {key : StageKey} {es : List Event}

/-- The summaries of a stage, and whether its file is written. -/
def Collected (key : StageKey) (c : Controller) (ls : List Named) (written : Prop) : Prop :=
  (c.stage_summaries.lookup key).getD [] = ls ∧ (key ∈ c.stages_written ↔ written)

theorem collect_collected {ls : List Named} {written : Prop} (h : Collected key c ls written) :
    Collected key (c.collect s stats tsv_written)
      (ls ++ ((summaryOf key stats).map (stats.agent_id, ·)).toList)
      (written ∨ (summaryOf key stats).isSome = true ∧ s.agent_addrs.length ≤ ls.length + 1 ∧
        tsv_written = true) := by
  obtain ⟨hls, hwritten⟩ := h
  unfold collect summaryOf
  cases hs : stats.stage_summary with
  | none => exact ⟨by simpa using hls, by simpa using hwritten⟩
  | some sum =>
    dsimp only
    by_cases hkey : (sum.stage_index, sum.stage_name) = key
    · rw [if_pos hkey, hkey]
      refine ⟨?_, ?_⟩
      · rw [AList.lookup_insert, Option.getD_some, hls]
        rfl
      · rw [← hwritten, hls, List.length_append]
        by_cases hw : key ∈ c.stages_written
        · simp [hw]
        · by_cases hlen : s.agent_addrs.length ≤ ls.length + 1 ∧ tsv_written = true
          · simp [hw, hlen]
          · rw [if_neg fun hc => hlen ⟨hc.1, hc.2.2⟩]
            simp [hw, hlen]
    · -- the summary is of another stage
      rw [if_neg hkey]
      refine ⟨?_, ?_⟩
      · rw [AList.lookup_insert_ne (Ne.symm hkey), hls]
        exact (List.append_nil _).symm
      · rw [← hwritten]
        split
        · simp [Ne.symm hkey]
        · simp

/-- A controller without a manager collects nothing. -/
theorem hear_collected_none {ls : List Named} {written : Prop} (hbm : c.barrier_manager = none)
    (h : Collected key c ls written) : Collected key (c.hear s stats tsv_written) ls written := by
  have hsame : (c.hear s stats tsv_written).stage_summaries = c.stage_summaries ∧
      (c.hear s stats tsv_written).stages_written = c.stages_written := by
    unfold hear heartbeat withTracker
    simp only [hbm, and_self]
  exact ⟨by rw [hsame.1]; exact h.1, by rw [hsame.2]; exact h.2⟩

theorem hear_collected (s : Setup) (stats : LiveStats) (tsv_written : Bool) {bm : BarrierManager}
    {ls : List Named} {written : Prop} (hbm : c.barrier_manager = some bm)
    (h : Collected key c ls written) :
    Collected key (c.hear s stats tsv_written)
      (ls ++ ((summaryOf key stats).map (stats.agent_id, ·)).toList)
      (written ∨ (summaryOf key stats).isSome = true ∧ s.agent_addrs.length ≤ ls.length + 1 ∧
        tsv_written = true) := by
  have hreport : ∀ (d : Controller) (bm : BarrierManager) id k,
      Collected key d ls written → Collected key (d.report bm id k) ls written := by
    intro d bm id k hd
    unfold report
    dsimp only
    split <;> exact hd
  unfold hear heartbeat withTracker
  simp only [hbm]
  split
  · exact collect_collected (hreport _ _ _ _ h)
  · exact collect_collected h

/-- The results after a message are those that its heartbeat has left. -/
theorem take_collected {turns : List BarrierManager.Turn} {ls : List Named} {written : Prop}
    (h : c.take s stats turns tsv_written = some b)
    (hc : Collected key (c.hear s stats tsv_written) ls written) : Collected key b ls written := by
  have hsettle : ∀ d : Controller, Collected key d ls written →
      Collected key (d.settle s stats) ls written := by
    intro d hd
    unfold settle
    dsimp only
    repeat' split
    all_goals exact hd
  obtain ⟨bm, _, ⟨rfl, _⟩ | ⟨_, msg, rfl⟩⟩ := take_cases h
  · exact hsettle _ hc
  · exact hc

/-! ## A run with a manager -/

/-- In the loop there is a manager when the setup has one. -/
def HasManager (s : Setup) (c : Controller) : Prop :=
  c.phase = .Loop → c.barrier_manager.isSome = s.barrier_manager.isSome

theorem step_hasManager (hI : HasManager s c) (h : (controllerMachine s).step c e = some b) :
    HasManager s b := by
  intro hb
  cases step_cases h with
  | answers hp => exact absurd (hp.symm.trans hb) (by simp)
  | begins _ => rfl
  | takes hp htake =>
    obtain ⟨bm, hbm, ⟨rfl, _⟩ | ⟨_, msg, rfl⟩⟩ := take_cases htake
    · rw [(settle_barriers _ _ _).1]
      show bm.isSome = _
      have hsame : bm.map (·.agents.keySet) = c.barrier_manager.map (·.agents.keySet) :=
        hbm.trans hear_agents
      rw [← hI hp]
      simpa using congrArg Option.isSome hsame
    · cases hb
  | stalls hp => exact hI hp
  | awaits _ hw =>
    obtain ⟨bm, _, ⟨rfl, _⟩ | ⟨_, _, _, msg, _, _, rfl⟩⟩ := await_cases hw <;> cases hb
  | _ => cases hb

/-- No summary has found the file writable with enough summaries there. -/
def NotWritable (n : Nat) (rs : List (Named × Bool)) : Prop :=
  ∀ xs r ys, rs = xs ++ (r, true) :: ys → xs.length + 1 < n

/-- What a run knows of the file of a stage. -/
def FileOf (n : Nat) (rs : List (Named × Bool)) (fs : List (List Named)) (written : Prop) : Prop :=
  (¬ written ∧ fs = [] ∧ NotWritable n rs) ∨
    written ∧ ∃ xs r ys, rs = xs ++ (r, true) :: ys ∧ n ≤ xs.length + 1 ∧ NotWritable n xs ∧
      fs = [xs.map (·.1) ++ [r]]

theorem notWritable_snoc {n : Nat} {rs : List (Named × Bool)} {r : Named} {ok : Bool}
    (h : NotWritable n rs) (hr : ¬(n ≤ rs.length + 1 ∧ ok = true)) :
    NotWritable n (rs ++ [(r, ok)]) := by
  intro xs x ys he
  rcases List.eq_nil_or_concat ys with rfl | ⟨ys, y, rfl⟩
  · have hlast := List.append_inj' he rfl
    obtain ⟨rfl, hx⟩ := hlast
    injection hx with hx
    injection hx with _ hok
    have hlt : ¬ n ≤ rs.length + 1 := fun hn => hr ⟨hn, hok⟩
    omega
  · rw [List.concat_eq_append, ← List.cons_append, ← List.append_assoc] at he
    exact h xs x ys (List.append_inj_left' he rfl)

/-- One more summary: the file is written with it, or is as it was. -/
theorem fileOf_snoc {n : Nat} {rs : List (Named × Bool)} {fs : List (List Named)} {written : Prop}
    [Decidable written] (h : FileOf n rs fs written) (r : Named) (ok : Bool) :
    FileOf n (rs ++ [(r, ok)])
      (fs ++ if ¬ written ∧ n ≤ rs.length + 1 ∧ ok = true then [rs.map (·.1) ++ [r]] else [])
      (written ∨ n ≤ rs.length + 1 ∧ ok = true) := by
  rcases h with ⟨hw, rfl, hnot⟩ | ⟨hw, xs, x, ys, rfl, hn, hnot, rfl⟩
  · by_cases hr : n ≤ rs.length + 1 ∧ ok = true
    · refine .inr ⟨.inr hr, rs, r, [], by rw [hr.2], hr.1, hnot, ?_⟩
      rw [if_pos ⟨hw, hr⟩, List.nil_append]
    · refine .inl ⟨by tauto, ?_, notWritable_snoc hnot hr⟩
      rw [if_neg fun hc => hr hc.2, List.nil_append]
  · refine .inr ⟨.inl hw, xs, x, ys ++ [(r, ok)], by simp, hn, hnot, ?_⟩
    rw [if_neg fun hc => hc.1 hw, List.append_nil]

theorem summaryAt_none (h : takenOf c e = none) : summaryAt key c e = none := by
  unfold takenOf at h
  unfold summaryAt
  cases hp : c.phase <;> cases e <;> first
    | rfl
    | simp [hp] at h

/-- What a run knows of the results of a stage, when there is a manager. -/
def Results (s : Setup) (key : StageKey) (es : List Event) (c : Controller) : Prop :=
  HasManager s c ∧
    (c.stage_summaries.lookup key).getD [] = (received s key es).map (·.1) ∧
    FileOf s.agent_addrs.length (received s key es) (files s key es) (key ∈ c.stages_written)

theorem step_results (hman : s.barrier_manager.isSome = true)
    (hrun : (controllerMachine s).run (Controller.new s) es = some c) (hI : Results s key es c)
    (h : (controllerMachine s).step c e = some b) : Results s key (es ++ [e]) b := by
  obtain ⟨hhas, hls, hfile⟩ := hI
  have hrec : received s key (es ++ [e]) = received s key es ++ (summaryAt key c e).toList :=
    Machine.log_snoc hrun h
  have hfs : files s key (es ++ [e]) = files s key es ++ (writtenAt key c b).toList :=
    Machine.log_snoc hrun h
  refine ⟨step_hasManager hhas h, ?_⟩
  rw [hrec, hfs]
  rcases step_taken h with ⟨hnone, hsame⟩ | ⟨stats, turns, tsv_written, rfl, hp, _, htake⟩
  · have hnothing : writtenAt key c b = none := by
      unfold writtenAt
      rw [hsame.written]
      simp
    rw [summaryAt_none hnone, hnothing, hsame.summaries, hsame.written]
    simpa using ⟨hls, hfile⟩
  · have hsome : c.ticked.barrier_manager.isSome = true := (hhas hp).trans hman
    obtain ⟨bm, hbm⟩ := Option.isSome_iff_exists.mp hsome
    obtain ⟨hb, hwb⟩ := take_collected htake (hear_collected s stats tsv_written
      hbm (show Collected key c.ticked _ _ from ⟨hls, Iff.rfl⟩))
    have hat : summaryAt key c (.Stats stats turns tsv_written) =
        (summaryOf key stats).map fun sum => ((stats.agent_id, sum), tsv_written) := by
      unfold summaryAt
      rw [hp]
    have hwc : key ∈ c.ticked.stages_written ↔ key ∈ c.stages_written := Iff.rfl
    rw [List.length_map, hwc] at hwb
    rw [hb, hat]
    cases hsum : summaryOf key stats with
    | none =>
      have hsame : key ∈ b.stages_written ↔ key ∈ c.stages_written := by simpa [hsum] using hwb
      have hnothing : writtenAt key c b = none := if_neg fun hc => hc.1 (hsame.mp hc.2)
      rw [hnothing, hsame]
      simpa using hfile
    | some sum =>
      have hiff : key ∈ b.stages_written ↔ key ∈ c.stages_written ∨
          s.agent_addrs.length ≤ (received s key es).length + 1 ∧ tsv_written = true := by
        simpa [hsum] using hwb
      have hwritten : (writtenAt key c b).toList = if ¬ key ∈ c.stages_written ∧
          s.agent_addrs.length ≤ (received s key es).length + 1 ∧ tsv_written = true then
            [(received s key es).map (·.1) ++ [(stats.agent_id, sum)]] else [] := by
        unfold writtenAt
        rw [hb, hsum]
        by_cases hc : key ∈ c.stages_written
        · rw [if_neg fun h => h.1 hc, if_neg fun h => h.1 hc]
          rfl
        · by_cases hn : s.agent_addrs.length ≤ (received s key es).length + 1 ∧ tsv_written = true
          · rw [if_pos ⟨hc, hiff.mpr (.inr hn)⟩, if_pos ⟨hc, hn⟩]
            rfl
          · rw [if_neg fun h => hn ((hiff.mp h.2).resolve_left hc), if_neg fun h => hn h.2]
            rfl
      rw [hwritten, hiff]
      exact ⟨by simp, fileOf_snoc hfile (stats.agent_id, sum) tsv_written⟩

theorem run_results (key : StageKey) (hman : s.barrier_manager.isSome = true)
    (hrun : (controllerMachine s).run (Controller.new s) es = some c) : Results s key es c := by
  refine Machine.run_remembers (P := fun _ _ => True) (I := fun es c => Results s key es c)
    (fun _ _ _ _ hr hI _ hs => step_results hman hr hI hs) ?_
    (Machine.along_of_mem fun _ _ _ => trivial) hrun
  refine ⟨fun hp => ?_, rfl, .inl ⟨Finset.notMem_empty key, rfl, fun xs r ys he => ?_⟩⟩
  · cases hp
  · exact absurd he (by simp [received, Machine.log])

/-! ## A run without a manager -/

theorem step_nothing (hman : s.barrier_manager = none) (hI : HasManager s c ∧ key ∉ c.stages_written)
    (h : (controllerMachine s).step c e = some b) :
    HasManager s b ∧ key ∉ b.stages_written := by
  refine ⟨step_hasManager hI.1 h, ?_⟩
  rcases step_taken h with ⟨_, hsame⟩ | ⟨stats, turns, tsv_written, rfl, hp, _, htake⟩
  · rw [hsame.written]
    exact hI.2
  · have hnone : c.barrier_manager = none := by
      have hsome := hI.1 hp
      rw [hman] at hsome
      simpa using hsome
    have hc : Collected key c.ticked _ False := ⟨rfl, iff_false_intro hI.2⟩
    exact fun hk => (take_collected htake (hear_collected_none (c := c.ticked) hnone hc)).2.mp hk

theorem run_nothing (hman : s.barrier_manager = none)
    (hrun : (controllerMachine s).run (Controller.new s) es = some c) : files s key es = [] := by
  have hI := Machine.run_remembers (P := fun _ _ => True)
    (I := fun es c => files s key es = [] ∧ HasManager s c ∧ key ∉ c.stages_written)
    (fun es c e b hr hI _ hs => ?_)
    ⟨rfl, fun hp => absurd hp (by simp [Controller.new]), Finset.notMem_empty key⟩
    (Machine.along_of_mem fun _ _ _ => trivial) hrun
  · exact hI.1
  · have hb := step_nothing hman hI.2 hs
    have hlog : files s key (es ++ [e]) = files s key es ++ (writtenAt key c b).toList :=
      Machine.log_snoc hr hs
    refine ⟨?_, hb⟩
    rw [hlog, hI.1, show writtenAt key c b = none from if_neg fun hc => hb.2 hc.2]
    rfl

/-! ## The file of a stage -/

/-- When every agent sends a summary of a stage, its file is written once and
in full exactly when the run has a manager, the first summaries are of one
agent each, the file can be written at the last of them, and what comes later
repeats one of them. -/
theorem a_stage_is_written_in_full_iff {s : Setup} {key : StageKey} {es : List Event}
    {c : Controller} (hrun : (controllerMachine s).run (Controller.new s) es = some c) :
    (EveryAgentSends s key es → WrittenInFull s key es) ↔
      (EveryAgentSends s key es →
        s.barrier_manager.isSome = true ∧ OneOfEach s.ids (received s key es)) := by
  refine imp_congr_right fun _ => ?_
  constructor
  · rintro ⟨content, hfiles, hperm, hall⟩
    have hman : s.barrier_manager.isSome = true := by
      cases hm : s.barrier_manager with
      | none =>
        rw [run_nothing hm hrun] at hfiles
        cases hfiles
      | some bm => rfl
    refine ⟨hman, ?_⟩
    rcases (run_results key hman hrun).2.2 with
      ⟨_, hnone, _⟩ | ⟨_, xs, r, ys, hrs, _, _, hone⟩
    · rw [hnone] at hfiles
      cases hfiles
    · rw [hone, List.cons.injEq] at hfiles
      obtain ⟨rfl, _⟩ := hfiles
      refine ⟨xs, r, ys, hrs, hperm, fun y hy => hall y ?_⟩
      rw [hrs]
      simp [hy]
  · rintro ⟨hman, first, last, later, hrs, hperm, hlater⟩
    have hlen : first.length + 1 = s.agent_addrs.length := by
      have := hperm.length_eq
      simp only [List.length_map, List.length_append, List.length_singleton] at this
      rw [this, s.same_length]
    rcases (run_results key hman hrun).2.2 with
      ⟨_, _, hnot⟩ | ⟨_, xs, r, ys, hxs, hn, hnot, hone⟩
    · exact absurd (hnot first last later hrs) (by omega)
    · -- the file was written at the same summary, and not before
      have hle : first.length = xs.length := by
        rcases List.append_eq_append_iff.mp (hrs.symm.trans hxs) with ⟨as, hx, has⟩ | ⟨bs, hf, _⟩
        · cases as with
          | nil => rw [hx, List.append_nil]
          | cons a as =>
            injection has with ha _
            have := hnot first last as (by rw [hx, ha])
            omega
        · have := congrArg List.length hf
          simp only [List.length_append] at this
          omega
      have heq := List.append_inj (hrs.symm.trans hxs) hle
      obtain ⟨rfl, htail⟩ := heq
      injection htail with hr _
      injection hr with hr _
      subst hr
      refine ⟨_, hone, hperm, fun y hy => ?_⟩
      rw [hrs, List.mem_append, List.mem_cons] at hy
      rcases hy with hy | rfl | hy
      · exact List.mem_append_left _ (List.mem_map_of_mem hy)
      · simp
      · exact hlater y hy

/-! ## Two agents -/

def fillKey : StageKey := (1, "fill")

/-- An agent sends its summary of the first stage, and reports at its barrier. -/
def sendsSummary (agent_id : String) : Event :=
  .Stats { agent_id := agent_id, status := 2, at_barrier := true,
           stage_summary := some { stage_index := 1, stage_name := "fill" } } [] true

def bothSend : List Event :=
  [.Stats (readyMessage "a") [] true, .Stats (readyMessage "b") [] true, sendsSummary "a",
    sendsSummary "b"]

/-- The same two stages with barriers. -/
def managedAgents : Setup :=
  .ofAgents ["a", "b"] (some { twoStages with barrier_sync := { enabled := true } })

theorem the_stage_is_written_in_full : WrittenInFull managedAgents fillKey bothSend := by
  have hrun : ∃ c, (controllerMachine managedAgents).run (Controller.new managedAgents) bothSend =
      some c := ⟨_, rfl⟩
  obtain ⟨c, hc⟩ := hrun
  have hrec : received managedAgents fillKey bothSend =
      [(("a", { stage_index := 1, stage_name := "fill" }), true),
        (("b", { stage_index := 1, stage_name := "fill" }), true)] := rfl
  have hsent : EveryAgentSends managedAgents fillKey bothSend := by
    unfold EveryAgentSends
    rw [hrec]
    decide
  refine (a_stage_is_written_in_full_iff hc).mpr (fun _ => ⟨rfl, ?_⟩) hsent
  exact ⟨[(("a", { stage_index := 1, stage_name := "fill" }), true)],
    ("b", { stage_index := 1, stage_name := "fill" }), [], hrec, .refl _, by simp⟩

/-- Without barriers the summaries are not even collected. -/
theorem no_stage_is_written_without_barriers :
    ∃ c, (controllerMachine twoStageAgents).run (Controller.new twoStageAgents) bothSend = some c ∧
      EveryAgentSends twoStageAgents fillKey bothSend ∧ files twoStageAgents fillKey bothSend = [] ∧
      ¬ (EveryAgentSends twoStageAgents fillKey bothSend →
        WrittenInFull twoStageAgents fillKey bothSend) := by
  have hsent : EveryAgentSends twoStageAgents fillKey bothSend := by
    have hrec : received twoStageAgents fillKey bothSend =
        [(("a", { stage_index := 1, stage_name := "fill" }), true),
          (("b", { stage_index := 1, stage_name := "fill" }), true)] := rfl
    unfold EveryAgentSends
    rw [hrec]
    decide
  have hnone : files twoStageAgents fillKey bothSend = [] := rfl
  refine ⟨_, rfl, hsent, hnone, fun h => ?_⟩
  obtain ⟨content, hfiles, _⟩ := h hsent
  rw [hnone] at hfiles
  cases hfiles

end sai3_bench.controller
