-- The turn from the prepare stage to the workload: the loop keeps one last
-- stage for all agents, so the messages of one agent turn it for the others.
import Sai3Bench.AllCompleted

namespace sai3_bench.controller

open config machines pb Controller

/-! ## What the loop reads -/

/-- The messages that the loop has read in a run, each with whether the
handling of the turn ran at it. -/
def readings (s : Setup) (es : List Event) : List (LiveStats × Bool) :=
  (controllerMachine s).log (fun c e _ => takenOf c e) (Controller.new s) es

def stageOf (stats : LiveStats) : WorkloadStage := WorkloadStage.of stats.current_stage

/-- The turn is handled at most once, and no prepare message is read after it. -/
structure TurnsOnce (rs : List (LiveStats × Bool)) : Prop where
  once : (rs.filter (·.2)).length ≤ 1
  last : ∀ xs r ys, rs = xs ++ r :: ys → r.2 = true → ∀ y ∈ ys, stageOf y.1 ≠ .StagePrepare

/-- A workload message right after a prepare message finds the last one of these. -/
def PrepareEndsFirst (stages : List WorkloadStage) : Prop :=
  ∀ xs ys, stages = xs ++ .StagePrepare :: .StageWorkload :: ys → .StagePrepare ∉ ys

/-! ## The turns in a list of messages -/

/-- The messages with their turns, when `last` is the last stage before them. -/
def turned (last : WorkloadStage) : List LiveStats → List (LiveStats × Bool)
  | [] => []
  | m :: ms =>
    (m, decide (last = .StagePrepare ∧ stageOf m = .StageWorkload)) :: turned (stageOf m) ms

/-- The last stage after these messages. -/
def lastStage (last : WorkloadStage) (ms : List LiveStats) : WorkloadStage :=
  ms.foldl (fun _ m => stageOf m) last

variable {last : WorkloadStage} {m : LiveStats} {ms : List LiveStats}

theorem turned_snoc : turned last (ms ++ [m]) = turned last ms ++
    [(m, decide (lastStage last ms = .StagePrepare ∧ stageOf m = .StageWorkload))] := by
  induction ms generalizing last with
  | nil => rfl
  | cons x ms ih =>
    rw [List.cons_append, turned, ih]
    rfl

theorem turned_messages : (turned last ms).map (·.1) = ms := by
  induction ms generalizing last with
  | nil => rfl
  | cons x ms ih =>
    rw [turned, List.map_cons, ih]

/-- Without a prepare message there is no turn. -/
theorem turned_none (hlast : last ≠ .StagePrepare) (h : .StagePrepare ∉ ms.map stageOf) :
    (turned last ms).filter (·.2) = [] := by
  induction ms generalizing last with
  | nil => rfl
  | cons x ms ih =>
    rw [List.map_cons, List.mem_cons, not_or] at h
    rw [turned, List.filter_cons_of_neg (by simp [hlast])]
    exact ih (Ne.symm h.1) h.2

theorem prepareEndsFirst_cons : PrepareEndsFirst (last :: (m :: ms).map stageOf) ↔
    ((last = .StagePrepare ∧ stageOf m = .StageWorkload) → .StagePrepare ∉ ms.map stageOf) ∧
      PrepareEndsFirst ((m :: ms).map stageOf) := by
  constructor
  · intro h
    refine ⟨?_, fun xs ys he => h (last :: xs) ys (by rw [he]; rfl)⟩
    rintro ⟨hl, hm⟩
    exact h [] _ (by rw [hl, List.map_cons, hm]; rfl)
  · rintro ⟨hfirst, hrest⟩ xs ys he
    cases xs with
    | nil =>
      rw [List.map_cons] at he
      injection he with hl he
      injection he with hm he
      rw [← he]
      exact hfirst ⟨hl, hm⟩
    | cons x xs =>
      injection he with _ he
      exact hrest xs ys he

theorem turnsOnce_cons : TurnsOnce (turned last (m :: ms)) ↔
    ((last = .StagePrepare ∧ stageOf m = .StageWorkload) → .StagePrepare ∉ ms.map stageOf) ∧
      TurnsOnce (turned (stageOf m) ms) := by
  have hmem : ∀ ys : List (LiveStats × Bool), (∀ y ∈ ys, stageOf y.1 ≠ .StagePrepare) ↔
      .StagePrepare ∉ (ys.map (·.1)).map stageOf := by
    intro ys
    rw [List.map_map, List.mem_map, not_exists]
    exact ⟨fun h y hy => h y hy.1 hy.2, fun h y hy he => h y ⟨hy, he⟩⟩
  constructor
  · intro h
    refine ⟨fun hturn => ?_, ?_, ?_⟩
    · have hall := h.last [] _ _ rfl (decide_eq_true hturn)
      rwa [hmem, turned_messages] at hall
    · refine le_trans ?_ h.once
      rw [turned]
      exact ((List.sublist_cons_self _ _).filter _).length_le
    · intro xs r ys he
      exact h.last ((m, _) :: xs) r ys (by rw [turned, he]; rfl)
  · rintro ⟨hfirst, hrest⟩
    refine ⟨?_, fun xs r ys he hr => ?_⟩
    · rw [turned]
      by_cases hturn : last = .StagePrepare ∧ stageOf m = .StageWorkload
      · -- after the turn the messages are of no prepare stage
        rw [List.filter_cons_of_pos (by simpa using hturn),
          turned_none (by simp [hturn.2]) (hfirst hturn)]
        exact le_refl 1
      · rw [List.filter_cons_of_neg (by simpa using hturn)]
        exact hrest.once
    · rw [turned] at he
      cases xs with
      | nil =>
        injection he with hhead htail
        rw [← hhead, decide_eq_true_eq] at hr
        rw [← htail, hmem, turned_messages]
        exact hfirst hr
      | cons x xs =>
        injection he with _ htail
        exact hrest.last xs r ys htail hr

theorem turnsOnce_iff :
    TurnsOnce (turned last ms) ↔ PrepareEndsFirst (last :: ms.map stageOf) := by
  induction ms generalizing last with
  | nil =>
    refine iff_of_true ⟨Nat.zero_le 1, fun xs r ys he => ?_⟩ fun xs ys he => ?_
    · simp [turned] at he
    · have hlen := congrArg List.length he
      simp at hlen
      omega
  | cons m ms ih => rw [turnsOnce_cons, prepareEndsFirst_cons, ih, List.map_cons]

/-! ## The loop keeps the last stage -/

variable {s : Setup} {c b : Controller} {e : Event}

/-- The last stage is the one of the last message that the loop has read. -/
theorem step_last_stage (h : (controllerMachine s).step c e = some b) :
    b.last_stage = ((takenOf c e).map fun r => stageOf r.1).getD c.last_stage := by
  have hsettle : ∀ (c : Controller) stats, (c.settle s stats).last_stage = c.last_stage := by
    intro c stats
    unfold settle
    dsimp only
    repeat' split
    all_goals rfl
  rcases step_taken h with ⟨hnone, hsame⟩ | ⟨stats, turns, tsv_written, rfl, _, ht, htake⟩
  · rw [hnone, hsame.last_stage]
    rfl
  · rw [ht]
    obtain ⟨bm, _, ⟨rfl, _⟩ | ⟨_, msg, rfl⟩⟩ := take_cases htake
    · exact (hsettle _ _).trans rfl
    · rfl

/-- The turns of a run are those in the list of its messages. -/
theorem run_readings {es : List Event}
    (h : (controllerMachine s).run (Controller.new s) es = some c) :
    readings s es = turned .StageUnknown ((readings s es).map (·.1)) ∧
      c.last_stage = lastStage .StageUnknown ((readings s es).map (·.1)) := by
  refine Machine.run_remembers (P := fun _ _ => True) (I := fun es c =>
    readings s es = turned .StageUnknown ((readings s es).map (·.1)) ∧
      c.last_stage = lastStage .StageUnknown ((readings s es).map (·.1)))
    (fun es c e b hrun hI _ hs => ?_) ⟨rfl, rfl⟩ (Machine.along_of_mem fun _ _ _ => trivial) h
  have hlog : readings s (es ++ [e]) = readings s es ++ (takenOf c e).toList :=
    Machine.log_snoc hrun hs
  rw [hlog, step_last_stage hs]
  cases ht : takenOf c e with
  | none => simpa using hI
  | some r =>
    obtain ⟨m, turn⟩ := r
    have hturn : turn = decide (c.last_stage = .StagePrepare ∧ stageOf m = .StageWorkload) := by
      unfold takenOf at ht
      split at ht
      · cases ht
        rfl
      · cases ht
    simp only [Option.toList_some, List.map_append, List.map_cons, List.map_nil, Option.map_some,
      Option.getD_some]
    refine ⟨?_, ?_⟩
    · rw [turned_snoc, ← hI.1, ← hI.2, hturn]
    · unfold lastStage
      rw [List.foldl_append]
      rfl

/-- In a run the turn to the workload is handled at most once, and after the
last prepare message, exactly when no other prepare message is directly
followed by a workload message. -/
theorem the_turn_is_handled_once_iff {s : Setup} {es : List Event} {c : Controller}
    (hrun : (controllerMachine s).run (Controller.new s) es = some c) :
    TurnsOnce (readings s es) ↔
      PrepareEndsFirst ((readings s es).map fun r => stageOf r.1) := by
  have hmap : (readings s es).map (fun r => stageOf r.1) =
      ((readings s es).map (·.1)).map stageOf := by
    rw [List.map_map]
    rfl
  rw [hmap, (run_readings hrun).1, turned_messages, turnsOnce_iff]
  -- the loop begins with no stage
  constructor
  · intro h xs ys he
    exact h (.StageUnknown :: xs) ys (by rw [he]; rfl)
  · intro h xs ys he
    cases xs with
    | nil => cases he
    | cons x xs =>
      injection he with _ he
      exact h xs ys he

/-! ## Two agents -/

/-- A prepare stage and an execute stage, without barriers. -/
def twoStages : DistributedConfig :=
  { stages := [
      { name := "fill", order := 1, completion := .TasksDone, barrier := none,
        timeout_secs := none, optional := false, config := .Prepare none },
      { name := "run", order := 2, completion := .Duration, barrier := none,
        timeout_secs := none, optional := false, config := .Execute 60 }]
    barrier_sync := {} }

def twoStageAgents : Setup := .ofAgents ["a", "b"] (some twoStages)

/-- An agent is in the prepare stage, or in the workload. -/
def prepares (agent_id : String) : Event :=
  .Stats { agent_id := agent_id, status := 2, current_stage := 1, stage_name := "fill" } [] true

def runs (agent_id : String) : Event :=
  .Stats { agent_id := agent_id, status := 2, current_stage := 2, stage_name := "run" } [] true

def inStep : List Event :=
  [.Stats (readyMessage "a") [] true, .Stats (readyMessage "b") [] true, prepares "a",
    prepares "b", runs "a", runs "b"]

def outOfStep : List Event :=
  [.Stats (readyMessage "a") [] true, .Stats (readyMessage "b") [] true, prepares "a",
    prepares "b", runs "a", prepares "b", runs "b"]

/-- The agents prepare together. -/
theorem agents_in_step_turn_once :
    TurnsOnce (readings twoStageAgents inStep) := by
  have hrun : ∃ c, (controllerMachine twoStageAgents).run (Controller.new twoStageAgents) inStep =
      some c := ⟨_, rfl⟩
  obtain ⟨c, hc⟩ := hrun
  refine (the_turn_is_handled_once_iff hc).mpr fun xs ys he => ?_
  have hstages : (readings twoStageAgents inStep).map (fun r => stageOf r.1) =
      [.StagePrepare, .StagePrepare, .StageWorkload, .StageWorkload] := rfl
  rw [hstages] at he
  -- the second prepare message is the only one before a workload message
  rcases xs with _ | ⟨x, _ | ⟨y, _ | ⟨z, xs⟩⟩⟩ <;> simp at he
  · rw [← he.2]
    decide
  · have hlen := congrArg List.length he.2.2.2
    simp at hlen
    omega

/-- One agent prepares while the other runs: the turn is handled twice, and
a prepare message is read in between. -/
theorem agents_out_of_step_turn_twice :
    ∃ c, (controllerMachine twoStageAgents).run (Controller.new twoStageAgents) outOfStep =
        some c ∧
      ((readings twoStageAgents outOfStep).filter (·.2)).length = 2 ∧
      ¬ TurnsOnce (readings twoStageAgents outOfStep) := by
  have htwice : ((readings twoStageAgents outOfStep).filter (·.2)).length = 2 := rfl
  refine ⟨_, rfl, htwice, fun h => ?_⟩
  have hle := h.once
  rw [htwice] at hle
  omega

end sai3_bench.controller
