-- The stages of one workload: an agent whose state is never forced climbs
-- the ladder of its stages, in order, one release at a time.
import Sai3Bench.AgentSteps
import Sai3Bench.BarrierReleases
import Sai3Bench.Ladders

namespace sai3_bench.agent

open broadcasts config ladders machines pb

/-! ## What is seen of an agent -/

/-- The mark of a state that an agent comes to. -/
def stateMark : WorkloadState → Option (Mark Nat)
  | .AtStage i _ false => some (.Enter i)
  | .AtStage i _ true => some (.Ready i)
  | .Completed => some .Complete
  | _ => none

/-- The mark of a step that leaves the state: a stage that ran, or a release. -/
def quietMark (a : Agent) (e : Event) : Option (Mark Nat) :=
  match e with
  | .Work w (.Execute (.ok ())) => a.workflows[w]?.bind fun wf => match wf.pc with
    | .Executing i => some (.Ran (i + 1))
    | _ => none
  | e => (releaseOf a e).map Mark.Release

/-- What one step shows. -/
def markOf (a : Agent) (e : Event) (b : Agent) : Option (Mark Nat) :=
  if a.state = b.state then quietMark a e else stateMark b.state

/-- What a run shows, oldest first. -/
def marks (a : Agent) (es : List Event) : List (Mark Nat) := agentMachine.log markOf a es

/-- The step writes the state past the guard: RESET, SYNC_STATE, or the 15 s
abort timer. -/
def Forces (a : Agent) (e : Event) : Prop := ∃ new, a.moveOf e = some (.Force new)

/-- The same as a test. -/
def forces (a : Agent) (e : Event) : Bool :=
  match a.moveOf e with
  | some (.Force _) => true
  | _ => false

theorem not_forces {a : Agent} {e : Event} (h : (!forces a e) = true) : ¬ Forces a e := by
  rintro ⟨new, hm⟩
  simp [forces, hm] at h

/-! ## Where a workload stands on its ladder -/

/-- The state shows stage `i`, or no stage (the workload was stopped). -/
def Shows (state : WorkloadState) (i : Nat) (ready : Bool) : Prop :=
  state ≠ .Completed ∧ ∀ j name r, state = .AtStage j name r → j = i ∧ r = ready

/-- The rung from which stage `i` of the list is entered. -/
def rungBefore (i : Nat) : Rung := if i = 0 then .Running 0 false else .Waiting i true

/-- The rung of a workflow. -/
def OnRung (wf : Workflow) (r : Rung) : Prop :=
  match wf.pc with
  | .Pending | .Spawned | .Loaded => r = .Running 0 false
  | .StageTop i | .Entering i => i < wf.stages.length ∧ r = rungBefore i
  | .Executing i => i < wf.stages.length ∧ r = .Running (i + 1) false
  | .Executed i => i < wf.stages.length ∧ r = .Running (i + 1) true
  | .Ready i => i < wf.stages.length ∧ ∃ released, r = .Waiting (i + 1) released
  | .AtBarrier i _ _ w => i < wf.stages.length ∧ w.barrier_index = barrier_index_of (i + 1) ∧
      ∃ released, r = .Waiting (i + 1) released ∧
        ∀ m ∈ w.barrier_rx.pending, m.1 = w.barrier_index → released = true
  | .AllDone => r = rungBefore wf.stages.length
  | .Finished _ | .Ended => ∀ i, r = .Done i → i = wf.stages.length

/-- The stage that the state shows while a workflow is not stopped. -/
def shown (wf : Workflow) : Option (Nat × Bool) :=
  match wf.pc with
  | .Pending | .Spawned | .Loaded => some (0, false)
  | .StageTop i | .Entering i => some (i, decide (0 < i))
  | .Executing i | .Executed i => some (i + 1, false)
  | .Ready i | .AtBarrier i _ _ _ => some (i + 1, true)
  | .AllDone => some (wf.stages.length, decide (0 < wf.stages.length))
  | .Finished _ | .Ended => none

/-- A workflow and the state of its agent, on a rung of the ladder. -/
structure Stands (wf : Workflow) (state : WorkloadState) (r : Rung) : Prop where
  rung : OnRung wf r
  shows : ∀ i ready, shown wf = some (i, ready) → Shows state i ready

/-- An agent with at most one workload, on a rung of the ladder. -/
def Linked (a : Agent) (r : Rung) : Prop :=
  match a.workflows with
  | [] => r = .Ground ∧ a.state ≠ .Completed ∧ ∀ i name ready, a.state ≠ .AtStage i name ready
  | [wf] => Stands wf a.state r
  | _ => False

/-- One mark, or none, on the ladder of the stages. -/
def climbs (r : Rung) : Option (Mark Nat) → Option Rung
  | none => some r
  | some m => climb barrier_index_of r m

section

variable {a b : Agent} {e : Event} {r : Rung} {wf wf' : Workflow}

theorem moveOf_of_nextOp {op : Op} (h : a.nextOp e = some op) : a.moveOf e = op.move := by
  cases e with
  | Work w we => cases h
  | _ => simp [Agent.moveOf, h]

theorem quietMark_of_nextOp {op : Op} (h : a.nextOp e = some op) :
    quietMark a e = (releaseOf a e).map Mark.Release := by
  cases e with
  | Work w we => cases h
  | _ => rfl

/-- A state that shows no stage. -/
theorem shows_of_none {state : WorkloadState} (h : state = .Idle ∨ state = .Failed ∨ state = .Aborting)
    (i : Nat) (ready : Bool) : Shows state i ready := by
  rcases h with rfl | rfl | rfl <;> exact ⟨by simp, by simp⟩

/-- A workflow stands where it stood when the state stays or shows no stage. -/
theorem Stands.state {s s' : WorkloadState} (h : Stands wf s r)
    (hs : s' = s ∨ s' = .Idle ∨ s' = .Failed ∨ s' = .Aborting) : Stands wf s' r := by
  refine ⟨h.rung, fun i ready hi => ?_⟩
  rcases hs with rfl | hs
  · exact h.shows i ready hi
  · exact shows_of_none hs i ready

/-- An abort signal does not move a workflow. -/
theorem Stands.hearAbort {s : WorkloadState} (h : Stands wf s r) : Stands wf.hearAbort s r :=
  ⟨h.rung, h.shows⟩

theorem Stands.spawn {s : WorkloadState} (h : Stands wf s r) (id : String) :
    Stands (wf.spawn id) s r := by
  unfold Workflow.spawn
  split
  · rename_i hpc
    refine ⟨?_, ?_⟩
    · simpa [OnRung, hpc] using h.rung
    · simpa [shown, hpc] using h.shows
  · exact h

theorem Stands.finished {s : WorkloadState} (h : Stands wf s r) {result}
    (hpc : wf.pc = .Finished result) : Stands { wf with pc := .Ended } s r := by
  refine ⟨?_, by simp [shown]⟩
  have := h.rung
  simpa [OnRung, hpc] using this

theorem afterRelease_rungBefore (k i : Nat) :
    afterRelease barrier_index_of k (rungBefore i) = rungBefore i := by
  unfold rungBefore
  split <;> simp [afterRelease]

theorem afterRelease_done {k i : Nat} (h : afterRelease barrier_index_of k r = .Done i) :
    r = .Done i := by
  cases r <;> simp_all [afterRelease]

/-- A workflow that is not at a barrier hears nothing. -/
theorem hear_elsewhere (hpc : ∀ i stage summary w, wf.pc ≠ .AtBarrier i stage summary w)
    (m : Nat × Nat) : wf.hear m = wf := by
  unfold Workflow.hear
  split
  · rename_i h
    exact absurd h (hpc _ _ _ _)
  · rfl

/-- A release moves the ladder as it moves the receiver of the workflow. -/
theorem Stands.release {s : WorkloadState} (h : Stands wf s r) (k : Nat) :
    Stands (wf.hear (k, k)) s (afterRelease barrier_index_of k r) := by
  obtain ⟨hr, hs⟩ := h
  cases hpc : wf.pc with
  | AtBarrier i stage summary w =>
    have hear : wf.hear (k, k) = { wf with pc := .AtBarrier i stage summary (w.hear (k, k)) } := by
      simp [Workflow.hear, hpc]
    simp only [OnRung, hpc] at hr
    obtain ⟨hi, hidx, released, rfl, hpend⟩ := hr
    rw [hear]
    refine ⟨⟨hi, hidx, _, rfl, ?_⟩, by simpa [shown, hpc] using hs⟩
    intro m hm hmi
    rcases Receiver.mem_push hm with hm | rfl
    · simp [hpend m hm hmi]
    · simp [← hidx, show k = w.barrier_index from hmi]
  | Ready i =>
    rw [hear_elsewhere (by simp [hpc])]
    refine ⟨?_, hs⟩
    simp only [OnRung, hpc] at hr ⊢
    obtain ⟨hi, released, rfl⟩ := hr
    exact ⟨hi, _, rfl⟩
  | Finished _ | Ended =>
    rw [hear_elsewhere (by simp [hpc])]
    refine ⟨?_, hs⟩
    simp only [OnRung, hpc] at hr ⊢
    exact fun i hi => hr i (afterRelease_done hi)
  | _ =>
    -- everywhere else the rung is one that a release does not touch
    have hsame : afterRelease barrier_index_of k r = r := by
      simp only [OnRung, hpc] at hr
      first
        | (rw [hr]; rfl)
        | (rw [hr]; exact afterRelease_rungBefore ..)
        | (rw [hr.2]; rfl)
        | (rw [hr.2]; exact afterRelease_rungBefore ..)
    rw [hear_elsewhere (by simp [hpc]), hsame]
    exact ⟨hr, hs⟩

/-! ## One step of the workflow -/

/-- The state after a workflow's step. -/
def stateAfter (wf : Workflow) (state : WorkloadState) (we : WorkEvent) : WorkloadState :=
  ((wf.asks we).map fun new => (transition_to state new).getD state).getD state

/-- What a workflow's step shows. -/
def workMark (wf : Workflow) (state : WorkloadState) (we : WorkEvent) : Option (Mark Nat) :=
  if state = stateAfter wf state we then
    match we, wf.pc with
    | .Execute (.ok ()), .Executing i => some (.Ran (i + 1))
    | _, _ => none
  else stateMark (stateAfter wf state we)

/-- A step that asks for no state leaves it. -/
theorem stateAfter_quiet (wf : Workflow) (s : WorkloadState) (we : WorkEvent)
    (h : wf.asks we = none) :
    stateAfter wf s we = s := by
  simp [stateAfter, h]

theorem rungBefore_ne_done {i j : Nat} : rungBefore i ≠ .Done j := by
  unfold rungBefore
  split <;> simp

/-- The top of the ladder is the last stage. -/
theorem onRung_done {n : Nat} (h : OnRung wf (.Done n)) : n = wf.stages.length := by
  cases hpc : wf.pc with
  | Finished _ | Ended => simp only [OnRung, hpc] at h; exact h n rfl
  | StageTop i | Entering i =>
    simp only [OnRung, hpc] at h
    exact absurd h.2.symm rungBefore_ne_done
  | AllDone => simp only [OnRung, hpc] at h; exact absurd h.symm rungBefore_ne_done
  | _ => simp [OnRung, hpc] at h

/-- A workflow that stops on a rung that is not the top. -/
theorem stands_finished {s : WorkloadState} {result} (h : ∀ i, r ≠ .Done i) :
    Stands { wf with pc := .Finished result } s r :=
  ⟨fun i hi => absurd hi (h i), by simp [shown]⟩

/-- A step whose state the guard takes. -/
theorem stateAfter_moves {s new : WorkloadState} {we : WorkEvent} (hasks : wf.asks we = some new)
    (hok : (transition_to s new).isSome = true) : stateAfter wf s we = new := by
  obtain ⟨t, ht⟩ := Option.isSome_iff_exists.mp hok
  simp [stateAfter, hasks, ht, transition_to_some ht]

/-- A step whose state the guard does not take. -/
theorem stateAfter_stays {s new : WorkloadState} {we : WorkEvent} (hasks : wf.asks we = some new)
    (hno : transition_to s new = none) : stateAfter wf s we = s := by
  simp [stateAfter, hasks, hno]

theorem shows_atStage (i : Nat) (name : String) (ready : Bool) :
    Shows (.AtStage i name ready) i ready := by
  refine ⟨by simp, ?_⟩
  rintro _ _ _ ⟨⟩
  exact ⟨rfl, rfl⟩

/-- A workflow at the top of the loop, or at its end when the stages are used up. -/
theorem stands_top {s : WorkloadState} {i : Nat}
    (hpc : wf.pc = if i < wf.stages.length then .StageTop i else .AllDone)
    (hi : i ≤ wf.stages.length) (hs : Shows s i (decide (0 < i))) : Stands wf s (rungBefore i) := by
  by_cases hlt : i < wf.stages.length
  · rw [if_pos hlt] at hpc
    refine ⟨by simp [OnRung, hpc, hlt], ?_⟩
    rintro j ready hj
    simp only [shown, hpc, Option.some.injEq, Prod.mk.injEq] at hj
    obtain ⟨rfl, rfl⟩ := hj
    exact hs
  · rw [if_neg hlt] at hpc
    have hn : wf.stages.length = i := by omega
    refine ⟨by simp [OnRung, hpc, hn], ?_⟩
    rintro j ready hj
    simp only [shown, hpc, hn, Option.some.injEq, Prod.mk.injEq] at hj
    obtain ⟨rfl, rfl⟩ := hj
    exact hs

/-- A step of the wait at the barrier of stage `i`. -/
theorem Stands.waits {s : WorkloadState} {i : Nat} {stage : StageConfig} {summary : StageSummary}
    {w : BarrierWait} {we : WorkEvent} {res : WaitResult} (h : Stands wf s r)
    (hpc : wf.pc = .AtBarrier i stage summary w) (hw : Workflow.waitStep w we = some res) :
    Stands (wf.afterWait i stage summary w res) s r := by
  obtain ⟨hr, hsh⟩ := h
  simp only [OnRung, hpc] at hr
  obtain ⟨hi, hidx, released, rfl, hpend⟩ := hr
  have hshow := hsh (i + 1) true (by simp [shown, hpc])
  cases res with
  | Waiting v =>
    have hgo : w.GoesOn v := by
      cases we <;> simp only [Workflow.waitStep, reduceCtorEq] at hw
      · exact BarrierWait.notify_goesOn hw
      · exact BarrierWait.recv_goesOn hw
      · exact BarrierWait.timeout_goesOn hw
    refine ⟨⟨hi, hgo.same.trans hidx, released, rfl, ?_⟩, ?_⟩
    · exact fun m hm hmi => hpend m (hgo.keeps m hm) (hmi.trans hgo.same)
    · rintro j ready hj
      simp only [Workflow.afterWait, shown, Option.some.injEq, Prod.mk.injEq] at hj
      obtain ⟨rfl, rfl⟩ := hj
      exact hshow
  | Released =>
    have hrel : ∃ m ∈ w.barrier_rx.pending, m.1 = w.barrier_index := by
      cases we <;> simp only [Workflow.waitStep, reduceCtorEq] at hw
      · exact absurd hw BarrierWait.notify_not_released
      · exact BarrierWait.recv_released hw
      · exact absurd hw BarrierWait.timeout_not_released
    obtain ⟨m, hm, hmi⟩ := hrel
    rw [hpend m hm hmi]
    exact stands_top (i := i + 1) rfl hi (by simpa using hshow)
  | NotReleased => exact stands_finished (by simp)

/-- The guard takes Completed only from a barrier, so there was a stage. -/
theorem Stands.completes {s : WorkloadState} (h : Stands wf s r) (hpc : wf.pc = .AllDone)
    (hok : (transition_to s .Completed).isSome = true) :
    r = .Waiting wf.stages.length true := by
  obtain ⟨hr, hsh⟩ := h
  simp only [OnRung, hpc] at hr
  subst hr
  have hshow := hsh _ _ (by simp only [shown, hpc]; rfl)
  have hcan := (transition_to_isSome.mp hok).resolve_left hshow.1
  obtain ⟨j, name, rfl⟩ := can_transition_completed.mp hcan
  have hpos : 0 < wf.stages.length := by simpa using ((hshow.2 _ _ _ rfl).2).symm
  simp [rungBefore, Nat.pos_iff_ne_zero.mp hpos]

/-- A step of the workflow is a step on the ladder. -/
theorem Stands.step {s : WorkloadState} {stages we} (h : Stands wf s r)
    (hs : wf.Steps s stages we wf') :
    ∃ t, climbs r (workMark wf s we) = some t ∧ Stands wf' (stateAfter wf s we) t := by
  obtain ⟨hr, hsh⟩ := h
  cases hs with
  | noStages hpc _ =>
    refine ⟨r, by simp [workMark, stateAfter, Workflow.asks, climbs], ?_, by simp [shown]⟩
    simp only [OnRung, hpc] at hr ⊢
    simp [hr]
  | loads hpc _ =>
    refine ⟨r, by simp [workMark, stateAfter, Workflow.asks, climbs], ?_, ?_⟩
    · simpa only [OnRung, hpc] using hr
    · simpa [shown, hpc, stateAfter, Workflow.asks] using hsh
  | subscribesAbort hpc =>
    have hshow := hsh 0 false (by simp [shown, hpc])
    simp only [OnRung, hpc] at hr
    subst hr
    refine ⟨rungBefore 0, by simp [workMark, stateAfter, Workflow.asks, climbs, rungBefore], ?_⟩
    rw [stateAfter_quiet _ _ _ rfl]
    exact stands_top (i := 0) rfl (Nat.zero_le _) (by simpa using hshow)
  | aborted hpc =>
    refine ⟨r, by simp [workMark, stateAfter, Workflow.asks, climbs], stands_finished ?_⟩
    simp only [OnRung, hpc] at hr
    exact fun j => hr.2 ▸ rungBefore_ne_done
  | goesOn hpc =>
    refine ⟨r, by simp [workMark, stateAfter, Workflow.asks, climbs], ?_, ?_⟩
    · simpa only [OnRung, hpc] using hr
    · simpa [shown, hpc, stateAfter, Workflow.asks] using hsh
  | @enters i stage hpc hstage hok =>
    simp only [OnRung, hpc] at hr
    obtain ⟨hi, rfl⟩ := hr
    have hshow := hsh i (decide (0 < i)) (by simp [shown, hpc])
    have hafter : stateAfter wf s .Enter = .AtStage (i + 1) stage.name false :=
      stateAfter_moves (by simp [Workflow.asks, hpc, hstage]) hok
    have hne : s ≠ .AtStage (i + 1) stage.name false := by
      intro he
      have := (hshow.2 _ _ _ he).1
      omega
    refine ⟨.Running (i + 1) false, ?_, ⟨hi, rfl⟩, ?_⟩
    · simp only [workMark, hafter, if_neg hne, stateMark, climbs]
      unfold rungBefore
      split
      · rename_i h0
        subst h0
        rfl
      · simp [climb]
    · rw [hafter]
      rintro j ready hj
      simp only [shown, Option.some.injEq, Prod.mk.injEq] at hj
      obtain ⟨rfl, rfl⟩ := hj
      exact shows_atStage ..
  | notEnters hpc hstage hno =>
    simp only [OnRung, hpc] at hr
    have hafter : stateAfter wf s .Enter = s :=
      stateAfter_stays (by simp [Workflow.asks, hpc, hstage]) hno
    refine ⟨r, by simp [workMark, hafter, climbs], stands_finished ?_⟩
    exact fun j => hr.2 ▸ rungBefore_ne_done
  | @executes i hpc =>
    simp only [OnRung, hpc] at hr
    obtain ⟨hi, rfl⟩ := hr
    have hafter := stateAfter_quiet wf s (.Execute (.ok ())) rfl
    refine ⟨.Running (i + 1) true, ?_, ⟨hi, rfl⟩, ?_⟩
    · simp [workMark, hafter, hpc, climbs, climb]
    · rw [hafter]
      simpa [shown, hpc] using hsh
  | @fails i e hpc =>
    simp only [OnRung, hpc] at hr
    have hafter := stateAfter_quiet wf s (.Execute (.error e)) rfl
    refine ⟨r, by simp [workMark, hafter, climbs], stands_finished ?_⟩
    intro j
    rw [hr.2]
    simp
  | @readies i stage hpc hstage hok =>
    simp only [OnRung, hpc] at hr
    obtain ⟨hi, rfl⟩ := hr
    have hshow := hsh (i + 1) false (by simp [shown, hpc])
    have hafter : stateAfter wf s .MarkReady = .AtStage (i + 1) stage.name true :=
      stateAfter_moves (by simp [Workflow.asks, hpc, hstage]) hok
    have hne : s ≠ .AtStage (i + 1) stage.name true := by
      intro he
      have := (hshow.2 _ _ _ he).2
      cases this
    refine ⟨.Waiting (i + 1) false, ?_, ⟨hi, _, rfl⟩, ?_⟩
    · simp [workMark, hafter, if_neg hne, stateMark, climbs, climb]
    · rw [hafter]
      rintro j ready hj
      simp only [shown, Option.some.injEq, Prod.mk.injEq] at hj
      obtain ⟨rfl, rfl⟩ := hj
      exact shows_atStage ..
  | @notReadies i stage e hpc hstage hno =>
    simp only [OnRung, hpc] at hr
    have hafter : stateAfter wf s .MarkReady = s :=
      stateAfter_stays (by simp [Workflow.asks, hpc, hstage]) hno
    refine ⟨r, by simp [workMark, hafter, climbs], stands_finished ?_⟩
    intro j
    rw [hr.2]
    simp
  | @subscribes i stage snap hpc hstage =>
    simp only [OnRung, hpc] at hr
    obtain ⟨hi, released, rfl⟩ := hr
    have hafter := stateAfter_quiet wf s (.SubscribeBarrier snap) rfl
    refine ⟨.Waiting (i + 1) released, by simp [workMark, hafter, climbs],
      ⟨hi, rfl, released, rfl, ?_⟩, ?_⟩
    · simp [BarrierWait.begins]
    · rw [hafter]
      simpa [shown, hpc] using hsh
  | @waits i stage summary w _ res hpc hw =>
    have hasks : wf.asks we = none := by
      cases we <;> simp_all [Workflow.waitStep, Workflow.asks]
    have hafter := stateAfter_quiet _ s _ hasks
    have hmark : workMark wf s we = none := by
      simp [workMark, hafter, hpc]
    refine ⟨r, by rw [hmark]; rfl, ?_⟩
    rw [hafter]
    exact Stands.waits ⟨hr, hsh⟩ hpc hw
  | @completes snap hpc =>
    have hasks : wf.asks (.Complete snap) = some .Completed := by
      simp [Workflow.asks, hpc]
    cases ht : transition_to s .Completed with
    | none =>
      have hafter := stateAfter_stays hasks ht
      simp only [OnRung, hpc] at hr
      subst hr
      exact ⟨rungBefore wf.stages.length, by simp [workMark, hafter, climbs],
        stands_finished fun _ => rungBefore_ne_done⟩
    | some t =>
      have hok : (transition_to s .Completed).isSome = true := by simp [ht]
      have hafter := stateAfter_moves hasks hok
      have htop := Stands.completes ⟨hr, hsh⟩ hpc hok
      have hne : s ≠ .Completed := (hsh _ _ (by simp only [shown, hpc]; rfl)).1
      refine ⟨.Done wf.stages.length, ?_, ?_, by simp [shown]⟩
      · simp [htop, workMark, hafter, hne, stateMark, climbs, climb]
      · rintro k ⟨⟩
        rfl

/-! ## One step of the agent -/

theorem stateMark_none {s : WorkloadState} (h : s = .Idle ∨ s = .Failed ∨ s = .Aborting) :
    stateMark s = none := by
  rcases h with rfl | rfl | rfl <;> rfl

/-- A step of a script leaves the state, or brings it to one that shows no
stage. It shows a release at most. -/
theorem op_quiet {op : Op} (hop : a.nextOp e = some op) (hs : a.step e = some b)
    (hno : ¬ Forces a e) (hne : ∀ path, op ≠ .EnterPreflight path) :
    (b.state = a.state ∨ b.state = .Idle ∨ b.state = .Failed ∨ b.state = .Aborting) ∧
      markOf a e b = (releaseOf a e).map Mark.Release := by
  have hst := Agent.step_state hs
  have hmove := moveOf_of_nextOp hop
  have hquiet := quietMark_of_nextOp hop
  rw [hmove] at hst
  have hto : ∀ new, op.move = some (.To new) → new = .Idle ∨ new = .Failed ∨ new = .Aborting →
      releaseOf a e = none →
      (b.state = a.state ∨ b.state = .Idle ∨ b.state = .Failed ∨ b.state = .Aborting) ∧
        markOf a e b = (releaseOf a e).map Mark.Release := by
    intro new hm hnew hrel
    rw [hm] at hst
    simp only [Agent.moved, Move.settle, Option.map_some, Option.getD_some] at hst
    cases ht : transition_to a.state new with
    | none =>
      rw [ht] at hst
      exact ⟨.inl hst, by simp [markOf, hst, hquiet]⟩
    | some t =>
      rw [ht, Option.getD_some, transition_to_some ht] at hst
      refine ⟨.inr (hst ▸ hnew), ?_⟩
      unfold markOf
      split
      · exact hquiet
      · rw [hrel, stateMark_none (hst ▸ hnew)]
        rfl
  cases op with
  | ToAborting => exact hto .Aborting rfl (by simp) (by simp [releaseOf, hop])
  | ToIdle => exact hto .Idle rfl (by simp) (by simp [releaseOf, hop])
  | ToFailed => exact hto .Failed rfl (by simp) (by simp [releaseOf, hop])
  | ForceIdle => exact absurd ⟨_, hmove⟩ hno
  | ForceStage i name ready => exact absurd ⟨_, hmove⟩ hno
  | EnterPreflight path => exact absurd rfl (hne path)
  | _ =>
    have hsame : b.state = a.state := hst
    exact ⟨.inl hsame, by simp [markOf, hsame, hquiet]⟩

/-- A workflow's step shows what the workflow shows. -/
theorem work_mark {w : Nat} {we : WorkEvent} (hs : a.step (.Work w we) = some b)
    (hwf : a.workflows[w]? = some wf) :
    b.state = stateAfter wf a.state we ∧ markOf a (.Work w we) b = workMark wf a.state we := by
  have hst : b.state = stateAfter wf a.state we := by
    rw [Agent.step_state hs]
    simp only [Agent.moved, Agent.moveOf, hwf, Option.bind_some, Option.map_map, stateAfter]
    rfl
  refine ⟨hst, ?_⟩
  unfold markOf workMark
  rw [hst]
  split
  · cases we with
    | Execute res =>
      cases res with
      | ok u => cases hpc : wf.pc <;> simp [quietMark, hwf, hpc]
      | error e => simp [quietMark, releaseOf, Agent.nextOp]
    | _ => simp [quietMark, releaseOf, Agent.nextOp]
  · rfl

/-- A state that stays, or shows no stage. -/
def Settles (a b : Agent) : Prop :=
  b.state = a.state ∨ b.state = .Idle ∨ b.state = .Failed ∨ b.state = .Aborting

/-- A step that changes each workflow in place, and the rung with it. -/
theorem Linked.each {f : Workflow → Workflow} {g : Rung → Rung} (h : Linked a r)
    (hs : Settles a b) (hb : b.workflows = a.workflows.map f) (hground : g .Ground = .Ground)
    (hf : ∀ wf, Stands wf a.state r → Stands (f wf) a.state (g r)) : Linked b (g r) := by
  unfold Linked at h ⊢
  split at h
  · rename_i hnil
    obtain ⟨rfl, hc, hst⟩ := h
    simp only [hb, hnil, List.map_nil]
    refine ⟨hground, ?_, ?_⟩
    · rcases hs with hs | hs | hs | hs <;> rw [hs]
      · exact hc
      all_goals simp
    · rcases hs with hs | hs | hs | hs <;> rw [hs]
      · exact hst
      all_goals simp
  · rename_i wf hone
    simp only [hb, hone, List.map_cons, List.map_nil]
    exact (hf wf h).state hs
  · exact h.elim

theorem Linked.same (h : Linked a r) (hs : Settles a b) (hb : b.workflows = a.workflows) :
    Linked b r :=
  h.each hs (hb.trans (List.map_id' _).symm) (g := id) rfl fun _ hw => hw

/-- The only workflow of a linked agent. -/
theorem Linked.only {w : Nat} (h : Linked a r) (hw : a.workflows[w]? = some wf) :
    w = 0 ∧ a.workflows = [wf] ∧ Stands wf a.state r := by
  unfold Linked at h
  split at h
  · rename_i hnil
    simp [hnil] at hw
  · rename_i vf hone
    rw [hone] at hw
    have hlt := (List.getElem?_eq_some_iff.mp hw).1
    obtain rfl : w = 0 := by simpa using hlt
    cases hw
    exact ⟨rfl, hone, h⟩
  · exact h.elim

/-- An accepted START is the first mark. -/
theorem Linked.start (h : Linked a r) {i : Nat} (hone : b.workflows.length ≤ 1)
    (hst : b.state = .AtStage 0 "preflight" false)
    (hb : b.workflows = a.workflows ++ [⟨i, "", [], .Pending, Receiver.subscribe⟩]) :
    ∃ t, climbs r (markOf a e b) = some t ∧ Linked b t := by
  unfold Linked at h
  split at h
  · rename_i hnil
    obtain ⟨rfl, _, hno⟩ := h
    have hne : a.state ≠ b.state := fun he => hno _ _ _ (he.trans hst)
    refine ⟨.Running 0 false, ?_, ?_⟩
    · rw [markOf, if_neg hne, hst]
      rfl
    · simp only [Linked, hb, hnil, List.nil_append]
      refine ⟨rfl, ?_⟩
      rintro j ready ⟨⟩
      rw [hst]
      exact ⟨by simp, by rintro _ _ _ ⟨⟩; exact ⟨rfl, rfl⟩⟩
  · rename_i wf hw
    simp [hb, hw] at hone
  · exact h.elim

theorem linked_step (h : Linked a r) (hs : a.step e = some b) (hno : ¬ Forces a e)
    (hone : b.workflows.length ≤ 1) :
    ∃ t, climbs r (markOf a e b) = some t ∧ Linked b t := by
  rcases Agent.step_workflows hs with ⟨op, i, hop, hb⟩ | ⟨hop, ⟨hb, hnw⟩ |
    ⟨w, we, wf, wf', notice, rfl, hw, hst, hb⟩ | ⟨w, wf, res, rfl, hw, hpc, hb⟩⟩
  · by_cases hen : ∃ path, op = .EnterPreflight path
    · obtain ⟨path, rfl⟩ := hen
      have hst := Agent.step_state hs
      rw [moveOf_of_nextOp hop] at hst
      simp only [Agent.workflowsAfter] at hb
      split at hb
      · rename_i hok
        obtain ⟨t, ht⟩ := Option.isSome_iff_exists.mp hok
        refine h.start hone ?_ hb
        rw [hst]
        simp [Agent.moved, Op.move, Move.settle, ht, transition_to_some ht]
      · rename_i hrefused
        have hnone : transition_to a.state (.AtStage 0 "preflight" false) = none := by
          simpa using hrefused
        have hsame : b.state = a.state := by
          simpa [Agent.moved, Op.move, Move.settle, hnone] using hst
        refine ⟨r, ?_, h.same (.inl hsame) hb⟩
        simp [markOf, hsame, quietMark_of_nextOp hop, releaseOf, hop, climbs]
    · obtain ⟨hq, hm⟩ := op_quiet hop hs hno fun path hp => hen ⟨path, hp⟩
      rw [hm]
      cases op with
      | Release k =>
        have hrel : releaseOf a e = some k := by simp [releaseOf, hop]
        rw [hrel]
        exact ⟨_, climb_release r k, h.each hq hb rfl fun _ hw => hw.release k⟩
      | SendAbort =>
        have hrel : releaseOf a e = none := by simp [releaseOf, hop]
        rw [hrel]
        exact ⟨r, rfl, h.each (g := id) hq hb rfl fun _ hw => hw.hearAbort⟩
      | Spawn w id =>
        have hrel : releaseOf a e = none := by simp [releaseOf, hop]
        rw [hrel]
        refine ⟨r, rfl, ?_⟩
        -- the task of the only workload is spawned, or none is
        cases w with
        | zero =>
          refine h.each (g := fun r => r) hq ?_ rfl fun _ hw => hw.spawn id
          rw [hb]
          unfold Linked at h
          split at h
          · rename_i hnil; simp [Agent.workflowsAfter, hnil]
          · rename_i wf hw; simp [Agent.workflowsAfter, hw]
          · exact h.elim
        | succ w =>
          refine h.same hq ?_
          rw [hb]
          unfold Linked at h
          split at h
          · rename_i hnil; simp [Agent.workflowsAfter, hnil]
          · rename_i wf hw; simp [Agent.workflowsAfter, hw]
          · exact h.elim
      | EnterPreflight path => exact absurd ⟨path, rfl⟩ hen
      | _ =>
        have hrel : releaseOf a e = none := by simp [releaseOf, hop]
        rw [hrel]
        exact ⟨r, rfl, h.same hq hb⟩
  · have hmove : a.moveOf e = none := by
      cases e with
      | Work w we => exact absurd rfl (hnw w we)
      | _ => simp [Agent.moveOf, hop]
    have hsame : b.state = a.state := by
      rw [Agent.step_state hs, hmove]
      rfl
    have hquiet : quietMark a e = none := by
      cases e with
      | Work w we => exact absurd rfl (hnw w we)
      | _ => simp [quietMark, releaseOf, hop]
    refine ⟨r, by simp [markOf, hsame, hquiet, climbs], h.same (.inl hsame) hb⟩
  · obtain ⟨hstate, hmark⟩ := work_mark hs hw
    obtain ⟨rfl, honly, hstands⟩ := h.only hw
    obtain ⟨t, ht, hstands'⟩ := hstands.step (Workflow.step_cases hst)
    refine ⟨t, by rw [hmark]; exact ht, ?_⟩
    simpa [Linked, hb, honly, hstate] using hstands'
  · obtain ⟨rfl, honly, hstands⟩ := h.only hw
    have hsame : b.state = a.state := by
      rw [Agent.step_state hs]
      rfl
    refine ⟨r, by simp [markOf, hsame, quietMark, releaseOf, Agent.nextOp, climbs], ?_⟩
    simpa [Linked, hb, honly, hsame] using hstands.finished hpc

end

/-! ## The order of the stages -/

/-- An agent whose state is never forced, and that accepts one START, shows
marks that climb the ladder of its stages. -/
theorem run_climbs {path : Option String} {es : List Event} {b : Agent}
    (hrun : agentMachine.run (Agent.new path) es = some b)
    (hno : agentMachine.Along (fun a e => ¬ Forces a e) (Agent.new path) es)
    (hone : b.workflows.length ≤ 1) :
    ∃ r, (ladder barrier_index_of).run .Ground (marks (Agent.new path) es) = some r ∧
      Linked b r := by
  induction es using List.reverseRecOn generalizing b with
  | nil =>
    cases hrun
    exact ⟨.Ground, rfl, rfl, by simp [Agent.new], by simp [Agent.new]⟩
  | append_singleton es e ih =>
    obtain ⟨a, ha, hb⟩ := Machine.run_snoc_iff.mp hrun
    obtain ⟨hno', hnoe⟩ := (Machine.along_snoc ha).mp hno
    have hgrow : a.workflows.length ≤ b.workflows.length := by
      rcases Agent.step_workloads hb with hlen | ⟨_, _, _, _, hlen⟩
      · omega
      · simp [hlen]
    obtain ⟨r, hr, hlink⟩ := ih ha hno' (by omega)
    obtain ⟨t, ht, hlink'⟩ := linked_step hlink hb hnoe hone
    refine ⟨t, ?_, hlink'⟩
    unfold marks at hr ⊢
    rw [Machine.log_snoc ha hb]
    cases hm : markOf a e b with
    | none =>
      rw [hm] at ht
      cases ht
      simpa using hr
    | some m =>
      rw [hm] at ht
      exact Machine.run_snoc_iff.mpr ⟨r, hr, ht⟩

/-- The stages of one workload are entered in their order and none is
skipped; a stage comes only after the stage before it ran and its barrier
was released to this agent; and Completed comes only after all of them. -/
theorem the_stages_run_in_order {path : Option String} {es : List Event} {b : Agent}
    (hrun : agentMachine.run (Agent.new path) es = some b)
    (hno : agentMachine.Along (fun a e => ¬ Forces a e) (Agent.new path) es)
    (hone : b.workflows.length ≤ 1) :
    entries (marks (Agent.new path) es) =
        List.range (entries (marks (Agent.new path) es)).length ∧
      (∀ before after k, marks (Agent.new path) es = before ++ .Enter (k + 2) :: after →
        Left barrier_index_of before (k + 1)) ∧
      ∀ before after, marks (Agent.new path) es = before ++ .Complete :: after →
        ∃ wf, b.workflows = [wf] ∧ entries before = List.range (wf.stages.length + 1) ∧
          ∀ k < wf.stages.length, Left barrier_index_of before (k + 1) := by
  obtain ⟨r, hr, hlink⟩ := run_climbs hrun hno hone
  refine ⟨stages_in_order hr, ?_, ?_⟩
  · intro before after k hms
    rw [hms] at hr
    exact left_before_enter hr
  · intro before after hms
    rw [hms] at hr
    obtain ⟨n, rfl, hent, hleft⟩ := left_before_complete hr
    unfold Linked at hlink
    split at hlink
    · cases hlink.1
    · rename_i wf hwf
      have hn := onRung_done hlink.rung
      subst hn
      exact ⟨wf, hwf, hent, fun k hk => hleft (k + 1) (by omega) (by omega)⟩
    · exact hlink.elim

/-- One stage from START to Completed. -/
def wholeRun : List Event :=
  releasedRun 0 ++ [.Read 0, .Work 0 .Recv, .Work 0 (.Complete {})]

theorem one_stage_runs_in_order :
    ∃ b wf, agentMachine.run (Agent.new none) wholeRun = some b ∧ b.workflows = [wf] ∧
      marks (Agent.new none) wholeRun =
        [.Enter 0, .Enter 1, .Ran 1, .Ready 1, .Release 0] ++ .Complete :: [] ∧
      Left barrier_index_of [.Enter 0, .Enter 1, .Ran 1, .Ready 1, .Release 0] 1 := by
  have hrun : ∃ b, agentMachine.run (Agent.new none) wholeRun = some b ∧
      b.workflows.length ≤ 1 ∧ b.workflows.map (·.stages.length) = [1] :=
    ⟨_, rfl, by decide, rfl⟩
  obtain ⟨b, hb, hone, hlen⟩ := hrun
  have hno : agentMachine.Along (fun a e => ¬ Forces a e) (Agent.new none) wholeRun :=
    Machine.along_of_check (p := fun a e => !forces a e) (fun _ _ => not_forces) rfl
  have hms : marks (Agent.new none) wholeRun =
      [.Enter 0, .Enter 1, .Ran 1, .Ready 1, .Release 0] ++ .Complete :: [] := rfl
  obtain ⟨_, _, hdone⟩ := the_stages_run_in_order hb hno hone
  obtain ⟨wf, hwf, _, hleft⟩ := hdone _ _ hms
  rw [hwf] at hlen
  exact ⟨b, wf, hb, hwf, hms, hleft 0 (by simp at hlen; omega)⟩

end sai3_bench.agent
