-- Tasks of a workload that was aborted or reset: which of their steps touch
-- a workload that was started later.
import Sai3Bench.AgentSteps
import Sai3Bench.BarrierReleases

namespace sai3_bench.agent

open broadcasts config machines pb

/-! ## The scripts of writers and timers -/

/-- The steps of a stats writer that has a result. -/
def Op.ofWriter : Op → Bool
  | .Put _ | .Send _ | .ToFailed | .ToIdle => true
  | _ => false

/-- The steps of an abort timer. -/
def Op.ofTimer : Op → Bool
  | .CheckAborting | .CheckStuck _ | .ToIdle | .ForceIdle => true
  | _ => false

/-- The script of a writer, when it has one. -/
def scriptOf (w : Writer) : List Op :=
  match w.pc with
  | .Finishing _ script => script
  | _ => []

/-- The stats writer of a stream. -/
def Agent.writerOf (a : Agent) (i : Nat) : Option Writer := a.streams[i]?.map (·.writer)

/-- Writers that finish, and timers, take no other steps. -/
structure Scripts (a : Agent) : Prop where
  writers : ∀ i w, a.writerOf i = some w → ∀ op ∈ scriptOf w, op.ofWriter = true
  timers : ∀ g ∈ a.backgrounds, g.timer = true → ∀ op ∈ g.script, op.ofTimer = true

section

variable {a b : Agent} {e : Event}

theorem finishScript_ofWriter (w : Writer) (snapshot : Snapshot) (n : Nat) (ok : Bool)
    (r : Except String Summary) :
    ∀ op ∈ Agent.finishScript w snapshot n ok r, op.ofWriter = true := by
  intro op hop
  cases r with
  | ok s =>
    simp only [Agent.finishScript, List.mem_append, List.mem_map, List.mem_cons,
      List.not_mem_nil, or_false] at hop
    rcases hop with ⟨k, _, rfl⟩ | rfl | rfl | rfl <;> rfl
  | error e =>
    simp only [Agent.finishScript, List.mem_cons, List.not_mem_nil, or_false] at hop
    rcases hop with rfl | rfl | rfl | rfl <;> rfl

theorem modifyStream_writerOf {i : Nat} {f : Stream → Stream} (hf : ∀ s, (f s).writer = s.writer)
    (j : Nat) : (a.modifyStream i f).writerOf j = a.writerOf j := by
  unfold Agent.writerOf Agent.modifyStream
  by_cases hij : i = j
  · subst hij
    simp only [List.getElem?_modify_eq]
    cases a.streams[i]? <;> simp [hf]
  · simp [hij]

/-- The writers stay where they are when one stream changes as a script's step
changes it. -/
theorem sends_writerOf {i : Nat} {msg : Option LiveStats}
    (h : ∃ f, b.streams = a.streams.modify i f ∧ Sends msg f) (j : Nat) :
    b.writerOf j = a.writerOf j := by
  obtain ⟨f, hb, hf⟩ := h
  have hmodify : b.writerOf j = (a.modifyStream i f).writerOf j := by
    unfold Agent.writerOf Agent.modifyStream
    rw [hb]
  rw [hmodify]
  exact modifyStream_writerOf hf.writer j

/-- A step of a script adds at most one background task: a timer. -/
theorem exec_backgrounds {i born : Nat} {op : Op} {next : List Op}
    (h : a.exec i born op = some (b, next)) :
    b.backgrounds = a.backgrounds ∨ ∃ stages_too, b.backgrounds =
      a.backgrounds ++ [⟨born, true, [.CheckAborting, .CheckStuck stages_too]⟩] := by
  rw [(Agent.exec_effect h).backgrounds]
  unfold Agent.backgroundsAfter
  split
  · exact .inr ⟨_, rfl⟩
  · exact .inl rfl

/-- What comes after a step of a writer, and of a timer. -/
theorem exec_next {i born : Nat} {op : Op} {next : List Op}
    (h : a.exec i born op = some (b, next)) :
    (op.ofWriter = true → next = []) ∧
      (op.ofTimer = true → ∀ op' ∈ next, op'.ofTimer = true) := by
  cases op with
  | CheckAborting =>
    cases h
    refine ⟨by simp [Op.ofWriter], fun _ op' hop => ?_⟩
    split at hop <;> simp at hop
    subst hop
    rfl
  | CheckStuck stages_too =>
    refine ⟨by simp [Op.ofWriter], fun _ op' hop => ?_⟩
    simp only [Agent.exec] at h
    split at h <;> cases h
    · obtain rfl := List.mem_singleton.mp hop
      rfl
    · split at hop
      · obtain rfl := List.mem_singleton.mp hop
        rfl
      · cases hop
    · cases hop
  | Put f => cases h; simp
  | Send msg => cases h; simp
  | ToIdle => cases h; simp
  | ToFailed => cases h; simp
  | ForceIdle => cases h; simp
  | _ => simp [Op.ofWriter, Op.ofTimer]

theorem Scripts.kept (h : Scripts a) (hbg : b.backgrounds = a.backgrounds)
    (hw : ∀ j, b.writerOf j = a.writerOf j) : Scripts b :=
  ⟨fun i w hi => h.writers i w (hw i ▸ hi), hbg ▸ h.timers⟩

theorem Scripts.exec {i born : Nat} {op : Op} {next : List Op} (h : Scripts a)
    (hs : a.exec i born op = some (b, next)) : Scripts b := by
  have hw := sends_writerOf (Agent.exec_effect hs).streams
  rcases exec_backgrounds hs with hbg | ⟨stages_too, hbg⟩
  · exact h.kept hbg hw
  · refine ⟨fun i w hi => h.writers i w (hw i ▸ hi), ?_⟩
    intro g hg ht op hop
    rw [hbg] at hg
    rcases List.mem_append.mp hg with hg | hg
    · exact h.timers g hg ht op hop
    · obtain rfl := List.mem_singleton.mp hg
      simp only [List.mem_cons, List.not_mem_nil, or_false] at hop
      rcases hop with rfl | rfl <;> rfl

/-- A stream whose writer is set. -/
theorem writerOf_set {i : Nat} {s s' : Stream} (hs : a.streams[i]? = some s) (j : Nat) :
    ({ a with streams := a.streams.set i s' } : Agent).writerOf j =
      if j = i then some s'.writer else a.writerOf j := by
  have hlt := (List.getElem?_eq_some_iff.mp hs).1
  unfold Agent.writerOf
  by_cases hij : j = i
  · subst hij
    simp [hlt]
  · simp [hij, Ne.symm hij]

/-- A writer that runs no script takes none but the last steps. -/
theorem writes_script {i : Nat} {s s' : Stream} {we : WriterEvent}
    (h : a.writes i s we = some s') : ∀ op ∈ scriptOf s'.writer, op.ofWriter = true := by
  have hnone : ∀ {w : Writer}, (∀ born script, w.pc ≠ .Finishing born script) →
      ∀ op ∈ scriptOf w, op.ofWriter = true := by
    intro w hw op hop
    unfold scriptOf at hop
    split at hop
    · rename_i born script hpc
      exact absurd hpc (hw born script)
    · cases hop
  unfold Agent.writes at h
  simp only at h
  split at h
  · split at h <;> cases h <;> exact hnone (by simp)
  · cases h
    exact hnone (by intro _ _; simp only; split <;> simp)
  · cases h
    exact hnone (by intro _ _; simp only; split <;> simp)
  · split at h <;> first | (cases h; exact hnone (by simp)) | skip
    split at h <;> cases h <;> exact hnone (by simp)
  · split at h <;> cases h <;> exact hnone (by simp)
  · rename_i _ hpc
    cases h
    exact hnone (by simp [hpc])
  · cases h
    exact hnone (by intro _ _; simp only; split <;> simp)
  · split at h
    · cases h
    · split at h <;> cases h
      exact fun op hop => finishScript_ofWriter _ _ _ _ _ op hop
  · split at h <;> cases h
    exact hnone (by simp)
  · cases h
    exact hnone (by simp)
  · cases h

theorem step_scripts (h : Scripts a) (hs : a.step e = some b) : Scripts b := by
  have hnew : ∀ {i script}, a.readsNew i script = some b → Scripts b := by
    intro i script hr
    obtain ⟨_, rfl⟩ := Agent.readsNew_cases hr
    exact h.kept rfl (modifyStream_writerOf fun _ => rfl)
  cases e with
  | Connect =>
    cases hs
    refine ⟨fun i w hi => ?_, h.timers⟩
    obtain ⟨s, hs, rfl⟩ := Option.map_eq_some_iff.mp hi
    rcases Agent.stream_of_connect hs with hold | ⟨_, rfl⟩
    · exact h.writers i s.writer (by simp [Agent.writerOf, hold])
    · simp [scriptOf]
  | Disconnect i =>
    cases hs
    exact h.kept rfl (modifyStream_writerOf fun _ => rfl)
  | Command i m answers => exact hnew hs
  | StreamError i e => exact hnew hs
  | StreamEnd i => exact hnew hs
  | ReadyTimeout i elapsed => exact hnew (Agent.readyTimeout_reads hs)
  | Read i =>
    rcases Agent.read_cases hs with ⟨_, _, rfl⟩ | ⟨op, rest, c, next, _, _, hc, rfl⟩
    · exact h.kept rfl (modifyStream_writerOf fun _ => rfl)
    · exact (h.exec hc).kept rfl (modifyStream_writerOf fun _ => rfl)
  | Write i we =>
    obtain ⟨s, hst, ⟨born, op, rest, c, next, _, hpc, hc, rfl⟩ | ⟨_, s', hw, rfl⟩⟩ :=
      Agent.write_cases hs
    · -- the next of the last steps
      have hold : a.writerOf i = some s.writer := by simp [Agent.writerOf, hst]
      have hscript := h.writers i s.writer hold
      simp only [scriptOf, hpc] at hscript
      have hnext := (exec_next hc).1 (hscript op (by simp))
      have hc' := h.exec hc
      refine ⟨fun j w hj => ?_, hc'.timers⟩
      by_cases hij : i = j
      · subst hij
        simp only [Agent.writerOf, Agent.modifyStream, List.getElem?_modify_eq] at hj
        cases hcs : c.streams[i]? with
        | none => simp [hcs] at hj
        | some s' =>
          simp [hcs] at hj
          subst hj
          intro op' hop
          rw [hnext] at hop
          exact hscript op' (by simp [show op' ∈ rest from hop])
      · have hsame : c.writerOf j = some w := by
          simpa [Agent.writerOf, Agent.modifyStream, hij] using hj
        exact hc'.writers j w hsame
    · refine ⟨fun j w hj => ?_, h.timers⟩
      rw [writerOf_set hst] at hj
      split at hj
      · cases hj
        exact writes_script hw
      · exact h.writers j w hj
  | AbortRpc =>
    cases hs
    refine ⟨h.writers, fun g hg ht op hop => ?_⟩
    rcases List.mem_append.mp hg with hg | hg
    · exact h.timers g hg ht op hop
    · obtain rfl := List.mem_singleton.mp hg
      cases ht
  | Background t =>
    obtain ⟨born, timer, op, rest, c, next, hg, hc, rfl⟩ := Agent.background_cases hs
    have hc' := h.exec hc
    obtain ⟨hnext, hold⟩ : (op.ofTimer = true → ∀ op' ∈ next, op'.ofTimer = true) ∧
        c.backgrounds[t]? = some ⟨born, timer, op :: rest⟩ := by
      refine ⟨(exec_next hc).2, ?_⟩
      rcases exec_backgrounds hc with hbg | ⟨stages_too, hbg⟩
      · rw [hbg, hg]
      · rw [hbg, List.getElem?_append_left (List.getElem?_eq_some_iff.mp hg).1, hg]
    refine ⟨hc'.writers, fun g hg' ht op' hop => ?_⟩
    obtain ⟨j, hj⟩ := List.mem_iff_getElem?.mp hg'
    by_cases hjt : t = j
    · subst hjt
      rw [List.getElem?_modify_eq, hold] at hj
      cases hj
      have hscript := h.timers _ (List.mem_of_getElem? hg) ht
      rcases List.mem_append.mp hop with hop | hop
      · exact hnext (hscript op (by simp)) op' hop
      · exact hscript op' (by simp [hop])
    · rw [List.getElem?_modify_ne _ _ hjt] at hj
      exact hc'.timers g (List.mem_of_getElem? hj) ht op' hop
  | Work w we =>
    obtain ⟨wf, wf', notice, _, _, _, _, hbg, hstreams⟩ := Agent.work_cases hs
    exact h.kept hbg (sends_writerOf hstreams)
  | SendDone w =>
    obtain ⟨wf, r, _, _, _, _, hbg, hstreams⟩ := Agent.sendResult_cases hs
    exact h.kept hbg (sends_writerOf hstreams)

theorem run_scripts {path : Option String} {es : List Event}
    (h : agentMachine.run (Agent.new path) es = some a) : Scripts a := by
  have h0 : Scripts (Agent.new path) :=
    ⟨by simp [Agent.writerOf, Agent.new], by simp [Agent.new]⟩
  exact Machine.run_always (fun _ _ _ hI hs => step_scripts hI hs) h0 h

end

/-! ## Stale steps -/

/-- The step is one of a task of an older workload than the newest: of its
workflow, of a stats writer that has its result, or of a timer of its time. -/
def Stale (a : Agent) : Event → Prop
  | .Work w _ => w + 1 < a.workflows.length
  | .SendDone w => w + 1 < a.workflows.length
  | .Write i .Finish => ∃ w born script, a.writerOf i = some w ∧ w.pc = .Finishing born script ∧
      born < a.workflows.length
  | .Background t => ∃ g, a.backgrounds[t]? = some g ∧ g.timer = true ∧
      g.born < a.workflows.length
  | _ => False

/-- A stale step leaves what the newest workload owns: the state, and the
receivers of its workflow. -/
def Isolated (a : Agent) (e : Event) : Prop :=
  Stale a e → ∀ b, agentMachine.step a e = some b →
    b.state = a.state ∧ ∀ w, w + 1 = a.workflows.length → b.workflows[w]? = a.workflows[w]?

/-- The steps of a writer or a timer that change state `s`. A writer ends
every state but Idle and a stage that executes, and fails every stage. A timer
also forces every state. -/
def Op.Hits (s : WorkloadState) : Op → Prop
  | .ToIdle => s ≠ .Idle ∧ ∀ i name, s ≠ .AtStage i name false
  | .ToFailed => ∃ i name ready, s = .AtStage i name ready
  | .ForceIdle => s ≠ .Idle
  | _ => False

/-- The steps of a workflow that change state `s`. It enters its stage from
the barrier before it (or from the preflight), comes to the barrier of a stage
that executes, and completes from any barrier. -/
def Workflow.Hits (wf : Workflow) (s : WorkloadState) : WorkEvent → Prop
  | .Enter => ∃ i, wf.pc = .Entering i ∧
      ((∃ name, s = .AtStage i name true) ∨ (i = 0 ∧ s = .AtStage 0 "preflight" false))
  | .MarkReady => ∃ i name, wf.pc = .Executed i ∧ s = .AtStage (i + 1) name false
  | .Complete _ => wf.pc = .AllDone ∧ ∃ i name, s = .AtStage i name true
  | _ => False

/-- The step comes while the state is one that it changes. -/
def Hits (a : Agent) : Event → Prop
  | .Work w e => ∃ wf, a.workflows[w]? = some wf ∧ wf.Hits a.state e
  | e => ∃ op, a.nextOp e = some op ∧ op.Hits a.state

section

variable {a b : Agent} {e : Event}

theorem settle_to {s new : WorkloadState} :
    (Move.To new).settle s = s ↔ s = new ∨ can_transition s new = false := by
  unfold Move.settle transition_to
  by_cases hs : s = new
  · simp [hs]
  · by_cases hc : can_transition s new = true
    · simp [hs, hc, Ne.symm hs]
    · simp [hs, hc]

/-- A step of a writer or a timer leaves the state unless it hits it. -/
theorem moved_op {op : Op} (hop : op.ofWriter = true ∨ op.ofTimer = true) :
    a.moved op.move = a.state ↔ ¬ op.Hits a.state := by
  cases op with
  | ToIdle =>
    have hidle := can_transition_idle (s := a.state)
    simp only [Op.move, Agent.moved, Option.map_some, Option.getD_some, settle_to, Op.Hits,
      ← Bool.not_eq_true, hidle]
    tauto
  | ToFailed =>
    have hfailed := can_transition_failed (s := a.state)
    simp only [Op.move, Agent.moved, Option.map_some, Option.getD_some, settle_to, Op.Hits,
      ← Bool.not_eq_true, hfailed]
    cases hs : a.state <;> simp
  | ForceIdle => simp [Op.move, Agent.moved, Move.settle, Op.Hits, eq_comm]
  | Put f => simp [Op.move, Agent.moved, Op.Hits]
  | Send msg => simp [Op.move, Agent.moved, Op.Hits]
  | CheckAborting => simp [Op.move, Agent.moved, Op.Hits]
  | CheckStuck stages_too => simp [Op.move, Agent.moved, Op.Hits]
  | _ => simp [Op.ofWriter, Op.ofTimer] at hop

/-- A step of a workflow leaves the state unless it hits it. -/
theorem moved_work {wf wf' : Workflow} {we : WorkEvent} {notice : Option LiveStats}
    (h : wf.step a.state a.cells.stages we = some (wf', notice)) :
    a.moved ((wf.asks we).map .To) = a.state ↔ ¬ wf.Hits a.state we := by
  cases we with
  | Enter =>
    simp only [Workflow.step] at h
    split at h
    · rename_i i hpc
      split at h
      · cases h
      · rename_i stage hstage
        simp only [Workflow.asks, hpc, hstage, Option.map_some, Agent.moved, Option.getD_some,
          settle_to, ← Bool.not_eq_true, can_transition_enter, Workflow.Hits]
        cases hs : a.state with
        | AtStage j old ready =>
          cases ready
          · simp
            grind
          · simp [eq_comm]
        | _ => simp
    · cases h
  | MarkReady =>
    simp only [Workflow.step] at h
    split at h
    · rename_i i hpc
      split at h
      · cases h
      · rename_i stage hstage
        simp only [Workflow.asks, hpc, hstage, Option.map_some, Agent.moved, Option.getD_some,
          settle_to, ← Bool.not_eq_true, can_transition_ready, Workflow.Hits]
        cases hs : a.state with
        | AtStage j old ready => cases ready <;> simp
        | _ => simp
    · cases h
  | Complete snapshot =>
    simp only [Workflow.step] at h
    split at h
    · rename_i hpc
      simp only [Workflow.asks, hpc, Option.map_some, Agent.moved, Option.getD_some,
          settle_to, ← Bool.not_eq_true, can_transition_completed, Workflow.Hits]
      cases hs : a.state <;> simp
    · cases h
  | _ => simp [Workflow.asks, Agent.moved, Workflow.Hits]

/-- The next step of a stale writer or timer is one of its script. -/
theorem Scripts.next_stale (h : Scripts a) (hst : Stale a e) {op : Op}
    (hop : a.nextOp e = some op) : op.ofWriter = true ∨ op.ofTimer = true := by
  cases e with
  | Write i we =>
    cases we with
    | Finish =>
      obtain ⟨w, born, script, hw, hpc, _⟩ := hst
      have hscript := h.writers i w hw
      obtain ⟨s, hs, rfl⟩ := Option.map_eq_some_iff.mp hw
      simp only [Agent.nextOp, hs, Option.bind_some, hpc] at hop
      simp only [scriptOf, hpc] at hscript
      exact .inl (hscript op (List.mem_of_mem_head? hop))
    | _ => cases hst
  | Background t =>
    obtain ⟨g, hg, ht, _⟩ := hst
    simp only [Agent.nextOp, hg, Option.bind_some] at hop
    exact .inr (h.timers g (List.mem_of_getElem? hg) ht op (List.mem_of_mem_head? hop))
  | Work w we => cases hop
  | SendDone w => cases hop
  | _ => cases hst

/-- A stale step keeps the newest workflow: no release of it is consumed. -/
theorem stale_keeps_newest (h : Scripts a) (hs : a.step e = some b) (hst : Stale a e) :
    ∀ w, w + 1 = a.workflows.length → b.workflows[w]? = a.workflows[w]? := by
  intro w hw
  have hset : ∀ {v : Nat} {wf : Workflow}, v + 1 < a.workflows.length →
      (a.workflows.set v wf)[w]? = a.workflows[w]? :=
    fun hv => List.getElem?_set_ne (by omega)
  rcases Agent.step_workflows hs with ⟨op, i, hop, hb⟩ | ⟨_, ⟨hb, _⟩ |
    ⟨v, we, vf, vf', notice, rfl, _, _, hb⟩ | ⟨v, vf, r, rfl, _, _, hb⟩⟩
  · have hkind := h.next_stale hst hop
    rw [hb]
    cases op <;> first | rfl | simp [Op.ofWriter, Op.ofTimer] at hkind
  · rw [hb]
  · rw [hb]
    exact hset hst
  · rw [hb]
    exact hset hst

/-- A stale step leaves the state exactly when it does not hit it. -/
theorem stale_state_iff (h : Scripts a) (hs : a.step e = some b) (hst : Stale a e) :
    b.state = a.state ↔ ¬ Hits a e := by
  rw [Agent.step_state hs]
  have hop : (∀ w we, e ≠ .Work w we) → (a.moved ((a.nextOp e).bind Op.move) = a.state ↔
      ¬ ∃ op, a.nextOp e = some op ∧ op.Hits a.state) := by
    intro _
    cases hn : a.nextOp e with
    | none => simp [Agent.moved]
    | some op => simpa using moved_op (h.next_stale hst hn)
  cases e with
  | Work w we =>
    simp only [Agent.step, Agent.work] at hs
    split at hs
    · cases hs
    · rename_i wf hwf
      obtain ⟨⟨wf', notice⟩, hstep, _⟩ := Option.map_eq_some_iff.mp hs
      simpa [Agent.moveOf, Hits, hwf] using moved_work hstep
  | SendDone w => simpa [Agent.moveOf, Hits] using hop (by simp)
  | Write i we => simpa [Agent.moveOf, Hits] using hop (by simp)
  | Background t => simpa [Agent.moveOf, Hits] using hop (by simp)
  | _ => cases hst

theorem isolated_iff (h : Scripts a) (hs : a.step e = some b) :
    Isolated a e ↔ (Stale a e → ¬ Hits a e) := by
  constructor
  · intro hi hst
    exact (stale_state_iff h hs hst).mp (hi hst b hs).1
  · intro hn hst c hc
    exact ⟨(stale_state_iff h hc hst).mpr (hn hst), stale_keeps_newest h hc hst⟩

end

/-- The tasks of old workloads stay out of the newest one in a run exactly
when each of their steps comes while the state is not one that it changes. -/
theorem old_tasks_stay_out_iff {path : Option String} {es : List Event} {a : Agent}
    (h : agentMachine.run (Agent.new path) es = some a) :
    agentMachine.Along Isolated (Agent.new path) es ↔
      agentMachine.Along (fun a e => Stale a e → ¬ Hits a e) (Agent.new path) es :=
  Machine.along_congr (I := Scripts) (fun _ _ _ hI hs => step_scripts hI hs)
    (fun _ _ _ hI hs => isolated_iff hI hs)
    ⟨by simp [Agent.writerOf, Agent.new], by simp [Agent.new]⟩ h

/-! ## An abort timer that outlives its workload -/

/-- A START, an abort RPC, and the first check of its timer, which takes the
agent back to Idle. -/
def abortedRun : List Event :=
  .Connect :: startEvents 0 ++ .AbortRpc :: List.replicate 4 (.Background 0) ++
    List.replicate 2 (.Background 1)

/-- Steps that hit no newer workload: commands and their handling, the first
step of a workflow, and a timer while no newer workload is there. -/
def staysOut (a : Agent) : Event → Bool
  | .Connect | .Command _ _ _ | .Read _ | .AbortRpc | .Work _ .LoadStages => true
  | .Background t => a.backgrounds[t]?.all fun g => decide (a.workflows.length ≤ g.born)
  | _ => false

theorem staysOut_holds (a : Agent) (e : Event) (h : staysOut a e = true) : Stale a e → ¬ Hits a e := by
  intro hst hh
  cases e with
  | Work w we =>
    obtain ⟨wf, _, hwf⟩ := hh
    cases we <;> first | (cases hwf; done) | cases h
  | Background t =>
    obtain ⟨g, hg, _, hlt⟩ := hst
    simp only [staysOut, hg, Option.all_some, decide_eq_true_eq] at h
    omega
  | Write i we => cases h
  | SendDone w => cases h
  | _ => cases hst

theorem a_timer_that_ends_in_time_stays_out :
    agentMachine.Along Isolated (Agent.new none)
      (abortedRun ++ .Background 1 :: startEvents 0 ++ [.Work 0 .LoadStages]) := by
  have hrun : ∃ a, agentMachine.run (Agent.new none)
      (abortedRun ++ .Background 1 :: startEvents 0 ++ [.Work 0 .LoadStages]) = some a := ⟨_, rfl⟩
  obtain ⟨a, ha⟩ := hrun
  exact (old_tasks_stay_out_iff ha).mpr (Machine.along_of_check staysOut_holds rfl)

/-- The timer of an aborted workload forces the next workload to Idle. -/
theorem an_old_timer_resets_the_new_workload :
    ∃ a b, agentMachine.run (Agent.new none) (abortedRun ++ startEvents 0 ++ [.Background 1]) =
        some a ∧
      a.workflows.length = 2 ∧ a.state = .AtStage 0 "preflight" false ∧
      agentMachine.step a (.Background 1) = some b ∧ b.state = .Idle ∧
      ¬ agentMachine.Along Isolated (Agent.new none)
        (abortedRun ++ startEvents 0 ++ [.Background 1] ++ [.Background 1]) := by
  have hrun : ∃ a b, agentMachine.run (Agent.new none)
        (abortedRun ++ startEvents 0 ++ [.Background 1]) = some a ∧
      a.workflows.length = 2 ∧ a.state = .AtStage 0 "preflight" false ∧
      agentMachine.step a (.Background 1) = some b ∧ b.state = .Idle ∧
      Stale a (.Background 1) :=
    ⟨_, _, rfl, rfl, rfl, rfl, rfl, _, rfl, rfl, by decide⟩
  obtain ⟨a, b, ha, hlen, hsa, hb, hsb, hst⟩ := hrun
  refine ⟨a, b, ha, hlen, hsa, hb, hsb, fun hA => ?_⟩
  have hi : Isolated a (.Background 1) := ((Machine.along_snoc ha).mp hA).2
  have hsame := (hi hst b hb).1
  rw [hsa, hsb] at hsame
  cases hsame

end sai3_bench.agent
