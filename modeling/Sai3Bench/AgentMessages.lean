-- The messages with which an agent says that it is at a barrier: which of its
-- tasks send them, and where the task stands then.
import Sai3Bench.StaleTasks

namespace sai3_bench.agent

open config machines pb

/-! ## Scripts that send no such message -/

/-- What the step sends, if it sends a message, is not at a barrier. -/
def Op.Quiet : Op → Prop
  | .Named msg | .NamedOrBreak msg => ∀ id, (msg id).at_barrier = false
  | .Send msg | .SendOrBreak msg => msg.at_barrier = false
  | _ => True

def QuietScript (script : List Op) : Prop := ∀ op ∈ script, op.Quiet

structure Stream.Quiet (s : Stream) : Prop where
  reader : ∀ script, s.reader = some script → QuietScript script
  writer : QuietScript (scriptOf s.writer)

section

variable {a b : Agent} {i born : Nat} {op : Op} {next : List Op}

@[simp] theorem quietScript_nil : QuietScript [] := by simp [QuietScript]

@[simp] theorem quietScript_cons {script : List Op} :
    QuietScript (op :: script) ↔ op.Quiet ∧ QuietScript script := by
  simp [QuietScript]

@[simp] theorem quietScript_append {xs ys : List Op} :
    QuietScript (xs ++ ys) ↔ QuietScript xs ∧ QuietScript ys := by
  simp [QuietScript, or_imp, forall_and]

theorem startScript_quiet (path : Option String) (m : ControlMessage) (answers : Answers) :
    QuietScript (startScript path m answers) := by
  unfold startScript
  rw [quietScript_append]
  refine ⟨by simp [Op.Quiet], ?_⟩
  split
  · simp [Op.Quiet]
  · split <;> simp [Op.Quiet]

theorem handle_quiet (m : ControlMessage) (answers : Answers) : QuietScript (handle m answers) := by
  unfold handle
  split <;> simp [Op.Quiet, ackStats, abortedStats, preflightStats, resetStats, syncStats]

theorem disconnectScript_quiet (s : WorkloadState) : QuietScript (disconnectScript s) := by
  unfold disconnectScript
  split <;> simp [Op.Quiet]

theorem abortScript_quiet (s : WorkloadState) : QuietScript (abortScript s) := by
  unfold abortScript
  split <;> simp [Op.Quiet]

theorem readyTimeoutScript_quiet (n : Nat) : QuietScript (Agent.readyTimeoutScript n) := by
  simp [Agent.readyTimeoutScript, Op.Quiet, errorStats]

theorem finishScript_quiet (w : Writer) (snapshot : Snapshot) (n : Nat) (ok : Bool)
    (r : Except String Summary) : QuietScript (Agent.finishScript w snapshot n ok r) := by
  cases r with
  | ok summary =>
    unfold Agent.finishScript
    rw [quietScript_append]
    refine ⟨?_, by simp [Op.Quiet, completedStats, lastStats, runningStats]⟩
    intro op hop
    obtain ⟨k, _, rfl⟩ := List.mem_map.mp hop
    simp [Op.Quiet, lastStats, runningStats]
  | error e => simp [Agent.finishScript, Op.Quiet, errorStats]

/-- What comes after a quiet step is quiet. -/
theorem exec_quiet (h : a.exec i born op = some (b, next)) (hop : op.Quiet) : QuietScript next := by
  cases op with
  | TxDone r =>
    simp only [Agent.exec, Option.map_eq_some_iff, Prod.mk.injEq] at h
    obtain ⟨_, _, _, rfl⟩ := h
    exact quietScript_nil
  | Named msg =>
    cases h
    simpa [Op.Quiet] using hop a.agentName
  | NamedOrBreak msg =>
    cases h
    simpa [Op.Quiet] using hop a.agentName
  | SendOrBreak msg =>
    simp only [Agent.exec] at h
    split at h <;> cases h <;> simp [Op.Quiet]
  | Start m answers =>
    simp only [Agent.exec] at h
    split at h <;> cases h
    · exact startScript_quiet _ m answers
    · simp [Op.Quiet]
  | BeginOpLog base m answers stages =>
    simp only [Agent.exec] at h
    split at h <;> cases h <;> simp [Op.Quiet, errorStats]
  | EnterPreflight path =>
    simp only [Agent.exec] at h
    split at h <;> cases h <;> simp [Op.Quiet]
  | StreamError e =>
    simp only [Agent.exec] at h
    split at h <;> cases h <;> simp [Op.Quiet, errorStats]
  | Disconnect =>
    cases h
    exact disconnectScript_quiet a.state
  | AbortRpc =>
    cases h
    exact abortScript_quiet a.state
  | CheckAborting =>
    cases h
    split <;> simp [Op.Quiet]
  | CheckStuck stages_too =>
    simp only [Agent.exec] at h
    split at h <;> cases h
    · simp [Op.Quiet]
    · split <;> simp [Op.Quiet]
    · simp
  | _ =>
    cases h
    simp [Op.Quiet]

theorem Op.Quiet.sends {msg : LiveStats} (h : op.Quiet) (hs : op.sends = some msg) :
    msg.at_barrier = false := by
  cases op <;> cases hs <;> exact h

end

/-! ## What a step does to a stream -/

/-- The writer sends READY, again and again. -/
def SaysReady (w : Writer) : Prop :=
  match w.pc with
  | .SendReady | .ReadySleep _ | .ReadyCheck _ => True
  | _ => False

/-- A stage has run and waits at its barrier. -/
def WorkloadState.isReady : WorkloadState → Bool
  | .AtStage _ _ ready => ready
  | _ => false

def Writer.waitsForStart (w : Writer) : Bool :=
  match w.pc with
  | .WaitStart => true
  | _ => false

/-- The stats writer of stream `j` waits for its START, and finds the state
of the agent ready. -/
def Agent.findsReady (a : Agent) (j : Nat) : Event → Bool
  | .Write i .Poll => i = j && a.state.isReady && (a.writerOf j).any (·.waitsForStart)
  | _ => false

/-- The number of the barrier where a workflow waits. -/
def Workflow.standsAt (wf : Workflow) : Option Nat :=
  match wf.pc with
  | .AtBarrier _ _ _ w => some w.barrier_index
  | _ => none

/-- What a step makes of stream `j`. A message at a barrier is READY, or the
notice of a workflow that waits there. -/
structure StreamSteps (a : Agent) (e : Event) (j : Nat) (s s' : Stream) : Prop where
  quiet : s.Quiet → s'.Quiet
  ready : SaysReady s'.writer → SaysReady s.writer ∨ a.findsReady j e = true
  sent : ∀ m ∈ s'.sent, m.at_barrier = true → m ∈ s.sent ∨
    (SaysReady s.writer ∧ m.barrier_sequence = 0) ∨ ¬ s.Quiet ∨
    ∃ wf ∈ a.workflows, wf.stream = j ∧ wf.standsAt = some m.barrier_sequence

section

variable {a b : Agent} {e : Event} {i j : Nat} {s s' : Stream}

/-- A step that leaves the reader, the writer and what was sent. -/
theorem StreamSteps.frame (hr : s'.reader = s.reader) (hw : s'.writer = s.writer)
    (hs : s'.sent = s.sent) : StreamSteps a e j s s' where
  quiet := fun h => ⟨hr ▸ h.reader, hw ▸ h.writer⟩
  ready := fun h => .inl (hw ▸ h)
  sent := fun _ hm _ => .inl (hs ▸ hm)

/-- A change of the stream that sends at most a message of the kinds allowed. -/
theorem Sends.steps {msg : Option LiveStats} {f : Stream → Stream} (h : Sends msg f)
    (hmsg : ∀ m, msg = some m → m.at_barrier = true →
      (SaysReady s.writer ∧ m.barrier_sequence = 0) ∨ ¬ s.Quiet ∨
        ∃ wf ∈ a.workflows, wf.stream = j ∧ wf.standsAt = some m.barrier_sequence) :
    StreamSteps a e j s (f s) where
  quiet := fun hq => ⟨h.reader s ▸ hq.reader, h.writer s ▸ hq.writer⟩
  ready := fun hr => .inl (h.writer s ▸ hr)
  sent := by
    intro m hm hbar
    rcases h.sent s m hm with hold | hnew
    · exact .inl hold
    · exact .inr (hmsg m hnew hbar)

/-- One stream changes, and the others stay. -/
theorem streamSteps_modify {f : Stream → Stream} (hb : b.streams = a.streams.modify i f)
    (hf : ∀ s, a.streams[i]? = some s → StreamSteps a e i s (f s)) (hj : b.streams[j]? = some s') :
    ∃ s, a.streams[j]? = some s ∧ StreamSteps a e j s s' := by
  rw [hb] at hj
  by_cases hij : i = j
  · subst hij
    rw [List.getElem?_modify_eq] at hj
    obtain ⟨s, hs, rfl⟩ := Option.map_eq_some_iff.mp hj
    exact ⟨s, hs, hf s hs⟩
  · rw [List.getElem?_modify_ne _ _ hij] at hj
    exact ⟨s', hj, .frame rfl rfl rfl⟩

theorem quiet_of_pc {w : Writer} (h : ∀ born script, w.pc ≠ .Finishing born script) :
    QuietScript (scriptOf w) := by
  unfold scriptOf
  split
  · rename_i born script hpc
    exact absurd hpc (h born script)
  · exact quietScript_nil

/-- The writer goes on and sends nothing. -/
theorem StreamSteps.goes {pc : WriterPc} (hpc : ∀ born script, pc ≠ .Finishing born script)
    (hready : SaysReady { s.writer with pc := pc } → SaysReady s.writer ∨ a.findsReady j e = true) :
    StreamSteps a e j s { s with writer := { s.writer with pc := pc } } where
  quiet := fun h => ⟨h.reader, quiet_of_pc hpc⟩
  ready := hready
  sent := fun _ hm _ => .inl hm

/-- The writer sends a message and goes on. -/
theorem StreamSteps.sends {msg : LiveStats} {w : Writer}
    (hw : ∀ born script, w.pc ≠ .Finishing born script)
    (hready : SaysReady w → SaysReady s.writer)
    (hmsg : msg.at_barrier = true → SaysReady s.writer ∧ msg.barrier_sequence = 0) :
    StreamSteps a e j s { s.send msg with writer := w } where
  quiet := fun h => ⟨Stream.send_reader (s := s) msg ▸ h.reader, quiet_of_pc hw⟩
  ready := fun h => .inl (hready h)
  sent := by
    intro m hm hb
    rcases mem_send hm with hm | rfl
    · exact .inl hm
    · exact .inr (.inl (hmsg hb))

/-- A step of a writer that runs no script. -/
theorem writes_stream {we : WriterEvent} (hs : a.streams[i]? = some s)
    (h : a.writes i s we = some s') : StreamSteps a (.Write i we) i s s' := by
  have hwriter : a.writerOf i = some s.writer := by simp [Agent.writerOf, hs]
  unfold Agent.writes at h
  dsimp only at h
  split at h
  case h_1 hpc =>
    split at h <;> cases h
    · rename_i hstate
      refine .goes (by simp) fun _ => .inr ?_
      simp [Agent.findsReady, WorkloadState.isReady, Writer.waitsForStart, hstate, hwriter, hpc]
    all_goals exact .goes (by simp) (by simp [SaysReady])
  case h_2 hpc =>
    cases h
    have hsaid : SaysReady s.writer := by simp [SaysReady, hpc]
    exact .sends (by intro _ _; dsimp only; split <;> simp) (fun _ => hsaid) fun _ => ⟨hsaid, rfl⟩
  case h_3 hpc =>
    cases h
    have hsaid : SaysReady s.writer := by simp [SaysReady, hpc]
    exact .sends (by intro _ _; dsimp only; split <;> simp) (fun _ => hsaid) fun _ => ⟨hsaid, rfl⟩
  case h_4 hpc =>
    have hsaid : SaysReady s.writer := by simp [SaysReady, hpc]
    split at h
    case h_5 =>
      split at h <;> cases h <;> exact .goes (by simp) fun _ => .inl hsaid
    all_goals
      cases h
      exact .goes (by simp) fun _ => .inl hsaid
  case h_5 =>
    split at h <;> cases h <;> exact .goes (by simp) (by simp [SaysReady])
  case h_6 hpc =>
    cases h
    refine ⟨fun hq => ⟨hq.reader, quiet_of_pc (by simp [hpc])⟩, fun hr => ?_, fun _ hm _ => .inl hm⟩
    simp [SaysReady, hpc] at hr
  case h_7 hpc =>
    cases h
    refine .sends (by intro _ _; dsimp only; split <;> simp) (fun hr => ?_) fun hb => ?_
    · cases hc : s.connected <;> simp [SaysReady, hc] at hr
    · simp [runningStats] at hb
  case h_8 =>
    split at h
    · cases h
    · split at h <;> cases h
      exact ⟨fun hq => ⟨hq.reader, finishScript_quiet _ _ _ _ _⟩, by simp [SaysReady],
        fun _ hm _ => .inl hm⟩
  case h_9 =>
    split at h <;> cases h
    exact .goes (by simp) (by simp [SaysReady])
  case h_10 =>
    cases h
    exact .goes (by simp) (by simp [SaysReady])
  case h_11 => cases h

/-- A script's step, and then the rest of the script takes its place. -/
theorem script_stream {c : Agent} {born : Nat} {op : Op} {next : List Op} {g : Stream → Stream}
    (hc : a.exec i born op = some (c, next)) (hb : b.streams = c.streams.modify i g)
    (hop : ∀ s, a.streams[i]? = some s → s.Quiet → op.Quiet)
    (hg : ∀ s t, a.streams[i]? = some s → s.Quiet → QuietScript next → t.reader = s.reader →
      t.writer = s.writer → (g t).Quiet)
    (hsent : ∀ t, (g t).sent = t.sent)
    (hready : ∀ s t, a.streams[i]? = some s → t.writer = s.writer → ¬ SaysReady (g t).writer ∨
      (g t).writer = s.writer)
    (hj : b.streams[j]? = some s') : ∃ s, a.streams[j]? = some s ∧ StreamSteps a e j s s' := by
  obtain ⟨f, hf, hsends⟩ := (Agent.exec_effect hc).streams
  rw [hf, List.modify_modify_eq] at hb
  refine streamSteps_modify hb (fun s hs => ?_) hj
  have hr := hsends.reader s
  have hw := hsends.writer s
  refine ⟨fun hq => hg s (f s) hs hq (exec_quiet hc (hop s hs hq)) hr hw, fun hsaid => ?_, ?_⟩
  · rcases hready s (f s) hs hw with hnot | hsame
    · exact absurd hsaid hnot
    · exact .inl (hsame ▸ hsaid)
  · intro m hm hbar
    rw [Function.comp_apply, hsent] at hm
    rcases hsends.sent s m hm with hold | hmsg
    · exact .inl hold
    · refine .inr (.inr (.inl fun hq => ?_))
      rw [(hop s hs hq).sends hmsg] at hbar
      cases hbar

/-- What one step of the agent does to one of its streams. -/
theorem step_stream (h : a.step e = some b) (hj : b.streams[j]? = some s') :
    (a.streams[j]? = none ∧ s' = {}) ∨ ∃ s, a.streams[j]? = some s ∧ StreamSteps a e j s s' := by
  have hsame : b.streams = a.streams → ∃ s, a.streams[j]? = some s ∧ StreamSteps a e j s s' :=
    fun hb => ⟨s', hb ▸ hj, .frame rfl rfl rfl⟩
  have hnew : ∀ {i script}, QuietScript script → a.readsNew i script = some b →
      ∃ s, a.streams[j]? = some s ∧ StreamSteps a e j s s' := by
    intro i script hscript hr
    obtain ⟨_, rfl⟩ := Agent.readsNew_cases hr
    refine streamSteps_modify rfl (fun s _ => ?_) hj
    refine ⟨fun hq => ⟨?_, hq.writer⟩, fun hr => .inl hr, fun _ hm _ => .inl hm⟩
    rintro _ ⟨⟩
    exact hscript
  cases e with
  | Connect =>
    cases h
    rcases Agent.stream_of_connect hj with hold | hopened
    · exact .inr ⟨s', hold, .frame rfl rfl rfl⟩
    · exact .inl hopened
  | Disconnect i =>
    cases h
    exact .inr (streamSteps_modify (f := fun s => { s with connected := false }) rfl
      (fun s _ => .frame rfl rfl rfl) hj)
  | Command i m answers => exact .inr (hnew (handle_quiet m answers) h)
  | StreamError i e => exact .inr (hnew (by simp [Op.Quiet]) h)
  | StreamEnd i => exact .inr (hnew (by simp [Op.Quiet]) h)
  | ReadyTimeout i elapsed =>
    exact .inr (hnew (readyTimeoutScript_quiet elapsed) (Agent.readyTimeout_reads h))
  | Read i =>
    refine .inr ?_
    rcases Agent.read_cases h with ⟨_, _, rfl⟩ | ⟨op, rest, c, next, _, hreader, hc, rfl⟩
    · refine streamSteps_modify rfl (fun s _ => ?_) hj
      exact ⟨fun hq => ⟨by simp, hq.writer⟩, fun hr => .inl hr, fun _ hm _ => .inl hm⟩
    · have hscript : ∀ s, a.streams[i]? = some s → s.Quiet → op.Quiet ∧ QuietScript rest := by
        intro s hs hq
        rw [hs, Option.bind_some] at hreader
        exact quietScript_cons.mp (hq.reader _ hreader)
      refine script_stream (g := fun s => { s with reader := some (next ++ rest) }) hc rfl
        (fun s hs hq => (hscript s hs hq).1) ?_ (fun _ => rfl) (fun _ _ _ hw => .inr hw) hj
      intro s t hs hq hnext _ hw
      refine ⟨?_, hw ▸ hq.writer⟩
      rintro _ ⟨⟩
      exact quietScript_append.mpr ⟨hnext, (hscript s hs hq).2⟩
  | Write i we =>
    refine .inr ?_
    obtain ⟨s, hs, ⟨born, op, rest, c, next, _, hpc, hc, rfl⟩ | ⟨_, t, ht, rfl⟩⟩ :=
      Agent.write_cases h
    · have hscript : ∀ t, a.streams[i]? = some t → t.Quiet → op.Quiet ∧ QuietScript rest := by
        intro t ht hq
        cases hs.symm.trans ht
        have hw := hq.writer
        simp only [scriptOf, hpc] at hw
        exact quietScript_cons.mp hw
      refine script_stream (g := fun s => { s with
          writer := { s.writer with pc := .Finishing born (next ++ rest) } }) hc rfl
        (fun t ht hq => (hscript t ht hq).1) ?_ (fun _ => rfl)
        (fun _ _ _ _ => .inl (by simp [SaysReady])) hj
      intro t u ht hq hnext hr _
      exact ⟨hr ▸ hq.reader, quietScript_append.mpr ⟨hnext, (hscript t ht hq).2⟩⟩
    · have hset : a.streams.set i t = a.streams.modify i fun _ => t := by
        rw [List.set_eq_modify]
      refine streamSteps_modify hset (fun u hu => ?_) hj
      cases hs.symm.trans hu
      exact writes_stream hs ht
  | AbortRpc =>
    cases h
    exact .inr (hsame rfl)
  | Background t =>
    obtain ⟨born, timer, op, rest, c, next, _, hc, rfl⟩ := Agent.background_cases h
    obtain ⟨f, hf, _⟩ := (Agent.exec_effect hc).streams
    refine .inr (hsame ?_)
    rw [hf, List.modify_eq_self (by simp)]
  | Work w we =>
    obtain ⟨wf, wf', notice, hwf, hst, _, _, _, f, hb, hf⟩ := Agent.work_cases h
    refine .inr (streamSteps_modify hb (fun s _ => hf.steps ?_) hj)
    rintro m rfl hbar
    -- the notice of a workflow that waits
    rcases Workflow.step_notice hst with ⟨hnone, _⟩ |
      ⟨snap, i, stage, summary, bw, _, hpc, _, hmsg, _⟩
    · cases hnone
    · cases hmsg
      refine .inr (.inr ⟨wf, List.mem_of_getElem? hwf, rfl, ?_⟩)
      simp [Workflow.standsAt, hpc, barrierStats]
  | SendDone w =>
    obtain ⟨wf, r, _, _, _, _, _, f, hb, hf⟩ := Agent.sendResult_cases h
    exact .inr (streamSteps_modify hb (fun s _ => hf.steps fun _ hm => by cases hm) hj)

end

end sai3_bench.agent
