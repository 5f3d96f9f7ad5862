-- What one step of the agent can do to the workload state and to the
-- workflows. The laws of the agent rest on these lemmas, not on the tasks.
import Sai3Bench.AgentTasks

namespace sai3_bench.agent

open broadcasts machines pb

namespace Agent

/-- The step that an event takes next, when it is one of a reader, of a
writer that finishes, or of an abort RPC. -/
def nextOp (a : Agent) : Event → Option Op
  | .Read i => (a.streams[i]?.bind (·.reader)).bind List.head?
  | .Write i .Finish => a.streams[i]?.bind fun s => match s.writer.pc with
    | .Finishing _ script => script.head?
    | _ => none
  | .Background t => a.backgrounds[t]?.bind (·.script.head?)
  | _ => none

/-- The write of the workload state that an event asks for. -/
def moveOf (a : Agent) : Event → Option Move
  | .Work w e => a.workflows[w]?.bind fun wf => (wf.asks e).map .To
  | e => (a.nextOp e).bind Op.move

variable {a b : Agent} {e : Event}

theorem readsNew_cases {i : Nat} {script : List Op} (h : a.readsNew i script = some b) :
    a.streams[i]?.bind (·.reader) = some [] ∧
      b = a.modifyStream i fun s => { s with reader := some script } := by
  unfold readsNew at h
  split at h <;> cases h
  rename_i hreader
  exact ⟨hreader, rfl⟩

theorem readsNew_frame {i : Nat} {script : List Op} (h : a.readsNew i script = some b) :
    b.state = a.state ∧ b.workflows = a.workflows := by
  obtain ⟨_, rfl⟩ := readsNew_cases h
  exact ⟨rfl, rfl⟩

/-! ## One step of a script -/

/-- The workflows after a step of a script. -/
def workflowsAfter (a : Agent) (i : Nat) : Op → List Workflow
  | .SendAbort => a.workflows.map (·.hearAbort)
  | .Release k => a.workflows.map (·.hear (k, k))
  | .Spawn w id => a.workflows.modify w (·.spawn id)
  | .EnterPreflight _ =>
    if (transition_to a.state (.AtStage 0 "preflight" false)).isSome then
      a.workflows ++ [⟨i, "", [], .Pending, Receiver.subscribe⟩]
    else a.workflows
  | _ => a.workflows

/-- The background tasks after a step of a script: an abort starts its timer. -/
def backgroundsAfter (a : Agent) (born : Nat) : Op → List Background
  | .SpawnTimer stages_too =>
    a.backgrounds ++ [⟨born, true, [.CheckAborting, .CheckStuck stages_too]⟩]
  | _ => a.backgrounds

end Agent

/-- The message that a step of a script sends. -/
def Op.sends : Op → Option LiveStats
  | .Send msg | .SendOrBreak msg => some msg
  | _ => none

namespace Stream

variable {s : Stream}

@[simp] theorem send_connected (msg : LiveStats) : (s.send msg).connected = s.connected := by
  unfold send
  split <;> rfl

@[simp] theorem send_reader (msg : LiveStats) : (s.send msg).reader = s.reader := by
  unfold send
  split <;> rfl

@[simp] theorem send_writer (msg : LiveStats) : (s.send msg).writer = s.writer := by
  unfold send
  split <;> rfl

@[simp] theorem send_done (msg : LiveStats) : (s.send msg).done = s.done := by
  unfold send
  split <;> rfl

end Stream

theorem mem_send {s : Stream} {msg m : LiveStats} (h : m ∈ (s.send msg).sent) :
    m ∈ s.sent ∨ m = msg := by
  unfold Stream.send at h
  split at h
  · simpa using h
  · exact .inl h

/-- A change of a stream that leaves its tasks, and sends at most one message. -/
structure Sends (msg : Option LiveStats) (f : Stream → Stream) : Prop where
  reader : ∀ s, (f s).reader = s.reader
  writer : ∀ s, (f s).writer = s.writer
  sent : ∀ s, ∀ m ∈ (f s).sent, m ∈ s.sent ∨ msg = some m

theorem sends_none (msg : Option LiveStats) : Sends msg id :=
  ⟨fun _ => rfl, fun _ => rfl, fun _ _ hm => .inl hm⟩

theorem sends_one (msg : LiveStats) : Sends (some msg) (·.send msg) where
  reader := fun _ => Stream.send_reader msg
  writer := fun _ => Stream.send_writer msg
  sent := by
    intro s m hm
    rcases mem_send hm with hold | rfl
    · exact .inl hold
    · exact .inr rfl

theorem sends_done (msg : Option LiveStats) (d : Done) :
    Sends msg fun s => { s with done := some d } :=
  ⟨fun _ => rfl, fun _ => rfl, fun _ _ hm => .inl hm⟩

namespace Agent

/-- What a step of a script does: it touches its own stream only. -/
structure Effect (a : Agent) (i born : Nat) (op : Op) (b : Agent) : Prop where
  state : b.state = a.moved op.move
  workflows : b.workflows = a.workflowsAfter i op
  backgrounds : b.backgrounds = a.backgroundsAfter born op
  streams : ∃ f, b.streams = a.streams.modify i f ∧ Sends op.sends f

variable {a b : Agent}

theorem same_streams {i : Nat} {msg : Option LiveStats} (h : b.streams = a.streams) :
    ∃ f, b.streams = a.streams.modify i f ∧ Sends msg f :=
  ⟨id, by rw [h, List.modify_id], sends_none msg⟩

theorem sendDone_effect {i : Nat} {d : Done} (h : a.sendDone i d = some b) :
    b.state = a.state ∧ b.workflows = a.workflows ∧ b.backgrounds = a.backgrounds ∧
      ∃ f, b.streams = a.streams.modify i f ∧ Sends none f := by
  unfold sendDone at h
  split at h
  · cases h
  · split at h
    · cases h
      exact ⟨rfl, rfl, rfl, same_streams rfl⟩
    · split at h <;> cases h
      exact ⟨rfl, rfl, rfl, _, rfl, sends_done _ d⟩

theorem exec_effect {i born : Nat} {op : Op} {next : List Op}
    (h : a.exec i born op = some (b, next)) : Effect a i born op b := by
  cases op with
  | TxDone r =>
    simp only [exec, Option.map_eq_some_iff, Prod.mk.injEq] at h
    obtain ⟨c, hc, rfl, _⟩ := h
    obtain ⟨hst, hwf, hbg, hs⟩ := sendDone_effect hc
    exact ⟨hst, hwf, hbg, hs⟩
  | Send msg =>
    cases h
    exact ⟨rfl, rfl, rfl, _, rfl, sends_one msg⟩
  | SendOrBreak msg =>
    simp only [exec] at h
    split at h <;> cases h
    · exact ⟨rfl, rfl, rfl, _, rfl, sends_one msg⟩
    · exact ⟨rfl, rfl, rfl, same_streams rfl⟩
  | Start m answers =>
    simp only [exec] at h
    split at h <;> cases h <;> exact ⟨rfl, rfl, rfl, same_streams rfl⟩
  | BeginOpLog base m answers stages =>
    simp only [exec] at h
    split at h <;> cases h <;> exact ⟨rfl, rfl, rfl, same_streams rfl⟩
  | EnterPreflight path =>
    simp only [exec] at h
    split at h
    · rename_i hok
      cases h
      exact ⟨rfl, by simp [workflowsAfter, hok], rfl, same_streams rfl⟩
    · rename_i hno
      cases h
      refine ⟨?_, by simp [workflowsAfter, hno], rfl, same_streams rfl⟩
      have : transition_to a.state (.AtStage 0 "preflight" false) = none := by simpa using hno
      simp [moved, Op.move, Move.settle, this]
  | StreamError e =>
    simp only [exec] at h
    split at h <;> cases h <;> exact ⟨rfl, rfl, rfl, same_streams rfl⟩
  | CheckStuck stages_too =>
    simp only [exec] at h
    split at h <;> cases h <;> exact ⟨rfl, rfl, rfl, same_streams rfl⟩
  | _ => cases h; exact ⟨rfl, rfl, rfl, same_streams rfl⟩

/-! ## One step of the agent -/

/-- A stream of an agent that has one more. -/
theorem stream_of_connect {j : Nat} {s : Stream} (h : (a.streams ++ [({} : Stream)])[j]? = some s) :
    a.streams[j]? = some s ∨ a.streams[j]? = none ∧ s = {} := by
  rw [List.getElem?_append] at h
  split at h
  · exact .inl h
  · rename_i hge
    obtain rfl := List.mem_singleton.mp (List.mem_of_getElem? h)
    exact .inr ⟨List.getElem?_eq_none (Nat.le_of_not_lt hge), rfl⟩

/-- A step of a reader: the end of its script, or the next operation of it. -/
theorem read_cases {i : Nat} (h : a.read i = some b) :
    (∃ rest, a.streams[i]?.bind (·.reader) = some (.Return :: rest) ∧
      b = a.modifyStream i fun s => { s with reader := none }) ∨
    ∃ op rest c next, op ≠ .Return ∧ a.streams[i]?.bind (·.reader) = some (op :: rest) ∧
      a.exec i a.workflows.length op = some (c, next) ∧
      b = c.modifyStream i fun s => { s with reader := some (next ++ rest) } := by
  unfold read at h
  split at h
  · rename_i rest hreader
    cases h
    exact .inl ⟨rest, hreader, rfl⟩
  · rename_i op rest hop hreader
    obtain ⟨⟨c, next⟩, hc, rfl⟩ := Option.map_eq_some_iff.mp h
    exact .inr ⟨op, rest, c, next, hop, hreader, hc, rfl⟩
  · cases h

/-- A step of a stats writer: the next of its last operations, or its loop. -/
theorem write_cases {i : Nat} {we : WriterEvent} (h : a.write i we = some b) :
    ∃ s, a.streams[i]? = some s ∧
      ((∃ born op rest c next, we = .Finish ∧ s.writer.pc = .Finishing born (op :: rest) ∧
          a.exec i born op = some (c, next) ∧ b = c.modifyStream i fun s => { s with
            writer := { s.writer with pc := .Finishing born (next ++ rest) } }) ∨
        (we = .Finish → ∀ born op rest, s.writer.pc ≠ .Finishing born (op :: rest)) ∧
          ∃ s', a.writes i s we = some s' ∧ b = { a with streams := a.streams.set i s' }) := by
  unfold write at h
  split at h
  · cases h
  rename_i s hs
  refine ⟨s, hs, ?_⟩
  split at h
  · rename_i born op rest hpc
    obtain ⟨⟨c, next⟩, hc, rfl⟩ := Option.map_eq_some_iff.mp h
    exact .inl ⟨born, op, rest, c, next, rfl, hpc, hc, rfl⟩
  · rename_i hno
    obtain ⟨s', hw, rfl⟩ := Option.map_eq_some_iff.mp h
    exact .inr ⟨fun hwe born op rest hpc => hno born op rest hpc hwe, s', hw, rfl⟩

/-- A step of an abort RPC or of a timer. -/
theorem background_cases {t : Nat} (h : a.background t = some b) :
    ∃ born timer op rest c next, a.backgrounds[t]? = some ⟨born, timer, op :: rest⟩ ∧
      a.exec a.streams.length born op = some (c, next) ∧
      b = { c with
        backgrounds := c.backgrounds.modify t fun g => { g with script := next ++ rest } } := by
  unfold background at h
  split at h
  · rename_i born timer op rest hg
    obtain ⟨⟨c, next⟩, hc, rfl⟩ := Option.map_eq_some_iff.mp h
    exact ⟨born, timer, op, rest, c, next, hg, hc, rfl⟩
  · cases h

theorem read_effect {i : Nat} (h : a.read i = some b) :
    ∃ op, a.nextOp (.Read i) = some op ∧ b.state = a.moved op.move ∧
      b.workflows = a.workflowsAfter i op := by
  rcases read_cases h with ⟨rest, hreader, rfl⟩ | ⟨op, rest, c, next, _, hreader, hc, rfl⟩
  · exact ⟨.Return, by simp [nextOp, hreader], rfl, rfl⟩
  · have heffect := exec_effect hc
    exact ⟨op, by simp [nextOp, hreader], heffect.state, heffect.workflows⟩

theorem background_effect {t : Nat} (h : a.background t = some b) :
    ∃ op, a.nextOp (.Background t) = some op ∧ b.state = a.moved op.move ∧
      b.workflows = a.workflowsAfter a.streams.length op := by
  obtain ⟨born, timer, op, rest, c, next, hg, hc, rfl⟩ := background_cases h
  have heffect := exec_effect hc
  exact ⟨op, by simp [nextOp, hg], heffect.state, heffect.workflows⟩

/-- A writer either runs a step of its script or leaves the state alone. -/
theorem write_effect {i : Nat} {we : WriterEvent} (h : a.write i we = some b) :
    (a.nextOp (.Write i we) = none ∧ b.state = a.state ∧ b.workflows = a.workflows) ∨
    ∃ op, a.nextOp (.Write i we) = some op ∧ b.state = a.moved op.move ∧
      b.workflows = a.workflowsAfter i op := by
  obtain ⟨s, hs, ⟨born, op, rest, c, next, rfl, hpc, hc, rfl⟩ | ⟨hno, s', _, rfl⟩⟩ := write_cases h
  · have heffect := exec_effect hc
    exact .inr ⟨op, by simp [nextOp, hs, hpc], heffect.state, heffect.workflows⟩
  · refine .inl ⟨?_, rfl, rfl⟩
    cases we with
    | Finish =>
      simp only [nextOp, hs, Option.bind_some]
      split
      · rename_i born script hpc
        cases script with
        | nil => rfl
        | cons op rest => exact absurd hpc (hno rfl born op rest)
      · rfl
    | _ => rfl

theorem readyTimeout_reads {i elapsed : Nat} (h : a.step (.ReadyTimeout i elapsed) = some b) :
    a.readsNew i (readyTimeoutScript elapsed) = some b := by
  simp only [step] at h
  split at h
  · split at h
    · exact h
    · cases h
  · cases h

/-- A step of a workflow: it asks for a state, and may send a notice. -/
theorem work_cases {w : Nat} {we : WorkEvent} (h : a.step (.Work w we) = some b) :
    ∃ wf wf' notice, a.workflows[w]? = some wf ∧
      wf.step a.state a.cells.stages we = some (wf', notice) ∧
      b.state = a.moved ((wf.asks we).map .To) ∧ b.workflows = a.workflows.set w wf' ∧
      b.backgrounds = a.backgrounds ∧
      ∃ f, b.streams = a.streams.modify wf.stream f ∧ Sends notice f := by
  simp only [step, work] at h
  split at h
  · cases h
  · rename_i wf hwf
    obtain ⟨⟨wf', notice⟩, hs, hb⟩ := Option.map_eq_some_iff.mp h
    subst hb
    refine ⟨wf, wf', notice, hwf, hs, ?_⟩
    cases notice with
    | none => exact ⟨rfl, rfl, rfl, same_streams rfl⟩
    | some msg => exact ⟨rfl, rfl, rfl, _, rfl, sends_one msg⟩

/-- A workflow that has its result sends it. -/
theorem sendResult_cases {w : Nat} (h : a.step (.SendDone w) = some b) :
    ∃ wf r, a.workflows[w]? = some wf ∧ wf.pc = .Finished r ∧ b.state = a.state ∧
      b.workflows = a.workflows.set w { wf with pc := .Ended } ∧ b.backgrounds = a.backgrounds ∧
      ∃ f, b.streams = a.streams.modify wf.stream f ∧ Sends none f := by
  simp only [step, sendResult] at h
  split at h
  · rename_i wf hwf
    split at h
    · rename_i r hpc
      obtain ⟨c, hc, rfl⟩ := Option.map_eq_some_iff.mp h
      obtain ⟨hst, hsame, hbg, hstreams⟩ := sendDone_effect hc
      exact ⟨wf, r, hwf, hpc, hst, by rw [hsame], hbg, hstreams⟩
    · cases h
  · cases h

/-- The write that the step asks for is all that a step does to the state. -/
theorem step_state (h : a.step e = some b) : b.state = a.moved (a.moveOf e) := by
  cases e with
  | Connect => cases h; rfl
  | Disconnect i => cases h; rfl
  | Command i m answers => exact (readsNew_frame h).1
  | StreamError i e => exact (readsNew_frame h).1
  | StreamEnd i => exact (readsNew_frame h).1
  | ReadyTimeout i elapsed => exact (readsNew_frame (readyTimeout_reads h)).1
  | Read i =>
    obtain ⟨op, hop, hst, _⟩ := read_effect h
    simpa [moveOf, hop] using hst
  | Write i we =>
    rcases write_effect h with ⟨hop, hst, _⟩ | ⟨op, hop, hst, _⟩
    · simpa [moveOf, hop, moved] using hst
    · simpa [moveOf, hop] using hst
  | AbortRpc => cases h; rfl
  | Background t =>
    obtain ⟨op, hop, hst, _⟩ := background_effect h
    simpa [moveOf, hop] using hst
  | Work w we =>
    obtain ⟨wf, wf', notice, hwf, _, hst, _⟩ := work_cases h
    simpa [moveOf, hwf] using hst
  | SendDone w =>
    obtain ⟨wf, r, _, _, hst, _⟩ := sendResult_cases h
    exact hst

/-- What a step does to the workflows: what a script's step does, a step of
one workflow, the end of one, or nothing. -/
theorem step_workflows (h : a.step e = some b) :
    (∃ op i, a.nextOp e = some op ∧ b.workflows = a.workflowsAfter i op) ∨
    (a.nextOp e = none ∧
      ((b.workflows = a.workflows ∧ ∀ w we, e ≠ .Work w we) ∨
      (∃ w we wf wf' notice, e = .Work w we ∧ a.workflows[w]? = some wf ∧
        wf.step a.state a.cells.stages we = some (wf', notice) ∧
        b.workflows = a.workflows.set w wf') ∨
      ∃ w wf r, e = .SendDone w ∧ a.workflows[w]? = some wf ∧ wf.pc = .Finished r ∧
        b.workflows = a.workflows.set w { wf with pc := .Ended })) := by
  cases e with
  | Connect => cases h; exact .inr ⟨rfl, .inl ⟨rfl, by simp⟩⟩
  | Disconnect i => cases h; exact .inr ⟨rfl, .inl ⟨rfl, by simp⟩⟩
  | Command i m answers => exact .inr ⟨rfl, .inl ⟨(readsNew_frame h).2, by simp⟩⟩
  | StreamError i e => exact .inr ⟨rfl, .inl ⟨(readsNew_frame h).2, by simp⟩⟩
  | StreamEnd i => exact .inr ⟨rfl, .inl ⟨(readsNew_frame h).2, by simp⟩⟩
  | ReadyTimeout i elapsed =>
    exact .inr ⟨rfl, .inl ⟨(readsNew_frame (readyTimeout_reads h)).2, by simp⟩⟩
  | Read i =>
    obtain ⟨op, hop, _, hwf⟩ := read_effect h
    exact .inl ⟨op, i, hop, hwf⟩
  | Write i we =>
    rcases write_effect h with ⟨hop, _, hwf⟩ | ⟨op, hop, _, hwf⟩
    · exact .inr ⟨hop, .inl ⟨hwf, by simp⟩⟩
    · exact .inl ⟨op, i, hop, hwf⟩
  | AbortRpc => cases h; exact .inr ⟨rfl, .inl ⟨rfl, by simp⟩⟩
  | Background t =>
    obtain ⟨op, hop, _, hwf⟩ := background_effect h
    exact .inl ⟨op, _, hop, hwf⟩
  | Work w we =>
    obtain ⟨wf, wf', notice, hwf, hs, _, hb, _⟩ := work_cases h
    exact .inr ⟨rfl, .inr (.inl ⟨w, we, wf, wf', notice, rfl, hwf, hs, hb⟩)⟩
  | SendDone w =>
    obtain ⟨wf, r, hwf, hpc, _, hb, _⟩ := sendResult_cases h
    exact .inr ⟨rfl, .inr (.inr ⟨w, wf, r, rfl, hwf, hpc, hb⟩)⟩

/-! ## One workflow through a step -/

/-- What a step can make of workflow `w`. -/
inductive Change (a : Agent) (e : Event) (w : Nat) (wf : Workflow) : Workflow → Prop
  | same : (∀ k, a.nextOp e ≠ some (.Release k)) → Change a e w wf wf
  | abort : a.nextOp e = some .SendAbort → Change a e w wf wf.hearAbort
  | release (k : Nat) : a.nextOp e = some (.Release k) → Change a e w wf (wf.hear (k, k))
  | spawn (id : String) : a.nextOp e = some (.Spawn w id) → Change a e w wf (wf.spawn id)
  | step {we : WorkEvent} {wf' : Workflow} {notice} : e = .Work w we →
      wf.step a.state a.cells.stages we = some (wf', notice) → Change a e w wf wf'
  | done {r : Except String Summary} : e = .SendDone w → wf.pc = .Finished r →
      Change a e w wf { wf with pc := .Ended }

theorem step_workflow {w : Nat} {wf : Workflow} (h : a.step e = some b)
    (hw : a.workflows[w]? = some wf) :
    ∃ wf', b.workflows[w]? = some wf' ∧ Change a e w wf wf' := by
  rcases step_workflows h with ⟨op, i, hop, hb⟩ | ⟨hop, ⟨hb, _⟩ | ⟨v, we, vf, vf', notice, rfl, hv, hs, hb⟩ |
    ⟨v, vf, r, rfl, hv, hpc, hb⟩⟩
  · have hsame : b.workflows[w]? = some wf → (∀ k, op ≠ .Release k) →
        ∃ wf', b.workflows[w]? = some wf' ∧ Change a e w wf wf' := by
      intro hbw hk
      exact ⟨wf, hbw, .same fun k hk' => hk k (Option.some.inj (hop.symm.trans hk'))⟩
    cases op with
    | SendAbort => exact ⟨_, by simp [hb, workflowsAfter, hw], .abort hop⟩
    | Release k => exact ⟨_, by simp [hb, workflowsAfter, hw], .release k hop⟩
    | Spawn v id =>
      by_cases hvw : v = w
      · subst hvw
        exact ⟨_, by simp [hb, workflowsAfter, hw], .spawn id hop⟩
      · exact hsame (by simp [hb, workflowsAfter, hvw, hw]) (by simp)
    | EnterPreflight path =>
      refine hsame ?_ (by simp)
      have hlt := (List.getElem?_eq_some_iff.mp hw).1
      rw [hb]
      simp only [workflowsAfter]
      split
      · rw [List.getElem?_append_left hlt, hw]
      · exact hw
    | _ => exact hsame (by rw [hb]; exact hw) (by simp)
  · exact ⟨wf, hb ▸ hw, .same (by simp [hop])⟩
  · by_cases hvw : v = w
    · subst hvw
      cases hv.symm.trans hw
      have hlt := (List.getElem?_eq_some_iff.mp hw).1
      exact ⟨vf', by simp [hb, hlt], .step rfl hs⟩
    · exact ⟨wf, by simp [hb, hvw, hw], .same (by simp [hop])⟩
  · by_cases hvw : v = w
    · subst hvw
      cases hv.symm.trans hw
      have hlt := (List.getElem?_eq_some_iff.mp hw).1
      exact ⟨_, by simp [hb, hlt], .done rfl hpc⟩
    · exact ⟨wf, by simp [hb, hvw, hw], .same (by simp [hop])⟩

/-- A workload is never forgotten, and only an accepted START adds one. -/
theorem step_workloads (h : a.step e = some b) :
    b.workflows.length = a.workflows.length ∨
    ∃ path i, a.nextOp e = some (.EnterPreflight path) ∧
      (transition_to a.state (.AtStage 0 "preflight" false)).isSome = true ∧
      b.workflows = a.workflows ++ [⟨i, "", [], .Pending, Receiver.subscribe⟩] := by
  rcases step_workflows h with ⟨op, i, hop, hb⟩ | ⟨_, ⟨hb, _⟩ | ⟨v, we, vf, vf', notice, rfl, hv, hs, hb⟩ |
    ⟨v, vf, r, rfl, hv, hpc, hb⟩⟩
  · cases op with
    | EnterPreflight path =>
      simp only [workflowsAfter] at hb
      split at hb
      · rename_i hok
        exact .inr ⟨path, i, hop, hok, hb⟩
      · exact .inl (by rw [hb])
    | _ => exact .inl (by simp [hb, workflowsAfter])
  · exact .inl (by rw [hb])
  · exact .inl (by simp [hb])
  · exact .inl (by simp [hb])

/-- A workflow can take its steps whatever the other tasks do. -/
theorem work_step {w : Nat} {wf wf' : Workflow} {we : WorkEvent} {notice}
    (hwf : a.workflows[w]? = some wf)
    (hs : wf.step a.state a.cells.stages we = some (wf', notice)) :
    ∃ b, a.step (.Work w we) = some b ∧ b.workflows = a.workflows.set w wf' := by
  simp only [step, work, hwf, hs, Option.map_some]
  exact ⟨_, rfl, by cases notice <;> rfl⟩

/-- Where a workflow after a step comes from. -/
theorem step_workflow_back {w : Nat} {wf' : Workflow} (h : a.step e = some b)
    (hw : b.workflows[w]? = some wf') :
    (∃ wf, a.workflows[w]? = some wf ∧ Change a e w wf wf') ∨
    (w = a.workflows.length ∧ wf'.pc = .Pending) := by
  by_cases hlt : w < a.workflows.length
  · obtain ⟨wf, hwf⟩ : ∃ wf, a.workflows[w]? = some wf := ⟨_, List.getElem?_eq_getElem hlt⟩
    obtain ⟨vf, hvf, hc⟩ := step_workflow h hwf
    cases hvf.symm.trans hw
    exact .inl ⟨wf, hwf, hc⟩
  · have hwlt := (List.getElem?_eq_some_iff.mp hw).1
    rcases step_workloads h with hlen | ⟨path, i, _, _, hb⟩
    · omega
    · rw [hb] at hw hwlt
      simp only [List.length_append, List.length_singleton] at hwlt
      have hwe : w = a.workflows.length := by omega
      subst hwe
      rw [List.getElem?_concat_length] at hw
      cases hw
      exact .inr ⟨rfl, rfl⟩

end Agent

end sai3_bench.agent
