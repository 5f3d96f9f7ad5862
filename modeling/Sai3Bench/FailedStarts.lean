-- A START whose config fails before its workload is launched: which of these
-- the controller ever hears of.
import Sai3Bench.StaleTasks

namespace sai3_bench.agent

open broadcasts config machines pb

/-! ## How a START fails -/

/-- A START fails at one of its checks, or at the op-log. -/
inductive Rejection
  | Check (f : StartFailure)
  | OpLog (e : String)

/-- Why a START fails before its workload is launched, if it does. -/
def Agent.rejects (a : Agent) (answers : Answers) : Option Rejection :=
  match checkStart answers with
  | .error f => some (.Check f)
  | .ok (config, _) => match config.op_log_path.or a.cells.agent_op_log_path with
    | none => none
    | some _ => match a.op_log.begin answers.op_log_path answers.op_log_key answers.logger with
      | .error e => some (.OpLog e)
      | .ok _ => none

namespace Rejection

/-- The error that the state records. -/
def recorded : Rejection → String
  | .Check f => f.recorded
  | .OpLog e => s!"Op-log rejected: {e}"

/-- The error that is on its way to the controller. -/
def error : Rejection → String
  | .Check f => f.sent
  | .OpLog e => s!"Op-log rejected: {e}"

end Rejection

/-! ## What it means to report it -/

/-- An ERROR message with this error. -/
def IsError (err : String) (msg : LiveStats) : Prop := msg.status = 3 ∧ msg.error_message = err

def Agent.sentOf (a : Agent) (i : Nat) : List LiveStats := (a.streams[i]?.map (·.sent)).getD []

/-- The START failed in the state, or the controller was sent its error after
the first `n` messages. -/
def Reported (n : Nat) (r : Rejection) (i : Nat) (a : Agent) : Prop :=
  (a.state = .Failed ∧ a.cells.error_message = some r.recorded) ∨
    ∃ msg ∈ (a.sentOf i).drop n, IsError r.error msg

/-- The steps of the two tasks of a stream. -/
def Own (i : Nat) (e : Event) : Prop := e = .Read i ∨ ∃ we, e = .Write i we

/-- Another task may take any step that leaves the state, the tracker, the
op-log session and the stream itself. -/
def Undisturbed (i : Nat) (a : Agent) (e : Event) : Prop :=
  Own i e ∨ ∀ b, agentMachine.step a e = some b → b.state = a.state ∧
    b.cells.tracker = a.cells.tracker ∧ b.op_log = a.op_log ∧ b.streams[i]? = a.streams[i]?

/-- The reader has returned, and its stats writer has exited or has nothing to
take. -/
def Settled (i : Nat) (a : Agent) : Prop :=
  ∃ st, a.streams[i]? = some st ∧ st.reader = none ∧
    (st.writer.pc = .Exited ∨ (st.writer.pc = .Streaming ∧ st.done = none))

/-- From here the START always comes to an end, and each end has reported it. -/
structure EndsReported (a : Agent) (i : Nat) (r : Rejection) : Prop where
  ends : ∀ es b, agentMachine.run a es = some b → agentMachine.Along (Undisturbed i) a es →
    ∃ fs c, agentMachine.run b fs = some c ∧ (∀ e ∈ fs, Own i e) ∧ Settled i c
  reported : ∀ es b, agentMachine.run a es = some b → agentMachine.Along (Undisturbed i) a es →
    Settled i b → Reported (a.sentOf i).length r i b

/-! ## The rest of a failing START -/

/-- How the reader still reports: by a message of its own, or on `tx_done`. -/
inductive Way
  | Direct
  | Done

/-- The steps that a failing START has left, and how it still reports. -/
inductive Rest (o : OpLogSession) (err : String) : List Op → Option Way → Prop
  | returns : Rest o err [.Return] none
  | puts {f : Cells → Cells} {script : List Op} {w : Option Way} :
      (∀ c, (f c).tracker = c.tracker) → Rest o err script w → Rest o err (.Put f :: script) w
  | fails {script : List Op} {w : Option Way} : Rest o err script w →
      Rest o err (.ToFailed :: script) w
  | done : Rest o err [.TxDone (.error err), .Return] (some .Done)
  | sends {msg : LiveStats} : IsError err msg → Rest o err [.Send msg, .Return] (some .Direct)
  | opLog {base : String} {m : ControlMessage} {answers : Answers}
      {stages : Option (List StageConfig)} {e : String} :
      o.begin answers.op_log_path answers.op_log_key answers.logger = .error e →
      err = s!"Op-log rejected: {e}" →
      Rest o err [.BeginOpLog base m answers stages] (some .Direct)

/-- The same for a reader, which may have returned. -/
def ReaderRest (o : OpLogSession) (err : String) (reader : Option (List Op)) (w : Option Way) :
    Prop :=
  (reader = none ∧ w = none) ∨ ∃ script, reader = some script ∧ Rest o err script w

/-- The way that a START that fails reports it. -/
def Rejection.way : Rejection → Way
  | .Check _ => .Done
  | .OpLog _ => .Direct

theorem rejects_rest {a : Agent} {m : ControlMessage} {answers : Answers} {r : Rejection}
    (h : a.rejects answers = some r) :
    Rest a.op_log r.error (startScript a.cells.agent_op_log_path m answers) (some r.way) := by
  unfold Agent.rejects at h
  unfold startScript
  simp only [List.cons_append, List.nil_append]
  refine .puts (fun _ => rfl) <| .puts (fun _ => rfl) <| .puts (fun _ => rfl) <|
    .puts (fun _ => rfl) <| .puts (fun _ => rfl) <| .puts (fun _ => rfl) ?_
  cases hc : checkStart answers with
  | error f =>
    simp only [hc] at h ⊢
    cases h
    exact .puts (fun _ => rfl) (.fails .done)
  | ok checked =>
    obtain ⟨config, stages⟩ := checked
    simp only [hc] at h ⊢
    cases hbase : config.op_log_path.or a.cells.agent_op_log_path with
    | none => simp [hbase] at h
    | some base =>
      simp only [hbase] at h ⊢
      cases he : a.op_log.begin answers.op_log_path answers.op_log_key answers.logger with
      | ok log => simp [he] at h
      | error e =>
        simp only [he] at h
        cases h
        exact .opLog he rfl

/-! ## What is still to come -/

/-- The result that the stats writer takes next is this error. -/
def NextDone (err : String) (w : Option Way) (st : Stream) : Prop :=
  match st.done with
  | some d => d.result = .error err
  | none => w = some .Done

/-- The error is on its way: the reader sends it, or the stats writer does. -/
def Pending (err : String) (tracker : Bool) (w : Option Way) (st : Stream) : Prop :=
  st.connected = true ∧ (w = some .Direct ∨ match st.writer.pc with
    | .GetTracker => tracker = true ∧ NextDone err w st
    | .Streaming => NextDone err w st
    | .Finishing _ script => ∃ msg, Op.Send msg ∈ script ∧ IsError err msg
    | _ => False)

/-- The controller was sent the error, or it is on its way. -/
def Will (n : Nat) (err : String) (tracker : Bool) (w : Option Way) (st : Stream) : Prop :=
  (∃ msg ∈ st.sent.drop n, IsError err msg) ∨ Pending err tracker w st

/-- A START that fails is being handled on stream `i`. -/
structure Rejecting (n : Nat) (err : String) (i : Nat) (w : Option Way) (st : Stream) (a : Agent) :
    Prop where
  state : a.state = .Idle
  stream : a.streams[i]? = some st
  reader : ReaderRest a.op_log err st.reader w
  writer : ∀ op ∈ scriptOf st.writer, op.ofWriter = true
  sent : n ≤ st.sent.length

section

variable {a b : Agent} {n i : Nat} {err : String} {w : Option Way} {st : Stream}

theorem modifyStream_get {f : Stream → Stream} (h : a.streams[i]? = some st) :
    (a.modifyStream i f).streams[i]? = some (f st) := by
  simp [Agent.modifyStream, h]

theorem isError_errorStats (id : String) (k : Int) : IsError err (errorStats id err k) := ⟨rfl, rfl⟩

theorem Stream.send_sent_le (st : Stream) (msg : LiveStats) : st.sent.length ≤ (st.send msg).sent.length := by
  unfold Stream.send
  split <;> simp

/-- A message that is sent is one of those that count, or it is none. -/
theorem send_will {msg : LiveStats} (hn : n ≤ st.sent.length) :
    (∃ m ∈ (st.send msg).sent.drop n, IsError err m) ↔
      (∃ m ∈ st.sent.drop n, IsError err m) ∨ (st.connected = true ∧ IsError err msg) := by
  unfold Stream.send
  by_cases hc : st.connected = true
  · rw [if_pos hc, List.drop_append_of_le_length hn]
    simp only [List.mem_append, List.mem_singleton, hc, true_and]
    grind
  · simp [hc]

/-- One step of the reader, before the last. -/
theorem Rejecting.exec (h : Rejecting n err i w st a) {op : Op} {rest next : List Op} {born : Nat}
    {c : Agent} (hr : Rest a.op_log err (op :: rest) w) (hop : op ≠ .Return)
    (hs : a.exec i born op = some (c, next)) :
    ∃ st' w', Rejecting n err i w' st'
        (c.modifyStream i fun s => { s with reader := some (next ++ rest) }) ∧
      (Will n err c.cells.tracker.isSome w' st' ↔ Will n err a.cells.tracker.isSome w st) := by
  cases hr with
  | returns => exact absurd rfl hop
  | puts hf hrest =>
    rename_i f
    cases hs
    refine ⟨{ st with reader := some rest }, w,
      ⟨h.state, modifyStream_get h.stream, ?_, h.writer, h.sent⟩, ?_⟩
    · exact .inr ⟨rest, rfl, hrest⟩
    · simp only [hf]
      exact Iff.rfl
  | fails hrest =>
    cases hs
    refine ⟨{ st with reader := some rest }, w,
      ⟨?_, modifyStream_get h.stream, ?_, h.writer, h.sent⟩, Iff.rfl⟩
    · simp only [Agent.modifyStream, Agent.moved, h.state]
      rfl
    · exact .inr ⟨rest, rfl, hrest⟩
  | done =>
    simp only [Agent.exec, Option.map_eq_some_iff, Prod.mk.injEq] at hs
    obtain ⟨d, hd, rfl, rfl⟩ := hs
    unfold Agent.sendDone at hd
    rw [h.stream] at hd
    simp only at hd
    split at hd
    · rename_i hex
      cases hd
      refine ⟨{ st with reader := some [.Return] }, none,
        ⟨h.state, modifyStream_get h.stream, ?_, h.writer, h.sent⟩, ?_⟩
      · exact .inr ⟨_, rfl, .returns⟩
      · have hpc : st.writer.pc = .Exited := by
          unfold Agent.writerExited at hex
          split at hex
          · assumption
          · cases hex
        simp [Will, Pending, hpc]
    · split at hd
      · rename_i hdone
        cases hd
        refine ⟨{ st with reader := some [.Return], done := some ⟨born, .error err⟩ }, none,
          ⟨h.state, ?_, ?_, h.writer, h.sent⟩, ?_⟩
        · exact modifyStream_get (modifyStream_get h.stream)
        · exact .inr ⟨_, rfl, .returns⟩
        · simp [Will, Pending, NextDone, hdone, Agent.modifyStream]
      · cases hd
  | sends herr =>
    rename_i msg
    cases hs
    refine ⟨{ st.send msg with reader := some [.Return] }, none, ⟨h.state, ?_, ?_, ?_, ?_⟩, ?_⟩
    · exact modifyStream_get (modifyStream_get h.stream)
    · exact .inr ⟨_, rfl, .returns⟩
    · simpa using h.writer
    · exact Nat.le_trans h.sent (Stream.send_sent_le _ msg)
    · simp only [Will, Pending, Stream.send_connected, send_will h.sent]
      constructor
      · rintro ((hsent | ⟨hc, _⟩) | ⟨hc, _⟩)
        · exact .inl hsent
        · exact .inr ⟨hc, .inl trivial⟩
        · exact .inr ⟨hc, .inl trivial⟩
      · rintro (hsent | ⟨hc, _⟩)
        · exact .inl (.inl hsent)
        · exact .inl (.inr ⟨hc, herr⟩)
  | opLog hbegin herr =>
    rename_i base m answers stages e
    simp only [Agent.exec, hbegin, Option.some.injEq, Prod.mk.injEq] at hs
    obtain ⟨rfl, rfl⟩ := hs
    refine ⟨_, some .Direct, ⟨h.state, modifyStream_get h.stream, ?_, h.writer, h.sent⟩, Iff.rfl⟩
    refine .inr ⟨_, rfl, .puts (fun _ => rfl) (.sends ?_)⟩
    exact herr ▸ isError_errorStats _ _

/-- One step of the reader. -/
theorem Rejecting.read (h : Rejecting n err i w st a) (hs : a.read i = some b) :
    ∃ st' w', Rejecting n err i w' st' b ∧
      (Will n err b.cells.tracker.isSome w' st' ↔ Will n err a.cells.tracker.isSome w st) := by
  have hreader : a.streams[i]?.bind (·.reader) = st.reader := by rw [h.stream, Option.bind_some]
  rcases Agent.read_cases hs with ⟨rest, hr, rfl⟩ | ⟨op, rest, c, next, hop, hr, hc, rfl⟩
  · rcases h.reader with ⟨hnone, rfl⟩ | ⟨script, hscript, hrest⟩
    · rw [hreader, hnone] at hr
      cases hr
    · rw [hreader, hscript] at hr
      cases hr
      cases hrest
      refine ⟨{ st with reader := none }, none,
        ⟨h.state, modifyStream_get h.stream, .inl ⟨rfl, rfl⟩, h.writer, h.sent⟩, Iff.rfl⟩
  · rcases h.reader with ⟨hnone, rfl⟩ | ⟨script, hscript, hrest⟩
    · rw [hreader, hnone] at hr
      cases hr
    · rw [hreader, hscript] at hr
      cases hr
      exact h.exec hrest hop hc

/-- One step of a stats writer that has a result. -/
theorem Rejecting.finish (h : Rejecting n err i w st a) {op : Op} {rest next : List Op}
    {born : Nat} {c : Agent} (hpc : st.writer.pc = .Finishing born (op :: rest))
    (hs : a.exec i born op = some (c, next)) :
    ∃ st', Rejecting n err i w st' (c.modifyStream i fun s => { s with
        writer := { s.writer with pc := .Finishing born (next ++ rest) } }) ∧
      st'.writer.pc = .Finishing born rest ∧ st'.reader = st.reader ∧
      (Will n err c.cells.tracker.isSome w st' ↔ Will n err a.cells.tracker.isSome w st) := by
  have hscript := h.writer
  simp only [scriptOf, hpc] at hscript
  have hop := hscript op (by simp)
  have hrest : ∀ op' ∈ rest, op'.ofWriter = true := fun op' h' => hscript op' (by simp [h'])
  have hidle : a.moved (some (.To .Idle)) = .Idle := by rw [Agent.moved, h.state]; rfl
  have hfailed : a.moved (some (.To .Failed)) = .Idle := by rw [Agent.moved, h.state]; rfl
  let st' : Stream := { st with writer := { st.writer with pc := .Finishing born rest } }
  have hsame : (∀ msg, op ≠ .Send msg) → ∀ t t', (Will n err t w st' ↔ Will n err t' w st) := by
    intro hne t t'
    have hmem : ∀ msg, Op.Send msg ∈ op :: rest ↔ Op.Send msg ∈ rest := by
      intro msg
      simp [Ne.symm (hne msg)]
    simp only [Will, Pending, st', hpc, hmem]
  cases op with
  | Put f =>
    cases hs
    exact ⟨st', ⟨h.state, modifyStream_get h.stream, h.reader, hrest, h.sent⟩, rfl, rfl,
      hsame (by simp) _ _⟩
  | ToIdle =>
    cases hs
    exact ⟨st', ⟨hidle, modifyStream_get h.stream, h.reader, hrest, h.sent⟩, rfl, rfl,
      hsame (by simp) _ _⟩
  | ToFailed =>
    cases hs
    exact ⟨st', ⟨hfailed, modifyStream_get h.stream, h.reader, hrest, h.sent⟩, rfl, rfl,
      hsame (by simp) _ _⟩
  | Send msg =>
    cases hs
    refine ⟨{ st.send msg with writer := { (st.send msg).writer with pc := .Finishing born rest } },
      ⟨h.state, ?_, ?_, hrest, ?_⟩, rfl, Stream.send_reader msg, ?_⟩
    · exact modifyStream_get (modifyStream_get h.stream)
    · rw [Stream.send_reader]
      exact h.reader
    · exact Nat.le_trans h.sent (Stream.send_sent_le _ msg)
    · simp only [Will, Pending, Stream.send_connected, send_will h.sent, hpc, List.mem_cons,
        Op.Send.injEq]
      grind
  | _ => cases hop

/-- The last steps of a writer send an error exactly when it took that error. -/
theorem finishScript_error {wr : Writer} {snapshot : Snapshot} {k : Nat} {ok : Bool}
    {r : Except String Summary} :
    (∃ msg, Op.Send msg ∈ Agent.finishScript wr snapshot k ok r ∧ IsError err msg) ↔
      r = .error err := by
  cases r with
  | ok s =>
    simp only [reduceCtorEq, iff_false, not_exists, not_and]
    intro msg hmsg herr
    simp only [Agent.finishScript, List.mem_append, List.mem_map, List.mem_cons, Op.Send.injEq,
      reduceCtorEq, List.not_mem_nil, or_false, false_or] at hmsg
    have hstatus := herr.1
    rcases hmsg with ⟨j, _, rfl⟩ | rfl <;> cases hstatus
  | error e =>
    simp [Agent.finishScript, IsError, errorStats]

/-- Messages that report no error. -/
theorem not_isError_ready (id : String) (k : Int) : ¬ IsError err (readyStats id k) :=
  fun h => by cases h.1

theorem not_isError_running (id : String) (k : Int) (s : Snapshot) :
    ¬ IsError err (runningStats id k s) := fun h => by cases h.1

/-- One step of a stats writer that has no result yet. -/
theorem Rejecting.writes (h : Rejecting n err i w st a) {we : WriterEvent} {st' : Stream}
    (hs : a.writes i st we = some st') :
    st'.reader = st.reader ∧ n ≤ st'.sent.length ∧
      (Will n err a.cells.tracker.isSome w st' ↔ Will n err a.cells.tracker.isSome w st) := by
  have hle := fun msg => Nat.le_trans h.sent (Stream.send_sent_le st msg)
  unfold Agent.writes at hs
  simp only [h.state] at hs
  split at hs
  · rename_i hpc
    cases hs
    exact ⟨rfl, h.sent, by simp [Will, Pending, hpc]⟩
  · rename_i hpc
    cases hs
    refine ⟨by simp, hle _, ?_⟩
    simp only [Will, Pending, Stream.send_connected, send_will h.sent, not_isError_ready, hpc]
    by_cases hc : st.connected = true <;> simp [hc]
  · rename_i hpc
    cases hs
    refine ⟨by simp, hle _, ?_⟩
    simp only [Will, Pending, Stream.send_connected, send_will h.sent, not_isError_ready, hpc]
    by_cases hc : st.connected = true <;> simp [hc]
  · rename_i hpc
    cases hs
    exact ⟨rfl, h.sent, by simp [Will, Pending, hpc]⟩
  · rename_i hpc
    split at hs <;> cases hs <;> rename_i ht
    · exact ⟨rfl, h.sent, by simp [Will, Pending, hpc, ht, NextDone]⟩
    · exact ⟨rfl, h.sent, by simp [Will, Pending, hpc, ht]⟩
  · rename_i hpc
    cases hs
    exact ⟨rfl, h.sent, by simp [Will, Pending, hpc, NextDone]⟩
  · rename_i hpc
    cases hs
    refine ⟨by simp, hle _, ?_⟩
    simp only [Will, Pending, NextDone, Stream.send_connected, Stream.send_done, send_will h.sent,
      not_isError_running, hpc]
    by_cases hc : st.connected = true <;> simp [hc]
  · rename_i hpc
    split at hs
    · cases hs
    · rename_i d hd
      split at hs <;> cases hs
      refine ⟨rfl, h.sent, ?_⟩
      simp only [Will, Pending, NextDone, hpc, hd, finishScript_error]
  · rename_i hpc
    split at hs <;> cases hs
    rename_i hclosed
    simp only [Agent.doneClosed, Bool.and_eq_true, Option.isNone_iff_eq_none] at hclosed
    obtain ⟨⟨hdone, hreader⟩, _⟩ := hclosed
    have hw : w = none := by
      rcases h.reader with ⟨_, hw⟩ | ⟨script, hr, _⟩
      · exact hw
      · rw [hreader] at hr
        cases hr
    exact ⟨rfl, h.sent, by simp [Will, Pending, NextDone, hpc, hdone, hw]⟩
  · rename_i hpc
    cases hs
    exact ⟨rfl, h.sent, by simp [Will, Pending, hpc]⟩
  · cases hs

/-- One step of the stats writer. -/
theorem Rejecting.write (h : Rejecting n err i w st a) {we : WriterEvent}
    (hs : a.write i we = some b) :
    ∃ st', Rejecting n err i w st' b ∧
      (Will n err b.cells.tracker.isSome w st' ↔ Will n err a.cells.tracker.isSome w st) := by
  obtain ⟨s, hst, hcases⟩ := Agent.write_cases hs
  obtain rfl : s = st := Option.some.inj (hst.symm.trans h.stream)
  rcases hcases with ⟨born, op, rest, c, next, _, hpc, hc, rfl⟩ | ⟨_, st', hw, rfl⟩
  · obtain ⟨st', h', _, _, hwill⟩ := h.finish hpc hc
    exact ⟨st', h', hwill⟩
  · obtain ⟨hreader, hsent, hwill⟩ := h.writes hw
    have hlt := (List.getElem?_eq_some_iff.mp h.stream).1
    exact ⟨st', ⟨h.state, by simp [hlt], hreader ▸ h.reader, writes_script hw, hsent⟩, hwill⟩

/-- One step of any task. -/
theorem Rejecting.step (h : Rejecting n err i w st a) {e : Event} (hu : Undisturbed i a e)
    (hs : agentMachine.step a e = some b) :
    ∃ st' w', Rejecting n err i w' st' b ∧
      (Will n err b.cells.tracker.isSome w' st' ↔ Will n err a.cells.tracker.isSome w st) := by
  rcases hu with (rfl | ⟨we, rfl⟩) | hother
  · exact h.read hs
  · obtain ⟨st', h', hwill⟩ := h.write hs
    exact ⟨st', w, h', hwill⟩
  · obtain ⟨hstate, htracker, hlog, hstream⟩ := hother b hs
    refine ⟨st, w, ⟨hstate ▸ h.state, hstream ▸ h.stream, hlog ▸ h.reader, h.writer, h.sent⟩, ?_⟩
    rw [htracker]

/-- A run neither adds to what the controller will hear nor takes from it. -/
theorem Rejecting.run (h : Rejecting n err i w st a) {es : List Event}
    (hA : agentMachine.Along (Undisturbed i) a es) (hs : agentMachine.run a es = some b) :
    ∃ st' w', Rejecting n err i w' st' b ∧
      (Will n err b.cells.tracker.isSome w' st' ↔ Will n err a.cells.tracker.isSome w st) := by
  refine Machine.run_keeps (I := fun c => ∃ st' w', Rejecting n err i w' st' c ∧
    (Will n err c.cells.tracker.isSome w' st' ↔ Will n err a.cells.tracker.isSome w st)) ?_
    ⟨st, w, h, Iff.rfl⟩ hA hs
  rintro c e d ⟨st', w', hc, hiff⟩ hu hd
  obtain ⟨st'', w'', hd', hiff'⟩ := hc.step hu hd
  exact ⟨st'', w'', hd', hiff'.trans hiff⟩

/-! ## A failing START comes to an end -/

/-- The two tasks of stream `i` lead there. -/
def Reaches (i : Nat) (a b : Agent) : Prop :=
  ∃ fs, agentMachine.run a fs = some b ∧ ∀ e ∈ fs, Own i e

theorem Reaches.refl (i : Nat) (a : Agent) : Reaches i a a := ⟨[], rfl, by simp⟩

theorem Reaches.step {e : Event} {c : Agent} (he : Own i e) (hs : agentMachine.step a e = some b)
    (h : Reaches i b c) : Reaches i a c := by
  obtain ⟨fs, hfs, hown⟩ := h
  refine ⟨e :: fs, Machine.run_cons_iff.mpr ⟨b, hs, hfs⟩, ?_⟩
  intro d hd
  rcases List.mem_cons.mp hd with rfl | hd
  · exact he
  · exact hown d hd

theorem Reaches.trans {c : Agent} (h : Reaches i a b) (h' : Reaches i b c) : Reaches i a c := by
  obtain ⟨fs, hfs, hown⟩ := h
  obtain ⟨gs, hgs, hown'⟩ := h'
  refine ⟨fs ++ gs, Machine.run_append_iff.mpr ⟨b, hfs, hgs⟩, ?_⟩
  intro d hd
  rcases List.mem_append.mp hd with hd | hd
  · exact hown d hd
  · exact hown' d hd

/-- The writer has exited, or has nothing to take. -/
def WriterRests (st : Stream) : Prop :=
  st.writer.pc = .Exited ∨ (st.writer.pc = .Streaming ∧ st.done = none)

/-- The stats writer comes to rest from here. -/
def WriterSettles (n : Nat) (err : String) (i : Nat) (w : Option Way) (st : Stream) (a : Agent) :
    Prop :=
  ∃ c st', Reaches i a c ∧ Rejecting n err i w st' c ∧ st'.reader = st.reader ∧ WriterRests st'

theorem Rejecting.settles_writes (h : Rejecting n err i w st a) (we : WriterEvent) {st' : Stream}
    (hpc : ∀ born op rest, st.writer.pc ≠ .Finishing born (op :: rest))
    (hw : a.writes i st we = some st')
    (hnext : ∀ b, Rejecting n err i w st' b → WriterSettles n err i w st' b) :
    WriterSettles n err i w st a := by
  obtain ⟨hreader, hsent, _⟩ := h.writes hw
  have hlt := (List.getElem?_eq_some_iff.mp h.stream).1
  let b : Agent := { a with streams := a.streams.set i st' }
  have hs : agentMachine.step a (.Write i we) = some b := by
    simp only [agentMachine, Agent.step, Agent.write, h.stream]
    split
    · rename_i born op rest hfin
      exact absurd hfin (hpc born op rest)
    · simp [hw, b]
  have hb : Rejecting n err i w st' b :=
    ⟨h.state, by simp [b, hlt], hreader ▸ h.reader, writes_script hw, hsent⟩
  obtain ⟨c, st'', hreach, hc, hreader', hrests⟩ := hnext b hb
  exact ⟨c, st'', hreach.step (.inr ⟨we, rfl⟩) hs, hc, hreader'.trans hreader, hrests⟩

theorem Rejecting.settled_writer (h : Rejecting n err i w st a) (hrests : WriterRests st) :
    WriterSettles n err i w st a := ⟨a, st, .refl i a, h, rfl, hrests⟩

/-- A step of the last steps of a writer is always possible. -/
theorem exec_ofWriter {op : Op} (born : Nat) (hop : op.ofWriter = true) :
    ∃ c, a.exec i born op = some (c, []) := by
  cases op <;> first | exact ⟨_, rfl⟩ | cases hop

/-- The stream after its writer exits. -/
def Stream.exits (st : Stream) : Stream := { st with writer := { st.writer with pc := .Exited } }

theorem Rejecting.exit_settles (h : Rejecting n err i w st a) (we : WriterEvent)
    (hpc : ∀ born op rest, st.writer.pc ≠ .Finishing born (op :: rest))
    (hw : a.writes i st we = some st.exits) : WriterSettles n err i w st a :=
  h.settles_writes we hpc hw fun _ hb => hb.settled_writer (.inl rfl)

theorem Rejecting.finish_settles {born : Nat} {script : List Op} (h : Rejecting n err i w st a)
    (hpc : st.writer.pc = .Finishing born script) : WriterSettles n err i w st a := by
  induction script generalizing a st with
  | nil =>
    exact h.exit_settles .Finish (by simp [hpc]) (by simp [Agent.writes, hpc, Stream.exits])
  | cons op rest ih =>
    have hop : op.ofWriter = true := h.writer op (by simp [scriptOf, hpc])
    obtain ⟨c, hc⟩ := exec_ofWriter (a := a) (i := i) born hop
    obtain ⟨st', hb, hpc', hreader, _⟩ := h.finish hpc hc
    have hs : agentMachine.step a (.Write i .Finish) = some (c.modifyStream i fun s => { s with
        writer := { s.writer with pc := .Finishing born ([] ++ rest) } }) := by
      simp [agentMachine, Agent.step, Agent.write, h.stream, hpc, hc]
    obtain ⟨d, st'', hreach, hd, hreader', hrests⟩ := ih hb hpc'
    exact ⟨d, st'', hreach.step (.inr ⟨_, rfl⟩) hs, hd, hreader'.trans hreader, hrests⟩

/-- In Idle every stats writer comes to rest. -/
theorem Rejecting.writer_settles (h : Rejecting n err i w st a) : WriterSettles n err i w st a := by
  have hcheck : ∀ {st : Stream} {a : Agent} {k : Nat}, Rejecting n err i w st a →
      st.writer.pc = .ReadyCheck k → WriterSettles n err i w st a := fun h hpc =>
    h.exit_settles .CheckReady (by simp [hpc])
      (by simp [Agent.writes, hpc, h.state, Stream.exits])
  have hexited : ∀ {st : Stream} {a : Agent}, Rejecting n err i w st a →
      st.writer.pc = .Exited → WriterSettles n err i w st a := fun h hpc =>
    h.settled_writer (.inl hpc)
  have hsleep : ∀ {st : Stream} {a : Agent} {k : Nat}, Rejecting n err i w st a →
      st.writer.pc = .ReadySleep k → WriterSettles n err i w st a := by
    intro st a k h hpc
    refine h.settles_writes .ResendReady (by simp [hpc])
      (by simp only [Agent.writes, hpc]; rfl) fun b hb => ?_
    by_cases hc : st.connected = true
    · exact hcheck (k := k + 1) hb (by simp [hc])
    · exact hexited hb (by simp [hc])
  have hstream : ∀ {st : Stream} {a : Agent}, Rejecting n err i w st a →
      st.writer.pc = .Streaming → WriterSettles n err i w st a := by
    intro st a h hpc
    cases hd : st.done with
    | none => exact h.settled_writer (.inr ⟨hpc, hd⟩)
    | some d =>
      refine h.settles_writes (.TakeDone {} 0 false) (by simp [hpc])
        (by simp only [Agent.writes, hpc, hd]; rfl) fun b hb => ?_
      exact hb.finish_settles rfl
  cases hpc : st.writer.pc with
  | WaitStart =>
    exact h.exit_settles .Poll (by simp [hpc])
      (by simp [Agent.writes, hpc, h.state, Stream.exits])
  | SendReady =>
    refine h.settles_writes .SendReady (by simp [hpc])
      (by simp only [Agent.writes, hpc]; rfl) fun b hb => ?_
    by_cases hc : st.connected = true
    · exact hsleep (k := 0) hb (by simp [hc])
    · exact hexited hb (by simp [hc])
  | ReadySleep k => exact hsleep h hpc
  | ReadyCheck k => exact hcheck h hpc
  | GetTracker =>
    by_cases ht : a.cells.tracker.isSome = true
    · refine h.settles_writes .GetTracker (by simp [hpc])
        (by simp only [Agent.writes, hpc, if_pos ht]; rfl) fun b hb => ?_
      exact hstream hb rfl
    · exact h.exit_settles .GetTracker (by simp [hpc])
        (by simp [Agent.writes, hpc, ht, Stream.exits])
  | Streaming => exact hstream h hpc
  | Finishing born script => exact h.finish_settles hpc
  | Exited => exact hexited h hpc

/-- The reader returns from here. -/
def ReaderReturns (n : Nat) (err : String) (i : Nat) (a : Agent) : Prop :=
  ∃ c st', Reaches i a c ∧ Rejecting n err i none st' c ∧ st'.reader = none

theorem ReaderReturns.step {e : Event} (he : Own i e) (hs : agentMachine.step a e = some b)
    (h : ReaderReturns n err i b) : ReaderReturns n err i a := by
  obtain ⟨c, st', hreach, hc, hr⟩ := h
  exact ⟨c, st', hreach.step he hs, hc, hr⟩

theorem read_step {op : Op} {rest next : List Op} {c : Agent} (hst : a.streams[i]? = some st)
    (hr : st.reader = some (op :: rest)) (hop : op ≠ .Return)
    (hc : a.exec i a.workflows.length op = some (c, next)) :
    agentMachine.step a (.Read i) =
      some (c.modifyStream i fun s => { s with reader := some (next ++ rest) }) := by
  simp only [agentMachine, Agent.step, Agent.read, hst, Option.bind_some, hr]
  cases op with
  | Return => exact absurd rfl hop
  | _ => simp [hc]

/-- The reader returns, when no older result is in its way. -/
theorem Rejecting.reader_returns (h : Rejecting n err i w st a)
    (hfree : st.writer.pc = .Exited ∨ st.done = none) : ReaderReturns n err i a := by
  rcases h.reader with ⟨hr, rfl⟩ | ⟨script, hr, hrest⟩
  · exact ⟨a, st, .refl i a, h, hr⟩
  have hlast : ∀ {a : Agent} (st : Stream), Rejecting n err i none st a →
      st.reader = some [.Return] → ReaderReturns n err i a := by
    intro a st h hr
    have hs : agentMachine.step a (.Read i) =
        some (a.modifyStream i fun s => { s with reader := none }) := by
      simp [agentMachine, Agent.step, Agent.read, h.stream, hr]
    exact .step (.inl rfl) hs ⟨_, { st with reader := none }, .refl i _,
      ⟨h.state, modifyStream_get h.stream, .inl ⟨rfl, rfl⟩, h.writer, h.sent⟩, rfl⟩
  have hsends : ∀ {a : Agent} (st : Stream) {msg : LiveStats},
      Rejecting n err i (some .Direct) st a → st.reader = some [.Send msg, .Return] →
      ReaderReturns n err i a := by
    intro a st msg h hr
    refine .step (.inl rfl) (read_step h.stream hr (by simp) rfl)
      (hlast { st.send msg with reader := some [.Return] } ⟨h.state, ?_, ?_, ?_, ?_⟩ rfl)
    · exact modifyStream_get (modifyStream_get h.stream)
    · exact .inr ⟨_, rfl, .returns⟩
    · simpa using h.writer
    · exact Nat.le_trans h.sent (Stream.send_sent_le _ msg)
  generalize ho : a.op_log = o at hrest
  induction hrest generalizing a st with
  | returns => exact hlast st h hr
  | puts hf hrest ih =>
    rename_i f script w
    refine .step (.inl rfl) (read_step h.stream hr (by simp) rfl)
      (ih (show Rejecting n err i w { st with reader := some script } _ from
        ⟨h.state, ?_, ?_, h.writer, h.sent⟩) hfree rfl ho)
    · exact modifyStream_get h.stream
    · exact .inr ⟨_, rfl, ho ▸ hrest⟩
  | fails hrest ih =>
    rename_i script w
    refine .step (.inl rfl) (read_step h.stream hr (by simp) rfl)
      (ih (show Rejecting n err i w { st with reader := some script } _ from
        ⟨?_, ?_, ?_, h.writer, h.sent⟩) hfree rfl ho)
    · simp only [Agent.modifyStream, Agent.moved, h.state]
      rfl
    · exact modifyStream_get h.stream
    · exact .inr ⟨_, rfl, ho ▸ hrest⟩
  | done =>
    by_cases hex : Agent.writerExited st = true
    · have hc : a.exec i a.workflows.length (.TxDone (.error err)) = some (a, []) := by
        simp [Agent.exec, Agent.sendDone, h.stream, hex]
      exact .step (.inl rfl) (read_step h.stream hr (by simp) hc)
        (hlast { st with reader := some [.Return] }
          ⟨h.state, modifyStream_get h.stream, .inr ⟨_, rfl, .returns⟩, h.writer, h.sent⟩ rfl)
    · have hdone : st.done = none := by
        rcases hfree with hpc | hdone
        · exact absurd (by simp [Agent.writerExited, hpc]) hex
        · exact hdone
      let d : Done := ⟨a.workflows.length, .error err⟩
      have hc : a.exec i a.workflows.length (.TxDone (.error err)) =
          some (a.modifyStream i fun s => { s with done := some d }, []) := by
        simp [Agent.exec, Agent.sendDone, h.stream, hex, hdone, d]
      exact .step (.inl rfl) (read_step h.stream hr (by simp) hc)
        (hlast { st with done := some d, reader := some [.Return] }
          ⟨h.state, modifyStream_get (modifyStream_get h.stream), .inr ⟨_, rfl, .returns⟩,
            h.writer, h.sent⟩ rfl)
  | sends herr => exact hsends st h hr
  | opLog hbegin herr =>
    rename_i base m answers stages e
    let reason := s!"Op-log rejected: {e}"
    have hc : a.exec i a.workflows.length (.BeginOpLog base m answers stages) =
        some (a, [.Put (.set_error reason), .Send (errorStats m.agent_id reason 0), .Return]) := by
      simp [Agent.exec, ho, hbegin, reason]
    have hrest : Rest a.op_log err [.Send (errorStats m.agent_id reason 0), .Return] (some .Direct) :=
      .sends (herr ▸ isError_errorStats _ _)
    refine .step (.inl rfl) (read_step h.stream hr (by simp) hc) ?_
    have hb := modifyStream_get (f := fun s => { s with reader := some [
      .Put (.set_error reason), .Send (errorStats m.agent_id reason 0), .Return] }) h.stream
    refine .step (.inl rfl) (read_step hb rfl (by simp) rfl) (hsends
      { st with reader := some [.Send (errorStats m.agent_id reason 0), .Return] }
      ⟨h.state, ?_, .inr ⟨_, rfl, hrest⟩, h.writer, h.sent⟩ rfl)
    simp [Agent.modifyStream, h.stream]

/-- Both tasks come to an end, whatever happened before. -/
theorem Rejecting.ends (h : Rejecting n err i w st a) : ∃ c, Reaches i a c ∧ Settled i c := by
  obtain ⟨b, st1, hab, hb, _, hrests⟩ := h.writer_settles
  obtain ⟨c, st2, hbc, hc, hr⟩ := hb.reader_returns (hrests.imp id And.right)
  -- the reader may have left its error for the writer
  obtain ⟨d, st3, hcd, hd, hr', hrests'⟩ := hc.writer_settles
  exact ⟨d, (hab.trans hbc).trans hcd, st3, hd.stream, hr'.trans hr, hrests'⟩

/-- In the end what was to come has come. -/
theorem Rejecting.settled_iff (h : Rejecting n err i w st a) (hs : Settled i a) (t : Bool) :
    Will n err t w st ↔ ∃ msg ∈ st.sent.drop n, IsError err msg := by
  obtain ⟨st', hst, hr, hrests⟩ := hs
  cases hst.symm.trans h.stream
  have hw : w = none := by
    rcases h.reader with ⟨_, hw⟩ | ⟨script, hr', _⟩
    · exact hw
    · rw [hr] at hr'
      cases hr'
  rcases hrests with hpc | ⟨hpc, hdone⟩
  · simp [Will, Pending, hpc, hw]
  · simp [Will, Pending, NextDone, hpc, hdone, hw]

theorem Rejecting.reported_iff {r : Rejection} (h : Rejecting n r.error i w st a) :
    Reported n r i a ↔ ∃ msg ∈ st.sent.drop n, IsError r.error msg := by
  simp [Reported, Agent.sentOf, h.state, h.stream]

/-- The states in which a failing START is reported: the controller is there,
and the op-log rejects the START, or the stats writer still streams an older
workload and takes this error next, or it is about to send the same error. -/
def CanReport (a : Agent) (st : Stream) (r : Rejection) : Prop :=
  st.connected = true ∧ match r with
    | .OpLog _ => True
    | .Check f => match st.writer.pc with
      | .Streaming => ∀ d, st.done = some d → d.result = .error f.sent
      | .GetTracker =>
        a.cells.tracker.isSome = true ∧ ∀ d, st.done = some d → d.result = .error f.sent
      | .Finishing _ script => ∃ msg, Op.Send msg ∈ script ∧ IsError f.sent msg
      | _ => False

theorem canReport_iff {r : Rejection} :
    CanReport a st r ↔ Pending r.error a.cells.tracker.isSome (some r.way) st := by
  have hnext : ∀ f : StartFailure, NextDone f.sent (some .Done) st ↔
      ∀ d, st.done = some d → d.result = .error f.sent := by
    intro f
    cases hd : st.done <;> simp [NextDone, hd]
  cases r with
  | OpLog e => simp [CanReport, Pending, Rejection.way]
  | Check f =>
    unfold CanReport Pending
    cases hpc : st.writer.pc <;> dsimp only [Rejection.way, Rejection.error] <;> simp [hnext]

end

/-- A START that fails before its workload is launched is reported, in every
run, exactly when the agent is in a state in which it can be. -/
theorem a_failed_start_is_reported_iff {path : Option String} {es : List Event} {a b : Agent}
    {i : Nat} {st : Stream} {m : ControlMessage} {answers : Answers} {r : Rejection}
    (hrun : agentMachine.run (Agent.new path) es = some a) (hst : a.streams[i]? = some st)
    (hr : st.reader = some [.Start m answers]) (hidle : a.state = .Idle)
    (hrej : a.rejects answers = some r) (hs : agentMachine.step a (.Read i) = some b) :
    EndsReported b i r ↔ CanReport a st r := by
  have hexec : a.exec i a.workflows.length (.Start m answers) =
      some (a, startScript a.cells.agent_op_log_path m answers) := by
    simp [Agent.exec, hidle]
  have hb : b = a.modifyStream i fun s =>
      { s with reader := some (startScript a.cells.agent_op_log_path m answers ++ []) } :=
    Option.some.inj (hs.symm.trans (read_step hst hr (by simp) hexec))
  let st' : Stream := { st with reader := some (startScript a.cells.agent_op_log_path m answers) }
  have hstart : Rejecting st.sent.length r.error i (some r.way) st' b := by
    rw [hb, List.append_nil]
    refine ⟨hidle, modifyStream_get hst, .inr ⟨_, rfl, rejects_rest hrej⟩, ?_, Nat.le_refl _⟩
    exact (run_scripts hrun).writers i st.writer (by simp [Agent.writerOf, hst])
  have hwill : Will st.sent.length r.error b.cells.tracker.isSome (some r.way) st' ↔
      CanReport a st r := by
    rw [canReport_iff, hb]
    simp only [Will, st', List.drop_length, List.not_mem_nil, false_and, exists_false, false_or]
    exact Iff.rfl
  have hlen : (b.sentOf i).length = st.sent.length := by
    simp [Agent.sentOf, hstart.stream, st']
  constructor
  · intro h
    obtain ⟨fs, c, hfs, hown, hset⟩ := h.ends [] b rfl trivial
    have hA : agentMachine.Along (Undisturbed i) b fs :=
      Machine.along_of_mem fun e he _ => .inl (hown e he)
    obtain ⟨st'', w', hc, hiff⟩ := hstart.run hA hfs
    have hrep := h.reported fs c hfs hA hset
    rw [hlen, hc.reported_iff] at hrep
    exact hwill.mp (hiff.mp ((hc.settled_iff hset _).mpr hrep))
  · intro h
    refine ⟨fun fs c hfs hA => ?_, fun fs c hfs hA hset => ?_⟩
    · obtain ⟨st'', w', hc, _⟩ := hstart.run hA hfs
      obtain ⟨d, ⟨gs, hgs, hown⟩, hset⟩ := hc.ends
      exact ⟨gs, d, hgs, hown, hset⟩
    · obtain ⟨st'', w', hc, hiff⟩ := hstart.run hA hfs
      rw [hlen, hc.reported_iff]
      exact (hc.settled_iff hset _).mp (hiff.mpr (hwill.mpr h))

/-! ## A new agent -/

/-- A START whose YAML does not parse. -/
def badYaml : Answers := { goodAnswers with parsed := .error "missing field 'workload'" }

/-- A START whose op-log cannot be opened. -/
def badOpLog : Answers := { goodAnswers with logger := .error "permission denied" }

theorem a_failed_op_log_is_reported :
    ∃ a b, agentMachine.run (Agent.new (some "/logs/ops.tsv.zst"))
        [.Connect, .Command 0 startMessage badOpLog] = some a ∧
      agentMachine.step a (.Read 0) = some b ∧
      EndsReported b 0 (.OpLog "permission denied") := by
  have hrun : ∃ a b st, agentMachine.run (Agent.new (some "/logs/ops.tsv.zst"))
        [.Connect, .Command 0 startMessage badOpLog] = some a ∧
      a.streams[0]? = some st ∧ st.reader = some [.Start startMessage badOpLog] ∧
      a.state = .Idle ∧ a.rejects badOpLog = some (.OpLog "permission denied") ∧
      agentMachine.step a (.Read 0) = some b ∧ st.connected = true :=
    ⟨_, _, _, rfl, rfl, rfl, rfl, rfl, rfl, rfl⟩
  obtain ⟨a, b, st, ha, hst, hr, hidle, hrej, hs, hc⟩ := hrun
  exact ⟨a, b, ha, hs, (a_failed_start_is_reported_iff ha hst hr hidle hrej hs).mpr ⟨hc, trivial⟩⟩

/-- A new agent stays Idle after a START whose YAML does not parse, and sends
nothing. -/
theorem an_invalid_config_is_not_reported :
    ∃ a b c f fs, agentMachine.run (Agent.new none)
        [.Connect, .Command 0 startMessage badYaml] = some a ∧
      a.state = .Idle ∧ a.rejects badYaml = some (.Check f) ∧
      agentMachine.step a (.Read 0) = some b ∧ ¬ EndsReported b 0 (.Check f) ∧
      agentMachine.run b fs = some c ∧ Settled 0 c ∧ c.state = .Idle ∧ c.sentOf 0 = [] := by
  have hrun : ∃ a b c f, agentMachine.run (Agent.new none)
        [.Connect, .Command 0 startMessage badYaml] = some a ∧
      a.state = .Idle ∧ a.rejects badYaml = some (.Check f) ∧
      agentMachine.step a (.Read 0) = some b ∧
      agentMachine.run b (.Write 0 .Poll :: List.replicate 10 (.Read 0)) = some c ∧
      Settled 0 c ∧ c.state = .Idle ∧ c.sentOf 0 = [] :=
    ⟨_, _, _, _, rfl, rfl, rfl, rfl, rfl, ⟨_, rfl, rfl, .inl rfl⟩, rfl, rfl⟩
  obtain ⟨a, b, c, f, ha, hidle, hrej, hs, hfs, hset, hstate, hsent⟩ := hrun
  refine ⟨a, b, c, f, _, ha, hidle, hrej, hs, fun h => ?_, hfs, hset, hstate, hsent⟩
  have hA : agentMachine.Along (Undisturbed 0) b (.Write 0 .Poll :: List.replicate 10 (.Read 0)) := by
    refine Machine.along_of_mem fun e he _ => .inl ?_
    rcases List.mem_cons.mp he with rfl | he
    · exact .inr ⟨_, rfl⟩
    · exact .inl (List.eq_of_mem_replicate he)
  have hrep := h.reported _ c hfs hA hset
  simp [Reported, hstate, hsent] at hrep

end sai3_bench.agent
