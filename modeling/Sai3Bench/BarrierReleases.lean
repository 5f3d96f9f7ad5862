-- A release that reaches an agent at a barrier: when it ends the wait, and
-- when the wait throws it away.
import Sai3Bench.AgentSteps

namespace sai3_bench.agent

open broadcasts config machines pb

/-- The barrier that a step releases. -/
def releaseOf (a : Agent) (e : Event) : Option Nat :=
  match a.nextOp e with
  | some (.Release k) => some k
  | _ => none

namespace Agent

/-- The wait of workload `w` at the barrier of its stage `i`. -/
def waitOf (a : Agent) (w i : Nat) : Option BarrierWait := a.workflows[w]?.bind (·.waitAt i)

/-- The wait of stage `i` ended with its release: the next stage comes, or
Completed after the last. -/
def movesOn (a : Agent) (w i : Nat) : Prop :=
  ∃ wf, a.workflows[w]? = some wf ∧ wf.pc = wf.afterStage i

end Agent

/-! ## The wait through one step -/

section

variable {a b : Agent} {e : Event} {w i : Nat} {wf wf' : Workflow} {bw : BarrierWait}

/-- The workflow after a step `r` of its wait. -/
def Goes (wf' : Workflow) (i : Nat) : WaitResult → Prop
  | .Waiting v => wf'.waitAt i = some v
  | .Released => wf'.pc = wf'.afterStage i
  | .NotReleased => ∃ text, wf'.pc = .Finished (.error text)

theorem waitAt_pc (h : wf.waitAt i = some bw) :
    ∃ stage summary, wf.pc = .AtBarrier i stage summary bw := by
  unfold Workflow.waitAt at h
  split at h
  · rename_i j stage summary v hpc
    split at h
    · rename_i hj
      cases h
      exact ⟨stage, summary, hj ▸ hpc⟩
    · cases h
  · cases h

theorem afterWait_goes (wf : Workflow) (i : Nat) (stage summary) (bw : BarrierWait)
    (r : WaitResult) : Goes (wf.afterWait i stage summary bw r) i r := by
  cases r with
  | Waiting v => simp [Goes, Workflow.afterWait, Workflow.waitAt]
  | Released => rfl
  | NotReleased => exact ⟨_, rfl⟩

/-- What one step of the agent can do to a wait. -/
theorem change_wait (hc : Agent.Change a e w wf wf') (hw : wf.waitAt i = some bw) :
    (releaseOf a e = none ∧ wf'.waitAt i = some bw) ∨
    (∃ k, releaseOf a e = some k ∧ wf'.waitAt i = some (bw.hear (k, k))) ∨
    (∃ s r, e = .Work w (.Notify s) ∧ bw.notify = some r ∧ Goes wf' i r) ∨
    (∃ r, e = .Work w .Recv ∧ bw.recv = some r ∧ Goes wf' i r) ∨
    ∃ r, e = .Work w .Timeout ∧ bw.timeout = some r ∧ Goes wf' i r := by
  obtain ⟨stage, summary, hpc⟩ := waitAt_pc hw
  cases hc with
  | same hno =>
    refine .inl ⟨?_, hw⟩
    unfold releaseOf
    split
    · rename_i k hk
      exact absurd hk (hno k)
    · rfl
  | abort hop => exact .inl ⟨by simp [releaseOf, hop], hw⟩
  | release k hop =>
    refine .inr (.inl ⟨k, by simp [releaseOf, hop], ?_⟩)
    simp [Workflow.hear, hpc, Workflow.waitAt]
  | spawn id hop =>
    refine .inl ⟨by simp [releaseOf, hop], ?_⟩
    simpa [Workflow.spawn, hpc] using hw
  | @step we _ notice he hs =>
    subst he
    cases we with
    | Notify s =>
      simp only [Workflow.step, hpc, Option.map_eq_some_iff, Prod.mk.injEq] at hs
      obtain ⟨r, hr, rfl, _⟩ := hs
      exact .inr (.inr (.inl ⟨s, r, rfl, hr, afterWait_goes ..⟩))
    | Recv =>
      simp only [Workflow.step, hpc, Option.map_eq_some_iff, Prod.mk.injEq] at hs
      obtain ⟨r, hr, rfl, _⟩ := hs
      exact .inr (.inr (.inr (.inl ⟨r, rfl, hr, afterWait_goes ..⟩)))
    | Timeout =>
      simp only [Workflow.step, hpc, Option.map_eq_some_iff, Prod.mk.injEq] at hs
      obtain ⟨r, hr, rfl, _⟩ := hs
      exact .inr (.inr (.inr (.inr ⟨r, rfl, hr, afterWait_goes ..⟩)))
    | _ => simp [Workflow.step, hpc] at hs
  | done he hf => rw [hpc] at hf; cases hf

theorem waitOf_some (h : a.waitOf w i = some bw) :
    ∃ wf, a.workflows[w]? = some wf ∧ wf.waitAt i = some bw :=
  Option.bind_eq_some_iff.mp h

theorem waitOf_intro (hwf : a.workflows[w]? = some wf) (h : wf.waitAt i = some bw) :
    a.waitOf w i = some bw := by
  simp [Agent.waitOf, hwf, h]

/-- A workflow that waits does not move on. -/
theorem not_movesOn (h : a.waitOf w i = some bw) : ¬ a.movesOn w i := by
  obtain ⟨wf, hwf, hat⟩ := waitOf_some h
  obtain ⟨stage, summary, hpc⟩ := waitAt_pc hat
  rintro ⟨vf, hvf, hgo⟩
  cases hvf.symm.trans hwf
  rw [hpc] at hgo
  unfold Workflow.afterStage at hgo
  split at hgo <;> cases hgo

/-! ## Every wait of a reachable agent is sound -/

/-- Every wait of the agent is sound. -/
def WaitsSound (a : Agent) : Prop :=
  ∀ (w i : Nat) (bw : BarrierWait), a.waitOf w i = some bw → bw.Sound (i + 1)

/-- Only the subscription makes a new wait. -/
theorem step_new_wait {state stages we stage summary} (hs : wf.Steps state stages we wf')
    (hpc : wf'.pc = .AtBarrier i stage summary bw)
    (hno : ∀ stage summary v, wf.pc ≠ .AtBarrier i stage summary v) :
    BarrierWait.begins (i + 1) = bw := by
  cases hs with
  | subscribes _ _ => cases hpc; rfl
  | subscribesAbort _ => simp only at hpc; split at hpc <;> cases hpc
  | @waits j stage' summary' v _ r hat _ =>
    cases r with
    | Waiting x => cases hpc; exact absurd hat (hno _ _ _)
    | Released => simp only [Workflow.afterWait, Workflow.afterStage] at hpc; split at hpc <;> cases hpc
    | NotReleased => cases hpc
  | _ => cases hpc

/-- A wait after a step was there before it, or begins with it. -/
theorem change_waits_sound (hc : Agent.Change a e w wf wf')
    (h : ∀ i bw, wf.waitAt i = some bw → bw.Sound (i + 1)) :
    ∀ i bw, wf'.waitAt i = some bw → bw.Sound (i + 1) := by
  intro i bw hw
  by_cases hold : ∃ v, wf.waitAt i = some v
  · obtain ⟨v, hv⟩ := hold
    have hsound := h i v hv
    rcases change_wait hc hv with ⟨_, hw'⟩ | ⟨k, _, hw'⟩ | ⟨s, r, _, hr, hg⟩ | ⟨r, _, hr, hg⟩ |
      ⟨r, _, hr, hg⟩
    · cases hw.symm.trans hw'; exact hsound
    · cases hw.symm.trans hw'; exact hsound.hear k
    all_goals
      obtain ⟨stage, summary, hpc⟩ := waitAt_pc hw
      cases r with
      | Released =>
        simp only [Goes, hpc, Workflow.afterStage] at hg
        split at hg <;> cases hg
      | NotReleased => obtain ⟨text, ht⟩ := hg; rw [hpc] at ht; cases ht
      | Waiting x =>
        cases hw.symm.trans hg
        first | exact hsound.notify hr | exact hsound.recv hr | exact hsound.timeout hr
  · -- a new wait: only the subscription makes one
    obtain ⟨stage, summary, hpc⟩ := waitAt_pc hw
    have hno : ∀ stage summary v, wf.pc ≠ .AtBarrier i stage summary v :=
      fun _ _ v hv => hold ⟨v, by simp [Workflow.waitAt, hv]⟩
    cases hc with
    | same _ => exact absurd hpc (hno _ _ _)
    | abort _ => exact absurd hpc (hno _ _ _)
    | release k _ =>
      simp only [Workflow.hear] at hpc
      split at hpc
      · rename_i hv
        cases hpc
        exact absurd hv (hno _ _ _)
      · exact absurd hpc (hno _ _ _)
    | spawn id _ =>
      simp only [Workflow.spawn] at hpc
      split at hpc
      · cases hpc
      · exact absurd hpc (hno _ _ _)
    | done _ _ => cases hpc
    | @step we _ notice _ hs =>
      have hbegins := step_new_wait (Workflow.step_cases hs) hpc hno
      exact hbegins ▸ BarrierWait.begins_sound (i + 1)

theorem step_waits_sound (h : WaitsSound a) (hs : a.step e = some b) : WaitsSound b := by
  intro w i bw hw
  obtain ⟨wf', hwf', hat⟩ := waitOf_some hw
  rcases Agent.step_workflow_back hs hwf' with ⟨wf, hwf, hc⟩ | ⟨_, hpend⟩
  · exact change_waits_sound hc (fun i bw hv => h w i bw (waitOf_intro hwf hv)) i bw hat
  · obtain ⟨stage, summary, hpc⟩ := waitAt_pc hat
    rw [hpend] at hpc
    cases hpc

theorem run_waits_sound {path : Option String} {es : List Event}
    (h : agentMachine.run (Agent.new path) es = some a) : WaitsSound a :=
  Machine.run_always (fun _ _ _ hI hs => step_waits_sound hI hs)
    (by rintro w i bw hw; simp [Agent.waitOf, Agent.new] at hw) h

end

/-! ## What a release does -/

/-- The barriers that a run releases. -/
def releases (a : Agent) (es : List Event) : List Nat :=
  agentMachine.log (fun a e _ => releaseOf a e) a es

/-- The wait of stage `i` of workload `w` lasts. -/
def Waits (w i : Nat) (a : Agent) (_ : Event) : Prop := (a.waitOf w i).isSome = true

/-- A step of the wait itself: its notice, or a read. -/
def OwnStep (w : Nat) (e : Event) : Prop := e = .Work w .Recv ∨ ∃ s, e = .Work w (.Notify s)

/-- The wait has its release for good, whatever else the agent does, as long
as at most `late` further releases come: the wait can end in no other way,
and its own next steps end it. -/
structure EndsReleased (a : Agent) (w i late : Nat) : Prop where
  no_other_end : ∀ es b, agentMachine.run a es = some b → agentMachine.Along (Waits w i) a es →
    (releases a es).length ≤ late → (b.waitOf w i).isSome = true ∨ b.movesOn w i
  own_steps_end_it : ∀ es b, agentMachine.run a es = some b →
    agentMachine.Along (Waits w i) a es → (releases a es).length ≤ late →
    (b.waitOf w i).isSome = true →
    ∃ fs c, (∀ f ∈ fs, OwnStep w f) ∧ fs.length ≤ 18 ∧ agentMachine.run b fs = some c ∧
      c.movesOn w i

section

variable {a b : Agent} {e : Event} {w i late : Nat} {bw : BarrierWait} {es : List Event}

theorem step_hears (h : a.waitOf w i = some bw) (hh : bw.HearsBefore late)
    (hlate : late + (releaseOf a e).toList.length < 16) (hs : a.step e = some b) :
    (∃ v, b.waitOf w i = some v ∧ v.HearsBefore (late + (releaseOf a e).toList.length)) ∨
      b.movesOn w i := by
  obtain ⟨wf, hwf, hat⟩ := waitOf_some h
  obtain ⟨wf', hwf', hc⟩ := Agent.step_workflow hs hwf
  rcases change_wait hc hat with ⟨hr, hw'⟩ | ⟨k, hr, hw'⟩ | ⟨s, r, _, hr, hg⟩ | ⟨r, _, hr, hg⟩ |
    ⟨r, _, hr, _⟩
  · rw [hr]
    exact .inl ⟨bw, waitOf_intro hwf' hw', hh⟩
  · rw [hr] at hlate ⊢
    exact .inl ⟨_, waitOf_intro hwf' hw', hh.hear hlate _⟩
  · obtain ⟨v, rfl, hv⟩ := hh.notify hr
    exact .inl ⟨v, waitOf_intro hwf' hg, hv.mono (by omega)⟩
  · rcases hh.recv hr with rfl | ⟨v, rfl, hv, _⟩
    · exact .inr ⟨wf', hwf', hg⟩
    · exact .inl ⟨v, waitOf_intro hwf' hg, hv.mono (by omega)⟩
  · rw [hh.hears.no_timeout] at hr
    cases hr

theorem run_hears (h : a.waitOf w i = some bw) (hh : bw.HearsBefore late)
    (hr : agentMachine.run a es = some b) (hA : agentMachine.Along (Waits w i) a es)
    (hlate : late + (releases a es).length < 16) :
    (∃ v, b.waitOf w i = some v ∧ v.HearsBefore (late + (releases a es).length)) ∨
      b.movesOn w i := by
  induction es generalizing a bw late with
  | nil =>
    cases hr
    exact .inl ⟨bw, h, by simpa [releases, Machine.log] using hh⟩
  | cons e es ih =>
    obtain ⟨c, hc, hb⟩ := Machine.run_cons_iff.mp hr
    have hlen : (releases a (e :: es)).length =
        (releaseOf a e).toList.length + (releases c es).length := by
      simp [releases, Machine.log, hc]
    rw [hlen] at hlate ⊢
    have hA' := hA.2 c hc
    rcases step_hears h hh (by omega) hc with ⟨v, hv, hhv⟩ | hmoves
    · rw [← Nat.add_assoc]
      exact ih hv hhv hb hA' (by omega)
    · -- the wait is over: no further step of the run
      cases es with
      | nil => cases hb; exact .inr hmoves
      | cons f fs =>
        obtain ⟨v, hv⟩ := Option.isSome_iff_exists.mp hA'.1
        exact absurd hmoves (not_movesOn hv)

/-- A step of the wait is a step of the agent. -/
theorem work_wait {we : WorkEvent} {r : WaitResult} (h : a.waitOf w i = some bw)
    (hwe : we = .Recv ∨ ∃ s, we = .Notify s) (hr : Workflow.waitStep bw we = some r) :
    ∃ b wf', a.step (.Work w we) = some b ∧ b.workflows[w]? = some wf' ∧ Goes wf' i r := by
  obtain ⟨wf, hwf, hat⟩ := waitOf_some h
  obtain ⟨stage, summary, hpc⟩ := waitAt_pc hat
  have hlt := (List.getElem?_eq_some_iff.mp hwf).1
  obtain ⟨notice, hstep⟩ : ∃ notice, wf.step a.state a.cells.stages we =
      some (wf.afterWait i stage summary bw r, notice) := by
    rcases hwe with rfl | ⟨s, rfl⟩ <;> simp only [Workflow.waitStep] at hr <;>
      simp [Workflow.step, hpc, hr]
  obtain ⟨b, hb, hset⟩ := Agent.work_step hwf hstep
  exact ⟨b, wf.afterWait i stage summary bw r, hb, by simp [hset, hlt], afterWait_goes ..⟩

/-- The reads of a wait that has its release end it. -/
theorem reads_end (h : a.waitOf w i = some bw) (hh : bw.HearsBefore late)
    (hl : bw.phase = .Listening) :
    ∃ fs c, (∀ f ∈ fs, OwnStep w f) ∧ fs.length ≤ bw.barrier_rx.unread ∧
      agentMachine.run a fs = some c ∧ c.movesOn w i := by
  induction hn : bw.barrier_rx.unread using Nat.strongRecOn generalizing a bw with
  | _ n ih =>
    obtain ⟨r, hr⟩ := hh.hears.can_read hl
    obtain ⟨b, wf', hb, hwf', hg⟩ := work_wait h (.inl rfl) hr
    rcases hh.recv hr with rfl | ⟨v, rfl, hv, hvl, hlt⟩
    · refine ⟨[.Work w .Recv], b, by simp [OwnStep], ?_, Machine.run_cons_iff.mpr ⟨b, hb, rfl⟩,
        wf', hwf', hg⟩
      obtain ⟨m, hm, _⟩ := hh.hears
      have : 0 < bw.barrier_rx.pending.length := List.length_pos_of_mem hm
      simp only [List.length_singleton, ← hn, Receiver.unread]
      omega
    · obtain ⟨fs, c, hfs, hlen, hrun, hc⟩ := ih _ (hn ▸ hlt) (waitOf_intro hwf' hg) hv hvl rfl
      refine ⟨.Work w .Recv :: fs, c, ?_, ?_, Machine.run_cons_iff.mpr ⟨b, hb, hrun⟩, hc⟩
      · intro f hf
        rcases List.mem_cons.mp hf with rfl | hf
        · exact .inl rfl
        · exact hfs f hf
      · simp only [List.length_cons]
        omega

/-- The next steps of a wait that has its release end it: at most its notice
and seventeen reads. -/
theorem own_steps_end (h : a.waitOf w i = some bw) (hh : bw.HearsBefore late) :
    ∃ fs c, (∀ f ∈ fs, OwnStep w f) ∧ fs.length ≤ 18 ∧ agentMachine.run a fs = some c ∧
      c.movesOn w i := by
  cases hp : bw.phase with
  | Listening =>
    obtain ⟨fs, c, hfs, hlen, hrun, hc⟩ := reads_end h hh hp
    have := bw.barrier_rx.unread_le
    exact ⟨fs, c, hfs, by omega, hrun, hc⟩
  | Notifying =>
    have hr : bw.notify = some (.Waiting { bw with phase := .Listening }) := by
      simp [BarrierWait.notify, hp]
    obtain ⟨b, wf', hb, hwf', hg⟩ := work_wait h (.inr ⟨{}, rfl⟩) hr
    obtain ⟨v, hv, hhv⟩ := hh.notify hr
    cases hv
    obtain ⟨fs, c, hfs, hlen, hrun, hc⟩ := reads_end (waitOf_intro hwf' hg) hhv rfl
    have := bw.barrier_rx.unread_le
    refine ⟨.Work w (.Notify {}) :: fs, c, ?_, ?_, Machine.run_cons_iff.mpr ⟨b, hb, hrun⟩, hc⟩
    · intro f hf
      rcases List.mem_cons.mp hf with rfl | hf
      · exact .inr ⟨{}, rfl⟩
      · exact hfs f hf
    · simp only [List.length_cons]
      simp only at hlen
      omega

/-- The own steps of a wait without a release do not end it. -/
theorem deaf_waits (h : a.waitOf w i = some bw) (hd : bw.Deaf) (hfs : ∀ f ∈ es, OwnStep w f)
    (hr : agentMachine.run a es = some b) : ∃ v, b.waitOf w i = some v ∧ v.Deaf := by
  induction es generalizing a bw with
  | nil => cases hr; exact ⟨bw, h, hd⟩
  | cons f fs ih =>
    obtain ⟨c, hc, hb⟩ := Machine.run_cons_iff.mp hr
    obtain ⟨wf, hwf, hat⟩ := waitOf_some h
    obtain ⟨wf', hwf', hch⟩ := Agent.step_workflow hc hwf
    have hown := hfs f (by simp)
    have hrest : ∀ g ∈ fs, OwnStep w g := fun g hg => hfs g (by simp [hg])
    have hno : releaseOf a f = none := by
      rcases hown with rfl | ⟨s, rfl⟩ <;> rfl
    rcases change_wait hch hat with ⟨_, hw'⟩ | ⟨k, hk, _⟩ | ⟨s, r, _, hr, hg⟩ | ⟨r, _, hr, hg⟩ |
      ⟨r, he, _⟩
    · exact ih (waitOf_intro hwf' hw') hd hrest hb
    · rw [hno] at hk; cases hk
    · obtain ⟨v, rfl, hv⟩ := hd.notify hr
      exact ih (waitOf_intro hwf' hg) hv hrest hb
    · obtain ⟨v, rfl, hv⟩ := hd.recv hr
      exact ih (waitOf_intro hwf' hg) hv hrest hb
    · -- a timeout is no step of its own
      subst he
      rcases hown with ht | ⟨s, ht⟩ <;> cases ht

/-! ## Releases that push out others -/

/-- A RELEASE_BARRIER command and its handling. -/
def releaseEvents (s k : Nat) : List Event :=
  [.Command s { command := some .ReleaseBarrier, barrier_sequence := k } default, .Read s]

theorem hear_waitAt (wf : Workflow) (m : Nat × Nat) (i : Nat) :
    (wf.hear m).waitAt i = (wf.waitAt i).map (·.hear m) := by
  cases hpc : wf.pc with
  | AtBarrier j stage summary v =>
    by_cases hj : j = i <;> simp [Workflow.hear, Workflow.waitAt, hpc, hj]
  | _ => simp [Workflow.hear, Workflow.waitAt, hpc]

/-- A stream with nothing to read takes a release, and is as before. -/
theorem release_events {s k : Nat} {st : Stream} (hst : a.streams[s]? = some st)
    (hr : st.reader = some []) (h : a.waitOf w i = some bw) :
    ∃ c, agentMachine.run a (releaseEvents s k) = some c ∧
      agentMachine.Along (Waits w i) a (releaseEvents s k) ∧
      releases a (releaseEvents s k) = [k] ∧ c.waitOf w i = some (bw.hear (k, k)) ∧
      ∃ st', c.streams[s]? = some st' ∧ st'.reader = some [] := by
  let b : Agent := a.modifyStream s fun st => { st with reader := some [.Release k] }
  let c : Agent := { b with
    workflows := a.workflows.map (·.hear (k, k))
    streams := b.streams.modify s fun st => { st with reader := some [] } }
  have hb : agentMachine.step a (.Command s { command := some .ReleaseBarrier, barrier_sequence := k }
      default) = some b := by
    simp [agentMachine, Agent.step, Agent.readsNew, hst, hr, handle, b]
  have hbs : b.streams[s]?.bind (·.reader) = some [.Release k] := by
    simp [b, Agent.modifyStream, hst]
  have hc : agentMachine.step b (.Read s) = some c := by
    simp only [agentMachine, Agent.step, Agent.read, hbs]
    rfl
  have hbw : b.waitOf w i = some bw := h
  have hno : releaseOf a (.Command s { command := some .ReleaseBarrier, barrier_sequence := k }
      default) = none := rfl
  have hyes : releaseOf b (.Read s) = some k := by
    simp [releaseOf, Agent.nextOp, hbs]
  refine ⟨c, ?_, ?_, ?_, ?_, ?_⟩
  · exact Machine.run_cons_iff.mpr ⟨b, hb, Machine.run_cons_iff.mpr ⟨c, hc, rfl⟩⟩
  · refine ⟨by simp [Waits, h], fun t ht => ?_⟩
    cases hb.symm.trans ht
    exact ⟨by simp [Waits, hbw], fun _ _ => trivial⟩
  · simp [releases, releaseEvents, Machine.log, hb, hc, hno, hyes]
  · obtain ⟨wf, hwf, hat⟩ := waitOf_some h
    simp [Agent.waitOf, c, hwf, hear_waitAt, hat]
  · exact ⟨{ st with reader := some [] }, by simp [c, b, Agent.modifyStream, hst], rfl⟩

theorem flood {s k : Nat} (n : Nat) {st : Stream} (hst : a.streams[s]? = some st)
    (hr : st.reader = some []) (h : a.waitOf w i = some bw) :
    ∃ es c, agentMachine.run a es = some c ∧ agentMachine.Along (Waits w i) a es ∧
      releases a es = List.replicate n k ∧
      c.waitOf w i = some ((List.replicate n (k, k)).foldl BarrierWait.hear bw) := by
  induction n generalizing a bw st with
  | zero => exact ⟨[], a, rfl, trivial, rfl, h⟩
  | succ n ih =>
    obtain ⟨c, hc, hA, hrel, hw, st', hst', hr'⟩ := release_events (k := k) hst hr h
    obtain ⟨es, d, hd, hA', hrel', hw'⟩ := ih hst' hr' hw
    refine ⟨releaseEvents s k ++ es, d, ?_, ?_, ?_, ?_⟩
    · exact Machine.run_append_iff.mpr ⟨c, hc, hd⟩
    · exact (Machine.along_append hc).mpr ⟨hA, hA'⟩
    · unfold releases at hrel hrel' ⊢
      rw [Machine.log_append hc, hrel, hrel']
      rfl
    · simpa [List.replicate_succ] using hw'

end

/-! ## When a release ends the wait -/

section

variable {a b : Agent} {e : Event} {w i late : Nat} {bw : BarrierWait}

/-- The wait right after a release reached it. -/
theorem released_wait (hw : a.waitOf w i = some bw) {k : Nat} (he : releaseOf a e = some k)
    (hs : agentMachine.step a e = some b) : b.waitOf w i = some (bw.hear (k, k)) := by
  obtain ⟨wf, hwf, hat⟩ := waitOf_some hw
  obtain ⟨wf', hwf', hc⟩ := Agent.step_workflow hs hwf
  rcases change_wait hc hat with ⟨hr, _⟩ | ⟨j, hr, hw'⟩ | ⟨_, _, rfl, _⟩ | ⟨_, rfl, _⟩ | ⟨_, rfl, _⟩
  · rw [he] at hr; cases hr
  · rw [he] at hr
    cases hr
    exact waitOf_intro hwf' hw'
  all_goals cases he

/-- A wait that can go deaf does not have its release for good. -/
theorem not_endsReleased {fs : List Event} {c : Agent} {v : BarrierWait}
    (hfs : agentMachine.run b fs = some c) (hA : agentMachine.Along (Waits w i) b fs)
    (hlen : (releases b fs).length ≤ late) (hv : c.waitOf w i = some v) (hd : v.Deaf) :
    ¬ EndsReleased b w i late := by
  intro h
  obtain ⟨gs, d, hgs, _, hrun, hmoves⟩ := h.own_steps_end_it fs c hfs hA hlen (by simp [hv])
  obtain ⟨x, hx, _⟩ := deaf_waits hv hd hgs hrun
  exact not_movesOn hx hmoves

/-- After more timeouts than its index a wait throws every release away. -/
theorem BarrierWait.Sound.deaf (h : bw.Sound (i + 1)) (hlt : barrier_index_of (i + 1) < bw.retry) : bw.Deaf := by
  intro m hm
  have htwin := h.twins m hm
  have hindex := h.index
  have hcounts := h.counts
  rw [Bool.eq_false_iff]
  intro hacc
  simp only [BarrierWait.accepts, Bool.and_eq_true, beq_iff_eq, decide_eq_true_eq] at hacc
  omega

/-- Sixteen releases of the next barrier, on a new stream, push a release out. -/
theorem can_go_deaf (hw : b.waitOf w i = some bw) :
    ∃ fs c v, agentMachine.run b fs = some c ∧ agentMachine.Along (Waits w i) b fs ∧
      (releases b fs).length = 16 ∧ c.waitOf w i = some v ∧ v.Deaf := by
  let d : Agent := { b with streams := b.streams ++ [{}] }
  have hd : agentMachine.step b .Connect = some d := rfl
  have hnew : d.streams[b.streams.length]? = some {} := by simp [d]
  have hdw : d.waitOf w i = some bw := hw
  obtain ⟨fs, c, hfs, hA, hrel, hv⟩ := flood (k := bw.barrier_index + 1) 16 hnew rfl hdw
  refine ⟨.Connect :: fs, c, _, Machine.run_cons_iff.mpr ⟨d, hd, hfs⟩, ?_, ?_, hv, ?_⟩
  · refine ⟨by simp [Waits, hw], fun t ht => ?_⟩
    cases hd.symm.trans ht
    exact hA
  · have : releases b (.Connect :: fs) = releases d fs := by
      simp [releases, Machine.log, hd, releaseOf, Agent.nextOp]
    rw [this, hrel, List.length_replicate]
  · refine BarrierWait.deaf_of_hears _ (by simp) ?_
    intro m hm
    obtain ⟨_, rfl⟩ := List.mem_replicate.mp hm
    simp [BarrierWait.accepts]

end

/-- A release that reaches an agent at its barrier ends the wait, whatever
else happens, exactly when the wait has gone through no more timeouts than
the index of its barrier, and fewer than sixteen releases come after it. -/
theorem a_release_ends_the_wait_iff {path : Option String} {es : List Event} {a b : Agent}
    {e : Event} {w i late : Nat} {bw : BarrierWait}
    (hrun : agentMachine.run (Agent.new path) es = some a) (hw : a.waitOf w i = some bw)
    (he : releaseOf a e = some (barrier_index_of (i + 1)))
    (hs : agentMachine.step a e = some b) :
    EndsReleased b w i late ↔ bw.retry ≤ barrier_index_of (i + 1) ∧ late < 16 := by
  have hsound := run_waits_sound hrun w i bw hw
  have hbw := released_wait hw he hs
  constructor
  · intro h
    constructor
    · by_contra hlt
      have hd := (hsound.hear (barrier_index_of (i + 1))).deaf (Nat.lt_of_not_le hlt)
      exact not_endsReleased Machine.run_nil Machine.along_nil (Nat.zero_le _) hbw hd h
    · by_contra hlate
      obtain ⟨fs, c, v, hfs, hA, hlen, hv, hd⟩ := can_go_deaf hbw
      exact not_endsReleased hfs hA (by omega) hv hd h
  · rintro ⟨hle, hlate⟩
    have hacc : bw.accepts (barrier_index_of (i + 1), barrier_index_of (i + 1)) = true := by
      simp [BarrierWait.accepts, hsound.index, hsound.counts, hle]
    have hh := BarrierWait.hear_hears hacc
    refine ⟨?_, ?_⟩
    · intro fs c hfs hA hlen
      rcases run_hears hbw hh hfs hA (by omega) with ⟨v, hv, _⟩ | hmoves
      · exact .inl (by simp [hv])
      · exact .inr hmoves
    · intro fs c hfs hA hlen hwaits
      rcases run_hears hbw hh hfs hA (by omega) with ⟨v, hv, hhv⟩ | hmoves
      · exact own_steps_end hv hhv
      · obtain ⟨v, hv⟩ := Option.isSome_iff_exists.mp hwaits
        exact absurd hmoves (not_movesOn hv)

/-! ## An agent at its first barrier -/

/-- A run of one stage. -/
def oneStage : DistributedConfig :=
  { stages := [{ name := "load", order := 1, completion := .Duration, barrier := none,
                 timeout_secs := none, optional := false, config := .Execute 1000000000 }]
    barrier_sync := {} }

def startMessage : ControlMessage :=
  { command := some .Start, config_yaml := "stages", agent_id := "agent-1", num_agents := 1 }

/-- A START whose config is fine. -/
def goodAnswers : Answers :=
  { parsed := .ok { distributed := some oneStage, op_log_path := none }
    prefixed := .ok { distributed := some oneStage, op_log_path := none }
    validated := .ok ()
    op_log_path := ""
    op_log_key := ""
    logger := .ok ()
    preflight := "" }

/-- A START on stream `s`, up to the spawn of the workflow. -/
def startEvents (s : Nat) : List Event :=
  .Command s startMessage goodAnswers :: List.replicate 13 (.Read s)

/-- The first stage of workload `w`, up to its wait at the barrier. -/
def stageEvents (w : Nat) : List Event :=
  [.Work w .LoadStages, .Work w .SubscribeAbort, .Work w (.CheckAbort false), .Work w .Enter,
    .Work w (.Execute (.ok ())), .Work w .MarkReady, .Work w (.SubscribeBarrier {}),
    .Work w (.Notify {})]

/-- The agent waits at barrier 0, and RELEASE_BARRIER 0 has come. -/
def releasedRun (timeouts : Nat) : List Event :=
  .Connect :: startEvents 0 ++ stageEvents 0 ++ List.replicate timeouts (.Work 0 .Timeout) ++
    [.Command 0 { command := some .ReleaseBarrier, barrier_sequence := 0 } default]

theorem a_release_ends_the_first_wait :
    ∃ a b bw, agentMachine.run (Agent.new none) (releasedRun 0) = some a ∧
      a.waitOf 0 0 = some bw ∧ releaseOf a (.Read 0) = some (barrier_index_of 1) ∧
      agentMachine.step a (.Read 0) = some b ∧ EndsReleased b 0 0 15 := by
  have hrun : ∃ a b bw, agentMachine.run (Agent.new none) (releasedRun 0) = some a ∧
      a.waitOf 0 0 = some bw ∧ releaseOf a (.Read 0) = some (barrier_index_of 1) ∧
      agentMachine.step a (.Read 0) = some b ∧ bw.retry = 0 := ⟨_, _, _, rfl, rfl, rfl, rfl, rfl⟩
  obtain ⟨a, b, bw, ha, hw, he, hs, hr⟩ := hrun
  exact ⟨a, b, bw, ha, hw, he, hs,
    (a_release_ends_the_wait_iff ha hw he hs).mpr ⟨by rw [hr]; decide, by decide⟩⟩

/-- One timeout at barrier 0, and its release is thrown away, though no
other release comes. -/
theorem a_release_after_a_timeout_is_lost :
    ∃ a b bw, agentMachine.run (Agent.new none) (releasedRun 1) = some a ∧
      a.waitOf 0 0 = some bw ∧ bw.retry = 1 ∧ releaseOf a (.Read 0) = some (barrier_index_of 1) ∧
      agentMachine.step a (.Read 0) = some b ∧ ¬ EndsReleased b 0 0 0 := by
  have hrun : ∃ a b bw, agentMachine.run (Agent.new none) (releasedRun 1) = some a ∧
      a.waitOf 0 0 = some bw ∧ releaseOf a (.Read 0) = some (barrier_index_of 1) ∧
      agentMachine.step a (.Read 0) = some b ∧ bw.retry = 1 := ⟨_, _, _, rfl, rfl, rfl, rfl, rfl⟩
  obtain ⟨a, b, bw, ha, hw, he, hs, hr⟩ := hrun
  have hlate : barrier_index_of 1 < bw.retry := by rw [hr]; decide
  have hd := ((run_waits_sound ha 0 0 bw hw).hear (barrier_index_of 1)).deaf hlate
  exact ⟨a, b, bw, ha, hw, hr, he, hs,
    not_endsReleased Machine.run_nil Machine.along_nil (Nat.le_refl 0) (released_wait hw he hs) hd⟩

end sai3_bench.agent
