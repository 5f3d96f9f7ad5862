-- The final summary of a workload: the tracker starts anew with each stage,
-- and the summary is what it holds after the last one.
import Sai3Bench.LiveTrackers
import Sai3Bench.Machines

namespace sai3_bench.agent

open broadcasts config live_stats machines pb LiveStatsTracker Workflow

/-! ## A task with its tracker -/

/-- The task of one workload and the tracker that the workload records in. -/
structure Tracked where
  wf : Workflow
  tracker : LiveStatsTracker

inductive TrackedEvent
  | Work (state : WorkloadState) (stages : Option (List StageConfig)) (we : WorkEvent)
  | Record (op : Request)
  | Release (m : Nat × Nat)
  | Abort

/-- A snapshot has the counters of the tracker. -/
def readsOf (t : LiveStatsTracker) (s : Snapshot) : Bool :=
  s.get_ops = t.get_ops && s.get_bytes = t.get_bytes && s.put_ops = t.put_ops &&
    s.put_bytes = t.put_bytes && s.meta_ops = t.meta_ops

/-- The snapshots that a step takes are read from the tracker. -/
def reads (t : LiveStatsTracker) : WorkEvent → Bool
  | .SubscribeBarrier s | .Notify s | .Complete s => readsOf t s
  | _ => true

/-- A stage that starts resets the tracker. -/
def trackerAfter (t : LiveStatsTracker) : WorkEvent → Pc → LiveStatsTracker
  | .Enter, .Executing _ => t.reset_for_stage
  | _, _ => t

def Tracked.step (t : Tracked) : TrackedEvent → Option Tracked
  | .Work state stages we =>
    if reads t.tracker we then
      (t.wf.step state stages we).map fun r => ⟨r.1, trackerAfter t.tracker we r.1.pc⟩
    else none
  | .Record op => match t.wf.pc with
    | .Executing _ => some { t with tracker := t.tracker.record op }
    | _ => none
  | .Release m => some { t with wf := t.wf.hear m }
  | .Abort => some { t with wf := t.wf.hearAbort }

def trackedMachine : Machine Tracked TrackedEvent := ⟨Tracked.step⟩

/-- A task that was just spawned, with a new tracker. -/
def Tracked.spawned (stream : Nat) (agent_id : String) : Tracked :=
  ⟨⟨stream, agent_id, [], .Spawned, Receiver.subscribe⟩, {}⟩

/-! ## What a run performs and tells -/

/-- The operation of an event, with the stage that performs it. -/
def recordedAt (t : Tracked) : TrackedEvent → Option (Nat × Request)
  | .Record op => match t.wf.pc with
    | .Executing i => some (i, op)
    | _ => none
  | _ => none

/-- The stage summary in the message of an event. -/
def sentAt (t : Tracked) : TrackedEvent → Option StageSummary
  | .Work state stages we =>
    ((t.wf.step state stages we).bind (·.2)).bind (·.stage_summary)
  | _ => none

def recorded (t : Tracked) (es : List TrackedEvent) : List (Nat × Request) :=
  trackedMachine.log (fun t e _ => recordedAt t e) t es

def summaries (t : Tracked) (es : List TrackedEvent) : List StageSummary :=
  trackedMachine.log (fun t e _ => sentAt t e) t es

/-- The operations of stage `i`, oldest first. -/
def performed (rs : List (Nat × Request)) (i : Nat) : List Request := (rs.filter (·.1 = i)).map (·.2)

def stageOps (s : StageSummary) : OpKind → Nat
  | .Get => s.get_ops
  | .Put => s.put_ops
  | .Meta => s.meta_ops

def stageBytes (s : StageSummary) : OpKind → Nat
  | .Get => s.get_bytes
  | .Put => s.put_bytes
  | .Meta => 0

def Summary.ops (s : Summary) : OpKind → Nat
  | .Get => s.get.ops
  | .Put => s.put.ops
  | .Meta => s.meta.ops

def Summary.bytes (s : Summary) : OpKind → Nat
  | .Get => s.get.bytes
  | .Put => s.put.bytes
  | .Meta => s.meta.bytes

/-- The final summary counts what the summaries of the execute stages count. -/
def CoversRun (final : Summary) (sent : List StageSummary) : Prop :=
  ∀ k, final.ops k = ((sent.filter (·.stage_type = "execute")).map (stageOps · k)).sum ∧
    final.bytes k = ((sent.filter (·.stage_type = "execute")).map (stageBytes · k)).sum

def isExecute (stage : StageConfig) : Bool :=
  match stage.config with
  | .Execute _ => true
  | _ => false

/-- The operations of the execute stages among the first `n` stages. -/
def executed (ls : List StageConfig) (ops : Nat → List Request) : Nat → List Request
  | 0 => []
  | n + 1 => executed ls ops n ++ if ls[n]?.any isExecute then ops n else []

/-- The last stage stands for all: it is an execute stage and those before it
perform nothing, or it is another one and performs as much as they do. -/
def LastStandsForAll (ls : List StageConfig) (ops : Nat → List Request) : Prop :=
  let before := executed ls ops (ls.length - 1)
  let last := ops (ls.length - 1)
  if ls.getLast?.any isExecute then before = []
  else ∀ k, opsOf k last = opsOf k before ∧ bytesOf k last = bytesOf k before

/-! ## The summaries as the stages give them -/

variable {ls : List StageConfig} {ops : Nat → List Request} {k : OpKind} {t u : Tracked}
  {tr : LiveStatsTracker}

/-- The counters of a tracker as a snapshot. -/
def snapshotOf (t : LiveStatsTracker) : Snapshot :=
  { get_ops := t.get_ops
    get_bytes := t.get_bytes
    put_ops := t.put_ops
    put_bytes := t.put_bytes
    meta_ops := t.meta_ops }

theorem readsOf_iff {s : Snapshot} : readsOf tr s = true ↔
    s.get_ops = tr.get_ops ∧ s.get_bytes = tr.get_bytes ∧ s.put_ops = tr.put_ops ∧
      s.put_bytes = tr.put_bytes ∧ s.meta_ops = tr.meta_ops := by
  simp [readsOf, and_assoc]

theorem stageSummaryOf_reads {s : Snapshot} (h : readsOf tr s = true) (i : Nat)
    (stage : StageConfig) : stageSummaryOf i stage s = stageSummaryOf i stage (snapshotOf tr) := by
  obtain ⟨h₁, h₂, h₃, h₄, h₅⟩ := readsOf_iff.mp h
  simp [stageSummaryOf, snapshotOf, h₁, h₂, h₃, h₄, h₅]

theorem summaryOf_reads {s : Snapshot} (h : readsOf tr s = true) :
    Summary.of s = Summary.of (snapshotOf tr) := by
  obtain ⟨h₁, h₂, h₃, h₄, h₅⟩ := readsOf_iff.mp h
  simp [Summary.of, snapshotOf, h₁, h₂, h₃, h₄, h₅]

/-- The summaries of the first `n` stages. -/
def summariesOf (ls : List StageConfig) (ops : Nat → List Request) : Nat → List StageSummary
  | 0 => []
  | n + 1 => summariesOf ls ops n ++
      (ls[n]?.map fun stage => stageSummaryOf n stage (snapshotOf (after (ops n)))).toList

theorem stageSummaryOf_ops {i : Nat} {stage : StageConfig} :
    stageOps (stageSummaryOf i stage (snapshotOf tr)) k = tr.ops k ∧
      stageBytes (stageSummaryOf i stage (snapshotOf tr)) k = tr.bytes k := by
  cases k <;> exact ⟨rfl, rfl⟩

theorem summary_ops : (Summary.of (snapshotOf tr)).ops k = tr.ops k ∧
    (Summary.of (snapshotOf tr)).bytes k = tr.bytes k := by
  cases k <;> exact ⟨rfl, rfl⟩

theorem stage_type_execute {stage : StageConfig} :
    stage_type stage.config = "execute" ↔ isExecute stage = true := by
  unfold stage_type isExecute
  cases stage.config <;> simp

/-- The summaries of the execute stages count the operations of these stages. -/
theorem summariesOf_sum (n : Nat) :
    (((summariesOf ls ops n).filter (·.stage_type = "execute")).map (stageOps · k)).sum =
        opsOf k (executed ls ops n) ∧
      (((summariesOf ls ops n).filter (·.stage_type = "execute")).map
        (stageBytes · k)).sum = bytesOf k (executed ls ops n) := by
  induction n with
  | zero => exact ⟨rfl, rfl⟩
  | succ n ih =>
    obtain ⟨ihops, ihbytes⟩ := ih
    unfold summariesOf executed
    rw [List.filter_append, List.map_append, List.map_append, List.sum_append, List.sum_append,
      opsOf_append, bytesOf_append, ihops, ihbytes]
    cases hs : ls[n]? with
    | none => simp
    | some stage =>
      have htype : (stageSummaryOf n stage (snapshotOf (after (ops n)))).stage_type = "execute" ↔
          isExecute stage = true := stage_type_execute
      by_cases hx : isExecute stage = true
      · simp [htype, hx, stageSummaryOf_ops, after_ops, after_bytes]
      · simp [htype, hx]

/-- Later stages do not change the summaries of earlier ones. -/
theorem summariesOf_congr {ops' : Nat → List Request} {n : Nat} (h : ∀ i < n, ops i = ops' i) :
    summariesOf ls ops n = summariesOf ls ops' n := by
  induction n with
  | zero => rfl
  | succ n ih =>
    unfold summariesOf
    rw [ih fun i hi => h i (by omega), h n (by omega)]

/-! ## The run -/

variable {rs : List (Nat × Request)} {sent : List StageSummary} {e : TrackedEvent} {n m : Nat}

/-- A wait whose first notice is sent. -/
def told (w : BarrierWait) : Bool := w.phase = .Listening || decide (0 < w.retry)

/-- How many stages have sent their summary, and how many have started. -/
def counted (ls : List StageConfig) : Pc → Option (Nat × Nat)
  | .Spawned | .Loaded => some (0, 0)
  | .StageTop i | .Entering i => some (i, i)
  | .Executing i | .Executed i | .Ready i => some (i, i + 1)
  | .AtBarrier i _ _ w => some (if told w then i + 1 else i, i + 1)
  | .AllDone | .Finished (.ok _) => some (ls.length, ls.length)
  | _ => none

/-- The first `n` of the `m` stages that started have sent their summary, and
the tracker counts the last of the `m`. -/
structure Told (rs : List (Nat × Request)) (sent : List StageSummary) (ls : List StageConfig)
    (n m : Nat) (tr : LiveStatsTracker) : Prop where
  sent : sent = summariesOf ls (performed rs) n
  within : ∀ r ∈ rs, r.1 < m
  tracker : tr = after (performed rs (m - 1))

/-- What the task keeps of the tracker: the summary of the stage at whose
barrier it is, or the final one. -/
def Kept (ls : List StageConfig) (tr : LiveStatsTracker) : Pc → Prop
  | .AtBarrier i stage summary _ =>
    ls[i]? = some stage ∧ summary = stageSummaryOf i stage (snapshotOf tr)
  | .Finished (.ok final) => final = Summary.of (snapshotOf tr)
  | _ => True

def Tells (rs : List (Nat × Request)) (sent : List StageSummary) (t : Tracked) : Prop :=
  Kept t.wf.stages t.tracker t.wf.pc ∧ ∀ n m, counted t.wf.stages t.wf.pc = some (n, m) →
    Told rs sent t.wf.stages n m t.tracker

theorem performed_snoc (rs : List (Nat × Request)) (i j : Nat) (op : Request) :
    performed (rs ++ [(i, op)]) j = performed rs j ++ if i = j then [op] else [] := by
  unfold performed
  rw [List.filter_append, List.map_append]
  by_cases h : i = j <;> simp [h]

theorem performed_nil (h : ∀ r ∈ rs, r.1 < m) : performed rs m = [] := by
  unfold performed
  rw [List.map_eq_nil_iff, List.filter_eq_nil_iff]
  intro r hr
  have := h r hr
  simp only [decide_eq_true_eq]
  omega

/-- A stage that starts has performed nothing. -/
theorem Told.starts (h : Told rs sent ls n m tr) : Told rs sent ls n (m + 1) tr.reset_for_stage := by
  refine ⟨h.sent, fun r hr => Nat.lt_succ_of_lt (h.within r hr), ?_⟩
  rw [reset_eq, Nat.add_sub_cancel, performed_nil h.within]

/-- The stage that runs performs one more operation. -/
theorem Told.records {i : Nat} (h : Told rs sent ls i (i + 1) tr) (op : Request) :
    Told (rs ++ [(i, op)]) sent ls i (i + 1) (tr.record op) := by
  refine ⟨?_, ?_, ?_⟩
  · rw [h.sent]
    apply summariesOf_congr
    intro j hj
    rw [performed_snoc, if_neg (by omega), List.append_nil]
  · intro r hr
    rcases List.mem_append.mp hr with hr | hr
    · exact h.within r hr
    · rw [List.mem_singleton.mp hr]
      exact Nat.lt_succ_self i
  · rw [Nat.add_sub_cancel, performed_snoc, if_pos rfl, after_concat, h.tracker,
      Nat.add_sub_cancel]

/-- The stage that ran sends its summary. -/
theorem Told.sends {i : Nat} {stage : StageConfig} (h : Told rs sent ls i (i + 1) tr)
    (hs : ls[i]? = some stage) :
    Told rs (sent ++ [stageSummaryOf i stage (snapshotOf tr)]) ls (i + 1) (i + 1) tr := by
  refine ⟨?_, h.within, h.tracker⟩
  unfold summariesOf
  rw [hs, ← h.sent, h.tracker, Nat.add_sub_cancel]
  rfl

/-- Only the first notice at a barrier brings a stage summary. -/
theorem sentAt_work {wf wf' : Workflow} {state : WorkloadState}
    {stages : Option (List StageConfig)} {we : WorkEvent} {notice : Option LiveStats}
    (h : wf.step state stages we = some (wf', notice)) :
    sentAt ⟨wf, tr⟩ (.Work state stages we) = notice.bind (·.stage_summary) := by
  simp [sentAt, h]

/-- A wait that reads or times out has sent its first notice. -/
theorem waitStep_told {w : BarrierWait} {we : WorkEvent} {r : WaitResult}
    (hno : ∀ s, we ≠ .Notify s) (h : waitStep w we = some r) :
    told w = true ∧ ∀ v, r = .Waiting v → told v = true := by
  cases we <;> try cases h
  case Notify s => exact absurd rfl (hno s)
  case Recv =>
    simp only [waitStep, BarrierWait.recv] at h
    split at h
    · cases h
    rename_i hl
    refine ⟨by simp [told, hl], ?_⟩
    intro v hv
    subst hv
    split at h
    · cases h
    · cases h
      simp [told, hl]
    · split at h <;> cases h
      simp [told, hl]
  case Timeout =>
    simp only [waitStep, BarrierWait.timeout] at h
    split at h
    · cases h
    rename_i hl
    refine ⟨by simp [told, hl], ?_⟩
    intro v hv
    subst hv
    split at h
    · split at h <;> cases h
      simp [told]
    · cases h

/-- A step that is no notice goes on as the tracker allows. -/
theorem Tells.work {wf wf' : Workflow} {state : WorkloadState}
    {stages : Option (List StageConfig)} {we : WorkEvent} (hT : Tells rs sent ⟨wf, tr⟩)
    (hno : ∀ s, we ≠ .Notify s) (hr : reads tr we = true) (h : wf.Steps state stages we wf') :
    Tells rs sent ⟨wf', trackerAfter tr we wf'.pc⟩ := by
  obtain ⟨hkept, htold⟩ := hT
  cases h with
  | noStages hpc => exact ⟨trivial, by simp [counted]⟩
  | loads hpc =>
    obtain ⟨hsent, hwithin, htr⟩ := htold 0 0 (by simp [counted, hpc])
    refine ⟨trivial, ?_⟩
    rintro n m ⟨rfl, rfl⟩
    exact ⟨hsent, hwithin, htr⟩
  | subscribesAbort hpc =>
    have h0 := htold 0 0 (by simp [counted, hpc])
    refine ⟨?_, ?_⟩
    · dsimp only
      split <;> trivial
    · intro n m hnm
      dsimp only at hnm
      split at hnm
      · cases hnm
        exact h0
      · rename_i hlen
        cases hnm
        simp only [Nat.eq_zero_of_not_pos hlen]
        exact h0
  | aborted hpc => exact ⟨trivial, by simp [counted]⟩
  | goesOn hpc =>
    refine ⟨trivial, ?_⟩
    rintro n m ⟨rfl, rfl⟩
    exact htold _ _ (by simp [counted, hpc])
  | enters hpc =>
    refine ⟨trivial, ?_⟩
    rintro n m ⟨rfl, rfl⟩
    exact (htold _ _ (by simp [counted, hpc])).starts
  | notEnters hpc => exact ⟨trivial, by simp [counted]⟩
  | executes hpc =>
    refine ⟨trivial, ?_⟩
    rintro n m ⟨rfl, rfl⟩
    exact htold _ _ (by simp [counted, hpc])
  | fails hpc => exact ⟨trivial, by simp [counted]⟩
  | readies hpc =>
    refine ⟨trivial, ?_⟩
    rintro n m ⟨rfl, rfl⟩
    exact htold _ _ (by simp [counted, hpc])
  | notReadies hpc => exact ⟨trivial, by simp [counted]⟩
  | subscribes hpc hstage =>
    refine ⟨⟨hstage, stageSummaryOf_reads hr _ _⟩, ?_⟩
    intro n m hnm
    have hnot : ∀ k, told (BarrierWait.begins k) = false := fun _ => rfl
    simp only [counted, hnot, Bool.false_eq_true, ↓reduceIte] at hnm
    cases hnm
    exact htold _ _ (by simp [counted, hpc])
  | @waits i stage summary w we r hpc hw =>
    obtain ⟨htw, htv⟩ := waitStep_told hno hw
    have hafter : ∀ pc, trackerAfter tr we pc = tr := by
      cases we <;> first | cases hw | exact fun _ => rfl
    have hat := htold (i + 1) (i + 1) (by simp [counted, hpc, htw])
    obtain ⟨hstage, hsummary⟩ : wf.stages[i]? = some stage ∧
        summary = stageSummaryOf i stage (snapshotOf tr) := by
      simpa only [Kept, hpc] using hkept
    rw [hafter]
    cases r with
    | Waiting v =>
      refine ⟨⟨hstage, hsummary⟩, ?_⟩
      intro n m hnm
      simp only [afterWait, counted, htv v rfl, ↓reduceIte, Option.some.injEq,
        Prod.mk.injEq] at hnm
      obtain ⟨rfl, rfl⟩ := hnm
      exact hat
    | Released =>
      have hi : i < wf.stages.length := (List.getElem?_eq_some_iff.mp hstage).1
      by_cases hlast : i + 1 < wf.stages.length
      · have hpc' : wf.afterStage i = .StageTop (i + 1) := if_pos hlast
        refine ⟨by simp [Kept, afterWait, hpc'], ?_⟩
        intro n m hnm
        simp only [afterWait, counted, hpc', Option.some.injEq, Prod.mk.injEq] at hnm
        obtain ⟨rfl, rfl⟩ := hnm
        exact hat
      · have hpc' : wf.afterStage i = .AllDone := if_neg hlast
        have hlen : wf.stages.length = i + 1 := by omega
        refine ⟨by simp [Kept, afterWait, hpc'], ?_⟩
        intro n m hnm
        simp only [afterWait, counted, hpc', hlen, Option.some.injEq, Prod.mk.injEq] at hnm
        obtain ⟨rfl, rfl⟩ := hnm
        exact hat
    | NotReleased => exact ⟨trivial, by simp [counted, afterWait]⟩
  | completes hpc =>
    refine ⟨summaryOf_reads hr, ?_⟩
    rintro n m ⟨rfl, rfl⟩
    exact htold _ _ (by simp [counted, hpc])

/-- The first notice brings the summary of its stage, a later one none. -/
theorem Tells.notify {i : Nat} {stage : StageConfig} {summary : StageSummary} {w : BarrierWait}
    {wf : Workflow} {s : Snapshot} (hT : Tells rs sent ⟨wf, tr⟩)
    (hpc : wf.pc = .AtBarrier i stage summary w) (hphase : w.phase = .Notifying) :
    Tells rs (sent ++ ((some (barrierStats wf.agent_id w summary s)).bind
        (·.stage_summary)).toList)
      ⟨{ wf with pc := .AtBarrier i stage summary { w with phase := .Listening } }, tr⟩ := by
  obtain ⟨hkept, htold⟩ := hT
  obtain ⟨hstage, hsummary⟩ : wf.stages[i]? = some stage ∧
      summary = stageSummaryOf i stage (snapshotOf tr) := by
    simpa only [Kept, hpc] using hkept
  refine ⟨⟨hstage, hsummary⟩, ?_⟩
  intro n m hnm
  simp only [counted, told, decide_true, Bool.true_or, ↓reduceIte, Option.some.injEq,
    Prod.mk.injEq] at hnm
  obtain ⟨rfl, rfl⟩ := hnm
  by_cases hretry : w.retry = 0
  · have hat := htold i (i + 1) (by simp [counted, hpc, told, hphase, hretry])
    have hsends := hat.sends hstage
    simpa [barrierStats, hretry, hsummary] using hsends
  · have hat := htold (i + 1) (i + 1) (by simp [counted, hpc, told, hphase]; omega)
    simpa [barrierStats, hretry] using hat

theorem tells_step (hT : Tells rs sent t) (h : t.step e = some u) :
    Tells (rs ++ (recordedAt t e).toList) (sent ++ (sentAt t e).toList) u := by
  obtain ⟨wf, tr⟩ := t
  cases e with
  | Work state stages we =>
    simp only [Tracked.step] at h
    split at h <;> try cases h
    rename_i hr
    obtain ⟨⟨wf', notice⟩, hs, hu⟩ := Option.map_eq_some_iff.mp h
    cases hu
    rw [sentAt_work hs, show recordedAt ⟨wf, tr⟩ (.Work state stages we) = none from rfl,
      Option.toList_none, List.append_nil]
    rcases step_notice hs with ⟨rfl, hno⟩ | ⟨s, i, stage, summary, w, rfl, hpc, hphase, rfl, rfl⟩
    · simpa using hT.work hno hr (step_cases hs)
    · exact hT.notify hpc hphase
  | Record op =>
    simp only [Tracked.step] at h
    split at h <;> cases h
    rename_i i hpc
    obtain ⟨_, htold⟩ := hT
    have hrec : recordedAt ⟨wf, tr⟩ (.Record op) = some (i, op) := by
      simp only [recordedAt, hpc]
    rw [hrec]
    refine ⟨by simp [Kept, hpc], ?_⟩
    intro n m hnm
    have hcount := hnm
    simp only [counted, hpc, Option.some.injEq, Prod.mk.injEq] at hcount
    obtain ⟨rfl, rfl⟩ := hcount
    simpa [sentAt] using (htold _ _ hnm).records op
  | Release m =>
    cases h
    obtain ⟨hkept, htold⟩ := hT
    simp only [recordedAt, sentAt, Option.toList_none, List.append_nil]
    unfold Tells hear
    dsimp only at hkept htold ⊢
    split
    · rename_i hpc
      simp only [hpc] at hkept htold
      exact ⟨hkept, htold⟩
    · exact ⟨hkept, htold⟩
  | Abort =>
    cases h
    simp only [recordedAt, sentAt, Option.toList_none, List.append_nil]
    exact hT

theorem run_tells {stream : Nat} {agent_id : String} {es : List TrackedEvent}
    (h : trackedMachine.run (.spawned stream agent_id) es = some t) :
    Tells (recorded (.spawned stream agent_id) es) (summaries (.spawned stream agent_id) es) t := by
  induction es using List.reverseRecOn generalizing t with
  | nil =>
    cases h
    refine ⟨trivial, ?_⟩
    rintro n m ⟨rfl, rfl⟩
    exact ⟨rfl, by simp [recorded, Machine.log], rfl⟩
  | append_singleton es e ih =>
    obtain ⟨v, hv, ht⟩ := Machine.run_snoc_iff.mp h
    unfold recorded summaries
    rw [Machine.log_snoc hv ht, Machine.log_snoc hv ht]
    exact tells_step (ih hv) ht

/-! ## The final summary -/

theorem executed_last (ls : List StageConfig) (ops : Nat → List Request) :
    executed ls ops ls.length = executed ls ops (ls.length - 1) ++
      if ls.getLast?.any isExecute then ops (ls.length - 1) else [] := by
  cases hls : ls.length with
  | zero => simp [executed, List.length_eq_zero_iff.mp hls]
  | succ n =>
    have hlast : ls.getLast? = ls[n]? := by simp [List.getLast?_eq_getElem?, hls]
    rw [hlast]
    rfl

/-- The final summary of a workload covers its execute stages exactly when
the last stage stands for all of them. -/
theorem final_summary_covers_iff {stream : Nat} {agent_id : String} {es : List TrackedEvent}
    {final : Summary} (h : trackedMachine.run (.spawned stream agent_id) es = some t)
    (hfin : t.wf.pc = .Finished (.ok final)) :
    CoversRun final (summaries (.spawned stream agent_id) es) ↔
      LastStandsForAll t.wf.stages (performed (recorded (.spawned stream agent_id) es)) := by
  obtain ⟨hkept, htold⟩ := run_tells h
  obtain ⟨hsent, _, htr⟩ := htold t.wf.stages.length t.wf.stages.length (by simp [counted, hfin])
  have hfinal : final = Summary.of (snapshotOf t.tracker) := by simpa only [Kept, hfin] using hkept
  set ops := performed (recorded (.spawned stream agent_id) es)
  -- both sides as counts of the operations
  have hcovers : CoversRun final (summaries (.spawned stream agent_id) es) ↔
      ∀ k, opsOf k (ops (t.wf.stages.length - 1)) =
          opsOf k (executed t.wf.stages ops t.wf.stages.length) ∧
        bytesOf k (ops (t.wf.stages.length - 1)) =
          bytesOf k (executed t.wf.stages ops t.wf.stages.length) := by
    unfold CoversRun
    rw [hsent, hfinal, htr]
    simp only [summary_ops, after_ops, after_bytes, summariesOf_sum]
  rw [hcovers, executed_last]
  simp only [opsOf_append, bytesOf_append]
  unfold LastStandsForAll
  by_cases hx : t.wf.stages.getLast?.any isExecute = true
  · simp only [hx, ↓reduceIte]
    constructor
    · intro heq
      apply eq_nil_of_opsOf
      intro k
      have hk := (heq k).1
      omega
    · intro hnil k
      simp [hnil]
  · simp only [hx, Bool.false_eq_true, ↓reduceIte, opsOf_nil, bytesOf_nil, Nat.add_zero]

/-- One stage of one operation, from the top of the loop to its release. -/
def stageOfOne (i : Nat) (stage : StageConfig) (before : WorkloadState) (op : Request) :
    List TrackedEvent :=
  let s := snapshotOf (after [op])
  [.Work before none (.CheckAbort false), .Work before none .Enter, .Record op,
    .Work before none (.Execute (.ok ())),
    .Work (.AtStage (i + 1) stage.name false) none .MarkReady,
    .Work before none (.SubscribeBarrier s), .Work before none (.Notify s), .Release (i, i),
    .Work before none .Recv]

def executeStage : StageConfig := ⟨"run", 0, .Duration, none, none, false, .Execute 1⟩

def cleanupStage : StageConfig := ⟨"clean", 1, .TasksDone, none, none, false, .Cleanup none⟩

def getOp : Request := .Get 100 {}

def deleteOp : Request := .Meta {}

/-- One execute stage that reads an object. -/
def executeRun : List TrackedEvent :=
  [.Work .Idle (some [executeStage]) .LoadStages, .Work .Idle none .SubscribeAbort] ++
    stageOfOne 0 executeStage (.AtStage 0 "validated" true) getOp ++
    [.Work .Idle none (.Complete (snapshotOf (after [getOp])))]

theorem execute_run_covers :
    CoversRun (.of (snapshotOf (after [getOp]))) (summaries (.spawned 0 "agent-1") executeRun) := by
  have hrun : ∃ t, trackedMachine.run (.spawned 0 "agent-1") executeRun = some t ∧
      t.wf.pc = .Finished (.ok (.of (snapshotOf (after [getOp])))) ∧
      t.wf.stages = [executeStage] := ⟨_, rfl, rfl, rfl⟩
  obtain ⟨t, ht, hfin, hls⟩ := hrun
  apply (final_summary_covers_iff ht hfin).mpr
  rw [hls]
  unfold LastStandsForAll
  rw [if_pos (by decide)]
  rfl

/-- An execute stage that reads an object, and a cleanup stage that deletes it. -/
def executeThenCleanup : List TrackedEvent :=
  [.Work .Idle (some [executeStage, cleanupStage]) .LoadStages, .Work .Idle none .SubscribeAbort] ++
    stageOfOne 0 executeStage (.AtStage 0 "validated" true) getOp ++
    stageOfOne 1 cleanupStage (.AtStage 1 "run" true) deleteOp ++
    [.Work .Idle none (.Complete (snapshotOf (after [deleteOp])))]

theorem cleanup_hides_the_execute_stage :
    ∃ t final, trackedMachine.run (.spawned 0 "agent-1") executeThenCleanup = some t ∧
      t.wf.pc = .Finished (.ok final) ∧
      ¬ CoversRun final (summaries (.spawned 0 "agent-1") executeThenCleanup) := by
  refine ⟨_, .of (snapshotOf (after [deleteOp])), rfl, rfl, ?_⟩
  intro hcovers
  have hget := (hcovers .Get).1
  exact absurd hget (by decide)

end sai3_bench.agent
