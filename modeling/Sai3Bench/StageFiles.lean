-- The file of a stage: what an agent reports of the stage it ran, and the
-- rows that the controller writes of the reports of all agents.
import Mathlib.Data.List.Sort
import Mathlib.Data.List.FinRange
import Mathlib.Algebra.Order.BigOperators.Group.List
import Mathlib.Algebra.Order.Group.Nat
import Sai3Bench.FinalSummaries
import Sai3Bench.SizeBins

namespace sai3_bench.agent

open config live_stats pb workload LiveStatsTracker

/-! ## The stage on the agent -/

/-- What the functions that a stage calls do on one agent: the objects and
directories that `prepare_objects` makes, the operations of each worker of
`workload::run`, and the deletions of the cleanup. -/
structure Work where
  puts : List (Nat × Sample) := []
  mkdirs : Nat := 0
  workers : List (List Request) := []
  deletes : List Sample := []

/-- The operations of a stage, as `config.prepare` and its type have it. -/
def operations (prepare : Bool) (stage : StageSpecificConfig) (w : Work) : List Request :=
  match stage with
  | .Prepare _ =>
    if prepare then w.puts.map (fun p => .Put p.1 p.2) ++ List.replicate w.mkdirs (.Meta {})
    else []
  | .Execute _ | .Hybrid _ _ => w.workers.flatten
  | .Cleanup _ => if prepare then w.deletes.map .Meta else []
  | .Custom _ _ | .Validation => []

/-- What a stage leaves: its tracker, and what its own branch has captured. -/
structure StageOutcome where
  tracker : LiveStatsTracker
  get : Option OpStats := none
  put : Option OpStats := none
  «meta» : Option OpStats := none

/-- The branches of the stage types. The order in which workers record makes
no difference to a tracker. -/
def execute_stage (prepare : Bool) (stage : StageSpecificConfig) (w : Work) : StageOutcome :=
  match stage with
  | .Prepare _ =>
    if prepare then
      -- a directory is counted in `metrics.mkdir` alone
      { tracker := after (w.puts.map fun p => .Put p.1 p.2)
        put := some (w.puts.foldl (fun st p => st.add p.1 p.2) {}) }
    else { tracker := after [] }
  | .Execute _ =>
    let summary := run w.workers
    { tracker := after w.workers.flatten
      get := some summary.get
      put := some summary.put
      «meta» := some summary.meta }
  -- the summary of `workload::run` is dropped here
  | .Hybrid _ _ => { tracker := after w.workers.flatten }
  | .Cleanup _ =>
    if prepare then { tracker := after (w.deletes.map .Meta) } else { tracker := after [] }
  | .Custom _ _ | .Validation => { tracker := after [] }

structure SizeBucketData where
  bucket_idx : Nat
  ops : Nat
  bytes : Nat

/-- The part of a stage summary for one kind of operation. A serialized
histogram is known by how many latencies it holds. -/
structure OpReport where
  histogram : List Nat := []
  bins : Option (List SizeBucketData) := none

structure StageReport where
  summary : StageSummary
  get : OpReport
  put : OpReport
  «meta» : OpReport

def serialize_ophists (h : OpHists) : List Nat := List.ofFn h.buckets

def convert_size_bins (b : SizeBins) : List SizeBucketData :=
  b.by_bucket.entries.map fun e => ⟨e.1, e.2.1, e.2.2⟩

/-- The report on one kind: the captured histograms when the stage has some,
and the one histogram of the tracker when it has none. -/
def opReport (captured : Bool) (st : Option OpStats) (hist : Nat) : OpReport :=
  { histogram :=
      if captured then (st.map fun st => serialize_ophists st.hists).getD [] else [hist]
    bins := st.map fun st => convert_size_bins st.bins }

def stageReport (i : Nat) (stage : StageConfig) (x : StageOutcome) : StageReport :=
  let captured := x.get.isSome || x.put.isSome
  { summary := stageSummaryOf i stage (snapshotOf x.tracker)
    get := opReport captured x.get x.tracker.get_hist
    put := opReport captured x.put x.tracker.put_hist
    «meta» := opReport captured x.meta x.tracker.meta_hist }

def StageReport.of (r : StageReport) : OpKind → OpReport
  | .Get => r.get
  | .Put => r.put
  | .Meta => r.meta

end sai3_bench.agent

namespace sai3_bench.controller

open agent config live_stats pb workload

/-! ## The file on the controller -/

def proto_to_size_bins (buckets : List SizeBucketData) : SizeBins :=
  ⟨buckets.foldl (fun by_bucket d => by_bucket.insert d.bucket_idx (d.ops, d.bytes)) ∅⟩

def merge_size_bins (bins_list : List SizeBins) : SizeBins :=
  bins_list.foldl SizeBins.merge_from {}

/-- The histograms that can be read back, one after the other. -/
def deserialize (bytes : List Nat) : OpHists := ⟨fun i => bytes.getD i 0⟩

def accumulate (reports : List OpReport) : OpHists :=
  reports.foldl (fun acc r => acc.merge (deserialize r.histogram)) {}

def mergedBins (reports : List OpReport) : SizeBins :=
  merge_size_bins (reports.filterMap fun r => r.bins.map proto_to_size_bins)

def BUCKET_LABELS : List String :=
  ["zero", "1B-8KiB", "8KiB-64KiB", "64KiB-512KiB", "512KiB-4MiB", "4MiB-32MiB", "32MiB-256MiB",
    "256MiB-2GiB", ">2GiB"]

/-- One row. `ops` and `bytes` are what `avg_bytes` and `throughput_mibps`
are computed from; the latencies are left out. -/
structure Row where
  operation : String
  size_bucket : String
  bucket_idx : Nat
  ops : Nat
  bytes : Nat
  count : Nat

def collect_op_rows (op_name : String) (accumulators : OpHists) (merged_bins : SizeBins) :
    List Row :=
  (List.finRange NUM_BUCKETS).filterMap fun i =>
    if accumulators.buckets i = 0 then none
    else
      let e := (merged_bins.by_bucket.lookup i.val).getD (0, 0)
      some ⟨op_name, BUCKET_LABELS.getD i "", i, e.1, e.2, accumulators.buckets i⟩

def collect_aggregate_row (op_name : String) (bucket_idx : Nat) (accumulators : OpHists)
    (total_ops total_bytes : Nat) : List Row :=
  let count := accumulators.total
  if count = 0 then [] else [⟨op_name, "ALL", bucket_idx, total_ops, total_bytes, count⟩]

/-- The line of one agent. -/
structure AgentLine where
  agent_id : String
  get_ops : Nat
  get_bytes : Nat
  put_ops : Nat
  put_bytes : Nat
  meta_ops : Nat
  errors : Nat

structure StageTsv where
  stage_number : Nat
  stage_name : String
  stage_type : String
  agents : Nat
  rows : List Row
  details : List AgentLine

def opName : OpKind → String
  | .Get => "GET"
  | .Put => "PUT"
  | .Meta => "META"

/-- The rows of one kind, one for each bucket with a latency. -/
def opRows (reports : List StageReport) (k : OpKind) : List Row :=
  collect_op_rows (opName k) (accumulate (reports.map (·.of k))) (mergedBins (reports.map (·.of k)))

/-- The row of all buckets of one kind. -/
def aggregateRow (reports : List StageReport) (k : OpKind) (bucket_idx : Nat) : List Row :=
  let merged := mergedBins (reports.map (·.of k))
  collect_aggregate_row (opName k) bucket_idx (accumulate (reports.map (·.of k)))
    merged.total_ops merged.total_bytes

/-- All rows, before they are sorted. -/
def stageRows (reports : List StageReport) : List Row :=
  opRows reports .Get ++ opRows reports .Put ++ opRows reports .Meta ++
    aggregateRow reports .Meta 97 ++ aggregateRow reports .Get 98 ++ aggregateRow reports .Put 99

def write_stage_summary_tsv : List (String × StageReport) → Except String StageTsv
  | [] => .error "No stage summaries to write"
  | first :: rest =>
    let summaries_with_agent := first :: rest
    let reports := summaries_with_agent.map (·.2)
    .ok
      { stage_number := first.2.summary.stage_index + 1
        stage_name := first.2.summary.stage_name
        stage_type := first.2.summary.stage_type
        agents := reports.length
        rows := (stageRows reports).insertionSort (fun r s => r.bucket_idx ≤ s.bucket_idx)
        details := summaries_with_agent.map fun (agent_id, r) =>
          { agent_id := agent_id
            get_ops := r.summary.get_ops
            get_bytes := r.summary.get_bytes
            put_ops := r.summary.put_ops
            put_bytes := r.summary.put_bytes
            meta_ops := r.summary.meta_ops
            errors := r.summary.errors } }

/-! ## The totals of the file -/

/-- The row of all buckets of one kind, if the file has it. -/
def StageTsv.all (tsv : StageTsv) (k : OpKind) : List Row :=
  tsv.rows.filter fun r => r.operation = opName k && r.size_bucket = "ALL"

def StageTsv.ops (tsv : StageTsv) (k : OpKind) : Nat := ((tsv.all k).map (·.count)).sum

def StageTsv.bytes (tsv : StageTsv) (k : OpKind) : Nat := ((tsv.all k).map (·.bytes)).sum

/-- What the agents send of a stage. -/
def reportsOf (prepare : Bool) (i : Nat) (stage : StageConfig) (agents : List (String × Work)) :
    List (String × StageReport) :=
  agents.map fun (id, w) => (id, stageReport i stage (execute_stage prepare stage.config w))

/-- The totals of the file are those of the operations of all agents. -/
def TotalsConserved (prepare : Bool) (stage : StageConfig) (agents : List (String × Work))
    (tsv : StageTsv) : Prop :=
  ∀ k, tsv.ops k = (agents.map fun a => opsOf k (operations prepare stage.config a.2)).sum ∧
    tsv.bytes k = (agents.map fun a => bytesOf k (operations prepare stage.config a.2)).sum

/-- What an agent does in a stage so that the file shows all of it. An execute
stage and the objects of a prepare stage are captured; the directories of a
prepare stage are not, and of a hybrid or cleanup stage the file has only the
latencies of the tracker. -/
def ShownInFull (prepare : Bool) (stage : StageSpecificConfig) (w : Work) : Prop :=
  match stage with
  | .Execute _ => ∀ op ∈ w.workers.flatten, op.sample.in_range = true
  | .Prepare _ => prepare = true → (∀ p ∈ w.puts, p.2.in_range = true) ∧ w.mkdirs = 0
  | .Hybrid _ _ => ∀ op ∈ w.workers.flatten,
      op.sample.in_range = true ∧ op.sample.uncontended = true ∧ op.bytes = 0
  | .Cleanup _ => prepare = true → ∀ s ∈ w.deletes, s.in_range = true ∧ s.uncontended = true
  | .Custom _ _ | .Validation => True

/-! ## What a report brings -/

variable {rs : List OpReport} {reports : List StageReport} {k : OpKind} {ops : List Request}
  {prepare : Bool} {stage : StageSpecificConfig} {w : Work}

/-- The latencies in a report, and the bytes in its bins. -/
def shown (r : OpReport) : Nat := (deserialize r.histogram).total

def binned (r : OpReport) : Nat :=
  ((r.bins.map proto_to_size_bins).map (·.total_bytes)).getD 0

theorem accumulate_total (rs : List OpReport) : (accumulate rs).total = (rs.map shown).sum := by
  have hfold : ∀ (rs : List OpReport) (acc : OpHists),
      (rs.foldl (fun acc r => acc.merge (deserialize r.histogram)) acc).total =
        acc.total + (rs.map shown).sum := by
    intro rs
    induction rs with
    | nil => simp
    | cons r rs ih =>
      intro acc
      rw [List.foldl_cons, ih, OpHists.merge_total, List.map_cons, List.sum_cons, Nat.add_assoc]
      rfl
  have hzero : ({} : OpHists).total = 0 := by simp [OpHists.total]
  unfold accumulate
  rw [hfold, hzero, Nat.zero_add]

theorem mergedBins_bytes (rs : List OpReport) :
    (mergedBins rs).total_bytes = (rs.map binned).sum := by
  have hfold : ∀ (bs : List SizeBins) (b : SizeBins),
      (bs.foldl SizeBins.merge_from b).total_bytes =
        b.total_bytes + (bs.map (·.total_bytes)).sum := by
    intro bs
    induction bs with
    | nil => simp
    | cons b' bs ih =>
      intro b
      rw [List.foldl_cons, ih, SizeBins.merge_from_total.2, List.map_cons, List.sum_cons,
        Nat.add_assoc]
  unfold mergedBins merge_size_bins
  rw [hfold, SizeBins.total_empty.2, Nat.zero_add]
  induction rs with
  | nil => rfl
  | cons r rs ih =>
    unfold binned at ih ⊢
    cases hb : r.bins with
    | none => simpa [hb] using ih
    | some bins => simp [hb, ih]

/-- The bins of an agent arrive with their totals. -/
theorem proto_convert_bytes (b : SizeBins) :
    (proto_to_size_bins (convert_size_bins b)).total_bytes = b.total_bytes := by
  -- every bucket is inserted once, so no insert replaces another
  have hfold : ∀ (es : List (Sigma fun _ : Nat => Nat × Nat)) (m : AList fun _ : Nat => Nat × Nat),
      es.NodupKeys → (∀ e ∈ es, e.1 ∉ m) →
      (((es.map fun e => SizeBucketData.mk e.1 e.2.1 e.2.2).foldl
        (fun by_bucket d => by_bucket.insert d.bucket_idx (d.ops, d.bytes)) m).values.map
          (·.2)).sum = (m.values.map (·.2)).sum + (es.map (·.2.2)).sum := by
    intro es
    induction es with
    | nil => simp
    | cons e es ih =>
      intro m hnd hm
      obtain ⟨hfresh, hnd⟩ := List.nodupKeys_cons.mp hnd
      have hnew : m.lookup e.1 = none := AList.lookup_eq_none.mpr (hm e (by simp))
      have hsum := AList.sum_values_insert m e.1 (e.2.1, e.2.2) (·.2)
      rw [hnew] at hsum
      rw [List.map_cons, List.foldl_cons, ih]
      · simp only [Option.map_none, Option.getD_none, List.map_cons, List.sum_cons] at hsum ⊢
        omega
      · exact hnd
      · intro e' he' hmem
        rcases (AList.mem_insert m).mp hmem with heq | hmem
        · dsimp only at heq
          rw [← heq] at hfresh
          exact hfresh (List.mem_map_of_mem he')
        · exact hm e' (by simp [he']) hmem
  have hb := hfold b.by_bucket.entries ∅ b.by_bucket.nodupKeys (by simp)
  unfold proto_to_size_bins convert_size_bins SizeBins.total_bytes
  rw [hb]
  simp [AList.values, Function.comp_def]

theorem label_ne_all (i : Fin NUM_BUCKETS) : BUCKET_LABELS.getD i "" ≠ "ALL" := by
  revert i
  decide

/-- Only the row of all buckets is called ALL. -/
theorem filter_opRows (reports : List StageReport) (j k : OpKind) :
    (opRows reports j).filter (fun r => r.operation = opName k && r.size_bucket = "ALL") = [] := by
  rw [List.filter_eq_nil_iff]
  intro r hr
  obtain ⟨i, _, hi⟩ := List.mem_filterMap.mp hr
  split at hi <;> cases hi
  simpa using fun _ => label_ne_all i

theorem filter_aggregateRow (reports : List StageReport) (j k : OpKind) (bucket_idx : Nat) :
    (aggregateRow reports j bucket_idx).filter
        (fun r => r.operation = opName k && r.size_bucket = "ALL") =
      if j = k then aggregateRow reports j bucket_idx else [] := by
  have hname : opName j = opName k ↔ j = k := by
    cases j <;> cases k <;> decide
  unfold aggregateRow collect_aggregate_row
  dsimp only
  split
  · simp
  · by_cases hjk : j = k <;> simp [hname, hjk]

theorem filter_stageRows (reports : List StageReport) (k : OpKind) : ∃ idx,
    (stageRows reports).filter (fun r => r.operation = opName k && r.size_bucket = "ALL") =
      aggregateRow reports k idx := by
  unfold stageRows
  simp only [List.filter_append, filter_opRows, filter_aggregateRow, List.nil_append]
  cases k
  · exact ⟨98, by simp⟩
  · exact ⟨99, by simp⟩
  · exact ⟨97, by simp⟩

theorem aggregateRow_count (reports : List StageReport) (k : OpKind) (bucket_idx : Nat) :
    ((aggregateRow reports k bucket_idx).map (·.count)).sum =
      (reports.map fun r => shown (r.of k)).sum := by
  have htotal := accumulate_total (reports.map (·.of k))
  rw [List.map_map] at htotal
  unfold aggregateRow collect_aggregate_row
  dsimp only
  split
  · rename_i h0
    exact (htotal.symm.trans h0).symm
  · simpa [Function.comp_def] using htotal

theorem aggregateRow_bytes (reports : List StageReport) (k : OpKind) (bucket_idx : Nat) :
    ((aggregateRow reports k bucket_idx).map (·.bytes)).sum =
      if (reports.map fun r => shown (r.of k)).sum = 0 then 0
      else (reports.map fun r => binned (r.of k)).sum := by
  have htotal := accumulate_total (reports.map (·.of k))
  have hbytes := mergedBins_bytes (reports.map (·.of k))
  rw [List.map_map] at htotal hbytes
  unfold aggregateRow collect_aggregate_row
  dsimp only
  rw [htotal]
  split
  · rename_i h0
    rw [if_pos (by simpa [Function.comp_def] using h0)]
    rfl
  · rename_i h0
    rw [if_neg (by simpa [Function.comp_def] using h0)]
    simpa [Function.comp_def] using hbytes

/-- The totals of a file are those of its reports. The bytes are in the row
of all buckets, which stands only when there is a latency. -/
theorem write_stage_summary_totals {sent : List (String × StageReport)} {tsv : StageTsv}
    (h : write_stage_summary_tsv sent = .ok tsv) (k : OpKind) :
    tsv.ops k = (sent.map fun r => shown (r.2.of k)).sum ∧
      tsv.bytes k = if (sent.map fun r => shown (r.2.of k)).sum = 0 then 0
        else (sent.map fun r => binned (r.2.of k)).sum := by
  obtain ⟨idx, hrows⟩ := filter_stageRows (sent.map (·.2)) k
  have hall : (tsv.all k).Perm (aggregateRow (sent.map (·.2)) k idx) := by
    rw [← hrows]
    unfold write_stage_summary_tsv at h
    split at h <;> cases h
    exact (List.perm_insertionSort _ _).filter _
  unfold StageTsv.ops StageTsv.bytes
  rw [(hall.map _).sum_eq, (hall.map _).sum_eq, aggregateRow_count, aggregateRow_bytes,
    List.map_map, List.map_map]
  exact ⟨rfl, rfl⟩

/-! ## What a stage shows -/

theorem deserialize_ophists (h : OpHists) : (deserialize (serialize_ophists h)).total = h.total := by
  unfold deserialize serialize_ophists OpHists.total
  refine Finset.sum_congr rfl fun i _ => ?_
  simp [List.getD]

/-- The one histogram of a tracker is read back into the first bucket. -/
theorem deserialize_single (n : Nat) : (deserialize [n]).total = n := by
  show ∑ i : Fin (8 + 1), [n].getD i.val 0 = n
  rw [Fin.sum_univ_succ]
  simp

theorem shown_captured {st : Option OpStats} {hist : Nat} :
    shown (opReport true st hist) = (st.map (·.hists.total)).getD 0 := by
  cases st with
  | none => simp [shown, opReport, deserialize, OpHists.total]
  | some st => exact deserialize_ophists st.hists

theorem shown_tracked {st : Option OpStats} {hist : Nat} :
    shown (opReport false st hist) = hist :=
  deserialize_single hist

theorem binned_report {captured : Bool} {st : Option OpStats} {hist : Nat} :
    binned (opReport captured st hist) = (st.map (·.bins.total_bytes)).getD 0 := by
  cases st with
  | none => rfl
  | some st => exact proto_convert_bytes st.bins

/-- The objects of a prepare stage as operations. -/
def putOps (w : Work) : List Request := w.puts.map fun p => .Put p.1 p.2

/-- The latencies that the file can count of a stage of one agent. -/
def latencies (prepare : Bool) (stage : StageSpecificConfig) (w : Work) (k : OpKind) : Nat :=
  match stage with
  | .Execute _ => rangedOf k w.workers.flatten
  | .Prepare _ => if prepare then rangedOf k (putOps w) else 0
  | _ => samplesOf k (operations prepare stage w)

/-- The bytes that the file can count of it. -/
def binBytes (prepare : Bool) (stage : StageSpecificConfig) (w : Work) (k : OpKind) : Nat :=
  match stage with
  | .Execute _ => bytesOf k w.workers.flatten
  | .Prepare _ => if prepare then bytesOf k (putOps w) else 0
  | _ => 0

theorem prepare_counts (w : Work) : Counts (w.puts.foldl (fun st p => st.add p.1 p.2) {})
    (rangedOf .Put (putOps w)) (opsOf .Put (putOps w)) (bytesOf .Put (putOps w)) := by
  have hfold : ∀ (ps : List (Nat × Sample)) (ws : WorkerStats),
      ((ps.map fun p => Request.Put p.1 p.2).foldl WorkerStats.record ws).stats .Put =
        ps.foldl (fun st p => st.add p.1 p.2) ws.put := by
    intro ps
    induction ps with
    | nil => exact fun _ => rfl
    | cons p ps ih =>
      intro ws
      rw [List.map_cons, List.foldl_cons, ih]
      rfl
  have hcounts := record_counts (k := .Put) {} (putOps w) .none
  rw [Nat.zero_add, Nat.zero_add, Nat.zero_add] at hcounts
  rw [← hfold w.puts {}]
  exact hcounts

/-- The objects of a prepare stage are all of one kind. -/
theorem putOps_other (w : Work) (hk : k ≠ .Put) :
    rangedOf k (putOps w) = 0 ∧ opsOf k (putOps w) = 0 ∧ bytesOf k (putOps w) = 0 := by
  unfold putOps
  induction w.puts with
  | nil => exact ⟨rfl, rfl, rfl⟩
  | cons p ps ih =>
    obtain ⟨hr, ho, hb⟩ := ih
    have hne : ¬ (Request.Put p.1 p.2).kind = k := fun he => hk he.symm
    rw [List.map_cons, rangedOf_cons, opsOf_cons, bytesOf_cons, hr, ho, hb]
    simp [hne]

/-- A stage without captured histograms falls back on its tracker. -/
theorem shown_fallback (i : Nat) (stage : StageConfig) (ops : List Request) (k : OpKind) :
    shown ((stageReport i stage { tracker := LiveStatsTracker.after ops }).of k) = samplesOf k ops ∧
      binned ((stageReport i stage { tracker := LiveStatsTracker.after ops }).of k) = 0 := by
  have hsamples : (LiveStatsTracker.after ops).samples k = samplesOf k ops :=
    LiveStatsTracker.after_samples
  cases k <;> exact ⟨shown_tracked.trans hsamples, binned_report⟩

theorem stage_shows (prepare : Bool) (i : Nat) (stage : StageConfig) (w : Work) (k : OpKind) :
    shown ((stageReport i stage (execute_stage prepare stage.config w)).of k) =
        latencies prepare stage.config w k ∧
      binned ((stageReport i stage (execute_stage prepare stage.config w)).of k) =
        binBytes prepare stage.config w k := by
  cases hs : stage.config with
  | Execute duration =>
    obtain ⟨hn, _, hb⟩ := run_counts w.workers k
    cases k <;> exact ⟨shown_captured.trans hn, binned_report.trans hb⟩
  | Prepare expected =>
    cases prepare with
    | false => exact shown_fallback i stage [] k
    | true =>
      obtain ⟨hn, _, hb⟩ := prepare_counts w
      obtain ⟨hget, _, hgetb⟩ := putOps_other (k := .Get) w (by decide)
      obtain ⟨hmeta, _, hmetab⟩ := putOps_other (k := .Meta) w (by decide)
      cases k
      · exact ⟨shown_captured.trans hget.symm, binned_report.trans hgetb.symm⟩
      · exact ⟨shown_captured.trans hn, binned_report.trans hb⟩
      · exact ⟨shown_captured.trans hmeta.symm, binned_report.trans hmetab.symm⟩
  | Hybrid max_duration expected => exact shown_fallback i stage _ k
  | Cleanup expected =>
    cases prepare with
    | false => exact shown_fallback i stage [] k
    | true => exact shown_fallback i stage _ k
  | Custom command args => exact shown_fallback i stage [] k
  | Validation => exact shown_fallback i stage [] k

/-! ## When the totals are conserved -/

/-- The operations of a kind that pass a test are all that there are of each
kind exactly when every operation passes. -/
theorem countP_kind_eq_iff {test : Request → Bool} :
    (∀ k, ops.countP (fun op => op.kind = k && test op) = opsOf k ops) ↔
      ∀ op ∈ ops, test op = true := by
  have hfilter : ∀ k, ops.countP (fun op => op.kind = k && test op) =
      (ops.filter (·.kind = k)).countP test := by
    intro k
    rw [List.countP_filter]
    simp only [Bool.and_comm]
  have hops : ∀ k, opsOf k ops = (ops.filter (·.kind = k)).length :=
    fun _ => List.countP_eq_length_filter
  simp only [hfilter, hops, List.countP_eq_length, List.mem_filter, decide_eq_true_eq]
  constructor
  · intro h op hop
    exact h op.kind op ⟨hop, rfl⟩
  · intro h k op hop
    exact h op hop.1

theorem countP_kind_le (k : OpKind) (test : Request → Bool) :
    ops.countP (fun op => op.kind = k && test op) ≤ opsOf k ops := by
  apply List.countP_mono_left
  intro op _ h
  rw [Bool.and_eq_true] at h
  exact h.1

theorem samplesOf_le (k : OpKind) (ops : List Request) : samplesOf k ops ≤ opsOf k ops := by
  unfold samplesOf
  simp only [Bool.and_assoc]
  exact countP_kind_le k _

theorem rangedOf_le (k : OpKind) (ops : List Request) : rangedOf k ops ≤ opsOf k ops :=
  countP_kind_le k _

theorem rangedOf_eq_iff (ops : List Request) :
    (∀ k, rangedOf k ops = opsOf k ops) ↔ ∀ op ∈ ops, op.sample.in_range = true :=
  countP_kind_eq_iff

theorem samplesOf_eq_iff : (∀ k, samplesOf k ops = opsOf k ops) ↔
    ∀ op ∈ ops, op.sample.in_range = true ∧ op.sample.uncontended = true := by
  unfold samplesOf
  simp only [Bool.and_assoc, ← Bool.and_eq_true]
  exact countP_kind_eq_iff

theorem bytesOf_eq_zero_iff : (∀ k, bytesOf k ops = 0) ↔ ∀ op ∈ ops, op.bytes = 0 := by
  induction ops with
  | nil => simp
  | cons op ops ih =>
    rw [List.forall_mem_cons, ← ih]
    constructor
    · intro h
      have hop := h op.kind
      rw [bytesOf_cons, if_pos rfl] at hop
      refine ⟨by omega, fun k => ?_⟩
      have hk := h k
      rw [bytesOf_cons] at hk
      omega
    · rintro ⟨hb, h⟩ k
      rw [bytesOf_cons, h k, hb]
      simp

theorem bytesOf_of_opsOf (h : opsOf k ops = 0) : bytesOf k ops = 0 := by
  induction ops with
  | nil => rfl
  | cons op ops ih =>
    rw [opsOf_cons] at h
    by_cases hk : op.kind = k
    · rw [if_pos hk] at h
      omega
    · rw [if_neg hk, Nat.add_zero] at h
      rw [bytesOf_cons, if_neg hk, ih h]

/-- A prepare stage: its objects and then its directories. -/
theorem operations_prepare (expected : Option Nat) (w : Work) :
    operations true (.Prepare expected) w = putOps w ++ List.replicate w.mkdirs (.Meta {}) := rfl

theorem opsOf_mkdirs (n : Nat) :
    opsOf k (List.replicate n (.Meta {})) = if k = .Meta then n else 0 := by
  unfold opsOf
  rw [List.countP_replicate]
  cases k <;> simp [Request.kind]

theorem bytesOf_mkdirs (n : Nat) : bytesOf k (List.replicate n (.Meta {})) = 0 := by
  unfold bytesOf
  rw [List.filter_replicate]
  split <;> simp [Request.bytes]

/-- The file never shows more than an agent does. -/
theorem shows_le (prepare : Bool) (stage : StageSpecificConfig) (w : Work) (k : OpKind) :
    latencies prepare stage w k ≤ opsOf k (operations prepare stage w) ∧
      binBytes prepare stage w k ≤ bytesOf k (operations prepare stage w) := by
  cases stage with
  | Execute duration => exact ⟨rangedOf_le _ _, le_rfl⟩
  | Prepare expected =>
    cases prepare with
    | false => exact ⟨Nat.zero_le _, Nat.zero_le _⟩
    | true =>
      rw [operations_prepare, opsOf_append, bytesOf_append]
      exact ⟨Nat.le_add_right_of_le (rangedOf_le _ _), Nat.le_add_right _ _⟩
  | Hybrid _ _ | Cleanup _ | Custom _ _ | Validation => exact ⟨samplesOf_le _ _, Nat.zero_le _⟩

theorem shows_all_iff (prepare : Bool) (stage : StageSpecificConfig) (w : Work) :
    (∀ k, latencies prepare stage w k = opsOf k (operations prepare stage w) ∧
      binBytes prepare stage w k = bytesOf k (operations prepare stage w)) ↔
      ShownInFull prepare stage w := by
  cases stage with
  | Execute duration =>
    have hrange := rangedOf_eq_iff w.workers.flatten
    unfold latencies binBytes operations ShownInFull
    simpa only [and_true] using hrange
  | Prepare expected =>
    cases prepare with
    | false => simp [latencies, binBytes, operations, ShownInFull]
    | true =>
      have hputs : (∀ k, rangedOf k (putOps w) = opsOf k (putOps w)) ↔
          ∀ p ∈ w.puts, p.2.in_range = true := by
        rw [rangedOf_eq_iff]
        unfold putOps
        rw [List.forall_mem_map]
        exact Iff.rfl
      unfold latencies binBytes ShownInFull
      simp only [operations_prepare, ← hputs, opsOf_append, bytesOf_append, opsOf_mkdirs,
        bytesOf_mkdirs, ↓reduceIte, Nat.add_zero, and_true, forall_const]
      constructor
      · intro h
        have hmeta := h .Meta
        have hle := rangedOf_le .Meta (putOps w)
        rw [if_pos rfl] at hmeta
        have hno : w.mkdirs = 0 := by omega
        refine ⟨fun k => ?_, hno⟩
        have hk := h k
        simpa [hno] using hk
      · rintro ⟨h, hno⟩ k
        simp [hno, h k]
  | Hybrid max_duration expected =>
    unfold latencies binBytes operations ShownInFull
    simp only [forall_and, samplesOf_eq_iff, ← bytesOf_eq_zero_iff, eq_comm (a := 0), and_assoc]
  | Cleanup expected =>
    cases prepare with
    | false => simp [latencies, binBytes, operations, ShownInFull, samplesOf]
    | true =>
      have hdeletes : (∀ k, samplesOf k (w.deletes.map Request.Meta) =
            opsOf k (w.deletes.map Request.Meta)) ↔
          ∀ s ∈ w.deletes, s.in_range = true ∧ s.uncontended = true := by
        rw [samplesOf_eq_iff, List.forall_mem_map]
        exact Iff.rfl
      have hbytes : ∀ k, bytesOf k (w.deletes.map Request.Meta) = 0 := by
        rw [bytesOf_eq_zero_iff]
        simp [Request.bytes]
      unfold latencies binBytes operations ShownInFull
      simp [← hdeletes, hbytes]
  | Custom command args => simp [latencies, binBytes, operations, ShownInFull, samplesOf]
  | Validation => simp [latencies, binBytes, operations, ShownInFull, samplesOf]

/-- Two sums with the one below the other are equal when all parts are. -/
theorem sum_eq_iff_of_le {α : Type} {f g : α → Nat} {l : List α} (h : ∀ a ∈ l, f a ≤ g a) :
    (l.map f).sum = (l.map g).sum ↔ ∀ a ∈ l, f a = g a := by
  induction l with
  | nil => simp
  | cons a l ih =>
    obtain ⟨ha, hl⟩ := List.forall_mem_cons.mp h
    have hle := List.sum_le_sum hl
    rw [List.forall_mem_cons, ← ih hl, List.map_cons, List.map_cons, List.sum_cons, List.sum_cons]
    omega

/-- The totals of the file of a stage are conserved exactly when each agent
does in it only what the file shows in full. -/
theorem totals_conserved_iff {prepare : Bool} {i : Nat} {stage : StageConfig}
    {agents : List (String × Work)} {tsv : StageTsv}
    (h : write_stage_summary_tsv (reportsOf prepare i stage agents) = .ok tsv) :
    TotalsConserved prepare stage agents tsv ↔
      ∀ a ∈ agents, ShownInFull prepare stage.config a.2 := by
  have hfile : ∀ k, tsv.ops k = (agents.map fun a => latencies prepare stage.config a.2 k).sum ∧
      tsv.bytes k = if (agents.map fun a => latencies prepare stage.config a.2 k).sum = 0 then 0
        else (agents.map fun a => binBytes prepare stage.config a.2 k).sum := by
    intro k
    have hk := write_stage_summary_totals h k
    unfold reportsOf at hk
    simpa only [List.map_map, Function.comp_def, stage_shows] using hk
  have hops : ∀ k, (tsv.ops k = (agents.map fun a =>
      opsOf k (operations prepare stage.config a.2)).sum ↔
      ∀ a ∈ agents, latencies prepare stage.config a.2 k =
        opsOf k (operations prepare stage.config a.2)) := by
    intro k
    rw [(hfile k).1]
    exact sum_eq_iff_of_le fun a _ => (shows_le prepare stage.config a.2 k).1
  have hbytes : ∀ k, tsv.ops k = (agents.map fun a =>
      opsOf k (operations prepare stage.config a.2)).sum →
      (tsv.bytes k = (agents.map fun a =>
        bytesOf k (operations prepare stage.config a.2)).sum ↔
      ∀ a ∈ agents, binBytes prepare stage.config a.2 k =
        bytesOf k (operations prepare stage.config a.2)) := by
    intro k hk
    rw [← sum_eq_iff_of_le fun a _ => (shows_le prepare stage.config a.2 k).2, (hfile k).2]
    split
    · -- nothing of this kind was done, so no bytes were moved either
      rename_i h0
      have hall := (hops k).mp hk
      have hzero : ∀ a ∈ agents, bytesOf k (operations prepare stage.config a.2) = 0 := by
        intro a ha
        apply bytesOf_of_opsOf
        rw [← hall a ha]
        exact List.sum_eq_zero_iff.mp h0 _ (List.mem_map_of_mem ha)
      have hsum : (agents.map fun a => bytesOf k (operations prepare stage.config a.2)).sum = 0 := by
        rw [List.sum_eq_zero_iff]
        intro n hn
        obtain ⟨a, ha, rfl⟩ := List.mem_map.mp hn
        exact hzero a ha
      have hbin : (agents.map fun a => binBytes prepare stage.config a.2 k).sum = 0 := by
        have hle := List.sum_le_sum (l := agents)
          fun a _ => (shows_le prepare stage.config a.2 k).2
        omega
      rw [hsum, hbin]
    · exact Iff.rfl
  constructor
  · intro hc a ha
    rw [← shows_all_iff]
    intro k
    obtain ⟨ho, hb⟩ := hc k
    exact ⟨(hops k).mp ho a ha, (hbytes k ho).mp hb a ha⟩
  · intro hs k
    have hk : ∀ a ∈ agents, latencies prepare stage.config a.2 k =
          opsOf k (operations prepare stage.config a.2) ∧
        binBytes prepare stage.config a.2 k =
          bytesOf k (operations prepare stage.config a.2) :=
      fun a ha => (shows_all_iff prepare stage.config a.2).mpr (hs a ha) k
    have ho := (hops k).mpr fun a ha => (hk a ha).1
    exact ⟨ho, (hbytes k ho).mpr fun a ha => (hk a ha).2⟩

/-- Two agents that read one object each. -/
def readers : List (String × Work) :=
  [("agent-1", { workers := [[.Get 100 {}]] }), ("agent-2", { workers := [[.Get 200 {}]] })]

def hybridStage : StageConfig := ⟨"mixed", 0, .DurationOrTasks, none, none, false, .Hybrid none none⟩

theorem execute_stage_conserves : ∃ tsv,
    write_stage_summary_tsv (reportsOf true 0 executeStage readers) = .ok tsv ∧
      TotalsConserved true executeStage readers tsv := by
  have hin : ∀ a ∈ readers, ∀ op ∈ a.2.workers.flatten, op.sample.in_range = true := by decide
  exact ⟨_, rfl, (totals_conserved_iff rfl).mpr hin⟩

/-- The file of a hybrid stage counts the reads, but none of their bytes. -/
theorem hybrid_stage_loses_bytes : ∃ tsv,
    write_stage_summary_tsv (reportsOf true 0 hybridStage readers) = .ok tsv ∧
      tsv.ops .Get = 2 ∧ tsv.bytes .Get = 0 ∧ ¬ TotalsConserved true hybridStage readers tsv := by
  refine ⟨_, rfl, by decide, by decide, ?_⟩
  intro h
  exact absurd (h .Get).2 (by decide)

end sai3_bench.controller
