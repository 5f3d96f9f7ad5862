-- The merge of the processes (multiprocess.rs), which gets the summaries of its
-- workers as texts, and what it reports beside the merge of the runtimes.
import Sai3Bench.LosslessMerges

namespace sai3_bench.multiprocess

open histograms live_stats summaries
open workload (NUM_BUCKETS)

/-! ## The summary of a run -/

/-- What a run has gathered of its operations of one kind. -/
structure KindTotals (sc : Scale) where
  hists : OpHists sc
  ops : U64
  bytes : U64
  bins : Bins

structure WorkerTotals (sc : Scale) where
  get : KindTotals sc
  put : KindTotals sc
  «meta» : KindTotals sc
  put_setup : OpHists sc
  put_io : OpHists sc
  total_errors : U64

section

variable {sc : Scale}

def WorkerTotals.kind (w : WorkerTotals sc) : OpKind → KindTotals sc
  | .Get => w.get
  | .Put => w.put
  | .Meta => w.meta

/-- `combined.add(hist).ok()`: what cannot be added is left out. -/
def add_lossy {m n : Nat} (combined : Histogram n) (hist : Histogram m) : Histogram n :=
  (combined.add hist).getD combined

def combined_histogram (hists : OpHists sc) : Histogram sc.wide :=
  (List.ofFn hists).foldl add_lossy 0

def KindTotals.op_agg (t : KindTotals sc) : OpAgg :=
  ({ bytes := t.bytes, ops := t.ops } : OpAgg).with_percentiles sc (combined_histogram t.hists)

/-- The end of `workload::run`. -/
def WorkerTotals.summary (w : WorkerTotals sc) : Summary (OpHists sc) :=
  let hists := [w.get, w.put, w.meta].map fun t => combined_histogram t.hists
  let combined : Histogram sc.narrow := hists.foldl add_lossy 0
  { total_bytes := w.get.bytes + w.put.bytes + w.meta.bytes
    total_ops := w.get.ops + w.put.ops + w.meta.ops
    p50_us := percentile sc .P50 combined
    p95_us := percentile sc .P95 combined
    p99_us := percentile sc .P99 combined
    get := w.get.op_agg
    put := w.put.op_agg
    «meta» := w.meta.op_agg
    get_bins := w.get.bins
    put_bins := w.put.bins
    meta_bins := w.meta.bins
    get_hists := w.get.hists
    put_hists := w.put.hists
    meta_hists := w.meta.hists
    put_hists_setup := w.put_setup
    put_hists_io := w.put_io
    total_errors := w.total_errors }

/-! ## Summaries as texts -/

/-- How a histogram is written and read back. -/
structure Encoding (sc : Scale) where
  Text : Type
  serialize : Histogram sc.wide → Text
  deserialize : Text → Except String (Histogram sc.wide)
  round_trip : ∀ hist, deserialize (serialize hist) = .ok hist

structure IpcSummary (Text : Type) where
  total_bytes : U64
  total_ops : U64
  p50_us : Nat
  p95_us : Nat
  p99_us : Nat
  get : OpAgg
  put : OpAgg
  «meta» : OpAgg
  get_bins : Bins
  put_bins : Bins
  meta_bins : Bins
  get_hists_serialized : List Text
  put_hists_serialized : List Text
  meta_hists_serialized : List Text
  total_errors : U64

def from_summary (e : Encoding sc) (s : Summary (OpHists sc)) : IpcSummary e.Text :=
  let serialize_ophists (hists : OpHists sc) := List.ofFn fun b => e.serialize (hists b)
  { total_bytes := s.total_bytes
    total_ops := s.total_ops
    p50_us := s.p50_us
    p95_us := s.p95_us
    p99_us := s.p99_us
    get := s.get
    put := s.put
    «meta» := s.meta
    get_bins := s.get_bins
    put_bins := s.put_bins
    meta_bins := s.meta_bins
    get_hists_serialized := serialize_ophists s.get_hists
    put_hists_serialized := serialize_ophists s.put_hists
    meta_hists_serialized := serialize_ophists s.meta_hists
    total_errors := s.total_errors }

/-! ## The merge of the processes -/

def create_empty_ophists (num_buckets : Nat) : List (Histogram sc.wide) :=
  List.replicate num_buckets 0

/-- `i` is the number of the first bucket that is left. -/
def merge_hist_vec (e : Encoding sc) :
    Nat → List (Histogram sc.wide) → List e.Text → Except String (List (Histogram sc.wide))
  | _, target, [] => .ok target
  | i, [], _ :: _ => .error s!"Histogram bucket index {i} out of range"
  | i, hist :: target, encoded :: serialized => do
    let deserialized ← e.deserialize encoded
    let hist ← add_or "Failed to merge histograms" hist deserialized
    let target ← merge_hist_vec e (i + 1) target serialized
    .ok (hist :: target)

/-- One process more. -/
def merge_process (e : Encoding sc) (m : Summary (List (Histogram sc.wide)))
    (s : IpcSummary e.Text) : Except String (Summary (List (Histogram sc.wide))) := do
  let get_hists ← merge_hist_vec e 0 m.get_hists s.get_hists_serialized
  let put_hists ← merge_hist_vec e 0 m.put_hists s.put_hists_serialized
  let meta_hists ← merge_hist_vec e 0 m.meta_hists s.meta_hists_serialized
  .ok { m with
    total_bytes := m.total_bytes + s.total_bytes
    total_ops := m.total_ops + s.total_ops
    get := { m.get with ops := m.get.ops + s.get.ops, bytes := m.get.bytes + s.get.bytes }
    put := { m.put with ops := m.put.ops + s.put.ops, bytes := m.put.bytes + s.put.bytes }
    «meta» := { m.meta with ops := m.meta.ops + s.meta.ops, bytes := m.meta.bytes + s.meta.bytes }
    get_bins := m.get_bins.plus s.get_bins
    put_bins := m.put_bins.plus s.put_bins
    meta_bins := m.meta_bins.plus s.meta_bins
    get_hists := get_hists
    put_hists := put_hists
    meta_hists := meta_hists }

/-- The quantile of the first bucket that is not empty. -/
def calculate_percentile (sc : Scale) (hists : List (Histogram sc.wide)) (p : Percentile) : Nat :=
  match hists.find? fun hist => !hist.is_empty with
  | some hist => percentile sc p hist
  | none => 0

def calculated (sc : Scale) (agg : OpAgg) (hists : List (Histogram sc.wide)) : OpAgg :=
  { agg with
    p50_us := calculate_percentile sc hists .P50
    p95_us := calculate_percentile sc hists .P95
    p99_us := calculate_percentile sc hists .P99 }

/-- What the merge begins with. -/
def nothing (num_buckets : Nat) : Summary (List (Histogram sc.wide)) where
  total_bytes := 0
  total_ops := 0
  p50_us := 0
  p95_us := 0
  p99_us := 0
  get := {}
  put := {}
  «meta» := {}
  get_bins := ∅
  put_bins := ∅
  meta_bins := ∅
  get_hists := create_empty_ophists num_buckets
  put_hists := create_empty_ophists num_buckets
  meta_hists := create_empty_ophists num_buckets
  put_hists_setup := create_empty_ophists NUM_BUCKETS
  put_hists_io := create_empty_ophists NUM_BUCKETS
  total_errors := 0

def merge_summaries (e : Encoding sc) (summaries : List (IpcSummary e.Text)) :
    Except String (Summary (List (Histogram sc.wide))) :=
  match summaries with
  | [] => .error "No summaries to merge"
  | first :: _ => do
    let m ← summaries.foldlM (merge_process e) (nothing first.get_hists_serialized.length)
    let get := calculated sc m.get m.get_hists
    let put := calculated sc m.put m.put_hists
    let «meta» := calculated sc m.meta m.meta_hists
    .ok { m with
      -- the percentiles of all operations are those of GET
      p50_us := get.p50_us
      p95_us := get.p95_us
      p99_us := get.p99_us
      get := get
      put := put
      «meta» := «meta»
      total_errors := (summaries.map (·.total_errors)).sum }

/-! ## What both modes are to report -/

/-- All latencies of a kind, by the size of the objects. -/
def recorded (ws : List (WorkerTotals sc)) (k : OpKind) : OpHists sc :=
  (ws.map fun w => (w.kind k).hists).sum

def everything (ws : List (WorkerTotals sc)) : Histogram sc.wide :=
  union (recorded ws .Get) + union (recorded ws .Put) + union (recorded ws .Meta)

/-- The first bucket that is not empty. -/
def first_bucket (hists : OpHists sc) : Histogram sc.wide :=
  ((List.ofFn hists).find? fun hist => !hist.is_empty).getD 0

/-- No latency is over a minute. -/
def Short (ws : List (WorkerTotals sc)) : Prop :=
  ∀ w ∈ ws, ∀ k b slot, (w.kind k).hists b slot ≠ 0 → sc.lowest slot ≤ 60_000_000

structure Agree (ws : List (WorkerTotals sc)) (mp : Summary (List (Histogram sc.wide)))
    (mr : Summary (OpHists sc)) : Prop where
  total_ops : mp.total_ops = mr.total_ops
  total_bytes : mp.total_bytes = mr.total_bytes
  ops : ∀ k, (mp.op k).ops = (mr.op k).ops
  bytes : ∀ k, (mp.op k).bytes = (mr.op k).bytes
  total_errors : mp.total_errors = mr.total_errors
  bins : ∀ k bucket, (mp.bins k).lookup bucket = (mr.bins k).lookup bucket
  percentiles : ∀ k p, (mp.op k).value p = percentile sc p (union (recorded ws k)) ∧
    (mr.op k).value p = percentile sc p (union (recorded ws k))
  overall : ∀ p, mp.value p = percentile sc p (everything ws) ∧
    mr.value p = percentile sc p (everything ws)

/-- When the modes agree: the further workers have no errors and no bytes of META, and of
each kind the first bucket has the percentiles of all, that of GET those of all kinds. A
kind without operations keeps the percentiles of the first worker. -/
structure Matches (first : WorkerTotals sc) (rest : List (WorkerTotals sc)) : Prop where
  errors : (rest.map (·.total_errors)).sum = 0
  meta_bytes : (rest.map (·.meta.bytes)).sum = 0
  buckets : ∀ k p, percentile sc p (first_bucket (recorded (first :: rest) k)) =
    percentile sc p (union (recorded (first :: rest) k))
  overall : ∀ p, percentile sc p (first_bucket (recorded (first :: rest) .Get)) =
    percentile sc p (everything (first :: rest))
  idle : rest ≠ [] → ∀ k p, ((first :: rest).map fun w => (w.kind k).ops).sum = 0 →
    percentile sc p (union (first.kind k).hists) =
      percentile sc p (union (recorded (first :: rest) k))

/-! ## The summary of one worker -/

theorem foldl_add_lossy {n : Nat} (hists : List (Histogram sc.wide)) (into : Histogram n)
    (hfits : ∀ h ∈ hists, Histogram.Fits n h) :
    hists.foldl add_lossy into = into + Histogram.resize n hists.sum := by
  induction hists generalizing into with
  | nil => rw [List.foldl_nil, List.sum_nil, Histogram.resize_zero, add_zero]
  | cons h hists ih =>
    rw [List.forall_mem_cons] at hfits
    unfold add_lossy at ih ⊢
    rw [List.foldl_cons, Histogram.add_fits hfits.1, Option.getD_some, ih _ hfits.2,
      List.sum_cons, Histogram.resize_add, add_assoc]

theorem combined_histogram_eq (hists : OpHists sc) : combined_histogram hists = union hists := by
  unfold combined_histogram union
  rw [foldl_add_lossy _ _ fun _ _ => Histogram.fits_self, Histogram.resize_self, zero_add]

theorem with_percentiles_value (agg : OpAgg) {n : Nat} (h : Histogram n) (p : Percentile) :
    (agg.with_percentiles sc h).value p = percentile sc p h := by
  cases p <;> rfl

theorem fits_union {hists : OpHists sc} :
    Histogram.Fits sc.narrow (union hists) ↔ ∀ b, Histogram.Fits sc.narrow (hists b) := by
  unfold union
  rw [Histogram.fits_sum]
  simp [List.mem_ofFn]

/-- A quantile of what is combined is that of all. -/
theorem percentile_resize {h : Histogram sc.wide} (hfits : Histogram.Fits sc.narrow h)
    (p : Percentile) :
    percentile sc p (Histogram.resize sc.narrow h) = percentile sc p h :=
  Histogram.quantile_resize _ _ hfits sc.narrow_le

theorem percentile_zero {n : Nat} (p : Percentile) : percentile sc p (0 : Histogram n) = 0 :=
  Histogram.quantile_zero _ _

theorem trackable_of_short {ws : List (WorkerTotals sc)} (h : Short ws) :
    ∀ s ∈ ws.map WorkerTotals.summary, s.Trackable := by
  rw [List.forall_mem_map]
  intro w hw k b slot hslot
  refine sc.tracks slot (h w hw k b slot ?_)
  cases k <;> exact hslot

variable {w : WorkerTotals sc}

theorem summary_op (k : OpKind) : w.summary.op k = (w.kind k).op_agg := by
  cases k <;> rfl

theorem summary_hists (k : OpKind) : w.summary.hists (histsOf k) = (w.kind k).hists := by
  cases k <;> rfl

theorem summary_value (h : w.summary.Trackable) (p : Percentile) :
    w.summary.value p = percentile sc p (everything [w]) := by
  have hfits : ∀ k, Histogram.Fits sc.narrow (union (w.kind k).hists) := by
    intro k
    rw [fits_union, ← summary_hists]
    exact h k
  have hrecorded : ∀ k, recorded [w] k = (w.kind k).hists := fun k => List.sum_singleton
  unfold everything
  rw [hrecorded, hrecorded, hrecorded]
  have hcombined : ([w.get, w.put, w.meta].map fun t => combined_histogram t.hists).foldl add_lossy
      (0 : Histogram sc.narrow) = Histogram.resize sc.narrow
        (union w.get.hists + union w.put.hists + union w.meta.hists) := by
    simp only [combined_histogram_eq]
    rw [foldl_add_lossy, zero_add]
    · simp [add_assoc]
    · simp only [List.map_cons, List.map_nil, List.forall_mem_cons]
      exact ⟨hfits .Get, hfits .Put, hfits .Meta, fun _ h => absurd h List.not_mem_nil⟩
  have hall := Histogram.fits_add.mpr ⟨Histogram.fits_add.mpr ⟨hfits .Get, hfits .Put⟩, hfits .Meta⟩
  calc w.summary.value p
      = percentile sc p (([w.get, w.put, w.meta].map fun t =>
          combined_histogram t.hists).foldl add_lossy (0 : Histogram sc.narrow)) := by
        cases p <;> rfl
    _ = percentile sc p (Histogram.resize sc.narrow
          (union w.get.hists + union w.put.hists + union w.meta.hists)) := by rw [hcombined]
    _ = _ := percentile_resize hall p

/-! ## The merge of the processes as a sum -/

/-- One process more, histograms by value. -/
def joined (m s : Summary (OpHists sc)) : Summary (OpHists sc) :=
  { m.plus s with
    «meta» := { m.meta with ops := m.meta.ops + s.meta.ops, bytes := m.meta.bytes + s.meta.bytes } }

/-- Bucket by bucket what was written is read back and added. -/
theorem merge_hist_vec_ok (e : Encoding sc) (hists other : OpHists sc) :
    merge_hist_vec e 0 (List.ofFn hists) (List.ofFn fun b => e.serialize (other b)) =
      .ok (List.ofFn (hists + other)) := by
  have hlist : ∀ (bs : List (Fin NUM_BUCKETS)) (i : Nat),
      merge_hist_vec e i (bs.map hists) (bs.map fun b => e.serialize (other b)) =
        .ok (bs.map (hists + other)) := by
    intro bs
    induction bs with
    | nil => exact fun i => rfl
    | cons b bs ih =>
      intro i
      simp only [List.map_cons, merge_hist_vec, e.round_trip, add_or, Histogram.add_self_range,
        bind, Except.bind, ih]
      rfl
  rw [List.ofFn_eq_map, List.ofFn_eq_map, List.ofFn_eq_map]
  exact hlist _ 0

def lists (s : Summary (OpHists sc)) : Summary (List (Histogram sc.wide)) :=
  s.with_hists fun f => List.ofFn (s.hists f)

theorem merge_process_ok (e : Encoding sc) (m s : Summary (OpHists sc)) :
    merge_process e (lists m) (from_summary e s) = .ok (lists (joined m s)) := by
  have hvec : ∀ f, merge_hist_vec e 0 (List.ofFn (m.hists f))
      (List.ofFn fun b => e.serialize (s.hists f b)) = .ok (List.ofFn (m.hists f + s.hists f)) :=
    fun f => merge_hist_vec_ok e _ _
  unfold merge_process
  show (merge_hist_vec e 0 (List.ofFn (m.hists .Get))
    (List.ofFn fun b => e.serialize (s.hists .Get b)) >>= _) = _
  rw [hvec]
  show (merge_hist_vec e 0 (List.ofFn (m.hists .Put))
    (List.ofFn fun b => e.serialize (s.hists .Put b)) >>= _) = _
  rw [hvec]
  show (merge_hist_vec e 0 (List.ofFn (m.hists .Meta))
    (List.ofFn fun b => e.serialize (s.hists .Meta b)) >>= _) = _
  rw [hvec]
  rfl

theorem merge_processes_ok (e : Encoding sc) (summaries : List (Summary (OpHists sc)))
    (m : Summary (OpHists sc)) :
    (summaries.map (from_summary e)).foldlM (merge_process e) (lists m) =
      .ok (lists (summaries.foldl joined m)) := by
  induction summaries generalizing m with
  | nil => rfl
  | cons s summaries ih =>
    rw [List.map_cons, List.foldlM_cons, merge_process_ok]
    exact ih (joined m s)

/-- A summary of nothing, histograms by value. -/
def blank : Summary (OpHists sc) where
  total_bytes := 0
  total_ops := 0
  p50_us := 0
  p95_us := 0
  p99_us := 0
  get := {}
  put := {}
  «meta» := {}
  get_bins := ∅
  put_bins := ∅
  meta_bins := ∅
  get_hists := 0
  put_hists := 0
  meta_hists := 0
  put_hists_setup := 0
  put_hists_io := 0
  total_errors := 0

theorem nothing_eq :
    (nothing NUM_BUCKETS : Summary (List (Histogram sc.wide))) = lists blank := by
  have hempty : (create_empty_ophists NUM_BUCKETS : List (Histogram sc.wide)) =
      List.ofFn (0 : OpHists sc) := by
    unfold create_empty_ophists
    rw [List.ofFn_eq_map]
    rfl
  unfold nothing
  rw [hempty]
  rfl

/-- What the merge of the processes makes of the sum. -/
def reported (m : Summary (OpHists sc)) (total_errors : U64) :
    Summary (List (Histogram sc.wide)) :=
  let get := calculated sc m.get (List.ofFn m.get_hists)
  { lists m with
    p50_us := get.p50_us
    p95_us := get.p95_us
    p99_us := get.p99_us
    get := get
    put := calculated sc m.put (List.ofFn m.put_hists)
    «meta» := calculated sc m.meta (List.ofFn m.meta_hists)
    total_errors := total_errors }

theorem process_merge_eq (e : Encoding sc) (s : Summary (OpHists sc))
    (summaries : List (Summary (OpHists sc))) :
    merge_summaries e ((s :: summaries).map (from_summary e)) =
      .ok (reported ((s :: summaries).foldl joined blank)
        ((s :: summaries).map (·.total_errors)).sum) := by
  have hlen : (from_summary e s).get_hists_serialized.length = NUM_BUCKETS := List.length_ofFn
  have herrors : ∀ l : List (Summary (OpHists sc)),
      (l.map (from_summary e)).map (·.total_errors) = l.map (·.total_errors) := by
    intro l
    rw [List.map_map]
    rfl
  unfold merge_summaries
  rw [List.map_cons]
  dsimp only
  rw [hlen, nothing_eq, ← List.map_cons, merge_processes_ok, herrors]
  rfl

theorem calculated_value (agg : OpAgg) (hists : OpHists sc) (p : Percentile) :
    (calculated sc agg (List.ofFn hists)).value p = percentile sc p (first_bucket hists) := by
  have hfirst : calculate_percentile sc (List.ofFn hists) p =
      percentile sc p (first_bucket hists) := by
    unfold calculate_percentile first_bucket
    cases (List.ofFn hists).find? fun hist => !hist.is_empty with
    | none => exact (percentile_zero p).symm
    | some hist => rfl
  rw [← hfirst]
  cases p <;> rfl

/-! ## The merge of the runtimes -/

theorem recalculated_keeps (s : Summary (OpHists sc)) :
    (recalculated s).total_ops = s.total_ops ∧ (recalculated s).total_bytes = s.total_bytes ∧
      (recalculated s).total_errors = s.total_errors ∧
      (∀ k, ((recalculated s).op k).ops = (s.op k).ops) ∧
      (∀ k, ((recalculated s).op k).bytes = (s.op k).bytes) ∧
      ∀ k, (recalculated s).bins k = s.bins k := by
  unfold recalculated
  dsimp only
  split
  · refine ⟨rfl, rfl, rfl, fun k => ?_, fun k => ?_, fun k => ?_⟩
    · cases k <;> exact (recalculated_op_counts _ _).1
    · cases k <;> exact (recalculated_op_counts _ _).2
    · cases k <;> rfl
  · refine ⟨rfl, rfl, rfl, fun k => ?_, fun k => ?_, fun k => ?_⟩
    · cases k <;> exact (recalculated_op_counts _ _).1
    · cases k <;> exact (recalculated_op_counts _ _).2
    · cases k <;> rfl

theorem recalculated_value (s : Summary (OpHists sc)) (k : OpKind) (p : Percentile) :
    ((recalculated s).op k).value p = if 0 < (s.op k).ops then
      percentile sc p (Histogram.resize sc.narrow (union (s.hists (histsOf k))))
    else (s.op k).value p := by
  have hop : ∀ (agg : OpAgg) (hists : OpHists sc), (recalculated_op agg hists).value p =
      if 0 < agg.ops then percentile sc p (Histogram.resize sc.narrow (union hists))
      else agg.value p := by
    intro agg hists
    unfold recalculated_op
    split
    · exact with_percentiles_value _ _ p
    · rfl
  unfold recalculated
  dsimp only
  split
  · cases k <;> exact hop _ _
  · cases k <;> exact hop _ _

theorem recalculated_overall (s : Summary (OpHists sc)) (p : Percentile) :
    (recalculated s).value p = if s.all_hists.all (fun h => h.is_empty) then s.value p
      else percentile sc p (Histogram.resize sc.narrow s.all_hists.sum) := by
  unfold recalculated
  dsimp only
  split
  · cases p <;> rfl
  · cases p <;> rfl

variable {first : WorkerTotals sc} {rest : List (WorkerTotals sc)}

/-- The sum of a field over the merged summaries of some workers. -/
theorem foldl_plus_sum {M : Type} [AddCommMonoid M] {φ : Summary (OpHists sc) → M}
    (h : ∀ m s : Summary (OpHists sc), φ (m.plus s) = φ m + φ s) :
    φ ((rest.map WorkerTotals.summary).foldl Summary.plus first.summary) =
      ((first :: rest).map fun w => φ w.summary).sum := by
  rw [foldl_additive h, List.map_map, List.map_cons, List.sum_cons]
  rfl

/-- A field that no step changes. -/
theorem foldl_plus_keeps {β : Type} {φ : Summary (OpHists sc) → β}
    (h : ∀ m s : Summary (OpHists sc), φ (m.plus s) = φ m) (summaries : List (Summary (OpHists sc)))
    (m : Summary (OpHists sc)) : φ (summaries.foldl Summary.plus m) = φ m := by
  induction summaries generalizing m with
  | nil => rfl
  | cons s summaries ih => rw [List.foldl_cons, ih, h]

/-- The bins of merged summaries, for a merge that adds them up. -/
theorem foldl_bins {join : Summary (OpHists sc) → Summary (OpHists sc) → Summary (OpHists sc)}
    {k : OpKind} (h : ∀ m s, (join m s).bins k = (m.bins k).plus (s.bins k))
    (summaries : List (Summary (OpHists sc))) (m : Summary (OpHists sc)) :
    (summaries.foldl join m).bins k = (summaries.map (·.bins k)).foldl AList.plus (m.bins k) := by
  induction summaries generalizing m with
  | nil => rfl
  | cons s summaries ih => rw [List.foldl_cons, ih, h, List.map_cons, List.foldl_cons]

theorem summary_bins (w : WorkerTotals sc) (k : OpKind) : w.summary.bins k = (w.kind k).bins := by
  cases k <;> rfl

/-- Nothing in a sum of histograms: nothing in what was added. -/
theorem hists_of_add {hists other : OpHists sc} (h : hists + other = 0) : hists = 0 := by
  funext b i
  exact (Count.add_eq_zero.mp (congrFun (congrFun h b) i)).1

theorem union_eq_zero {hists : OpHists sc} : union hists = 0 ↔ hists = 0 := by
  unfold union
  constructor
  · intro h
    funext b i
    have hi := congrFun h i
    rw [Histogram.sum_apply] at hi
    exact Count.sum_eq_zero.mp hi _ (List.mem_map.mpr ⟨hists b, List.mem_ofFn.mpr ⟨b, rfl⟩, rfl⟩)
  · rintro rfl
    refine List.sum_eq_zero fun h hh => ?_
    obtain ⟨b, rfl⟩ := List.mem_ofFn.mp hh
    rfl

/-- What the merge of the runtimes reports. -/
structure Runtimes (first : WorkerTotals sc) (rest : List (WorkerTotals sc))
    (mr : Summary (OpHists sc)) : Prop where
  total_ops : mr.total_ops = ((first :: rest).map (·.summary.total_ops)).sum
  total_bytes : mr.total_bytes = ((first :: rest).map (·.summary.total_bytes)).sum
  ops : ∀ k, (mr.op k).ops = ((first :: rest).map fun w => (w.kind k).ops).sum
  bytes : ∀ k, k ≠ .Meta → (mr.op k).bytes = ((first :: rest).map fun w => (w.kind k).bytes).sum
  meta_bytes : mr.meta.bytes = first.meta.bytes
  total_errors : mr.total_errors = first.total_errors
  bins : ∀ k, mr.bins k =
    (rest.map fun w => (w.kind k).bins).foldl AList.plus (first.kind k).bins
  values : ∀ k p, (mr.op k).value p =
    if rest ≠ [] ∧ ((first :: rest).map fun w => (w.kind k).ops).sum = 0 then
      percentile sc p (union (first.kind k).hists)
    else percentile sc p (union (recorded (first :: rest) k))
  overall : ∀ p, mr.value p = percentile sc p (everything (first :: rest))

theorem summary_op_value (w : WorkerTotals sc) (k : OpKind) (p : Percentile) :
    (w.summary.op k).value p = percentile sc p (union (w.kind k).hists) := by
  rw [summary_op, ← combined_histogram_eq]
  exact with_percentiles_value _ _ p

theorem runtimes_one (h : Short [first]) : Runtimes first [] first.summary := by
  have htrack : first.summary.Trackable := trackable_of_short h _ List.mem_cons_self
  refine ⟨by simp, by simp, fun k => ?_, fun k _ => ?_, rfl, rfl, fun k => ?_, fun k p => ?_, ?_⟩
  · rw [summary_op, List.map_singleton, List.sum_singleton]
    rfl
  · rw [summary_op, List.map_singleton, List.sum_singleton]
    rfl
  · cases k <;> rfl
  · rw [if_neg (by simp), summary_op_value]
    unfold recorded
    rw [List.map_singleton, List.sum_singleton]
  · exact summary_value htrack

/-- When nothing was recorded, the first worker recorded nothing. -/
theorem everything_first (hnone : everything (first :: rest) = 0) : everything [first] = 0 := by
  have hkind : ∀ k, recorded [first] k = 0 := by
    intro k
    have hunion : union (recorded (first :: rest) k) = 0 := by
      funext i
      have hsum := Count.add_eq_zero.mp (congrFun hnone i)
      cases k with
      | Get => exact (Count.add_eq_zero.mp hsum.1).1
      | Put => exact (Count.add_eq_zero.mp hsum.1).2
      | Meta => exact hsum.2
    have hboth := union_eq_zero.mp hunion
    unfold recorded at hboth ⊢
    rw [List.map_cons, List.sum_cons] at hboth
    rw [List.map_singleton, List.sum_singleton]
    exact hists_of_add hboth
  unfold everything
  rw [hkind, hkind, hkind, union_eq_zero.mpr rfl, add_zero, add_zero]

theorem runtimes_more (hrest : rest ≠ []) (h : Short (first :: rest)) : Runtimes first rest
    (recalculated ((rest.map WorkerTotals.summary).foldl Summary.plus first.summary)) := by
  have htrack := (trackable_foldl (rest.map WorkerTotals.summary) first.summary).mpr
    (trackable_of_short h)
  have hhists : ∀ k, ((rest.map WorkerTotals.summary).foldl Summary.plus first.summary).hists
      (histsOf k) = recorded (first :: rest) k := by
    intro k
    rw [foldl_plus_sum (φ := fun s => s.hists (histsOf k)) fun m s => by cases k <;> rfl]
    unfold recorded
    simp only [summary_hists]
  have hops : ∀ k, (((rest.map WorkerTotals.summary).foldl Summary.plus first.summary).op k).ops =
      ((first :: rest).map fun w => (w.kind k).ops).sum := by
    intro k
    rw [foldl_plus_sum (φ := fun s => (s.op k).ops) fun m s => by cases k <;> rfl]
    simp only [summary_op]
    rfl
  obtain ⟨htotal, hbytes, herrors, hkops, hkbytes, hbins⟩ :=
    recalculated_keeps ((rest.map WorkerTotals.summary).foldl Summary.plus first.summary)
  have hfits : ∀ k, Histogram.Fits sc.narrow (union (recorded (first :: rest) k)) := by
    intro k
    rw [fits_union, ← hhists]
    exact htrack k
  refine ⟨?_, ?_, fun k => ?_, fun k hk => ?_, ?_, ?_, fun k => ?_, fun k p => ?_, fun p => ?_⟩
  · rw [htotal, foldl_plus_sum (φ := (·.total_ops)) fun _ _ => rfl]
  · rw [hbytes, foldl_plus_sum (φ := (·.total_bytes)) fun _ _ => rfl]
  · rw [hkops, hops]
  · rw [hkbytes, foldl_plus_sum (φ := fun s => (s.op k).bytes) fun m s => by
      cases k with
      | Meta => exact absurd rfl hk
      | _ => rfl]
    simp only [summary_op]
    rfl
  · exact (hkbytes .Meta).trans (foldl_plus_keeps (φ := (·.meta.bytes)) (fun _ _ => rfl) _ _)
  · rw [herrors, foldl_plus_keeps (φ := (·.total_errors)) fun _ _ => rfl]
    rfl
  · rw [hbins, foldl_bins fun m s => by cases k <;> rfl, List.map_map, summary_bins]
    congr 1
    exact List.map_congr_left fun w _ => summary_bins w k
  · rw [recalculated_value, hops, hhists, percentile_resize (hfits k),
      foldl_plus_keeps (φ := fun s => (s.op k).value p) fun m s => by cases k <;> cases p <;> rfl,
      summary_op_value]
    by_cases hzero : ((first :: rest).map fun w => (w.kind k).ops).sum = 0
    · rw [hzero, if_neg (by decide), if_pos ⟨hrest, rfl⟩]
    · have hpos : 0 < ((first :: rest).map fun w => (w.kind k).ops).sum :=
        (BitVec.pos_iff_ne_zero _).mpr hzero
      rw [if_pos hpos, if_neg fun h => hzero h.2]
  · have hall : ((rest.map WorkerTotals.summary).foldl Summary.plus first.summary).all_hists.sum =
        everything (first :: rest) := by
      unfold Summary.all_hists everything union
      rw [List.sum_append, List.sum_append, ← hhists, ← hhists, ← hhists]
      rfl
    rw [recalculated_overall, hall]
    split
    · rename_i hempty
      -- nothing was recorded, and so nothing by the first one
      have hnone : everything (first :: rest) = 0 := by
        rw [← hall]
        exact List.sum_eq_zero fun h hh =>
          Histogram.is_empty_iff.mp (List.all_eq_true.mp hempty h hh)
      rw [foldl_plus_keeps (φ := (·.value p)) fun m s => by cases p <;> rfl,
        summary_value (trackable_of_short h _ List.mem_cons_self), everything_first hnone, hnone]
    · exact percentile_resize (Histogram.fits_add.mpr
        ⟨Histogram.fits_add.mpr ⟨hfits .Get, hfits .Put⟩, hfits .Meta⟩) p

theorem runtimes_of_merge (h : Short (first :: rest)) : ∃ mr,
    summaries.merge_summaries ((first :: rest).map WorkerTotals.summary) = .ok mr ∧
      Runtimes first rest mr := by
  cases rest with
  | nil => exact ⟨first.summary, rfl, runtimes_one h⟩
  | cons second rest =>
    refine ⟨_, ?_, runtimes_more (by simp) h⟩
    have htrack := trackable_of_short h
    rw [List.map_cons, List.map_cons, merge_summaries_eq]
    exact recalculate_ok ((trackable_foldl _ _).mpr htrack)

/-- What the merge of the processes reports. -/
structure Processes (first : WorkerTotals sc) (rest : List (WorkerTotals sc))
    (mp : Summary (List (Histogram sc.wide))) : Prop where
  total_ops : mp.total_ops = ((first :: rest).map (·.summary.total_ops)).sum
  total_bytes : mp.total_bytes = ((first :: rest).map (·.summary.total_bytes)).sum
  ops : ∀ k, (mp.op k).ops = ((first :: rest).map fun w => (w.kind k).ops).sum
  bytes : ∀ k, (mp.op k).bytes = ((first :: rest).map fun w => (w.kind k).bytes).sum
  total_errors : mp.total_errors = ((first :: rest).map (·.total_errors)).sum
  bins : ∀ k, mp.bins k = ((first :: rest).map fun w => (w.kind k).bins).foldl AList.plus ∅
  values : ∀ k p, (mp.op k).value p = percentile sc p (first_bucket (recorded (first :: rest) k))
  overall : ∀ p, mp.value p = percentile sc p (first_bucket (recorded (first :: rest) .Get))

theorem foldl_joined_sum {M : Type} [AddCommMonoid M] {φ : Summary (OpHists sc) → M}
    (h : ∀ m s : Summary (OpHists sc), φ (joined m s) = φ m + φ s) (hblank : φ blank = 0)
    (ws : List (WorkerTotals sc)) :
    φ ((ws.map WorkerTotals.summary).foldl joined blank) = (ws.map fun w => φ w.summary).sum := by
  rw [foldl_additive h, hblank, zero_add, List.map_map]
  rfl

theorem processes_of_merge (first : WorkerTotals sc) (rest : List (WorkerTotals sc))
    (e : Encoding sc) : ∃ mp,
    merge_summaries e ((first :: rest).map fun w => from_summary e w.summary) = .ok mp ∧
      Processes first rest mp := by
  have hmap : (first :: rest).map (fun w => from_summary e w.summary) =
      ((first :: rest).map WorkerTotals.summary).map (from_summary e) := by
    rw [List.map_map]
    rfl
  refine ⟨_, hmap ▸ process_merge_eq e first.summary (rest.map WorkerTotals.summary), ?_⟩
  rw [← List.map_cons]
  have hhists : ∀ k, (((first :: rest).map WorkerTotals.summary).foldl joined blank).hists
      (histsOf k) = recorded (first :: rest) k := by
    intro k
    rw [foldl_joined_sum (φ := fun s => s.hists (histsOf k)) (fun m s => by cases k <;> rfl)
      (by cases k <;> rfl)]
    unfold recorded
    simp only [summary_hists]
  have hvalue : ∀ k p, ((reported (((first :: rest).map WorkerTotals.summary).foldl joined blank)
      (((first :: rest).map WorkerTotals.summary).map (·.total_errors)).sum).op k).value p =
        percentile sc p (first_bucket (recorded (first :: rest) k)) := by
    intro k p
    have hop : ∀ (m : Summary (OpHists sc)) (errors : U64), (reported m errors).op k =
        calculated sc (m.op k) (List.ofFn (m.hists (histsOf k))) :=
      fun m errors => by cases k <;> rfl
    rw [hop, calculated_value, hhists]
  refine ⟨?_, ?_, fun k => ?_, fun k => ?_, ?_, fun k => ?_, fun k p => ?_, fun p => ?_⟩
  · exact foldl_joined_sum (φ := (·.total_ops)) (fun _ _ => rfl) rfl _
  · exact foldl_joined_sum (φ := (·.total_bytes)) (fun _ _ => rfl) rfl _
  · have hop : ∀ (m : Summary (OpHists sc)) (errors : U64),
        ((reported m errors).op k).ops = (m.op k).ops := fun m errors => by cases k <;> rfl
    rw [hop, foldl_joined_sum (φ := fun s => (s.op k).ops) (fun m s => by cases k <;> rfl)
      (by cases k <;> rfl)]
    simp only [summary_op]
    rfl
  · have hop : ∀ (m : Summary (OpHists sc)) (errors : U64),
        ((reported m errors).op k).bytes = (m.op k).bytes := fun m errors => by cases k <;> rfl
    rw [hop, foldl_joined_sum (φ := fun s => (s.op k).bytes) (fun m s => by cases k <;> rfl)
      (by cases k <;> rfl)]
    simp only [summary_op]
    rfl
  · show (((first :: rest).map WorkerTotals.summary).map (·.total_errors)).sum = _
    rw [List.map_map]
    rfl
  · have hbins : ∀ (m : Summary (OpHists sc)) (errors : U64),
        (reported m errors).bins k = m.bins k := fun m errors => by cases k <;> rfl
    have hblank : (blank : Summary (OpHists sc)).bins k = ∅ := by cases k <;> rfl
    rw [hbins, foldl_bins fun m s => by cases k <;> rfl, List.map_map, hblank]
    congr 1
    exact List.map_congr_left fun w _ => summary_bins w k
  · exact hvalue k p
  · rw [← hvalue .Get p]
    cases p <;> rfl

/-! ## The two modes -/

/-- For workers whose latencies are at most a minute, the merge of the processes and that
of the runtimes report the same, with the percentiles of all that was recorded, just when
the workers match. -/
theorem modes_agree_iff (e : Encoding sc) (first : WorkerTotals sc)
    (rest : List (WorkerTotals sc)) (h : Short (first :: rest)) :
    (∃ mp mr,
      merge_summaries e ((first :: rest).map fun w => from_summary e w.summary) = .ok mp ∧
      summaries.merge_summaries ((first :: rest).map WorkerTotals.summary) = .ok mr ∧
      Agree (first :: rest) mp mr) ↔ Matches first rest := by
  obtain ⟨mp, hmp, hp⟩ := processes_of_merge first rest e
  obtain ⟨mr, hmr, hr⟩ := runtimes_of_merge h
  constructor
  · rintro ⟨mp', mr', hmp', hmr', hagree⟩
    cases hmp.symm.trans hmp'
    cases hmr.symm.trans hmr'
    refine ⟨?_, ?_, fun k p => ?_, fun p => ?_, fun hrest k p hzero => ?_⟩
    · have herrors := hagree.total_errors
      rw [hp.total_errors, hr.total_errors, List.map_cons, List.sum_cons] at herrors
      exact add_eq_left.mp herrors
    · have hbytes := hagree.bytes .Meta
      rw [hp.bytes, List.map_cons, List.sum_cons] at hbytes
      exact add_eq_left.mp (hbytes.trans hr.meta_bytes)
    · rw [← hp.values]
      exact (hagree.percentiles k p).1
    · rw [← hp.overall]
      exact (hagree.overall p).1
    · have hvalue := (hagree.percentiles k p).2
      rwa [hr.values, if_pos ⟨hrest, hzero⟩] at hvalue
  · intro hm
    refine ⟨mp, mr, hmp, hmr, ?_, ?_, fun k => ?_, fun k => ?_, ?_, fun k bucket => ?_,
      fun k p => ⟨?_, ?_⟩, fun p => ⟨?_, hr.overall p⟩⟩
    · rw [hp.total_ops, hr.total_ops]
    · rw [hp.total_bytes, hr.total_bytes]
    · rw [hp.ops, hr.ops]
    · by_cases hk : k = .Meta
      · subst hk
        refine Eq.trans ?_ hr.meta_bytes.symm
        rw [hp.bytes, List.map_cons, List.sum_cons]
        exact add_eq_left.mpr hm.meta_bytes
      · rw [hp.bytes, hr.bytes k hk]
    · rw [hp.total_errors, hr.total_errors, List.map_cons, List.sum_cons]
      exact add_eq_left.mpr hm.errors
    · rw [hp.bins, hr.bins, List.map_cons, List.foldl_cons]
      refine AList.lookup_foldl_plus (fun k' => ?_) _ _
      rw [AList.lookup_plus]
      exact Option.merge_none_left
    · rw [hp.values]
      exact hm.buckets k p
    · rw [hr.values]
      split
      · rename_i hidle
        exact hm.idle hidle.1 k p hidle.2
      · rfl
    · rw [hp.overall]
      exact hm.overall p

/-! ## Workers with one operation -/

theorem union_single (b : Fin NUM_BUCKETS) (h : Histogram sc.wide) :
    union (Pi.single b h) = h := by
  unfold union
  rw [List.sum_ofFn, Finset.sum_pi_single', if_pos (Finset.mem_univ b)]

theorem first_bucket_zero : first_bucket (0 : OpHists sc) = 0 := by
  unfold first_bucket
  rw [List.find?_eq_none.mpr]
  · rfl
  · intro hist hhist
    obtain ⟨b, rfl⟩ := List.mem_ofFn.mp hhist
    have hempty : (0 : Histogram sc.wide).is_empty = true := Histogram.is_empty_iff.mpr rfl
    simpa using hempty

theorem first_bucket_single (b : Fin NUM_BUCKETS) (h : Histogram sc.wide) :
    first_bucket (Pi.single b h) = h := by
  unfold first_bucket
  cases hfind : (List.ofFn (Pi.single b h : OpHists sc)).find? fun hist => !hist.is_empty with
  | none =>
    have hempty := List.find?_eq_none.mp hfind h (List.mem_ofFn.mpr ⟨b, by simp⟩)
    exact (Histogram.is_empty_iff.mp (by simpa using hempty)).symm
  | some hist =>
    obtain ⟨b', hb'⟩ := List.mem_ofFn.mp (List.mem_of_find?_eq_some hfind)
    have hne : ¬ hist.is_empty = true := by simpa using List.find?_some hfind
    by_cases hb : b' = b
    · subst hb
      rw [← hb', Pi.single_eq_same]
      rfl
    · rw [Pi.single_eq_of_ne hb] at hb'
      exact absurd (Histogram.is_empty_iff.mpr hb'.symm) hne

end

def none_of : KindTotals microseconds := ⟨0, 0, 0, ∅⟩

/-- One operation on an object of 1024 bytes. -/
def one_of (slot : Fin microseconds.wide) : KindTotals microseconds :=
  ⟨Pi.single (workload.bucket_index 1024) (.single slot 1), 1, 1024,
    (∅ : Bins).insert (workload.bucket_index 1024) (1, 1024)⟩

def reader (slot : Fin microseconds.wide) : WorkerTotals microseconds :=
  ⟨one_of slot, none_of, none_of, 0, 0, 0⟩

def writer (slot : Fin microseconds.wide) : WorkerTotals microseconds :=
  ⟨none_of, one_of slot, none_of, 0, 0, 0⟩

/-- Histograms that are handed over as they are. -/
def plain : Encoding microseconds := ⟨Histogram microseconds.wide, id, .ok, fun _ => rfl⟩

theorem short_one_of {slot i : Fin microseconds.wide} {b : Fin NUM_BUCKETS}
    (h : (one_of slot).hists b i ≠ 0) : i = slot := by
  by_contra hne
  refine h ?_
  show (Pi.single (workload.bucket_index 1024) (Histogram.single slot 1) :
    OpHists microseconds) b i = 0
  by_cases hb : b = workload.bucket_index 1024
  · subst hb
    rw [Pi.single_eq_same]
    exact Pi.single_eq_of_ne hne _
  · rw [Pi.single_eq_of_ne hb]
    rfl

def slot_100 : Fin microseconds.wide := ⟨100, by decide⟩

def slot_200 : Fin microseconds.wide := ⟨200, by decide⟩

/-- Two workers that each read one object of the same size: the modes agree. -/
theorem readers_agree : ∃ mp mr,
    merge_summaries plain ([reader slot_100, reader slot_200].map fun w =>
      from_summary plain w.summary) = .ok mp ∧
    summaries.merge_summaries ([reader slot_100, reader slot_200].map WorkerTotals.summary) =
      .ok mr ∧
    Agree [reader slot_100, reader slot_200] mp mr := by
  have hshort : Short [reader slot_100, reader slot_200] := by
    intro w hw k b i hi
    have hslot : i = slot_100 ∨ i = slot_200 := by
      rcases List.mem_cons.mp hw with rfl | hw
      · cases k with
        | Get => exact .inl (short_one_of hi)
        | _ => exact absurd rfl hi
      · cases List.mem_singleton.mp hw
        cases k with
        | Get => exact .inr (short_one_of hi)
        | _ => exact absurd rfl hi
    rcases hslot with rfl | rfl <;> decide
  have hget : recorded [reader slot_100, reader slot_200] .Get = Pi.single
      (workload.bucket_index 1024) (Histogram.single slot_100 1 + Histogram.single slot_200 1) := by
    unfold recorded
    rw [Pi.single_add, List.map_cons, List.map_singleton, List.sum_cons, List.sum_singleton]
    rfl
  have hnone : ∀ k, k ≠ .Get → recorded [reader slot_100, reader slot_200] k = 0 := by
    intro k hk
    cases k with
    | Get => exact absurd rfl hk
    | _ => rfl
  refine (modes_agree_iff plain (reader slot_100) [reader slot_200] hshort).mpr
    ⟨rfl, rfl, fun k p => ?_, fun p => ?_, fun _ k p hzero => ?_⟩
  · by_cases hk : k = .Get
    · rw [hk, hget, first_bucket_single, union_single]
    · rw [hnone k hk, first_bucket_zero, union_eq_zero.mpr rfl]
  · unfold everything
    rw [hnone .Put (by decide), hnone .Meta (by decide), union_eq_zero.mpr rfl, add_zero, add_zero,
      hget, first_bucket_single, union_single]
  · have hk : k ≠ .Get := by
      rintro rfl
      revert hzero
      decide
    have hidle : ((reader slot_100).kind k).hists = 0 := by
      cases k with
      | Get => exact absurd rfl hk
      | _ => rfl
    rw [hnone k hk, hidle]

/-- One worker that writes one object: the processes report the percentiles of no
operation at all. -/
theorem writer_differs : ¬ ∃ mp mr,
    merge_summaries plain ([writer slot_100].map fun w => from_summary plain w.summary) = .ok mp ∧
    summaries.merge_summaries ([writer slot_100].map WorkerTotals.summary) = .ok mr ∧
    Agree [writer slot_100] mp mr := by
  rintro ⟨mp, mr, hmp, _, hagree⟩
  obtain ⟨mp', hmp', hp⟩ := processes_of_merge (writer slot_100) [] plain
  cases hmp'.symm.trans hmp
  have hoverall := (hagree.overall .P50).1
  have hget : recorded [writer slot_100] .Get = 0 := rfl
  have hput : recorded [writer slot_100] .Put =
      Pi.single (workload.bucket_index 1024) (.single slot_100 1) := List.sum_singleton
  have hmeta : recorded [writer slot_100] .Meta = 0 := rfl
  unfold everything at hoverall
  rw [hp.overall, hget, hput, hmeta, first_bucket_zero, union_eq_zero.mpr rfl, union_single,
    zero_add, add_zero, percentile_zero] at hoverall
  have hvalue : percentile microseconds .P50 (Histogram.single slot_100 1) = 100 :=
    Histogram.quantile_single _ _ (by decide) (by decide)
  omega

end sai3_bench.multiprocess
