-- The summary of a run (workload.rs, metrics.rs): what its workers keep of their
-- operations, how they are joined, and what is made of it.
import Sai3Bench.LosslessMerges

namespace sai3_bench.summaries

open histograms live_stats
open workload (NUM_BUCKETS bucket_index)

variable {sc : Scale}

theorem NUM_BUCKETS_pos : 0 < NUM_BUCKETS := by decide

/-! ## Latencies -/

/-- The slot in which a latency is counted. There is one for each of an hour or less. -/
structure Recorder (sc : Scale) where
  slot : Nat → Nat
  slot_lt : ∀ value ≤ 3_600_000_000, slot value < sc.wide

/-- `hist.record(value)`, whose error is dropped. -/
def Recorder.record (r : Recorder sc) (hist : Histogram sc.wide) (value : Nat) :
    Histogram sc.wide :=
  if h : r.slot value < sc.wide then hist + Histogram.single ⟨r.slot value, h⟩ 1 else hist

namespace OpHists

def record (r : Recorder sc) (hists : OpHists sc) (bucket : Fin NUM_BUCKETS) (micros : Nat) :
    OpHists sc :=
  Function.update hists bucket (r.record (hists bucket) micros)

def record_nanos (r : Recorder sc) (hists : OpHists sc) (bucket : Fin NUM_BUCKETS) (nanos : Nat) :
    OpHists sc :=
  record r hists bucket (max nanos 1)

/-- `add(..).ok()`: what cannot be added is left out. -/
def merge (hists other : OpHists sc) : OpHists sc :=
  fun i => ((hists i).add (other i)).getD (hists i)

def combined_histogram (hists : OpHists sc) : Histogram sc.wide :=
  (List.ofFn hists).foldl (fun combined hist => (combined.add hist).getD combined) 0

end OpHists

/-! ## The workers -/

/-- An operation that succeeded. Durations are in microseconds, that of the setup
of a PUT is in nanoseconds. -/
inductive Success
  | Get (bytes : U64) (duration : Nat)
  | Put (sz buf_len : U64) (setup_dur io_dur total_dur : Nat)
  | List (duration : Nat)
  | Stat (duration : Nat)
  | Delete (duration : Nat)
  | Mkdir (duration : Nat)
  | Rmdir (duration : Nat)

namespace Success

def kind : Success → OpKind
  | Get _ _ => .Get
  | Put _ _ _ _ _ => .Put
  | _ => .Meta

def bytes : Success → U64
  | Get bytes _ => bytes
  | Put sz _ _ _ _ => sz
  | _ => 0

def latency : Success → Nat
  | Get _ duration | List duration | Stat duration | Delete duration | Mkdir duration
  | Rmdir duration => duration
  | Put _ _ _ _ total_dur => total_dur

/-- The histogram of the latency. -/
def bucket : Success → Fin NUM_BUCKETS
  | Get bytes _ => bucket_index bytes.toNat
  | Put _ buf_len _ _ _ => bucket_index buf_len.toNat
  | _ => ⟨0, NUM_BUCKETS_pos⟩

end Success

def Bins.add (bins : Bins) (size_bytes : U64) : Bins :=
  let b := (bucket_index size_bytes.toNat).val
  bins.insert b ((bins.lookup b).getD 0 + (1, size_bytes))

structure WorkerStats (sc : Scale) where
  hist_get : OpHists sc := 0
  hist_put : OpHists sc := 0
  hist_meta : OpHists sc := 0
  hist_put_setup : OpHists sc := 0
  hist_put_io : OpHists sc := 0
  get_bytes : U64 := 0
  get_ops : U64 := 0
  put_bytes : U64 := 0
  put_ops : U64 := 0
  meta_bytes : U64 := 0
  meta_ops : U64 := 0
  get_bins : Bins := ∅
  put_bins : Bins := ∅
  meta_bins : Bins := ∅

namespace WorkerStats

/-- The five operations on metadata do the same. -/
def record_meta (r : Recorder sc) (ws : WorkerStats sc) (duration : Nat) : WorkerStats sc :=
  { ws with
    hist_meta := ws.hist_meta.record r ⟨0, NUM_BUCKETS_pos⟩ duration
    meta_ops := ws.meta_ops + 1
    meta_bins := ws.meta_bins.add 0 }

def record (r : Recorder sc) (ws : WorkerStats sc) : Success → WorkerStats sc
  | .Get bytes duration =>
    { ws with
      hist_get := ws.hist_get.record r (bucket_index bytes.toNat) duration
      get_ops := ws.get_ops + 1
      get_bytes := ws.get_bytes + bytes
      get_bins := ws.get_bins.add bytes }
  | .Put sz buf_len setup_dur io_dur total_dur =>
    let bucket := bucket_index buf_len.toNat
    { ws with
      hist_put := ws.hist_put.record r bucket total_dur
      hist_put_setup := ws.hist_put_setup.record_nanos r bucket setup_dur
      hist_put_io := ws.hist_put_io.record r bucket io_dur
      put_ops := ws.put_ops + 1
      put_bytes := ws.put_bytes + sz
      put_bins := ws.put_bins.add sz }
  | .List duration => ws.record_meta r duration
  | .Stat duration => ws.record_meta r duration
  | .Delete duration => ws.record_meta r duration
  | .Mkdir duration => ws.record_meta r duration
  | .Rmdir duration => ws.record_meta r duration

def merge (merged ws : WorkerStats sc) : WorkerStats sc where
  hist_get := merged.hist_get.merge ws.hist_get
  hist_put := merged.hist_put.merge ws.hist_put
  hist_put_setup := merged.hist_put_setup.merge ws.hist_put_setup
  hist_put_io := merged.hist_put_io.merge ws.hist_put_io
  hist_meta := merged.hist_meta.merge ws.hist_meta
  get_bytes := merged.get_bytes + ws.get_bytes
  get_ops := merged.get_ops + ws.get_ops
  put_bytes := merged.put_bytes + ws.put_bytes
  put_ops := merged.put_ops + ws.put_ops
  meta_bytes := merged.meta_bytes + ws.meta_bytes
  meta_ops := merged.meta_ops + ws.meta_ops
  get_bins := merged.get_bins.plus ws.get_bins
  put_bins := merged.put_bins.plus ws.put_bins
  meta_bins := merged.meta_bins.plus ws.meta_bins

end WorkerStats

/-- What the handling of errors makes of one operation: it succeeds, is skipped, or
ends the worker. -/
abbrev Turn := Except String (Option Success)

def turn (r : Recorder sc) (ws : WorkerStats sc) : Turn → Except String (WorkerStats sc)
  | .ok (some done) => .ok (ws.record r done)
  | .ok none => .ok ws
  | .error e => .error e

def worker (r : Recorder sc) (turns : List Turn) : Except String (WorkerStats sc) :=
  turns.foldlM (turn r) {}

/-! ## The run -/

def DEFAULT_WORKER_DRAIN_TIMEOUT_SECS : Nat := 150

/-- What the join of a worker gives: its loop is over, it panicked, or the time to
drain is. -/
inductive Joined
  | Over (turns : List Turn)
  | Panicked (e : String)
  | Elapsed (elapsed_since_start : String)

def drained_out (stuck total_handles : Nat) (elapsed_since_start : String) : String :=
  "Worker drain timeout: " ++ toString stuck ++ " of " ++ toString total_handles ++
    " worker(s) did not finish within " ++ toString DEFAULT_WORKER_DRAIN_TIMEOUT_SECS ++
    "s (total elapsed: " ++ elapsed_since_start ++ "s)"

/-- Join the workers in order, until one has not ended well. -/
def join (r : Recorder sc) (total_handles : Nat) :
    List Joined → Nat → WorkerStats sc → Except String (WorkerStats sc)
  | [], _, merged => .ok merged
  | h :: handles, drained, merged =>
    match h with
    | .Over turns =>
      match worker r turns with
      | .ok ws => join r total_handles handles (drained + 1) (merged.merge ws)
      | .error e => .error e
    | .Panicked e => .error ("Worker task panicked: " ++ e)
    | .Elapsed elapsed_since_start =>
      .error (drained_out (total_handles - drained) total_handles elapsed_since_start)

/-- The latencies of all operations, as far as they go up to a minute. -/
def overall (merged : WorkerStats sc) : Histogram sc.narrow :=
  let get_combined := merged.hist_get.combined_histogram
  let put_combined := merged.hist_put.combined_histogram
  let meta_combined := merged.hist_meta.combined_histogram
  let combined : Histogram sc.narrow := 0
  let combined := (combined.add get_combined).getD combined
  let combined := (combined.add put_combined).getD combined
  (combined.add meta_combined).getD combined

/-- The percentiles of a kind, with what is counted of it. -/
def op_agg (hists : OpHists sc) (bytes ops : U64) : OpAgg :=
  ({ bytes := bytes, ops := ops } : OpAgg).with_percentiles sc hists.combined_histogram

def summary_of (merged : WorkerStats sc) (final_total_errors : U64) : Summary (OpHists sc) where
  total_bytes := merged.get_bytes + merged.put_bytes + merged.meta_bytes
  total_ops := merged.get_ops + merged.put_ops + merged.meta_ops
  p50_us := percentile sc .P50 (overall merged)
  p95_us := percentile sc .P95 (overall merged)
  p99_us := percentile sc .P99 (overall merged)
  get := op_agg merged.hist_get merged.get_bytes merged.get_ops
  put := op_agg merged.hist_put merged.put_bytes merged.put_ops
  «meta» := op_agg merged.hist_meta merged.meta_bytes merged.meta_ops
  get_bins := merged.get_bins
  put_bins := merged.put_bins
  meta_bins := merged.meta_bins
  get_hists := merged.hist_get
  put_hists := merged.hist_put
  put_hists_setup := merged.hist_put_setup
  put_hists_io := merged.hist_put_io
  meta_hists := merged.hist_meta
  total_errors := final_total_errors

/-- `run`, from the workers that it has spawned. The task that shows the progress is
joined too. -/
def run (r : Recorder sc) (handles : List Joined) (progress_handle : Except String Unit)
    (final_total_errors : U64) : Except String (Summary (OpHists sc)) := do
  let merged ← join r handles.length handles 0 {}
  progress_handle
  .ok (summary_of merged final_total_errors)

/-! ## What the workers finish -/

/-- The operations that succeeded. -/
def successes (turns : List Turn) : List Success :=
  turns.filterMap fun
    | .ok done => done
    | .error _ => none

def Joined.done : Joined → List Success
  | .Over turns => successes turns
  | _ => []

/-- The loop of a worker is over, and no operation ended it. -/
def Joined.EndsWell : Joined → Prop
  | .Over turns => ∀ t ∈ turns, ∃ done, t = .ok done
  | _ => False

variable {r : Recorder sc}

theorem worker_ok {turns : List Turn} {ws ws' : WorkerStats sc}
    (h : turns.foldlM (turn r) ws = .ok ws') :
    (∀ t ∈ turns, ∃ done, t = .ok done) ∧ ws' = (successes turns).foldl (WorkerStats.record r) ws := by
  induction turns generalizing ws with
  | nil =>
    cases h
    exact ⟨fun t ht => absurd ht List.not_mem_nil, rfl⟩
  | cons t turns ih =>
    rw [List.foldlM_cons] at h
    match t with
    | .error e => cases h
    | .ok none =>
      obtain ⟨hall, hws⟩ := ih h
      exact ⟨List.forall_mem_cons.mpr ⟨⟨none, rfl⟩, hall⟩, hws⟩
    | .ok (some done) =>
      obtain ⟨hall, hws⟩ := ih h
      exact ⟨List.forall_mem_cons.mpr ⟨⟨some done, rfl⟩, hall⟩, hws⟩

/-- What a worker that finishes these operations hands over. -/
def kept (r : Recorder sc) (done : List Success) : WorkerStats sc :=
  done.foldl (WorkerStats.record r) {}

theorem join_ok {handles : List Joined} {total_handles drained : Nat} {merged all : WorkerStats sc}
    (h : join r total_handles handles drained merged = .ok all) :
    (∀ h ∈ handles, h.EndsWell) ∧
      all = (handles.map fun h => kept r h.done).foldl WorkerStats.merge merged := by
  induction handles generalizing drained merged with
  | nil =>
    cases h
    exact ⟨fun h hh => absurd hh List.not_mem_nil, rfl⟩
  | cons handle handles ih =>
    match handle with
    | .Panicked e => cases h
    | .Elapsed elapsed => cases h
    | .Over turns =>
      unfold join at h
      cases hw : worker r turns with
      | error e =>
        simp only [hw] at h
        cases h
      | ok ws =>
        simp only [hw] at h
        obtain ⟨hturns, hws⟩ := worker_ok hw
        obtain ⟨hall, hmerged⟩ := ih h
        refine ⟨List.forall_mem_cons.mpr ⟨hturns, hall⟩, ?_⟩
        rw [hmerged, hws]
        rfl

/-- What all workers hand over. -/
def merged_of (r : Recorder sc) (workers : List (List Success)) : WorkerStats sc :=
  (workers.map (kept r)).foldl WorkerStats.merge {}

theorem run_ok {handles : List Joined} {progress_handle : Except String Unit}
    {final_total_errors : U64} {s : Summary (OpHists sc)}
    (h : run r handles progress_handle final_total_errors = .ok s) :
    (∀ h ∈ handles, h.EndsWell) ∧
      s = summary_of (merged_of r (handles.map Joined.done)) final_total_errors := by
  unfold run at h
  cases hj : join r handles.length handles 0 {} with
  | error e =>
    rw [hj] at h
    cases h
  | ok merged =>
    rw [hj] at h
    obtain ⟨hall, hmerged⟩ := join_ok hj
    cases hp : progress_handle with
    | error e =>
      rw [hp] at h
      cases h
    | ok u =>
      rw [hp] at h
      cases h
      refine ⟨hall, ?_⟩
      rw [hmerged]
      unfold merged_of
      rw [List.map_map]
      rfl

/-! ## The sums -/

inductive Counter
  | Ops
  | Bytes
deriving DecidableEq, Repr

/-- What an operation adds to the counters of a kind. -/
def Success.share (done : Success) (k : OpKind) : Counter → U64
  | .Ops => if done.kind = k then 1 else 0
  | .Bytes => if done.kind = k then done.bytes else 0

/-- The sum over the size buckets. -/
def Bins.total (bins : Bins) : Counter → U64
  | .Ops => (bins.values.map (·.1)).sum
  | .Bytes => (bins.values.map (·.2)).sum

namespace WorkerStats

def total (ws : WorkerStats sc) : OpKind → Counter → U64
  | .Get, .Ops => ws.get_ops
  | .Get, .Bytes => ws.get_bytes
  | .Put, .Ops => ws.put_ops
  | .Put, .Bytes => ws.put_bytes
  | .Meta, .Ops => ws.meta_ops
  | .Meta, .Bytes => ws.meta_bytes

def bins (ws : WorkerStats sc) : OpKind → Bins
  | .Get => ws.get_bins
  | .Put => ws.put_bins
  | .Meta => ws.meta_bins

end WorkerStats

def Summary.counted {H : Type} (s : Summary H) (k : OpKind) : Counter → U64
  | .Ops => (s.op k).ops
  | .Bytes => (s.op k).bytes

/-! ### One operation, one worker, all workers -/

theorem total_add {bins : Bins} {size_bytes : U64} {c : Counter} :
    (bins.add size_bytes).total c = bins.total c + match c with
      | .Ops => 1
      | .Bytes => size_bytes := by
  cases c with
  | Ops => exact AList.sum_values_add (fun _ _ => rfl) bins _ (1, size_bytes)
  | Bytes => exact AList.sum_values_add (fun _ _ => rfl) bins _ (1, size_bytes)

theorem total_plus {bins other : Bins} {c : Counter} :
    Bins.total (bins.plus other) c = bins.total c + other.total c := by
  cases c with
  | Ops => exact AList.sum_values_plus (fun _ _ => rfl) bins other
  | Bytes => exact AList.sum_values_plus (fun _ _ => rfl) bins other

namespace WorkerStats

variable {ws other : WorkerStats sc} {done : Success} {k : OpKind} {c : Counter}

theorem total_record : (ws.record r done).total k c = ws.total k c + done.share k c := by
  cases done <;> cases k <;> cases c <;>
    simp [record, record_meta, total, Success.share, Success.kind, Success.bytes]

theorem bins_record : (ws.record r done).bins k =
    if done.kind = k then (ws.bins k).add done.bytes else ws.bins k := by
  cases done <;> cases k <;> rfl

theorem binned_record : ((ws.record r done).bins k).total c = (ws.bins k).total c + done.share k c := by
  rw [bins_record]
  unfold Success.share
  by_cases hk : done.kind = k
  · rw [if_pos hk, total_add]
    cases c <;> simp [hk]
  · rw [if_neg hk]
    cases c <;> simp [hk]

theorem total_merge : (ws.merge other).total k c = ws.total k c + other.total k c := by
  cases k <;> cases c <;> rfl

theorem binned_merge : ((ws.merge other).bins k).total c = (ws.bins k).total c + (other.bins k).total c := by
  cases k <;> exact total_plus

end WorkerStats

/-- What each operation adds, and each merge, is what there is at last. -/
theorem merged_of_sum {M : Type*} [AddCommMonoid M] {φ : WorkerStats sc → M}
    {share : Success → M} (hnone : φ {} = 0)
    (hrecord : ∀ ws done, φ (ws.record r done) = φ ws + share done)
    (hmerge : ∀ ws other, φ (ws.merge other) = φ ws + φ other) (workers : List (List Success)) :
    φ (merged_of r workers) = (workers.flatten.map share).sum := by
  have hkept : ∀ (done : List Success) (ws : WorkerStats sc),
      φ (done.foldl (WorkerStats.record r) ws) = φ ws + (done.map share).sum := by
    intro done
    induction done with
    | nil =>
      intro ws
      exact (add_zero _).symm
    | cons d done ih =>
      intro ws
      rw [List.foldl_cons, ih, hrecord, List.map_cons, List.sum_cons, add_assoc]
  unfold merged_of
  rw [foldl_additive hmerge, hnone, zero_add, List.map_map]
  induction workers with
  | nil => rfl
  | cons done workers ih =>
    rw [List.map_cons, List.sum_cons, ih, List.flatten_cons, List.map_append, List.sum_append]
    congr 1
    show φ (kept r done) = _
    unfold kept
    rw [hkept, hnone, zero_add]

theorem toNat_sum (l : List U64) : l.sum.toNat = (l.map BitVec.toNat).sum % 2 ^ 64 := by
  induction l with
  | nil => rfl
  | cons a l ih => rw [List.sum_cons, BitVec.toNat_add, ih, List.map_cons, List.sum_cons, Nat.add_mod_mod]

/-- A summary counts each operation that succeeded once, in its kind and in one size
bucket. The sums are those of `u64`. -/
structure Conserved {H : Type} (s : Summary H) (done : List Success) : Prop where
  ops : ∀ k, (s.op k).ops.toNat = done.countP (·.kind = k) % 2 ^ 64
  bytes : ∀ k, (s.op k).bytes.toNat =
    ((done.filter (·.kind = k)).map fun d => d.bytes.toNat).sum % 2 ^ 64
  bin_ops : ∀ k, ((s.bins k).values.map (·.1)).sum = (s.op k).ops
  bin_bytes : ∀ k, ((s.bins k).values.map (·.2)).sum = (s.op k).bytes
  total_ops : s.total_ops = s.get.ops + s.put.ops + s.meta.ops
  total_bytes : s.total_bytes = s.get.bytes + s.put.bytes + s.meta.bytes

theorem share_ops (done : List Success) (k : OpKind) :
    ((done.map (·.share k .Ops)).map BitVec.toNat).sum = done.countP (·.kind = k) := by
  induction done with
  | nil => rfl
  | cons d done ih =>
    rw [List.map_cons, List.map_cons, List.sum_cons, ih, List.countP_cons]
    unfold Success.share
    by_cases hk : d.kind = k
    · simp [hk, Nat.add_comm]
    · simp [hk]

theorem share_bytes (done : List Success) (k : OpKind) :
    ((done.map (·.share k .Bytes)).map BitVec.toNat).sum =
      ((done.filter (·.kind = k)).map fun d => d.bytes.toNat).sum := by
  induction done with
  | nil => rfl
  | cons d done ih =>
    rw [List.map_cons, List.map_cons, List.sum_cons, ih, List.filter_cons]
    unfold Success.share
    by_cases hk : d.kind = k
    · simp [hk]
    · simp [hk]

section

variable {workers : List (List Success)} {k : OpKind} {c : Counter}

theorem merged_total :
    (merged_of r workers).total k c = (workers.flatten.map (·.share k c)).sum :=
  merged_of_sum (φ := fun ws => ws.total k c) (by cases k <;> cases c <;> rfl)
    (fun _ _ => WorkerStats.total_record) (fun _ _ => WorkerStats.total_merge) workers

theorem merged_binned :
    ((merged_of r workers).bins k).total c = (workers.flatten.map (·.share k c)).sum :=
  merged_of_sum (φ := fun ws => (ws.bins k).total c) (by cases k <;> cases c <;> rfl)
    (fun _ _ => WorkerStats.binned_record) (fun _ _ => WorkerStats.binned_merge) workers

theorem counted_summary_of {ws : WorkerStats sc} {errors : U64} :
    (summary_of ws errors).counted k c = ws.total k c := by
  cases k <;> cases c <;> rfl

theorem bins_summary_of {ws : WorkerStats sc} {errors : U64} :
    (summary_of ws errors).bins k = ws.bins k := by
  cases k <;> rfl

theorem counted_merged (errors : U64) : ((summary_of (merged_of r workers) errors).counted k c).toNat =
    ((workers.flatten.map (·.share k c)).map BitVec.toNat).sum % 2 ^ 64 := by
  rw [counted_summary_of, merged_total, toNat_sum]

theorem binned_merged (errors : U64) : ((summary_of (merged_of r workers) errors).bins k).total c =
    (summary_of (merged_of r workers) errors).counted k c := by
  rw [bins_summary_of, merged_binned, counted_summary_of, merged_total]

end

/-- Whenever a run returns a summary, each of its workers has ended well, and the
summary counts what they have finished. -/
theorem run_conserves (r : Recorder sc) (handles : List Joined)
    (progress_handle : Except String Unit) (final_total_errors : U64)
    (s : Summary (OpHists sc)) (h : run r handles progress_handle final_total_errors = .ok s) :
    (∀ h ∈ handles, h.EndsWell) ∧ Conserved s (handles.flatMap Joined.done) := by
  obtain ⟨hall, hs⟩ := run_ok h
  refine ⟨hall, ?_⟩
  rw [List.flatMap_def, hs]
  constructor
  · intro k
    rw [← share_ops]
    exact counted_merged (c := .Ops) final_total_errors
  · intro k
    rw [← share_bytes]
    exact counted_merged (c := .Bytes) final_total_errors
  · intro k
    exact binned_merged (c := .Ops) final_total_errors
  · intro k
    exact binned_merged (c := .Bytes) final_total_errors
  · rfl
  · rfl

/-! ## Two workers -/

/-- From 2048 on, the slots of the histograms of the program hold two, four and more values. -/
def microsecond_slot (value : Nat) : Nat :=
  let shift := Nat.log2 value - 10
  shift * 1024 + value / 2 ^ shift

def recorder : Recorder microseconds where
  slot := microsecond_slot
  slot_lt value hvalue := by
    have hlog : Nat.log2 value < 32 := by
      by_cases hzero : value = 0
      · subst hzero
        decide
      · exact (Nat.log2_lt hzero).mpr (by omega)
    have hshift : Nat.log2 value - 10 ≤ 21 := by omega
    have hlt : value / 2 ^ (Nat.log2 value - 10) < 2 ^ 11 := by
      rw [Nat.div_lt_iff_lt_mul (Nat.two_pow_pos _), ← Nat.pow_add]
      calc value < 2 ^ (Nat.log2 value + 1) := Nat.lt_log2_self
        _ ≤ 2 ^ (11 + (Nat.log2 value - 10)) := Nat.pow_le_pow_right (by decide) (by omega)
    show microsecond_slot value < 23 * 1024
    unfold microsecond_slot
    dsimp only
    omega

/-- A GET, an operation that was skipped, and a LIST. -/
theorem run_conserves_two_workers : ∃ s : Summary (OpHists microseconds),
    run recorder [.Over [.ok (some (.Get 4096 120)), .ok none], .Over [.ok (some (.List 80))]]
      (.ok ()) 1 = .ok s ∧
    (∀ h ∈ [Joined.Over [.ok (some (.Get 4096 120)), .ok none], .Over [.ok (some (.List 80))]],
      h.EndsWell) ∧ Conserved s [.Get 4096 120, .List 80] :=
  ⟨_, rfl, run_conserves recorder _ (.ok ()) 1 _ rfl⟩

end sai3_bench.summaries
