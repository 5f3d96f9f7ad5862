-- The summaries of the workers (workload.rs), and how those of several runtimes
-- become one (multiruntime.rs).
import Mathlib.Data.BitVec
import Sai3Bench.Histograms
import Sai3Bench.SizeBins

namespace sai3_bench.summaries

open histograms live_stats
open workload (NUM_BUCKETS)

abbrev U64 := BitVec 64

/-! ## The histograms -/

inductive Percentile
  | P50
  | P95
  | P99
deriving DecidableEq, Repr

/-- The slots of the histograms. Those of an operation go up to an hour, those that are
combined up to a minute. The rank of a quantile is its part of the number of values. -/
structure Scale where
  wide : Nat
  narrow : Nat
  narrow_le : narrow ≤ wide
  lowest : Nat → Nat
  highest : Nat → Nat
  rank : Percentile → Nat → Nat
  tracks : ∀ i, lowest i ≤ 60_000_000 → i < narrow

/-- The histograms of one kind, by the size of the objects. -/
abbrev OpHists (sc : Scale) := Fin NUM_BUCKETS → Histogram sc.wide

/-- The histograms of a summary. -/
inductive HistField
  | Get
  | Put
  | PutSetup
  | PutIo
  | Meta
deriving DecidableEq, Repr

/-! ## Summaries -/

structure OpAgg where
  bytes : U64 := 0
  ops : U64 := 0
  p50_us : Nat := 0
  p95_us : Nat := 0
  p99_us : Nat := 0

def OpAgg.value (agg : OpAgg) : Percentile → Nat
  | .P50 => agg.p50_us
  | .P95 => agg.p95_us
  | .P99 => agg.p99_us

/-- The operations and bytes of each bucket. -/
abbrev Bins := AList (fun _ : Nat => U64 × U64)

/-- `H` is what stands for the histograms of one kind. -/
structure Summary (H : Type) where
  total_bytes : U64
  total_ops : U64
  p50_us : Nat
  p95_us : Nat
  p99_us : Nat
  get : OpAgg
  put : OpAgg
  «meta» : OpAgg
  get_bins : Bins
  put_bins : Bins
  meta_bins : Bins
  get_hists : H
  put_hists : H
  meta_hists : H
  put_hists_setup : H
  put_hists_io : H
  total_errors : U64

namespace Summary

variable {H H' : Type}

def op (s : Summary H) : OpKind → OpAgg
  | .Get => s.get
  | .Put => s.put
  | .Meta => s.meta

def bins (s : Summary H) : OpKind → Bins
  | .Get => s.get_bins
  | .Put => s.put_bins
  | .Meta => s.meta_bins

def hists (s : Summary H) : HistField → H
  | .Get => s.get_hists
  | .Put => s.put_hists
  | .PutSetup => s.put_hists_setup
  | .PutIo => s.put_hists_io
  | .Meta => s.meta_hists

def value (s : Summary H) : Percentile → Nat
  | .P50 => s.p50_us
  | .P95 => s.p95_us
  | .P99 => s.p99_us

/-- The same summary with other histograms. -/
def with_hists (s : Summary H) (f : HistField → H') : Summary H' :=
  { s with
    get_hists := f .Get
    put_hists := f .Put
    meta_hists := f .Meta
    put_hists_setup := f .PutSetup
    put_hists_io := f .PutIo }

end Summary

/-- The histograms of the operations of a kind. -/
def histsOf : OpKind → HistField
  | .Get => .Get
  | .Put => .Put
  | .Meta => .Meta

section

variable {sc : Scale}

def percentile (sc : Scale) (p : Percentile) {n : Nat} (h : Histogram n) : Nat :=
  h.value_at_quantile sc.highest (sc.rank p)

/-- An aggregate with the percentiles of a histogram. -/
def OpAgg.with_percentiles (agg : OpAgg) (sc : Scale) {n : Nat} (h : Histogram n) : OpAgg :=
  { agg with
    p50_us := percentile sc .P50 h
    p95_us := percentile sc .P95 h
    p99_us := percentile sc .P99 h }

/-! ## The merge of the runtimes -/

/-- A summary refers to its histograms: those of the worker of a number. -/
abbrev Ref := Nat × HistField

abbrev Heap (sc : Scale) := Ref → OpHists sc

/-- Add a histogram at one place to the one at another. -/
def add_bucket (label : String) (target source : Ref) (heap : Heap sc)
    (bucket_idx : Fin NUM_BUCKETS) : Except String (Heap sc) :=
  match (heap target bucket_idx).add (heap source bucket_idx) with
  | some hist => .ok (Function.update heap target (Function.update (heap target) bucket_idx hist))
  | none => .error s!"Failed to merge {label} histogram for bucket {bucket_idx}"

def add_hists (label : String) (target source : Ref) (heap : Heap sc) :
    Except String (Heap sc) :=
  (List.finRange NUM_BUCKETS).foldlM (add_bucket label target source) heap

/-- Add one more summary. The histograms of `merged` change where they are. -/
def merge_next (merged : Summary Ref × Heap sc) (summary : Summary Ref) :
    Except String (Summary Ref × Heap sc) := do
  let (m, heap) := merged
  let heap ← add_hists "GET" m.get_hists summary.get_hists heap
  let heap ← add_hists "PUT" m.put_hists summary.put_hists heap
  let heap ← add_hists "META" m.meta_hists summary.meta_hists heap
  .ok ({ m with
    total_ops := m.total_ops + summary.total_ops
    total_bytes := m.total_bytes + summary.total_bytes
    get := { m.get with
      ops := m.get.ops + summary.get.ops
      bytes := m.get.bytes + summary.get.bytes }
    put := { m.put with
      ops := m.put.ops + summary.put.ops
      bytes := m.put.bytes + summary.put.bytes }
    «meta» := { m.meta with ops := m.meta.ops + summary.meta.ops }
    get_bins := m.get_bins.plus summary.get_bins
    put_bins := m.put_bins.plus summary.put_bins
    meta_bins := m.meta_bins.plus summary.meta_bins }, heap)

/-- `combined.add(hist)` with a context for its error. -/
def add_or {m n : Nat} (msg : String) (combined : Histogram n) (hist : Histogram m) :
    Except String (Histogram n) :=
  match combined.add hist with
  | some combined => .ok combined
  | none => .error msg

/-- Add those that are not empty to a histogram that goes up to a minute. -/
def combine (msg : String) (hists : List (Histogram sc.wide)) :
    Except String (Histogram sc.narrow) :=
  (hists.filter fun h => !h.is_empty).foldlM (add_or msg) 0

def recalculate_op (msg : String) (agg : OpAgg) (hists : OpHists sc) : Except String OpAgg :=
  if 0 < agg.ops then do
    let combined ← combine msg (List.ofFn hists)
    .ok (agg.with_percentiles sc combined)
  else .ok agg

def recalculate_ops (s : Summary (OpHists sc)) : Except String (Summary (OpHists sc)) := do
  let get ← recalculate_op "Failed to merge GET histograms" s.get s.get_hists
  let put ← recalculate_op "Failed to merge PUT histograms" s.put s.put_hists
  let «meta» ← recalculate_op "Failed to merge META histograms" s.meta s.meta_hists
  .ok { s with get := get, put := put, «meta» := «meta» }

def recalculate_percentiles (s : Summary (OpHists sc)) : Except String (Summary (OpHists sc)) := do
  let all_hists := List.ofFn s.get_hists ++ List.ofFn s.put_hists ++ List.ofFn s.meta_hists
  if all_hists.all fun h => h.is_empty then recalculate_ops s
  else
    let combined ← combine "Failed to merge histograms for overall percentiles" all_hists
    recalculate_ops { s with
      p50_us := percentile sc .P50 combined
      p95_us := percentile sc .P95 combined
      p99_us := percentile sc .P99 combined }

/-- What the summaries refer to when each worker has made its own. -/
def heapOf (summaries : List (Summary (OpHists sc))) : Heap sc
  | (i, f) => match summaries[i]? with
    | some s => s.hists f
    | none => 0

def refsOf (summaries : List (Summary (OpHists sc))) : List (Summary Ref) :=
  summaries.mapIdx fun i s => s.with_hists fun f => (i, f)

def merge_summaries (summaries : List (Summary (OpHists sc))) :
    Except String (Summary (OpHists sc)) :=
  match refsOf summaries with
  | [] => .error "No summaries to merge"
  | [s] => .ok (s.with_hists fun f => heapOf summaries (s.hists f))
  | first :: rest => do
    -- the clone of the first one shares its histograms
    let (merged, heap) ← rest.foldlM merge_next (first, heapOf summaries)
    recalculate_percentiles (merged.with_hists fun f => heap (merged.hists f))

/-! ## The merge as a sum -/

/-- One more summary, histograms by value. -/
def Summary.plus (m s : Summary (OpHists sc)) : Summary (OpHists sc) :=
  { m with
    total_ops := m.total_ops + s.total_ops
    total_bytes := m.total_bytes + s.total_bytes
    get := { m.get with ops := m.get.ops + s.get.ops, bytes := m.get.bytes + s.get.bytes }
    put := { m.put with ops := m.put.ops + s.put.ops, bytes := m.put.bytes + s.put.bytes }
    «meta» := { m.meta with ops := m.meta.ops + s.meta.ops }
    get_bins := m.get_bins.plus s.get_bins
    put_bins := m.put_bins.plus s.put_bins
    meta_bins := m.meta_bins.plus s.meta_bins
    get_hists := m.get_hists + s.get_hists
    put_hists := m.put_hists + s.put_hists
    meta_hists := m.meta_hists + s.meta_hists }

/-- The histograms of a worker are all of one range, so they can always be added. -/
theorem add_bucket_ok {label : String} {target source : Ref} :
    add_bucket label target source = fun (heap : Heap sc) b =>
      .ok (Function.update heap target
        (Function.update (heap target) b (heap target b + heap source b))) := by
  funext heap b
  unfold add_bucket
  rw [Histogram.add_self_range]

theorem add_hists_ok {label : String} {target source : Ref} (hne : source ≠ target)
    (heap : Heap sc) : add_hists label target source heap =
      .ok (Function.update heap target (heap target + heap source)) := by
  -- after some of the buckets the sums stand in these, and the source is as it was
  have hfold : ∀ (bs : List (Fin NUM_BUCKETS)) (heap : Heap sc), bs.Nodup →
      bs.foldl (fun (heap : Heap sc) b => Function.update heap target
        (Function.update (heap target) b (heap target b + heap source b))) heap =
      Function.update heap target fun b =>
        if b ∈ bs then heap target b + heap source b else heap target b := by
    intro bs
    induction bs with
    | nil =>
      intro heap _
      simp
    | cons b bs ih =>
      intro heap hnodup
      obtain ⟨hnew, hrest⟩ := List.nodup_cons.mp hnodup
      rw [List.foldl_cons, ih _ hrest, Function.update_idem, Function.update_self,
        Function.update_of_ne hne]
      congr 1
      funext b'
      by_cases hb : b' = b
      · subst hb
        simp [hnew]
      · simp [hb]
  unfold add_hists
  rw [add_bucket_ok]
  refine (List.foldlM_pure ..).trans (congrArg Except.ok ?_)
  rw [hfold _ _ (List.nodup_finRange _)]
  congr 1
  funext b
  exact if_pos (List.mem_finRange b)

/-- One summary more: the shared histograms get what it has, all others stay. -/
theorem merge_next_ok {m s : Summary (OpHists sc)} {heap : Heap sc} {i : Nat} (hi : i ≠ 0)
    (hm : ∀ f, heap (0, f) = m.hists f) (hs : ∀ f, heap (i, f) = s.hists f) :
    ∃ heap', merge_next (m.with_hists fun f => (0, f), heap) (s.with_hists fun f => (i, f)) =
        .ok ((m.plus s).with_hists fun f => (0, f), heap') ∧
      (∀ f, heap' (0, f) = (m.plus s).hists f) ∧ ∀ j f, j ≠ 0 → heap' (j, f) = heap (j, f) := by
  have hne : ∀ f f' : HistField, ((i, f) : Ref) ≠ (0, f') := fun f f' h => hi (congrArg Prod.fst h)
  let adds (heap : Heap sc) (f : HistField) : Heap sc :=
    Function.update heap (0, f) (heap (0, f) + heap (i, f))
  refine ⟨adds (adds (adds heap .Get) .Put) .Meta, ?_, fun f => ?_, fun j f hj => ?_⟩
  · unfold merge_next
    simp only [Summary.with_hists, add_hists_ok (hne _ _), bind, Except.bind]
    rfl
  · cases f <;> simp [adds, hi, hm, hs] <;> rfl
  · simp [adds, hj]

theorem merge_rest_ok (rest : List (Summary (OpHists sc))) :
    ∀ {m : Summary (OpHists sc)} {heap : Heap sc} {k : Nat}, k ≠ 0 →
      (∀ f, heap (0, f) = m.hists f) →
      (∀ i s, rest[i]? = some s → ∀ f, heap (i + k, f) = s.hists f) →
    ∃ heap', (rest.mapIdx fun i s => s.with_hists fun f => ((i + k, f) : Ref)).foldlM merge_next
          (m.with_hists fun f => (0, f), heap) =
        .ok ((rest.foldl Summary.plus m).with_hists fun f => (0, f), heap') ∧
      ∀ f, heap' (0, f) = (rest.foldl Summary.plus m).hists f := by
  induction rest with
  | nil => exact fun _ hm _ => ⟨_, rfl, hm⟩
  | cons s rest ih =>
    intro m heap k hk hm hrest
    have hs : ∀ f, heap (0 + k, f) = s.hists f := hrest 0 s rfl
    obtain ⟨heap₁, hstep, hm₁, hkeep⟩ := merge_next_ok (i := 0 + k) (by omega) hm hs
    have hrest₁ : ∀ i s', rest[i]? = some s' → ∀ f, heap₁ (i + (k + 1), f) = s'.hists f := by
      intro i s' hi f
      rw [hkeep _ _ (by omega), ← hrest (i + 1) s' hi f]
      congr 2
      omega
    obtain ⟨heap₂, hrun, hm₂⟩ := ih (k := k + 1) (by omega) hm₁ hrest₁
    refine ⟨heap₂, ?_, hm₂⟩
    rw [List.mapIdx_cons, List.foldlM_cons, hstep]
    refine Eq.trans ?_ hrun
    show List.foldlM _ _ _ = _
    congr 2
    funext i s
    rw [Nat.add_assoc, Nat.add_comm 1 k]

/-- The merge adds up the summaries, histograms by value. -/
theorem merge_summaries_eq (first second : Summary (OpHists sc))
    (rest : List (Summary (OpHists sc))) : merge_summaries (first :: second :: rest) =
      recalculate_percentiles ((second :: rest).foldl Summary.plus first) := by
  have hstart : ∀ f, heapOf (first :: second :: rest) (0, f) = first.hists f := fun _ => rfl
  obtain ⟨heap, hrun, hheap⟩ := merge_rest_ok (second :: rest) (k := 1) Nat.one_ne_zero hstart
    fun i s hi f => by
      show (match (second :: rest)[i]? with | some s => s.hists f | none => 0) = _
      rw [hi]
  unfold merge_summaries refsOf
  rw [List.mapIdx_cons]
  rw [List.mapIdx_cons] at hrun ⊢
  show (List.foldlM merge_next (first.with_hists fun f => (0, f), _) _ >>= _) = _
  rw [hrun]
  show recalculate_percentiles (Summary.with_hists _ fun f => heap (0, f)) = _
  rw [funext hheap]
  rfl

end

end sai3_bench.summaries
