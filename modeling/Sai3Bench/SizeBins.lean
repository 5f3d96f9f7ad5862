-- What a stage captures of its operations: the size bins (workload.rs), the
-- histograms by size (metrics.rs), and the workers that fill them.
import Mathlib.Algebra.BigOperators.Fin
import Sai3Bench.LiveTrackers
import Sai3Bench.Tables

namespace sai3_bench.workload

open live_stats

def NUM_BUCKETS : Nat := 9

def bucket_index (nbytes : Nat) : Fin NUM_BUCKETS :=
  if nbytes = 0 then ⟨0, by decide⟩
  else if nbytes ≤ 8 * 1024 then ⟨1, by decide⟩
  else if nbytes ≤ 64 * 1024 then ⟨2, by decide⟩
  else if nbytes ≤ 512 * 1024 then ⟨3, by decide⟩
  else if nbytes ≤ 4 * 1024 * 1024 then ⟨4, by decide⟩
  else if nbytes ≤ 32 * 1024 * 1024 then ⟨5, by decide⟩
  else if nbytes ≤ 256 * 1024 * 1024 then ⟨6, by decide⟩
  else if nbytes ≤ 2 * 1024 * 1024 * 1024 then ⟨7, by decide⟩
  else ⟨8, by decide⟩

/-! ## The size bins -/

/-- The operations and bytes of each bucket. -/
structure SizeBins where
  by_bucket : AList (fun _ : Nat => Nat × Nat) := ∅

namespace SizeBins

/-- `entry(bucket).or_insert((0, 0))`, and then more in it. -/
def adds (b : SizeBins) (bucket ops bytes : Nat) : SizeBins :=
  let e := (b.by_bucket.lookup bucket).getD (0, 0)
  ⟨b.by_bucket.insert bucket (e.1 + ops, e.2 + bytes)⟩

def add (b : SizeBins) (size_bytes : Nat) : SizeBins :=
  b.adds (bucket_index size_bytes) 1 size_bytes

def merge_from (b other : SizeBins) : SizeBins :=
  other.by_bucket.entries.foldl (fun b e => b.adds e.1 e.2.1 e.2.2) b

def total_ops (b : SizeBins) : Nat := (b.by_bucket.values.map (·.1)).sum

def total_bytes (b : SizeBins) : Nat := (b.by_bucket.values.map (·.2)).sum

variable {b other : SizeBins} {bucket ops bytes size_bytes : Nat}

theorem adds_total : (b.adds bucket ops bytes).total_ops = b.total_ops + ops ∧
    (b.adds bucket ops bytes).total_bytes = b.total_bytes + bytes :=
  ⟨AList.sum_values_add (fun _ _ => rfl) b.by_bucket bucket (ops, bytes),
    AList.sum_values_add (fun _ _ => rfl) b.by_bucket bucket (ops, bytes)⟩

theorem add_total : (b.add size_bytes).total_ops = b.total_ops + 1 ∧
    (b.add size_bytes).total_bytes = b.total_bytes + size_bytes :=
  adds_total

/-- The tables of the buckets are added. -/
theorem merge_from_by_bucket : (b.merge_from other).by_bucket = b.by_bucket.plus other.by_bucket := by
  unfold merge_from AList.plus
  generalize other.by_bucket.entries = es
  induction es generalizing b with
  | nil => rfl
  | cons e es ih => exact ih

theorem merge_from_total : (b.merge_from other).total_ops = b.total_ops + other.total_ops ∧
    (b.merge_from other).total_bytes = b.total_bytes + other.total_bytes := by
  unfold total_ops total_bytes
  rw [merge_from_by_bucket]
  exact ⟨AList.sum_values_plus (fun _ _ => rfl) _ _, AList.sum_values_plus (fun _ _ => rfl) _ _⟩

@[simp] theorem total_empty : ({} : SizeBins).total_ops = 0 ∧ ({} : SizeBins).total_bytes = 0 :=
  ⟨rfl, rfl⟩

end SizeBins

/-! ## The histograms -/

/-- The number of latencies in the histogram of each bucket. -/
structure OpHists where
  buckets : Fin NUM_BUCKETS → Nat := fun _ => 0

namespace OpHists

/-- A latency out of range is dropped. -/
def record (h : OpHists) (bucket : Fin NUM_BUCKETS) (sample : Sample) : OpHists :=
  if sample.in_range then ⟨fun i => h.buckets i + if i = bucket then 1 else 0⟩ else h

def merge (h other : OpHists) : OpHists := ⟨fun i => h.buckets i + other.buckets i⟩

/-- The latencies of all buckets together. -/
def total (h : OpHists) : Nat := ∑ i, h.buckets i

theorem record_total {h : OpHists} {bucket : Fin NUM_BUCKETS} {sample : Sample} :
    (h.record bucket sample).total = h.total + if sample.in_range = true then 1 else 0 := by
  unfold record total
  split
  · simp [Finset.sum_add_distrib]
  · simp

theorem merge_total {h other : OpHists} : (h.merge other).total = h.total + other.total := by
  simp [merge, total, Finset.sum_add_distrib]

end OpHists

/-! ## The workers -/

/-- What a worker keeps of its operations of one kind. -/
structure OpStats where
  hists : OpHists := {}
  bins : SizeBins := {}

namespace OpStats

def add (st : OpStats) (bytes : Nat) (sample : Sample) : OpStats :=
  ⟨st.hists.record (bucket_index bytes) sample, st.bins.add bytes⟩

def merge (st other : OpStats) : OpStats :=
  ⟨st.hists.merge other.hists, st.bins.merge_from other.bins⟩

end OpStats

structure WorkerStats where
  get : OpStats := {}
  put : OpStats := {}
  «meta» : OpStats := {}

namespace WorkerStats

/-- A request that is only about metadata has no bytes. -/
def record (ws : WorkerStats) : Request → WorkerStats
  | .Get bytes sample => { ws with get := ws.get.add bytes sample }
  | .Put bytes sample => { ws with put := ws.put.add bytes sample }
  | .Meta sample => { ws with «meta» := ws.meta.add 0 sample }

def merge (ws other : WorkerStats) : WorkerStats :=
  ⟨ws.get.merge other.get, ws.put.merge other.put, ws.meta.merge other.meta⟩

def stats (ws : WorkerStats) : OpKind → OpStats
  | .Get => ws.get
  | .Put => ws.put
  | .Meta => ws.meta

end WorkerStats

/-- The workers of a stage that ends well, joined one after the other. -/
def run (workers : List (List Request)) : WorkerStats :=
  workers.foldl (fun merged ops => merged.merge (ops.foldl WorkerStats.record {})) {}

/-! ## What is captured -/

/-- The operations of one kind whose latency is in range. -/
def rangedOf (k : OpKind) (ops : List Request) : Nat :=
  ops.countP fun op => op.kind = k && op.sample.in_range

/-- The captured totals of one kind. -/
structure Counts (st : OpStats) (latencies ops bytes : Nat) : Prop where
  hists : st.hists.total = latencies
  ops : st.bins.total_ops = ops
  bytes : st.bins.total_bytes = bytes

variable {st other : OpStats} {n n' o o' b b' : Nat} {k : OpKind} {ws : WorkerStats} {op : Request}

theorem Counts.none : Counts {} 0 0 0 := ⟨by simp [OpHists.total], rfl, rfl⟩

theorem Counts.add (h : Counts st n o b) (bytes : Nat) (sample : Sample) :
    Counts (st.add bytes sample) (n + if sample.in_range = true then 1 else 0) (o + 1)
      (b + bytes) := by
  obtain ⟨hn, ho, hb⟩ := h
  refine ⟨?_, ?_, ?_⟩
  · rw [← hn]
    exact OpHists.record_total
  · rw [← ho]
    exact SizeBins.add_total.1
  · rw [← hb]
    exact SizeBins.add_total.2

theorem Counts.merge (h : Counts st n o b) (h' : Counts other n' o' b') :
    Counts (st.merge other) (n + n') (o + o') (b + b') := by
  obtain ⟨hn, ho, hb⟩ := h
  obtain ⟨hn', ho', hb'⟩ := h'
  refine ⟨?_, ?_, ?_⟩
  · rw [← hn, ← hn']
    exact OpHists.merge_total
  · rw [← ho, ← ho']
    exact SizeBins.merge_from_total.1
  · rw [← hb, ← hb']
    exact SizeBins.merge_from_total.2

theorem rangedOf_cons {ops : List Request} : rangedOf k (op :: ops) =
    rangedOf k ops + if op.kind = k ∧ op.sample.in_range = true then 1 else 0 := by
  simp [rangedOf, List.countP_cons]

theorem rangedOf_append {ops more : List Request} :
    rangedOf k (ops ++ more) = rangedOf k ops + rangedOf k more := by
  simp [rangedOf]

theorem Counts.record (h : Counts (ws.stats k) n o b) (op : Request) :
    Counts ((ws.record op).stats k)
      (n + if op.kind = k ∧ op.sample.in_range = true then 1 else 0)
      (o + if op.kind = k then 1 else 0) (b + if op.kind = k then op.bytes else 0) := by
  by_cases hk : op.kind = k
  · subst hk
    have hadd := h.add op.bytes op.sample
    simp only [true_and, ↓reduceIte]
    cases op <;> exact hadd
  · have hsame : (ws.record op).stats k = ws.stats k := by
      cases op <;> cases k <;> first | rfl | exact absurd rfl hk
    simpa [hsame, hk] using h

/-- A worker captures each of its operations once, in its own kind. -/
theorem record_counts (ws : WorkerStats) (ops : List Request) (h : Counts (ws.stats k) n o b) :
    Counts ((ops.foldl WorkerStats.record ws).stats k) (n + rangedOf k ops) (o + opsOf k ops)
      (b + bytesOf k ops) := by
  induction ops generalizing ws n o b with
  | nil => exact h
  | cons op ops ih =>
    have hops := ih _ (h.record op)
    rw [List.foldl_cons, rangedOf_cons, opsOf_cons, bytesOf_cons]
    obtain ⟨h₁, h₂, h₃⟩ := hops
    exact ⟨by omega, by omega, by omega⟩

theorem WorkerStats.merge_stats {ws' : WorkerStats} :
    (ws.merge ws').stats k = (ws.stats k).merge (ws'.stats k) := by
  cases k <;> rfl

/-- The workers together capture the operations of all of them. -/
theorem run_counts (workers : List (List Request)) (k : OpKind) :
    Counts ((run workers).stats k) (rangedOf k workers.flatten) (opsOf k workers.flatten)
      (bytesOf k workers.flatten) := by
  have hnone : ∀ k, Counts (({} : WorkerStats).stats k) 0 0 0 := by
    intro k
    cases k <;> exact .none
  have hfold : ∀ (workers : List (List Request)) (ws : WorkerStats) (n o b : Nat),
      Counts (ws.stats k) n o b → Counts ((workers.foldl (fun merged ops =>
        merged.merge (ops.foldl WorkerStats.record {})) ws).stats k)
        (n + rangedOf k workers.flatten) (o + opsOf k workers.flatten)
        (b + bytesOf k workers.flatten) := by
    intro workers
    induction workers with
    | nil => exact fun ws n o b h => h
    | cons ops workers ih =>
      intro ws n o b h
      rw [List.flatten_cons, rangedOf_append, opsOf_append, bytesOf_append, ← Nat.add_assoc,
        ← Nat.add_assoc, ← Nat.add_assoc]
      apply ih
      rw [WorkerStats.merge_stats]
      have hops := record_counts _ ops (hnone k)
      rw [Nat.zero_add, Nat.zero_add, Nat.zero_add] at hops
      exact h.merge hops
  have hall := hfold workers {} 0 0 0 (hnone k)
  rw [Nat.zero_add, Nat.zero_add, Nat.zero_add] at hall
  exact hall

end sai3_bench.workload
