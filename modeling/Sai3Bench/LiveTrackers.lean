-- The live stats tracker of one workload (live_stats.rs): what it counts of
-- the operations that it is told of, and what is left after a reset.
import Mathlib.Algebra.GroupWithZero.Nat
import Mathlib.Algebra.BigOperators.Group.List.Basic
import Sai3Bench.StageWorkflows

namespace sai3_bench.live_stats

open agent pb

inductive OpKind
  | Get
  | Put
  | Meta
deriving DecidableEq, Repr

/-- How the latency of an operation can be taken: whether it is in the range
of a histogram, and whether the lock of the tracker's histogram is free. -/
structure Sample where
  in_range : Bool := true
  uncontended : Bool := true
deriving DecidableEq, Repr

/-- One operation that succeeded. -/
inductive Request
  | Get (bytes : Nat) (sample : Sample)
  | Put (bytes : Nat) (sample : Sample)
  | Meta (sample : Sample)
deriving DecidableEq, Repr

namespace Request

def kind : Request → OpKind
  | Get _ _ => .Get
  | Put _ _ => .Put
  | Meta _ => .Meta

def bytes : Request → Nat
  | Get n _ | Put n _ => n
  | Meta _ => 0

def sample : Request → Sample
  | Get _ s | Put _ s | Meta s => s

end Request

/-- The operations of one kind. -/
def opsOf (k : OpKind) (ops : List Request) : Nat := ops.countP (·.kind = k)

def bytesOf (k : OpKind) (ops : List Request) : Nat :=
  ((ops.filter (·.kind = k)).map Request.bytes).sum

/-- The operations of one kind whose latency the tracker takes. -/
def samplesOf (k : OpKind) (ops : List Request) : Nat :=
  ops.countP fun op => op.kind = k && op.sample.in_range && op.sample.uncontended

/-- The counters, and the number of latencies in each histogram. -/
structure LiveStatsTracker where
  get_ops : Nat := 0
  get_bytes : Nat := 0
  put_ops : Nat := 0
  put_bytes : Nat := 0
  meta_ops : Nat := 0
  get_hist : Nat := 0
  put_hist : Nat := 0
  meta_hist : Nat := 0
deriving DecidableEq, Repr

namespace LiveStatsTracker

/-- `try_lock`, and then `hist.record`, whose error is dropped. -/
def histRecord (hist : Nat) (sample : Sample) : Nat :=
  if sample.uncontended && sample.in_range then hist + 1 else hist

def record_get (t : LiveStatsTracker) (bytes : Nat) (sample : Sample) : LiveStatsTracker :=
  { t with
    get_ops := t.get_ops + 1
    get_bytes := t.get_bytes + bytes
    get_hist := histRecord t.get_hist sample }

def record_put (t : LiveStatsTracker) (bytes : Nat) (sample : Sample) : LiveStatsTracker :=
  { t with
    put_ops := t.put_ops + 1
    put_bytes := t.put_bytes + bytes
    put_hist := histRecord t.put_hist sample }

def record_meta (t : LiveStatsTracker) (sample : Sample) : LiveStatsTracker :=
  { t with
    meta_ops := t.meta_ops + 1
    meta_hist := histRecord t.meta_hist sample }

def record (t : LiveStatsTracker) : Request → LiveStatsTracker
  | .Get bytes sample => t.record_get bytes sample
  | .Put bytes sample => t.record_put bytes sample
  | .Meta sample => t.record_meta sample

/-- The counters and the histograms start anew. -/
def reset_for_stage (t : LiveStatsTracker) : LiveStatsTracker :=
  { t with
    get_ops := 0
    get_bytes := 0
    put_ops := 0
    put_bytes := 0
    meta_ops := 0
    get_hist := 0
    put_hist := 0
    meta_hist := 0 }

/-- A new tracker after some operations. -/
def after (ops : List Request) : LiveStatsTracker := ops.foldl record {}

/-! ## The counters by kind -/

def ops (t : LiveStatsTracker) : OpKind → Nat
  | .Get => t.get_ops
  | .Put => t.put_ops
  | .Meta => t.meta_ops

def bytes (t : LiveStatsTracker) : OpKind → Nat
  | .Get => t.get_bytes
  | .Put => t.put_bytes
  | .Meta => 0

def samples (t : LiveStatsTracker) : OpKind → Nat
  | .Get => t.get_hist
  | .Put => t.put_hist
  | .Meta => t.meta_hist

end LiveStatsTracker

/-! ## What is counted -/

variable {k : OpKind} {op : Request} {ops more : List Request} {t : LiveStatsTracker}

@[simp] theorem opsOf_nil : opsOf k [] = 0 := rfl

@[simp] theorem bytesOf_nil : bytesOf k [] = 0 := rfl

theorem opsOf_cons : opsOf k (op :: ops) = opsOf k ops + if op.kind = k then 1 else 0 := by
  simp [opsOf, List.countP_cons]

theorem bytesOf_cons :
    bytesOf k (op :: ops) = (if op.kind = k then op.bytes else 0) + bytesOf k ops := by
  unfold bytesOf
  by_cases h : op.kind = k <;> simp [h]

theorem samplesOf_cons : samplesOf k (op :: ops) = samplesOf k ops +
    if op.kind = k ∧ op.sample.in_range = true ∧ op.sample.uncontended = true then 1 else 0 := by
  simp [samplesOf, List.countP_cons, and_assoc]

theorem opsOf_append : opsOf k (ops ++ more) = opsOf k ops + opsOf k more := by
  simp [opsOf]

theorem bytesOf_append : bytesOf k (ops ++ more) = bytesOf k ops + bytesOf k more := by
  simp [bytesOf]

/-- Operations that count for nothing are none. -/
theorem eq_nil_of_opsOf (h : ∀ k, opsOf k ops = 0) : ops = [] := by
  cases ops with
  | nil => rfl
  | cons op ops =>
    have hop := h op.kind
    rw [opsOf_cons, if_pos rfl] at hop
    omega

namespace LiveStatsTracker

theorem record_ops : (t.record op).ops k = t.ops k + if op.kind = k then 1 else 0 := by
  cases op <;> cases k <;> simp [record, record_get, record_put, record_meta,
    LiveStatsTracker.ops, Request.kind]

theorem record_bytes : (t.record op).bytes k = t.bytes k + if op.kind = k then op.bytes else 0 := by
  cases op <;> cases k <;> simp [record, record_get, record_put, record_meta,
    LiveStatsTracker.bytes, Request.kind, Request.bytes]

theorem record_samples : (t.record op).samples k = t.samples k +
    if op.kind = k ∧ op.sample.in_range = true ∧ op.sample.uncontended = true then 1 else 0 := by
  have hist : ∀ (hist : Nat) (s : Sample), histRecord hist s =
      hist + if s.in_range = true ∧ s.uncontended = true then 1 else 0 := by
    intro hist s
    unfold histRecord
    cases s.in_range <;> cases s.uncontended <;> simp
  cases op <;> cases k <;> simp [record, record_get, record_put, record_meta,
    samples, Request.kind, Request.sample, hist]

/-- The tracker counts each operation once, in its own kind. -/
theorem foldl_record : (ops.foldl record t).ops k = t.ops k + opsOf k ops ∧
    (ops.foldl record t).bytes k = t.bytes k + bytesOf k ops ∧
    (ops.foldl record t).samples k = t.samples k + samplesOf k ops := by
  induction ops generalizing t with
  | nil => simp [samplesOf]
  | cons op ops ih =>
    obtain ⟨hops, hbytes, hsamples⟩ := ih (t := t.record op)
    rw [List.foldl_cons, hops, hbytes, hsamples, record_ops, record_bytes, record_samples,
      opsOf_cons, bytesOf_cons, samplesOf_cons]
    omega

theorem after_ops : (after ops).ops k = opsOf k ops := by
  rw [after, foldl_record.1]
  cases k <;> simp [LiveStatsTracker.ops]

theorem after_bytes : (after ops).bytes k = bytesOf k ops := by
  rw [after, foldl_record.2.1]
  cases k <;> simp [LiveStatsTracker.bytes]

theorem after_samples : (after ops).samples k = samplesOf k ops := by
  rw [after, foldl_record.2.2]
  cases k <;> simp [samples]

theorem after_concat : after (ops ++ [op]) = (after ops).record op := by
  simp [after]

@[simp] theorem reset_eq : t.reset_for_stage = after [] := rfl

end LiveStatsTracker

end sai3_bench.live_stats
