-- What the merge of the runtimes keeps of its summaries: which quantities it adds
-- up, and which it takes from the first summary alone.
import Sai3Bench.WorkerSummaries

namespace sai3_bench.summaries

open histograms live_stats
open workload (NUM_BUCKETS)

variable {sc : Scale}

/-! ## The percentiles of a merge -/

theorem filter_sum (hists : List (Histogram sc.wide)) :
    (hists.filter fun h => !h.is_empty).sum = hists.sum := by
  induction hists with
  | nil => rfl
  | cons h hists ih =>
    rw [List.filter_cons, List.sum_cons]
    split
    · rw [List.sum_cons, ih]
    · rename_i hempty
      have hzero : h = 0 := Histogram.is_empty_iff.mp (by simpa using hempty)
      rw [ih, hzero, zero_add]

/-- Histograms that go up to a minute are combined. -/
theorem combine_ok {msg : String} {hists : List (Histogram sc.wide)}
    (hfits : ∀ h ∈ hists, Histogram.Fits sc.narrow h) :
    combine msg hists = .ok (Histogram.resize sc.narrow hists.sum) := by
  have hfold : ∀ (hists : List (Histogram sc.wide)) (into : Histogram sc.narrow),
      (∀ h ∈ hists, Histogram.Fits sc.narrow h) →
      hists.foldlM (add_or msg) into = .ok (into + Histogram.resize sc.narrow hists.sum) := by
    intro hists
    induction hists with
    | nil =>
      intro into _
      rw [List.sum_nil, Histogram.resize_zero, add_zero]
      rfl
    | cons h hists ih =>
      intro into hall
      rw [List.forall_mem_cons] at hall
      rw [List.foldlM_cons]
      unfold add_or
      rw [Histogram.add_fits hall.1]
      refine (ih _ hall.2).trans ?_
      rw [List.sum_cons, Histogram.resize_add, add_assoc]
  unfold combine
  rw [hfold _ _ fun h hh => hfits h (List.mem_filter.mp hh).1, filter_sum, zero_add]

theorem combine_error {msg : String} {hists : List (Histogram sc.wide)}
    (hfits : ¬ ∀ h ∈ hists, Histogram.Fits sc.narrow h) : combine msg hists = .error msg := by
  have hfold : ∀ (hists : List (Histogram sc.wide)) (into : Histogram sc.narrow),
      (∃ h ∈ hists, ¬ Histogram.Fits sc.narrow h) →
      hists.foldlM (add_or msg) into = .error msg := by
    intro hists
    induction hists with
    | nil =>
      rintro into ⟨h, hh, _⟩
      cases hh
    | cons h hists ih =>
      intro into hsome
      rw [List.foldlM_cons]
      unfold add_or
      by_cases hh : Histogram.Fits sc.narrow h
      · rw [Histogram.add_fits hh]
        refine ih _ ?_
        obtain ⟨h', hh', hnot⟩ := hsome
        rcases List.mem_cons.mp hh' with rfl | hh'
        · exact absurd hh hnot
        · exact ⟨h', hh', hnot⟩
      · rw [Histogram.add_of_not_fits hh]
        rfl
  unfold combine
  apply hfold
  push Not at hfits
  obtain ⟨h, hh, hnot⟩ := hfits
  refine ⟨h, List.mem_filter.mpr ⟨hh, ?_⟩, hnot⟩
  -- an empty histogram fits in every range
  have hne : ¬ h.is_empty = true := fun hempty => hnot fun j hj =>
    absurd (congrFun (Histogram.is_empty_iff.mp hempty) j) hj
  simpa using hne

/-- All latencies of some histograms. -/
def union (hists : OpHists sc) : Histogram sc.wide := (List.ofFn hists).sum

def Summary.all_hists (s : Summary (OpHists sc)) : List (Histogram sc.wide) :=
  List.ofFn s.get_hists ++ List.ofFn s.put_hists ++ List.ofFn s.meta_hists

/-- The latencies of the operations go up to a minute, or little more. -/
def Summary.Trackable (s : Summary (OpHists sc)) : Prop :=
  ∀ k b, Histogram.Fits sc.narrow (s.hists (histsOf k) b)

def recalculated_op (agg : OpAgg) (hists : OpHists sc) : OpAgg :=
  if 0 < agg.ops then agg.with_percentiles sc (Histogram.resize sc.narrow (union hists)) else agg

def recalculated_ops (s : Summary (OpHists sc)) : Summary (OpHists sc) :=
  { s with
    get := recalculated_op s.get s.get_hists
    put := recalculated_op s.put s.put_hists
    «meta» := recalculated_op s.meta s.meta_hists }

/-- A summary with the percentiles of its own histograms. -/
def recalculated (s : Summary (OpHists sc)) : Summary (OpHists sc) :=
  let combined := Histogram.resize sc.narrow s.all_hists.sum
  if s.all_hists.all fun h => h.is_empty then recalculated_ops s
  else recalculated_ops { s with
    p50_us := percentile sc .P50 combined
    p95_us := percentile sc .P95 combined
    p99_us := percentile sc .P99 combined }

variable {s : Summary (OpHists sc)}

theorem trackable_iff : s.Trackable ↔ ∀ h ∈ s.all_hists, Histogram.Fits sc.narrow h := by
  unfold Summary.Trackable Summary.all_hists
  simp only [List.mem_append, List.mem_ofFn, or_imp, forall_and, forall_exists_index,
    forall_apply_eq_imp_iff]
  constructor
  · intro h
    exact ⟨⟨h .Get, h .Put⟩, h .Meta⟩
  · rintro ⟨⟨hget, hput⟩, hmeta⟩ k
    cases k
    · exact hget
    · exact hput
    · exact hmeta

theorem recalculate_op_ok {msg : String} {agg : OpAgg} {hists : OpHists sc}
    (hfits : ∀ b, Histogram.Fits sc.narrow (hists b)) :
    recalculate_op msg agg hists = .ok (recalculated_op agg hists) := by
  unfold recalculate_op recalculated_op
  split
  · rw [combine_ok (by simpa [List.mem_ofFn] using hfits)]
    rfl
  · rfl

/-- New percentiles leave the counts alone. -/
theorem recalculated_op_counts (agg : OpAgg) (hists : OpHists sc) :
    (recalculated_op agg hists).ops = agg.ops ∧ (recalculated_op agg hists).bytes = agg.bytes := by
  unfold recalculated_op
  split
  · exact ⟨rfl, rfl⟩
  · exact ⟨rfl, rfl⟩

theorem recalculate_ops_ok (h : s.Trackable) : recalculate_ops s = .ok (recalculated_ops s) := by
  have hget : ∀ b, Histogram.Fits sc.narrow (s.get_hists b) := h .Get
  have hput : ∀ b, Histogram.Fits sc.narrow (s.put_hists b) := h .Put
  have hmeta : ∀ b, Histogram.Fits sc.narrow (s.meta_hists b) := h .Meta
  unfold recalculate_ops
  rw [recalculate_op_ok hget, recalculate_op_ok hput, recalculate_op_ok hmeta]
  rfl

theorem recalculate_ok (h : s.Trackable) : recalculate_percentiles s = .ok (recalculated s) := by
  unfold recalculate_percentiles recalculated
  rw [show List.ofFn s.get_hists ++ List.ofFn s.put_hists ++ List.ofFn s.meta_hists =
    s.all_hists from rfl]
  dsimp only
  split
  · exact recalculate_ops_ok h
  · rw [combine_ok (trackable_iff.mp h)]
    exact recalculate_ops_ok h

theorem recalculate_error (h : ¬ s.Trackable) : ∃ e, recalculate_percentiles s = .error e := by
  rw [trackable_iff] at h
  have hsome : ¬ (s.all_hists.all fun h => h.is_empty) = true := by
    intro hempty
    refine h fun hist hhist j hj => ?_
    have hzero := Histogram.is_empty_iff.mp (List.all_eq_true.mp hempty hist hhist)
    exact absurd (congrFun hzero j) hj
  refine ⟨"Failed to merge histograms for overall percentiles", ?_⟩
  unfold recalculate_percentiles
  dsimp only
  rw [show List.ofFn s.get_hists ++ List.ofFn s.put_hists ++ List.ofFn s.meta_hists =
    s.all_hists from rfl, if_neg hsome, combine_error h]
  rfl

/-! ## The quantities that can be added -/

inductive Quantity (sc : Scale)
  | total_ops
  | total_bytes
  | total_errors
  | ops (k : OpKind)
  | bytes (k : OpKind)
  | bin_ops (k : OpKind) (bucket : Nat)
  | bin_bytes (k : OpKind) (bucket : Nat)
  | bucket_count (f : HistField) (bucket : Fin NUM_BUCKETS) (slot : Fin sc.wide)

namespace Quantity

def of : Quantity sc → Summary (OpHists sc) → Nat
  | .total_ops, s => s.total_ops.toNat
  | .total_bytes, s => s.total_bytes.toNat
  | .total_errors, s => s.total_errors.toNat
  | .ops k, s => (s.op k).ops.toNat
  | .bytes k, s => (s.op k).bytes.toNat
  | .bin_ops k bucket, s => (((s.bins k).lookup bucket).getD 0).1.toNat
  | .bin_bytes k bucket, s => (((s.bins k).lookup bucket).getD 0).2.toNat
  | .bucket_count f bucket slot, s => (s.hists f bucket slot).val

/-- The merge of the runtimes does not add it. -/
def Lost : Quantity sc → Prop
  | .total_errors | .bytes .Meta | .bucket_count .PutSetup _ _ | .bucket_count .PutIo _ _ => True
  | _ => False

/-- What is left of a sum: a counter wraps around, a histogram stays at the greatest count. -/
def cap : Quantity sc → Nat → Nat
  | .bucket_count _ _ _, n => min n (2 ^ 64 - 1)
  | _, n => n % 2 ^ 64

variable {q : Quantity sc} {m : Summary (OpHists sc)}

theorem of_lt : q.of s < 2 ^ 64 := by
  cases q with
  | bucket_count f b slot => exact Count.fits _
  | _ => exact BitVec.isLt _

theorem cap_cases (q : Quantity sc) :
    (∀ n, q.cap n = min n (2 ^ 64 - 1)) ∨ ∀ n, q.cap n = n % 2 ^ 64 := by
  cases q with
  | bucket_count f bucket slot => exact .inl fun n => rfl
  | _ => exact .inr fun n => rfl

theorem cap_eq_iff {n : Nat} : q.cap n = n ↔ n < 2 ^ 64 := by
  rcases cap_cases q with h | h
  · rw [h]
    omega
  · rw [h]
    omega

theorem cap_add {a b : Nat} : q.cap (q.cap a + b) = q.cap (a + b) := by
  rcases cap_cases q with h | h
  · rw [h, h, h]
    omega
  · rw [h, h, h]
    omega

theorem of_recalculated_ops : q.of (recalculated_ops s) = q.of s := by
  cases q with
  | ops k => cases k <;> exact congrArg BitVec.toNat (recalculated_op_counts _ _).1
  | bytes k => cases k <;> exact congrArg BitVec.toNat (recalculated_op_counts _ _).2
  | bin_ops k bucket => cases k <;> rfl
  | bin_bytes k bucket => cases k <;> rfl
  | bucket_count f bucket slot => cases f <;> rfl
  | _ => rfl

/-- The percentiles are none of the quantities. -/
theorem of_recalculated : q.of (recalculated s) = q.of s := by
  unfold recalculated
  dsimp only
  split
  · exact of_recalculated_ops
  · refine of_recalculated_ops.trans ?_
    cases q with
    | ops k => cases k <;> rfl
    | bytes k => cases k <;> rfl
    | bin_ops k bucket => cases k <;> rfl
    | bin_bytes k bucket => cases k <;> rfl
    | bucket_count f bucket slot => cases f <;> rfl
    | _ => rfl

/-- One summary more: a quantity is added, or stays what it was. -/
theorem of_plus (h : ¬ q.Lost) : q.of (m.plus s) = q.cap (q.of m + q.of s) := by
  have hbins : ∀ (b b' : Bins) (k : Nat), ((b.plus b').lookup k).getD 0 =
      (b.lookup k).getD 0 + (b'.lookup k).getD 0 := fun b b' k => AList.getD_plus b b' k
  cases q with
  | total_ops => exact BitVec.toNat_add ..
  | total_bytes => exact BitVec.toNat_add ..
  | total_errors => exact absurd trivial h
  | ops k => cases k <;> exact BitVec.toNat_add ..
  | bytes k =>
    cases k with
    | Meta => exact absurd trivial h
    | _ => exact BitVec.toNat_add ..
  | bin_ops k bucket =>
    cases k <;>
      exact (congrArg (fun e : U64 × U64 => e.1.toNat) (hbins _ _ _)).trans (BitVec.toNat_add ..)
  | bin_bytes k bucket =>
    cases k <;>
      exact (congrArg (fun e : U64 × U64 => e.2.toNat) (hbins _ _ _)).trans (BitVec.toNat_add ..)
  | bucket_count f bucket slot =>
    cases f with
    | PutSetup => exact absurd trivial h
    | PutIo => exact absurd trivial h
    | _ => rfl

theorem of_plus_lost (h : q.Lost) : q.of (m.plus s) = q.of m := by
  cases q with
  | total_errors => rfl
  | bytes k => cases k with
    | Meta => rfl
    | _ => cases h
  | bucket_count f bucket slot => cases f with
    | PutSetup => rfl
    | PutIo => rfl
    | _ => cases h
  | _ => cases h

theorem of_foldl (h : ¬ q.Lost) (rest : List (Summary (OpHists sc))) (m : Summary (OpHists sc)) :
    q.of (rest.foldl Summary.plus m) = q.cap ((m :: rest).map q.of).sum := by
  induction rest generalizing m with
  | nil =>
    rw [List.map_singleton, List.sum_singleton]
    exact (cap_eq_iff.mpr of_lt).symm
  | cons s rest ih =>
    rw [List.foldl_cons, ih, List.map_cons, List.sum_cons, of_plus h, cap_add]
    simp only [List.map_cons, List.sum_cons, Nat.add_assoc]

theorem of_foldl_lost (h : q.Lost) (rest : List (Summary (OpHists sc)))
    (m : Summary (OpHists sc)) : q.of (rest.foldl Summary.plus m) = q.of m := by
  induction rest generalizing m with
  | nil => rfl
  | cons s rest ih => rw [List.foldl_cons, ih, of_plus_lost h]

end Quantity

/-! ## What a merge adds up -/

theorem trackable_plus {m : Summary (OpHists sc)} :
    (m.plus s).Trackable ↔ m.Trackable ∧ s.Trackable := by
  have hadd : ∀ k b, Histogram.Fits sc.narrow ((m.plus s).hists (histsOf k) b) ↔
      Histogram.Fits sc.narrow (m.hists (histsOf k) b) ∧
        Histogram.Fits sc.narrow (s.hists (histsOf k) b) := by
    intro k b
    cases k <;> exact Histogram.fits_add
  unfold Summary.Trackable
  simp only [hadd, forall_and]

theorem trackable_foldl (rest : List (Summary (OpHists sc))) (m : Summary (OpHists sc)) :
    (rest.foldl Summary.plus m).Trackable ↔ ∀ s ∈ m :: rest, s.Trackable := by
  induction rest generalizing m with
  | nil => simp
  | cons s rest ih => rw [List.foldl_cons, ih, List.forall_mem_cons, trackable_plus,
      List.forall_mem_cons, List.forall_mem_cons, and_assoc]

/-- Some summaries that a merge adds up: no latency is too long, no sum too great, and
there is nothing of what is not added. -/
structure Adds (summaries : List (Summary (OpHists sc))) : Prop where
  trackable : ∀ s ∈ summaries, s.Trackable
  fits : ∀ q : Quantity sc, ¬ q.Lost → (summaries.map q.of).sum < 2 ^ 64
  lost : ∀ q : Quantity sc, q.Lost → ∀ s ∈ summaries, q.of s = 0

variable {first second : Summary (OpHists sc)} {rest summaries : List (Summary (OpHists sc))}

theorem Adds.perm {more : List (Summary (OpHists sc))} (h : Adds summaries)
    (hperm : more.Perm summaries) : Adds more := by
  obtain ⟨htrack, hfits, hlost⟩ := h
  refine ⟨fun s hs => htrack s (hperm.mem_iff.mp hs), fun q hq => ?_,
    fun q hq s hs => hlost q hq s (hperm.mem_iff.mp hs)⟩
  rw [(hperm.map q.of).sum_eq]
  exact hfits q hq

/-- The quantities of a merge of two summaries or more. -/
theorem merged_quantities {merged : Summary (OpHists sc)}
    (h : merge_summaries (first :: second :: rest) = .ok merged) (q : Quantity sc) :
    (¬ q.Lost → q.of merged = q.cap ((first :: second :: rest).map q.of).sum) ∧
      (q.Lost → q.of merged = q.of first) := by
  rw [merge_summaries_eq] at h
  have htrack : ((second :: rest).foldl Summary.plus first).Trackable := by
    by_contra hnot
    obtain ⟨e, he⟩ := recalculate_error hnot
    cases he.symm.trans h
  rw [recalculate_ok htrack] at h
  cases h
  rw [Quantity.of_recalculated]
  exact ⟨fun hq => Quantity.of_foldl hq _ _, fun hq => Quantity.of_foldl_lost hq _ _⟩

theorem merge_ok_iff : (∃ merged, merge_summaries (first :: second :: rest) = .ok merged) ↔
    ∀ s ∈ first :: second :: rest, s.Trackable := by
  rw [merge_summaries_eq, ← trackable_foldl]
  constructor
  · rintro ⟨merged, h⟩
    by_contra hnot
    obtain ⟨e, he⟩ := recalculate_error hnot
    cases he.symm.trans h
  · exact fun h => ⟨_, recalculate_ok h⟩

theorem Adds.merge (h : Adds (first :: second :: rest)) :
    ∃ merged, merge_summaries (first :: second :: rest) = .ok merged ∧
      ∀ q : Quantity sc, q.of merged = ((first :: second :: rest).map q.of).sum := by
  obtain ⟨merged, hmerged⟩ := merge_ok_iff.mpr h.trackable
  refine ⟨merged, hmerged, fun q => ?_⟩
  obtain ⟨hadded, hfirst⟩ := merged_quantities hmerged q
  by_cases hq : q.Lost
  · have hzero : ((first :: second :: rest).map q.of).sum = 0 := by
      rw [List.sum_eq_zero_iff, List.forall_mem_map]
      exact h.lost q hq
    rw [hfirst hq, hzero]
    exact h.lost q hq first List.mem_cons_self
  · rw [hadded hq]
    exact Quantity.cap_eq_iff.mpr (h.fits q hq)

/-- A merge is lossless and does not depend on the order just for one summary alone, and
for summaries that can be tracked, that have nothing of what is not added, and whose sums
fit. -/
theorem merge_lossless_iff (first : Summary (OpHists sc)) (rest : List (Summary (OpHists sc))) :
    (∃ merged, merge_summaries (first :: rest) = .ok merged ∧
      (∀ q : Quantity sc, q.of merged = ((first :: rest).map q.of).sum) ∧
      ∀ summaries, summaries.Perm (first :: rest) →
        ∃ merged', merge_summaries summaries = .ok merged' ∧
          ∀ q : Quantity sc, q.of merged' = q.of merged) ↔
    rest = [] ∨ Adds (first :: rest) := by
  cases rest with
  | nil =>
    simp only [List.perm_singleton, forall_eq, true_or, iff_true]
    refine ⟨first, rfl, fun q => ?_, first, rfl, fun _ => rfl⟩
    rw [List.map_singleton, List.sum_singleton]
  | cons second rest =>
    constructor
    · rintro ⟨merged, hmerged, hsum, hperm⟩
      refine .inr ⟨merge_ok_iff.mp ⟨merged, hmerged⟩, fun q hq => ?_, fun q hq => ?_⟩
      · have hcap := (merged_quantities hmerged q).1 hq
        rw [hsum] at hcap
        exact Quantity.cap_eq_iff.mp hcap.symm
      · -- with the first two in the other order it is the second one that counts
        obtain ⟨merged', hmerged', hsame⟩ := hperm (second :: first :: rest) (.swap ..)
        have hfirst := (merged_quantities hmerged q).2 hq
        have hsecond := (merged_quantities hmerged' q).2 hq
        have htotal := hsum q
        have hswap := hsame q
        rw [List.map_cons, List.map_cons, List.sum_cons, List.sum_cons] at htotal
        have hrest : (rest.map q.of).sum = 0 := by omega
        rw [List.sum_eq_zero_iff, List.forall_mem_map] at hrest
        rw [List.forall_mem_cons, List.forall_mem_cons]
        exact ⟨by omega, by omega, hrest⟩
    · rintro (hnil | hadds)
      · cases hnil
      · obtain ⟨merged, hmerged, hsum⟩ := hadds.merge
        refine ⟨merged, hmerged, hsum, fun summaries hperm => ?_⟩
        have hlen := hperm.length_eq
        obtain ⟨a, b, more, rfl⟩ : ∃ a b more, summaries = a :: b :: more := by
          match summaries, hlen with
          | a :: b :: more, _ => exact ⟨a, b, more, rfl⟩
        obtain ⟨merged', hmerged', hsum'⟩ := (hadds.perm hperm).merge
        refine ⟨merged', hmerged', fun q => ?_⟩
        rw [hsum', hsum, (hperm.map q.of).sum_eq]

/-! ## Errors of two workers -/

/-- The histograms of the program: three digits, in microseconds. From 2048 on, two, four
and more values share a slot. -/
def microseconds : Scale where
  wide := 23 * 1024
  narrow := 17 * 1024
  narrow_le := by decide
  lowest i := if i < 1024 then i else (i % 1024 + 1024) * 2 ^ (i / 1024 - 1)
  highest i := if i < 1024 then i else (i % 1024 + 1024 + 1) * 2 ^ (i / 1024 - 1) - 1
  rank
    | .P50, n => (50 * n + 99) / 100
    | .P95, n => (95 * n + 99) / 100
    | .P99, n => (99 * n + 99) / 100
  tracks i hi := by
    by_contra hge
    have hslot : ¬ i < 1024 := by omega
    rw [if_neg hslot] at hi
    have hpow : 2 ^ 16 ≤ 2 ^ (i / 1024 - 1) := Nat.pow_le_pow_right (by decide) (by omega)
    have hmul := Nat.mul_le_mul (Nat.le_add_left 1024 (i % 1024)) hpow
    omega

/-- A worker whose operations all failed. -/
def failed (errors : U64) : Summary (OpHists microseconds) where
  total_bytes := 0
  total_ops := 0
  p50_us := 0
  p95_us := 0
  p99_us := 0
  get := {}
  put := {}
  «meta» := {}
  get_bins := ∅
  put_bins := ∅
  meta_bins := ∅
  get_hists := 0
  put_hists := 0
  meta_hists := 0
  put_hists_setup := 0
  put_hists_io := 0
  total_errors := errors

/-- Two workers have three errors each, and three are left. -/
theorem errors_are_lost : ¬ ∃ merged, merge_summaries [failed 3, failed 3] = .ok merged ∧
    ∀ q : Quantity microseconds, q.of merged = ([failed 3, failed 3].map q.of).sum := by
  rintro ⟨merged, hmerged, hsum⟩
  have hfirst := (merged_quantities hmerged .total_errors).2 trivial
  have hboth := hsum .total_errors
  rw [hfirst] at hboth
  revert hboth
  decide

end sai3_bench.summaries
