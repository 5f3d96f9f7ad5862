-- Which latencies are behind the overall percentiles, those of a run and those of
-- several runtimes together.
import Sai3Bench.RunSummaries

namespace sai3_bench.summaries

open histograms live_stats
open workload (NUM_BUCKETS)

variable {sc : Scale} {r : Recorder sc}

/-! ## Sums of histograms -/

theorem at_slot_sum {m : Nat} (l : List (Histogram m)) (i : Nat) :
    l.sum.at_slot i = min (l.map (·.at_slot i)).sum (2 ^ 64 - 1) := by
  have hval : ∀ cs : List Count, cs.sum.val = min (cs.map Count.val).sum (2 ^ 64 - 1) := by
    intro cs
    induction cs with
    | nil => rfl
    | cons c cs ih =>
      rw [List.sum_cons, Count.val_add, ih, List.map_cons, List.sum_cons]
      omega
  by_cases hi : i < m
  · have hat : ∀ h : Histogram m, h.at_slot i = (h ⟨i, hi⟩).val := fun h => dif_pos hi
    rw [hat, Histogram.sum_apply, hval, List.map_map]
    congr 2
    exact List.map_congr_left fun h _ => (hat h).symm
  · have hat : ∀ h : Histogram m, h.at_slot i = 0 := fun h => dif_neg hi
    rw [hat]
    simp [hat]

theorem union_eq (hists : OpHists sc) : union hists = ∑ b, hists b := by
  unfold union
  exact List.sum_ofFn

theorem union_add (hists other : OpHists sc) :
    union (hists + other) = union hists + union other := by
  rw [union_eq, union_eq, union_eq]
  exact Finset.sum_add_distrib

theorem combined_histogram_eq (hists : OpHists sc) :
    OpHists.combined_histogram hists = union hists := by
  have hadd : (fun (combined : Histogram sc.wide) hist => (combined.add hist).getD combined) =
      fun combined hist => combined + hist := by
    funext combined hist
    rw [Histogram.add_self_range, Option.getD_some]
  have hfold : (List.ofFn hists).foldl (fun combined hist : Histogram sc.wide => combined + hist) 0 =
      0 + ((List.ofFn hists).map id).sum :=
    foldl_additive (φ := id) (fun _ _ => rfl) _ _
  unfold OpHists.combined_histogram union
  rw [hadd]
  simpa using hfold

theorem merge_eq (hists other : OpHists sc) : OpHists.merge hists other = hists + other := by
  funext i
  unfold OpHists.merge
  rw [Histogram.add_self_range, Option.getD_some]
  rfl

/-! ## What is recorded -/

/-- One latency. -/
def sample (r : Recorder sc) (value : Nat) : Histogram sc.wide :=
  if h : r.slot value < sc.wide then Histogram.single ⟨r.slot value, h⟩ 1 else 0

theorem record_eq (hist : Histogram sc.wide) (value : Nat) :
    r.record hist value = hist + sample r value := by
  unfold Recorder.record sample
  split
  · rfl
  · exact (add_zero _).symm

/-- Wherever a latency is recorded, it is one more in all buckets together. -/
theorem union_record (hists : OpHists sc) (bucket : Fin NUM_BUCKETS) (value : Nat) :
    union (OpHists.record r hists bucket value) = union hists + sample r value := by
  have hrecord : ∀ i, OpHists.record r hists bucket value i =
      hists i + if i = bucket then sample r value else 0 := by
    intro i
    unfold OpHists.record
    by_cases hi : i = bucket
    · subst hi
      rw [Function.update_self, record_eq, if_pos rfl]
    · rw [Function.update_of_ne hi, if_neg hi, add_zero]
  rw [union_eq, union_eq, Finset.sum_congr rfl fun i _ => hrecord i, Finset.sum_add_distrib,
    Finset.sum_ite_eq', if_pos (Finset.mem_univ bucket)]

/-- The latencies of all kinds. -/
def WorkerStats.latencies (ws : WorkerStats sc) : Histogram sc.wide :=
  union ws.hist_get + union ws.hist_put + union ws.hist_meta

theorem latencies_record_meta (ws : WorkerStats sc) (duration : Nat) :
    (ws.record_meta r duration).latencies = ws.latencies + sample r duration := by
  unfold WorkerStats.latencies WorkerStats.record_meta
  dsimp only
  rw [union_record, add_assoc, add_assoc, add_assoc]

theorem latencies_record (ws : WorkerStats sc) (done : Success) :
    (ws.record r done).latencies = ws.latencies + sample r done.latency := by
  cases done with
  | Get bytes duration =>
    unfold WorkerStats.latencies WorkerStats.record Success.latency
    dsimp only
    rw [union_record, add_right_comm (union ws.hist_get), add_right_comm _ (sample r duration)]
  | Put sz buf_len setup_dur io_dur total_dur =>
    unfold WorkerStats.latencies WorkerStats.record Success.latency
    dsimp only
    rw [union_record, ← add_assoc, add_right_comm _ (sample r total_dur)]
  | List duration => exact latencies_record_meta ws duration
  | Stat duration => exact latencies_record_meta ws duration
  | Delete duration => exact latencies_record_meta ws duration
  | Mkdir duration => exact latencies_record_meta ws duration
  | Rmdir duration => exact latencies_record_meta ws duration

theorem latencies_merge (ws other : WorkerStats sc) :
    (ws.merge other).latencies = ws.latencies + other.latencies := by
  unfold WorkerStats.latencies WorkerStats.merge
  dsimp only
  rw [merge_eq, merge_eq, merge_eq, union_add, union_add, union_add,
    add_add_add_comm (union ws.hist_get), add_add_add_comm]

theorem union_zero : union (0 : OpHists sc) = 0 := by
  rw [union_eq]
  exact Finset.sum_const_zero

theorem merged_latencies (workers : List (List Success)) : (merged_of r workers).latencies =
    (workers.flatten.map fun d => sample r d.latency).sum := by
  refine merged_of_sum ?_ latencies_record latencies_merge workers
  unfold WorkerStats.latencies
  dsimp only
  rw [union_zero, add_zero, add_zero]

/-! ## Exactly one sample per latency -/

/-- The latencies that share a slot. -/
def latencies_in (r : Recorder sc) (done : List Success) (i : Nat) : Nat :=
  done.countP fun d => r.slot d.latency = i

/-- A histogram has one sample for each latency. -/
def Lossless {n : Nat} (r : Recorder sc) (combined : Histogram n) (done : List Success) : Prop :=
  ∀ i, combined.at_slot i = latencies_in r done i

/-- No latency is above what a histogram up to a minute can hold, and those that share a
slot can be counted. -/
structure Holdable (r : Recorder sc) (done : List Success) : Prop where
  short : ∀ d ∈ done, r.slot d.latency < sc.narrow
  few : ∀ i, latencies_in r done i < 2 ^ 64

theorem Holdable.of_sublist {done all : List Success} (h : Holdable r all)
    (hsub : done.Sublist all) : Holdable r done where
  short d hd := h.short d (hsub.subset hd)
  few i := by
    have := h.few i
    have hle : latencies_in r done i ≤ latencies_in r all i := hsub.countP_le
    omega

/-- What has one sample for each latency up to a minute can hold them. -/
theorem holdable_of_lossless {combined : Histogram sc.narrow} {done : List Success}
    (h : Lossless r combined done) : Holdable r done where
  short d hd := by
    by_contra hlong
    have hat : combined.at_slot (r.slot d.latency) = 0 := dif_neg hlong
    have hpos : 0 < latencies_in r done (r.slot d.latency) :=
      List.countP_pos_iff.mpr ⟨d, hd, by simp⟩
    rw [← h, hat] at hpos
    exact Nat.lt_irrefl 0 hpos
  few i := by
    rw [← h]
    unfold Histogram.at_slot
    split
    · exact Count.fits _
    · decide

theorem at_slot_sample {value : Nat} (hvalue : value ≤ 3_600_000_000) (i : Nat) :
    (sample r value).at_slot i = if r.slot value = i then 1 else 0 := by
  have hslot := r.slot_lt value hvalue
  unfold sample
  rw [dif_pos hslot]
  unfold Histogram.at_slot Histogram.single
  by_cases hi : i < sc.wide
  · rw [dif_pos hi, Pi.single_apply]
    by_cases heq : r.slot value = i
    · rw [if_pos heq, if_pos (Fin.ext heq.symm)]
      rfl
    · rw [if_neg heq, if_neg fun h => heq (congrArg Fin.val h).symm]
      rfl
  · rw [dif_neg hi, if_neg (by omega)]

theorem fits_sample {value : Nat} (hshort : r.slot value < sc.narrow) :
    Histogram.Fits sc.narrow (sample r value) := by
  intro j hj
  unfold sample at hj
  split at hj
  · by_cases heq : j = ⟨r.slot value, by assumption⟩
    · rw [heq]
      exact hshort
    · exact absurd (Pi.single_eq_of_ne heq _) hj
  · exact absurd rfl hj

/-- All latencies of some operations. -/
def samples (r : Recorder sc) (done : List Success) : Histogram sc.wide :=
  (done.map fun d => sample r d.latency).sum

theorem at_slot_samples {done : List Success} (hbound : ∀ d ∈ done, d.latency ≤ 3_600_000_000)
    (i : Nat) : (samples r done).at_slot i = min (latencies_in r done i) (2 ^ 64 - 1) := by
  unfold samples
  rw [at_slot_sum, List.map_map]
  congr 1
  unfold latencies_in
  induction done with
  | nil => rfl
  | cons d done ih =>
    rw [List.forall_mem_cons] at hbound
    rw [List.map_cons, List.sum_cons, ih hbound.2, List.countP_cons, Function.comp,
      at_slot_sample hbound.1, Nat.add_comm]
    simp

theorem fits_samples {done : List Success} (hshort : ∀ d ∈ done, r.slot d.latency < sc.narrow) :
    Histogram.Fits sc.narrow (samples r done) := by
  unfold samples
  rw [Histogram.fits_sum, List.forall_mem_map]
  exact fun d hd => fits_sample (hshort d hd)

/-- The latencies that can be held are all there in a histogram up to a minute. -/
theorem lossless_samples {done : List Success} (hbound : ∀ d ∈ done, d.latency ≤ 3_600_000_000)
    (h : Holdable r done) : Lossless r (Histogram.resize sc.narrow (samples r done)) done := by
  intro i
  rw [Histogram.at_slot_resize (fits_samples h.short), at_slot_samples hbound]
  have := h.few i
  omega

/-! ## The run -/

/-- Where all kinds fit, the histogram of the run has all latencies. -/
theorem overall_eq {merged : WorkerStats sc} (h : Histogram.Fits sc.narrow merged.latencies) :
    overall merged = Histogram.resize sc.narrow merged.latencies := by
  unfold WorkerStats.latencies at h ⊢
  obtain ⟨hops, hmeta⟩ := Histogram.fits_add.mp h
  obtain ⟨hget, hput⟩ := Histogram.fits_add.mp hops
  unfold overall
  dsimp only
  rw [combined_histogram_eq, combined_histogram_eq, combined_histogram_eq,
    Histogram.add_fits hget, Option.getD_some, Histogram.add_fits hput, Option.getD_some,
    Histogram.add_fits hmeta, Option.getD_some, Histogram.resize_add, Histogram.resize_add, zero_add]

theorem run_lossless {workers : List (List Success)}
    (hbound : ∀ d ∈ workers.flatten, d.latency ≤ 3_600_000_000)
    (h : Holdable r workers.flatten) :
    Lossless r (overall (merged_of r workers)) workers.flatten := by
  have hall : (merged_of r workers).latencies = samples r workers.flatten := merged_latencies workers
  rw [overall_eq (by rw [hall]; exact fits_samples h.short), hall]
  exact lossless_samples hbound h

/-! ## The runtimes -/

section

variable {s m : Summary (OpHists sc)}

theorem all_hists_sum (s : Summary (OpHists sc)) :
    s.all_hists.sum = union s.get_hists + union s.put_hists + union s.meta_hists := by
  unfold Summary.all_hists union
  rw [List.sum_append, List.sum_append]

theorem all_hists_plus : (m.plus s).all_hists.sum = m.all_hists.sum + s.all_hists.sum := by
  rw [all_hists_sum, all_hists_sum, all_hists_sum]
  unfold Summary.plus
  dsimp only
  rw [union_add, union_add, union_add, add_add_add_comm (union m.get_hists), add_add_add_comm]

theorem value_foldl (rest : List (Summary (OpHists sc))) (m : Summary (OpHists sc))
    (p : Percentile) : (rest.foldl Summary.plus m).value p = m.value p := by
  induction rest generalizing m with
  | nil => rfl
  | cons s rest ih =>
    rw [List.foldl_cons, ih]
    cases p <;> rfl

theorem value_recalculated_ops (p : Percentile) : (recalculated_ops s).value p = s.value p := by
  cases p <;> rfl

theorem zero_of_add_zero {n : Nat} {h other : Histogram n} (hzero : h + other = 0) : h = 0 := by
  funext i
  exact (Count.add_eq_zero.mp (congrFun hzero i)).1

theorem fits_zero {n : Nat} : Histogram.Fits n (0 : Histogram sc.wide) :=
  fun _ hj => absurd rfl hj

/-- Without latencies the percentiles stay as they were. -/
theorem value_recalculated (p : Percentile)
    (hnone : s.all_hists.sum = 0 → s.value p = percentile sc p (0 : Histogram sc.narrow)) :
    (recalculated s).value p = percentile sc p (Histogram.resize sc.narrow s.all_hists.sum) := by
  unfold recalculated
  dsimp only
  split
  · rename_i hempty
    have hzero : s.all_hists.sum = 0 := by
      rw [List.all_eq_true] at hempty
      exact List.sum_eq_zero fun h hh => Histogram.is_empty_iff.mp (hempty h hh)
    rw [value_recalculated_ops, hnone hzero, hzero, Histogram.resize_zero]
  · rw [value_recalculated_ops]
    cases p <;> rfl

end

/-- What a runtime hands over: the operations of its workers, and the errors. -/
abbrev Runtime := List (List Success) × U64

def runtime_summary (r : Recorder sc) (runtime : Runtime) : Summary (OpHists sc) :=
  summary_of (merged_of r runtime.1) runtime.2

def operations (runtimes : List Runtime) : List Success :=
  runtimes.flatMap fun runtime => runtime.1.flatten

/-- The merge succeeds, and its overall percentiles are those of a histogram with
one sample for each latency. -/
def MergeLossless (r : Recorder sc) (runtimes : List Runtime) : Prop :=
  ∃ (merged : Summary (OpHists sc)) (combined : Histogram sc.narrow),
    merge_summaries (runtimes.map (runtime_summary r)) = .ok merged ∧
    (∀ p, merged.value p = percentile sc p combined) ∧
    Lossless r combined (operations runtimes)

section

variable {runtimes : List Runtime}

theorem runtime_latencies (runtime : Runtime) :
    (runtime_summary r runtime).all_hists.sum = samples r runtime.1.flatten := by
  rw [all_hists_sum]
  exact merged_latencies runtime.1

theorem runtime_value (runtime : Runtime) (p : Percentile) :
    (runtime_summary r runtime).value p = percentile sc p (overall (merged_of r runtime.1)) := by
  cases p <;> rfl

theorem runtimes_latencies (runtimes : List Runtime) :
    ((runtimes.map (runtime_summary r)).map fun s => s.all_hists.sum).sum =
      samples r (operations runtimes) := by
  induction runtimes with
  | nil => rfl
  | cons runtime runtimes ih =>
    rw [List.map_cons, List.map_cons, List.sum_cons, ih, runtime_latencies]
    unfold samples operations
    rw [List.flatMap_cons, List.map_append, List.sum_append]

theorem merge_lossless (hne : runtimes ≠ [])
    (hbound : ∀ d ∈ operations runtimes, d.latency ≤ 3_600_000_000)
    (h : Holdable r (operations runtimes)) : MergeLossless r runtimes := by
  match runtimes, hne with
  | [runtime], _ =>
    unfold operations at hbound h
    rw [List.flatMap_singleton] at hbound h
    refine ⟨_, overall (merged_of r runtime.1), rfl, runtime_value runtime, ?_⟩
    unfold operations
    rw [List.flatMap_singleton]
    exact run_lossless hbound h
  | first :: second :: rest, _ =>
    have hall : (((second :: rest).map (runtime_summary r)).foldl Summary.plus
        (runtime_summary r first)).all_hists.sum =
          samples r (operations (first :: second :: rest)) := by
      rw [foldl_additive (φ := fun s : Summary (OpHists sc) => s.all_hists.sum)
        fun _ _ => all_hists_plus, ← runtimes_latencies]
      rfl
    have hfits := fits_samples h.short
    have htrack : (((second :: rest).map (runtime_summary r)).foldl Summary.plus
        (runtime_summary r first)).Trackable := by
      rw [trackable_iff, ← Histogram.fits_sum, hall]
      exact hfits
    refine ⟨_, Histogram.resize sc.narrow (samples r (operations (first :: second :: rest))),
      (merge_summaries_eq _ _ _).trans (recalculate_ok htrack), fun p => ?_,
      lossless_samples hbound h⟩
    rw [← hall]
    refine value_recalculated p fun hzero => ?_
    have hfirst : (merged_of r first.1).latencies = 0 := by
      rw [foldl_additive (φ := fun s : Summary (OpHists sc) => s.all_hists.sum)
        fun _ _ => all_hists_plus, all_hists_sum] at hzero
      exact zero_of_add_zero hzero
    rw [value_foldl, runtime_value, overall_eq (by rw [hfirst]; exact fits_zero), hfirst,
      Histogram.resize_zero]

end

/-- The histograms behind the overall percentiles, those of each run and that of the
merge, have one sample for each latency just when all latencies can be held by a
histogram that goes up to a minute. -/
theorem overall_percentiles_lose_nothing_iff (r : Recorder sc) (runtimes : List Runtime)
    (hne : runtimes ≠ []) (hbound : ∀ d ∈ operations runtimes, d.latency ≤ 3_600_000_000) :
    ((∀ runtime ∈ runtimes, Lossless r (overall (merged_of r runtime.1)) runtime.1.flatten) ∧
      MergeLossless r runtimes) ↔ Holdable r (operations runtimes) := by
  constructor
  · rintro ⟨-, merged, combined, -, -, hlossless⟩
    exact holdable_of_lossless hlossless
  · intro h
    refine ⟨fun runtime hruntime => ?_, merge_lossless hne hbound h⟩
    have hsub : runtime.1.flatten.Sublist (operations runtimes) := by
      unfold operations
      rw [List.flatMap_def]
      exact List.sublist_flatten_of_mem (List.mem_map_of_mem hruntime)
    exact run_lossless (fun d hd => hbound d (hsub.subset hd)) (h.of_sublist hsub)

/-- Two runtimes of one worker each. -/
theorem overall_percentiles_lose_nothing_two_runtimes :
    (∀ runtime ∈ ([([[.Get 4096 120]], 0), ([[.List 80]], 0)] : List Runtime),
      Lossless recorder (overall (merged_of recorder runtime.1)) runtime.1.flatten) ∧
    MergeLossless recorder [([[.Get 4096 120]], 0), ([[.List 80]], 0)] := by
  apply (overall_percentiles_lose_nothing_iff recorder _ (by decide) (by decide)).mpr
  refine ⟨by decide, fun i => ?_⟩
  calc latencies_in recorder _ i ≤ List.length [Success.Get 4096 120, .List 80] :=
        List.countP_le_length
    _ < 2 ^ 64 := by decide

/-- A GET of two minutes is in the histogram of its kind, but not in that of all kinds. -/
theorem overall_percentiles_lose_two_minutes : ¬ ∀ runtimes : List Runtime, runtimes ≠ [] →
    (∀ d ∈ operations runtimes, d.latency ≤ 3_600_000_000) →
    (∀ runtime ∈ runtimes,
      Lossless recorder (overall (merged_of recorder runtime.1)) runtime.1.flatten) ∧
    MergeLossless recorder runtimes := by
  intro h
  obtain ⟨-, merged, combined, -, -, hlossless⟩ :=
    h [([[.Get 4096 120_000_000]], 0)] (List.cons_ne_nil _ _) (by decide)
  have hslot := (holdable_of_lossless hlossless).short (.Get 4096 120_000_000) List.mem_cons_self
  revert hslot
  decide

end sai3_bench.summaries
