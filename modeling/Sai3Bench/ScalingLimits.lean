-- The limits of a run over its workers: how its threads are divided, and what each
-- worker makes of the limits in its copy of the config (main.rs, multiprocess.rs,
-- multiruntime.rs, workload.rs, rate_controller.rs).
import Mathlib.Data.Rat.Defs
import Mathlib.Tactic.FieldSimp
import Mathlib.Tactic.Linarith
import Sai3Bench.ConfigTrips
import Sai3Bench.Pools

namespace sai3_bench.scaling

open serde serde_helpers config.written pools machines

/-! ## The workers -/

/-- The threads of one worker of `run_multiruntime`. -/
def worker_concurrency (concurrency num_workers worker_id : Nat) : Nat :=
  let base_concurrency := concurrency / num_workers
  let remainder := concurrency % num_workers
  if worker_id < remainder then base_concurrency + 1 else base_concurrency

/-- The configs that the workers of `run_multiruntime` run. -/
def run_multiruntime (cfg : Config) (num_workers : Nat) : List Config :=
  if num_workers = 1 then [cfg]
  else (List.range num_workers).filterMap fun worker_id =>
    let concurrency := worker_concurrency cfg.concurrency.toNat num_workers worker_id
    if concurrency = 0 then none
    else some { cfg with concurrency := BitVec.ofNat 64 concurrency }

/-- A child reads its config from what it is given. -/
def run_internal_worker (lib : Libraries) (config_json : Value) : Option Config :=
  ((Config.codec lib.json).deserialize config_json).toOption

/-- The configs that the children of `run_multiprocess` run. -/
def run_multiprocess (lib : Libraries) (cfg : Config) (detect_physical_cores : Nat) :
    List Config :=
  if process_count cfg detect_physical_cores = 1 then [cfg]
  else (child_configs cfg detect_physical_cores).filterMap fun child_cfg =>
    run_internal_worker lib ((Config.codec lib.json).serialize child_cfg)

/-- The configs of all the workers of a run. -/
def workers (lib : Libraries) (config : Config) (detect_physical_cores : Nat) : List Config :=
  let num_processes := process_count config detect_physical_cores
  if 1 < num_processes then
    match config.processing_mode with
    | .MultiProcess => run_multiprocess lib config detect_physical_cores
    | .MultiRuntime => run_multiruntime config num_processes
  else [config]

/-! ## One worker -/

/-- Which operations `WeightedIndex` can choose. It takes no weights that are all
zero, and none that have no sum. -/
def weighted_index (weights : List U32) : Option (Nat → Bool) :=
  let total_weight := (weights.map BitVec.toNat).sum
  if total_weight = 0 ∨ 2 ^ 32 ≤ total_weight then none
  else some fun idx => weights[idx]?.any (· ≠ 0)

/-- The permits of an operation, when it needs them. -/
def op_semaphore (cfg : Config) (wo : WeightedOp) : Option Nat :=
  match wo.concurrency with
  | some conc => if conc.toNat < cfg.concurrency.toNat then some conc.toNat else none
  | none => none

structure RateController where
  config : IoRateConfig
  inter_arrival_micros : ℚ

def RateController.new (config : IoRateConfig) (workers : Nat) : RateController where
  config
  inter_arrival_micros :=
    match config.iops with
    | .Max => 0
    | .Fixed iops =>
      let ops_per_worker_per_sec : ℚ := iops.toNat / workers
      1000000 / ops_per_worker_per_sec

/-- The tasks of a worker with their permits, and the controller they share. -/
structure WorkerRun where
  shape : Shape
  rate_controller : Option RateController

def WorkerRun.new (cfg : Config) (chooser : Nat → Bool) : WorkerRun where
  shape := ⟨cfg.concurrency.toNat, cfg.workload.map (op_semaphore cfg), chooser⟩
  rate_controller := cfg.io_rate.map (RateController.new · cfg.concurrency.toNat)

def run (cfg : Config) : Option WorkerRun :=
  (weighted_index (cfg.workload.map (·.weight))).map (WorkerRun.new cfg)

/-- The operations of all tasks in a second, when each task waits for its interval. -/
def WorkerRun.aimed_rate (r : WorkerRun) : ℚ :=
  match r.rate_controller with
  | some controller => r.shape.tasks * (1000000 / controller.inter_arrival_micros)
  | none => 0

/-! ## The limits -/

def shapes (workers : List Config) : List Shape := (workers.filterMap run).map (·.shape)

/-- The limits of a config, kept by its workers together. -/
structure Conserved (config : Config) (workers : List Config) : Prop where
  concurrency : (workers.map (·.concurrency.toNat)).sum = config.concurrency.toNat
  limits : ∀ op wo limit, config.workload[op]? = some wo → wo.concurrency = some limit →
    ∀ events ps, (fleet (shapes workers)).run ((shapes workers).map .start) events = some ps →
      runningAnywhere ps op ≤ limit.toNat
  rate : ∀ io_rate iops, config.io_rate = some io_rate → io_rate.iops = .Fixed iops →
    ((workers.filterMap run).map (·.aimed_rate)).sum ≤ iops.toNat

/-- A config with limits that more than one worker keeps: the processes have the
same number of threads, and no limit is one that a worker would use. -/
structure Divides (config : Config) (detect_physical_cores : Nat) : Prop where
  threads : config.processing_mode = .MultiProcess →
    process_count config detect_physical_cores ∣ config.concurrency.toNat ∧
      config.io_rate = none ∧ ∀ x ∈ config.floats, ∃ negative exponent mantissa,
        x = .finite negative exponent mantissa
  limits : ∀ wo ∈ config.workload, ∀ limit, wo.concurrency = some limit →
    (weighted_index (config.workload.map (·.weight))).isSome → wo.weight ≠ 0 →
      limit = 0 ∨ config.concurrency.toNat ≤ limit.toNat
  rate : ∀ io_rate iops, config.io_rate = some io_rate → io_rate.iops = .Fixed iops →
    (weighted_index (config.workload.map (·.weight))).isSome →
      iops = 0 ∨ config.concurrency.toNat ≤ 1

variable {lib : Libraries} {config cfg : Config} {ws : List Config} {cores : Nat}

/-! ## One worker, again -/

theorem most_of_limit {chooser : Nat → Bool} {op : Nat} {wo : WeightedOp} {limit : U64}
    (hop : cfg.workload[op]? = some wo) (hlimit : wo.concurrency = some limit)
    (hchosen : chooser op = true) :
    (WorkerRun.new cfg chooser).shape.most op = min limit.toNat cfg.concurrency.toNat := by
  unfold Shape.most WorkerRun.new
  dsimp only
  rw [if_pos hchosen, List.getElem?_map, hop, Option.map_some]
  unfold op_semaphore
  rw [hlimit]
  dsimp only
  by_cases hless : limit.toNat < cfg.concurrency.toNat
  · rw [if_pos hless]
  · rw [if_neg hless]
    dsimp only
    omega

/-- The tasks aim at the whole target. -/
theorem aimed_rate_fixed {chooser : Nat → Bool} {io_rate : IoRateConfig} {iops : U64}
    (hpos : 0 < cfg.concurrency.toNat) (hrate : cfg.io_rate = some io_rate)
    (hiops : io_rate.iops = .Fixed iops) :
    (WorkerRun.new cfg chooser).aimed_rate = iops.toNat := by
  have htasks : (cfg.concurrency.toNat : ℚ) ≠ 0 := by exact_mod_cast hpos.ne'
  unfold WorkerRun.aimed_rate WorkerRun.new RateController.new
  simp only [hrate, Option.map_some, hiops]
  by_cases hzero : (iops.toNat : ℚ) = 0
  · rw [hzero]
    simp
  · field_simp

/-! ## Workers that run the same operations -/

/-- What the workers have in common with the config of the run. -/
def Cloned (config : Config) (ws : List Config) : Prop :=
  ∀ w ∈ ws, w.workload = config.workload ∧ w.io_rate = config.io_rate

theorem run_none (h : Cloned config ws)
    (hnone : weighted_index (config.workload.map (·.weight)) = none) : ws.filterMap run = [] := by
  rw [List.filterMap_eq_nil_iff]
  intro w hw
  unfold run
  rw [(h w hw).1, hnone]
  rfl

theorem run_some (h : Cloned config ws) {chooser : Nat → Bool}
    (hsome : weighted_index (config.workload.map (·.weight)) = some chooser) :
    ws.filterMap run = ws.map (WorkerRun.new · chooser) := by
  rw [← List.filterMap_eq_map]
  refine List.filterMap_congr fun w hw => ?_
  unfold run
  rw [(h w hw).1, hsome]
  rfl

/-- What can run of an operation at once. -/
theorem limit_kept_iff (h : Cloned config ws) {op : Nat} {wo : WeightedOp} {limit : U64}
    (hop : config.workload[op]? = some wo) (hlimit : wo.concurrency = some limit) :
    (∀ events ps, (fleet (shapes ws)).run ((shapes ws).map .start) events = some ps →
      runningAnywhere ps op ≤ limit.toNat) ↔
    ((weighted_index (config.workload.map (·.weight))).isSome → wo.weight ≠ 0 →
      ((ws.map (·.concurrency.toNat)).map (min limit.toNat)).sum ≤ limit.toNat) := by
  have hlt : op < config.workload.length := (List.getElem?_eq_some_iff.mp hop).1
  cases hchooser : weighted_index (config.workload.map (·.weight)) with
  | none =>
    rw [shapes, run_none h hchooser]
    refine iff_of_true ?_ nofun
    have hnone : ∀ s ∈ ([] : List Shape), op < s.limits.length := nofun
    exact (always_within_iff hnone _).mpr (Nat.zero_le _)
  | some chooser =>
    have hshapes : shapes ws = ws.map fun w => (WorkerRun.new w chooser).shape := by
      rw [shapes, run_some h hchooser, List.map_map]
      rfl
    have hlimits : ∀ s ∈ shapes ws, op < s.limits.length := by
      intro s hs
      rw [hshapes] at hs
      obtain ⟨w, hw, rfl⟩ := List.mem_map.mp hs
      show op < (w.workload.map (op_semaphore w)).length
      rw [List.length_map, (h w hw).1]
      exact hlt
    rw [always_within_iff hlimits, hshapes, List.map_map, List.map_map]
    have hweight : chooser op = true ↔ wo.weight ≠ 0 := by
      unfold weighted_index at hchooser
      dsimp only at hchooser
      split at hchooser
      · cases hchooser
      · cases hchooser
        simp [hop]
    by_cases hchosen : chooser op = true
    · have hmost : ∀ w ∈ ws, (WorkerRun.new w chooser).shape.most op =
          min limit.toNat w.concurrency.toNat := fun w hw =>
        most_of_limit ((h w hw).1.symm ▸ hop) hlimit hchosen
      have hsum := congrArg List.sum (List.map_congr_left hmost)
      refine Iff.trans (iff_of_eq (congrArg (· ≤ limit.toNat) hsum)) ?_
      constructor
      · exact fun hle _ _ => hle
      · exact fun hle => hle rfl (hweight.mp hchosen)
    · refine iff_of_true ?_ (fun _ hne => absurd (hweight.mpr hne) hchosen)
      refine le_trans (Nat.le_of_eq (List.sum_eq_zero fun x hx => ?_)) (Nat.zero_le _)
      obtain ⟨w, _, rfl⟩ := List.mem_map.mp hx
      exact if_neg hchosen

/-- Each worker aims at the whole target. -/
theorem rate_kept_iff (h : Cloned config ws) (hpos : ∀ w ∈ ws, 0 < w.concurrency.toNat)
    {io_rate : IoRateConfig} {iops : U64} (hrate : config.io_rate = some io_rate)
    (hiops : io_rate.iops = .Fixed iops) :
    ((ws.filterMap run).map (·.aimed_rate)).sum ≤ (iops.toNat : ℚ) ↔
    ((weighted_index (config.workload.map (·.weight))).isSome →
      ws.length * iops.toNat ≤ iops.toNat) := by
  cases hchooser : weighted_index (config.workload.map (·.weight)) with
  | none =>
    rw [run_none h hchooser]
    refine iff_of_true ?_ nofun
    exact Nat.cast_nonneg _
  | some chooser =>
    rw [run_some h hchooser, List.map_map]
    have haimed : ∀ w ∈ ws, (WorkerRun.new w chooser).aimed_rate = iops.toNat := fun w hw =>
      aimed_rate_fixed (hpos w hw) ((h w hw).2.trans hrate) hiops
    have hsum : (ws.map fun w => (WorkerRun.new w chooser).aimed_rate).sum =
        ws.length * iops.toNat := by
      rw [List.map_congr_left haimed, List.map_const', List.sum_replicate, nsmul_eq_mul]
    refine Iff.trans (iff_of_eq (congrArg (· ≤ (iops.toNat : ℚ)) hsum)) ?_
    constructor
    · exact fun hle _ => by exact_mod_cast hle
    · exact fun hle => by exact_mod_cast hle rfl

theorem toNat_zero_iff {x : U64} : x.toNat = 0 ↔ x = 0 := by
  rw [← BitVec.toNat_inj]
  rfl

/-- A whole target for each of some workers is one target only when there is one. -/
theorem targets_le_iff {n c : Nat} (hn : n ≤ c) (hmany : c ≤ 1 ∨ 2 ≤ n) (iops : U64) :
    n * iops.toNat ≤ iops.toNat ↔ iops = 0 ∨ c ≤ 1 := by
  rw [← toNat_zero_iff]
  constructor
  · intro hle
    rcases hmany with hone | htwo
    · exact .inr hone
    · have := Nat.mul_le_mul_right iops.toNat htwo
      exact .inl (by omega)
  · rintro (hzero | hone)
    · rw [hzero, Nat.mul_zero]
    · have := Nat.mul_le_mul_right iops.toNat (le_trans hn hone)
      omega

/-- Copies that share out the threads conserve the limits that no copy uses. -/
theorem conserved_iff (h : Cloned config ws) (hpos : ∀ w ∈ ws, 0 < w.concurrency.toNat)
    (hsum : (ws.map (·.concurrency.toNat)).sum = config.concurrency.toNat)
    (hmany : config.concurrency.toNat ≤ 1 ∨ 2 ≤ ws.length) :
    Conserved config ws ↔
      (∀ wo ∈ config.workload, ∀ limit, wo.concurrency = some limit →
        (weighted_index (config.workload.map (·.weight))).isSome → wo.weight ≠ 0 →
          limit = 0 ∨ config.concurrency.toNat ≤ limit.toNat) ∧
      ∀ io_rate iops, config.io_rate = some io_rate → io_rate.iops = .Fixed iops →
        (weighted_index (config.workload.map (·.weight))).isSome →
          iops = 0 ∨ config.concurrency.toNat ≤ 1 := by
  have hpos' : ∀ x ∈ ws.map (·.concurrency.toNat), 0 < x := by
    intro x hx
    obtain ⟨w, hw, rfl⟩ := List.mem_map.mp hx
    exact hpos w hw
  have hlength : ws.length ≤ config.concurrency.toNat := by
    have hle := List.length_le_sum_of_one_le _ hpos'
    rwa [List.length_map, hsum] at hle
  have hlimit : ∀ limit : U64,
      ((ws.map (·.concurrency.toNat)).map (min limit.toNat)).sum ≤ limit.toNat ↔
        limit = 0 ∨ config.concurrency.toNat ≤ limit.toNat := by
    intro limit
    rw [sum_min_le_iff hpos' (by rw [hsum, List.length_map]; exact hmany), hsum,
      toNat_zero_iff]
  have hrate := targets_le_iff hlength hmany
  constructor
  · intro hc
    constructor
    · intro wo hwo limit hconc hvalid hweight
      obtain ⟨op, hop⟩ := List.getElem?_of_mem hwo
      exact (hlimit limit).mp ((limit_kept_iff h hop hconc).mp (hc.limits op wo limit hop hconc)
        hvalid hweight)
    · intro io_rate iops hio hiops hvalid
      exact (hrate iops).mp ((rate_kept_iff h hpos hio hiops).mp (hc.rate io_rate iops hio hiops)
        hvalid)
  · rintro ⟨hlimits, hrates⟩
    refine ⟨hsum, fun op wo limit hop hconc => ?_, fun io_rate iops hio hiops => ?_⟩
    · refine (limit_kept_iff h hop hconc).mpr fun hvalid hweight => (hlimit limit).mpr ?_
      exact hlimits wo (List.mem_of_getElem? hop) limit hconc hvalid hweight
    · refine (rate_kept_iff h hpos hio hiops).mpr fun hvalid => (hrate iops).mpr ?_
      exact hrates io_rate iops hio hiops hvalid

/-! ## The threads of the runtimes -/

section Runtimes

variable {c n id : Nat}

theorem worker_concurrency_le (hn : 1 ≤ n) : worker_concurrency c n id ≤ c := by
  have hsplit := Nat.div_add_mod c n
  have hle := Nat.le_mul_of_pos_left (c / n) hn
  unfold worker_concurrency
  dsimp only
  split
  · omega
  · omega

theorem sum_worker_concurrency_range (k : Nat) :
    ((List.range k).map (worker_concurrency c n)).sum = k * (c / n) + min k (c % n) := by
  induction k with
  | zero => simp
  | succ k ih =>
    rw [List.range_succ, List.map_append, List.sum_append, ih, Nat.succ_mul, List.map_singleton,
      List.sum_singleton]
    unfold worker_concurrency
    dsimp only
    split
    · omega
    · omega

/-- The threads are all given out. -/
theorem sum_worker_concurrency (hn : 1 ≤ n) :
    ((List.range n).map (worker_concurrency c n)).sum = c := by
  rw [sum_worker_concurrency_range, Nat.min_eq_right (Nat.le_of_lt (Nat.mod_lt c hn)),
    Nat.div_add_mod]

theorem worker_concurrency_pos (hn : 1 ≤ n) (hc : id < c) :
    0 < worker_concurrency c n id := by
  unfold worker_concurrency
  dsimp only
  split
  · exact Nat.succ_pos _
  · rename_i hrest
    -- with no thread for all, the first get one each
    refine Nat.div_pos (Nat.le_of_not_lt fun hless => hrest ?_) hn
    rw [Nat.mod_eq_of_lt hless]
    exact hc

theorem sum_filter_pos (xs : List Nat) : (xs.filter (0 < ·)).sum = xs.sum := by
  induction xs with
  | nil => rfl
  | cons x xs ih =>
    rw [List.filter_cons]
    split
    · rw [List.sum_cons, List.sum_cons, ih]
    · rename_i hx
      have hzero : x = 0 := by simpa using hx
      rw [List.sum_cons, ih, hzero, Nat.zero_add]

/-- The threads of the runtimes that are not skipped. -/
theorem runtime_threads (config : Config) (hn : 2 ≤ n) :
    (run_multiruntime config n).map (·.concurrency.toNat) =
      ((List.range n).map (worker_concurrency config.concurrency.toNat n)).filter (0 < ·) := by
  unfold run_multiruntime
  rw [if_neg (by omega)]
  induction List.range n with
  | nil => rfl
  | cons id ids ih =>
    have hfits : worker_concurrency config.concurrency.toNat n id < 2 ^ 64 :=
      Nat.lt_of_le_of_lt (worker_concurrency_le (by omega)) config.concurrency.isLt
    rw [List.filterMap_cons, List.map_cons, List.filter_cons]
    by_cases hzero : worker_concurrency config.concurrency.toNat n id = 0
    · simp only [hzero, if_pos, Nat.lt_irrefl, decide_false, Bool.false_eq_true, if_false]
      exact ih
    · have hpos := Nat.pos_of_ne_zero hzero
      simp only [hzero, if_false, hpos, decide_true, if_true, List.map_cons, BitVec.toNat_ofNat,
        Nat.mod_eq_of_lt hfits]
      exact congrArg _ ih

theorem runtimes_cloned : Cloned config (run_multiruntime config n) := by
  intro w hw
  unfold run_multiruntime at hw
  split at hw
  · rw [List.mem_singleton.mp hw]
    exact ⟨rfl, rfl⟩
  · obtain ⟨id, _, hsome⟩ := List.mem_filterMap.mp hw
    dsimp only at hsome
    split at hsome
    · cases hsome
    · cases hsome
      exact ⟨rfl, rfl⟩

/-- Two threads are enough for two runtimes. -/
theorem two_runtimes (hn : 2 ≤ n) (hc : 2 ≤ config.concurrency.toNat) :
    2 ≤ (run_multiruntime config n).length := by
  have hfirst : (List.range 2).map (worker_concurrency config.concurrency.toNat n) =
      ((List.range 2).map (worker_concurrency config.concurrency.toNat n)).filter (0 < ·) := by
    refine (List.filter_eq_self.mpr fun x hx => ?_).symm
    obtain ⟨id, hid, rfl⟩ := List.mem_map.mp hx
    have hlt := List.mem_range.mp hid
    exact decide_eq_true (worker_concurrency_pos (by omega) (by omega))
  have hsub := ((List.range_sublist.mpr hn).map
    (worker_concurrency config.concurrency.toNat n)).filter (decide <| 0 < ·)
  rw [← hfirst, ← runtime_threads config hn] at hsub
  simpa using hsub.length_le

end Runtimes

/-! ## The threads of the processes -/

section Processes

variable {c n : Nat}

/-- Rounding up loses nothing only when there is nothing to round. -/
theorem mul_div_ceil_iff (hn : 1 ≤ n) : n * ((c + n - 1) / n) = c ↔ n ∣ c := by
  constructor
  · exact fun h => ⟨_, h.symm⟩
  · rintro ⟨k, rfl⟩
    rw [show n * k + n - 1 = n * k + (n - 1) by omega, Nat.mul_add_div hn,
      Nat.div_eq_of_lt (by omega), Nat.add_zero]

theorem div_ceil_le (hc : 1 ≤ c) (hn : 1 ≤ n) : (c + n - 1) / n ≤ c := by
  apply Nat.div_le_of_le_mul
  rw [Nat.add_comm]
  exact Nat.add_sub_one_le_mul (by omega) (by omega)

theorem toOption_eq_some {ε α : Type} {x : Except ε α} {a : α} :
    x.toOption = some a ↔ x = .ok a := by
  cases x with
  | error e => exact iff_of_false nofun nofun
  | ok b =>
    constructor
    · exact fun h => congrArg Except.ok (Option.some.inj h)
    · exact fun h => congrArg some (Except.ok.inj h)

/-- Which configs a child can read. -/
theorem child_reads (lib : Libraries) (config : Config) (threads : U64) :
    (∃ w, run_internal_worker lib
        ((Config.codec lib.json).serialize (child_config config threads)) = some w) ↔
      config.io_rate = none ∧ ∀ x ∈ config.floats, ∃ negative exponent mantissa,
        x = .finite negative exponent mantissa := by
  have hfloat : ∀ x, lib.json.f64.Reads x ↔ ∃ negative exponent mantissa,
      x = F64.finite negative exponent mantissa := by
    intro x
    cases x with
    | nan => exact iff_of_false (fun ⟨_, h⟩ => nomatch h) (fun ⟨_, _, _, h⟩ => nomatch h)
    | infinite negative =>
      exact iff_of_false (fun ⟨_, h⟩ => nomatch h) (fun ⟨_, _, _, h⟩ => nomatch h)
    | finite negative exponent mantissa => exact iff_of_true ⟨_, rfl⟩ ⟨_, _, _, rfl⟩
  have hreads := config_reads (w := lib.json) (child_config config threads)
  simp only [hfloat] at hreads
  refine Iff.trans ?_ (hreads.trans ⟨fun h => ⟨h.1, h.2.2⟩, fun h => ⟨h.1, nofun, h.2⟩⟩)
  unfold run_internal_worker
  constructor
  · rintro ⟨w, hw⟩
    exact ⟨w, toOption_eq_some.mp hw⟩
  · rintro ⟨w, hw⟩
    exact ⟨w, toOption_eq_some.mpr hw⟩

/-- The children have the same number of threads, or none of them runs. -/
theorem processes_eq (lib : Libraries) (hn : 2 ≤ process_count config cores) :
    run_multiprocess lib config cores = [] ∧
      ¬(config.io_rate = none ∧ ∀ x ∈ config.floats, ∃ negative exponent mantissa,
        x = .finite negative exponent mantissa) ∨
    ∃ w, run_multiprocess lib config cores = List.replicate (process_count config cores) w ∧
      config.io_rate = none ∧ (∀ x ∈ config.floats, ∃ negative exponent mantissa,
        x = .finite negative exponent mantissa) ∧
      w.concurrency = BitVec.ofNat 64 ((config.concurrency.toNat + process_count config cores - 1) /
        process_count config cores) ∧ w.workload = config.workload ∧ w.io_rate = none := by
  unfold run_multiprocess child_configs
  dsimp only
  rw [if_neg (by omega), if_neg (by omega), List.filterMap_replicate]
  have hiff := child_reads lib config (BitVec.ofNat 64
    ((config.concurrency.toNat + process_count config cores - 1) / process_count config cores))
  split
  · rename_i hnone
    refine .inl ⟨rfl, fun hread => ?_⟩
    obtain ⟨w, hw⟩ := hiff.mpr hread
    rw [hnone] at hw
    cases hw
  · rename_i w hw
    obtain ⟨hrate, hfloats⟩ := hiff.mp ⟨w, hw⟩
    obtain ⟨hconcurrency, hworkload, hnone⟩ := config_trip (toOption_eq_some.mp hw)
    exact .inr ⟨w, rfl, hrate, hfloats, hconcurrency, hworkload, hnone⟩

end Processes

theorem toNat_of_le {x : U64} {k : Nat} (h : k ≤ x.toNat) : (BitVec.ofNat 64 k).toNat = k := by
  rw [BitVec.toNat_ofNat, Nat.mod_eq_of_lt (Nat.lt_of_le_of_lt h x.isLt)]

/-! ## Which limits survive -/

theorem single_conserved (h : 1 ≤ config.concurrency.toNat) : Conserved config [config] := by
  have hcloned : Cloned config [config] := by
    intro w hw
    rw [List.mem_singleton.mp hw]
    exact ⟨rfl, rfl⟩
  refine ⟨List.sum_singleton, fun op wo limit hop hlimit => ?_, fun io_rate iops hrate hiops => ?_⟩
  · refine (limit_kept_iff hcloned hop hlimit).mpr fun _ _ => ?_
    exact Nat.le_trans (Nat.le_of_eq List.sum_singleton) (Nat.min_le_left _ _)
  · refine (rate_kept_iff hcloned (fun w hw => ?_) hrate hiops).mpr fun _ => ?_
    · rw [List.mem_singleton.mp hw]
      exact h
    · exact Nat.le_of_eq (Nat.one_mul _)

theorem runtimes_conserved_iff {n : Nat} (hn : 2 ≤ n) (h : config.processing_mode = .MultiRuntime)
    (hcount : process_count config cores = n) :
    Conserved config (run_multiruntime config n) ↔ Divides config cores := by
  have hthreads := runtime_threads config hn
  have hsum : ((run_multiruntime config n).map (·.concurrency.toNat)).sum =
      config.concurrency.toNat := by
    rw [hthreads, sum_filter_pos, sum_worker_concurrency (by omega)]
  have hpos : ∀ w ∈ run_multiruntime config n, 0 < w.concurrency.toNat := by
    intro w hw
    have hmem := List.mem_map_of_mem (f := (·.concurrency.toNat)) hw
    rw [hthreads] at hmem
    exact of_decide_eq_true (List.mem_filter.mp hmem).2
  have hmany : config.concurrency.toNat ≤ 1 ∨ 2 ≤ (run_multiruntime config n).length :=
    (Nat.lt_or_ge 1 _).symm.imp id fun hc => two_runtimes hn hc
  rw [conserved_iff runtimes_cloned hpos hsum hmany]
  constructor
  · rintro ⟨hlimits, hrates⟩
    refine ⟨fun hmode => ?_, hlimits, hrates⟩
    rw [h] at hmode
    cases hmode
  · exact fun hd => ⟨hd.limits, hd.rate⟩

theorem processes_conserved_iff (hn : 2 ≤ process_count config cores)
    (hc : 1 ≤ config.concurrency.toNat) (h : config.processing_mode = .MultiProcess) :
    Conserved config (run_multiprocess lib config cores) ↔ Divides config cores := by
  rcases processes_eq lib hn with ⟨hnil, hread⟩ | ⟨w, hw, hread⟩
  · rw [hnil]
    refine iff_of_false (fun hcons => ?_) fun hd => hread (hd.threads h).2
    have hzero : 0 = config.concurrency.toNat := hcons.concurrency
    omega
  obtain ⟨hnone, hfloats, hthreads, hworkload, hrate⟩ := hread
  rw [hw]
  have htoNat : w.concurrency.toNat =
      (config.concurrency.toNat + process_count config cores - 1) / process_count config cores := by
    rw [hthreads, toNat_of_le (div_ceil_le hc (by omega))]
  have hsum : ((List.replicate (process_count config cores) w).map (·.concurrency.toNat)).sum =
      config.concurrency.toNat ↔ process_count config cores ∣ config.concurrency.toNat := by
    rw [List.map_replicate, List.sum_replicate, nsmul_eq_mul, Nat.cast_id, htoNat, mul_div_ceil_iff (by omega)]
  by_cases hdvd : process_count config cores ∣ config.concurrency.toNat
  · have hcloned : Cloned config (List.replicate (process_count config cores) w) := by
      intro w' hw'
      rw [(List.mem_replicate.mp hw').2]
      exact ⟨hworkload, hrate.trans hnone.symm⟩
    have hpos : ∀ w' ∈ List.replicate (process_count config cores) w, 0 < w'.concurrency.toNat := by
      intro w' hw'
      rw [(List.mem_replicate.mp hw').2, htoNat]
      exact Nat.div_pos (by omega) (by omega)
    rw [conserved_iff hcloned hpos (hsum.mpr hdvd) (.inr (by rw [List.length_replicate]; exact hn))]
    constructor
    · rintro ⟨hlimits, hrates⟩
      exact ⟨fun _ => ⟨hdvd, hnone, hfloats⟩, hlimits, hrates⟩
    · exact fun hd => ⟨hd.limits, hd.rate⟩
  · refine iff_of_false (fun hcons => hdvd (hsum.mp hcons.concurrency)) ?_
    exact fun hd => hdvd (hd.threads h).1

def pairedRun : Config :=
  { concurrency := 4
    workload := [{ weight := 1, spec := .Get "data/*" }]
    processes := some (.Manual 2) }

/-- One `GET` at a time. -/
def oneAtATime : Config :=
  { concurrency := 4
    workload := [{ weight := 1, concurrency := some 1, spec := .Get "data/*" }]
    processes := some (.Manual 2) }

end sai3_bench.scaling
