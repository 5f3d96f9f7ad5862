-- The rate of a run (rate_controller.rs): all workers wait at one controller, which counts
-- with the interval of a single worker.
import Mathlib.Algebra.Order.Floor.Semifield
import Mathlib.Data.Rat.Floor
import Mathlib.Tactic.FieldSimp
import Mathlib.Tactic.Linarith
import Mathlib.Tactic.NormNum
import Sai3Bench.RunSettings

namespace sai3_bench.rate_controller

open config.written

/-! ## The controller -/

/-- A timer that ticks with a period in microseconds. -/
structure Interval where
  period : Nat
  ticks : Nat := 0

/-- The samples of the exponential distribution come with the calls. -/
structure RateController where
  config : IoRateConfig
  inter_arrival_micros : ℚ
  uniform_interval : Option Interval
  ops_issued : Nat := 0

/-- What a worker brings when it waits: the time since the start, and a sample. -/
structure Call where
  worker : Nat
  elapsed : Nat := 0
  sample : ℚ := 0

/-- The time at which the operation is to start, if there is one, and how long the worker
sleeps, if it does not wait for a tick. All times are in microseconds. -/
structure Wait where
  scheduled : Option ℚ := none
  delay : Option Nat := none

namespace RateController

def inter_arrival (iops : IopsTarget) (workers : Nat) : ℚ :=
  match iops with
  | .Max => 0
  | .Fixed iops =>
    let ops_per_worker_per_sec := (iops.toNat : ℚ) / workers
    1000000 / ops_per_worker_per_sec

def new (config : IoRateConfig) (workers : Nat) : RateController :=
  let inter_arrival_micros := inter_arrival config.iops workers
  { config := config
    inter_arrival_micros := inter_arrival_micros
    uniform_interval :=
      if config.distribution = .Uniform ∧ 0 < inter_arrival_micros then
        some { period := ⌊inter_arrival_micros⌋₊ }
      else none }

/-- `tick_at` is the time of a tick of a timer with some period. -/
def wait_for_next (tick_at : Nat → Nat → Nat) (controller : RateController) (call : Call) :
    Wait × RateController :=
  if controller.inter_arrival_micros = 0 then ({}, controller)
  else match controller.config.distribution with
    | .Exponential => ({ delay := some ⌊call.sample⌋₊ }, controller)
    | .Uniform => match controller.uniform_interval with
      | none => ({}, controller)
      | some interval =>
        ({ scheduled := some (tick_at interval.period interval.ticks) },
          { controller with
            uniform_interval := some { interval with ticks := interval.ticks + 1 } })
    | .Deterministic =>
      let target_time_micros := controller.ops_issued * controller.inter_arrival_micros
      ({ scheduled := some target_time_micros
         delay := some ⌊target_time_micros - call.elapsed⌋₊ },
        { controller with ops_issued := controller.ops_issued + 1 })

/-- The calls of all workers, in the order in which they come to the controller. -/
def waits (tick_at : Nat → Nat → Nat) : RateController → List Call → List Wait
  | _, [] => []
  | controller, call :: calls =>
    let (wait, controller) := wait_for_next tick_at controller call
    wait :: waits tick_at controller calls

end RateController

open RateController

/-! ## The properties -/

/-- The period itself, or a whole number less than one microsecond from it. -/
def RoundedPeriod (exact period : ℚ) : Prop :=
  period = exact ∨ (∃ m : Nat, period = m) ∧ |period - exact| < 1

/-- Call `k` is scheduled for the `k`-th of the periods of the whole rate. -/
def OnTarget (iops : Nat) (waits : List Wait) : Prop :=
  ∃ period, RoundedPeriod (1000000 / iops) period ∧
    ∀ (k : Nat) wait, waits[k]? = some wait → wait.scheduled = some (k * period)

/-- The period of the controller. -/
def pace (distribution : ArrivalDistribution) (iops workers : Nat) : ℚ :=
  if distribution = .Uniform then ((workers * 1000000 / iops : Nat) : ℚ)
  else workers * 1000000 / iops

/-- The controller schedules its next call for the `k`-th of its periods. -/
structure Paced (period : ℚ) (k : Nat) (controller : RateController) : Prop where
  limited : controller.inter_arrival_micros ≠ 0
  uniform : controller.config.distribution = .Uniform →
    ∃ p : Nat, controller.uniform_interval = some ⟨p, k⟩ ∧ period = p
  deterministic : controller.config.distribution = .Deterministic →
    controller.inter_arrival_micros = period ∧ controller.ops_issued = k
  scheduled : controller.config.distribution ≠ .Exponential

/-! ## The period of a run -/

section

variable {tick_at : Nat → Nat → Nat} {controller : RateController} {period : ℚ} {k : Nat}

theorem wait_paced (htick : ∀ p k, tick_at p k = k * p) (h : Paced period k controller)
    (call : Call) :
    (wait_for_next tick_at controller call).1.scheduled = some (k * period) ∧
      Paced period (k + 1) (wait_for_next tick_at controller call).2 := by
  unfold wait_for_next
  rw [if_neg h.limited]
  cases hd : controller.config.distribution with
  | Exponential => exact absurd hd h.scheduled
  | Uniform =>
    obtain ⟨p, hp, rfl⟩ := h.uniform hd
    simp only [hp, htick]
    refine ⟨by push_cast; rfl, h.limited, ?_, ?_, h.scheduled⟩
    · intro _
      exact ⟨p, rfl, rfl⟩
    · intro hdet
      rw [hd] at hdet
      cases hdet
  | Deterministic =>
    obtain ⟨hinter, hops⟩ := h.deterministic hd
    simp only [hops]
    refine ⟨by rw [hinter], h.limited, ?_, ?_, h.scheduled⟩
    · intro huni
      rw [hd] at huni
      cases huni
    · intro _
      exact ⟨hinter, rfl⟩

theorem waits_paced (htick : ∀ p k, tick_at p k = k * p) (h : Paced period k controller)
    {calls : List Call} {j : Nat} {wait : Wait}
    (hj : (waits tick_at controller calls)[j]? = some wait) :
    wait.scheduled = some ((k + j : Nat) * period) := by
  induction calls generalizing controller k j with
  | nil => cases hj
  | cons call calls ih =>
    obtain ⟨hfirst, hnext⟩ := wait_paced htick h call
    cases j with
    | zero =>
      cases hj
      exact hfirst
    | succ j =>
      have hlater := ih hnext hj
      rw [hlater]
      congr 3
      omega

theorem length_waits (controller : RateController) (calls : List Call) :
    (waits tick_at controller calls).length = calls.length := by
  induction calls generalizing controller with
  | nil => rfl
  | cons call calls ih => exact congrArg (· + 1) (ih _)

theorem inter_arrival_fixed (iops : U64) (workers : Nat) :
    inter_arrival (.Fixed iops) workers = workers * 1000000 / iops.toNat := by
  unfold inter_arrival
  dsimp only
  rw [div_div_eq_mul_div, mul_comm]

theorem new_paced {distribution : ArrivalDistribution} {iops : U64} {workers : Nat}
    (hd : distribution ≠ .Exponential) (hw : 1 ≤ workers) (hn : 1 ≤ iops.toNat) :
    Paced (pace distribution iops.toNat workers) 0
      (.new ⟨.Fixed iops, distribution⟩ workers) := by
  have hpos : (0 : ℚ) < workers * 1000000 / iops.toNat := by
    have hw' : (0 : ℚ) < workers := by exact_mod_cast hw
    have hn' : (0 : ℚ) < iops.toNat := by exact_mod_cast hn
    positivity
  refine ⟨?_, ?_, ?_, hd⟩
  · simp only [new, inter_arrival_fixed]
    exact ne_of_gt hpos
  · intro huni
    simp only [new] at huni
    subst huni
    refine ⟨workers * 1000000 / iops.toNat, ?_, rfl⟩
    simp only [new, inter_arrival_fixed, hpos, and_self, if_true]
    rw [← Nat.floor_div_eq_div (K := ℚ)]
    push_cast
    rfl
  · intro hdet
    simp only [new] at hdet
    subst hdet
    exact ⟨inter_arrival_fixed iops workers, rfl⟩

end

/-! ## One period against that of the whole rate -/

theorem near_exact_iff {m n : Nat} (hn : 1 ≤ n) :
    |(m : ℚ) - 1000000 / n| < 1 ↔ m * n < 1000000 + n ∧ 1000000 < m * n + n := by
  have hpos : (0 : ℚ) < n := by exact_mod_cast hn
  have hupper : (m : ℚ) - 1000000 / n < 1 ↔ m * n < 1000000 + n := by
    rw [sub_lt_iff_lt_add, ← mul_lt_mul_iff_left₀ hpos, add_mul, one_mul,
      div_mul_cancel₀ _ (ne_of_gt hpos), add_comm]
    norm_cast
  have hlower : 1000000 / (n : ℚ) - m < 1 ↔ 1000000 < m * n + n := by
    rw [sub_lt_iff_lt_add, ← mul_lt_mul_iff_left₀ hpos, add_mul, one_mul,
      div_mul_cancel₀ _ (ne_of_gt hpos), add_comm]
    norm_cast
  rw [abs_sub_lt_iff, hupper, hlower]

theorem exact_iff {m n : Nat} (hn : 1 ≤ n) :
    (m : ℚ) = 1000000 / n ↔ m * n = 1000000 := by
  have hpos : (n : ℚ) ≠ 0 := by
    have : n ≠ 0 := by omega
    exact_mod_cast this
  rw [eq_div_iff hpos]
  norm_cast

/-- The exact period of a worker is that of the whole rate only for one worker. -/
theorem rounded_worker_iff {w n : Nat} (hw : 1 ≤ w) (hn : 1 ≤ n) (hmax : n ≤ 1000000) :
    RoundedPeriod (1000000 / n) (w * 1000000 / n) ↔ w = 1 := by
  have hpos : (0 : ℚ) < n := by exact_mod_cast hn
  have hone : (1 : ℚ) ≤ 1000000 / n := by
    rw [le_div_iff₀ hpos, one_mul]
    exact_mod_cast hmax
  rw [mul_div_assoc]
  constructor
  · intro h
    by_contra hne
    have hw2 : (2 : ℚ) ≤ w := by
      have : 2 ≤ w := by omega
      exact_mod_cast this
    -- The period of two workers or more is at least a microsecond too long.
    have hlong : 2 * (1000000 / (n : ℚ)) ≤ w * (1000000 / n) :=
      mul_le_mul_of_nonneg_right hw2 (by linarith)
    rcases h with h | ⟨-, h⟩
    · linarith
    · have := (abs_sub_lt_iff.mp h).1
      linarith
  · rintro rfl
    exact Or.inl (by norm_num)

/-- A period of `m` microseconds, cut from that of `w` workers, is near that of the rate. -/
theorem cut_period_iff {w n m : Nat} (hw : 1 ≤ w) (hmax : n ≤ 1000000)
    (hle : m * n ≤ w * 1000000) (hlt : w * 1000000 < m * n + n) :
    m * n = 1000000 ∨ m * n < 1000000 + n ∧ 1000000 < m * n + n ↔
      w = 1 ∨ w = 2 ∧ 666667 ≤ n ∧ n ≤ 999999 := by
  constructor
  · intro h
    by_cases hw1 : w = 1
    · exact Or.inl hw1
    · right
      have hw2 : w = 2 := by omega
      subst hw2
      have hm2 : m ≤ 2 := by
        by_contra hm3
        have := Nat.mul_le_mul_right n (Nat.lt_of_not_le hm3)
        omega
      have hle2 := Nat.mul_le_mul_right n hm2
      refine ⟨rfl, by omega, ?_⟩
      by_contra hlast
      have hn' : n = 1000000 := by omega
      subst hn'
      omega
  · rintro (rfl | ⟨rfl, hlow, hhigh⟩)
    · right
      omega
    · right
      have hm2 : m = 2 := by
        by_contra hne
        rcases Nat.lt_or_gt_of_ne hne with hlt2 | hgt
        · have := Nat.mul_le_mul_right n (Nat.le_of_lt_succ hlt2)
          omega
        · have := Nat.mul_le_mul_right n hgt
          omega
      subst hm2
      omega

/-- Cut to whole microseconds, two workers may come as close as rounding does. -/
theorem rounded_uniform_iff {w n : Nat} (hw : 1 ≤ w) (hn : 1 ≤ n) (hmax : n ≤ 1000000) :
    RoundedPeriod (1000000 / n) ((w * 1000000 / n : Nat) : ℚ) ↔
      w = 1 ∨ (w = 2 ∧ 666667 ≤ n ∧ n ≤ 999999) := by
  have hle : w * 1000000 / n * n ≤ w * 1000000 := Nat.div_mul_le_self _ _
  have hlt : w * 1000000 < w * 1000000 / n * n + n := by
    have := Nat.lt_div_mul_add (a := w * 1000000) hn
    omega
  have hwhole : ∃ m : Nat, ((w * 1000000 / n : Nat) : ℚ) = m := ⟨_, rfl⟩
  unfold RoundedPeriod
  rw [near_exact_iff hn, exact_iff hn, and_iff_right hwhole]
  exact cut_period_iff hw hmax hle hlt

/-- A run is on target when its period is, or when it has no second call. -/
theorem on_target_iff_rounded {tick_at : Nat → Nat → Nat} (htick : ∀ p k, tick_at p k = k * p)
    {controller : RateController} {period : ℚ} (h : Paced period 0 controller) (iops : Nat)
    (calls : List Call) :
    OnTarget iops (waits tick_at controller calls) ↔
      calls.length ≤ 1 ∨ RoundedPeriod (1000000 / iops) period := by
  constructor
  · rintro ⟨p, hp, hall⟩
    by_cases hshort : calls.length ≤ 1
    · exact Or.inl hshort
    · right
      have hsecond : 1 < (waits tick_at controller calls).length := by
        rw [length_waits]
        omega
      have hget := List.getElem?_eq_getElem hsecond
      have hsame := (hall 1 _ hget).symm.trans (waits_paced htick h hget)
      simp only [Nat.zero_add, Nat.cast_one, one_mul, Option.some.injEq] at hsame
      rwa [← hsame]
  · rintro (hshort | hp)
    · refine ⟨1000000 / iops, Or.inl rfl, ?_⟩
      intro k wait hk
      obtain ⟨hlt, -⟩ := List.getElem?_eq_some_iff.mp hk
      rw [length_waits] at hlt
      have hzero : k = 0 := by omega
      subst hzero
      rw [waits_paced htick h hk]
      simp
    · refine ⟨period, hp, ?_⟩
      intro k wait hk
      rw [waits_paced htick h hk, Nat.zero_add]

/-- For any number of workers, in any order of their calls. -/
theorem on_target_iff (tick_at : Nat → Nat → Nat) (htick : ∀ p k, tick_at p k = k * p)
    (distribution : ArrivalDistribution) (hd : distribution ≠ .Exponential) (workers : Nat)
    (hw : 1 ≤ workers) (iops : U64) (hn : 1 ≤ iops.toNat) (hmax : iops.toNat ≤ 1000000)
    (calls : List Call) :
    OnTarget iops.toNat
        (waits tick_at (.new ⟨.Fixed iops, distribution⟩ workers) calls) ↔
      calls.length ≤ 1 ∨ workers = 1 ∨ (distribution = .Uniform ∧ workers = 2 ∧
        666667 ≤ iops.toNat ∧ iops.toNat ≤ 999999) := by
  rw [on_target_iff_rounded htick (new_paced hd hw hn)]
  apply or_congr_right
  unfold pace
  cases distribution with
  | Exponential => exact absurd rfl hd
  | Uniform =>
    rw [if_pos rfl, rounded_uniform_iff hw hn hmax]
    simp
  | Deterministic =>
    rw [if_neg (by decide), rounded_worker_iff hw hn hmax]
    simp

/-- One worker keeps a thousand operations a second. -/
theorem on_target_one_worker : OnTarget 1000
    (waits (fun p k => k * p) (.new ⟨.Fixed 1000, .Deterministic⟩ 1) [⟨0, 0, 0⟩, ⟨0, 0, 0⟩]) :=
  (on_target_iff (fun p k => k * p) (fun _ _ => rfl) .Deterministic (by decide) 1 (by decide) 1000
    (by decide) (by decide) _).mpr (Or.inr (Or.inl rfl))

/-- Ten workers get a tenth of it. -/
theorem off_target_ten_workers : ¬ ∀ (tick_at : Nat → Nat → Nat)
    (distribution : ArrivalDistribution) (workers : Nat) (iops : U64) (calls : List Call),
    (∀ p k, tick_at p k = k * p) → distribution ≠ .Exponential → 1 ≤ workers →
    1 ≤ iops.toNat → iops.toNat ≤ 1000000 →
    OnTarget iops.toNat
      (waits tick_at (.new ⟨.Fixed iops, distribution⟩ workers) calls) := by
  intro h
  have htick : ∀ p k : Nat, k * p = k * p := fun _ _ => rfl
  have htarget := h (fun p k => k * p) .Deterministic 10 1000 [⟨0, 0, 0⟩, ⟨1, 0, 0⟩] htick
    (by decide) (by decide) (by decide) (by decide)
  have hpaced := @new_paced .Deterministic 1000 10 (by decide) (by decide) (by decide)
  rcases (on_target_iff_rounded htick hpaced _ _).mp htarget with hshort | hrounded
  · revert hshort
    decide
  · have hone := (rounded_worker_iff (by decide) (by decide) (by decide)).mp hrounded
    revert hone
    decide

end sai3_bench.rate_controller
