-- The retries of one operation (workload.rs): how often it is called, which of
-- its failures are counted, and what its caller is told.
import Mathlib.Tactic.IntervalCases
import Sai3Bench.RunSettings

namespace sai3_bench.workload.errors

open serde config config.written

/-! ## Calls -/

/-- What a call of the wrapped operation gives, and the errors that other
operations count while it runs. -/
structure Call (T : Type) where
  result : Except String T
  others : Nat := 0

def Call.Fails {T : Type} (call : Call T) : Prop := ∃ e, call.result = .error e

instance {T : Type} (call : Call T) : Decidable call.Fails :=
  match h : call.result with
  | .ok _ => isFalse fun ⟨_, he⟩ => by cases h.symm.trans he
  | .error e => isTrue ⟨e, h⟩

/-- The errors counted once `n` calls are over, the failed ones among them. -/
def counted {T : Type} (prior : U64) (op_fn : Nat → Call T) : Nat → Nat
  | 0 => prior.toNat
  | n + 1 => counted prior op_fn n + (op_fn n).others + if (op_fn n).Fails then 1 else 0

/-! ## The tracker -/

/-- The counter that all operations share. The times of the recent errors only
decide how long to wait. -/
structure ErrorTracker where
  total_errors : U64
  config : ErrorHandlingConfig

/-- Whether to abort, and the errors so far. Both sums wrap. -/
def ErrorTracker.record_error (t : ErrorTracker) : (Bool × U64) × ErrorTracker :=
  let total := t.total_errors + 1
  ((decide (t.config.max_total_errors ≤ total), total), { t with total_errors := total })

/-- Other operations record their errors too. -/
def ErrorTracker.during {T : Type} (t : ErrorTracker) (call : Call T) : ErrorTracker :=
  { t with total_errors := t.total_errors + BitVec.ofNat 64 call.others }

/-! ## The loops -/

/-- `1..=max_attempts` -/
def attempts (max_attempts : U32) : List Nat := List.range' 1 max_attempts.toNat

/-- What a loop leaves: its result, the calls it made, and the tracker. -/
structure Execution (R : Type) where
  result : R
  calls : Nat
  tracker : ErrorTracker

def aborting (total_errors max_total_errors : U64) : String :=
  "Aborting workload: " ++ toString total_errors.toNat ++
    " total errors exceeded threshold of " ++ toString max_total_errors.toNat

/-- The attempts that are left, after `calls` calls. -/
def execute_attempts {T : Type} (max_attempts : U32) (op_fn : Nat → Call T) :
    List Nat → Nat → ErrorTracker → Execution (Except String (Option T))
  | [], calls, t => ⟨.ok none, calls, t⟩
  | attempt :: rest, calls, t =>
    let call := op_fn calls
    let t := t.during call
    match call.result with
    | .ok result => ⟨.ok (some result), calls + 1, t⟩
    | .error _ =>
      let ((should_abort, total_errors), t) := t.record_error
      if should_abort then
        ⟨.error (aborting total_errors t.config.max_total_errors), calls + 1, t⟩
      else if attempt = max_attempts.toNat then ⟨.ok none, calls + 1, t⟩
      else execute_attempts max_attempts op_fn rest (calls + 1) t

def execute_with_error_handling {T : Type} (error_tracker : ErrorTracker)
    (op_fn : Nat → Call T) : Execution (Except String (Option T)) :=
  let config := error_tracker.config
  -- in a release build the sum wraps
  let max_attempts : U32 := if config.retry_on_error then config.max_retries + 1 else 1
  execute_attempts max_attempts op_fn (attempts max_attempts) 0 error_tracker

structure RetryConfig where
  max_retries : U32
  initial_delay_ms : U64
  max_delay_ms : U64
  backoff_multiplier : F64
  jitter_factor : F64

def RetryConfig.of (cfg : ErrorHandlingConfig) : RetryConfig where
  max_retries := cfg.max_retries
  initial_delay_ms := cfg.initial_retry_delay_ms
  max_delay_ms := cfg.max_retry_delay_ms
  backoff_multiplier := cfg.retry_backoff_multiplier
  jitter_factor := cfg.retry_jitter_factor

inductive RetryResult (T : Type)
  | Success (result : T)
  | Failed (error : String)

/-- The attempts that are left, after `calls` calls, with the last error. -/
def backoff_attempts {T : Type} (max_attempts : U32) (op_fn : Nat → Call T) :
    List Nat → Nat → Option String → RetryResult T × Nat
  | [], calls, last_error => (.Failed (last_error.getD "Unknown error in retry"), calls)
  | _ :: rest, calls, _ =>
    match (op_fn calls).result with
    | .ok result => (.Success result, calls + 1)
    | .error e => backoff_attempts max_attempts op_fn rest (calls + 1) (some e)

/-- The result, and the calls made. -/
def retry_with_backoff {T : Type} (config : RetryConfig) (op_fn : Nat → Call T) :
    RetryResult T × Nat :=
  let max_attempts := config.max_retries + 1
  backoff_attempts max_attempts op_fn (attempts max_attempts) 0 none

/-! ## How the loops end -/

section

variable {T : Type} {config : ErrorHandlingConfig} {prior : U64} {op_fn : Nat → Call T}

/-- What the shared counter shows after `n` calls. -/
def counter (prior : U64) (op_fn : Nat → Call T) (n : Nat) : U64 :=
  BitVec.ofNat 64 (counted prior op_fn n)

theorem counter_zero : counter prior op_fn 0 = prior := by
  simp [counter, counted]

theorem counter_of_lt {n : Nat} (h : counted prior op_fn n < 2 ^ 64) :
    (counter prior op_fn n).toNat = counted prior op_fn n := by
  unfold counter
  rw [BitVec.toNat_ofNat]
  exact Nat.mod_eq_of_lt h

theorem counter_ok {n : Nat} (h : ¬ (op_fn n).Fails) :
    counter prior op_fn (n + 1) = counter prior op_fn n + BitVec.ofNat 64 (op_fn n).others := by
  unfold counter
  rw [counted, if_neg h, Nat.add_zero, BitVec.ofNat_add]

theorem counter_fails {n : Nat} (h : (op_fn n).Fails) :
    counter prior op_fn (n + 1) =
      counter prior op_fn n + BitVec.ofNat 64 (op_fn n).others + 1 := by
  unfold counter
  rw [counted, if_pos h, BitVec.ofNat_add, BitVec.ofNat_add]
  rfl

theorem counted_mono {i j : Nat} (h : i ≤ j) : counted prior op_fn i ≤ counted prior op_fn j := by
  induction h with
  | refl => exact le_rfl
  | step _ ih =>
    rw [counted]
    omega

theorem Call.ok_or_fails (call : Call T) : (∃ v, call.result = .ok v) ∨ call.Fails := by
  cases h : call.result with
  | ok v => exact .inl ⟨v, rfl⟩
  | error e => exact .inr ⟨e, h⟩

theorem Call.not_fails {call : Call T} {v : T} (h : call.result = .ok v) : ¬ call.Fails := by
  rintro ⟨e, he⟩
  rw [h] at he
  cases he

/-- How the call that follows `last` others ends the operation. -/
inductive Ending (config : ErrorHandlingConfig) (prior : U64) (op_fn : Nat → Call T)
    (most last : Nat) : Except String (Option T) → Prop
  | succeeds {v : T} (h : (op_fn last).result = .ok v) : Ending config prior op_fn most last (.ok v)
  | aborts {text : String} (h : (op_fn last).Fails)
      (reached : config.max_total_errors ≤ counter prior op_fn (last + 1)) :
      Ending config prior op_fn most last (.error text)
  | skips (h : (op_fn last).Fails)
      (under : ¬ config.max_total_errors ≤ counter prior op_fn (last + 1))
      (end_of : last + 1 = most) : Ending config prior op_fn most last (.ok none)

/-- Each call before the last one fails below the limit. -/
structure Ends (config : ErrorHandlingConfig) (prior : U64) (op_fn : Nat → Call T)
    (most start : Nat) (run : Execution (Except String (Option T))) (last : Nat) : Prop where
  calls : run.calls = last + 1
  start_le : start ≤ last
  last_lt : last < most
  goes_on : ∀ k, start ≤ k → k < last →
    (op_fn k).Fails ∧ ¬ config.max_total_errors ≤ counter prior op_fn (k + 1)
  total : run.tracker.total_errors = counter prior op_fn run.calls
  ending : Ending config prior op_fn most last run.result

/-- How it ends the retries of `retry_with_backoff`, which know no limit. -/
inductive BackoffEnding (op_fn : Nat → Call T) (most last : Nat) : RetryResult T → Prop
  | succeeds {v : T} (h : (op_fn last).result = .ok v) : BackoffEnding op_fn most last (.Success v)
  | fails {e : String} (h : (op_fn last).Fails) (end_of : last + 1 = most) :
      BackoffEnding op_fn most last (.Failed e)

theorem execute_attempts_ends {max_attempts : U32} (left calls : Nat) (t : ErrorTracker)
    (hleft : 0 < left) (hmost : calls + left = max_attempts.toNat)
    (hconfig : t.config = config) (htotal : t.total_errors = counter prior op_fn calls) :
    ∃ last, Ends config prior op_fn max_attempts.toNat calls
      (execute_attempts max_attempts op_fn (List.range' (calls + 1) left) calls t) last := by
  induction left generalizing calls t with
  | zero => omega
  | succ left ih =>
    rw [List.range'_succ, execute_attempts]
    cases hr : (op_fn calls).result with
    | ok v =>
      refine ⟨calls, rfl, le_rfl, by omega, fun k h1 h2 => by omega, ?_, .succeeds hr⟩
      change t.total_errors + _ = _
      rw [htotal, counter_ok (Call.not_fails hr)]
    | error e =>
      have hfails : (op_fn calls).Fails := ⟨e, hr⟩
      have hnext : ((t.during (op_fn calls)).record_error).2.total_errors =
          counter prior op_fn (calls + 1) := by
        change t.total_errors + _ + 1 = _
        rw [htotal, counter_fails hfails]
      have habort : ((t.during (op_fn calls)).record_error).1.1 =
          decide (config.max_total_errors ≤ counter prior op_fn (calls + 1)) := by
        rw [← hnext, ← hconfig]
        rfl
      simp only [habort, decide_eq_true_eq]
      by_cases hreached : config.max_total_errors ≤ counter prior op_fn (calls + 1)
      · rw [if_pos hreached]
        exact ⟨calls, rfl, le_rfl, by omega, fun k h1 h2 => by omega, hnext,
          .aborts hfails hreached⟩
      · rw [if_neg hreached]
        by_cases hlast : calls + 1 = max_attempts.toNat
        · rw [if_pos hlast]
          exact ⟨calls, rfl, le_rfl, by omega, fun k h1 h2 => by omega, hnext,
            .skips hfails hreached hlast⟩
        · rw [if_neg hlast]
          obtain ⟨last, h⟩ := ih (calls + 1)
            ((t.during (op_fn calls)).record_error).2 (by omega) (by omega) hconfig hnext
          refine ⟨last, h.calls, by have := h.start_le; omega, h.last_lt, ?_, h.total, h.ending⟩
          intro k h1 h2
          by_cases hk : k = calls
          · subst hk
            exact ⟨hfails, hreached⟩
          · exact h.goes_on k (by omega) h2

theorem backoff_attempts_ends (op_fn : Nat → Call T) (max_attempts : U32) {left : Nat} (calls : Nat)
    (last_error : Option String) (hleft : 0 < left) (hmost : calls + left = max_attempts.toNat) :
    ∃ last, (backoff_attempts max_attempts op_fn (List.range' (calls + 1) left) calls
        last_error).2 = last + 1 ∧ calls ≤ last ∧ last < max_attempts.toNat ∧
      (∀ k, calls ≤ k → k < last → (op_fn k).Fails) ∧
      BackoffEnding op_fn max_attempts.toNat last (backoff_attempts max_attempts op_fn
        (List.range' (calls + 1) left) calls last_error).1 := by
  induction left generalizing calls last_error with
  | zero => omega
  | succ left ih =>
    rw [List.range'_succ, backoff_attempts]
    cases hr : (op_fn calls).result with
    | ok v =>
      exact ⟨calls, rfl, le_rfl, by omega, fun k h1 h2 => by omega, .succeeds hr⟩
    | error e =>
      have hfails : (op_fn calls).Fails := ⟨e, hr⟩
      cases left with
      | zero =>
        exact ⟨calls, rfl, le_rfl, by omega, fun k h1 h2 => by omega, .fails hfails (by omega)⟩
      | succ left =>
        obtain ⟨last, h, hle, hlt, hgoes, hend⟩ := ih (calls + 1) (some e) (by omega) (by omega)
        refine ⟨last, h, by omega, hlt, ?_, hend⟩
        intro k h1 h2
        by_cases hk : k = calls
        · subst hk
          exact hfails
        · exact hgoes k (by omega) h2

/-! ## What is exact -/

/-- The operation with the settings of a run, when `prior` errors are counted. -/
def execute (config : ErrorHandlingConfig) (prior : U64) (op_fn : Nat → Call T) :
    Execution (Except String (Option T)) :=
  execute_with_error_handling ⟨prior, config⟩ op_fn

/-- The handling of the errors of one operation is exact: its calls, the count,
its result, and that of `retry_with_backoff`. -/
structure Exact (config : ErrorHandlingConfig) (prior : U64) (op_fn : Nat → Call T) : Prop where
  calls_pos : 0 < (execute config prior op_fn).calls
  calls_le : (execute config prior op_fn).calls ≤ config.max_retries.toNat + 1
  total : (execute config prior op_fn).tracker.total_errors.toNat =
    counted prior op_fn (execute config prior op_fn).calls
  aborts : (∃ text, (execute config prior op_fn).result = .error text) ↔
    ∃ k < (execute config prior op_fn).calls, (op_fn k).Fails ∧
      config.max_total_errors.toNat ≤ counted prior op_fn (k + 1)
  succeeds : ∀ v, (execute config prior op_fn).result = .ok (some v) ↔
    ∃ k < (execute config prior op_fn).calls, (op_fn k).result = .ok v ∧ ∀ j < k,
      (op_fn j).Fails → counted prior op_fn (j + 1) < config.max_total_errors.toNat
  skips : (execute config prior op_fn).result = .ok none ↔
    (execute config prior op_fn).calls = config.max_retries.toNat + 1 ∧
    ∀ k < (execute config prior op_fn).calls, (op_fn k).Fails ∧
      counted prior op_fn (k + 1) < config.max_total_errors.toNat
  agrees : (∀ k < (execute config prior op_fn).calls, (op_fn k).Fails →
      counted prior op_fn (k + 1) < config.max_total_errors.toNat) →
    (retry_with_backoff (.of config) op_fn).2 = (execute config prior op_fn).calls ∧
    ∀ v, (retry_with_backoff (.of config) op_fn).1 = .Success v ↔
      (execute config prior op_fn).result = .ok (some v)

/-- As long as the operation goes on below the limit, the errors counted are a `u64`. -/
def Countable (config : ErrorHandlingConfig) (prior : U64) (op_fn : Nat → Call T) : Prop :=
  ∀ k ≤ config.max_retries.toNat,
    (∀ j < k, (op_fn j).Fails ∧ counted prior op_fn (j + 1) < config.max_total_errors.toNat) →
      counted prior op_fn (k + 1) < 2 ^ 64

theorem max_attempts_toNat {max_retries : U32} (h : max_retries ≠ BitVec.allOnes 32) :
    (max_retries + 1).toNat = max_retries.toNat + 1 := by
  have hne : max_retries.toNat ≠ (BitVec.allOnes 32).toNat := fun he => h (BitVec.eq_of_toNat_eq he)
  have := max_retries.isLt
  simp only [BitVec.toNat_allOnes] at hne
  rw [BitVec.toNat_add]
  exact Nat.mod_eq_of_lt (by change max_retries.toNat + 1 < _; omega)

theorem max_attempts_zero {max_retries : U32} (h : max_retries = BitVec.allOnes 32) :
    max_retries + 1 = 0 := by
  rw [h]
  rfl

theorem execute_ends (prior : U64) (op_fn : Nat → Call T) (hretry : config.retry_on_error = true)
    (hmax : config.max_retries ≠ BitVec.allOnes 32) :
    ∃ last, Ends config prior op_fn (config.max_retries.toNat + 1) 0 (execute config prior op_fn)
      last := by
  have h : ∃ last, Ends config prior op_fn (config.max_retries + 1).toNat 0
      (execute_attempts (config.max_retries + 1) op_fn
        (List.range' (0 + 1) (config.max_retries + 1).toNat) 0 ⟨prior, config⟩) last :=
    execute_attempts_ends _ 0 ⟨prior, config⟩ (by rw [max_attempts_toNat hmax]; omega)
      (Nat.zero_add _) rfl counter_zero.symm
  rw [max_attempts_toNat hmax] at h
  unfold execute execute_with_error_handling attempts
  simp only [hretry, if_true]
  rw [max_attempts_toNat hmax]
  exact h

theorem retry_ends (op_fn : Nat → Call T) (hmax : config.max_retries ≠ BitVec.allOnes 32) :
    ∃ last, (retry_with_backoff (.of config) op_fn).2 = last + 1 ∧
      last ≤ config.max_retries.toNat ∧ (∀ k < last, (op_fn k).Fails) ∧
      BackoffEnding op_fn (config.max_retries.toNat + 1) last
        (retry_with_backoff (.of config) op_fn).1 := by
  obtain ⟨last, h, -, hlt, hgoes, hend⟩ := backoff_attempts_ends op_fn (config.max_retries + 1) 0 none
    (by rw [max_attempts_toNat hmax]; omega) (Nat.zero_add _)
  rw [max_attempts_toNat hmax] at hlt
  refine ⟨last, h, by omega, fun k hk => hgoes k (Nat.zero_le k) hk, ?_⟩
  rw [← max_attempts_toNat hmax]
  exact hend

section

variable {run : Execution (Except String (Option T))} {last : Nat}

/-- Below the end of the counter, its limit is that of the errors. -/
theorem reached_iff {n : Nat} (h : counted prior op_fn n < 2 ^ 64) :
    config.max_total_errors ≤ counter prior op_fn n ↔
      config.max_total_errors.toNat ≤ counted prior op_fn n := by
  rw [BitVec.le_def, counter_of_lt h]

theorem limit_lt {config : ErrorHandlingConfig} : config.max_total_errors.toNat < 2 ^ 64 :=
  config.max_total_errors.isLt

/-- As long as calls fail below the limit, there is a next one. -/
theorem reaches {k : Nat} (hrun : Ends config prior op_fn (config.max_retries.toNat + 1) 0 run last)
    (hk : k ≤ config.max_retries.toNat)
    (hbelow : ∀ j < k, (op_fn j).Fails ∧
      counted prior op_fn (j + 1) < config.max_total_errors.toNat) : k ≤ last := by
  by_contra hlast
  obtain ⟨hfails, hunder⟩ := hbelow last (by omega)
  have hlimit : config.max_total_errors.toNat < 2 ^ 64 := limit_lt
  have hending := hrun.ending
  generalize run.result = result at hending
  cases hending with
  | succeeds h => exact Call.not_fails h hfails
  | aborts h reached =>
    rw [reached_iff (by omega)] at reached
    omega
  | skips h under end_of => omega

theorem below_of_countable (hcount : Countable config prior op_fn)
    (hrun : Ends config prior op_fn (config.max_retries.toNat + 1) 0 run last) (k : Nat)
    (hk : k < last) :
    (op_fn k).Fails ∧ counted prior op_fn (k + 1) < config.max_total_errors.toNat := by
  induction k using Nat.strong_induction_on with
  | _ k ih =>
    have hlast := hrun.last_lt
    obtain ⟨hfails, hunder⟩ := hrun.goes_on k (Nat.zero_le k) hk
    rw [reached_iff (hcount k (by omega) fun j hj => ih j hj (by omega))] at hunder
    exact ⟨hfails, by omega⟩

theorem counted_lt_of_countable (hcount : Countable config prior op_fn)
    (hrun : Ends config prior op_fn (config.max_retries.toNat + 1) 0 run last) :
    counted prior op_fn (last + 1) < 2 ^ 64 :=
  hcount last (by have := hrun.last_lt; omega) (below_of_countable hcount hrun)

/-! Only the last call decides, when all before it fail below the limit. -/

variable (hbelow : ∀ k < last, (op_fn k).Fails ∧
  counted prior op_fn (k + 1) < config.max_total_errors.toNat)

include hbelow in
theorem limit_iff_last : (∃ k < last + 1, (op_fn k).Fails ∧
      config.max_total_errors.toNat ≤ counted prior op_fn (k + 1)) ↔
    (op_fn last).Fails ∧ config.max_total_errors.toNat ≤ counted prior op_fn (last + 1) := by
  constructor
  · rintro ⟨k, hk, hfails, hreached⟩
    by_cases hlast : k = last
    · subst hlast
      exact ⟨hfails, hreached⟩
    · have := (hbelow k (by omega)).2
      omega
  · rintro ⟨hfails, hreached⟩
    exact ⟨last, Nat.lt_succ_self last, hfails, hreached⟩

include hbelow in
theorem success_iff_last (v : T) : (∃ k < last + 1, (op_fn k).result = .ok v ∧ ∀ j < k,
      (op_fn j).Fails → counted prior op_fn (j + 1) < config.max_total_errors.toNat) ↔
    (op_fn last).result = .ok v := by
  constructor
  · rintro ⟨k, hk, hv, -⟩
    by_cases hlast : k = last
    · subst hlast
      exact hv
    · exact absurd (hbelow k (by omega)).1 (Call.not_fails hv)
  · intro hv
    exact ⟨last, Nat.lt_succ_self last, hv, fun j hj _ => (hbelow j hj).2⟩

include hbelow in
theorem below_iff_last : (∀ k < last + 1, (op_fn k).Fails ∧
      counted prior op_fn (k + 1) < config.max_total_errors.toNat) ↔
    (op_fn last).Fails ∧ counted prior op_fn (last + 1) < config.max_total_errors.toNat := by
  constructor
  · intro h
    exact h last (Nat.lt_succ_self last)
  · intro h k hk
    by_cases hlast : k = last
    · subst hlast
      exact h
    · exact hbelow k (by omega)

end

/-- Both loops stop at the first success, or else at the last attempt. -/
theorem stop_unique {most a b : Nat} (ha : ∀ k < a, (op_fn k).Fails) (hamost : a < most)
    (hastop : ¬ (op_fn a).Fails ∨ a + 1 = most) (hb : ∀ k < b, (op_fn k).Fails)
    (hbmost : b < most) (hbstop : ¬ (op_fn b).Fails ∨ b + 1 = most) : a = b := by
  rcases Nat.lt_trichotomy a b with hlt | heq | hgt
  · rcases hastop with hok | hend
    · exact absurd (hb a hlt) hok
    · omega
  · exact heq
  · rcases hbstop with hok | hend
    · exact absurd (ha b hgt) hok
    · omega

/-- Below the limit, `retry_with_backoff` makes the same calls. -/
theorem agrees_of_below {last tries : Nat} (hrun : Ends config prior op_fn
      (config.max_retries.toNat + 1) 0 (execute config prior op_fn) last)
    (hbelow : ∀ k < last, (op_fn k).Fails)
    (hunder : (op_fn last).Fails → ¬ config.max_total_errors ≤ counter prior op_fn (last + 1))
    (htries : tries ≤ config.max_retries.toNat) (hgoes : ∀ k < tries, (op_fn k).Fails)
    (hbackoff : BackoffEnding op_fn (config.max_retries.toNat + 1) tries
      (retry_with_backoff (.of config) op_fn).1) :
    tries = last ∧ ∀ v, (retry_with_backoff (.of config) op_fn).1 = .Success v ↔
      (execute config prior op_fn).result = .ok (some v) := by
  have hstop : ¬ (op_fn last).Fails ∨ last + 1 = config.max_retries.toNat + 1 := by
    have hending := hrun.ending
    generalize (execute config prior op_fn).result = result at hending
    cases hending with
    | succeeds h => exact .inl (Call.not_fails h)
    | aborts h reached => exact absurd reached (hunder h)
    | skips h under end_of => exact .inr end_of
  have hbstop : ¬ (op_fn tries).Fails ∨ tries + 1 = config.max_retries.toNat + 1 := by
    generalize (retry_with_backoff (.of config) op_fn).1 = result at hbackoff
    cases hbackoff with
    | succeeds h => exact .inl (Call.not_fails h)
    | fails h end_of => exact .inr end_of
  have heq : tries = last :=
    stop_unique hgoes (by omega) hbstop hbelow hrun.last_lt hstop
  subst heq
  refine ⟨rfl, fun v => ?_⟩
  have hending := hrun.ending
  generalize (execute config prior op_fn).result = result at hending ⊢
  generalize (retry_with_backoff (.of config) op_fn).1 = retried at hbackoff ⊢
  rcases (op_fn tries).ok_or_fails with ⟨w, hw⟩ | hfails
  · have hnot := Call.not_fails hw
    cases hending with
    | succeeds h =>
      cases hbackoff with
      | succeeds h' =>
        rw [h] at h'
        cases h'
        simp
      | fails h' end_of => exact absurd h' hnot
    | aborts h reached => exact absurd h hnot
    | skips h under end_of => exact absurd h hnot
  · cases hbackoff with
    | succeeds h' => exact absurd hfails (Call.not_fails h')
    | fails h' end_of =>
      cases hending with
      | succeeds h => exact absurd hfails (Call.not_fails h)
      | aborts h reached => exact absurd reached (hunder h)
      | skips h under end_of => simp

theorem exact_of_countable (hretry : config.retry_on_error = true)
    (hmax : config.max_retries ≠ BitVec.allOnes 32) (hcount : Countable config prior op_fn) :
    Exact config prior op_fn := by
  obtain ⟨last, hrun⟩ := execute_ends prior op_fn hretry hmax
  obtain ⟨tries, hcalls, htries, hgoes, hbackoff⟩ := retry_ends op_fn hmax
  have hbelow := below_of_countable hcount hrun
  have hlt := counted_lt_of_countable hcount hrun
  have hlast := hrun.last_lt
  have hending := hrun.ending
  constructor
  · rw [hrun.calls]
    omega
  · rw [hrun.calls]
    omega
  · rw [hrun.total, hrun.calls, counter_of_lt hlt]
  · rw [hrun.calls, limit_iff_last hbelow]
    generalize (execute config prior op_fn).result = result at hending ⊢
    cases hending with
    | succeeds h => simp [Call.not_fails h]
    | aborts h reached => simpa [h] using (reached_iff hlt).mp reached
    | skips h under end_of => simpa [h] using mt (reached_iff hlt).mpr under
  · intro v
    rw [hrun.calls, success_iff_last hbelow]
    generalize (execute config prior op_fn).result = result at hending ⊢
    cases hending with
    | succeeds h => simp [h]
    | aborts h reached =>
      obtain ⟨e, he⟩ := h
      simp [he]
    | skips h under end_of =>
      obtain ⟨e, he⟩ := h
      simp [he]
  · rw [hrun.calls, below_iff_last hbelow]
    generalize (execute config prior op_fn).result = result at hending ⊢
    cases hending with
    | succeeds h => simp [Call.not_fails h]
    | aborts h reached =>
      have := (reached_iff hlt).mp reached
      simp only [reduceCtorEq, false_iff]
      omega
    | skips h under end_of =>
      have := mt (reached_iff hlt).mpr under
      simp only [true_iff]
      exact ⟨end_of, h, by omega⟩
  · intro hunder
    rw [hrun.calls] at hunder ⊢
    rw [hcalls, Nat.add_left_inj]
    refine agrees_of_below hrun (fun k hk => (hbelow k hk).1) ?_ htries hgoes hbackoff
    intro hfails hreached
    have := hunder last (Nat.lt_succ_self last) hfails
    rw [reached_iff hlt] at hreached
    omega

/-- An empty loop makes no call. -/
theorem not_exact_of_max (hretry : config.retry_on_error = true)
    (hmax : config.max_retries = BitVec.allOnes 32) : ¬ Exact config prior op_fn := by
  intro h
  have hpos := h.calls_pos
  unfold execute execute_with_error_handling at hpos
  simp only [hretry, if_true, max_attempts_zero hmax] at hpos
  exact absurd hpos (Nat.lt_irrefl 0)

theorem countable_of_exact (hretry : config.retry_on_error = true)
    (hmax : config.max_retries ≠ BitVec.allOnes 32) (h : Exact config prior op_fn) :
    Countable config prior op_fn := by
  obtain ⟨last, hrun⟩ := execute_ends prior op_fn hretry hmax
  intro k hk hbelow
  have hle : k + 1 ≤ last + 1 := Nat.succ_le_succ (reaches hrun hk hbelow)
  have htotal := h.total
  have hlt := (execute config prior op_fn).tracker.total_errors.isLt
  have hmono : counted prior op_fn (k + 1) ≤ counted prior op_fn (last + 1) := counted_mono hle
  rw [htotal, hrun.calls] at hlt
  omega

/-- The errors of an operation are handled exactly unless its attempts wrap to
none, or the counter wraps while the operation goes on. -/
theorem operation_errors_are_exact (config : ErrorHandlingConfig) (prior : U64) {T : Type}
    (op_fn : Nat → Call T) (hretry : config.retry_on_error = true) :
    Exact config prior op_fn ↔
      config.max_retries ≠ BitVec.allOnes 32 ∧ Countable config prior op_fn := by
  constructor
  · intro h
    have hmax : config.max_retries ≠ BitVec.allOnes 32 :=
      fun hmax => not_exact_of_max hretry hmax h
    exact ⟨hmax, countable_of_exact hretry hmax h⟩
  · rintro ⟨hmax, hcount⟩
    exact exact_of_countable hretry hmax hcount

/-- An operation that fails once, then succeeds. -/
def second_try : Nat → Call Nat
  | 0 => ⟨.error "503 Slow Down", 0⟩
  | _ => ⟨.ok 4096, 0⟩

theorem operation_errors_are_exact_second_try :
    Exact { retry_on_error := true } 0 second_try := by
  apply (operation_errors_are_exact _ 0 second_try rfl).mpr
  refine ⟨by decide, fun k hk _ => ?_⟩
  have hk3 : k ≤ 3 := hk
  interval_cases k <;> decide

/-- With all retries that a `u32` counts, the operation is not called at all. -/
theorem operation_errors_are_not_exact :
    ¬ ∀ (config : ErrorHandlingConfig) (prior : U64) (op_fn : Nat → Call Nat),
      config.retry_on_error = true → Exact config prior op_fn := by
  intro h
  exact not_exact_of_max rfl rfl
    (h { retry_on_error := true, max_retries := BitVec.allOnes 32 } 0 second_try rfl)

end

end sai3_bench.workload.errors
