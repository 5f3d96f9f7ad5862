-- The error tracker of a prepare phase with limits of its own (prepare/error_tracking.rs),
-- over every sequence of successes and errors.
import Mathlib.Data.List.Induction
import Sai3Bench.PrepareMonitors

namespace sai3_bench.prepare

open directory_tree

/-! ## The tracker -/

/-- What is counted, with the limits. The times of the errors are never read. -/
structure LimitedTracker where
  thresholds : Thresholds := {}
  tracker : PrepareErrorTracker := {}

namespace LimitedTracker

def with_thresholds (max_total max_consecutive : Nat) : LimitedTracker where
  thresholds := ⟨max_total, max_consecutive⟩

def new : LimitedTracker :=
  with_thresholds DEFAULT_PREPARE_MAX_ERRORS DEFAULT_PREPARE_MAX_CONSECUTIVE_ERRORS

def record_success (t : LimitedTracker) : LimitedTracker :=
  { t with tracker := t.tracker.record_success }

/-- Whether to abort, with the errors so far, and those in a row. -/
def record_error (t : LimitedTracker) (uri : Path) (size : Nat) (error : String) :
    (Bool × Nat × Nat) × LimitedTracker :=
  let tracker := t.tracker.record_error uri size error
  ((t.thresholds.exceeded tracker, tracker.total_errors, tracker.consecutive_errors),
    { t with tracker := tracker })

def get_stats (t : LimitedTracker) : Nat × Nat :=
  (t.tracker.total_errors, t.tracker.consecutive_errors)

def get_failures (t : LimitedTracker) : List PrepareFailure := t.tracker.failed_objects

end LimitedTracker

/-- The tracker of the phases is the one with the default limits. -/
theorem record_error_new (t : PrepareErrorTracker) (uri : Path) (size : Nat) (error : String) :
    (({ LimitedTracker.new with tracker := t } : LimitedTracker).record_error uri size error).1.1 =
      (t.record_error uri size error).should_abort := rfl

/-! ## Calls -/

inductive TrackerCall
  | Success
  | Error (failure : PrepareFailure)

/-- The state after a call. -/
def LimitedTracker.call (t : LimitedTracker) : TrackerCall → LimitedTracker
  | .Success => t.record_success
  | .Error failure => (t.record_error failure.uri failure.size failure.error).2

def LimitedTracker.run (t : LimitedTracker) (calls : List TrackerCall) : LimitedTracker :=
  calls.foldl LimitedTracker.call t

def TrackerCall.failure : TrackerCall → Option PrepareFailure
  | .Success => none
  | .Error failure => some failure

/-- The errors of the calls, oldest first. -/
def recorded (calls : List TrackerCall) : List PrepareFailure :=
  calls.filterMap TrackerCall.failure

/-- The errors after the last success. -/
def since_success (calls : List TrackerCall) : List TrackerCall :=
  (calls.reverse.takeWhile fun c => c.failure.isSome).reverse

/-- One entry for each error, and an error aborts exactly where one of the limits is reached
with it. -/
structure ErrorsTracked (max_total max_consecutive : Nat) (calls : List TrackerCall) : Prop where
  failures : ((LimitedTracker.with_thresholds max_total max_consecutive).run calls).get_failures =
    recorded calls
  stats : ((LimitedTracker.with_thresholds max_total max_consecutive).run calls).get_stats =
    ((recorded calls).length, (since_success calls).length)
  aborts : ∀ uri size error,
    (((LimitedTracker.with_thresholds max_total max_consecutive).run calls).record_error
        uri size error).1.1 = true ↔
      max_total ≤ (recorded (calls ++ [.Error ⟨uri, size, error⟩])).length ∨
        max_consecutive ≤ (since_success (calls ++ [.Error ⟨uri, size, error⟩])).length

/-! ## One more call -/

theorem recorded_success (calls : List TrackerCall) :
    recorded (calls ++ [.Success]) = recorded calls := by
  simp [recorded, TrackerCall.failure]

theorem recorded_error (calls : List TrackerCall) (failure : PrepareFailure) :
    recorded (calls ++ [.Error failure]) = recorded calls ++ [failure] := by
  simp [recorded, TrackerCall.failure]

theorem since_success_success (calls : List TrackerCall) :
    since_success (calls ++ [.Success]) = [] := by
  simp [since_success, TrackerCall.failure]

theorem since_success_error (calls : List TrackerCall) (failure : PrepareFailure) :
    since_success (calls ++ [.Error failure]) = since_success calls ++ [.Error failure] := by
  simp [since_success, TrackerCall.failure]

/-- The tracker after the calls. -/
structure Follows (thresholds : Thresholds) (calls : List TrackerCall) (t : LimitedTracker) :
    Prop where
  thresholds : t.thresholds = thresholds
  total : t.tracker.total_errors = (recorded calls).length
  consecutive : t.tracker.consecutive_errors = (since_success calls).length
  failures : t.tracker.failed_objects = recorded calls

variable {thresholds : Thresholds} {calls : List TrackerCall} {t : LimitedTracker}

theorem follows_success (h : Follows thresholds calls t) :
    Follows thresholds (calls ++ [.Success]) t.record_success where
  thresholds := h.thresholds
  total := by
    rw [recorded_success]
    exact h.total
  consecutive := by
    rw [since_success_success]
    rfl
  failures := by
    rw [recorded_success]
    exact h.failures

theorem follows_error (h : Follows thresholds calls t) (failure : PrepareFailure) :
    Follows thresholds (calls ++ [.Error failure])
      (t.record_error failure.uri failure.size failure.error).2 where
  thresholds := h.thresholds
  total := by
    rw [recorded_error, List.length_append, ← h.total]
    rfl
  consecutive := by
    rw [since_success_error, List.length_append, ← h.consecutive]
    rfl
  failures := by
    rw [recorded_error, ← h.failures]
    rfl

theorem run_follows (max_total max_consecutive : Nat) (calls : List TrackerCall) :
    Follows ⟨max_total, max_consecutive⟩ calls
      ((LimitedTracker.with_thresholds max_total max_consecutive).run calls) := by
  induction calls using List.reverseRecOn with
  | nil => exact ⟨rfl, rfl, rfl, rfl⟩
  | append_singleton calls call ih =>
    have hrun : (LimitedTracker.with_thresholds max_total max_consecutive).run (calls ++ [call]) =
        ((LimitedTracker.with_thresholds max_total max_consecutive).run calls).call call := by
      simp [LimitedTracker.run]
    rw [hrun]
    cases call with
    | Success => exact follows_success ih
    | Error failure => exact follows_error ih failure

/-- For every sequence of calls. -/
theorem errors_tracked (max_total max_consecutive : Nat) (calls : List TrackerCall) :
    ErrorsTracked max_total max_consecutive calls := by
  have h := run_follows max_total max_consecutive calls
  refine ⟨h.failures, ?_, ?_⟩
  · unfold LimitedTracker.get_stats
    rw [h.total, h.consecutive]
  · intro uri size error
    have hnext := follows_error h ⟨uri, size, error⟩
    rw [← hnext.total, ← hnext.consecutive]
    unfold LimitedTracker.record_error
    dsimp only
    rw [Thresholds.exceeded_iff, h.thresholds]

/-- A success between them keeps the errors in a row below the limit. -/
example (failure : PrepareFailure) :
    (since_success [.Error failure, .Error failure, .Success, .Error failure]).length = 1 := rfl

end sai3_bench.prepare
