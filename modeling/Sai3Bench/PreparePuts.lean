-- Putting the objects of a prepare phase: what a put that is done or has
-- failed leaves (prepare/error_tracking.rs), and the retry of the failed ones
-- in the end (prepare/retry.rs).
import Sai3Bench.PrepareTurns

namespace sai3_bench.prepare

open directory_tree metadata_cache

/-- The objects of a store, with their sizes. -/
abbrev Objects := AList fun _ : Path => Nat

/-! ## Errors -/

def DEFAULT_PREPARE_MAX_ERRORS : Nat := 100

def DEFAULT_PREPARE_MAX_CONSECUTIVE_ERRORS : Nat := 10

structure PrepareFailure where
  uri : Path
  size : Nat
  error : String
deriving DecidableEq, Repr

structure PrepareErrorTracker where
  total_errors : Nat := 0
  consecutive_errors : Nat := 0
  failed_objects : List PrepareFailure := []

namespace PrepareErrorTracker

def record_success (t : PrepareErrorTracker) : PrepareErrorTracker :=
  { t with consecutive_errors := 0 }

def record_error (t : PrepareErrorTracker) (uri : Path) (size : Nat) (error : String) :
    PrepareErrorTracker :=
  { total_errors := t.total_errors + 1
    consecutive_errors := t.consecutive_errors + 1
    failed_objects := t.failed_objects ++ [⟨uri, size, error⟩] }

def should_abort (t : PrepareErrorTracker) : Bool :=
  DEFAULT_PREPARE_MAX_ERRORS ≤ t.total_errors ||
    DEFAULT_PREPARE_MAX_CONSECUTIVE_ERRORS ≤ t.consecutive_errors

end PrepareErrorTracker

/-! ## The puts of the main pass -/

/-- How a put ends, after the retries of its own. -/
inductive Put
  | Written
  | Failed (error : String)
deriving DecidableEq, Repr

/-- The tasks that were written, in the order in which they were done. -/
def writtenTasks (puts : List (PrepareTask × Put)) : List PrepareTask :=
  (puts.filter fun p => p.2 = .Written).map (·.1)

/-- What the loop over the tasks keeps. -/
structure Execution where
  error_tracker : PrepareErrorTracker := {}
  error_result : Option String := none
  cache : Option MetadataCache
  objects : Objects
  created : List PreparedObject := []

namespace Execution

/-- One task is done. `aborted` says why its error ends the phase. -/
def complete (aborted : PrepareErrorTracker → String) (now : Nat) (x : Execution) :
    PrepareTask × Put → Execution
  | (task, .Written) => { x with
      error_tracker := x.error_tracker.record_success
      cache := x.cache.map (·.record_created task.file_idx task.uri task.size now)
      objects := x.objects.insert task.uri task.size
      created := x.created ++ [⟨task.uri, task.size, true⟩] }
  | (task, .Failed error) =>
    let error_tracker := x.error_tracker.record_error task.uri task.size error
    { x with
      error_tracker := error_tracker
      error_result :=
        if error_tracker.should_abort && x.error_result.isNone then some (aborted error_tracker)
        else x.error_result }

def run (aborted : PrepareErrorTracker → String) (now : Nat) (x : Execution)
    (puts : List (PrepareTask × Put)) : Execution :=
  puts.foldl (complete aborted now) x

end Execution

/-! ## The retry -/

/-- Whether the failed objects are put again, and how often at most. -/
def determine_retry_strategy (failed_count total_attempted : Nat) : Bool × Nat :=
  if total_attempted = 0 then (false, 0)
  else if 80 * total_attempted < 100 * failed_count then (false, 0)
  else if 20 * total_attempted ≤ 100 * failed_count then (true, 3)
  else (true, 10)

/-- Without a worker the retry does not end. -/
inductive Retry
  | Ends (successes : List PrepareFailure)
  | Hangs

/-- `retries` is how the puts of the failed objects end, if they are made. -/
def retry_failed_objects (failures : List PrepareFailure) (concurrency total_attempted : Nat)
    (retries : List (PrepareFailure × Put)) : Option Retry :=
  if failures.isEmpty || !(determine_retry_strategy failures.length total_attempted).1 then
    if retries.isEmpty then some (.Ends []) else none
  else if concurrency = 0 then if retries.isEmpty then some .Hangs else none
  else if (retries.map (·.1)).isPerm failures then
    some (.Ends ((retries.filter fun p => p.2 = .Written).map (·.1)))
  else none

def putRetried (objects : Objects) (successes : List PrepareFailure) : Objects :=
  successes.foldl (fun objects s => objects.insert s.uri s.size) objects

/-! ## What the puts leave -/

variable {aborted : PrepareErrorTracker → String} {now : Nat} {x : Execution}
  {puts : List (PrepareTask × Put)} {uri : Path}

theorem writtenTasks_cons {task : PrepareTask} {put : Put} :
    writtenTasks ((task, put) :: puts) =
      if put = .Written then task :: writtenTasks puts else writtenTasks puts := by
  unfold writtenTasks
  by_cases h : put = .Written <;> simp [h]

/-- The objects are the old ones and those that were written. -/
theorem mem_objects_run : uri ∈ (x.run aborted now puts).objects ↔
    uri ∈ x.objects ∨ ∃ task ∈ writtenTasks puts, task.uri = uri := by
  induction puts generalizing x with
  | nil => simp [Execution.run, writtenTasks]
  | cons p puts ih =>
    obtain ⟨task, put⟩ := p
    have hrun : x.run aborted now ((task, put) :: puts) =
        (x.complete aborted now (task, put)).run aborted now puts := rfl
    rw [hrun, ih, writtenTasks_cons]
    cases put with
    | Written =>
      simp only [Execution.complete, AList.mem_insert, if_true, List.mem_cons, exists_eq_or_imp]
      constructor
      · rintro ((rfl | h) | h)
        · exact .inr (.inl rfl)
        · exact .inl h
        · exact .inr (.inr h)
      · rintro (h | rfl | h)
        · exact .inl (.inr h)
        · exact .inl (.inl rfl)
        · exact .inr h
    | Failed e => simp [Execution.complete]

/-- The cache has recorded what was written, one after the other. -/
theorem cache_run : (x.run aborted now puts).cache = (writtenTasks puts).foldl
    (fun cache task => cache.map (·.record_created task.file_idx task.uri task.size now))
      x.cache := by
  induction puts generalizing x with
  | nil => rfl
  | cons p puts ih =>
    obtain ⟨task, put⟩ := p
    have hrun : x.run aborted now ((task, put) :: puts) =
        (x.complete aborted now (task, put)).run aborted now puts := rfl
    rw [hrun, ih, writtenTasks_cons]
    cases put with
    | Written => rfl
    | Failed e => simp [Execution.complete]

/-- What was written is created, and nothing else. -/
theorem created_run : (x.run aborted now puts).created =
    x.created ++ (writtenTasks puts).map fun task => ⟨task.uri, task.size, true⟩ := by
  induction puts generalizing x with
  | nil => exact (List.append_nil _).symm
  | cons p puts ih =>
    obtain ⟨task, put⟩ := p
    have hrun : x.run aborted now ((task, put) :: puts) =
        (x.complete aborted now (task, put)).run aborted now puts := rfl
    rw [hrun, ih, writtenTasks_cons]
    cases put with
    | Written => exact List.append_assoc _ _ _
    | Failed e => rfl

/-- The errors are those of the puts alone. -/
theorem errors_run {y : Execution} {now' : Nat} (htracker : x.error_tracker = y.error_tracker)
    (hresult : x.error_result = y.error_result) :
    (x.run aborted now puts).error_tracker = (y.run aborted now' puts).error_tracker ∧
      (x.run aborted now puts).error_result = (y.run aborted now' puts).error_result := by
  induction puts generalizing x y with
  | nil => exact ⟨htracker, hresult⟩
  | cons p puts ih =>
    obtain ⟨task, put⟩ := p
    cases put with
    | Written => exact ih (congrArg PrepareErrorTracker.record_success htracker) hresult
    | Failed error =>
      refine ih ?_ ?_
      · exact congrArg (PrepareErrorTracker.record_error · task.uri task.size error) htracker
      · unfold Execution.complete
        dsimp only
        rw [htracker, hresult]

/-- When all puts are written, nothing is left to retry. -/
theorem run_of_written (h : ∀ p ∈ puts, p.2 = .Written) :
    (x.run aborted now puts).error_result = x.error_result ∧
      (x.run aborted now puts).error_tracker.failed_objects = x.error_tracker.failed_objects := by
  induction puts generalizing x with
  | nil => exact ⟨rfl, rfl⟩
  | cons p puts ih =>
    obtain ⟨task, put⟩ := p
    have hput : put = .Written := h (task, put) List.mem_cons_self
    subst hput
    exact ih (x := x.complete aborted now (task, .Written))
      fun p hp => h p (List.mem_cons_of_mem _ hp)

theorem writtenTasks_of_written (h : ∀ p ∈ puts, p.2 = .Written) :
    writtenTasks puts = puts.map (·.1) := by
  unfold writtenTasks
  rw [List.filter_eq_self.mpr]
  intro p hp
  exact decide_eq_true (h p hp)

/-- Without failures nothing is put again. -/
theorem retry_nil {concurrency total_attempted : Nat} {retries : List (PrepareFailure × Put)}
    {successes : List PrepareFailure}
    (h : retry_failed_objects [] concurrency total_attempted retries = some (.Ends successes)) :
    successes = [] := by
  unfold retry_failed_objects at h
  rw [List.isEmpty_nil, Bool.true_or, if_pos rfl] at h
  split at h <;> cases h
  rfl

theorem retry_nil_quiet {concurrency total_attempted : Nat}
    {retries : List (PrepareFailure × Put)} {retry : Retry}
    (h : retry_failed_objects [] concurrency total_attempted retries = some retry) :
    retries = [] := by
  unfold retry_failed_objects at h
  rw [List.isEmpty_nil, Bool.true_or, if_pos rfl] at h
  split at h
  · rename_i hempty
    exact List.isEmpty_iff.mp hempty
  · cases h

end sai3_bench.prepare
