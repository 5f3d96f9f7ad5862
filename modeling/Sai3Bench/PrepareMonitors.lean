-- The progress monitor of a prepare phase (prepare/sequential.rs, prepare/parallel.rs):
-- the phase waits for it before it returns, and the monitor waits for the position of
-- its bar, which only the puts move.
import Sai3Bench.DeferredRetries
import Sai3Bench.ParallelPrepares
import Sai3Bench.SequentialPrepares

namespace sai3_bench.prepare

open directory_tree metadata_cache size_generator machines crews

/-! ## The tasks that put -/

structure Thresholds where
  max_total_errors : Nat := DEFAULT_PREPARE_MAX_ERRORS
  max_consecutive_errors : Nat := DEFAULT_PREPARE_MAX_CONSECUTIVE_ERRORS

namespace Thresholds

def exceeded (th : Thresholds) (t : PrepareErrorTracker) : Bool :=
  th.max_total_errors ≤ t.total_errors || th.max_consecutive_errors ≤ t.consecutive_errors

theorem exceeded_iff {th : Thresholds} {t : PrepareErrorTracker} : th.exceeded t = true ↔
    th.max_total_errors ≤ t.total_errors ∨ th.max_consecutive_errors ≤ t.consecutive_errors := by
  unfold exceeded
  rw [Bool.or_eq_true, decide_eq_true_iff, decide_eq_true_iff]

/-- The number of failed puts that are enough to abort. -/
def enough (th : Thresholds) : Nat :=
  max 1 (min th.max_total_errors th.max_consecutive_errors)

end Thresholds

/-- What the tasks share: the position of the bar, and the errors. -/
structure Progress where
  position : Nat := 0
  error_tracker : PrepareErrorTracker := {}

/-- What a task returns: `Ok(Some(..))`, `Ok(None)` or an error. -/
inductive TaskResult
  | Created
  | Failed
  | Aborted (error : String)

def TaskResult.error : TaskResult → Option String
  | .Aborted error => some error
  | _ => none

def DEFAULT_MAX_RETRIES : Nat := 3

/-- `pb2.inc(1)` comes with each put that is over, written or failed. -/
def putTrade (th : Thresholds) (aborted : PrepareErrorTracker → String) :
    Trade PrepareTask Nat TaskResult Progress (Except String Unit) where
  begins _ := .inl DEFAULT_MAX_RETRIES
  work task left g result :=
    match attempt left result with
    | .inl left => (g, .inl left)
    | .inr .Written => (⟨g.position + 1, g.error_tracker.record_success⟩, .inr .Created)
    | .inr (.Failed e) =>
      let error_tracker := g.error_tracker.record_error task.uri task.size e
      (⟨g.position + 1, error_tracker⟩,
        .inr (if th.exceeded error_tracker then .Aborted (aborted error_tracker) else .Failed))
  left := id
  most := DEFAULT_MAX_RETRIES
  left_begins h := by
    cases h
    exact le_rfl
  left_work h := by
    split at h
    · rename_i hattempt
      cases h
      exact attempt_left hattempt
    · cases h
    · cases h

/-! ## The phase -/

/-- What the puts of a phase are made with. In a sequential phase the monitor is
waited for before the retry, in a parallel one in the end. -/
structure Making where
  thresholds : Thresholds := {}
  aborted : PrepareErrorTracker → String
  monitor_first : Bool
  length : Nat
  concurrency : Nat
  store_cache : List Path

inductive Main
  | Putting
  | Retrying (retry : RetryPhase)
  | Joining
  | Returned (error : Option String)

structure Creation where
  crew : Crew PrepareTask Nat TaskResult Progress
  later : List (List PrepareTask)
  monitoring : Bool := true
  main : Main := .Putting

inductive PhaseEvent
  | Put (a : Act (Except String Unit))
  | Look
  | Retry (a : Act (Except String Unit))
  | Join

namespace Creation

/-- The first error among the results that are collected. -/
def error_result (c : Creation) : Option String := c.crew.collected.findSome? (·.2.error)

def failures (c : Creation) : List PrepareFailure := c.crew.shared.error_tracker.failed_objects

/-- The retry goes on, or the phase does when it has returned. -/
def retries (m : Making) (c : Creation) : RetryPhase → Creation
  | .Retrying crew => { c with main := .Retrying (.Retrying crew) }
  | .Returned _ => { c with main := if m.monitor_first then .Returned none else .Joining }

def beginRetry (m : Making) (c : Creation) : Creation :=
  c.retries m (.start c.failures (m.concurrency / 4) m.length)

/-- All chunks are put, or an error has ended them. -/
def afterPuts (m : Making) (c : Creation) : Creation :=
  if m.monitor_first || c.error_result.isSome then { c with main := .Joining } else c.beginRetry m

/-- The monitor has been waited for. -/
def afterJoin (m : Making) (c : Creation) : Creation :=
  if m.monitor_first && c.error_result.isNone then c.beginRetry m
  else { c with main := .Returned c.error_result }

/-- The next chunk is put when the results of this one are collected. -/
def settle (m : Making) (c : Creation) : Creation :=
  if c.crew.over then
    match c.later with
    | [] => c.afterPuts m
    | chunk :: later =>
      if c.error_result.isSome then c.afterPuts m
      else { c with crew := c.crew.next chunk, later := later }
  else c

def start (m : Making) (chunks : List (List PrepareTask)) : Creation :=
  settle m { crew := .start m.concurrency [] {}, later := chunks }

def Returns (c : Creation) : Prop := ∃ error, c.main = .Returned error

end Creation

/-- A look of the monitor that finds the bar unfinished changes nothing. -/
def Making.step (m : Making) (c : Creation) : PhaseEvent → Option Creation
  | .Put a => match c.main with
    | .Putting => ((putTrade m.thresholds m.aborted).step c.crew a).map fun crew =>
      { c with crew := crew }.settle m
    | _ => none
  | .Look =>
    if c.monitoring = true ∧ m.length ≤ c.crew.shared.position then
      some { c with monitoring := false }
    else none
  | .Retry a => match c.main with
    | .Retrying retry => ((retryMachine m.store_cache
        (determine_retry_strategy c.failures.length m.length).2).step retry a).map (c.retries m)
    | _ => none
  | .Join => match c.main with
    | .Joining => if c.monitoring = false then some (c.afterJoin m) else none
    | _ => none

def Making.machine (m : Making) : Machine Creation PhaseEvent := ⟨m.step⟩

/-! ## What the tasks leave -/

/-- The bar counts the tasks that are over. The errors are among them, and the results
tell of the first one that was enough. -/
structure Tallied (th : Thresholds) (crew : Crew PrepareTask Nat TaskResult Progress) : Prop where
  position : crew.shared.position = crew.finished.length + crew.collected.length
  failed : crew.shared.error_tracker.failed_objects.length = crew.shared.error_tracker.total_errors
  consecutive :
    crew.shared.error_tracker.consecutive_errors ≤ crew.shared.error_tracker.total_errors
  total : crew.shared.error_tracker.total_errors ≤ crew.shared.position
  aborted : ∀ r ∈ crew.finished ++ crew.collected, r.2.error ≠ none →
    th.enough ≤ crew.shared.position
  first : th.enough = 1 → crew.shared.error_tracker.failed_objects ≠ [] →
    ∃ r ∈ crew.finished ++ crew.collected, r.2.error ≠ none

variable {m : Making} {crew crew' : Crew PrepareTask Nat TaskResult Progress} {c d : Creation}
  {a : Act (Except String Unit)}

/-- What one step of a put leaves: nothing, an object, or an error. -/
theorem work_cases (task : PrepareTask) (left : Nat) (g : Progress) (result : Except String Unit) :
    (∃ next, (putTrade m.thresholds m.aborted).work task left g result = (g, .inl next)) ∨
      (result = .ok () ∧ (putTrade m.thresholds m.aborted).work task left g result =
        (⟨g.position + 1, g.error_tracker.record_success⟩, .inr .Created)) ∨
      ∃ e, result = .error e ∧ (putTrade m.thresholds m.aborted).work task left g result =
        (⟨g.position + 1, g.error_tracker.record_error task.uri task.size e⟩,
          .inr (if m.thresholds.exceeded (g.error_tracker.record_error task.uri task.size e) then
            .Aborted (m.aborted (g.error_tracker.record_error task.uri task.size e))
          else .Failed)) := by
  cases result with
  | ok u => exact .inr (.inl ⟨rfl, rfl⟩)
  | error e =>
    cases left with
    | zero => exact .inr (.inr ⟨e, rfl, rfl⟩)
    | succ left => exact .inl ⟨left, rfl⟩

/-- What one step of the crew does: the results stay, maybe in another order, or one more put
is over, written or failed. -/
theorem put_cases (hstep : (putTrade m.thresholds m.aborted).step crew a = some crew') :
    (crew'.shared = crew.shared ∧
      (crew'.finished ++ crew'.collected).Perm (crew.finished ++ crew.collected)) ∨
    (∃ k task, a = .Work k (.ok ()) ∧
      crew'.shared =
        ⟨crew.shared.position + 1, crew.shared.error_tracker.record_success⟩ ∧
      crew'.finished ++ crew'.collected = (task, .Created) :: (crew.finished ++ crew.collected)) ∨
    ∃ k task e error_tracker, a = .Work k (.error e) ∧
      error_tracker = crew.shared.error_tracker.record_error task.uri task.size e ∧
      crew'.shared = ⟨crew.shared.position + 1, error_tracker⟩ ∧
      crew'.finished ++ crew'.collected = (task, if m.thresholds.exceeded error_tracker then
        .Aborted (m.aborted error_tracker) else .Failed) :: (crew.finished ++ crew.collected) := by
  cases a with
  | Acquire k =>
    obtain ⟨n, task, _, _, ⟨left, _, rfl⟩ | ⟨b, hbegins, _⟩⟩ := acquire_ok hstep
    · exact .inl ⟨rfl, .refl _⟩
    · cases hbegins
  | Work k result =>
    obtain ⟨task, left, _, hnext⟩ := work_ok hstep
    rcases work_cases (m := m) task left crew.shared result with
      ⟨next, hwork⟩ | ⟨rfl, hwork⟩ | ⟨e, rfl, hwork⟩
    · rcases hnext with ⟨_, _, hagain, rfl⟩ | ⟨_, _, hagain, _⟩
      · cases hwork.symm.trans hagain
        exact .inl ⟨rfl, .refl _⟩
      · cases hwork.symm.trans hagain
    · rcases hnext with ⟨_, _, hagain, _⟩ | ⟨_, _, hagain, rfl⟩
      · cases hwork.symm.trans hagain
      · cases hwork.symm.trans hagain
        exact .inr (.inl ⟨k, task, rfl, rfl, rfl⟩)
    · rcases hnext with ⟨_, _, hagain, _⟩ | ⟨_, _, hagain, rfl⟩
      · cases hwork.symm.trans hagain
      · cases hwork.symm.trans hagain
        exact .inr (.inr ⟨k, task, e, _, rfl, rfl, rfl, rfl⟩)
  | Collect k =>
    obtain ⟨r, hr, rfl⟩ := collect_ok hstep
    exact .inl ⟨rfl, perm_collect hr⟩

theorem tallied_step (h : Tallied m.thresholds crew)
    (hstep : (putTrade m.thresholds m.aborted).step crew a = some crew') :
    Tallied m.thresholds crew' := by
  have hposition := h.position
  rw [← List.length_append] at hposition
  rcases put_cases hstep with ⟨hshared, hperm⟩ | ⟨_, task, _, hshared, hresults⟩ |
    ⟨_, task, e, error_tracker, _, rfl, hshared, hresults⟩
  · refine ⟨?_, hshared ▸ h.failed, hshared ▸ h.consecutive, hshared ▸ h.total,
      fun r hr herror => ?_, fun hone hsome => ?_⟩
    · rw [← List.length_append, hperm.length_eq, hshared, hposition]
    · rw [hshared]
      exact h.aborted r (hperm.mem_iff.mp hr) herror
    · rw [hshared] at hsome
      obtain ⟨r, hr, herror⟩ := h.first hone hsome
      exact ⟨r, hperm.mem_iff.mpr hr, herror⟩
  · refine ⟨?_, hshared ▸ h.failed, hshared ▸ Nat.zero_le _,
      hshared ▸ h.total.trans (Nat.le_succ _), fun r hr herror => ?_, fun hone hsome => ?_⟩
    · rw [← List.length_append, hresults, hshared, List.length_cons, hposition]
    · rw [hresults] at hr
      rw [hshared]
      rcases List.mem_cons.mp hr with rfl | hr
      · exact absurd rfl herror
      · exact (h.aborted r hr herror).trans (Nat.le_succ _)
    · rw [hshared] at hsome
      rw [hresults]
      obtain ⟨r, hr, herror⟩ := h.first hone hsome
      exact ⟨r, List.mem_cons_of_mem _ hr, herror⟩
  · have hfailed := h.failed
    have hconsecutive := h.consecutive
    have htotal := h.total
    refine ⟨?_, ?_, hshared ▸ Nat.succ_le_succ h.consecutive,
      hshared ▸ Nat.succ_le_succ h.total, fun r hr herror => ?_, fun hone _ => ?_⟩
    · rw [← List.length_append, hresults, hshared, List.length_cons, hposition]
    · rw [hshared]
      simp only [PrepareErrorTracker.record_error, List.length_append, List.length_singleton]
      omega
    · rw [hresults] at hr
      rw [hshared]
      rcases List.mem_cons.mp hr with rfl | hr
      · dsimp only at herror ⊢
        split at herror
        · rename_i hexceeded
          rw [Thresholds.exceeded_iff] at hexceeded
          unfold PrepareErrorTracker.record_error at hexceeded
          unfold Thresholds.enough
          dsimp only at hexceeded
          omega
        · exact absurd rfl herror
      · exact (h.aborted r hr herror).trans (Nat.le_succ _)
    · rw [hresults]
      refine ⟨_, List.mem_cons_self, ?_⟩
      have hexceeded : m.thresholds.exceeded
          (crew.shared.error_tracker.record_error task.uri task.size e) = true := by
        rw [Thresholds.exceeded_iff]
        unfold PrepareErrorTracker.record_error
        unfold Thresholds.enough at hone
        dsimp only
        omega
      rw [if_pos hexceeded]
      exact Option.some_ne_none _

/-- The bar does not go back. -/
theorem position_step (hstep : (putTrade m.thresholds m.aborted).step crew a = some crew') :
    crew.shared.position ≤ crew'.shared.position := by
  rcases put_cases hstep with ⟨hshared, _⟩ | ⟨_, _, _, hshared, _⟩ |
    ⟨_, _, _, _, _, _, hshared, _⟩
  · rw [hshared]
  · rw [hshared]
    exact Nat.le_succ _
  · rw [hshared]
    exact Nat.le_succ _

theorem error_result_none : c.error_result = none ↔ ∀ r ∈ c.crew.collected, r.2.error = none := by
  unfold Creation.error_result
  rw [List.findSome?_eq_none_iff]

/-! ## Where the phase stands -/

/-- The chunks before the later ones have begun, and the monitor has ended for a reason. -/
structure Puts (m : Making) (chunks : List (List PrepareTask)) (c : Creation) : Prop where
  some_task : ∀ chunk ∈ chunks, chunk ≠ []
  begun : ∃ begun, chunks = begun ++ c.later ∧
    Kept (putTrade m.thresholds m.aborted) m.concurrency begun.flatten c.crew
  tallied : Tallied m.thresholds c.crew
  looked : c.monitoring = false → m.length ≤ c.crew.shared.position

/-- All is put, or an error has ended the puts. -/
def PutsOver (c : Creation) : Prop :=
  c.crew.over = true ∧ (c.later = [] ∨ c.error_result ≠ none)

/-- The failed objects are put again. -/
def RetriesSome (m : Making) (c : Creation) : Prop :=
  c.failures ≠ [] ∧ (determine_retry_strategy c.failures.length m.length).1 = true

def Making.max_retries (m : Making) (c : Creation) : Nat :=
  (determine_retry_strategy c.failures.length m.length).2

/-- What holds while the main task stands where it does. -/
def Stands (m : Making) (c : Creation) : Main → Prop
  | .Putting => c.crew.over = false
  | .Retrying retry => PutsOver c ∧ c.error_result = none ∧ RetriesSome m c ∧
      (m.monitor_first = true → c.monitoring = false) ∧
      (∃ crew, retry = .Retrying crew) ∧
      Sound m.store_cache (m.max_retries c) (m.concurrency / 4) c.failures retry
  | .Joining => PutsOver c
  | .Returned _ => c.monitoring = false

structure Going (m : Making) (chunks : List (List PrepareTask)) (c : Creation) : Prop where
  puts : Puts m chunks c
  stands : Stands m c c.main

/-- How much of the phase is left at most, when it puts `n` objects. -/
def Making.left (m : Making) (n : Nat) (c : Creation) : Nat :=
  (if c.monitoring then 1 else 0) + match c.main with
    | .Putting => 13 * n + 5 + ((putTrade m.thresholds m.aborted).rank c.crew +
        c.later.flatten.length * 6)
    | .Retrying retry => retryRank m.store_cache (m.max_retries c) retry + 2
    | .Joining => if m.monitor_first then 13 * n + 4 else 1
    | .Returned _ => 0

variable {chunks : List (List PrepareTask)}

theorem max_retries_le (failed_count total_attempted : Nat) :
    (determine_retry_strategy failed_count total_attempted).2 ≤ 10 := by
  unfold determine_retry_strategy
  split
  · exact Nat.zero_le _
  · split
    · exact Nat.zero_le _
    · split
      · dsimp only
        omega
      · exact le_rfl

/-- The tasks that are over are among those that have begun. -/
theorem position_le (h : Puts m chunks c) {begun : List (List PrepareTask)}
    (hkept : Kept (putTrade m.thresholds m.aborted) m.concurrency begun.flatten c.crew) :
    c.crew.shared.position ≤ begun.flatten.length := by
  have hlength := hkept.tasks.length_eq
  unfold Crew.tasks at hlength
  simp only [List.length_append, List.length_map] at hlength
  rw [h.tallied.position]
  omega

/-- When the puts are over, the bar is where the chunks that have begun end. -/
theorem position_of_over (h : Puts m chunks c) (hover : c.crew.over = true)
    {begun : List (List PrepareTask)}
    (hkept : Kept (putTrade m.thresholds m.aborted) m.concurrency begun.flatten c.crew) :
    c.crew.shared.position = begun.flatten.length := by
  obtain ⟨_, _, hfinished⟩ := Crew.over_iff.mp hover
  have hlength := (collected_of_over hkept hover).length_eq
  rw [List.length_map] at hlength
  rw [h.tallied.position, hfinished, List.length_nil, Nat.zero_add, hlength]

theorem failures_le (h : Puts m chunks c) : c.failures.length ≤ chunks.flatten.length := by
  obtain ⟨begun, hchunks, hkept⟩ := h.begun
  have hposition := position_le h hkept
  have hfailed := h.tallied.failed
  have htotal := h.tallied.total
  rw [hchunks, List.flatten_append, List.length_append]
  unfold Creation.failures
  omega

/-- The retry, at its start or after one of its steps. -/
theorem going_retries (h : Puts m chunks c) (hover : PutsOver c) (herror : c.error_result = none)
    (hmonitor : m.monitor_first = true → c.monitoring = false) {retry : RetryPhase}
    (hretry : Sound m.store_cache (m.max_retries c) (m.concurrency / 4) c.failures retry)
    (hmore : ∀ crew, retry = .Retrying crew → RetriesSome m c) :
    Going m chunks (c.retries m retry) ∧ m.left chunks.flatten.length (c.retries m retry) ≤
      (if c.monitoring then 1 else 0) + (retryRank m.store_cache (m.max_retries c) retry + 2) := by
  cases retry with
  | Retrying crew =>
    refine ⟨⟨⟨h.some_task, h.begun, h.tallied, h.looked⟩, ?_⟩, le_rfl⟩
    exact ⟨hover, herror, hmore crew rfl, hmonitor, ⟨crew, rfl⟩, hretry⟩
  | Returned results =>
    refine ⟨⟨⟨h.some_task, h.begun, h.tallied, h.looked⟩, ?_⟩, ?_⟩
    · unfold Creation.retries
      dsimp only
      cases hfirst : m.monitor_first with
      | true => exact hmonitor hfirst
      | false => exact hover
    · unfold Making.left Creation.retries
      dsimp only
      cases hfirst : m.monitor_first with
      | true => exact Nat.add_le_add_left (Nat.zero_le _) _
      | false => exact Nat.add_le_add_left (Nat.le_add_left 1 _) _

theorem going_beginRetry (h : Puts m chunks c) (hover : PutsOver c)
    (herror : c.error_result = none) (hmonitor : m.monitor_first = true → c.monitoring = false) :
    Going m chunks (c.beginRetry m) ∧ m.left chunks.flatten.length (c.beginRetry m) ≤
      (if c.monitoring then 1 else 0) + (13 * chunks.flatten.length + 3) := by
  have hstart := sound_start m.store_cache (m.max_retries c) (m.concurrency / 4) m.length c.failures
  obtain ⟨hgoing, hleft⟩ := going_retries h hover herror hmonitor hstart fun crew hcrew => by
    unfold RetryPhase.start at hcrew
    split at hcrew
    · cases hcrew
    · rename_i hsome
      split at hcrew
      · rename_i hretry
        exact ⟨mt List.isEmpty_iff.mpr hsome, hretry⟩
      · cases hcrew
  refine ⟨hgoing, hleft.trans (Nat.add_le_add_left (Nat.add_le_add_right ?_ 2) _)⟩
  -- each of the failed objects is tried eleven times at most
  have hfailures := failures_le h
  have hmax : m.max_retries c ≤ 10 := max_retries_le _ _
  unfold RetryPhase.start
  split
  · exact Nat.zero_le _
  · split
    · unfold retryRank Trade.rank Crew.start
      dsimp only [List.map_nil, List.sum_nil, List.length_nil]
      have hmul : c.failures.length * (m.max_retries c + 3) ≤ chunks.flatten.length * 13 :=
        Nat.mul_le_mul hfailures (Nat.add_le_add_right hmax 3)
      show c.failures.length * (m.max_retries c + 3) + 0 + 1 ≤ _
      omega
    · exact Nat.zero_le _

theorem going_afterPuts (h : Puts m chunks c) (hover : PutsOver c) :
    Going m chunks (c.afterPuts m) ∧ m.left chunks.flatten.length (c.afterPuts m) ≤
      (if c.monitoring then 1 else 0) + (13 * chunks.flatten.length + 4) := by
  unfold Creation.afterPuts
  split
  · refine ⟨⟨⟨h.some_task, h.begun, h.tallied, h.looked⟩, hover⟩, Nat.add_le_add_left ?_ _⟩
    dsimp only
    split <;> omega
  · rename_i hnot
    rw [Bool.or_eq_true, not_or, Bool.not_eq_true, Bool.not_eq_true,
      Option.isSome_eq_false_iff, Option.isNone_iff_eq_none] at hnot
    obtain ⟨hgoing, hleft⟩ := going_beginRetry h hover hnot.2 fun hfirst => by
      rw [hnot.1] at hfirst
      cases hfirst
    exact ⟨hgoing, hleft.trans (Nat.add_le_add_left (Nat.le_succ _) _)⟩

theorem going_afterJoin (h : Puts m chunks c) (hover : PutsOver c) (hjoin : c.monitoring = false) :
    Going m chunks (c.afterJoin m) ∧ m.left chunks.flatten.length (c.afterJoin m) ≤
      if m.monitor_first then 13 * chunks.flatten.length + 3 else 0 := by
  unfold Creation.afterJoin
  split
  · rename_i hfirst
    rw [Bool.and_eq_true, Option.isNone_iff_eq_none] at hfirst
    obtain ⟨hgoing, hleft⟩ := going_beginRetry h hover hfirst.2 fun _ => hjoin
    rw [hjoin] at hleft
    rw [if_pos hfirst.1]
    exact ⟨hgoing, by simpa using hleft⟩
  · refine ⟨⟨⟨h.some_task, h.begun, h.tallied, h.looked⟩, hjoin⟩, ?_⟩
    unfold Making.left
    rw [hjoin]
    exact Nat.zero_le _

/-- The puts go on, with this chunk or with the next one, or they are over. -/
theorem going_settle (h : Puts m chunks c) (hmain : c.main = .Putting) :
    Going m chunks (c.settle m) ∧
      m.left chunks.flatten.length (c.settle m) ≤ m.left chunks.flatten.length c := by
  have hleft : m.left chunks.flatten.length c = (if c.monitoring then 1 else 0) +
      (13 * chunks.flatten.length + 5 + ((putTrade m.thresholds m.aborted).rank c.crew +
        c.later.flatten.length * 6)) := by
    unfold Making.left
    rw [hmain]
  rw [hleft]
  unfold Creation.settle
  split
  · rename_i hover
    split
    · rename_i hlater
      obtain ⟨hgoing, hless⟩ := going_afterPuts h ⟨hover, .inl hlater⟩
      refine ⟨hgoing, hless.trans (Nat.add_le_add_left ?_ _)⟩
      omega
    · rename_i chunk later hlater
      split
      · rename_i herror
        have hsome : c.error_result ≠ none := Option.isSome_iff_ne_none.mp herror
        obtain ⟨hgoing, hless⟩ := going_afterPuts h ⟨hover, .inr hsome⟩
        refine ⟨hgoing, hless.trans (Nat.add_le_add_left ?_ _)⟩
        omega
      · obtain ⟨begun, hchunks, hkept⟩ := h.begun
        rw [hlater] at hchunks
        have hchunk : chunk ≠ [] := h.some_task chunk (by simp [hchunks])
        refine ⟨⟨⟨h.some_task, ⟨begun ++ [chunk], ?_, ?_⟩, ?_, h.looked⟩, ?_⟩, ?_⟩
        · rw [hchunks, List.append_assoc, List.singleton_append]
        · rw [List.flatten_append, List.flatten_singleton]
          exact kept_next hkept hover chunk
        · exact ⟨h.tallied.position, h.tallied.failed, h.tallied.consecutive, h.tallied.total,
            h.tallied.aborted, h.tallied.first⟩
        · rw [hmain]
          show (c.crew.next chunk).over = false
          rw [← Bool.not_eq_true, Crew.over_iff]
          exact fun hnone => hchunk hnone.1
        · unfold Making.left
          dsimp only
          rw [hmain, rank_next hover, hlater, List.flatten_cons, List.length_append]
          have hmost : (putTrade m.thresholds m.aborted).most + 3 = 6 := rfl
          rw [hmost]
          dsimp only
          omega
  · rename_i hmore
    rw [Bool.not_eq_true] at hmore
    refine ⟨⟨h, ?_⟩, hleft.le⟩
    rw [hmain]
    exact hmore

/-- All that an event can do to a phase. -/
theorem step_cases {e : PhaseEvent} (h : m.step c e = some d) :
    (∃ a crew, e = .Put a ∧ c.main = .Putting ∧
        (putTrade m.thresholds m.aborted).step c.crew a = some crew ∧
        d = { c with crew := crew }.settle m) ∨
      (e = .Look ∧ c.monitoring = true ∧ m.length ≤ c.crew.shared.position ∧
        d = { c with monitoring := false }) ∨
      (∃ a retry next, e = .Retry a ∧ c.main = .Retrying retry ∧
        (retryMachine m.store_cache (m.max_retries c)).step retry a = some next ∧
        d = c.retries m next) ∨
      (e = .Join ∧ c.main = .Joining ∧ c.monitoring = false ∧ d = c.afterJoin m) := by
  cases e with
  | Put a =>
    unfold Making.step at h
    dsimp only at h
    split at h
    · rename_i hmain
      obtain ⟨crew, hcrew, rfl⟩ := Option.map_eq_some_iff.mp h
      exact .inl ⟨a, crew, rfl, hmain, hcrew, rfl⟩
    · cases h
  | Look =>
    unfold Making.step at h
    dsimp only at h
    split at h
    · rename_i hlook
      cases h
      exact .inr (.inl ⟨rfl, hlook.1, hlook.2, rfl⟩)
    · cases h
  | Retry a =>
    unfold Making.step at h
    dsimp only at h
    split at h
    · rename_i retry hmain
      obtain ⟨next, hnext, rfl⟩ := Option.map_eq_some_iff.mp h
      exact .inr (.inr (.inl ⟨a, retry, next, rfl, hmain, hnext, rfl⟩))
    · cases h
  | Join =>
    unfold Making.step at h
    dsimp only at h
    split at h
    · rename_i hmain
      split at h
      · rename_i hjoin
        cases h
        exact .inr (.inr (.inr ⟨rfl, hmain, hjoin, rfl⟩))
      · cases h
    · cases h

theorem puts_of_crew (h : Puts m chunks c)
    (hstep : (putTrade m.thresholds m.aborted).step c.crew a = some crew') :
    Puts m chunks { c with crew := crew' } := by
  obtain ⟨begun, hchunks, hkept⟩ := h.begun
  have htallied := tallied_step h.tallied hstep
  refine ⟨h.some_task, ⟨begun, hchunks, (kept_step hkept hstep).1⟩, htallied, fun hlook => ?_⟩
  exact (h.looked hlook).trans (position_step hstep)

theorem going_step {e : PhaseEvent} (h : Going m chunks c) (hstep : m.step c e = some d) :
    Going m chunks d ∧ m.left chunks.flatten.length d < m.left chunks.flatten.length c := by
  have hstands := h.stands
  rcases step_cases hstep with ⟨a, crew, rfl, hmain, hcrew, rfl⟩ | ⟨rfl, hlooks, hlength, rfl⟩ |
    ⟨a, retry, next, rfl, hmain, hnext, rfl⟩ | ⟨rfl, hmain, hjoin, rfl⟩
  · obtain ⟨begun, _, hkept⟩ := h.puts.begun
    have hless := (kept_step hkept hcrew).2
    obtain ⟨hgoing, hleft⟩ := going_settle (puts_of_crew h.puts hcrew) hmain
    refine ⟨hgoing, Nat.lt_of_le_of_lt hleft ?_⟩
    unfold Making.left
    dsimp only
    rw [hmain]
    dsimp only
    omega
  · refine ⟨⟨⟨h.puts.some_task, h.puts.begun, h.puts.tallied, fun _ => hlength⟩, ?_⟩, ?_⟩
    · cases hmain : c.main with
      | Putting =>
        rw [hmain] at hstands
        exact hstands
      | Retrying retry =>
        rw [hmain] at hstands
        exact ⟨hstands.1, hstands.2.1, hstands.2.2.1, fun _ => rfl, hstands.2.2.2.2⟩
      | Joining =>
        rw [hmain] at hstands
        exact hstands
      | Returned error =>
        rfl
    · unfold Making.left
      rw [hlooks]
      dsimp only
      exact Nat.add_lt_add_right Nat.one_pos _
  · rw [hmain] at hstands
    obtain ⟨hover, herror, hsome, hmonitor, _, hsound⟩ := hstands
    obtain ⟨hgoing, hleft⟩ := going_retries h.puts hover herror hmonitor (sound_step hsound hnext)
      fun _ _ => hsome
    have hless := retryRank_step hsound hnext
    refine ⟨hgoing, Nat.lt_of_le_of_lt hleft ?_⟩
    unfold Making.left
    rw [hmain]
    dsimp only
    omega
  · rw [hmain] at hstands
    obtain ⟨hgoing, hleft⟩ := going_afterJoin h.puts hstands hjoin
    refine ⟨hgoing, Nat.lt_of_le_of_lt hleft ?_⟩
    unfold Making.left
    rw [hmain, hjoin]
    dsimp only
    split <;> simp

theorem going_start (hsome : ∀ chunk ∈ chunks, chunk ≠ []) :
    Going m chunks (.start m chunks) := by
  refine (going_settle ⟨hsome, ⟨[], rfl, kept_start _⟩, ?_, ?_⟩ rfl).1
  · exact ⟨rfl, rfl, Nat.le_refl 0, Nat.le_refl 0, fun r hr => absurd hr List.not_mem_nil,
      fun _ hfailed => absurd rfl hfailed⟩
  · intro hlook
    cases hlook

/-! ## When the phase returns -/

/-- There is a permit, the bar is as long as the tasks are many, no error can end the puts
while tasks are left that the bar counts, and a retry finds a permit. -/
structure Finishes (m : Making) (chunks : List (List PrepareTask)) : Prop where
  workers : chunks = [] ∨ 0 < m.concurrency
  full : m.length ≤ chunks.flatten.length
  early : ∀ begun later, chunks = begun ++ later → later ≠ [] →
    begun.flatten.length < m.length → begun.flatten.length < m.thresholds.enough
  retry : 4 ≤ m.concurrency ∨ m.length ≤ 1 ∨ m.thresholds.enough = 1

theorem not_over_nil (hcrew : crew.over = false)
    (hkept : Kept (putTrade m.thresholds m.aborted) m.concurrency [] crew) : False := by
  have htasks := hkept.tasks.length_eq
  unfold Crew.tasks at htasks
  simp only [List.length_append, List.length_map, List.length_nil, Nat.add_eq_zero_iff,
    List.length_eq_zero_iff] at htasks
  rw [← Bool.not_eq_true, Crew.over_iff] at hcrew
  exact hcrew ⟨htasks.1, htasks.2.1, htasks.2.2.1⟩

/-- A retry of a phase with few workers needs an object that has failed and one that has not. -/
theorem no_retry (h : Going m chunks c) (hone : m.length ≤ 1 ∨ m.thresholds.enough = 1)
    {retry : RetryPhase} (hmain : c.main = .Retrying retry) : False := by
  have hstands := h.stands
  rw [hmain] at hstands
  obtain ⟨⟨hover, _⟩, herror, ⟨hfailures, hretry⟩, _⟩ := hstands
  have hpos : 0 < c.failures.length := List.length_pos_iff.mpr hfailures
  rcases hone with hlength | henough
  · unfold determine_retry_strategy at hretry
    split at hretry
    · cases hretry
    · split at hretry
      · cases hretry
      · omega
  · obtain ⟨r, hr, hsome⟩ := h.puts.tallied.first henough hfailures
    rw [(Crew.over_iff.mp hover).2.2, List.nil_append] at hr
    exact hsome (error_result_none.mp herror r hr)

/-- When the puts are over, the bar is at its end. -/
theorem length_le_position (h : Puts m chunks c) (hover : PutsOver c) (hfin : Finishes m chunks) :
    m.length ≤ c.crew.shared.position := by
  obtain ⟨begun, hchunks, hkept⟩ := h.begun
  have hposition := position_of_over h hover.1 hkept
  rw [hposition]
  by_cases hlater : c.later = []
  · rw [hlater, List.append_nil] at hchunks
    rw [← hchunks]
    exact hfin.full
  · by_contra hless
    rw [Nat.not_le] at hless
    have hfew := hfin.early begun c.later hchunks hlater hless
    have hnone : c.error_result = none := by
      rw [error_result_none]
      intro r hr
      by_contra hsome
      have henough := h.tallied.aborted r (List.mem_append_right _ hr) hsome
      omega
    exact hover.2.elim hlater fun hsome => hsome hnone

theorem phase_goes_on (h : Going m chunks c) (hfin : Finishes m chunks) :
    c.Returns ∨ ∃ e d, m.step c e = some d := by
  have hstands := h.stands
  cases hmain : c.main with
  | Putting =>
    right
    rw [hmain] at hstands
    obtain ⟨begun, hchunks, hkept⟩ := h.puts.begun
    have hpermits : 0 < m.concurrency := by
      rcases hfin.workers with hnil | hpos
      · rw [hnil] at hchunks
        rw [(List.append_eq_nil_iff.mp hchunks.symm).1] at hkept
        exact (not_over_nil hstands hkept).elim
      · exact hpos
    obtain ⟨a, crew, _, hcrew⟩ :=
      (goes_on (.ok ()) hkept hpermits).resolve_left (ne_true_of_eq_false hstands)
    refine ⟨.Put a, { c with crew := crew }.settle m, ?_⟩
    unfold Making.step
    rw [hmain]
    dsimp only
    rw [hcrew, Option.map_some]
  | Retrying retry =>
    right
    rw [hmain] at hstands
    obtain ⟨_, _, _, _, ⟨crew, rfl⟩, hsound⟩ := hstands
    have hpermits : 0 < m.concurrency / 4 := by
      rcases hfin.retry with hmany | hone
      · exact Nat.div_pos hmany (by omega)
      · exact (no_retry h hone hmain).elim
    rcases retry_goes_on hpermits hsound with ⟨results, hreturned, _⟩ | ⟨a, next, hnext⟩
    · cases hreturned
    · refine ⟨.Retry a, c.retries m next, ?_⟩
      unfold Making.step
      rw [hmain]
      dsimp only
      exact congrArg (Option.map _) hnext
  | Joining =>
    right
    rw [hmain] at hstands
    cases hmonitor : c.monitoring with
    | true =>
      refine ⟨.Look, { c with monitoring := false }, ?_⟩
      unfold Making.step
      exact if_pos ⟨hmonitor, length_le_position h.puts hstands hfin⟩
    | false =>
      refine ⟨.Join, c.afterJoin m, ?_⟩
      unfold Making.step
      rw [hmain]
      exact if_pos hmonitor
  | Returned error => exact .inl ⟨error, hmain⟩

/-! ## When it does not -/

/-- Without a permit, a phase that has something to put stands still. -/
theorem hangs_without_workers (htasks : chunks ≠ []) (hnone : m.concurrency = 0)
    (hsome : ∀ chunk ∈ chunks, chunk ≠ []) :
    ¬m.machine.Ends Creation.Returns (.start m chunks) := by
  obtain ⟨chunk, later, rfl⟩ := List.exists_cons_of_ne_nil htasks
  have hstart : Creation.start m (chunk :: later) = Creation.settle m
      { crew := .start 0 chunk {}, later := later } := by
    unfold Creation.start
    rw [hnone]
    have hchunk : (Crew.start 0 chunk {} : Crew PrepareTask Nat TaskResult Progress).over = false := by
      rw [← Bool.not_eq_true, Crew.over_iff]
      exact fun hover => hsome chunk List.mem_cons_self hover.1
    unfold Creation.settle
    rw [hchunk]
    rfl
  refine Machine.not_ends_of_never
    (I := fun c => c.main = .Putting ∧ c.crew = .start 0 chunk {}) Machine.run_nil ?_
    (fun c e d hc hstep => ?_) fun c hc hreturns => ?_
  · rw [hstart]
    unfold Creation.settle
    split
    · rename_i hover
      exact absurd (Crew.over_iff.mp hover).1 (hsome chunk List.mem_cons_self)
    · exact ⟨rfl, rfl⟩
  · rcases step_cases hstep with ⟨a, crew, _, _, hcrew, _⟩ | ⟨_, _, _, rfl⟩ |
      ⟨a, retry, next, _, hmain, _⟩ | ⟨_, hmain, _⟩
    · rw [hc.2, no_step rfl rfl rfl] at hcrew
      cases hcrew
    · exact hc
    · cases hc.1.symm.trans hmain
    · cases hc.1.symm.trans hmain
  · obtain ⟨error, herror⟩ := hreturns
    cases hc.1.symm.trans herror

/-- A bar that is longer than the tasks are many is waited for for ever. -/
theorem hangs_when_short (hsome : ∀ chunk ∈ chunks, chunk ≠ [])
    (hshort : chunks.flatten.length < m.length) :
    ¬m.machine.Ends Creation.Returns (.start m chunks) := by
  have hlook : ∀ {c : Creation}, Puts m chunks c → ¬m.length ≤ c.crew.shared.position := by
    intro c hputs hlength
    obtain ⟨begun, hchunks, hkept⟩ := hputs.begun
    have hposition := position_le hputs hkept
    rw [hchunks, List.flatten_append, List.length_append] at hshort
    omega
  refine Machine.not_ends_of_never (I := Going m chunks) Machine.run_nil (going_start hsome)
    (fun c e d hc hstep => (going_step hc hstep).1) fun c hc hreturns => ?_
  obtain ⟨error, herror⟩ := hreturns
  have hstands := hc.stands
  rw [herror] at hstands
  exact hlook hc.puts (hc.puts.looked hstands)

/-- A phase whose puts are ended by an error while the bar is not at its end. -/
theorem hangs_before_end (hjoin : c.main = .Joining) (hmonitor : c.monitoring = true)
    (hless : c.crew.shared.position < m.length) {s : Creation} {es : List PhaseEvent}
    (hrun : m.machine.run s es = some c) : ¬m.machine.Ends Creation.Returns s := by
  refine Machine.not_ends_of_never (I := (· = c)) hrun rfl (fun d e t hd hstep => ?_)
    fun d hd hreturns => ?_
  · subst hd
    rcases step_cases hstep with ⟨a, crew, _, hmain, _⟩ | ⟨_, _, hlength, _⟩ |
      ⟨a, retry, next, _, hmain, _⟩ | ⟨_, _, hlooked, _⟩
    · cases hjoin.symm.trans hmain
    · exact absurd hlength (Nat.not_le_of_lt hless)
    · cases hjoin.symm.trans hmain
    · cases hmonitor.symm.trans hlooked
  · subst hd
    obtain ⟨error, herror⟩ := hreturns
    cases hjoin.symm.trans herror

/-- A phase whose retry has no permit. -/
theorem hangs_in_retry {failures : List PrepareFailure}
    (hretry : c.main = .Retrying (.Retrying (.start 0 failures ()))) {s : Creation}
    {es : List PhaseEvent} (hrun : m.machine.run s es = some c) :
    ¬m.machine.Ends Creation.Returns s := by
  refine Machine.not_ends_of_never
    (I := fun c => c.main = .Retrying (.Retrying (.start 0 failures ()))) hrun hretry
    (fun d e t hd hstep => ?_) fun d hd hreturns => ?_
  · rcases step_cases hstep with ⟨a, crew, _, hmain, _⟩ | ⟨_, _, _, rfl⟩ |
      ⟨a, retry, next, _, hmain, hnext, _⟩ | ⟨_, hmain, _⟩
    · cases hd.symm.trans hmain
    · exact hd
    · cases hd.symm.trans hmain
      obtain ⟨crew, hcrew, _⟩ := Option.map_eq_some_iff.mp hnext
      rw [no_step rfl rfl rfl] at hcrew
      cases hcrew
    · cases hd.symm.trans hmain
  · obtain ⟨error, herror⟩ := hreturns
    cases hd.symm.trans herror

/-! ## Runs in which the puts end as they are told -/

/-- The puts of a phase can be led to their end, with `pick` choosing how each ends. `P`
is what the choice keeps. -/
theorem exists_puts {P : Creation → Prop}
    (pick : Crew PrepareTask Nat TaskResult Progress → Except String Unit)
    (hsome : ∀ chunk ∈ chunks, chunk ≠ []) (hworkers : 0 < m.concurrency)
    (hstart : P { crew := .start m.concurrency [] {}, later := chunks })
    (hput : ∀ {c : Creation} {a crew}, P c → Puts m chunks c →
      (∀ k result, a = .Work k result → result = pick c.crew) →
      (putTrade m.thresholds m.aborted).step c.crew a = some crew → P { c with crew := crew })
    (hnext : ∀ {c : Creation} {chunk later}, P c → Puts m chunks c → c.crew.over = true →
      c.later = chunk :: later → c.error_result = none →
      P { c with crew := c.crew.next chunk, later := later }) :
    ∃ es c, m.machine.run (.start m chunks) es = some (c.afterPuts m) ∧ Puts m chunks c ∧
      PutsOver c ∧ c.monitoring = true ∧ P c := by
  let goal (s : Creation) : Prop := ∃ c, s = c.afterPuts m ∧ Puts m chunks c ∧ PutsOver c ∧
    c.monitoring = true ∧ P c
  let puts (s : Creation) : Prop := s.main = .Putting ∧ s.monitoring = true ∧ P s
  have hsettle : ∀ c, puts c → Puts m chunks c →
      goal (c.settle m) ∨ puts (c.settle m) := by
    rintro c ⟨hmain, hmonitor, hP⟩ hputs
    unfold Creation.settle
    split
    · rename_i hover
      split
      · rename_i hlater
        exact .inl ⟨c, rfl, hputs, ⟨hover, .inl hlater⟩, hmonitor, hP⟩
      · rename_i chunk later hlater
        split
        · rename_i herror
          exact .inl ⟨c, rfl, hputs, ⟨hover, .inr (Option.isSome_iff_ne_none.mp herror)⟩,
            hmonitor, hP⟩
        · rename_i herror
          rw [Bool.not_eq_true, Option.isSome_eq_false_iff, Option.isNone_iff_eq_none] at herror
          exact .inr ⟨hmain, hmonitor, hnext hP hputs hover hlater herror⟩
    · exact .inr ⟨hmain, hmonitor, hP⟩
  have hinit : Puts m chunks { crew := .start m.concurrency [] {}, later := chunks } := by
    refine ⟨hsome, ⟨[], rfl, kept_start _⟩, ?_, fun hlook => by cases hlook⟩
    exact ⟨rfl, rfl, Nat.le_refl 0, Nat.le_refl 0, fun r hr => absurd hr List.not_mem_nil,
      fun _ hfailed => absurd rfl hfailed⟩
  have hgo : ∀ s, Going m chunks s ∧ (goal s ∨ puts s) → goal s ∨ ∃ e t, m.step s e = some t ∧
      (Going m chunks t ∧ (goal t ∨ puts t)) ∧
        m.left chunks.flatten.length t < m.left chunks.flatten.length s := by
    rintro s ⟨hgoing, hgoal | ⟨hmain, hmonitor, hP⟩⟩
    · exact .inl hgoal
    · right
      have hstands := hgoing.stands
      rw [hmain] at hstands
      obtain ⟨begun, _, hkept⟩ := hgoing.puts.begun
      obtain ⟨a, crew, hpick, hcrew⟩ :=
        (goes_on (pick s.crew) hkept hworkers).resolve_left (ne_true_of_eq_false hstands)
      have hstep : m.step s (.Put a) = some ({ s with crew := crew }.settle m) := by
        unfold Making.step
        rw [hmain]
        dsimp only
        rw [hcrew, Option.map_some]
      obtain ⟨hgoing', hleft⟩ := going_step hgoing hstep
      refine ⟨.Put a, _, hstep, ⟨hgoing', ?_⟩, hleft⟩
      exact hsettle _ ⟨hmain, hmonitor, hput hP hgoing.puts hpick hcrew⟩
        (puts_of_crew hgoing.puts hcrew)
  obtain ⟨es, s, hrun, _, c, rfl, hc⟩ := Machine.exists_run_to (m := m.machine) _ goal _ hgo
    ⟨going_start hsome, hsettle _ ⟨rfl, rfl, hstart⟩ hinit⟩
  exact ⟨es, c, hrun, hc⟩

/-- Every put fails: the errors are as many as the tasks that are over. -/
structure AllFail (th : Thresholds) (crew : Crew PrepareTask Nat TaskResult Progress) : Prop where
  total : crew.shared.error_tracker.total_errors = crew.shared.position
  consecutive : crew.shared.error_tracker.consecutive_errors = crew.shared.position
  aborted : th.enough ≤ crew.shared.position →
    ∃ r ∈ crew.finished ++ crew.collected, r.2.error ≠ none

theorem allFail_step (h : AllFail m.thresholds crew)
    (hpick : ∀ k result, a = .Work k result → result = .error "")
    (hstep : (putTrade m.thresholds m.aborted).step crew a = some crew') :
    AllFail m.thresholds crew' := by
  rcases put_cases hstep with ⟨hshared, hperm⟩ | ⟨k, task, rfl, _⟩ |
    ⟨_, task, e, error_tracker, _, rfl, hshared, hresults⟩
  · refine ⟨hshared ▸ h.total, hshared ▸ h.consecutive, fun henough => ?_⟩
    rw [hshared] at henough
    obtain ⟨r, hr, herror⟩ := h.aborted henough
    exact ⟨r, hperm.mem_iff.mpr hr, herror⟩
  · cases hpick k _ rfl
  · refine ⟨?_, ?_, fun henough => ?_⟩
    · rw [hshared]
      exact congrArg (· + 1) h.total
    · rw [hshared]
      exact congrArg (· + 1) h.consecutive
    · rw [hresults]
      refine ⟨_, List.mem_cons_self, ?_⟩
      have hexceeded : m.thresholds.exceeded
          (crew.shared.error_tracker.record_error task.uri task.size e) = true := by
        have htotal := h.total
        have hconsecutive := h.consecutive
        rw [hshared] at henough
        rw [Thresholds.exceeded_iff]
        unfold PrepareErrorTracker.record_error
        unfold Thresholds.enough at henough
        dsimp only at henough ⊢
        omega
      rw [if_pos hexceeded]
      exact Option.some_ne_none _

/-- Enough errors before the last chunk: the puts end, and the bar does not. -/
theorem hangs_when_aborted {begun later : List (List PrepareTask)}
    (hsome : ∀ chunk ∈ begun ++ later, chunk ≠ []) (hworkers : 0 < m.concurrency)
    (hlater : later ≠ []) (hless : begun.flatten.length < m.length)
    (henough : m.thresholds.enough ≤ begun.flatten.length) :
    ¬m.machine.Ends Creation.Returns (.start m (begun ++ later)) := by
  have hput : ∀ {c : Creation} {a crew}, (AllFail m.thresholds c.crew ∧ ∃ mid, c.later = mid ++ later) →
      Puts m (begun ++ later) c → (∀ k result, a = .Work k result → result = .error "") →
      (putTrade m.thresholds m.aborted).step c.crew a = some crew →
      AllFail m.thresholds crew ∧ ∃ mid, c.later = mid ++ later := by
    rintro c a crew ⟨hfail, hmid⟩ _ hpick hcrew
    exact ⟨allFail_step hfail hpick hcrew, hmid⟩
  have hnext : ∀ {c : Creation} {chunk rest},
      (AllFail m.thresholds c.crew ∧ ∃ mid, c.later = mid ++ later) → Puts m (begun ++ later) c →
      c.crew.over = true → c.later = chunk :: rest → c.error_result = none →
      AllFail m.thresholds (c.crew.next chunk) ∧ ∃ mid, rest = mid ++ later := by
    rintro c chunk rest ⟨hfail, mid, hmid⟩ hputs hover hrest hnone
    refine ⟨⟨hfail.total, hfail.consecutive, hfail.aborted⟩, ?_⟩
    cases mid with
    | nil =>
      -- all of `begun` has failed, which is enough for an error
      obtain ⟨begun', hchunks, hkept⟩ := hputs.begun
      rw [hmid, List.nil_append, List.append_cancel_right_eq] at hchunks
      subst hchunks
      have hposition := position_of_over hputs hover hkept
      obtain ⟨r, hr, herror⟩ := hfail.aborted (hposition ▸ henough)
      rw [(Crew.over_iff.mp hover).2.2, List.nil_append] at hr
      exact absurd (error_result_none.mp hnone r hr) herror
    | cons first mid =>
      rw [hmid, List.cons_append] at hrest
      cases hrest
      exact ⟨mid, rfl⟩
  have hstart : AllFail m.thresholds (Crew.start m.concurrency [] {}) ∧
      ∃ mid, begun ++ later = mid ++ later := by
    refine ⟨⟨rfl, rfl, fun hnone => ?_⟩, begun, rfl⟩
    have hone : 1 ≤ m.thresholds.enough := Nat.le_max_left _ _
    exact absurd (hone.trans hnone) (Nat.not_succ_le_zero 0)
  obtain ⟨es, c, hrun, hputs, hover, hmonitor, hfail, mid, hmid⟩ :=
    exists_puts (P := fun c => AllFail m.thresholds c.crew ∧ ∃ mid, c.later = mid ++ later)
      (fun _ => .error "") hsome hworkers hstart hput hnext
  obtain ⟨begun', hchunks, hkept⟩ := hputs.begun
  rw [hmid, ← List.append_assoc, List.append_cancel_right_eq] at hchunks
  have hposition := position_of_over hputs hover.1 hkept
  have herror : c.error_result ≠ none := by
    refine hover.2.resolve_left fun hnil => ?_
    rw [hmid] at hnil
    exact hlater (List.append_eq_nil_iff.mp hnil).2
  have hafter : c.afterPuts m = { c with main := .Joining } := by
    unfold Creation.afterPuts
    rw [Option.isSome_iff_ne_none.mpr herror, Bool.or_true, if_pos rfl]
  rw [hafter] at hrun
  have hbar : c.crew.shared.position < m.length := by
    rw [hchunks, List.flatten_append, List.length_append] at hless
    omega
  exact hangs_before_end (c := { c with main := .Joining }) rfl hmonitor hbar hrun

/-- The first put that is over fails, and the others are written. -/
structure OneFails (crew : Crew PrepareTask Nat TaskResult Progress) : Prop where
  failed : crew.shared.error_tracker.failed_objects.length ≤ 1
  first : crew.shared.error_tracker.failed_objects = [] → crew.shared.position = 0
  created : ∀ r ∈ crew.finished ++ crew.collected, r.2.error = none

def oneFails (crew : Crew PrepareTask Nat TaskResult Progress) : Except String Unit :=
  if crew.shared.error_tracker.failed_objects.isEmpty then .error "" else .ok ()

theorem oneFails_step (h : OneFails crew) (htally : Tallied m.thresholds crew)
    (hmany : 1 < m.thresholds.enough)
    (hpick : ∀ k result, a = .Work k result → result = oneFails crew)
    (hstep : (putTrade m.thresholds m.aborted).step crew a = some crew') : OneFails crew' := by
  unfold oneFails at hpick
  rcases put_cases hstep with ⟨hshared, hperm⟩ | ⟨k, task, rfl, hshared, hresults⟩ |
    ⟨k, task, e, error_tracker, rfl, rfl, hshared, hresults⟩
  · refine ⟨hshared ▸ h.failed, fun hnone => ?_, fun r hr => ?_⟩
    · rw [hshared] at hnone ⊢
      exact h.first hnone
    · exact h.created r (hperm.mem_iff.mp hr)
  · have hsome : crew.shared.error_tracker.failed_objects ≠ [] := by
      intro hnone
      have hresult := hpick k _ rfl
      rw [hnone, List.isEmpty_nil, if_pos rfl] at hresult
      cases hresult
    refine ⟨hshared ▸ h.failed, fun hnone => ?_, fun r hr => ?_⟩
    · rw [hshared] at hnone
      exact absurd hnone hsome
    · rw [hresults] at hr
      rcases List.mem_cons.mp hr with rfl | hr
      · rfl
      · exact h.created r hr
  · have hnone : crew.shared.error_tracker.failed_objects = [] := by
      by_contra hsome
      have hresult := hpick k _ rfl
      rw [if_neg (mt List.isEmpty_iff.mp hsome)] at hresult
      cases hresult
    have htotal := htally.failed
    have hconsecutive := htally.consecutive
    rw [hnone, List.length_nil] at htotal
    have hunder : m.thresholds.exceeded
        (crew.shared.error_tracker.record_error task.uri task.size e) = false := by
      rw [← Bool.not_eq_true, Thresholds.exceeded_iff]
      unfold PrepareErrorTracker.record_error
      unfold Thresholds.enough at hmany
      dsimp only
      omega
    refine ⟨?_, fun hnil => ?_, fun r hr => ?_⟩
    · rw [hshared]
      unfold PrepareErrorTracker.record_error
      dsimp only
      rw [hnone]
      exact le_rfl
    · rw [hshared] at hnil
      unfold PrepareErrorTracker.record_error at hnil
      exact absurd hnil (List.append_ne_nil_of_right_ne_nil _ (List.cons_ne_nil _ _))
    · rw [hresults] at hr
      rcases List.mem_cons.mp hr with rfl | hr
      · rw [hunder]
        rfl
      · exact h.created r hr

/-- One object has failed of two at least, and no worker is left to put it again. -/
theorem hangs_when_retried (hsome : ∀ chunk ∈ chunks, chunk ≠ []) (hworkers : 0 < m.concurrency)
    (hfew : m.concurrency < 4) (htwo : 2 ≤ m.length) (hfull : m.length ≤ chunks.flatten.length)
    (hmany : 1 < m.thresholds.enough) : ¬m.machine.Ends Creation.Returns (.start m chunks) := by
  have hstart : OneFails (Crew.start m.concurrency [] {}) :=
    ⟨Nat.zero_le _, fun _ => rfl, fun r hr => absurd hr List.not_mem_nil⟩
  obtain ⟨es, c, hrun, hputs, hover, hmonitor, hone⟩ :=
    exists_puts (P := fun c => OneFails c.crew) oneFails hsome hworkers hstart
      (fun hone hputs hpick hcrew => oneFails_step hone hputs.tallied hmany hpick hcrew)
      fun hone _ _ _ _ => ⟨hone.failed, hone.first, hone.created⟩
  have hnone : c.error_result = none :=
    error_result_none.mpr fun r hr => hone.created r (List.mem_append_right _ hr)
  have hlater : c.later = [] := hover.2.resolve_right fun hsome => hsome hnone
  obtain ⟨begun, hchunks, hkept⟩ := hputs.begun
  rw [hlater, List.append_nil] at hchunks
  subst hchunks
  have hposition := position_of_over hputs hover.1 hkept
  have hfailures : c.failures.length = 1 := by
    refine Nat.le_antisymm hone.failed (List.length_pos_iff.mpr fun hnil => ?_)
    have hzero := hone.first hnil
    omega
  have hbegin : c.beginRetry m =
      { c with main := .Retrying (.Retrying (.start 0 c.failures ())) } := by
    have hstrategy : (determine_retry_strategy 1 m.length).1 = true := by
      unfold determine_retry_strategy
      rw [if_neg (by omega), if_neg (by omega)]
      split <;> rfl
    have hsome : c.failures.isEmpty = false := by
      rw [← Bool.not_eq_true, List.isEmpty_iff, ← List.length_eq_zero_iff, hfailures]
      exact Nat.one_ne_zero
    unfold Creation.beginRetry RetryPhase.start
    rw [hsome, hfailures, hstrategy, Nat.div_eq_of_lt hfew]
    rfl
  unfold Creation.afterPuts at hrun
  rw [hnone] at hrun
  cases hfirst : m.monitor_first with
  | false =>
    rw [hfirst, hbegin] at hrun
    exact hangs_in_retry rfl hrun
  | true =>
    -- the monitor ends, and then the retry begins
    rw [hfirst, Bool.true_or, if_pos rfl] at hrun
    have hlook : m.step { c with main := .Joining } .Look =
        some { c with main := .Joining, monitoring := false } := by
      unfold Making.step
      exact if_pos ⟨hmonitor, hfull.trans hposition.ge⟩
    have hjoin : m.step { c with main := .Joining, monitoring := false } .Join =
        some { c with
          main := .Retrying (.Retrying (.start 0 c.failures ())), monitoring := false } := by
      unfold Making.step Creation.afterJoin
      dsimp only
      rw [if_pos rfl, hfirst]
      have herror : ({ c with main := .Joining, monitoring := false } : Creation).error_result =
          none := hnone
      rw [herror]
      have hbegin' : Creation.beginRetry m { c with main := .Joining, monitoring := false } =
          { c.beginRetry m with monitoring := false } := by
        unfold Creation.beginRetry Creation.failures Creation.retries
        dsimp only
        split <;> rfl
      show some (Creation.beginRetry m _) = _
      rw [hbegin', hbegin]
    obtain ⟨d, hd, hmain⟩ : ∃ d, m.step { c with main := .Joining, monitoring := false } .Join =
        some d ∧ d.main = .Retrying (.Retrying (.start 0 c.failures ())) := ⟨_, hjoin, rfl⟩
    have htail : m.machine.run { c with main := .Joining } [.Look, .Join] = some d :=
      Machine.run_cons_iff.mpr ⟨_, hlook, Machine.run_cons_iff.mpr ⟨_, hd, rfl⟩⟩
    exact hangs_in_retry hmain (Machine.run_append_iff.mpr ⟨_, hrun, htail⟩)

/-- A phase returns in each of its runs exactly when nothing makes it wait for ever. -/
theorem phase_ends_iff (hsome : ∀ chunk ∈ chunks, chunk ≠ []) :
    m.machine.Ends Creation.Returns (.start m chunks) ↔ Finishes m chunks := by
  constructor
  · intro hends
    have hworkers : chunks = [] ∨ 0 < m.concurrency := by
      by_contra hnot
      rw [not_or, Nat.not_lt, Nat.le_zero] at hnot
      exact hangs_without_workers hnot.1 hnot.2 hsome hends
    have hfull : m.length ≤ chunks.flatten.length := by
      by_contra hshort
      exact hangs_when_short hsome (Nat.lt_of_not_le hshort) hends
    refine ⟨hworkers, hfull, fun begun later hchunks hlater hless => ?_, ?_⟩
    · subst hchunks
      by_contra henough
      refine hangs_when_aborted hsome (hworkers.resolve_left fun hnil => ?_) hlater hless
        (Nat.le_of_not_lt henough) hends
      exact hlater (List.append_eq_nil_iff.mp hnil).2
    · by_contra hnot
      rw [not_or, not_or, Nat.not_le, Nat.not_le] at hnot
      obtain ⟨hfew, htwo, hmany⟩ := hnot
      have hone : 1 ≤ m.thresholds.enough := Nat.le_max_left _ _
      refine hangs_when_retried hsome (hworkers.resolve_left fun hnil => ?_) hfew htwo hfull
        (by omega) hends
      rw [hnil, List.flatten_nil, List.length_nil] at hfull
      omega
  · intro hfin
    exact Machine.ends_of_rank (fun c e d hc hstep => going_step hc hstep)
      (fun c hc => phase_goes_on hc hfin) (going_start hsome)

end sai3_bench.prepare
