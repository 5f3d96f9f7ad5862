-- The parallel prepare strategy (prepare/parallel.rs): all turns are planned
-- first, then the plans take turns to make their objects, which are put in
-- chunks.
import Sai3Bench.ObjectAddresses
import Sai3Bench.ParallelPlans
import Sai3Bench.PreparePuts
import Sai3Bench.Serde

namespace sai3_bench.prepare.parallel

open directory_tree size_generator metadata_cache
open serde (mem_mapM_ok)

/-! ## The plans of all turns -/

/-- What a run meets: whether the INFO level is logged, what the store lists,
how the puts of each chunk end, in the order in which they are done, and the time. -/
structure ParallelEvent where
  info_enabled : Bool := false
  stream : Path → List (Except String Path)
  puts : List (List (PrepareTask × Put)) := []
  retries : List (PrepareFailure × Put) := []
  now : Nat := 0

/-- The line that logs a plan makes a generator of its own, which may fail. -/
def logPlan (info_enabled : Bool) : Option (PreparePlan × Nat) → Except String Unit
  | some (plan, _) =>
    if info_enabled then (SizeGeneratorImpl.of plan.size_spec).map fun _ => () else .ok ()
  | none => .ok ()

/-- The plan of each turn that makes any objects, with how many it makes. -/
def plansOf (job : Job) (e : ParallelEvent) (cache : Option MetadataCache) :
    List Turn → Except String (List (PreparePlan × Nat))
  | [] => .ok []
  | turn :: turns => match planTurn job e.stream (coverage cache turn) turn with
    | .error msg => .error msg
    | .ok plan => match logPlan e.info_enabled plan with
      | .error msg => .error msg
      | .ok _ => (plansOf job e cache turns).map (plan.toList ++ ·)

/-! ## The rounds -/

section

variable {r : Random}

structure PlanState (r : Random) where
  plan : PreparePlan
  next_idx : Nat := 0
  size_generator : SizeGenerator r

namespace PlanState

/-- The generators of the plans, which are seeded before anything is put. -/
def of (r : Random) (plan : PreparePlan) : Except String (PlanState r) :=
  match SizeGenerator.new_with_seed r plan.size_spec plan.seed with
  | .error _ => .error "Failed to create size generator"
  | .ok g => .ok { plan := plan, size_generator := g }

/-- The next number of a plan: a size is drawn, and there is a task if it is to be made. -/
def take (job : Job) (state : PlanState r) : Option PrepareTask × PlanState r :=
  if state.plan.count ≤ state.next_idx then (none, state)
  else
    let idx := state.next_idx
    let (size, size_generator) := state.size_generator.generate
    let state := { state with next_idx := idx + 1, size_generator := size_generator }
    if state.plan.selects job idx then (some ⟨state.plan.uri job idx, size, idx⟩, state)
    else (none, state)

/-- The tasks that a plan has still to make. -/
def tasks (job : Job) (state : PlanState r) : List PrepareTask :=
  createTasks (state.plan.selects job) (fun idx => some (state.plan.uri job idx))
    state.size_generator (List.range' state.next_idx (state.plan.count - state.next_idx))

end PlanState

/-- In each round every plan takes its next number. -/
def rounds (job : Job) : Nat → List (PlanState r) → List PrepareTask
  | 0, _ => []
  | n + 1, states =>
    let taken := states.map (PlanState.take job)
    taken.filterMap (·.1) ++ rounds job n (taken.map (·.2))

/-- The rounds end when no plan is left. -/
def roundsOf (states : List (PlanState r)) : Nat := (states.map (·.plan.count)).foldr max 0

end

/-! ## The chunks -/

def TASK_CHUNK_SIZE : Nat := 100000

/-- The tasks in chunks; `chunk_tasks` is the one that is being filled. -/
def chunks (size : Nat) : List PrepareTask → List PrepareTask → List (List PrepareTask)
  | chunk_tasks, [] => if chunk_tasks.isEmpty then [] else [chunk_tasks]
  | chunk_tasks, task :: tasks =>
    let chunk_tasks := chunk_tasks ++ [task]
    if size ≤ chunk_tasks.length then chunk_tasks :: chunks size [] tasks
    else chunks size chunk_tasks tasks

def aborted (t : PrepareErrorTracker) : String :=
  s!"Prepare aborted: {t.total_errors} total errors (max: {DEFAULT_PREPARE_MAX_ERRORS}) or {t.consecutive_errors} consecutive errors (max: {DEFAULT_PREPARE_MAX_CONSECUTIVE_ERRORS})"

/-- The chunks are put one after the other, until too many errors end the phase. -/
def runChunks (now : Nat) : Execution → List (List PrepareTask) →
    List (List (PrepareTask × Put)) → Option Execution
  | x, [], [] => some x
  | x, tasks :: chunks, puts :: rest =>
    if (puts.map (·.1)).isPerm tasks then
      let x := x.run aborted now puts
      if x.error_result.isSome then if rest.isEmpty then some x else none
      else runChunks now x chunks rest
    else none
  | _, _, _ => none

/-! ## The run -/

inductive Outcome
  | Returned (prepared : List PreparedObject)
  | Failed (error : String)
  | Hung

structure Parallel where
  objects : Objects
  cache : Option MetadataCache
  outcome : Outcome

namespace Parallel

def Returns (p : Parallel) : Prop := ∃ prepared, p.outcome = .Returned prepared

end Parallel

/-- All plans are carried out. -/
def create (job : Job) (objects : Objects) (cache : Option MetadataCache)
    (tasks : List PrepareTask) (total_to_create : Nat) (e : ParallelEvent) : Option Parallel :=
  if job.concurrency = 0 ∧ tasks ≠ [] then
    -- no task gets a permit
    if e.puts.isEmpty && e.retries.isEmpty then some ⟨objects, cache, .Hung⟩ else none
  else (runChunks e.now { cache := cache, objects := objects }
      (chunks TASK_CHUNK_SIZE [] tasks) e.puts).bind fun x =>
    -- the progress bar waits for every number that is missing
    let full := total_to_create ≤ e.puts.flatten.length
    match x.error_result with
    | some msg =>
      if e.retries.isEmpty then
        some ⟨x.objects, x.cache, if full then .Failed msg else .Hung⟩
      else none
    | none => (retry_failed_objects x.error_tracker.failed_objects (job.concurrency / 4)
        total_to_create e.retries).map fun
      | .Hangs => ⟨x.objects, x.cache, .Hung⟩
      | .Ends successes =>
        let prepared := x.created ++ successes.map fun f => ⟨f.uri, f.size, true⟩
        ⟨putRetried x.objects successes, x.cache, if full then .Returned prepared else .Hung⟩

/-- The objects of all turns, when nothing is to be made. -/
def existingOf (r : Random) (job : Job) : List Turn → Except String (List PreparedObject)
  | [] => .ok []
  | turn :: turns => match existingObjects r job turn with
    | .error msg => .error msg
    | .ok objects => (existingOf r job turns).map (objects ++ ·)

def prepare_parallel (r : Random) (job : Job) (objects : Objects) (cache : Option MetadataCache)
    (e : ParallelEvent) : Option Parallel :=
  let quiet (outcome : Outcome) : Option Parallel :=
    if e.puts.isEmpty && e.retries.isEmpty then some ⟨objects, cache, outcome⟩ else none
  match plansOf job e cache job.turns with
  | .error msg => quiet (.Failed msg)
  | .ok plans =>
    let total_to_create := (plans.map (·.2)).sum
    if total_to_create = 0 then match existingOf r job job.turns with
      | .error msg => quiet (.Failed msg)
      | .ok prepared => quiet (.Returned prepared)
    else match (plans.map (·.1)).mapM (PlanState.of r) with
      | .error msg => quiet (.Failed msg)
      | .ok states => create job objects cache (rounds job (roundsOf states) states) total_to_create e

/-! ## The plans are those of the turns -/

variable {r : Random} {job : Job} {cache : Option MetadataCache} {objects : Objects}
  {e : ParallelEvent} {turns : List Turn}

/-- The plan of the first turn, if it has one, comes before those of the other turns. -/
theorem plansOf_cons {turn : Turn} {plans : List (PreparePlan × Nat)}
    (h : plansOf job e cache (turn :: turns) = .ok plans) :
    ∃ plan rest, planTurn job e.stream (coverage cache turn) turn = .ok plan ∧
      plansOf job e cache turns = .ok rest ∧ plans = plan.toList ++ rest := by
  unfold plansOf at h
  split at h
  · cases h
  · rename_i plan hplan
    split at h
    · cases h
    · cases hrest : plansOf job e cache turns with
      | error msg =>
        rw [hrest] at h
        cases h
      | ok rest =>
        rw [hrest] at h
        cases h
        exact ⟨plan, rest, hplan, rfl, rfl⟩

theorem mem_plansOf {plans : List (PreparePlan × Nat)} (h : plansOf job e cache turns = .ok plans)
    {p : PreparePlan × Nat} : p ∈ plans ↔
      ∃ turn ∈ turns, planTurn job e.stream (coverage cache turn) turn = .ok (some p) := by
  induction turns generalizing plans with
  | nil =>
    cases h
    simp
  | cons turn turns ih =>
    obtain ⟨plan, rest, hplan, hrest, rfl⟩ := plansOf_cons h
    rw [List.mem_append, Option.mem_toList, ih hrest, List.exists_mem_cons_iff, hplan,
      Except.ok.injEq]

/-- A plan makes something. -/
theorem plansOf_pos {plans : List (PreparePlan × Nat)} (h : plansOf job e cache turns = .ok plans)
    {p : PreparePlan × Nat} (hp : p ∈ plans) : 0 < p.2 := by
  obtain ⟨turn, _, hplan⟩ := (mem_plansOf h).mp hp
  obtain ⟨_, _, _, _, ⟨_, hnone⟩ | ⟨hpos, hsome⟩⟩ := planTurn_ok hplan
  · cases hnone
  · cases hsome
    exact hpos

/-! ## The rounds make the tasks of the plans -/

theorem PlanState.take_tasks (state : PlanState r) :
    state.tasks job = (state.take job).1.toList ++ (state.take job).2.tasks job := by
  unfold PlanState.take
  split
  · rfl
  · rename_i hmore
    have hrange : List.range' state.next_idx (state.plan.count - state.next_idx) =
        state.next_idx :: List.range' (state.next_idx + 1)
          (state.plan.count - (state.next_idx + 1)) := by
      have hcount : state.plan.count - state.next_idx =
          state.plan.count - (state.next_idx + 1) + 1 := by omega
      rw [hcount, List.range'_succ]
    dsimp only
    cases hsel : state.plan.selects job state.next_idx with
    | true =>
      rw [if_pos rfl]
      unfold PlanState.tasks
      rw [hrange, createTasks, hsel]
      rfl
    | false =>
      rw [if_neg Bool.false_ne_true]
      unfold PlanState.tasks
      rw [hrange, createTasks, hsel]
      rfl

theorem PlanState.take_next (state : PlanState r) : (state.take job).2.plan = state.plan ∧
    state.plan.count - (state.take job).2.next_idx = state.plan.count - state.next_idx - 1 := by
  unfold PlanState.take
  split
  · refine ⟨rfl, ?_⟩
    dsimp only
    omega
  · dsimp only
    split
    · refine ⟨rfl, ?_⟩
      dsimp only
      omega
    · refine ⟨rfl, ?_⟩
      dsimp only
      omega

/-- The rounds interleave the tasks of the plans. -/
theorem rounds_perm {n : Nat} {states : List (PlanState r)}
    (hn : ∀ state ∈ states, state.plan.count - state.next_idx ≤ n) :
    (rounds job n states).Perm (states.flatMap (PlanState.tasks job)) := by
  induction n generalizing states with
  | zero =>
    have hnone : states.flatMap (PlanState.tasks job) = [] := by
      rw [List.flatMap_eq_nil_iff]
      intro state hstate
      unfold PlanState.tasks
      rw [Nat.le_zero.mp (hn state hstate)]
      rfl
    rw [hnone]
    exact .refl _
  | succ n ih =>
    have hnext : ∀ state ∈ (states.map (PlanState.take job)).map (·.2),
        state.plan.count - state.next_idx ≤ n := by
      intro next hnext
      obtain ⟨taken, htaken, rfl⟩ := List.mem_map.mp hnext
      obtain ⟨state, hstate, rfl⟩ := List.mem_map.mp htaken
      have hle := hn state hstate
      obtain ⟨hplan, hleft⟩ := @PlanState.take_next r job state
      rw [hplan, hleft]
      omega
    have htasks : states.flatMap (PlanState.tasks job) = states.flatMap fun state =>
        (state.take job).1.toList ++ (state.take job).2.tasks job :=
      congrArg states.flatMap (funext PlanState.take_tasks)
    unfold rounds
    dsimp only
    rw [List.filterMap_map, List.filterMap_eq_flatMap_toList]
    refine ((ih hnext).append_left _).trans ?_
    rw [List.map_map, List.flatMap_map, htasks]
    exact List.flatMap_append_perm states _ _

theorem mem_rounds {n : Nat} {states : List (PlanState r)}
    (hn : ∀ state ∈ states, state.plan.count - state.next_idx ≤ n) {task : PrepareTask} :
    task ∈ rounds job n states ↔ ∃ state ∈ states, task ∈ state.tasks job := by
  rw [(rounds_perm hn).mem_iff, List.mem_flatMap]

theorem le_roundsOf {states : List (PlanState r)} {state : PlanState r} (h : state ∈ states) :
    state.plan.count ≤ roundsOf states := by
  unfold roundsOf
  induction states with
  | nil => cases h
  | cons first states ih =>
    rw [List.map_cons, List.foldr_cons]
    rcases List.mem_cons.mp h with rfl | h
    · exact Nat.le_max_left ..
    · exact (ih h).trans (Nat.le_max_right ..)

/-! ## The chunks are put in turn -/

theorem flatten_chunks {size : Nat} {chunk_tasks tasks : List PrepareTask} :
    (chunks size chunk_tasks tasks).flatten = chunk_tasks ++ tasks := by
  induction tasks generalizing chunk_tasks with
  | nil =>
    unfold chunks
    split
    · rename_i hempty
      rw [List.isEmpty_iff.mp hempty]
      rfl
    · simp
  | cons task tasks ih =>
    unfold chunks
    dsimp only
    split
    · rw [List.flatten_cons, ih, List.nil_append, List.append_assoc, List.singleton_append]
    · rw [ih, List.append_assoc, List.singleton_append]

/-- The chunks are one list of puts. -/
theorem runChunks_eq {now : Nat} {x y : Execution} {cs : List (List PrepareTask)}
    {puts : List (List (PrepareTask × Put))} (h : runChunks now x cs puts = some y) :
    y = x.run aborted now puts.flatten ∧
      (y.error_result = none → (puts.flatten.map (·.1)).Perm cs.flatten) := by
  induction cs generalizing x puts with
  | nil =>
    cases puts with
    | nil =>
      cases h
      exact ⟨rfl, fun _ => List.Perm.refl _⟩
    | cons _ _ => cases h
  | cons tasks cs ih =>
    cases puts with
    | nil => cases h
    | cons ps puts =>
      unfold runChunks at h
      split at h
      · rename_i hperm
        dsimp only at h
        split at h
        · rename_i herror
          split at h
          · rename_i hempty
            cases h
            rw [List.isEmpty_iff.mp hempty, List.flatten_cons, List.flatten_nil, List.append_nil]
            refine ⟨rfl, fun hnone => ?_⟩
            rw [hnone] at herror
            cases herror
          · cases h
        · obtain ⟨hy, hperms⟩ := ih h
          rw [List.flatten_cons, List.flatten_cons, List.map_append]
          refine ⟨?_, fun hnone => (List.isPerm_iff.mp hperm).append (hperms hnone)⟩
          rw [hy]
          unfold Execution.run
          rw [List.foldl_append]
      · cases h

/-! ## Runs that return -/

/-- A task of the plan of a turn. -/
def Plans (r : Random) (job : Job) (e : ParallelEvent) (cache : Option MetadataCache) (turn : Turn)
    (task : PrepareTask) : Prop :=
  ∃ plan count g, planTurn job e.stream (coverage cache turn) turn = .ok (some (plan, count)) ∧
    SizeGenerator.new_with_seed r plan.size_spec plan.seed = .ok g ∧ task ∈ plan.tasks job g

theorem of_ok {plan : PreparePlan} {state : PlanState r} (h : PlanState.of r plan = .ok state) :
    ∃ g, SizeGenerator.new_with_seed r plan.size_spec plan.seed = .ok g ∧
      state = { plan := plan, size_generator := g } := by
  unfold PlanState.of at h
  split at h
  · cases h
  · rename_i g hg
    cases h
    exact ⟨g, hg, rfl⟩

/-- The tasks of all rounds are those of the plans. -/
theorem mem_tasks {plans : List (PreparePlan × Nat)} {states : List (PlanState r)}
    (hplans : plansOf job e cache turns = .ok plans)
    (hstates : (plans.map (·.1)).mapM (PlanState.of r) = .ok states) {task : PrepareTask} :
    task ∈ rounds job (roundsOf states) states ↔ ∃ turn ∈ turns, Plans r job e cache turn task := by
  rw [mem_rounds fun state hstate => (Nat.sub_le ..).trans (le_roundsOf hstate)]
  constructor
  · rintro ⟨state, hstate, htask⟩
    obtain ⟨plan, hplan, hof⟩ := (mem_mapM_ok hstates).mp hstate
    obtain ⟨⟨_, count⟩, hp, rfl⟩ := List.mem_map.mp hplan
    obtain ⟨turn, hturn, hplanned⟩ := (mem_plansOf hplans).mp hp
    obtain ⟨g, hg, rfl⟩ := of_ok hof
    refine ⟨turn, hturn, _, count, g, hplanned, hg, ?_⟩
    unfold PlanState.tasks at htask
    unfold PreparePlan.tasks
    rw [List.range_eq_range']
    exact htask
  · rintro ⟨turn, hturn, plan, count, g, hplanned, hg, htask⟩
    have hp := (mem_plansOf hplans).mpr ⟨turn, hturn, hplanned⟩
    have hof : PlanState.of r plan = .ok { plan := plan, size_generator := g } := by
      unfold PlanState.of
      rw [hg]
    refine ⟨_, (mem_mapM_ok hstates).mpr ⟨plan, List.mem_map_of_mem hp, hof⟩, ?_⟩
    unfold PreparePlan.tasks at htask
    unfold PlanState.tasks
    rw [List.range_eq_range'] at htask
    exact htask

/-- Where nothing is to be made, no turn has a task. -/
theorem not_plans_of_zero {plans : List (PreparePlan × Nat)}
    (hplans : plansOf job e cache turns = .ok plans) (hzero : (plans.map (·.2)).sum = 0)
    {turn : Turn} (hturn : turn ∈ turns) (task : PrepareTask) :
      ¬ Plans r job e cache turn task := by
  rintro ⟨plan, count, g, hplan, _⟩
  have hp : (plan, count) ∈ plans := (mem_plansOf hplans).mpr ⟨turn, hturn, hplan⟩
  have hpos : 0 < count := plansOf_pos hplans hp
  have hcount : count = 0 :=
    List.sum_eq_zero_iff_forall_eq_nat.mp hzero count (List.mem_map.mpr ⟨_, hp, rfl⟩)
  omega

/-- A run without any puts leaves the objects and the cache. -/
theorem quiet_eq {p : Parallel} {outcome : Outcome}
    (h : (if e.puts.isEmpty && e.retries.isEmpty then some (⟨objects, cache, outcome⟩ : Parallel)
      else none) = some p) :
    e.puts = [] ∧ e.retries = [] ∧ p.objects = objects ∧ p.cache = cache := by
  split at h
  · rename_i hempty
    rw [Bool.and_eq_true, List.isEmpty_iff, List.isEmpty_iff] at hempty
    cases h
    exact ⟨hempty.1, hempty.2, rfl, rfl⟩
  · cases h

/-- What the creation has put when it returns, and what it leaves. -/
theorem create_returns {p : Parallel} {tasks : List PrepareTask} {total_to_create : Nat}
    (h : create job objects cache tasks total_to_create e = some p) (hret : p.Returns) :
    ∃ x successes,
      x = ({ cache := cache, objects := objects } : Execution).run aborted e.now e.puts.flatten ∧
      retry_failed_objects x.error_tracker.failed_objects (job.concurrency / 4) total_to_create
        e.retries = some (.Ends successes) ∧ x.error_result = none ∧
      p.objects = putRetried x.objects successes ∧ p.cache = x.cache ∧
      (e.puts.flatten.map (·.1)).Perm tasks ∧
      p.outcome = .Returned (x.created ++ successes.map fun f => ⟨f.uri, f.size, true⟩) := by
  obtain ⟨prepared, hret⟩ := hret
  unfold create at h
  split at h
  · split at h <;> cases h
    cases hret
  · obtain ⟨x, hx, h⟩ := Option.bind_eq_some_iff.mp h
    obtain ⟨hrun, hperm⟩ := runChunks_eq hx
    dsimp only at h
    split at h
    · split at h <;> cases h
      dsimp only at hret
      split at hret <;> cases hret
    · rename_i hnone
      obtain ⟨retry, hretry, rfl⟩ := Option.map_eq_some_iff.mp h
      cases retry with
      | Hangs => cases hret
      | Ends successes =>
        have hputs := hperm hnone
        rw [flatten_chunks, List.nil_append] at hputs
        refine ⟨x, successes, hrun, hretry, hnone, rfl, rfl, hputs, ?_⟩
        dsimp only at hret ⊢
        split at hret
        · next hfull => rw [if_pos hfull]
        · cases hret

/-- What a run that returns has put, and what it leaves. -/
theorem prepare_parallel_returns {p : Parallel}
    (h : prepare_parallel r job objects cache e = some p)
    (hret : p.Returns) : ∃ x total_to_create successes,
      x = ({ cache := cache, objects := objects } : Execution).run aborted e.now e.puts.flatten ∧
      retry_failed_objects x.error_tracker.failed_objects (job.concurrency / 4) total_to_create
        e.retries = some (.Ends successes) ∧
      p.objects = putRetried x.objects successes ∧ p.cache = x.cache ∧
      ∀ task, task ∈ e.puts.flatten.map (·.1) ↔
        ∃ turn ∈ job.turns, Plans r job e cache turn task := by
  unfold prepare_parallel at h
  dsimp only at h
  split at h
  · obtain ⟨prepared, hret⟩ := hret
    split at h <;> cases h
    cases hret
  · rename_i plans hplans
    split at h
    · rename_i hzero
      obtain ⟨hputs, hretries, hobjects, hcache⟩ :
          e.puts = [] ∧ e.retries = [] ∧ p.objects = objects ∧ p.cache = cache := by
        split at h
        · exact quiet_eq h
        · exact quiet_eq h
      rw [hputs, hretries]
      refine ⟨_, 0, [], rfl, rfl, hobjects, hcache, fun task => ?_⟩
      simp only [List.flatten_nil, List.map_nil, List.not_mem_nil, false_iff]
      rintro ⟨turn, hturn, hplanned⟩
      exact not_plans_of_zero hplans hzero hturn task hplanned
    · split at h
      · obtain ⟨prepared, hret⟩ := hret
        split at h <;> cases h
        cases hret
      · rename_i states hstates
        obtain ⟨x, successes, hx, hretry, -, hobjects, hcache, hperm, -⟩ := create_returns h hret
        refine ⟨x, _, successes, hx, hretry, hobjects, hcache, fun task => ?_⟩
        rw [hperm.mem_iff, mem_tasks hplans hstates]

end sai3_bench.prepare.parallel
