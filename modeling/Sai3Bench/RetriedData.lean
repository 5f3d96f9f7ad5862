-- The data of the objects that a prepare phase puts again (prepare/sequential.rs,
-- prepare/parallel.rs, prepare/retry.rs): the main pass makes it as the spec says, and
-- the deferred retry from what is recorded of a failure.
import Sai3Bench.ObjectData
import Sai3Bench.ParallelPrepares
import Sai3Bench.Serde
import Sai3Bench.SequentialPrepares

namespace sai3_bench.prepare

open directory_tree size_generator metadata_cache
open config.written (FillPattern)
open serde (mapM_cons_ok mem_mapM_ok)

/-! ## Specs and tasks with their data -/

/-- A job whose specs say what the data of their objects is. -/
structure DataJob where
  job : Job
  specs : List DataSpec
  ensure_objects : job.config.ensure_objects = specs.map (·.toEnsureSpec)

namespace DataJob

def turns (d : DataJob) : List (DataSpec × Turn) :=
  d.specs.flatMap fun spec => d.job.pools.map fun pool => (spec, ⟨spec.toEnsureSpec, pool⟩)

theorem turns_job (d : DataJob) : d.turns.map (·.2) = d.job.turns := by
  unfold turns Job.turns
  rw [d.ensure_objects, List.map_flatMap, List.flatMap_map]
  simp [Function.comp_def]

end DataJob

/-- A task with the data of its object. -/
structure DataTask extends PrepareTask where
  fill : FillPattern
  dedup : Nat
  compress : Nat

namespace DataTask

/-- What the main pass puts. -/
def write (task : DataTask) : Write :=
  ⟨task.uri, generate_data task.fill task.size task.dedup task.compress⟩

/-- What is recorded when the put fails. -/
def failure (task : DataTask) (error : String) : PrepareFailure := ⟨task.uri, task.size, error⟩

/-- The data of the task is what the spec says. -/
def Follows (task : DataTask) (spec : DataSpec) : Prop :=
  task.fill = spec.fill ∧ task.dedup = spec.dedup_factor ∧ task.compress = spec.compress_factor

end DataTask

/-- What the retry puts: the data is made of the size alone. -/
def retry_write (failure : PrepareFailure) : Write := ⟨failure.uri, .Generated failure.size 1 0⟩

/-- The sequential strategy has one spec at a time. -/
def DataSpec.task (spec : DataSpec) (task : PrepareTask) : DataTask :=
  { task with
    fill := spec.fill
    dedup := spec.dedup_factor
    compress := spec.compress_factor }

/-! ## The tasks of the parallel strategy -/

namespace parallel

structure DataPlan extends PreparePlan where
  fill : FillPattern
  dedup : Nat
  compress : Nat

def data_planTurn (job : Job) (stream : Path → List (Except String Path)) (covers_all : Bool)
    (turn : DataSpec × Turn) : Except String (Option (DataPlan × Nat)) :=
  (planTurn job stream covers_all turn.2).map fun planned => planned.map fun (plan, count) =>
    ({ plan with
        fill := turn.1.fill
        dedup := turn.1.dedup_factor
        compress := turn.1.compress_factor }, count)

/-- A plan without its data. -/
def erase_plan (p : DataPlan × Nat) : PreparePlan × Nat := (p.1.toPreparePlan, p.2)

def data_plansOf (job : Job) (e : ParallelEvent) (cache : Option MetadataCache) :
    List (DataSpec × Turn) → Except String (List (DataPlan × Nat))
  | [] => .ok []
  | turn :: turns => match data_planTurn job e.stream (coverage cache turn.2) turn with
    | .error msg => .error msg
    | .ok plan => match logPlan e.info_enabled (plan.map erase_plan) with
      | .error msg => .error msg
      | .ok _ => (data_plansOf job e cache turns).map (plan.toList ++ ·)

section

variable {r : Random}

structure DataPlanState (r : Random) where
  plan : DataPlan
  next_idx : Nat := 0
  size_generator : SizeGenerator r

namespace DataPlanState

def of (r : Random) (plan : DataPlan) : Except String (DataPlanState r) :=
  match SizeGenerator.new_with_seed r plan.size_spec plan.seed with
  | .error _ => .error "Failed to create size generator"
  | .ok g => .ok { plan := plan, size_generator := g }

def take (job : Job) (state : DataPlanState r) : Option DataTask × DataPlanState r :=
  if state.plan.count ≤ state.next_idx then (none, state)
  else
    let idx := state.next_idx
    let (size, size_generator) := state.size_generator.generate
    let state := { state with next_idx := idx + 1, size_generator := size_generator }
    if state.plan.selects job idx then
      (some
        { uri := state.plan.uri job idx
          size := size
          file_idx := idx
          fill := state.plan.fill
          dedup := state.plan.dedup
          compress := state.plan.compress }, state)
    else (none, state)

/-- The state without the data. -/
def erased (state : DataPlanState r) : PlanState r :=
  ⟨state.plan.toPreparePlan, state.next_idx, state.size_generator⟩

end DataPlanState

def data_rounds (job : Job) : Nat → List (DataPlanState r) → List DataTask
  | 0, _ => []
  | n + 1, states =>
    let taken := states.map (DataPlanState.take job)
    taken.filterMap (·.1) ++ data_rounds job n (taken.map (·.2))

def data_roundsOf (states : List (DataPlanState r)) : Nat := (states.map (·.plan.count)).foldr max 0

/-! ### Without the data these are the tasks of the strategy -/

variable {job : Job} {state : DataPlanState r} {states : List (DataPlanState r)}

theorem take_erased : state.erased.take job =
    ((state.take job).1.map (·.toPrepareTask), (state.take job).2.erased) := by
  unfold DataPlanState.take PlanState.take DataPlanState.erased
  dsimp only
  by_cases hdone : state.plan.count ≤ state.next_idx
  · rw [if_pos hdone, if_pos hdone]
    rfl
  · rw [if_neg hdone, if_neg hdone]
    by_cases hselected : state.plan.selects job state.next_idx = true
    · rw [if_pos hselected, if_pos hselected]
      rfl
    · rw [if_neg hselected, if_neg hselected]
      rfl

theorem data_rounds_erased (n : Nat) : (data_rounds job n states).map (·.toPrepareTask) =
    rounds job n (states.map (·.erased)) := by
  induction n generalizing states with
  | zero => rfl
  | succ n ih =>
    unfold data_rounds rounds
    dsimp only
    rw [List.map_append, ih, List.map_filterMap]
    simp only [List.map_map, List.filterMap_map, Function.comp_def, take_erased]

/-- The data of a task is that of its plan. -/
theorem mem_data_rounds {n : Nat} {task : DataTask} (h : task ∈ data_rounds job n states) :
    ∃ state ∈ states, task.fill = state.plan.fill ∧ task.dedup = state.plan.dedup ∧
      task.compress = state.plan.compress := by
  induction n generalizing states with
  | zero => cases h
  | succ n ih =>
    unfold data_rounds at h
    dsimp only at h
    rw [List.mem_append] at h
    rcases h with h | h
    · obtain ⟨taken, htaken, htask⟩ := List.mem_filterMap.mp h
      obtain ⟨state, hstate, rfl⟩ := List.mem_map.mp htaken
      refine ⟨state, hstate, ?_⟩
      unfold DataPlanState.take at htask
      split at htask
      · cases htask
      · dsimp only at htask
        split at htask
        · cases htask
          exact ⟨rfl, rfl, rfl⟩
        · cases htask
    · obtain ⟨next, hnext, hdata⟩ := ih h
      rw [List.map_map] at hnext
      obtain ⟨state, hstate, rfl⟩ := List.mem_map.mp hnext
      have hplan : (state.take job).2.plan = state.plan := by
        unfold DataPlanState.take
        dsimp only
        split
        · rfl
        · split <;> rfl
      rw [Function.comp_apply, hplan] at hdata
      exact ⟨state, hstate, hdata⟩

/-! ### The plans of the specs -/

theorem data_roundsOf_erased : data_roundsOf states = roundsOf (states.map (·.erased)) := by
  unfold data_roundsOf roundsOf
  rw [List.map_map]
  rfl

variable {e : ParallelEvent} {cache : Option MetadataCache} {turns : List (DataSpec × Turn)}

/-- The data of a plan is that of a spec. -/
theorem mem_data_plansOf {plans : List (DataPlan × Nat)} (h : data_plansOf job e cache turns = .ok plans)
    {p : DataPlan × Nat} (hp : p ∈ plans) : ∃ turn ∈ turns, p.1.fill = turn.1.fill ∧
      p.1.dedup = turn.1.dedup_factor ∧ p.1.compress = turn.1.compress_factor := by
  induction turns generalizing plans with
  | nil =>
    cases h
    cases hp
  | cons turn turns ih =>
    unfold data_plansOf at h
    split at h
    · cases h
    · rename_i plan hplan
      split at h
      · cases h
      · cases hrest : data_plansOf job e cache turns with
        | error msg =>
          rw [hrest] at h
          cases h
        | ok rest =>
          rw [hrest] at h
          cases h
          rcases List.mem_append.mp hp with hp | hp
          · refine ⟨turn, List.mem_cons_self, ?_⟩
            unfold data_planTurn at hplan
            cases hturn : planTurn job e.stream (coverage cache turn.2) turn.2 with
            | error msg =>
              rw [hturn] at hplan
              cases hplan
            | ok planned =>
              rw [hturn] at hplan
              cases hplan
              obtain ⟨_, _, rfl⟩ := Option.map_eq_some_iff.mp (Option.mem_toList.mp hp)
              exact ⟨rfl, rfl, rfl⟩
          · obtain ⟨turn', hturn', hdata⟩ := ih hrest hp
            exact ⟨turn', List.mem_cons_of_mem _ hturn', hdata⟩

theorem data_plansOf_erased : (data_plansOf job e cache turns).map (·.map erase_plan) =
    plansOf job e cache (turns.map (·.2)) := by
  induction turns with
  | nil => rfl
  | cons turn turns ih =>
    unfold data_plansOf
    rw [List.map_cons, plansOf, ← ih]
    unfold data_planTurn
    cases planTurn job e.stream (coverage cache turn.2) turn.2 with
    | error msg => rfl
    | ok planned =>
      have herase : (planned.map fun (plan, count) =>
          (({ plan with
            fill := turn.1.fill
            dedup := turn.1.dedup_factor
            compress := turn.1.compress_factor } : DataPlan), count)).map erase_plan = planned := by
        cases planned <;> rfl
      dsimp only [Except.map]
      rw [herase]
      cases logPlan e.info_enabled planned with
      | error msg => rfl
      | ok _ =>
        cases data_plansOf job e cache turns with
        | error msg => rfl
        | ok rest =>
          cases planned <;> rfl

theorem of_erased (plan : DataPlan) :
    PlanState.of r plan.toPreparePlan = (DataPlanState.of r plan).map (·.erased) := by
  unfold PlanState.of DataPlanState.of
  cases SizeGenerator.new_with_seed r plan.size_spec plan.seed <;> rfl

/-- The generators of the plans are seeded alike. -/
theorem states_erased {plans : List (DataPlan × Nat)} {erased : List (PlanState r)}
    (h : ((plans.map erase_plan).map (·.1)).mapM (PlanState.of r) = .ok erased) :
    ∃ states, (plans.map (·.1)).mapM (DataPlanState.of r) = .ok states ∧
      states.map (·.erased) = erased := by
  induction plans generalizing erased with
  | nil =>
    cases h
    exact ⟨[], rfl, rfl⟩
  | cons p plans ih =>
    rw [List.map_cons, List.map_cons] at h
    obtain ⟨first, rest, hfirst, hrest, rfl⟩ := mapM_cons_ok.mp h
    obtain ⟨states, hstates, rfl⟩ := ih hrest
    change PlanState.of r p.1.toPreparePlan = _ at hfirst
    rw [of_erased] at hfirst
    cases hstate : DataPlanState.of r p.1 with
    | error msg =>
      rw [hstate] at hfirst
      cases hfirst
    | ok state =>
      rw [hstate] at hfirst
      cases hfirst
      exact ⟨state :: states, mapM_cons_ok.mpr ⟨_, _, hstate, hstates, rfl⟩, rfl⟩

end

end parallel

/-! ## Passes -/

/-- The tasks of a main pass, with how many it is to make: those of one turn, or those of
all turns. -/
inductive DataJob.Makes (r : Random) (d : DataJob) : List DataTask → Nat → Prop
  | Sequential {turn : DataSpec × Turn} {cache : Option MetadataCache} {e : TurnEvent}
      {tasks : List PrepareTask} {actual_to_create : Nat} (hturn : turn ∈ d.turns)
      (hplan : turn.2.plan r d.job cache e = .ok (.Create tasks actual_to_create)) :
      DataJob.Makes r d (tasks.map turn.1.task) actual_to_create
  | Parallel {cache : Option MetadataCache} {e : parallel.ParallelEvent}
      {plans : List (parallel.DataPlan × Nat)} {states : List (parallel.DataPlanState r)}
      (hplans : parallel.data_plansOf d.job e cache d.turns = .ok plans)
      (hstates : (plans.map (·.1)).mapM (parallel.DataPlanState.of r) = .ok states) :
      DataJob.Makes r d (parallel.data_rounds d.job (parallel.data_roundsOf states) states)
        (plans.map (·.2)).sum

/-- How the puts of a main pass end, in the order in which they are done, and those of
the retry. -/
structure Pass where
  tasks : List DataTask
  total_to_create : Nat
  puts : List (DataTask × Put)
  retries : List (PrepareFailure × Put)

namespace Pass

/-- The puts without their data, one after the other. -/
def erased (pass : Pass) : List (PrepareTask × Put) :=
  pass.puts.map fun p => (p.1.toPrepareTask, p.2)

def main (pass : Pass) (aborted : PrepareErrorTracker → String) : Execution :=
  ({ cache := none, objects := ∅ } : Execution).run aborted 0 pass.erased

/-- All tasks are put without an abort, and the retry of the failed ones ends. -/
structure Ends (pass : Pass) (aborted : PrepareErrorTracker → String) (concurrency : Nat)
    (successes : List PrepareFailure) : Prop where
  puts : (pass.puts.map (·.1)).Perm pass.tasks
  goes_on : (pass.main aborted).error_result = none
  retry : retry_failed_objects (pass.main aborted).error_tracker.failed_objects (concurrency / 4)
    pass.total_to_create pass.retries = some (.Ends successes)

/-- A put that failed in the main pass, and was written by the retry. -/
def Retried (pass : Pass) (successes : List PrepareFailure) (task : DataTask) (error : String) : Prop :=
  (task, .Failed error) ∈ pass.puts ∧ task.failure error ∈ successes

/-- What the retry writes are objects whose puts failed, each as the main pass would have
written it. -/
structure RetriesSame (pass : Pass) (successes : List PrepareFailure) : Prop where
  failed : ∀ f ∈ successes, ∃ task error, pass.Retried successes task error ∧ f = task.failure error
  same : ∀ task error, pass.Retried successes task error →
    retry_write (task.failure error) = task.write

end Pass

/-! ### The passes of the two strategies -/

/-- Tasks that are done in some order are those with their data. -/
theorem puts_of_erased {puts : List (PrepareTask × Put)} {tasks : List DataTask}
    (h : (puts.map (·.1)).Perm (tasks.map (·.toPrepareTask))) : ∃ ps : List (DataTask × Put),
      ps.map (fun p => (p.1.toPrepareTask, p.2)) = puts ∧ (ps.map (·.1)).Perm tasks := by
  induction puts generalizing tasks with
  | nil =>
    rw [List.map_nil, List.nil_perm, List.map_eq_nil_iff] at h
    subst h
    exact ⟨[], rfl, .refl _⟩
  | cons p puts ih =>
    obtain ⟨_, put⟩ := p
    rw [List.map_cons] at h
    obtain ⟨task, htask, rfl⟩ := List.mem_map.mp (h.mem_iff.mp List.mem_cons_self)
    obtain ⟨before, after, rfl⟩ := List.append_of_mem htask
    rw [List.map_append, List.map_cons] at h
    have hrest := (h.trans List.perm_middle).cons_inv
    rw [← List.map_append] at hrest
    obtain ⟨ps, hps, hperm⟩ := ih hrest
    refine ⟨(task, put) :: ps, ?_, ?_⟩
    · rw [List.map_cons, hps]
    · exact (hperm.cons task).trans List.perm_middle.symm

section

variable {r : Random} {d : DataJob} {successes : List PrepareFailure}

/-- What a strategy puts and retries is a pass. -/
theorem pass_of_puts {tasks : List DataTask} {total_to_create now : Nat}
    {aborted : PrepareErrorTracker → String} {cache : Option MetadataCache} {objects : Objects}
    {puts : List (PrepareTask × Put)} {retries : List (PrepareFailure × Put)} {concurrency : Nat}
    (hperm : (puts.map (·.1)).Perm (tasks.map (·.toPrepareTask)))
    (hgoes : (({ cache := cache, objects := objects } : Execution).run aborted now puts).error_result =
      none)
    (hretry : retry_failed_objects (({ cache := cache, objects := objects } : Execution).run aborted
      now puts).error_tracker.failed_objects (concurrency / 4) total_to_create retries =
        some (.Ends successes)) :
    ∃ pass : Pass, pass.tasks = tasks ∧ pass.total_to_create = total_to_create ∧ pass.erased = puts ∧
      pass.retries = retries ∧ pass.Ends aborted concurrency successes := by
  obtain ⟨ps, rfl, hps⟩ := puts_of_erased hperm
  let x : Execution := { cache := cache, objects := objects }
  let y : Execution := { cache := none, objects := ∅ }
  let puts := ps.map fun p => (p.1.toPrepareTask, p.2)
  obtain ⟨htracker, hresult⟩ : (x.run aborted now puts).error_tracker =
        (y.run aborted 0 puts).error_tracker ∧
      (x.run aborted now puts).error_result = (y.run aborted 0 puts).error_result :=
    errors_run rfl rfl
  rw [hresult] at hgoes
  rw [htracker] at hretry
  exact ⟨⟨tasks, total_to_create, ps, retries⟩, rfl, rfl, rfl, rfl, hps, hgoes, hretry⟩

/-- A turn of the sequential strategy puts nothing, or makes a pass. -/
theorem pass_of_turn {s t : Sequential} {e : TurnEvent} {spec : DataSpec} {turn : Turn}
    (hspec : (spec, turn) ∈ d.turns) (hturn : s.turns.head? = some turn)
    (h : s.step r d.job e = some t) (hrun : t.phase = .Running) :
    e.puts = [] ∧ e.retries = [] ∨ ∃ (pass : Pass) (successes : List PrepareFailure),
      d.Makes r pass.tasks pass.total_to_create ∧
      pass.erased = e.puts ∧ pass.retries = e.retries ∧
      pass.Ends Sequential.aborted d.job.concurrency successes := by
  obtain ⟨_, turn', hturns, hcases⟩ := Sequential.step_cases h hrun
  rw [hturns] at hturn
  cases hturn
  rcases hcases with ⟨_, _, hquiet, _⟩ |
    ⟨tasks, n, _, successes, hplan, _, hperm, _, rfl, hgoes, hretry, _⟩
  · exact .inl (Sequential.quiet_iff.mp hquiet)
  · right
    have herase : (tasks.map spec.task).map (·.toPrepareTask) = tasks := by
      rw [List.map_map]
      exact List.map_id tasks
    rw [← herase] at hperm
    obtain ⟨pass, htasks, htotal, hputs, hretries, hends⟩ := pass_of_puts hperm hgoes hretry
    refine ⟨pass, successes, ?_, hputs, hretries, hends⟩
    rw [htasks, htotal]
    exact .Sequential hspec hplan

/-- A run of the parallel strategy that returns puts nothing, or makes a pass. -/
theorem pass_of_parallel {objects : Objects} {cache : Option MetadataCache} {e : parallel.ParallelEvent}
    {p : parallel.Parallel} (h : parallel.prepare_parallel r d.job objects cache e = some p)
    (hret : p.Returns) : e.puts = [] ∧ e.retries = [] ∨ ∃ (pass : Pass) (successes : List PrepareFailure),
      d.Makes r pass.tasks pass.total_to_create ∧ pass.erased = e.puts.flatten ∧
      pass.retries = e.retries ∧ pass.Ends parallel.aborted d.job.concurrency successes := by
  have hplans : (parallel.data_plansOf d.job e cache d.turns).map (·.map parallel.erase_plan) =
      parallel.plansOf d.job e cache (d.turns.map (·.2)) := parallel.data_plansOf_erased
  rw [d.turns_job] at hplans
  unfold parallel.prepare_parallel at h
  dsimp only at h
  rw [← hplans] at h
  cases hdata : parallel.data_plansOf d.job e cache d.turns with
  | error msg =>
    rw [hdata] at h
    obtain ⟨prepared, hret⟩ := hret
    dsimp only [Except.map] at h
    split at h <;> cases h
    cases hret
  | ok plans =>
    rw [hdata] at h
    dsimp only [Except.map] at h
    split at h
    · left
      split at h
      · obtain ⟨hputs, hretries, _⟩ := parallel.quiet_eq h
        exact ⟨hputs, hretries⟩
      · obtain ⟨hputs, hretries, _⟩ := parallel.quiet_eq h
        exact ⟨hputs, hretries⟩
    · split at h
      · obtain ⟨prepared, hret⟩ := hret
        split at h <;> cases h
        cases hret
      · rename_i erased hstates
        obtain ⟨states, hdata_states, rfl⟩ := parallel.states_erased hstates
        obtain ⟨_, successes, rfl, hretry, hgoes, _, _, hperm, _⟩ := parallel.create_returns h hret
        rw [← parallel.data_roundsOf_erased, ← parallel.data_rounds_erased] at hperm
        obtain ⟨pass, htasks, htotal, hputs, hretries, hends⟩ := pass_of_puts hperm hgoes hretry
        refine .inr ⟨pass, successes, ?_, hputs, hretries, hends⟩
        rw [htasks, htotal, List.map_map]
        exact .Parallel hdata hdata_states

end

/-- A spec whose objects the retry makes as the main pass does. -/
def DataSpec.Regenerates (spec : DataSpec) : Prop :=
  spec.fill ≠ .Zero ∧ spec.dedup_factor = 1 ∧ spec.compress_factor = 0

variable {r : Random} {d : DataJob} {pass : Pass} {aborted : PrepareErrorTracker → String}
  {concurrency : Nat} {successes : List PrepareFailure}

/-- Each task has the data of one of the specs. -/
theorem follows_of_makes {tasks : List DataTask} {n : Nat} (h : d.Makes r tasks n) {task : DataTask}
    (htask : task ∈ tasks) : ∃ turn ∈ d.turns, task.Follows turn.1 := by
  cases h with
  | @Sequential turn _ _ _ _ hturn hplan =>
    obtain ⟨_, _, rfl⟩ := List.mem_map.mp htask
    exact ⟨turn, hturn, rfl, rfl, rfl⟩
  | Parallel hplans hstates =>
    obtain ⟨state, hstate, htask_data⟩ := parallel.mem_data_rounds htask
    obtain ⟨plan, hplan, hof⟩ := (mem_mapM_ok hstates).mp hstate
    obtain ⟨p, hp, rfl⟩ := List.mem_map.mp hplan
    obtain ⟨turn, hturn, hplan_data⟩ := parallel.mem_data_plansOf hplans hp
    unfold parallel.DataPlanState.of at hof
    split at hof
    · cases hof
    · cases hof
      exact ⟨turn, hturn, htask_data.1.trans hplan_data.1, htask_data.2.1.trans hplan_data.2.1,
        htask_data.2.2.trans hplan_data.2.2⟩

/-- The failures of a pass are recorded, one after the other. -/
theorem failed_objects_run {now : Nat} {x : Execution}
    {puts : List (DataTask × Put)} :
    (x.run aborted now (puts.map fun p => (p.1.toPrepareTask, p.2))).error_tracker.failed_objects =
      x.error_tracker.failed_objects ++ puts.filterMap fun
        | (task, .Failed error) => some (task.failure error)
        | (_, .Written) => none := by
  induction puts generalizing x with
  | nil => exact (List.append_nil _).symm
  | cons p puts ih =>
    obtain ⟨task, put⟩ := p
    have hrun : ∀ y : PrepareTask × Put, x.run aborted now (y :: puts.map fun p => (p.1.toPrepareTask, p.2)) =
        (x.complete aborted now y).run aborted now (puts.map fun p => (p.1.toPrepareTask, p.2)) :=
      fun _ => rfl
    rw [List.map_cons, hrun, ih]
    cases put with
    | Written => rfl
    | Failed error => exact List.append_assoc _ _ _

theorem mem_failures {f : PrepareFailure} : f ∈ (pass.main aborted).error_tracker.failed_objects ↔
    ∃ task error, (task, Put.Failed error) ∈ pass.puts ∧ f = task.failure error := by
  unfold Pass.main Pass.erased
  rw [failed_objects_run, List.mem_append, List.mem_filterMap]
  constructor
  · rintro (hnone | ⟨⟨task, put⟩, hp, hf⟩)
    · cases hnone
    · cases put with
      | Written => cases hf
      | Failed error =>
        cases hf
        exact ⟨task, error, hp, rfl⟩
  · rintro ⟨task, error, hp, rfl⟩
    exact .inr ⟨_, hp, rfl⟩

/-- Only what failed is put again. -/
theorem failure_of_retried {failures : List PrepareFailure} {total_attempted : Nat}
    {retries : List (PrepareFailure × Put)}
    (h : retry_failed_objects failures concurrency total_attempted retries = some (.Ends successes))
    {f : PrepareFailure} (hf : f ∈ successes) : f ∈ failures := by
  unfold retry_failed_objects at h
  split at h
  · split at h
    · cases h
      cases hf
    · cases h
  · split at h
    · split at h <;> cases h
    · split at h
      · rename_i hperm
        cases h
        obtain ⟨p, hp, rfl⟩ := List.mem_map.mp hf
        exact (List.isPerm_iff.mp hperm).mem_iff.mp (List.mem_map_of_mem (List.mem_of_mem_filter hp))
      · cases h

/-- The retry makes the same data for sizes that are filled without a factor. -/
theorem retry_write_eq {task : DataTask} {error : String} {spec : DataSpec} (h : task.Follows spec) :
    retry_write (task.failure error) = task.write ↔ spec.Regenerates := by
  obtain ⟨hfill, hdedup, hcompress⟩ := h
  unfold retry_write DataTask.write DataTask.failure DataSpec.Regenerates
  rw [← hfill, ← hdedup, ← hcompress]
  cases task.fill with
  | Zero => simp [generate_data]
  | Random => simp [generate_data, eq_comm]
  | Prand => simp [generate_data, eq_comm]

/-- The retry writes the objects of the main pass just for specs without zeros whose
dedup factor is 1 and whose compress factor is 0. -/
theorem retried_data_is_the_same_iff (h : d.Makes r pass.tasks pass.total_to_create)
    (hends : pass.Ends aborted d.job.concurrency successes) : pass.RetriesSame successes ↔
      ∀ task error, pass.Retried successes task error →
        ∃ turn ∈ d.turns, task.Follows turn.1 ∧ turn.1.Regenerates := by
  have hfollows : ∀ task error, pass.Retried successes task error →
      ∃ turn ∈ d.turns, task.Follows turn.1 := by
    intro task error hretried
    exact follows_of_makes h (hends.puts.mem_iff.mp (List.mem_map_of_mem hretried.1))
  constructor
  · intro hsame task error hretried
    obtain ⟨turn, hturn, hfollow⟩ := hfollows task error hretried
    exact ⟨turn, hturn, hfollow, (retry_write_eq hfollow).mp (hsame.same task error hretried)⟩
  · intro hspecs
    refine ⟨fun f hf => ?_, fun task error hretried => ?_⟩
    · obtain ⟨task, error, hput, rfl⟩ := mem_failures.mp (failure_of_retried hends.retry hf)
      exact ⟨task, error, ⟨hput, hf⟩, rfl⟩
    · obtain ⟨turn, _, hfollow, hregenerates⟩ := hspecs task error hretried
      exact (retry_write_eq hfollow).mpr hregenerates

/-! ### Two objects, of which one is put again -/

def objects_of (fill : FillPattern) (compress_factor : Nat) : DataSpec :=
  { base_uri := some "file:///data/".toList
    count := 2
    size_spec := some (.Fixed 4096)
    fill := fill
    dedup_factor := 1
    compress_factor := compress_factor }

def two_objects (spec : DataSpec) : DataJob where
  job := { config := { ensure_objects := [spec.toEnsureSpec] }, concurrency := 4 }
  specs := [spec]
  ensure_objects := rfl

def first_object : PrepareTask := ⟨"file:///data/prepared-00000000.dat".toList, 4096, 0⟩

def second_object : PrepareTask := ⟨"file:///data/prepared-00000001.dat".toList, 4096, 1⟩

/-- The put of the first object fails, and the retry writes it. -/
def first_retried (spec : DataSpec) : Pass where
  tasks := [first_object, second_object].map spec.task
  total_to_create := 2
  puts := [(spec.task first_object, .Failed "timed out"), (spec.task second_object, .Written)]
  retries := [((spec.task first_object).failure "timed out", .Written)]

theorem makes_two_objects (fill : FillPattern) (compress_factor : Nat) :
    (two_objects (objects_of fill compress_factor)).Makes noRandom
      (first_retried (objects_of fill compress_factor)).tasks 2 := by
  have hplan : (⟨(objects_of fill compress_factor).toEnsureSpec, "prepared".toList⟩ : Turn).plan noRandom
      (two_objects (objects_of fill compress_factor)).job none { stream := fun _ => [] } =
        .ok (.Create [first_object, second_object] 2) := rfl
  have hturn : (objects_of fill compress_factor,
      (⟨(objects_of fill compress_factor).toEnsureSpec, "prepared".toList⟩ : Turn)) ∈
        (two_objects (objects_of fill compress_factor)).turns := List.mem_cons_self
  exact .Sequential hturn hplan

theorem first_retried_ends (spec : DataSpec) : (first_retried spec).Ends Sequential.aborted 4
    [(spec.task first_object).failure "timed out"] :=
  ⟨.refl _, rfl, rfl⟩

theorem retried_data_is_the_same_random : (first_retried (objects_of .Random 0)).RetriesSame
    [((objects_of .Random 0).task first_object).failure "timed out"] := by
  refine (retried_data_is_the_same_iff (makes_two_objects .Random 0)
    (first_retried_ends (objects_of .Random 0))).mpr ?_
  intro task error hretried
  obtain ⟨turn, hturn, hfollows⟩ := follows_of_makes (makes_two_objects .Random 0)
    ((first_retried_ends (objects_of .Random 0)).puts.mem_iff.mp (List.mem_map_of_mem hretried.1))
  obtain rfl := List.mem_singleton.mp hturn
  exact ⟨_, hturn, hfollows, by decide, rfl, rfl⟩

/-- An object of zeros is not one of zeros when it is put again. -/
theorem retried_data_differs_for_zeros : ¬ ∀ (r : Random) (d : DataJob) (pass : Pass)
    (aborted : PrepareErrorTracker → String) (successes : List PrepareFailure),
      d.Makes r pass.tasks pass.total_to_create →
        pass.Ends aborted d.job.concurrency successes → pass.RetriesSame successes := by
  intro h
  have hsame := (h noRandom (two_objects (objects_of .Zero 1)) (first_retried (objects_of .Zero 1))
    Sequential.aborted _ (makes_two_objects .Zero 1) (first_retried_ends (objects_of .Zero 1))).same
      ((objects_of .Zero 1).task first_object) "timed out" ⟨List.mem_cons_self, List.mem_cons_self⟩
  exact absurd hsame (by decide)

end sai3_bench.prepare
