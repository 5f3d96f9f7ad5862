-- When the two prepare strategies return in each of their runs, whatever becomes of
-- their puts.
import Mathlib.Algebra.Order.BigOperators.Group.List
import Sai3Bench.PrepareMonitors
import Sai3Bench.TaskPartitions

namespace sai3_bench.prepare

open directory_tree metadata_cache size_generator machines

/-! ## The tasks of a turn -/

section

variable {r : Random} {select : Nat → Bool} {uri : Nat → Option Path}

theorem length_createTasks (g : SizeGenerator r) (idxs : List Nat) :
    (createTasks select uri g idxs).length =
      idxs.countP fun idx => select idx && (uri idx).isSome := by
  induction idxs generalizing g with
  | nil => rfl
  | cons idx idxs ih =>
    unfold createTasks
    dsimp only
    rw [List.countP_cons]
    cases hselect : select idx with
    | false =>
      rw [ih]
      rfl
    | true =>
      cases huri : uri idx with
      | none =>
        rw [ih]
        rfl
      | some uri₀ =>
        rw [List.length_cons, ih]
        rfl

/-- No selected number is left out when each has an address. -/
theorem countP_le_length_iff (g : SizeGenerator r) (n : Nat) :
    (List.range n).countP select ≤ (createTasks select uri g (List.range n)).length ↔
      ∀ idx < n, select idx = true → (uri idx).isSome = true := by
  have hsplit : (List.range n).countP (fun idx => select idx && (uri idx).isSome) =
      ((List.range n).filter select).countP fun idx => (uri idx).isSome := by
    rw [List.countP_filter]
    congr 1
    funext idx
    rw [Bool.and_comm]
  have hle := List.countP_le_length (p := fun idx => (uri idx).isSome)
    (l := (List.range n).filter select)
  rw [length_createTasks, hsplit, List.countP_eq_length_filter (p := select)]
  constructor
  · intro h idx hidx hselect
    refine List.countP_eq_length.mp (Nat.le_antisymm hle h) idx ?_
    exact List.mem_filter.mpr ⟨List.mem_range.mpr hidx, hselect⟩
  · intro h
    refine (List.countP_eq_length.mpr fun idx hidx => ?_).ge
    obtain ⟨hrange, hselect⟩ := List.mem_filter.mp hidx
    exact h idx (List.mem_range.mp hrange) hselect

end

/-! ## The sequential strategy -/

/-- A turn whose tasks are put: its bar has the numbers that are missing. -/
def Making.sequential (th : Thresholds) (job : Job) (base_uri : Path) (actual_to_create : Nat) :
    Making :=
  { thresholds := th
    aborted := Sequential.aborted
    monitor_first := true
    length := actual_to_create
    concurrency := job.concurrency
    store_cache := [base_uri] }

def atOnce (tasks : List PrepareTask) : List (List PrepareTask) :=
  if tasks.isEmpty then [] else [tasks]

/-- The turn is over in each of its runs. -/
def TurnReturns (th : Thresholds) (job : Job) (base_uri : Path) (tasks : List PrepareTask)
    (actual_to_create : Nat) : Prop :=
  (Making.sequential th job base_uri actual_to_create).machine.Ends Creation.Returns
    (.start (.sequential th job base_uri actual_to_create) (atOnce tasks))

variable {th : Thresholds} {job : Job} {base_uri : Path} {tasks : List PrepareTask}
  {total : Nat}

theorem flatten_atOnce : (atOnce tasks).flatten = tasks := by
  unfold atOnce
  split
  · rename_i hempty
    rw [List.isEmpty_iff.mp hempty]
    rfl
  · rw [List.flatten_singleton]

theorem atOnce_eq_nil : atOnce tasks = [] ↔ tasks = [] := by
  unfold atOnce
  split
  · rename_i hempty
    exact iff_of_true rfl (List.isEmpty_iff.mp hempty)
  · rename_i hsome
    exact iff_of_false (List.cons_ne_nil _ _) fun hnil => hsome (List.isEmpty_iff.mpr hnil)

theorem mem_atOnce {chunk : List PrepareTask} (h : chunk ∈ atOnce tasks) : chunk ≠ [] := by
  unfold atOnce at h
  split at h
  · cases h
  · rename_i hsome
    rw [List.mem_singleton.mp h]
    exact mt List.isEmpty_iff.mpr hsome

/-- Nothing is put before the only chunk. -/
theorem nil_before_atOnce {begun later : List (List PrepareTask)} (h : atOnce tasks = begun ++ later)
    (hlater : later ≠ []) : begun = [] := by
  have hlength := congrArg List.length h
  have hpos := List.length_pos_iff.mpr hlater
  have hone : (atOnce tasks).length ≤ 1 := by
    unfold atOnce
    split
    · exact Nat.zero_le _
    · exact le_rfl
  rw [List.length_append] at hlength
  exact List.length_eq_zero_iff.mp (by omega)

theorem turn_returns_iff (hfull : tasks.length ≤ total) :
    TurnReturns th job base_uri tasks total ↔ (total = 0 ∨ 0 < job.concurrency) ∧
      total ≤ tasks.length ∧ (4 ≤ job.concurrency ∨ total ≤ 1 ∨ th.enough = 1) := by
  unfold TurnReturns
  rw [phase_ends_iff fun _ => mem_atOnce]
  constructor
  · intro h
    have hlength := h.full
    rw [flatten_atOnce] at hlength
    refine ⟨h.workers.imp_left fun hnil => ?_, hlength, h.retry⟩
    rw [atOnce_eq_nil.mp hnil] at hlength
    exact Nat.le_zero.mp hlength
  · rintro ⟨hworkers, hlength, hretry⟩
    refine ⟨hworkers.imp_left fun hzero => ?_, by rwa [flatten_atOnce], ?_, hretry⟩
    · subst hzero
      exact atOnce_eq_nil.mpr (List.length_eq_zero_iff.mp (Nat.le_zero.mp hfull))
    · intro begun later hchunks hlater _
      rw [nil_before_atOnce hchunks hlater]
      exact Nat.lt_of_lt_of_le Nat.one_pos (Nat.le_max_left _ _)

/-! ## The chunks of the parallel strategy -/

namespace parallel

theorem mem_chunks {size : Nat} {chunk_tasks tasks chunk : List PrepareTask}
    (hless : chunk_tasks.length < size) (h : chunk ∈ chunks size chunk_tasks tasks) :
    chunk ≠ [] ∧ chunk.length ≤ size := by
  induction tasks generalizing chunk_tasks with
  | nil =>
    unfold chunks at h
    split at h
    · cases h
    · rename_i hsome
      rw [List.mem_singleton.mp h]
      exact ⟨mt List.isEmpty_iff.mpr hsome, hless.le⟩
  | cons task tasks ih =>
    unfold chunks at h
    dsimp only at h
    have hlength : (chunk_tasks ++ [task]).length = chunk_tasks.length + 1 :=
      List.length_append.trans rfl
    split at h
    · rename_i hfull
      rcases List.mem_cons.mp h with rfl | h
      · refine ⟨List.append_ne_nil_of_right_ne_nil _ (List.cons_ne_nil _ _), ?_⟩
        omega
      · have hzero : ([] : List PrepareTask).length < size := Nat.zero_lt_of_lt hless
        exact ih hzero h
    · rename_i hmore
      exact ih (Nat.lt_of_not_le hmore) h

/-- The chunks before another one are full. -/
theorem length_of_before {size : Nat} {chunk_tasks tasks : List PrepareTask}
    {begun later : List (List PrepareTask)} (hless : chunk_tasks.length < size)
    (h : chunks size chunk_tasks tasks = begun ++ later) (hlater : later ≠ []) :
    begun.flatten.length = size * begun.length := by
  induction tasks generalizing chunk_tasks begun with
  | nil =>
    -- at the end the tasks that are left are the only chunk
    have honly : atOnce chunk_tasks = begun ++ later := h
    rw [nil_before_atOnce honly hlater]
    rfl
  | cons task tasks ih =>
    unfold chunks at h
    dsimp only at h
    have hlength : (chunk_tasks ++ [task]).length = chunk_tasks.length + 1 :=
      List.length_append.trans rfl
    split at h
    · rename_i hfull
      cases begun with
      | nil => rfl
      | cons first begun =>
        rw [List.cons_append, List.cons.injEq] at h
        obtain ⟨rfl, h⟩ := h
        have hzero : ([] : List PrepareTask).length < size := Nat.zero_lt_of_lt hless
        rw [List.flatten_cons, List.length_append, ih hzero h, List.length_cons, Nat.mul_add]
        omega
    · rename_i hmore
      exact ih (Nat.lt_of_not_le hmore) h

/-- As many full chunks as the tasks have more than fill come before another one. -/
theorem exists_before {size k : Nat} {tasks : List PrepareTask} (hsize : 0 < size)
    (hk : size * k < tasks.length) :
    ∃ begun later, chunks size [] tasks = begun ++ later ∧ later ≠ [] ∧ begun.length = k := by
  have hmany : k < (chunks size [] tasks).length := by
    have hflatten : (chunks size [] tasks).flatten.length = tasks.length := by
      rw [flatten_chunks, List.nil_append]
    have hsum : ((chunks size [] tasks).map List.length).sum ≤
        ((chunks size [] tasks).map List.length).length * size := by
      refine List.sum_le_card_nsmul _ _ fun n hn => ?_
      obtain ⟨chunk, hchunk, rfl⟩ := List.mem_map.mp hn
      exact (mem_chunks hsize hchunk).2
    rw [List.length_flatten] at hflatten
    rw [hflatten, List.length_map] at hsum
    rw [Nat.mul_comm] at hk
    exact Nat.lt_of_mul_lt_mul_right (hk.trans_le hsum)
  refine ⟨(chunks size [] tasks).take k, (chunks size [] tasks).drop k,
    (List.take_append_drop _ _).symm, ?_, List.length_take_of_le hmany.le⟩
  exact List.ne_nil_of_length_pos (by rw [List.length_drop]; omega)

/-! ## The parallel strategy -/

variable {r : Random} {e : ParallelEvent} {cache : Option MetadataCache} {turn : Turn}

/-- The rounds make as many tasks as the plans have. -/
theorem length_rounds {n : Nat} {states : List (PlanState r)}
    (hn : ∀ state ∈ states, state.plan.count - state.next_idx ≤ n) :
    (rounds job n states).length = (states.map fun state => (state.tasks job).length).sum := by
  rw [(rounds_perm hn).length_eq, List.length_flatMap]

/-- The tasks of a plan are as many as the numbers that it selects. -/
theorem length_tasks {plan : PreparePlan} {state : PlanState r}
    (h : PlanState.of r plan = .ok state) :
    (state.tasks job).length = (List.range plan.count).countP (plan.selects job) := by
  obtain ⟨g, _, rfl⟩ := of_ok h
  unfold PlanState.tasks
  rw [length_createTasks, List.range_eq_range']
  simp

theorem length_rounds_of {plans : List PreparePlan} {states : List (PlanState r)}
    (h : plans.mapM (PlanState.of r) = .ok states) :
    (rounds job (roundsOf states) states).length =
      (plans.map fun plan => (List.range plan.count).countP (plan.selects job)).sum := by
  rw [length_rounds fun state hstate => (Nat.sub_le ..).trans (le_roundsOf hstate)]
  induction plans generalizing states with
  | nil =>
    cases h
    rfl
  | cons plan plans ih =>
    obtain ⟨first, rest, hfirst, hrest, rfl⟩ := serde.mapM_cons_ok.mp h
    rw [List.map_cons, List.map_cons, List.sum_cons, List.sum_cons, length_tasks hfirst, ih hrest]

/-- Everything is overwritten on shared storage by an agent that is not one of its agents. -/
def Stranger (job : Job) : Prop :=
  job.config.force_overwrite = true ∧ job.shared_storage = true ∧ 1 < job.num_agents ∧
    job.num_agents ≤ job.agent_id

/-- What the plan of a turn counts is at most what it selects, but for a stranger. -/
theorem actual_to_create_le (hstranger : ¬Stranger job) (hcount : turn.spec.count < u64)
    (hagents : job.num_agents < u64) (endpoints : List Path) (existing_indices : Finset Nat) :
    actual_to_create job turn existing_indices ≤ (List.range turn.spec.count).countP
      ((planOf job turn endpoints existing_indices).selects job) := by
  unfold actual_to_create
  split
  · exact Nat.zero_le _
  · rename_i hskip
    split
    · rename_i hforce
      have hselects : (planOf job turn endpoints existing_indices).selects job = mine job := by
        funext idx
        unfold PreparePlan.selects PreparePlan.should_create planOf
        rw [hforce]
        simp
      rw [hselects]
      split
      · rename_i hshared
        rw [Bool.and_eq_true, decide_eq_true_eq] at hshared
        have hagent : job.agent_id < job.num_agents := by
          by_contra hnot
          exact hstranger ⟨hforce, hshared.1, hshared.2, Nat.le_of_not_lt hnot⟩
        have hmine : mine job = fun idx => decide (idx % job.num_agents = job.agent_id) := by
          funext idx
          unfold mine
          rw [hshared.1, decide_eq_true hshared.2]
          rfl
        have hcard : (List.range turn.spec.count).countP (mine job) =
            (turn.spec.count + job.num_agents - 1 - job.agent_id) / job.num_agents := by
          rw [hmine, ← card_remainder hagent, ← Nat.count_eq_card_filter_range]
          rfl
        rw [hcard, wrapping_count hcount hagents hagent]
        exact Nat.div_le_div_right (Nat.mod_le _ _)
      · rename_i hshared
        have hmine : mine job = fun _ => true := by
          funext idx
          unfold mine
          rw [Bool.not_eq_true] at hshared
          rw [hshared]
          rfl
        rw [hmine, List.countP_true, List.length_range]
    · rename_i hforce
      refine (List.countP_congr fun idx _ => ?_).le
      unfold PreparePlan.selects PreparePlan.should_create planOf
      rw [Bool.not_eq_true] at hforce
      rw [hforce] at hskip ⊢
      rw [Bool.not_false, Bool.and_true, Bool.not_eq_true] at hskip
      rw [hskip]
      rfl

theorem selects_stranger (h : Stranger job) (plan : PreparePlan) (idx : Nat) :
    plan.selects job idx = false := by
  obtain ⟨_, hshared, hmany, hagent⟩ := h
  have hmine : mine job idx = false := by
    have hless := Nat.mod_lt idx (by omega : 0 < job.num_agents)
    unfold mine
    rw [hshared, decide_eq_true hmany]
    exact decide_eq_false (by omega)
  unfold PreparePlan.selects
  rw [hmine, Bool.and_false]

end parallel

/-- All plans are carried out: the bar has what they count. -/
def Making.parallel (th : Thresholds) (job : Job) (plans : List parallel.PreparePlan)
    (total_to_create : Nat) : Making :=
  { thresholds := th
    aborted := parallel.aborted
    monitor_first := false
    length := total_to_create
    concurrency := job.concurrency
    store_cache := plans.flatMap (·.endpoints) }

/-- The creation of all objects is over in each of its runs. -/
def CreationReturns (th : Thresholds) (job : Job) (plans : List parallel.PreparePlan)
    (tasks : List PrepareTask) (total_to_create : Nat) : Prop :=
  (Making.parallel th job plans total_to_create).machine.Ends Creation.Returns
    (.start (.parallel th job plans total_to_create)
      (parallel.chunks parallel.TASK_CHUNK_SIZE [] tasks))

theorem creation_returns_iff {plans : List parallel.PreparePlan} (htotal : 0 < total) :
    CreationReturns th job plans tasks total ↔ 0 < job.concurrency ∧ total ≤ tasks.length ∧
      (total - 1) / parallel.TASK_CHUNK_SIZE * parallel.TASK_CHUNK_SIZE < th.enough ∧
      (4 ≤ job.concurrency ∨ total ≤ 1 ∨ th.enough = 1) := by
  have hsize : 0 < parallel.TASK_CHUNK_SIZE := by decide
  have hempty : ([] : List PrepareTask).length < parallel.TASK_CHUNK_SIZE := hsize
  have hflatten : (parallel.chunks parallel.TASK_CHUNK_SIZE [] tasks).flatten = tasks :=
    parallel.flatten_chunks
  unfold CreationReturns
  rw [phase_ends_iff fun _ hchunk => (parallel.mem_chunks hempty hchunk).1]
  constructor
  · intro h
    have hfull := h.full
    rw [hflatten] at hfull
    refine ⟨h.workers.resolve_left fun hnil => ?_, hfull, ?_, h.retry⟩
    · rw [hnil] at hflatten
      rw [← hflatten] at hfull
      exact absurd (htotal.trans_le hfull) (Nat.lt_irrefl 0)
    · -- the last of the chunks that the bar still waits for
      have hround : parallel.TASK_CHUNK_SIZE *
          ((total - 1) / parallel.TASK_CHUNK_SIZE) < total := by
        have hle := Nat.mul_div_le (total - 1) parallel.TASK_CHUNK_SIZE
        omega
      obtain ⟨begun, later, hchunks, hlater, hbegun⟩ :=
        parallel.exists_before hsize (hround.trans_le hfull)
      have hlength := parallel.length_of_before hempty hchunks hlater
      rw [hbegun] at hlength
      have hfew := h.early begun later hchunks hlater (hlength ▸ hround)
      rw [hlength] at hfew
      rw [Nat.mul_comm]
      exact hfew
  · rintro ⟨hworkers, hfull, hfew, hretry⟩
    refine ⟨.inr hworkers, by rwa [hflatten], ?_, hretry⟩
    intro begun later hchunks hlater hless
    have hlength := parallel.length_of_before hempty hchunks hlater
    rw [hlength] at hless ⊢
    refine Nat.lt_of_le_of_lt ?_ hfew
    rw [Nat.mul_comm]
    refine Nat.mul_le_mul_right _ ((Nat.le_div_iff_mul_le hsize).mpr ?_)
    rw [Nat.mul_comm]
    exact Nat.le_sub_one_of_lt hless

/-- What the plans count is what they select, or more when an agent is a stranger. -/
theorem plans_total_le_iff {r : Random} {e : parallel.ParallelEvent}
    {cache : Option MetadataCache} {plans : List (parallel.PreparePlan × Nat)}
    {states : List (parallel.PlanState r)}
    (hcounts : ∀ turn ∈ job.turns, turn.spec.count < u64) (hagents : job.num_agents < u64)
    (hplans : parallel.plansOf job e cache job.turns = .ok plans)
    (htotal : 0 < (plans.map (·.2)).sum)
    (hstates : (plans.map (·.1)).mapM (parallel.PlanState.of r) = .ok states) :
    (plans.map (·.2)).sum ≤
        (parallel.rounds job (parallel.roundsOf states) states).length ↔
      ¬parallel.Stranger job := by
  rw [parallel.length_rounds_of hstates, List.map_map]
  constructor
  · intro hle hstranger
    have hzero : (plans.map ((fun plan : parallel.PreparePlan =>
        (List.range plan.count).countP (plan.selects job)) ∘ (·.1))).sum = 0 := by
      rw [List.sum_eq_zero_iff_forall_eq_nat]
      intro k hk
      obtain ⟨p, _, rfl⟩ := List.mem_map.mp hk
      exact List.countP_eq_zero.mpr fun idx _ => by
        rw [parallel.selects_stranger hstranger]
        exact Bool.false_ne_true
    omega
  · intro hstranger
    refine List.sum_le_sum fun p hp => ?_
    obtain ⟨turn, hturn, hplan⟩ := (parallel.mem_plansOf hplans).mp hp
    obtain ⟨endpoints, existing, _, _, ⟨_, hnone⟩ | ⟨_, hsome⟩⟩ := parallel.planTurn_ok hplan
    · cases hnone
    · cases hsome
      exact parallel.actual_to_create_le hstranger (hcounts turn hturn) hagents endpoints _

/-! ## Both strategies -/

/-- The turns of a sequential prepare phase, and the creation of a parallel one, return in
each of their runs exactly when there is a worker, the bar is as long as the tasks are many,
no error can end the puts before the last chunk, and a retry finds a worker. -/
theorem prepare_returns_iff (r : Random) (th : Thresholds) (job : Job)
    (cache : Option MetadataCache) (hcounts : ∀ turn ∈ job.turns, turn.spec.count < u64)
    (hagents : job.num_agents < u64) :
    (∀ (turn : Turn) (e : TurnEvent) base_uri existing tasks actual_to_create,
      turn.spec.get_base_uri job.multi_endpoint_uris = .ok base_uri →
      turn.existing job e.stream (coverage cache turn) base_uri = .ok existing →
      turn.plan r job cache e = .ok (.Create tasks actual_to_create) →
      (TurnReturns th job base_uri tasks actual_to_create ↔
        (actual_to_create = 0 ∨ 0 < job.concurrency) ∧
          (∀ idx < turn.spec.count, Turn.selects job existing idx = true →
            (turn.uri job base_uri idx).isSome = true) ∧
          (4 ≤ job.concurrency ∨ actual_to_create ≤ 1 ∨ th.enough = 1))) ∧
    ∀ e plans total_to_create (states : List (parallel.PlanState r)),
      parallel.plansOf job e cache job.turns = .ok plans →
      (plans.map (·.2)).sum = total_to_create → 0 < total_to_create →
      (plans.map (·.1)).mapM (parallel.PlanState.of r) = .ok states →
      (CreationReturns th job (plans.map (·.1))
          (parallel.rounds job (parallel.roundsOf states) states) total_to_create ↔
        0 < job.concurrency ∧ ¬parallel.Stranger job ∧
          (total_to_create - 1) / parallel.TASK_CHUNK_SIZE * parallel.TASK_CHUNK_SIZE < th.enough ∧
          (4 ≤ job.concurrency ∨ total_to_create ≤ 1 ∨ th.enough = 1)) := by
  constructor
  · intro turn e base_uri existing tasks actual_to_create hbase hexisting hplan
    obtain ⟨base_uri', existing', hbase', hexisting', ⟨_, g, _, hexist⟩ | ⟨_, g, _, hcreate⟩⟩ :=
      Turn.plan_ok hplan
    · cases hexist
    · cases hbase.symm.trans hbase'
      cases hexisting.symm.trans hexisting'
      cases hcreate
      rw [turn_returns_iff, countP_le_length_iff]
      rw [length_createTasks]
      refine List.countP_mono_left fun idx _ hidx => ?_
      rw [Bool.and_eq_true] at hidx
      exact hidx.1
  · rintro e plans _ states hplans rfl htotal hstates
    rw [creation_returns_iff htotal, plans_total_le_iff hcounts hagents hplans htotal hstates]

def twoFiles : EnsureSpec := { base_uri := some "file:///data/".toList, count := 2 }

/-- Two objects to make, by four workers. -/
def fourWorkers : Job := { config := { ensure_objects := [twoFiles] }, concurrency := 4 }

theorem four_workers_return :
    (∃ tasks, TurnReturns {} fourWorkers "file:///data/".toList tasks 2) ∧
      ∃ plans tasks, CreationReturns {} fourWorkers plans tasks 2 := by
  obtain ⟨hturn, hcreation⟩ := prepare_returns_iff noRandom {} fourWorkers none
    (by decide) (by decide)
  constructor
  · exact ⟨_, (hturn ⟨twoFiles, "prepared".toList⟩ { stream := fun _ => [] } _ ⟨0, ∅⟩ _ 2 rfl rfl
      rfl).mpr ⟨by decide, fun _ _ _ => rfl, by decide⟩⟩
  · exact ⟨_, _, (hcreation { stream := fun _ => [] } _ 2 _ rfl rfl (by decide) rfl).mpr
      ⟨by decide, fun hstranger => absurd hstranger.1 (by decide), by decide, by decide⟩⟩

/-- The puts of a full chunk fail, and its errors end the puts before the last object. -/
theorem an_aborted_creation_hangs : ¬∀ (th : Thresholds) (job : Job)
    (plans : List parallel.PreparePlan) (tasks : List PrepareTask), 1 ≤ job.concurrency →
      CreationReturns th job plans tasks tasks.length := by
  intro h
  have hreturns := h {} fourWorkers [] (List.replicate 100001 ⟨[], 1, 0⟩) (by decide)
  rw [List.length_replicate, creation_returns_iff (by omega)] at hreturns
  exact absurd hreturns.2.2.1 (by decide)

end sai3_bench.prepare
