-- When the two prepare strategies make the same objects: the sequential one
-- decides at each turn, the parallel one plans all turns before it begins.
import Sai3Bench.CacheAgreement
import Sai3Bench.CompletePrepares

namespace sai3_bench.prepare

open directory_tree size_generator metadata_cache machines

/-! ## What each strategy makes -/

/-- An object at the address and with the size is made. -/
def Makes (tasks : List PrepareTask) (uri : Path) (size : Nat) : Prop :=
  ∃ task ∈ tasks, task.uri = uri ∧ task.size = size

/-- The next turn of the sequential strategy makes the object. -/
def MakesNext (r : Random) (list : Objects → Path → List Path) (job : Job) (uri : Path) (size : Nat)
    (s : Sequential) (e : TurnEvent) : Prop :=
  ∃ turn base_uri idx g, s.turns.head? = some turn ∧
    turn.spec.get_base_uri job.multi_endpoint_uris = .ok base_uri ∧
    turn.Puts job (list s.objects) (coverage s.cache turn) base_uri idx ∧
    turn.uri job base_uri idx = some uri ∧
    SizeGenerator.new_with_seed r turn.spec.get_size_spec (seedOf base_uri) = .ok g ∧
    size = (if e.info_enabled then g.description else g).size idx

/-- The plan of the parallel strategy for a turn makes the object: the number
is not taken to exist, however much is. -/
def MakesPlanned (r : Random) (list : Path → List Path) (job : Job) (cache : Option MetadataCache)
    (uri : Path) (size : Nat) (turn : Turn) : Prop :=
  ∃ endpoints existing idx g, parallel.endpointsOf job turn.spec = .ok endpoints ∧
    existing = turn.taken job list (coverage cache turn) (endpoints.headD []) ∧
    0 < parallel.actual_to_create job turn existing.indices ∧ idx < turn.spec.count ∧
    (parallel.planOf job turn endpoints existing.indices).selects job idx = true ∧
    (parallel.planOf job turn endpoints existing.indices).uri job idx = uri ∧
    SizeGenerator.new_with_seed r turn.spec.get_size_spec (seedOf (endpoints.headD [])) = .ok g ∧
    size = g.size idx

variable {r : Random} {job : Job} {list : Objects → Path → List Path} {s t : Sequential}
  {e : TurnEvent} {es : List TurnEvent} {cache : Option MetadataCache} {objects : Objects}
  {uri : Path} {size : Nat}

/-- A step makes what its turn makes. -/
theorem makes_step (h : s.step r job e = some t) (hrun : t.phase = .Running)
    (hok : Succeeds list s e) :
    Makes (writtenTasks e.puts) uri size ↔ MakesNext r list job uri size s e := by
  obtain ⟨hstream, hwritten⟩ := hok
  rw [writtenTasks_of_written hwritten]
  obtain ⟨_, turn, hturns, hcases⟩ := Sequential.step_cases h hrun
  have hhead : s.turns.head? = some turn := by
    rw [hturns]
    rfl
  rcases hcases with ⟨existing, hplan, hquiet, _⟩ | ⟨tasks, n, x, successes, hplan, _, hperm, _⟩
  · obtain ⟨base_uri, _, hbase, _⟩ := Turn.plan_ok hplan
    rw [(Sequential.quiet_iff.mp hquiet).1]
    constructor
    · rintro ⟨task, htask, _⟩
      cases htask
    · rintro ⟨turn', base', idx, g, hhead', hbase', hputs, _⟩
      rw [hhead] at hhead'
      cases hhead'
      rw [hbase] at hbase'
      cases hbase'
      exact absurd hputs (exist_puts_nothing hplan hstream hbase)
  · obtain ⟨base_uri, _, hbase, _⟩ := Turn.plan_ok hplan
    obtain ⟨g, hg, htasks⟩ := mem_tasks_iff hplan hstream hbase
    constructor
    · rintro ⟨task, htask, rfl, rfl⟩
      obtain ⟨hputs, huri, hsize⟩ := (htasks task).mp (hperm.mem_iff.mp htask)
      exact ⟨turn, base_uri, task.file_idx, g, hhead, hbase, hputs, huri, hg, hsize⟩
    · rintro ⟨turn', base', idx, g', hhead', hbase', hputs, huri, hg', hsize⟩
      rw [hhead] at hhead'
      cases hhead'
      rw [hbase] at hbase'
      cases hbase'
      rw [hg] at hg'
      cases hg'
      exact ⟨⟨uri, size, idx⟩, hperm.mem_iff.mpr ((htasks _).mpr ⟨hputs, huri, hsize⟩), rfl, rfl⟩

/-- A run makes what its turns make. -/
theorem makes_run (h : (sequentialMachine r job).run (.new job objects cache) es = some s)
    (hrun : s.phase = .Running)
    (hok : (sequentialMachine r job).Along (Succeeds list) (.new job objects cache) es) :
    Makes (es.flatMap fun e => writtenTasks e.puts) uri size ↔
      (sequentialMachine r job).Sometime (MakesNext r list job uri size)
        (.new job objects cache) es := by
  refine Machine.run_remembers (I := fun es s => s.phase = .Running →
    (Makes (es.flatMap fun e => writtenTasks e.puts) uri size ↔
      (sequentialMachine r job).Sometime (MakesNext r list job uri size)
        (.new job objects cache) es)) ?_ ?_ hok h hrun
  · intro es t e u ht hI hsucc hstep hrunning
    have hsplit : Makes ((es ++ [e]).flatMap fun e => writtenTasks e.puts) uri size ↔
        Makes (es.flatMap fun e => writtenTasks e.puts) uri size ∨
          Makes (writtenTasks e.puts) uri size := by
      unfold Makes
      simp only [List.flatMap_append, List.flatMap_singleton, List.mem_append, or_and_right,
        exists_or]
    rw [hsplit, Machine.sometime_snoc ht, makes_step hstep hrunning hsucc,
      hI (Sequential.step_cases hstep hrunning).1]
  · intro _
    simp [Makes]

/-- The parallel strategy makes what its plans make. -/
theorem makes_parallel {e : parallel.ParallelEvent} {p : parallel.Parallel}
    (h : parallel.prepare_parallel r job objects cache e = some p) (hret : p.Returns)
    (hstream : e.stream = succeeds (list objects)) (hwritten : ∀ q ∈ e.puts.flatten, q.2 = .Written) :
    Makes (writtenTasks e.puts.flatten) uri size ↔
      ∃ turn ∈ job.turns, MakesPlanned r (list objects) job cache uri size turn := by
  obtain ⟨x, _, _, _, _, _, _, htasks⟩ := parallel.prepare_parallel_returns h hret
  rw [writtenTasks_of_written hwritten]
  unfold Makes
  simp only [htasks]
  constructor
  · rintro ⟨task, ⟨turn, hturn, plan, count, g, hplan, hg, htask⟩, rfl, rfl⟩
    obtain ⟨endpoints, existing, hendpoints, hexisting, ⟨_, hp⟩ | ⟨hpos, hp⟩⟩ :=
      parallel.planTurn_ok hplan
    · cases hp
    · cases hp
      rw [hstream, Turn.existing_succeeds] at hexisting
      cases hexisting
      obtain ⟨hidx, hselects, huri, hsize⟩ := mem_createTasks.mp htask
      exact ⟨turn, hturn, endpoints, _, task.file_idx, g, hendpoints, rfl, hpos, hidx, hselects,
        Option.some.inj huri, hg, hsize⟩
  · rintro ⟨turn, hturn, endpoints, existing, idx, g, hendpoints, rfl, hpos, hidx, hselects, huri,
      hg, hsize⟩
    let existing := turn.taken job (list objects) (coverage cache turn) (endpoints.headD [])
    have hplan : parallel.planTurn job e.stream (coverage cache turn) turn =
        .ok (some (parallel.planOf job turn endpoints existing.indices,
          parallel.actual_to_create job turn existing.indices)) := by
      unfold parallel.planTurn
      rw [hendpoints]
      dsimp only
      rw [hstream, Turn.existing_succeeds]
      dsimp only
      rw [if_pos hpos]
    refine ⟨⟨uri, size, idx⟩, ⟨turn, hturn, _, _, g, hplan, hg, ?_⟩, rfl, rfl⟩
    exact mem_createTasks.mpr ⟨hidx, hselects, congrArg some huri, hsize⟩

/-! ## The strategies together -/

/-- The same objects are made, with the same sizes. -/
def SameObjects (tasks tasks' : List PrepareTask) : Prop :=
  ∀ uri size, Makes tasks uri size ↔ Makes tasks' uri size

/-- What some turn makes, when its time has come, is what some turn has planned
before the first one, and the other way round. -/
def SamePlans (r : Random) (list : Objects → Path → List Path) (job : Job) (objects : Objects)
    (cache : Option MetadataCache) (es : List TurnEvent) : Prop :=
  ∀ uri size, (sequentialMachine r job).Sometime (MakesNext r list job uri size)
      (.new job objects cache) es ↔
    ∃ turn ∈ job.turns, MakesPlanned r (list objects) job cache uri size turn

/-- The strategies make the same objects, when all calls of the store succeed,
if and only if their plans are the same. -/
theorem the_strategies_agree_iff {r : Random} {job : Job} {list : Objects → Path → List Path}
    {objects : Objects} {cache : Option MetadataCache} {es : List TurnEvent} {s : Sequential}
    {e : parallel.ParallelEvent} {p : parallel.Parallel}
    (hs : (sequentialMachine r job).run (.new job objects cache) es = some s) (hsret : s.Returns)
    (hsok : (sequentialMachine r job).Along (Succeeds list) (.new job objects cache) es)
    (hp : parallel.prepare_parallel r job objects cache e = some p) (hpret : p.Returns)
    (hstream : e.stream = succeeds (list objects)) (hwritten : ∀ q ∈ e.puts.flatten, q.2 = .Written) :
    SameObjects (es.flatMap fun e => writtenTasks e.puts) (writtenTasks e.puts.flatten) ↔
      SamePlans r list job objects cache es := by
  unfold SameObjects SamePlans
  simp only [makes_run hs hsret.1 hsok, makes_parallel hp hpret hstream hwritten]

/-! ## Agents with stores of their own -/

/-- The first of two agents, each of which has its own store. -/
def isolatedJob (num_agents : Nat) : Job :=
  { config := { ensure_objects := [{ oneObject with count := 2 }] }
    num_agents := num_agents
    shared_storage := false }

def firstObject : PrepareTask := ⟨"s3://bucket/prepared-00000000.dat".toList, 4096, 0⟩

def secondObject : PrepareTask := ⟨"s3://bucket/prepared-00000001.dat".toList, 4096, 1⟩

def putsInParallel (tasks : List PrepareTask) : parallel.ParallelEvent :=
  { stream := succeeds (listPrefixed ∅), puts := [tasks.map fun task => (task, .Written)] }

theorem one_agent_plans_the_same :
    SamePlans noRandom listPrefixed (isolatedJob 1) ∅ none [putsAll ∅ [firstObject, secondObject]] := by
  obtain ⟨s, hs, hsret⟩ : ∃ s, (sequentialMachine noRandom (isolatedJob 1)).run
      (.new (isolatedJob 1) ∅ none) [putsAll ∅ [firstObject, secondObject]] = some s ∧ s.Returns :=
    ⟨_, rfl, rfl, rfl⟩
  obtain ⟨p, hp, hpret⟩ : ∃ p, parallel.prepare_parallel noRandom (isolatedJob 1) ∅ none
      (putsInParallel [firstObject, secondObject]) = some p ∧ p.Returns := ⟨_, rfl, _, rfl⟩
  refine (the_strategies_agree_iff hs hsret ⟨⟨rfl, ?_⟩, fun _ _ => trivial⟩ hp hpret rfl ?_).mp ?_
  · simp [putsAll]
  · simp [putsInParallel]
  · exact fun _ _ => Iff.rfl

/-- The sequential strategy makes one of the objects, the parallel one both. -/
theorem an_isolated_agent_makes_less :
    ∃ s p, (sequentialMachine noRandom (isolatedJob 2)).run (.new (isolatedJob 2) ∅ none)
        [putsAll ∅ [firstObject]] = some s ∧ s.Returns ∧
      parallel.prepare_parallel noRandom (isolatedJob 2) ∅ none
        (putsInParallel [firstObject, secondObject]) = some p ∧ p.Returns ∧
      ¬ SameObjects ([putsAll ∅ [firstObject]].flatMap fun e => writtenTasks e.puts)
        (writtenTasks (putsInParallel [firstObject, secondObject]).puts.flatten) := by
  refine ⟨_, _, rfl, ⟨rfl, rfl⟩, rfl, ⟨_, rfl⟩, fun hsame => ?_⟩
  obtain ⟨task, htask, huri, _⟩ := (hsame secondObject.uri 4096).mpr
    ⟨secondObject, by decide +kernel, rfl, rfl⟩
  obtain rfl : task = firstObject := by simpa [putsAll, writtenTasks] using htask
  revert huri
  decide +kernel

end sai3_bench.prepare
