-- What a sequential prepare phase leaves in the store, when its listings and
-- its puts succeed: the objects that were there, and those that a turn puts.
import Sai3Bench.CacheCoverage

namespace sai3_bench.prepare

open directory_tree size_generator metadata_cache machines

/-! ## The objects of a turn that are put -/

/-- The turn puts the object with that number: less is taken to exist than is
asked for, and the number is not taken to exist. -/
def Turn.Puts (turn : Turn) (job : Job) (list : Path → List Path) (covers_all : Bool)
    (base_uri : Path) (idx : Nat) : Prop :=
  idx < turn.spec.count ∧ (turn.taken job list covers_all base_uri).count < turn.spec.count ∧
    idx ∉ (turn.taken job list covers_all base_uri).indices ∧ Turn.mine job idx = true

/-- The next turn puts an object at the address. `list` is what the store lists
under an address, of the objects that it has. -/
def PutsUri (list : Objects → Path → List Path) (job : Job) (uri : Path) (s : Sequential) : Prop :=
  ∃ turn base_uri idx, s.turns.head? = some turn ∧
    turn.spec.get_base_uri job.multi_endpoint_uris = .ok base_uri ∧
    turn.Puts job (list s.objects) (coverage s.cache turn) base_uri idx ∧
    turn.uri job base_uri idx = some uri

/-- The listing succeeds, and so do all puts. -/
def Succeeds (list : Objects → Path → List Path) (s : Sequential) (e : TurnEvent) : Prop :=
  e.stream = succeeds (list s.objects) ∧ ∀ p ∈ e.puts, p.2 = .Written

variable {r : Random} {job : Job} {list : Objects → Path → List Path} {s t : Sequential}
  {e : TurnEvent} {es : List TurnEvent} {turn : Turn} {cache : Option MetadataCache}
  {objects : Objects} {uri : Path}

/-- A turn that takes all objects to exist puts none. -/
theorem exist_puts_nothing {base_uri : Path} {idx : Nat} {existing : List PreparedObject}
    (hplan : turn.plan r job cache e = .ok (.Exist existing))
    (hstream : e.stream = succeeds (list objects))
    (hbase : turn.spec.get_base_uri job.multi_endpoint_uris = .ok base_uri) :
    ¬ turn.Puts job (list objects) (coverage cache turn) base_uri idx := by
  obtain ⟨base', taken, hbase', htaken, ⟨hzero, _⟩ | ⟨_, _, _, hp⟩⟩ := Turn.plan_ok hplan
  · rw [hbase] at hbase'
    cases hbase'
    rw [hstream, Turn.existing_succeeds] at htaken
    cases htaken
    have hmany := Turn.to_create_eq_zero.mp hzero
    rintro ⟨_, hless, _⟩
    omega
  · cases hp

/-- The tasks of a turn are the objects that it puts, with the sizes that it draws. -/
theorem mem_tasks_iff {base_uri : Path} {tasks : List PrepareTask} {actual_to_create : Nat}
    (hplan : turn.plan r job cache e = .ok (.Create tasks actual_to_create))
    (hstream : e.stream = succeeds (list objects))
    (hbase : turn.spec.get_base_uri job.multi_endpoint_uris = .ok base_uri) :
    ∃ g, SizeGenerator.new_with_seed r turn.spec.get_size_spec (seedOf base_uri) = .ok g ∧
      ∀ task, task ∈ tasks ↔
        turn.Puts job (list objects) (coverage cache turn) base_uri task.file_idx ∧
          turn.uri job base_uri task.file_idx = some task.uri ∧
            task.size = (if e.info_enabled then g.description else g).size task.file_idx := by
  obtain ⟨base', taken, hbase', htaken, ⟨_, _, _, hp⟩ | ⟨hmore, g, hg, hp⟩⟩ := Turn.plan_ok hplan
  · cases hp
  · cases hp
    rw [hbase] at hbase'
    cases hbase'
    rw [hstream, Turn.existing_succeeds] at htaken
    cases htaken
    have hless := Turn.to_create_eq_zero.not.mp hmore
    refine ⟨g, hg, fun task => ?_⟩
    rw [mem_createTasks]
    unfold Turn.Puts Turn.selects
    rw [Bool.and_eq_true, decide_eq_true_eq]
    constructor
    · rintro ⟨hidx, ⟨hnew, hmine⟩, huri, hsize⟩
      exact ⟨⟨hidx, by omega, hnew, hmine⟩, huri, hsize⟩
    · rintro ⟨⟨hidx, _, hnew, hmine⟩, huri, hsize⟩
      exact ⟨hidx, ⟨hnew, hmine⟩, huri, hsize⟩

theorem create_puts {base_uri : Path} {tasks : List PrepareTask} {actual_to_create : Nat}
    (hplan : turn.plan r job cache e = .ok (.Create tasks actual_to_create))
    (hstream : e.stream = succeeds (list objects))
    (hbase : turn.spec.get_base_uri job.multi_endpoint_uris = .ok base_uri) :
    (∃ task ∈ tasks, task.uri = uri) ↔ ∃ idx,
      turn.Puts job (list objects) (coverage cache turn) base_uri idx ∧
        turn.uri job base_uri idx = some uri := by
  obtain ⟨g, _, htasks⟩ := mem_tasks_iff hplan hstream hbase
  constructor
  · rintro ⟨task, htask, rfl⟩
    obtain ⟨hputs, huri, _⟩ := (htasks task).mp htask
    exact ⟨task.file_idx, hputs, huri⟩
  · rintro ⟨idx, hputs, huri⟩
    let size := (if e.info_enabled then g.description else g).size idx
    exact ⟨⟨uri, size, idx⟩, (htasks _).mpr ⟨hputs, huri, rfl⟩, rfl⟩

theorem putsUri_iff {base_uri : Path} (hturn : s.turns.head? = some turn)
    (hbase : turn.spec.get_base_uri job.multi_endpoint_uris = .ok base_uri) :
    PutsUri list job uri s ↔ ∃ idx,
      turn.Puts job (list s.objects) (coverage s.cache turn) base_uri idx ∧
        turn.uri job base_uri idx = some uri := by
  constructor
  · rintro ⟨turn', base', idx, hturn', hbase', hputs, huri⟩
    rw [hturn] at hturn'
    cases hturn'
    rw [hbase] at hbase'
    cases hbase'
    exact ⟨idx, hputs, huri⟩
  · rintro ⟨idx, hputs, huri⟩
    exact ⟨turn, base_uri, idx, hturn, hbase, hputs, huri⟩

/-- After a step the store has what it had, and what the turn puts. -/
theorem mem_objects_step (h : s.step r job e = some t) (hrun : t.phase = .Running)
    (hok : Succeeds list s e) :
    uri ∈ t.objects ↔ uri ∈ s.objects ∨ PutsUri list job uri s := by
  obtain ⟨hstream, hwritten⟩ := hok
  obtain ⟨_, turn, hturns, hcases⟩ := Sequential.step_cases h hrun
  have hhead : s.turns.head? = some turn := by
    rw [hturns]
    rfl
  rcases hcases with ⟨existing, hplan, _, hobjects, _⟩ |
    ⟨tasks, n, x, successes, hplan, _, hperm, _, rfl, _, hretry, hobjects, _⟩
  · obtain ⟨base_uri, _, hbase, _⟩ := Turn.plan_ok hplan
    rw [hobjects, putsUri_iff hhead hbase]
    constructor
    · exact .inl
    · rintro (huri | ⟨idx, hputs, _⟩)
      · exact huri
      · exact absurd hputs (exist_puts_nothing hplan hstream hbase)
  · obtain ⟨base_uri, _, hbase, _⟩ := Turn.plan_ok hplan
    have hfailed : (Execution.run Sequential.aborted e.now
        { cache := s.cache, objects := s.objects } e.puts).error_tracker.failed_objects = [] :=
      (run_of_written hwritten).2
    have hmem : uri ∈ (Execution.run Sequential.aborted e.now
          { cache := s.cache, objects := s.objects } e.puts).objects ↔
        uri ∈ s.objects ∨ ∃ task ∈ e.puts.map (·.1), task.uri = uri := by
      rw [mem_objects_run, writtenTasks_of_written hwritten]
    have htasks : (∃ task ∈ e.puts.map (·.1), task.uri = uri) ↔ ∃ task ∈ tasks, task.uri = uri := by
      simp only [hperm.mem_iff]
    rw [hfailed] at hretry
    rw [hobjects, retry_nil hretry, putsUri_iff hhead hbase, ← create_puts hplan hstream hbase,
      ← htasks]
    exact hmem

/-! ## The objects of all turns -/

/-- A machine that has not failed had not failed before. -/
theorem running_of_step (h : s.step r job e = some t) (hrun : t.phase = .Running) :
    s.phase = .Running := (Sequential.step_cases h hrun).1

/-- After a run the store has what it had at first, and what the turns put. -/
theorem mem_objects_of_run
    (h : (sequentialMachine r job).run (.new job objects cache) es = some s)
    (hrun : s.phase = .Running)
    (hok : (sequentialMachine r job).Along (Succeeds list) (.new job objects cache) es) :
    uri ∈ s.objects ↔ uri ∈ objects ∨
      (sequentialMachine r job).Sometime (fun s _ => PutsUri list job uri s)
        (.new job objects cache) es := by
  refine Machine.run_remembers (I := fun es s => s.phase = .Running → (uri ∈ s.objects ↔
    uri ∈ objects ∨ (sequentialMachine r job).Sometime (fun s _ => PutsUri list job uri s)
      (.new job objects cache) es)) ?_ ?_ hok h hrun
  · intro es t e u ht hI hsucc hstep hrunning
    rw [mem_objects_step hstep hrunning hsucc, hI (running_of_step hstep hrunning),
      Machine.sometime_snoc ht, or_assoc]
  · intro _
    simp [Sequential.new]

/-! ## Complete stores -/

/-- All objects of all turns are in the store. -/
def Complete (job : Job) (objects : Objects) : Prop :=
  ∀ turn ∈ job.turns, ∀ idx < turn.spec.count, ∃ base_uri uri,
    turn.spec.get_base_uri job.multi_endpoint_uris = .ok base_uri ∧
      turn.uri job base_uri idx = some uri ∧ uri ∈ objects

/-- A run whose listings and puts succeed leaves a complete store, if and only
if each object has an address, and stood there at first or is put by a turn
that finds fewer objects than it asks for and not the number of this one. -/
theorem a_run_is_complete_iff {r : Random} {job : Job} {list : Objects → Path → List Path}
    {objects : Objects} {cache : Option MetadataCache} {es : List TurnEvent} {s : Sequential}
    (h : (sequentialMachine r job).run (.new job objects cache) es = some s) (hret : s.Returns)
    (hok : (sequentialMachine r job).Along (Succeeds list) (.new job objects cache) es) :
    Complete job s.objects ↔
      ∀ turn ∈ job.turns, ∀ idx < turn.spec.count, ∃ base_uri uri,
        turn.spec.get_base_uri job.multi_endpoint_uris = .ok base_uri ∧
          turn.uri job base_uri idx = some uri ∧
            (uri ∈ objects ∨ (sequentialMachine r job).Sometime (fun s _ => PutsUri list job uri s)
              (.new job objects cache) es) := by
  unfold Complete
  simp only [mem_objects_of_run h hret.1 hok]

/-! ## Names that begin with an address -/

/-- A store lists the objects whose addresses begin with the one asked for. -/
def listPrefixed (objects : Objects) (uri : Path) : List Path :=
  objects.keys.filter fun path => uri.isPrefixOf path

/-- The puts of a turn all succeed. -/
def putsAll (objects : Objects) (tasks : List PrepareTask) : TurnEvent :=
  { stream := succeeds (listPrefixed objects), puts := tasks.map fun task => (task, .Written) }

/-- Two pools, with a directory for their objects. -/
def shardedJob : Job :=
  let config := { (oneObjectJob true).config with key_prefix_shards := 1 }
  { oneObjectJob true with config := config }

def taskAt (uri : String) : PrepareTask := ⟨uri.toList, 4096, 0⟩

def stored (uris : List String) : Objects :=
  uris.foldl (fun objects uri => objects.insert uri.toList 4096) ∅

def flatRun : List TurnEvent :=
  [putsAll ∅ [taskAt "s3://bucket/prepared-00000000.dat"]] ++
    [putsAll (stored ["s3://bucket/prepared-00000000.dat"])
      [taskAt "s3://bucket/deletable-00000000.dat"]]

theorem two_flat_pools_are_complete :
    ∃ s, (sequentialMachine noRandom (oneObjectJob true)).run
      (.new (oneObjectJob true) ∅ none) flatRun = some s ∧ Complete (oneObjectJob true) s.objects := by
  obtain ⟨t, ht, hobjects, hturns, hcache⟩ : ∃ t, (sequentialMachine noRandom
      (oneObjectJob true)).run (.new (oneObjectJob true) ∅ none)
        [putsAll ∅ [taskAt "s3://bucket/prepared-00000000.dat"]] = some t ∧
      t.objects = stored ["s3://bucket/prepared-00000000.dat"] ∧
      t.turns.head? = some ⟨oneObject, "deletable".toList⟩ ∧ t.cache = none :=
    ⟨_, rfl, rfl, rfl, rfl⟩
  obtain ⟨s, hs, hret⟩ : ∃ s, (sequentialMachine noRandom (oneObjectJob true)).run
      (.new (oneObjectJob true) ∅ none) flatRun = some s ∧ s.Returns := ⟨_, rfl, ⟨rfl, rfl⟩⟩
  have hok : (sequentialMachine noRandom (oneObjectJob true)).Along (Succeeds listPrefixed)
      (.new (oneObjectJob true) ∅ none) flatRun :=
    (Machine.along_snoc ht).mpr ⟨⟨⟨rfl, by simp [putsAll]⟩, fun _ _ => trivial⟩,
      by rw [hobjects]; rfl, by simp [putsAll]⟩
  refine ⟨s, hs, (a_run_is_complete_iff hs hret hok).mpr ?_⟩
  intro turn hturn idx hidx
  have hpool : turn = ⟨oneObject, "prepared".toList⟩ ∨ turn = ⟨oneObject, "deletable".toList⟩ := by
    simpa [Job.turns, Job.pools, oneObjectJob] using hturn
  rcases hpool with rfl | rfl
  · obtain rfl : idx = 0 := Nat.lt_one_iff.mp hidx
    refine ⟨_, _, rfl, rfl, .inr ⟨[], _, _, _, rfl, rfl, _, _, 0, rfl, rfl, ?_, rfl⟩⟩
    exact ⟨by decide, by decide +kernel, by decide +kernel, rfl⟩
  · obtain rfl : idx = 0 := Nat.lt_one_iff.mp hidx
    refine ⟨_, _, rfl, rfl, .inr ⟨_, _, [], t, rfl, ht, _, _, 0, hturns, rfl, ?_, rfl⟩⟩
    rw [hobjects, hcache]
    exact ⟨by decide, by decide +kernel, by decide +kernel, rfl⟩

def shardedRun : List TurnEvent :=
  [putsAll ∅ [taskAt "s3://bucket/00/prepared-00000000.dat"]] ++
    [putsAll (stored ["s3://bucket/00/prepared-00000000.dat"]) []]

/-- The file of the first pool is counted for the second, and its file is not put. -/
theorem two_sharded_pools_are_not_complete :
    ∃ s, (sequentialMachine noRandom shardedJob).run (.new shardedJob ∅ none) shardedRun = some s ∧
      s.Returns ∧ (sequentialMachine noRandom shardedJob).Along (Succeeds listPrefixed)
        (.new shardedJob ∅ none) shardedRun ∧ ¬ Complete shardedJob s.objects := by
  obtain ⟨t, ht, hobjects⟩ : ∃ t, (sequentialMachine noRandom shardedJob).run
      (.new shardedJob ∅ none) [putsAll ∅ [taskAt "s3://bucket/00/prepared-00000000.dat"]] = some t ∧
      t.objects = stored ["s3://bucket/00/prepared-00000000.dat"] := ⟨_, rfl, rfl⟩
  refine ⟨_, rfl, ⟨rfl, rfl⟩, ?_, ?_⟩
  · exact (Machine.along_snoc ht).mpr ⟨⟨⟨rfl, by simp [putsAll]⟩, fun _ _ => trivial⟩,
      by rw [hobjects]; rfl, by simp [putsAll]⟩
  · intro hcomplete
    have hturn : ⟨oneObject, "deletable".toList⟩ ∈ shardedJob.turns :=
      List.mem_cons_of_mem _ List.mem_cons_self
    obtain ⟨base_uri, uri, hbase, huri, hmem⟩ := hcomplete _ hturn 0 (by decide)
    cases hbase
    cases huri
    revert hmem
    decide +kernel

end sai3_bench.prepare
