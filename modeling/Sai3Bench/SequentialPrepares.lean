-- The sequential prepare strategy (prepare/sequential.rs), one turn after the
-- other: what exists is listed, and what is missing is put.
import Sai3Bench.Machines
import Sai3Bench.PreparePuts

namespace sai3_bench.prepare

open directory_tree size_generator metadata_cache machines

/-! ## One turn -/

/-- What a turn meets: whether the INFO level is logged, what the store lists,
how the puts end, in the order in which they are done, and the time. -/
structure TurnEvent where
  info_enabled : Bool := false
  stream : Path → List (Except String Path)
  puts : List (PrepareTask × Put) := []
  retries : List (PrepareFailure × Put) := []
  now : Nat := 0

/-- What a turn is going to do. -/
inductive TurnPlan
  | Exist (objects : List PreparedObject)
  | Create (tasks : List PrepareTask) (actual_to_create : Nat)

namespace Turn

/-- The number is one of this agent's. -/
def mine (job : Job) (idx : Nat) : Bool :=
  decide (job.num_agents ≤ 1) || idx % job.num_agents = job.agent_id

/-- The numbers that a turn puts. -/
def selects (job : Job) (existing : Existing) (idx : Nat) : Bool :=
  idx ∉ existing.indices && mine job idx

def plan (r : Random) (job : Job) (turn : Turn) (cache : Option MetadataCache) (e : TurnEvent) :
    Except String TurnPlan :=
  match turn.spec.get_base_uri job.multi_endpoint_uris with
  | .error _ => .error "Failed to determine base_uri for prepare phase"
  | .ok base_uri => match turn.existing job e.stream (coverage cache turn) base_uri with
    | .error msg => .error msg
    | .ok existing =>
      let idxs := List.range turn.spec.count
      let size_spec := turn.spec.get_size_spec
      if turn.to_create existing = 0 then match SizeGenerator.new r size_spec with
        | .error _ => .error "Failed to create size generator"
        | .ok g => .ok (.Exist (reconstruct (turn.uri job base_uri) g idxs))
      else match SizeGenerator.new_with_seed r size_spec (seedOf base_uri) with
        | .error _ => .error "Failed to create size generator"
        | .ok g =>
          -- the line that logs the sizes takes some of them
          let g := if e.info_enabled then g.description else g
          .ok (.Create (createTasks (selects job existing) (turn.uri job base_uri) g idxs)
            (idxs.countP (selects job existing)))

variable {r : Random} {job : Job} {turn : Turn} {cache : Option MetadataCache} {e : TurnEvent}

/-- All that the plan of a turn can be. -/
theorem plan_ok {p : TurnPlan} (h : turn.plan r job cache e = .ok p) :
    ∃ base_uri existing, turn.spec.get_base_uri job.multi_endpoint_uris = .ok base_uri ∧
      turn.existing job e.stream (coverage cache turn) base_uri = .ok existing ∧
      (turn.to_create existing = 0 ∧
          (∃ g, SizeGenerator.new r turn.spec.get_size_spec = .ok g ∧
            p = .Exist (reconstruct (turn.uri job base_uri) g (List.range turn.spec.count))) ∨
        turn.to_create existing ≠ 0 ∧
          ∃ g, SizeGenerator.new_with_seed r turn.spec.get_size_spec (seedOf base_uri) = .ok g ∧
            p = .Create (createTasks (selects job existing) (turn.uri job base_uri)
                (if e.info_enabled then g.description else g) (List.range turn.spec.count))
              ((List.range turn.spec.count).countP (selects job existing))) := by
  unfold plan at h
  split at h
  · cases h
  · rename_i base_uri hbase
    split at h
    · cases h
    · rename_i existing hexisting
      refine ⟨base_uri, existing, hbase, hexisting, ?_⟩
      dsimp only at h
      split at h
      · rename_i hzero
        split at h
        · cases h
        · rename_i g hg
          cases h
          exact .inl ⟨hzero, g, hg, rfl⟩
      · rename_i hmore
        split at h
        · cases h
        · rename_i g hg
          cases h
          exact .inr ⟨hmore, g, hg, rfl⟩

end Turn

/-! ## All turns -/

inductive Phase
  | Running
  | Failed (error : String)
  | Hung

/-- The run has returned when no turn is left. -/
structure Sequential where
  turns : List Turn
  objects : Objects
  cache : Option MetadataCache
  prepared : List PreparedObject := []
  phase : Phase := .Running

namespace Sequential

variable {r : Random} {job : Job} {e : TurnEvent}

def new (job : Job) (objects : Objects) (cache : Option MetadataCache) : Sequential :=
  { turns := job.turns, objects := objects, cache := cache }

def aborted (t : PrepareErrorTracker) : String :=
  s!"Prepare aborted: {t.total_errors} total errors or {t.consecutive_errors} consecutive errors"

/-- A turn that puts nothing. -/
def quiet (e : TurnEvent) : Bool := e.puts.isEmpty && e.retries.isEmpty

/-- The tasks of a turn are put. -/
def create (job : Job) (s : Sequential) (turns : List Turn) (tasks : List PrepareTask)
    (actual_to_create : Nat) (e : TurnEvent) : Option Sequential :=
  if job.concurrency = 0 ∧ tasks ≠ [] then
    -- no task gets a permit
    if quiet e then some { s with phase := .Hung } else none
  else if (e.puts.map (·.1)).isPerm tasks then
    let x := ({ cache := s.cache, objects := s.objects } : Execution).run aborted e.now e.puts
    let s := { s with objects := x.objects, cache := x.cache }
    -- the progress bar waits for every number that is missing
    if tasks.length < actual_to_create then
      if e.retries.isEmpty then some { s with phase := .Hung } else none
    else match x.error_result with
      | some msg => if e.retries.isEmpty then some { s with phase := .Failed msg } else none
      | none => (retry_failed_objects x.error_tracker.failed_objects (job.concurrency / 4)
          actual_to_create e.retries).map fun
        | .Hangs => { s with phase := .Hung }
        | .Ends successes => { s with
            turns := turns
            objects := putRetried s.objects successes
            prepared := s.prepared ++ x.created ++ successes.map fun f => ⟨f.uri, f.size, true⟩ }
  else none

def step (r : Random) (job : Job) (s : Sequential) (e : TurnEvent) : Option Sequential :=
  match s.phase, s.turns with
  | .Running, turn :: turns => match turn.plan r job s.cache e with
    | .error msg => if quiet e then some { s with phase := .Failed msg } else none
    | .ok (.Exist objects) =>
      if quiet e then some { s with turns := turns, prepared := s.prepared ++ objects } else none
    | .ok (.Create tasks actual_to_create) => s.create job turns tasks actual_to_create e
  | _, _ => none

theorem quiet_iff {e : TurnEvent} : quiet e = true ↔ e.puts = [] ∧ e.retries = [] := by
  unfold quiet
  rw [Bool.and_eq_true, List.isEmpty_iff, List.isEmpty_iff]

/-- A step after which the run goes on. -/
theorem step_cases {s t : Sequential} (h : s.step r job e = some t) (hrun : t.phase = .Running) :
    s.phase = .Running ∧ ∃ turn, s.turns = turn :: t.turns ∧
      ((∃ objects, turn.plan r job s.cache e = .ok (.Exist objects) ∧ quiet e = true ∧
          t.objects = s.objects ∧ t.cache = s.cache ∧ t.prepared = s.prepared ++ objects) ∨
        ∃ tasks actual_to_create x successes,
          turn.plan r job s.cache e = .ok (.Create tasks actual_to_create) ∧
          (job.concurrency = 0 → tasks = []) ∧ (e.puts.map (·.1)).Perm tasks ∧
          actual_to_create ≤ tasks.length ∧
          x = ({ cache := s.cache, objects := s.objects } : Execution).run aborted e.now e.puts ∧
          x.error_result = none ∧
          retry_failed_objects x.error_tracker.failed_objects (job.concurrency / 4)
            actual_to_create e.retries = some (.Ends successes) ∧
          t.objects = putRetried x.objects successes ∧ t.cache = x.cache ∧
          t.prepared = s.prepared ++ x.created ++ successes.map fun f => ⟨f.uri, f.size, true⟩) := by
  unfold step at h
  split at h
  · rename_i turn turns hphase hturns
    refine ⟨hphase, turn, ?_⟩
    split at h
    · split at h <;> cases h
      cases hrun
    · rename_i objects hplan
      split at h
      · rename_i hquiet
        cases h
        exact ⟨hturns, .inl ⟨objects, hplan, hquiet, rfl, rfl, rfl⟩⟩
      · cases h
    · rename_i tasks actual_to_create hplan
      unfold create at h
      split at h
      · split at h <;> cases h
        cases hrun
      · rename_i hpermits
        split at h
        · rename_i hperm
          dsimp only at h
          split at h
          · split at h <;> cases h
            cases hrun
          · rename_i hless
            split at h
            · split at h <;> cases h
              cases hrun
            · rename_i herror
              obtain ⟨retry, hretry, rfl⟩ := Option.map_eq_some_iff.mp h
              have htasks : job.concurrency = 0 → tasks = [] := by
                intro hzero
                by_contra hne
                exact hpermits ⟨hzero, hne⟩
              cases retry with
              | Hangs => cases hrun
              | Ends successes =>
                exact ⟨hturns, .inr ⟨tasks, actual_to_create, _, successes, hplan, htasks,
                  List.isPerm_iff.mp hperm, by omega, rfl, herror, hretry, rfl, rfl, rfl⟩⟩
        · cases h
  · cases h

/-- `Ok` is returned. -/
def Returns (s : Sequential) : Prop := s.phase = .Running ∧ s.turns = []

end Sequential

def sequentialMachine (r : Random) (job : Job) : Machine Sequential TurnEvent :=
  ⟨Sequential.step r job⟩

end sai3_bench.prepare
