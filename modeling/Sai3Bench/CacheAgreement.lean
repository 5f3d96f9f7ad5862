-- Whether the cache agrees with the store after a prepare phase: it recalls
-- the first object of each number that the main pass has written.
import Sai3Bench.CacheCoverage
import Sai3Bench.ParallelPrepares

namespace sai3_bench.prepare

open directory_tree size_generator metadata_cache machines

/-! ## What is written -/

/-- The tasks that failed, and were written by the retry. -/
def retriedTasks (puts : List (PrepareTask × Put)) (retries : List (PrepareFailure × Put)) :
    List PrepareTask :=
  puts.filterMap fun p => match p.2 with
    | .Written => none
    | .Failed error =>
      if (⟨p.1.uri, p.1.size, error⟩, .Written) ∈ retries then some p.1 else none

/-- A prepare phase that returns `Ok`: what its main pass and its retries have
written, and the cache in the end. -/
inductive Prepares (r : Random) (job : Job) (objects : Objects) (cache : Option MetadataCache) :
    List PrepareTask → List PrepareTask → Option MetadataCache → Prop
  | Sequentially {es : List TurnEvent} {s : Sequential}
      (h : (sequentialMachine r job).run (.new job objects cache) es = some s) (hret : s.Returns) :
      Prepares r job objects cache (es.flatMap fun e => writtenTasks e.puts)
        (es.flatMap fun e => retriedTasks e.puts e.retries) s.cache
  | InParallel {e : parallel.ParallelEvent} {p : parallel.Parallel}
      (h : parallel.prepare_parallel r job objects cache e = some p) (hret : p.Returns) :
      Prepares r job objects cache (writtenTasks e.puts.flatten)
        (retriedTasks e.puts.flatten e.retries) p.cache

/-! ## What the cache recalls -/

def firstOf (tasks : List PrepareTask) (idx : Nat) : Option PrepareTask :=
  tasks.find? fun task => task.file_idx = idx

/-- The entry is that of the task. -/
def IsOf (entry : ObjectEntry) (task : PrepareTask) : Prop :=
  entry.state = .Created ∧ entry.path = task.uri ∧ entry.size = task.size

/-- The cache has the first task of each number, and nothing else. -/
def Recalls (m : MetadataCache) (tasks : List PrepareTask) : Prop :=
  ∀ idx, match firstOf tasks idx with
    | none => m.get_object idx = none
    | some task => ∃ entry, m.get_object idx = some entry ∧ IsOf entry task

variable {r : Random} {job : Job} {objects : Objects} {cache : Option MetadataCache}
  {m : MetadataCache} {tasks main retried : List PrepareTask} {task : PrepareTask} {idx now : Nat}

theorem firstOf_snoc : firstOf (tasks ++ [task]) idx =
    (firstOf tasks idx).or (if task.file_idx = idx then some task else none) := by
  unfold firstOf
  rw [List.find?_append]
  by_cases h : task.file_idx = idx <;> simp [h]

theorem firstOf_idx (h : firstOf tasks idx = some task) : task.file_idx = idx := by
  have := List.find?_some h
  exact of_decide_eq_true this

/-- A task that is recorded keeps what its number has already. -/
theorem recalls_record (h : Recalls m tasks) :
    Recalls (m.record_created task.file_idx task.uri task.size now) (tasks ++ [task]) := by
  intro idx
  have hidx := h idx
  rw [firstOf_snoc, MetadataCache.get_object_record_created]
  by_cases hself : idx = task.file_idx
  · subst hself
    rw [if_pos rfl, if_pos rfl]
    cases hfirst : firstOf tasks task.file_idx with
    | none =>
      rw [hfirst] at hidx
      rw [hidx]
      exact ⟨_, rfl, rfl, rfl, rfl⟩
    | some first =>
      rw [hfirst] at hidx
      obtain ⟨entry, hentry, _, hpath, hsize⟩ := hidx
      rw [hentry]
      exact ⟨_, rfl, rfl, hpath, hsize⟩
  · rw [if_neg hself, if_neg (Ne.symm hself), Option.or_none]
    exact hidx

theorem recalls_records {written : List PrepareTask} (h : Recalls m tasks) :
    ∃ m', written.foldl (fun cache task =>
        cache.map (·.record_created task.file_idx task.uri task.size now)) (some m) = some m' ∧
      Recalls m' (tasks ++ written) := by
  induction written generalizing m tasks with
  | nil =>
    rw [List.append_nil]
    exact ⟨m, rfl, h⟩
  | cons task written ih =>
    obtain ⟨m', hm', hrecalls⟩ := ih (recalls_record h)
    rw [List.append_assoc] at hrecalls
    exact ⟨m', hm', hrecalls⟩

/-- A cache without any objects. -/
def Empty (m : MetadataCache) : Prop := ∀ c ∈ m.endpoints, c.objects = ∅

theorem recalls_nil (h : Empty m) : Recalls m [] := by
  intro idx
  show m.get_object idx = none
  unfold MetadataCache.get_object MetadataCache.endpoint_for_file
  rw [List.getElem?_eq_getElem MetadataCache.endpoint_lt, Option.bind_some]
  unfold EndpointCache.get_object
  rw [h _ (List.getElem_mem _)]
  rfl

/-- The cache of a step has recorded what the main pass of the turn has written. -/
theorem step_recalls {s t : Sequential} {e : TurnEvent} (hm : s.cache = some m)
    (hrecalls : Recalls m tasks) (h : s.step r job e = some t) (hrun : t.phase = .Running) :
    ∃ m', t.cache = some m' ∧ Recalls m' (tasks ++ writtenTasks e.puts) := by
  obtain ⟨_, turn, _, ⟨existing, _, hquiet, _, hcache, _⟩ |
    ⟨created, n, x, successes, _, _, _, _, rfl, _, _, _, hcache, _⟩⟩ := Sequential.step_cases h hrun
  · rw [(Sequential.quiet_iff.mp hquiet).1, hcache]
    refine ⟨m, hm, ?_⟩
    show Recalls m (tasks ++ [])
    rwa [List.append_nil]
  · rw [hcache, cache_run]
    show ∃ m', (writtenTasks e.puts).foldl _ s.cache = some m' ∧ _
    rw [hm]
    exact recalls_records hrecalls

/-- In the end the cache recalls the main pass. -/
theorem prepares_recalls {c : Option MetadataCache} (hempty : Empty m)
    (h : Prepares r job objects (some m) main retried c) : ∃ m', c = some m' ∧ Recalls m' main := by
  cases h with
  | @Sequentially es s h hret =>
    refine Machine.run_remembers (I := fun es s => s.phase = .Running → ∃ m', s.cache = some m' ∧
      Recalls m' (es.flatMap fun e => writtenTasks e.puts)) (P := fun _ _ => True) ?_ ?_
        (Machine.along_of_mem fun _ _ _ => trivial) h hret.1
    · intro es s e t _ hI _ hstep hrun
      obtain ⟨m', hm', hrecalls⟩ := hI (Sequential.step_cases hstep hrun).1
      rw [List.flatMap_append, List.flatMap_singleton]
      exact step_recalls hm' hrecalls hstep hrun
    · exact fun _ => ⟨m, rfl, recalls_nil hempty⟩
  | @InParallel e p h hret =>
    obtain ⟨x, _, _, rfl, _, _, hcache, _⟩ := parallel.prepare_parallel_returns h hret
    rw [hcache, cache_run]
    exact recalls_records (recalls_nil hempty)

/-! ## Agreement -/

/-- The cache has each object that was written, and no other. -/
def Agrees (main retried : List PrepareTask) (m : MetadataCache) : Prop :=
  (∀ task ∈ main ++ retried, ∃ entry, m.get_object task.file_idx = some entry ∧ IsOf entry task) ∧
    ∀ idx entry, m.get_object idx = some entry → entry.state = .Created →
      ∃ task ∈ main ++ retried, task.file_idx = idx ∧ IsOf entry task

/-- After a prepare phase the cache agrees with the store, if and only if each
object that was written is the first of its number that the main pass wrote:
the retry has written no other object, and no two objects have one number. -/
theorem the_cache_agrees_iff {r : Random} {job : Job} {objects : Objects} {m : MetadataCache}
    {main retried : List PrepareTask} {c : Option MetadataCache} (hempty : Empty m)
    (h : Prepares r job objects (some m) main retried c) :
    (∃ m', c = some m' ∧ Agrees main retried m') ↔
      ∀ task ∈ main ++ retried, ∃ first, firstOf main task.file_idx = some first ∧
        first.uri = task.uri ∧ first.size = task.size := by
  obtain ⟨m', rfl, hrecalls⟩ := prepares_recalls hempty h
  constructor
  · rintro ⟨m'', hm'', hall, _⟩ task htask
    cases hm''
    obtain ⟨entry, hentry, _, hpath, hsize⟩ := hall task htask
    have hidx := hrecalls task.file_idx
    cases hfirst : firstOf main task.file_idx with
    | none =>
      rw [hfirst] at hidx
      rw [hidx] at hentry
      cases hentry
    | some first =>
      rw [hfirst] at hidx
      obtain ⟨entry', hentry', _, hpath', hsize'⟩ := hidx
      rw [hentry] at hentry'
      cases hentry'
      exact ⟨first, rfl, hpath'.symm.trans hpath, hsize'.symm.trans hsize⟩
  · intro hfirsts
    refine ⟨m', rfl, fun task htask => ?_, fun idx entry hentry hstate => ?_⟩
    · obtain ⟨first, hfirst, huri, hsize⟩ := hfirsts task htask
      have hidx := hrecalls task.file_idx
      rw [hfirst] at hidx
      obtain ⟨entry, hentry, hstate, hpath, hsize'⟩ := hidx
      exact ⟨entry, hentry, hstate, hpath.trans huri, hsize'.trans hsize⟩
    · have hidx := hrecalls idx
      cases hfirst : firstOf main idx with
      | none =>
        rw [hfirst] at hidx
        rw [hidx] at hentry
        cases hentry
      | some first =>
        rw [hfirst] at hidx
        obtain ⟨entry', hentry', hof⟩ := hidx
        rw [hentry] at hentry'
        cases hentry'
        exact ⟨first, List.mem_append_left _ (List.mem_of_find?_eq_some hfirst),
          firstOf_idx hfirst, hof⟩

/-! ## One object that fails at first -/

theorem emptyCache_empty : Empty emptyCache := by
  unfold Empty emptyCache
  simp

theorem one_written_object_agrees : ∃ main retried c m', Prepares noRandom (oneObjectJob false) ∅
    (some emptyCache) main retried c ∧ c = some m' ∧ Agrees main retried m' := by
  obtain ⟨s, hs, hret⟩ : ∃ s, (sequentialMachine noRandom (oneObjectJob false)).run
      (.new (oneObjectJob false) ∅ (some emptyCache))
      [putsOne "s3://bucket/prepared-00000000.dat"] = some s ∧ s.Returns := ⟨_, rfl, rfl, rfl⟩
  have hp := Prepares.Sequentially hs hret
  obtain ⟨m', hm', hagrees⟩ := (the_cache_agrees_iff emptyCache_empty hp).mpr (by
    intro task htask
    rw [show task = ⟨"s3://bucket/prepared-00000000.dat".toList, 4096, 0⟩ by
      simpa [putsOne, writtenTasks, retriedTasks] using htask]
    exact ⟨_, rfl, rfl, rfl⟩)
  exact ⟨_, _, _, m', hp, hm', hagrees⟩

def twoObjects : Job :=
  { config := { ensure_objects := [{ oneObject with count := 2 }] }, concurrency := 4 }

/-- The second object fails at first, and is written by the retry. -/
def failsOnce : TurnEvent :=
  let first : PrepareTask := ⟨"s3://bucket/prepared-00000000.dat".toList, 4096, 0⟩
  let second : PrepareTask := ⟨"s3://bucket/prepared-00000001.dat".toList, 4096, 1⟩
  { stream := fun _ => []
    puts := [(first, .Written), (second, .Failed "timeout")]
    retries := [(⟨second.uri, second.size, "timeout"⟩, .Written)] }

theorem a_retried_object_is_not_recorded : ∃ s, (sequentialMachine noRandom twoObjects).run
      (.new twoObjects ∅ (some emptyCache)) [failsOnce] = some s ∧ s.Returns ∧
    "s3://bucket/prepared-00000001.dat".toList ∈ s.objects ∧
    ∃ main retried, Prepares noRandom twoObjects ∅ (some emptyCache) main retried s.cache ∧
      ¬ ∃ m', s.cache = some m' ∧ Agrees main retried m' := by
  obtain ⟨s, hs, hret, hobject, hentry⟩ : ∃ s, (sequentialMachine noRandom twoObjects).run
      (.new twoObjects ∅ (some emptyCache)) [failsOnce] = some s ∧ s.Returns ∧
      "s3://bucket/prepared-00000001.dat".toList ∈ s.objects ∧
      s.cache.bind (·.get_object 1) = none :=
    ⟨_, rfl, ⟨rfl, rfl⟩, by decide +kernel, by decide +kernel⟩
  refine ⟨s, hs, hret, hobject, _, _, .Sequentially hs hret, ?_⟩
  rintro ⟨m', hm', hall, _⟩
  have hretried : ⟨"s3://bucket/prepared-00000001.dat".toList, 4096, 1⟩ ∈
      [failsOnce].flatMap (fun e => retriedTasks e.puts e.retries) := by decide +kernel
  obtain ⟨entry, hfound, _⟩ := hall _ (List.mem_append_right _ hretried)
  rw [hm', Option.bind_some, hfound] at hentry
  cases hentry

end sai3_bench.prepare
