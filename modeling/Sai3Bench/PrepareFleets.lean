-- Several agents that prepare one store at the same time: each goes through
-- its own turns, and their listings and puts come in any order.
import Sai3Bench.ParallelPlans
import Sai3Bench.SequentialPrepares

namespace sai3_bench.prepare

open directory_tree size_generator metadata_cache machines

/-! ## The agents -/

/-- A turn whose tasks are being put. -/
structure Underway where
  tasks : List PrepareTask
  actual_to_create : Nat
  puts : List (PrepareTask × Put) := []

structure Agent where
  turns : List Turn
  cache : Option MetadataCache
  underway : Option Underway := none
  failed : Option String := none

structure Fleet where
  objects : Objects
  agents : List Agent

inductive FleetEvent
  | Begins (agent_id : Nat) (e : TurnEvent)
  | Puts (agent_id : Nat) (task : PrepareTask) (put : Put) (now : Nat)
  | Ends (agent_id : Nat) (retries : List (PrepareFailure × Put))

namespace Fleet

/-- The agents of a job, each with a cache of its own. -/
def new (job : Job) (objects : Objects) (caches : List (Option MetadataCache)) : Fleet :=
  { objects := objects, agents := caches.map fun cache => { turns := job.turns, cache := cache } }

def num_agents (s : Fleet) : Nat := s.agents.length

/-- The job as an agent sees it. -/
def jobOf (s : Fleet) (job : Job) (agent_id : Nat) : Job :=
  parallel.agentOf job s.num_agents agent_id

def setAgent (s : Fleet) (agent_id : Nat) (agent : Agent) : Fleet :=
  { s with agents := s.agents.set agent_id agent }

/-- An agent lists what exists, and plans its next turn. -/
def begins (r : Random) (job : Job) (s : Fleet) (agent_id : Nat) (e : TurnEvent) (agent : Agent) :
    Option Fleet :=
  match agent.underway, agent.failed, agent.turns with
  | none, none, turn :: turns => match turn.plan r (s.jobOf job agent_id) agent.cache e with
    | .error msg => some (s.setAgent agent_id { agent with failed := some msg })
    | .ok (.Exist _) => some (s.setAgent agent_id { agent with turns := turns })
    | .ok (.Create tasks actual_to_create) =>
      let underway : Underway := { tasks := tasks, actual_to_create := actual_to_create }
      some (s.setAgent agent_id { agent with underway := some underway })
  | _, _, _ => none

/-- One of the tasks is done. Without a permit there is none. -/
def puts (job : Job) (s : Fleet) (agent_id : Nat) (task : PrepareTask) (put : Put) (now : Nat)
    (agent : Agent) : Option Fleet :=
  match agent.underway with
  | none => none
  | some u =>
    if job.concurrency ≠ 0 ∧ task ∈ u.tasks then
      let underway := { u with tasks := u.tasks.erase task, puts := u.puts ++ [(task, put)] }
      match put with
      | .Written =>
        let cache := agent.cache.map (·.record_created task.file_idx task.uri task.size now)
        let s := { s with objects := s.objects.insert task.uri task.size }
        some (s.setAgent agent_id { agent with underway := some underway, cache := cache })
      | .Failed _ => some (s.setAgent agent_id { agent with underway := some underway })
    else none

/-- All tasks are done, and the progress bar is full. -/
def ends (job : Job) (s : Fleet) (agent_id : Nat) (retries : List (PrepareFailure × Put))
    (agent : Agent) : Option Fleet :=
  match agent.underway with
  | none => none
  | some u =>
    if u.tasks = [] ∧ u.actual_to_create ≤ u.puts.length then
      let x := ({ cache := none, objects := ∅ } : Execution).run Sequential.aborted 0 u.puts
      match x.error_result with
      | some msg =>
        if retries.isEmpty then some (s.setAgent agent_id { agent with failed := some msg }) else none
      | none => match retry_failed_objects x.error_tracker.failed_objects (job.concurrency / 4)
          u.actual_to_create retries with
        | some (.Ends successes) =>
          let s := { s with objects := putRetried s.objects successes }
          some (s.setAgent agent_id { agent with turns := agent.turns.tail, underway := none })
        | _ => none
    else none

def step (r : Random) (job : Job) (s : Fleet) : FleetEvent → Option Fleet
  | .Begins agent_id e => (s.agents[agent_id]?).bind (s.begins r job agent_id e)
  | .Puts agent_id task put now => (s.agents[agent_id]?).bind (s.puts job agent_id task put now)
  | .Ends agent_id retries => (s.agents[agent_id]?).bind (s.ends job agent_id retries)

/-- All agents have returned `Ok`. -/
def Finished (s : Fleet) : Prop :=
  ∀ agent ∈ s.agents, agent.turns = [] ∧ agent.underway = none ∧ agent.failed = none

end Fleet

def fleetMachine (r : Random) (job : Job) : Machine Fleet FleetEvent := ⟨Fleet.step r job⟩

/-! ## What a step does to its agent -/

def FleetEvent.agent_id : FleetEvent → Nat
  | .Begins agent_id _ => agent_id
  | .Puts agent_id _ _ _ => agent_id
  | .Ends agent_id _ => agent_id

namespace Fleet

variable {r : Random} {job : Job} {s t : Fleet} {ev : FleetEvent}

/-- What an agent was and what it becomes, and the objects after the step. -/
inductive Moves (r : Random) (job : Job) (s : Fleet) :
    FleetEvent → Agent → Agent → Objects → Prop
  | Fails {a : Nat} {e : TurnEvent} {agent : Agent} {turn : Turn} {msg : String}
      (hidle : agent.underway = none) (hturn : agent.turns.head? = some turn)
      (hplan : turn.plan r (s.jobOf job a) agent.cache e = .error msg) :
      Moves r job s (.Begins a e) agent { agent with failed := some msg } s.objects
  | Exists {a : Nat} {e : TurnEvent} {agent : Agent} {turn : Turn} {objects : List PreparedObject}
      (hidle : agent.underway = none) (hturn : agent.turns.head? = some turn)
      (hplan : turn.plan r (s.jobOf job a) agent.cache e = .ok (.Exist objects)) :
      Moves r job s (.Begins a e) agent { agent with turns := agent.turns.tail } s.objects
  | Creates {a : Nat} {e : TurnEvent} {agent : Agent} {turn : Turn} {u : Underway}
      (hidle : agent.underway = none) (hturn : agent.turns.head? = some turn)
      (hplan : turn.plan r (s.jobOf job a) agent.cache e = .ok (.Create u.tasks u.actual_to_create))
      (hnew : u.puts = []) :
      Moves r job s (.Begins a e) agent { agent with underway := some u } s.objects
  | Writes {a : Nat} {task : PrepareTask} {now : Nat} {agent : Agent} {u v : Underway}
      {cache : Option MetadataCache} (hu : agent.underway = some u) (htask : task ∈ u.tasks)
      (htasks : v.tasks = u.tasks.erase task) (hputs : v.puts = u.puts ++ [(task, .Written)]) :
      Moves r job s (.Puts a task .Written now) agent
        { agent with underway := some v, cache := cache } (s.objects.insert task.uri task.size)
  | FailsToWrite {a : Nat} {task : PrepareTask} {error : String} {now : Nat} {agent : Agent}
      {u v : Underway} (hu : agent.underway = some u) (htask : task ∈ u.tasks)
      (htasks : v.tasks = u.tasks.erase task) (hputs : v.puts = u.puts ++ [(task, .Failed error)]) :
      Moves r job s (.Puts a task (.Failed error) now) agent { agent with underway := some v }
        s.objects
  | Aborts {a : Nat} {agent : Agent} {u : Underway} {msg : String}
      (hu : agent.underway = some u)
      (herror : (({ cache := none, objects := ∅ } : Execution).run Sequential.aborted 0
        u.puts).error_result = some msg) :
      Moves r job s (.Ends a []) agent { agent with failed := some msg } s.objects
  | Ends {a : Nat} {agent : Agent} {u : Underway} {retries : List (PrepareFailure × Put)}
      {successes : List PrepareFailure} (hu : agent.underway = some u) (htasks : u.tasks = [])
      (hretry : retry_failed_objects (({ cache := none, objects := ∅ } : Execution).run
          Sequential.aborted 0 u.puts).error_tracker.failed_objects (job.concurrency / 4)
        u.actual_to_create retries = some (.Ends successes)) :
      Moves r job s (.Ends a retries) agent
        { agent with turns := agent.turns.tail, underway := none } (putRetried s.objects successes)

theorem begins_moves {a : Nat} {e : TurnEvent} {agent : Agent}
    (h : s.begins r job a e agent = some t) : ∃ agent', t.agents = s.agents.set a agent' ∧
      Moves r job s (.Begins a e) agent agent' t.objects := by
  unfold begins at h
  split at h
  · rename_i hidle _ hturns
    split at h
    · rename_i msg hplan
      cases h
      exact ⟨_, rfl, .Fails hidle (by rw [hturns]; rfl) hplan⟩
    · rename_i objects hplan
      cases h
      refine ⟨_, rfl, ?_⟩
      have hmove := Moves.Exists (s := s) hidle (by rw [hturns]; rfl) hplan
      rw [hturns] at hmove
      exact hmove
    · rename_i tasks n hplan
      cases h
      exact ⟨_, rfl, .Creates hidle (by rw [hturns]; rfl) hplan rfl⟩
  · cases h

theorem puts_moves {a : Nat} {task : PrepareTask} {put : Put} {now : Nat} {agent : Agent}
    (h : s.puts job a task put now agent = some t) : ∃ agent', t.agents = s.agents.set a agent' ∧
      Moves r job s (.Puts a task put now) agent agent' t.objects := by
  unfold puts at h
  split at h
  · cases h
  · rename_i u hu
    split at h
    · rename_i htask
      cases put with
      | Written =>
        cases h
        exact ⟨_, rfl, .Writes hu htask.2 rfl rfl⟩
      | Failed error =>
        cases h
        exact ⟨_, rfl, .FailsToWrite hu htask.2 rfl rfl⟩
    · cases h

theorem ends_moves {a : Nat} {retries : List (PrepareFailure × Put)} {agent : Agent}
    (h : s.ends job a retries agent = some t) : ∃ agent', t.agents = s.agents.set a agent' ∧
      Moves r job s (.Ends a retries) agent agent' t.objects := by
  unfold ends at h
  split at h
  · cases h
  · rename_i u hu
    split at h
    · rename_i hdone
      dsimp only at h
      split at h
      · rename_i msg herror
        split at h
        · rename_i hempty
          cases h
          rw [List.isEmpty_iff.mp hempty]
          exact ⟨_, rfl, .Aborts hu herror⟩
        · cases h
      · split at h
        · rename_i successes hretry
          cases h
          exact ⟨_, rfl, .Ends hu hdone.1 hretry⟩
        · cases h
    · cases h

/-- A step is that of one agent, and the others stay as they are. -/
theorem step_moves (h : s.step r job ev = some t) : ∃ agent agent',
    s.agents[ev.agent_id]? = some agent ∧ t.agents = s.agents.set ev.agent_id agent' ∧
      Moves r job s ev agent agent' t.objects := by
  cases ev with
  | Begins a e =>
    obtain ⟨agent, hagent, h⟩ := Option.bind_eq_some_iff.mp h
    obtain ⟨agent', ht, hmove⟩ := begins_moves h
    exact ⟨agent, agent', hagent, ht, hmove⟩
  | Puts a task put now =>
    obtain ⟨agent, hagent, h⟩ := Option.bind_eq_some_iff.mp h
    obtain ⟨agent', ht, hmove⟩ := puts_moves h
    exact ⟨agent, agent', hagent, ht, hmove⟩
  | Ends a retries =>
    obtain ⟨agent, hagent, h⟩ := Option.bind_eq_some_iff.mp h
    obtain ⟨agent', ht, hmove⟩ := ends_moves h
    exact ⟨agent, agent', hagent, ht, hmove⟩

theorem num_agents_step (h : s.step r job ev = some t) : t.num_agents = s.num_agents := by
  obtain ⟨_, _, _, ht, _⟩ := step_moves h
  unfold num_agents
  rw [ht, List.length_set]

theorem agent_set {a b : Nat} {agent agent' : Agent} (ha : s.agents[a]? = some agent) :
    (s.agents.set a agent')[b]? = if b = a then some agent' else s.agents[b]? := by
  obtain ⟨hlt, _⟩ := List.getElem?_eq_some_iff.mp ha
  rw [List.getElem?_set]
  by_cases h : b = a
  · subst h
    simp [hlt]
  · simp [h, Ne.symm h]

/-! ## A turn of one agent -/

/-- The puts of an agent, one after the other. -/
theorem run_puts {a : Nat} {turns : List Turn} {u : Underway} {ps : List (PrepareTask × Put)}
    (now : Nat) (x : Execution) (hperm : (ps.map (·.1)).Perm u.tasks)
    (hpermits : job.concurrency = 0 → u.tasks = []) (hobjects : s.objects = x.objects)
    (hagent : s.agents[a]? =
      some { turns := turns, cache := x.cache, underway := some u }) :
    ∃ t, (fleetMachine r job).run s (ps.map fun p => .Puts a p.1 p.2 now) = some t ∧
      t.objects = (x.run Sequential.aborted now ps).objects ∧
      t.agents = s.agents.set a
        { turns := turns, cache := (x.run Sequential.aborted now ps).cache
          underway := some { u with tasks := [], puts := u.puts ++ ps } } := by
  induction ps generalizing s x u with
  | nil =>
    have htasks : u.tasks = [] := List.perm_nil.mp hperm.symm
    refine ⟨s, rfl, hobjects, ?_⟩
    have hsame : ({ u with tasks := [], puts := u.puts ++ [] } : Underway) = u := by
      rw [List.append_nil, ← htasks]
    obtain ⟨hlt, hself⟩ := List.getElem?_eq_some_iff.mp hagent
    have hrun : x.run Sequential.aborted now [] = x := rfl
    rw [hsame, hrun, ← hself, List.set_getElem_self]
  | cons p ps ih =>
    obtain ⟨task, put⟩ := p
    have htask : task ∈ u.tasks := hperm.mem_iff.mp List.mem_cons_self
    have hrest : (ps.map (·.1)).Perm (u.tasks.erase task) := by
      have := hperm.erase task
      rwa [List.map_cons, List.erase_cons_head] at this
    have hnone : job.concurrency ≠ 0 := by
      intro hzero
      rw [hpermits hzero] at htask
      cases htask
    let v : Underway := { u with tasks := u.tasks.erase task, puts := u.puts ++ [(task, put)] }
    let y := x.complete Sequential.aborted now (task, put)
    let moved : Agent := { turns := turns, cache := y.cache, underway := some v }
    let next : Fleet := { objects := y.objects, agents := s.agents.set a moved }
    have hstep : s.step r job (.Puts a task put now) = some next := by
      show (s.agents[a]?).bind (s.puts job a task put now) = _
      rw [hagent, Option.bind_some]
      unfold puts
      dsimp only
      rw [if_pos ⟨hnone, htask⟩]
      cases put with
      | Written =>
        rw [hobjects]
        rfl
      | Failed error =>
        unfold setAgent
        rw [hobjects]
        rfl
    have hnext : next.agents[a]? = some moved := by
      show (s.agents.set a moved)[a]? = _
      rw [agent_set hagent, if_pos rfl]
    obtain ⟨t, ht, htobjects, htagents⟩ := ih y (u := v) hrest
      (fun hzero => absurd hzero hnone) rfl hnext
    refine ⟨t, Machine.run_cons_iff.mpr ⟨next, hstep, ht⟩, htobjects, ?_⟩
    have hputs : u.puts ++ (task, put) :: ps = v.puts ++ ps := by
      show _ = u.puts ++ [(task, put)] ++ ps
      rw [List.append_assoc, List.singleton_append]
    rw [htagents, List.set_set, hputs]
    rfl

/-- A turn of the sequential strategy is a turn of an agent whose steps follow
one another. -/
theorem a_turn_of_an_agent {a : Nat} {q q' : Sequential} {e : TurnEvent}
    (h : q.step r (s.jobOf job a) e = some q') (hrun : q'.phase = .Running)
    (hobjects : s.objects = q.objects)
    (hagent : s.agents[a]? = some { turns := q.turns, cache := q.cache }) :
    ∃ es t, (fleetMachine r job).run s es = some t ∧ t.objects = q'.objects ∧
      t.agents = s.agents.set a { turns := q'.turns, cache := q'.cache } := by
  obtain ⟨_, turn, hturns, hcases⟩ := Sequential.step_cases h hrun
  rcases hcases with ⟨objects, hplan, _, hobjects', hcache', _⟩ |
    ⟨tasks, n, x, successes, hplan, hpermits, hperm, hfull, rfl, herror, hretry, hobjects', hcache', _⟩
  · refine ⟨[.Begins a e], s.setAgent a { turns := q'.turns, cache := q'.cache }, ?_, ?_, rfl⟩
    · refine Machine.run_cons_iff.mpr ⟨_, ?_, rfl⟩
      show (s.agents[a]?).bind (s.begins r job a e) = _
      rw [hagent, Option.bind_some]
      unfold begins
      dsimp only
      rw [hturns]
      dsimp only
      rw [hplan, hcache']
    · rw [hobjects']
      exact hobjects
  · let u : Underway := { tasks := tasks, actual_to_create := n }
    let s₁ := s.setAgent a { turns := q.turns, cache := q.cache, underway := some u }
    have hbegin : s.step r job (.Begins a e) = some s₁ := by
      show (s.agents[a]?).bind (s.begins r job a e) = _
      rw [hagent, Option.bind_some]
      unfold begins
      dsimp only
      rw [hturns]
      dsimp only
      rw [hplan, ← hturns]
    have hagent₁ : s₁.agents[a]? =
        some { turns := q.turns, cache := q.cache, underway := some u } := by
      show (s.agents.set a _)[a]? = _
      rw [agent_set hagent, if_pos rfl]
    let x : Execution := { cache := q.cache, objects := q.objects }
    have hobjects₁ : s₁.objects = x.objects := hobjects
    have hpermits₁ : job.concurrency = 0 → u.tasks = [] := hpermits
    obtain ⟨s₂, hs₂, hobjects₂, hagents₂⟩ := run_puts (r := r) e.now x hperm hpermits₁ hobjects₁
      hagent₁
    let z : Execution := { cache := none, objects := ∅ }
    obtain ⟨htracker, hresult⟩ : (z.run Sequential.aborted 0 e.puts).error_tracker =
          (x.run Sequential.aborted e.now e.puts).error_tracker ∧
        (z.run Sequential.aborted 0 e.puts).error_result =
          (x.run Sequential.aborted e.now e.puts).error_result := errors_run rfl rfl
    rw [herror] at hresult
    have hretry₂ : retry_failed_objects
        (x.run Sequential.aborted e.now e.puts).error_tracker.failed_objects (job.concurrency / 4)
          u.actual_to_create e.retries = some (.Ends successes) := hretry
    let s₃ := ({ s₂ with objects := putRetried s₂.objects successes } : Fleet).setAgent a
      { turns := q'.turns, cache := q'.cache }
    have hlength : e.puts.length = tasks.length := by
      rw [← hperm.length_eq, List.length_map]
    have hend : s₂.step r job (.Ends a e.retries) = some s₃ := by
      show (s₂.agents[a]?).bind (s₂.ends job a e.retries) = _
      rw [hagents₂, agent_set hagent₁, if_pos rfl, Option.bind_some]
      unfold ends
      dsimp only
      rw [if_pos ⟨rfl, by rw [List.nil_append, hlength]; exact hfull⟩, List.nil_append, hresult,
        htracker]
      dsimp only
      rw [hretry₂]
      dsimp only
      rw [hturns, ← hcache']
      rfl
    refine ⟨.Begins a e :: (e.puts.map fun p => .Puts a p.1 p.2 e.now) ++ [.Ends a e.retries], s₃,
      ?_, ?_, ?_⟩
    · refine Machine.run_append_iff.mpr ⟨s₂, Machine.run_cons_iff.mpr ⟨s₁, hbegin, hs₂⟩, ?_⟩
      exact Machine.run_cons_iff.mpr ⟨s₃, hend, rfl⟩
    · show putRetried s₂.objects successes = _
      rw [hobjects₂, hobjects']
    · show s₂.agents.set a _ = _
      rw [hagents₂]
      show ((s.agents.set a _).set a _).set a _ = _
      rw [List.set_set, List.set_set]

end Fleet

end sai3_bench.prepare
