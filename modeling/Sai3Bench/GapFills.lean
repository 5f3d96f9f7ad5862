-- Agents that fill the gaps of a tree of files together: what an agent puts
-- follows from what it listed, and a file can only be put by the agent of its
-- number.
import Sai3Bench.CompletePrepares
import Sai3Bench.ObjectAddresses
import Sai3Bench.PrepareFleets

namespace sai3_bench.prepare

open directory_tree size_generator metadata_cache machines

/-! ## What is put -/

/-- The event puts an object at the address. -/
def FleetEvent.PutsUri (a : Nat) (uri : Path) : FleetEvent → Prop
  | .Begins _ _ => False
  | .Puts agent_id task put _ => agent_id = a ∧ task.uri = uri ∧ put = .Written
  | .Ends agent_id retries => agent_id = a ∧ ∃ p ∈ retries, p.1.uri = uri ∧ p.2 = .Written

/-- The agent puts an object at the address. -/
def PutBy (a : Nat) (uri : Path) (es : List FleetEvent) : Prop := ∃ ev ∈ es, ev.PutsUri a uri

/-- The agent plans a turn that puts an object at the address. -/
def PlansUri (list : Objects → Path → List Path) (job : Job) (a : Nat) (uri : Path) (s : Fleet)
    (ev : FleetEvent) : Prop :=
  ∃ e agent turn base_uri idx, ev = .Begins a e ∧ s.agents[a]? = some agent ∧
    agent.turns.head? = some turn ∧
    turn.spec.get_base_uri job.multi_endpoint_uris = .ok base_uri ∧
    turn.Puts (s.jobOf job a) (list s.objects) (coverage agent.cache turn) base_uri idx ∧
    turn.uri job base_uri idx = some uri

/-- The listings succeed, and so do all puts. -/
def FleetSucceeds (list : Objects → Path → List Path) (s : Fleet) : FleetEvent → Prop
  | .Begins _ e => e.stream = succeeds (list s.objects)
  | .Puts _ _ put _ => put = .Written
  | .Ends _ _ => True

/-- The agent has still to put an object at the address. -/
def Agent.Pending (agent : Agent) (uri : Path) : Prop :=
  ∃ u, agent.underway = some u ∧ ∃ task ∈ u.tasks, task.uri = uri

variable {r : Random} {job : Job} {list : Objects → Path → List Path} {s t : Fleet}
  {ev : FleetEvent} {es : List FleetEvent} {a b : Nat} {uri : Path} {agent agent' : Agent}

theorem putBy_snoc : PutBy a uri (es ++ [ev]) ↔ PutBy a uri es ∨ ev.PutsUri a uri := by
  unfold PutBy
  simp only [List.mem_append, List.mem_singleton, or_and_right, exists_or, exists_eq_left]

/-! ## One step -/

/-- What an agent knows of its puts. -/
structure Keeps (list : Objects → Path → List Path) (r : Random) (job : Job) (s₀ : Fleet)
    (es : List FleetEvent) (a : Nat) (agent : Agent) : Prop where
  written : ∀ u, agent.underway = some u → ∀ p ∈ u.puts, p.2 = .Written
  planned : agent.failed = none → ∀ uri,
    (fleetMachine r job).Sometime (PlansUri list job a uri) s₀ es ↔
      PutBy a uri es ∨ agent.Pending uri

theorem not_plansUri (h : ∀ e, ev ≠ .Begins a e) : ¬ PlansUri list job a uri s ev := by
  rintro ⟨e, _, _, _, _, hev, _⟩
  exact h e hev

theorem not_pending (h : agent.underway = none) : ¬ agent.Pending uri := by
  rintro ⟨u, hu, _⟩
  rw [h] at hu
  cases hu

theorem plansUri_iff {e : TurnEvent} {turn : Turn} (hagent : s.agents[a]? = some agent)
    (hturn : agent.turns.head? = some turn) {base_uri : Path}
    (hbase : turn.spec.get_base_uri (s.jobOf job a).multi_endpoint_uris = .ok base_uri) :
    PlansUri list job a uri s (.Begins a e) ↔ ∃ idx,
      turn.Puts (s.jobOf job a) (list s.objects) (coverage agent.cache turn) base_uri idx ∧
        turn.uri (s.jobOf job a) base_uri idx = some uri := by
  have hsame : (s.jobOf job a).multi_endpoint_uris = job.multi_endpoint_uris := rfl
  constructor
  · rintro ⟨_, agent', turn', base', idx, _, hagent', hturn', hbase', hputs, huri⟩
    rw [hagent] at hagent'
    cases hagent'
    rw [hturn] at hturn'
    cases hturn'
    rw [← hsame, hbase] at hbase'
    cases hbase'
    exact ⟨idx, hputs, huri⟩
  · rintro ⟨idx, hputs, huri⟩
    exact ⟨e, agent, turn, base_uri, idx, rfl, hagent, hturn, hbase, hputs, huri⟩

/-- The agent that moves still knows of its puts. -/
theorem Keeps.move {s₀ : Fleet} {objects : Objects} (hs : (fleetMachine r job).run s₀ es = some s)
    (ha : ev.agent_id = a) (hagent : s.agents[a]? = some agent) (hok : FleetSucceeds list s ev)
    (hmove : Fleet.Moves r job s ev agent agent' objects) (hk : Keeps list r job s₀ es a agent) :
    Keeps list r job s₀ (es ++ [ev]) a agent' := by
  cases hmove with
  | Fails hidle hturn hplan =>
    refine ⟨hk.written, fun hfailed => ?_⟩
    cases hfailed
  | @Exists c e _ turn objects hidle hturn hplan =>
    obtain rfl : c = a := ha
    refine ⟨hk.written, fun hfailed uri => ?_⟩
    obtain ⟨base_uri, _, hbase, _⟩ := Turn.plan_ok hplan
    rw [Machine.sometime_snoc hs, hk.planned hfailed uri, putBy_snoc,
      plansUri_iff hagent hturn hbase]
    have hnone : ¬ ∃ idx, turn.Puts (s.jobOf job c) (list s.objects) (coverage agent.cache turn)
        base_uri idx ∧ turn.uri (s.jobOf job c) base_uri idx = some uri := by
      rintro ⟨idx, hputs, _⟩
      exact exist_puts_nothing hplan hok hbase hputs
    simp only [hnone, or_false, FleetEvent.PutsUri]
    exact Iff.rfl
  | @Creates c e _ turn u hidle hturn hplan hnew =>
    obtain rfl : c = a := ha
    refine ⟨fun v hv => ?_, fun hfailed uri => ?_⟩
    · cases hv
      rw [hnew]
      simp
    · obtain ⟨base_uri, _, hbase, _⟩ := Turn.plan_ok hplan
      have htasks : (∃ task ∈ u.tasks, task.uri = uri) ↔ _ := create_puts hplan hok hbase
      rw [Machine.sometime_snoc hs, hk.planned hfailed uri, putBy_snoc,
        plansUri_iff hagent hturn hbase]
      have hold : ¬ agent.Pending uri := not_pending hidle
      simp only [hold, or_false, FleetEvent.PutsUri]
      refine or_congr_right (htasks.symm.trans ?_)
      constructor
      · exact fun h => ⟨u, rfl, h⟩
      · rintro ⟨v, hv, h⟩
        cases hv
        exact h
  | @Writes c task now _ u v cache hu htask htasks hputs =>
    obtain rfl : c = a := ha
    refine ⟨fun w hw => ?_, fun hfailed uri => ?_⟩
    · cases hw
      rw [hputs]
      intro p hp
      rcases List.mem_append.mp hp with hp | hp
      · exact hk.written u hu p hp
      · rw [List.mem_singleton.mp hp]
    · rw [Machine.sometime_snoc hs, hk.planned hfailed uri, putBy_snoc, or_assoc, or_assoc]
      refine or_congr_right ?_
      have hnone : ¬ PlansUri list job c uri s (.Puts c task .Written now) :=
        not_plansUri fun e he => by cases he
      simp only [hnone, or_false, FleetEvent.PutsUri, and_true, true_and]
      constructor
      · rintro ⟨u', hu', task', htask', huri⟩
        rw [hu] at hu'
        cases hu'
        by_cases hsame : task' = task
        · exact .inl (hsame ▸ huri)
        · refine .inr ⟨v, rfl, task', ?_, huri⟩
          rw [htasks]
          exact (List.mem_erase_of_ne hsame).mpr htask'
      · rintro (huri | ⟨w, hw, task', htask', huri⟩)
        · exact ⟨u, hu, task, htask, huri⟩
        · cases hw
          rw [htasks] at htask'
          exact ⟨u, hu, task', List.mem_of_mem_erase htask', huri⟩
  | FailsToWrite hu htask htasks hputs => cases hok
  | Aborts hu herror =>
    rw [(run_of_written (hk.written _ hu)).1] at herror
    cases herror
  | @Ends c _ u retries successes hu htasks hretry =>
    obtain rfl : c = a := ha
    refine ⟨fun v hv => ?_, fun hfailed uri => ?_⟩
    · cases hv
    have hfailures : (Execution.run Sequential.aborted 0
        { cache := none, objects := ∅ } u.puts).error_tracker.failed_objects = [] :=
      (run_of_written (hk.written u hu)).2
    rw [hfailures] at hretry
    have hretries := retry_nil_quiet hretry
    subst hretries
    have hnone : ¬ PlansUri list job c uri s (.Ends c []) := not_plansUri fun e he => by cases he
    have hold : ¬ agent.Pending uri := by
      rintro ⟨v, hv, task, htask, _⟩
      rw [hu] at hv
      cases hv
      rw [htasks] at htask
      cases htask
    have hnew : ¬ Agent.Pending { agent with turns := agent.turns.tail, underway := none } uri :=
      not_pending rfl
    rw [Machine.sometime_snoc hs, hk.planned hfailed uri, putBy_snoc]
    simp only [hnone, hold, hnew, or_false, FleetEvent.PutsUri,
      List.not_mem_nil, false_and, exists_false, and_false]

/-- An agent that does not move has planned and put nothing. -/
theorem Keeps.stay {s₀ : Fleet} (hs : (fleetMachine r job).run s₀ es = some s)
    (ha : ev.agent_id ≠ a) (hk : Keeps list r job s₀ es a agent) :
    Keeps list r job s₀ (es ++ [ev]) a agent := by
  refine ⟨hk.written, fun hfailed uri => ?_⟩
  have hplans : ¬ PlansUri list job a uri s ev := by
    refine not_plansUri fun e he => ?_
    rw [he] at ha
    exact ha rfl
  have hputs : ¬ ev.PutsUri a uri := by
    intro h
    cases ev with
    | Begins _ _ => exact h
    | Puts _ _ _ _ => exact ha h.1
    | Ends _ _ => exact ha h.1
  rw [Machine.sometime_snoc hs, hk.planned hfailed uri, putBy_snoc]
  simp only [hplans, hputs, or_false]

/-! ## Whole runs -/

/-- What the agents know of their puts, and who they are. -/
structure Tracks (list : Objects → Path → List Path) (r : Random) (job : Job) (s₀ : Fleet)
    (es : List FleetEvent) (s : Fleet) : Prop where
  num_agents : s.num_agents = s₀.num_agents
  keeps : ∀ a agent, s.agents[a]? = some agent → Keeps list r job s₀ es a agent
  present : ∀ a uri, PutBy a uri es → a < s₀.num_agents

theorem tracks_new {objects : Objects} {caches : List (Option MetadataCache)} :
    Tracks list r job (.new job objects caches) [] (.new job objects caches) := by
  refine ⟨rfl, fun a agent hagent => ?_, fun a uri ⟨ev, hev, _⟩ => by cases hev⟩
  obtain ⟨cache, _, rfl⟩ : ∃ cache ∈ caches, ({ turns := job.turns, cache := cache } : Agent) =
      agent := List.mem_map.mp (List.mem_of_getElem? hagent)
  refine ⟨fun u hu => ?_, fun _ uri => ?_⟩
  · cases hu
  · constructor
    · exact fun h => absurd h Machine.sometime_nil
    · rintro (⟨ev, hev, _⟩ | hpending)
      · cases hev
      · exact absurd hpending (not_pending rfl)

theorem tracks_step {s₀ : Fleet} (hs : (fleetMachine r job).run s₀ es = some s)
    (hI : Tracks list r job s₀ es s) (hok : FleetSucceeds list s ev)
    (hstep : s.step r job ev = some t) : Tracks list r job s₀ (es ++ [ev]) t := by
  obtain ⟨agent, agent', hagent, ht, hmove⟩ := Fleet.step_moves hstep
  refine ⟨(Fleet.num_agents_step hstep).trans hI.num_agents, fun b other hother => ?_,
    fun b uri hput => ?_⟩
  · rw [ht, Fleet.agent_set hagent] at hother
    by_cases hb : b = ev.agent_id
    · rw [if_pos hb] at hother
      cases hother
      subst hb
      exact (hI.keeps _ agent hagent).move hs rfl hagent hok hmove
    · rw [if_neg hb] at hother
      exact (hI.keeps b other hother).stay hs (Ne.symm hb)
  · rcases putBy_snoc.mp hput with hput | hput
    · exact hI.present b uri hput
    · obtain ⟨hlt, _⟩ := List.getElem?_eq_some_iff.mp hagent
      have hb : ev.agent_id = b := by
        cases ev with
        | Begins _ _ => cases hput
        | Puts _ _ _ _ => exact hput.1
        | Ends _ _ => exact hput.1
      rw [← hb, ← hI.num_agents]
      exact hlt

theorem run_tracks {s₀ : Fleet} (h : (fleetMachine r job).run s₀ es = some s)
    (h₀ : Tracks list r job s₀ [] s₀)
    (hok : (fleetMachine r job).Along (FleetSucceeds list) s₀ es) :
    Tracks list r job s₀ es s :=
  Machine.run_remembers (fun _ _ _ _ ht hI hsucc hstep => tracks_step ht hI hsucc hstep) h₀ hok h

/-- When all agents have returned, they have put what they planned to. -/
theorem Tracks.putBy_iff {s₀ : Fleet} (hI : Tracks list r job s₀ es s) (hend : s.Finished)
    (ha : a < s₀.num_agents) :
    PutBy a uri es ↔ (fleetMachine r job).Sometime (PlansUri list job a uri) s₀ es := by
  have hlt : a < s.num_agents := by
    rw [hI.num_agents]
    exact ha
  have hagent := List.getElem?_eq_getElem hlt
  obtain ⟨_, hidle, hfailed⟩ := hend _ (List.getElem_mem hlt)
  rw [(hI.keeps a _ hagent).planned hfailed uri]
  have hnone : ¬ (s.agents[a]).Pending uri := not_pending hidle
  simp only [hnone, or_false]

/-! ## The files of a tree -/

/-- A file of a tree has its number at all turns, under all bases. -/
theorem tree_uri_injective {m : TreeManifest} {turn turn' : Turn} {base_uri base_uri' : Path}
    {i j : Nat} (htree : job.tree_manifest = some m) (hi : turn.uri job base_uri i = some uri)
    (hj : turn'.uri job base_uri' j = some uri) : i = j := by
  unfold Turn.uri at hi hj
  simp only [htree] at hi hj
  obtain ⟨p, hp, rfl⟩ := Option.map_eq_some_iff.mp hi
  obtain ⟨q, hq, hpq⟩ := Option.map_eq_some_iff.mp hj
  have hname := congrArg (texts.lastPart '/') hpq
  rw [lastPart_file hp, lastPart_file hq] at hname
  exact (TreeManifest.get_file_name_injective hname).symm

theorem mine_mod {idx : Nat} (ha : a < s.num_agents) (h : Turn.mine (s.jobOf job a) idx = true) :
    idx % s.num_agents = a := by
  unfold Turn.mine at h
  rw [Bool.or_eq_true, decide_eq_true_eq, decide_eq_true_eq] at h
  rcases h with h | h
  · have hone : s.num_agents ≤ 1 := h
    have hzero : s.num_agents = 1 := by omega
    rw [hzero, Nat.mod_one]
    omega
  · exact h

theorem num_agents_run {s₀ : Fleet} (h : (fleetMachine r job).run s₀ es = some s) :
    s.num_agents = s₀.num_agents :=
  Machine.run_always (I := fun t => t.num_agents = s₀.num_agents)
    (fun _ _ _ hs hstep => (Fleet.num_agents_step hstep).trans hs) rfl h

/-- A file is put by the agent of its number. -/
theorem Tracks.put_by_own {s₀ : Fleet} {m : TreeManifest} {turn : Turn} {base_uri : Path} {idx : Nat}
    (hI : Tracks list r job s₀ es s) (hend : s.Finished) (htree : job.tree_manifest = some m)
    (huri : turn.uri job base_uri idx = some uri) (hput : PutBy a uri es) :
    a = idx % s₀.num_agents := by
  have ha := hI.present a uri hput
  obtain ⟨pre, ev, post, t, _, ht, e, agent, turn', base', i, _, _, _, _, hputs, huri'⟩ :=
    (hI.putBy_iff hend ha).mp hput
  have hidx := tree_uri_injective htree huri huri'
  subst hidx
  have hn := num_agents_run ht
  have hmod := mine_mod (hn ▸ ha) hputs.2.2.2
  rw [← hmod, hn]

/-- Each file of the tree that is missing at first is put by one agent, and no
other file is put by any. -/
def FillsGaps (job : Job) (objects : Objects) (es : List FleetEvent) : Prop :=
  ∀ turn ∈ job.turns, ∀ base_uri idx uri,
    turn.spec.get_base_uri job.multi_endpoint_uris = .ok base_uri →
      turn.uri job base_uri idx = some uri →
        (uri ∉ objects → ∃! a, PutBy a uri es) ∧ (uri ∈ objects → ∀ a, ¬ PutBy a uri es)

/-- The agents fill the gaps of a tree, if and only if the agent of each file
plans to put it when the file is missing at first, and never otherwise. -/
theorem the_agents_fill_the_gaps_iff {r : Random} {job : Job} {m : TreeManifest}
    {list : Objects → Path → List Path} {objects : Objects}
    {caches : List (Option MetadataCache)} {es : List FleetEvent} {s : Fleet}
    (htree : job.tree_manifest = some m) (hagents : caches ≠ [])
    (h : (fleetMachine r job).run (.new job objects caches) es = some s) (hend : s.Finished)
    (hok : (fleetMachine r job).Along (FleetSucceeds list) (.new job objects caches) es) :
    FillsGaps job objects es ↔
      ∀ turn ∈ job.turns, ∀ base_uri idx uri,
        turn.spec.get_base_uri job.multi_endpoint_uris = .ok base_uri →
          turn.uri job base_uri idx = some uri →
            (uri ∉ objects ↔ (fleetMachine r job).Sometime
              (PlansUri list job (idx % caches.length) uri) (.new job objects caches) es) := by
  have hI := run_tracks h tracks_new hok
  have hn : (Fleet.new job objects caches).num_agents = caches.length := List.length_map ..
  have hpos : 0 < caches.length := List.length_pos_iff.mpr hagents
  have hlt : ∀ idx, idx % caches.length < (Fleet.new job objects caches).num_agents := by
    intro idx
    rw [hn]
    exact Nat.mod_lt idx hpos
  unfold FillsGaps
  refine forall₂_congr fun turn _ => forall₃_congr fun base_uri idx uri => forall₂_congr
    fun _ huri => ?_
  have hown : ∀ a, PutBy a uri es → a = idx % caches.length := by
    intro a ha
    rw [← hn]
    exact hI.put_by_own hend htree huri ha
  rw [← hI.putBy_iff hend (hlt idx)]
  constructor
  · rintro ⟨hmissing, hthere⟩
    refine ⟨fun hnew => ?_, fun hput hold => hthere hold _ hput⟩
    obtain ⟨a, ha, _⟩ := hmissing hnew
    exact hown a ha ▸ ha
  · intro hiff
    refine ⟨fun hnew => ⟨_, hiff.mp hnew, hown⟩, fun hold a ha => ?_⟩
    exact hiff.mpr (hown a ha ▸ ha) hold

/-! ## Two agents -/

/-- The manifest of two agents. -/
def manifestOf (width files_per_dir : Nat) : TreeManifest :=
  match create_tree_manifest_only { width := width, depth := 1, files_per_dir := files_per_dir } 2 with
  | .ok m => m
  | .error _ => { all_directories := [] }

def treeJob (width files_per_dir : Nat) : Job :=
  let spec : EnsureSpec :=
    { base_uri := some "s3://bucket/".toList, count := width * files_per_dir,
      size_spec := some (.Fixed 4096) }
  { config := { ensure_objects := [spec] }, tree_manifest := some (manifestOf width files_per_dir) }

def fileTask (dir : String) (idx : Nat) : PrepareTask :=
  ⟨"s3://bucket/".toList ++ dir.toList ++ '/' :: TreeManifest.get_file_name idx, 4096, idx⟩

def lists (objects : Objects) : TurnEvent := { stream := succeeds (listPrefixed objects) }

def fillEmpty : List FleetEvent :=
  [.Begins 0 (lists ∅)] ++ ([.Begins 1 (lists ∅)] ++
    [.Puts 0 (fileTask "sai3bench.d1_w1.dir" 0) .Written 0,
      .Puts 1 (fileTask "sai3bench.d1_w1.dir" 1) .Written 0, .Ends 0 [], .Ends 1 []])

theorem two_agents_fill_an_empty_directory :
    ∃ s, (fleetMachine noRandom (treeJob 1 2)).run (.new (treeJob 1 2) ∅ [none, none])
      fillEmpty = some s ∧ s.Finished ∧ FillsGaps (treeJob 1 2) ∅ fillEmpty := by
  obtain ⟨s, hs, hagents⟩ : ∃ s, (fleetMachine noRandom (treeJob 1 2)).run
      (.new (treeJob 1 2) ∅ [none, none]) fillEmpty = some s ∧
      s.agents = [{ turns := [], cache := none }, { turns := [], cache := none }] :=
    ⟨_, rfl, rfl⟩
  have hend : s.Finished := by
    unfold Fleet.Finished
    rw [hagents]
    simp
  obtain ⟨t, ht, hobjects, hagent⟩ : ∃ t, (fleetMachine noRandom (treeJob 1 2)).run
      (.new (treeJob 1 2) ∅ [none, none]) [.Begins 0 (lists ∅)] = some t ∧ t.objects = ∅ ∧
      t.agents[1]? = some { turns := (treeJob 1 2).turns, cache := none } := ⟨_, rfl, rfl, rfl⟩
  obtain ⟨u, hu⟩ : ∃ u, (fleetMachine noRandom (treeJob 1 2)).run t [.Begins 1 (lists ∅)] =
      some u := by
    obtain ⟨v, hv, hrest⟩ := Machine.run_append_iff.mp hs
    rw [ht] at hv
    cases hv
    obtain ⟨u, hu, _⟩ := Machine.run_append_iff.mp hrest
    exact ⟨u, hu⟩
  have hok : (fleetMachine noRandom (treeJob 1 2)).Along (FleetSucceeds listPrefixed)
      (.new (treeJob 1 2) ∅ [none, none]) fillEmpty := by
    refine (Machine.along_append ht).mpr ⟨⟨rfl, fun _ _ => trivial⟩,
      (Machine.along_append hu).mpr ⟨⟨?_, fun _ _ => trivial⟩, Machine.along_of_mem ?_⟩⟩
    · show (lists ∅).stream = succeeds (listPrefixed t.objects)
      rw [hobjects]
      rfl
    · intro ev hev v
      simp only [List.mem_cons, List.not_mem_nil, or_false] at hev
      rcases hev with rfl | rfl | rfl | rfl <;> trivial
  refine ⟨s, hs, hend, (the_agents_fill_the_gaps_iff rfl (by simp) hs hend hok).mpr ?_⟩
  intro turn hturn base_uri idx uri hbase huri
  obtain rfl : turn = ⟨_, "prepared".toList⟩ := by simpa [Job.turns, Job.pools, treeJob] using hturn
  cases hbase
  have hidx : idx < 2 := by
    by_contra hmany
    have hnone : (manifestOf 1 2).get_file_path idx = none := by
      have htotal : (manifestOf 1 2).total_files = 2 := by decide +kernel
      exact if_pos (.inr (by omega))
    have huri' : ((manifestOf 1 2).get_file_path idx).map (joinUri "s3://bucket/".toList) =
      some uri := huri
    rw [hnone] at huri'
    cases huri'
  refine ⟨fun _ => ?_, fun _ h => by cases h⟩
  obtain rfl | rfl : idx = 0 ∨ idx = 1 := by omega
  · refine ⟨[], _, _, _, rfl, rfl, _, _, _, _, 0, rfl, rfl, rfl, rfl, ?_, huri⟩
    exact ⟨by decide, by decide +kernel, by decide +kernel, rfl⟩
  · refine ⟨_, _, _, t, rfl, ht, _, _, _, _, 1, rfl, hagent, rfl, rfl, ?_, huri⟩
    have hjob : t.jobOf (treeJob 1 2) (1 % ([none, none] : List (Option MetadataCache)).length) =
        parallel.agentOf (treeJob 1 2) 2 1 := by
      have hn := num_agents_run ht
      unfold Fleet.jobOf
      rw [hn]
      rfl
    rw [hobjects, hjob]
    exact ⟨by decide, by decide +kernel, by decide +kernel, by decide⟩

/-- All files of two directories. -/
def fourFiles : Objects :=
  [fileTask "sai3bench.d1_w1.dir" 0, fileTask "sai3bench.d1_w1.dir" 1,
    fileTask "sai3bench.d1_w2.dir" 2, fileTask "sai3bench.d1_w2.dir" 3].foldl
      (fun objects task => objects.insert task.uri task.size) ∅

def fillFull : List FleetEvent :=
  [.Begins 0 (lists fourFiles), .Begins 1 (lists fourFiles),
    .Puts 0 (fileTask "sai3bench.d1_w2.dir" 2) .Written 0,
    .Puts 1 (fileTask "sai3bench.d1_w1.dir" 1) .Written 0, .Ends 0 [], .Ends 1 []]

/-- Each agent lists one of the directories, and puts its file of the other again. -/
theorem two_agents_put_files_that_exist :
    ∃ s, (fleetMachine noRandom (treeJob 2 2)).run (.new (treeJob 2 2) fourFiles [none, none])
      fillFull = some s ∧ s.Finished ∧ ¬ FillsGaps (treeJob 2 2) fourFiles fillFull := by
  obtain ⟨s, hs, hagents⟩ : ∃ s, (fleetMachine noRandom (treeJob 2 2)).run
      (.new (treeJob 2 2) fourFiles [none, none]) fillFull = some s ∧
      s.agents = [{ turns := [], cache := none }, { turns := [], cache := none }] :=
    ⟨_, rfl, rfl⟩
  have hend : s.Finished := by
    unfold Fleet.Finished
    rw [hagents]
    simp
  refine ⟨s, hs, hend, fun hfills => ?_⟩
  have hthere : (fileTask "sai3bench.d1_w2.dir" 2).uri ∈ fourFiles := by decide +kernel
  refine (hfills _ List.mem_cons_self _ 2 _ rfl ?_).2 hthere 0 ?_
  · rfl
  · exact ⟨_, List.mem_cons_of_mem _ (List.mem_cons_of_mem _ List.mem_cons_self), rfl, rfl, rfl⟩

end sai3_bench.prepare
