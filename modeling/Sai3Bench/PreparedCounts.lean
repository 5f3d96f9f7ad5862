-- The objects that prepare returns (prepare/mod.rs), against those that it was asked for:
-- existing objects are in the list only where nothing is made.
import Mathlib.Data.List.Perm.Subperm
import Sai3Bench.CompletePrepares
import Sai3Bench.ParallelPrepares

namespace sai3_bench.prepare

open directory_tree size_generator metadata_cache machines

/-! ## The counters -/

def objects_created (all_prepared : List PreparedObject) : Nat :=
  (all_prepared.filter fun obj => obj.created).length

def objects_existed (all_prepared : List PreparedObject) : Nat :=
  (all_prepared.filter fun obj => !obj.created).length

/-- How many objects are asked for, over all specs and pools. -/
def asked (turns : List Turn) : Nat := (turns.map fun turn => turn.spec.count).sum

/-- The objects that are marked as created, and those that were written. -/
def marked (prepared : List PreparedObject) : List (Path × Nat) :=
  (prepared.filter fun obj => obj.created).map fun obj => (obj.uri, obj.size)

def put_objects (written : List PrepareTask) : List (Path × Nat) :=
  written.map fun task => (task.uri, task.size)

/-- The list has the addresses that are expected, each once, it marks what was written, and
the counters add up. -/
structure Accounts (expected : List (Option Path)) (written : List PrepareTask) (count : Nat)
    (prepared : List PreparedObject) : Prop where
  indices : ((prepared.map (·.uri)).map some).Perm expected
  created : (marked prepared).Perm (put_objects written)
  counted : objects_created prepared + objects_existed prepared = count

theorem objects_total (prepared : List PreparedObject) :
    objects_created prepared + objects_existed prepared = prepared.length :=
  (List.length_eq_length_filter_add _).symm

/-- The addresses are among those expected, and all of them just where `Full` holds. -/
structure Part (expected : List (Option Path)) (count : Nat) (uris : List Path) (Full : Prop) :
    Prop where
  length : expected.length = count
  part : (uris.map some).Subperm expected
  full : uris.length = count ↔ Full

section

variable {expected expected' : List (Option Path)} {written : List PrepareTask}
  {count count' : Nat} {uris uris' : List Path} {Full Full' : Prop}
  {prepared : List PreparedObject}

theorem Part.nil : Part [] 0 [] True := ⟨rfl, .refl _, iff_of_true rfl trivial⟩

/-- Parts are put together, and are full where both are. -/
theorem Part.append (h : Part expected count uris Full) (h' : Part expected' count' uris' Full') :
    Part (expected ++ expected') (count + count') (uris ++ uris') (Full ∧ Full') := by
  refine ⟨?_, ?_, ?_⟩
  · rw [List.length_append, h.length, h'.length]
  · rw [List.map_append]
    exact h.part.append h'.part
  · have hle := h.part.length_le
    have hle' := h'.part.length_le
    rw [List.length_map, h.length] at hle
    rw [List.length_map, h'.length] at hle'
    rw [← h.full, ← h'.full, List.length_append]
    omega

theorem Part.congr (h : Part expected count uris Full) (hiff : Full ↔ Full') :
    Part expected count uris Full' := ⟨h.length, h.part, h.full.trans hiff⟩

theorem Part.accounts_iff (h : Part expected count (prepared.map (·.uri)) Full)
    (hcreated : (marked prepared).Perm (put_objects written)) :
    Accounts expected written count prepared ↔ Full := by
  rw [← h.full, List.length_map]
  constructor
  · rintro ⟨-, -, hcounted⟩
    rwa [objects_total] at hcounted
  · intro hlength
    refine ⟨h.part.perm_of_length_le ?_, hcreated, by rwa [objects_total]⟩
    rw [h.length, List.length_map, List.length_map]
    exact hlength.ge

end

/-! ## The objects of a turn -/

section

variable {r : Random} {select : Nat → Bool} {uri : Nat → Option Path}

theorem createTasks_uris (g : SizeGenerator r) (idxs : List Nat) :
    (createTasks select uri g idxs).map (·.uri) = (idxs.filter select).filterMap uri := by
  induction idxs generalizing g with
  | nil => rfl
  | cons idx idxs ih =>
    unfold createTasks
    dsimp only
    cases hselect : select idx with
    | false =>
      rw [List.filter_cons_of_neg (by rw [hselect]; exact Bool.false_ne_true)]
      exact ih _
    | true =>
      rw [List.filter_cons_of_pos hselect]
      cases huri : uri idx with
      | none =>
        rw [List.filterMap_cons_none huri]
        exact ih _
      | some uri₀ =>
        rw [List.filterMap_cons_some huri, List.map_cons, ih]

theorem reconstruct_uris (g : SizeGenerator r) (idxs : List Nat) :
    (reconstruct uri g idxs).map (·.uri) = idxs.filterMap uri := by
  induction idxs generalizing g with
  | nil => rfl
  | cons idx idxs ih =>
    unfold reconstruct
    cases huri : uri idx with
    | none =>
      rw [List.filterMap_cons_none huri]
      exact ih _
    | some uri₀ =>
      rw [List.filterMap_cons_some huri, ← ih]
      rfl

/-- What exists is not marked. -/
theorem marked_reconstruct (g : SizeGenerator r) (idxs : List Nat) :
    marked (reconstruct uri g idxs) = [] := by
  induction idxs generalizing g with
  | nil => rfl
  | cons idx idxs ih =>
    unfold reconstruct
    cases uri idx with
    | none => exact ih _
    | some uri₀ => exact ih _

theorem marked_written (written : List PrepareTask) :
    marked (written.map fun task => ⟨task.uri, task.size, true⟩) = put_objects written := by
  unfold marked put_objects
  rw [List.filter_eq_self.mpr, List.map_map]
  · rfl
  · intro obj hobj
    obtain ⟨task, -, rfl⟩ := List.mem_map.mp hobj
    rfl

theorem marked_append (prepared added : List PreparedObject) :
    marked (prepared ++ added) = marked prepared ++ marked added := by
  unfold marked
  rw [List.filter_append, List.map_append]

theorem filterMap_sublist_map {α β : Type*} {f : α → Option β} {g : α → β}
    (h : ∀ a b, f a = some b → g a = b) (l : List α) : (l.filterMap f).Sublist (l.map g) := by
  induction l with
  | nil => exact .slnil
  | cons a l ih =>
    cases ha : f a with
    | none =>
      rw [List.filterMap_cons_none ha, List.map_cons]
      exact ih.cons _
    | some b =>
      rw [List.filterMap_cons_some ha, List.map_cons, h a b ha]
      exact ih.cons_cons _

/-- The values that there are, among all. -/
theorem filterMap_sublist {α β : Type*} (f : α → Option β) (l : List α) :
    ((l.filterMap f).map some).Sublist (l.map f) := by
  rw [List.map_filterMap]
  refine filterMap_sublist_map (fun a b hab => ?_) l
  obtain ⟨c, hc, rfl⟩ := Option.map_eq_some_iff.mp hab
  exact hc

theorem length_filterMap_range {n : Nat} {f : Nat → Option Path} :
    ((List.range n).filterMap f).length = n ↔ ∀ i < n, (f i).isSome = true := by
  have hcount := List.countP_eq_length (l := List.range n) (p := fun i => (f i).isSome)
  rw [List.length_range] at hcount
  rw [List.length_filterMap_eq_countP, hcount]
  simp only [List.mem_range]

theorem length_filter_range {n : Nat} {p : Nat → Bool} :
    ((List.range n).filter p).length = n ↔ ∀ i < n, p i = true := by
  have hcount := List.countP_eq_length (l := List.range n) (p := p)
  rw [List.length_range] at hcount
  rw [← List.countP_eq_length_filter, hcount]
  simp only [List.mem_range]

end

/-! ## The sequential strategy -/

/-- The addresses of all objects of a turn. -/
def Turn.addresses (turn : Turn) (job : Job) : List (Option Path) :=
  match turn.spec.get_base_uri job.multi_endpoint_uris with
  | .ok base_uri => (List.range turn.spec.count).map (turn.uri job base_uri)
  | .error _ => []

/-- Enough is taken to exist, and each number has an address; or less is taken to exist, and
none of the numbers. -/
def Turn.AllOrNone (turn : Turn) (job : Job) (base_uri : Path) (existing : Existing) : Prop :=
  turn.spec.count ≤ existing.count ∧
      (∀ i < turn.spec.count, (turn.uri job base_uri i).isSome = true) ∨
    existing.count < turn.spec.count ∧ ∀ i < turn.spec.count, i ∉ existing.indices

/-- The next turn finds all or none. -/
def FindsAllOrNone (job : Job) (s : Sequential) (e : TurnEvent) : Prop :=
  ∃ turn base_uri existing, s.turns.head? = some turn ∧
    turn.spec.get_base_uri job.multi_endpoint_uris = .ok base_uri ∧
    turn.existing job e.stream (coverage s.cache turn) base_uri = .ok existing ∧
    turn.AllOrNone job base_uri existing

/-- No put fails. -/
def AllWritten (e : TurnEvent) : Prop := ∀ p ∈ e.puts, p.2 = .Written

section

variable {r : Random} {job : Job} {s t : Sequential} {e : TurnEvent} {es : List TurnEvent}
  {turn : Turn} {base_uri : Path} {existing : Existing} {objects : Objects}
  {cache : Option MetadataCache}

theorem Turn.addresses_eq (hbase : turn.spec.get_base_uri job.multi_endpoint_uris = .ok base_uri) :
    turn.addresses job = (List.range turn.spec.count).map (turn.uri job base_uri) := by
  unfold Turn.addresses
  rw [hbase]

theorem finds_iff (hturn : s.turns.head? = some turn)
    (hbase : turn.spec.get_base_uri job.multi_endpoint_uris = .ok base_uri)
    (hexisting : turn.existing job e.stream (coverage s.cache turn) base_uri = .ok existing) :
    FindsAllOrNone job s e ↔ turn.AllOrNone job base_uri existing := by
  constructor
  · rintro ⟨turn', base_uri', existing', hturn', hbase', hexisting', h⟩
    cases hturn.symm.trans hturn'
    cases hbase.symm.trans hbase'
    cases hexisting.symm.trans hexisting'
    exact h
  · intro h
    exact ⟨turn, base_uri, existing, hturn, hbase, hexisting, h⟩

theorem selects_iff (hone : job.num_agents ≤ 1) {i : Nat} :
    Turn.selects job existing i = true ↔ i ∉ existing.indices := by
  unfold Turn.selects Turn.mine
  rw [decide_eq_true hone, Bool.true_or, Bool.and_true, decide_eq_true_eq]

/-- A turn adds all its objects where it finds all or none. -/
theorem step_adds (hone : job.num_agents ≤ 1) (h : s.step r job e = some t)
    (hrun : t.phase = .Running) (hwritten : AllWritten e) :
    ∃ turn added, s.turns = turn :: t.turns ∧ t.prepared = s.prepared ++ added ∧
      (marked added).Perm (put_objects (writtenTasks e.puts)) ∧
      Part (turn.addresses job) turn.spec.count (added.map (·.uri)) (FindsAllOrNone job s e) := by
  obtain ⟨-, turn, hturns, hcases⟩ := Sequential.step_cases h hrun
  have hhead : s.turns.head? = some turn := by
    rw [hturns]
    rfl
  rcases hcases with ⟨found, hplan, hquiet, -, -, hprepared⟩ |
    ⟨tasks, n, x, successes, hplan, -, hperm, hmany, rfl, -, hretry, -, -, hprepared⟩
  · obtain ⟨base_uri, existing, hbase, hexisting, ⟨hzero, g, -, hp⟩ | ⟨-, g, -, hp⟩⟩ :=
      Turn.plan_ok hplan
    · cases hp
      have hputs : e.puts = [] := (Sequential.quiet_iff.mp hquiet).1
      refine ⟨turn, _, hturns, hprepared, ?_, ?_, ?_, ?_⟩
      · rw [hputs, marked_reconstruct]
        exact .refl _
      · rw [Turn.addresses_eq hbase, List.length_map, List.length_range]
      · rw [Turn.addresses_eq hbase, reconstruct_uris]
        exact (filterMap_sublist _ _).subperm
      · rw [reconstruct_uris, length_filterMap_range, finds_iff hhead hbase hexisting]
        unfold Turn.AllOrNone
        have hless := Turn.to_create_eq_zero.mp hzero
        constructor
        · exact fun haddresses => .inl ⟨hless, haddresses⟩
        · rintro (⟨-, haddresses⟩ | ⟨hmore, -⟩)
          · exact haddresses
          · omega
    · cases hp
  · obtain ⟨base_uri, existing, hbase, hexisting, ⟨-, g, -, hp⟩ | ⟨hmore, g, -, hp⟩⟩ :=
      Turn.plan_ok hplan
    · cases hp
    · cases hp
      have hless := Turn.to_create_eq_zero.not.mp hmore
      rw [(run_of_written hwritten).2] at hretry
      have hsuccesses := retry_nil hretry
      rw [hsuccesses, created_run, List.map_nil, List.append_nil, List.nil_append] at hprepared
      have huris := @createTasks_uris r (Turn.selects job existing) (turn.uri job base_uri)
        (if e.info_enabled then g.description else g)
        (List.range turn.spec.count)
      refine ⟨turn, _, hturns, hprepared, ?_, ?_, ?_, ?_⟩
      · rw [marked_written]
      · rw [Turn.addresses_eq hbase, List.length_map, List.length_range]
      · rw [Turn.addresses_eq hbase, writtenTasks_of_written hwritten, List.map_map,
          List.map_map, List.map_map]
        have hput := (hperm.map fun task => task.uri).map some
        rw [huris, List.map_map, List.map_map] at hput
        have hsub := (filterMap_sublist (turn.uri job base_uri)
          ((List.range turn.spec.count).filter (Turn.selects job existing))).trans
            (List.filter_sublist.map _)
        exact hput.subperm.trans hsub.subperm
      · have hlength := hperm.length_eq
        rw [List.length_map] at hlength
        have htasks := congrArg List.length huris
        rw [List.length_map] at htasks
        have hfound := List.length_filterMap_le (turn.uri job base_uri)
          ((List.range turn.spec.count).filter (Turn.selects job existing))
        rw [List.countP_eq_length_filter] at hmany
        have hselected : ((List.range turn.spec.count).filter (Turn.selects job existing)).length =
            e.puts.length := by omega
        rw [List.length_map, List.length_map, writtenTasks_of_written hwritten, List.length_map,
          ← hselected,
          length_filter_range, finds_iff hhead hbase hexisting]
        unfold Turn.AllOrNone
        simp only [selects_iff hone]
        constructor
        · exact fun hnone => .inr ⟨by omega, hnone⟩
        · rintro (⟨hall, -⟩ | ⟨-, hnone⟩)
          · exact absurd hall hless
          · exact hnone

/-- What the turns so far have put on the list. -/
structure Listed (r : Random) (job : Job) (s₀ : Sequential) (es : List TurnEvent)
    (s : Sequential) (past : List Turn) : Prop where
  turns : job.turns = past ++ s.turns
  created : (marked s.prepared).Perm (put_objects (es.flatMap fun e => writtenTasks e.puts))
  part : Part (past.flatMap fun turn => turn.addresses job) (asked past)
    (s.prepared.map (·.uri)) ((sequentialMachine r job).Along (FindsAllOrNone job) s₀ es)

theorem asked_append (past : List Turn) (turn : Turn) :
    asked (past ++ [turn]) = asked past + turn.spec.count := by
  unfold asked
  rw [List.map_append, List.sum_append]
  rfl

theorem Listed.step {s₀ : Sequential} {past : List Turn} (hone : job.num_agents ≤ 1)
    (hs : (sequentialMachine r job).run s₀ es = some s) (hlisted : Listed r job s₀ es s past)
    (h : s.step r job e = some t) (hrun : t.phase = .Running) (hwritten : AllWritten e) :
    ∃ past', Listed r job s₀ (es ++ [e]) t past' := by
  obtain ⟨turn, added, hturns, hprepared, hcreated, hpart⟩ := step_adds hone h hrun hwritten
  refine ⟨past ++ [turn], ?_, ?_, ?_⟩
  · rw [hlisted.turns, hturns, List.append_assoc]
    rfl
  · rw [hprepared, marked_append, List.flatMap_append, List.flatMap_singleton]
    unfold put_objects
    rw [List.map_append]
    exact hlisted.created.append hcreated
  · rw [hprepared, List.map_append, List.flatMap_append, List.flatMap_singleton, asked_append]
    exact (hlisted.part.append hpart).congr (Machine.along_snoc hs).symm

theorem run_listed (hone : job.num_agents ≤ 1)
    (h : (sequentialMachine r job).run (.new job objects cache) es = some s)
    (hrun : s.phase = .Running) (hwritten : ∀ e ∈ es, AllWritten e) :
    ∃ past, Listed r job (.new job objects cache) es s past := by
  have halong : (sequentialMachine r job).Along (fun _ e => AllWritten e)
      (.new job objects cache) es := Machine.along_of_mem fun e he _ => hwritten e he
  refine Machine.run_remembers (I := fun es s => s.phase = .Running →
    ∃ past, Listed r job (.new job objects cache) es s past) ?_ ?_ halong h hrun
  · intro es t e u ht hI hput hstep hrunning
    obtain ⟨past, hlisted⟩ := hI (Sequential.step_cases hstep hrunning).1
    exact hlisted.step hone ht hstep hrunning hput
  · intro _
    exact ⟨[], rfl, .refl _, .nil⟩

end

/-! ## The parallel strategy -/

namespace parallel

/-- The addresses of all objects of a turn, over its endpoints. -/
def addresses (job : Job) (turn : Turn) : List (Option Path) :=
  match endpointsOf job turn.spec with
  | .ok endpoints =>
    (List.range turn.spec.count).map fun i => some ((planOf job turn endpoints ∅).uri job i)
  | .error _ => []

/-- Nothing of a turn is to be made, and each number has an address. -/
def NothingMissing (job : Job) (cache : Option MetadataCache)
    (e : ParallelEvent) (turn : Turn) : Prop :=
  ∃ endpoints existing, endpointsOf job turn.spec = .ok endpoints ∧
    turn.existing job e.stream (coverage cache turn) (endpoints.headD []) = .ok existing ∧
    actual_to_create job turn existing.indices = 0 ∧
    ∀ i < turn.spec.count, (existing_uri job turn endpoints i).isSome = true

/-- Each number of a turn is to be made. -/
def AllMissing (job : Job) (cache : Option MetadataCache) (e : ParallelEvent) (turn : Turn) :
    Prop :=
  ∃ endpoints existing, endpointsOf job turn.spec = .ok endpoints ∧
    turn.existing job e.stream (coverage cache turn) (endpoints.headD []) = .ok existing ∧
    ∀ i < turn.spec.count, (planOf job turn endpoints existing.indices).should_create i = true

variable {r : Random} {job : Job} {turn : Turn} {turns : List Turn} {e : ParallelEvent}
  {cache : Option MetadataCache} {objects : Objects} {endpoints : List Path}
  {existing : Existing} {prepared : List PreparedObject}

theorem addresses_eq (hendpoints : endpointsOf job turn.spec = .ok endpoints)
    (existing_indices : Finset Nat) :
    addresses job turn = (List.range turn.spec.count).map fun i =>
      some ((planOf job turn endpoints existing_indices).uri job i) := by
  unfold addresses
  rw [hendpoints]
  rfl

theorem mine_of_one (hone : job.num_agents ≤ 1) (i : Nat) : mine job i = true := by
  unfold mine
  rw [decide_eq_false (by omega), Bool.and_false]
  rfl

theorem selects_eq (hone : job.num_agents ≤ 1) (plan : PreparePlan) :
    plan.selects job = plan.should_create := by
  funext i
  unfold PreparePlan.selects
  rw [mine_of_one hone, Bool.and_true]

/-- What one agent makes of a turn is what it selects. -/
theorem actual_to_create_eq (hone : job.num_agents ≤ 1) (endpoints : List Path)
    (existing_indices : Finset Nat) :
    actual_to_create job turn existing_indices = ((List.range turn.spec.count).filter
      ((planOf job turn endpoints existing_indices).selects job)).length := by
  rw [selects_eq hone]
  unfold actual_to_create
  split
  · next hskip =>
    have hnone : (planOf job turn endpoints existing_indices).should_create = fun _ => false := by
      funext i
      exact if_pos hskip
    rw [hnone, List.filter_false]
    rfl
  · next hskip =>
    split
    · next hforce =>
      have hall : (planOf job turn endpoints existing_indices).should_create = fun _ => true := by
        funext i
        exact (if_neg hskip).trans (if_pos hforce)
      have hshared : (job.shared_storage && decide (1 < job.num_agents)) = false := by
        rw [decide_eq_false (by omega), Bool.and_false]
      rw [hall, List.filter_true, List.length_range, hshared]
      rfl
    · next hforce =>
      have hmissing : (planOf job turn endpoints existing_indices).should_create =
          fun i => decide (i ∉ existing_indices) := by
        funext i
        exact (if_neg hskip).trans (if_neg hforce)
      simp only [mine_of_one hone, Bool.and_true]
      rw [hmissing, List.countP_eq_length_filter]

/-- What a plan makes, in its order. -/
def made (job : Job) (plan : PreparePlan) : List Path :=
  ((List.range plan.count).filter (plan.selects job)).map (plan.uri job)

theorem allMissing_iff (hendpoints : endpointsOf job turn.spec = .ok endpoints)
    (hexisting : turn.existing job e.stream (coverage cache turn) (endpoints.headD []) =
      .ok existing) : AllMissing job cache e turn ↔ ∀ i < turn.spec.count,
        (planOf job turn endpoints existing.indices).should_create i = true := by
  constructor
  · rintro ⟨endpoints', existing', hendpoints', hexisting', h⟩
    cases hendpoints.symm.trans hendpoints'
    cases hexisting.symm.trans hexisting'
    exact h
  · intro h
    exact ⟨endpoints, existing, hendpoints, hexisting, h⟩

/-- The plan of a turn. -/
theorem planTurn_makes (hone : job.num_agents ≤ 1) {plan : Option (PreparePlan × Nat)}
    (h : planTurn job e.stream (coverage cache turn) turn = .ok plan) :
    Part (addresses job turn) turn.spec.count (plan.toList.flatMap fun p => made job p.1)
      (AllMissing job cache e turn) := by
  obtain ⟨endpoints, existing, hendpoints, hexisting, hcases⟩ := planTurn_ok h
  have hactual := @actual_to_create_eq job turn hone endpoints existing.indices
  have hmade : plan.toList.flatMap (fun p => made job p.1) =
      made job (planOf job turn endpoints existing.indices) := by
    rcases hcases with ⟨hzero, rfl⟩ | ⟨-, rfl⟩
    · rw [hzero] at hactual
      have hnone := List.length_eq_zero_iff.mp hactual.symm
      unfold made
      rw [show (planOf job turn endpoints existing.indices).count = turn.spec.count from rfl, hnone]
      rfl
    · exact List.append_nil _
  rw [hmade, addresses_eq hendpoints existing.indices, made]
  refine ⟨?_, ?_, ?_⟩
  · rw [List.length_map, List.length_range]
  · rw [List.map_map]
    exact (List.filter_sublist.map _).subperm
  · rw [allMissing_iff hendpoints hexisting, List.length_map, selects_eq hone]
    exact length_filter_range

theorem plansOf_make (hone : job.num_agents ≤ 1) {plans : List (PreparePlan × Nat)}
    (h : plansOf job e cache turns = .ok plans) :
    Part (turns.flatMap (addresses job)) (asked turns) (plans.flatMap fun p => made job p.1)
      (∀ turn ∈ turns, AllMissing job cache e turn) := by
  induction turns generalizing plans with
  | nil =>
    cases h
    exact Part.nil.congr (iff_of_true trivial nofun)
  | cons turn turns ih =>
    obtain ⟨plan, rest, hplan, hrest, rfl⟩ := plansOf_cons h
    rw [List.flatMap_append]
    exact ((planTurn_makes hone hplan).append (ih hrest)).congr List.forall_mem_cons.symm

/-- Each number of a turn has an address. -/
def Addressed (job : Job) (turn : Turn) : Prop :=
  ∃ endpoints, endpointsOf job turn.spec = .ok endpoints ∧
    ∀ i < turn.spec.count, (existing_uri job turn endpoints i).isSome = true

theorem existing_uri_plan {i : Nat} {uri : Path}
    (h : existing_uri job turn endpoints i = some uri) :
    (planOf job turn endpoints ∅).uri job i = uri := by
  unfold existing_uri Turn.uri at h
  unfold PreparePlan.uri planOf
  dsimp only
  cases htree : job.tree_manifest with
  | none =>
    rw [htree] at h
    exact Option.some.inj h
  | some manifest =>
    rw [htree] at h
    obtain ⟨rel_path, hpath, rfl⟩ := Option.map_eq_some_iff.mp h
    dsimp only
    rw [hpath]

/-- The objects of a turn that exist. -/
theorem existingObjects_part (h : existingObjects r job turn = .ok prepared) :
    marked prepared = [] ∧ Part (addresses job turn) turn.spec.count (prepared.map (·.uri))
      (Addressed job turn) := by
  unfold existingObjects at h
  split at h
  · cases h
  · next endpoints hendpoints =>
    split at h
    · cases h
    · next g hg =>
      cases h
      refine ⟨marked_reconstruct g _, ?_⟩
      rw [addresses_eq hendpoints ∅, reconstruct_uris]
      refine ⟨?_, ?_, ?_⟩
      · rw [List.length_map, List.length_range]
      · have hsub : ((List.range turn.spec.count).filterMap
            (existing_uri job turn endpoints)).Sublist
            ((List.range turn.spec.count).map ((planOf job turn endpoints ∅).uri job)) :=
          filterMap_sublist_map (fun i uri hi => existing_uri_plan hi) _
        have hsome := hsub.map (some : Path → Option Path)
        rw [List.map_map] at hsome
        exact hsome.subperm
      · rw [length_filterMap_range]
        constructor
        · exact fun haddresses => ⟨endpoints, hendpoints, haddresses⟩
        · rintro ⟨endpoints', hendpoints', haddresses⟩
          cases hendpoints.symm.trans hendpoints'
          exact haddresses

theorem existingOf_part (h : existingOf r job turns = .ok prepared) :
    marked prepared = [] ∧ Part (turns.flatMap (addresses job)) (asked turns)
      (prepared.map (·.uri)) (∀ turn ∈ turns, Addressed job turn) := by
  induction turns generalizing prepared with
  | nil =>
    cases h
    exact ⟨rfl, Part.nil.congr (iff_of_true trivial nofun)⟩
  | cons turn turns ih =>
    unfold existingOf at h
    split at h
    · cases h
    · next objects hobjects =>
      cases hrest : existingOf r job turns with
      | error msg =>
        rw [hrest] at h
        cases h
      | ok rest =>
        rw [hrest] at h
        cases h
        obtain ⟨hmarked, hpart⟩ := existingObjects_part hobjects
        obtain ⟨hmarked', hpart'⟩ := ih hrest
        refine ⟨?_, ?_⟩
        · rw [marked_append, hmarked, hmarked']
          rfl
        · rw [List.map_append]
          exact (hpart.append hpart').congr List.forall_mem_cons.symm

/-- The addresses of the tasks are those that the plans make. -/
theorem states_made {plans : List PreparePlan} {states : List (PlanState r)}
    (h : plans.mapM (PlanState.of r) = .ok states) :
    (states.flatMap (PlanState.tasks job)).map (·.uri) = plans.flatMap (made job) := by
  induction plans generalizing states with
  | nil =>
    cases h
    rfl
  | cons plan plans ih =>
    obtain ⟨first, rest, hfirst, hrest, rfl⟩ := serde.mapM_cons_ok.mp h
    obtain ⟨g, -, rfl⟩ := of_ok hfirst
    have huris : (PlanState.tasks job
        ({ plan := plan, size_generator := g } : PlanState r)).map (·.uri) = made job plan := by
      unfold PlanState.tasks made
      rw [createTasks_uris, Nat.sub_zero, ← List.range_eq_range']
      exact congrFun List.filterMap_eq_map _
    rw [List.flatMap_cons, List.flatMap_cons, List.map_append, ih hrest, huris]

/-- What the creation returns when its puts succeed. -/
theorem create_made {p : Parallel} {tasks : List PrepareTask} {total_to_create : Nat}
    (h : create job objects cache tasks total_to_create e = some p)
    (hret : p.outcome = .Returned prepared) (hwritten : ∀ q ∈ e.puts.flatten, q.2 = .Written) :
    marked prepared = put_objects (writtenTasks e.puts.flatten) ∧
      (prepared.map (·.uri)).Perm (tasks.map (·.uri)) := by
  obtain ⟨x, successes, hx, hretry, -, -, -, hperm, houtcome⟩ := create_returns h ⟨prepared, hret⟩
  have hfailed : x.error_tracker.failed_objects = [] := by
    rw [hx]
    exact (run_of_written hwritten).2
  rw [hfailed] at hretry
  have hcreated : x.created = (writtenTasks e.puts.flatten).map fun task =>
      ⟨task.uri, task.size, true⟩ := by
    rw [hx]
    exact created_run
  rw [houtcome, retry_nil hretry, List.map_nil, List.append_nil, hcreated] at hret
  cases hret
  refine ⟨marked_written _, ?_⟩
  rw [List.map_map, writtenTasks_of_written hwritten]
  exact hperm.map (·.uri)

/-- All turns are planned. -/
theorem planTurn_of_plansOf {plans : List (PreparePlan × Nat)}
    (h : plansOf job e cache turns = .ok plans) :
    ∀ turn ∈ turns, ∃ plan, planTurn job e.stream (coverage cache turn) turn = .ok plan := by
  induction turns generalizing plans with
  | nil => nofun
  | cons turn turns ih =>
    obtain ⟨plan, _, hplan, hrest, _⟩ := plansOf_cons h
    exact List.forall_mem_cons.mpr ⟨⟨plan, hplan⟩, ih hrest⟩

/-- Nothing is planned where nothing is missing of any turn. -/
theorem plans_zero_iff {plans : List (PreparePlan × Nat)}
    (h : plansOf job e cache turns = .ok plans) : (plans.map (·.2)).sum = 0 ↔
      ∀ turn ∈ turns, planTurn job e.stream (coverage cache turn) turn = .ok none := by
  constructor
  · intro hzero turn hturn
    obtain ⟨plan, hplan⟩ := planTurn_of_plansOf h turn hturn
    cases plan with
    | none => exact hplan
    | some p =>
      have hp := (mem_plansOf h).mpr ⟨turn, hturn, hplan⟩
      have hpos := plansOf_pos h hp
      have hcount := List.sum_eq_zero_iff_forall_eq_nat.mp hzero p.2 (List.mem_map_of_mem hp)
      omega
  · intro hnone
    rw [List.sum_eq_zero_iff_forall_eq_nat]
    intro k hk
    obtain ⟨p, hp, rfl⟩ := List.mem_map.mp hk
    obtain ⟨turn, hturn, hplan⟩ := (mem_plansOf h).mp hp
    cases (hnone turn hturn).symm.trans hplan

theorem nothingMissing_iff {plan : Option (PreparePlan × Nat)}
    (h : planTurn job e.stream (coverage cache turn) turn = .ok plan) :
    NothingMissing job cache e turn ↔ plan = none ∧ Addressed job turn := by
  obtain ⟨endpoints, existing, hendpoints, hexisting, hcases⟩ := planTurn_ok h
  constructor
  · rintro ⟨endpoints', existing', hendpoints', hexisting', hzero, haddresses⟩
    cases hendpoints.symm.trans hendpoints'
    cases hexisting.symm.trans hexisting'
    refine ⟨?_, endpoints, hendpoints, haddresses⟩
    rcases hcases with ⟨-, rfl⟩ | ⟨hpos, -⟩
    · rfl
    · omega
  · rintro ⟨rfl, endpoints', hendpoints', haddresses⟩
    cases hendpoints.symm.trans hendpoints'
    rcases hcases with ⟨hzero, -⟩ | ⟨-, hsome⟩
    · exact ⟨endpoints, existing, hendpoints, hexisting, hzero, haddresses⟩
    · cases hsome

/-- A turn without a plan of which all is missing has no objects. -/
theorem addressed_of_allMissing (hone : job.num_agents ≤ 1)
    (h : planTurn job e.stream (coverage cache turn) turn = .ok none)
    (hall : AllMissing job cache e turn) : Addressed job turn := by
  have hfull := (planTurn_makes hone h).full.mpr hall
  obtain ⟨endpoints, -, hendpoints, -⟩ := planTurn_ok h
  refine ⟨endpoints, hendpoints, fun i hi => ?_⟩
  rw [← hfull] at hi
  cases hi

/-- The list of a parallel prepare phase is complete where nothing is missing, or all. -/
theorem parallel_accounts (hone : job.num_agents ≤ 1) {p : Parallel}
    (h : prepare_parallel r job objects cache e = some p) (hret : p.outcome = .Returned prepared)
    (hwritten : ∀ q ∈ e.puts.flatten, q.2 = .Written) :
    Accounts (job.turns.flatMap (addresses job)) (writtenTasks e.puts.flatten) (asked job.turns)
        prepared ↔
      (∀ turn ∈ job.turns, NothingMissing job cache e turn) ∨
        ∀ turn ∈ job.turns, AllMissing job cache e turn := by
  unfold prepare_parallel at h
  dsimp only at h
  split at h
  · split at h <;> cases h
    cases hret
  · next plans hplans =>
    split at h
    · next hzero =>
      have hnone := (plans_zero_iff hplans).mp hzero
      split at h
      · split at h <;> cases h
        cases hret
      · next existing hexisting =>
        obtain ⟨hmarked, hpart⟩ := existingOf_part hexisting
        have hquiet := quiet_eq h
        split at h <;> cases h
        cases hret
        rw [hpart.accounts_iff (by rw [hmarked, hquiet.1]; exact .refl _)]
        constructor
        · intro haddressed
          exact .inl fun turn hturn =>
            (nothingMissing_iff (hnone turn hturn)).mpr ⟨rfl, haddressed turn hturn⟩
        · rintro (hnothing | hall) turn hturn
          · exact ((nothingMissing_iff (hnone turn hturn)).mp (hnothing turn hturn)).2
          · exact addressed_of_allMissing hone (hnone turn hturn) (hall turn hturn)
    · next hmore =>
      split at h
      · split at h <;> cases h
        cases hret
      · next states hstates =>
        obtain ⟨hmarked, hperm⟩ := create_made h hret hwritten
        have hrounds := @rounds_perm r job (roundsOf states) states
          fun state hstate => (Nat.sub_le ..).trans (le_roundsOf hstate)
        have huris := hperm.trans (hrounds.map (·.uri))
        rw [states_made hstates, List.flatMap_map] at huris
        have hmake := plansOf_make hone hplans
        have hpart : Part (job.turns.flatMap (addresses job)) (asked job.turns)
            (prepared.map (·.uri)) (∀ turn ∈ job.turns, AllMissing job cache e turn) :=
          ⟨hmake.length, (huris.map some).subperm.trans hmake.part,
            huris.length_eq ▸ hmake.full⟩
        rw [hpart.accounts_iff (by rw [hmarked])]
        refine ⟨.inr, ?_⟩
        rintro (hnothing | hall)
        · refine absurd ((plans_zero_iff hplans).mpr fun turn hturn => ?_) hmore
          obtain ⟨plan, hplan⟩ := planTurn_of_plansOf hplans turn hturn
          rw [hplan, ((nothingMissing_iff hplan).mp (hnothing turn hturn)).1]
        · exact hall

end parallel

/-! ## Both strategies -/

/-- The list of one agent whose puts succeed has each number once, marks what was put, and is
counted, exactly when each turn finds all or none (sequential), or when nothing is missing of
any turn or all of every turn (parallel). -/
theorem prepared_accounts_iff (r : Random) (job : Job) (objects : Objects)
    (cache : Option MetadataCache) (hone : job.num_agents ≤ 1) :
    (∀ es s, (sequentialMachine r job).run (.new job objects cache) es = some s → s.Returns →
      (∀ e ∈ es, AllWritten e) →
      (Accounts (job.turns.flatMap fun turn => turn.addresses job)
          (es.flatMap fun e => writtenTasks e.puts) (asked job.turns) s.prepared ↔
        (sequentialMachine r job).Along (FindsAllOrNone job) (.new job objects cache) es)) ∧
    ∀ e p prepared, parallel.prepare_parallel r job objects cache e = some p →
      p.outcome = .Returned prepared → (∀ q ∈ e.puts.flatten, q.2 = .Written) →
      (Accounts (job.turns.flatMap (parallel.addresses job)) (writtenTasks e.puts.flatten)
          (asked job.turns) prepared ↔
        (∀ turn ∈ job.turns, parallel.NothingMissing job cache e turn) ∨
          ∀ turn ∈ job.turns, parallel.AllMissing job cache e turn) := by
  constructor
  · rintro es s h ⟨hrun, hturns⟩ hwritten
    obtain ⟨past, hpast, hcreated, hpart⟩ := run_listed hone h hrun hwritten
    rw [hturns, List.append_nil] at hpast
    rw [hpast]
    exact hpart.accounts_iff hcreated
  · exact fun e p prepared h hret hwritten => parallel.parallel_accounts hone h hret hwritten

def twoSharded : EnsureSpec :=
  { base_uri := some "s3://bucket/".toList, count := 2, size_spec := some (.Fixed 4096) }

/-- Two objects in the directory of their shard. -/
def twoShardedJob : Job :=
  { config := { ensure_objects := [twoSharded], key_prefix_shards := 1 }, concurrency := 4 }

def shardedTask (uri : String) (idx : Nat) : PrepareTask := ⟨uri.toList, 4096, idx⟩

/-- An empty store, filled by both strategies. -/
theorem prepared_accounts_two_objects :
    (∃ es s, (sequentialMachine noRandom twoShardedJob).run (.new twoShardedJob ∅ none) es =
      some s ∧
      Accounts (twoShardedJob.turns.flatMap fun turn => turn.addresses twoShardedJob)
        (es.flatMap fun e => writtenTasks e.puts) (asked twoShardedJob.turns) s.prepared) ∧
    ∃ e p prepared, parallel.prepare_parallel noRandom twoShardedJob ∅ none e = some p ∧
      p.outcome = .Returned prepared ∧
      Accounts (twoShardedJob.turns.flatMap (parallel.addresses twoShardedJob))
        (writtenTasks e.puts.flatten) (asked twoShardedJob.turns) prepared := by
  obtain ⟨hsequential, hparallel⟩ := prepared_accounts_iff noRandom twoShardedJob ∅ none
    (Nat.le_refl 1)
  constructor
  · obtain ⟨s, hs, hret⟩ : ∃ s, (sequentialMachine noRandom twoShardedJob).run
        (.new twoShardedJob ∅ none) [putsAll ∅
          [shardedTask "s3://bucket/00/prepared-00000000.dat" 0,
            shardedTask "s3://bucket/00/prepared-00000001.dat" 1]] = some s ∧ s.Returns :=
      ⟨_, rfl, rfl, rfl⟩
    refine ⟨_, s, hs, (hsequential _ s hs hret ?_).mpr ?_⟩
    · intro e he q hq
      rw [List.mem_singleton.mp he] at hq
      obtain ⟨task, -, rfl⟩ := List.mem_map.mp hq
      rfl
    · refine ⟨⟨⟨twoSharded, "prepared".toList⟩, "s3://bucket/".toList, ⟨0, ∅⟩, rfl, rfl, ?_,
        .inr ⟨Nat.two_pos, fun i _ h => by cases h⟩⟩, fun t ht => trivial⟩
      rfl
  · obtain ⟨p, prepared, hp, hret⟩ :
        ∃ p prepared, parallel.prepare_parallel noRandom twoShardedJob ∅
        none { stream := succeeds (listPrefixed ∅), puts := [[
          (shardedTask "s3://bucket/00/prepared-00000000.dat" 0, .Written),
          (shardedTask "s3://bucket/00/prepared-00000001.dat" 1, .Written)]] } = some p ∧
        p.outcome = .Returned prepared := ⟨_, _, rfl, rfl⟩
    refine ⟨_, p, prepared, hp, hret, (hparallel _ p prepared hp hret ?_).mpr (.inr ?_)⟩
    · intro q hq
      simp only [List.flatten_cons, List.flatten_nil, List.append_nil, List.mem_cons,
        List.not_mem_nil, or_false] at hq
      rcases hq with rfl | rfl <;> rfl
    · intro turn hturn
      rw [show twoShardedJob.turns = [⟨twoSharded, "prepared".toList⟩] from rfl,
        List.mem_singleton] at hturn
      subst hturn
      exact ⟨["s3://bucket/".toList], ⟨0, ∅⟩, rfl, rfl, fun i _ => rfl⟩

/-- One object of two exists: it is neither listed nor counted. -/
theorem prepared_misses_existing : ¬∀ (r : Random) (job : Job) (objects : Objects)
    (cache : Option MetadataCache) (es : List TurnEvent) (s : Sequential), job.num_agents ≤ 1 →
    (sequentialMachine r job).run (.new job objects cache) es = some s → s.Returns →
    (sequentialMachine r job).Along (Succeeds listPrefixed) (.new job objects cache) es →
    Accounts (job.turns.flatMap fun turn => turn.addresses job)
      (es.flatMap fun e => writtenTasks e.puts) (asked job.turns) s.prepared := by
  intro h
  have haccounts := h noRandom twoShardedJob
    (stored ["s3://bucket/00/prepared-00000000.dat"]) none
    [putsAll (stored ["s3://bucket/00/prepared-00000000.dat"])
      [shardedTask "s3://bucket/00/prepared-00000001.dat" 1]] _ (Nat.le_refl 1) rfl ⟨rfl, rfl⟩
    ⟨⟨rfl, by simp [putsAll]⟩, fun _ _ => trivial⟩
  have hcounted := haccounts.counted
  revert hcounted
  decide +kernel

end sai3_bench.prepare
