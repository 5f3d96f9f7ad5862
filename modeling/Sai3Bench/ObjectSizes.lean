-- The size of an object: what prepare draws for it when it makes the object,
-- and what it takes for its size when the object exists already.
import Sai3Bench.ObjectAddresses
import Sai3Bench.SequentialPrepares
import Sai3Bench.ParallelPlans

namespace sai3_bench.prepare

open directory_tree size_generator metadata_cache

variable {r : Random}

/-! ## The sizes of objects that exist -/

/-- Numbers without an address have no objects. -/
theorem reconstruct_of_none {uri : Nat → Option Path} {idxs : List Nat}
    (h : ∀ i ∈ idxs, uri i = none) (g : SizeGenerator r) : reconstruct uri g idxs = [] := by
  induction idxs with
  | nil => rfl
  | cons i idxs ih =>
    unfold reconstruct
    rw [h i List.mem_cons_self]
    exact ih fun j hj => h j (List.mem_cons_of_mem _ hj)

/-- The objects with addresses come first, so the sizes are those of their numbers. -/
theorem mem_reconstruct_range {uri : Nat → Option Path} {g : SizeGenerator r}
    (hfirst : ∀ i j, i ≤ j → uri j ≠ none → uri i ≠ none) {start n : Nat} {obj : PreparedObject} :
    obj ∈ reconstruct uri (g.after start) (List.range' start n) ↔
      ∃ i, start ≤ i ∧ i < start + n ∧ uri i = some obj.uri ∧ obj.size = g.size i ∧
        obj.created = false := by
  induction n generalizing start with
  | zero =>
    simp only [List.range'_zero, reconstruct, List.not_mem_nil, false_iff]
    rintro ⟨i, h1, h2, _⟩
    omega
  | succ n ih =>
    rw [List.range'_succ]
    unfold reconstruct
    cases huri : uri start with
    | none =>
      have hnone : ∀ i, start ≤ i → uri i = none := by
        intro i hi
        by_contra hne
        exact hfirst start i hi hne huri
      have hafter : ∀ i ∈ List.range' (start + 1) n, uri i = none := by
        intro i hi
        apply hnone
        have hrange := List.mem_range'_1.mp hi
        omega
      dsimp only
      rw [reconstruct_of_none hafter]
      simp only [List.not_mem_nil, false_iff]
      rintro ⟨i, hi, _, hsome, _⟩
      rw [hnone i hi] at hsome
      cases hsome
    | some uri₀ =>
      have hnext := @ih (start + 1)
      rw [SizeGenerator.after_succ] at hnext
      dsimp only
      rw [List.mem_cons, hnext]
      constructor
      · rintro (rfl | ⟨i, h1, h2, h⟩)
        · exact ⟨start, le_refl _, by omega, huri, rfl, rfl⟩
        · exact ⟨i, by omega, by omega, h⟩
      · rintro ⟨i, h1, h2, hu, hs, hc⟩
        by_cases hi : i = start
        · subst hi
          rw [huri] at hu
          obtain ⟨u, z, c⟩ := obj
          cases hu
          subst hs hc
          exact .inl rfl
        · exact .inr ⟨i, by omega, by omega, hu, hs, hc⟩

theorem mem_reconstruct {uri : Nat → Option Path} {g : SizeGenerator r}
    (hfirst : ∀ i j, i ≤ j → uri j ≠ none → uri i ≠ none) {n : Nat} {obj : PreparedObject} :
    obj ∈ reconstruct uri g (List.range n) ↔
      ∃ i, i < n ∧ uri i = some obj.uri ∧ obj.size = g.size i ∧ obj.created = false := by
  have h := @mem_reconstruct_range r uri g hfirst 0 n obj
  rw [List.range_eq_range']
  simpa using h

theorem Turn.mem_reconstruct {turn : Turn} {job : Job} {endpoint : Nat → Path}
    {g : SizeGenerator r} {n idx : Nat} {obj : PreparedObject} (hturn : turn.Pooled)
    (h : obj ∈ reconstruct (fun i => turn.uri job (endpoint i) i) g (List.range n))
    (huri : turn.uri job (endpoint idx) idx = some obj.uri) : obj.size = g.size idx := by
  obtain ⟨i, _, hi, hsize, _⟩ := (prepare.mem_reconstruct fun i j hij hj => uri_of_succ hij hj).mp h
  rw [hsize, uri_injective hturn hi huri]

/-! ## The sizes that are used -/

/-- A size that prepare uses for a number of a turn, with the sizes under a
base: to make the object, or to tell of one that exists. -/
inductive UsesSize (r : Random) (turn : Turn) (base_uri : Path) (idx : Nat) : Nat → Prop
  | Makes {job : Job} {cache : Option MetadataCache} {e : TurnEvent} {tasks : List PrepareTask}
      {actual_to_create : Nat} {task : PrepareTask} (hturn : turn ∈ job.turns)
      (hbase : turn.spec.get_base_uri job.multi_endpoint_uris = .ok base_uri)
      (hplan : turn.plan r job cache e = .ok (.Create tasks actual_to_create))
      (htask : task ∈ tasks) (hidx : task.file_idx = idx) : UsesSize r turn base_uri idx task.size
  | Takes {job : Job} {cache : Option MetadataCache} {e : TurnEvent}
      {objects : List PreparedObject} {obj : PreparedObject} (hturn : turn ∈ job.turns)
      (hbase : turn.spec.get_base_uri job.multi_endpoint_uris = .ok base_uri)
      (hplan : turn.plan r job cache e = .ok (.Exist objects)) (hobj : obj ∈ objects)
      (huri : turn.uri job base_uri idx = some obj.uri) : UsesSize r turn base_uri idx obj.size
  | MakesInParallel {job : Job} {stream : Path → List (Except String Path)}
      {cache : Option MetadataCache} {plan : parallel.PreparePlan} {count : Nat}
      {g : SizeGenerator r} {task : PrepareTask} (hturn : turn ∈ job.turns)
      (hplan : parallel.planTurn job stream (coverage cache turn) turn = .ok (some (plan, count)))
      (hbase : plan.endpoints.headD [] = base_uri)
      (hg : SizeGenerator.new_with_seed r plan.size_spec plan.seed = .ok g)
      (htask : task ∈ plan.tasks job g) (hidx : task.file_idx = idx) :
      UsesSize r turn base_uri idx task.size
  | TakesInParallel {job : Job} {stream : Path → List (Except String Path)}
      {cache : Option MetadataCache} {endpoints : List Path} {objects : List PreparedObject}
      {obj : PreparedObject} (hturn : turn ∈ job.turns)
      (hnone : ∀ t ∈ job.turns, parallel.planTurn job stream (coverage cache t) t = .ok none)
      (hendpoints : parallel.endpointsOf job turn.spec = .ok endpoints)
      (hbase : endpoints.headD [] = base_uri)
      (hexist : parallel.existingObjects r job turn = .ok objects) (hobj : obj ∈ objects)
      (huri : parallel.existing_uri job turn endpoints idx = some obj.uri) :
      UsesSize r turn base_uri idx obj.size

/-- A number has one size, however its object comes to be known. -/
def OneSize (r : Random) (turn : Turn) (base_uri : Path) (idx : Nat) : Prop :=
  ∀ size size', UsesSize r turn base_uri idx size → UsesSize r turn base_uri idx size' →
    size = size'

/-- Prepare may look for the objects of the spec under the base. -/
def EnsureSpec.TakesBase (spec : EnsureSpec) (base_uri : Path) : Prop :=
  ∃ job : Job, spec.get_base_uri job.multi_endpoint_uris = .ok base_uri

/-- A draw is the same from seed 0 and from the seed of the base, and the same
after the line that logs the sizes. -/
def SameDraws (r : Random) (spec : EnsureSpec) (base_uri : Path) (idx : Nat) : Prop :=
  ∀ g₀ g, SizeGenerator.new r spec.get_size_spec = .ok g₀ →
    SizeGenerator.new_with_seed r spec.get_size_spec (seedOf base_uri) = .ok g →
      g₀.size idx = g.size idx ∧ (spec.TakesBase base_uri → g.description.size idx = g.size idx)

variable {turn : Turn} {base_uri : Path} {idx size : Nat}

/-- What is used is drawn in one of three ways. -/
theorem UsesSize.drawn (h : UsesSize r turn base_uri idx size) : ∃ g₀ g,
    SizeGenerator.new r turn.spec.get_size_spec = .ok g₀ ∧
      SizeGenerator.new_with_seed r turn.spec.get_size_spec (seedOf base_uri) = .ok g ∧
        (size = g₀.size idx ∨ size = g.size idx ∨
          turn.spec.TakesBase base_uri ∧ size = g.description.size idx) := by
  cases h with
  | @Makes job cache e tasks n task hturn hbase hplan htask hidx =>
    obtain ⟨base, existing, hbase', _, ⟨_, g, _, hp⟩ | ⟨_, g, hg, hp⟩⟩ := Turn.plan_ok hplan
    · cases hp
    · rw [hbase] at hbase'
      cases hbase'
      cases hp
      obtain ⟨_, _, _, hsize⟩ := mem_createTasks.mp htask
      refine ⟨_, g, SizeGenerator.new_with_seed_ok hg 0, hg, ?_⟩
      rw [hsize, hidx]
      split
      · exact .inr (.inr ⟨⟨job, hbase⟩, rfl⟩)
      · exact .inr (.inl rfl)
  | @Takes job cache e objects obj hturn hbase hplan hobj huri =>
    obtain ⟨base, existing, hbase', _, ⟨_, g₀, hg₀, hp⟩ | ⟨_, g, _, hp⟩⟩ := Turn.plan_ok hplan
    · rw [hbase] at hbase'
      cases hbase'
      cases hp
      exact ⟨g₀, _, hg₀, SizeGenerator.new_with_seed_ok hg₀ _,
        .inl (Turn.mem_reconstruct (pooled_of_mem hturn) hobj huri)⟩
    · cases hp
  | @MakesInParallel job stream cache plan count g task hturn hplan hbase hg htask hidx =>
    obtain ⟨endpoints, e, _, _, ⟨_, hp⟩ | ⟨_, hp⟩⟩ := parallel.planTurn_ok hplan
    · cases hp
    · cases hp
      have hseed : seedOf base_uri = (parallel.planOf job turn endpoints e.indices).seed := by
        rw [← hbase]
        rfl
      obtain ⟨_, _, _, hsize⟩ := mem_createTasks.mp htask
      refine ⟨_, g, SizeGenerator.new_with_seed_ok hg 0, hseed ▸ hg, .inr (.inl ?_)⟩
      rw [hsize, hidx]
  | @TakesInParallel job stream cache endpoints objects obj hturn _ hendpoints _ hexist hobj huri =>
    unfold parallel.existingObjects at hexist
    rw [hendpoints] at hexist
    dsimp only at hexist
    split at hexist
    · cases hexist
    · rename_i g₀ hg₀
      cases hexist
      exact ⟨g₀, _, hg₀, SizeGenerator.new_with_seed_ok hg₀ _,
        .inl (Turn.mem_reconstruct (pooled_of_mem hturn) hobj huri)⟩

/-! ## Each way to draw is used -/

section

variable {job : Job} {g : SizeGenerator r}

/-- The job with its turns, on one agent, that makes all objects or none. -/
def Job.without_listing (job : Job) (force_overwrite : Bool)
    (multi_endpoint : Option MultiEndpointConfig) : Job :=
  let config := { job.config with
    skip_verification := !force_overwrite, force_overwrite := force_overwrite }
  { job with
    config := config, multi_endpoint := multi_endpoint, tree_manifest := none, num_agents := 1 }

/-- A parallel run that overwrites all objects draws from the seed of the base. -/
theorem usesSize_makes (hturn : turn ∈ job.turns) (hidx : idx < turn.spec.count)
    (hg : SizeGenerator.new_with_seed r turn.spec.get_size_spec (seedOf base_uri) = .ok g) :
    UsesSize r turn base_uri idx (g.size idx) := by
  let job' := job.without_listing true (some ⟨[base_uri], List.cons_ne_nil _ _⟩)
  let plan := parallel.planOf job' turn [base_uri] ∅
  have hcount : parallel.actual_to_create job' turn ∅ = turn.spec.count := by
    simp [parallel.actual_to_create, job', Job.without_listing]
  have hplan : parallel.planTurn job' (fun _ => []) (coverage none turn) turn =
      .ok (some (plan, turn.spec.count)) := by
    have hexisting : turn.existing job' (fun _ => []) (coverage none turn) base_uri =
        .ok ⟨0, ∅⟩ := by
      simp [Turn.existing, job', Job.without_listing]
    have hendpoints : parallel.endpointsOf job' turn.spec = .ok [base_uri] := rfl
    unfold parallel.planTurn
    rw [hendpoints]
    dsimp only
    rw [List.headD_cons, hexisting]
    dsimp only
    rw [hcount, if_pos (by omega)]
  have htask : ⟨plan.uri job' idx, g.size idx, idx⟩ ∈ plan.tasks job' g := by
    refine mem_createTasks.mpr ⟨hidx, ?_, rfl, rfl⟩
    simp [parallel.PreparePlan.selects, parallel.PreparePlan.should_create, parallel.mine,
      plan, parallel.planOf, job', Job.without_listing]
  have hturn' : turn ∈ job'.turns := hturn
  exact .MakesInParallel hturn' hplan rfl hg htask rfl

/-- A parallel run that takes all objects to exist draws from seed 0. -/
theorem usesSize_takes (hturn : turn ∈ job.turns) (hidx : idx < turn.spec.count)
    (hg : SizeGenerator.new r turn.spec.get_size_spec = .ok g) :
    UsesSize r turn base_uri idx (g.size idx) := by
  let job' := job.without_listing false (some ⟨[base_uri], List.cons_ne_nil _ _⟩)
  have hnone : ∀ t ∈ job'.turns,
      parallel.planTurn job' (fun _ => []) (coverage none t) t = .ok none := by
    intro t _
    have hexisting : t.existing job' (fun _ => []) (coverage none t) base_uri =
        .ok ⟨t.spec.count, ∅⟩ := by
      simp [Turn.existing, job', Job.without_listing]
    have hendpoints : parallel.endpointsOf job' t.spec = .ok [base_uri] := rfl
    have hcount : parallel.actual_to_create job' t ∅ = 0 := by
      simp [parallel.actual_to_create, job', Job.without_listing]
    unfold parallel.planTurn
    rw [hendpoints]
    dsimp only
    rw [List.headD_cons, hexisting]
    dsimp only
    rw [hcount, if_neg (by omega)]
  obtain ⟨uri, huri⟩ : ∃ uri, parallel.existing_uri job' turn [base_uri] idx = some uri := ⟨_, rfl⟩
  have hexist : parallel.existingObjects r job' turn =
      .ok (reconstruct (parallel.existing_uri job' turn [base_uri]) g
        (List.range turn.spec.count)) := by
    have hendpoints : parallel.endpointsOf job' turn.spec = .ok [base_uri] := rfl
    unfold parallel.existingObjects
    rw [hendpoints, hg]
  have hobj : ⟨uri, g.size idx, false⟩ ∈ reconstruct (parallel.existing_uri job' turn [base_uri]) g
      (List.range turn.spec.count) :=
    (mem_reconstruct fun i j hij hj => Turn.uri_of_succ hij hj).mpr ⟨idx, hidx, huri, rfl, rfl⟩
  have hturn' : turn ∈ job'.turns := hturn
  exact .TakesInParallel hturn' hnone rfl rfl hexist hobj huri

/-- A sequential run that overwrites all objects and logs draws after the line of its log. -/
theorem usesSize_logs (hturn : turn ∈ job.turns) (hidx : idx < turn.spec.count)
    (hbase : turn.spec.TakesBase base_uri)
    (hg : SizeGenerator.new_with_seed r turn.spec.get_size_spec (seedOf base_uri) = .ok g) :
    UsesSize r turn base_uri idx (g.description.size idx) := by
  obtain ⟨other, hbase⟩ := hbase
  let job' := job.without_listing true other.multi_endpoint
  let e : TurnEvent := { info_enabled := true, stream := fun _ => [] }
  have hexisting : turn.existing job' e.stream (coverage none turn) base_uri = .ok ⟨0, ∅⟩ := by
    simp [Turn.existing, job', Job.without_listing]
  have hbase' : turn.spec.get_base_uri job'.multi_endpoint_uris = .ok base_uri := hbase
  have hmore : turn.to_create ⟨0, ∅⟩ ≠ 0 := by
    unfold Turn.to_create
    dsimp only
    rw [if_neg (by omega)]
    omega
  have hplan : turn.plan r job' none e =
      .ok (.Create (createTasks (Turn.selects job' ⟨0, ∅⟩) (turn.uri job' base_uri) g.description
        (List.range turn.spec.count))
          ((List.range turn.spec.count).countP (Turn.selects job' ⟨0, ∅⟩))) := by
    unfold Turn.plan
    rw [hbase']
    dsimp only
    rw [hexisting]
    dsimp only
    rw [if_neg hmore, hg]
    rfl
  obtain ⟨uri, huri⟩ : ∃ uri, turn.uri job' base_uri idx = some uri := ⟨_, rfl⟩
  have htask : ⟨uri, g.description.size idx, idx⟩ ∈ createTasks (Turn.selects job' ⟨0, ∅⟩)
      (turn.uri job' base_uri) g.description (List.range turn.spec.count) := by
    refine mem_createTasks.mpr ⟨hidx, ?_, huri, rfl⟩
    simp [Turn.selects, Turn.mine, job', Job.without_listing]
  have hturn' : turn ∈ job'.turns := hturn
  exact .Makes hturn' hbase' hplan htask rfl

end

/-! ## One size for each number -/

/-- All uses of a number have one size, if and only if the draws of the
distribution are the same from both seeds, and after the line of the log. -/
theorem the_sizes_agree_iff {r : Random} {job : Job} {turn : Turn} {base_uri : Path} {idx : Nat}
    (hturn : turn ∈ job.turns) (hidx : idx < turn.spec.count) :
    OneSize r turn base_uri idx ↔ SameDraws r turn.spec base_uri idx := by
  constructor
  · intro hone g₀ g hg₀ hg
    refine ⟨hone _ _ (usesSize_takes hturn hidx hg₀) (usesSize_makes hturn hidx hg), ?_⟩
    intro hbase
    exact hone _ _ (usesSize_logs hturn hidx hbase hg) (usesSize_makes hturn hidx hg)
  · intro hsame size size' h h'
    obtain ⟨g₀, g, hg₀, hg, hsize⟩ := h.drawn
    obtain ⟨g₀', g', hg₀', hg', hsize'⟩ := h'.drawn
    rw [hg₀] at hg₀'
    cases hg₀'
    rw [hg] at hg'
    cases hg'
    obtain ⟨hseed, hlog⟩ := hsame g₀ g hg₀ hg
    have hself : ∀ n, (n = g₀.size idx ∨ n = g.size idx ∨
        turn.spec.TakesBase base_uri ∧ n = g.description.size idx) → n = g.size idx := by
      rintro n (rfl | rfl | ⟨hbase, rfl⟩)
      · exact hseed
      · rfl
      · exact hlog hbase
    rw [hself size hsize, hself size' hsize']

/-! ## Two seeds -/

/-- The first numbers that `StdRng` gives for seed 0 and for the seed of
`s3://bucket/`; a range takes the upper part of its product with one of them. -/
def twoSeeds : Random where
  StdRng := List Nat
  seed_from_u64 seed :=
    if seed = 0 then [13486662071293341567]
    else if seed = seedOf "s3://bucket/".toList then [12451462275023373640]
    else []
  uniform min max
    | [] => (min, [])
    | x :: rng => (min + x * (max - min + 1) / u64, rng)
  lognormal min _ rng := (⟨min, fun min _ => min⟩, rng)

def bucketTurn (size_spec : SizeSpec) : Turn :=
  ⟨{ base_uri := some "s3://bucket/".toList, count := 1, size_spec := some size_spec },
    "prepared".toList⟩

def bucketJob (size_spec : SizeSpec) : Job :=
  { config := { ensure_objects := [(bucketTurn size_spec).spec] } }

theorem fixed_sizes_agree : OneSize twoSeeds (bucketTurn (.Fixed 4096)) "s3://bucket/".toList 0 := by
  have hturn : bucketTurn (.Fixed 4096) ∈ (bucketJob (.Fixed 4096)).turns := List.mem_cons_self
  refine (the_sizes_agree_iff hturn (by decide)).mpr ?_
  rintro g₀ g ⟨⟩ ⟨⟩
  exact ⟨rfl, fun _ => rfl⟩

def uniformSizes : SizeSpec :=
  .Distribution { dist_type := .Uniform, min := some 1000, max := some 2000 }

/-- An object that is made with 1675 bytes has 1731 bytes, when it is found to exist. -/
theorem an_existing_object_has_another_size :
    ¬ OneSize twoSeeds (bucketTurn uniformSizes) "s3://bucket/".toList 0 := by
  have hturn : bucketTurn uniformSizes ∈ (bucketJob uniformSizes).turns := List.mem_cons_self
  have hmade : UsesSize twoSeeds (bucketTurn uniformSizes) "s3://bucket/".toList 0 1675 :=
    usesSize_makes hturn (by decide) rfl
  have hexists : UsesSize twoSeeds (bucketTurn uniformSizes) "s3://bucket/".toList 0 1731 :=
    usesSize_takes hturn (by decide) rfl
  intro hone
  have hsame := hone _ _ hmade hexists
  omega

end sai3_bench.prepare
