-- Whether a worker finds a store for each of its operations (workload.rs): the stores
-- that are made before it starts, and the ones that it looks up.
import Sai3Bench.WorkloadRuns

namespace sai3_bench.workload

open directory_tree texts
open prepare (joinUri withSlash withSlash_append prefix_withSlash Draws PathSelector)
open config.written (Config OpSpec WeightedOp SizeSpec)

/-! ## What is looked up -/

/-- The operations that take a store from the pool. The others make one of their own. -/
def takes_store : OpSpec → Prop
  | .Mkdir .. | .Rmdir .. => False
  | _ => True

/-- The lookups of an operation. -/
structure LooksUp (run : Run) (pre : PreResolved) (op : OpSpec) : Prop where
  source : run.path_selector = none → ∀ kind uri, pattern_of run.cfg op = some (kind, uri) →
    ∃ src, pre.for_uri kind uri = some src ∧ src.full_uris ≠ []
  store : takes_store op → ∀ r uri, run.op_uri pre r op = .ok uri →
    ∃ store, run.store uri = .ok store

/-- They succeed for all operations, at any time. -/
def LookupsTotal (run : Run) (pre : PreResolved) : Prop :=
  ∀ events : List Run.Event, (∀ e ∈ events, Issues run.cfg e.op) →
    ∀ op, Issues run.cfg op → LooksUp run (run.after pre events) op

/-! ## What stores are made for -/

/-- Without several endpoints stores are made for the objects that are found, for the
target of a tree and for the bases of PUT operations. -/
inductive Served (stores : Stores) (cfg : Config) (tree_manifest : Option TreeManifest) :
    Path → Prop
  | object {wo : WeightedOp} {kind : Kind} {pattern uri : Path} : tree_manifest = none →
      wo ∈ cfg.workload → pattern_of cfg wo.spec = some (kind, pattern) →
        Finds stores cfg pattern uri → Served stores cfg tree_manifest uri
  | target {target : String} : tree_manifest ≠ none → cfg.target = some target →
      Served stores cfg tree_manifest target.toList
  | put {wo : WeightedOp} {uri : Path} {spec : SizeSpec} : wo ∈ cfg.workload →
      cfg.get_put_size_spec wo.spec = .ok (uri, spec) → Served stores cfg tree_manifest uri

/-- An address with the same base has a store. -/
def Pooled (stores : Stores) (cfg : Config) (tree_manifest : Option TreeManifest)
  (uri : Path) : Prop :=
  ∃ served, Served stores cfg tree_manifest served ∧ extract_base_uri served = extract_base_uri uri

/-- The address says more than a scheme. -/
def Rooted (uri : Path) : Prop :=
  ∃ scheme, beforeFirst "://".toList uri = some scheme ∧ uri.drop (scheme.length + 3) ≠ []

/-- The operations that take a file of a tree. -/
def takes_file (cfg : Config) : OpSpec → Prop
  | .Get .. | .Stat .. | .Delete .. => True
  | op => ∃ base, put_base cfg op = .ok base

/-- What the operations that a worker can issue have to keep to. -/
structure Covered (stores : Stores) (cfg : Config) (tree_manifest : Option TreeManifest) :
    Prop where
  lists : ∀ path, Issues cfg (.List path) →
    Pooled stores cfg tree_manifest (cfg.resolve_uri path.toList)
  puts : tree_manifest = none → ∀ op base, Issues cfg op → put_base cfg op = .ok base →
    Rooted base ∨ ∀ rand_val, Pooled stores cfg tree_manifest (joinUri base (put_key cfg rand_val))
  files : ∀ selector ∈ path_selector cfg tree_manifest, ∀ op, Issues cfg op → takes_file cfg op →
    ∀ target, cfg.target = some target → Rooted target.toList ∨ ∀ selection,
      Pooled stores cfg tree_manifest (joinUri target.toList (selector.select_file selection))

/-! ## Bases -/

variable {uri base : Path}

theorem extract_of_bucket {scheme bucket rest : Path}
    (hscheme : beforeFirst "://".toList uri = some scheme)
    (hafter : uri.drop (scheme.length + 3) = bucket ++ '/' :: rest) (hbucket : '/' ∉ bucket) :
    extract_base_uri uri = uri.take (scheme.length + 3) ++ bucket := by
  unfold extract_base_uri
  rw [hscheme]
  dsimp only
  rw [hafter, beforeFirst_mark hbucket]
  dsimp only
  rw [List.take_add, hafter, List.take_left]

/-- What is joined to an address has its base. -/
theorem extract_base_uri_join (h : Rooted base) (key : Path) :
    extract_base_uri (joinUri base key) = extract_base_uri base := by
  obtain ⟨scheme, hscheme, hne⟩ := h
  obtain ⟨tail, htail⟩ := @prefix_withSlash base
  have hjoin : beforeFirst "://".toList (joinUri base key) = some scheme := by
    unfold joinUri
    rw [← htail, List.append_assoc]
    exact beforeFirst_append hscheme _
  have hlength : scheme.length + 3 ≤ base.length := by
    by_contra hlt
    exact hne (List.drop_eq_nil_of_le (by omega))
  have htake : (joinUri base key).take (scheme.length + 3) = base.take (scheme.length + 3) := by
    unfold joinUri
    rw [← htail, List.append_assoc, List.take_append_of_le_length hlength]
  by_cases hslash : '/' ∈ base.drop (scheme.length + 3)
  · obtain ⟨bucket, rest, hafter, hbucket⟩ := List.eq_append_cons_of_mem hslash
    have hlonger : (joinUri base key).drop (scheme.length + 3) =
        bucket ++ '/' :: (rest ++ (tail ++ key)) := by
      unfold joinUri
      rw [← htail, List.append_assoc, List.drop_append_of_le_length hlength, hafter,
        List.append_assoc, List.cons_append]
    rw [extract_of_bucket hscheme hafter hbucket, extract_of_bucket hjoin hlonger hbucket, htake]
  · -- there is no slash after the first part, so one is put there
    have hlast : withSlash base = base ++ ['/'] := by
      refine if_neg fun hends => hslash ?_
      have hafter : (base.drop (scheme.length + 3)).getLast? = some '/' := by
        rw [List.getLast?_drop, if_neg, hends]
        exact fun hle => hne (List.drop_eq_nil_of_le hle)
      exact List.mem_of_getLast? hafter
    have hlonger : (joinUri base key).drop (scheme.length + 3) =
        base.drop (scheme.length + 3) ++ '/' :: key := by
      unfold joinUri
      rw [hlast, List.append_assoc, List.drop_append_of_le_length hlength]
      rfl
    rw [extract_of_bucket hjoin hlonger hslash, htake, List.take_append_drop]
    unfold extract_base_uri
    rw [hscheme]
    dsimp only
    rw [beforeFirst_no_mark hslash]

section

variable {stores : Stores} {cfg : Config} {tree_manifest : Option TreeManifest} {run : Run}
  {pre : PreResolved}

/-! ## The pool -/

theorem mem_put_base_uris {puts : List Path} (h : put_base_uris cfg = .ok puts) :
    base ∈ puts ↔ ∃ wo ∈ cfg.workload, ∃ uri spec,
      cfg.get_put_size_spec wo.spec = .ok (uri, spec) ∧ extract_base_uri uri = base := by
  have hmem : ∀ (ops : List WeightedOp) (puts : List Path),
      ops.mapM (fun wo => (cfg.get_put_size_spec wo.spec).map fun uri => extract_base_uri uri.1) =
        .ok puts → (base ∈ puts ↔ ∃ wo ∈ ops, ∃ uri spec,
          cfg.get_put_size_spec wo.spec = .ok (uri, spec) ∧ extract_base_uri uri = base) := by
    intro ops
    induction ops with
    | nil =>
      intro puts h
      cases h
      simp
    | cons wo ops ih =>
      intro puts h
      rw [List.mapM_cons] at h
      obtain ⟨first, hfirst, h⟩ := serde.bind_ok.mp h
      obtain ⟨rest, hrest, h⟩ := serde.bind_ok.mp h
      obtain ⟨⟨uri, spec⟩, hspec, rfl⟩ := serde.map_ok.mp hfirst
      cases h
      rw [List.mem_cons, ih rest hrest, List.exists_mem_cons_iff]
      simp [hspec, eq_comm]
  rw [hmem _ _ h]
  constructor
  · rintro ⟨wo, hwo, found⟩
    exact ⟨wo, List.mem_of_mem_filter hwo, found⟩
  · rintro ⟨wo, hwo, uri, spec, hspec, hbase⟩
    refine ⟨wo, List.mem_filter.mpr ⟨hwo, ?_⟩, uri, spec, hspec, hbase⟩
    cases hop : wo.spec with
    | Put => rfl
    | Get | List | Stat | Delete | Mkdir | Rmdir =>
      rw [hop] at hspec
      cases hspec

/-- The bases that are found are those of the objects that the patterns stand for. -/
theorem mem_found (h : Resolves stores cfg cfg.workload pre) :
    base ∈ (pre.get_lists ++ pre.delete_lists ++ pre.stat_lists).flatMap
      (fun source => source.full_uris.map extract_base_uri) ↔
        ∃ wo ∈ cfg.workload, ∃ kind pattern uri, pattern_of cfg wo.spec = some (kind, pattern) ∧
          Finds stores cfg pattern uri ∧ extract_base_uri uri = base := by
  have hlists : ∀ src, src ∈ pre.get_lists ++ pre.delete_lists ++ pre.stat_lists ↔
      ∃ kind, src ∈ pre.lists kind := by
    intro src
    constructor
    · intro hsrc
      rcases List.mem_append.mp hsrc with hsrc | hsrc
      · rcases List.mem_append.mp hsrc with hsrc | hsrc
        · exact ⟨.get, hsrc⟩
        · exact ⟨.delete, hsrc⟩
      · exact ⟨.stat, hsrc⟩
    · rintro ⟨kind, hsrc⟩
      cases kind with
      | get => exact List.mem_append_left _ (List.mem_append_left _ hsrc)
      | delete => exact List.mem_append_left _ (List.mem_append_right _ hsrc)
      | stat => exact List.mem_append_right _ hsrc
  rw [List.mem_flatMap]
  constructor
  · rintro ⟨src, hsrc, hbase⟩
    obtain ⟨kind, hsrc⟩ := (hlists src).mp hsrc
    obtain ⟨uri, huri, rfl⟩ := List.mem_map.mp hbase
    have hpattern : src.uri ∈ patterns cfg cfg.workload kind := by
      rw [← h.uris kind]
      exact List.mem_map_of_mem hsrc
    obtain ⟨wo, hwo, hpattern⟩ := mem_patterns.mp hpattern
    exact ⟨wo, hwo, kind, src.uri, uri, hpattern,
      (finds_iff (h.good kind src hsrc).found).mp huri, rfl⟩
  · rintro ⟨wo, hwo, kind, pattern, uri, hpattern, hfinds, rfl⟩
    have hmem : pattern ∈ (pre.lists kind).map UriSource.uri := by
      rw [h.uris kind]
      exact mem_patterns.mpr ⟨wo, hwo, hpattern⟩
    obtain ⟨src, hsrc, rfl⟩ := List.mem_map.mp hmem
    refine ⟨src, (hlists src).mpr ⟨kind, hsrc⟩, List.mem_map_of_mem ?_⟩
    exact (finds_iff (h.good kind src hsrc).found).mpr hfinds

/-- Without several endpoints an address has a store when its base has one. -/
theorem store_iff (h : run.Started stores tree_manifest pre)
    (hmulti : run.cfg.multi_endpoint = none) :
    (∃ store, run.store uri = .ok store) ↔ Pooled stores run.cfg tree_manifest uri := by
  have hkeys := store_keys h hmulti
  unfold Run.store Run.uses_multi_endpoint
  rw [hmulti]
  refine get_cached_store_ok.trans ?_
  unfold unique_base_uris at hkeys
  rw [hmulti] at hkeys
  obtain ⟨puts, hputs, hkeys⟩ := serde.bind_ok.mp hkeys
  have hsame := Except.ok.inj hkeys
  rw [← hsame, List.mem_append, List.mem_append, mem_put_base_uris hputs]
  have hresolved := h.resolved
  cases tree_manifest with
  | none =>
    rw [mem_found (pre_resolve_flat hresolved)]
    constructor
    · rintro ((⟨wo, hwo, kind, pattern, found, hpattern, hfinds, hbase⟩ | htree) |
        ⟨wo, hwo, put, spec, hspec, hbase⟩)
      · exact ⟨found, .object rfl hwo hpattern hfinds, hbase⟩
      · cases htree
      · exact ⟨put, .put hwo hspec, hbase⟩
    · rintro ⟨served, hserved, hbase⟩
      cases hserved with
      | object _ hwo hpattern hfinds =>
        exact .inl (.inl ⟨_, hwo, _, _, served, hpattern, hfinds, hbase⟩)
      | target htree => exact absurd rfl htree
      | put hwo hspec => exact .inr ⟨_, hwo, served, _, hspec, hbase⟩
  | some manifest =>
    cases hresolved
    have htree : extract_base_uri uri ∈ (run.cfg.target.toList ++
        ((Option.map (·.endpoints) (none : Option config.written.MultiEndpointConfig)).getD [])).map
          (fun target : String => extract_base_uri target.toList) ↔
        ∃ target, run.cfg.target = some target ∧
          extract_base_uri target.toList = extract_base_uri uri := by
      simp [eq_comm]
    simp only [Option.isSome_some, if_true, htree]
    constructor
    · rintro ((hfound | ⟨target, htarget, hbase⟩) | ⟨wo, hwo, put, spec, hspec, hbase⟩)
      · cases hfound
      · exact ⟨_, .target (by simp) htarget, hbase⟩
      · exact ⟨put, .put hwo hspec, hbase⟩
    · rintro ⟨served, hserved, hbase⟩
      cases hserved with
      | object hflat => cases hflat
      | target _ htarget => exact .inl (.inr ⟨_, htarget, hbase⟩)
      | put hwo hspec => exact .inr ⟨_, hwo, served, _, hspec, hbase⟩

/-! ## The operations -/

theorem put_base_ok {op : OpSpec} (h : put_base cfg op = .ok base) :
    ∃ spec, cfg.get_put_size_spec op = .ok (base, spec) := by
  obtain ⟨⟨base_uri, spec⟩, hspec, h⟩ := serde.bind_ok.mp h
  dsimp only at h
  split at h
  · cases h
    exact ⟨_, hspec⟩
  · obtain ⟨_, _, rfl⟩ := serde.map_ok.mp h
    exact ⟨_, hspec⟩

theorem tree_uri_ok {file_path : Path} (hmulti : cfg.multi_endpoint = none) :
    tree_uri cfg file_path = .ok uri ↔
      ∃ target, cfg.target = some target ∧ uri = joinUri target.toList file_path := by
  unfold tree_uri tree_base_uri
  rw [hmulti]
  cases cfg.target with
  | none =>
    constructor
    · intro h
      cases h
    · rintro ⟨_, h, _⟩
      cases h
  | some target =>
    constructor
    · intro h
      cases h
      exact ⟨target, rfl, rfl⟩
    · rintro ⟨_, h, rfl⟩
      cases h
      rfl

/-- With a tree an operation that takes a file is given one under the target. -/
theorem file_uri_ok {selector : PathSelector} {op : OpSpec} {r : WorkerDraws}
    (hmulti : run.cfg.multi_endpoint = none) (hselector : run.path_selector = some selector)
    (htakes : takes_file run.cfg op) : run.op_uri pre r op = .ok uri ↔
      ∃ target, run.cfg.target = some target ∧
        uri = joinUri target.toList (selector.select_file r.selection) := by
  unfold Run.op_uri
  rw [hselector]
  cases op with
  | Get | Stat | Delete => exact tree_uri_ok hmulti
  | Put =>
    obtain ⟨base, hbase⟩ := htakes
    dsimp only
    rw [hbase]
    exact tree_uri_ok hmulti
  | List | Mkdir | Rmdir =>
    obtain ⟨base, hbase⟩ := htakes
    cases hbase

/-- What an operation has to keep to follows from its lookups. -/
theorem covered_of_total (h : run.Started stores tree_manifest pre)
    (hmulti : run.cfg.multi_endpoint = none) (htotal : LookupsTotal run pre) :
    Covered stores run.cfg tree_manifest := by
  have hstore := fun op (hop : Issues run.cfg op) => (htotal [] (by simp) op hop).store
  refine ⟨fun path hop => ?_, fun htree op base hop hbase => ?_, ?_⟩
  · exact (store_iff h hmulti).mp (hstore _ hop trivial ⟨⟨true, 0, 0⟩, 0, 0⟩ _ rfl)
  · right
    intro rand_val
    have hselector : run.path_selector = none := by
      rw [h.selector, htree]
      rfl
    have huri : run.op_uri pre ⟨⟨true, 0, 0⟩, 0, rand_val⟩ op =
        .ok (joinUri base (put_key run.cfg rand_val)) ∧ takes_store op := by
      unfold Run.op_uri
      rw [hselector]
      cases op with
      | Put =>
        dsimp only
        rw [hbase]
        exact ⟨rfl, trivial⟩
      | Get | List | Stat | Delete | Mkdir | Rmdir => cases hbase
    exact (store_iff h hmulti).mp (hstore op hop huri.2 _ _ huri.1)
  · intro selector hselector op hop htakes target htarget
    right
    intro selection
    rw [← h.selector] at hselector
    have hpool : takes_store op := by
      cases op with
      | Get | Put | Stat | Delete | List => trivial
      | Mkdir | Rmdir =>
        obtain ⟨base, hbase⟩ := htakes
        cases hbase
    have huri : run.op_uri pre ⟨selection, 0, 0⟩ op =
        .ok (joinUri target.toList (selector.select_file selection)) :=
      (file_uri_ok hmulti hselector htakes).mpr ⟨target, htarget, rfl⟩
    exact (store_iff h hmulti).mp (hstore op hop hpool _ _ huri)

/-- An address with the base of one that has a store. -/
theorem pooled_join {key : Path} (h : Served stores cfg tree_manifest base)
    (hcovered : Rooted base ∨ Pooled stores cfg tree_manifest (joinUri base key)) :
    Pooled stores cfg tree_manifest (joinUri base key) := by
  rcases hcovered with hrooted | hpooled
  · exact ⟨base, h, (extract_base_uri_join hrooted key).symm⟩
  · exact hpooled

/-- And the lookups follow from that. -/
theorem store_of_covered (h : run.Started stores tree_manifest pre)
    (hmulti : run.cfg.multi_endpoint = none) (hcovered : Covered stores run.cfg tree_manifest)
    {op : OpSpec} (hop : Issues run.cfg op) (hpool : takes_store op) {pre' : PreResolved}
    (hlists : tree_manifest = none → run.Lists stores pre') {r : WorkerDraws}
    (huri : run.op_uri pre' r op = .ok uri) : ∃ store, run.store uri = .ok store := by
  have hworkload : ∃ wo ∈ run.cfg.workload, wo.spec = op := by
    obtain ⟨_, _, wo, hwo, _, _, hspec⟩ := hop
    exact ⟨wo, hwo, hspec⟩
  obtain ⟨wo, hwo, rfl⟩ := hworkload
  have hselector := h.selector
  cases htree : tree_manifest with
  | none =>
    rw [htree] at hselector
    have hflat : run.path_selector = none := hselector
    have hfound : ∀ kind pattern, pattern_of run.cfg wo.spec = some (kind, pattern) →
        run.found_uri pre' r wo.spec = .ok uri → ∃ store, run.store uri = .ok store := by
      intro kind pattern hpattern hfound
      obtain ⟨src, hsrc, rfl, hmem⟩ := found_uri_ok hpattern hfound
      rcases (hlists htree).origin kind src hsrc uri hmem with hfinds | ⟨_, hfeeds⟩
      · exact (store_iff h hmulti).mpr ⟨uri, .object htree hwo hpattern hfinds, rfl⟩
      · exact hfeeds.stored
    unfold Run.op_uri at huri
    rw [hflat] at huri
    cases hspec : wo.spec with
    | Get path =>
      rw [hspec] at huri hfound
      exact hfound _ _ rfl huri
    | Stat path =>
      rw [hspec] at huri hfound
      exact hfound _ _ rfl huri
    | Delete path =>
      rw [hspec] at huri hfound
      exact hfound _ _ rfl huri
    | Put path object_size size_spec dedup_factor compress_factor =>
      rw [hspec] at huri
      obtain ⟨base, hbase, rfl⟩ := serde.map_ok.mp huri
      rw [← hspec] at hbase
      obtain ⟨spec, hput⟩ := put_base_ok hbase
      refine (store_iff h hmulti).mpr (pooled_join (.put hwo hput) ?_)
      exact (hcovered.puts htree _ _ hop hbase).imp_right fun hall => hall _
    | List path =>
      rw [hspec] at huri hop
      cases huri
      exact (store_iff h hmulti).mpr (hcovered.lists path hop)
    | Mkdir | Rmdir =>
      rw [hspec] at hpool
      exact absurd hpool id
  | some manifest =>
    rw [htree] at hselector
    have htree' : tree_manifest ≠ none := by simp [htree]
    have hfile : takes_file run.cfg wo.spec → ∃ store, run.store uri = .ok store := by
      intro htakes
      obtain ⟨target, htarget, rfl⟩ := (file_uri_ok hmulti hselector htakes).mp huri
      refine (store_iff h hmulti).mpr (pooled_join (.target htree' htarget) ?_)
      refine (hcovered.files _ ?_ _ hop htakes _ htarget).imp_right fun hall => hall _
      rw [htree]
      exact rfl
    cases hspec : wo.spec with
    | Get | Stat | Delete =>
      rw [hspec] at hfile
      exact hfile trivial
    | Put path object_size size_spec dedup_factor compress_factor =>
      apply hfile
      unfold Run.op_uri at huri
      rw [hselector, hspec] at huri
      obtain ⟨base, hbase, _⟩ := serde.bind_ok.mp huri
      rw [hspec]
      exact ⟨base, hbase⟩
    | List path =>
      rw [hspec] at huri hop
      unfold Run.op_uri at huri
      cases huri
      exact (store_iff h hmulti).mpr (hcovered.lists path hop)
    | Mkdir | Rmdir =>
      rw [hspec] at hpool
      exact absurd hpool id

/-- The lookups of a run are total with several endpoints, or when what its operations
are given has the base of something that stores are made for. -/
theorem lookups_total_iff (h : start stores cfg tree_manifest = .ok (run, pre)) :
    LookupsTotal run pre ↔ cfg.multi_endpoint ≠ none ∨ Covered stores cfg tree_manifest := by
  obtain ⟨rfl, hstarted⟩ := start_ok h
  have hselector := hstarted.selector
  have hlists : tree_manifest = none → run.Lists stores pre := by
    rintro rfl
    exact lists_of_resolves (pre_resolve_flat hstarted.resolved)
  constructor
  · intro htotal
    by_cases hmulti : run.cfg.multi_endpoint = none
    · exact .inr (covered_of_total hstarted hmulti htotal)
    · exact .inl hmulti
  · intro hcovered events hevents op hop
    have hafter := fun htree => lists_after (hlists htree) hevents
    constructor
    · intro hflat kind uri hpattern
      have htree : tree_manifest = none := by
        cases tree_manifest with
        | none => rfl
        | some manifest => cases hflat.symm.trans hselector
      obtain ⟨_, _, wo, hwo, _, _, rfl⟩ := hop
      have huri : uri ∈ ((run.after pre events).lists kind).map UriSource.uri := by
        rw [(hafter htree).uris kind]
        exact mem_patterns.mpr ⟨wo, hwo, hpattern⟩
      obtain ⟨src, hsrc, hfound, _⟩ := for_uri_isSome huri
      exact ⟨src, hfound, (hafter htree).some_uri kind src hsrc⟩
    · intro hpool r uri huri
      cases hmulti : run.cfg.multi_endpoint with
      | none =>
        rcases hcovered with hne | hcovered
        · exact absurd hmulti hne
        · exact store_of_covered hstarted hmulti hcovered hop hpool hafter huri
      | some me_cfg => exact store_of_multi hstarted hmulti uri

end

/-! ### A bucket -/

/-- A storage of these objects, with one endpoint or several. -/
def stores_of (objects : List Path) : Stores where
  create_store_for_uri_with_config _ _ _ := .ok fun dir recursive =>
    .ok (keysUnder objects dir recursive)
  multi_endpoint_store _ _ := .ok fun dir recursive => .ok (keysUnder objects dir recursive)

/-- One object is read, and its directory is listed. -/
def read_and_list : Config :=
  { target := some "s3://bucket/"
    workload := [{ weight := 1, spec := .Get "data/*" }, { weight := 1, spec := .List "data/" }] }

def list_only : Config :=
  { target := some "s3://bucket/", workload := [{ weight := 1, spec := .List "data/" }] }

theorem read_and_list_covered :
    Covered (stores_of ["s3://bucket/data/a".toList]) read_and_list none := by
  refine ⟨fun path hop => ?_, fun _ op base hop hbase => ?_, fun selector hselector => ?_⟩
  · obtain ⟨_, _, wo, hwo, _, _, hspec⟩ := hop
    refine ⟨"s3://bucket/data/a".toList, .object rfl List.mem_cons_self rfl ?_, ?_⟩
    · exact (finds_iff rfl).mp List.mem_cons_self
    · rcases List.mem_pair.mp hwo with rfl | rfl
      · cases hspec
      · cases hspec
        decide
  · obtain ⟨_, _, wo, hwo, _, _, rfl⟩ := hop
    rcases List.mem_pair.mp hwo with rfl | rfl
    · cases hbase
    · cases hbase
  · cases hselector

theorem read_and_list_total : ∃ run pre,
    start (stores_of ["s3://bucket/data/a".toList]) read_and_list none = .ok (run, pre) ∧
      LookupsTotal run pre :=
  ⟨_, _, rfl, (lookups_total_iff rfl).mpr (.inr read_and_list_covered)⟩

/-- Nothing makes a store for a directory that is listed alone. -/
theorem list_only_not_total :
    ¬ ∀ (stores : Stores) (cfg : Config) (tree_manifest : Option TreeManifest)
    (run : Run) (pre : PreResolved), start stores cfg tree_manifest = .ok (run, pre) →
      LookupsTotal run pre := by
  intro h
  have hissues : Issues list_only (.List "data/") :=
    ⟨by decide, .inl (by decide), _, List.mem_cons_self, by decide, by decide, rfl⟩
  have hlooks := h (stores_of []) list_only none _ _ rfl [] (by simp) _ hissues
  obtain ⟨store, hstore⟩ := hlooks.store trivial ⟨⟨true, 0, 0⟩, 0, 0⟩ _ rfl
  cases hstore

end sai3_bench.workload
