-- Whether a DELETE can take an object from a GET or a STAT (workload.rs): the pools of a
-- mixed workload, with and without a tree.
import Sai3Bench.StoreLookups

namespace sai3_bench.workload

open directory_tree texts
open prepare (joinUri Draws PathSelector)
open config.written (Config OpSpec WeightedOp MultiEndpointConfig)

/-! ## Pools -/

/-- The operations that need their objects to stay. -/
def reads : OpSpec → Prop
  | .Get .. | .Stat .. => True
  | _ => False

/-- At no two times of a run a DELETE and an operation that reads are given one address. -/
def PoolsApart (run : Run) (pre : PreResolved) : Prop :=
  ∀ events : List Run.Event, (∀ e ∈ events, Issues run.cfg e.op) →
    ∀ first second, first <+: events → second <+: events →
      ∀ path op, Issues run.cfg (.Delete path) → Issues run.cfg op → reads op →
        ∀ r r' uri, run.op_uri (run.after pre first) r (.Delete path) = .ok uri →
          run.op_uri (run.after pre second) r' op ≠ .ok uri

section

variable (stores : Stores) (cfg : Config) (tree_manifest : Option TreeManifest)

/-- A PUT adds a new object to what was found for a pattern. -/
structure Fed (pattern full_uri : Path) : Prop where
  dynamic : cfg.dynamic_put_pool = true
  put : ∃ op rand_val base, Issues cfg op ∧ put_base cfg op = .ok base ∧
    full_uri = joinUri base (put_key cfg rand_val)
  stored : cfg.multi_endpoint ≠ none ∨ Pooled stores cfg tree_manifest full_uri
  first : (patterns cfg cfg.workload .get).find? (Run.goes_on · full_uri) = some pattern

/-- No object is one for the pattern of a DELETE and one for that of an operation that
reads; and no file of a tree is worked on at all. -/
structure Separate : Prop where
  objects : tree_manifest = none → ∀ path op, Issues cfg (.Delete path) → Issues cfg op → reads op →
    ∀ deletes ∈ pattern_of cfg (.Delete path), ∀ pattern ∈ pattern_of cfg op, ∀ uri,
      Finds stores cfg deletes.2 uri → ¬ Finds stores cfg pattern.2 uri
  news : tree_manifest = none → ∀ path path', Issues cfg (.Delete path) → Issues cfg (.Get path') →
    ∀ deletes ∈ pattern_of cfg (.Delete path), ∀ pattern ∈ pattern_of cfg (.Get path'), ∀ uri,
      Fed stores cfg tree_manifest pattern.2 uri → ¬ Finds stores cfg deletes.2 uri
  files : tree_manifest ≠ none → ∀ path op, Issues cfg (.Delete path) → Issues cfg op → reads op →
    cfg.multi_endpoint = none ∧ cfg.target = none

end

variable {stores : Stores} {cfg : Config} {tree_manifest : Option TreeManifest} {run : Run}
  {pre : PreResolved} {pattern uri : Path}

/-! ## What the operations are given -/

theorem feeds_iff (h : run.Started stores tree_manifest pre) :
    run.Feeds pattern uri ↔ Fed stores run.cfg tree_manifest pattern uri := by
  have hstored : (∃ store, run.store uri = .ok store) ↔
      run.cfg.multi_endpoint ≠ none ∨ Pooled stores run.cfg tree_manifest uri := by
    cases hmulti : run.cfg.multi_endpoint with
    | none => simpa using store_iff h hmulti
    | some me_cfg => simpa using store_of_multi h hmulti uri
  constructor
  · rintro ⟨hdynamic, hput, hstore, hfirst⟩
    exact ⟨hdynamic, hput, hstored.mp hstore, hfirst⟩
  · rintro ⟨hdynamic, hput, hstore, hfirst⟩
    exact ⟨hdynamic, hput, hstored.mpr hstore, hfirst⟩

/-- A list is found as before, with the new object if that goes to its pattern. -/
theorem find_add_put_uri (full_uri pattern : Path) (l : List UriSource) :
    (Run.add_put_uri full_uri l).find? (fun src => src.uri = pattern) =
      (l.find? fun src => src.uri = pattern).map fun src =>
        if (l.map UriSource.uri).find? (Run.goes_on · full_uri) = some pattern then
          { src with full_uris := src.full_uris ++ [full_uri] }
        else src := by
  induction l with
  | nil => rfl
  | cons first l ih =>
    unfold Run.add_put_uri
    rw [List.map_cons]
    by_cases hgoes : Run.goes_on first.uri full_uri = true
    · have hfind : (first.uri :: l.map UriSource.uri).find? (Run.goes_on · full_uri) =
          some first.uri := List.find?_cons_of_pos hgoes
      rw [if_pos hgoes, hfind, List.find?_cons, List.find?_cons]
      by_cases hfirst : first.uri = pattern
      · simp [hfirst]
      · simp [hfirst]
    · have hfind : (first.uri :: l.map UriSource.uri).find? (Run.goes_on · full_uri) =
          (l.map UriSource.uri).find? (Run.goes_on · full_uri) := List.find?_cons_of_neg hgoes
      rw [if_neg hgoes, hfind, List.find?_cons, List.find?_cons]
      by_cases hfirst : first.uri = pattern
      · -- the object does not go on from this pattern, so it goes to none of its lists
        have hother : (l.map UriSource.uri).find? (Run.goes_on · full_uri) ≠ some pattern := by
          intro hother
          have hpattern := List.find?_some hother
          rw [hfirst] at hgoes
          exact hgoes hpattern
        rw [decide_eq_true hfirst]
        dsimp only
        rw [Option.map_some, if_neg hother]
      · simp [hfirst, ih]

/-- A new object is found with the pattern that it was added to. -/
theorem for_uri_add {l : List UriSource} {full_uri : Path}
    (h : (l.map UriSource.uri).find? (Run.goes_on · full_uri) = some pattern) :
    ∃ src, (Run.add_put_uri full_uri l).find? (fun src => src.uri = pattern) = some src ∧
      full_uri ∈ src.full_uris := by
  obtain ⟨old, hold, huri⟩ := List.mem_map.mp (List.mem_of_find?_eq_some h)
  have hsome : (l.find? fun src => src.uri = pattern).isSome :=
    List.find?_isSome.mpr ⟨old, hold, decide_eq_true huri⟩
  obtain ⟨src, hsrc⟩ := Option.isSome_iff_exists.mp hsome
  rw [find_add_put_uri, hsrc, Option.map_some, if_pos h]
  exact ⟨_, rfl, List.mem_append_right _ (List.mem_singleton_self full_uri)⟩

/-- A PUT that is carried out adds its object. -/
theorem step_put {e : Run.Event} {base : Path} {store : Lister} (hflat : run.path_selector = none)
    (hbase : put_base run.cfg e.op = .ok base)
    (hstore : run.store (joinUri base (put_key run.cfg e.draws.rand_val)) = .ok store)
    (hdynamic : run.cfg.dynamic_put_pool = true) (hsucceeds : e.succeeds = true) :
    run.step pre e = { pre with
      get_lists := Run.add_put_uri
        (joinUri base (put_key run.cfg e.draws.rand_val)) pre.get_lists } := by
  have hop : run.op_uri pre e.draws e.op = .ok (joinUri base (put_key run.cfg e.draws.rand_val)) ∧
      ∃ path object_size size_spec dedup_factor compress_factor,
        e.op = .Put path object_size size_spec dedup_factor compress_factor := by
    unfold Run.op_uri
    rw [hflat]
    cases hspec : e.op with
    | Put path object_size size_spec dedup_factor compress_factor =>
      rw [hspec] at hbase
      dsimp only
      rw [hbase]
      exact ⟨rfl, _, _, _, _, _, rfl⟩
    | Get | List | Stat | Delete | Mkdir | Rmdir =>
      rw [hspec] at hbase
      cases hbase
  obtain ⟨huri, path, object_size, size_spec, dedup_factor, compress_factor, hput⟩ := hop
  rw [hput] at huri
  unfold Run.step
  rw [hput]
  dsimp only
  rw [huri]
  dsimp only
  rw [hstore]
  simp [hsucceeds, hdynamic, hflat]

/-- Without a tree an operation that reads is given one of what was found for its pattern. -/
theorem read_uri (hflat : run.path_selector = none) {op : OpSpec} (hreads : reads op) :
    ∃ kind pattern, pattern_of run.cfg op = some (kind, pattern) ∧ kind ≠ .delete ∧
      (kind = .get → ∃ path, op = .Get path) ∧
        ∀ pre r, run.op_uri pre r op = run.found_uri pre r op := by
  unfold Run.op_uri
  rw [hflat]
  cases op with
  | Get path => exact ⟨_, _, rfl, by decide, fun _ => ⟨path, rfl⟩, fun _ _ => rfl⟩
  | Stat path => exact ⟨_, _, rfl, by decide, nofun, fun _ _ => rfl⟩
  | Put | List | Delete | Mkdir | Rmdir => exact absurd hreads id

theorem delete_uri (hflat : run.path_selector = none) (pre : PreResolved) (r : WorkerDraws)
    (path : String) : run.op_uri pre r (.Delete path) = run.found_uri pre r (.Delete path) := by
  unfold Run.op_uri
  rw [hflat]

/-- With a tree all of them are given files. -/
theorem tree_op_uri {selector : PathSelector} (hselector : run.path_selector = some selector)
    {op : OpSpec} (hop : reads op ∨ ∃ path, op = .Delete path) (pre : PreResolved)
      (r : WorkerDraws) :
    run.op_uri pre r op = tree_uri run.cfg (selector.select_file r.selection) := by
  unfold Run.op_uri
  rw [hselector]
  cases op with
  | Get | Stat | Delete => rfl
  | Put | List | Mkdir | Rmdir =>
    rcases hop with hreads | ⟨_, hop⟩
    · exact absurd hreads id
    · cases hop

/-- A file has an address when there is something to make it of. -/
theorem tree_uri_isOk (h : run.Started stores tree_manifest pre)
    (hbase : ¬ (run.cfg.multi_endpoint = none ∧ run.cfg.target = none)) (file_path : Path) :
    ∃ uri, tree_uri run.cfg file_path = .ok uri := by
  unfold tree_uri tree_base_uri
  cases hmulti : run.cfg.multi_endpoint with
  | none =>
    cases htarget : run.cfg.target with
    | none => exact absurd ⟨hmulti, htarget⟩ hbase
    | some target => exact ⟨_, rfl⟩
  | some me_cfg =>
    have hcreated := h.created
    unfold pre_create_stores at hcreated
    rw [hmulti] at hcreated
    obtain ⟨base_uris, _, hcreated⟩ := serde.bind_ok.mp hcreated
    obtain ⟨store_map, _, hcreated⟩ := serde.bind_ok.mp hcreated
    obtain ⟨multi_store, hmake, _⟩ := serde.map_ok.mp hcreated
    have hne : me_cfg.endpoints ≠ [] := by
      intro hnil
      unfold Stores.create_multi_endpoint_store at hmake
      rw [hnil] at hmake
      cases hmake
    have hlt := Nat.mod_lt ((extract_file_index_from_path file_path).getD 0)
      (List.length_pos_iff.mpr hne)
    dsimp only
    rw [List.getElem?_eq_getElem hlt]
    exact ⟨_, rfl⟩

/-! ## The pools are apart -/

/-- An object of the pattern of an operation can be given to it. -/
theorem given_of_finds (hlists : Resolves stores run.cfg run.cfg.workload pre) {op : OpSpec}
    (hop : Issues run.cfg op) {kind : Kind}
      (hpattern : pattern_of run.cfg op = some (kind, pattern))
    (h : Finds stores run.cfg pattern uri) : ∃ r, run.found_uri pre r op = .ok uri := by
  obtain ⟨_, _, wo, hwo, _, _, rfl⟩ := hop
  have huri : pattern ∈ (pre.lists kind).map UriSource.uri := by
    rw [hlists.uris kind]
    exact mem_patterns.mpr ⟨wo, hwo, hpattern⟩
  obtain ⟨src, hsrc, hfound, rfl⟩ := for_uri_isSome huri
  exact exists_found_uri hpattern hfound ((finds_iff (hlists.good kind src hsrc).found).mpr h)

theorem separate_of_apart (h : run.Started stores tree_manifest pre) (hapart : PoolsApart run pre) :
    Separate stores run.cfg tree_manifest := by
  have hselector := h.selector
  refine ⟨?_, ?_, ?_⟩
  · rintro rfl path op hdelete hop hreads deletes hdeletes ⟨kind,
      pattern⟩ hpattern uri hfinds hfound
    have hflat : run.path_selector = none := hselector
    have hresolves := pre_resolve_flat h.resolved
    obtain ⟨r, hr⟩ := given_of_finds hresolves hdelete hdeletes hfinds
    obtain ⟨r', hr'⟩ := given_of_finds hresolves hop hpattern hfound
    obtain ⟨_, _, _, _, _, huri⟩ := read_uri hflat hreads
    refine hapart [] (by simp) [] [] List.nil_prefix List.nil_prefix path op hdelete hop hreads r r'
      uri ?_ ?_
    · exact (delete_uri hflat _ _ _).trans hr
    · exact (huri _ _).trans hr'
  · rintro rfl path path' hdelete hget deletes hdeletes ⟨kind, pattern⟩ hpattern uri hfed hfinds
    have hflat : run.path_selector = none := hselector
    have hresolves := pre_resolve_flat h.resolved
    obtain ⟨hdynamic, ⟨put, rand_val, base, hput, hbase, rfl⟩, ⟨store, hstore⟩, hfirst⟩ :=
      (feeds_iff h).mpr hfed
    -- the PUT is issued, then the GET; the DELETE may come before both
    have hkind : kind = .get := by
      cases hpattern
      rfl
    have hstep : run.step pre ⟨put, ⟨⟨true, 0, 0⟩, 0, rand_val⟩, true⟩ = { pre with
        get_lists := Run.add_put_uri (joinUri base (put_key run.cfg rand_val)) pre.get_lists } :=
      step_put hflat hbase hstore hdynamic rfl
    have hafter : ∃ src, (run.after pre
        [⟨put, ⟨⟨true, 0, 0⟩, 0, rand_val⟩, true⟩]).for_uri kind pattern =
        some src ∧ joinUri base (put_key run.cfg rand_val) ∈ src.full_uris := by
      rw [← hresolves.uris .get] at hfirst
      obtain ⟨src, hsrc, hmem⟩ := for_uri_add hfirst
      refine ⟨src, ?_, hmem⟩
      show (run.step pre _).for_uri kind pattern = some src
      rw [hstep, hkind]
      exact hsrc
    obtain ⟨src, hsrc, hmem⟩ := hafter
    obtain ⟨r, hr⟩ := given_of_finds hresolves hdelete hdeletes hfinds
    obtain ⟨r', hr'⟩ := exists_found_uri hpattern hsrc hmem
    have hreads : reads (.Get path') := trivial
    obtain ⟨_, _, _, _, _, huri⟩ := read_uri hflat hreads
    refine hapart _ ?_ [] _ List.nil_prefix List.prefix_rfl path
      (.Get path') hdelete hget trivial r r'
      _ ((delete_uri hflat _ _ _).trans hr) ((huri _ _).trans hr')
    intro e he
    rw [List.mem_singleton.mp he]
    exact hput
  · intro htree path op hdelete hop hreads
    obtain ⟨manifest, rfl⟩ := Option.ne_none_iff_exists'.mp htree
    by_contra hbase
    obtain ⟨uri, huri⟩ := tree_uri_isOk h hbase (PathSelector.select_file _ ⟨true, 0, 0⟩)
    refine hapart [] (by simp) [] [] List.nil_prefix List.nil_prefix path op hdelete hop hreads
      ⟨⟨true, 0, 0⟩, 0, 0⟩ ⟨⟨true, 0, 0⟩, 0, 0⟩ uri ?_ ?_
    · exact (tree_op_uri hselector (.inr ⟨path, rfl⟩) _ _).trans huri
    · exact (tree_op_uri hselector (.inl hreads) _ _).trans huri

theorem apart_of_separate (h : run.Started stores tree_manifest pre)
    (hseparate : Separate stores run.cfg tree_manifest) : PoolsApart run pre := by
  intro events hevents first second hfirst hsecond path op hdelete hop hreads r r' uri huri huri'
  have hselector := h.selector
  have hpart : ∀ l, l <+: events → ∀ e ∈ l, Issues run.cfg e.op :=
    fun l hl e he => hevents e (hl.subset he)
  cases htree : tree_manifest with
  | none =>
    subst htree
    have hflat : run.path_selector = none := hselector
    have hlists := lists_of_resolves (pre_resolve_flat h.resolved)
    rw [delete_uri hflat] at huri
    obtain ⟨kind, pattern, hpattern, hkind, hget, hread⟩ := read_uri hflat hreads
    rw [hread] at huri'
    have hdeleted : pattern_of run.cfg (.Delete path) = some (.delete, _) := rfl
    obtain ⟨src, hsrc, hsame, hmem⟩ := found_uri_ok hdeleted huri
    obtain ⟨src', hsrc', rfl, hmem'⟩ := found_uri_ok hpattern huri'
    have hdeletes : Finds stores run.cfg src.uri uri := by
      have horigin := (lists_after hlists (hpart first hfirst)).origin .delete src hsrc uri hmem
      exact horigin.resolve_right fun hfeeds => by cases hfeeds.1
    rw [hsame] at hdeletes
    rcases (lists_after hlists (hpart second hsecond)).origin kind src' hsrc' uri hmem' with
      hfinds | ⟨hkind, hfeeds⟩
    · exact hseparate.objects rfl path op hdelete hop hreads _ rfl _ hpattern uri hdeletes hfinds
    · obtain ⟨path', rfl⟩ := hget hkind
      exact hseparate.news rfl path path' hdelete hop _ rfl _ hpattern uri ((feeds_iff h).mp hfeeds)
        hdeletes
  | some manifest =>
    subst htree
    obtain ⟨hmulti, htarget⟩ := hseparate.files (by simp) path op hdelete hop hreads
    rw [tree_op_uri hselector (.inr ⟨path, rfl⟩)] at huri
    obtain ⟨target, hsome, _⟩ := (tree_uri_ok hmulti).mp huri
    cases htarget.symm.trans hsome

/-- The pools of a run are apart when no pattern of a DELETE stands for an object that a
pattern of a GET or a STAT stands for; with a tree they are only when there are no addresses. -/
theorem pools_apart_iff (h : start stores cfg tree_manifest = .ok (run, pre)) :
    PoolsApart run pre ↔ Separate stores cfg tree_manifest := by
  obtain ⟨rfl, hstarted⟩ := start_ok h
  exact ⟨separate_of_apart hstarted, apart_of_separate hstarted⟩

/-! ### A bucket of two pools -/

/-- Objects are read and deleted, by one pattern. -/
def read_and_delete (pattern : String) : Config :=
  { target := some "s3://bucket/"
    workload := [{ weight := 1, spec := .Get pattern }, { weight := 1, spec := .Delete pattern }] }

def two_pools : List Path :=
  ["s3://bucket/prepared-1.dat".toList, "s3://bucket/deletable-1.dat".toList]

theorem prepared_separate :
    Separate (stores_of two_pools) (read_and_delete "prepared-*.dat") none := by
  refine ⟨fun _ path op hdelete hop hreads deletes hdeletes pattern hpattern uri hfinds =>
    ?_, ?_, ?_⟩
  · obtain ⟨_, _, wo, hwo, _, _, hspec⟩ := hdelete
    obtain ⟨_, _, wo', hwo', _, _, rfl⟩ := hop
    rcases List.mem_pair.mp hwo with rfl | rfl
    · cases hspec
    · cases hspec
      cases hdeletes
      obtain rfl := List.mem_singleton.mp ((finds_iff rfl).mpr hfinds)
      rcases List.mem_pair.mp hwo' with rfl | rfl
      · cases hpattern
        exact fun h => absurd ((finds_iff rfl).mpr h) (by decide)
      · exact absurd hreads id
  · intro _ _ _ _ _ _ _ _ _ _ hfed
    cases hfed.dynamic
  · exact fun h => absurd rfl h

theorem prepared_apart : ∃ run pre,
    start (stores_of two_pools) (read_and_delete "prepared-*.dat") none = .ok (run, pre) ∧
      PoolsApart run pre :=
  ⟨_, _, rfl, (pools_apart_iff rfl).mpr prepared_separate⟩

/-- A pattern without the default names is used as it is, for both. -/
theorem custom_pattern_not_apart : ¬ ∀ (stores : Stores) (cfg : Config)
    (tree_manifest : Option TreeManifest) (run : Run) (pre : PreResolved),
    start stores cfg tree_manifest = .ok (run, pre) → needs_separate_pools cfg = true →
      PoolsApart run pre := by
  intro h
  have hget : Issues (read_and_delete "data/*") (.Get "data/*") :=
    ⟨by decide, .inl (by decide), _, List.mem_cons_self, by decide, by decide, rfl⟩
  have hdelete : Issues (read_and_delete "data/*") (.Delete "data/*") :=
    ⟨by decide, .inl (by decide), _,
      List.mem_cons_of_mem _ List.mem_cons_self, by decide, by decide, rfl⟩
  exact h (stores_of ["s3://bucket/data/a".toList])
    (read_and_delete "data/*") none _ _ rfl (by decide)
    [] (by simp) [] [] List.nil_prefix List.nil_prefix "data/*" (.Get "data/*") hdelete hget trivial
    ⟨⟨true, 0, 0⟩, 0, 0⟩ ⟨⟨true, 0, 0⟩, 0, 0⟩ "s3://bucket/data/a".toList rfl rfl

end sai3_bench.workload
