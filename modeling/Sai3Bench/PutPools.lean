-- Which lists of a run the objects that it writes go to (workload.rs), against the patterns
-- that stand for these objects.
import Sai3Bench.OperationPools

namespace sai3_bench.workload

open directory_tree texts globs
open prepare (joinUri)
open config.written (Config OpSpec)
open metadata_cache (trim_end_slashes)

/-! ## Patterns and new objects -/

/-- The pattern stands for the object. The rule is the one that patterns are resolved by;
`lists` says what the storage lists. -/
def Stands (lists : Path → Bool → Path → Prop) (stores : Stores) (cfg : Config)
    (pattern uri : Path) : Prop :=
  if '*' ∈ pattern then
    lists (glob_list_params pattern).1 (glob_list_params pattern).2 uri ∧ Fits stores cfg pattern uri
  else if pattern.getLast? = some '/' then lists pattern false uri
  else uri = pattern

/-- A PUT without a tree, which the storage carries out. -/
structure Run.Writes (run : Run) (e : Run.Event) (full_uri : Path) : Prop where
  flat : run.path_selector = none
  put : ∃ base, put_base run.cfg e.op = .ok base ∧
    full_uri = joinUri base (put_key run.cfg e.draws.rand_val)
  stored : ∃ store, run.store full_uri = .ok store
  succeeds : e.succeeds = true

/-- A GET with the pattern can be given the object. -/
def Selectable (pre : PreResolved) (pattern uri : Path) : Prop :=
  ∃ src, pre.for_uri .get pattern = some src ∧ uri ∈ src.full_uris

section

variable (lists : Path → Bool → Path → Prop) (stores : Stores) (run : Run) (pre : PreResolved)

/-- After the operations, what they wrote can be selected with the patterns that stand for it
or had it before, and with no others. -/
def PutPoolExact (events : List Run.Event) : Prop :=
  ∀ e ∈ events, ∀ uri, run.Writes e uri → ∀ pattern ∈ patterns run.cfg run.cfg.workload .get,
    Selectable (run.after pre events) pattern uri ↔
      Selectable pre pattern uri ∨ Stands lists stores run.cfg pattern uri

/-- A pattern that does not have the object stands for it exactly if its text begins the
object and the text of no pattern before it does. -/
def OneOwner (uri : Path) : Prop :=
  ∀ before pattern after, patterns run.cfg run.cfg.workload .get = before ++ pattern :: after →
    pattern ∉ before → ¬ Selectable pre pattern uri →
      (Stands lists stores run.cfg pattern uri ↔
        Run.goes_on pattern uri = true ∧ ∀ earlier ∈ before, Run.goes_on earlier uri = false)

end

variable {lists : Path → Bool → Path → Prop} {stores : Stores} {cfg : Config} {run : Run}
  {pre : PreResolved} {events : List Run.Event} {e : Run.Event} {pattern uri full_uri : Path}

/-- At the start the objects are found by the same rule. -/
theorem finds_iff_stands : Finds stores cfg pattern uri ↔
    Stands (fun dir recursive uri =>
      ∃ uris, listing stores cfg pattern dir recursive = .ok uris ∧ uri ∈ uris)
        stores cfg pattern uri := by
  unfold Finds Stands
  split
  · constructor
    · rintro ⟨uris, hlisted, hmem, hfits⟩
      exact ⟨⟨uris, hlisted, hmem⟩, hfits⟩
    · rintro ⟨⟨uris, hlisted, hmem⟩, hfits⟩
      exact ⟨uris, hlisted, hmem, hfits⟩
  · rfl

/-- What can be selected is what the draws of a worker lead to. -/
theorem selectable_iff_given (hflat : run.path_selector = none) {op : OpSpec}
    (hpattern : pattern_of run.cfg op = some (.get, pattern)) (hreads : reads op) :
    Selectable pre pattern uri ↔ ∃ r, run.op_uri pre r op = .ok uri := by
  obtain ⟨_, _, _, _, _, hread⟩ := read_uri hflat hreads
  simp only [hread]
  constructor
  · rintro ⟨src, hsrc, hmem⟩
    exact exists_found_uri hpattern hsrc hmem
  · rintro ⟨r, hr⟩
    unfold Run.found_uri at hr
    rw [hpattern] at hr
    dsimp only at hr
    split at hr
    · rename_i src hsrc
      split at hr
      · rename_i found hfound
        cases hr
        exact ⟨src, hsrc, List.mem_of_getElem? hfound⟩
      · cases hr
    · cases hr

/-! ## One operation -/

theorem selectable_add : Selectable
    { pre with get_lists := Run.add_put_uri full_uri pre.get_lists } pattern uri ↔
      Selectable pre pattern uri ∨ uri = full_uri ∧
        (pre.get_lists.map UriSource.uri).find? (Run.goes_on · full_uri) = some pattern := by
  have hfind := find_add_put_uri full_uri pattern pre.get_lists
  unfold Selectable PreResolved.for_uri PreResolved.lists
  dsimp only
  rw [hfind]
  by_cases hfirst : (pre.get_lists.map UriSource.uri).find? (Run.goes_on · full_uri) = some pattern
  · simp only [hfirst, if_true, and_true]
    obtain ⟨src, hsrc, _⟩ := for_uri_add hfirst
    rw [hfind] at hsrc
    obtain ⟨old, hold, _⟩ := Option.map_eq_some_iff.mp hsrc
    rw [hold]
    simp
  · simp only [hfirst, if_false, Option.map_id', and_false, or_false]

theorem step_writes (hdynamic : run.cfg.dynamic_put_pool = true) (h : run.Writes e full_uri) :
    run.step pre e = { pre with get_lists := Run.add_put_uri full_uri pre.get_lists } := by
  obtain ⟨base, hbase, rfl⟩ := h.put
  obtain ⟨store, hstore⟩ := h.stored
  exact step_put h.flat hbase hstore hdynamic h.succeeds

theorem step_of_none_written (h : ∀ full_uri, ¬ run.Writes e full_uri) : run.step pre e = pre := by
  rcases step_cases run pre e with hsame | ⟨base, hbase, _, hflat, hsucceeds, hstore, _⟩
  · exact hsame
  · exact absurd ⟨hflat, ⟨base, hbase, rfl⟩, hstore, hsucceeds⟩ (h _)

theorem Run.Writes.unique (h : run.Writes e uri) (h' : run.Writes e full_uri) : uri = full_uri := by
  obtain ⟨base, hbase, rfl⟩ := h.put
  obtain ⟨base', hbase', rfl⟩ := h'.put
  cases hbase.symm.trans hbase'
  rfl

theorem step_uris (run : Run) (pre : PreResolved) (e : Run.Event) :
    (run.step pre e).get_lists.map UriSource.uri = pre.get_lists.map UriSource.uri := by
  rcases step_cases run pre e with hsame | ⟨_, _, _, _, _, _, hadd⟩
  · rw [hsame]
  · rw [hadd]
    exact add_put_uri_uris _ _

theorem selectable_step (hdynamic : run.cfg.dynamic_put_pool = true) :
    Selectable (run.step pre e) pattern uri ↔ Selectable pre pattern uri ∨ run.Writes e uri ∧
      (pre.get_lists.map UriSource.uri).find? (Run.goes_on · uri) = some pattern := by
  by_cases hwrites : ∃ full_uri, run.Writes e full_uri
  · obtain ⟨full_uri, hwrites⟩ := hwrites
    rw [step_writes hdynamic hwrites, selectable_add]
    refine or_congr_right ⟨?_, ?_⟩
    · rintro ⟨rfl, hfirst⟩
      exact ⟨hwrites, hfirst⟩
    · rintro ⟨huri, hfirst⟩
      obtain rfl := huri.unique hwrites
      exact ⟨rfl, hfirst⟩
  · rw [not_exists] at hwrites
    rw [step_of_none_written hwrites]
    simp [hwrites]

/-! ## All operations -/

theorem selectable_after (hdynamic : run.cfg.dynamic_put_pool = true) :
    Selectable (run.after pre events) pattern uri ↔ Selectable pre pattern uri ∨
      (∃ e ∈ events, run.Writes e uri) ∧
        (pre.get_lists.map UriSource.uri).find? (Run.goes_on · uri) = some pattern := by
  induction events generalizing pre with
  | nil => simp [Run.after]
  | cons e events ih =>
    have hafter : run.after pre (e :: events) = run.after (run.step pre e) events := rfl
    rw [hafter, ih, step_uris, selectable_step hdynamic, List.exists_mem_cons_iff, or_assoc,
      or_and_right]

/-- A pattern with a star gets no object without one, whatever is written. -/
theorem not_goes_on_of_star (hstar : '*' ∈ pattern) (huri : '*' ∉ uri) :
    Run.goes_on pattern uri = false := by
  have hbase : '*' ∈ trim_end_slashes pattern := by
    have hsplit := List.takeWhile_append_dropWhile (p := fun c => decide (c = '/'))
      (l := pattern.reverse)
    rw [← List.mem_reverse, ← hsplit, List.mem_append] at hstar
    rcases hstar with hstar | hstar
    · simpa using List.mem_takeWhile_imp hstar
    · exact List.mem_reverse.mpr hstar
  rw [← Bool.not_eq_true]
  unfold Run.goes_on
  dsimp only
  rw [Bool.or_eq_true, List.isPrefixOf_iff_prefix, List.isPrefixOf_iff_prefix]
  rintro (hbegins | hbegins)
  · exact huri (hbegins.subset (List.mem_append_left _ hbase))
  · exact huri (hbegins.subset hbase)

theorem glob_pool_frozen (hdynamic : run.cfg.dynamic_put_pool = true) (hstar : '*' ∈ pattern)
    (huri : '*' ∉ uri) :
    Selectable (run.after pre events) pattern uri ↔ Selectable pre pattern uri := by
  rw [selectable_after hdynamic, or_iff_left]
  rintro ⟨_, hfirst⟩
  have hgoes := List.find?_some hfirst
  rw [not_goes_on_of_star hstar huri] at hgoes
  cases hgoes

/-- The first of the patterns that an object goes on from. -/
theorem first_goes_on_iff {before after : List Path} (h : pattern ∉ before) :
    (before ++ pattern :: after).find? (Run.goes_on · uri) = some pattern ↔
      Run.goes_on pattern uri = true ∧ ∀ earlier ∈ before, Run.goes_on earlier uri = false := by
  rw [List.find?_append]
  cases hbefore : before.find? (Run.goes_on · uri) with
  | some earlier =>
    have hmem := List.mem_of_find?_eq_some hbefore
    have hgoes := List.find?_some hbefore
    refine iff_of_false ?_ ?_
    · intro hfirst
      cases hfirst
      exact h hmem
    · intro hnone
      rw [hnone.2 earlier hmem] at hgoes
      cases hgoes
  | none =>
    have hnone : ∀ earlier ∈ before, Run.goes_on earlier uri = false := by
      simpa using hbefore
    rw [Option.none_or, List.find?_cons]
    cases hgoes : Run.goes_on pattern uri with
    | true => exact iff_of_true rfl ⟨rfl, hnone⟩
    | false =>
      refine iff_of_false ?_ (fun hboth => by cases hboth.1)
      intro hlater
      have hpattern := List.find?_some hlater
      rw [hgoes] at hpattern
      cases hpattern

/-- A run puts what it writes into the right lists exactly if each object has one owner. -/
theorem put_pool_exact_iff (h : start stores cfg none = .ok (run, pre))
    (hdynamic : cfg.dynamic_put_pool = true) :
    PutPoolExact lists stores run pre events ↔
      ∀ e ∈ events, ∀ uri, run.Writes e uri → OneOwner lists stores run pre uri := by
  obtain ⟨rfl, hstarted⟩ := start_ok h
  have huris : pre.get_lists.map UriSource.uri = patterns run.cfg run.cfg.workload .get :=
    (pre_resolve_flat hstarted.resolved).uris .get
  have hafter : ∀ e ∈ events, ∀ uri, run.Writes e uri → ∀ pattern,
      (Selectable (run.after pre events) pattern uri ↔ Selectable pre pattern uri ∨
        (patterns run.cfg run.cfg.workload .get).find? (Run.goes_on · uri) = some pattern) := by
    intro e he uri hwrites pattern
    rw [selectable_after hdynamic, huris, and_iff_right ⟨e, he, hwrites⟩]
  constructor
  · intro hexact e he uri hwrites before pattern later hsplit hbefore hnew
    have hpattern : pattern ∈ patterns run.cfg run.cfg.workload .get := by
      rw [hsplit]
      exact List.mem_append_right _ List.mem_cons_self
    have hboth := hexact e he uri hwrites pattern hpattern
    rw [hafter e he uri hwrites, or_iff_right hnew, or_iff_right hnew, hsplit,
      first_goes_on_iff hbefore] at hboth
    exact hboth.symm
  · intro howner e he uri hwrites pattern hpattern
    obtain ⟨before, later, hsplit, hbefore⟩ := List.eq_append_cons_of_mem hpattern
    rw [hafter e he uri hwrites, hsplit, first_goes_on_iff hbefore]
    by_cases hold : Selectable pre pattern uri
    · simp [hold]
    · rw [or_iff_right hold, or_iff_right hold]
      exact (howner e he uri hwrites before pattern later hsplit hbefore hold).symm

/-! ### A bucket that grows -/

/-- A storage that has the object alone lists it. -/
def listed_alone (dir : Path) (recursive : Bool) (uri : Path) : Prop :=
  uri ∈ keysUnder [uri] dir recursive

/-- Objects of a directory are read, and new ones are written to it. -/
def read_and_write (pattern : String) : Config :=
  { target := some "s3://bucket/"
    workload :=
      [{ weight := 70, spec := .Get pattern },
        { weight := 30, spec := .Put "data/" (some 1048576) none 1 1 }]
    dynamic_put_pool := true }

def put_one : Run.Event := ⟨.Put "data/" (some 1048576) none 1 1, ⟨⟨true, 0, 0⟩, 0, 42⟩, true⟩

theorem directory_put_exact : ∃ run pre,
    start (stores_of ["s3://bucket/data/a".toList]) (read_and_write "data/") none =
      .ok (run, pre) ∧
        PutPoolExact listed_alone (stores_of ["s3://bucket/data/a".toList]) run pre [put_one] := by
  have hdynamic : (read_and_write "data/").dynamic_put_pool = true := rfl
  refine ⟨_, _, rfl, (put_pool_exact_iff (by rfl) hdynamic).mpr ?_⟩
  intro e he uri hwrites before pattern later hsplit _ _
  obtain rfl := List.mem_singleton.mp he
  obtain ⟨base, hbase, rfl⟩ := hwrites.put
  cases hbase
  have hone : ["s3://bucket/data/".toList] = before ++ pattern :: later := hsplit
  cases before with
  | nil =>
    cases hone
    refine iff_of_true ?_ ⟨by decide, nofun⟩
    show listed_alone _ _ _
    unfold listed_alone
    decide
  | cons first before => simp at hone

/-- The star of a pattern is no part of what is written. -/
theorem glob_put_missed : ¬ ∀ (objects : List Path) (cfg : Config) (run : Run)
    (pre : PreResolved) (events : List Run.Event),
    start (stores_of objects) cfg none = .ok (run, pre) → cfg.dynamic_put_pool = true →
      (∀ e ∈ events, Issues cfg e.op ∧ ∃ uri, run.Writes e uri) →
        PutPoolExact listed_alone (stores_of objects) run pre events := by
  intro h
  have hissues : Issues (read_and_write "data/*") put_one.op :=
    ⟨by decide, .inl (by decide), _, List.mem_cons_of_mem _ List.mem_cons_self, by decide,
      by decide, rfl⟩
  have hdynamic : (read_and_write "data/*").dynamic_put_pool = true := rfl
  have hexact := h ["s3://bucket/data/a".toList] (read_and_write "data/*") _ _ [put_one] rfl rfl
    (by
      intro e he
      obtain rfl := List.mem_singleton.mp he
      exact ⟨hissues, _, rfl, ⟨_, rfl, rfl⟩, ⟨_, rfl⟩, rfl⟩)
    put_one List.mem_cons_self "s3://bucket/data/obj_42".toList
    ⟨rfl, ⟨_, rfl, rfl⟩, ⟨_, rfl⟩, rfl⟩ "s3://bucket/data/*".toList List.mem_cons_self
  rw [glob_pool_frozen hdynamic (by decide) (by decide)] at hexact
  have hstands : Stands listed_alone (stores_of ["s3://bucket/data/a".toList])
      (read_and_write "data/*") "s3://bucket/data/*".toList "s3://bucket/data/obj_42".toList := by
    refine ⟨?_, ?_⟩
    · unfold listed_alone
      decide
    · show glob_to_regex _ _ = true
      decide
  obtain ⟨src, hsrc, hmem⟩ := hexact.mpr (.inr hstands)
  cases hsrc
  exact absurd hmem (by decide)

end sai3_bench.workload
