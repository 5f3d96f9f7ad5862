-- What is found for a pattern with a scheme (workload.rs): the stars stand for parts of a name
-- or for more, and no object that the pattern names is missed.
import Sai3Bench.PatternResolutions

namespace sai3_bench.workload

open directory_tree texts globs

/-- What comes after the scheme, or all of it. -/
def scheme_free (uri : Path) : Path :=
  match beforeFirst "://".toList uri with
  | some scheme => uri.drop (scheme.length + 3)
  | none => uri

/-- The object is under the prefix, whatever scheme the two are spelled with. -/
def Under (dir : Path) (recursive : Bool) (object : Path) : Prop :=
  scheme_free dir <+: scheme_free object ∧
    (recursive = false → '/' ∉ (scheme_free object).drop (scheme_free dir).length)

/-- What is stored, and its listings: each has the objects under a prefix and nothing else,
and may spell another scheme in front of them. -/
structure StoredObjects (list : Lister) where
  objects : List Path
  one_line : ∀ object ∈ objects, '\n' ∉ object
  spelled : Path → Bool → Path → Path
  same_object : ∀ dir recursive object,
    scheme_free (spelled dir recursive object) = scheme_free object
  list_ok : ∀ dir recursive, contains "://".toList dir = true →
    ∃ uris, list dir recursive = .ok uris ∧ ∀ uri, uri ∈ uris ↔
      ∃ object ∈ objects, Under dir recursive object ∧ spelled dir recursive object = uri

/-- A store is asked for this listing and for nothing else. -/
def Lists (pattern dir : Path) (recursive : Bool) : Prop :=
  ∃ keep : Path → Bool, ∀ create_store_with_logger list,
    create_store_with_logger pattern = .ok list →
      prefetch_uris_multi_backend create_store_with_logger pattern =
        (list dir recursive).map (List.filter keep)

/-! ## Schemes -/

variable {scheme rest pattern uri : Path}

theorem normalize_eq (uri : Path) :
    normalize_scheme_for_matching uri = "file://".toList ++ scheme_free uri := by
  unfold normalize_scheme_for_matching scheme_free
  cases beforeFirst "://".toList uri <;> rfl

theorem glob_to_regex_normalized (pattern uri : Path) :
    glob_to_regex (normalize_scheme_for_matching pattern) (normalize_scheme_for_matching uri) = true ↔
      Filled (fun u => '\n' ∉ u) (scheme_free pattern) (scheme_free uri) := by
  rw [normalize_eq, normalize_eq]
  unfold glob_to_regex
  rw [isMatch_literal_append (by decide), isMatch_ofGlob]

theorem scheme_free_append (h : beforeFirst "://".toList (scheme ++ "://".toList) = some scheme)
    (rest : Path) : scheme_free (scheme ++ "://".toList ++ rest) = rest := by
  unfold scheme_free
  rw [beforeFirst_append h]
  dsimp only
  exact List.drop_left' (by simp)

theorem eq_scheme_free (h : beforeFirst "://".toList uri = some scheme) :
    uri = scheme ++ "://".toList ++ scheme_free uri := by
  obtain ⟨rest, hrest⟩ := eq_of_beforeFirst h
  have hfree := scheme_free_append (beforeFirst_through h) rest
  rw [← hrest] at hfree
  rw [hfree, hrest]

theorem mem_scheme_free {c : Char} (h : c ∈ scheme_free uri) : c ∈ uri := by
  unfold scheme_free at h
  split at h
  · exact List.mem_of_mem_drop h
  · exact h

/-- With the same scheme the prefix is one of the whole address. -/
theorem under_same_scheme {dir object : Path} {recursive : Bool}
    (hdir : beforeFirst "://".toList dir = some scheme)
    (hobject : beforeFirst "://".toList object = some scheme) :
    Under dir recursive object ↔
      dir <+: object ∧ (recursive = false → '/' ∉ object.drop dir.length) := by
  have hbegins : dir <+: object ↔ scheme_free dir <+: scheme_free object := by
    rw [eq_scheme_free hdir, eq_scheme_free hobject, List.prefix_append_right_inj,
      scheme_free_append (beforeFirst_through hdir), scheme_free_append (beforeFirst_through hdir)]
  have hdrop : object.drop dir.length = (scheme_free object).drop (scheme_free dir).length := by
    rw [eq_scheme_free hdir, eq_scheme_free hobject, List.length_append, ← List.drop_drop,
      List.drop_left, scheme_free_append (beforeFirst_through hdir),
      scheme_free_append (beforeFirst_through hdir)]
  unfold Under
  rw [hbegins, hdrop]

/-! ## Listings -/

theorem glob_list_no_star (pattern : Path) : '*' ∉ (glob_list_params pattern).1 := by
  intro h
  have hmem := (throughLast_prefix_self '/' _).subset h
  simpa using List.mem_takeWhile_imp hmem

theorem prefetch_lists (hstar : '*' ∈ pattern) :
    Lists pattern (glob_list_params pattern).1 (glob_list_params pattern).2 := by
  refine ⟨fun uri => glob_to_regex (normalize_scheme_for_matching pattern)
    (normalize_scheme_for_matching uri), fun create list hcreate => ?_⟩
  unfold prefetch_uris_multi_backend
  rw [hcreate]
  show (if _ then _ else _) = _
  rw [if_pos hstar]
  cases list (glob_list_params pattern).1 (glob_list_params pattern).2 with
  | error e => rfl
  | ok uris => rfl

/-- The listing goes to the slash before the first star. What fills the stars does not go
over a slash, so there is one after the prefix only where the pattern has one. -/
theorem named_is_listed {glob s : Path} (h : Filled (fun u => '/' ∉ u) glob s) :
    (glob_list_params glob).1 <+: s ∧
      ((glob_list_params glob).2 = false → '/' ∉ s.drop (glob_list_params glob).1.length) := by
  have hlit : '*' ∉ glob.takeWhile fun c => decide (c ≠ '*') := by
    intro hmem
    simpa using List.mem_takeWhile_imp hmem
  rw [← List.takeWhile_append_dropWhile (p := fun c => decide (c ≠ '*')) (l := glob),
    filled_literal_append hlit] at h
  obtain ⟨t, rfl, ht⟩ := h
  unfold glob_list_params
  refine ⟨(throughLast_prefix_self '/' _).trans (List.prefix_append _ t), fun hflat hslash => ?_⟩
  rw [decide_eq_false_iff_not] at hflat
  nth_rewrite 2 [← throughLast_append_lastPart '/' (glob.takeWhile fun c => decide (c ≠ '*'))]
    at hslash
  rw [List.append_assoc, List.drop_left, List.mem_append] at hslash
  rcases hslash with hslash | hslash
  · exact mark_not_mem_lastPart '/' _ hslash
  · rcases ht.mem hslash with hglob | ⟨u, hu, hmem⟩
    · exact hflat hglob
    · exact hu hmem

variable {create_store_with_logger : Path → Except String Lister} {list : Lister}

/-- With a scheme, the prefix is a part of what comes after it. -/
theorem glob_list_params_scheme (hpattern : beforeFirst "://".toList pattern = some scheme)
    (hscheme : '*' ∉ scheme) :
    contains "://".toList (glob_list_params pattern).1 = true ∧
      scheme_free (glob_list_params pattern).1 = (glob_list_params (scheme_free pattern)).1 ∧
        (glob_list_params pattern).2 = (glob_list_params (scheme_free pattern)).2 := by
  have hthrough := beforeFirst_through hpattern
  have hroot : '*' ∉ scheme ++ "://".toList := by
    rw [List.mem_append, not_or]
    exact ⟨hscheme, by decide⟩
  have hends : (scheme ++ "://".toList).getLast? = some '/' := by
    rw [List.getLast?_append_of_ne_nil _ (by decide)]
    rfl
  have hparams := glob_list_params_append hroot hends (scheme_free pattern)
  rw [← eq_scheme_free hpattern] at hparams
  rw [hparams]
  refine ⟨?_, scheme_free_append hthrough _, rfl⟩
  unfold contains
  rw [beforeFirst_append hthrough]
  rfl

/-- A pattern with a scheme is listed under a prefix without stars. All objects that it names,
with a part of a name for each star, are found, and all that are found are as it says, with
any text for a star. -/
theorem glob_lossless (hpattern : beforeFirst "://".toList pattern = some scheme)
    (hscheme : '*' ∉ scheme) (hstar : '*' ∈ scheme_free pattern) (stored : StoredObjects list)
    (hcreate : create_store_with_logger pattern = .ok list) :
    ∃ dir recursive, '*' ∉ dir ∧ Lists pattern dir recursive ∧
      ∃ uris, prefetch_uris_multi_backend create_store_with_logger pattern = .ok uris ∧
        (∀ object ∈ stored.objects,
          Filled (fun u => '/' ∉ u) (scheme_free pattern) (scheme_free object) →
            stored.spelled dir recursive object ∈ uris) ∧
        ∀ uri ∈ uris, Filled (fun _ => True) (scheme_free pattern) (scheme_free uri) := by
  have hmem := mem_scheme_free hstar
  obtain ⟨hcontains, hdir, hrecursive⟩ := glob_list_params_scheme hpattern hscheme
  refine ⟨_, _, glob_list_no_star pattern, prefetch_lists hmem, ?_⟩
  obtain ⟨listed, hlisted, huris⟩ := stored.list_ok _ (glob_list_params pattern).2 hcontains
  refine ⟨listed.filter fun uri => glob_to_regex (normalize_scheme_for_matching pattern)
    (normalize_scheme_for_matching uri), ?_, fun object hobject hnamed => ?_, fun uri huri => ?_⟩
  · unfold prefetch_uris_multi_backend
    rw [hcreate]
    show (if _ then _ else _) = _
    rw [if_pos hmem, hlisted]
    rfl
  · rw [List.mem_filter]
    constructor
    · refine (huris _).mpr ⟨object, hobject, ?_, rfl⟩
      unfold Under
      rw [hdir, hrecursive]
      exact named_is_listed hnamed
    · rw [glob_to_regex_normalized, stored.same_object]
      refine hnamed.of_mem fun u _ hu hline => ?_
      exact stored.one_line object hobject (mem_scheme_free (hu '\n' hline))
  · rw [List.mem_filter, glob_to_regex_normalized] at huri
    exact huri.2.of_mem fun _ _ _ => trivial

/-! ### One storage -/

instance (dir : Path) (recursive : Bool) (object : Path) : Decidable (Under dir recursive object) :=
  inferInstanceAs (Decidable (_ ∧ _))

/-- The objects are listed as files, whatever the scheme of the prefix. -/
def list_as_files (objects : List Path) : Lister := fun dir recursive =>
  .ok <| (objects.filter fun object => decide (Under dir recursive object)).map
    normalize_scheme_for_matching

def StoredObjects.as_files (objects : List Path) (one_line : ∀ object ∈ objects, '\n' ∉ object) :
    StoredObjects (list_as_files objects) where
  objects := objects
  one_line := one_line
  spelled _ _ := normalize_scheme_for_matching
  same_object _ _ object := by
    have hfile : beforeFirst "://".toList ("file".toList ++ "://".toList) = some "file".toList := by
      decide
    rw [normalize_eq]
    exact scheme_free_append hfile (scheme_free object)
  list_ok dir recursive _ := by
    refine ⟨_, rfl, fun uri => ?_⟩
    rw [List.mem_map]
    refine exists_congr fun object => ?_
    rw [List.mem_filter, decide_eq_true_eq, and_assoc]

def scans : Path := "direct:///data/scan.d*_w*.dir/**/*".toList

def scan_objects : List Path :=
  ["direct:///data/scan.d1_w1.dir/a/b.dat".toList, "direct:///other/b.dat".toList]

theorem scans_lossless : ∃ dir recursive, '*' ∉ dir ∧ Lists scans dir recursive ∧
    ∃ uris, prefetch_uris_multi_backend (fun _ => .ok (list_as_files scan_objects)) scans = .ok uris ∧
      (∀ object ∈ scan_objects,
        Filled (fun u => '/' ∉ u) (scheme_free scans) (scheme_free object) →
          normalize_scheme_for_matching object ∈ uris) ∧
      ∀ uri ∈ uris, Filled (fun _ => True) (scheme_free scans) (scheme_free uri) :=
  have hscheme : beforeFirst "://".toList scans = some "direct".toList := by decide
  glob_lossless hscheme (by decide) (by decide) (.as_files scan_objects (by decide)) rfl

end sai3_bench.workload
