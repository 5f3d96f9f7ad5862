-- Which objects a path pattern stands for (workload.rs): the listing that is made of
-- a pattern, and what is kept of it with one endpoint and with several.
import Sai3Bench.Globs
import Sai3Bench.PrepareTurns

namespace sai3_bench.workload

open directory_tree texts globs
open prepare (withSlash joinUri withSlash_ends prefix_withSlash)

/-! ## The code -/

/-- The part before the first star, to its last slash, and whether a slash comes later. -/
def glob_list_params (uri : Path) : Path × Bool :=
  (throughLast '/' (uri.takeWhile fun c => decide (c ≠ '*')),
    decide ('/' ∈ uri.dropWhile fun c => decide (c ≠ '*')))

def normalize_scheme_for_matching (uri : Path) : Path :=
  match beforeFirst "://".toList uri with
  | some scheme => "file://".toList ++ uri.drop (scheme.length + 3)
  | none => "file://".toList ++ uri

/-- The listings of a store, by prefix and recursion. -/
abbrev Lister := Path → Bool → Except String (List Path)

/-- The escaped glob, with `.*` for its stars and an anchor at either end. -/
def glob_to_regex (glob : Path) : Path → Bool := isMatch (ofGlob glob)

def prefetch_uris_multi_backend (create_store_with_logger : Path → Except String Lister)
    (base_uri : Path) : Except String (List Path) := do
  let list ← create_store_with_logger base_uri
  if '*' ∈ base_uri then
    let uris ← list (glob_list_params base_uri).1 (glob_list_params base_uri).2
    let re := glob_to_regex (normalize_scheme_for_matching base_uri)
    pure (uris.filter fun uri => re (normalize_scheme_for_matching uri))
  else if base_uri.getLast? = some '/' then list base_uri false
  else pure [base_uri]

/-- The regex is made of the last component alone, and has no anchors. -/
def prefetch_uris_multi_endpoint (list : Lister) (base_uri : Path) : Except String (List Path) :=
  if '*' ∈ base_uri then do
    let uris ← list (glob_list_params base_uri).1 (glob_list_params base_uri).2
    let re := Piece.gap :: ofGlob (lastPart '/' base_uri)
    pure (uris.filter fun uri => search re uri)
  else if base_uri.getLast? = some '/' then list base_uri false
  else .ok [base_uri]

/-! ## Endpoints of a shared storage -/

/-- The address of an endpoint has a scheme, and is no pattern. -/
structure Endpoint where
  uri : Path
  scheme : Path
  has_scheme : beforeFirst "://".toList uri = some scheme
  no_star : '*' ∉ uri

/-- The address of an object on an endpoint, by its key. -/
def Endpoint.at (e : Endpoint) (key : Path) : Path := joinUri e.uri key

/-- What a listing has: the keys with the prefix, those without a further slash alone
when it is not recursive. -/
def keysUnder (objects : List Path) (dir : Path) (recursive : Bool) : List Path :=
  objects.filter fun key =>
    dir.isPrefixOf key && (recursive || decide ('/' ∉ key.drop dir.length))

/-- A storage that all endpoints share. Its stores list the objects under a prefix; the
store of all endpoints takes prefixes with and without an endpoint, and one of the
endpoints answers. -/
structure SharedStorage where
  objects : List Path
  endpoints : List Endpoint
  create_store_with_logger : Path → Except String Lister
  list : Lister
  multi_list : Lister
  answers : Path → Bool → Endpoint
  answers_mem : ∀ dir recursive, answers dir recursive ∈ endpoints
  create_ok : ∀ e ∈ endpoints, ∀ key, create_store_with_logger (e.at key) = .ok list
  list_ok : ∀ e ∈ endpoints, ∀ dir recursive, list (e.at dir) recursive =
    .ok ((keysUnder objects dir recursive).map e.at)
  relative_ok : ∀ dir recursive, beforeFirst "://".toList dir = none →
    multi_list dir recursive = .ok ((keysUnder objects dir recursive).map (answers dir recursive).at)
  absolute_ok : ∀ e ∈ endpoints, ∀ dir recursive, multi_list (e.at dir) recursive =
    .ok ((keysUnder objects dir recursive).map (answers (e.at dir) recursive).at)

namespace SharedStorage

variable (st : SharedStorage)

/-- The pattern, by itself or on one of the endpoints. -/
def Names (base_uri pattern : Path) : Prop :=
  base_uri = pattern ∧ beforeFirst "://".toList pattern = none ∨
    ∃ e ∈ st.endpoints, base_uri = e.at pattern

/-- The endpoint that answers to the listing of a pattern. -/
def answering (base_uri : Path) : Endpoint :=
  st.answers (glob_list_params base_uri).1 (glob_list_params base_uri).2

/-- What is listed for a pattern. -/
def listed (pattern : Path) : List Path :=
  keysUnder st.objects (glob_list_params pattern).1 (glob_list_params pattern).2

/-- With all endpoints, the pattern selects the objects that it selects with one of them. -/
def SelectsAlike (e : Endpoint) (base_uri pattern : Path) : Prop :=
  ∃ single multi,
    prefetch_uris_multi_backend st.create_store_with_logger (e.at pattern) = .ok single ∧
      prefetch_uris_multi_endpoint st.multi_list base_uri = .ok multi ∧
        ∀ key, (st.answering base_uri).at key ∈ multi ↔ e.at key ∈ single

end SharedStorage

/-! ## Patterns on an endpoint -/

variable {e : Endpoint} {pattern key : Path}

theorem Endpoint.slash_no_star (e : Endpoint) : '*' ∉ withSlash e.uri := by
  have h := e.no_star
  unfold withSlash
  split
  · exact h
  · simpa using h

theorem Endpoint.at_inj {key' : Path} : e.at key = e.at key' ↔ key = key' := by
  unfold Endpoint.at joinUri
  exact List.append_right_inj _

theorem glob_list_params_append {root : Path} (hstar : '*' ∉ root)
    (hends : root.getLast? = some '/') (pattern : Path) :
    glob_list_params (root ++ pattern) =
      (root ++ (glob_list_params pattern).1, (glob_list_params pattern).2) := by
  have hroot : ∀ c ∈ root, decide (c ≠ '*') = true := by
    intro c hc
    rw [decide_eq_true_eq]
    rintro rfl
    exact hstar hc
  unfold glob_list_params
  rw [List.takeWhile_append_of_pos hroot, List.dropWhile_append_of_pos hroot,
    throughLast_append_ends hends]

theorem glob_list_params_at (e : Endpoint) (pattern : Path) :
    glob_list_params (e.at pattern) = (e.at (glob_list_params pattern).1, (glob_list_params pattern).2) :=
  glob_list_params_append e.slash_no_star (withSlash_ends e.uri) pattern

theorem lastPart_at (e : Endpoint) (pattern : Path) :
    lastPart '/' (e.at pattern) = lastPart '/' pattern :=
  lastPart_append_ends (withSlash_ends e.uri) pattern

/-- The scheme is that of the endpoint, so what comes after it stays as it is. -/
theorem normalize_at (e : Endpoint) : ∃ root, '*' ∉ root ∧
    ∀ key, normalize_scheme_for_matching (e.at key) = root ++ key := by
  obtain ⟨tail, htail⟩ := @prefix_withSlash e.uri
  obtain ⟨rest, hrest⟩ := eq_of_beforeFirst e.has_scheme
  have hlength : e.scheme.length + 3 ≤ (withSlash e.uri).length := by
    rw [← htail, hrest]
    simp
  refine ⟨"file://".toList ++ (withSlash e.uri).drop (e.scheme.length + 3), ?_, fun key => ?_⟩
  · rw [List.mem_append, not_or]
    exact ⟨by decide, fun h => e.slash_no_star (List.mem_of_mem_drop h)⟩
  · unfold normalize_scheme_for_matching Endpoint.at joinUri
    have hscheme : beforeFirst "://".toList (withSlash e.uri ++ key) = some e.scheme := by
      rw [← htail, List.append_assoc]
      exact beforeFirst_append e.has_scheme _
    rw [hscheme]
    dsimp only
    rw [List.drop_append_of_le_length hlength, List.append_assoc]

theorem glob_to_regex_at (e : Endpoint) (pattern key : Path) :
    glob_to_regex (normalize_scheme_for_matching (e.at pattern))
      (normalize_scheme_for_matching (e.at key)) = isMatch (ofGlob pattern) key := by
  obtain ⟨root, hroot, hnormalize⟩ := normalize_at e
  rw [hnormalize, hnormalize, Bool.eq_iff_iff]
  exact isMatch_literal_append hroot

/-- What is listed for a pattern begins as the pattern does. -/
theorem glob_prefix (pattern : Path) : (glob_list_params pattern).1 <+: pattern :=
  (throughLast_prefix_self '/' _).trans (List.takeWhile_prefix _)

variable {st : SharedStorage} {base_uri : Path}

/-- With one endpoint the whole key has to fit. -/
theorem backend_selects (he : e ∈ st.endpoints) (hstar : '*' ∈ pattern) :
    prefetch_uris_multi_backend st.create_store_with_logger (e.at pattern) =
      .ok (((st.listed pattern).filter (isMatch (ofGlob pattern))).map e.at) := by
  have hmem : '*' ∈ e.at pattern := List.mem_append_right _ hstar
  unfold prefetch_uris_multi_backend
  rw [st.create_ok e he]
  show (if _ then _ else _) = _
  rw [if_pos hmem, glob_list_params_at, st.list_ok e he]
  show Except.ok _ = Except.ok _
  rw [List.filter_map]
  congr 2
  refine List.filter_congr fun key _ => ?_
  exact glob_to_regex_at e pattern key

/-- With all endpoints a part of the address has to fit the last component. -/
theorem endpoint_selects (hnames : st.Names base_uri pattern) (hstar : '*' ∈ pattern) :
    prefetch_uris_multi_endpoint st.multi_list base_uri =
      .ok (((st.listed pattern).filter fun key =>
        search (ofGlob (lastPart '/' pattern)) ((st.answering base_uri).at key)).map
          (st.answering base_uri).at) := by
  have hlist : st.multi_list (glob_list_params base_uri).1 (glob_list_params base_uri).2 =
      .ok ((st.listed pattern).map (st.answering base_uri).at) := by
    unfold SharedStorage.listed SharedStorage.answering
    rcases hnames with ⟨rfl, hscheme⟩ | ⟨e, he, rfl⟩
    · refine st.relative_ok _ _ ?_
      obtain ⟨rest, hrest⟩ := glob_prefix base_uri
      cases hdir : beforeFirst "://".toList (glob_list_params base_uri).1 with
      | none => rfl
      | some scheme =>
        have hsome := beforeFirst_append hdir rest
        rw [hrest, hscheme] at hsome
        cases hsome
    · rw [glob_list_params_at]
      exact st.absolute_ok e he _ _
  have hlast : lastPart '/' base_uri = lastPart '/' pattern := by
    rcases hnames with ⟨rfl, _⟩ | ⟨e, _, rfl⟩
    · rfl
    · exact lastPart_at e pattern
  have hmem : '*' ∈ base_uri := by
    rcases hnames with ⟨rfl, _⟩ | ⟨e, _, rfl⟩
    · exact hstar
    · exact List.mem_append_right _ hstar
  unfold prefetch_uris_multi_endpoint
  rw [if_pos hmem, hlist, hlast]
  show Except.ok _ = Except.ok _
  rw [List.filter_map]
  congr 2
  refine List.filter_congr fun key _ => ?_
  rw [Bool.eq_iff_iff]
  exact search_gap

/-- An object that fits the pattern has a part that fits the last component. -/
theorem search_of_fits (e : Endpoint) (h : isMatch (ofGlob pattern) key = true) :
    search (ofGlob (lastPart '/' pattern)) (e.at key) = true := by
  rw [← throughLast_append_lastPart '/' pattern] at h
  obtain ⟨u, t, rfl, ht⟩ := search_of_isMatch h
  refine search_iff.mpr ⟨t, ?_, ht⟩
  exact ((List.suffix_append u t).trans (List.suffix_append _ _)).isInfix

/-- The selections differ in the objects with a part that fits by chance. -/
theorem selects_alike_iff (he : e ∈ st.endpoints) (hnames : st.Names base_uri pattern)
    (hstar : '*' ∈ pattern) : st.SelectsAlike e base_uri pattern ↔
      ∀ key ∈ st.listed pattern,
        search (ofGlob (lastPart '/' pattern)) ((st.answering base_uri).at key) = true →
          isMatch (ofGlob pattern) key = true := by
  have hsingle : ∀ key, e.at key ∈ ((st.listed pattern).filter (isMatch (ofGlob pattern))).map e.at ↔
      key ∈ st.listed pattern ∧ isMatch (ofGlob pattern) key = true := by
    intro key
    rw [List.mem_map_of_injective fun _ _ h => Endpoint.at_inj.mp h, List.mem_filter]
  have hmulti : ∀ key, (st.answering base_uri).at key ∈ ((st.listed pattern).filter fun key =>
      search (ofGlob (lastPart '/' pattern)) ((st.answering base_uri).at key)).map
        (st.answering base_uri).at ↔ key ∈ st.listed pattern ∧
          search (ofGlob (lastPart '/' pattern)) ((st.answering base_uri).at key) = true := by
    intro key
    rw [List.mem_map_of_injective fun _ _ h => Endpoint.at_inj.mp h, List.mem_filter]
  unfold SharedStorage.SelectsAlike
  rw [backend_selects he hstar, endpoint_selects hnames hstar]
  constructor
  · rintro ⟨_, _, hok, hok', h⟩ key hkey hsearch
    cases hok
    cases hok'
    have hin := (h key).mp ((hmulti key).mpr ⟨hkey, hsearch⟩)
    exact ((hsingle key).mp hin).2
  · intro h
    refine ⟨_, _, rfl, rfl, fun key => ?_⟩
    rw [hsingle, hmulti]
    constructor
    · rintro ⟨hkey, hsearch⟩
      exact ⟨hkey, h key hkey hsearch⟩
    · rintro ⟨hkey, hfits⟩
      exact ⟨hkey, search_of_fits _ hfits⟩

/-! ### One endpoint -/

/-- A storage with one endpoint: its prefixes are taken with and without the endpoint. -/
def SharedStorage.ofEndpoint (e : Endpoint) (objects : List Path) : SharedStorage where
  objects := objects
  endpoints := [e]
  create_store_with_logger _ := .ok fun dir recursive => .ok
    ((keysUnder objects (( strip_prefix (withSlash e.uri) dir).getD dir) recursive).map e.at)
  list dir recursive := .ok
    ((keysUnder objects (( strip_prefix (withSlash e.uri) dir).getD dir) recursive).map e.at)
  multi_list dir recursive := .ok
    ((keysUnder objects (( strip_prefix (withSlash e.uri) dir).getD dir) recursive).map e.at)
  answers _ _ := e
  answers_mem _ _ := List.mem_singleton_self e
  create_ok _ _ _ := rfl
  list_ok e' he dir recursive := by
    rw [List.mem_singleton.mp he]
    unfold Endpoint.at joinUri
    rw [strip_prefix_append]
    rfl
  relative_ok dir recursive hscheme := by
    cases hstrip : strip_prefix (withSlash e.uri) dir with
    | none => rfl
    | some key =>
      have hdir := eq_of_strip_prefix hstrip
      have hsome : beforeFirst "://".toList dir = some e.scheme := by
        rw [hdir]
        unfold withSlash
        split
        · exact beforeFirst_append e.has_scheme key
        · rw [List.append_assoc]
          exact beforeFirst_append e.has_scheme _
      rw [hscheme] at hsome
      cases hsome
  absolute_ok e' he dir recursive := by
    rw [List.mem_singleton.mp he]
    unfold Endpoint.at joinUri
    rw [strip_prefix_append]
    rfl

def bucket : Endpoint where
  uri := "s3://bucket/".toList
  scheme := "s3".toList
  has_scheme := by decide
  no_star := by decide

theorem prepared_objects_alike : (SharedStorage.ofEndpoint bucket
    ["data/prepared-1.dat".toList, "data/other-1.dat".toList]).SelectsAlike bucket
      "data/prepared-*.dat".toList "data/prepared-*.dat".toList :=
  (selects_alike_iff (List.mem_singleton_self bucket) (.inl ⟨rfl, by decide⟩) (by decide)).mpr
    (by decide)

/-- A name that goes on after the pattern: it is selected with all endpoints, not with one. -/
theorem a_backup_not_alike : ¬ ∀ (st : SharedStorage) (e : Endpoint) (base_uri pattern : Path),
    e ∈ st.endpoints → st.Names base_uri pattern → '*' ∈ pattern →
      st.SelectsAlike e base_uri pattern := by
  intro h
  obtain ⟨single, multi, hsingle, hmulti, halike⟩ :=
    h (.ofEndpoint bucket ["data/prepared-1.dat.bak".toList]) bucket "data/prepared-*.dat".toList
      "data/prepared-*.dat".toList (List.mem_singleton_self bucket) (.inl ⟨rfl, by decide⟩)
      (by decide)
  rw [backend_selects (List.mem_singleton_self bucket) (by decide)] at hsingle
  rw [endpoint_selects (.inl ⟨rfl, by decide⟩) (by decide)] at hmulti
  cases hsingle
  cases hmulti
  exact absurd ((halike "data/prepared-1.dat.bak".toList).mp (by decide)) (by decide)

end sai3_bench.workload
