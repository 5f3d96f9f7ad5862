-- Listing the objects that exist (prepare/listing.rs): the items of a stream
-- are counted, and the numbers of the files are read from their names.
import Mathlib.Data.Finset.Basic
import Sai3Bench.DirectoryTrees

namespace sai3_bench.prepare

open directory_tree texts

/-! ## The number in a name -/

/-- The number of a file, in one of the three forms of names. -/
def file_index (path : Path) : Option Nat :=
  let filename := lastPart '/' path
  let between (name : Path) := ( strip_prefix name filename).bind (strip_suffix ".dat".toList)
  match between "file_".toList with
  | some idx_str => parse_u64 idx_str
  | none => match between "prepared-".toList with
    | some idx_str => parse_u64 idx_str
    | none => match between "deletable-".toList with
      | some idx_str => parse_u64 idx_str
      | none => none

structure ListingResult where
  file_count : Nat := 0
  indices : Finset Nat := ∅
  dirs_listed : Nat := 0
  errors_encountered : Nat := 0
  aborted : Bool := false

def process_list_item (path : Path) (result : ListingResult) : ListingResult :=
  let result := { result with file_count := result.file_count + 1 }
  match file_index path with
  | some idx => { result with indices := insert idx result.indices }
  | none => result

/-! ## Errors -/

def DEFAULT_LISTING_MAX_ERRORS : Nat := 50

def DEFAULT_LISTING_MAX_CONSECUTIVE_ERRORS : Nat := 5

structure ListingErrorTracker where
  total_errors : Nat := 0
  consecutive_errors : Nat := 0
  error_messages : List String := []

namespace ListingErrorTracker

def record_success (t : ListingErrorTracker) : ListingErrorTracker :=
  { t with consecutive_errors := 0 }

def record_error (t : ListingErrorTracker) (error_msg : String) : ListingErrorTracker :=
  { total_errors := t.total_errors + 1
    consecutive_errors := t.consecutive_errors + 1
    error_messages :=
      if t.error_messages.length < 20 then t.error_messages ++ [error_msg] else t.error_messages }

def should_abort (t : ListingErrorTracker) : Bool :=
  DEFAULT_LISTING_MAX_ERRORS ≤ t.total_errors ||
    DEFAULT_LISTING_MAX_CONSECUTIVE_ERRORS ≤ t.consecutive_errors

end ListingErrorTracker

/-! ## The streams of a listing -/

/-- What a listing has read so far. -/
structure Scan where
  result : ListingResult := {}
  tracker : ListingErrorTracker := {}

/-- The items of a stream: an error is counted, too many of them end the listing. -/
def scan (uri : Path) : Scan → List (Except String Path) → Scan
  | s, [] => s
  | s, .ok path :: items =>
    scan uri { tracker := s.tracker.record_success, result := process_list_item path s.result } items
  | s, .error e :: items =>
    let tracker := s.tracker.record_error s!"{String.ofList uri}: {e}"
    let result := { s.result with errors_encountered := tracker.total_errors }
    if tracker.should_abort then { tracker := tracker, result := { result with aborted := true } }
    else scan uri { tracker := tracker, result := result } items

/-- The directories of an agent, one after the other. -/
def scanDirs (stream : Path → List (Except String Path)) (list_base : Path) :
    Scan → List Path → Scan
  | s, [] => s
  | s, dir_path :: dirs =>
    let dir_uri := list_base ++ dir_path ++ ['/']
    let s := scan dir_uri s (stream dir_uri)
    if s.result.aborted then s
    else scanDirs stream list_base
      { s with result := { s.result with dirs_listed := s.result.dirs_listed + 1 } } dirs

/-- With a slash at the end. -/
def withSlash (uri : Path) : Path := if uri.getLast? = some '/' then uri else uri ++ ['/']

theorem withSlash_ends (uri : Path) : (withSlash uri).getLast? = some '/' := by
  unfold withSlash
  split
  · assumption
  · simp

theorem withSlash_of_ends {uri : Path} (h : uri.getLast? = some '/') : withSlash uri = uri := if_pos h

theorem withSlash_append {r s : Path} (h : s ≠ []) : withSlash (r ++ s) = r ++ withSlash s := by
  unfold withSlash
  rw [List.getLast?_append_of_ne_nil r h]
  split
  · rfl
  · rw [List.append_assoc]

theorem prefix_withSlash {uri : Path} : uri <+: withSlash uri := by
  unfold withSlash
  split
  · exact List.prefix_rfl
  · exact List.prefix_append _ _

/-- `stream uri` is what the store lists under `uri`. -/
def list_existing_objects_distributed (stream : Path → List (Except String Path)) (base_uri : Path)
    (tree_manifest : Option TreeManifest) (agent_id num_agents : Nat) :
    Except String ListingResult :=
  let list_base := withSlash base_uri
  let s := match tree_manifest with
    | some manifest =>
      if 1 < num_agents then scanDirs stream list_base {} (manifest.get_agent_dirs agent_id)
      else scan list_base {} (stream list_base)
    | none => scan list_base {} (stream list_base)
  if s.result.aborted then
    let sample_errors := "; ".intercalate (s.tracker.error_messages.take 3)
    .error s!"Listing aborted after {s.result.errors_encountered} errors (found {s.result.file_count} files so far). Sample errors: {sample_errors}"
  else .ok s.result

/-! ## Listings without errors -/

/-- The streams of a store whose listings succeed. -/
def succeeds (list : Path → List Path) (uri : Path) : List (Except String Path) :=
  (list uri).map .ok

/-- All that an agent lists. -/
def listedPaths (list : Path → List Path) (base_uri : Path) (tree_manifest : Option TreeManifest)
    (agent_id num_agents : Nat) : List Path :=
  let list_base := withSlash base_uri
  match tree_manifest with
  | some manifest =>
    if 1 < num_agents then
      (manifest.get_agent_dirs agent_id).flatMap fun dir_path => list (list_base ++ dir_path ++ ['/'])
    else list list_base
  | none => list list_base

/-- The numbers in the names of some paths. -/
def parsedIndices (paths : List Path) : Finset Nat := (paths.filterMap file_index).toFinset

theorem mem_parsedIndices {paths : List Path} {i : Nat} :
    i ∈ parsedIndices paths ↔ ∃ path ∈ paths, file_index path = some i := by
  unfold parsedIndices
  rw [List.mem_toFinset, List.mem_filterMap]

variable {s : Scan} {paths : List Path}

/-- What a result has counted. -/
def Counts (r : ListingResult) (paths : List Path) : Prop :=
  r.file_count = paths.length ∧ r.indices = parsedIndices paths ∧ r.aborted = false

theorem counts_item {r : ListingResult} {path : Path} (h : Counts r paths) :
    Counts (process_list_item path r) (paths ++ [path]) := by
  obtain ⟨hcount, hindices, habort⟩ := h
  have hlen : r.file_count + 1 = (paths ++ [path]).length := by
    rw [hcount, List.length_append]
    rfl
  unfold process_list_item
  dsimp only
  cases hidx : file_index path with
  | none =>
    refine ⟨hlen, ?_, habort⟩
    unfold parsedIndices at hindices ⊢
    rw [List.filterMap_append, List.filterMap_cons, hidx, List.filterMap_nil, List.append_nil]
    exact hindices
  | some idx =>
    refine ⟨hlen, ?_, habort⟩
    ext i
    rw [Finset.mem_insert, hindices, mem_parsedIndices, mem_parsedIndices]
    constructor
    · rintro (rfl | ⟨p, hp, hi⟩)
      · exact ⟨path, by simp, hidx⟩
      · exact ⟨p, by simp [hp], hi⟩
    · rintro ⟨p, hp, hi⟩
      rcases List.mem_append.mp hp with hp | hp
      · exact .inr ⟨p, hp, hi⟩
      · rw [List.mem_singleton.mp hp, hidx] at hi
        cases hi
        exact .inl rfl

theorem counts_scan (uri : Path) {before : List Path} (h : Counts s.result before) :
    Counts (scan uri s (paths.map .ok)).result (before ++ paths) := by
  induction paths generalizing s before with
  | nil => simpa [scan] using h
  | cons path paths ih =>
    let next : Scan :=
      { tracker := s.tracker.record_success, result := process_list_item path s.result }
    have hitem : Counts next.result (before ++ [path]) := counts_item h
    have hnext := ih hitem
    rw [List.append_assoc] at hnext
    exact hnext

theorem counts_scanDirs (list : Path → List Path) (list_base : Path) {dirs before : List Path}
    (h : Counts s.result before) :
    Counts (scanDirs (succeeds list) list_base s dirs).result
      (before ++ dirs.flatMap fun dir_path => list (list_base ++ dir_path ++ ['/'])) := by
  induction dirs generalizing s before with
  | nil => simpa [scanDirs] using h
  | cons dir_path dirs ih =>
    have hscan : Counts (scan (list_base ++ dir_path ++ ['/']) s
          ((list (list_base ++ dir_path ++ ['/'])).map .ok)).result
        (before ++ list (list_base ++ dir_path ++ ['/'])) :=
      counts_scan _ h
    unfold scanDirs
    dsimp only
    unfold succeeds at ih ⊢
    rw [if_neg (Bool.eq_false_iff.mp hscan.2.2), List.flatMap_cons, ← List.append_assoc]
    exact ih hscan

/-- A listing without errors counts all that is listed. -/
theorem listing_succeeds (list : Path → List Path) (base_uri : Path)
    (tree_manifest : Option TreeManifest) (agent_id num_agents : Nat) :
    ∃ r, list_existing_objects_distributed (succeeds list) base_uri tree_manifest agent_id
        num_agents = .ok r ∧
      Counts r (listedPaths list base_uri tree_manifest agent_id num_agents) := by
  have hempty : Counts ({} : Scan).result [] := ⟨rfl, rfl, rfl⟩
  unfold list_existing_objects_distributed listedPaths
  dsimp only
  cases tree_manifest with
  | none =>
    have h : Counts (scan (withSlash base_uri) {} ((list (withSlash base_uri)).map .ok)).result
        ([] ++ list (withSlash base_uri)) := counts_scan _ hempty
    refine ⟨_, if_neg ?_, h⟩
    exact Bool.eq_false_iff.mp h.2.2
  | some manifest =>
    dsimp only
    by_cases hn : 1 < num_agents
    · have h : Counts (scanDirs (succeeds list) (withSlash base_uri) {}
            (manifest.get_agent_dirs agent_id)).result
          ([] ++ (manifest.get_agent_dirs agent_id).flatMap fun dir_path =>
            list (withSlash base_uri ++ dir_path ++ ['/'])) :=
        counts_scanDirs list _ hempty
      simp only [if_pos hn]
      exact ⟨_, if_neg (Bool.eq_false_iff.mp h.2.2), h⟩
    · have h : Counts (scan (withSlash base_uri) {} ((list (withSlash base_uri)).map .ok)).result
          ([] ++ list (withSlash base_uri)) := counts_scan _ hempty
      simp only [if_neg hn]
      exact ⟨_, if_neg (Bool.eq_false_iff.mp h.2.2), h⟩

end sai3_bench.prepare
