-- What a cleanup deletes (cleanup.rs, prepare/cleanup.rs): the objects of its list,
-- and what the sweep of the first one finds beside them.
import Sai3Bench.PrepareTurns
import Sai3Bench.RunConfigs

namespace sai3_bench.cleanup

open directory_tree texts
open prepare (PreparedObject)
open config.written (CleanupMode)

/-! ## The store -/

def full_uri (base_uri obj_path : Path) : Path :=
  if contains "://".toList obj_path then obj_path else base_uri ++ obj_path

/-- The store of a cleanup. A listing has the stored objects that the store counts
as those under the address. -/
structure ObjectStore where
  delete : List Path → Path → Except Path Unit
  list : List Path → Path → Except Path (List Path)
  under : Path → Path → Bool
  list_ok : ∀ {stored base_uri paths}, list stored base_uri = .ok paths →
    ∀ uri, uri ∈ paths.map (full_uri base_uri) ↔ uri ∈ stored ∧ under base_uri uri = true

/-- What is stored, and the addresses that were deleted so far. -/
structure Storage where
  stored : List Path
  deletes : List Path := []

/-- The order in which tasks that run at once are done. -/
structure Schedule where
  order : List PreparedObject → List PreparedObject
  perm : ∀ objects, (order objects).Perm objects

def Storage.delete (store : ObjectStore) (uri : Path) (st : Storage) : Except Path Unit × Storage :=
  let outcome := store.delete st.stored uri
  (outcome,
    { stored := match outcome with
        | .ok _ => st.stored.filter (· ≠ uri)
        | .error _ => st.stored
      deletes := st.deletes ++ [uri] })

def is_not_found (texts : List String) (e : Path) : Bool :=
  texts.any fun text => contains text.toList (e.map Char.toLower)

/-! ## The cleanup of the agents -/

inductive DeleteResult
  | Success
  | AlreadyDeleted
  | Error
deriving DecidableEq, Repr

def delete_result (cleanup_mode : CleanupMode) (uri : Path) :
    Except Path Unit → Except String DeleteResult
  | .ok _ => .ok .Success
  | .error e =>
    if is_not_found ["not found", "no such", "404"] e then match cleanup_mode with
      | .Strict => .error s!"Object not found (strict mode): {String.ofList uri}"
      | .Tolerant | .BestEffort => .ok .AlreadyDeleted
    else match cleanup_mode with
      | .Strict | .Tolerant => .error s!"Failed to delete {String.ofList uri}: {String.ofList e}"
      | .BestEffort => .ok .Error

def delete_objects (store : ObjectStore) (cleanup_mode : CleanupMode) :
    List PreparedObject → Storage → List (Except String DeleteResult) × Storage
  | [], st => ([], st)
  | obj :: objects, st =>
    let (outcome, st) := st.delete store obj.uri
    let (results, st) := delete_objects store cleanup_mode objects st
    (delete_result cleanup_mode obj.uri outcome :: results, st)

/-- The error that ends a strict cleanup. -/
def strict_error (cleanup_mode : CleanupMode) (results : List (Except String DeleteResult)) :
    Option String :=
  if cleanup_mode = .Strict then results.findSome? fun
    | .ok _ => none
    | .error e => some e
  else none

/-- The address that is swept: the first one as far as the root of the tree. -/
def sweep_base (objects : List PreparedObject) (tree_manifest : Option TreeManifest)
    (agent_id : Nat) : Option Path :=
  if agent_id = 0 then
    tree_manifest.bind fun manifest => objects.head?.bind fun obj =>
      manifest.all_directories.head?.bind fun root_dir => beforeFirst root_dir obj.uri
  else none

def sweep (store : ObjectStore) (base_uri : Path) (st : Storage) : Storage :=
  match store.list st.stored base_uri with
  | .ok remaining =>
    remaining.foldl (fun st obj_path => (st.delete store (full_uri base_uri obj_path)).2) st
  | .error _ => st

def cleanup_prepared_objects (create_store_for_uri : Path → Except Path ObjectStore)
    (schedule : Schedule) (objects : List PreparedObject) (tree_manifest : Option TreeManifest)
    (agent_id : Nat) (cleanup_mode : CleanupMode) (st : Storage) : Except String Unit × Storage :=
  match objects with
  | [] => (.ok (), st)
  | first :: _ => match create_store_for_uri first.uri with
    | .error _ => (.error "Failed to create object store for cleanup", st)
    | .ok store =>
      let (results, st) := delete_objects store cleanup_mode (schedule.order objects) st
      match strict_error cleanup_mode results with
      | some e => (.error e, st)
      | none => match sweep_base objects tree_manifest agent_id with
        | some base_uri => (.ok (), sweep store base_uri st)
        | none => (.ok (), st)

end sai3_bench.cleanup

namespace sai3_bench.prepare

open directory_tree texts cleanup
open config.written (CleanupMode)

/-! ## The cleanup of the prepare phase -/

/-- The number between the dash and the dot of a name. The slice panics when the dot
comes first. -/
def name_index (filename : Path) : Option (Option Nat) :=
  match beforeFirst ['-'] filename, beforeFirst ['.'] filename with
  | some before_dash, some before_dot =>
    if before_dash.length + 1 ≤ before_dot.length then
      some (parse_u64 (before_dot.drop (before_dash.length + 1)))
    else none
  | _, _ => some none

def flat_share (agent_id num_agents : Nat) (obj : PreparedObject) : Option Bool :=
  if !obj.created then some false
  else if num_agents ≤ 1 then some true
  else if '/' ∈ obj.uri then (name_index (lastPart '/' obj.uri)).map fun
    | some file_index => file_index % num_agents = agent_id
    | none => false
  else some false

def get_agent_file_paths (m : TreeManifest) (agent_id num_agents : Nat) : List Path :=
  ((List.range m.total_files).filter fun idx =>
    decide (num_agents ≤ 1) || idx % num_agents = agent_id).filterMap m.get_file_path

def tree_share (my_paths : List Path) (obj : PreparedObject) : Bool :=
  obj.created && decide ('/' ∈ obj.uri) &&
    my_paths.any fun p => (lastPart '/' obj.uri).isSuffixOf p

/-- The objects of one agent, when no name makes the filter panic. -/
def my_objects (objects : List PreparedObject) (tree_manifest : Option TreeManifest)
    (agent_id num_agents : Nat) : Option (List PreparedObject) :=
  match tree_manifest with
  | some manifest =>
    some (objects.filter (tree_share (get_agent_file_paths manifest agent_id num_agents)))
  | none =>
    if objects.any fun obj => (flat_share agent_id num_agents obj).isNone then none
    else some (objects.filter fun obj => flat_share agent_id num_agents obj = some true)

/-- The task of one object, and the errors that it counts. -/
def delete_object (create_store_for_uri : Path → Except Path ObjectStore)
    (cleanup_mode : CleanupMode) (obj : PreparedObject) (st : Storage) : Nat × Storage :=
  match create_store_for_uri obj.uri with
  | .error _ => (1, st)
  | .ok store =>
    let (outcome, st) := st.delete store obj.uri
    let errors := match outcome with
      | .ok _ => 0
      | .error e =>
        if is_not_found ["not found", "404", "nosuchkey", "does not exist"] e then
          if cleanup_mode = .Strict then 1 else 0
        else 1
    (errors, st)

def delete_errors (create_store_for_uri : Path → Except Path ObjectStore)
    (cleanup_mode : CleanupMode) : List PreparedObject → Storage → Nat × Storage
  | [], st => (0, st)
  | obj :: objects, st =>
    let (errors, st) := delete_object create_store_for_uri cleanup_mode obj st
    let (final_errors, st) := delete_errors create_store_for_uri cleanup_mode objects st
    (errors + final_errors, st)

/-- No result at all: the call panics before the first object is deleted. -/
def cleanup_prepared_objects (create_store_for_uri : Path → Except Path ObjectStore)
    (schedule : Schedule) (objects : List PreparedObject) (tree_manifest : Option TreeManifest)
    (agent_id num_agents : Nat) (cleanup_mode : CleanupMode) (st : Storage) :
    Option (Except String Unit) × Storage :=
  match my_objects objects tree_manifest agent_id num_agents with
  | none => (none, st)
  | some objects =>
    let (final_errors, st) :=
      delete_errors create_store_for_uri cleanup_mode (schedule.order objects) st
    if cleanup_mode = .Strict ∧ 0 < final_errors then
      (some (.error s!"Cleanup failed with {final_errors} errors (strict mode)"), st)
    else (some (.ok ()), st)

end sai3_bench.prepare

namespace sai3_bench.cleanup

open directory_tree texts
open prepare (PreparedObject)
open config.written (CleanupMode)

/-! ## What a cleanup may delete -/

/-- The address is that of a directory of the manifest, or inside one. -/
def InTree (base_uri : Path) (tree_manifest : Option TreeManifest) (uri : Path) : Prop :=
  ∃ manifest, tree_manifest = some manifest ∧ ∃ dir_path ∈ manifest.all_directories,
    ∃ rest, uri = prepare.withSlash base_uri ++ dir_path ++ rest ∧ (rest = [] ∨ rest.head? = some '/')

/-- What was prepared: the objects of the list, and the tree of the manifest. -/
def Prepared (base_uri : Path) (objects : List PreparedObject) (tree_manifest : Option TreeManifest)
    (uri : Path) : Prop :=
  uri ∈ objects.map (·.uri) ∨ InTree base_uri tree_manifest uri

/-- Only allowed addresses are deleted, every other object is still stored. -/
def Spares (allowed : Path → Prop) (stored : List Path) (st : Storage) : Prop :=
  (∀ uri ∈ st.deletes, allowed uri) ∧ ∀ uri ∈ stored, ¬ allowed uri → uri ∈ st.stored

/-- The sweep is reached, and the store answers its listing. -/
def Sweeps (create_store_for_uri : Path → Except Path ObjectStore) (schedule : Schedule)
    (objects : List PreparedObject) (tree_manifest : Option TreeManifest) (agent_id : Nat)
    (cleanup_mode : CleanupMode) (stored : List Path) (store : ObjectStore) (base_uri : Path) :
    Prop :=
  ∃ first rest, objects = first :: rest ∧ create_store_for_uri first.uri = .ok store ∧
    sweep_base objects tree_manifest agent_id = some base_uri ∧
    let run := delete_objects store cleanup_mode (schedule.order objects) ⟨stored, []⟩
    strict_error cleanup_mode run.1 = none ∧ ∃ paths, store.list run.2.stored base_uri = .ok paths

/-! ## What is gone was deleted -/

/-- What is no longer stored was deleted. -/
def Tracks (stored : List Path) (st : Storage) : Prop :=
  st.stored ⊆ stored ∧ ∀ uri ∈ stored, uri ∈ st.stored ∨ uri ∈ st.deletes

variable {stored : List Path} {st : Storage} {store : ObjectStore} {uri : Path}

theorem tracks_start (stored : List Path) : Tracks stored ⟨stored, []⟩ := ⟨fun _ h => h, fun _ h => .inl h⟩

theorem tracks_delete (h : Tracks stored st) : Tracks stored (st.delete store uri).2 := by
  obtain ⟨hsub, hgone⟩ := h
  unfold Storage.delete
  cases store.delete st.stored uri with
  | error e =>
    refine ⟨hsub, fun u hu => ?_⟩
    rcases hgone u hu with hin | hdel
    · exact .inl hin
    · exact .inr (List.mem_append_left _ hdel)
  | ok _ =>
    refine ⟨fun u hu => hsub (List.mem_filter.mp hu).1, fun u hu => ?_⟩
    rcases hgone u hu with hin | hdel
    · by_cases hue : u = uri
      · exact .inr (List.mem_append_right _ (List.mem_singleton.mpr hue))
      · exact .inl (List.mem_filter.mpr ⟨hin, decide_eq_true hue⟩)
    · exact .inr (List.mem_append_left _ hdel)

/-- It is enough to know what is deleted. -/
theorem spares_iff {allowed : Path → Prop} (h : Tracks stored st) :
    Spares allowed stored st ↔ ∀ uri ∈ st.deletes, allowed uri := by
  constructor
  · rintro ⟨hdel, _⟩
    exact hdel
  · intro hdel
    refine ⟨hdel, fun u hu hnot => ?_⟩
    rcases h.2 u hu with hin | hgone
    · exact hin
    · exact absurd (hdel u hgone) hnot

theorem delete_objects_tracks (store : ObjectStore) (mode : CleanupMode)
    (objects : List PreparedObject) (h : Tracks stored st) :
    Tracks stored (delete_objects store mode objects st).2 := by
  induction objects generalizing st with
  | nil => exact h
  | cons obj objects ih => exact ih (tracks_delete h)

theorem delete_objects_deletes {mode : CleanupMode} {objects : List PreparedObject} :
    (delete_objects store mode objects st).2.deletes = st.deletes ++ objects.map (·.uri) := by
  induction objects generalizing st with
  | nil => exact (List.append_nil _).symm
  | cons obj objects ih =>
    refine ih.trans ?_
    show (st.deletes ++ [obj.uri]) ++ objects.map (·.uri) = _
    rw [List.append_assoc]
    rfl

theorem foldl_tracks {base_uri : Path} {paths : List Path} (h : Tracks stored st) :
    Tracks stored (paths.foldl (fun st p => (st.delete store (full_uri base_uri p)).2) st) := by
  induction paths generalizing st with
  | nil => exact h
  | cons p paths ih => exact ih (tracks_delete h)

theorem foldl_deletes {base_uri : Path} {paths : List Path} :
    (paths.foldl (fun st p => (st.delete store (full_uri base_uri p)).2) st).deletes =
      st.deletes ++ paths.map (full_uri base_uri) := by
  induction paths generalizing st with
  | nil => exact (List.append_nil _).symm
  | cons p paths ih =>
    refine ih.trans ?_
    show (st.deletes ++ [full_uri base_uri p]) ++ paths.map (full_uri base_uri) = _
    rw [List.append_assoc]
    rfl

theorem sweep_tracks {base_uri : Path} (h : Tracks stored st) :
    Tracks stored (sweep store base_uri st) := by
  unfold sweep
  split
  · exact foldl_tracks h
  · exact h

/-- The sweep deletes all that is stored under its address. -/
theorem mem_sweep_deletes {base_uri : Path} {paths : List Path}
    (hlist : store.list st.stored base_uri = .ok paths) :
    uri ∈ (sweep store base_uri st).deletes ↔
      uri ∈ st.deletes ∨ uri ∈ st.stored ∧ store.under base_uri uri = true := by
  have hdel : (sweep store base_uri st).deletes = st.deletes ++ paths.map (full_uri base_uri) := by
    unfold sweep
    rw [hlist]
    exact foldl_deletes
  rw [hdel, List.mem_append, store.list_ok hlist uri]

/-- The deletions of the list are those of its objects, in some order. -/
theorem mem_list_deletes (store : ObjectStore) (stored : List Path) (mode : CleanupMode)
    (objects : List PreparedObject) (schedule : Schedule) (uri : Path) :
    uri ∈ (delete_objects store mode (schedule.order objects) ⟨stored, []⟩).2.deletes ↔
      uri ∈ objects.map (·.uri) := by
  rw [delete_objects_deletes, List.nil_append]
  exact ((schedule.perm objects).map _).mem_iff

/-! ## The cleanup of the agents -/

variable {create_store_for_uri : Path → Except Path ObjectStore} {schedule : Schedule}
  {objects : List PreparedObject} {tree_manifest : Option TreeManifest} {agent_id : Nat}
  {mode : CleanupMode}

theorem sweeps_unique {store' : ObjectStore} {swept swept' : Path}
    (h : Sweeps create_store_for_uri schedule objects tree_manifest agent_id mode stored store swept)
    (h' : Sweeps create_store_for_uri schedule objects tree_manifest agent_id mode stored store'
      swept') : store = store' ∧ swept = swept' := by
  obtain ⟨first, _, hcons, hstore, hbase, _⟩ := h
  obtain ⟨first', _, hcons', hstore', hbase', _⟩ := h'
  cases hcons.symm.trans hcons'
  exact ⟨Except.ok.inj (hstore.symm.trans hstore'), Option.some.inj (hbase.symm.trans hbase')⟩

/-- A cleanup that does not sweep deletes at most the objects of its list. -/
theorem cleanup_cases {result : Except String Unit} {after : Storage}
    (h : cleanup_prepared_objects create_store_for_uri schedule objects tree_manifest agent_id mode
      ⟨stored, []⟩ = (result, after)) :
    Tracks stored after ∧
      ((∀ uri ∈ after.deletes, uri ∈ objects.map (·.uri)) ∧
          (∀ store swept, ¬ Sweeps create_store_for_uri schedule objects tree_manifest agent_id mode
            stored store swept) ∨
        ∃ store swept, Sweeps create_store_for_uri schedule objects tree_manifest agent_id mode
            stored store swept ∧
          after = sweep store swept
            (delete_objects store mode (schedule.order objects) ⟨stored, []⟩).2) := by
  cases objects with
  | nil =>
    cases h
    refine ⟨tracks_start _, .inl ⟨fun _ h => absurd h List.not_mem_nil, ?_⟩⟩
    rintro store swept ⟨_, _, hcons, _⟩
    cases hcons
  | cons first rest =>
    have hfirst : ∀ {store swept}, Sweeps create_store_for_uri schedule (first :: rest) tree_manifest
        agent_id mode stored store swept → create_store_for_uri first.uri = .ok store := by
      rintro store swept ⟨_, _, hcons, hok, _⟩
      cases hcons
      exact hok
    unfold cleanup_prepared_objects at h
    dsimp only at h
    cases hstore : create_store_for_uri first.uri with
    | error e =>
      rw [hstore] at h
      cases h
      refine ⟨tracks_start _, .inl ⟨fun _ h => absurd h List.not_mem_nil, fun store swept hs => ?_⟩⟩
      cases hstore.symm.trans (hfirst hs)
    | ok store =>
      have hsame : ∀ {store' swept}, Sweeps create_store_for_uri schedule (first :: rest)
          tree_manifest agent_id mode stored store' swept → store' = store :=
        fun hs => Except.ok.inj ((hfirst hs).symm.trans hstore)
      have htracks := delete_objects_tracks store mode (schedule.order (first :: rest))
        (tracks_start stored)
      have hlisted := fun uri =>
        (mem_list_deletes store stored mode (first :: rest) schedule uri).mp
      rw [hstore] at h
      dsimp only at h
      cases hstrict : strict_error mode
          (delete_objects store mode (schedule.order (first :: rest)) ⟨stored, []⟩).1 with
      | some e =>
        rw [hstrict] at h
        cases h
        refine ⟨htracks, .inl ⟨hlisted, fun store' swept hs => ?_⟩⟩
        cases hsame hs
        obtain ⟨_, _, _, _, _, hnone, _⟩ := hs
        cases hstrict.symm.trans hnone
      | none =>
        rw [hstrict] at h
        dsimp only at h
        cases hbase : sweep_base (first :: rest) tree_manifest agent_id with
        | none =>
          rw [hbase] at h
          cases h
          refine ⟨htracks, .inl ⟨hlisted, fun store' swept hs => ?_⟩⟩
          obtain ⟨_, _, _, _, hsome, _⟩ := hs
          cases hbase.symm.trans hsome
        | some swept =>
          rw [hbase] at h
          cases h
          refine ⟨sweep_tracks htracks, ?_⟩
          cases hlist : store.list
              (delete_objects store mode (schedule.order (first :: rest)) ⟨stored, []⟩).2.stored
              swept with
          | error e =>
            refine .inl ⟨?_, fun store' swept' hs => ?_⟩
            · unfold sweep
              rw [hlist]
              exact hlisted
            · cases hsame hs
              obtain ⟨_, _, _, _, hsome, _, paths, hpaths⟩ := hs
              cases hbase.symm.trans hsome
              cases hlist.symm.trans hpaths
          | ok paths =>
            exact .inr ⟨store, swept, ⟨first, rest, rfl, hstore, hbase, hstrict, paths, hlist⟩, rfl⟩

/-! ## The cleanup of the prepare phase -/

theorem my_objects_mem {num_agents : Nat} {mine : List PreparedObject}
    (h : prepare.my_objects objects tree_manifest agent_id num_agents = some mine)
    {obj : PreparedObject} (hobj : obj ∈ mine) : obj ∈ objects := by
  unfold prepare.my_objects at h
  split at h
  · cases h
    exact (List.mem_filter.mp hobj).1
  · split at h
    · cases h
    · cases h
      exact (List.mem_filter.mp hobj).1

/-- The task of an object deletes at most its own address. -/
theorem delete_object_keeps (create_store_for_uri : Path → Except Path ObjectStore)
    (mode : CleanupMode) (obj : PreparedObject) (h : Tracks stored st) :
    Tracks stored (prepare.delete_object create_store_for_uri mode obj st).2 ∧
      ∀ uri ∈ (prepare.delete_object create_store_for_uri mode obj st).2.deletes,
        uri ∈ st.deletes ∨ uri = obj.uri := by
  unfold prepare.delete_object
  cases create_store_for_uri obj.uri with
  | error e => exact ⟨h, fun _ hu => .inl hu⟩
  | ok store =>
    refine ⟨tracks_delete h, fun uri hu => ?_⟩
    rcases List.mem_append.mp hu with hu | hu
    · exact .inl hu
    · exact .inr (List.mem_singleton.mp hu)

theorem delete_errors_keep (create_store_for_uri : Path → Except Path ObjectStore)
    (mode : CleanupMode) (objects : List PreparedObject) (h : Tracks stored st) :
    Tracks stored (prepare.delete_errors create_store_for_uri mode objects st).2 ∧
      ∀ uri ∈ (prepare.delete_errors create_store_for_uri mode objects st).2.deletes,
        uri ∈ st.deletes ∨ uri ∈ objects.map (·.uri) := by
  induction objects generalizing st with
  | nil => exact ⟨h, fun _ hu => .inl hu⟩
  | cons obj objects ih =>
    obtain ⟨htracks, hdel⟩ := delete_object_keeps create_store_for_uri mode obj h
    obtain ⟨hrest, hlater⟩ := ih htracks
    refine ⟨hrest, fun uri hu => ?_⟩
    rcases hlater uri hu with hu | hu
    · rcases hdel uri hu with hu | rfl
      · exact .inl hu
      · exact .inr List.mem_cons_self
    · exact .inr (List.mem_cons_of_mem _ hu)

theorem prepare_cleanup_keeps {num_agents : Nat} {result : Option (Except String Unit)}
    {after : Storage} (h : prepare.cleanup_prepared_objects create_store_for_uri schedule objects
      tree_manifest agent_id num_agents mode ⟨stored, []⟩ = (result, after)) :
    Tracks stored after ∧ ∀ uri ∈ after.deletes, uri ∈ objects.map (·.uri) := by
  unfold prepare.cleanup_prepared_objects at h
  split at h
  · cases h
    exact ⟨tracks_start _, fun _ h => absurd h List.not_mem_nil⟩
  · rename_i mine hmine
    have hkeep := delete_errors_keep create_store_for_uri mode (schedule.order mine)
      (tracks_start stored)
    have hafter : after =
        (prepare.delete_errors create_store_for_uri mode (schedule.order mine) ⟨stored, []⟩).2 := by
      dsimp only at h
      split at h <;> cases h <;> rfl
    rw [hafter]
    refine ⟨hkeep.1, fun uri hu => ?_⟩
    rcases hkeep.2 uri hu with hu | hu
    · exact absurd hu List.not_mem_nil
    · obtain ⟨obj, hobj, rfl⟩ := List.mem_map.mp hu
      exact List.mem_map.mpr ⟨obj, my_objects_mem hmine ((schedule.perm mine).mem_iff.mp hobj), rfl⟩

/-! ## What is spared -/

/-- The cleanup of the prepare phase spares all that was not prepared. That of the agents
does so just when all that its sweep finds was prepared, whatever the base of the tree. -/
theorem spares_unprepared_iff (create_store_for_uri : Path → Except Path ObjectStore)
    (schedule : Schedule) (objects : List PreparedObject) (tree_manifest : Option TreeManifest)
    (agent_id num_agents : Nat) (cleanup_mode : CleanupMode) (base_uri : Path)
    (stored : List Path) :
    Spares (Prepared base_uri objects tree_manifest) stored
        (prepare.cleanup_prepared_objects create_store_for_uri schedule objects tree_manifest
          agent_id num_agents cleanup_mode ⟨stored, []⟩).2 ∧
      (Spares (Prepared base_uri objects tree_manifest) stored
          (cleanup_prepared_objects create_store_for_uri schedule objects tree_manifest agent_id
            cleanup_mode ⟨stored, []⟩).2 ↔
        ∀ store swept, Sweeps create_store_for_uri schedule objects tree_manifest agent_id
            cleanup_mode stored store swept →
          ∀ uri ∈ stored, store.under swept uri = true →
            Prepared base_uri objects tree_manifest uri) := by
  rcases hprepare : prepare.cleanup_prepared_objects create_store_for_uri schedule objects
    tree_manifest agent_id num_agents cleanup_mode ⟨stored, []⟩ with ⟨_, kept⟩
  rcases hrun : cleanup_prepared_objects create_store_for_uri schedule objects tree_manifest agent_id
    cleanup_mode ⟨stored, []⟩ with ⟨_, after⟩
  obtain ⟨hkeep, hmine⟩ := prepare_cleanup_keeps hprepare
  obtain ⟨htracks, hcases⟩ := cleanup_cases hrun
  refine ⟨(spares_iff hkeep).mpr fun uri hu => .inl (hmine uri hu), ?_⟩
  rw [spares_iff htracks]
  rcases hcases with ⟨hlisted, hnone⟩ | ⟨store, swept, hsweeps, hafter⟩
  · constructor
    · intro _ store swept hsweeps
      exact absurd hsweeps (hnone store swept)
    · intro _ uri hu
      exact .inl (hlisted uri hu)
  · have hleft := delete_objects_tracks store cleanup_mode (schedule.order objects)
      (tracks_start stored)
    obtain ⟨_, _, _, _, _, _, paths, hlist⟩ := id hsweeps
    rw [hafter]
    constructor
    · intro hall store' swept' hsweeps' uri hu hunder
      obtain ⟨rfl, rfl⟩ := sweeps_unique hsweeps hsweeps'
      -- an object that is no longer there for the sweep was one of the list
      rcases hleft.2 uri hu with hin | hdel
      · exact hall uri ((mem_sweep_deletes hlist).mpr (.inr ⟨hin, hunder⟩))
      · exact .inl ((mem_list_deletes _ _ _ _ _ _).mp hdel)
    · intro hall uri hu
      rcases (mem_sweep_deletes hlist).mp hu with hu | ⟨hu, hunder⟩
      · exact .inl ((mem_list_deletes _ _ _ _ _ _).mp hu)
      · exact hall store swept hsweeps uri (hleft.1 hu) hunder

/-! ## An object beside the tree -/

/-- A store that lists what begins with an address. -/
def prefix_store : ObjectStore where
  delete stored uri := if uri ∈ stored then .ok () else .error "Object not found".toList
  list stored base_uri :=
    if stored.all (contains "://".toList) then .ok (stored.filter base_uri.isPrefixOf)
    else .error "Not an address".toList
  under base_uri uri := base_uri.isPrefixOf uri
  list_ok {stored base_uri paths} h uri := by
    split at h
    · rename_i hall
      cases h
      have hfull : ∀ p ∈ stored.filter base_uri.isPrefixOf, full_uri base_uri p = id p :=
        fun p hp => if_pos (List.all_eq_true.mp hall p (List.mem_filter.mp hp).1)
      rw [List.map_congr_left hfull, List.map_id, List.mem_filter]
    · cases h

def in_order : Schedule := ⟨id, fun _ => .refl _⟩

def one_dir : TreeManifest := { all_directories := ["d1".toList] }

def a_file : Path := "file:///data/d1/file_00000000.dat".toList

def beside : Path := "file:///data/results.csv".toList

/-- The sweep begins before the tree, so it deletes a file that no one prepared. -/
theorem sweeps_beside_the_tree :
    ¬ Spares (Prepared "file:///data/".toList [⟨a_file, 1024, true⟩] (some one_dir))
      [a_file, beside]
      (cleanup_prepared_objects (fun _ => .ok prefix_store) in_order [⟨a_file, 1024, true⟩]
        (some one_dir) 0 .Tolerant ⟨[a_file, beside], []⟩).2 := by
  rintro ⟨hdel, _⟩
  have hmem : beside ∈ (cleanup_prepared_objects (fun _ => .ok prefix_store) in_order
      [⟨a_file, 1024, true⟩] (some one_dir) 0 .Tolerant
      ⟨[a_file, beside], []⟩).2.deletes := by decide
  rcases hdel beside hmem with hlisted | ⟨manifest, hmanifest, dir_path, hdir, rest, huri, _⟩
  · exact absurd hlisted (by decide)
  · cases hmanifest
    cases List.mem_singleton.mp hdir
    have hbefore : beside.take 14 = "file:///data/d".toList := by
      rw [huri]
      rfl
    exact absurd hbefore (by decide)

end sai3_bench.cleanup
