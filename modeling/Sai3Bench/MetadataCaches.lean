-- The cache of what prepare has made (metadata_cache.rs): a table of objects
-- for each endpoint, and how much of the objects it says are there.
import Sai3Bench.DirectoryTrees
import Sai3Bench.Tables

namespace sai3_bench.metadata_cache

open directory_tree

inductive ObjectState
  | DirectoryNonExistent
  | Planned
  | Creating
  | Created
  | Failed
  | Deleted
deriving DecidableEq, Repr

structure ObjectEntry where
  path : Path
  size : Nat
  state : ObjectState
  endpoint_idx : Nat
  created_at : Option Nat := none
  checksum : Option Nat := none
deriving DecidableEq, Repr

def ObjectEntry.new_planned (path : Path) (size endpoint_idx : Nat) : ObjectEntry :=
  { path := path, size := size, state := .Planned, endpoint_idx := endpoint_idx }

/-! ## The table of one endpoint -/

/-- The key of an object is the hash of its config and the number of its file. -/
structure EndpointCache where
  endpoint_index : Nat
  objects : AList fun _ : String × Nat => ObjectEntry := ∅

namespace EndpointCache

/-- The object is there, at `now` when no other time is given. An entry that
stands keeps its path and its size. -/
def record_created (c : EndpointCache) (config_hash : String) (file_idx : Nat) (path : Path)
    (size : Nat) (created_at checksum : Option Nat) (now : Nat) : EndpointCache :=
  let key := (config_hash, file_idx)
  let timestamp := created_at.getD now
  let entry := (c.objects.lookup key).getD (ObjectEntry.new_planned path size c.endpoint_index)
  let entry := { entry with
    state := .Created, created_at := some timestamp, checksum := checksum }
  { c with objects := c.objects.insert key entry }

def get_object (c : EndpointCache) (config_hash : String) (file_idx : Nat) : Option ObjectEntry :=
  c.objects.lookup (config_hash, file_idx)

/-- The objects of a config in one state. -/
def count_by_state (c : EndpointCache) (config_hash : String) (state : ObjectState) : Nat :=
  c.objects.entries.countP fun e => e.1.1 = config_hash && e.2.state = state

/-- The objects of a config, in any state. -/
def count_tracked (c : EndpointCache) (config_hash : String) : Nat :=
  c.objects.entries.countP fun e => e.1.1 = config_hash

variable {c : EndpointCache} {config_hash : String} {i j : Nat} {path : Path} {size now : Nat}

theorem get_object_record : (c.record_created config_hash i path size none none now).get_object
    config_hash j =
      if j = i then some { ((c.get_object config_hash i).getD
          (ObjectEntry.new_planned path size c.endpoint_index)) with
        state := .Created, created_at := some now, checksum := none }
      else c.get_object config_hash j := by
  unfold record_created get_object
  dsimp only
  rw [AList.lookup_insert_if]
  simp only [Prod.mk.injEq, true_and, Option.getD_none]

end EndpointCache

/-! ## The tables of all endpoints -/

/-- There is a table for each endpoint, and an endpoint. -/
structure MetadataCache where
  endpoints : List EndpointCache
  config_hash : String
  some_endpoint : endpoints ≠ []

/-- How many objects are in which state. -/
structure CheckpointCoverage where
  created_count : Nat
  planned_count : Nat
  failed_count : Nat
  total_tracked : Nat
  expected_count : Nat
  covers_all : Bool

namespace MetadataCache

/-- The endpoint of a file, in turn. -/
def endpoint_for_file (m : MetadataCache) (file_idx : Nat) : Option EndpointCache :=
  m.endpoints[file_idx % m.endpoints.length]?

/-- What is kept of the object with a number. -/
def get_object (m : MetadataCache) (file_idx : Nat) : Option ObjectEntry :=
  (m.endpoint_for_file file_idx).bind (·.get_object m.config_hash file_idx)

/-- An object was put: the table of its endpoint has it. -/
def record_created (m : MetadataCache) (file_idx : Nat) (uri : Path) (size now : Nat) :
    MetadataCache :=
  { m with
    endpoints := m.endpoints.modify (file_idx % m.endpoints.length)
      (·.record_created m.config_hash file_idx uri size none none now)
    some_endpoint := by
      have h := m.some_endpoint
      rw [ne_eq, ← List.length_eq_zero_iff] at h ⊢
      rwa [List.length_modify] }

def count_by_state (m : MetadataCache) (state : ObjectState) : Nat :=
  (m.endpoints.map (·.count_by_state m.config_hash state)).sum

def check_listing_coverage (m : MetadataCache) (expected_count : Nat) :
    Option CheckpointCoverage :=
  let total_tracked := (m.endpoints.map (·.count_tracked m.config_hash)).sum
  if total_tracked = 0 then none
  else
    let created_count := m.count_by_state .Created
    some
      { created_count := created_count
        planned_count := m.count_by_state .Planned
        failed_count := m.count_by_state .Failed
        total_tracked := total_tracked
        expected_count := expected_count
        covers_all := decide (expected_count ≤ created_count ∧ 0 < expected_count) }

/-- The cache has all objects that are asked for. -/
def covers_all (m : MetadataCache) (expected_count : Nat) : Bool :=
  ((m.check_listing_coverage expected_count).map (·.covers_all)).getD false

variable {m : MetadataCache} {i j : Nat} {uri : Path} {size now : Nat}

theorem length_pos : 0 < m.endpoints.length := List.length_pos_iff.mpr m.some_endpoint

theorem endpoint_lt : i % m.endpoints.length < m.endpoints.length := Nat.mod_lt _ length_pos

theorem length_record_created :
    (m.record_created i uri size now).endpoints.length = m.endpoints.length :=
  List.length_modify ..

theorem get_object_record_created : (m.record_created i uri size now).get_object j =
    if j = i then some { ((m.get_object i).getD (ObjectEntry.new_planned uri size
        ((m.endpoint_for_file i).map (·.endpoint_index) |>.getD 0))) with
      state := .Created, created_at := some now, checksum := none }
    else m.get_object j := by
  have hget : ∀ k, m.endpoints[k % m.endpoints.length]? =
      some (m.endpoints.get ⟨k % m.endpoints.length, endpoint_lt⟩) :=
    fun k => List.getElem?_eq_getElem endpoint_lt
  unfold get_object endpoint_for_file
  rw [length_record_created]
  unfold record_created
  dsimp only
  rw [List.getElem?_modify]
  by_cases h : j = i
  · subst h
    simp only [if_true, hget, Option.map_eq_map, Option.map_some, Option.bind_some,
      EndpointCache.get_object_record, Option.getD_some]
  · by_cases hk : i % m.endpoints.length = j % m.endpoints.length
    · simp only [hk, if_true, hget, Option.map_eq_map, Option.map_some, Option.bind_some,
        EndpointCache.get_object_record, if_neg h]
    · simp [hk, h]

theorem count_by_state_le (state : ObjectState) :
    m.count_by_state state ≤ (m.endpoints.map (·.count_tracked m.config_hash)).sum := by
  unfold count_by_state
  induction m.endpoints with
  | nil => exact Nat.le_refl 0
  | cons c cs ih =>
    rw [List.map_cons, List.map_cons, List.sum_cons, List.sum_cons]
    refine Nat.add_le_add (List.countP_mono_left fun e _ he => ?_) ih
    rw [Bool.and_eq_true] at he
    exact he.1

theorem covers_all_iff {expected_count : Nat} : m.covers_all expected_count = true ↔
    0 < expected_count ∧ expected_count ≤ m.count_by_state .Created := by
  have hle := count_by_state_le (m := m) .Created
  unfold covers_all check_listing_coverage
  dsimp only
  split
  · rename_i h0
    rw [h0] at hle
    simp only [Option.map_none, Option.getD_none, Bool.false_eq_true, false_iff]
    omega
  · simp only [Option.map_some, Option.getD_some, decide_eq_true_eq]
    omega

end MetadataCache

end sai3_bench.metadata_cache
