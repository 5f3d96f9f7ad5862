-- What a flat listing finds (prepare/listing.rs, prepare/sequential.rs): the numbers in
-- the names under the address that is listed, beside the objects of a pool.
import Sai3Bench.ObjectAddresses

namespace sai3_bench.prepare

open directory_tree texts

/-! ## The numbers that are read -/

section

variable {uri path : Path} {i : Nat}

theorem parse_u64_lt {s : Path} (h : parse_u64 s = some i) : i < 2 ^ 64 := by
  unfold parse_u64 at h
  extract_lets digits at h
  split at h
  · cases h
  · split at h
    · rename_i hlt
      rw [Option.some.injEq] at h
      rwa [h] at hlt
    · cases h

theorem file_index_lt (h : file_index path = some i) : i < 2 ^ 64 := by
  unfold file_index at h
  dsimp only at h
  split at h
  · exact parse_u64_lt h
  · split at h
    · exact parse_u64_lt h
    · split at h
      · exact parse_u64_lt h
      · cases h

/-- A listing that is not given up has the numbers of all paths, whatever errors come
between them. -/
theorem scan_indices {s : Scan} {items : List (Except String Path)}
    (h : (scan uri s items).result.aborted = false) :
    i ∈ (scan uri s items).result.indices ↔
      i ∈ s.result.indices ∨ ∃ path, .ok path ∈ items ∧ file_index path = some i := by
  induction items generalizing s with
  | nil => simp [scan]
  | cons item items ih =>
    cases item with
    | ok path =>
      unfold scan at h ⊢
      rw [ih h]
      have hitem : i ∈ (process_list_item path s.result).indices ↔
          i ∈ s.result.indices ∨ file_index path = some i := by
        unfold process_list_item
        dsimp only
        cases hidx : file_index path with
        | none => simp
        | some idx =>
          rw [Finset.mem_insert, Option.some.injEq, or_comm, eq_comm]
      rw [hitem, or_assoc]
      refine or_congr_right ?_
      constructor
      · rintro (hpath | ⟨other, hother, hidx⟩)
        · exact ⟨path, List.mem_cons_self, hpath⟩
        · exact ⟨other, List.mem_cons_of_mem _ hother, hidx⟩
      · rintro ⟨other, hother, hidx⟩
        rcases List.mem_cons.mp hother with heq | hother
        · cases heq
          exact .inl hidx
        · exact .inr ⟨other, hother, hidx⟩
    | error e =>
      unfold scan at h ⊢
      dsimp only at h ⊢
      split at h
      · cases h
      · rename_i hgoes
        rw [if_neg hgoes, ih h]
        simp

/-- The number of an object is read back from its address. -/
theorem file_index_object {pool base_uri : Path} {shards : Nat}
    (hpool : pool = "prepared".toList ∨ pool = "deletable".toList) (hi : i < 2 ^ 64) :
    file_index (joinUri base_uri (objectKey shards pool i)) = some i := by
  have hslash : '/' ∉ pool := by rcases hpool with rfl | rfl <;> decide
  unfold file_index
  dsimp only
  rw [lastPart_objectKey hslash]
  rcases hpool with rfl | rfl
  · have hname : "prepared".toList ++ '-' :: padded 10 8 i ++ ".dat".toList =
        "prepared-".toList ++ (padded 10 8 i ++ ".dat".toList) := rfl
    have hfile : strip_prefix "file_".toList ("prepared-".toList ++
        (padded 10 8 i ++ ".dat".toList)) = none := rfl
    rw [hname, hfile, strip_prefix_append, Option.bind_none, Option.bind_some,
      strip_suffix_append]
    exact parse_padded hi
  · have hname : "deletable".toList ++ '-' :: padded 10 8 i ++ ".dat".toList =
        "deletable-".toList ++ (padded 10 8 i ++ ".dat".toList) := rfl
    have hfile : strip_prefix "file_".toList ("deletable-".toList ++
        (padded 10 8 i ++ ".dat".toList)) = none := rfl
    have hprepared : strip_prefix "prepared-".toList ("deletable-".toList ++
        (padded 10 8 i ++ ".dat".toList)) = none := rfl
    rw [hname, hfile, hprepared, strip_prefix_append, Option.bind_none, Option.bind_some,
      strip_suffix_append]
    exact parse_padded hi

end

/-! ## The objects of a pool -/

/-- The address that is listed for a turn without a tree. -/
def listed_base (turn : Turn) (job : Job) (base_uri : Path) : Path :=
  withSlash (turn.list_pattern job base_uri)

/-- The stream of an address has the keys that start with it, and maybe errors. -/
def ListsKeys (stream : Path → List (Except String Path)) (stored : List Path) (uri : Path) :
    Prop :=
  ∀ key, .ok key ∈ stream uri ↔ key ∈ stored ∧ uri <+: key

/-- The object that a turn creates at a number is stored. -/
def Stored (stored : List Path) (turn : Turn) (job : Job) (base_uri : Path) (i : Nat) : Prop :=
  ∃ uri ∈ stored, turn.uri job base_uri i = some uri

/-- Each number in a name under the listed address is that of a stored object, and
without shards, where the objects are not under that address, the number of each stored
object is in such a name too. -/
def NamesMatch (stored : List Path) (turn : Turn) (job : Job) (base_uri : Path) : Prop :=
  (∀ key ∈ stored, listed_base turn job base_uri <+: key →
    ∀ i, file_index key = some i → Stored stored turn job base_uri i) ∧
  (job.config.key_prefix_shards = 0 → ∀ i < 2 ^ 64, Stored stored turn job base_uri i →
    ∃ key ∈ stored, listed_base turn job base_uri <+: key ∧ file_index key = some i)

section

variable {turn : Turn} {job : Job} {base_uri : Path} {stored : List Path} {i : Nat}

/-- With shards the objects are under the listed address. -/
theorem listed_of_shards (hflat : job.tree_manifest = none)
    (hpool : turn.pool = "prepared".toList ∨ turn.pool = "deletable".toList)
    (hshards : job.config.key_prefix_shards ≠ 0) (hi : i < 2 ^ 64)
    (h : Stored stored turn job base_uri i) :
    ∃ key ∈ stored, listed_base turn job base_uri <+: key ∧ file_index key = some i := by
  obtain ⟨uri, hstored, huri⟩ := h
  unfold Turn.uri at huri
  rw [hflat] at huri
  cases huri
  refine ⟨_, hstored, ?_, file_index_object hpool hi⟩
  unfold listed_base Turn.list_pattern
  rw [if_pos (Nat.pos_of_ne_zero hshards), withSlash_of_ends (withSlash_ends base_uri)]
  exact List.prefix_append _ _

theorem mem_listed_indices {stream : Path → List (Except String Path)} {r : ListingResult}
    (hstream : ListsKeys stream stored (listed_base turn job base_uri))
    (hrun : list_existing_objects_distributed stream (turn.list_pattern job base_uri) none
      job.agent_id job.num_agents = .ok r) :
    i ∈ r.indices ↔
      ∃ key ∈ stored, listed_base turn job base_uri <+: key ∧ file_index key = some i := by
  unfold list_existing_objects_distributed at hrun
  dsimp only at hrun
  split at hrun
  · cases hrun
  · rename_i hgoes
    cases hrun
    rw [scan_indices (Bool.eq_false_iff.mpr hgoes)]
    constructor
    · rintro (hnone | ⟨key, hkey, hidx⟩)
      · cases hnone
      · obtain ⟨hstored, hunder⟩ := (hstream key).mp hkey
        exact ⟨key, hstored, hunder, hidx⟩
    · rintro ⟨key, hstored, hunder, hidx⟩
      exact .inr ⟨key, (hstream key).mpr ⟨hstored, hunder⟩, hidx⟩

def data_base : Path := "s3://bucket/data/".toList

/-- A prepare phase of one pool, with shards or without. -/
def flat_job (shards : Nat) : Job :=
  { config := { ensure_objects := [⟨some data_base, 2, none, none, none⟩]
                key_prefix_shards := shards } }

def flat_turn : Turn := ⟨⟨some data_base, 2, none, none, none⟩, "prepared".toList⟩

/-- The keys that start with an address, without errors. -/
def keys_under (stored : List Path) : Path → List (Except String Path) :=
  succeeds fun uri => stored.filter uri.isPrefixOf

theorem keys_under_lists (stored : List Path) (uri : Path) :
    ListsKeys (keys_under stored) stored uri := by
  intro key
  unfold keys_under succeeds
  simp [List.isPrefixOf_iff_prefix]

/-- A flat listing is exact if and only if the names under the listed address match the
objects that are stored. -/
theorem flat_listing_exact_iff {stream : Path → List (Except String Path)} {stored : List Path}
    {turn : Turn} {job : Job} {base_uri : Path} {r : ListingResult}
    (hflat : job.tree_manifest = none)
    (hpool : turn.pool = "prepared".toList ∨ turn.pool = "deletable".toList)
    (hstream : ListsKeys stream stored (listed_base turn job base_uri))
    (hrun : list_existing_objects_distributed stream (turn.list_pattern job base_uri) none
      job.agent_id job.num_agents = .ok r) :
    (∀ i, i ∈ r.indices ↔ i < 2 ^ 64 ∧ Stored stored turn job base_uri i) ↔
      NamesMatch stored turn job base_uri := by
  constructor
  · intro hexact
    refine ⟨fun key hkey hunder i hidx => ?_, fun _ i hi hstored => ?_⟩
    · exact ((hexact i).mp ((mem_listed_indices hstream hrun).mpr ⟨key, hkey, hunder, hidx⟩)).2
    · exact (mem_listed_indices hstream hrun).mp ((hexact i).mpr ⟨hi, hstored⟩)
  · rintro ⟨hsound, hcomplete⟩ i
    rw [mem_listed_indices hstream hrun]
    constructor
    · rintro ⟨key, hkey, hunder, hidx⟩
      exact ⟨file_index_lt hidx, hsound key hkey hunder i hidx⟩
    · rintro ⟨hi, hstored⟩
      by_cases hshards : job.config.key_prefix_shards = 0
      · exact hcomplete hshards i hi hstored
      · exact listed_of_shards hflat hpool hshards hi hstored

/-- Two objects in the directories of their shards. -/
theorem flat_listing_exact_sharded : ∃ r,
    list_existing_objects_distributed
      (keys_under ["s3://bucket/data/00/prepared-00000000.dat".toList,
        "s3://bucket/data/01/prepared-00000001.dat".toList])
      (flat_turn.list_pattern (flat_job 4) data_base) none 0 1 = .ok r ∧
    ∀ i, i ∈ r.indices ↔ i < 2 ^ 64 ∧
      Stored ["s3://bucket/data/00/prepared-00000000.dat".toList,
        "s3://bucket/data/01/prepared-00000001.dat".toList] flat_turn (flat_job 4) data_base i := by
  have hmatch : NamesMatch ["s3://bucket/data/00/prepared-00000000.dat".toList,
      "s3://bucket/data/01/prepared-00000001.dat".toList] flat_turn (flat_job 4) data_base := by
    refine ⟨?_, nofun⟩
    intro key hkey _ i hidx
    simp only [List.mem_cons, List.not_mem_nil, or_false] at hkey
    rcases hkey with rfl | rfl
    · cases hidx
      exact ⟨_, List.mem_cons_self, rfl⟩
    · cases hidx
      exact ⟨_, List.mem_cons_of_mem _ List.mem_cons_self, rfl⟩
  obtain ⟨r, hrun, _⟩ := listing_succeeds _ (flat_turn.list_pattern (flat_job 4) data_base) none 0 1
  exact ⟨r, hrun, (flat_listing_exact_iff rfl (.inl rfl) (keys_under_lists _ _) hrun).mpr hmatch⟩

/-- Without shards a stored object is not found: the address that is listed ends with
a slash after the dash. -/
theorem flat_listing_misses : ¬∀ (stream : Path → List (Except String Path)) (stored : List Path)
    (turn : Turn) (job : Job) (base_uri : Path) (r : ListingResult),
    job.tree_manifest = none → (turn.pool = "prepared".toList ∨ turn.pool = "deletable".toList) →
    ListsKeys stream stored (listed_base turn job base_uri) →
    list_existing_objects_distributed stream (turn.list_pattern job base_uri) none
      job.agent_id job.num_agents = .ok r →
    ∀ i, i ∈ r.indices ↔ i < 2 ^ 64 ∧ Stored stored turn job base_uri i := by
  intro h
  have hexact := h (keys_under ["s3://bucket/data/prepared-00000000.dat".toList])
    ["s3://bucket/data/prepared-00000000.dat".toList] flat_turn (flat_job 0) data_base {} rfl
    (.inl rfl) (keys_under_lists _ _) rfl 0
  have hmissed := hexact.mpr ⟨Nat.two_pow_pos 64, _, List.mem_cons_self, rfl⟩
  cases hmissed

end

end sai3_bench.prepare
