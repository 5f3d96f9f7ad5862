-- The number of an object, read back from its address (metadata_cache.rs): it is the
-- one under which prepare has created the object.
import Sai3Bench.ObjectAddresses
import Sai3Bench.TreeEndpoints

namespace sai3_bench.workload

open directory_tree TreeManifest prepare texts
open config.written (PrepareStrategy)

section

variable {base_uri pool : Path} {i : Nat}

/-- A name without an underscore has its number after the last dash. -/
theorem extract_object_index (hslash : '/' ∉ pool) (hmark : '_' ∉ pool) (shards : Nat)
    (hi : i < 2 ^ 64) :
    extract_file_index_from_path (joinUri base_uri (objectKey shards pool i)) = some i := by
  have hdigits : '_' ∉ padded 10 8 i := not_mem_padded rfl
  have hdash : '-' ∉ padded 10 8 i := not_mem_padded rfl
  have hname : '_' ∉ pool ++ '-' :: padded 10 8 i := by
    rw [List.mem_append, List.mem_cons]
    rintro (h | h | h)
    · exact hmark h
    · exact absurd h (by decide)
    · exact hdigits h
  unfold extract_file_index_from_path
  dsimp only
  rw [lastPart_objectKey hslash, strip_suffix_append, Option.getD_some, if_neg hname,
    if_pos (by simp), lastPart_append hdash, parse_padded hi]

/-- A file of a tree has its number after its underscore. -/
theorem extract_tree_index (base_uri : Path) {manifest : TreeManifest} {rel_path : Path}
    (h : manifest.get_file_path i = some rel_path) (hi : i < 2 ^ 64) :
    extract_file_index_from_path rel_path = some i ∧
      extract_file_index_from_path (joinUri base_uri rel_path) = some i := by
  obtain ⟨dir_path, rfl⟩ := get_file_path_eq h
  refine ⟨extract_file_index dir_path hi, ?_⟩
  unfold joinUri
  rw [← List.append_assoc]
  exact extract_file_index _ hi

end

variable {job : Job} {turn : Turn}

/-- Neither pool has a slash or an underscore in its name. -/
theorem pool_marks (hturn : turn ∈ job.turns) : '/' ∉ turn.pool ∧ '_' ∉ turn.pool := by
  have hall : ∀ pool ∈ ["prepared".toList, "deletable".toList], '/' ∉ pool ∧ '_' ∉ pool := by decide
  unfold Job.turns at hturn
  obtain ⟨spec, _, hspec⟩ := List.mem_flatMap.mp hturn
  obtain ⟨pool, hpool, rfl⟩ := List.mem_map.mp hspec
  unfold Job.pools at hpool
  apply hall pool
  split at hpool
  · exact hpool
  · exact List.mem_cons.mpr (.inl (List.mem_singleton.mp hpool))

/-- Whatever the addresses of a job are like, the number of an object is read back from
the address that either strategy gives it, and that of a file from its path in the tree. -/
theorem prepared_index_is_read_back (job : Job) (turn : Turn) (hturn : turn ∈ job.turns) (i : Nat)
    (hi : i < 2 ^ 64) :
    (∀ strategy uri, prepare_uri job turn i strategy = some uri →
      extract_file_index_from_path uri = some i) ∧
    ∀ manifest rel_path, job.tree_manifest = some manifest →
      manifest.get_file_path i = some rel_path →
      extract_file_index_from_path rel_path = some i := by
  obtain ⟨hslash, hmark⟩ := pool_marks hturn
  refine ⟨fun strategy uri huri => ?_, fun manifest rel_path _ hfile =>
    (extract_tree_index [] hfile hi).1⟩
  cases strategy with
  | Sequential =>
    obtain ⟨base_uri, _, hturn_uri⟩ := Option.bind_eq_some_iff.mp huri
    unfold Turn.uri at hturn_uri
    split at hturn_uri
    · obtain ⟨rel_path, hfile, rfl⟩ := Option.map_eq_some_iff.mp hturn_uri
      exact (extract_tree_index _ hfile hi).2
    · cases hturn_uri
      exact extract_object_index hslash hmark _ hi
  | Parallel =>
    obtain ⟨endpoints, _, rfl⟩ := Option.map_eq_some_iff.mp huri
    unfold parallel.PreparePlan.uri
    dsimp only
    split
    · split
      · rename_i rel_path hfile
        exact (extract_tree_index _ hfile hi).2
      · exact extract_object_index hslash hmark 0 hi
    · exact extract_object_index hslash hmark _ hi

/-- Objects under an address with marks and digits of its own. -/
def markedSpec : EnsureSpec := { base_uri := some "s3://bucket/run-2_file_7".toList, count := 100000001 }

/-- Nine digits are more than the padding. -/
theorem prepared_index_is_read_back_nine_digits :
    extract_file_index_from_path "s3://bucket/run-2_file_7/prepared-100000000.dat".toList =
      some 100000000 :=
  (prepared_index_is_read_back { config := { ensure_objects := [markedSpec] } }
    ⟨markedSpec, "prepared".toList⟩ List.mem_cons_self 100000000 (by decide)).1
    .Sequential _ (by decide)

end sai3_bench.workload
