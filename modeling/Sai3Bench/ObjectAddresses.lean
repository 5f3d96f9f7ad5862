-- The addresses of the objects of a turn: each is that of one number, and
-- those of a tree end with the last file of its manifest.
import Sai3Bench.PrepareTurns

namespace sai3_bench.prepare

open directory_tree texts

/-! ## The addresses of a turn are different -/

/-- The pools have no slash in their names. -/
def Turn.Pooled (turn : Turn) : Prop := '/' ∉ turn.pool

theorem pooled_of_mem {job : Job} {turn : Turn} (h : turn ∈ job.turns) : turn.Pooled := by
  obtain ⟨spec, _, h⟩ := List.mem_flatMap.mp h
  obtain ⟨pool, hpool, rfl⟩ := List.mem_map.mp h
  have hname : pool = "prepared".toList ∨ pool = "deletable".toList := by
    unfold Job.pools at hpool
    split at hpool
    · simpa using hpool
    · exact .inl (by simpa using hpool)
  show '/' ∉ pool
  rcases hname with rfl | rfl <;> decide

theorem slash_not_mem_name {pool : Path} (h : '/' ∉ pool) (idx : Nat) :
    '/' ∉ pool ++ '-' :: padded 10 8 idx ++ ".dat".toList := by
  have hdigits : '/' ∉ padded 10 8 idx := not_mem_padded rfl
  have hdat : '/' ∉ ".dat".toList := by decide
  simp only [List.mem_append, List.mem_cons, not_or]
  exact ⟨⟨h, by decide, hdigits⟩, hdat⟩

theorem withSlash_eq (uri : Path) : ∃ before, withSlash uri = before ++ ['/'] :=
  List.getLast?_eq_some_iff.mp (withSlash_ends uri)

/-- The last part of an address is the name of the object. -/
theorem lastPart_objectKey {pool base_uri : Path} (h : '/' ∉ pool) (shards idx : Nat) :
    lastPart '/' (joinUri base_uri (objectKey shards pool idx)) =
      pool ++ '-' :: padded 10 8 idx ++ ".dat".toList := by
  obtain ⟨before, hbefore⟩ := withSlash_eq base_uri
  have hname := slash_not_mem_name h idx
  unfold joinUri objectKey
  dsimp only
  rw [hbefore]
  split
  · rw [← List.append_assoc, lastPart_append hname]
  · rw [List.append_assoc, List.singleton_append, lastPart_append hname]

theorem lastPart_file {m : TreeManifest} {base_uri p : Path} {idx : Nat}
    (h : m.get_file_path idx = some p) :
    lastPart '/' (joinUri base_uri p) = TreeManifest.get_file_name idx := by
  obtain ⟨dir_path, rfl⟩ := TreeManifest.get_file_path_eq h
  unfold joinUri
  rw [← List.append_assoc, lastPart_append (TreeManifest.slash_not_mem_file_name idx)]

/-- An address is that of one number, under whatever base. -/
theorem Turn.uri_injective {turn : Turn} {job : Job} {base base' uri : Path} {i j : Nat}
    (hturn : turn.Pooled) (hi : turn.uri job base i = some uri)
    (hj : turn.uri job base' j = some uri) : i = j := by
  unfold Turn.uri at hi hj
  cases hm : job.tree_manifest with
  | none =>
    simp only [hm, Option.some.injEq] at hi hj
    have hname := congrArg (lastPart '/') (hi.trans hj.symm)
    rw [lastPart_objectKey hturn, lastPart_objectKey hturn, List.append_cancel_right_eq,
      List.append_cancel_left_eq, List.cons.injEq] at hname
    exact padded_injective hname.2
  | some m =>
    simp only [hm] at hi hj
    obtain ⟨p, hp, rfl⟩ := Option.map_eq_some_iff.mp hi
    obtain ⟨q, hq, hpq⟩ := Option.map_eq_some_iff.mp hj
    have hname := congrArg (lastPart '/') hpq
    rw [lastPart_file hp, lastPart_file hq] at hname
    exact (TreeManifest.get_file_name_injective hname).symm

/-! ## The addresses come first -/

/-- A manifest has no file after one that it does not have. -/
theorem get_file_path_of_succ {m : TreeManifest} {i j : Nat} (h : i ≤ j)
    (hj : m.get_file_path j ≠ none) : m.get_file_path i ≠ none := by
  obtain ⟨p, hp⟩ := Option.ne_none_iff_exists'.mp hj
  unfold TreeManifest.get_file_path at hp ⊢
  split at hp
  · cases hp
  · rename_i hfiles
    obtain ⟨k, hk, hp⟩ := Option.bind_eq_some_iff.mp hp
    obtain ⟨dir_path, hdir, _⟩ := Option.map_eq_some_iff.mp hp
    obtain ⟨hlen, _⟩ := List.getElem?_eq_some_iff.mp hdir
    have hdiv := Nat.div_le_div_right (c := m.files_per_dir) h
    have hindex : ∃ k', m.dir_index i = some k' ∧ k' ≤ k := by
      unfold TreeManifest.dir_index at hk ⊢
      split at hk
      · rename_i hb
        cases hk
        exact ⟨_, if_pos hb, by omega⟩
      · rename_i hb
        split at hk
        · rename_i ha
          cases hk
          exact ⟨_, by rw [if_neg hb, if_pos ha], hdiv⟩
        · cases hk
    obtain ⟨k', hk', hle⟩ := hindex
    rw [if_neg (by omega), hk', Option.bind_some,
      List.getElem?_eq_getElem (hle.trans_lt hlen)]
    simp

/-- What an address depends on, whether there is one does not. -/
theorem Turn.uri_none_iff {turn : Turn} {job : Job} {base : Path} {idx : Nat} :
    turn.uri job base idx = none ↔ ∃ m, job.tree_manifest = some m ∧ m.get_file_path idx = none := by
  unfold Turn.uri
  cases job.tree_manifest with
  | none => simp
  | some m => simp

theorem Turn.uri_of_succ {turn : Turn} {job : Job} {base base' : Path} {i j : Nat} (h : i ≤ j)
    (hj : turn.uri job base j ≠ none) : turn.uri job base' i ≠ none := by
  intro hi
  obtain ⟨m, hm, hnone⟩ := uri_none_iff.mp hi
  refine hj (uri_none_iff.mpr ⟨m, hm, ?_⟩)
  by_contra hsome
  exact get_file_path_of_succ h hsome hnone

end sai3_bench.prepare
