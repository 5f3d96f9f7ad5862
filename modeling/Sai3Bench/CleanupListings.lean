-- The listing of a cleanup that has no list of objects (cleanup.rs): each agent takes
-- its part of what is stored by the numbers in the names.
import Mathlib.Data.Char
import Mathlib.Data.List.Lex
import Mathlib.Data.List.Sort
import Sai3Bench.CleanupSweeps
import Sai3Bench.Groups
import Sai3Bench.TreeTotals

namespace sai3_bench.cleanup

open directory_tree groups texts
open prepare (PreparedObject name_index)
open validation (PrepareConfig)

/-! ## The listing -/

/-- The number in the name of a file of a tree. -/
def tree_index (path : Path) : Option Nat := do
  let rest ← strip_prefix "file_".toList (lastPart '/' path)
  parse_u64 (← strip_suffix ".dat".toList rest)

def listed_object (list_base path : Path) : PreparedObject :=
  { uri := full_uri list_base path, size := 0, created := false }

section

variable (list_base : Path) (agent_id num_agents : Nat)

def tree_objects (all_files : List Path) : List PreparedObject :=
  all_files.filterMap fun path => (tree_index path).bind fun file_idx =>
    if 1 < num_agents ∧ file_idx % num_agents ≠ agent_id then none
    else some (listed_object list_base path)

/-- None where the name makes the slice panic. A name without a number is included
for safety. -/
def should_include (path : Path) : Option Bool :=
  if num_agents ≤ 1 then some true
  else (name_index (lastPart '/' path)).map fun
    | some file_idx => file_idx % num_agents = agent_id
    | none => true

def flat_objects : List Path → Option (List PreparedObject)
  | [] => some []
  | path :: paths => (should_include agent_id num_agents path).bind fun included =>
    (flat_objects paths).map fun objects =>
      if included then listed_object list_base path :: objects else objects

end

/-- The files that the store of the first objects lists, and the address it is asked for. -/
def list_files (create_store_for_uri : Path → Except String (Path → Except String (List Path)))
    (config : PrepareConfig) : Except String (Path × List Path) :=
  match config.ensure_objects.head?.bind fun spec => (spec.get_base_uri none).toOption with
  | none => .error "ensure_objects must have at least one entry with valid base_uri"
  | some base_uri => match create_store_for_uri base_uri with
    | .error e => .error e
    | .ok list =>
      let list_base := if base_uri.getLast? = some '/' then base_uri else base_uri ++ ['/']
      match list list_base with
      | .error _ => .error "Failed to list existing objects"
      | .ok all_files => .ok (list_base, all_files)

/-- No result at all is a panic. -/
def list_existing_objects
    (create_store_for_uri : Path → Except String (Path → Except String (List Path)))
    (config : PrepareConfig) (agent_id num_agents : Nat) :
    Option (Except String (List PreparedObject × Option TreeManifest)) :=
  match list_files create_store_for_uri config with
  | .error e => some (.error e)
  | .ok (list_base, all_files) =>
    if config.directory_structure.isSome then
      some (.ok (tree_objects list_base agent_id num_agents all_files, none))
    else
      let sorted_files := all_files.mergeSort fun a b => decide (a ≤ b)
      (flat_objects list_base agent_id num_agents sorted_files).map fun objects =>
        .ok (objects, none)

/-! ## The parts of the agents -/

/-- The number by which an agent takes a file, if its name has one. -/
def file_index (is_tree_mode : Bool) (path : Path) : Option Nat :=
  if is_tree_mode then tree_index path else (name_index (lastPart '/' path)).getD none

/-- A name that can be sliced. -/
def Sliceable (path : Path) : Prop := name_index (lastPart '/' path) ≠ none

instance (path : Path) : Decidable (Sliceable path) :=
  inferInstanceAs (Decidable (name_index (lastPart '/' path) ≠ none))

/-- An agent takes a file: by its number, or, where no directories are made, because
it has none. -/
def takes (is_tree_mode : Bool) (agent_id num_agents : Nat) (path : Path) : Bool :=
  match file_index is_tree_mode path with
  | some file_idx => file_idx % num_agents = agent_id
  | none => !is_tree_mode

section

variable {list_base path : Path} {agent_id num_agents : Nat} {all_files : List Path}

theorem tree_objects_eq (h : agent_id < num_agents) :
    tree_objects list_base agent_id num_agents all_files =
      (all_files.filter (takes true agent_id num_agents)).map (listed_object list_base) := by
  unfold tree_objects
  rw [← List.filterMap_eq_map, List.filterMap_filter]
  refine List.filterMap_congr fun path _ => ?_
  unfold takes file_index
  rw [if_pos rfl]
  cases tree_index path with
  | none => rfl
  | some file_idx =>
    have hone : num_agents ≤ 1 → file_idx % num_agents = agent_id := by
      intro hle
      have hnum : num_agents = 1 := by omega
      rw [hnum, Nat.mod_one]
      omega
    by_cases hmine : file_idx % num_agents = agent_id
    · simp [hmine]
    · have hmore : 1 < num_agents := by
        by_contra hle
        exact hmine (hone (Nat.not_lt.mp hle))
      simp [hmine, hmore]

theorem should_include_eq (h : agent_id < num_agents)
    (hname : 2 ≤ num_agents → Sliceable path) :
    should_include agent_id num_agents path = some (takes false agent_id num_agents path) := by
  unfold should_include takes file_index
  rw [if_neg Bool.false_ne_true]
  split
  · have hone : num_agents = 1 := by omega
    subst hone
    have hagent : agent_id = 0 := by omega
    subst hagent
    cases (name_index (lastPart '/' path)).getD none with
    | none => rfl
    | some file_idx => simp [Nat.mod_one]
  · rename_i hmore
    obtain ⟨idx, hidx⟩ := Option.ne_none_iff_exists'.mp (hname (by omega))
    rw [hidx]
    cases idx <;> rfl

theorem flat_objects_eq (h : agent_id < num_agents)
    (hnames : 2 ≤ num_agents → ∀ path ∈ all_files, Sliceable path) :
    flat_objects list_base agent_id num_agents all_files =
      some ((all_files.filter (takes false agent_id num_agents)).map
        (listed_object list_base)) := by
  induction all_files with
  | nil => rfl
  | cons path paths ih =>
    have hrest := ih fun hn path hpath => hnames hn path (List.mem_cons_of_mem _ hpath)
    unfold flat_objects
    rw [should_include_eq h fun hn => hnames hn path List.mem_cons_self, hrest, List.filter_cons]
    cases takes false agent_id num_agents path <;> rfl

theorem filter_takes_perm (is_tree_mode : Bool) :
    (all_files.filter (takes is_tree_mode agent_id num_agents)).Perm
      ((all_files.filter fun path => (file_index is_tree_mode path).isSome).filter
          (fun path => (file_index is_tree_mode path).getD 0 % num_agents = agent_id) ++
        if is_tree_mode then []
        else all_files.filter fun path => (file_index is_tree_mode path).isNone) := by
  refine (List.filter_append_perm (fun path => (file_index is_tree_mode path).isSome) _).symm.trans
    (List.Perm.of_eq ?_)
  rw [List.filter_filter, List.filter_filter, List.filter_filter]
  congr 1
  · refine List.filter_congr fun path _ => ?_
    unfold takes
    cases file_index is_tree_mode path <;> simp
  · cases is_tree_mode with
    | true =>
      rw [if_pos rfl, List.filter_eq_nil_iff]
      intro path _
      unfold takes
      cases file_index true path <;> simp
    | false =>
      rw [if_neg Bool.false_ne_true]
      refine List.filter_congr fun path _ => ?_
      unfold takes
      cases file_index false path <;> simp

/-- The files that have a number, with those that every agent takes. -/
theorem takes_perm (is_tree_mode : Bool) (hn : 1 ≤ num_agents) :
    ((List.range num_agents).flatMap fun agent_id =>
      all_files.filter (takes is_tree_mode agent_id num_agents)).Perm
      (all_files.filter (fun path => (file_index is_tree_mode path).isSome) ++
        (List.range num_agents).flatMap fun _ => if is_tree_mode then []
          else all_files.filter fun path => (file_index is_tree_mode path).isNone) := by
  refine (List.Perm.flatMap_left _ fun agent_id _ => filter_takes_perm is_tree_mode).trans ?_
  refine (List.flatMap_append_perm _ _ _).symm.trans (List.Perm.append_right _ ?_)
  exact parts_perm List.nodup_range fun path _ => List.mem_range.mpr (Nat.mod_lt _ hn)

/-- The files in the order in which they are taken. -/
def listing_order (config : PrepareConfig) (all_files : List Path) : List Path :=
  if config.directory_structure.isSome then all_files
  else all_files.mergeSort fun a b => decide (a ≤ b)

theorem listing_order_perm (config : PrepareConfig) :
    (listing_order config all_files).Perm all_files := by
  unfold listing_order
  split
  · exact .refl _
  · exact List.mergeSort_perm ..

theorem listing_order_one (config : PrepareConfig) : listing_order config [path] = [path] := by
  unfold listing_order
  split
  · rfl
  · exact List.mergeSort_singleton path

theorem list_existing_objects_eq
    {create_store_for_uri : Path → Except String (Path → Except String (List Path))}
    {config : PrepareConfig} (h : agent_id < num_agents)
    (hfiles : list_files create_store_for_uri config = .ok (list_base, all_files))
    (hnames : config.directory_structure = none → 2 ≤ num_agents →
      ∀ path ∈ all_files, Sliceable path) :
    list_existing_objects create_store_for_uri config agent_id num_agents =
      some (.ok (((listing_order config all_files).filter
        (takes config.directory_structure.isSome agent_id num_agents)).map
          (listed_object list_base), none)) := by
  unfold list_existing_objects listing_order
  rw [hfiles]
  dsimp only
  cases hmode : config.directory_structure with
  | some structure_config =>
    rw [Option.isSome_some, if_pos rfl, if_pos rfl, tree_objects_eq h]
  | none =>
    have hsorted : 2 ≤ num_agents → ∀ path ∈ all_files.mergeSort fun a b => decide (a ≤ b),
        Sliceable path :=
      fun hmore path hpath => hnames hmode hmore path (List.mem_mergeSort.mp hpath)
    rw [Option.isSome_none, if_neg Bool.false_ne_true, if_neg Bool.false_ne_true,
      flat_objects_eq h hsorted]
    rfl

def flat_config : PrepareConfig :=
  { ensure_objects := [{ base_uri := some "s3://bucket/".toList, count := 2 }] }

/-- A store with some files. -/
def lists_all (all_files : List Path) : Path → Except String (Path → Except String (List Path)) :=
  fun _ => .ok fun _ => .ok all_files

def two_files : List Path :=
  ["s3://bucket/prepared-00000001.dat".toList, "s3://bucket/prepared-00000002.dat".toList]

/-- No agent's listing panics when each name of a flat one can be sliced. Each file with
a number is taken by the agent that the number says and by no other one, and one
without a number by every agent, or by none where directories are made. -/
theorem list_existing_objects_partition
    {create_store_for_uri : Path → Except String (Path → Except String (List Path))}
    {config : PrepareConfig} {num_agents : Nat} (hn : 1 ≤ num_agents)
    (hnames : ∀ list_base all_files,
      list_files create_store_for_uri config = .ok (list_base, all_files) →
      config.directory_structure = none → 2 ≤ num_agents → ∀ path ∈ all_files, Sliceable path) :
    match list_files create_store_for_uri config with
    | .error e => ∀ agent_id,
        list_existing_objects create_store_for_uri config agent_id num_agents = some (.error e)
    | .ok (list_base, all_files) => ∃ objects : Nat → List PreparedObject,
        (∀ agent_id < num_agents,
          list_existing_objects create_store_for_uri config agent_id num_agents =
            some (.ok (objects agent_id, none)) ∧
          (objects agent_id).Perm ((all_files.filter
            (takes config.directory_structure.isSome agent_id num_agents)).map
              (listed_object list_base))) ∧
        ((List.range num_agents).flatMap objects).Perm
          (((all_files.filter fun path =>
              (file_index config.directory_structure.isSome path).isSome) ++
            (List.range num_agents).flatMap fun _ =>
              if config.directory_structure.isSome then []
              else all_files.filter fun path =>
                (file_index config.directory_structure.isSome path).isNone).map
            (listed_object list_base)) := by
  split
  · rename_i e hfiles
    intro agent_id
    unfold list_existing_objects
    rw [hfiles]
  · rename_i list_base all_files hfiles
    have hslices := hnames list_base all_files hfiles
    refine ⟨fun agent_id => ((listing_order config all_files).filter
      (takes config.directory_structure.isSome agent_id num_agents)).map
        (listed_object list_base), ?_, ?_⟩
    · intro agent_id hagent
      exact ⟨list_existing_objects_eq hagent hfiles hslices,
        ((listing_order_perm config).filter _).map _⟩
    · rw [← List.map_flatMap]
      refine List.Perm.map _ ((List.Perm.flatMap_left _ fun agent_id _ => ?_).trans
        (takes_perm config.directory_structure.isSome hn))
      exact (listing_order_perm config).filter _

/-- Two files for two agents. -/
theorem list_existing_objects_two :
    (∀ path ∈ two_files, Sliceable path) ∧ ∃ objects : Nat → List PreparedObject,
      (∀ agent_id < 2, list_existing_objects (lists_all two_files) flat_config agent_id 2 =
        some (.ok (objects agent_id, none))) ∧
      ((List.range 2).flatMap objects).Perm
        (two_files.map (listed_object "s3://bucket/".toList)) := by
  have hsliceable : ∀ path ∈ two_files, Sliceable path := by decide
  have hnames : ∀ list_base all_files,
      list_files (lists_all two_files) flat_config = .ok (list_base, all_files) →
      flat_config.directory_structure = none → 2 ≤ 2 → ∀ path ∈ all_files, Sliceable path := by
    intro list_base all_files hfiles _ _
    cases hfiles
    exact hsliceable
  obtain ⟨objects, hagents, hperm⟩ := @list_existing_objects_partition (lists_all two_files)
    flat_config 2 (by decide) hnames
  exact ⟨hsliceable, objects, fun agent_id hagent => (hagents agent_id hagent).1, hperm⟩

/-- A dot before the first dash is a panic, and a file without a number is taken by
two agents. -/
theorem list_existing_objects_foreign_names :
    (¬∀ create_store_for_uri config agent_id num_agents, agent_id < num_agents →
      list_existing_objects create_store_for_uri config agent_id num_agents ≠ none) ∧
    ¬∀ create_store_for_uri config num_agents list_base all_files
      (objects : Nat → List PreparedObject), 2 ≤ num_agents →
      list_files create_store_for_uri config = .ok (list_base, all_files) →
      (∀ agent_id < num_agents,
        list_existing_objects create_store_for_uri config agent_id num_agents =
          some (.ok (objects agent_id, none))) →
      ((List.range num_agents).flatMap objects).Perm
        (all_files.map (listed_object list_base)) := by
  constructor
  · intro h
    refine h (lists_all ["s3://bucket/a.b-c".toList]) flat_config 0 2 (by decide) ?_
    change (flat_objects "s3://bucket/".toList 0 2 (List.mergeSort _ _)).map _ = none
    rw [List.mergeSort_singleton]
    rfl
  · intro h
    have hperm := h (lists_all ["s3://bucket/notes.txt".toList]) flat_config 2 "s3://bucket/".toList
      ["s3://bucket/notes.txt".toList]
      (fun _ => [listed_object "s3://bucket/".toList "s3://bucket/notes.txt".toList])
        (by decide) rfl
      fun agent_id hagent => by
        rw [list_existing_objects_eq hagent rfl (by decide), listing_order_one]
        rfl
    have hlength := hperm.length_eq
    cases hlength

end

end sai3_bench.cleanup
