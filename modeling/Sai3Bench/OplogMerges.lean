-- Merging the op-logs of the workers (oplog_merge.rs): the files that exist are
-- read through a heap, the earliest entry first, and deleted in the end.
import Mathlib.Data.Int.Order.Basic
import Sai3Bench.DirectoryTrees
import Sai3Bench.SortedMerges

namespace sai3_bench.oplog_merge

open directory_tree texts merges

/-! ## Op-logs -/

inductive OpType
  | GET
  | PUT
  | DELETE
  | LIST
  | STAT
deriving DecidableEq, Repr

/-- `start` is in nanoseconds. -/
structure OpLogEntry where
  op : OpType
  bytes : Nat
  endpoint : Path
  file : Path
  error : Option Path := none
  start : Int
  duration_ns : Option Nat := none
deriving DecidableEq, Repr

/-- A row as the reader of an op-log gives it. -/
abbrev Row := Except String OpLogEntry

/-- The entries of the rows that can be read. -/
def entries (rows : List Row) : List OpLogEntry := rows.filterMap Except.toOption

/-- The entries before the first row that cannot be read. -/
def readable : List Row → List OpLogEntry
  | .ok entry :: rows => entry :: readable rows
  | _ => []

/-! ## The files -/

/-- The directory of a path and the name in it. -/
structure FilePath where
  parent : Option Path
  file_name : Option Path
deriving DecidableEq, Repr

namespace FilePath

/-- A name before its last dot, and what comes after it. -/
def split_name (name : Path) : Path × Option Path :=
  let stem := (throughLast '.' name).dropLast
  if name = "..".toList ∨ '.' ∉ name ∨ stem = [] then (name, none)
  else (stem, some (lastPart '.' name))

def file_stem (path : FilePath) : Option Path := path.file_name.map fun name => (split_name name).1

def extension (path : FilePath) : Option Path :=
  path.file_name.bind fun name => (split_name name).2

def display (path : FilePath) : String :=
  let dir := path.parent.getD []
  String.ofList ((if dir = [] then [] else dir ++ ['/']) ++ path.file_name.getD [])

end FilePath

def worker_oplog_path (base_path : FilePath) (worker_id : Nat) : FilePath :=
  let base_stem := base_path.file_stem.getD "oplog".toList
  let extension := base_path.extension.getD "tsv".toList
  { parent := some (base_path.parent.getD ".".toList)
    file_name := some
      (base_stem ++ ("-worker-".toList ++ (padded 10 1 worker_id ++ '.' :: extension))) }

/-- The file of a worker is its own. -/
theorem worker_oplog_path_injective {base_path : FilePath} {v w : Nat}
    (h : worker_oplog_path base_path v = worker_oplog_path base_path w) : v = w := by
  have hname := congrArg FilePath.file_name h
  unfold worker_oplog_path at hname
  rw [Option.some.injEq, List.append_cancel_left_eq, List.append_cancel_left_eq,
    List.append_cancel_right_eq] at hname
  exact padded_injective hname

theorem split_name_length (name : Path) :
    name.length ≤ (FilePath.split_name name).1.length +
      ((FilePath.split_name name).2.map fun extension => extension.length + 1).getD 0 := by
  unfold FilePath.split_name
  dsimp only
  split
  · exact Nat.le_refl _
  · have hlength := congrArg List.length (throughLast_append_lastPart '.' name)
    rw [List.length_append] at hlength
    simp only [Option.map_some, Option.getD_some, List.length_dropLast]
    omega

/-- The merged file is not that of a worker. -/
theorem worker_oplog_path_ne (base_path : FilePath) (w : Nat) :
    worker_oplog_path base_path w ≠ base_path := by
  intro h
  have hname := congrArg FilePath.file_name h
  cases hbase : base_path.file_name with
  | none =>
    rw [hbase] at hname
    cases hname
  | some name =>
    have hsplit := split_name_length name
    have hdigits : (padded 10 1 w).length ≠ 0 := by
      rw [Ne, List.length_eq_zero_iff]
      exact padded_ne_nil
    have hmark : "-worker-".toList.length = 8 := rfl
    rw [hbase] at hname
    unfold worker_oplog_path FilePath.file_stem FilePath.extension at hname
    rw [hbase, Option.some.injEq] at hname
    have hlength := congrArg List.length hname
    simp only [Option.map_some, Option.bind_some, Option.getD_some, List.length_append,
      List.length_cons, hmark] at hlength
    cases hextension : (FilePath.split_name name).2 with
    | none =>
      rw [hextension] at hsplit
      simp only [Option.map_none, Option.getD_none] at hsplit
      omega
    | some extension =>
      rw [hextension] at hsplit hlength
      simp only [Option.map_some, Option.getD_some] at hsplit hlength
      omega

/-! ## The merge -/

/-- What goes wrong with the disk. A line that is accepted is written. -/
structure Faults where
  opens : FilePath → Bool := fun _ => true
  creates : Bool := true
  writes : Nat → Bool := fun _ => true
  removes : FilePath → Bool := fun _ => true

/-- What the merge does to the disk. -/
inductive Effect
  | Create (path : FilePath)
  | Write (idx : Nat) (entry : OpLogEntry)
  | Remove (path : FilePath)

/-- An open file: the worker, and the rows that are left. -/
abbrev Stream := Nat × List Row

structure MergeEntry where
  entry : OpLogEntry
  worker_id : Nat

def MergeEntry.start (m : MergeEntry) : Int := m.entry.start

section

variable (files : FilePath → Option (List Row)) (faults : Faults) (base_path : FilePath)

def open_streams : List Nat → Except String (List Stream)
  | [] => .ok []
  | worker_id :: ids =>
    let worker_path := worker_oplog_path base_path worker_id
    match files worker_path with
    | none => open_streams ids
    | some rows =>
      if faults.opens worker_path then (open_streams ids).map ((worker_id, rows) :: ·)
      else .error s!"Failed to open worker file: {worker_path.display}"

def remove_worker_files : List Nat → List Effect × Except String Unit
  | [] => ([], .ok ())
  | worker_id :: ids =>
    let worker_path := worker_oplog_path base_path worker_id
    match files worker_path with
    | none => remove_worker_files ids
    | some _ =>
      if faults.removes worker_path then
        let (effects, result) := remove_worker_files ids
        (.Remove worker_path :: effects, result)
      else ([], .error s!"Failed to remove worker file: {worker_path.display}")

end

/-- The first row of each stream is read; an entry goes on the heap. -/
def first_entries (streams : List Stream) : List MergeEntry :=
  streams.filterMap fun stream => match stream.2 with
    | .ok entry :: _ => some ⟨entry, stream.1⟩
    | _ => none

def next_rows (streams : List Stream) : List Stream :=
  streams.map fun stream => (stream.1, stream.2.tail)

/-- The rows left in the stream at a position. -/
def rows_at (streams : List Stream) (position : Nat) : List Row :=
  (streams[position]?.map (·.2)).getD []

def advance (position : Nat) (streams : List Stream) : List Stream :=
  streams.modify position fun stream => (stream.1, stream.2.tail)

/-- The loop of the merge. The next row is read from the stream at the position
that the worker's number says. -/
def merge_loop (heap : MinHeap MergeEntry.start) (faults : Faults) :
    Nat → List MergeEntry → List Stream → Nat → List Effect × Except String Unit
  | 0, _, _, _ => ([], .ok ())
  | fuel + 1, queue, streams, output_count =>
    match heap.pop queue with
    | none => ([], .ok ())
    | some (m, queue) =>
      if faults.writes output_count then
        let queue := match rows_at streams m.worker_id with
          | .ok entry :: _ => ⟨entry, m.worker_id⟩ :: queue
          | _ => queue
        let (effects, result) :=
          merge_loop heap faults fuel queue (advance m.worker_id streams) (output_count + 1)
        (.Write output_count m.entry :: effects, result)
      else ([], .error s!"Failed to write entry {output_count}")

def rows_left (streams : List Stream) : Nat := (streams.flatMap (·.2)).length

/-- No row is read twice. -/
def steps (queue : List MergeEntry) (streams : List Stream) : Nat :=
  queue.length + rows_left streams

def merge_worker_oplogs (heap : MinHeap MergeEntry.start) (files : FilePath → Option (List Row))
    (faults : Faults) (base_path : FilePath) (num_workers : Nat) (keep_worker_files : Bool) :
    List Effect × Except String FilePath :=
  match open_streams files faults base_path (List.range num_workers) with
  | .error e => ([], .error e)
  | .ok streams =>
    if streams.isEmpty then ([], .error "No worker files found to merge")
    else if !faults.creates then
      ([], .error s!"Failed to create merged op-log: {base_path.display}")
    else
      let queue := first_entries streams
      let streams := next_rows streams
      let (effects, result) :=
        merge_loop heap faults (steps queue streams) queue streams 0
      match result with
      | .error e => (.Create base_path :: effects, .error e)
      | .ok _ =>
        if keep_worker_files then (.Create base_path :: effects, .ok base_path)
        else
          let (removals, result) :=
            remove_worker_files files faults base_path (List.range num_workers)
          (.Create base_path :: effects ++ removals, result.map fun _ => base_path)

/-! ## What is written -/

def entry_of : Effect → Option OpLogEntry
  | .Write _ entry => some entry
  | _ => none

def written (effects : List Effect) : List OpLogEntry := effects.filterMap entry_of

def is_removal : Effect → Bool
  | .Remove _ => true
  | _ => false

/-- All entries of the files of the workers. -/
def worker_entries (files : FilePath → Option (List Row)) (base_path : FilePath)
    (num_workers : Nat) : List OpLogEntry :=
  (List.range num_workers).flatMap fun worker_id =>
    entries ((files (worker_oplog_path base_path worker_id)).getD [])

/-- The files are removed last. When no fault has stopped the merge, and whenever
a file is removed or `Ok` is returned, every entry has been written, in order. -/
def Merged (all : List OpLogEntry) (faults : Faults)
    (run : List Effect × Except String FilePath) : Prop :=
  ∃ before removed, run.1 = before ++ removed ∧ (∀ e ∈ before, is_removal e = false) ∧
    (∀ e ∈ removed, is_removal e = true) ∧
    ((faults = {} ∨ removed ≠ [] ∨ ∃ path, run.2 = .ok path) →
      (written before).Perm all ∧ Sorted OpLogEntry.start (written before))

/-- The files that exist, in the order of the workers. -/
def existing (files : FilePath → Option (List Row)) (base_path : FilePath) (num_workers : Nat) :
    List Stream :=
  (List.range num_workers).filterMap fun worker_id =>
    (files (worker_oplog_path base_path worker_id)).map fun rows => (worker_id, rows)

/-- What follows the first row of the file at a position is read after the first
entry of the worker with that number. -/
def ReadOn (files : FilePath → Option (List Row)) (base_path : FilePath) (position : Nat)
    (rows : List Row) : Prop :=
  entries rows.tail = [] ∨ ∃ first more,
    files (worker_oplog_path base_path position) = some (.ok first :: more) ∧
    readable rows.tail = entries rows.tail ∧
    ∀ entry ∈ entries rows.tail, first.start ≤ entry.start

def get_at (start : Int) : OpLogEntry :=
  { op := .GET, bytes := 1024, endpoint := "s3://bucket/".toList, file := "object".toList,
    start := start }

def merged_log : FilePath := ⟨some "/tmp".toList, some "oplog.tsv".toList⟩

/-- The files of some workers. -/
def logs_of (logs : List (Nat × List Int)) (path : FilePath) : Option (List Row) :=
  (logs.find? fun log => worker_oplog_path merged_log log.1 = path).map fun log =>
    log.2.map fun start => .ok (get_at start)

/-! ### Reading on -/

section

variable {streams : List Stream} {queue : List MergeEntry} {position v : Nat}

theorem rows_at_advance : rows_at (advance position streams) v =
    if v = position then (rows_at streams position).tail else rows_at streams v := by
  unfold rows_at advance
  rw [List.getElem?_modify]
  split
  · rename_i heq
    subst heq
    rw [if_pos rfl]
    cases streams[position]? <;> rfl
  · rename_i hne
    rw [if_neg fun h => hne h.symm]
    cases streams[v]? <;> rfl

theorem rows_left_advance : rows_left (advance position streams) +
    min 1 (rows_at streams position).length = rows_left streams := by
  unfold rows_left rows_at advance
  induction streams generalizing position with
  | nil => simp
  | cons stream streams ih =>
    cases position with
    | zero =>
      cases hrows : stream.2 with
      | nil => simp [hrows]
      | cons row rows =>
        simp only [List.modify_zero_cons, List.flatMap_cons, hrows, List.tail_cons,
          List.length_append, List.length_cons, List.getElem?_cons_zero, Option.map_some,
          Option.getD_some]
        omega
    | succ position =>
      have hrest := @ih position
      simp only [List.modify_succ_cons, List.flatMap_cons, List.length_append,
        List.getElem?_cons_succ] at hrest ⊢
      omega

/-- The list that an entry on the heap stands for. -/
def list_of (streams : List Stream) (m : MergeEntry) : List OpLogEntry :=
  m.entry :: readable (rows_at streams m.worker_id)

theorem list_of_advance {m : MergeEntry} (h : m.worker_id ≠ position) :
    list_of (advance position streams) m = list_of streams m := by
  unfold list_of
  rw [rows_at_advance, if_neg h]

/-- The next entry of the stream, if it has one. -/
def pushed (streams : List Stream) (queue : List MergeEntry) (position : Nat) :
    List MergeEntry :=
  match rows_at streams position with
  | .ok entry :: _ => ⟨entry, position⟩ :: queue
  | _ => queue

theorem steps_pushed :
    steps (pushed streams queue position) (advance position streams) ≤
      queue.length + rows_left streams := by
  have hleft := @rows_left_advance streams position
  unfold steps pushed
  split
  · rename_i hrows
    rw [hrows] at hleft
    simp only [List.length_cons] at hleft ⊢
    omega
  · omega

theorem pushed_nodup (h : (queue.map (·.worker_id)).Nodup)
    (hnew : position ∉ queue.map (·.worker_id)) :
    ((pushed streams queue position).map (·.worker_id)).Nodup := by
  unfold pushed
  split
  · exact List.nodup_cons.mpr ⟨hnew, h⟩
  · exact h

/-- The lists after a step: what is left of the one that an entry was taken from
comes first, unless it is over. -/
theorem merge_pushed {out : List OpLogEntry} (hnew : position ∉ queue.map (·.worker_id))
    (h : Merge OpLogEntry.start
      ((pushed streams queue position).map (list_of (advance position streams))) out) :
    Merge OpLogEntry.start
      (readable (rows_at streams position) :: queue.map (list_of streams)) out := by
  have hqueue : queue.map (list_of (advance position streams)) = queue.map (list_of streams) := by
    refine List.map_congr_left fun m hm => list_of_advance ?_
    exact fun heq => hnew (List.mem_map.mpr ⟨m, hm, heq⟩)
  unfold pushed at h
  split at h
  · rename_i entry rows hrows
    rw [List.map_cons, hqueue] at h
    have hlist : list_of (advance position streams) ⟨entry, position⟩ =
        readable (rows_at streams position) := by
      unfold list_of
      rw [rows_at_advance, if_pos rfl, hrows]
      rfl
    rwa [hlist] at h
  · rename_i hover
    rw [hqueue] at h
    have hnone : readable (rows_at streams position) = [] := by
      cases hrows : rows_at streams position with
      | nil => rfl
      | cons row rows =>
        cases row with
        | error => rfl
        | ok entry => exact absurd hrows (hover entry rows)
    rw [hnone]
    exact h.cons_nil

end

/-! ### The loop -/

section

variable {heap : MinHeap MergeEntry.start} {faults : Faults} {fuel output_count : Nat}
  {queue : List MergeEntry} {streams : List Stream}

/-- The loop only writes. -/
theorem loop_writes : ∀ e ∈ (merge_loop heap faults fuel queue streams output_count).1,
    is_removal e = false := by
  induction fuel generalizing queue streams output_count with
  | zero => nofun
  | succ fuel ih =>
    unfold merge_loop
    split
    · nofun
    · split
      · exact List.forall_mem_cons.mpr ⟨rfl, ih⟩
      · nofun

theorem loop_ok (h : ∀ n, faults.writes n = true) :
    (merge_loop heap faults fuel queue streams output_count).2 = .ok () := by
  induction fuel generalizing queue streams output_count with
  | zero => rfl
  | succ fuel ih =>
    unfold merge_loop
    split
    · rfl
    · rw [if_pos (h _)]
      exact ih

/-- A loop that ends has merged the lists that the heap stands for. -/
theorem loop_merges (hfuel : steps queue streams ≤ fuel) (hnodup : (queue.map (·.worker_id)).Nodup)
    (h : (merge_loop heap faults fuel queue streams output_count).2 = .ok ()) :
    Merge OpLogEntry.start (queue.map (list_of streams))
      (written (merge_loop heap faults fuel queue streams output_count).1) := by
  induction fuel generalizing queue streams output_count with
  | zero =>
    have hqueue : queue = [] := by
      unfold steps at hfuel
      exact List.length_eq_zero_iff.mp (by omega)
    subst hqueue
    exact .done nofun
  | succ fuel ih =>
    unfold merge_loop at h ⊢
    cases hpop : heap.pop queue with
    | none =>
      rw [heap.none_iff.mp hpop]
      exact .done nofun
    | some popped =>
      obtain ⟨m, rest⟩ := popped
      rw [hpop] at h
      dsimp only at h ⊢
      have hperm := heap.perm hpop
      have hleast := heap.least hpop
      have hlength := hperm.length_eq
      rw [(hperm.map _).nodup_iff, List.map_cons, List.nodup_cons] at hnodup
      split at h
      · rename_i hwrites
        rw [if_pos hwrites]
        have hrest : steps (pushed streams rest m.worker_id) (advance m.worker_id streams) ≤
            fuel := by
          refine steps_pushed.trans ?_
          unfold steps at hfuel
          rw [List.length_cons] at hlength
          omega
        have hmerge := ih hrest (pushed_nodup hnodup.2 hnodup.1) h
        refine .take (hperm.map _) ?_ (merge_pushed hnodup.1 hmerge)
        intro l hl y hy
        obtain ⟨other, hother, rfl⟩ := List.mem_map.mp hl
        cases hy
        exact hleast other hother
      · cases h

end

/-! ### All entries, and those that are read -/

/-- The entry of the first row, if it can be read. -/
def first_row : List Row → List OpLogEntry
  | .ok entry :: _ => [entry]
  | _ => []

theorem entries_eq (rows : List Row) : entries rows = first_row rows ++ entries rows.tail := by
  unfold entries
  cases rows with
  | nil => rfl
  | cons row rows => cases row <;> rfl

theorem readable_sublist (rows : List Row) : (readable rows).Sublist (entries rows) := by
  induction rows with
  | nil => exact .refl _
  | cons row rows ih =>
    cases row with
    | error => exact List.nil_sublist _
    | ok entry => exact ih.cons_cons entry

theorem entries_tail_sublist (rows : List Row) :
    (entries rows.tail).Sublist (entries rows) := (List.tail_sublist rows).filterMap _

section

variable {files : FilePath → Option (List Row)} {base_path : FilePath} {num_workers : Nat}

theorem worker_entries_eq : worker_entries files base_path num_workers =
    (existing files base_path num_workers).flatMap fun stream => entries stream.2 := by
  unfold worker_entries existing
  induction List.range num_workers with
  | nil => rfl
  | cons worker_id ids ih =>
    rw [List.flatMap_cons, List.filterMap_cons, ih]
    cases files (worker_oplog_path base_path worker_id) <;> rfl

theorem mem_existing {stream : Stream} : stream ∈ existing files base_path num_workers ↔
    stream.1 < num_workers ∧ files (worker_oplog_path base_path stream.1) = some stream.2 := by
  unfold existing
  rw [List.mem_filterMap]
  constructor
  · rintro ⟨w, hw, h⟩
    obtain ⟨rows, hrows, rfl⟩ := Option.map_eq_some_iff.mp h
    exact ⟨List.mem_range.mp hw, hrows⟩
  · rintro ⟨hw, hrows⟩
    exact ⟨stream.1, List.mem_range.mpr hw, by rw [hrows]; rfl⟩

theorem length_existing : (existing files base_path num_workers).length ≤ num_workers := by
  have hlength := List.length_filterMap_le (fun worker_id =>
    (files (worker_oplog_path base_path worker_id)).map fun rows => (worker_id, rows))
    (List.range num_workers)
  rwa [List.length_range] at hlength

theorem existing_nodup : ((existing files base_path num_workers).map (·.1)).Nodup := by
  have hsub : ((existing files base_path num_workers).map (·.1)).Sublist
      (List.range num_workers) := by
    unfold existing
    induction List.range num_workers with
    | nil => exact .refl _
    | cons worker_id ids ih =>
      rw [List.filterMap_cons]
      cases files (worker_oplog_path base_path worker_id) with
      | none => exact ih.cons worker_id
      | some rows => exact ih.cons_cons worker_id
  exact List.nodup_range.sublist hsub

theorem mem_first_entries {m : MergeEntry} :
    m ∈ first_entries (existing files base_path num_workers) ↔ m.worker_id < num_workers ∧
      ∃ more, files (worker_oplog_path base_path m.worker_id) = some (.ok m.entry :: more) := by
  unfold first_entries
  rw [List.mem_filterMap]
  constructor
  · rintro ⟨⟨w, rows⟩, hstream, h⟩
    obtain ⟨hw, hrows⟩ := mem_existing.mp hstream
    dsimp only at h hw hrows
    split at h
    · rename_i entry more
      cases h
      exact ⟨hw, more, hrows⟩
    · cases h
  · rintro ⟨hw, more, hrows⟩
    exact ⟨(m.worker_id, .ok m.entry :: more), mem_existing.mpr ⟨hw, hrows⟩, rfl⟩

theorem first_entries_nodup (streams : List Stream) (h : (streams.map (·.1)).Nodup) :
    ((first_entries streams).map (·.worker_id)).Nodup := by
  have hsub : ((first_entries streams).map (·.worker_id)).Sublist (streams.map (·.1)) := by
    unfold first_entries
    clear h
    induction streams with
    | nil => exact .refl _
    | cons stream streams ih =>
      rw [List.filterMap_cons]
      split
      · exact ih.cons _
      · rename_i m hm
        split at hm
        · cases hm
          exact ih.cons_cons _
        · cases hm
  exact h.sublist hsub

theorem rows_at_next (streams : List Stream) (position : Nat) :
    rows_at (next_rows streams) position = (rows_at streams position).tail := by
  unfold rows_at next_rows
  rw [List.getElem?_map]
  cases streams[position]? <;> rfl

theorem flatMap_rows_at {streams : List Stream} (f : List Row → List OpLogEntry) :
    streams.flatMap (fun stream => f stream.2) =
      (List.range streams.length).flatMap fun j => f (rows_at streams j) := by
  induction streams with
  | nil => rfl
  | cons stream streams ih =>
    rw [List.flatMap_cons, List.length_cons, List.range_succ_eq_map, List.flatMap_cons,
      List.flatMap_map, ih]
    rfl

theorem rows_at_of_le {streams : List Stream} {j : Nat} (h : streams.length ≤ j) :
    rows_at streams j = [] := by
  unfold rows_at
  rw [List.getElem?_eq_none h]
  rfl

end

section

variable {streams : List Stream} {out : List OpLogEntry}

/-- What is read of the stream at a position after its first row, if it is read on. -/
def rest_at (streams : List Stream) (position : Nat) : List OpLogEntry :=
  readable (rows_at streams position).tail

theorem map_entry_first_entries (streams : List Stream) :
    (first_entries streams).map (·.entry) = streams.flatMap fun stream => first_row stream.2 := by
  unfold first_entries
  induction streams with
  | nil => rfl
  | cons stream streams ih =>
    obtain ⟨worker_id, rows⟩ := stream
    rw [List.filterMap_cons, List.flatMap_cons, ← ih]
    cases rows with
    | nil => rfl
    | cons row rows => cases row <;> rfl

theorem list_of_next (m : MergeEntry) :
    list_of (next_rows streams) m = m.entry :: rest_at streams m.worker_id := by
  unfold list_of rest_at
  rw [rows_at_next]

/-- All entries come out if and only if all that follows a first row is read. -/
theorem merge_perm_iff (hnodup : (streams.map (·.1)).Nodup)
    (h : Merge OpLogEntry.start
      ((first_entries streams).map (list_of (next_rows streams))) out) :
    out.Perm (streams.flatMap fun stream => entries stream.2) ↔
      ∀ j ∈ List.range streams.length,
        (if j ∈ (first_entries streams).map (·.worker_id) then rest_at streams j else []) =
          entries (rows_at streams j).tail := by
  have hflat : ((first_entries streams).map (list_of (next_rows streams))).flatten =
      (first_entries streams).flatMap fun m => [m.entry] ++ rest_at streams m.worker_id := by
    rw [← List.flatMap_def]
    exact List.flatMap_congr fun m _ => list_of_next m
  have hout : out.Perm ((first_entries streams).map (·.entry) ++
      (first_entries streams).flatMap fun m => rest_at streams m.worker_id) := by
    refine h.perm.trans ?_
    rw [hflat]
    refine (List.flatMap_append_perm _ _ _).symm.trans ?_
    rw [← List.map_eq_flatMap]
  have hall : ((first_entries streams).map (·.entry) ++
      streams.flatMap fun stream => entries stream.2.tail).Perm
        (streams.flatMap fun stream => entries stream.2) := by
    rw [map_entry_first_entries]
    refine (List.flatMap_append_perm _ _ _).trans ?_
    rw [List.flatMap_congr fun stream _ => (entries_eq stream.2).symm]
  have hrest : ((first_entries streams).flatMap fun m => rest_at streams m.worker_id).Perm
      ((List.range streams.length).flatMap fun j =>
        if j ∈ (first_entries streams).map (·.worker_id) then rest_at streams j else []) := by
    have hmap := List.flatMap_map (·.worker_id) (rest_at streams) (first_entries streams)
    rw [← hmap]
    refine flatMap_places (first_entries_nodup streams hnodup) fun j hj => ?_
    unfold rest_at
    rw [rows_at_of_le hj]
    rfl
  rw [hout.congr_left, ← hall.congr_right, List.perm_append_left_iff, hrest.congr_left,
    flatMap_rows_at fun rows => entries rows.tail]
  refine flatMap_perm_iff fun j _ => ?_
  split
  · exact readable_sublist _
  · exact List.nil_sublist _

theorem rows_at_sorted (hsorted : ∀ stream ∈ streams, Sorted OpLogEntry.start (entries stream.2))
    (position : Nat) :
    Sorted OpLogEntry.start (entries (rows_at streams position)) := by
  unfold rows_at
  cases hstream : streams[position]? with
  | none => exact .nil
  | some stream => exact hsorted stream (List.mem_of_getElem? hstream)

/-- What comes out is in order if and only if what is read on is. -/
theorem merge_sorted_iff
    (hsorted : ∀ stream ∈ streams, Sorted OpLogEntry.start (entries stream.2))
    (h : Merge OpLogEntry.start
      ((first_entries streams).map (list_of (next_rows streams))) out) :
    Sorted OpLogEntry.start out ↔ ∀ m ∈ first_entries streams,
      ∀ entry ∈ rest_at streams m.worker_id, m.entry.start ≤ entry.start := by
  rw [h.sorted_iff, List.forall_mem_map]
  refine forall₂_congr fun m hm => ?_
  rw [list_of_next, sorted_cons]
  refine and_iff_left ((rows_at_sorted hsorted m.worker_id).sublist ?_)
  exact (readable_sublist _).trans (entries_tail_sublist _)

end

section

variable {files : FilePath → Option (List Row)} {base_path : FilePath} {num_workers : Nat}

/-- The merge of the first entries takes all entries, in order, if and only if
each file is read on. -/
theorem merged_iff {out : List OpLogEntry}
    (hsorted : ∀ w < num_workers, Sorted OpLogEntry.start
      (entries ((files (worker_oplog_path base_path w)).getD [])))
    (h : Merge OpLogEntry.start ((first_entries (existing files base_path num_workers)).map
      (list_of (next_rows (existing files base_path num_workers)))) out) :
    (out.Perm (worker_entries files base_path num_workers) ∧ Sorted OpLogEntry.start out) ↔
      ∀ position worker_id rows,
        (existing files base_path num_workers)[position]? = some (worker_id, rows) →
          ReadOn files base_path position rows := by
  have hstreams : ∀ stream ∈ existing files base_path num_workers,
      Sorted OpLogEntry.start (entries stream.2) := by
    intro stream hstream
    obtain ⟨hw, hrows⟩ := mem_existing.mp hstream
    have hfile := hsorted stream.1 hw
    rwa [hrows] at hfile
  rw [worker_entries_eq, merge_perm_iff existing_nodup h, merge_sorted_iff hstreams h]
  have hrows : ∀ {position worker_id rows},
      (existing files base_path num_workers)[position]? = some (worker_id, rows) →
        rows_at (existing files base_path num_workers) position = rows := by
    intro position worker_id rows hposition
    unfold rows_at
    rw [hposition]
    rfl
  constructor
  · rintro ⟨hall, hfirst⟩ position worker_id rows hposition
    have hlength := (List.getElem?_eq_some_iff.mp hposition).1
    have hread := hall position (List.mem_range.mpr hlength)
    unfold rest_at at hread hfirst
    rw [hrows hposition] at hread
    split at hread
    · rename_i hplace
      obtain ⟨m, hm, rfl⟩ := List.mem_map.mp hplace
      obtain ⟨_, more, hfile⟩ := mem_first_entries.mp hm
      refine .inr ⟨m.entry, more, hfile, hread, ?_⟩
      have hle := hfirst m hm
      rwa [hrows hposition, hread] at hle
    · exact .inl hread.symm
  · intro hread
    have hnone : ∀ {rows : List Row}, entries rows.tail = [] → readable rows.tail = [] := by
      intro rows hentries
      have hsub := readable_sublist rows.tail
      rwa [hentries, List.sublist_nil] at hsub
    refine ⟨?_, ?_⟩
    · intro position hposition
      rw [List.mem_range] at hposition
      have hstream := List.getElem?_eq_getElem hposition
      have hat := hrows hstream
      unfold rest_at
      rw [hat]
      rcases hread position _ _ hstream with hentries | ⟨first, more, hfile, hall, _⟩
      · rw [hnone hentries, hentries, ite_self]
      · rw [if_pos, hall]
        exact List.mem_map.mpr ⟨⟨first, position⟩, mem_first_entries.mpr
          ⟨hposition.trans_le length_existing, more, hfile⟩, rfl⟩
    · intro m hm entry hentry
      unfold rest_at at hentry
      by_cases hposition : m.worker_id < (existing files base_path num_workers).length
      · have hstream := List.getElem?_eq_getElem hposition
        rw [hrows hstream] at hentry
        rcases hread m.worker_id _ _ hstream with hentries | ⟨first, more, hfile, hall, hle⟩
        · rw [hnone hentries] at hentry
          cases hentry
        · obtain ⟨_, more', hfile'⟩ := mem_first_entries.mp hm
          rw [hfile] at hfile'
          cases hfile'
          rw [hall] at hentry
          exact hle entry hentry
      · rw [rows_at_of_le (Nat.le_of_not_lt hposition)] at hentry
        cases hentry

/-! ### The run -/

variable {faults : Faults}

theorem open_streams_ok {ids : List Nat} {streams : List Stream}
    (h : open_streams files faults base_path ids = .ok streams) :
    streams = ids.filterMap fun worker_id =>
      (files (worker_oplog_path base_path worker_id)).map fun rows => (worker_id, rows) := by
  induction ids generalizing streams with
  | nil =>
    cases h
    rfl
  | cons worker_id ids ih =>
    unfold open_streams at h
    rw [List.filterMap_cons]
    dsimp only at h
    cases hfile : files (worker_oplog_path base_path worker_id) with
    | none =>
      rw [hfile] at h
      exact ih h
    | some rows =>
      rw [hfile] at h
      dsimp only at h
      split at h
      · cases hrest : open_streams files faults base_path ids with
        | error e =>
          rw [hrest] at h
          cases h
        | ok rest =>
          rw [hrest] at h
          cases h
          rw [ih hrest]
          rfl
      · cases h

theorem open_streams_opens (files : FilePath → Option (List Row)) (base_path : FilePath)
    (h : ∀ path, faults.opens path = true) (ids : List Nat) :
    ∃ streams, open_streams files faults base_path ids = .ok streams := by
  induction ids with
  | nil => exact ⟨[], rfl⟩
  | cons worker_id ids ih =>
    obtain ⟨streams, hstreams⟩ := ih
    unfold open_streams
    dsimp only
    split
    · exact ⟨streams, hstreams⟩
    · rw [if_pos (h _), hstreams]
      exact ⟨_, rfl⟩

theorem remove_removes (ids : List Nat) :
    ∀ e ∈ (remove_worker_files files faults base_path ids).1, is_removal e = true := by
  induction ids with
  | nil => nofun
  | cons worker_id ids ih =>
    unfold remove_worker_files
    dsimp only
    split
    · exact ih
    · split
      · exact List.forall_mem_cons.mpr ⟨rfl, ih⟩
      · nofun

/-- The loop over the files that exist. -/
def whole_loop (heap : MinHeap MergeEntry.start) (files : FilePath → Option (List Row))
    (faults : Faults) (base_path : FilePath) (num_workers : Nat) :
    List Effect × Except String Unit :=
  let queue := first_entries (existing files base_path num_workers)
  let streams := next_rows (existing files base_path num_workers)
  merge_loop heap faults (steps queue streams) queue streams 0

/-- What a run does: nothing, or the loop, and when that has ended well perhaps
some removals. -/
theorem merge_cases (heap : MinHeap MergeEntry.start) (files : FilePath → Option (List Row))
    (faults : Faults) (base_path : FilePath) (num_workers : Nat) (keep_worker_files : Bool) :
    let loop := whole_loop heap files faults base_path num_workers
    let run := merge_worker_oplogs heap files faults base_path num_workers keep_worker_files
    (run.1 = [] ∧ (∃ e, run.2 = .error e) ∧
      (faults = {} → existing files base_path num_workers = [])) ∨
      ∃ removed, run.1 = .Create base_path :: loop.1 ++ removed ∧
        (∀ e ∈ removed, is_removal e = true) ∧ (keep_worker_files = true → removed = []) ∧
        (loop.2 = .ok () ∨ removed = [] ∧ ∃ e, run.2 = .error e) := by
  dsimp only
  unfold merge_worker_oplogs whole_loop
  cases hopen : open_streams files faults base_path (List.range num_workers) with
  | error e =>
    refine .inl ⟨rfl, ⟨e, rfl⟩, ?_⟩
    rintro rfl
    obtain ⟨streams, hstreams⟩ := @open_streams_opens {} files base_path
      (fun _ => rfl) (List.range num_workers)
    rw [hopen] at hstreams
    cases hstreams
  | ok streams =>
    have hexisting : streams = existing files base_path num_workers := open_streams_ok hopen
    dsimp only
    split
    · rename_i hempty
      rw [List.isEmpty_iff] at hempty
      exact .inl ⟨rfl, ⟨_, rfl⟩, fun _ => hexisting ▸ hempty⟩
    · split
      · rename_i hcreates
        refine .inl ⟨rfl, ⟨_, rfl⟩, ?_⟩
        rintro rfl
        cases hcreates
      · right
        rw [← hexisting]
        split
        · rename_i e hloop
          exact ⟨[], (List.append_nil _).symm, nofun, fun _ => rfl, .inr ⟨rfl, e, rfl⟩⟩
        · rename_i hloop
          split
          · exact ⟨[], (List.append_nil _).symm, nofun, fun _ => rfl, .inl hloop⟩
          · rename_i hkeep
            exact ⟨_, rfl, remove_removes _, fun h => absurd h hkeep, .inl hloop⟩

theorem whole_loop_writes (heap : MinHeap MergeEntry.start) :
    ∀ e ∈ Effect.Create base_path :: (whole_loop heap files faults base_path num_workers).1,
      is_removal e = false :=
  List.forall_mem_cons.mpr ⟨rfl, loop_writes⟩

theorem whole_loop_ok (heap : MinHeap MergeEntry.start) :
    (whole_loop heap files {} base_path num_workers).2 = .ok () :=
  loop_ok fun _ => rfl

theorem whole_loop_merges {heap : MinHeap MergeEntry.start}
    (h : (whole_loop heap files faults base_path num_workers).2 = .ok ()) :
    Merge OpLogEntry.start ((first_entries (existing files base_path num_workers)).map
      (list_of (next_rows (existing files base_path num_workers))))
      (written (whole_loop heap files faults base_path num_workers).1) :=
  loop_merges (Nat.le_refl _) (first_entries_nodup _ existing_nodup) h

theorem written_create (effects : List Effect) :
    written (.Create base_path :: effects) = written effects := rfl

/-- On every disk, whatever goes wrong with it, the merge writes all entries of
the workers' files in order before it removes one, if and only if each file is
read on after its first row. -/
theorem merge_complete_iff {heap : MinHeap MergeEntry.start}
    {files : FilePath → Option (List Row)} {base_path : FilePath} {num_workers : Nat}
    (hsorted : ∀ w < num_workers, Sorted OpLogEntry.start
      (entries ((files (worker_oplog_path base_path w)).getD []))) :
    (∀ faults keep_worker_files, Merged (worker_entries files base_path num_workers) faults
      (merge_worker_oplogs heap files faults base_path num_workers keep_worker_files)) ↔
      ∀ position worker_id rows,
        (existing files base_path num_workers)[position]? = some (worker_id, rows) →
          ReadOn files base_path position rows := by
  constructor
  · intro hmerged
    have hloop := whole_loop_merges (@whole_loop_ok files base_path num_workers heap)
    rw [← merged_iff hsorted hloop]
    obtain ⟨before, removed, hrun, hbefore, hremoved, hall⟩ := hmerged {} true
    have hdone := hall (.inl rfl)
    rcases merge_cases heap files {} base_path num_workers true with
      ⟨hnone, _, hempty⟩ | ⟨removed', hrun', _, hkeep, _⟩
    · rw [hnone] at hrun
      rw [(List.append_eq_nil_iff.mp hrun.symm).1] at hdone
      have hout := hloop.perm
      rw [hempty rfl] at hout
      rw [List.Perm.eq_nil hout]
      exact hdone
    · rw [hkeep rfl, List.append_nil] at hrun'
      have hkept : removed = [] := by
        rw [List.eq_nil_iff_forall_not_mem]
        intro e he
        have hwrites := whole_loop_writes heap e (by
          rw [← hrun', hrun]
          exact List.mem_append_right before he)
        rw [hremoved e he] at hwrites
        cases hwrites
      rw [hkept, List.append_nil, hrun'] at hrun
      rwa [← hrun, written_create] at hdone
  · intro hread faults keep_worker_files
    rcases merge_cases heap files faults base_path num_workers keep_worker_files with
      ⟨hnone, ⟨e, herror⟩, hempty⟩ | ⟨removed, hrun, hremoved, _, hloop⟩
    · refine ⟨[], [], hnone, nofun, nofun, ?_⟩
      rintro (hfaults | hremoved | ⟨path, hok⟩)
      · rw [worker_entries_eq, hempty hfaults]
        exact ⟨.refl _, .nil⟩
      · exact absurd rfl hremoved
      · rw [herror] at hok
        cases hok
    · refine ⟨_, removed, hrun, whole_loop_writes heap, hremoved, ?_⟩
      intro hdone
      rw [written_create]
      rcases hloop with hloop | ⟨hkept, e, herror⟩
      · exact (merged_iff hsorted (whole_loop_merges hloop)).mpr hread
      · rcases hdone with rfl | hremoved | ⟨path, hok⟩
        · exact (merged_iff hsorted (whole_loop_merges (whole_loop_ok heap))).mpr hread
        · exact absurd hkept hremoved
        · rw [herror] at hok
          cases hok

end

/-- Two workers, each with a file. -/
theorem merge_complete_two_workers :
    (∀ w < 2, Sorted OpLogEntry.start (entries
      ((logs_of [(0, [1, 3]), (1, [2])] (worker_oplog_path merged_log w)).getD []))) ∧
    ∀ faults keep_worker_files,
      Merged (worker_entries (logs_of [(0, [1, 3]), (1, [2])]) merged_log 2) faults
        (merge_worker_oplogs (.first _) (logs_of [(0, [1, 3]), (1, [2])]) faults merged_log 2
          keep_worker_files) := by
  have hsorted : ∀ w < 2, Sorted OpLogEntry.start (entries
      ((logs_of [(0, [1, 3]), (1, [2])] (worker_oplog_path merged_log w)).getD [])) := by
    decide
  have hexisting : existing (logs_of [(0, [1, 3]), (1, [2])]) merged_log 2 =
      [(0, [.ok (get_at 1), .ok (get_at 3)]), (1, [.ok (get_at 2)])] := rfl
  refine ⟨hsorted, (merge_complete_iff hsorted).mpr ?_⟩
  intro position worker_id rows hposition
  rw [hexisting] at hposition
  match position with
  | 0 =>
    cases hposition
    exact .inr ⟨get_at 1, [.ok (get_at 3)], rfl, rfl, by decide⟩
  | 1 =>
    cases hposition
    exact .inl rfl
  | position + 2 => cases hposition

/-- The first worker has no file: one entry of the second is written, and its
file, with two entries, is removed. -/
theorem merge_complete_missing_file :
    ¬ ∀ (heap : MinHeap MergeEntry.start) (files : FilePath → Option (List Row))
      (base_path : FilePath) (num_workers : Nat),
      (∀ w < num_workers, Sorted OpLogEntry.start
        (entries ((files (worker_oplog_path base_path w)).getD []))) →
      ∀ faults keep_worker_files, Merged (worker_entries files base_path num_workers) faults
        (merge_worker_oplogs heap files faults base_path num_workers keep_worker_files) := by
  intro h
  obtain ⟨before, removed, hrun, hbefore, hremoved, hall⟩ :=
    h (.first _) (logs_of [(1, [1, 2])]) merged_log 2 (by decide) {} false
  have hlost : (written (merge_worker_oplogs (.first _) (logs_of [(1, [1, 2])]) {} merged_log 2
      false).1).length = 1 := rfl
  have hentries : (worker_entries (logs_of [(1, [1, 2])]) merged_log 2).length = 2 := rfl
  have hlength := (hall (.inl rfl)).1.length_eq
  rw [hrun, written, List.filterMap_append, List.length_append] at hlost
  unfold written at hlength
  omega

end sai3_bench.oplog_merge
