-- Sorting an op-log through a window, and the check that it is sorted (oplog_merge.rs).
import Sai3Bench.OplogMerges

namespace sai3_bench.oplog_merge

open directory_tree texts merges

/-! ## Lines -/

/-- How the library of op-logs writes an operation and a time, and reads a line. -/
structure Format where
  op : OpType → Path
  to_rfc3339 : Int → Path
  read : Path → Row

def header : Path :=
  ("idx\tthread\top\tclient_id\tn_objects\tbytes\tendpoint\tfile\terror\tstart\t" ++
    "first_byte\tend\tduration_ns").toList

def write_entry (format : Format) (entry : OpLogEntry) (idx : Nat) : Path :=
  ['\t'].intercalate
    [padded 10 1 idx, padded 10 1 0, format.op entry.op, [], padded 10 1 1,
      padded 10 1 entry.bytes, entry.endpoint, entry.file, entry.error.getD [],
      format.to_rfc3339 entry.start, [], [], padded 10 1 (entry.duration_ns.getD 0)]

/-- The lines of some entries, numbered from a count. -/
def lines_of (format : Format) : Nat → List OpLogEntry → List Path
  | _, [] => []
  | idx, entry :: rest => write_entry format entry idx :: lines_of format (idx + 1) rest

/-! ## The check -/

/-- The result is whether the lines are in order, how many were read, and the first
that is not in order. -/
def check_lines (max : Nat) :
    Option Int → Nat → List Row → Except String (Bool × Nat × Option Nat)
  | _, line_num, [] => .ok (true, line_num, none)
  | _, _, .error e :: _ => .error e
  | prev_time, line_num, .ok entry :: rows =>
    let line_num := line_num + 1
    if prev_time.any fun prev => entry.start < prev then .ok (false, line_num, some line_num)
    else if max ≤ line_num then .ok (true, line_num, none)
    else check_lines max (some entry.start) line_num rows

def check_oplog_sorted (path : FilePath) (file : Option (List Row)) (max_lines : Option Nat) :
    Except String (Bool × Nat × Option Nat) :=
  match file with
  | none => .error s!"Failed to open op-log file: {path.display}"
  | some rows => check_lines (max_lines.getD (2 ^ 64 - 1)) none 0 rows

/-! ## The sort -/

section

variable (format : Format) (search : Search OpLogEntry.start) (writes : Nat → Bool)
  (window_size : Nat)

/-- The oldest entries of the window are written while it is too long. -/
def write_oldest : Nat → List OpLogEntry →
    List Path × Except String (List OpLogEntry × Nat)
  | output_count, [] => ([], .ok ([], output_count))
  | output_count, oldest :: window =>
    if window_size < (oldest :: window).length then
      if writes output_count then
        let (lines, result) := write_oldest (output_count + 1) window
        (write_entry format oldest output_count :: lines, result)
      else ([], .error s!"Failed to write entry {output_count}")
    else ([], .ok (oldest :: window, output_count))

/-- The rows go through the window, which is kept sorted. -/
def sort_rows : Nat → List OpLogEntry → List Row →
    List Path × Except String (List OpLogEntry × Nat)
  | output_count, window, [] => ([], .ok (window, output_count))
  | _, _, .error e :: _ => ([], .error e)
  | output_count, window, .ok entry :: rows =>
    match write_oldest format writes window_size output_count (insertAt search window entry) with
    | (lines, .error e) => (lines, .error e)
    | (lines, .ok (window, output_count)) =>
      let (more, result) := sort_rows output_count window rows
      (lines ++ more, result)

def write_rest : Nat → List OpLogEntry → List Path × Except String Unit
  | _, [] => ([], .ok ())
  | output_count, entry :: window =>
    if writes output_count then
      let (lines, result) := write_rest (output_count + 1) window
      (write_entry format entry output_count :: lines, result)
    else ([], .error s!"Failed to write entry {output_count}")

end

/-- The largest buffer in bytes. -/
def isize_max : Nat := 2 ^ 63 - 1

/-- The lines of the new file, which is not the one that is read, and the result; none
where the code panics. An entry takes `entry_size` bytes. -/
def sort_oplog_file (format : Format) (search : Search OpLogEntry.start) (entry_size : Nat)
    (files : FilePath → Option (List Row)) (faults : Faults) (input_path output_path : FilePath)
    (window_size : Nat) : List Path × Option (Except String Unit) :=
  match (files input_path).filter fun _ => faults.opens input_path with
  | none => ([], some (.error s!"Failed to open input file: {input_path.display}"))
  | some rows =>
    if !faults.creates then
      ([], some (.error s!"Failed to create output file: {output_path.display}"))
    else if isize_max < window_size * entry_size then
      -- no vector has this capacity
      ([header], none)
    else
      match sort_rows format search faults.writes window_size 0 [] rows with
      | (lines, .error e) => (header :: lines, some (.error e))
      | (lines, .ok (window, output_count)) =>
        let (rest, result) := write_rest format faults.writes output_count window
        (header :: lines ++ rest, some result)

/-! ### The lines that are written -/

section

variable {format : Format} {search : Search OpLogEntry.start} {writes : Nat → Bool}
  {window_size output_count : Nat} {window window' : List OpLogEntry} {rows : List Row}

theorem lines_of_append (es more : List OpLogEntry) (idx : Nat) :
    lines_of format idx (es ++ more) =
      lines_of format idx es ++ lines_of format (idx + es.length) more := by
  induction es generalizing idx with
  | nil => rfl
  | cons entry es ih =>
    have hidx : idx + 1 + es.length = idx + (entry :: es).length := by
      rw [List.length_cons]
      omega
    simp only [List.cons_append, lines_of, ih, hidx]

theorem lines_of_append_zero (es more : List OpLogEntry) :
    lines_of format 0 (es ++ more) =
      lines_of format 0 es ++ lines_of format es.length more := by
  rw [lines_of_append, Nat.zero_add]

theorem write_oldest_ok {count : Nat}
    (h : (write_oldest format writes window_size output_count window).2 = .ok (window', count)) :
    (write_oldest format writes window_size output_count window).1 =
        lines_of format output_count (drain window_size window).1 ∧
      window' = (drain window_size window).2 ∧
      count = output_count + (drain window_size window).1.length := by
  induction window generalizing output_count with
  | nil =>
    cases h
    exact ⟨rfl, rfl, rfl⟩
  | cons oldest window ih =>
    unfold write_oldest at h ⊢
    unfold drain
    split at h
    · rename_i hlong
      rw [if_pos hlong, if_pos hlong]
      split at h
      · rename_i hwrites
        obtain ⟨hlines, hwindow, hcount⟩ := ih h
        rw [if_pos hwrites]
        refine ⟨congrArg (_ :: ·) hlines, hwindow, ?_⟩
        rw [hcount, List.length_cons]
        omega
      · cases h
    · rename_i hshort
      rw [if_neg hshort, if_neg hshort]
      cases h
      exact ⟨rfl, rfl, rfl⟩

theorem write_oldest_writes (h : ∀ idx, writes idx = true) :
    ∃ result, (write_oldest format writes window_size output_count window).2 = .ok result := by
  induction window generalizing output_count with
  | nil => exact ⟨_, rfl⟩
  | cons oldest window ih =>
    unfold write_oldest
    split
    · rw [if_pos (h output_count)]
      exact ih
    · exact ⟨_, rfl⟩

/-- What a run writes is what comes out of the window. -/
theorem sort_rows_ok {count : Nat}
    (h : (sort_rows format search writes window_size output_count window rows).2 =
      .ok (window', count)) :
    (sort_rows format search writes window_size output_count window rows).1 =
        lines_of format output_count (through search window_size window (entries rows)).1 ∧
      window' = (through search window_size window (entries rows)).2 ∧
      count = output_count + (through search window_size window (entries rows)).1.length := by
  induction rows generalizing output_count window with
  | nil =>
    cases h
    exact ⟨rfl, rfl, rfl⟩
  | cons row rows ih =>
    cases row with
    | error e => cases h
    | ok entry =>
      have hentries : entries (.ok entry :: rows) = entry :: entries rows := rfl
      have holdest := @write_oldest_ok format writes window_size output_count
        (insertAt search window entry)
      unfold sort_rows at h ⊢
      rw [hentries]
      unfold through
      cases hresult : write_oldest format writes window_size output_count
          (insertAt search window entry) with
      | mk lines result =>
        rw [hresult] at h holdest
        cases result with
        | error e => cases h
        | ok state =>
          obtain ⟨hlines, hwindow, hcount⟩ := holdest rfl
          dsimp only at h hlines hwindow hcount ⊢
          obtain ⟨hmore, hrest, htotal⟩ := ih h
          rw [hwindow, hcount] at hmore
          rw [hwindow] at hrest htotal
          refine ⟨?_, hrest, ?_⟩
          · rw [hwindow, hcount, hlines, hmore, lines_of_append]
          · rw [htotal, hcount, List.length_append]
            omega

theorem sort_rows_reads (h : ∀ idx, writes idx = true)
    (hrows : ∀ row ∈ rows, ∃ entry, row = .ok entry) :
    ∃ result,
      (sort_rows format search writes window_size output_count window rows).2 = .ok result := by
  induction rows generalizing output_count window with
  | nil => exact ⟨_, rfl⟩
  | cons row rows ih =>
    obtain ⟨⟨entry, rfl⟩, hrest⟩ := List.forall_mem_cons.mp hrows
    obtain ⟨state, hstate⟩ := @write_oldest_writes format writes window_size output_count
      (insertAt search window entry) h
    unfold sort_rows
    split
    · rename_i hresult
      rw [hresult] at hstate
      cases hstate
    · exact ih hrest

theorem readable_of_no_error (h : ∀ e, .error e ∉ rows) :
    ∀ row ∈ rows, ∃ entry, row = .ok entry := by
  intro row hrow
  cases row with
  | error e => exact absurd hrow (h e)
  | ok entry => exact ⟨entry, rfl⟩

/-- A row that cannot be read ends the run. -/
theorem sort_rows_unreadable {e : String} (h : .error e ∈ rows) :
    ∃ e', (sort_rows format search writes window_size output_count window rows).2 =
      .error e' := by
  induction rows generalizing output_count window with
  | nil => cases h
  | cons row rows ih =>
    cases row with
    | error e => exact ⟨e, rfl⟩
    | ok entry =>
      unfold sort_rows
      split
      · exact ⟨_, rfl⟩
      · exact ih ((List.mem_cons.mp h).resolve_left nofun)

theorem write_rest_ok (h : (write_rest format writes output_count window).2 = .ok ()) :
    (write_rest format writes output_count window).1 = lines_of format output_count window := by
  induction window generalizing output_count with
  | nil => rfl
  | cons entry window ih =>
    unfold write_rest at h ⊢
    split at h
    · rename_i hwrites
      rw [if_pos hwrites]
      exact congrArg (_ :: ·) (ih h)
    · cases h

theorem write_rest_writes (h : ∀ idx, writes idx = true) :
    (write_rest format writes output_count window).2 = .ok () := by
  induction window generalizing output_count with
  | nil => rfl
  | cons entry window ih =>
    unfold write_rest
    rw [if_pos (h output_count)]
    exact ih

end

/-! ### The order -/

section

variable {format : Format}

theorem check_lines_sorted {max line_num : Nat} {prev_time : Option Int} {rows : List Row}
    {starts : List Int} (hprev : ∀ prev ∈ prev_time, ∀ start ∈ starts, prev ≤ start)
    (hrows : List.Forall₂ (fun row start => ∃ entry : OpLogEntry,
      row = .ok entry ∧ entry.start = start) rows starts)
    (h : starts.Pairwise (· ≤ ·)) :
    ∃ n, check_lines max prev_time line_num rows = .ok (true, n, none) := by
  induction hrows generalizing prev_time line_num with
  | nil => exact ⟨_, rfl⟩
  | @cons row start rows starts hrow _ ih =>
    obtain ⟨entry, rfl, rfl⟩ := hrow
    rw [List.pairwise_cons] at h
    have hfirst : ¬ prev_time.any (fun prev => entry.start < prev) = true := by
      cases prev_time with
      | none => simp
      | some prev =>
        have hle := hprev prev rfl entry.start List.mem_cons_self
        simpa using hle
    unfold check_lines
    dsimp only
    rw [if_neg hfirst]
    split
    · exact ⟨_, rfl⟩
    · refine ih ?_ h.2
      rintro prev hprev
      cases hprev
      exact h.1

/-- The starts of the entries are read back from their lines. -/
theorem read_lines {es : List OpLogEntry} {idx : Nat}
    (hread : ∀ entry ∈ es, ∀ idx, ∃ back,
      format.read (write_entry format entry idx) = .ok back ∧ back.start = entry.start) :
    List.Forall₂ (fun row start => ∃ entry : OpLogEntry, row = .ok entry ∧ entry.start = start)
      ((lines_of format idx es).map format.read) (es.map OpLogEntry.start) := by
  induction es generalizing idx with
  | nil => exact .nil
  | cons entry es ih =>
    rw [List.forall_mem_cons] at hread
    exact .cons (hread.1 idx) (ih hread.2)

/-- What comes through the window is written, unless something stops the run. -/
theorem sort_oplog_file_cases (format : Format) (search : Search OpLogEntry.start)
    {entry_size window_size : Nat} {files : FilePath → Option (List Row)} (faults : Faults)
    {input_path : FilePath} (output_path : FilePath) {rows : List Row}
    (hfits : window_size * entry_size ≤ isize_max) (hfile : files input_path = some rows) :
    let run := sort_oplog_file format search entry_size files faults input_path output_path
      window_size
    let sorted := (through search window_size [] (entries rows)).1 ++
      (through search window_size [] (entries rows)).2
    (faults ≠ {} ∧ ∃ e, run.2 = some (.error e)) ∨
      (∃ e, .error e ∈ rows) ∧ (∃ e, run.2 = some (.error e)) ∨
      (∀ e, .error e ∉ rows) ∧ run = (header :: lines_of format 0 sorted, some (.ok ())) := by
  dsimp only
  unfold sort_oplog_file
  rw [hfile]
  split
  · rename_i hnone
    refine .inl ⟨?_, _, rfl⟩
    rintro rfl
    cases hnone
  · rename_i hsome
    cases (Option.filter_eq_some_iff.mp hsome).1
    split
    · rename_i hcreates
      refine .inl ⟨?_, _, rfl⟩
      rintro rfl
      cases hcreates
    · rw [if_neg (Nat.not_lt.mpr hfits)]
      have hok := fun window => @sort_rows_ok format search faults.writes window_size 0
          [] window rows
      have hunreadable := @sort_rows_unreadable format search faults.writes window_size 0 [] rows
      cases hrun : sort_rows format search faults.writes window_size 0 [] rows with
      | mk lines result =>
        cases result with
        | error e =>
          by_cases herror : ∃ e, .error e ∈ rows
          · exact .inr (.inl ⟨herror, e, rfl⟩)
          · refine .inl ⟨?_, e, rfl⟩
            rintro rfl
            obtain ⟨state, hstate⟩ := @sort_rows_reads format search _ window_size 0 [] rows
              (fun _ => rfl) (readable_of_no_error fun e he => herror ⟨e, he⟩)
            rw [hrun] at hstate
            cases hstate
        | ok state =>
          obtain ⟨window, output_count⟩ := state
          rw [hrun] at hok hunreadable
          obtain ⟨hlines, hwindow, hcount⟩ := hok window rfl
          have hreadable : ∀ e, .error e ∉ rows := by
            intro e he
            obtain ⟨e', he'⟩ := hunreadable he
            cases he'
          dsimp only at hlines ⊢
          cases hrest : (write_rest format faults.writes output_count window).2 with
          | error e =>
            refine .inl ⟨?_, e, rfl⟩
            rintro rfl
            rw [write_rest_writes fun _ => rfl] at hrest
            cases hrest
          | ok _ =>
            refine .inr (.inr ⟨hreadable, ?_⟩)
            rw [write_rest_ok hrest, hlines, hcount, hwindow, Nat.zero_add, List.cons_append,
              ← lines_of_append_zero]

/-! ### Times in the first ten seconds -/

def op_name : OpType → Path
  | .GET => "GET".toList
  | .PUT => "PUT".toList
  | .DELETE => "DELETE".toList
  | .LIST => "LIST".toList
  | .STAT => "STAT".toList

def second_text (start : Int) : Path :=
  "1970-01-01T00:00:0".toList ++ (padded 10 1 (start.toNat / 10 ^ 9) ++ "+00:00".toList)

def parse_second (text : Path) : Option Int := do
  let text ← strip_prefix "1970-01-01T00:00:0".toList text
  let seconds ← parse_u64 (← strip_suffix "+00:00".toList text)
  return (seconds * 10 ^ 9 : Nat)

/-- The fields of a line stand between tabs. -/
def read_line (line : Path) : Row :=
  match line.splitOn '\t' with
  | [_, _, op, _, _, bytes, endpoint, file, error, start, _, _, duration_ns] =>
    let entry := do
      let op ← [OpType.GET, .PUT, .DELETE, .LIST, .STAT].find? fun o => op_name o = op
      let bytes ← parse_u64 bytes
      let start ← parse_second start
      let error := if error = [] then none else some error
      return ({ op, bytes, endpoint, file, error, start, duration_ns := parse_u64 duration_ns } :
        OpLogEntry)
    entry.elim (.error "Failed to parse op-log line") .ok
  | _ => .error "Failed to parse op-log line"

def first_seconds : Format := ⟨op_name, second_text, read_line⟩

def get_in (second : Nat) : OpLogEntry := get_at (second * 10 ^ 9 : Nat)

def three_gets : List OpLogEntry := [2, 1, 3].map get_in

def sorted_log : FilePath := ⟨some "/tmp".toList, some "oplog.sorted.tsv.zst".toList⟩

theorem read_get {second : Nat} (h : second < 2 ^ 64) (idx : Nat) :
    first_seconds.read (write_entry first_seconds (get_in second) idx) =
      .ok { get_in second with duration_ns := some 0 } := by
  have hfields : (write_entry first_seconds (get_in second) idx).splitOn '\t' =
      [padded 10 1 idx, padded 10 1 0, "GET".toList, [], padded 10 1 1, padded 10 1 1024,
        "s3://bucket/".toList, "object".toList, [], second_text (second * 10 ^ 9 : Nat), [], [],
        padded 10 1 0] := by
    have htime : '\t' ∉ second_text (second * 10 ^ 9 : Nat) := by
      unfold second_text
      rw [List.mem_append, List.mem_append, not_or, not_or]
      exact ⟨by decide, not_mem_padded rfl, by decide⟩
    refine List.splitOn_intercalate _ ?_ (List.cons_ne_nil _ _)
    have hdigits : ∀ n, '\t' ∉ padded 10 1 n := fun n => not_mem_padded rfl
    simp only [List.forall_mem_cons, List.not_mem_nil, not_false_eq_true, hdigits, true_and,
      IsEmpty.forall_iff, implies_true, and_true]
    exact ⟨show '\t' ∉ "GET".toList by decide, show '\t' ∉ "s3://bucket/".toList by decide,
      show '\t' ∉ "object".toList by decide, List.not_mem_nil, htime⟩
  have hbytes : parse_u64 (padded 10 1 1024) = some 1024 := parse_padded (by decide)
  have hduration : parse_u64 (padded 10 1 0) = some 0 := parse_padded (by decide)
  have htime : parse_second (second_text (second * 10 ^ 9 : Nat)) =
      some (second * 10 ^ 9 : Nat) := by
    have hsecond : ((second * 10 ^ 9 : Nat) : Int).toNat / 10 ^ 9 = second := by
      rw [Int.toNat_natCast, Nat.mul_div_cancel _ (by decide)]
    unfold parse_second second_text
    rw [hsecond, strip_prefix_append]
    change (strip_suffix _ _).bind _ = _
    rw [strip_suffix_append]
    change (parse_u64 _).bind _ = _
    rw [parse_padded h]
    rfl
  change read_line _ = _
  unfold read_line
  rw [hfields]
  simp only [hbytes, hduration, htime]
  rfl

/-- An op-log that can be read is sorted, whatever the window is, as far as a vector
can hold it: a file that is written has all entries, and they are in order when no
entry has more later ones before it than the window holds. -/
theorem sort_oplog_file_sorts {format : Format} {search : Search OpLogEntry.start}
    {entry_size window_size : Nat} {files : FilePath → Option (List Row)} {faults : Faults}
    {input_path output_path : FilePath} {rows : List Row}
    (hfits : window_size * entry_size ≤ isize_max) (hfile : files input_path = some rows)
    (hread : ∀ entry ∈ entries rows, ∀ idx, ∃ back,
      format.read (write_entry format entry idx) = .ok back ∧ back.start = entry.start) :
    let run := sort_oplog_file format search entry_size files faults input_path output_path
      window_size
    ((∀ row ∈ rows, ∃ entry, row = .ok entry) → faults = {} → run.2 = some (.ok ())) ∧
    ((∃ e, .error e ∈ rows) → ∃ e, run.2 = some (.error e)) ∧
    (run.2 = some (.ok ()) → ∃ sorted : List OpLogEntry,
      run.1 = header :: lines_of format 0 sorted ∧ sorted.Perm (entries rows) ∧
      (Displaced OpLogEntry.start window_size [] (entries rows) →
        Sorted OpLogEntry.start sorted ∧ ∀ max_lines, ∃ n,
          check_oplog_sorted output_path (some (run.1.tail.map format.read)) max_lines =
            .ok (true, n, none))) := by
  dsimp only
  rcases sort_oplog_file_cases format search faults output_path hfits hfile with
    ⟨hfaults, e, he⟩ | ⟨⟨e', he'⟩, e, he⟩ | ⟨hreadable, hrun⟩
  · rw [he]
    exact ⟨fun _ h => absurd h hfaults, fun _ => ⟨e, rfl⟩, nofun⟩
  · rw [he]
    refine ⟨fun hrows => ?_, fun _ => ⟨e, rfl⟩, nofun⟩
    obtain ⟨entry, hentry⟩ := hrows _ he'
    cases hentry
  · rw [hrun]
    refine ⟨fun _ _ => rfl, fun ⟨e, he⟩ => absurd he (hreadable e), fun _ => ?_⟩
    have hperm := @through_perm _ _ _ OpLogEntry.start search window_size [] (entries rows)
    refine ⟨_, rfl, hperm, fun hdisplaced => ?_⟩
    have hsorted := @through_sorted _ _ _ _ search _ _ _ .nil (Nat.zero_le _) hdisplaced
    refine ⟨hsorted, fun max_lines => ?_⟩
    refine check_lines_sorted nofun (read_lines fun entry hentry => ?_) ?_
    · exact hread entry (hperm.mem_iff.mp hentry)
    · exact List.pairwise_map.mpr hsorted

/-- The second entry comes before the first one, which a window of one entry mends. -/
theorem sort_oplog_file_three :
    (∀ entry ∈ three_gets, ∀ idx, ∃ back,
      first_seconds.read (write_entry first_seconds entry idx) = .ok back ∧
        back.start = entry.start) ∧
    ∃ sorted : List OpLogEntry, sorted.Perm three_gets ∧ Sorted OpLogEntry.start sorted := by
  have hread : ∀ entry ∈ three_gets, ∀ idx, ∃ back,
      first_seconds.read (write_entry first_seconds entry idx) = .ok back ∧
        back.start = entry.start := by
    unfold three_gets
    rw [List.forall_mem_map]
    intro second hsecond idx
    have hsmall : ∀ second ∈ [2, 1, 3], second < 2 ^ 64 := by decide
    exact ⟨_, read_get (hsmall second hsecond) idx, rfl⟩
  have hreadable : ∀ row ∈ three_gets.map Except.ok, ∃ entry, (row : Row) = .ok entry := by
    rw [List.forall_mem_map]
    exact fun entry _ => ⟨entry, rfl⟩
  have hdisplaced : Displaced OpLogEntry.start 1 [] three_gets := by
    unfold three_gets
    simp only [List.map_cons, List.map_nil, displaced_cons]
    exact ⟨by decide, by decide, by decide, displaced_nil⟩
  refine ⟨hread, ?_⟩
  obtain ⟨hok, _, hsorts⟩ := @sort_oplog_file_sorts first_seconds (.first _) 200 1
    (fun _ => some (three_gets.map .ok)) {} merged_log sorted_log (three_gets.map .ok) (by decide)
    rfl hread
  obtain ⟨sorted, _, hperm, hsorted⟩ := hsorts (hok hreadable rfl)
  exact ⟨sorted, hperm, (hsorted hdisplaced).1⟩

/-- No vector has a capacity of 2^63 entries, and a row that cannot be read is an error. -/
theorem sort_oplog_file_refuses :
    (¬∃ entry_size > 0, ∀ (format : Format) (search : Search OpLogEntry.start)
      (files : FilePath → Option (List Row)) (input_path output_path : FilePath)
      (rows : List Row) (window_size : Nat), 1 ≤ window_size → files input_path = some rows →
      (∀ row ∈ rows, ∃ entry, row = .ok entry) → ∃ sorted : List OpLogEntry,
        sorted.Perm (entries rows) ∧ sort_oplog_file format search entry_size files {} input_path
          output_path window_size = (header :: lines_of format 0 sorted, some (.ok ()))) ∧
    ¬∃ entry_size ≤ isize_max, ∀ (format : Format) (search : Search OpLogEntry.start)
      (files : FilePath → Option (List Row)) (input_path output_path : FilePath)
      (rows : List Row) (window_size : Nat), 1 ≤ window_size → files input_path = some rows →
      window_size * entry_size ≤ isize_max → ∃ sorted : List OpLogEntry,
        sorted.Perm (entries rows) ∧ sort_oplog_file format search entry_size files {} input_path
          output_path window_size = (header :: lines_of format 0 sorted, some (.ok ())) := by
  constructor
  · rintro ⟨entry_size, hsize, h⟩
    obtain ⟨sorted, _, hrun⟩ := h first_seconds (.first _) (fun _ => some []) merged_log sorted_log
      [] (2 ^ 63) (by decide) rfl nofun
    have hlarge : isize_max < 2 ^ 63 * entry_size := by
      unfold isize_max
      omega
    unfold sort_oplog_file at hrun
    simp only [Option.filter_some, if_pos hlarge] at hrun
    cases congrArg Prod.snd hrun
  · rintro ⟨entry_size, hsize, h⟩
    obtain ⟨sorted, _, hrun⟩ := h first_seconds (.first _) (fun _ => some [.error "bad row"])
      merged_log sorted_log [.error "bad row"] 1 (by decide) rfl (by omega)
    have hsmall : ¬isize_max < 1 * entry_size := by omega
    unfold sort_oplog_file at hrun
    simp only [Option.filter_some, if_neg hsmall] at hrun
    cases congrArg Prod.snd hrun

end

end sai3_bench.oplog_merge
