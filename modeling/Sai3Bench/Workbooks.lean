-- The workbook of a results directory (bin/analyze.rs): which files it looks for,
-- and whether the results that the controller writes of the stages are among them.
import Sai3Bench.Controllers
import Sai3Bench.DirectoryTrees
import Sai3Bench.Serde
import Sai3Bench.Templates

namespace sai3_bench.controller

open directory_tree texts

/-- The file that the results of a stage are written to. -/
def stage_tsv_name (stage_key : Nat × String) : Path :=
  padded 10 2 (stage_key.1 + 1) ++ '_' :: stage_key.2.toList ++ "_results.tsv".toList

end sai3_bench.controller

namespace sai3_bench.analyze

open directory_tree texts templates
open controller (Controller stage_tsv_name)
open serde (bind_ok)

/-! ## The directory -/

/-- A directory on the disk: the last component of its path, the files that exist below
it, by their paths from here, and the directories in `agents`, as they are listed. -/
structure Folder where
  path : Path
  file_name : Option Path
  files : List Path
  agents : List Path := []

structure ResultsDir where
  path : Path
  timestamp : Path
  workload : Path
  hosts : Path
  preflight_results_tsv : Option Path
  prepare_results_tsv : Option Path
  execute_results_tsv : Option Path
  cleanup_results_tsv : Option Path
  results_tsv : Option Path
  legacy_prepare_results_tsv : Option Path
  workload_results_tsv : Option Path
  perf_log_tsv : Option Path
  workload_endpoint_stats_tsv : Option Path
  prepare_endpoint_stats_tsv : Option Path
  agent_perf_logs : List (Path × Path)

/-- The file, if it exists. -/
def Folder.tsv (folder : Folder) (name : String) : Option Path :=
  if name.toList ∈ folder.files then some name.toList else none

/-- The time and the workload in a name, when it has all its parts. -/
def date_and_workload (name : Path) : Option (Path × Path) :=
  let parts := name.splitOn '-'
  if 4 ≤ parts.length then
    some (parts.getD 1 [] ++ '-' :: parts.getD 2 [], ['-'].intercalate (parts.drop 3))
  else none

/-- The time, the workload and the hosts in the name of a directory. -/
def metadata (dir_name : Path) : Path × Path × Path :=
  if '_' ∈ dir_name then
    let after_underscore := lastPart '_' dir_name
    let before_underscore := dir_name.take (dir_name.length - (after_underscore.length + 1))
    match date_and_workload before_underscore with
    | some (timestamp, workload) => (timestamp, workload, after_underscore)
    | none => (dir_name, "unknown".toList, "?".toList)
  else match date_and_workload dir_name with
    | some (timestamp, workload) => (timestamp, workload, "unknown".toList)
    | none => (dir_name, dir_name, "unknown".toList)

def perf_log_of (agent_name : Path) : Path :=
  "agents/".toList ++ agent_name ++ "/perf_log.tsv".toList

def ResultsDir.from_path (folder : Folder) : Except String ResultsDir :=
  match folder.file_name with
  | none => .error "Invalid directory name"
  | some dir_name =>
    let (timestamp, workload, hosts) := metadata dir_name
    .ok
      { path := folder.path
        timestamp := timestamp
        workload := workload
        hosts := hosts
        preflight_results_tsv := folder.tsv "01_preflight_results.tsv"
        prepare_results_tsv := folder.tsv "02_prepare_results.tsv"
        execute_results_tsv := folder.tsv "03_execute_results.tsv"
        cleanup_results_tsv := folder.tsv "04_cleanup_results.tsv"
        results_tsv := folder.tsv "results.tsv"
        legacy_prepare_results_tsv := folder.tsv "prepare_results.tsv"
        workload_results_tsv := folder.tsv "workload_results.tsv"
        perf_log_tsv := folder.tsv "perf_log.tsv"
        workload_endpoint_stats_tsv := folder.tsv "workload_endpoint_stats.tsv"
        prepare_endpoint_stats_tsv := folder.tsv "prepare_endpoint_stats.tsv"
        agent_perf_logs := (folder.agents.filter fun agent_name =>
          perf_log_of agent_name ∈ folder.files).map fun agent_name =>
            (agent_name, perf_log_of agent_name) }

/-! ## The names of the tabs -/

def utf8_len (s : Path) : Nat := (s.map fun c => c.utf8Size).sum

/-- `&s[..n]`, which has to end where a character does. -/
def slice_to : Path → Nat → Except String Path
  | _, 0 => .ok []
  | [], _ + 1 => .error "byte index is out of bounds"
  | c :: s, n + 1 =>
    if c.utf8Size ≤ n + 1 then (slice_to s (n + 1 - c.utf8Size)).map (c :: ·)
    else .error "byte index is not a char boundary"

/-- The first `n` bytes, or all of them. -/
def trimmed (s : Path) (n : Nat) : Except String Path :=
  if n < utf8_len s then slice_to s n else .ok s

/-- The names of the stages are shorter than a tab's. -/
def generate_tab_name (self : ResultsDir) (stage_name : Path) : Except String Path :=
  let short_workload := ( strip_prefix "sai3-".toList self.workload).getD self.workload
  let with_workload := short_workload ++ '-' :: stage_name
  if utf8_len with_workload ≤ 31 then .ok with_workload
  else
    let suffix_len := utf8_len stage_name + 1
    let workload_max_len := 31 - suffix_len
    if 3 < workload_max_len then
      (trimmed short_workload workload_max_len).map fun trimmed_workload =>
        trimmed_workload ++ '-' :: stage_name
    else .ok stage_name

def extract_stage_name (filename : Path) : Option Path :=
  match strip_suffix "_results.tsv".toList filename with
  | some stage_with_prefix => some stage_with_prefix
  | none =>
    if filename = "results.tsv".toList then some "workload".toList
    else if filename = "prepare_results.tsv".toList then some "prepare".toList
    else if filename = "perf_log.tsv".toList then some "perf_log".toList
    else strip_suffix "_endpoint_stats.tsv".toList filename

def fit_tab_name (base suffix : Path) : Except String Path :=
  if suffix.isEmpty then .ok base
  else
    let combined := base ++ '-' :: suffix
    if utf8_len combined ≤ 31 then .ok combined
    else (trimmed base (31 - (utf8_len suffix + 1))).map fun trimmed_base =>
      trimmed_base ++ '-' :: suffix

/-! ## The workbook -/

/-- A sheet, with the file that its rows come from. -/
structure Worksheet where
  name : Path
  source : Path

structure Tabs where
  used_tab_names : List Path := []
  worksheets : List Worksheet := []

/-- The name that is taken for a tab. The last one is taken even if it is in use. -/
def unique_tab_name (used_tab_names : List Path) (base : Path) (results_dir : ResultsDir) :
    Except String Path := do
  let with_timestamp ← fit_tab_name base results_dir.timestamp
  if with_timestamp ∉ used_tab_names then pure with_timestamp
  else
    let with_workload ← fit_tab_name base results_dir.workload
    if with_workload ∉ used_tab_names then pure with_workload
    else fit_tab_name base results_dir.path

/-- The writer of the workbook: the rows of a file on a sheet, the name of a sheet, and
the names of all sheets in the end. -/
structure Xlsx where
  write_tsv_to_worksheet : Path → Except String Unit
  set_name : Path → Except String Unit
  save : List Path → Except String Unit

/-- One file, on a tab of its own. -/
def add_tab (xlsx : Xlsx) (results_dir : ResultsDir) (tabs : Tabs)
    (tsv : Path × Except String Path) : Except String Tabs := do
  let base ← tsv.2
  let tab_name ← unique_tab_name tabs.used_tab_names base results_dir
  xlsx.set_name tab_name
  xlsx.write_tsv_to_worksheet tsv.1
  pure ⟨tab_name :: tabs.used_tab_names, tabs.worksheets ++ [⟨tab_name, tsv.1⟩]⟩

/-- A file whose name says what is on the tab. -/
def named_tab (results_dir : ResultsDir) (tsv_path : Option Path) (stage_name : String) :
    List (Path × Except String Path) :=
  tsv_path.toList.map fun tsv_path =>
    (tsv_path, generate_tab_name results_dir ((extract_stage_name tsv_path).getD stage_name.toList))

/-- The files of a directory, with the bases of their tabs' names. -/
def tsv_files (results_dir : ResultsDir) : List (Path × Except String Path) :=
  named_tab results_dir results_dir.preflight_results_tsv "preflight" ++
  named_tab results_dir results_dir.prepare_results_tsv "prepare" ++
  named_tab results_dir results_dir.execute_results_tsv "execute" ++
  named_tab results_dir results_dir.cleanup_results_tsv "cleanup" ++
  (results_dir.workload_results_tsv.toList.map fun tsv_path =>
    (tsv_path, generate_tab_name results_dir "workload".toList)) ++
  named_tab results_dir results_dir.results_tsv "workload" ++
  named_tab results_dir results_dir.legacy_prepare_results_tsv "prepare" ++
  named_tab results_dir results_dir.perf_log_tsv "perf_log" ++
  named_tab results_dir results_dir.workload_endpoint_stats_tsv "workload_endpt" ++
  named_tab results_dir results_dir.prepare_endpoint_stats_tsv "prepare_endpt" ++
  results_dir.agent_perf_logs.map fun (agent_name, perf_path) => (perf_path, .ok agent_name)

def add_dir (xlsx : Xlsx) (tabs : Tabs) (results_dir : ResultsDir) : Except String Tabs :=
  (tsv_files results_dir).foldlM (add_tab xlsx results_dir) tabs

def create_excel_workbook (xlsx : Xlsx) (results_dirs : List ResultsDir) :
    Except String (List Worksheet) := do
  let tabs ← results_dirs.foldlM (add_dir xlsx) {}
  if tabs.worksheets.isEmpty then .error "No TSV files found in any results directory"
  else
    xlsx.save (tabs.worksheets.map (·.name))
    pure tabs.worksheets

/-! ## The files of the sheets -/

variable {xlsx : Xlsx} {folder : Folder} {results_dir : ResultsDir} {tabs tabs' : Tabs}
  {sheets : List Worksheet}

theorem add_tab_sources {tsv : Path × Except String Path}
    (h : add_tab xlsx results_dir tabs tsv = .ok tabs') :
    tabs'.worksheets.map (·.source) = tabs.worksheets.map (·.source) ++ [tsv.1] := by
  unfold add_tab at h
  obtain ⟨base, _, h⟩ := bind_ok.mp h
  obtain ⟨tab_name, _, h⟩ := bind_ok.mp h
  obtain ⟨_, _, h⟩ := bind_ok.mp h
  obtain ⟨_, _, h⟩ := bind_ok.mp h
  cases h
  exact List.map_append

theorem add_tabs_sources {tsvs : List (Path × Except String Path)}
    (h : tsvs.foldlM (add_tab xlsx results_dir) tabs = .ok tabs') :
    tabs'.worksheets.map (·.source) = tabs.worksheets.map (·.source) ++ tsvs.map (·.1) := by
  induction tsvs generalizing tabs with
  | nil =>
    cases h
    exact (List.append_nil _).symm
  | cons tsv tsvs ih =>
    rw [List.foldlM_cons] at h
    obtain ⟨next, hnext, h⟩ := bind_ok.mp h
    rw [ih h, add_tab_sources hnext, List.append_assoc]
    rfl

/-- The sheets of one directory are its files, each on one. -/
theorem workbook_sources (h : create_excel_workbook xlsx [results_dir] = .ok sheets) :
    sheets.map (·.source) = (tsv_files results_dir).map (·.1) := by
  unfold create_excel_workbook at h
  obtain ⟨tabs, htabs, h⟩ := bind_ok.mp h
  rw [List.foldlM_cons] at htabs
  obtain ⟨_, hdir, htabs⟩ := bind_ok.mp htabs
  cases htabs
  split at h
  · cases h
  · obtain ⟨_, _, h⟩ := bind_ok.mp h
    cases h
    rw [add_tabs_sources hdir]
    rfl

/-- The names that a directory is searched for. -/
def tsv_names : List Path :=
  ["01_preflight_results.tsv", "02_prepare_results.tsv", "03_execute_results.tsv",
    "04_cleanup_results.tsv", "workload_results.tsv", "results.tsv", "prepare_results.tsv",
    "perf_log.tsv", "workload_endpoint_stats.tsv", "prepare_endpoint_stats.tsv"].map String.toList

theorem tsv_toList (folder : Folder) (name : String) :
    (folder.tsv name).toList = [name.toList].filter (· ∈ folder.files) := by
  unfold Folder.tsv
  split <;> simp_all

theorem tsv_files_of_folder (h : ResultsDir.from_path folder = .ok results_dir) :
    (tsv_files results_dir).map (·.1) = tsv_names.filter (· ∈ folder.files) ++
      (folder.agents.filter fun agent_name => perf_log_of agent_name ∈ folder.files).map
        perf_log_of := by
  unfold ResultsDir.from_path at h
  split at h
  · cases h
  · cases h
    simp only [tsv_files, named_tab, List.map_append, List.map_map, Function.comp_def, List.map_id',
      tsv_toList, ← List.filter_append]
    rfl

/-! ## The files of the stages -/

variable {key key' : Nat × String}

theorem stage_tsv_name_inj : stage_tsv_name key = stage_tsv_name key' ↔ key = key' := by
  constructor
  · intro h
    have hcount : ∀ n, (padded 10 2 n).count '_' = 0 := fun n =>
      List.count_eq_zero.mpr (not_mem_padded rfl)
    obtain ⟨hindex, hname⟩ := append_cons_inj (List.append_cancel_right h)
      ((hcount _).trans (hcount _).symm)
    exact Prod.ext (Nat.succ_injective (padded_injective hindex)) (String.toList_inj.mp hname)
  · rintro rfl
    rfl

/-- It begins with the number of the stage. -/
theorem stage_tsv_name_digit (key : Nat × String) :
    ∃ c ∈ (stage_tsv_name key).head?, c.isDigit = true := by
  obtain ⟨c, rest, hdigits⟩ := List.exists_cons_of_ne_nil (@padded_ne_nil 10 2 (key.1 + 1))
  have hc : c ∈ padded 10 2 (key.1 + 1) := by
    rw [hdigits]
    exact List.mem_cons_self
  refine ⟨c, ?_, padded_digits hc⟩
  unfold stage_tsv_name
  rw [hdigits]
  rfl

def numbered_stages : List String := ["preflight", "prepare", "execute", "cleanup"]

/-- The files of stages that a directory is searched for are those of four stages. -/
theorem mem_tsv_names : stage_tsv_name key ∈ tsv_names ↔ numbered_stages[key.1]? = some key.2 := by
  have hfour : tsv_names.take 4 = [stage_tsv_name (0, "preflight"), stage_tsv_name (1, "prepare"),
      stage_tsv_name (2, "execute"), stage_tsv_name (3, "cleanup")] := by decide
  have hrest : ∀ name ∈ tsv_names.drop 4, name.head?.any Char.isDigit = false := by decide
  have hmem : stage_tsv_name key ∈ tsv_names ↔ stage_tsv_name key ∈ tsv_names.take 4 := by
    constructor
    · intro h
      rw [← List.take_append_drop 4 tsv_names, List.mem_append] at h
      rcases h with h | h
      · exact h
      · obtain ⟨c, hc, hdigit⟩ := stage_tsv_name_digit key
        have hnone := hrest _ h
        rw [Option.mem_def.mp hc, Option.any_some, hdigit] at hnone
        cases hnone
    · exact List.mem_of_mem_take
  rw [hmem, hfour]
  simp only [List.mem_cons, List.not_mem_nil, or_false, stage_tsv_name_inj]
  constructor
  · rintro (rfl | rfl | rfl | rfl) <;> rfl
  · intro h
    obtain ⟨i, name⟩ := key
    match i, h with
    | 0, h => exact .inl (Prod.ext rfl (Option.some.inj h).symm)
    | 1, h => exact .inr (.inl (Prod.ext rfl (Option.some.inj h).symm))
    | 2, h => exact .inr (.inr (.inl (Prod.ext rfl (Option.some.inj h).symm)))
    | 3, h => exact .inr (.inr (.inr (Prod.ext rfl (Option.some.inj h).symm)))

/-- The results of each stage that the controller has written are on one sheet. -/
def NoStageLost (c : Controller) (sheets : List Worksheet) : Prop :=
  ∀ key ∈ c.stages_written, (sheets.map (·.source)).count (stage_tsv_name key) = 1

/-- No other file that is looked for has the name of a stage's. -/
theorem count_stage_file (h : create_excel_workbook xlsx [results_dir] = .ok sheets)
    (hdir : ResultsDir.from_path folder = .ok results_dir) (hfile : stage_tsv_name key ∈ folder.files) :
    (sheets.map (·.source)).count (stage_tsv_name key) =
      if stage_tsv_name key ∈ tsv_names then 1 else 0 := by
  have hagents : ∀ names : List Path, (names.map perf_log_of).count (stage_tsv_name key) = 0 := by
    intro names
    rw [List.count_eq_zero, List.mem_map]
    rintro ⟨agent_name, _, hname⟩
    obtain ⟨c, hc, hdigit⟩ := stage_tsv_name_digit key
    rw [← hname] at hc
    cases hc
    cases hdigit
  rw [workbook_sources h, tsv_files_of_folder hdir, List.count_append, hagents, Nat.add_zero,
    List.count_filter (p := fun name => decide (name ∈ folder.files)) (decide_eq_true hfile)]
  have hnodup : tsv_names.Nodup := by decide
  split
  · rename_i hmem
    exact List.count_eq_one_of_mem hnodup hmem
  · rename_i hmem
    exact List.count_eq_zero.mpr hmem

/-- Names of sheets are short, do without some marks, and are not used twice. -/
def excel : Xlsx where
  write_tsv_to_worksheet _ := .ok ()
  set_name name :=
    if name.length ≤ 31 ∧ name.all (· ∉ "[]:*?/\\".toList) then .ok ()
    else .error "Invalid worksheet name"
  save names := if names.Nodup then .ok () else .error "Worksheet name is already in use"

/-- The directory of a run that has written the results of two stages. -/
def two_stages (second : String) : Folder :=
  { path := "out/sai3-20251222-1744-bench_1hosts".toList
    file_name := some "sai3-20251222-1744-bench_1hosts".toList
    files := [stage_tsv_name (0, "preflight"), stage_tsv_name (1, second)] }

def after_two_stages (second : String) : Controller :=
  { trackers := ∅, aggregator := { expected_agents := 1 }, stages_written := {(0, "preflight"), (1, second)} }

def results_of (second : String) : ResultsDir :=
  { path := "out/sai3-20251222-1744-bench_1hosts".toList
    timestamp := "20251222-1744".toList
    workload := "bench".toList
    hosts := "1hosts".toList
    preflight_results_tsv := some "01_preflight_results.tsv".toList
    prepare_results_tsv := (two_stages second).tsv "02_prepare_results.tsv"
    execute_results_tsv := none
    cleanup_results_tsv := none
    results_tsv := none
    legacy_prepare_results_tsv := none
    workload_results_tsv := none
    perf_log_tsv := none
    workload_endpoint_stats_tsv := none
    prepare_endpoint_stats_tsv := none
    agent_perf_logs := [] }

def preflight_sheet : Worksheet :=
  ⟨"bench-01_prefligh-20251222-1744".toList, "01_preflight_results.tsv".toList⟩

def prepare_sheet : Worksheet :=
  ⟨"bench-02_prepare-20251222-1744".toList, "02_prepare_results.tsv".toList⟩

end sai3_bench.analyze
