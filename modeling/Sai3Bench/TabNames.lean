-- The names of the tabs of a workbook (bin/analyze.rs): when they are made without a
-- panic, are short enough, and differ from one another.
import Sai3Bench.Workbooks

namespace sai3_bench.analyze

open directory_tree texts
open serde (bind_ok)

/-! ## Bytes and characters -/

section

variable {s t : Path} {n : Nat}

theorem utf8_len_cons (c : Char) (s : Path) : utf8_len (c :: s) = c.utf8Size + utf8_len s := rfl

theorem utf8_len_append : utf8_len (s ++ t) = utf8_len s + utf8_len t := by
  unfold utf8_len
  rw [List.map_append, List.sum_append]

theorem utf8_len_dash : utf8_len (s ++ '-' :: t) = utf8_len s + (1 + utf8_len t) := utf8_len_append

/-- A tab has 31 bytes at most, of which the dash takes one. -/
theorem room_dash (t : Path) : 31 - (utf8_len t + 1) = 30 - utf8_len t := by omega

theorem length_le_utf8_len (s : Path) : s.length ≤ utf8_len s := by
  induction s with
  | nil => exact le_rfl
  | cons c s ih =>
    have := c.utf8Size_pos
    rw [utf8_len_cons, List.length_cons]
    omega

/-- The characters that end within the first `n` bytes. -/
def cut : Path → Nat → Path
  | [], _ => []
  | c :: s, n => if c.utf8Size ≤ n then c :: cut s (n - c.utf8Size) else []

/-- No character goes on beyond the first `n` bytes. -/
def CutsWhole (s : Path) (n : Nat) : Prop := utf8_len (cut s n) = min n (utf8_len s)

instance : Decidable (CutsWhole s n) := inferInstanceAs (Decidable (_ = _))

theorem utf8_len_cut_le (s : Path) (n : Nat) : utf8_len (cut s n) ≤ n := by
  induction s generalizing n with
  | nil => exact Nat.zero_le n
  | cons c s ih =>
    unfold cut
    by_cases hc : c.utf8Size ≤ n
    · rw [if_pos hc, utf8_len_cons]
      have := ih (n - c.utf8Size)
      omega
    · rw [if_neg hc]
      exact Nat.zero_le n

theorem cut_of_le (h : utf8_len s ≤ n) : cut s n = s := by
  induction s generalizing n with
  | nil => rfl
  | cons c s ih =>
    rw [utf8_len_cons] at h
    unfold cut
    rw [if_pos (by omega), ih (by omega)]

theorem cutsWhole_of_le (h : utf8_len s ≤ n) : CutsWhole s n := by
  unfold CutsWhole
  rw [cut_of_le h]
  omega

theorem cut_zero (s : Path) : cut s 0 = [] := by
  cases s with
  | nil => rfl
  | cons c s =>
    have := c.utf8Size_pos
    exact if_neg (by omega)

/-- A slice is what ends within it, when nothing goes on beyond it. -/
theorem slice_to_eq (h : n ≤ utf8_len s) :
    (CutsWhole s n → slice_to s n = .ok (cut s n)) ∧
      (¬ CutsWhole s n → ∃ e, slice_to s n = .error e) := by
  induction s generalizing n with
  | nil =>
    obtain rfl : n = 0 := Nat.le_zero.mp h
    exact ⟨fun _ => rfl, fun hnot => absurd rfl hnot⟩
  | cons c s ih =>
    have hpos := c.utf8Size_pos
    rw [utf8_len_cons] at h
    cases n with
    | zero =>
      rw [cut_zero]
      exact ⟨fun _ => rfl, fun hnot => absurd (by unfold CutsWhole; rw [cut_zero]; rfl) hnot⟩
    | succ n =>
      unfold slice_to CutsWhole cut
      by_cases hc : c.utf8Size ≤ n + 1
      · obtain ⟨hok, herr⟩ := ih (n := n + 1 - c.utf8Size) (by omega)
        rw [if_pos hc, if_pos hc, utf8_len_cons, utf8_len_cons]
        unfold CutsWhole at hok herr
        constructor
        · intro hwhole
          rw [hok (by omega)]
          rfl
        · intro hnot
          obtain ⟨e, he⟩ := herr (by omega)
          rw [he]
          exact ⟨e, rfl⟩
      · rw [if_neg hc, if_neg hc]
        refine ⟨fun hwhole => ?_, fun _ => ⟨_, rfl⟩⟩
        have hzero : utf8_len [] = 0 := rfl
        rw [hzero, utf8_len_cons] at hwhole
        omega

theorem trimmed_ok (h : CutsWhole s n) : trimmed s n = .ok (cut s n) := by
  unfold trimmed
  by_cases hlong : n < utf8_len s
  · rw [if_pos hlong]
    exact (slice_to_eq (by omega)).1 h
  · rw [if_neg hlong, cut_of_le (by omega)]

theorem trimmed_error (h : ¬ CutsWhole s n) : ∃ e, trimmed s n = .error e := by
  unfold trimmed
  by_cases hlong : n < utf8_len s
  · rw [if_pos hlong]
    exact (slice_to_eq (by omega)).2 h
  · exact absurd (cutsWhole_of_le (by omega)) h

end

/-! ## One name -/

section

variable {dir : ResultsDir} {stage_name base suffix name : Path} {used : List Path}

def short_workload (dir : ResultsDir) : Path :=
  ( strip_prefix "sai3-".toList dir.workload).getD dir.workload

theorem generate_tab_name_ok (hstage : utf8_len stage_name ≤ 26)
    (h : CutsWhole (short_workload dir) (30 - utf8_len stage_name)) :
    generate_tab_name dir stage_name =
      .ok (cut (short_workload dir) (30 - utf8_len stage_name) ++ '-' :: stage_name) := by
  unfold generate_tab_name
  rw [← short_workload]
  dsimp only
  rw [utf8_len_dash, room_dash]
  by_cases hfits : utf8_len (short_workload dir) + (1 + utf8_len stage_name) ≤ 31
  · rw [if_pos hfits, cut_of_le (by omega)]
  · rw [if_neg hfits, if_pos (by omega), trimmed_ok h]
    rfl

theorem generate_tab_name_error (hstage : utf8_len stage_name ≤ 26)
    (h : ¬ CutsWhole (short_workload dir) (30 - utf8_len stage_name)) :
    ∃ e, generate_tab_name dir stage_name = .error e := by
  have hlong : ¬ utf8_len (short_workload dir) ≤ 30 - utf8_len stage_name :=
    fun hle => h (cutsWhole_of_le hle)
  obtain ⟨e, he⟩ := trimmed_error h
  unfold generate_tab_name
  rw [← short_workload]
  dsimp only
  rw [utf8_len_dash, room_dash, if_neg (by omega), if_pos (by omega), he]
  exact ⟨e, rfl⟩

/-- A base with a suffix, as many bytes of the base as the suffix leaves room for. -/
def name_with (base suffix : Path) : Path :=
  if suffix = [] then base else cut base (30 - utf8_len suffix) ++ '-' :: suffix

/-- No character of the base is cut. -/
def FitsWhole (base suffix : Path) : Prop := suffix = [] ∨ CutsWhole base (30 - utf8_len suffix)

/-- A suffix leaves room for the dash, whatever is left of the base. -/
def FitsTab (base suffix : Path) : Prop := if suffix = [] then base.length ≤ 31 else suffix.length ≤ 30

instance : Decidable (FitsWhole base suffix) := inferInstanceAs (Decidable (_ ∨ _))

instance : Decidable (FitsTab base suffix) := by unfold FitsTab; infer_instance

theorem fit_tab_name_ok (h : FitsWhole base suffix) :
    fit_tab_name base suffix = .ok (name_with base suffix) := by
  unfold fit_tab_name name_with
  by_cases hempty : suffix = []
  · subst hempty
    rfl
  · have hnot : suffix.isEmpty = false := by simpa using hempty
    have hwhole := h.resolve_left hempty
    rw [hnot, if_neg hempty]
    dsimp only
    rw [if_neg Bool.false_ne_true, utf8_len_dash, room_dash]
    by_cases hfits : utf8_len base + (1 + utf8_len suffix) ≤ 31
    · rw [if_pos hfits, cut_of_le (by omega)]
    · rw [if_neg hfits, trimmed_ok hwhole]
      rfl

theorem fit_tab_name_error (h : ¬ FitsWhole base suffix) : ∃ e, fit_tab_name base suffix = .error e := by
  unfold FitsWhole at h
  rw [not_or] at h
  obtain ⟨hempty, hcut⟩ := h
  have hnot : suffix.isEmpty = false := by simpa using hempty
  have hlong : ¬ utf8_len base ≤ 30 - utf8_len suffix := fun hle => hcut (cutsWhole_of_le hle)
  obtain ⟨e, he⟩ := trimmed_error hcut
  unfold fit_tab_name
  rw [hnot, if_neg Bool.false_ne_true]
  dsimp only
  rw [utf8_len_dash, room_dash, if_neg (by omega), he]
  exact ⟨e, rfl⟩

theorem name_length : (name_with base suffix).length ≤ 31 ↔ FitsTab base suffix := by
  unfold name_with FitsTab
  by_cases hempty : suffix = []
  · rw [if_pos hempty, if_pos hempty]
  · rw [if_neg hempty, if_neg hempty, List.length_append, List.length_cons]
    have hcut := length_le_utf8_len (cut base (30 - utf8_len suffix))
    have hle := utf8_len_cut_le base (30 - utf8_len suffix)
    have hsuffix := length_le_utf8_len suffix
    by_cases hlong : utf8_len suffix ≤ 30
    · omega
    · have hzero : 30 - utf8_len suffix = 0 := by omega
      rw [hzero, cut_zero, List.length_nil]
      omega

/-- The first of some suffixes that gives a new name gives a short one, and none is tried
that would cut a character. -/
def Finds (used : List Path) (base : Path) : List Path → Prop
  | [] => False
  | suffix :: suffixes => FitsWhole base suffix ∧
    if name_with base suffix ∈ used then Finds used base suffixes else FitsTab base suffix

/-- The name is new and short. -/
def Good (used : List Path) (result : Except String Path) : Prop :=
  ∃ name, result = .ok name ∧ name ∉ used ∧ name.length ≤ 31

theorem not_good_error {e : String} : ¬ Good used (.error e) := by
  rintro ⟨name, hname, _⟩
  cases hname

theorem good_ok : Good used (.ok name) ↔ name ∉ used ∧ name.length ≤ 31 := by
  constructor
  · rintro ⟨_, hname, hgood⟩
    cases hname
    exact hgood
  · exact fun hgood => ⟨name, rfl, hgood⟩

theorem good_fit_tab_name : Good used (fit_tab_name base suffix) ↔ Finds used base [suffix] := by
  unfold Finds
  by_cases hwhole : FitsWhole base suffix
  · rw [fit_tab_name_ok hwhole, good_ok, name_length]
    by_cases hused : name_with base suffix ∈ used
    · simp [hused, Finds]
    · simp [hused, hwhole]
  · obtain ⟨e, he⟩ := fit_tab_name_error hwhole
    rw [he]
    exact iff_of_false not_good_error fun h => hwhole h.1

/-- A name that is not in use ends the search. -/
theorem good_tab_name {next : Except String Path} {suffixes : List Path}
    (hnext : Good used next ↔ Finds used base suffixes) :
    Good used (fit_tab_name base suffix >>= fun name => if name ∉ used then pure name else next) ↔
      Finds used base (suffix :: suffixes) := by
  unfold Finds
  by_cases hwhole : FitsWhole base suffix
  · rw [fit_tab_name_ok hwhole]
    change Good used (if name_with base suffix ∉ used then .ok _ else next) ↔ _
    by_cases hused : name_with base suffix ∈ used
    · rw [if_neg (not_not.mpr hused), if_pos hused, hnext]
      exact (and_iff_right hwhole).symm
    · rw [if_pos hused, if_neg hused, good_ok, name_length]
      exact and_congr_left fun _ => iff_of_true hused hwhole
  · obtain ⟨e, he⟩ := fit_tab_name_error hwhole
    rw [he]
    exact iff_of_false not_good_error fun h => hwhole h.1

theorem good_unique_tab_name : Good used (unique_tab_name used base dir) ↔
    Finds used base [dir.timestamp, dir.workload, dir.path] := by
  unfold unique_tab_name
  exact good_tab_name (good_tab_name good_fit_tab_name)

end

/-! ## The names of all tabs -/

/-- What a tab is named after: the stage in the name of a file, or an agent. -/
inductive TabSource
  | Stage (stage_name : Path)
  | Agent (agent_name : Path)

def TabSource.tab_name (dir : ResultsDir) : TabSource → Except String Path
  | Stage stage_name => generate_tab_name dir stage_name
  | Agent agent_name => .ok agent_name

/-- The name of a tab of a stage, as much of the workload as there is room for. -/
def TabSource.base (dir : ResultsDir) : TabSource → Path
  | Stage stage_name => cut (short_workload dir) (30 - utf8_len stage_name) ++ '-' :: stage_name
  | Agent agent_name => agent_name

/-- No character of the workload is cut. -/
def TabSource.Whole (dir : ResultsDir) : TabSource → Prop
  | Stage stage_name => CutsWhole (short_workload dir) (30 - utf8_len stage_name)
  | Agent _ => True

/-- The stage leaves room for some of the workload. -/
def TabSource.Short : TabSource → Prop
  | Stage stage_name => utf8_len stage_name ≤ 26
  | Agent _ => True

def stage_source (tsv_path : Option Path) (stage_name : String) : List TabSource :=
  tsv_path.toList.map fun tsv_path =>
    .Stage ((extract_stage_name tsv_path).getD stage_name.toList)

/-- What the tabs of a directory are named after, in the order of its files. -/
def tab_sources (dir : ResultsDir) : List TabSource :=
  stage_source dir.preflight_results_tsv "preflight" ++
  stage_source dir.prepare_results_tsv "prepare" ++
  stage_source dir.execute_results_tsv "execute" ++
  stage_source dir.cleanup_results_tsv "cleanup" ++
  (dir.workload_results_tsv.toList.map fun _ => .Stage "workload".toList) ++
  stage_source dir.results_tsv "workload" ++
  stage_source dir.legacy_prepare_results_tsv "prepare" ++
  stage_source dir.perf_log_tsv "perf_log" ++
  stage_source dir.workload_endpoint_stats_tsv "workload_endpt" ++
  stage_source dir.prepare_endpoint_stats_tsv "prepare_endpt" ++
  dir.agent_perf_logs.map fun (agent_name, _) => .Agent agent_name

section

variable {dir : ResultsDir} {source : TabSource} {used used' : List Path} {folder : Folder}

theorem tab_sources_names (dir : ResultsDir) :
    (tsv_files dir).map (·.2) = (tab_sources dir).map (TabSource.tab_name dir) := by
  simp only [tsv_files, tab_sources, named_tab, stage_source, List.map_append, List.map_map]
  rfl

theorem stage_source_short {name stage_name : String}
    (hshort : utf8_len ((extract_stage_name name.toList).getD stage_name.toList) ≤ 26)
    (h : source ∈ stage_source (folder.tsv name) stage_name) : source.Short := by
  unfold stage_source at h
  obtain ⟨path, hpath, rfl⟩ := List.mem_map.mp h
  rw [tsv_toList] at hpath
  obtain rfl := List.mem_singleton.mp (List.mem_of_mem_filter hpath)
  exact hshort

/-- The files that are looked for name their stages in a few characters. -/
theorem from_path_short (h : ResultsDir.from_path folder = .ok dir) (hsource : source ∈ tab_sources dir) :
    source.Short := by
  unfold ResultsDir.from_path at h
  split at h
  · cases h
  · cases h
    unfold tab_sources at hsource
    simp only [List.mem_append] at hsource
    rcases hsource with
      (((((((((hsource | hsource) | hsource) | hsource) | hsource) | hsource) | hsource) | hsource) |
        hsource) | hsource) | hsource
    · exact stage_source_short (by decide) hsource
    · exact stage_source_short (by decide) hsource
    · exact stage_source_short (by decide) hsource
    · exact stage_source_short (by decide) hsource
    · obtain ⟨_, _, rfl⟩ := List.mem_map.mp hsource
      change utf8_len "workload".toList ≤ 26
      decide
    · exact stage_source_short (by decide) hsource
    · exact stage_source_short (by decide) hsource
    · exact stage_source_short (by decide) hsource
    · exact stage_source_short (by decide) hsource
    · exact stage_source_short (by decide) hsource
    · obtain ⟨_, _, rfl⟩ := List.mem_map.mp hsource
      exact trivial

/-- The name of the next tab, with those that are in use. -/
def take_name (used : List Path) (tab : ResultsDir × TabSource) : Except String (List Path) := do
  let base ← tab.2.tab_name tab.1
  let tab_name ← unique_tab_name used base tab.1
  pure (tab_name :: used)

/-- The tabs of some directories, in the order in which they are named. -/
def tabs_of (dirs : List ResultsDir) : List (ResultsDir × TabSource) :=
  dirs.flatMap fun dir => (tab_sources dir).map (dir, ·)

/-- Nothing fails but the names. -/
def accepting : Xlsx where
  write_tsv_to_worksheet _ := .ok ()
  set_name _ := .ok ()
  save _ := .ok ()

theorem add_tab_names (tabs : Tabs) (path : Path) (source : TabSource) :
    (add_tab accepting dir tabs (path, source.tab_name dir)).map (·.used_tab_names) =
      take_name tabs.used_tab_names (dir, source) := by
  unfold add_tab take_name
  dsimp only
  cases source.tab_name dir with
  | error e => rfl
  | ok base =>
    change Except.map _ (unique_tab_name tabs.used_tab_names base dir >>= _) =
      unique_tab_name tabs.used_tab_names base dir >>= _
    cases unique_tab_name tabs.used_tab_names base dir <;> rfl

theorem add_tabs_names {tsvs : List (Path × Except String Path)} {sources : List TabSource}
    (h : tsvs.map (·.2) = sources.map (TabSource.tab_name dir)) (tabs : Tabs) :
    (tsvs.foldlM (add_tab accepting dir) tabs).map (·.used_tab_names) =
      (sources.map (dir, ·)).foldlM take_name tabs.used_tab_names := by
  induction tsvs generalizing tabs sources with
  | nil =>
    obtain rfl := List.map_eq_nil_iff.mp h.symm
    rfl
  | cons tsv tsvs ih =>
    obtain ⟨source, rest, rfl, hsource, hrest⟩ := List.map_eq_cons_iff.mp h.symm
    obtain ⟨path, base⟩ := tsv
    obtain rfl := hsource
    have hstep : (add_tab accepting dir tabs (path, source.tab_name dir)).map (·.used_tab_names) =
        take_name tabs.used_tab_names (dir, source) := add_tab_names tabs path source
    rw [List.foldlM_cons, List.map_cons, List.foldlM_cons, ← hstep]
    cases add_tab accepting dir tabs (path, source.tab_name dir) with
    | error e => rfl
    | ok next => exact ih hrest.symm next

/-- The names of the workbook are those of its tabs, one after the other. -/
theorem add_dirs_names (dirs : List ResultsDir) (tabs : Tabs) :
    (dirs.foldlM (add_dir accepting) tabs).map (·.used_tab_names) =
      (tabs_of dirs).foldlM take_name tabs.used_tab_names := by
  induction dirs generalizing tabs with
  | nil => rfl
  | cons dir dirs ih =>
    have hdir := add_tabs_names (tab_sources_names dir) tabs
    unfold tabs_of at ih ⊢
    rw [List.foldlM_cons, List.flatMap_cons, List.foldlM_append, ← hdir]
    change Except.map _ ((tsv_files dir).foldlM (add_tab accepting dir) tabs >>= _) = _
    cases (tsv_files dir).foldlM (add_tab accepting dir) tabs with
    | error e => rfl
    | ok next => exact ih next

/-- The names differ, and are short. -/
def Valid (names : List Path) : Prop := names.Nodup ∧ ∀ name ∈ names, name.length ≤ 31

theorem valid_cons {name : Path} {names : List Path} (h : Valid names) :
    Valid (name :: names) ↔ name ∉ names ∧ name.length ≤ 31 := by
  unfold Valid
  rw [List.nodup_cons, List.forall_mem_cons]
  constructor
  · exact fun ⟨⟨hnew, _⟩, hshort, _⟩ => ⟨hnew, hshort⟩
  · exact fun ⟨hnew, hshort⟩ => ⟨⟨hnew, h.1⟩, hshort, h.2⟩

/-- A tab gets a new, short name: no character is cut, neither of the workload nor of the
base, and a suffix that gives a new name leaves room for it. -/
def Takes (used : List Path) (tab : ResultsDir × TabSource) : Prop :=
  tab.2.Whole tab.1 ∧
    Finds used (tab.2.base tab.1) [tab.1.timestamp, tab.1.workload, tab.1.path]

theorem tab_name_ok (hshort : source.Short) (h : source.Whole dir) :
    source.tab_name dir = .ok (source.base dir) := by
  cases source with
  | Stage stage_name => exact generate_tab_name_ok hshort h
  | Agent agent_name => rfl

theorem tab_name_error (hshort : source.Short) (h : ¬ source.Whole dir) :
    ∃ e, source.tab_name dir = .error e := by
  cases source with
  | Stage stage_name => exact generate_tab_name_error hshort h
  | Agent agent_name => exact absurd trivial h

theorem take_name_valid {tab : ResultsDir × TabSource} (hshort : tab.2.Short) (hused : Valid used) :
    (∃ used', take_name used tab = .ok used' ∧ Valid used') ↔ Takes used tab := by
  obtain ⟨dir, source⟩ := tab
  unfold Takes
  rw [← good_unique_tab_name]
  by_cases hwhole : source.Whole dir
  · have htake : take_name used (dir, source) =
        unique_tab_name used (source.base dir) dir >>= fun tab_name => pure (tab_name :: used) := by
      unfold take_name
      dsimp only
      rw [tab_name_ok hshort hwhole]
      rfl
    rw [and_iff_right hwhole, htake]
    constructor
    · rintro ⟨_, h, hvalid⟩
      obtain ⟨name, hname, h⟩ := bind_ok.mp h
      cases h
      exact ⟨name, hname, (valid_cons hused).mp hvalid⟩
    · rintro ⟨name, hname, hgood⟩
      exact ⟨name :: used, bind_ok.mpr ⟨name, hname, rfl⟩, (valid_cons hused).mpr hgood⟩
  · obtain ⟨e, he⟩ := tab_name_error hshort hwhole
    refine iff_of_false ?_ fun h => hwhole h.1
    rintro ⟨_, h, _⟩
    unfold take_name at h
    dsimp only at h
    rw [he] at h
    cases h

theorem take_name_suffix {tab : ResultsDir × TabSource} (h : take_name used tab = .ok used') :
    used <:+ used' := by
  unfold take_name at h
  obtain ⟨base, _, h⟩ := bind_ok.mp h
  obtain ⟨name, _, h⟩ := bind_ok.mp h
  cases h
  exact List.suffix_cons _ _

theorem take_names_suffix {tabs : List (ResultsDir × TabSource)}
    (h : tabs.foldlM take_name used = .ok used') : used <:+ used' := by
  induction tabs generalizing used with
  | nil =>
    cases h
    exact List.suffix_rfl
  | cons tab tabs ih =>
    rw [List.foldlM_cons] at h
    obtain ⟨next, hnext, h⟩ := bind_ok.mp h
    exact (take_name_suffix hnext).trans (ih h)

theorem Valid.of_suffix (h : Valid used') (hsuffix : used <:+ used') : Valid used :=
  ⟨hsuffix.sublist.nodup h.1, fun name hname => h.2 name (hsuffix.subset hname)⟩

/-- The names of some tabs are right just where each tab gets a right one, whatever was
named before it. -/
theorem take_names_valid {tabs : List (ResultsDir × TabSource)} (hshort : ∀ tab ∈ tabs, tab.2.Short)
    (hused : Valid used) : (∃ used', tabs.foldlM take_name used = .ok used' ∧ Valid used') ↔
      ∀ before tab after, tabs = before ++ tab :: after →
        ∀ used', before.foldlM take_name used = .ok used' → Takes used' tab := by
  induction tabs generalizing used with
  | nil =>
    refine iff_of_true ⟨used, rfl, hused⟩ ?_
    intro before tab after h
    cases before <;> cases h
  | cons tab tabs ih =>
    rw [List.forall_mem_cons] at hshort
    obtain ⟨htab, hshort⟩ := hshort
    constructor
    · rintro ⟨last, hlast, hvalid⟩
      rw [List.foldlM_cons] at hlast
      obtain ⟨next, hnext, hlast⟩ := bind_ok.mp hlast
      have hvalid_next := hvalid.of_suffix (take_names_suffix hlast)
      intro before tab' after h used' hbefore
      cases before with
      | nil =>
        cases h
        cases hbefore
        exact (take_name_valid htab hused).mp ⟨next, hnext, hvalid_next⟩
      | cons first before =>
        cases h
        rw [List.foldlM_cons, hnext] at hbefore
        exact (ih hshort hvalid_next).mp ⟨last, hlast, hvalid⟩ before tab' after rfl used' hbefore
    · intro hall
      obtain ⟨next, hnext, hvalid_next⟩ :=
        (take_name_valid htab hused).mpr (hall [] tab tabs rfl used rfl)
      obtain ⟨last, hlast, hvalid⟩ := (ih hshort hvalid_next).mpr fun before tab' after h used' hbefore =>
        hall (tab :: before) tab' after (by rw [h, List.cons_append]) used' (by
          rw [List.foldlM_cons, hnext]
          exact hbefore)
      exact ⟨last, by rw [List.foldlM_cons, hnext]; exact hlast, hvalid⟩

/-! ## The tabs of the directories -/

/-- The directories that are found, of those that are given. -/
def found_dirs (folders : List Folder) : List ResultsDir :=
  folders.filterMap fun folder => (ResultsDir.from_path folder).toOption

/-- The tabs of some directories are named without a panic, differently and shortly. -/
def TabNamesValid (folders : List Folder) : Prop :=
  ∃ tabs, (found_dirs folders).foldlM (add_dir accepting) {} = .ok tabs ∧ Valid tabs.used_tab_names

theorem tabs_of_short {folders : List Folder} :
    ∀ tab ∈ tabs_of (found_dirs folders), tab.2.Short := by
  intro tab htab
  unfold tabs_of found_dirs at htab
  obtain ⟨dir, hdir, htab⟩ := List.mem_flatMap.mp htab
  obtain ⟨source, hsource, rfl⟩ := List.mem_map.mp htab
  obtain ⟨folder, _, hfolder⟩ := List.mem_filterMap.mp hdir
  cases hpath : ResultsDir.from_path folder with
  | error e =>
    rw [hpath] at hfolder
    cases hfolder
  | ok found =>
    rw [hpath] at hfolder
    cases hfolder
    exact from_path_short hpath hsource

/-- The names of the tabs are right just where each tab, with the names of those before
it, finds one that is new and short, and no character has to be cut for it. -/
theorem tab_names_are_valid_iff (folders : List Folder) : TabNamesValid folders ↔
    ∀ before tab after, tabs_of (found_dirs folders) = before ++ tab :: after →
      ∀ used, before.foldlM take_name [] = .ok used → Takes used tab := by
  have hempty : Valid [] := ⟨List.nodup_nil, fun _ h => absurd h List.not_mem_nil⟩
  have hnames := add_dirs_names (found_dirs folders) {}
  rw [← take_names_valid tabs_of_short hempty, ← hnames]
  unfold TabNamesValid
  cases (found_dirs folders).foldlM (add_dir accepting) {} with
  | error e =>
    refine iff_of_false ?_ ?_
    · rintro ⟨_, h, _⟩
      cases h
    · rintro ⟨_, h, _⟩
      cases h
  | ok tabs =>
    constructor
    · rintro ⟨_, h, hvalid⟩
      cases h
      exact ⟨_, rfl, hvalid⟩
    · rintro ⟨_, h, hvalid⟩
      cases h
      exact ⟨tabs, rfl, hvalid⟩

/-- The workload has letters of two bytes: the name of the tab is cut inside of one. -/
def accented : Folder where
  path := "out/sai3-20251222-1744-aéééééééééé_1hosts".toList
  file_name := some "sai3-20251222-1744-aéééééééééé_1hosts".toList
  files := ["01_preflight_results.tsv".toList]

theorem accented_tab_names : ¬ ∀ folders, TabNamesValid folders := by
  intro h
  obtain ⟨tabs, htabs, _⟩ := h [accented]
  cases htabs

end

end sai3_bench.analyze
