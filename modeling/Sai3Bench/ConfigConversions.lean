-- Configs of the old form are given stages (config_converter.rs): the file is replaced by one
-- with the new text, and what that text parses to.
import Sai3Bench.StageInsertions

namespace sai3_bench.config_converter

open blocks serde serde.Codec serde.Field serde.Entries config.written serde_helpers

/-! ## The file -/

structure Path where
  dir : List Char
  name : List Char
deriving DecidableEq

/-- The name up to its last dot, the whole name when nothing stands before that. -/
def file_stem (name : List Char) : List Char :=
  let before := (texts.throughLast '.' name).dropLast
  if before.isEmpty then name else before

def Path.with_extension (path : Path) (extension : String) : Path :=
  { path with name := file_stem path.name ++ '.' :: extension.toList }

def Path.display (path : Path) : String := String.ofList (path.dir ++ '/' :: path.name)

abbrev Disk := Path → Option (List Char)

/-- How the calls on files go: whether they succeed, and what a failed one leaves where it writes. -/
structure Calls where
  read : Bool
  write : Bool
  copy : Bool
  remove : Bool
  rename : Bool
  left : Path → Option (List Char)

/-- What the converter uses. -/
structure Tools where
  lib : Libraries
  yaml : Yaml
  display_config_summary : Config → Path → Except String Unit

/-- `serde_yaml::from_str::<Config>`. -/
def Tools.from_str (tools : Tools) (text : List Char) : Except String Config := do
  (Config.codec tools.lib.yaml).deserialize (← tools.yaml.from_str text)

inductive ConversionResult
  | AlreadyHasStages
  | NoConversionNeeded
  | DryRun (stage_count : Nat)
  | Converted (stage_count : Nat) (backup_path : String)

/-- The new text is checked as the file at `tmp_path`. A summary that fails takes the file away. -/
def validate_converted (tools : Tools) (calls : Calls) (new_yaml : List Char) (tmp_path : Path)
    (disk : Disk) : Disk × Except String Unit :=
  match tools.from_str new_yaml with
  | .error _ => (disk, .error "Failed to parse converted YAML")
  | .ok validated_config =>
    match tools.display_config_summary validated_config tmp_path with
    | .error e =>
      (if calls.remove then Function.update disk tmp_path none else disk,
        .error ("Validation failed: " ++ e))
    | .ok () => (disk, .ok ())

/-- The backup, and the new file in the place of the original. -/
def replace_original (calls : Calls) (yaml_path tmp_path : Path) (stage_count : Nat) (disk : Disk) :
    Disk × Except String ConversionResult :=
  let backup_path := yaml_path.with_extension "yaml.bak"
  if calls.copy then
    let disk := Function.update disk backup_path (disk yaml_path)
    if calls.rename then
      (Function.update (Function.update disk yaml_path (disk tmp_path)) tmp_path none,
        .ok (.Converted stage_count backup_path.display))
    else (disk, .error ("Failed to replace original file: " ++ yaml_path.display))
  else
    (Function.update disk backup_path (calls.left backup_path),
      .error ("Failed to create backup: " ++ backup_path.display))

def convert_yaml_file (tools : Tools) (calls : Calls) (yaml_path : Path) (validate dry_run : Bool)
    (disk : Disk) : Disk × Except String ConversionResult :=
  match if calls.read then disk yaml_path else none with
  | none => (disk, .error ("Failed to read YAML file: " ++ yaml_path.display))
  | some yaml_content =>
    match tools.from_str yaml_content with
    | .error _ => (disk, .error ("Failed to parse YAML file: " ++ yaml_path.display))
    | .ok config =>
      if has_stages config then (disk, .ok .AlreadyHasStages)
      else if !needs_conversion config then (disk, .ok .NoConversionNeeded)
      else
        let stages := generate_stages config
        let stage_count := stages.length
        if dry_run then (disk, .ok (.DryRun stage_count))
        else
          let stages_yaml := generate_minimal_stages_yaml stages
          let new_yaml := insert_stages_into_yaml yaml_content stages_yaml config
          let tmp_path := yaml_path.with_extension "yaml.tmp"
          if calls.write then
            let disk := Function.update disk tmp_path (some new_yaml)
            match if validate then validate_converted tools calls new_yaml tmp_path disk
              else (disk, .ok ()) with
            | (disk, .error e) => (disk, .error e)
            | (disk, .ok ()) => replace_original calls yaml_path tmp_path stage_count disk
          else
            (Function.update disk tmp_path (calls.left tmp_path),
              .error ("Failed to write temp file: " ++ tmp_path.display))

/-! ## What the config is read as -/

variable {w : Wire}

theorem stages_takes {v : Value} {stages : List StageConfig}
    (hv : (StageConfig.codec w).vec.deserialize v = .ok stages) :
    (DistributedConfig.codec w).Takes "stages" v fun d => { d with stages := stages } := by
  apply struct_takes
  apply takes_via
  · -- thirteen fields come before the stages
    iterate 13
      apply takes_later
      · exact of_decide_eq_true rfl
    exact takes_here rfl hv
  · exact fun _ => rfl

theorem distributed_takes {v : Value} {distributed : Option DistributedConfig}
    (hv : (DistributedConfig.codec w).option.deserialize v = .ok distributed) :
    (Config.codec w).Takes "distributed" v fun config =>
      { config with distributed := distributed } := by
  apply struct_takes
  apply takes_via
  · iterate 7
      apply takes_later
      · exact of_decide_eq_true rfl
    exact takes_here rfl hv
  · exact fun _ => rfl

theorem distributed_shows :
    (Config.codec w).Shows (.optional "distributed" (DistributedConfig.codec w))
    (·.distributed) := by
  apply struct_shows
  apply shows_via
  · iterate 7
      apply shows_later
      · exact of_decide_eq_true rfl
    exact shows_here
  · exact fun _ => rfl

theorem shared_filesystem_shows :
    (DistributedConfig.codec w).Shows (required "shared_filesystem" .bool)
    (·.shared_filesystem) := by
  apply struct_shows
  apply shows_via
  · iterate 5
      apply shows_later
      · exact of_decide_eq_true rfl
    exact shows_here
  · exact fun _ => rfl

/-! ## What the new text parses to -/

def new_text (text : List Char) (config : Config) : List Char :=
  insert_stages_into_yaml text (generate_minimal_stages_yaml (generate_stages config)) config

variable {tools : Tools} {before block after : List Line}

/-- What a text in blocks is read as. -/
theorem read_of_document {text : List Char} {es : List (String × Value)}
    (hprint : ∀ l ∈ lines text, Printable l)
      (hes : document tools.yaml.leaf (lines text) = some es) :
    tools.from_str text = (Config.codec tools.lib.yaml).deserialize (.map es) := by
  unfold Tools.from_str
  rw [tools.yaml.reads_document text es hprint hes]
  rfl

theorem read_of_lines {ls : List Line} (hprint : ∀ l ∈ ls, Printable l) {es : List (String × Value)}
    (hes : document tools.yaml.leaf ls = some es) :
    tools.from_str (unlines ls) = (Config.codec tools.lib.yaml).deserialize (.map es) := by
  have hlines := lines_unlines hprint
  apply read_of_document
  · rwa [hlines]
  · rwa [hlines]

theorem stages_ne (config : Config) : generate_stages config ≠ [] := List.cons_ne_nil _ _

/-- A text in blocks with the section. -/
theorem block_read (hclock : Clock tools.lib.time) {text note : List Char}
    {config : Config} {fields : List (String × Value)}
    (hlines : lines text = before ++ blockLine 0 "distributed" note :: block ++ after)
    (hprint : ∀ l ∈ lines text, Printable l)
    (houtside : ∀ l ∈ before ++ block ++ after, opens_distributed l = false)
    (hblock : Block tools.yaml.leaf (is_multi_agent config) note block after fields)
    {es : List (String × Value)} (hes : document tools.yaml.leaf (lines text) = some es)
    (hconfig : (Config.codec tools.lib.yaml).deserialize (.map es) = .ok config) :
    ∃ d, config.distributed = some d ∧ tools.from_str (new_text text config) =
      .ok { config with
        distributed := some { d with stages := (generate_stages config).map printed } } := by
  have hgenerated := generated config
  have hstages := stages_printable hgenerated
  have hnew : new_text text config = unlines (before ++ blockLine 0 "distributed" note ::
      (block ++ section_lines (is_multi_agent config)
        ((generate_stages config).flatMap stage_lines)) ++ after) := by
    apply insert_block hlines hstages houtside (margin_of note)
    · intro l hl
      exact (mapping_columns hblock.reads l hl).elim stays_of_neutral fun h =>
        stays_of_column (by omega)
    · intro l hl
      exact leaving_of (hblock.next l hl).1 (hblock.next l hl).2
  rw [hlines] at hes hprint
  obtain ⟨a, c, rfl, hdocument⟩ :=
    block_document tools.yaml.reads_plain hblock (stages_ne config) hgenerated hes
  have hkeys : ((a ++ ("distributed", Value.map fields) :: c).map Prod.fst).Nodup :=
    (mapping_eq_some.mp hes).2.2.2.2
  have hshown : (DistributedConfig.codec tools.lib.yaml).option.deserialize (.map fields) =
      .ok config.distributed := shows_entry distributed_shows rfl hkeys hconfig
  obtain ⟨d, hd, hsome⟩ := map_ok.mp hshown
  have hstages' := stages_takes (stages_read (w := tools.lib.yaml) hclock hgenerated)
  have hd' := hstages' _ _ d (puts_last hblock.fresh) hd
  have hoption : (DistributedConfig.codec tools.lib.yaml).option.deserialize (.map (fields ++
      [("stages", .seq (((generate_stages config).map stage_values).map .map))])) =
      .ok (some { d with stages := (generate_stages config).map printed }) :=
        map_ok.mpr ⟨_, hd', rfl⟩
  have hconfig' := distributed_takes hoption _ _ config (puts_middle hkeys) hconfig
  refine ⟨d, hsome.symm, ?_⟩
  rw [hnew, read_of_lines ?_ hdocument, hconfig']
  simp only [List.forall_mem_append, List.forall_mem_cons] at hprint ⊢
  exact ⟨⟨hprint.1.1, hprint.1.2.1, hprint.1.2.2, section_printable _ hstages⟩, hprint.2⟩
theorem none_read {text : List Char} {config : Config}
    (hprint : ∀ l ∈ lines text, Printable l)
      (houtside : ∀ l ∈ lines text, opens_distributed l = false)
    {es : List (String × Value)} (hes : document tools.yaml.leaf (lines text) = some es)
    (hfresh : "distributed" ∉ es.map Prod.fst)
    (hlast : ∀ s ∈ (sections (entryStart 0) (lines text)).2.getLast?,
      outer tools.yaml.leaf ⟨s.head, s.body ++ new_section⟩ = outer tools.yaml.leaf s)
    (hconfig : (Config.codec tools.lib.yaml).deserialize (.map es) = .ok config) :
    config.distributed = none ∧ ∀ c, tools.from_str (new_text text config) ≠ .ok c := by
  have hnone : some none = some config.distributed :=
      shows_absent distributed_shows rfl hfresh hconfig
  refine ⟨(Option.some.inj hnone).symm, fun c hc => ?_⟩
  have hgenerated := generated config
  have hstages := stages_printable hgenerated
  have hdocument := none_document tools.yaml.reads_plain hes hfresh hlast
      (stages_ne config) hgenerated
    (is_multi_agent config)
  have hnew : new_text text config =
      unlines (lines text ++ new_section ++ blockLine 0 "distributed" [] ::
      agents_line :: section_lines (is_multi_agent config)
        ((generate_stages config).flatMap stage_lines)) :=
    insert_none hstages houtside
  have hprintable : ∀ l ∈ lines text ++ new_section ++ blockLine 0 "distributed" [] ::
      agents_line :: section_lines (is_multi_agent config)
        ((generate_stages config).flatMap stage_lines),
      Printable l := by
    simp only [List.forall_mem_append, List.forall_mem_cons]
    exact ⟨⟨hprint, by decide⟩, by decide, by decide, section_printable _ hstages⟩
  rw [hnew, read_of_lines hprintable hdocument] at hc
  have hkeys := (mapping_eq_some.mp hdocument).2.2.2.2
  obtain ⟨d, hd, _⟩ := map_ok.mp (shows_entry distributed_shows rfl hkeys hc)
  have hmissing : ∀ v, "shared_filesystem" ∉ [("agents", Value.seq []),
      ("stages", v)].map Prod.fst := by
    simp
  have habsent : (required "shared_filesystem" Codec.bool).absent = some d.shared_filesystem :=
    shows_absent shared_filesystem_shows rfl (hmissing _) hd
  cases habsent


/-! ## The file that is left -/

theorem file_stem_ne {e f : List Char} (hf : '.' ∉ f) (name : List Char) :
    file_stem name ++ '.' :: (e ++ '.' :: f) ≠ name := by
  intro hname
  have hsplit : name = file_stem name ++ '.' :: e ++ '.' :: f := by
    rw [List.append_assoc, List.cons_append]
    exact hname.symm
  have hlast : texts.lastPart '.' name = f := by
    rw [hsplit]
    exact texts.lastPart_append hf
  have hthrough : texts.throughLast '.' name = file_stem name ++ '.' :: e ++ ['.'] := by
    have happend := texts.throughLast_append_lastPart '.' name
    rw [hlast] at happend
    refine List.append_cancel_right (?_ : _ ++ f = _ ++ f)
    rw [happend, List.append_assoc, List.singleton_append]
    exact hsplit
  have hstem : file_stem name = file_stem name ++ '.' :: e := by
    conv_lhs => unfold file_stem
    rw [hthrough, List.dropLast_concat]
    simp
  have hlength := congrArg List.length hstem
  rw [List.length_append, List.length_cons] at hlength
  omega

theorem with_extension_ne {extension : String} {e f : List Char}
    (h : extension.toList = e ++ '.' :: f)
    (hf : '.' ∉ f) (path : Path) : path.with_extension extension ≠ path := by
  intro hpath
  have hname := congrArg Path.name hpath
  unfold Path.with_extension at hname
  rw [h] at hname
  exact file_stem_ne hf path.name hname

variable {calls : Calls} {path : Path} {validate dry_run : Bool} {disk : Disk}

theorem tmp_ne (path : Path) : path.with_extension "yaml.tmp" ≠ path :=
  with_extension_ne (e := "yaml".toList) (f := "tmp".toList) (by decide) (by decide) path

theorem bak_ne (path : Path) : path.with_extension "yaml.bak" ≠ path :=
  with_extension_ne (e := "yaml".toList) (f := "bak".toList) (by decide) (by decide) path

theorem bak_ne_tmp (path : Path) :
    path.with_extension "yaml.tmp" ≠ path.with_extension "yaml.bak" := by
  intro h
  have hname := congrArg Path.name h
  unfold Path.with_extension at hname
  exact absurd (List.append_cancel_left hname) (by decide)

/-- The check touches no more than its own file, and that one only if it fails. -/
theorem validate_effect (tools : Tools) (calls : Calls) (new_yaml : List Char) (tmp_path : Path)
    (disk : Disk) :
    (∀ other, other ≠ tmp_path → (validate_converted tools calls new_yaml tmp_path disk).1 other =
      disk other) ∧
      ((validate_converted tools calls new_yaml tmp_path disk).2 = .ok () →
        (validate_converted tools calls new_yaml tmp_path disk).1 = disk) := by
  unfold validate_converted
  split
  · exact ⟨fun _ _ => rfl, fun _ => rfl⟩
  · split
    · refine ⟨fun other hother => ?_, nofun⟩
      dsimp only
      split
      · exact Function.update_of_ne hother _ _
      · rfl
    · exact ⟨fun _ _ => rfl, fun _ => rfl⟩

/-- A new file takes the place of the original, or the original stays. -/
theorem replace_effect (calls : Calls) (path : Path) (count : Nat) (disk : Disk) :
    (∀ e, (replace_original calls path (path.with_extension "yaml.tmp") count disk).2 = .error e →
      (replace_original calls path (path.with_extension "yaml.tmp") count disk).1 path =
        disk path) ∧
    ∀ r, (replace_original calls path (path.with_extension "yaml.tmp") count disk).2 = .ok r →
      (replace_original calls path (path.with_extension "yaml.tmp") count disk).1 path =
        disk (path.with_extension "yaml.tmp") := by
  unfold replace_original
  dsimp only
  split
  · split
    · refine ⟨nofun, fun _ _ => ?_⟩
      dsimp only
      rw [Function.update_of_ne (tmp_ne path).symm, Function.update_self,
        Function.update_of_ne (bak_ne_tmp path)]
    · exact ⟨fun _ _ => Function.update_of_ne (bak_ne path).symm _ _, nofun⟩
  · exact ⟨fun _ _ => Function.update_of_ne (bak_ne path).symm _ _, nofun⟩

theorem stages_of_needs {config : Config} (h : needs_conversion config = true) :
    has_stages config = false := by
  unfold needs_conversion at h
  split at h
  · cases h
  · simpa using h

/-- The new text stands beside the original when it is checked. -/
theorem checked_effect (new : List Char) {text : List Char} (hdisk : disk path = some text) :
    let disk' := Function.update disk (path.with_extension "yaml.tmp") (some new)
    let checked := if validate then validate_converted tools calls new
      (path.with_extension "yaml.tmp") disk'
      else (disk', .ok ())
    checked.1 path = some text ∧
      (checked.2 = .ok () → checked.1 (path.with_extension "yaml.tmp") = some new) := by
  have heffect := validate_effect tools calls new (path.with_extension "yaml.tmp")
    (Function.update disk (path.with_extension "yaml.tmp") (some new))
  dsimp only
  have hkept : Function.update disk (path.with_extension "yaml.tmp") (some new) path =
      some text := by
    rw [Function.update_of_ne (tmp_ne path).symm, hdisk]
  split
  · refine ⟨(heffect.1 path (tmp_ne path).symm).trans hkept, fun hok => ?_⟩
    rw [heffect.2 hok, Function.update_self]
  · exact ⟨hkept, fun _ => Function.update_self _ _ _⟩

/-- A call that got to the new text. -/
theorem convert_effect {text : List Char} {config : Config} (hdisk : disk path = some text)
    (hconfig : tools.from_str text = .ok config) (hneeds : needs_conversion config = true) :
    (∀ e, (convert_yaml_file tools calls path validate dry_run disk).2 = .error e →
      (convert_yaml_file tools calls path validate dry_run disk).1 path = some text) ∧
    ∀ count backup, (convert_yaml_file tools calls path validate dry_run disk).2 =
      .ok (.Converted count backup) →
      (convert_yaml_file tools calls path validate dry_run disk).1 path =
        some (new_text text config) := by
  unfold convert_yaml_file
  cases hread : calls.read with
  | false => exact ⟨fun _ _ => hdisk, nofun⟩
  | true =>
    simp only [if_true, hdisk, hconfig, stages_of_needs hneeds, hneeds, Bool.false_eq_true,
      if_false, Bool.not_true]
    split
    · exact ⟨fun _ _ => hdisk, nofun⟩
    · split
      · have hchecked := @checked_effect tools calls path validate disk
            (new_text text config) text hdisk
        unfold new_text at hchecked
        dsimp only at hchecked
        split
        · rename_i left e heq
          rw [heq] at hchecked
          exact ⟨fun _ _ => hchecked.1, nofun⟩
        · rename_i left heq
          rw [heq] at hchecked
          have hreplaced := replace_effect calls path (generate_stages config).length left
          refine ⟨fun e he => (hreplaced.1 e he).trans hchecked.1, fun count backup hok => ?_⟩
          exact (hreplaced.2 _ hok).trans (hchecked.2 rfl)
      · refine ⟨fun _ _ => ?_, nofun⟩
        dsimp only
        rw [Function.update_of_ne (tmp_ne path).symm, hdisk]

/-! ## What a conversion preserves -/

/-- What is left of a converted file parses to the converted config, and a call that fails leaves
the file as it was. -/
structure Preserves (tools : Tools) (text : List Char) (config : Config) : Prop where
  converted : ∀ calls path validate dry_run disk count backup, disk path = some text →
    (convert_yaml_file tools calls path validate dry_run disk).2 = .ok (.Converted count backup) →
      ∃ new, (convert_yaml_file tools calls path validate dry_run disk).1 path = some new ∧
        tools.from_str new = .ok (convert_config config)
  failed : ∀ calls path validate dry_run disk e, disk path = some text →
    (convert_yaml_file tools calls path validate dry_run disk).2 = .error e →
      (convert_yaml_file tools calls path validate dry_run disk).1 path = some text

/-- It all depends on what the new text is read as. -/
theorem preserves_of_text {text : List Char} {config : Config}
    (hconfig : tools.from_str text = .ok config)
    (hneeds : needs_conversion config = true) :
    Preserves tools text config ↔
      tools.from_str (new_text text config) = .ok (convert_config config) := by
  constructor
  · intro h
    -- a call where all goes well, and nothing is checked
    let path : Path := ⟨[], "config.yaml".toList⟩
    let disk : Disk := Function.update (fun _ => none) path (some text)
    let calls : Calls := ⟨true, true, true, true, true, fun _ => none⟩
    have hdisk : disk path = some text := Function.update_self _ _ _
    have hdone : (convert_yaml_file tools calls path false false disk).2 =
        .ok (.Converted (generate_stages config).length
          (path.with_extension "yaml.bak").display) := by
      unfold convert_yaml_file
      simp only [calls, if_true, hdisk, hconfig, stages_of_needs hneeds, hneeds, Bool.false_eq_true,
        if_false,
        Bool.not_true]
      rfl
    obtain ⟨new, hnew, hread⟩ := h.converted calls path false false disk _ _ hdisk hdone
    have heffect := (convert_effect hdisk hconfig hneeds).2 _ _ hdone
    rw [hnew] at heffect
    rwa [Option.some.inj heffect] at hread
  · intro h
    constructor
    · intro calls path validate dry_run disk count backup hdisk hdone
      exact ⟨_, (convert_effect hdisk hconfig hneeds).2 _ _ hdone, h⟩
    · intro calls path validate dry_run disk e hdisk hfailed
      exact (convert_effect hdisk hconfig hneeds).1 e hfailed

theorem whole_iff (d : Duration) : whole d = d ↔ d.nanos = 0 := by
  obtain ⟨secs, nanos⟩ := d
  simp [whole, Duration.from_secs, eq_comm]

/-- The workload is the only stage with a time, that of the config. -/
theorem executed (config : Config) :
    (∃ s ∈ generate_stages config, s.config = .Execute config.duration) ∧
    ∀ s ∈ generate_stages config, ∀ d, s.config = .Execute d → d = config.duration := by
  unfold generate_stages
  cases config.prepare with
  | none => simp
  | some prepare =>
    cases hcleanup : prepare.cleanup
    all_goals simp [hcleanup]

theorem printed_iff (config : Config) :
    (generate_stages config).map printed = generate_stages config ↔
    config.duration.nanos = 0 := by
  obtain ⟨⟨s, hs, hexecute⟩, honly⟩ := executed config
  rw [← whole_iff]
  constructor
  · intro h
    have hself : printed s = s := by
      have hmap : (generate_stages config).map printed = (generate_stages config).map id := by
        rw [h, List.map_id]
      exact List.map_inj_left.mp hmap s hs
    have hkind := congrArg (·.config) hself
    simp only [printed, hexecute, printed_kind] at hkind
    exact StageSpecificConfig.Execute.inj hkind
  · intro h
    have hself : ∀ s ∈ generate_stages config, printed s = id s := by
      intro s hs
      have hkind : printed_kind s.config = s.config := by
        cases hconfig : s.config with
        | Execute d =>
          rw [honly s hs d hconfig, printed_kind, h]
        | _ => rfl
      unfold printed
      rw [hkind]
      rfl
    rw [List.map_inj_left.mpr hself, List.map_id]

/-- How a text is laid out: with a section at the left margin, or with none. -/
inductive Layout (leaf : Nat → Reader) (multi : Bool) : List Line → Prop
  | block {before block after : List Line} {note : List Char} {fields : List (String × Value)}
      (outside : ∀ l ∈ before ++ block ++ after, opens_distributed l = false)
      (section_block : Block leaf multi note block after fields) :
      Layout leaf multi (before ++ blockLine 0 "distributed" note :: block ++ after)
  | none {ls : List Line} {es : List (String × Value)}
      (outside : ∀ l ∈ ls, opens_distributed l = false)
      (entries : document leaf ls = some es)
      (fresh : "distributed" ∉ es.map Prod.fst)
      (last : ∀ s ∈ (sections (entryStart 0) ls).2.getLast?,
        outer leaf ⟨s.head, s.body ++ new_section⟩ = outer leaf s) :
      Layout leaf multi ls

/-- A text in blocks of printable lines. -/
structure LaidOut (tools : Tools) (text : List Char) (config : Config) : Prop where
  printable : ∀ l ∈ lines text, Printable l
  entries : ∃ es, document tools.yaml.leaf (lines text) = some es
  layout : Layout tools.yaml.leaf (is_multi_agent config) (lines text)

/-- The conversion of a text in blocks preserves its meaning when it has the section and its
duration is a number of seconds. -/
theorem conversion_preserves_iff (hclock : Clock tools.lib.time) {text : List Char}
    {config : Config} (hconfig : tools.from_str text = .ok config)
    (hneeds : needs_conversion config = true) (hlaid : LaidOut tools text config) :
    Preserves tools text config ↔ config.distributed.isSome ∧ config.duration.nanos = 0 := by
  obtain ⟨hprint, ⟨es, hes⟩, hlayout⟩ := hlaid
  have hread : (Config.codec tools.lib.yaml).deserialize (.map es) = .ok config := by
    rw [← read_of_document hprint hes, hconfig]
  rw [preserves_of_text hconfig hneeds]
  generalize hls : lines text = ls at hlayout
  cases hlayout with
  | block outside section_block =>
    obtain ⟨d, hd, htext⟩ := block_read hclock hls hprint outside section_block hes hread
    rw [htext, convert_config, hd, ← printed_iff]
    simp
  | none outside entries fresh last =>
    rw [hls] at hes
    obtain rfl := Option.some.inj (hes.symm.trans entries)
    obtain ⟨hnone, hfail⟩ := none_read hprint (hls ▸ outside)
        (hls ▸ entries) fresh (hls ▸ last) hread
    rw [hnone]
    exact iff_of_false (hfail _) (by simp)

/-! ## Two texts -/

/-- Whole minutes besides the times of `plainTime`. -/
def clock_parse (s : List Char) : Except String Duration :=
  match texts.parse_u64 (s.takeWhile Char.isDigit), s.dropWhile Char.isDigit with
  | some n, ['m'] =>
    if n * 60 < 2 ^ 64 then .ok
      (.from_secs (BitVec.ofNat 64 (n * 60))) else .error "number is too large"
  | _, _ => plain_parse s

def clockTime : Humantime where
  format_duration d := String.ofList (plain_format d)
  parse_duration s := clock_parse s.toList
  parse_format d := by
    rw [String.toList_ofList]
    have hdrop : ∃ t, (plain_format d).dropWhile Char.isDigit = 's' :: t := by
      unfold plain_format
      exact ⟨_, dropWhile_padded _ rfl _⟩
    obtain ⟨t, ht⟩ := hdrop
    unfold clock_parse
    rw [ht]
    split
    · rename_i hminutes
      cases hminutes
    · exact plain_parse_format d

theorem clockTime_clock : Clock clockTime := by
  have hparse : ∀ s : List Char, clockTime.parse_duration (String.ofList s) = clock_parse s := by
    intro s
    show clock_parse (String.ofList s).toList = _
    rw [String.toList_ofList]
  constructor
  · intro n hn
    have hnumber : texts.parse_u64 (texts.padded 10 1 n) = some n := texts.parse_padded hn
    unfold number
    rw [hparse, clock_parse, takeWhile_padded n rfl, dropWhile_padded n rfl, hnumber]
    show plain_parse _ = _
    rw [plain_parse, takeWhile_padded n rfl, dropWhile_padded n rfl, hnumber]
    rfl
  · intro n hn
    have hnumber : texts.parse_u64 (texts.padded 10 1 n) = some n := texts.parse_padded (by omega)
    unfold number
    rw [hparse, clock_parse, takeWhile_padded n rfl, dropWhile_padded n rfl, hnumber]
    simp only
    rw [if_pos hn]

/-- A reader of no more than texts in blocks. -/
def blockYaml : Yaml where
  from_str text :=
    match document (inner plain) (lines text) with
    | some es => .ok (.map es)
    | none => .error "did not find expected key"
  leaf := inner plain
  reads_plain _ _ _ h := inner_plain (fun _ _ _ h => h) h
  reads_document text es _ h := by
    rw [h]

def plainTools : Tools where
  lib := { time := clockTime, scaled := fun _ _ => none, read_f64 := id }
  yaml := blockYaml
  display_config_summary _ _ := .ok ()

def workloadLines : List Line :=
  ["workload:".toList, "  - op: get".toList, "    path: data".toList, "    weight: 1".toList]

def sectionFields : List Line :=
  ["  agents: []".toList, "  shared_filesystem: false".toList,
    "  tree_creation_mode: isolated".toList,
    "  path_selection: random".toList]

def standaloneConfig : Config := { workload := [{ weight := 1, spec := .Get "data" }] }

def distributedConfig : Config :=
  { standaloneConfig with
    distributed := some { agents := [], shared_filesystem := false, tree_creation_mode := .Isolated,
                          path_selection := .Random } }

theorem distributed_laid :
    LaidOut plainTools (unlines (workloadLines ++ "distributed:".toList :: sectionFields))
    distributedConfig := by
  have hlines : lines (unlines (workloadLines ++ "distributed:".toList :: sectionFields)) =
      workloadLines ++ blockLine 0 "distributed" [] :: sectionFields ++ [] := by decide
  refine ⟨by rw [hlines]; decide, ⟨_, by rw [hlines]; rfl⟩, ?_⟩
  rw [hlines]
  refine .block (by decide) ⟨⟨rfl, rfl⟩, rfl, rfl, by decide, ?_, nofun⟩
  intro s hs
  have hlast : (sections (entryStart 2) sectionFields).2.getLast? =
      some ⟨"  path_selection: random".toList, []⟩ := rfl
  rw [hlast] at hs
  obtain rfl := Option.some.inj hs
  rfl

theorem standalone_read : plainTools.from_str (unlines workloadLines) = .ok standaloneConfig := by
  rfl

theorem distributed_read :
    plainTools.from_str (unlines (workloadLines ++ "distributed:".toList :: sectionFields)) =
    .ok distributedConfig := by
  rfl

/-- A text of a section at the left margin and of whole seconds. -/
theorem distributed_conversion_preserves :
    Preserves plainTools (unlines (workloadLines ++
      "distributed:".toList :: sectionFields)) distributedConfig :=
  (conversion_preserves_iff clockTime_clock distributed_read rfl distributed_laid).mpr ⟨rfl, rfl⟩

/-- A config that is no distributed one gets a section without the fields that it needs. -/
theorem standalone_conversion_fails : ¬∀ (text : List Char) (config : Config),
    plainTools.from_str text = .ok config → needs_conversion config = true →
      Preserves plainTools text config := by
  intro h
  have hpreserves := h _ _ standalone_read rfl
  rw [preserves_of_text standalone_read rfl] at hpreserves
  have herror : plainTools.from_str (new_text (unlines workloadLines) standaloneConfig) =
      .error "missing field shared_filesystem" := by rfl
  rw [herror] at hpreserves
  cases hpreserves

end sai3_bench.config_converter
