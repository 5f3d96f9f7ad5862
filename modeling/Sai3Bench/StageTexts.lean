-- Stages for configs that have none (config_converter.rs): which ones are made, and the
-- text that is written for them.
import Mathlib.Data.BitVec
import Sai3Bench.BlockFields
import Sai3Bench.ConfigTrips
import Sai3Bench.SerdeEntries

namespace sai3_bench.config_converter

open blocks serde serde.Codec serde.Field serde.Entries config.written
open config (CompletionCriteria)

/-! ## The stages -/

def has_stages (config : Config) : Bool :=
  (config.distributed.map fun d => !d.stages.isEmpty).getD false

/-- A config that can be executed, and has no stages. -/
def needs_conversion (config : Config) : Bool :=
  if config.workload.isEmpty then false else !has_stages config

/-- The sum wraps. -/
def expected_objects (prepare : PrepareConfig) : Option U64 :=
  if !prepare.ensure_objects.isEmpty then some (prepare.ensure_objects.map (·.count)).sum else none

/-- A check, the prepare phase if there is one, the workload, and a cleanup if the prepare phase
asks for it. -/
def generate_stages (config : Config) : List StageConfig :=
  let order : U64 := 1
  let preflight : StageConfig :=
    { name := "preflight", order, completion := .ValidationPassed, timeout_secs := some 300,
      config := .Validation }
  let order := order + 1
  let (prepare, order) : List StageConfig × U64 := match config.prepare with
    | some prepare =>
      ([{ name := "prepare", order, completion := .TasksDone,
          config := .Prepare (expected_objects prepare) }], order + 1)
    | none => ([], order)
  let execute : StageConfig :=
    { name := "execute", order, completion := .Duration, config := .Execute config.duration }
  let order := order + 1
  let cleanup : List StageConfig := match config.prepare with
    | some prepare =>
      if prepare.cleanup then
        [{ name := "cleanup", order, completion := .TasksDone,
           config := .Cleanup (expected_objects prepare) }]
      else []
    | none => []
  preflight :: prepare ++ execute :: cleanup

def convert_config (config : Config) : Config :=
  let distributed := config.distributed.getD
    { agents := [], shared_filesystem := false, tree_creation_mode := .Isolated,
      path_selection := .Random }
  { config with distributed := some { distributed with stages := generate_stages config } }

/-! ## Their text -/

def number (n : Nat) : List Char := texts.padded 10 1 n

/-- Whole hours are whole minutes, so they are written as these. -/
def format_duration (duration : Duration) : List Char :=
  let secs := duration.secs.toNat
  if secs % 60 = 0 ∧ secs ≥ 60 then number (secs / 60) ++ ['m']
  else if secs % 3600 = 0 ∧ secs ≥ 3600 then number (secs / 3600) ++ ['h']
  else number secs ++ ['s']

def completion_str : CompletionCriteria → String
  | .ValidationPassed => "validation_passed"
  | .TasksDone => "tasks_done"
  | .Duration => "duration"
  | .ScriptExit => "script_exit"
  | .DurationOrTasks => "duration_or_tasks"

/-- The lines of one stage, without what has its default. -/
def stage_lines (stage : StageConfig) : List Line :=
  ["  - name: ".toList ++ stage.name.toList,
    "    order: ".toList ++ number stage.order.toNat,
    "    completion: ".toList ++ (completion_str stage.completion).toList] ++
  (stage.timeout_secs.map fun timeout =>
    "    timeout_secs: ".toList ++ number timeout.toNat).toList ++
  match stage.config with
  | .Validation => ["    type: validation".toList]
  | .Prepare expected_objects =>
    "    type: prepare".toList ::
      (expected_objects.map fun count =>
        "    expected_objects: ".toList ++ number count.toNat).toList
  | .Execute duration =>
    ["    type: execute".toList, "    duration: ".toList ++ format_duration duration]
  | .Cleanup expected_objects =>
    "    type: cleanup".toList ::
      (expected_objects.map fun count =>
        "    expected_objects: ".toList ++ number count.toNat).toList
  | .Custom command args =>
    ["    type: custom".toList, "    command: ".toList ++ command.toList] ++
      if args.isEmpty then []
      else "    args:".toList :: args.map fun arg => "      - ".toList ++ arg.toList
  | .Hybrid max_duration expected_tasks =>
    "    type: hybrid".toList ::
      (max_duration.map fun dur => "    max_duration: ".toList ++ format_duration dur).toList ++
      (expected_tasks.map fun tasks => "    expected_tasks: ".toList ++ number tasks.toNat).toList

def generate_minimal_stages_yaml (stages : List StageConfig) : List Char :=
  unlines (stages.flatMap stage_lines)

/-! ## What is read of it -/

/-- What a time is read as: its whole seconds. -/
structure Clock (time : Humantime) : Prop where
  seconds : ∀ n : Nat, n < 2 ^ 64 →
    time.parse_duration (String.ofList (number n ++ ['s'])) = .ok (.from_secs (BitVec.ofNat 64 n))
  minutes : ∀ n : Nat, n * 60 < 2 ^ 64 →
    time.parse_duration (String.ofList (number n ++ ['m'])) =
      .ok (.from_secs (BitVec.ofNat 64 (n * 60)))

def whole (d : Duration) : Duration := .from_secs d.secs

/-- A kind of a stage with the whole seconds of its time. -/
def printed_kind : StageSpecificConfig → StageSpecificConfig
  | .Execute duration => .Execute (whole duration)
  | kind => kind

def printed (s : StageConfig) : StageConfig := { s with config := printed_kind s.config }

/-- A stage of the kinds that are generated. -/
structure Generated (s : StageConfig) : Prop where
  name : s.name ∈ ["preflight", "prepare", "execute", "cleanup"]
  barrier : s.barrier = none
  optional : s.optional = false
  custom : ∀ command args, s.config ≠ .Custom command args
  hybrid : ∀ max_duration expected_tasks, s.config ≠ .Hybrid max_duration expected_tasks

/-- A number as a field of a stage, when it is there. -/
def count_field (key : String) (n : Option U64) : List (String × List Char) :=
  (n.map fun n => (key, number n.toNat)).toList

def count_value (key : String) (n : Option U64) : List (String × Value) :=
  (n.map fun n => (key, Value.int n.toNat)).toList

/-- The kind of a generated stage, as it is written. -/
def kind_fields : StageSpecificConfig → List (String × List Char)
  | .Prepare n => ("type", "prepare".toList) :: count_field "expected_objects" n
  | .Execute d => [("type", "execute".toList), ("duration", format_duration d)]
  | .Cleanup n => ("type", "cleanup".toList) :: count_field "expected_objects" n
  | _ => [("type", "validation".toList)]

/-- And as it is read. -/
def kind_values : StageSpecificConfig → List (String × Value)
  | .Prepare n => ("type", .str "prepare") :: count_value "expected_objects" n
  | .Execute d => [("type", .str "execute"), ("duration", .str (String.ofList (format_duration d)))]
  | .Cleanup n => ("type", .str "cleanup") :: count_value "expected_objects" n
  | _ => [("type", .str "validation")]

def stage_fields (s : StageConfig) : List (String × List Char) :=
  ("name", s.name.toList) :: ("order", number s.order.toNat) ::
    ("completion", (completion_str s.completion).toList) ::
      (count_field "timeout_secs" s.timeout_secs ++ kind_fields s.config)

def stage_values (s : StageConfig) : List (String × Value) :=
  ("name", .str s.name) :: ("order", .int s.order.toNat) ::
    ("completion", .str (completion_str s.completion)) ::
      (count_value "timeout_secs" s.timeout_secs ++ kind_values s.config)

theorem generated (config : Config) : ∀ s ∈ generate_stages config, Generated s := by
  intro s hs
  unfold generate_stages at hs
  cases hprepare : config.prepare with
  | none =>
    simp only [hprepare, List.mem_cons, List.mem_append, List.not_mem_nil, or_false] at hs
    rcases hs with rfl | rfl
    all_goals constructor <;> simp
  | some prepare =>
    simp only [hprepare, List.mem_cons, List.mem_append, List.not_mem_nil, or_false] at hs
    rcases hs with (rfl | rfl) | rfl | hs
    · constructor <;> simp
    · constructor <;> simp
    · constructor <;> simp
    · split at hs
      · rw [List.mem_singleton.mp hs]
        constructor <;> simp
      · cases hs

theorem stage_lines_eq {s : StageConfig} (h : Generated s) :
    stage_lines s = itemLines 2 (stage_fields s) := by
  obtain ⟨name, order, completion, barrier, timeout_secs, optional, config⟩ := s
  cases config with
  | Custom command args => exact absurd rfl (h.custom command args)
  | Hybrid max_duration expected_tasks => exact absurd rfl (h.hybrid max_duration expected_tasks)
  | Validation =>
    cases timeout_secs
    all_goals simp [stage_lines, stage_fields, kind_fields, itemLines, fieldLine, blockLine,
      count_field]
  | Execute duration =>
    cases timeout_secs
    all_goals simp [stage_lines, stage_fields, kind_fields, itemLines, fieldLine, blockLine,
      count_field]
  | Prepare n | Cleanup n =>
    cases timeout_secs
    all_goals cases n
    all_goals simp [stage_lines, stage_fields, kind_fields, itemLines, fieldLine, blockLine,
      count_field]

/-! ### Each field -/

theorem says_number {key : String} (hkey : Named key) (n : U64) :
    Says (key, number n.toNat) (key, .int n.toNat) :=
  ⟨rfl, hkey, texts.not_mem_padded rfl, scalar_number n.isLt⟩

theorem says_count {key : String} (hkey : Named key) (n : Option U64) :
    List.Forall₂ Says (count_field key n) (count_value key n) := by
  cases n with
  | none => exact .nil
  | some n => exact .cons (says_number hkey n) .nil

theorem says_duration (d : Duration) :
    Says ("duration", format_duration d)
      ("duration", .str (String.ofList (format_duration d))) := by
  have hquantity : ∃ n unit, format_duration d = number n ++ [unit] ∧
      (unit = 's' ∨ unit = 'm' ∨ unit = 'h') := by
    unfold format_duration
    dsimp only
    split
    · exact ⟨_, 'm', rfl, by simp⟩
    · split
      · exact ⟨_, 'h', rfl, by simp⟩
      · exact ⟨_, 's', rfl, by simp⟩
  obtain ⟨n, unit, heq, hunit⟩ := hquantity
  have hkey : Named "duration" := named_of rfl rfl
  refine ⟨rfl, hkey, ?_, ?_⟩
  · show ' ' ∉ format_duration d
    rw [heq, List.mem_append, not_or, List.mem_singleton]
    refine ⟨texts.not_mem_padded rfl, ?_⟩
    rcases hunit with rfl | rfl | rfl <;> decide
  · show scalar (format_duration d) = _
    rw [heq]
    exact scalar_quantity n hunit

theorem says_name {name : String} (h : name ∈ ["preflight", "prepare", "execute", "cleanup"]) :
    Says ("name", name.toList) ("name", .str name) := by
  simp only [List.mem_cons, List.not_mem_nil, or_false] at h
  rcases h with rfl | rfl | rfl | rfl
  all_goals exact ⟨rfl, named_of rfl rfl, by decide, rfl⟩

theorem says_completion (c : CompletionCriteria) :
    Says ("completion", (completion_str c).toList) ("completion", .str (completion_str c)) := by
  cases c
  all_goals exact ⟨rfl, named_of rfl rfl, by decide, rfl⟩

/-! ### Each stage -/

theorem count_keys (key : String) (n : Option U64) :
    ((count_value key n).map Prod.fst).Sublist [key] := by
  cases n with
  | none => exact List.nil_sublist _
  | some n => exact List.Sublist.refl _

theorem kind_keys (kind : StageSpecificConfig) :
    ((kind_values kind).map Prod.fst).Sublist ["type", "expected_objects", "duration"] := by
  have hobjects : ∀ n, ("type" :: (count_value "expected_objects" n).map Prod.fst).Sublist
      ["type", "expected_objects", "duration"] := by
    intro n
    exact ((count_keys _ n).trans (List.sublist_append_left _ ["duration"])).cons_cons "type"
  cases kind with
  | Prepare n | Cleanup n => exact hobjects n
  | Execute d => exact (List.sublist_cons_self "expected_objects" ["duration"]).cons_cons "type"
  | Custom | Hybrid | Validation => exact hobjects none

theorem later_keys (s : StageConfig) :
    ((count_value "timeout_secs" s.timeout_secs ++ kind_values s.config).map Prod.fst).Sublist
      ["timeout_secs", "type", "expected_objects", "duration"] := by
  rw [List.map_append]
  exact (count_keys "timeout_secs" s.timeout_secs).append (kind_keys s.config)

theorem stage_keys (s : StageConfig) : ((stage_values s).map Prod.fst).Sublist
    ["name", "order", "completion", "timeout_secs", "type", "expected_objects", "duration"] :=
  (((later_keys s).cons_cons "completion").cons_cons "order").cons_cons "name"

theorem says_kind (kind : StageSpecificConfig) :
    List.Forall₂ Says (kind_fields kind) (kind_values kind) := by
  have hobjects : Named "expected_objects" := named_of rfl rfl
  have htype : ∀ name ∈ ["validation", "prepare", "execute", "cleanup"],
      Says ("type", name.toList) ("type", .str name) := by
    intro name hname
    simp only [List.mem_cons, List.not_mem_nil, or_false] at hname
    rcases hname with rfl | rfl | rfl | rfl
    all_goals exact ⟨rfl, named_of rfl rfl, by decide, rfl⟩
  cases kind with
  | Prepare n => exact .cons (htype "prepare" (by simp)) (says_count hobjects n)
  | Execute d => exact .cons (htype "execute" (by simp)) (.cons (says_duration d) .nil)
  | Cleanup n => exact .cons (htype "cleanup" (by simp)) (says_count hobjects n)
  | Custom | Hybrid | Validation => exact .cons (htype "validation" (by simp)) .nil

theorem says_stage {s : StageConfig} (h : Generated s) :
    SaysAll (stage_fields s) (stage_values s) := by
  have horder : Named "order" := named_of rfl rfl
  have htimeout : Named "timeout_secs" := named_of rfl rfl
  refine ⟨?_, List.cons_ne_nil _ _, (stage_keys s).nodup (by decide)⟩
  refine .cons (says_name h.name)
    (.cons (says_number horder s.order) (.cons (says_completion s.completion) ?_))
  exact List.rel_append (says_count htimeout s.timeout_secs) (says_kind s.config)

/-! ### The stages that are read -/

variable {w : Wire}

theorem format_read {time : Humantime} (h : Clock time) (d : Duration) :
    time.parse_duration (String.ofList (format_duration d)) = .ok (whole d) := by
  have hfits : d.secs.toNat < 2 ^ 64 := d.secs.isLt
  have hback : ∀ n, n = d.secs.toNat → BitVec.ofNat 64 n = d.secs := by
    rintro n rfl
    rw [BitVec.ofNat_toNat, BitVec.setWidth_eq]
  unfold format_duration whole
  dsimp only
  split
  · rename_i hminutes
    rw [h.minutes _ (by omega), hback _ (by omega)]
  · rename_i hminutes
    rw [if_neg (by omega), h.seconds _ hfits, hback _ rfl]

theorem completion_read (c : CompletionCriteria) :
    completion_criteria.deserialize (.str (completion_str c)) = .ok c := by
  cases c <;> rfl

theorem count_read {τ : Type} {key : String} {n : Option U64} {rest : Entries τ} {fresh : _}
    {entries : List (String × Value)} {t : τ} (hfresh : key ∉ entries.map Prod.fst)
    (h : rest.read entries = .ok t) :
    (field (.optional key u64) rest fresh).read (count_value key n ++ entries) = .ok (n, t) := by
  cases n with
  | none => exact read_absent rfl rfl hfresh h
  | some n => exact read_cons rfl (map_ok.mpr ⟨n, u64_keeps n, rfl⟩) hfresh h

theorem objects_read (n : Option U64) :
    objects_entries.read (count_value "expected_objects" n) = .ok (n, ()) := by
  have h := @count_read Unit "expected_objects" n .nil (of_decide_eq_true rfl) [] () (by simp) rfl
  rwa [List.append_nil] at h

theorem kind_read (hclock : Clock w.time) {s : StageConfig} (h : Generated s) :
    (stage_entries w).read (kind_values s.config) = .ok (printed s).config := by
  have htype : ∀ n, "type" ∉ (count_value "expected_objects" n).map Prod.fst := by
    intro n hmem
    exact absurd ((count_keys _ n).subset hmem) (by decide)
  unfold printed
  cases hkind : s.config with
  | Custom command args => exact absurd hkind (h.custom command args)
  | Hybrid max_duration expected_tasks => exact absurd hkind (h.hybrid max_duration expected_tasks)
  | Validation => exact read_tagged (by simp)
  | Execute d =>
    have hduration : (execute_entries w).read
        [("duration", .str (String.ofList (format_duration d)))] =
        .ok (whole d, ()) := read_cons rfl (format_read hclock d) (by simp) rfl
    exact (read_tagged (by simp)).trans (map_ok.mpr ⟨_, hduration, rfl⟩)
  | Prepare n => exact (read_tagged (htype n)).trans (map_ok.mpr ⟨_, objects_read n, rfl⟩)
  | Cleanup n => exact (read_tagged (htype n)).trans (map_ok.mpr ⟨_, objects_read n, rfl⟩)

/-- A generated stage is read with the whole seconds of its time. -/
theorem stage_read (hclock : Clock w.time) {s : StageConfig} (h : Generated s) :
    (StageConfig.codec w).deserialize (.map (stage_values s)) = .ok (printed s) := by
  have hlater := later_keys s
  have hkinds := kind_keys s.config
  have hfresh : ∀ {name : String} {keys names : List String}, keys.Sublist names → name ∉ names →
      name ∉ keys :=
    fun hkeys hname hmem => hname (hkeys.subset hmem)
  refine map_ok.mpr ⟨(s.name, s.order, s.completion, none, s.timeout_secs, false,
    (printed s).config), ?_, ?_⟩
  · refine read_cons rfl rfl (hfresh ((hlater.cons_cons "completion").cons_cons "order")
      (by decide)) ?_
    refine read_cons rfl (u64_keeps s.order) (hfresh (hlater.cons_cons "completion") (by decide)) ?_
    refine read_cons rfl (completion_read s.completion) (hfresh hlater (by decide)) ?_
    refine read_absent rfl rfl (hfresh hlater (by decide)) ?_
    refine count_read (hfresh hkinds (by decide)) ?_
    refine read_absent rfl rfl (hfresh hkinds (by decide)) ?_
    exact kind_read hclock h
  · unfold printed
    rw [← h.barrier, ← h.optional]
    rfl

theorem stages_read (hclock : Clock w.time) {stages : List StageConfig}
    (h : ∀ s ∈ stages, Generated s) :
    (StageConfig.codec w).vec.deserialize (.seq ((stages.map stage_values).map .map)) =
      .ok (stages.map printed) := by
  show ((stages.map stage_values).map Value.map).mapM (StageConfig.codec w).deserialize = _
  induction stages with
  | nil => rfl
  | cons s stages ih =>
    rw [List.forall_mem_cons] at h
    rw [List.map_cons, List.map_cons, List.mapM_cons, bind_ok]
    exact ⟨printed s, stage_read hclock h.1, bind_ok.mpr ⟨_, ih h.2, rfl⟩⟩

end sai3_bench.config_converter
