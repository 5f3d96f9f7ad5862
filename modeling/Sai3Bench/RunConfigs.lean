-- The config of a run with all its fields (config.rs), as it is written to a
-- text and read back: the parts of a workload and of its prepare phase.
import Sai3Bench.SerdeHelpers
import Sai3Bench.SizeGenerators
import Sai3Bench.StageConfigs

namespace sai3_bench.config.written

open serde serde.Codec serde.Field serde.Entries serde_helpers size_generator

abbrev U16 := BitVec 16
abbrev U32 := BitVec 32
abbrev U64 := BitVec 64

def u16 : Codec U16 := unsigned 16
def u32 : Codec U32 := unsigned 32
def u64 : Codec U64 := unsigned 64

@[simp] theorem u16_keeps (n : U16) : u16.Keeps n := unsigned_keeps n
@[simp] theorem u32_keeps (n : U32) : u32.Keeps n := unsigned_keeps n
@[simp] theorem u64_keeps (n : U64) : u64.Keeps n := unsigned_keeps n

@[simp] theorem u32_solid : u32.Solid := unsigned_solid
@[simp] theorem u64_solid : u64.Solid := unsigned_solid

/-! ## What the code takes from elsewhere -/

structure Duration where
  secs : U64
  nanos : Fin 1000000000
deriving DecidableEq

instance nanos_pos : NeZero 1000000000 := ⟨by decide⟩

def Duration.from_secs (secs : U64) : Duration := ⟨secs, 0⟩

/-- A duration that was formatted parses to the same one. -/
structure Humantime where
  format_duration : Duration → String
  parse_duration : String → Except String Duration
  parse_format : ∀ d, parse_duration (format_duration d) = .ok d

/-- What a text carries of a float, the formats of durations, and the
arithmetic of sizes with a fraction. -/
structure Wire where
  carried : F64 → Value
  time : Humantime
  scaled : List Char → Nat → Option U64

def Wire.f64 (w : Wire) : Codec F64 := float w.carried

/-- `humantime_serde`, and `humantime_serde_opt` for an option of it. -/
def Wire.humantime (w : Wire) : Codec Duration where
  serialize d := .str (w.time.format_duration d)
  deserialize
    | .str s => w.time.parse_duration s
    | v => .error (invalid_type v "a duration")

variable {w : Wire}

@[simp] theorem humantime_keeps (d : Duration) : w.humantime.Keeps d := w.time.parse_format d

@[simp] theorem humantime_solid : w.humantime.Solid := fun _ h => by cases h

/-! ## Sizes -/

structure DistributionParams where
  mean : Option U64 := none
  std_dev : Option U64 := none

structure SizeDistribution where
  dist_type : DistributionType
  min : Option U64 := none
  max : Option U64 := none
  params : DistributionParams := {}

inductive SizeSpec
  | Fixed (size : U64)
  | Distribution (dist : SizeDistribution)

def distribution_type : Codec DistributionType :=
  .unit [.Uniform, .Lognormal] fun
    | .Uniform => "uniform"
    | .Lognormal => "lognormal"

def DistributionParams.entries (w : Wire) : Entries DistributionParams := .via
  (.field (defaulted "mean" (size w.scaled) none) <|
   .field (defaulted "std_dev" (size w.scaled) none) .nil)
  { toFun p := (p.mean, p.std_dev, ())
    invFun := fun (mean, std_dev, _) => { mean, std_dev }
    left_inv _ := rfl
    right_inv _ := rfl }

def SizeDistribution.codec (w : Wire) : Codec SizeDistribution := .struct <| .via
  (.field (required "type" distribution_type) <|
   .field (defaulted "min" (size w.scaled) none) <|
   .field (defaulted "max" (size w.scaled) none) <|
   DistributionParams.entries w)
  { toFun d := (d.dist_type, d.min, d.max, d.params)
    invFun := fun (dist_type, min, max, params) => { dist_type, min, max, params }
    left_inv _ := rfl
    right_inv _ := rfl }

/-- The first variant that the value fits. -/
def SizeSpec.codec (w : Wire) : Codec SizeSpec where
  serialize
    | .Fixed size => u64.serialize size
    | .Distribution dist => (SizeDistribution.codec w).serialize dist
  deserialize v :=
    match u64.deserialize v with
    | .ok size => .ok (.Fixed size)
    | .error _ =>
      match (SizeDistribution.codec w).deserialize v with
      | .ok dist => .ok (.Distribution dist)
      | .error _ => .error "data did not match any variant of untagged enum SizeSpec"

@[simp] theorem distribution_type_keeps (t : DistributionType) : distribution_type.Keeps t := by
  apply unit_keeps
  cases t <;> rfl

@[simp] theorem distribution_params_keeps (p : DistributionParams) :
    (DistributionParams.entries w).Keeps p := by
  simp [DistributionParams.entries, via_keeps, field_keeps, defaulted_keeps]

@[simp] theorem size_distribution_keeps (d : SizeDistribution) :
    (SizeDistribution.codec w).Keeps d := by
  simp [SizeDistribution.codec, struct_keeps, via_keeps, field_keeps, required_keeps,
    defaulted_keeps]

theorem size_spec_of_number {v : Value} {size : U64} (h : u64.deserialize v = .ok size) :
    (SizeSpec.codec w).deserialize v = .ok (.Fixed size) := by
  unfold SizeSpec.codec
  dsimp only
  rw [h]

theorem size_spec_of_map {v : Value} {dist : SizeDistribution} {e : String}
    (hnumber : u64.deserialize v = .error e)
    (h : (SizeDistribution.codec w).deserialize v = .ok dist) :
    (SizeSpec.codec w).deserialize v = .ok (.Distribution dist) := by
  unfold SizeSpec.codec
  dsimp only
  rw [hnumber, h]

@[simp] theorem size_spec_keeps (spec : SizeSpec) : (SizeSpec.codec w).Keeps spec := by
  cases spec with
  | Fixed size => exact size_spec_of_number (u64_keeps size)
  | Distribution dist => exact size_spec_of_map rfl (size_distribution_keeps dist)

@[simp] theorem size_spec_solid : (SizeSpec.codec w).Solid := by
  intro spec h
  cases spec <;> cases h

/-! ## Operations -/

def default_dedup_factor : U64 := 1
def default_compress_factor : U64 := 1

inductive OpSpec
  | Get (path : String)
  | Put (path : String) (object_size : Option U64) (size_spec : Option SizeSpec)
    (dedup_factor compress_factor : U64)
  | List (path : String)
  | Stat (path : String)
  | Delete (path : String)
  | Mkdir (path : String)
  | Rmdir (path : String) (recursive : Bool)

structure WeightedOp where
  weight : U32
  concurrency : Option U64 := none
  spec : OpSpec

/-- A size spec may go by its older name. -/
def size_spec_field (w : Wire) : serde.Field (Option SizeSpec) :=
  { name := "size_spec", aliases := ["size_distribution"], codec := (SizeSpec.codec w).option,
    absent := some none }

def path_entries : Entries (String × Unit) := .field (required "path" .string) .nil

def put_entries (w : Wire) :
    Entries (String × Option U64 × Option SizeSpec × U64 × U64 × Unit) :=
  .field (defaulted "path" .string "") <|
  .field (.optional "object_size" u64) <|
  .field (size_spec_field w) <|
  .field (defaulted "dedup_factor" u64 default_dedup_factor) <|
  .field (defaulted "compress_factor" u64 default_compress_factor) .nil

def rmdir_entries : Entries (String × Bool × Unit) :=
  .field (required "path" .string) <| .field (defaulted "recursive" .bool false) .nil

def op_variant : OpSpec → String
  | .Get .. => "get"
  | .Put .. => "put"
  | .List .. => "list"
  | .Stat .. => "stat"
  | .Delete .. => "delete"
  | .Mkdir .. => "mkdir"
  | .Rmdir .. => "rmdir"

def op_write (w : Wire) : OpSpec → List (String × Value)
  | .Get path | .List path | .Stat path | .Delete path | .Mkdir path =>
    path_entries.write (path, ())
  | .Put path object_size size_spec dedup_factor compress_factor =>
    (put_entries w).write (path, object_size, size_spec, dedup_factor, compress_factor, ())
  | .Rmdir path recursive => rmdir_entries.write (path, recursive, ())

def op_read (w : Wire) (name : String) (entries : List (String × Value)) : Except String OpSpec :=
  match name with
  | "get" => (fun f => .Get f.1) <$> path_entries.read entries
  | "put" =>
    (fun (path, object_size, size_spec, dedup_factor, compress_factor, _) =>
      .Put path object_size size_spec dedup_factor compress_factor) <$>
        (put_entries w).read entries
  | "list" => (fun f => .List f.1) <$> path_entries.read entries
  | "stat" => (fun f => .Stat f.1) <$> path_entries.read entries
  | "delete" => (fun f => .Delete f.1) <$> path_entries.read entries
  | "mkdir" => (fun f => .Mkdir f.1) <$> path_entries.read entries
  | "rmdir" => (fun (path, recursive, _) => .Rmdir path recursive) <$> rmdir_entries.read entries
  | _ => .error ("unknown variant " ++ name)

theorem op_write_names (spec : OpSpec) : ∀ e ∈ op_write w spec,
    e.1 ∈ (put_entries w).names ++ rmdir_entries.names := by
  intro e he
  cases spec with
  | Put path object_size size_spec dedup_factor compress_factor =>
    exact List.mem_append_left _ ((put_entries w).write_names _ e he)
  | Rmdir path recursive => exact List.mem_append_right _ (rmdir_entries.write_names _ e he)
  | Get path | List path | Stat path | Delete path | Mkdir path =>
    have hpath := path_entries.write_names _ e he
    exact List.mem_append_right _ (List.mem_append_left _ hpath)

def op_entries (w : Wire) : Entries OpSpec :=
  .tagged "op" ((put_entries w).names ++ rmdir_entries.names) op_variant (op_write w)
    (op_read w) op_write_names

def WeightedOp.codec (w : Wire) : Codec WeightedOp := .struct <| .via
  (.field (required "weight" u32) <|
   .field (.optional "concurrency" u64) <|
   op_entries w)
  { toFun o := (o.weight, o.concurrency, o.spec)
    invFun := fun (weight, concurrency, spec) => { weight, concurrency, spec }
    left_inv _ := rfl
    right_inv _ := rfl }

@[simp] theorem size_spec_field_keeps (spec : Option SizeSpec) : (size_spec_field w).Keeps spec :=
  (keeps_of_written rfl).mpr ((option_keeps size_spec_solid).mpr fun _ _ => size_spec_keeps _)

@[simp] theorem path_entries_keeps (f : String × Unit) : path_entries.Keeps f := by
  simp [path_entries, field_keeps, required_keeps]

@[simp] theorem put_entries_keeps (f : String × Option U64 × Option SizeSpec × U64 × U64 × Unit) :
    (put_entries w).Keeps f := by
  simp [put_entries, field_keeps, defaulted_keeps, optional_keeps]

@[simp] theorem rmdir_entries_keeps (f : String × Bool × Unit) : rmdir_entries.Keeps f := by
  simp [rmdir_entries, field_keeps, required_keeps, defaulted_keeps]

@[simp] theorem op_spec_keeps (spec : OpSpec) : (op_entries w).Keeps spec := by
  unfold op_entries
  rw [tagged_keeps (of_decide_eq_true rfl)]
  cases spec with
  | Put path object_size size_spec dedup_factor compress_factor =>
    exact map_ok.mpr ⟨_, put_entries_keeps _, rfl⟩
  | Rmdir path recursive => exact map_ok.mpr ⟨_, rmdir_entries_keeps _, rfl⟩
  | Get path | List path | Stat path | Delete path | Mkdir path =>
    exact map_ok.mpr ⟨_, path_entries_keeps _, rfl⟩

@[simp] theorem weighted_op_keeps (o : WeightedOp) : (WeightedOp.codec w).Keeps o := by
  simp [WeightedOp.codec, struct_keeps, via_keeps, field_keeps, required_keeps, optional_keeps]

/-! ## The prepare phase -/

inductive PrepareStrategy
  | Sequential
  | Parallel
deriving DecidableEq, Repr

inductive CleanupMode
  | Strict
  | Tolerant
  | BestEffort
deriving DecidableEq, Repr

inductive FillPattern
  | Zero
  | Random
  | Prand
deriving DecidableEq, Repr

def default_fill : FillPattern := .Random

structure EnsureSpec where
  base_uri : Option String := none
  count : U64
  min_size : Option U64 := none
  max_size : Option U64 := none
  size_spec : Option SizeSpec := none
  fill : FillPattern := default_fill
  dedup_factor : U64 := default_dedup_factor
  compress_factor : U64 := default_compress_factor

structure DirectoryStructureConfig where
  width : U64
  depth : U64
  files_per_dir : U64 := 0
  distribution : String := "bottom"
  dir_mask : String := "sai3bench.d%d_w%d.dir"

structure PrepareConfig where
  ensure_objects : List EnsureSpec := []
  cleanup : Bool := false
  cleanup_only : Option Bool := none
  post_prepare_delay : U64 := 0
  directory_structure : Option DirectoryStructureConfig := none
  prepare_strategy : PrepareStrategy := .Sequential
  skip_verification : Bool := false
  force_overwrite : Bool := false
  cleanup_mode : CleanupMode := .Tolerant
  key_prefix_shards : U32 := 0

def prepare_strategy : Codec PrepareStrategy :=
  .unit [.Sequential, .Parallel] fun
    | .Sequential => "sequential"
    | .Parallel => "parallel"

def cleanup_mode : Codec CleanupMode :=
  .unit [.Strict, .Tolerant, .BestEffort] fun
    | .Strict => "strict"
    | .Tolerant => "tolerant"
    | .BestEffort => "besteffort"

def fill_pattern : Codec FillPattern :=
  .unit [.Zero, .Random, .Prand] fun
    | .Zero => "zero"
    | .Random => "random"
    | .Prand => "prand"

def EnsureSpec.codec (w : Wire) : Codec EnsureSpec := .struct <| .via
  (.field (.optional "base_uri" .string) <|
   .field (required "count" serde_helpers.count) <|
   .field (.optional "min_size" u64) <|
   .field (.optional "max_size" u64) <|
   .field (size_spec_field w) <|
   .field (defaulted "fill" fill_pattern default_fill) <|
   .field (defaulted "dedup_factor" u64 default_dedup_factor) <|
   .field (defaulted "compress_factor" u64 default_compress_factor) .nil)
  { toFun s := (s.base_uri, s.count, s.min_size, s.max_size, s.size_spec, s.fill, s.dedup_factor,
      s.compress_factor, ())
    invFun := fun (base_uri, count, min_size, max_size, size_spec, fill, dedup_factor,
        compress_factor, _) =>
      { base_uri, count, min_size, max_size, size_spec, fill, dedup_factor, compress_factor }
    left_inv _ := rfl
    right_inv _ := rfl }

def DirectoryStructureConfig.codec : Codec DirectoryStructureConfig := .struct <| .via
  (.field (required "width" usize) <|
   .field (required "depth" usize) <|
   .field (defaulted "files_per_dir" usize 0) <|
   .field (defaulted "distribution" .string "bottom") <|
   .field (defaulted "dir_mask" .string "sai3bench.d%d_w%d.dir") .nil)
  { toFun d := (d.width, d.depth, d.files_per_dir, d.distribution, d.dir_mask, ())
    invFun := fun (width, depth, files_per_dir, distribution, dir_mask, _) =>
      { width, depth, files_per_dir, distribution, dir_mask }
    left_inv _ := rfl
    right_inv _ := rfl }

def PrepareConfig.codec (w : Wire) : Codec PrepareConfig := .struct <| .via
  (.field (defaulted "ensure_objects" (EnsureSpec.codec w).vec []) <|
   .field (defaulted "cleanup" .bool false) <|
   .field (.optional "cleanup_only" .bool) <|
   .field (defaulted "post_prepare_delay" seconds 0) <|
   .field (.optional "directory_structure" DirectoryStructureConfig.codec) <|
   .field (defaulted "prepare_strategy" written.prepare_strategy .Sequential) <|
   .field (defaulted "skip_verification" .bool false) <|
   .field (defaulted "force_overwrite" .bool false) <|
   .field (defaulted "cleanup_mode" written.cleanup_mode .Tolerant) <|
   .field (defaulted "key_prefix_shards" u32 0) .nil)
  { toFun p := (p.ensure_objects, p.cleanup, p.cleanup_only, p.post_prepare_delay,
      p.directory_structure, p.prepare_strategy, p.skip_verification, p.force_overwrite,
      p.cleanup_mode, p.key_prefix_shards, ())
    invFun := fun (ensure_objects, cleanup, cleanup_only, post_prepare_delay, directory_structure,
        prepare_strategy, skip_verification, force_overwrite, cleanup_mode, key_prefix_shards, _) =>
      { ensure_objects, cleanup, cleanup_only, post_prepare_delay, directory_structure,
        prepare_strategy, skip_verification, force_overwrite, cleanup_mode, key_prefix_shards }
    left_inv _ := rfl
    right_inv _ := rfl }

@[simp] theorem prepare_strategy_keeps (s : PrepareStrategy) : prepare_strategy.Keeps s := by
  apply unit_keeps
  cases s <;> rfl

@[simp] theorem cleanup_mode_keeps (m : CleanupMode) : cleanup_mode.Keeps m := by
  apply unit_keeps
  cases m <;> rfl

@[simp] theorem fill_pattern_keeps (f : FillPattern) : fill_pattern.Keeps f := by
  apply unit_keeps
  cases f <;> rfl

@[simp] theorem ensure_spec_keeps (s : EnsureSpec) : (EnsureSpec.codec w).Keeps s := by
  simp [EnsureSpec.codec, struct_keeps, via_keeps, field_keeps, required_keeps, defaulted_keeps,
    optional_keeps]

@[simp] theorem directory_structure_keeps (d : DirectoryStructureConfig) :
    DirectoryStructureConfig.codec.Keeps d := by
  simp [DirectoryStructureConfig.codec, struct_keeps, via_keeps, field_keeps, required_keeps,
    defaulted_keeps]

@[simp] theorem directory_structure_solid : DirectoryStructureConfig.codec.Solid := struct_solid

@[simp] theorem prepare_config_keeps (p : PrepareConfig) : (PrepareConfig.codec w).Keeps p := by
  simp [PrepareConfig.codec, struct_keeps, via_keeps, field_keeps, defaulted_keeps, optional_keeps,
    vec_keeps]

@[simp] theorem prepare_config_solid : (PrepareConfig.codec w).Solid := struct_solid

end sai3_bench.config.written
