-- The numbers that a config may write in words (serde_helpers.rs, size_parser.rs):
-- counts with separators, times with units, sizes with suffixes.
import Sai3Bench.Serde
import Sai3Bench.Texts

namespace sai3_bench.serde_helpers

open serde texts

/-! ## Counts -/

/-- What `parse::<u64>` says of a text that it does not take. -/
def parse_error (s : List Char) : String :=
  let digits := if s.head? = some '+' then s.tail else s
  if s.isEmpty then "cannot parse integer from empty string"
  else if digits.isEmpty || !digits.all Char.isDigit then "invalid digit found in string"
  else "number too large to fit in target type"

/-- A number of a text as the 64 bits it fits. -/
def as_u64 (i : Int) : Option (BitVec 64) :=
  if 0 ≤ i ∧ i < 2 ^ 64 then some (BitVec.ofNat 64 i.toNat) else none

/-- A number, or a text that is one without its commas, underscores and spaces. -/
def with_separators (type : String) : Value → Except String (BitVec 64)
  | .int i => (as_u64 i).elim (.error ("Expected " ++ type)) .ok
  | .float _ => .error ("Expected " ++ type)
  | .str s =>
    let cleaned := s.toList.filter fun c => c ∉ [',', '_', ' ']
    match parse_u64 cleaned with
    | some n => .ok (BitVec.ofNat 64 n)
    | none => .error ("Invalid " ++ type ++ ": " ++ parse_error cleaned ++ " (from '" ++ s ++ "')")
  | _ => .error "Expected number or string"

def deserialize_u64_with_separators : Value → Except String (BitVec 64) := with_separators "u64"

def deserialize_usize_with_separators : Value → Except String (BitVec 64) :=
  with_separators "usize"

/-! ## Times in seconds -/

/-- The characters that `trim` takes off. -/
def isWhitespace (c : Char) : Bool :=
  let n := c.toNat
  (9 ≤ n && n ≤ 13) || n == 32 || n == 0x85 || n == 0xA0 || n == 0x1680 ||
    (0x2000 ≤ n && n ≤ 0x200A) || n == 0x2028 || n == 0x2029 || n == 0x202F ||
    n == 0x205F || n == 0x3000

def trim (s : List Char) : List Char :=
  (((s.dropWhile isWhitespace).reverse).dropWhile isWhitespace).reverse

/-- The units of a time: their letter, their seconds and their name. -/
def units : List (Char × Nat × String) :=
  [('s', 1, "seconds"), ('m', 60, "minutes"), ('h', 3600, "hours"), ('d', 86400, "days")]

def parse_duration_string (s : List Char) : Except String (BitVec 64) :=
  let trimmed := trim s
  match parse_u64 trimmed with
  | some n => .ok (BitVec.ofNat 64 n)
  | none =>
    if trimmed.isEmpty then .error "Empty duration string"
    else
      match units.find? fun unit => trimmed.getLast? = some unit.1 with
      | none =>
        .error ("Invalid duration format '" ++ String.ofList s ++
          "': must be a number or end with s/m/h/d")
      | some (_, seconds, name) =>
        let num := trim trimmed.dropLast
        match parse_u64 num with
        | none =>
          .error ("Invalid number in duration '" ++ String.ofList s ++ "': " ++ parse_error num)
        | some n =>
          if n * seconds < 2 ^ 64 then .ok (BitVec.ofNat 64 (n * seconds))
          else .error ("Duration overflow: " ++ toString n ++ " " ++ name ++ " is too large")

def deserialize_duration_seconds : Value → Except String (BitVec 64)
  | .int i => (as_u64 i).elim (.error "Expected u64 for duration") .ok
  | .float _ => .error "Expected u64 for duration"
  | .str s => parse_duration_string s.toList
  | _ => .error "Expected number or string for duration"

/-! ## Sizes -/

/-- Where the number of a size ends. -/
def split_number_suffix (input : List Char) : Except String (List Char × List Char) :=
  let number := input.takeWhile fun c => c.isDigit || c == '.'
  let suffix := input.dropWhile fun c => c.isDigit || c == '.'
  if suffix.isEmpty then .error ("No suffix found in: " ++ String.ofList input)
  else if number.isEmpty then .error ("No number found in: " ++ String.ofList input)
  else .ok (number, suffix)

/-- The upper case of a letter, as far as it decides on a suffix. -/
def upper (c : Char) : Char := if c = 'ı' then 'I' else c.toUpper

def parse_suffix (suffix : List Char) : Except String Nat :=
  match String.ofList (suffix.map upper) with
  | "K" | "KB" => .ok 1000
  | "M" | "MB" => .ok 1000000
  | "G" | "GB" => .ok 1000000000
  | "T" | "TB" => .ok 1000000000000
  | "KI" | "KIB" => .ok 1024
  | "MI" | "MIB" => .ok 1048576
  | "GI" | "GIB" => .ok 1073741824
  | "TI" | "TIB" => .ok 1099511627776
  | _ =>
    .error ("Unknown size suffix: " ++ String.ofList suffix ++
      ". Supported: k/KB/KiB, m/MB/MiB, g/GB/GiB, t/TB/TiB")

/-- `scaled` is the arithmetic on floats: a text as a float, times a number, rounded. -/
def parse_size (scaled : List Char → Nat → Option (BitVec 64)) (s : List Char) :
    Except String (BitVec 64) := do
  let input := trim s
  match parse_u64 input with
  | some n => return BitVec.ofNat 64 n
  | none =>
    let (number_part, suffix) ← split_number_suffix input
    if (scaled number_part 1).isNone then
      throw ("Invalid number: " ++ String.ofList number_part)
    let multiplier ← parse_suffix suffix
    match scaled number_part multiplier with
    | some bytes => return bytes
    | none => throw ("Invalid number: " ++ String.ofList number_part)

def deserialize_size (scaled : List Char → Nat → Option (BitVec 64)) :
    Value → Except String (Option (BitVec 64))
  | .null => .ok none
  | .str s => some <$> parse_size scaled s.toList
  | .int i =>
    (as_u64 i).elim (.error "data did not match any variant of untagged enum SizeValue")
      fun n => .ok (some n)
  | _ => .error "data did not match any variant of untagged enum SizeValue"

/-! ## Codecs -/

/-- A number is written as it is, and may be read with separators. -/
def count : Codec (BitVec 64) where
  serialize n := .int n.toNat
  deserialize := deserialize_u64_with_separators

def usize : Codec (BitVec 64) where
  serialize n := .int n.toNat
  deserialize := deserialize_usize_with_separators

def seconds : Codec (BitVec 64) where
  serialize n := .int n.toNat
  deserialize := deserialize_duration_seconds

def size (scaled : List Char → Nat → Option (BitVec 64)) : Codec (Option (BitVec 64)) where
  serialize
    | none => .null
    | some n => .int n.toNat
  deserialize := deserialize_size scaled

theorem as_u64_toNat (n : BitVec 64) : as_u64 n.toNat = some n := by
  have hfits : (n.toNat : Int) < 2 ^ 64 := by exact_mod_cast n.isLt
  unfold as_u64
  rw [if_pos ⟨Int.natCast_nonneg _, hfits⟩, Int.toNat_natCast, BitVec.ofNat_toNat,
    BitVec.setWidth_eq]

theorem with_separators_int (type : String) (n : BitVec 64) :
    with_separators type (.int n.toNat) = .ok n := by
  unfold with_separators
  dsimp only
  rw [as_u64_toNat]
  rfl

@[simp] theorem count_keeps (n : BitVec 64) : count.Keeps n := by
  unfold Codec.Keeps count deserialize_u64_with_separators
  dsimp only
  rw [with_separators_int]

@[simp] theorem usize_keeps (n : BitVec 64) : usize.Keeps n := by
  unfold Codec.Keeps usize deserialize_usize_with_separators
  dsimp only
  rw [with_separators_int]

@[simp] theorem seconds_keeps (n : BitVec 64) : seconds.Keeps n := by
  unfold Codec.Keeps seconds deserialize_duration_seconds
  dsimp only
  rw [as_u64_toNat]
  rfl

@[simp] theorem size_keeps {scaled : List Char → Nat → Option (BitVec 64)}
    (n : Option (BitVec 64)) : (size scaled).Keeps n := by
  cases n with
  | none => rfl
  | some n =>
    unfold Codec.Keeps size deserialize_size
    dsimp only
    rw [as_u64_toNat]
    rfl

end sai3_bench.serde_helpers
