-- The data of the objects that a prepare phase puts (prepare/, data_gen_pool.rs): zeros,
-- or bytes that are generated with the factors of the object's spec.
import Sai3Bench.PrepareTurns
import Sai3Bench.RunConfigs

namespace sai3_bench.prepare

open directory_tree
open config.written (FillPattern default_fill default_dedup_factor default_compress_factor)

/-- A spec with what is said of the data of its objects. -/
structure DataSpec extends EnsureSpec where
  fill : FillPattern := default_fill
  dedup_factor : Nat := default_dedup_factor.toNat
  compress_factor : Nat := default_compress_factor.toNat

/-- The bytes of an object: zeros, or those of `generate_data_optimized`. -/
inductive Data
  | Zeroed (size : Nat)
  | Generated (size dedup compress : Nat)
deriving DecidableEq, Repr

def generate_data (fill : FillPattern) (size dedup compress : Nat) : Data :=
  match fill with
  | .Zero => .Zeroed size
  | .Random => .Generated size dedup compress
  | .Prand => .Generated size dedup compress

/-- An object as it is put. -/
structure Write where
  uri : Path
  data : Data
deriving DecidableEq, Repr

end sai3_bench.prepare
