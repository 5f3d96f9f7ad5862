-- The sizes of objects (size_generator.rs): a fixed size, or the draws of a
-- distribution from a seed, one after the other.
import Mathlib.Algebra.GroupWithZero.Nat
import Mathlib.Data.List.Basic

namespace sai3_bench.size_generator

/-! ## What sizes are asked for -/

inductive DistributionType
  | Uniform
  | Lognormal
deriving DecidableEq, Repr

structure DistributionParams where
  mean : Option Nat := none
  std_dev : Option Nat := none
deriving DecidableEq, Repr

structure SizeDistribution where
  dist_type : DistributionType
  min : Option Nat := none
  max : Option Nat := none
  params : DistributionParams := {}
deriving DecidableEq, Repr

inductive SizeSpec
  | Fixed (size : Nat)
  | Distribution (dist : SizeDistribution)
deriving DecidableEq, Repr

/-! ## Random numbers -/

/-- A lognormal draw: the bytes that it rounds to, and these between bounds. -/
structure Sample where
  rounded : Nat
  clamped : Nat → Nat → Nat

/-- The generators of random numbers that the code takes from `rand`. -/
structure Random where
  StdRng : Type
  seed_from_u64 : Nat → StdRng
  uniform : Nat → Nat → StdRng → Nat × StdRng
  lognormal : Nat → Nat → StdRng → Sample × StdRng

/-- Random numbers for fixed sizes, which take none. -/
def noRandom : Random where
  StdRng := Unit
  seed_from_u64 _ := ()
  uniform min _ rng := (min, rng)
  lognormal mean _ rng := (⟨mean, fun min _ => min⟩, rng)

/-! ## The generator -/

inductive SizeGeneratorImpl
  | Fixed (size : Nat)
  | Uniform (min max : Nat)
  | LogNormal (mean std_dev min max : Nat)
deriving DecidableEq, Repr

structure SizeGenerator (r : Random) where
  generator : SizeGeneratorImpl
  rng : r.StdRng

namespace SizeGeneratorImpl

/-- `new_with_seed` without the seed. -/
def of : SizeSpec → Except String SizeGeneratorImpl
  | .Fixed size => if size = 0 then .error "Object size must be greater than 0" else .ok (.Fixed size)
  | .Distribution dist =>
    match dist.dist_type with
    | .Uniform =>
      let min := dist.min.getD 1024
      let max := dist.max.getD 1048576
      if max < min then .error s!"Uniform distribution: min ({min}) > max ({max})"
      else if min = 0 then .error "Uniform distribution: min must be > 0"
      else .ok (.Uniform min max)
    | .Lognormal =>
      match dist.params.mean, dist.params.std_dev with
      | none, _ => .error "Lognormal distribution requires 'mean' parameter"
      | some _, none => .error "Lognormal distribution requires 'std_dev' parameter"
      | some mean, some std_dev =>
        if mean = 0 then .error "Lognormal distribution: mean must be > 0"
        else if std_dev = 0 then .error "Lognormal distribution: std_dev must be > 0"
        else
          let min := dist.min.getD 1
          let max := dist.max.getD (2 ^ 64 - 1)
          if max < min then .error s!"Lognormal distribution: min ({min}) > max ({max})"
          else .ok (.LogNormal mean std_dev min max)

end SizeGeneratorImpl

namespace SizeGenerator

variable {r : Random}

def new_with_seed (r : Random) (spec : SizeSpec) (seed : Nat) : Except String (SizeGenerator r) :=
  (SizeGeneratorImpl.of spec).map fun generator => ⟨generator, r.seed_from_u64 seed⟩

def new (r : Random) (spec : SizeSpec) : Except String (SizeGenerator r) := new_with_seed r spec 0

def MAX_ATTEMPTS : Nat := 100

/-- Draw until a size is between the bounds, and put one there in the end. -/
def draw (r : Random) (mean std_dev min max : Nat) : Nat → r.StdRng → Nat × r.StdRng
  | 0, rng =>
    let (sample, rng) := r.lognormal mean std_dev rng
    (sample.clamped min max, rng)
  | attempts + 1, rng =>
    let (sample, rng) := r.lognormal mean std_dev rng
    if min ≤ sample.rounded ∧ sample.rounded ≤ max then (sample.rounded, rng)
    else draw r mean std_dev min max attempts rng

def generate (g : SizeGenerator r) : Nat × SizeGenerator r :=
  match g.generator with
  | .Fixed size => (size, g)
  | .Uniform min max =>
    let (size, rng) := r.uniform min max g.rng
    (size, { g with rng := rng })
  | .LogNormal mean std_dev min max =>
    let (size, rng) := draw r mean std_dev min max MAX_ATTEMPTS g.rng
    (size, { g with rng := rng })

/-- The generator after some sizes. -/
def after (g : SizeGenerator r) : Nat → SizeGenerator r
  | 0 => g
  | n + 1 => g.generate.2.after n

/-- The size number `n`, from 0 on. -/
def size (g : SizeGenerator r) (n : Nat) : Nat := (g.after n).generate.1

/-- What `description` leaves of the generator: to tell the mean of a
lognormal distribution, it takes a hundred sizes. -/
def description (g : SizeGenerator r) : SizeGenerator r :=
  match g.generator with
  | .LogNormal _ _ _ _ => g.after 100
  | _ => g

/-! ## Sizes one after the other -/

variable {g : SizeGenerator r}

/-- Whether there is a generator does not depend on the seed. -/
theorem new_with_seed_ok {spec : SizeSpec} {seed : Nat}
    (h : new_with_seed r spec seed = .ok g) (seed' : Nat) :
    new_with_seed r spec seed' = .ok ⟨g.generator, r.seed_from_u64 seed'⟩ := by
  unfold new_with_seed at h ⊢
  cases himpl : SizeGeneratorImpl.of spec with
  | error msg =>
    rw [himpl] at h
    cases h
  | ok impl =>
    rw [himpl] at h
    cases h
    rfl

@[simp] theorem after_zero : g.after 0 = g := rfl

theorem after_add (m n : Nat) : g.after (m + n) = (g.after m).after n := by
  induction m generalizing g with
  | zero => rw [Nat.zero_add, after_zero]
  | succ m ih =>
    rw [Nat.succ_add]
    exact ih

theorem after_succ (n : Nat) : g.after (n + 1) = (g.after n).generate.2 := after_add n 1

theorem generate_generator : g.generate.2.generator = g.generator := by
  unfold generate
  split <;> simp_all

theorem after_generator (n : Nat) : (g.after n).generator = g.generator := by
  induction n with
  | zero => rfl
  | succ n ih => rw [after_succ, generate_generator, ih]

/-- A fixed size is always the same. -/
theorem size_fixed {size₀ : Nat} (h : g.generator = .Fixed size₀) (n : Nat) : g.size n = size₀ := by
  unfold size generate
  rw [after_generator, h]

end SizeGenerator

end sai3_bench.size_generator
