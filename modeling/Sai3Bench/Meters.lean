-- A counter that only grows until it is set to zero, read by differences: what the
-- differences lose of it.
import Mathlib.Algebra.BigOperators.Group.List.Basic
import Mathlib.Algebra.GroupWithZero.Nat

namespace meters

inductive Tick
  | Add (n : Nat)
  | Read
  | Reset
deriving DecidableEq, Repr

/-- The differences that are read, from the counter and its last reading. A difference stops
at zero. -/
def deltas : Nat → Nat → List Tick → List Nat
  | _, _, [] => []
  | counter, last, .Add n :: ticks => deltas (counter + n) last ticks
  | counter, last, .Read :: ticks => (counter - last) :: deltas counter counter ticks
  | _, last, .Reset :: ticks => deltas 0 last ticks

def added : List Tick → Nat
  | [] => 0
  | .Add n :: ticks => n + added ticks
  | .Read :: ticks | .Reset :: ticks => added ticks

/-- Nothing is added between the last reading and a reset, or the end. -/
def ReadOut : (unread : Bool) → List Tick → Prop
  | unread, [] => unread = false
  | _, .Add _ :: ticks => ReadOut true ticks
  | _, .Read :: ticks => ReadOut false ticks
  | unread, .Reset :: ticks => unread = false ∧ ReadOut false ticks

/-- The first reading after a reset is zero, or the one before it was. -/
def Apart : (counter last : Nat) → (reset : Bool) → List Tick → Prop
  | _, _, _, [] => True
  | counter, last, reset, .Add n :: ticks => Apart (counter + n) last reset ticks
  | counter, last, reset, .Read :: ticks =>
    (reset = true → last = 0 ∨ counter = 0) ∧ Apart counter counter false ticks
  | _, last, _, .Reset :: ticks => Apart 0 last true ticks

instance decidableApart : (counter last : Nat) → (reset : Bool) → (ticks : List Tick) →
    Decidable (Apart counter last reset ticks)
  | _, _, _, [] => isTrue trivial
  | counter, last, reset, .Add n :: ticks => decidableApart (counter + n) last reset ticks
  | counter, last, reset, .Read :: ticks =>
    have := decidableApart counter counter false ticks
    inferInstanceAs (Decidable ((reset = true → last = 0 ∨ counter = 0) ∧
      Apart counter counter false ticks))
  | _, last, _, .Reset :: ticks => decidableApart 0 last true ticks

/-- What a first reading after a reset shares with the one before it. -/
def lost : (counter last : Nat) → (reset : Bool) → List Tick → Nat
  | _, _, _, [] => 0
  | counter, last, reset, .Add n :: ticks => lost (counter + n) last reset ticks
  | counter, last, reset, .Read :: ticks =>
    (if reset then min last counter else 0) + lost counter counter false ticks
  | _, last, _, .Reset :: ticks => lost 0 last true ticks

/-- What was added since the last reading. -/
def unread_part (counter last : Nat) (reset : Bool) : Nat :=
  if reset then counter else counter - last

variable {ticks : List Tick} {counter last : Nat} {reset unread : Bool}

theorem unread_part_add (hle : reset = false → last ≤ counter) (n : Nat) :
    unread_part (counter + n) last reset = unread_part counter last reset + n := by
  unfold unread_part
  cases reset with
  | true => rfl
  | false =>
    have := hle rfl
    simp only [Bool.false_eq_true, if_false]
    omega

/-- The difference and what it lost are what was not read yet. -/
theorem difference_add_lost (counter last : Nat) (reset : Bool) :
    counter - last + (if reset then min last counter else 0) = unread_part counter last reset := by
  unfold unread_part
  cases reset with
  | true =>
    simp only [if_true]
    omega
  | false => simp

theorem deltas_add_lost (hle : reset = false → last ≤ counter)
    (hnone : unread = false → unread_part counter last reset = 0) (h : ReadOut unread ticks) :
    (deltas counter last ticks).sum + lost counter last reset ticks =
      unread_part counter last reset + added ticks := by
  induction ticks generalizing counter last reset unread with
  | nil =>
    rw [hnone h]
    rfl
  | cons tick ticks ih =>
    cases tick with
    | Add n =>
      have hnext := @ih (counter + n) last reset true (fun hr => by have := hle hr; omega)
        (fun hu => by cases hu) h
      simp only [deltas, lost, added]
      rw [hnext, unread_part_add hle]
      omega
    | Read =>
      have hnext := @ih counter counter false false (fun _ => Nat.le_refl _)
        (fun _ => Nat.sub_self _) h
      have hself : unread_part counter counter false = 0 := Nat.sub_self _
      rw [hself] at hnext
      simp only [deltas, lost, added, List.sum_cons]
      have hread := difference_add_lost counter last reset
      omega
    | Reset =>
      have hnext := @ih 0 last true false (fun hr => by cases hr) (fun _ => rfl) h.2
      have hzero : unread_part 0 last true = 0 := rfl
      rw [hzero] at hnext
      rw [hnone h.1]
      exact hnext

theorem lost_eq_zero_iff : lost counter last reset ticks = 0 ↔
    Apart counter last reset ticks := by
  induction ticks generalizing counter last reset with
  | nil => simp [lost, Apart]
  | cons tick ticks ih =>
    cases tick with
    | Add n => exact ih
    | Read =>
      simp only [lost, Apart, Nat.add_eq_zero_iff, ih]
      apply and_congr_left
      intro _
      cases reset with
      | true =>
        simp only [if_true, true_implies]
        omega
      | false => simp
    | Reset => exact ih

/-- The differences are all that was added exactly where no reading after a reset shares
something with the one before it. -/
theorem sum_deltas_iff (h : ReadOut false ticks) :
    (deltas 0 0 ticks).sum = added ticks ↔ Apart 0 0 false ticks := by
  have hsum := @deltas_add_lost ticks 0 0 false false
    (fun _ => Nat.le_refl _) (fun _ => rfl) h
  have hzero : unread_part 0 0 false = 0 := rfl
  rw [← lost_eq_zero_iff]
  omega

end meters
