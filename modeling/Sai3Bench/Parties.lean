-- Parties that share a state and take their steps in any order: what the steps of each
-- keep, and the steps of the others leave as it is, holds in every run of all.
import Mathlib.Algebra.BigOperators.Group.List.Basic
import Sai3Bench.Crews

namespace parties

open machines

variable {γ α ε : Type*}

/-- What a party does, by its number: a step reads the shared state and its own, and
writes both. -/
structure Party (γ α ε : Type*) where
  step : γ → Nat → α → ε → Option (γ × α)

/-- The parties, with what they share. -/
structure Table (γ α : Type*) where
  shared : γ
  members : List α

/-- The party when only some events happen. -/
def Party.only (p : Party γ α ε) (happens : ε → Bool) : Party γ α ε where
  step g i a e := if happens e then p.step g i a e else none

/-- One of the parties takes a step. -/
def Party.machine (p : Party γ α ε) : Machine (Table γ α) (Nat × ε) where
  step s e := (s.members[e.1]?).bind fun a =>
    (p.step s.shared e.1 a e.2).map fun r => ⟨r.1, s.members.set e.1 r.2⟩

namespace Table

/-- A law of the shared state, and one of each party. -/
structure Holds (G : γ → Prop) (I : γ → Nat → α → Prop) (s : Table γ α) : Prop where
  shared : G s.shared
  members : ∀ i a, s.members[i]? = some a → I s.shared i a

/-- How much is left to do, over all parties. -/
def rank (left : α → Nat) (s : Table γ α) : Nat := (s.members.map left).sum

end Table

variable {p : Party γ α ε} {G : γ → Prop} {I : γ → Nat → α → Prop} {s t : Table γ α} {i : Nat} {e : ε}

theorem only_step {happens : ε → Bool} {g : γ} {a : α} {r : γ × α} :
    (p.only happens).step g i a e = some r ↔ happens e = true ∧ p.step g i a e = some r := by
  unfold Party.only
  dsimp only
  split <;> simp_all

theorem step_iff : p.machine.step s (i, e) = some t ↔ ∃ a r, s.members[i]? = some a ∧
    p.step s.shared i a e = some r ∧ t = ⟨r.1, s.members.set i r.2⟩ := by
  unfold Party.machine
  simp only [Option.bind_eq_some_iff, Option.map_eq_some_iff]
  constructor
  · rintro ⟨a, ha, r, hr, rfl⟩
    exact ⟨a, r, ha, hr, rfl⟩
  · rintro ⟨a, r, ha, hr, rfl⟩
    exact ⟨a, ha, r, hr, rfl⟩

/-- What a party keeps of its own law, and what it leaves to the others of theirs. -/
structure Preserves (p : Party γ α ε) (G : γ → Prop) (I : γ → Nat → α → Prop) : Prop where
  own : ∀ {g i a e r}, G g → I g i a → p.step g i a e = some r → G r.1 ∧ I r.1 i r.2
  others : ∀ {g i a e r j b}, G g → I g i a → p.step g i a e = some r → j ≠ i → I g j b → I r.1 j b

theorem Preserves.step (h : Preserves p G I) (hs : s.Holds G I) (hstep : p.machine.step s (i, e) = some t) :
    t.Holds G I := by
  obtain ⟨a, r, ha, hr, rfl⟩ := step_iff.mp hstep
  obtain ⟨hshared, hown⟩ := h.own hs.shared (hs.members i a ha) hr
  refine ⟨hshared, fun j b hb => ?_⟩
  dsimp only at hb ⊢
  rw [List.getElem?_set] at hb
  by_cases hij : i = j
  · subst hij
    rw [if_pos rfl] at hb
    split at hb
    · cases hb
      exact hown
    · cases hb
  · rw [if_neg hij] at hb
    exact h.others hs.shared (hs.members i a ha) hr (Ne.symm hij) (hs.members j b hb)

theorem length_step (hstep : p.machine.step s (i, e) = some t) : t.members.length = s.members.length := by
  obtain ⟨a, r, _, _, rfl⟩ := step_iff.mp hstep
  exact List.length_set

theorem length_run {es : List (Nat × ε)} (hrun : p.machine.run s es = some t) :
    t.members.length = s.members.length :=
  Machine.run_always (I := fun u => u.members.length = s.members.length)
    (fun _ _ _ hu hstep => (length_step hstep).trans hu) rfl hrun

theorem Preserves.run {es : List (Nat × ε)} (h : Preserves p G I) (hs : s.Holds G I)
    (hrun : p.machine.run s es = some t) : t.Holds G I :=
  Machine.run_always (fun _ _ _ hs hstep => h.step hs hstep) hs hrun

theorem rank_set {left : α → Nat} {as : List α} {a b : α} (ha : as[i]? = some a) (hless : left b < left a) :
    ((as.set i b).map left).sum < (as.map left).sum := by
  induction as generalizing i with
  | nil => cases ha
  | cons first as ih =>
    cases i with
    | zero =>
      cases ha
      rw [List.set_cons_zero, List.map_cons, List.map_cons, List.sum_cons, List.sum_cons]
      omega
    | succ i =>
      have hrest := ih (i := i) ha
      rw [List.set_cons_succ, List.map_cons, List.map_cons, List.sum_cons, List.sum_cons]
      omega

/-- When each step leaves its party less to do, and a party that is not done has a step,
the parties come to where all of them are done. -/
theorem Preserves.ends (h : Preserves p G I) (left : α → Nat) {done : α → Prop}
    (hless : ∀ {g i a e r}, G g → I g i a → p.step g i a e = some r → left r.2 < left a)
    (hgo : ∀ {g i a}, G g → I g i a → done a ∨ ∃ e r, p.step g i a e = some r) (hs : s.Holds G I) :
    p.machine.Ends (fun t => ∀ a ∈ t.members, done a) s := by
  have hstep : ∀ u e t, u.Holds G I → p.machine.step u e = some t →
      t.Holds G I ∧ t.rank left < u.rank left := by
    rintro u ⟨i, e⟩ t hu hstep
    refine ⟨h.step hu hstep, ?_⟩
    obtain ⟨a, r, ha, hr, rfl⟩ := step_iff.mp hstep
    exact rank_set ha (hless hu.shared (hu.members i a ha) hr)
  refine Machine.ends_of_rank hstep ?_ hs
  · intro u hu
    by_cases hall : ∀ a ∈ u.members, done a
    · exact .inl hall
    · push Not at hall
      obtain ⟨a, ha, hnot⟩ := hall
      obtain ⟨i, hi⟩ := List.mem_iff_getElem?.mp ha
      obtain ⟨e, r, hr⟩ := (hgo hu.shared (hu.members i a hi)).resolve_left hnot
      exact .inr ⟨(i, e), _, step_iff.mpr ⟨a, r, hi, hr, rfl⟩⟩

end parties
