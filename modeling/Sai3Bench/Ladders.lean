-- A ladder of stages: each stage is entered, runs, waits at its barrier, and
-- is left once the barrier is released. What a record of marks that climbs
-- the ladder says about the order of the stages.
import Sai3Bench.Machines

namespace ladders

open machines

variable {κ : Type*}

/-- What is seen of a climb. Barriers have names in `κ`. -/
inductive Mark (κ : Type*)
  | Enter (i : Nat)
  | Ran (i : Nat)
  | Ready (i : Nat)
  | Release (k : κ)
  | Complete
deriving DecidableEq

/-- Where a climb stands. -/
inductive Rung
  | Ground
  | Running (i : Nat) (ran : Bool)
  | Waiting (i : Nat) (released : Bool)
  | Done (i : Nat)
deriving DecidableEq

/-- One mark. Stage 0 has no barrier, and a release counts only for the
stage that waits at that barrier. -/
def climb [DecidableEq κ] (barrier : Nat → κ) : Rung → Mark κ → Option Rung
  | .Ground, .Enter 0 => some (.Running 0 false)
  | .Running 0 _, .Enter 1 => some (.Running 1 false)
  | .Waiting i true, .Enter j => if j = i + 1 then some (.Running j false) else none
  | .Running i false, .Ran j => if j = i then some (.Running i true) else none
  | .Running i true, .Ready j => if j = i then some (.Waiting i false) else none
  | .Waiting i released, .Release k => some (.Waiting i (released || decide (k = barrier i)))
  | r, .Release _ => some r
  | .Waiting i true, .Complete => some (.Done i)
  | _, _ => none

def ladder [DecidableEq κ] (barrier : Nat → κ) : Machine Rung (Mark κ) := ⟨climb barrier⟩

/-- The stages entered, oldest first. -/
def entries (ms : List (Mark κ)) : List Nat :=
  ms.filterMap fun m => match m with
    | .Enter i => some i
    | _ => none

/-- Stage `i` ran, then waited at its barrier, and then its barrier was released. -/
def Left (barrier : Nat → κ) (ms : List (Mark κ)) (i : Nat) : Prop :=
  ∃ p q r, ms = p ++ .Ran i :: q ++ .Ready i :: r ∧ .Release (barrier i) ∈ r

variable {barrier : Nat → κ} {ms post : List (Mark κ)} {m : Mark κ} {i : Nat} {r : Rung}

theorem Left.append (h : Left barrier ms i) (more : List (Mark κ)) : Left barrier (ms ++ more) i := by
  obtain ⟨p, q, s, rfl, hs⟩ := h
  exact ⟨p, q, s ++ more, by simp, List.mem_append_left _ hs⟩

theorem entries_append (more : List (Mark κ)) : entries (ms ++ more) = entries ms ++ entries more := by
  simp [entries]

/-- What a record says about the rung that it reaches. -/
def Climbed (barrier : Nat → κ) (ms : List (Mark κ)) : Rung → Prop
  | .Ground => entries ms = []
  | .Running i ran =>
    entries ms = List.range (i + 1) ∧ (∀ j, 0 < j → j < i → Left barrier ms j) ∧
      (ran = true → ∃ p q, ms = p ++ .Ran i :: q)
  | .Waiting i released =>
    entries ms = List.range (i + 1) ∧ (∀ j, 0 < j → j < i → Left barrier ms j) ∧
      ∃ p q s, ms = p ++ .Ran i :: q ++ .Ready i :: s ∧
        (released = true → .Release (barrier i) ∈ s)
  | .Done i =>
    entries ms = List.range (i + 1) ∧ ∀ j, 0 < j → j ≤ i → Left barrier ms j

/-- A stage that waits and has its release is left, and so are all before it. -/
theorem Climbed.left (h : Climbed barrier ms (.Waiting i true)) :
    ∀ j, 0 < j → j ≤ i → Left barrier ms j := by
  obtain ⟨_, hleft, p, q, s, hms, hrel⟩ := h
  intro j hj hji
  rcases Nat.lt_or_eq_of_le hji with hlt | rfl
  · exact hleft j hj hlt
  · exact ⟨p, q, s, hms, hrel rfl⟩

variable [DecidableEq κ]

theorem climbed_step {t : Rung} (h : Climbed barrier ms r) (hs : climb barrier r m = some t) :
    Climbed barrier (ms ++ [m]) t := by
  have hkeep : ∀ {k : Nat}, (∀ j, 0 < j → j < k → Left barrier ms j) →
      ∀ j, 0 < j → j < k → Left barrier (ms ++ [m]) j :=
    fun hl j hj hjk => (hl j hj hjk).append _
  unfold climb at hs
  split at hs
  · cases hs
    simp only [Climbed] at h ⊢
    exact ⟨by simp [entries_append, h]; rfl, fun j hj hj0 => by omega, by simp⟩
  · cases hs
    obtain ⟨hent, _, _⟩ := h
    exact ⟨by rw [entries_append, hent]; rfl, fun j hj hj1 => by omega, by simp⟩
  · rename_i k j
    split at hs <;> cases hs
    rename_i hj
    subst hj
    have hleft := h.left
    obtain ⟨hent, _, _⟩ := h
    refine ⟨?_, fun l hl hlk => (hleft l hl (by omega)).append _, by simp⟩
    rw [entries_append, hent, List.range_succ (n := k + 1)]
    rfl
  · split at hs <;> cases hs
    rename_i hj
    subst hj
    obtain ⟨hent, hl, _⟩ := h
    exact ⟨by rw [entries_append, hent]; simp [entries], hkeep hl, fun _ => ⟨ms, [], by simp⟩⟩
  · split at hs <;> cases hs
    rename_i hj
    subst hj
    obtain ⟨hent, hl, hran⟩ := h
    obtain ⟨p, q, rfl⟩ := hran rfl
    exact ⟨by rw [entries_append, hent]; simp [entries], hkeep hl, p, q, [], by simp, by simp⟩
  · rename_i k released key
    cases hs
    obtain ⟨hent, hl, p, q, s, rfl, hrel⟩ := h
    refine ⟨by rw [entries_append, hent]; simp [entries], hkeep hl, p, q, s ++ [.Release key],
      by simp, ?_⟩
    intro hor
    rcases Bool.or_eq_true _ _ ▸ hor with hr | hk
    · exact List.mem_append_left _ (hrel hr)
    · simp [of_decide_eq_true hk]
  · rename_i key hno
    cases hs
    have hent : entries (ms ++ [.Release key]) = entries ms := by simp [entries]
    cases r with
    | Ground => exact hent.trans h
    | Running k ran =>
      obtain ⟨he, hl, hran⟩ := h
      refine ⟨hent.trans he, hkeep hl, fun hr => ?_⟩
      obtain ⟨p, q, rfl⟩ := hran hr
      exact ⟨p, q ++ [.Release key], by simp⟩
    | Waiting k released => exact absurd rfl (hno k released)
    | Done k => exact ⟨hent.trans h.1, fun j hj hjk => (h.2 j hj hjk).append _⟩
  · rename_i k
    cases hs
    exact ⟨by rw [entries_append, h.1]; simp [entries], fun j hj hjk => (h.left j hj hjk).append _⟩
  · cases hs

theorem run_climbed (h : (ladder barrier).run .Ground ms = some r) : Climbed barrier ms r := by
  have h0 : Climbed barrier [] .Ground := rfl
  exact Machine.run_remembers (P := fun _ _ => True)
    (fun _ _ _ _ _ hI _ hs => climbed_step hI hs) h0 (Machine.along_of_mem fun _ _ _ => trivial) h

/-! ## The order of the stages -/

/-- Only a stage that waits and has its release lets a later stage begin. -/
theorem climb_enter {t u : Rung} (h : climb barrier t (.Enter (i + 2)) = some u) :
    t = .Waiting (i + 1) true := by
  cases t with
  | Waiting k released =>
    cases released
    · simp [climb] at h
    · simp only [climb] at h
      split at h
      · rename_i hk
        have : k = i + 1 := by omega
        subst this
        rfl
      · cases h
  | _ => simp [climb] at h

theorem climb_complete {t u : Rung} (h : climb barrier t .Complete = some u) :
    ∃ n, t = .Waiting n true ∧ u = .Done n := by
  cases t with
  | Waiting k released =>
    cases released
    · simp [climb] at h
    · cases h
      exact ⟨k, rfl, rfl⟩
  | _ => simp [climb] at h

/-- The rung after a release. -/
def afterRelease (barrier : Nat → κ) (k : κ) : Rung → Rung
  | .Waiting i released => .Waiting i (released || decide (k = barrier i))
  | r => r

/-- A release never stops a climb. -/
theorem climb_release (r : Rung) (k : κ) :
    climb barrier r (.Release k) = some (afterRelease barrier k r) := by
  cases r with
  | Waiting i released => cases released <;> rfl
  | Running i ran => cases i <;> cases ran <;> rfl
  | _ => rfl

/-- Nothing but releases comes after the completion. -/
theorem climb_done {n : Nat} {u : Rung} (h : climb barrier (.Done n) m = some u) : u = .Done n := by
  cases m with
  | Release k => cases h; rfl
  | _ => simp [climb] at h

theorem run_done {n : Nat} (h : (ladder barrier).run (.Done n) ms = some r) : r = .Done n :=
  Machine.run_always (I := (· = .Done n)) (fun _ _ _ hI hs => climb_done (hI ▸ hs)) rfl h

/-- The stages are entered in their order, and none is skipped. -/
theorem stages_in_order (h : (ladder barrier).run .Ground ms = some r) :
    entries ms = List.range (entries ms).length := by
  have hc := run_climbed h
  cases r with
  | Ground => rw [show entries ms = [] from hc]; rfl
  | _ => rw [hc.1]; simp

/-- A stage is entered only when the stage before it is left. -/
theorem left_before_enter (h : (ladder barrier).run .Ground (ms ++ .Enter (i + 2) :: post) = some r) :
    Left barrier ms (i + 1) := by
  obtain ⟨t, ht, hrest⟩ := Machine.run_append_iff.mp h
  obtain ⟨u, hu, _⟩ := Machine.run_cons_iff.mp hrest
  have hc := run_climbed ht
  rw [climb_enter hu] at hc
  exact hc.left (i + 1) (by omega) (by omega)

/-- Completion comes when the last stage entered is left, and every stage
before it. -/
theorem left_before_complete (h : (ladder barrier).run .Ground (ms ++ .Complete :: post) = some r) :
    ∃ n, r = .Done n ∧ entries ms = List.range (n + 1) ∧
      ∀ j, 0 < j → j ≤ n → Left barrier ms j := by
  obtain ⟨t, ht, hrest⟩ := Machine.run_append_iff.mp h
  obtain ⟨u, hu, hpost⟩ := Machine.run_cons_iff.mp hrest
  obtain ⟨n, rfl, rfl⟩ := climb_complete hu
  have hc := run_climbed ht
  exact ⟨n, run_done hpost, hc.1, hc.left⟩

end ladders
