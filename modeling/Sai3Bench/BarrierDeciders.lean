-- The two deciders of a barrier: `check_barrier`, which a wait asks, and
-- `check_barrier_ready`, which a report asks. They read the same policy.
import Sai3Bench.BarrierPolicies

namespace sai3_bench.controller

open config machines pb

/-- A wait goes on when it is told this. -/
def BarrierStatus.passes (status : BarrierStatus) : Prop := status = .Ready ∨ status = .Degraded

/-- When the two deciders say the same: a majority that is ready must also be
alive, and whoever is left must be as many as are ready. -/
def DecidersAgree (policy : BarrierType) (agents failed ready : Finset String) : Prop :=
  match policy with
  | .AllOrNothing => True
  | .Majority => agents.card < 2 * ready.card → agents.card < 2 * (agents \ failed).card
  | .BestEffort => (agents \ failed).Nonempty → ready.card = (agents \ failed).card

namespace BarrierManager

variable {bm : BarrierManager} {k : Nat}

/-! ## What each decider compares -/

/-- The wait passes by these counts. -/
theorem check_barrier_passes_iff (hf : bm.failed_agents ⊆ bm.agents.keySet) :
    bm.check_barrier.passes ↔ match bm.config.barrier_type with
      | .AllOrNothing => bm.failed_agents.card = 0 ∧
          bm.ready_agents.card = (bm.agents.keySet \ bm.failed_agents).card
      | .Majority => bm.agents.keySet.card < 2 * (bm.agents.keySet \ bm.failed_agents).card ∧
          bm.agents.keySet.card < 2 * bm.ready_agents.card
      | .BestEffort =>
          (bm.agents.keySet \ bm.failed_agents).Nonempty ∧ bm.ready_agents.Nonempty := by
  have hle : bm.failed_agents.card ≤ bm.agents.keySet.card := Finset.card_le_card hf
  rw [← Finset.card_pos, ← Finset.card_pos, Finset.card_sdiff_of_subset hf]
  unfold check_barrier BarrierStatus.passes
  rw [← AList.card_keySet]
  cases bm.config.barrier_type with
  | AllOrNothing =>
    dsimp only
    repeat' split
    all_goals simp only [reduceCtorEq, or_self, or_false, true_iff, false_iff]
    all_goals omega
  | Majority =>
    dsimp only
    repeat' split
    all_goals simp only [reduceCtorEq, or_self, or_false, or_true, true_iff, false_iff]
    all_goals omega
  | BestEffort =>
    dsimp only
    repeat' split
    all_goals simp only [reduceCtorEq, or_self, or_false, or_true, true_iff, false_iff]
    all_goals omega

end BarrierManager

open BarrierManager

/-- The deciders agree on the same ready agents exactly when the counts of
those who are alive allow it. -/
theorem the_deciders_agree_iff {bm : BarrierManager} {k : Nat}
    (hfailed : bm.failed_agents ⊆ bm.agents.keySet) (hready : bm.ready_agents.Nonempty)
    (hsame : bm.readyAt k = bm.ready_agents) (hrel : bm.releasedAt k = false) :
    (bm.check_barrier.passes ↔ (bm.check_barrier_ready k).isSome = true) ↔
      DecidersAgree bm.config.barrier_type bm.agents.keySet bm.failed_agents bm.ready_agents := by
  have hle : bm.failed_agents.card ≤ bm.agents.keySet.card := Finset.card_le_card hfailed
  rw [check_barrier_passes_iff hfailed, check_barrier_ready_isSome_iff hrel, hsame]
  simp only [hready, known_of_ready (hsame ▸ hready : (bm.readyAt k).Nonempty), and_true, true_and]
  unfold can_release DecidersAgree
  rw [← AList.card_keySet, ← Finset.card_pos, Finset.card_sdiff_of_subset hfailed]
  cases bm.config.barrier_type with
  | AllOrNothing => simp
  | Majority =>
    simp only [decide_eq_true_eq]
    omega
  | BestEffort =>
    simp only [Bool.and_eq_true, decide_eq_true_eq]
    omega

/-! ## One agent of two is ready -/

/-- Agent "a" has reached the barrier of a phase and barrier 1. -/
def oneReady (policy : BarrierType) : BarrierManager :=
  ((twoAgents policy).process_heartbeat "a" { at_barrier := true }).agent_at_barrier "a" 1 1

theorem one_of_two_agrees_iff :
    ((oneReady .BestEffort).check_barrier.passes ↔
      ((oneReady .BestEffort).check_barrier_ready 1).isSome = true) ↔
    DecidersAgree .BestEffort {"a", "b"} ∅ {"a"} :=
  the_deciders_agree_iff (by decide) (by decide) (by decide) rfl

/-- A best-effort wait goes on with the first agent that is ready, but the
barrier waits for the other. -/
theorem best_effort_disagrees :
    (oneReady .BestEffort).agents.keySet = {"a", "b"} ∧ (oneReady .BestEffort).failed_agents = ∅ ∧
    (oneReady .BestEffort).ready_agents = {"a"} ∧ (oneReady .BestEffort).readyAt 1 = {"a"} ∧
    (oneReady .BestEffort).releasedAt 1 = false ∧
    ¬ ((oneReady .BestEffort).check_barrier.passes ↔
      ((oneReady .BestEffort).check_barrier_ready 1).isSome = true) := by
  refine ⟨by decide, by decide, by decide, by decide, rfl, fun h => ?_⟩
  have hpasses : (oneReady .BestEffort).check_barrier.passes := Or.inr rfl
  have hready : ((oneReady .BestEffort).check_barrier_ready 1).isSome = false := rfl
  rw [hready] at h
  exact absurd (h.mp hpasses) (by simp)

end sai3_bench.controller
