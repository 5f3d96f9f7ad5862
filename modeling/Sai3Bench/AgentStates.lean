-- The state of an agent: the workload state that every task of the agent
-- reads and writes, and the guard on its changes.
import Mathlib.Algebra.GroupWithZero.Nat
import Sai3Bench.StageConfigs
import Sai3Bench.Messages
import Mathlib.Tactic.Tauto

namespace sai3_bench.agent

open config pb

inductive WorkloadState
  | Idle
  | AtStage (stage_index : Nat) (stage_name : String) (ready_for_next : Bool)
  | Completed
  | Failed
  | Aborting
deriving DecidableEq, Repr

/-- The guard of `transition_to`, arm by arm. -/
def can_transition : WorkloadState → WorkloadState → Bool
  | .AtStage i1 _ false, .AtStage i2 _ true => i1 == i2
  | .AtStage i1 name true, .AtStage i2 _ false =>
    -- the next stage, or the first one after the pseudo-stage "validated"
    i2 == i1 + 1 || (i1 == 0 && i2 == 0 && name == "validated")
  | .AtStage i1 name false, .AtStage i2 _ false => i1 == 0 && i2 == 1 && name == "preflight"
  | .Idle, .AtStage i _ _ => i == 0
  | .AtStage _ _ true, .Completed => true
  | .AtStage _ _ true, .Idle => true
  | .AtStage _ _ _, .Failed => true
  | .Completed, .Idle => true
  | .Failed, .Idle => true
  | _, .Aborting => true
  | .Aborting, .Idle => true
  | .Idle, .Idle => true
  | .Failed, .Failed => true
  | _, _ => false

/-- The state after a change that the guard allows, or that changes nothing. -/
def transition_to (old new : WorkloadState) : Option WorkloadState :=
  if old = new then some old
  else if can_transition old new then some new
  else none

/-- A string as `{:?}` writes it. -/
def quoted (s : String) : String :=
  let escape (c : Char) : List Char := match c with
    | '"' => ['\\', '"']
    | '\\' => ['\\', '\\']
    | '\n' => ['\\', 'n']
    | '\r' => ['\\', 'r']
    | '\t' => ['\\', 't']
    | c => [c]
  "\"" ++ String.ofList (s.toList.flatMap escape) ++ "\""

/-- A state as `{:?}` writes it. -/
def WorkloadState.debug : WorkloadState → String
  | .Idle => "Idle"
  | .AtStage i name ready =>
    "AtStage \x7b stage_index: " ++ toString i ++ ", stage_name: " ++ quoted name ++
      ", ready_for_next: " ++ toString ready ++ " \x7d"
  | .Completed => "Completed"
  | .Failed => "Failed"
  | .Aborting => "Aborting"

/-- What a refused `transition_to` says. -/
def transitionError (old new : WorkloadState) (reason : String) : String :=
  "Invalid state transition: " ++ old.debug ++ " → " ++ new.debug ++ " (reason: " ++ reason ++ ")"

/-- The cells of `AgentState` beside the workload state. Each has a lock of
its own. A tracker is known by the workload that it was made for. -/
structure Cells where
  error_message : Option String := none
  agent_op_log_path : Option String := none
  agent_id : Option String := none
  config_yaml : Option String := none
  tracker : Option Nat := none
  op_log_path : Option String := none
  agent_index : Option Nat := none
  num_agents : Option Nat := none
  completion_sent : Bool := false
  shared_storage : Option Bool := none
  stages : Option (List StageConfig) := none

namespace Cells

def set_error (e : String) (c : Cells) : Cells := { c with error_message := some e }
def mark_completion_sent (c : Cells) : Cells := { c with completion_sent := true }
def reset_completion_sent (c : Cells) : Cells := { c with completion_sent := false }
def set_agent_id (id : String) (c : Cells) : Cells := { c with agent_id := some id }
def set_config_yaml (yaml : String) (c : Cells) : Cells := { c with config_yaml := some yaml }
def set_tracker (t : Nat) (c : Cells) : Cells := { c with tracker := some t }
def set_op_log_path (path : Option String) (c : Cells) : Cells := { c with op_log_path := path }
def set_agent_index (i : Nat) (c : Cells) : Cells := { c with agent_index := some i }
def set_num_agents (n : Nat) (c : Cells) : Cells := { c with num_agents := some n }
def set_shared_storage (b : Bool) (c : Cells) : Cells := { c with shared_storage := some b }
def set_stages (ls : Option (List StageConfig)) (c : Cells) : Cells := { c with stages := ls }

end Cells

/-! ## What the guard allows -/

/-- Who may reach a stage that executes. -/
theorem can_transition_enter {s : WorkloadState} {i : Nat} {name : String} :
    can_transition s (.AtStage i name false) = true ↔
      (s = .Idle ∧ i = 0) ∨
      (∃ j old, s = .AtStage j old true ∧ (i = j + 1 ∨ (j = 0 ∧ i = 0 ∧ old = "validated"))) ∨
      (s = .AtStage 0 "preflight" false ∧ i = 1) := by
  cases s with
  | AtStage j old ready =>
    cases ready
    · simp only [can_transition, Bool.and_eq_true, beq_iff_eq]
      simp
      tauto
    · simp only [can_transition, Bool.and_eq_true, Bool.or_eq_true, beq_iff_eq]
      simp
      tauto
  | Idle => simp only [can_transition, beq_iff_eq]; simp
  | _ => simp [can_transition]

/-- Who may reach a stage that waits at its barrier. -/
theorem can_transition_ready {s : WorkloadState} {i : Nat} {name : String} :
    can_transition s (.AtStage i name true) = true ↔
      (s = .Idle ∧ i = 0) ∨ ∃ old, s = .AtStage i old false := by
  cases s with
  | AtStage j old ready => cases ready <;> simp [can_transition]
  | Idle => simp only [can_transition, beq_iff_eq]; simp
  | _ => simp [can_transition]

theorem can_transition_completed {s : WorkloadState} :
    can_transition s .Completed = true ↔ ∃ i name, s = .AtStage i name true := by
  cases s with
  | AtStage j old ready => cases ready <;> simp [can_transition]
  | _ => simp [can_transition]

theorem can_transition_failed {s : WorkloadState} :
    can_transition s .Failed = true ↔ s = .Failed ∨ ∃ i name ready, s = .AtStage i name ready := by
  cases s with
  | AtStage j old ready => cases ready <;> simp [can_transition]
  | _ => simp [can_transition]

theorem can_transition_idle {s : WorkloadState} :
    can_transition s .Idle = true ↔ ∀ i name, s ≠ .AtStage i name false := by
  cases s with
  | AtStage j old ready => cases ready <;> simp [can_transition]
  | _ => simp [can_transition]

@[simp] theorem can_transition_aborting (s : WorkloadState) :
    can_transition s .Aborting = true := by
  cases s with
  | AtStage j old ready => cases ready <;> rfl
  | _ => rfl

@[simp] theorem transition_to_self (s : WorkloadState) : transition_to s s = some s := by
  simp [transition_to]

theorem transition_to_some {old new s : WorkloadState} (h : transition_to old new = some s) :
    s = new := by
  unfold transition_to at h
  split at h
  · cases h; assumption
  · split at h <;> simp_all

theorem transition_to_isSome {old new : WorkloadState} :
    (transition_to old new).isSome = true ↔ old = new ∨ can_transition old new = true := by
  unfold transition_to
  by_cases h : old = new
  · simp [h]
  · by_cases hc : can_transition old new = true <;> simp [h, hc]

end sai3_bench.agent
