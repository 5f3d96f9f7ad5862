-- The modes of a replay over all its lag samples: what changes the mode, and at which
-- transition the replay gives up.
import Mathlib.Data.List.Induction
import Sai3Bench.Replays

namespace sai3_bench.replay_streaming

/-! ## A window over times in order -/

/-- The times that are still inside the window that ends now. -/
def window (width now : Nat) (times : List Nat) : List Nat :=
  times.filter fun t => now < t + width

theorem window_append (width now : Nat) (xs ys : List Nat) :
    window width now (xs ++ ys) = window width now xs ++ window width now ys := by
  simp [window]

theorem window_now {width : Nat} (now : Nat) (h : 0 < width) :
    window width now [now] = [now] := by
  simp [window, h]

/-- What an earlier window left out stays outside. -/
theorem window_window {width before now : Nat} (times : List Nat) (h : before ≤ now) :
    window width now (window width before times) = window width now times := by
  unfold window
  rw [List.filter_filter]
  apply List.filter_congr
  intro t _
  apply Bool.eq_iff_iff.mpr
  simp only [Bool.and_eq_true, decide_eq_true_eq]
  omega

def minute : Nat := 60 * 1000000000

/-! ## Samples -/

structure Sample where
  time : Nat
  lag : Nat

/-- The clock never goes back. -/
def InOrder (samples : List Sample) : Prop := (samples.map (·.time)).Pairwise (· ≤ ·)

namespace BackpressureController

def observe (controller : BackpressureController) (sample : Sample) :
    Bool × BackpressureController :=
  controller.update sample.lag sample.time

def run (controller : BackpressureController) (samples : List Sample) : BackpressureController :=
  samples.foldl (fun controller sample => (controller.observe sample).2) controller

/-- The times at which the mode is another one than before. -/
def changes : BackpressureController → List Sample → List Nat
  | _, [] => []
  | controller, sample :: samples =>
    let next := (controller.observe sample).2
    if next.mode = controller.mode then changes next samples
    else sample.time :: changes next samples

/-- The sample at which the replay is told to end. -/
def exit_at : BackpressureController → List Sample → Option Nat
  | _, [] => none
  | controller, sample :: samples =>
    match controller.observe sample with
    | (false, _) => some 0
    | (true, controller) => (exit_at controller samples).map (· + 1)

end BackpressureController

open BackpressureController

/-! ## The properties -/

/-- The mode before sample `k`. -/
def mode_at (config : ReplayConfig) (samples : List Sample) (k : Nat) : ReplayMode :=
  ((from_config config).run (samples.take k)).mode

/-- Sample `k` changes the mode, and with it too many changes are inside the window. -/
def Flaps (config : ReplayConfig) (samples : List Sample) (k : Nat) : Prop :=
  ∃ sample, samples[k]? = some sample ∧
    mode_at config samples (k + 1) ≠ mode_at config samples k ∧
    config.max_flaps_per_minute <
      (window minute sample.time
        ((from_config config).changes (samples.take (k + 1)))).length

/-- Only a lag over its threshold and one below the other change the mode, each change is
counted, the first one that flaps is the exit, and the controller remembers it. -/
structure Hysteretic (config : ReplayConfig) (samples : List Sample) : Prop where
  falls_behind : ∀ k sample, samples[k]? = some sample → mode_at config samples k = .Normal →
    (mode_at config samples (k + 1) = .BestEffort ↔ config.lag_threshold < sample.lag)
  recovers : ∀ k sample, samples[k]? = some sample → mode_at config samples k = .BestEffort →
    (mode_at config samples (k + 1) = .Normal ↔ sample.lag < config.recovery_threshold)
  counted : ∀ k, ((from_config config).run (samples.take k)).total_transitions =
    ((from_config config).changes (samples.take k)).length
  exits : ∀ k, (from_config config).exit_at samples = some k ↔
    Flaps config samples k ∧ ∀ j < k, ¬ Flaps config samples j
  limited : ∀ k ≤ samples.length,
    ((from_config config).run (samples.take k)).flap_limit_exceeded = true ↔
      ∃ j < k, Flaps config samples j

/-- The controller after the changes at the given times, none of them after `last`. A window
of the tracker is one of all the changes. -/
structure Tracked (config : ReplayConfig) (times : List Nat) (last : Nat)
    (controller : BackpressureController) : Prop where
  lag_threshold : controller.lag_threshold = config.lag_threshold
  recovery_threshold : controller.recovery_threshold = config.recovery_threshold
  max_per_minute : controller.flap_tracker.max_per_minute = config.max_flaps_per_minute
  counted : controller.total_transitions = times.length
  windows : ∀ now, last ≤ now →
    window minute now controller.flap_tracker.transitions = window minute now times

/-! ## One sample -/

/-- Whether a lag changes the mode. -/
def Leaves (lag_threshold recovery_threshold lag : Nat) : ReplayMode → Prop
  | .Normal => lag_threshold < lag
  | .BestEffort => lag < recovery_threshold

def Switches (controller : BackpressureController) (sample : Sample) : Prop :=
  Leaves controller.lag_threshold controller.recovery_threshold sample.lag controller.mode

def other : ReplayMode → ReplayMode
  | .Normal => .BestEffort
  | .BestEffort => .Normal

theorem other_ne (mode : ReplayMode) : other mode ≠ mode := by
  cases mode <;> simp [other]

/-- A sample changes nothing, or it is a transition to the other mode. -/
theorem observe_cases (controller : BackpressureController) (sample : Sample) :
    (¬ Switches controller sample ∧ controller.observe sample = (true, controller)) ∨
    (Switches controller sample ∧
      controller.observe sample = controller.transition (other controller.mode) sample.time) := by
  cases hm : controller.mode with
  | Normal =>
    by_cases h : controller.lag_threshold < sample.lag
    · right
      simp [Switches, Leaves, observe, update, hm, h, other]
    · left
      simp [Switches, Leaves, observe, update, hm, h]
  | BestEffort =>
    by_cases h : sample.lag < controller.recovery_threshold
    · right
      simp [Switches, Leaves, observe, update, hm, h, other]
    · left
      simp [Switches, Leaves, observe, update, hm, h]

@[simp] theorem transition_mode (controller : BackpressureController) (mode : ReplayMode)
    (now : Nat) : (controller.transition mode now).2.mode = mode := rfl

theorem switches_iff (controller : BackpressureController) (sample : Sample) :
    (controller.observe sample).2.mode ≠ controller.mode ↔ Switches controller sample := by
  obtain ⟨h, he⟩ | ⟨h, he⟩ := observe_cases controller sample
  · simp [he, h]
  · simp [he, h, other_ne]

/-- The limit stays exceeded. -/
theorem observe_limited (controller : BackpressureController) (sample : Sample) :
    (controller.observe sample).2.flap_limit_exceeded =
      (controller.flap_limit_exceeded || !(controller.observe sample).1) := by
  obtain ⟨_, he⟩ | ⟨_, he⟩ := observe_cases controller sample
  · simp [he]
  · simp [he, transition]

theorem tracked_init (config : ReplayConfig) :
    Tracked config [] 0 (from_config config) where
  lag_threshold := rfl
  recovery_threshold := rfl
  max_per_minute := rfl
  counted := rfl
  windows := by
    intro now _
    simp [from_config]

/-- The tracker of a transition holds the window that ends with it. -/
theorem transition_tracker {config : ReplayConfig} {times : List Nat} {last : Nat}
    {controller : BackpressureController} (h : Tracked config times last controller)
    (mode : ReplayMode) {now : Nat} (hnow : last ≤ now) :
    (controller.transition mode now).2.flap_tracker.transitions =
      window minute now (times ++ [now]) := by
  have hkept : window minute now controller.flap_tracker.transitions ++ [now] =
      window minute now (times ++ [now]) := by
    rw [h.windows now hnow, window_append, window_now now (by simp [minute])]
  exact hkept

theorem tracked_transition {config : ReplayConfig} {times : List Nat} {last : Nat}
    {controller : BackpressureController} (h : Tracked config times last controller)
    (mode : ReplayMode) {now : Nat} (hnow : last ≤ now) :
    Tracked config (times ++ [now]) now (controller.transition mode now).2 where
  lag_threshold := h.lag_threshold
  recovery_threshold := h.recovery_threshold
  max_per_minute := h.max_per_minute
  counted := by
    have hcount : (controller.transition mode now).2.total_transitions =
        controller.total_transitions + 1 := rfl
    rw [hcount, h.counted]
    simp
  windows := by
    intro later hlater
    rw [transition_tracker h mode hnow, window_window _ hlater]

theorem tracked_later {config : ReplayConfig} {times : List Nat} {last now : Nat}
    {controller : BackpressureController} (h : Tracked config times last controller)
    (hnow : last ≤ now) : Tracked config times now controller :=
  { h with windows := fun later hlater => h.windows later (by omega) }

/-- The replay may go on unless the window holds too many changes. -/
theorem transition_refuses_iff {config : ReplayConfig} {times : List Nat} {last : Nat}
    {controller : BackpressureController} (h : Tracked config times last controller)
    (mode : ReplayMode) {now : Nat} (hnow : last ≤ now) :
    (controller.transition mode now).1 = false ↔
      config.max_flaps_per_minute < (window minute now (times ++ [now])).length := by
  rw [← transition_tracker h mode hnow, ← h.max_per_minute]
  simp [transition, FlappingTracker.record_transition]

/-! ## Many samples -/

theorem run_append (controller : BackpressureController) (xs ys : List Sample) :
    controller.run (xs ++ ys) = (controller.run xs).run ys := by
  simp [run]

theorem changes_append (controller : BackpressureController) (xs ys : List Sample) :
    controller.changes (xs ++ ys) =
      controller.changes xs ++ (controller.run xs).changes ys := by
  induction xs generalizing controller with
  | nil => rfl
  | cons x xs ih =>
    have hrun : controller.run (x :: xs) = (controller.observe x).2.run xs := rfl
    rw [hrun, List.cons_append]
    simp only [changes, ih]
    split
    · rfl
    · rfl

/-- One more sample. -/
theorem tracked_observe {config : ReplayConfig} {times : List Nat} {last : Nat}
    {controller : BackpressureController} (h : Tracked config times last controller)
    {sample : Sample} (htime : last ≤ sample.time) :
    Tracked config (times ++ controller.changes [sample]) sample.time
      (controller.observe sample).2 := by
  obtain ⟨_, he⟩ | ⟨_, he⟩ := observe_cases controller sample
  · simp only [changes, he, if_true, List.append_nil]
    exact tracked_later h htime
  · simp only [changes, he, transition_mode, other_ne, if_false]
    exact tracked_transition h _ htime

theorem tracked_run (config : ReplayConfig) {samples : List Sample} (h : InOrder samples) :
    ∃ last, (∀ now, (∀ sample ∈ samples, sample.time ≤ now) → last ≤ now) ∧
      Tracked config ((from_config config).changes samples) last
        ((from_config config).run samples) := by
  induction samples using List.reverseRecOn with
  | nil => exact ⟨0, fun now _ => Nat.zero_le now, tracked_init config⟩
  | append_singleton samples sample ih =>
    unfold InOrder at h
    rw [List.map_append, List.pairwise_append] at h
    obtain ⟨last, hlast, htracked⟩ := ih h.1
    have htime : last ≤ sample.time := by
      apply hlast
      intro earlier he
      exact h.2.2 _ (List.mem_map_of_mem he) _ (by simp)
    refine ⟨sample.time, fun now hnow => hnow sample (by simp), ?_⟩
    rw [changes_append, run_append]
    exact tracked_observe htracked htime

/-- The controller is told to end at the first sample that it refuses. -/
theorem exit_at_eq_some {controller : BackpressureController} {samples : List Sample} {k : Nat} :
    controller.exit_at samples = some k ↔
      (∃ sample, samples[k]? = some sample ∧
        ((controller.run (samples.take k)).observe sample).1 = false) ∧
      ∀ j < k, ¬ ∃ sample, samples[j]? = some sample ∧
        ((controller.run (samples.take j)).observe sample).1 = false := by
  induction samples generalizing controller k with
  | nil => simp [exit_at]
  | cons sample samples ih =>
    have hrun : ∀ j, controller.run ((sample :: samples).take (j + 1)) =
        (controller.observe sample).2.run (samples.take j) := fun _ => rfl
    rcases hs : controller.observe sample with ⟨_ | _, next⟩
    · -- The first sample is refused, so it is the exit and no later one is.
      cases k with
      | zero => simp [exit_at, hs, run]
      | succ k =>
        simp only [exit_at, hs]
        constructor
        · intro h
          simp at h
        · intro h
          exact absurd ⟨sample, rfl, by simp [run, hs]⟩ (h.2 0 (by omega))
    · rw [hs] at hrun
      cases k with
      | zero => simp [exit_at, hs, run]
      | succ k =>
        simp only [exit_at, hs, Option.map_eq_some_iff, Nat.add_right_cancel_iff,
          exists_eq_right, ih, List.getElem?_cons_succ, hrun]
        apply and_congr_right
        intro _
        constructor
        · intro h j hj
          cases j with
          | zero => simp [run, hs]
          | succ j =>
            simp only [List.getElem?_cons_succ, hrun]
            exact h j (by omega)
        · intro h j hj
          have := h (j + 1) (by omega)
          simp only [List.getElem?_cons_succ, hrun] at this
          exact this

/-! ## Every run -/

/-- What the samples up to one say about it. -/
theorem take_succ_eq {samples : List Sample} {k : Nat} {sample : Sample}
    (h : samples[k]? = some sample) : samples.take (k + 1) = samples.take k ++ [sample] := by
  rw [List.take_add_one, h]
  rfl

theorem inOrder_take {samples : List Sample} (h : InOrder samples) (k : Nat) :
    InOrder (samples.take k) := by
  unfold InOrder at h ⊢
  rw [List.map_take]
  exact h.sublist (List.take_sublist ..)

theorem mode_at_succ (config : ReplayConfig) {samples : List Sample} {k : Nat} {sample : Sample}
    (h : samples[k]? = some sample) :
    mode_at config samples (k + 1) =
      (((from_config config).run (samples.take k)).observe sample).2.mode := by
  unfold mode_at
  rw [take_succ_eq h, run_append]
  rfl

/-- A sample changes the mode as the thresholds say. -/
theorem mode_at_succ_ne_iff (config : ReplayConfig) {samples : List Sample} (hs : InOrder samples)
    {k : Nat} {sample : Sample} (h : samples[k]? = some sample) :
    mode_at config samples (k + 1) ≠ mode_at config samples k ↔
      Leaves config.lag_threshold config.recovery_threshold sample.lag
        (mode_at config samples k) := by
  obtain ⟨_, _, htracked⟩ := tracked_run config (inOrder_take hs k)
  rw [mode_at_succ config h]
  unfold mode_at
  rw [switches_iff]
  unfold Switches
  rw [htracked.lag_threshold, htracked.recovery_threshold]

/-- The replay may not go on where a sample flaps. -/
theorem refuses_iff_flaps (config : ReplayConfig) {samples : List Sample} (hs : InOrder samples)
    (k : Nat) :
    (∃ sample, samples[k]? = some sample ∧
      (((from_config config).run (samples.take k)).observe sample).1 = false) ↔
      Flaps config samples k := by
  unfold Flaps
  apply exists_congr
  intro sample
  apply and_congr_right
  intro h
  obtain ⟨last, hlast, htracked⟩ := tracked_run config (inOrder_take hs k)
  have htime : last ≤ sample.time := by
    apply hlast
    intro earlier he
    have hsucc := inOrder_take hs (k + 1)
    unfold InOrder at hsucc
    rw [take_succ_eq h, List.map_append, List.pairwise_append] at hsucc
    exact hsucc.2.2 _ (List.mem_map_of_mem he) _ (by simp)
  rw [mode_at_succ config h, take_succ_eq h, changes_append]
  unfold mode_at
  rw [switches_iff]
  obtain ⟨hno, he⟩ | ⟨hyes, he⟩ :=
    observe_cases ((from_config config).run (samples.take k)) sample
  · simp [he, hno]
  · simp only [he, hyes, true_and, transition_refuses_iff htracked _ htime]
    simp [changes, he, other_ne]

theorem limited_iff (config : ReplayConfig) {samples : List Sample} (h : InOrder samples)
    {k : Nat} (hk : k ≤ samples.length) :
    ((from_config config).run (samples.take k)).flap_limit_exceeded = true ↔
      ∃ j < k, Flaps config samples j := by
  induction k with
  | zero => simp [run, from_config]
  | succ k ih =>
    obtain ⟨sample, hsample⟩ : ∃ sample, samples[k]? = some sample :=
      ⟨samples[k], List.getElem?_eq_getElem hk⟩
    have hone : (((from_config config).run (samples.take k)).observe sample).1 = false ↔
        Flaps config samples k := by
      rw [← refuses_iff_flaps config h]
      simp [hsample]
    have hrun : (from_config config).run (samples.take (k + 1)) =
        (((from_config config).run (samples.take k)).observe sample).2 := by
      rw [take_succ_eq hsample, run_append]
      rfl
    rw [hrun, observe_limited, Bool.or_eq_true, Bool.not_eq_true', hone, ih (by omega)]
    simp only [Nat.lt_succ_iff_lt_or_eq]
    constructor
    · rintro (⟨j, hj, hf⟩ | hf)
      · exact ⟨j, Or.inl hj, hf⟩
      · exact ⟨k, Or.inr rfl, hf⟩
    · rintro ⟨j, hj | rfl, hf⟩
      · exact Or.inl ⟨j, hj, hf⟩
      · exact Or.inr hf

/-- For every list of samples. -/
theorem update_hysteretic (config : ReplayConfig) {samples : List Sample}
    (h : InOrder samples) : Hysteretic config samples where
  falls_behind := by
    intro k sample hk hmode
    have hne := mode_at_succ_ne_iff config h hk
    rw [hmode] at hne
    simp only [Leaves] at hne
    rw [← hne]
    cases mode_at config samples (k + 1) <;> simp
  recovers := by
    intro k sample hk hmode
    have hne := mode_at_succ_ne_iff config h hk
    rw [hmode] at hne
    simp only [Leaves] at hne
    rw [← hne]
    cases mode_at config samples (k + 1) <;> simp
  counted := by
    intro k
    obtain ⟨_, _, htracked⟩ := tracked_run config (inOrder_take h k)
    exact htracked.counted
  exits := by
    intro k
    rw [exit_at_eq_some, refuses_iff_flaps config h]
    apply and_congr_right
    intro _
    apply forall₂_congr
    intro j _
    rw [refuses_iff_flaps config h]
  limited := fun _ hk => limited_iff config h hk

/-- Four changes within three seconds. -/
def flapping : List Sample :=
  [⟨0, 6000000000⟩, ⟨1000000000, 0⟩, ⟨2000000000, 6000000000⟩, ⟨3000000000, 0⟩]

theorem update_hysteretic_flapping :
    Hysteretic {} flapping ∧ (from_config {}).exit_at flapping = some 3 :=
  ⟨update_hysteretic {} (by simp [InOrder, flapping]), by decide⟩

end sai3_bench.replay_streaming
