-- Pools of tasks that run operations, some of which need a permit: how many tasks
-- can run an operation at once, in one pool and in several.
import Mathlib.Algebra.GroupWithZero.Nat
import Mathlib.Algebra.BigOperators.Group.List.Basic
import Mathlib.Algebra.Order.BigOperators.Group.List
import Sai3Bench.Machines

namespace pools

open machines

/-! ## One pool -/

inductive TaskState
  | Idle
  | Waiting (op : Nat)
  | Running (op : Nat)
deriving DecidableEq, Repr

/-- What a task does: it chooses an operation, starts it, or ends it. -/
inductive Action
  | Choose (op : Nat)
  | Start
  | Finish
deriving DecidableEq, Repr

/-- The number of tasks, the limits of the operations that have one, and the
operations that a task can choose. -/
structure Shape where
  tasks : Nat
  limits : List (Option Nat)
  chosen : Nat → Bool

/-- The tasks, and the permits that are left of each limit. -/
structure Pool where
  tasks : List TaskState
  permits : List (Option Nat)

def Pool.start (s : Shape) : Pool := ⟨List.replicate s.tasks .Idle, s.limits⟩

def Pool.step (s : Shape) (p : Pool) (task : Nat) : Action → Option Pool
  | .Choose op =>
    if p.tasks[task]? = some .Idle ∧ s.chosen op = true then
      some { p with tasks := p.tasks.set task (.Waiting op) }
    else none
  | .Start =>
    match p.tasks[task]? with
    | some (.Waiting op) =>
      match p.permits[op]? with
      | some (some (n + 1)) =>
        some ⟨p.tasks.set task (.Running op), p.permits.set op (some n)⟩
      | some none => some { p with tasks := p.tasks.set task (.Running op) }
      | _ => none
    | _ => none
  | .Finish =>
    match p.tasks[task]? with
    | some (.Running op) =>
      let permits := match p.permits[op]? with
        | some (some n) => p.permits.set op (some (n + 1))
        | _ => p.permits
      some ⟨p.tasks.set task .Idle, permits⟩
    | _ => none

def Shape.machine (s : Shape) : Machine Pool (Nat × Action) where
  step p e := p.step s e.1 e.2

def Pool.running (p : Pool) (op : Nat) : Nat := p.tasks.count (.Running op)

/-- The most tasks that can run an operation at once. -/
def Shape.most (s : Shape) (op : Nat) : Nat :=
  if s.chosen op = true then
    match s.limits[op]? with
    | some (some limit) => min limit s.tasks
    | _ => s.tasks
  else 0

/-- No task is lost, each has an operation that can be chosen, and the permits
that are left are those that no task holds. -/
structure Kept (s : Shape) (p : Pool) : Prop where
  tasks : p.tasks.length = s.tasks
  chosen : ∀ t ∈ p.tasks, ∀ op, t = .Waiting op ∨ t = .Running op → s.chosen op = true
  permits : ∀ op, p.permits[op]? = s.limits[op]?.map (Option.map (· - p.running op))
  within : ∀ op limit, s.limits[op]? = some (some limit) → p.running op ≤ limit

variable {s : Shape} {p q : Pool} {task op : Nat}

theorem kept_start : Kept s (.start s) := by
  have hnone : ∀ op, (Pool.start s).running op = 0 := by
    intro op
    unfold Pool.running Pool.start
    rw [List.count_replicate, if_neg (by simp)]
  refine ⟨List.length_replicate, fun t ht op hop => ?_, fun op => ?_, fun op limit _ => ?_⟩
  · obtain ⟨_, rfl⟩ := List.mem_replicate.mp ht
    rcases hop with hop | hop <;> cases hop
  · rw [hnone]
    show s.limits[op]? = _
    cases s.limits[op]? with
    | none => rfl
    | some limit => cases limit <;> rfl
  · rw [hnone]
    exact Nat.zero_le _

/-- A task that takes another state. -/
theorem running_set (op : Nat) {old : TaskState} (new : TaskState)
    (permits : List (Option Nat)) (h : p.tasks[task]? = some old) :
    (Pool.mk (p.tasks.set task new) permits).running op + (if old = .Running op then 1 else 0) =
      p.running op + if new = .Running op then 1 else 0 := by
  obtain ⟨hlt, hold⟩ := List.getElem?_eq_some_iff.mp h
  unfold Pool.running
  rw [List.count_set hlt, hold]
  simp only [beq_iff_eq]
  have hpos : old = .Running op → 0 < p.tasks.count (.Running op) := by
    rintro rfl
    exact List.count_pos_iff.mpr (List.mem_of_getElem? h)
  split
  · rename_i heq
    have := hpos heq
    omega
  · omega

/-- A task that takes another state: the permits of one operation move with it. -/
theorem kept_of_moved (op : Nat) {permits : List (Option Nat)} (h : Kept s p) {new : TaskState}
    (hchosen : ∀ op', new = .Waiting op' ∨ new = .Running op' → s.chosen op' = true)
    (hother : ∀ op', op' ≠ op → permits[op']? = p.permits[op']? ∧
      (Pool.mk (p.tasks.set task new) permits).running op' = p.running op')
    (hown : permits[op]? = s.limits[op]?.map
      (Option.map (· - (Pool.mk (p.tasks.set task new) permits).running op)))
    (hwithin : ∀ limit, s.limits[op]? = some (some limit) →
      (Pool.mk (p.tasks.set task new) permits).running op ≤ limit) :
    Kept s ⟨p.tasks.set task new, permits⟩ := by
  refine ⟨by rw [List.length_set, h.tasks], fun t ht op' hop => ?_, fun op' => ?_,
    fun op' limit hlimit => ?_⟩
  · rcases List.mem_or_eq_of_mem_set ht with ht | rfl
    · exact h.chosen t ht op' hop
    · exact hchosen op' hop
  · by_cases hop : op' = op
    · subst hop
      exact hown
    · rw [(hother op' hop).1, (hother op' hop).2]
      exact h.permits op'
  · by_cases hop : op' = op
    · subst hop
      exact hwithin limit hlimit
    · rw [(hother op' hop).2]
      exact h.within op' limit hlimit

/-- A limit of an operation whose permits are known. -/
theorem limit_of_permits (h : Kept s p) {left : Option Nat} (hleft : p.permits[op]? = some left) :
    ∃ limit, s.limits[op]? = some limit ∧ left = limit.map (· - p.running op) := by
  have hperm := h.permits op
  rw [hleft] at hperm
  obtain ⟨limit, hlimit, heq⟩ := Option.map_eq_some_iff.mp hperm.symm
  exact ⟨limit, hlimit, heq.symm⟩

theorem kept_choose (h : Kept s p) (hstep : p.step s task (.Choose op) = some q) : Kept s q := by
  unfold Pool.step at hstep
  dsimp only at hstep
  split at hstep
  · rename_i hidle
    cases hstep
    have hsame : ∀ op', (Pool.mk (p.tasks.set task (.Waiting op)) p.permits).running op' =
        p.running op' := by
      intro op'
      simpa using running_set op' (.Waiting op) p.permits hidle.1
    refine kept_of_moved op h (fun op' hop => ?_) (fun op' _ => ⟨rfl, hsame op'⟩) ?_
      fun limit hlimit => ?_
    · rcases hop with hop | hop
      · cases hop
        exact hidle.2
      · cases hop
    · rw [hsame]
      exact h.permits op
    · rw [hsame]
      exact h.within op limit hlimit
  · cases hstep

/-- A task that starts takes one of the permits that no task holds. -/
theorem kept_begin (h : Kept s p) (hstep : p.step s task .Start = some q) : Kept s q := by
  unfold Pool.step at hstep
  dsimp only at hstep
  split at hstep
  · rename_i op hwait
    have hcount : ∀ (permits : List (Option Nat)) (op' : Nat),
        (Pool.mk (p.tasks.set task (.Running op)) permits).running op' =
          p.running op' + if op = op' then 1 else 0 := by
      intro permits op'
      simpa using running_set op' (.Running op) permits hwait
    have hchosen : ∀ op', TaskState.Running op = .Waiting op' ∨
        TaskState.Running op = .Running op' → s.chosen op' = true := by
      rintro op' (hop | hop)
      · cases hop
      · cases hop
        exact h.chosen _ (List.mem_of_getElem? hwait) op (.inl rfl)
    split at hstep
    · rename_i n hleft
      cases hstep
      obtain ⟨limit, hlimit, hsome⟩ := limit_of_permits h hleft
      obtain ⟨l, rfl, hl⟩ := Option.map_eq_some_iff.mp hsome.symm
      obtain ⟨hlt, _⟩ := List.getElem?_eq_some_iff.mp hleft
      refine kept_of_moved op h hchosen (fun op' hop => ⟨?_, ?_⟩) ?_ fun l' hl' => ?_
      · exact List.getElem?_set_ne (Ne.symm hop)
      · rw [hcount, if_neg (Ne.symm hop), Nat.add_zero]
      · rw [hcount, if_pos rfl, List.getElem?_set_self hlt, hlimit, Option.map_some,
          Option.map_some]
        congr 2
        omega
      · cases hlimit.symm.trans hl'
        rw [hcount, if_pos rfl]
        omega
    · rename_i hleft
      cases hstep
      obtain ⟨limit, hlimit, hsome⟩ := limit_of_permits h hleft
      have hnone : limit = none := Option.map_eq_none_iff.mp hsome.symm
      subst hnone
      refine kept_of_moved op h hchosen (fun op' hop => ⟨rfl, ?_⟩) ?_ fun l' hl' => ?_
      · rw [hcount, if_neg (Ne.symm hop), Nat.add_zero]
      · rw [hleft, hlimit]
        rfl
      · cases hlimit.symm.trans hl'
    · cases hstep
  · cases hstep

/-- A task that ends gives its permit back. -/
theorem kept_finish (h : Kept s p) (hstep : p.step s task .Finish = some q) : Kept s q := by
  unfold Pool.step at hstep
  dsimp only at hstep
  split at hstep
  · rename_i op hrun
    cases hstep
    have hcount : ∀ (permits : List (Option Nat)) (op' : Nat),
        (Pool.mk (p.tasks.set task .Idle) permits).running op' + (if op = op' then 1 else 0) =
          p.running op' := by
      intro permits op'
      simpa using running_set op' .Idle permits hrun
    have hown := hcount p.permits op
    rw [if_pos rfl] at hown
    refine kept_of_moved op h (fun op' hop => ?_) (fun op' hop => ⟨?_, ?_⟩) ?_
      fun l hl => ?_
    · rcases hop with hop | hop <;> cases hop
    · split
      · exact List.getElem?_set_ne (Ne.symm hop)
      · rfl
    · have hsame := hcount p.permits op'
      rw [if_neg (Ne.symm hop), Nat.add_zero] at hsame
      exact hsame
    · have hperm := h.permits op
      cases hlimit : s.limits[op]? with
      | none =>
        rw [hlimit, Option.map_none] at hperm
        simp only [hperm]
        rfl
      | some limit => cases limit with
        | none =>
          rw [hlimit] at hperm
          have hnone : p.permits[op]? = some none := hperm
          simp only [hnone]
          rfl
        | some l =>
          rw [hlimit] at hperm
          have hsome : p.permits[op]? = some (some (l - p.running op)) := hperm
          obtain ⟨hlt, _⟩ := List.getElem?_eq_some_iff.mp hsome
          have hwithin := h.within op l hlimit
          have hnew := hcount (p.permits.set op (some (l - p.running op + 1))) op
          rw [if_pos rfl] at hnew
          simp only [hsome]
          rw [List.getElem?_set_self hlt, Option.map_some, Option.map_some]
          congr 2
          omega
    · have hbefore := h.within op l hl
      exact Nat.le_trans (Nat.le_of_succ_le (Nat.le_of_eq hown)) hbefore
  · cases hstep

theorem kept_step {a : Action} (h : Kept s p) (hstep : p.step s task a = some q) : Kept s q := by
  cases a with
  | Choose op => exact kept_choose h hstep
  | Start => exact kept_begin h hstep
  | Finish => exact kept_finish h hstep

/-! ## A run of one pool -/

theorem kept_run {es : List (Nat × Action)} (h : s.machine.run (.start s) es = some p) :
    Kept s p :=
  Machine.run_always (fun _ _ _ hk hstep => kept_step hk hstep) kept_start h

theorem running_le_most (h : Kept s p) : p.running op ≤ s.most op := by
  have hcount : p.running op ≤ s.tasks := h.tasks ▸ List.count_le_length
  unfold Shape.most
  split
  · split
    · rename_i hlimit
      exact Nat.le_min.mpr ⟨h.within op _ hlimit, hcount⟩
    · exact hcount
  · rename_i hno
    refine Nat.le_of_eq (List.count_eq_zero_of_not_mem fun hmem => hno ?_)
    exact h.chosen _ hmem op (.inr rfl)

/-- The first tasks run the operation, the others are idle. -/
def ramp (s : Shape) (op k : Nat) : List TaskState :=
  List.replicate k (.Running op) ++ List.replicate (s.tasks - k) .Idle

theorem ramp_next {k : Nat} (hk : k < s.tasks) (t : TaskState) :
    (ramp s op k).set k t =
      List.replicate k (.Running op) ++ t :: List.replicate (s.tasks - (k + 1)) .Idle := by
  unfold ramp
  rw [show s.tasks - k = s.tasks - (k + 1) + 1 by omega, List.replicate_succ,
    List.set_append_right _ _ (by rw [List.length_replicate])]
  simp

theorem running_ramp {k : Nat} (h : p.tasks = ramp s op k) : p.running op = k := by
  unfold Pool.running
  rw [h, ramp, List.count_append, List.count_replicate_self,
    List.count_eq_zero_of_not_mem fun hmem => ?_]
  · rfl
  · cases List.eq_of_mem_replicate hmem

/-- One more task starts the operation, as long as there is a permit. -/
theorem ramp_step {k : Nat} (h : Kept s p) (hchosen : s.chosen op = true)
    (hop : op < s.limits.length) (hk : k < s.most op) (htasks : p.tasks = ramp s op k) :
    ∃ q, s.machine.run p [(k, .Choose op), (k, .Start)] = some q ∧ q.tasks = ramp s op (k + 1) := by
  unfold Shape.most at hk
  rw [if_pos hchosen] at hk
  have hlt : k < s.tasks := by
    split at hk
    · exact Nat.lt_of_lt_of_le hk (Nat.min_le_right _ _)
    · exact hk
  have hidle : p.tasks[k]? = some .Idle := by
    rw [htasks, ramp, List.getElem?_append_right (by rw [List.length_replicate]),
      List.length_replicate, Nat.sub_self, List.getElem?_replicate, if_pos (by omega)]
  have hwait : (p.tasks.set k (.Waiting op))[k]? = some (.Waiting op) := by
    rw [List.getElem?_set_self (h.tasks ▸ hlt)]
  have hchoose : p.step s k (.Choose op) =
      some { p with tasks := p.tasks.set k (.Waiting op) } := by
    unfold Pool.step
    dsimp only
    rw [if_pos ⟨hidle, hchosen⟩]
  have hdone : (p.tasks.set k (.Waiting op)).set k (.Running op) = ramp s op (k + 1) := by
    rw [List.set_set, htasks, ramp_next hlt]
    unfold ramp
    rw [List.replicate_succ', List.append_assoc, List.singleton_append]
  -- the permits are those that the tasks before this one have left
  have hperm := h.permits op
  rw [running_ramp htasks] at hperm
  have hstart : ∃ q, Pool.step s { p with tasks := p.tasks.set k (.Waiting op) } k .Start = some q ∧
      q.tasks = ramp s op (k + 1) := by
    unfold Pool.step
    dsimp only
    rw [hwait]
    dsimp only
    rw [hperm]
    cases hlimit : s.limits[op]? with
    | none =>
      rw [List.getElem?_eq_none_iff] at hlimit
      omega
    | some limit =>
      cases limit with
      | none => exact ⟨_, rfl, hdone⟩
      | some l =>
        have hless : k < l := by
          rw [hlimit] at hk
          exact Nat.lt_of_lt_of_le hk (Nat.min_le_left _ _)
        obtain ⟨n, hn⟩ : ∃ n, l - k = n + 1 := ⟨l - k - 1, by omega⟩
        simp only [Option.map_some, hn]
        exact ⟨_, rfl, hdone⟩
  obtain ⟨q, hq, htasks'⟩ := hstart
  refine ⟨q, Machine.run_cons_iff.mpr ⟨_, hchoose, Machine.run_cons_iff.mpr ⟨q, hq, rfl⟩⟩, htasks'⟩

theorem ramp_reached (hchosen : s.chosen op = true) (hop : op < s.limits.length) :
    ∀ k ≤ s.most op, ∃ es p, s.machine.run (.start s) es = some p ∧ p.tasks = ramp s op k := by
  intro k
  induction k with
  | zero =>
    intro _
    exact ⟨[], _, rfl, rfl⟩
  | succ k ih =>
    intro hk
    obtain ⟨es, p, hrun, htasks⟩ := ih (Nat.le_of_succ_le hk)
    obtain ⟨q, hstep, hq⟩ := ramp_step (kept_run hrun) hchosen hop hk htasks
    exact ⟨es ++ _, q, Machine.run_append_iff.mpr ⟨p, hrun, hstep⟩, hq⟩

/-- A pool does run an operation on as many tasks as it can. -/
theorem most_reached (hop : op < s.limits.length) :
    ∃ es p, s.machine.run (.start s) es = some p ∧ p.running op = s.most op := by
  by_cases hchosen : s.chosen op = true
  · obtain ⟨es, p, hrun, htasks⟩ := ramp_reached hchosen hop _ le_rfl
    exact ⟨es, p, hrun, running_ramp htasks⟩
  · refine ⟨[], _, rfl, Nat.le_antisymm (running_le_most kept_start) ?_⟩
    unfold Shape.most
    rw [if_neg hchosen]
    exact Nat.zero_le _

/-! ## Pools side by side -/

/-- One task of one pool takes a step. -/
def stepAt : List Shape → List Pool → Nat → Nat × Action → Option (List Pool)
  | s :: _, p :: ps, 0, e => (s.machine.step p e).map (· :: ps)
  | _ :: ss, p :: ps, i + 1, e => (stepAt ss ps i e).map (p :: ·)
  | _, _, _, _ => none

def fleet (ss : List Shape) : Machine (List Pool) (Nat × Nat × Action) where
  step ps e := stepAt ss ps e.1 e.2

def runningAnywhere (ps : List Pool) (op : Nat) : Nat := (ps.map (·.running op)).sum

variable {ss : List Shape} {ps qs : List Pool}

theorem kept_fleet_step {i : Nat} {e : Nat × Action} (h : List.Forall₂ Kept ss ps)
    (hstep : stepAt ss ps i e = some qs) : List.Forall₂ Kept ss qs := by
  induction h generalizing i qs with
  | nil => cases hstep
  | cons hk hks ih =>
    cases i with
    | zero =>
      obtain ⟨q, hq, rfl⟩ := Option.map_eq_some_iff.mp hstep
      exact .cons (kept_step hk hq) hks
    | succ i =>
      obtain ⟨qs', hqs, rfl⟩ := Option.map_eq_some_iff.mp hstep
      exact .cons hk (ih hqs)

theorem kept_fleet_start : List.Forall₂ Kept ss (ss.map .start) := by
  rw [List.forall₂_map_right_iff]
  exact List.forall₂_same.mpr fun _ _ => kept_start

theorem running_le_sum (h : List.Forall₂ Kept ss ps) :
    runningAnywhere ps op ≤ (ss.map (·.most op)).sum := by
  unfold runningAnywhere
  induction h with
  | nil => exact le_rfl
  | cons hk _ ih => exact Nat.add_le_add (running_le_most hk) ih

/-- A run of the first pool. -/
theorem fleet_head {es : List (Nat × Action)} (h : s.machine.run p es = some q) :
    (fleet (s :: ss)).run (p :: ps) (es.map (0, ·)) = some (q :: ps) := by
  induction es generalizing p with
  | nil =>
    cases h
    rfl
  | cons e es ih =>
    obtain ⟨t, hstep, hrun⟩ := Machine.run_cons_iff.mp h
    refine Machine.run_cons_iff.mpr ⟨t :: ps, ?_, ih hrun⟩
    show (s.machine.step p e).map (· :: ps) = _
    rw [hstep, Option.map_some]

/-- A run of the others. -/
theorem fleet_tail {es : List (Nat × Nat × Action)} (h : (fleet ss).run ps es = some qs) :
    (fleet (s :: ss)).run (p :: ps) (es.map fun e => (e.1 + 1, e.2)) = some (p :: qs) := by
  induction es generalizing ps with
  | nil =>
    cases h
    rfl
  | cons e es ih =>
    obtain ⟨ts, hstep, hrun⟩ := Machine.run_cons_iff.mp h
    refine Machine.run_cons_iff.mpr ⟨p :: ts, ?_, ih hrun⟩
    show (stepAt ss ps e.1 e.2).map (p :: ·) = _
    rw [show stepAt ss ps e.1 e.2 = some ts from hstep, Option.map_some]

theorem sum_reached (hop : ∀ s ∈ ss, op < s.limits.length) :
    ∃ es ps, (fleet ss).run (ss.map .start) es = some ps ∧
      runningAnywhere ps op = (ss.map (·.most op)).sum := by
  induction ss with
  | nil => exact ⟨[], [], rfl, rfl⟩
  | cons s ss ih =>
    obtain ⟨es, p, hrun, hp⟩ := most_reached (hop s List.mem_cons_self)
    obtain ⟨es', ps, hrun', hps⟩ := ih fun t ht => hop t (List.mem_cons_of_mem _ ht)
    refine ⟨_, p :: ps, Machine.run_append_iff.mpr ⟨_, fleet_head hrun, fleet_tail hrun'⟩, ?_⟩
    unfold runningAnywhere at *
    rw [List.map_cons, List.map_cons, List.sum_cons, List.sum_cons, hp, hps]

/-- A bound on what runs at once holds in every run exactly when it is a bound
on what the pools can run together. -/
theorem always_within_iff (hop : ∀ s ∈ ss, op < s.limits.length) (limit : Nat) :
    (∀ es ps, (fleet ss).run (ss.map .start) es = some ps → runningAnywhere ps op ≤ limit) ↔
      (ss.map (·.most op)).sum ≤ limit := by
  constructor
  · intro h
    obtain ⟨es, ps, hrun, hsum⟩ := sum_reached hop
    exact hsum ▸ h es ps hrun
  · intro h es ps hrun
    have hkept : List.Forall₂ Kept ss ps :=
      Machine.run_always (fun _ _ _ hk hstep => kept_fleet_step hk hstep) kept_fleet_start hrun
    exact le_trans (running_le_sum hkept) h

/-! ## One limit for all -/

theorem sum_min_le {limit : Nat} {xs : List Nat} : (xs.map (min limit)).sum ≤ xs.sum := by
  induction xs with
  | nil => exact le_rfl
  | cons x xs ih => exact Nat.add_le_add (Nat.min_le_right _ _) ih

theorem length_le_sum_min {limit : Nat} (hlimit : 0 < limit) (xs : List Nat)
    (hpos : ∀ x ∈ xs, 0 < x) : xs.length ≤ (xs.map (min limit)).sum := by
  induction xs with
  | nil => exact le_rfl
  | cons x xs ih =>
    have hx := hpos x List.mem_cons_self
    have hxs := ih fun y hy => hpos y (List.mem_cons_of_mem _ hy)
    rw [List.length_cons, List.map_cons, List.sum_cons]
    omega

/-- A limit that each pool has for itself is one for all of them only when no
pool needs it. -/
theorem sum_min_le_iff {limit : Nat} {xs : List Nat} (hpos : ∀ x ∈ xs, 0 < x)
    (hmany : xs.sum ≤ 1 ∨ 2 ≤ xs.length) :
    (xs.map (min limit)).sum ≤ limit ↔ limit = 0 ∨ xs.sum ≤ limit := by
  constructor
  · intro h
    rcases Nat.eq_zero_or_pos limit with hzero | hlimit
    · exact .inl hzero
    rcases hmany with hone | htwo
    · exact .inr (by omega)
    have hsmall : ∀ x ∈ xs, min limit x = x := by
      intro x hx
      by_contra hlarge
      obtain ⟨ys, zs, rfl⟩ := List.append_of_mem hx
      have hys := length_le_sum_min hlimit ys fun y hy =>
        hpos y (List.mem_append_left _ hy)
      have hzs := length_le_sum_min hlimit zs fun z hz =>
        hpos z (List.mem_append_right _ (List.mem_cons_of_mem _ hz))
      rw [List.map_append, List.map_cons, List.sum_append, List.sum_cons] at h
      rw [List.length_append, List.length_cons] at htwo
      omega
    rw [List.map_congr_left hsmall, List.map_id'] at h
    exact .inr h
  · rintro (rfl | h)
    · refine Nat.le_of_eq (List.sum_eq_zero fun y hy => ?_)
      obtain ⟨x, _, rfl⟩ := List.mem_map.mp hy
      exact Nat.zero_min x
    · exact le_trans sum_min_le h

end pools
