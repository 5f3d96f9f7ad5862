-- Crews of tasks: each task waits for a permit, works step by step, and leaves a
-- result that is collected. When each run of a machine comes to its end.
import Mathlib.Algebra.GroupWithZero.Nat
import Mathlib.Algebra.BigOperators.Group.List.Basic
import Sai3Bench.Machines

namespace machines

variable {σ ε : Type*}

namespace Machine

/-! ## Runs that end -/

/-- No run is longer than a bound, and each can go on until it is done. -/
structure Ends (m : Machine σ ε) (done : σ → Prop) (s : σ) : Prop where
  bounded : ∃ n, ∀ es t, m.run s es = some t → es.length ≤ n
  goes_on : ∀ es t, m.run s es = some t → done t ∨ ∃ e u, m.step t e = some u

variable {m : Machine σ ε} {done : σ → Prop} {s t : σ} {es : List ε}

/-- Each step uses up a part of the rank. -/
theorem length_add_rank_le {I : σ → Prop} {rank : σ → Nat}
    (hstep : ∀ s e t, I s → m.step s e = some t → I t ∧ rank t < rank s) (hI : I s)
    (h : m.run s es = some t) : es.length + rank t ≤ rank s := by
  induction es generalizing s with
  | nil =>
    cases h
    simp
  | cons e es ih =>
    obtain ⟨v, hv, ht⟩ := run_cons_iff.mp h
    obtain ⟨hIv, hless⟩ := hstep s e v hI hv
    have hrest := ih hIv ht
    rw [List.length_cons]
    omega

theorem ends_of_rank {I : σ → Prop} {rank : σ → Nat}
    (hstep : ∀ s e t, I s → m.step s e = some t → I t ∧ rank t < rank s)
    (hgo : ∀ s, I s → done s ∨ ∃ e u, m.step s e = some u) (hI : I s) : m.Ends done s := by
  refine ⟨⟨rank s, fun es t h => ?_⟩, fun es t h => hgo t ?_⟩
  · have hlength := length_add_rank_le hstep hI h
    omega
  · exact run_always (fun s e t hs ht => (hstep s e t hs ht).1) hI h

theorem Ends.of_run (h : m.Ends done s) (hrun : m.run s es = some t) : m.Ends done t := by
  obtain ⟨n, hn⟩ := h.bounded
  refine ⟨⟨n, fun fs u hu => ?_⟩, fun fs u hu => ?_⟩
  · have hlength := hn (es ++ fs) u (run_append_iff.mpr ⟨t, hrun, hu⟩)
    rw [List.length_append] at hlength
    omega
  · exact h.goes_on (es ++ fs) u (run_append_iff.mpr ⟨t, hrun, hu⟩)

/-- A run that ends gets to where it is done. -/
theorem Ends.reaches (h : m.Ends done s) : ∃ es t, m.run s es = some t ∧ done t := by
  obtain ⟨n, hn⟩ := h.bounded
  have hlong : ∀ k, (∃ es t, m.run s es = some t ∧ done t) ∨
      ∃ es t, m.run s es = some t ∧ es.length = k := by
    intro k
    induction k with
    | zero => exact .inr ⟨[], s, rfl, rfl⟩
    | succ k ih =>
      rcases ih with hdone | ⟨es, t, hrun, hlength⟩
      · exact .inl hdone
      · rcases h.goes_on es t hrun with hdone | ⟨e, u, hu⟩
        · exact .inl ⟨es, t, hrun, hdone⟩
        · refine .inr ⟨es ++ [e], u, run_snoc_iff.mpr ⟨t, hrun, hu⟩, ?_⟩
          rw [List.length_append, hlength, List.length_singleton]
  rcases hlong (n + 1) with hdone | ⟨es, t, hrun, hlength⟩
  · exact hdone
  · have hle := hn es t hrun
    omega

/-- A run that gets to where no run is ever done does not end. -/
theorem not_ends_of_never {I : σ → Prop} (hrun : m.run s es = some t) (hI : I t)
    (hstep : ∀ s e t, I s → m.step s e = some t → I t) (hnever : ∀ s, I s → ¬ done s) :
    ¬ m.Ends done s := by
  intro h
  obtain ⟨fs, u, hu, hdone⟩ := (h.of_run hrun).reaches
  exact hnever u (run_always hstep hI hu) hdone

/-- A run can be led to a goal when each state on the way has a step that leads there. -/
theorem exists_run_to (I goal : σ → Prop) (rank : σ → Nat)
    (hgo : ∀ s, I s → goal s ∨ ∃ e t, m.step s e = some t ∧ I t ∧ rank t < rank s) (hI : I s) :
    ∃ es t, m.run s es = some t ∧ I t ∧ goal t := by
  induction hrank : rank s using Nat.strong_induction_on generalizing s with
  | _ n ih =>
    rcases hgo s hI with hgoal | ⟨e, t, hstep, ht, hless⟩
    · exact ⟨[], s, rfl, hI, hgoal⟩
    · obtain ⟨es, u, hu, hIu, hgoal⟩ := ih (rank t) (hrank ▸ hless) ht rfl
      exact ⟨e :: es, u, run_cons_iff.mpr ⟨t, hstep, hu⟩, hIu, hgoal⟩

end Machine

end machines

namespace crews

open machines

variable {ι α β γ ε : Type*}

/-! ## The tasks of a crew -/

/-- What the tasks do. With its permit a task begins to work, or it is over at once. A step
of its work takes an event, changes what the tasks share, and leaves less work. -/
structure Trade (ι α β γ ε : Type*) where
  begins : ι → α ⊕ β
  work : ι → α → γ → ε → γ × (α ⊕ β)
  left : α → Nat
  most : Nat
  left_begins : ∀ {i a}, begins i = .inl a → left a ≤ most
  left_work : ∀ {i a g e a'}, (work i a g e).2 = .inl a' → left a' < left a

structure Crew (ι α β γ : Type*) where
  permits : Nat
  waiting : List ι
  working : List (ι × α) := []
  finished : List (ι × β) := []
  collected : List (ι × β) := []
  shared : γ

inductive Act (ε : Type*)
  | Acquire (k : Nat)
  | Work (k : Nat) (e : ε)
  | Collect (k : Nat)

/-- All results are collected. -/
def Crew.over (c : Crew ι α β γ) : Bool :=
  c.waiting.isEmpty && c.working.isEmpty && c.finished.isEmpty

@[simp] theorem Crew.over_iff {c : Crew ι α β γ} :
    c.over = true ↔ c.waiting = [] ∧ c.working = [] ∧ c.finished = [] := by
  unfold Crew.over
  simp only [Bool.and_eq_true, List.isEmpty_iff, and_assoc]

def Trade.step (tr : Trade ι α β γ ε) (c : Crew ι α β γ) : Act ε → Option (Crew ι α β γ)
  | .Acquire k =>
    match c.permits, c.waiting[k]? with
    | n + 1, some i => match tr.begins i with
      | .inl a => some { c with
          permits := n
          waiting := c.waiting.eraseIdx k
          working := (i, a) :: c.working }
      | .inr b => some { c with
          waiting := c.waiting.eraseIdx k
          finished := (i, b) :: c.finished }
    | _, _ => none
  | .Work k e =>
    match c.working[k]? with
    | some (i, a) => match tr.work i a c.shared e with
      | (shared, .inl a') => some { c with
          working := (i, a') :: c.working.eraseIdx k
          shared := shared }
      | (shared, .inr b) => some { c with
          permits := c.permits + 1
          working := c.working.eraseIdx k
          finished := (i, b) :: c.finished
          shared := shared }
    | none => none
  | .Collect k =>
    match c.finished[k]? with
    | some r => some { c with
        finished := c.finished.eraseIdx k
        collected := c.collected ++ [r] }
    | none => none

def Trade.machine (tr : Trade ι α β γ ε) : Machine (Crew ι α β γ) (Act ε) := ⟨tr.step⟩

/-! ## What a step keeps -/

/-- The tasks wherever they are. -/
def Crew.tasks (c : Crew ι α β γ) : List ι :=
  c.waiting ++ (c.working.map (·.1) ++ (c.finished.map (·.1) ++ c.collected.map (·.1)))

/-- No task is lost, and each permit is left or held by a task that works. -/
structure Kept (tr : Trade ι α β γ ε) (permits : Nat) (tasks : List ι) (c : Crew ι α β γ) :
    Prop where
  permits : c.permits + c.working.length = permits
  tasks : c.tasks.Perm tasks
  left : ∀ w ∈ c.working, tr.left w.2 ≤ tr.most

/-- How much is still to be done at most. -/
def Trade.rank (tr : Trade ι α β γ ε) (c : Crew ι α β γ) : Nat :=
  c.waiting.length * (tr.most + 3) + ((c.working.map fun w => tr.left w.2 + 2).sum +
    c.finished.length)

variable {tr : Trade ι α β γ ε} {permits : Nat} {tasks : List ι} {c d : Crew ι α β γ} {a : Act ε}

theorem perm_eraseIdx {κ : Type*} {xs : List κ} {k : Nat} {x : κ} (h : xs[k]? = some x) :
    xs.Perm (x :: xs.eraseIdx k) := by
  obtain ⟨hk, rfl⟩ := List.getElem?_eq_some_iff.mp h
  exact (List.getElem_cons_eraseIdx_perm hk).symm

theorem perm_collect {κ : Type*} {xs ys : List κ} {k : Nat} {x : κ} (h : xs[k]? = some x) :
    (xs.eraseIdx k ++ (ys ++ [x])).Perm (xs ++ ys) := by
  rw [← List.append_assoc]
  refine (List.perm_append_singleton _ _).trans ?_
  exact (perm_eraseIdx h).symm.append_right ys

/-! ### What a step can be -/

theorem acquire_ok {k : Nat} (h : tr.step c (.Acquire k) = some d) :
    ∃ n i, c.permits = n + 1 ∧ c.waiting[k]? = some i ∧
      ((∃ a, tr.begins i = .inl a ∧ d = { c with
          permits := n
          waiting := c.waiting.eraseIdx k
          working := (i, a) :: c.working }) ∨
        ∃ b, tr.begins i = .inr b ∧ d = { c with
          waiting := c.waiting.eraseIdx k
          finished := (i, b) :: c.finished }) := by
  unfold Trade.step at h
  dsimp only at h
  split at h
  · rename_i n i hn hi
    refine ⟨n, i, hn, hi, ?_⟩
    split at h
    · rename_i a hbegins
      cases h
      exact .inl ⟨a, hbegins, rfl⟩
    · rename_i b hbegins
      cases h
      exact .inr ⟨b, hbegins, rfl⟩
  · cases h

theorem work_ok {k : Nat} {e : ε} (h : tr.step c (.Work k e) = some d) :
    ∃ i a, c.working[k]? = some (i, a) ∧
      ((∃ shared a', tr.work i a c.shared e = (shared, .inl a') ∧ d = { c with
          working := (i, a') :: c.working.eraseIdx k
          shared := shared }) ∨
        ∃ shared b, tr.work i a c.shared e = (shared, .inr b) ∧ d = { c with
          permits := c.permits + 1
          working := c.working.eraseIdx k
          finished := (i, b) :: c.finished
          shared := shared }) := by
  unfold Trade.step at h
  dsimp only at h
  split at h
  · rename_i i a hw
    refine ⟨i, a, hw, ?_⟩
    split at h
    · rename_i shared a' hwork
      cases h
      exact .inl ⟨shared, a', hwork, rfl⟩
    · rename_i shared b hwork
      cases h
      exact .inr ⟨shared, b, hwork, rfl⟩
  · cases h

theorem collect_ok {k : Nat} (h : tr.step c (.Collect k) = some d) :
    ∃ r, c.finished[k]? = some r ∧
      d = { c with finished := c.finished.eraseIdx k, collected := c.collected ++ [r] } := by
  unfold Trade.step at h
  dsimp only at h
  split at h
  · rename_i r hr
    cases h
    exact ⟨r, hr, rfl⟩
  · cases h

/-- What one step does: a task goes on to where it stands next. -/
theorem kept_step (h : Kept tr permits tasks c) (hstep : tr.step c a = some d) :
    Kept tr permits tasks d ∧ tr.rank d < tr.rank c := by
  have hpermits := h.permits
  cases a with
  | Acquire k =>
    obtain ⟨n, i, hn, hi, hnext⟩ := acquire_ok hstep
    have hperm := perm_eraseIdx hi
    have hlength : c.waiting.length = (c.waiting.eraseIdx k).length + 1 := hperm.length_eq
    rcases hnext with ⟨a, hbegins, rfl⟩ | ⟨b, hbegins, rfl⟩
    · have hmost := tr.left_begins hbegins
      refine ⟨⟨?_, ?_, ?_⟩, ?_⟩
      · rw [List.length_cons]
        dsimp only
        omega
      · refine List.Perm.trans ?_ h.tasks
        unfold Crew.tasks
        dsimp only
        rw [List.map_cons, List.cons_append]
        exact List.perm_middle.trans (hperm.symm.append_right _)
      · intro w hw
        rcases List.mem_cons.mp hw with rfl | hw
        · exact hmost
        · exact h.left w hw
      · unfold Trade.rank
        dsimp only
        rw [hlength, List.map_cons, List.sum_cons, Nat.add_mul]
        dsimp only
        omega
    · refine ⟨⟨hpermits, ?_, h.left⟩, ?_⟩
      · refine List.Perm.trans ?_ h.tasks
        unfold Crew.tasks
        dsimp only
        rw [List.map_cons, List.cons_append]
        refine (List.Perm.append_left _ List.perm_middle).trans ?_
        exact List.perm_middle.trans (hperm.symm.append_right _)
      · unfold Trade.rank
        dsimp only
        rw [hlength, List.length_cons, Nat.add_mul]
        omega
  | Work k e =>
    obtain ⟨i, a, hw, hnext⟩ := work_ok hstep
    have hperm := perm_eraseIdx hw
    have hlength : c.working.length = (c.working.eraseIdx k).length + 1 := hperm.length_eq
    have hsum := (hperm.map fun w => tr.left w.2 + 2).sum_eq
    rw [List.map_cons, List.sum_cons] at hsum
    rcases hnext with ⟨shared, a', hwork, rfl⟩ | ⟨shared, b, hwork, rfl⟩
    · have hless : tr.left a' < tr.left a := tr.left_work (by rw [hwork])
      have hmost := h.left _ (List.mem_of_getElem? hw)
      refine ⟨⟨?_, ?_, ?_⟩, ?_⟩
      · dsimp only
        rw [List.length_cons]
        omega
      · refine List.Perm.trans ?_ h.tasks
        unfold Crew.tasks
        exact List.Perm.append_left _ ((hperm.map (·.1)).symm.append_right _)
      · intro w hw'
        rcases List.mem_cons.mp hw' with rfl | hw'
        · dsimp only at hmost ⊢
          omega
        · exact h.left w (List.mem_of_mem_eraseIdx hw')
      · unfold Trade.rank
        dsimp only
        rw [List.map_cons, List.sum_cons, hsum]
        dsimp only
        omega
    · refine ⟨⟨?_, ?_, fun w hw' => h.left w (List.mem_of_mem_eraseIdx hw')⟩, ?_⟩
      · dsimp only
        omega
      · refine List.Perm.trans ?_ h.tasks
        unfold Crew.tasks
        refine List.Perm.append_left _ ?_
        dsimp only
        rw [List.map_cons, List.cons_append]
        exact List.perm_middle.trans ((hperm.map (·.1)).symm.append_right _)
      · unfold Trade.rank
        dsimp only
        rw [hsum, List.length_cons]
        omega
  | Collect k =>
    obtain ⟨r, hr, rfl⟩ := collect_ok hstep
    have hperm := perm_eraseIdx hr
    have hlength : c.finished.length = (c.finished.eraseIdx k).length + 1 := hperm.length_eq
    refine ⟨⟨h.permits, ?_, h.left⟩, ?_⟩
    · refine List.Perm.trans ?_ h.tasks
      unfold Crew.tasks
      refine List.Perm.append_left _ (List.Perm.append_left _ ?_)
      dsimp only
      rw [← List.map_append, ← List.map_append]
      exact (perm_collect hr).map _
    · unfold Trade.rank
      dsimp only
      rw [hlength]
      omega

/-- With a permit for someone, a crew is over or goes on, whatever event meets its tasks. -/
theorem goes_on (e : ε) (h : Kept tr permits tasks c) (hpermits : 0 < permits) :
    c.over = true ∨ ∃ a d, (∀ k e', a = .Work k e' → e' = e) ∧ tr.step c a = some d := by
  by_cases hfinished : c.finished = []
  · by_cases hworking : c.working = []
    · by_cases hwaiting : c.waiting = []
      · exact .inl (Crew.over_iff.mpr ⟨hwaiting, hworking, hfinished⟩)
      · right
        obtain ⟨i, rest, hrest⟩ := List.exists_cons_of_ne_nil hwaiting
        have hheld := h.permits
        rw [hworking, List.length_nil, Nat.add_zero] at hheld
        obtain ⟨n, hn⟩ : ∃ n, c.permits = n + 1 :=
          Nat.exists_eq_add_one.mpr (hheld ▸ hpermits)
        refine ⟨.Acquire 0, ?_⟩
        simp only [reduceCtorEq, false_implies, implies_true, true_and]
        unfold Trade.step
        dsimp only
        rw [hn, hrest]
        dsimp only [List.getElem?_cons_zero]
        cases tr.begins i with
        | inl a => exact ⟨_, rfl⟩
        | inr b => exact ⟨_, rfl⟩
    · right
      obtain ⟨⟨i, a⟩, rest, hrest⟩ := List.exists_cons_of_ne_nil hworking
      have hstep : ∃ d, tr.step c (.Work 0 e) = some d := by
        unfold Trade.step
        dsimp only
        rw [hrest]
        dsimp only [List.getElem?_cons_zero]
        rcases tr.work i a c.shared e with ⟨shared, a' | b⟩
        · exact ⟨_, rfl⟩
        · exact ⟨_, rfl⟩
      obtain ⟨d, hd⟩ := hstep
      refine ⟨.Work 0 e, d, fun k e' heq => ?_, hd⟩
      cases heq
      rfl
  · right
    obtain ⟨r, rest, hrest⟩ := List.exists_cons_of_ne_nil hfinished
    refine ⟨.Collect 0, ?_⟩
    simp only [reduceCtorEq, false_implies, implies_true, true_and]
    unfold Trade.step
    dsimp only
    rw [hrest]
    exact ⟨_, rfl⟩

/-- Without permits nobody begins. -/
theorem no_step (hpermits : c.permits = 0) (hworking : c.working = [])
    (hfinished : c.finished = []) : tr.step c a = none := by
  unfold Trade.step
  cases a with
  | Acquire k =>
    rw [hpermits]
  | Work k e =>
    rw [hworking]
    rfl
  | Collect k =>
    rw [hfinished]
    rfl

/-! ## Whole runs -/

def Crew.start (permits : Nat) (tasks : List ι) (shared : γ) : Crew ι α β γ :=
  { permits := permits, waiting := tasks, shared := shared }

theorem kept_start (shared : γ) :
    Kept tr permits tasks (Crew.start permits tasks shared : Crew ι α β γ) := by
  refine ⟨rfl, ?_, fun w hw => ?_⟩
  · unfold Crew.tasks Crew.start
    simp
  · cases hw

/-- When a crew is over, each task has left one result. -/
theorem collected_of_over (h : Kept tr permits tasks c) (hover : c.over = true) :
    (c.collected.map (·.1)).Perm tasks := by
  obtain ⟨hwaiting, hworking, hfinished⟩ := Crew.over_iff.mp hover
  have htasks := h.tasks
  unfold Crew.tasks at htasks
  rw [hwaiting, hworking, hfinished] at htasks
  exact htasks

/-- A crew that is over can be given more tasks. -/
def Crew.next (c : Crew ι α β γ) (tasks : List ι) : Crew ι α β γ := { c with waiting := tasks }

theorem kept_next (h : Kept tr permits tasks c) (hover : c.over = true) (more : List ι) :
    Kept tr permits (tasks ++ more) (c.next more) := by
  obtain ⟨_, hworking, hfinished⟩ := Crew.over_iff.mp hover
  have hcollected := collected_of_over h hover
  refine ⟨h.permits, ?_, h.left⟩
  unfold Crew.tasks Crew.next
  dsimp only
  rw [hworking, hfinished]
  exact List.perm_append_comm.trans (hcollected.append_right _)

theorem rank_next (hover : c.over = true) (more : List ι) :
    tr.rank (c.next more) = more.length * (tr.most + 3) := by
  obtain ⟨_, hworking, hfinished⟩ := Crew.over_iff.mp hover
  unfold Trade.rank Crew.next
  dsimp only
  rw [hworking, hfinished]
  rfl

end crews
