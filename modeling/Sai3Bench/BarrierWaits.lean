-- The wait at a stage barrier (agent.rs, the end of `execute_stages_workflow`):
-- an agent tells the controller that it is there, listens for the release,
-- and after a timeout tells it again, at most six times in all.
import Mathlib.Algebra.GroupWithZero.Nat
import Sai3Bench.Broadcasts

namespace sai3_bench.agent

open broadcasts

/-- A round of the wait first sends its notice and then listens. -/
inductive Phase
  | Notifying
  | Listening
deriving DecidableEq, Repr

/-- The wait of one agent at one barrier. -/
structure BarrierWait where
  barrier_index : Nat
  barrier_sequence : Nat
  retry : Nat
  phase : Phase
  barrier_rx : Receiver (Nat × Nat) 16
deriving DecidableEq

inductive WaitResult
  | Waiting (w : BarrierWait)
  | Released
  | NotReleased

def max_barrier_retries : Nat := 5

/-- The barrier of a stage: `(stage_index as u32).saturating_sub(1)`. -/
def barrier_index_of (stage_index : Nat) : Nat := stage_index % 2 ^ 32 - 1

namespace BarrierWait

/-- The wait as it begins, right after `subscribe_barrier_release`. -/
def begins (stage_index : Nat) : BarrierWait :=
  { barrier_index := barrier_index_of stage_index
    barrier_sequence := 0
    retry := 0
    phase := .Notifying
    barrier_rx := Receiver.subscribe }

/-- The test on a release, index and sequence. -/
def accepts (w : BarrierWait) (m : Nat × Nat) : Bool :=
  m.1 == w.barrier_index && decide (w.barrier_sequence ≤ m.2)

/-- A release arrives. -/
def hear (w : BarrierWait) (m : Nat × Nat) : BarrierWait :=
  { w with barrier_rx := w.barrier_rx.push m }

/-- The notice is sent. A send that fails is only logged. -/
def notify (w : BarrierWait) : Option WaitResult :=
  match w.phase with
  | .Notifying => some (.Waiting { w with phase := .Listening })
  | .Listening => none

/-- One `barrier_rx.recv()`. It blocks on an empty receiver. -/
def recv (w : BarrierWait) : Option WaitResult :=
  match w.phase with
  | .Notifying => none
  | .Listening =>
    match w.barrier_rx.recv with
    | (.Empty, _) => none
    | (.Lagged _, rx) => some (.Waiting { w with barrier_rx := rx })
    | (.Value m, rx) =>
      if w.accepts m then some .Released else some (.Waiting { w with barrier_rx := rx })

/-- The timeout of a round. `tokio::time::timeout` polls the reading loop
before its timer, so it fires only when there is nothing to read. -/
def timeout (w : BarrierWait) : Option WaitResult :=
  match w.phase with
  | .Notifying => none
  | .Listening =>
    if w.barrier_rx.isEmpty then
      if w.retry < max_barrier_retries then
        some (.Waiting { w with
          barrier_sequence := w.barrier_sequence + 1
          retry := w.retry + 1
          phase := .Notifying })
      else some .NotReleased
    else none

/-! ## A wait that has its release -/

/-- A release that ends this wait is in the receiver, unread. -/
def hears (w : BarrierWait) : Prop := ∃ m ∈ w.barrier_rx.pending, w.accepts m = true

/-- Where the release stands in the receiver: at most `late` messages behind it. -/
def HearsBefore (w : BarrierWait) (late : Nat) : Prop :=
  ∃ front m back, w.barrier_rx.pending = front ++ m :: back ∧ w.accepts m = true ∧
    back.length ≤ late

variable {w : BarrierWait} {m : Nat × Nat} {late : Nat} {r : WaitResult}

theorem HearsBefore.hears (h : w.HearsBefore late) : w.hears := by
  obtain ⟨front, m, back, hp, ha, _⟩ := h
  exact ⟨m, by simp [hp], ha⟩

theorem HearsBefore.mono (h : w.HearsBefore late) {more : Nat} (hle : late ≤ more) :
    w.HearsBefore more := by
  obtain ⟨front, m, back, hp, ha, hb⟩ := h
  exact ⟨front, m, back, hp, ha, by omega⟩

/-- The release that just came is the newest message. -/
theorem hear_hears (ha : w.accepts m = true) : (w.hear m).HearsBefore 0 := by
  obtain ⟨front, hp, _⟩ := Receiver.push_pending_last w.barrier_rx m (by decide)
  exact ⟨front, m, [], hp, ha, by simp⟩

/-- Later releases stand behind it, and push it out only when there are
sixteen of them. -/
theorem HearsBefore.hear (h : w.HearsBefore late) (hlate : late + 1 < 16) (m : Nat × Nat) :
    (w.hear m).HearsBefore (late + 1) := by
  obtain ⟨front, x, back, hp, ha, hb⟩ := h
  obtain ⟨front', hp', _⟩ := Receiver.push_keeps (y := m) hp (by omega)
  exact ⟨front', x, back ++ [m], hp', ha, by simp; omega⟩

theorem HearsBefore.notify (h : w.HearsBefore late) (hr : w.notify = some r) :
    ∃ v, r = .Waiting v ∧ v.HearsBefore late := by
  unfold BarrierWait.notify at hr
  split at hr <;> cases hr
  exact ⟨_, rfl, h⟩

/-- A read before the release leaves the release there. The read of the
release ends the wait. -/
theorem HearsBefore.recv (h : w.HearsBefore late) (hr : w.recv = some r) :
    r = .Released ∨ ∃ v, r = .Waiting v ∧ v.HearsBefore late ∧ v.phase = .Listening ∧
      v.barrier_rx.unread < w.barrier_rx.unread := by
  obtain ⟨front, x, back, hp, ha, hb⟩ := h
  unfold BarrierWait.recv at hr
  split at hr
  · cases hr
  rename_i hl
  rcases w.barrier_rx.recv_cases with ⟨hnil, _⟩ | ⟨n, rx, hrx, hpend, hun⟩ | ⟨y, rx, hrx, hpend, hun⟩
  · simp [hnil] at hp
  · rw [hrx] at hr
    cases hr
    exact .inr ⟨_, rfl, ⟨front, x, back, hpend.trans hp, ha, hb⟩, hl, by simp only; omega⟩
  · rw [hrx] at hr
    simp only at hr
    split at hr
    · cases hr
      exact .inl rfl
    · rename_i hno
      cases hr
      rw [hpend] at hp
      cases front with
      | nil =>
        obtain ⟨rfl, _⟩ := List.cons.inj hp
        exact absurd ha hno
      | cons z front =>
        obtain ⟨_, hrest⟩ := List.cons.inj hp
        exact .inr ⟨_, rfl, ⟨front, x, back, hrest, ha, hb⟩, hl, by simp only; omega⟩

/-- A wait that listens and has its release can read. -/
theorem hears.can_read (h : w.hears) (hl : w.phase = .Listening) : ∃ r, w.recv = some r := by
  obtain ⟨m, hm, _⟩ := h
  unfold BarrierWait.recv
  rw [hl]
  rcases w.barrier_rx.recv_cases with ⟨hnil, _⟩ | ⟨n, rx, hrx, _⟩ | ⟨y, rx, hrx, _⟩
  · simp [hnil] at hm
  · rw [hrx]
    exact ⟨_, rfl⟩
  · rw [hrx]
    simp only
    split <;> exact ⟨_, rfl⟩

/-- No timeout fires while the release is unread. -/
theorem hears.no_timeout (h : w.hears) : w.timeout = none := by
  obtain ⟨m, hm, _⟩ := h
  unfold timeout
  split
  · rfl
  · rw [if_neg]
    intro he
    obtain ⟨hnil, _⟩ := Receiver.isEmpty_iff.mp he
    simp [hnil] at hm

/-! ## A wait that has no release -/

/-- Nothing in the receiver ends this wait. -/
def Deaf (w : BarrierWait) : Prop := ∀ m ∈ w.barrier_rx.pending, w.accepts m = false

theorem Deaf.notify (h : w.Deaf) (hr : w.notify = some r) : ∃ v, r = .Waiting v ∧ v.Deaf := by
  unfold BarrierWait.notify at hr
  split at hr <;> cases hr
  exact ⟨_, rfl, h⟩

theorem Deaf.recv (h : w.Deaf) (hr : w.recv = some r) : ∃ v, r = .Waiting v ∧ v.Deaf := by
  unfold BarrierWait.recv at hr
  split at hr
  · cases hr
  rcases w.barrier_rx.recv_cases with ⟨_, hrx⟩ | ⟨n, rx, hrx, hpend, _⟩ | ⟨y, rx, hrx, hpend, _⟩
  · rw [hrx] at hr
    cases hr
  · rw [hrx] at hr
    cases hr
    exact ⟨_, rfl, fun m hm => h m (hpend ▸ hm)⟩
  · rw [hrx] at hr
    have hy : w.accepts y = false := h y (by simp [hpend])
    simp only [hy, Bool.false_eq_true, ↓reduceIte, Option.some.injEq] at hr
    subst hr
    exact ⟨_, rfl, fun m hm => h m (by simp [hpend, show m ∈ rx.pending from hm])⟩

/-- Sixteen releases of other barriers push out all that was there. -/
theorem deaf_of_hears (ms : List (Nat × Nat)) (hlen : 16 ≤ ms.length)
    (hno : ∀ m ∈ ms, w.accepts m = false) : (ms.foldl BarrierWait.hear w).Deaf := by
  have hfold : ms.foldl BarrierWait.hear w =
      { w with barrier_rx := ms.foldl Receiver.push w.barrier_rx } := by
    clear hlen hno
    induction ms generalizing w with
    | nil => rfl
    | cons m ms ih => rw [List.foldl_cons, ih]; rfl
  rw [hfold]
  intro m hm
  exact hno m (Receiver.mem_pushes hlen hm)

/-! ## What a step leaves -/

/-- A wait that goes on waits at the same barrier, for a message that was
there before. -/
structure GoesOn (w v : BarrierWait) : Prop where
  same : v.barrier_index = w.barrier_index
  keeps : ∀ m ∈ v.barrier_rx.pending, m ∈ w.barrier_rx.pending

theorem notify_goesOn {v : BarrierWait} (h : w.notify = some (.Waiting v)) : w.GoesOn v := by
  unfold BarrierWait.notify at h
  split at h <;> cases h
  exact ⟨rfl, fun m hm => hm⟩

theorem recv_goesOn {v : BarrierWait} (h : w.recv = some (.Waiting v)) : w.GoesOn v := by
  unfold BarrierWait.recv at h
  split at h
  · cases h
  rcases w.barrier_rx.recv_cases with ⟨_, hrx⟩ | ⟨n, rx, hrx, hpend, _⟩ | ⟨y, rx, hrx, hpend, _⟩
  · rw [hrx] at h
    cases h
  · rw [hrx] at h
    cases h
    exact ⟨rfl, fun m hm => hpend ▸ hm⟩
  · rw [hrx] at h
    simp only at h
    split at h <;> cases h
    exact ⟨rfl, fun m hm => by simp [hpend, show m ∈ rx.pending from hm]⟩

theorem timeout_goesOn {v : BarrierWait} (h : w.timeout = some (.Waiting v)) : w.GoesOn v := by
  unfold BarrierWait.timeout at h
  split at h
  · cases h
  split at h
  · split at h <;> cases h
    exact ⟨rfl, fun m hm => hm⟩
  · cases h

/-- A wait ends released only by a message for its barrier. -/
theorem recv_released (h : w.recv = some .Released) :
    ∃ m ∈ w.barrier_rx.pending, m.1 = w.barrier_index := by
  unfold BarrierWait.recv at h
  split at h
  · cases h
  rcases w.barrier_rx.recv_cases with ⟨_, hrx⟩ | ⟨n, rx, hrx, _, _⟩ | ⟨y, rx, hrx, hpend, _⟩
  · rw [hrx] at h
    cases h
  · rw [hrx] at h
    cases h
  · rw [hrx] at h
    simp only at h
    split at h
    · rename_i hacc
      simp only [accepts, Bool.and_eq_true, beq_iff_eq] at hacc
      exact ⟨y, by simp [hpend], hacc.1⟩
    · cases h

theorem notify_not_released : w.notify ≠ some .Released := by
  unfold BarrierWait.notify
  split <;> simp

theorem timeout_not_released : w.timeout ≠ some .Released := by
  unfold BarrierWait.timeout
  split
  · simp
  · split
    · split <;> simp
    · simp

/-! ## What holds of every wait -/

/-- A wait at the barrier of a stage: the sequence counts the timeouts, and
each release came as the command gives it: the barrier index, twice. -/
structure Sound (w : BarrierWait) (stage_index : Nat) : Prop where
  index : w.barrier_index = barrier_index_of stage_index
  counts : w.barrier_sequence = w.retry
  bounded : w.retry ≤ max_barrier_retries
  twins : ∀ m ∈ w.barrier_rx.pending, m.2 = m.1

theorem begins_sound (stage_index : Nat) : (begins stage_index).Sound stage_index :=
  ⟨rfl, rfl, Nat.zero_le _, by simp [begins]⟩

variable {stage_index : Nat}

theorem Sound.hear (h : w.Sound stage_index) (k : Nat) : (w.hear (k, k)).Sound stage_index := by
  refine ⟨h.index, h.counts, h.bounded, ?_⟩
  intro m hm
  rcases Receiver.mem_push hm with hm | rfl
  · exact h.twins m hm
  · rfl

theorem Sound.notify (h : w.Sound stage_index) {v : BarrierWait}
    (hr : w.notify = some (.Waiting v)) : v.Sound stage_index := by
  unfold BarrierWait.notify at hr
  split at hr <;> cases hr
  exact ⟨h.index, h.counts, h.bounded, h.twins⟩

theorem Sound.recv (h : w.Sound stage_index) {v : BarrierWait}
    (hr : w.recv = some (.Waiting v)) : v.Sound stage_index := by
  have hgo := recv_goesOn hr
  have hcount : v.barrier_sequence = w.barrier_sequence ∧ v.retry = w.retry := by
    unfold BarrierWait.recv at hr
    split at hr
    · cases hr
    split at hr
    · cases hr
    · cases hr; exact ⟨rfl, rfl⟩
    · split at hr <;> cases hr
      exact ⟨rfl, rfl⟩
  exact ⟨hgo.same.trans h.index, by rw [hcount.1, hcount.2, h.counts], hcount.2 ▸ h.bounded,
    fun m hm => h.twins m (hgo.keeps m hm)⟩

theorem Sound.timeout (h : w.Sound stage_index) {v : BarrierWait}
    (hr : w.timeout = some (.Waiting v)) : v.Sound stage_index := by
  unfold BarrierWait.timeout at hr
  split at hr
  · cases hr
  split at hr
  · split at hr
    · rename_i hlt
      cases hr
      exact ⟨h.index, by simp [h.counts], hlt, h.twins⟩
    · cases hr
  · cases hr

end BarrierWait

end sai3_bench.agent
