-- How a release gets from the loop to the agent that it names: it goes on a
-- broadcast channel that the task of every agent reads, each task filters
-- what it reads, and a task that falls behind loses the oldest messages.
import Sai3Bench.Broadcasts
import Sai3Bench.ControllerSteps

namespace sai3_bench.controller

open broadcasts config machines pb Controller

/-! ## The tasks of the agents -/

/-- The task that forwards messages to one agent. `forwarded` is what it has
put on the control stream of the agent. -/
structure ForwardTask where
  agent_id : String
  rx_control_broadcast : Receiver ControlMessage 64 := Receiver.subscribe
  forwarded : List ControlMessage := []
  alive : Bool := true

namespace ForwardTask

/-- The message is for this agent, or for all. -/
def forMe (t : ForwardTask) (m : ControlMessage) : Bool := m.agent_id = "" || m.agent_id = t.agent_id

/-- One `rx_control_broadcast.recv()` and what the task does with it. -/
def recv (t : ForwardTask) : Option ForwardTask :=
  if t.alive then
    match t.rx_control_broadcast.recv with
    | (.Empty, _) => none
    -- a loss is only logged
    | (.Lagged _, rx) => some { t with rx_control_broadcast := rx }
    | (.Value m, rx) =>
      if t.forMe m then some { t with
        rx_control_broadcast := rx
        forwarded := t.forwarded ++ [m]
        alive := m.command ≠ some .Goodbye }
      else some { t with rx_control_broadcast := rx }
  else none

def hear (t : ForwardTask) (m : ControlMessage) : ForwardTask :=
  { t with rx_control_broadcast := t.rx_control_broadcast.push m }

end ForwardTask

/-! ## The loop with the tasks -/

/-- `pushed` counts the messages of the loop that are on the channel. -/
structure FanOut where
  loop : Controller
  pushed : Nat := 0
  tasks : List ForwardTask

/-- The loop takes its next event, it puts its next message on the channel,
or the task of an agent reads or ends. -/
inductive FanEvent
  | Loop (e : Event)
  | Push
  | Recv (j : Nat)
  | Exit (j : Nat)

namespace FanOut

/-- All tasks are subscribed before the loop begins. -/
def new (s : Setup) : FanOut :=
  { loop := Controller.new s, tasks := s.ids.map fun id => { agent_id := id } }

/-- The loop takes its next event only after it has sent all its messages. -/
def step (s : Setup) (f : FanOut) : FanEvent → Option FanOut
  | .Loop e =>
    if f.pushed = f.loop.control.length then
      (f.loop.step s e).map fun c => { f with loop := c }
    else none
  | .Push => f.loop.control[f.pushed]?.map fun m =>
    { f with pushed := f.pushed + 1, tasks := f.tasks.map (·.hear m) }
  | .Recv j => (f.tasks[j]?.bind (·.recv)).map fun t => { f with tasks := f.tasks.set j t }
  | .Exit j => f.tasks[j]?.map fun t => { f with tasks := f.tasks.set j { t with alive := false } }

/-- What the loop has put on the channel so far. -/
def sent (f : FanOut) : List ControlMessage := f.loop.control.take f.pushed

end FanOut

def fanOutMachine (s : Setup) : Machine FanOut FanEvent := ⟨FanOut.step s⟩

/-- The releases that name an agent. -/
def releasesFor (id : String) (ms : List ControlMessage) : List ControlMessage :=
  ms.filter fun m => m.command = some .ReleaseBarrier && m.agent_id = id

/-- A full receiver has a release for the agent as its oldest message. -/
def overruns (id : String) (rx : Receiver ControlMessage 64) : Bool :=
  rx.pending.length = 64 &&
    rx.pending.head?.any fun m => m.command = some .ReleaseBarrier && m.agent_id = id

/-- A message comes while the receiver of task `j` is full, and its oldest
unread message is a release for the agent of this task. -/
def Overruns (j : Nat) (f : FanOut) (e : FanEvent) : Bool :=
  match e, f.tasks[j]? with
  | .Push, some t => overruns t.agent_id t.rx_control_broadcast
  | _, _ => false

/-! ## One step -/

variable {s : Setup} {c b : Controller} {e : Event} {f g : FanOut} {ev : FanEvent}
  {es : List FanEvent} {j : Nat} {t : ForwardTask} {id : String}

/-- The loop never takes a message back. -/
theorem hear_control (s : Setup) (c : Controller) (stats : LiveStats) (tsv_written : Bool) :
    c.control <+: (c.hear s stats tsv_written).control := by
  cases hbm : c.barrier_manager with
  | none => rw [(hear_unmanaged s stats tsv_written hbm).2]
  | some bm =>
    rw [(hear_managed s stats tsv_written hbm).2]
    split
    · unfold report
      dsimp only
      split
      · exact List.prefix_append _ _
      · exact List.prefix_rfl
    · exact List.prefix_rfl

theorem step_control (h : (controllerMachine s).step c e = some b) : c.control <+: b.control := by
  cases step_cases h with
  | @takes stats turns tsv_written _ _ htake =>
    have hhear := hear_control s c.ticked stats tsv_written
    obtain ⟨bm, _, ⟨rfl, _⟩ | ⟨_, msg, rfl⟩⟩ := take_cases htake
    · rcases (settle_barriers s (c.ticked.waited s stats tsv_written bm) stats).2 with heq | heq
      · rw [heq]
        exact hhear
      · rw [heq]
        exact hhear.trans (List.prefix_append _ _)
    · exact hhear
  | closes _ => exact List.prefix_append _ _
  | awaits _ hw =>
    obtain ⟨bm, _, ⟨rfl, _⟩ | ⟨_, _, _, msg, _, _, rfl⟩⟩ := await_cases hw <;>
      exact List.prefix_rfl
  | _ => exact List.prefix_rfl

/-! ## What a task has of what was sent -/

theorem releasesFor_append (xs ys : List ControlMessage) :
    releasesFor id (xs ++ ys) = releasesFor id xs ++ releasesFor id ys := by
  simp [releasesFor]

/-- Of the releases that were sent for an agent, some are forwarded and some
are to be read, in their order, and all but `lost` of them are there. -/
structure Carries (id : String) (sent forwarded pending : List ControlMessage) (lost : Nat) :
    Prop where
  part : (releasesFor id forwarded ++ releasesFor id pending).Sublist (releasesFor id sent)
  count : (releasesFor id sent).length =
    (releasesFor id forwarded).length + (releasesFor id pending).length + lost

variable {sent forwarded : List ControlMessage} {rx : Receiver ControlMessage 64} {lost : Nat}

theorem Carries.push (h : Carries id sent forwarded rx.pending lost) (m : ControlMessage) :
    Carries id (sent ++ [m]) forwarded (rx.push m).pending
      (lost + if overruns id rx then 1 else 0) := by
  obtain ⟨hpart, hcount⟩ := h
  rcases rx.push_cases m (by decide) with ⟨hroom, hpush⟩ | ⟨y, rest, hfull, hp, hpush⟩
  · have hno : overruns id rx = false := by
      have hne : rx.pending.length ≠ 64 := by omega
      simp [overruns, hne]
    rw [hpush, hno]
    refine ⟨?_, ?_⟩
    · rw [releasesFor_append, releasesFor_append, ← List.append_assoc]
      exact hpart.append (List.Sublist.refl _)
    · rw [releasesFor_append, releasesFor_append, List.length_append, List.length_append, hcount]
      simp only [Bool.false_eq_true, ↓reduceIte]
      omega
  · -- the oldest message makes room, and it counts when it is for this agent
    have hover : overruns id rx = (y.command = some .ReleaseBarrier && y.agent_id = id) := by
      unfold overruns
      rw [hfull, hp]
      rfl
    have hy : releasesFor id rx.pending =
        (if overruns id rx then [y] else []) ++ releasesFor id rest := by
      rw [hp, hover]
      unfold releasesFor
      rw [List.filter_cons]
      split <;> rfl
    have hlen : (if overruns id rx then [y] else []).length = if overruns id rx then 1 else 0 := by
      split <;> rfl
    rw [hy] at hpart hcount
    rw [List.length_append, hlen] at hcount
    rw [hpush]
    refine ⟨?_, ?_⟩
    · rw [releasesFor_append, releasesFor_append, ← List.append_assoc]
      refine List.Sublist.append (List.Sublist.trans ?_ hpart) (List.Sublist.refl _)
      exact (List.Sublist.refl _).append (List.sublist_append_right _ _)
    · rw [releasesFor_append, releasesFor_append, List.length_append, List.length_append, hcount]
      omega

/-- A message that is read is forwarded, or it is no release for the agent. -/
theorem Carries.read {m : ControlMessage} {rest : List ControlMessage} (more : List ControlMessage)
    (h : Carries id sent forwarded (m :: rest) lost)
    (hmore : releasesFor id more = releasesFor id [m]) :
    Carries id sent (forwarded ++ more) rest lost := by
  obtain ⟨hpart, hcount⟩ := h
  have hsplit : releasesFor id (m :: rest) = releasesFor id more ++ releasesFor id rest := by
    rw [hmore, ← releasesFor_append]
    rfl
  rw [hsplit] at hpart hcount
  refine ⟨?_, ?_⟩
  · rw [releasesFor_append, List.append_assoc]
    exact hpart
  · rw [releasesFor_append, hcount, List.length_append, List.length_append]
    omega

/-- What a task carries. -/
def ForwardTask.Has (t : ForwardTask) (sent : List ControlMessage) (lost : Nat) : Prop :=
  Carries t.agent_id sent t.forwarded t.rx_control_broadcast.pending lost

/-- A read takes the oldest message off the receiver, which is forwarded if it
is for the agent, or only finds that others are lost. -/
theorem recv_moves {u : ForwardTask} (hr : t.recv = some u) :
    t.alive = true ∧ u.agent_id = t.agent_id ∧
      (u.rx_control_broadcast.pending = t.rx_control_broadcast.pending ∧
          u.forwarded = t.forwarded ∨
        ∃ m, t.rx_control_broadcast.pending = m :: u.rx_control_broadcast.pending ∧
          u.forwarded = t.forwarded ++ if t.forMe m then [m] else []) := by
  unfold ForwardTask.recv at hr
  split at hr
  · rename_i halive
    rcases t.rx_control_broadcast.recv_cases with ⟨_, hrx⟩ | ⟨n, rx, hrx, hpend, _⟩ |
      ⟨m, rx, hrx, hpend, _⟩
    · rw [hrx] at hr
      cases hr
    · rw [hrx] at hr
      cases hr
      exact ⟨halive, rfl, .inl ⟨hpend, rfl⟩⟩
    · rw [hrx] at hr
      dsimp only at hr
      split at hr
      · rename_i hme
        cases hr
        exact ⟨halive, rfl, .inr ⟨m, hpend, by simp [hme]⟩⟩
      · rename_i hother
        cases hr
        exact ⟨halive, rfl, .inr ⟨m, hpend, by simp [hother]⟩⟩
  · cases hr

/-- Reading moves a release from the receiver to the control stream. -/
theorem recv_has {u : ForwardTask} (h : t.Has sent lost) (hr : t.recv = some u) :
    u.Has sent lost := by
  unfold ForwardTask.Has at h ⊢
  obtain ⟨_, hid, ⟨hpend, hforw⟩ | ⟨m, hpend, hforw⟩⟩ := recv_moves hr
  · rw [hid, hpend, hforw]
    exact h
  · rw [hpend] at h
    rw [hid, hforw]
    apply h.read
    split
    · rfl
    · rename_i hother
      have hne : m.agent_id ≠ t.agent_id := by
        intro he
        simp [ForwardTask.forMe, he] at hother
      simp [releasesFor, hne]

/-- One task changes, and the others stay. -/
theorem task_of_set {ts : List ForwardTask} {i : Nat} {u v : ForwardTask} (hi : ts[i]? = some t)
    (hv : (ts.set i u)[j]? = some v) : i = j ∧ v = u ∨ ts[j]? = some v := by
  by_cases hij : i = j
  · subst hij
    have hlt : i < ts.length := (List.getElem?_eq_some_iff.mp hi).1
    rw [List.getElem?_set_self hlt] at hv
    cases hv
    exact .inl ⟨rfl, rfl⟩
  · rw [List.getElem?_set_ne hij] at hv
    exact .inr hv

/-! ## A run -/

/-- Task `j`, while it is alive, carries what was sent but for `lost` releases. -/
def TaskCarries (j : Nat) (f : FanOut) (lost : Nat) : Prop :=
  f.pushed ≤ f.loop.control.length ∧
    ∀ t, f.tasks[j]? = some t → t.alive = true → t.Has f.sent lost

theorem taskCarries_step {lost : Nat} (h : TaskCarries j f lost)
    (hs : (fanOutMachine s).step f ev = some g) :
    TaskCarries j g (lost + if Overruns j f ev then 1 else 0) := by
  obtain ⟨hle, hcarry⟩ := h
  cases ev with
  | Loop e =>
    simp only [fanOutMachine, FanOut.step] at hs
    split at hs
    · rename_i hall
      obtain ⟨c, hc, rfl⟩ := Option.map_eq_some_iff.mp hs
      have hpre := step_control (s := s) hc
      have hsent : FanOut.sent { f with loop := c } = f.sent := by
        unfold FanOut.sent
        dsimp only
        obtain ⟨more, hmore⟩ := hpre
        rw [← hmore, hall, List.take_left, List.take_length]
      refine ⟨hle.trans hpre.length_le, ?_⟩
      intro t ht halive
      rw [hsent]
      exact hcarry t ht halive
    · cases hs
  | Push =>
    simp only [fanOutMachine, FanOut.step] at hs
    obtain ⟨m, hm, rfl⟩ := Option.map_eq_some_iff.mp hs
    obtain ⟨hlt, hget⟩ := List.getElem?_eq_some_iff.mp hm
    refine ⟨hlt, ?_⟩
    intro u hu halive
    simp only [List.getElem?_map] at hu
    obtain ⟨t, ht, rfl⟩ := Option.map_eq_some_iff.mp hu
    have hsent : FanOut.sent { f with
        pushed := f.pushed + 1, tasks := f.tasks.map (·.hear m) } = f.sent ++ [m] := by
      unfold FanOut.sent
      rw [← hget, ← List.take_concat_get' _ _ hlt]
    have hover : Overruns j f .Push = overruns t.agent_id t.rx_control_broadcast := by
      simp only [Overruns, ht]
    rw [hsent, hover]
    exact (hcarry t ht halive).push m
  | Recv i =>
    simp only [fanOutMachine, FanOut.step] at hs
    obtain ⟨u, hu, rfl⟩ := Option.map_eq_some_iff.mp hs
    obtain ⟨t, ht, hrecv⟩ := Option.bind_eq_some_iff.mp hu
    refine ⟨hle, ?_⟩
    intro v hv halive
    show v.Has f.sent lost
    rcases task_of_set ht hv with ⟨rfl, rfl⟩ | hold
    · exact recv_has (hcarry t ht (recv_moves hrecv).1) hrecv
    · exact hcarry v hold halive
  | Exit i =>
    simp only [fanOutMachine, FanOut.step] at hs
    obtain ⟨t, ht, rfl⟩ := Option.map_eq_some_iff.mp hs
    refine ⟨hle, ?_⟩
    intro v hv halive
    show v.Has f.sent lost
    rcases task_of_set ht hv with ⟨rfl, rfl⟩ | hold
    · cases halive
    · exact hcarry v hold halive

/-- The releases for its agent that task `j` loses in a run. -/
def lostIn (s : Setup) (j : Nat) (es : List FanEvent) : List Unit :=
  (fanOutMachine s).log (fun f e _ => if Overruns j f e then some () else none) (FanOut.new s) es

theorem run_carries (h : (fanOutMachine s).run (FanOut.new s) es = some f) :
    TaskCarries j f (lostIn s j es).length := by
  induction es using List.reverseRecOn generalizing f with
  | nil =>
    cases h
    refine ⟨Nat.zero_le _, ?_⟩
    intro t ht _
    simp only [FanOut.new, List.getElem?_map] at ht
    obtain ⟨id, _, rfl⟩ := Option.map_eq_some_iff.mp ht
    exact ⟨List.nil_sublist _, rfl⟩
  | append_singleton es e ih =>
    obtain ⟨g, hg, hf⟩ := Machine.run_snoc_iff.mp h
    have hstep := taskCarries_step (ih hg) hf
    unfold lostIn at hstep ⊢
    rw [Machine.log_snoc hg hf, List.length_append]
    by_cases hover : Overruns j g e = true
    · simpa [hover] using hstep
    · simpa [hover] using hstep

/-- A task that is alive and has no release left to read has forwarded each
release for its agent exactly when no message overran its receiver. -/
theorem releases_are_forwarded_iff
    (h : (fanOutMachine s).run (FanOut.new s) es = some f) (hj : f.tasks[j]? = some t)
    (halive : t.alive = true)
    (hread : releasesFor t.agent_id t.rx_control_broadcast.pending = []) :
    releasesFor t.agent_id t.forwarded = releasesFor t.agent_id f.sent ↔
      (fanOutMachine s).Along (fun g e => Overruns j g e = false) (FanOut.new s) es := by
  obtain ⟨hpart, hcount⟩ := (run_carries (j := j) h).2 t hj halive
  rw [hread, List.append_nil] at hpart
  rw [hread, List.length_nil, Nat.add_zero] at hcount
  have hlost : lostIn s j es = [] ↔
      (fanOutMachine s).Along (fun g e => Overruns j g e = false) (FanOut.new s) es := by
    unfold lostIn
    rw [Machine.log_eq_nil_iff]
    refine Machine.along_congr (I := fun _ => True) (fun _ _ _ _ _ => trivial) ?_ trivial h
    intro g e u _ hu
    simp [hu]
  rw [← hlost, ← List.length_eq_zero_iff]
  constructor
  · intro heq
    rw [heq] at hcount
    omega
  · intro hzero
    exact hpart.eq_of_length (by omega)

/-! ## A pass of the loop -/

/-- The receiver of task `j` has room for all that the loop has yet to send. -/
def HasRoom (j : Nat) (f : FanOut) : Prop :=
  ∀ t, f.tasks[j]? = some t →
    t.rx_control_broadcast.pending.length + (f.loop.control.length - f.pushed) ≤ 64

theorem hasRoom_step (h : HasRoom j f) (hloop : ∀ e, ev ≠ .Loop e)
    (hs : (fanOutMachine s).step f ev = some g) : HasRoom j g := by
  cases ev with
  | Loop e => exact absurd rfl (hloop e)
  | Push =>
    simp only [fanOutMachine, FanOut.step] at hs
    obtain ⟨m, hm, rfl⟩ := Option.map_eq_some_iff.mp hs
    have hlt := (List.getElem?_eq_some_iff.mp hm).1
    intro u hu
    simp only [List.getElem?_map] at hu
    obtain ⟨t, ht, rfl⟩ := Option.map_eq_some_iff.mp hu
    have hroom := h t ht
    have hlen : (t.rx_control_broadcast.push m).pending.length ≤
        t.rx_control_broadcast.pending.length + 1 := by
      simp [Receiver.push]
    simp only [ForwardTask.hear]
    omega
  | Recv i =>
    simp only [fanOutMachine, FanOut.step] at hs
    obtain ⟨u, hu, rfl⟩ := Option.map_eq_some_iff.mp hs
    obtain ⟨t, ht, hrecv⟩ := Option.bind_eq_some_iff.mp hu
    have hlen : u.rx_control_broadcast.pending.length ≤ t.rx_control_broadcast.pending.length := by
      obtain ⟨_, _, ⟨hpend, _⟩ | ⟨m, hpend, _⟩⟩ := recv_moves hrecv
      · rw [hpend]
      · rw [hpend, List.length_cons]
        omega
    intro v hv
    rcases task_of_set ht hv with ⟨rfl, rfl⟩ | hold
    · exact (Nat.add_le_add_right hlen _).trans (h t ht)
    · exact h v hold
  | Exit i =>
    simp only [fanOutMachine, FanOut.step] at hs
    obtain ⟨t, ht, rfl⟩ := Option.map_eq_some_iff.mp hs
    intro v hv
    rcases task_of_set ht hv with ⟨rfl, rfl⟩ | hold
    · exact h t ht
    · exact h v hold

/-- A pass over `n` agents overruns no receiver that has at most `64 - n`
messages to read when it begins, in any interleaving with the reads. -/
theorem pass_overruns_none (h : HasRoom j f) (hloop : ∀ ev ∈ es, ∀ e, ev ≠ .Loop e)
    (hrun : (fanOutMachine s).run f es = some g) :
    (fanOutMachine s).Along (fun g e => Overruns j g e = false) f es := by
  induction es generalizing f with
  | nil => trivial
  | cons ev es ih =>
    obtain ⟨u, hu, hg⟩ := Machine.run_cons_iff.mp hrun
    refine ⟨?_, fun v hv => ?_⟩
    · cases ev with
      | Push =>
        simp only [fanOutMachine, FanOut.step] at hu
        obtain ⟨m, hm, _⟩ := Option.map_eq_some_iff.mp hu
        have hlt := (List.getElem?_eq_some_iff.mp hm).1
        unfold Overruns
        cases ht : f.tasks[j]? with
        | none => rfl
        | some t =>
          have hroom := h t ht
          have hne : t.rx_control_broadcast.pending.length ≠ 64 := by omega
          simp [overruns, hne]
      | Loop _ | Recv _ | Exit _ => rfl
    · rw [hu] at hv
      cases hv
      exact ih (hasRoom_step h (hloop ev (by simp)) hu)
        (fun ev' hev' => hloop ev' (List.mem_cons_of_mem _ hev')) hg

/-- A task that is alive can read as long as there is something to read, and
each read brings it closer to the end. -/
theorem recv_progress (halive : t.alive = true) (hread : t.rx_control_broadcast.pending ≠ []) :
    ∃ u, t.recv = some u ∧ u.rx_control_broadcast.unread < t.rx_control_broadcast.unread := by
  unfold ForwardTask.recv
  rw [if_pos halive]
  rcases t.rx_control_broadcast.recv_cases with ⟨hnil, _⟩ | ⟨n, rx, hrx, _, hun⟩ |
    ⟨m, rx, hrx, _, hun⟩
  · exact absurd hnil hread
  · rw [hrx]
    exact ⟨_, rfl, by simp only; omega⟩
  · rw [hrx]
    dsimp only
    split <;> exact ⟨_, rfl, by simp only; omega⟩

/-! ## One agent, and sixty-five -/

/-- The agents start, and all report at barrier 0. The loop takes these
messages; the messages that it sends are not on the channel yet. -/
def reportsOfAll (ids : List String) : List FanEvent :=
  ids.map (fun id => .Loop (.Stats { agent_id := id, status := 1 } [] false)) ++
    ids.map fun id => .Loop (.Stats { agent_id := id, status := 2, at_barrier := true } [] false)

/-- Barriers with the defaults. -/
def defaultBarriers : DistributedConfig := ⟨[], { enabled := true }⟩

def oneForwarder : Setup := ⟨["a"], ["a"], some defaultBarriers, rfl⟩

theorem one_release_is_forwarded : ∃ f t,
    (fanOutMachine oneForwarder).run (FanOut.new oneForwarder) (reportsOfAll ["a"] ++ [.Push, .Recv 0]) =
        some f ∧ f.tasks[0]? = some t ∧ (releasesFor "a" f.sent).length = 1 ∧
      releasesFor "a" t.forwarded = releasesFor "a" f.sent := by
  have hrun : ∃ f t,
      (fanOutMachine oneForwarder).run (FanOut.new oneForwarder) (reportsOfAll ["a"] ++ [.Push, .Recv 0]) =
        some f ∧ f.tasks[0]? = some t ∧ t.alive = true ∧ t.agent_id = "a" ∧
      releasesFor "a" t.rx_control_broadcast.pending = [] ∧ (releasesFor "a" f.sent).length = 1 :=
    ⟨_, _, rfl, rfl, rfl, rfl, rfl, rfl⟩
  obtain ⟨f, t, hf, ht, halive, hid, hread, hsent⟩ := hrun
  have hno : (fanOutMachine oneForwarder).Along (fun g e => Overruns 0 g e = false)
      (FanOut.new oneForwarder) (reportsOfAll ["a"] ++ [.Push, .Recv 0]) :=
    Machine.along_of_check (p := fun g e => !Overruns 0 g e) (by simp) rfl
  have hall := (releases_are_forwarded_iff hf ht halive (by rw [hid]; exact hread)).mpr hno
  rw [hid] at hall
  exact ⟨f, t, hf, ht, hsent, hall⟩

/-- A letter for each agent. -/
def letters : List String :=
  "abcdefghijklmnopqrstuvwxyzABCDEFGHIJKLMNOPQRSTUVWXYZ0123456789+-*".toList.map String.singleton

def lettersSetup : Setup := ⟨letters, letters, some defaultBarriers, rfl⟩

/-- The loop sends all its releases before the task of the first agent reads. -/
def lateReader : List FanEvent :=
  reportsOfAll letters.reverse ++ List.replicate 65 .Push ++ List.replicate 65 (.Recv 0)

theorem the_first_of_65_releases_is_lost : ∃ f t,
    (fanOutMachine lettersSetup).run (FanOut.new lettersSetup) lateReader = some f ∧
      f.tasks[0]? = some t ∧ t.alive = true ∧
      releasesFor t.agent_id t.rx_control_broadcast.pending = [] ∧
      releasesFor t.agent_id t.forwarded ≠ releasesFor t.agent_id f.sent := by
  have hrun : (((fanOutMachine lettersSetup).run (FanOut.new lettersSetup) lateReader).any fun f =>
      f.tasks[0]?.any fun t => t.alive &&
        (releasesFor t.agent_id t.rx_control_broadcast.pending).isEmpty &&
        (releasesFor t.agent_id t.forwarded).length = 0 &&
        (releasesFor t.agent_id f.sent).length = 1) = true := by decide +kernel
  obtain ⟨f, hf, hrest⟩ := Option.any_eq_true _ _ |>.mp hrun
  obtain ⟨t, ht, hall⟩ := Option.any_eq_true _ _ |>.mp hrest
  simp only [Bool.and_eq_true, List.isEmpty_iff, decide_eq_true_eq] at hall
  obtain ⟨⟨⟨halive, hread⟩, hnone⟩, hone⟩ := hall
  refine ⟨f, t, hf, ht, halive, hread, ?_⟩
  intro heq
  rw [heq, hone] at hnone
  exact absurd hnone (by decide)

end sai3_bench.controller
