-- The manager inside the controller: whatever the controller does to it is a
-- run of the manager's own machine, and a release is what the manager decides.
import Sai3Bench.ReleasedOnce

namespace sai3_bench.controller

open config machines pb Controller

/-! ## A wait runs the machine -/

namespace BarrierManager

variable {bm b : BarrierManager} {client_pool : List String}

theorem wait_run {phase : String} {turns : List Turn} {r : Except String BarrierStatus}
    (h : bm.wait_for_barrier phase client_pool turns = some (b, r)) :
    ∃ es, managerMachine.run bm es = some b := by
  induction turns generalizing bm with
  | nil => cases h
  | cons turn turns ih =>
    unfold wait_for_barrier wait_turn at h
    cases turn with
    | TimedOut elapsed =>
      cases h
      exact ⟨[.Reset], rfl⟩
    | Polls liveness =>
      cases hc : bm.check_barrier <;> simp only [hc] at h
      case Waiting =>
        cases liveness with
        | none => exact ih h
        | some l =>
          obtain ⟨es, hes⟩ := check_liveness_run bm client_pool l
          obtain ⟨fs, hfs⟩ := ih h
          exact ⟨es ++ fs, Machine.run_append_iff.mpr ⟨_, hes, hfs⟩⟩
      all_goals
        cases h
        exact ⟨[], rfl⟩

end BarrierManager

/-! ## An event runs the machine -/

/-- The manager of `b` comes from the manager of `c` by a run of its machine. -/
def ManagerRuns (c b : Controller) : Prop :=
  ∀ bm', b.barrier_manager = some bm' →
    ∃ bm es, c.barrier_manager = some bm ∧ managerMachine.run bm es = some bm'

variable {s : Setup} {c d b : Controller} {e : Event} {stats : LiveStats} {k : Nat}

theorem ManagerRuns.refl : ManagerRuns c c := fun bm h => ⟨bm, [], h, rfl⟩

theorem ManagerRuns.of_eq (h : b.barrier_manager = c.barrier_manager) : ManagerRuns c b :=
  fun bm hbm => ⟨bm, [], h ▸ hbm, rfl⟩

theorem ManagerRuns.trans (h : ManagerRuns c d) (h' : ManagerRuns d b) : ManagerRuns c b := by
  intro bm' hbm'
  obtain ⟨bm₁, es₁, hd, hrun₁⟩ := h' bm' hbm'
  obtain ⟨bm, es, hc, hrun⟩ := h bm₁ hd
  exact ⟨bm, es ++ es₁, hc, Machine.run_append_iff.mpr ⟨bm₁, hrun, hrun₁⟩⟩

theorem hear_manager (s : Setup) (c : Controller) (stats : LiveStats) (tsv_written : Bool) :
    ManagerRuns c (c.hear s stats tsv_written) := by
  intro bm' hbm'
  cases hbm : c.barrier_manager with
  | none =>
    rw [(hear_unmanaged s stats tsv_written hbm).1] at hbm'
    cases hbm'
  | some bm =>
    rw [(hear_managed s stats tsv_written hbm).1] at hbm'
    split at hbm'
    · unfold report at hbm'
      dsimp only at hbm'
      split at hbm' <;> cases hbm'
      · exact ⟨bm, [.Heartbeat stats.agent_id (progressOf stats),
          .AtBarrier stats.agent_id stats.barrier_sequence stats.barrier_sequence,
          .Clear stats.barrier_sequence], rfl, rfl⟩
      · exact ⟨bm, [.Heartbeat stats.agent_id (progressOf stats),
          .AtBarrier stats.agent_id stats.barrier_sequence stats.barrier_sequence], rfl, rfl⟩
    · cases hbm'
      exact ⟨bm, [.Heartbeat stats.agent_id (progressOf stats)], rfl, rfl⟩

theorem await_manager {phase_name Phase_name : String} {turns : List BarrierManager.Turn}
    (next : Controller → Controller) (hnext : ∀ c, (next c).barrier_manager = c.barrier_manager)
    (h : c.await s phase_name Phase_name turns next = some b) : ManagerRuns c b := by
  unfold await at h
  cases hbm : c.barrier_manager with
  | none =>
    simp only [hbm, Option.some.injEq] at h
    subst h
    exact .of_eq (hnext c)
  | some bm =>
    simp only [hbm] at h
    obtain ⟨⟨bm₁, r⟩, hw, rfl⟩ := Option.map_eq_some_iff.mp h
    obtain ⟨es, hes⟩ := BarrierManager.wait_run hw
    intro bm' hbm'
    have hsame : some bm₁ = some bm' := by
      rw [← hbm']
      dsimp only
      split
      · rfl
      · rw [hnext]
      · rfl
    cases hsame
    exact ⟨bm, es, hbm, hes⟩

theorem take_manager {turns : List BarrierManager.Turn} {tsv_written : Bool}
    (h : c.take s stats turns tsv_written = some b) : ManagerRuns c b := by
  have hheard := hear_manager s c stats tsv_written
  have hsettle := fun c => (settle_barriers s c stats).1
  unfold take at h
  dsimp only at h
  split at h
  · intro bm' hbm'
    -- the aggregator begins anew, and the manager is the same
    obtain ⟨bm, es, hbm, hes⟩ := await_manager _ hsettle h bm' hbm'
    obtain ⟨bm₀, fs, hbm₀, hfs⟩ := hheard bm hbm
    exact ⟨bm₀, fs ++ es, hbm₀, Machine.run_append_iff.mpr ⟨bm, hfs, hes⟩⟩
  · cases h
    exact hheard.trans (.of_eq (hsettle _))

/-- The manager is set up when the startup ends, and from then on it runs. -/
theorem step_manager (h : (controllerMachine s).step c e = some b) :
    b.barrier_manager = s.barrier_manager ∧ c.phase = .Startup ∨ ManagerRuns c b := by
  cases step_cases h with
  | begins hp => exact .inl ⟨rfl, hp⟩
  | takes _ htake => exact .inr (take_manager (c := c.ticked) htake)
  | awaits _ hw =>
    exact .inr (await_manager (c := c.ticked) (·.exits (.ok ())) (fun _ => rfl) hw)
  | _ => exact .inr (.of_eq rfl)

/-- The manager of a run is the one of its setup after a run of its machine. -/
theorem run_manager {es : List Event} {bm : BarrierManager}
    (h : (controllerMachine s).run (Controller.new s) es = some c)
    (hbm : c.barrier_manager = some bm) :
    ∃ bm₀ fs, s.barrier_manager = some bm₀ ∧ managerMachine.run bm₀ fs = some bm := by
  have hstep : ∀ c e b, (∀ bm, c.barrier_manager = some bm →
      ∃ bm₀ fs, s.barrier_manager = some bm₀ ∧ managerMachine.run bm₀ fs = some bm) →
      (controllerMachine s).step c e = some b → ∀ bm, b.barrier_manager = some bm →
        ∃ bm₀ fs, s.barrier_manager = some bm₀ ∧ managerMachine.run bm₀ fs = some bm := by
    intro c e b hI hs bm hbm
    rcases step_manager hs with ⟨hb, _⟩ | hb
    · exact ⟨bm, [], hb ▸ hbm, rfl⟩
    · obtain ⟨bm₁, es₁, hc, hrun₁⟩ := hb bm hbm
      obtain ⟨bm₀, fs, h₀, hrun₀⟩ := hI bm₁ hc
      exact ⟨bm₀, fs ++ es₁, h₀, Machine.run_append_iff.mpr ⟨bm₁, hrun₀, hrun₁⟩⟩
  exact Machine.run_always hstep (fun bm hbm => by cases hbm) h bm hbm

/-! ## A release is a decision of the manager -/

/-- The manager that decides on barrier `k` when an event reports there. -/
def deciderAt (k : Nat) (c : Controller) (e : Event) : Option BarrierManager :=
  match c.phase, c.barrier_manager, e with
  | .Loop, some bm, .Stats stats _ _ =>
    if stats.at_barrier && stats.barrier_sequence = k then
      some ((bm.process_heartbeat stats.agent_id (progressOf stats)).agent_at_barrier
        stats.agent_id k k)
    else none
  | _, _, _ => none

/-- The agents that are released when the manager decides so. -/
def released (bm : Option BarrierManager) (k : Nat) : List String :=
  ((bm.bind (·.check_barrier_ready k)).map (·.ready_agents)).getD []

theorem report_releases (bm : BarrierManager) (id : String) (j : Nat) :
    releasesOf k (c.report bm id j).control = releasesOf k c.control ++
      if j = k then released (some (bm.agent_at_barrier id k k)) k else [] := by
  unfold report released
  dsimp only
  cases hc : (bm.agent_at_barrier id j j).check_barrier_ready j with
  | none =>
    by_cases hj : j = k
    · subst hj
      simp [hc]
    · simp [hj]
  | some info =>
    dsimp only
    rw [releasesOf_append, (BarrierManager.check_barrier_ready_some hc).1, releasesOf_releases]
    by_cases hj : j = k
    · subst hj
      simp [hc]
    · simp [hj]

theorem hear_releases (s : Setup) (stats : LiveStats) (turns : List BarrierManager.Turn)
    (tsv_written : Bool) (hp : c.phase = .Loop) :
    releasesOf k (c.hear s stats tsv_written).control =
      releasesOf k c.control ++ released (deciderAt k c (.Stats stats turns tsv_written)) k := by
  unfold deciderAt
  rw [hp]
  cases hbm : c.barrier_manager with
  | none =>
    rw [(hear_unmanaged s stats tsv_written hbm).2]
    simp [released]
  | some bm =>
    rw [(hear_managed s stats tsv_written hbm).2]
    by_cases hb : stats.at_barrier = true
    · simp only [hb, if_true, Bool.true_and, decide_eq_true_eq]
      rw [report_releases]
      by_cases hj : stats.barrier_sequence = k
      · simp [hj]
      · simp [hj, released]
    · simp [hb, released]

theorem deciderAt_other (h : ∀ stats turns tsv_written, e ≠ .Stats stats turns tsv_written) :
    deciderAt k c e = none := by
  unfold deciderAt
  cases e with
  | Stats stats turns tsv_written => exact absurd rfl (h stats turns tsv_written)
  | _ => split <;> first | rfl | simp_all

/-- What is released in one event is what the manager decides. -/
theorem step_releases (h : (controllerMachine s).step c e = some b) :
    releasesOf k b.control = releasesOf k c.control ++ released (deciderAt k c e) k := by
  -- nobody decides
  have hnone : deciderAt k c e = none → releasesOf k b.control = releasesOf k c.control →
      releasesOf k b.control = releasesOf k c.control ++ released (deciderAt k c e) k := by
    intro hd hb
    rw [hd, hb]
    exact (List.append_nil _).symm
  cases step_cases h with
  | @takes stats turns tsv_written _ hp htake =>
    have hheard := hear_releases (k := k) (c := c.ticked) s stats turns tsv_written hp
    obtain ⟨bm, _, ⟨rfl, _⟩ | ⟨_, msg, rfl⟩⟩ := take_cases htake
    · exact settle_barrier.trans hheard
    · exact hheard
  | answers hp => exact hnone (by simp only [deciderAt, hp]) rfl
  | begins hp => exact hnone (by simp only [deciderAt, hp]) rfl
  | fails hp => exact hnone (by simp only [deciderAt, hp]) rfl
  | aborts he => exact hnone (deciderAt_other he) rfl
  | closes _ => exact hnone (deciderAt_other (by simp)) (releasesOf_goodbye _)
  | awaits _ hw =>
    apply hnone (deciderAt_other (by simp))
    obtain ⟨bm, _, ⟨rfl, _⟩ | ⟨_, _, _, msg, _, _, rfl⟩⟩ := await_cases hw <;> rfl
  | _ => exact hnone (deciderAt_other (by simp)) rfl

end sai3_bench.controller
