-- What a replay accounts for: each loop only moves tasks from in flight to the totals, so
-- the totals agree in the end unless an operation is counted and then not spawned.
import Sai3Bench.Replays

namespace sai3_bench.replay_streaming

open oplog_merge (OpLogEntry Row entries)

/-! ## The properties -/

/-- The entries of the readings that can be read. -/
def read_entries (rows : List Reading) : List OpLogEntry := entries (rows.map (·.1))

/-- The rows that are rejected. -/
def rejected (rows : List Reading) : Nat :=
  (rows.filter fun row => row.1.toOption.isNone).length

/-- The replay returns, its totals agree, each row that was read and rejected is counted, and
no entry is executed twice. -/
def Accounted (runtime : Runtime) (config : ReplayRunConfig) (rows : List Reading) : Prop :=
  ∃ fuel stats spawned read unread,
    replay_workload_streaming runtime config rows fuel = some ⟨.Ok stats, spawned, unread⟩ ∧
      rows = read ++ unread ∧
      stats.total_operations = stats.completed_operations + stats.failed_operations ∧
      stats.skipped_operations = rejected read ∧
      (spawned.map (·.entry)).Sublist (read_entries read)

/-- Each entry has a delay, and the flap limit is never exceeded. -/
def Steady (runtime : Runtime) (first_time : Int) : BackpressureController → List Reading → Prop
  | _, [] => True
  | controller, (.error _, _) :: rows => Steady runtime first_time controller rows
  | controller, (.ok entry, moment) :: rows =>
    ∃ delay, delay_of runtime first_time entry = some delay ∧
      (controller.update (moment.now - delay) moment.recorded).1 = true ∧
      Steady runtime first_time (controller.update (moment.now - delay) moment.recorded).2 rows

/-- From the first entry on it is steady, and a second entry meets a limit of at least one. -/
def KeptUp (runtime : Runtime) (config : ReplayRunConfig) : List Reading → Prop
  | [] => True
  | (.error _, _) :: rows => KeptUp runtime config rows
  | (.ok first, _) :: rows =>
    Steady runtime first.start (controller config) rows ∧
      (1 ≤ config.max_concurrent.getD 1000 ∨ read_entries rows = [])

/-- What was counted and is neither in flight nor finished. -/
def Counted (s : Replay) (lost : Nat) : Prop :=
  s.stats.total_operations =
    s.stats.completed_operations + s.stats.failed_operations + s.tasks.length + lost

/-- What collecting results can do. -/
structure Collected (s s' : Replay) : Prop where
  total : s'.stats.total_operations = s.stats.total_operations
  finished :
    s'.stats.completed_operations + s'.stats.failed_operations + s'.tasks.length =
      s.stats.completed_operations + s.stats.failed_operations + s.tasks.length
  skipped : s'.stats.skipped_operations = s.stats.skipped_operations
  spawned : s'.spawned = s.spawned
  backpressure : s'.backpressure = s.backpressure
  tasks : s'.tasks.length ≤ s.tasks.length

section

variable {runtime : Runtime} {config : ReplayRunConfig} {s s' s'' : Replay} {fuel lost : Nat}
  {entry : OpLogEntry} {moment : Moment} {rows rest : List Reading} {first_time : Int}
  {flow : Flow}

theorem Collected.refl (s : Replay) : Collected s s :=
  ⟨rfl, rfl, rfl, rfl, rfl, Nat.le_refl _⟩

theorem Collected.trans (h : Collected s s') (h' : Collected s' s'') : Collected s s'' where
  total := h'.total.trans h.total
  finished := h'.finished.trans h.finished
  skipped := h'.skipped.trans h.skipped
  spawned := h'.spawned.trans h.spawned
  backpressure := h'.backpressure.trans h.backpressure
  tasks := Nat.le_trans h'.tasks h.tasks

theorem Collected.counted (h : Collected s s') (hs : Counted s lost) : Counted s' lost := by
  have htotal := h.total
  have hfinished := h.finished
  unfold Counted at hs ⊢
  omega

/-! ## Collecting -/

theorem handle_total (result : TaskResult) (stats : ReplayStats) :
    (handle_task_result result stats true).1 = .ok () ∧
      (handle_task_result result stats true).2.total_operations = stats.total_operations ∧
      (handle_task_result result stats true).2.skipped_operations = stats.skipped_operations ∧
      (handle_task_result result stats true).2.completed_operations +
          (handle_task_result result stats true).2.failed_operations =
        stats.completed_operations + stats.failed_operations + 1 := by
  cases result with
  | Completed => exact ⟨rfl, rfl, rfl, Nat.add_right_comm _ _ _⟩
  | Failed e => exact ⟨rfl, rfl, rfl, rfl⟩
  | Panicked e => exact ⟨rfl, rfl, rfl, rfl⟩

theorem collect_none : collect runtime true s = none ↔ s.tasks = [] := by
  unfold collect next
  cases htasks : s.tasks with
  | nil => simp
  | cons task tasks => simp

/-- One result is collected, if there is a task in flight. -/
theorem collect_some (runtime : Runtime) (htasks : s.tasks ≠ []) : ∃ s',
    collect runtime true s = some (.ok (), s') ∧ Collected s s' ∧
      s'.tasks.length + 1 = s.tasks.length := by
  have hpos := List.length_pos_of_ne_nil htasks
  have hempty : s.tasks.isEmpty = false := by
    rw [List.isEmpty_eq_false_iff]
    exact htasks
  obtain ⟨hok, htotal, hskipped, hfinished⟩ :=
    handle_total (runtime.completions s.collected).result s.stats
  have hlength : (s.tasks.eraseIdx ((runtime.completions s.collected).place %
      s.tasks.length)).length + 1 = s.tasks.length := by
    rw [List.length_eraseIdx_of_lt (Nat.mod_lt _ hpos)]
    omega
  have hcollect : collect runtime true s = some
      ((handle_task_result (runtime.completions s.collected).result s.stats true).1,
        { s with
          stats := (handle_task_result (runtime.completions s.collected).result s.stats true).2
          tasks := s.tasks.eraseIdx ((runtime.completions s.collected).place % s.tasks.length)
          collected := s.collected + 1 }) := by
    unfold collect next
    rw [hempty]
    rfl
  rw [hok] at hcollect
  refine ⟨_, hcollect, ⟨htotal, ?_, hskipped, rfl, rfl, ?_⟩, hlength⟩
  · dsimp only
    omega
  · dsimp only
    omega

/-- The first loop collects, if it comes to an end. -/
theorem poll_collected (h : config.continue_on_error = true) {r : Except String Unit × Replay}
    (hpoll : poll_completed runtime config fuel s = some r) :
    r.1 = .ok () ∧ Collected s r.2 ∧ r.2.tasks.length < config.max_concurrent.getD 1000 := by
  induction fuel generalizing s with
  | zero => cases hpoll
  | succ fuel ih =>
    unfold poll_completed at hpoll
    split at hpoll
    · next hfew =>
      cases hpoll
      exact ⟨rfl, .refl s, hfew⟩
    · by_cases htasks : s.tasks = []
      · rw [h, collect_none.mpr htasks] at hpoll
        exact ih hpoll
      · obtain ⟨s', hcollect, hs', -⟩ := collect_some runtime htasks
        rw [h, hcollect] at hpoll
        obtain ⟨hok, hcollected, hfew⟩ := ih hpoll
        exact ⟨hok, hs'.trans hcollected, hfew⟩

/-- It comes to an end where the limit lets a task be in flight. -/
theorem poll_ends (runtime : Runtime) (h : config.continue_on_error = true)
    (hlimit : 1 ≤ config.max_concurrent.getD 1000) (hfuel : s.tasks.length < fuel) :
    ∃ s', poll_completed runtime config fuel s = some (.ok (), s') ∧ Collected s s' := by
  induction fuel generalizing s with
  | zero => cases hfuel
  | succ fuel ih =>
    unfold poll_completed
    split
    · exact ⟨s, rfl, .refl s⟩
    · next hmany =>
      have htasks : s.tasks ≠ [] := by
        intro hnil
        rw [hnil] at hmany
        exact hmany hlimit
      obtain ⟨s', hcollect, hs', hlength⟩ := collect_some runtime htasks
      rw [h, hcollect]
      obtain ⟨s'', hpoll, hs''⟩ := ih (s := s') (by omega)
      exact ⟨s'', hpoll, hs'.trans hs''⟩

theorem drain_collected (runtime : Runtime) (polls : List (Nat × Bool)) (s : Replay) :
    ∃ s', drain runtime polls s = (.ok (), s') ∧ Collected s s' := by
  induction polls generalizing s with
  | nil => exact ⟨s, rfl, .refl s⟩
  | cons poll polls ih =>
    unfold drain
    split
    · exact ⟨s, rfl, .refl s⟩
    · next hgoes =>
      split
      · exact ih s
      · have htasks : s.tasks ≠ [] := by
          intro hnil
          rw [hnil] at hgoes
          exact hgoes (.inl rfl)
        obtain ⟨s', hcollect, hs', -⟩ := collect_some runtime htasks
        rw [hcollect]
        obtain ⟨s'', hdrain, hs''⟩ := ih s'
        exact ⟨s'', hdrain, hs'.trans hs''⟩

theorem wait_collected (h : config.continue_on_error = true) {r : Except String Unit × Replay}
    (hwait : wait_remaining runtime config fuel s = some r) :
    r.1 = .ok () ∧ Collected s r.2 ∧ r.2.tasks = [] := by
  induction fuel generalizing s with
  | zero => cases hwait
  | succ fuel ih =>
    unfold wait_remaining at hwait
    by_cases htasks : s.tasks = []
    · rw [h, collect_none.mpr htasks] at hwait
      cases hwait
      exact ⟨rfl, .refl s, htasks⟩
    · obtain ⟨s', hcollect, hs', -⟩ := collect_some runtime htasks
      rw [h, hcollect] at hwait
      obtain ⟨hok, hcollected, hempty⟩ := ih hwait
      exact ⟨hok, hs'.trans hcollected, hempty⟩

theorem wait_ends (runtime : Runtime) (h : config.continue_on_error = true) (hfuel : s.tasks.length < fuel) :
    ∃ r, wait_remaining runtime config fuel s = some r := by
  induction fuel generalizing s with
  | zero => cases hfuel
  | succ fuel ih =>
    unfold wait_remaining
    by_cases htasks : s.tasks = []
    · rw [h, collect_none.mpr htasks]
      exact ⟨_, rfl⟩
    · obtain ⟨s', hcollect, hs', hlength⟩ := collect_some runtime htasks
      rw [h, hcollect]
      exact ih (by omega)

/-! ## An entry -/

theorem track_collected (prev_mode : ReplayMode) (now : Nat) (s : Replay) :
    Collected s (track_mode prev_mode now s) := by
  unfold track_mode
  split
  · exact .refl s
  · split
    · exact ⟨rfl, rfl, rfl, rfl, rfl, Nat.le_refl _⟩
    · split
      · exact .refl s
      · exact ⟨rfl, rfl, rfl, rfl, rfl, Nat.le_refl _⟩

/-- What the controller says to an entry. -/
def updated (s : Replay) (moment : Moment) (delay : Nat) : Bool × BackpressureController :=
  s.backpressure.update (moment.now - delay) moment.recorded

/-- What an entry does to a replay that goes on. -/
structure Spawned (s s' : Replay) (entry : OpLogEntry) : Prop where
  counted : ∀ lost, Counted s lost → Counted s' lost
  skipped : s'.stats.skipped_operations = s.stats.skipped_operations
  spawned : s'.spawned.map (·.entry) = s.spawned.map (·.entry) ++ [entry]
  tasks : s'.tasks.length ≤ s.tasks.length + 1

/-- What an entry does at the flap limit: it is counted, and not spawned. -/
structure Dropped (s s' : Replay) : Prop where
  counted : ∀ lost, Counted s lost → Counted s' (lost + 1)
  skipped : s'.stats.skipped_operations = s.stats.skipped_operations
  spawned : s'.spawned = s.spawned
  tasks : s'.tasks.length ≤ s.tasks.length

/-- The statistics with an entry more. -/
def with_entry (s : Replay) (moment : Moment) (delay : Nat) : Replay :=
  { s with
    stats :=
      { s.stats with
        total_operations := s.stats.total_operations + 1
        peak_lag := max s.stats.peak_lag (moment.now - delay) }
    backpressure := (updated s moment delay).2 }

theorem replay_entry_panic (config : ReplayRunConfig) (fuel : Nat) (moment : Moment)
    (s : Replay) (hdelay : delay_of runtime first_time entry = none) :
    ∃ s', replay_entry runtime config fuel first_time entry moment s = some (.Panic, s') := by
  unfold replay_entry
  rw [hdelay]
  exact ⟨_, rfl⟩

theorem replay_entry_flap (config : ReplayRunConfig) (fuel : Nat) {delay : Nat}
    (hdelay : delay_of runtime first_time entry = some delay)
    (hflap : (updated s moment delay).1 = false) : ∃ s',
    replay_entry runtime config fuel first_time entry moment s = some (.Flap, s') ∧
      Dropped s s' := by
  obtain ⟨s', hdrain, hs'⟩ := drain_collected runtime runtime.drain_polls
    (with_entry s moment delay)
  have hupdate : s.backpressure.update (moment.now - delay) moment.recorded =
      (false, (updated s moment delay).2) := by
    rw [← hflap]
    rfl
  refine ⟨{ s' with stats := { s'.stats with flap_exit := true } }, ?_, ?_⟩
  · unfold replay_entry
    rw [hdelay]
    dsimp only
    rw [hupdate]
    unfold with_entry at hdrain
    dsimp only at hdrain ⊢
    rw [hdrain]
  · have htotal := hs'.total
    have hfinished := hs'.finished
    refine ⟨fun lost hs => ?_, hs'.skipped, hs'.spawned, hs'.tasks⟩
    simp only [Counted, with_entry] at hs htotal hfinished ⊢
    omega

/-- The replay with the entry in flight. -/
def with_task (s : Replay) (moment : Moment) (delay : Nat) (entry : OpLogEntry) : Replay :=
  spawn_operation entry delay
    (track_mode s.backpressure.mode moment.switched (with_entry s moment delay))

theorem replay_entry_eq {delay : Nat} (hdelay : delay_of runtime first_time entry = some delay)
    (hgoes : (updated s moment delay).1 = true) :
    replay_entry runtime config fuel first_time entry moment s =
      match poll_completed runtime config fuel (with_task s moment delay entry) with
      | none => none
      | some (.error e, s) => some (.Err e, s)
      | some (.ok _, s) => some (.Next, s) := by
  have hupdate : s.backpressure.update (moment.now - delay) moment.recorded =
      (true, (updated s moment delay).2) := by
    rw [← hgoes]
    rfl
  unfold replay_entry
  rw [hdelay]
  dsimp only
  rw [hupdate]
  rfl

theorem with_task_spawned {delay : Nat} (h : Collected (with_task s moment delay entry) s') :
    Spawned s s' entry ∧ s'.backpressure = (updated s moment delay).2 := by
  have htrack := track_collected s.backpressure.mode moment.switched (with_entry s moment delay)
  have htotal := h.total.trans htrack.total
  have hfinished := h.finished
  have htasks := h.tasks
  have htracked := htrack.finished
  have hkept := htrack.tasks
  have hlength : (with_task s moment delay entry).tasks.length =
      (track_mode s.backpressure.mode moment.switched
        (with_entry s moment delay)).tasks.length + 1 := List.length_append
  refine ⟨⟨fun lost hs => ?_, h.skipped.trans htrack.skipped, ?_, ?_⟩,
    h.backpressure.trans htrack.backpressure⟩
  · change s'.stats.completed_operations + s'.stats.failed_operations + s'.tasks.length =
      (track_mode s.backpressure.mode moment.switched
          (with_entry s moment delay)).stats.completed_operations +
        (track_mode s.backpressure.mode moment.switched
          (with_entry s moment delay)).stats.failed_operations +
        (with_task s moment delay entry).tasks.length at hfinished
    simp only [Counted, with_entry] at hs htotal htracked hfinished hlength ⊢
    omega
  · rw [h.spawned]
    change ((track_mode s.backpressure.mode moment.switched
      (with_entry s moment delay)).spawned ++ [_]).map (fun task : Task => task.entry) = _
    rw [htrack.spawned, List.map_append]
    rfl
  · have hsame : (with_entry s moment delay).tasks.length = s.tasks.length := rfl
    omega

/-- What an entry can do: a panic, the flap limit, or one task more. -/
theorem replay_entry_cases (h : config.continue_on_error = true)
    (hentry : replay_entry runtime config fuel first_time entry moment s = some (flow, s')) :
    flow = .Panic ∨ flow = .Flap ∧ Dropped s s' ∨
      flow = .Next ∧ Spawned s s' entry ∧ 1 ≤ config.max_concurrent.getD 1000 ∧
        ∃ delay, delay_of runtime first_time entry = some delay ∧
          (updated s moment delay).1 = true ∧ s'.backpressure = (updated s moment delay).2 := by
  cases hdelay : delay_of runtime first_time entry with
  | none =>
    obtain ⟨s'', hpanic⟩ := replay_entry_panic config fuel moment s hdelay
    rw [hpanic] at hentry
    cases hentry
    exact .inl rfl
  | some delay =>
    cases hgoes : (updated s moment delay).1 with
    | false =>
      obtain ⟨s'', hflap, hdropped⟩ := replay_entry_flap config fuel hdelay hgoes
      rw [hflap] at hentry
      cases hentry
      exact .inr (.inl ⟨rfl, hdropped⟩)
    | true =>
      rw [replay_entry_eq hdelay hgoes] at hentry
      cases hpoll : poll_completed runtime config fuel (with_task s moment delay entry) with
      | none =>
        rw [hpoll] at hentry
        cases hentry
      | some r =>
        obtain ⟨hok, hcollected, hfew⟩ := poll_collected h hpoll
        obtain ⟨handled, s''⟩ := r
        cases hok
        rw [hpoll] at hentry
        cases hentry
        obtain ⟨hspawned, hbackpressure⟩ := with_task_spawned hcollected
        exact .inr (.inr ⟨rfl, hspawned, by omega, delay, rfl, hgoes, hbackpressure⟩)

/-- Under a limit of at least one, an entry with a delay that meets no flap limit is spawned. -/
theorem replay_entry_next (h : config.continue_on_error = true)
    (hlimit : 1 ≤ config.max_concurrent.getD 1000) {delay : Nat}
    (hdelay : delay_of runtime first_time entry = some delay)
    (hgoes : (updated s moment delay).1 = true) (hfuel : s.tasks.length + 1 < fuel) :
    ∃ s', replay_entry runtime config fuel first_time entry moment s = some (.Next, s') ∧
      Spawned s s' entry ∧ s'.backpressure = (updated s moment delay).2 := by
  have hstart := with_task_spawned (.refl (with_task s moment delay entry))
  have hlength : (with_task s moment delay entry).tasks.length < fuel :=
    Nat.lt_of_le_of_lt hstart.1.tasks hfuel
  obtain ⟨s', hpoll, hcollected⟩ := poll_ends runtime h hlimit hlength
  refine ⟨s', ?_, with_task_spawned hcollected⟩
  rw [replay_entry_eq hdelay hgoes, hpoll]

/-! ## The rows -/

/-- What the rows that were read have done. -/
structure RowsRead (s s' : Replay) (read : List Reading) (lost : Nat) : Prop where
  counted : Counted s 0 → Counted s' lost
  skipped : s'.stats.skipped_operations = s.stats.skipped_operations + rejected read
  spawned : ∃ done, s'.spawned.map (·.entry) = s.spawned.map (·.entry) ++ done ∧
    done.Sublist (read_entries read)

theorem RowsRead.nil (s : Replay) : RowsRead s s [] 0 :=
  ⟨fun h => h, rfl, [], (List.append_nil _).symm, .slnil⟩

theorem RowsRead.rejected_row {e : String} {read : List Reading}
    (h : RowsRead
      { s with stats := { s.stats with skipped_operations := s.stats.skipped_operations + 1 } }
      s' read lost) : RowsRead s s' ((.error e, moment) :: read) lost where
  counted := h.counted
  skipped := by
    rw [h.skipped]
    exact Nat.add_right_comm _ _ _
  spawned := h.spawned

theorem RowsRead.spawned_row {read : List Reading} (hentry : Spawned s s' entry)
    (h : RowsRead s' s'' read lost) : RowsRead s s'' ((.ok entry, moment) :: read) lost where
  counted hs := h.counted (hentry.counted 0 hs)
  skipped := by
    rw [h.skipped, hentry.skipped]
    rfl
  spawned := by
    obtain ⟨done, hdone, hsub⟩ := h.spawned
    refine ⟨entry :: done, ?_, hsub.cons_cons entry⟩
    rw [hdone, hentry.spawned, List.append_assoc]
    rfl

theorem RowsRead.dropped (h : Dropped s s') : RowsRead s s' [(.ok entry, moment)] 1 where
  counted := h.counted 0
  skipped := h.skipped
  spawned := ⟨[], by rw [h.spawned, List.append_nil], List.nil_sublist _⟩

/-- A pass over the rows that comes to an end. -/
theorem replay_rows_cases (h : config.continue_on_error = true)
    (hrows : replay_rows runtime config fuel first_time rows s = some (flow, s', rest)) :
    flow = .Panic ∨ ∃ read, rows = read ++ rest ∧
      (flow = .Flap ∧ RowsRead s s' read 1 ∨
        flow = .Next ∧ RowsRead s s' read 0 ∧ Steady runtime first_time s.backpressure rows ∧
          (1 ≤ config.max_concurrent.getD 1000 ∨ read_entries rows = [])) := by
  induction rows generalizing s with
  | nil =>
    cases hrows
    exact .inr ⟨[], rfl, .inr ⟨rfl, .nil _, trivial, .inr rfl⟩⟩
  | cons row rows ih =>
    obtain ⟨row, moment⟩ := row
    cases row with
    | error e =>
      unfold replay_rows at hrows
      rw [h, if_pos rfl] at hrows
      rcases ih hrows with hpanic | ⟨read, rfl, ⟨hflap, hread⟩ | ⟨hnext, hread, hsteady⟩⟩
      · exact .inl hpanic
      · exact .inr ⟨(.error e, moment) :: read, rfl, .inl ⟨hflap, hread.rejected_row⟩⟩
      · exact .inr ⟨(.error e, moment) :: read, rfl, .inr ⟨hnext, hread.rejected_row, hsteady⟩⟩
    | ok entry =>
      unfold replay_rows at hrows
      cases hentry : replay_entry runtime config fuel first_time entry moment s with
      | none =>
        rw [hentry] at hrows
        cases hrows
      | some r =>
        obtain ⟨went, s₁⟩ := r
        rw [hentry] at hrows
        rcases replay_entry_cases h hentry with rfl | ⟨rfl, hdropped⟩ |
          ⟨rfl, hspawned, hlimit, delay, hdelay, hgoes, hbackpressure⟩
        · cases hrows
          exact .inl rfl
        · cases hrows
          exact .inr ⟨[(.ok entry, moment)], rfl, .inl ⟨rfl, .dropped hdropped⟩⟩
        · rcases ih hrows with hpanic | ⟨read, rfl, ⟨hflap, hread⟩ | ⟨hnext, hread, hsteady, -⟩⟩
          · exact .inl hpanic
          · exact .inr ⟨(.ok entry, moment) :: read, rfl, .inl ⟨hflap, hread.spawned_row hspawned⟩⟩
          · rw [hbackpressure] at hsteady
            exact .inr ⟨(.ok entry, moment) :: read, rfl,
              .inr ⟨hnext, hread.spawned_row hspawned, ⟨delay, hdelay, hgoes, hsteady⟩,
                .inl hlimit⟩⟩

/-- A steady pass comes to an end. -/
theorem replay_rows_ends (h : config.continue_on_error = true)
    (hlimit : 1 ≤ config.max_concurrent.getD 1000 ∨ read_entries rows = [])
    (hsteady : Steady runtime first_time s.backpressure rows)
    (hfuel : s.tasks.length + rows.length < fuel) : ∃ s',
    replay_rows runtime config fuel first_time rows s = some (.Next, s', []) ∧
      s'.tasks.length < fuel := by
  induction rows generalizing s with
  | nil => exact ⟨s, rfl, hfuel⟩
  | cons row rows ih =>
    obtain ⟨row, moment⟩ := row
    rw [List.length_cons] at hfuel
    cases row with
    | error e =>
      unfold replay_rows
      rw [h, if_pos rfl]
      exact ih (s := { s with
        stats := { s.stats with skipped_operations := s.stats.skipped_operations + 1 } })
        hlimit hsteady (by dsimp only; omega)
    | ok entry =>
      obtain ⟨delay, hdelay, hgoes, hrest⟩ := hsteady
      rcases hlimit with hlimit | hnone
      · have hroom : s.tasks.length + 1 < fuel := by omega
        obtain ⟨s', hentry, hspawned, hbackpressure⟩ :=
          replay_entry_next h hlimit hdelay hgoes hroom
        have htasks := hspawned.tasks
        obtain ⟨s'', hrows, hlength⟩ := ih (s := s') (.inl hlimit)
          (by rw [hbackpressure]; exact hrest) (by omega)
        refine ⟨s'', ?_, hlength⟩
        unfold replay_rows
        rw [hentry]
        exact hrows
      · cases hnone

/-! ## The whole replay -/

/-- The end of a replay, where it comes to one. -/
theorem finish_cases (h : config.continue_on_error = true) {r : Replayed}
    (hfinish : finish runtime config fuel rest s = some r) : ∃ stats,
    r = ⟨.Ok stats, s.spawned, rest⟩ ∧
      stats.skipped_operations = s.stats.skipped_operations ∧
      (Counted s lost → stats.total_operations =
        stats.completed_operations + stats.failed_operations + lost) := by
  unfold finish at hfinish
  dsimp only at hfinish
  split at hfinish
  · cases hfinish
  · next e s' hwait =>
    cases (wait_collected h hwait).1
  · next s' hwait =>
    obtain ⟨-, hcollected, hempty⟩ := wait_collected h hwait
    cases hfinish
    refine ⟨{ s'.stats with mode_transitions := s'.backpressure.total_transitions }, ?_,
      hcollected.skipped, fun hs => ?_⟩
    · have hspawned : s'.spawned = s.spawned := hcollected.spawned
      rw [hspawned]
    · have htotal := hcollected.total
      have hfinished := hcollected.finished
      rw [hempty, List.length_nil] at hfinished
      simp only [Counted] at hs htotal hfinished ⊢
      omega

theorem finish_ends (runtime : Runtime) (rest : List Reading) (h : config.continue_on_error = true) (hfuel : s.tasks.length < fuel) :
    ∃ r, finish runtime config fuel rest s = some r := by
  unfold finish
  obtain ⟨⟨handled, s'⟩, hwait⟩ := wait_ends runtime
    (s := { s with
      stats := { s.stats with
        best_effort_time := s.stats.best_effort_time +
          (s.best_effort_start.map fun start => runtime.finished - start).getD 0 } }) h hfuel
  dsimp only
  rw [hwait]
  cases handled with
  | error e => exact ⟨_, rfl⟩
  | ok u => exact ⟨_, rfl⟩

/-- The replay when its first entry is in flight. -/
def started (config : ReplayRunConfig) (stats : ReplayStats) (first : OpLogEntry) : Replay :=
  spawn_operation first 0
    { stats := { stats with total_operations := stats.total_operations + 1 }
      backpressure := controller config }

theorem started_counted {stats : ReplayStats} {first : OpLogEntry}
    (hstats : stats.total_operations = stats.completed_operations + stats.failed_operations) :
    Counted (started config stats first) 0 := by
  change stats.total_operations + 1 =
    stats.completed_operations + stats.failed_operations + 1 + 0
  omega

theorem rejected_append (read : List Reading) :
    rejected (read ++ rest) = rejected read + rejected rest := by
  unfold rejected
  rw [List.filter_append, List.length_append]

theorem read_entries_append (read : List Reading) :
    read_entries (read ++ rest) = read_entries read ++ read_entries rest := by
  unfold read_entries entries
  rw [List.map_append, List.filterMap_append]

/-- The statistics after rows that are rejected. -/
def skipping (stats : ReplayStats) (rows : List Reading) : ReplayStats :=
  { stats with skipped_operations := stats.skipped_operations + rejected rows }

/-- All rows are rejected, or the first entry stands after some that are. -/
theorem first_entry_cases (runtime : Runtime) (h : config.continue_on_error = true) (stats : ReplayStats)
    (rows : List Reading) :
    (first_entry config rows stats = (.ok none, skipping stats rows, []) ∧
        KeptUp runtime config rows) ∨
      ∃ first moment read rest, rows = read ++ (.ok first, moment) :: rest ∧
        first_entry config rows stats = (.ok (some first), skipping stats read, rest) ∧
        (KeptUp runtime config rows ↔ Steady runtime first.start (controller config) rest ∧
          (1 ≤ config.max_concurrent.getD 1000 ∨ read_entries rest = [])) := by
  induction rows generalizing stats with
  | nil => exact .inl ⟨rfl, trivial⟩
  | cons row rows ih =>
    obtain ⟨row, moment⟩ := row
    cases row with
    | ok entry => exact .inr ⟨entry, moment, [], rows, rfl, rfl, .rfl⟩
    | error e =>
      have hstats : ∀ read : List Reading,
          skipping { stats with skipped_operations := stats.skipped_operations + 1 } read =
            skipping stats ((.error e, moment) :: read) := by
        intro read
        unfold skipping
        congr 1
        exact Nat.add_right_comm _ _ _
      unfold first_entry
      rw [h, if_pos rfl]
      rcases ih { stats with skipped_operations := stats.skipped_operations + 1 } with
        ⟨hfirst, hkept⟩ | ⟨first, moment', read, rest, rfl, hfirst, hkept⟩
      · exact .inl ⟨by rw [hfirst, hstats], hkept⟩
      · exact .inr ⟨first, moment', (.error e, moment) :: read, rest, rfl,
          by rw [hfirst, hstats], hkept⟩

/-- A replay after its first entry: how the pass over the rows ends says what it returns. -/
theorem replay_eq {first : OpLogEntry} {stats : ReplayStats}
    (hfirst : first_entry config rows {} = (.ok (some first), stats, rest)) :
    replay_workload_streaming runtime config rows fuel =
      match replay_rows runtime config fuel first.start rest (started config stats first) with
      | none => none
      | some (.Err e, s, rows) => some ⟨.Err e, s.spawned, rows⟩
      | some (.Panic, s, rows) => some ⟨.Panic, s.spawned, rows⟩
      | some (.Flap, s, rows) | some (.Next, s, rows) => finish runtime config fuel rows s := by
  unfold replay_workload_streaming
  rw [hfirst]
  rfl

/-- What a replay returns, by what was read after its first entry. -/
theorem finish_counts (moment : Moment) (h : config.continue_on_error = true) {first : OpLogEntry}
    {before read : List Reading} {r : Replayed}
    (hread : RowsRead (started config (skipping {} before) first) s read lost)
    (hfinish : finish runtime config fuel rest s = some r) : ∃ stats spawned,
    r = ⟨.Ok stats, spawned, rest⟩ ∧
      stats.total_operations = stats.completed_operations + stats.failed_operations + lost ∧
      stats.skipped_operations = rejected (before ++ (.ok first, moment) :: read) ∧
      (spawned.map (·.entry)).Sublist (read_entries (before ++ (.ok first, moment) :: read)) := by
  obtain ⟨stats, rfl, hskipped, htotal⟩ := finish_cases h hfinish
  obtain ⟨done, hspawned, hsub⟩ := hread.spawned
  refine ⟨stats, s.spawned, rfl, htotal (hread.counted (started_counted rfl)), ?_, ?_⟩
  · rw [hskipped, hread.skipped, rejected_append]
    change 0 + rejected before + rejected read = rejected before + rejected read
    omega
  · rw [hspawned, read_entries_append]
    exact (hsub.cons_cons first).trans (List.sublist_append_right _ _)

/-- Whatever ends it, a replay that returns has counted at most one operation too many, each
row that it rejected, and has executed no entry twice. -/
theorem replay_ok_counts (h : config.continue_on_error = true) {stats : ReplayStats}
    {spawned : List Task}
    (hreplay : replay_workload_streaming runtime config rows fuel =
      some ⟨.Ok stats, spawned, rest⟩) : ∃ read lost, rows = read ++ rest ∧ lost ≤ 1 ∧
    stats.total_operations = stats.completed_operations + stats.failed_operations + lost ∧
    stats.skipped_operations = rejected read ∧
    (spawned.map (·.entry)).Sublist (read_entries read) ∧
    (lost = 0 → KeptUp runtime config rows) := by
  rcases first_entry_cases runtime h {} rows with
    ⟨hfirst, hkept⟩ | ⟨first, moment, before, after, rfl, hfirst, hkept⟩
  · unfold replay_workload_streaming at hreplay
    rw [hfirst] at hreplay
    cases hreplay
    exact ⟨rows, 0, (List.append_nil rows).symm, Nat.zero_le 1, rfl, Nat.zero_add _,
      List.nil_sublist _, fun _ => hkept⟩
  · rw [replay_eq hfirst] at hreplay
    split at hreplay
    · cases hreplay
    · cases hreplay
    · cases hreplay
    · next s' unread hrows =>
      rcases replay_rows_cases h hrows with hflow | ⟨read, rfl, ⟨-, hread⟩ | ⟨hflow, -⟩⟩
      · cases hflow
      · obtain ⟨stats', spawned', hr, htotal, hskipped, hsub⟩ :=
          finish_counts moment h hread hreplay
        cases hr
        exact ⟨before ++ (.ok first, moment) :: read, 1, by rw [List.append_assoc]; rfl,
          Nat.le_refl 1, htotal, hskipped, hsub, fun hlost => absurd hlost Nat.one_ne_zero⟩
      · cases hflow
    · next s' unread hrows =>
      rcases replay_rows_cases h hrows with hflow | ⟨read, rfl, ⟨hflow, -⟩ | ⟨-, hread, hsteady⟩⟩
      · cases hflow
      · cases hflow
      · obtain ⟨stats', spawned', hr, htotal, hskipped, hsub⟩ :=
          finish_counts moment h hread hreplay
        cases hr
        exact ⟨before ++ (.ok first, moment) :: read, 0, by rw [List.append_assoc]; rfl,
          Nat.zero_le 1, htotal, hskipped, hsub, fun _ => hkept.mpr hsteady⟩

/-- A replay that keeps up accounts for all. -/
theorem kept_up_accounted (h : config.continue_on_error = true)
    (hkept : KeptUp runtime config rows) : Accounted runtime config rows := by
  rcases first_entry_cases runtime h {} rows with
    ⟨hfirst, -⟩ | ⟨first, moment, before, rest, rfl, hfirst, hsteady⟩
  · refine ⟨0, skipping {} rows, [], rows, [], ?_, (List.append_nil rows).symm, rfl,
      Nat.zero_add _, List.nil_sublist _⟩
    unfold replay_workload_streaming
    rw [hfirst]
  · obtain ⟨hsteady, hlimit⟩ := hsteady.mp hkept
    have hfuel : (started config (skipping {} before) first).tasks.length + rest.length <
        rest.length + 2 := by
      change 1 + rest.length < rest.length + 2
      omega
    obtain ⟨s', hrows, hlength⟩ := replay_rows_ends h hlimit hsteady hfuel
    obtain ⟨r, hfinish⟩ := finish_ends runtime [] h hlength
    rcases replay_rows_cases h hrows with hflow | ⟨read, hread, ⟨hflow, -⟩ | ⟨-, hdone, -⟩⟩
    · cases hflow
    · cases hflow
    · rw [List.append_nil] at hread
      subst hread
      obtain ⟨stats, spawned, rfl, htotal, hskipped, hsub⟩ :=
        finish_counts moment h hdone hfinish
      refine ⟨rest.length + 2, stats, spawned, before ++ (.ok first, moment) :: rest, [], ?_,
        (List.append_nil _).symm, htotal, hskipped, hsub⟩
      rw [replay_eq hfirst, hrows]
      exact hfinish

/-- A limit of zero: the loop after the second operation never ends. -/
theorem hangs_without_limit (h : config.continue_on_error = true)
    (hlimit : config.max_concurrent = some 0) (hrows : read_entries rows ≠ [])
    (hsteady : Steady runtime first_time s.backpressure rows) (fuel : Nat) :
    replay_rows runtime config fuel first_time rows s = none := by
  induction rows generalizing s with
  | nil => exact absurd rfl hrows
  | cons row rows ih =>
    obtain ⟨row, moment⟩ := row
    cases row with
    | error e =>
      unfold replay_rows
      rw [h, if_pos rfl]
      exact ih hrows hsteady
    | ok entry =>
      obtain ⟨delay, hdelay, hgoes, -⟩ := hsteady
      unfold replay_rows
      rw [replay_entry_eq hdelay hgoes]
      cases hpoll : poll_completed runtime config fuel (with_task s moment delay entry) with
      | none => rfl
      | some r =>
        have hfew := (poll_collected h hpoll).2.2
        rw [hlimit] at hfew
        cases hfew

end

/-- With errors continued, a replay accounts for its operations where it keeps up: each delay
is a duration, the flap limit is never exceeded, and the limit of the operations in flight is
at least one where a second entry comes. -/
theorem replay_accounted_iff (runtime : Runtime) (config : ReplayRunConfig)
    (rows : List Reading) (h : config.continue_on_error = true) :
    Accounted runtime config rows ↔ KeptUp runtime config rows := by
  constructor
  · rintro ⟨fuel, stats, spawned, read, unread, hreplay, -, htotal, -, -⟩
    obtain ⟨read', lost, -, -, hlost, -, -, hkept⟩ := replay_ok_counts h hreplay
    exact hkept (by omega)
  · exact kept_up_accounted h

/-- A read at a time of the log. -/
def read_at (start : Int) : OpLogEntry := ⟨.GET, 0, [], [], none, start, none⟩

/-- Delays as in the log, and tasks that finish in order. -/
def on_time : Runtime := ⟨some, fun _ => ⟨0, .Completed⟩, [(0, true)], 0⟩

theorem replay_accounted_two_reads :
    Accounted on_time { continue_on_error := true, max_concurrent := some 1 }
      [(.ok (read_at 0), ⟨0, 0, 0⟩), (.error "DELETE_PREFIX", ⟨0, 0, 0⟩),
        (.ok (read_at 1), ⟨1, 1, 1⟩)] := by
  refine (replay_accounted_iff _ _ _ rfl).mpr ⟨⟨1, rfl, rfl, trivial⟩, .inl (Nat.le_refl 1)⟩

/-- Six seconds of lag, where no flap is allowed: the second read is counted and not made. -/
theorem replay_counts_too_many : ¬ ∀ (runtime : Runtime) (config : ReplayRunConfig)
    (rows : List Reading), config.continue_on_error = true → Accounted runtime config rows := by
  intro h
  obtain ⟨fuel, stats, spawned, read, unread, hreplay, -, htotal, -, -⟩ := h on_time
    { continue_on_error := true, backpressure := some { max_flaps_per_minute := 0 } }
    [(.ok (read_at 0), ⟨0, 0, 0⟩), (.ok (read_at 0), ⟨6000000000, 6000000000, 6000000000⟩)] rfl
  cases fuel with
  | zero => cases hreplay
  | succ fuel =>
    cases hreplay
    cases htotal

end sai3_bench.replay_streaming
