-- The totals that the controller computes when its loop is over, against the
-- counters that the agents have sent for the workload.
import Sai3Bench.StageTurns

namespace sai3_bench.controller

open config machines pb Controller

/-! ## The totals -/

/-- The part of `AggregateStats` that is no floating point number. -/
structure AggregateStats where
  num_agents : Nat
  expected_agents : Nat
  total_get_ops : Nat := 0
  total_get_bytes : Nat := 0
  total_put_ops : Nat := 0
  total_put_bytes : Nat := 0
  total_meta_ops : Nat := 0
  total_concurrency : Nat := 0

/-- The sums are of 64 bits, that of the concurrency of 32. -/
def LiveStatsAggregator.aggregate (a : LiveStatsAggregator) : AggregateStats :=
  a.agent_stats.values.foldl (fun agg stats => { agg with
      total_get_ops := (agg.total_get_ops + stats.get_ops) % 2 ^ 64
      total_get_bytes := (agg.total_get_bytes + stats.get_bytes) % 2 ^ 64
      total_put_ops := (agg.total_put_ops + stats.put_ops) % 2 ^ 64
      total_put_bytes := (agg.total_put_bytes + stats.put_bytes) % 2 ^ 64
      total_meta_ops := (agg.total_meta_ops + stats.meta_ops) % 2 ^ 64
      total_concurrency := (agg.total_concurrency + stats.concurrency) % 2 ^ 32 })
    { num_agents := a.agent_stats.size, expected_agents := a.expected_agents }

/-- The counters that are totalled. -/
inductive Counter
  | get_ops
  | get_bytes
  | put_ops
  | put_bytes
  | meta_ops
deriving DecidableEq, Repr

/-- The counter in a message. -/
def Counter.of (k : Counter) (stats : LiveStats) : Nat :=
  match k with
  | .get_ops => stats.get_ops
  | .get_bytes => stats.get_bytes
  | .put_ops => stats.put_ops
  | .put_bytes => stats.put_bytes
  | .meta_ops => stats.meta_ops

/-- The total of the counter. -/
def Counter.total (k : Counter) (agg : AggregateStats) : Nat :=
  match k with
  | .get_ops => agg.total_get_ops
  | .get_bytes => agg.total_get_bytes
  | .put_ops => agg.total_put_ops
  | .put_bytes => agg.total_put_bytes
  | .meta_ops => agg.total_meta_ops

variable {k : Counter} {id : String} {s : Setup} {c b : Controller} {e : Event} {stats : LiveStats}
  {es : List Event}

theorem aggregate_total (a : LiveStatsAggregator) :
    k.total a.aggregate = (a.agent_stats.values.map k.of).sum % 2 ^ 64 := by
  unfold LiveStatsAggregator.aggregate
  -- one more entry adds its counter
  have hfold : ∀ (ls : List LiveStats) (agg : AggregateStats), k.total agg < 2 ^ 64 →
      k.total (ls.foldl (fun agg stats => { agg with
        total_get_ops := (agg.total_get_ops + stats.get_ops) % 2 ^ 64
        total_get_bytes := (agg.total_get_bytes + stats.get_bytes) % 2 ^ 64
        total_put_ops := (agg.total_put_ops + stats.put_ops) % 2 ^ 64
        total_put_bytes := (agg.total_put_bytes + stats.put_bytes) % 2 ^ 64
        total_meta_ops := (agg.total_meta_ops + stats.meta_ops) % 2 ^ 64
        total_concurrency := (agg.total_concurrency + stats.concurrency) % 2 ^ 32 }) agg) =
      (k.total agg + (ls.map k.of).sum) % 2 ^ 64 := by
    intro ls
    induction ls with
    | nil =>
      intro agg h
      exact (Nat.mod_eq_of_lt h).symm
    | cons m ls ih =>
      intro agg h
      rw [List.foldl_cons, ih _ (by cases k <;> exact Nat.mod_lt _ (by decide)), List.map_cons,
        List.sum_cons, ← Nat.add_assoc]
      cases k <;> exact Nat.mod_add_mod _ _ _
  rw [hfold _ _ (by cases k <;> exact Nat.two_pow_pos 64)]
  cases k <;> rw [Counter.total, Nat.zero_add]

/-! ## What an entry counts -/

namespace LiveStatsAggregator

variable {a : LiveStatsAggregator}

/-- What the entry of an agent counts. -/
def count (k : Counter) (a : LiveStatsAggregator) (id : String) : Nat :=
  ((a.agent_stats.lookup id).map k.of).getD 0

theorem count_update : (a.update stats).count k id =
    if id = stats.agent_id then k.of stats else a.count k id := by
  unfold count update
  rw [AList.lookup_insert_if]
  split <;> rfl

/-- Changing the flag of an entry keeps what it counts. -/
theorem count_modify {f : LiveStats → LiveStats} {j : String} (hf : ∀ m, k.of (f m) = k.of m) :
    ({ a with agent_stats := a.agent_stats.modify j f } : LiveStatsAggregator).count k id =
      a.count k id := by
  unfold count
  dsimp only
  rw [AList.lookup_modify]
  split
  · rename_i h
    subst h
    cases a.agent_stats.lookup id with
    | none => rfl
    | some m => simp [hf]
  · rfl

theorem count_mark {j : String} : (a.mark_completed j).count k id = a.count k id :=
  count_modify fun m => by cases k <;> rfl

theorem count_unmark : (a.unmark stats).count k id = a.count k id := by
  refine count_modify fun m => ?_
  split
  · cases k <;> rfl
  · rfl

end LiveStatsAggregator

/-! ## The messages that are counted -/

/-- The messages of an agent that the aggregator keeps: it is still running. -/
def regularOf (id : String) (ms : List LiveStats) : List LiveStats :=
  (messagesOf id ms).filter fun m => !completes m

/-- The messages of an agent for the workload, its completed message included. -/
def workloadOf (id : String) (ms : List LiveStats) : List LiveStats :=
  (messagesOf id ms).filter fun m => m.completed || stageOf m = .StageWorkload

/-- The counter in the last of some messages. -/
def lastCount (k : Counter) (ms : List LiveStats) : Nat := (ms.getLast?.map k.of).getD 0

theorem regularOf_snoc (ms : List LiveStats) : lastCount k (regularOf id (ms ++ [stats])) =
    if id = stats.agent_id ∧ completes stats = false then k.of stats
    else lastCount k (regularOf id ms) := by
  unfold regularOf messagesOf
  rw [List.filter_append, List.filter_append]
  by_cases hid : id = stats.agent_id
  · cases hc : completes stats <;> simp [hid, hc, lastCount]
  · simp [hid, Ne.symm hid]

theorem take_count (id : String) {turns : List BarrierManager.Turn} {tsv_written : Bool}
    (h : c.take s stats turns tsv_written = some b) (hb : Going b) :
    b.aggregator.count k id = if id = stats.agent_id ∧ completes stats = false then k.of stats
      else if c.Turns stats then 0 else c.aggregator.count k id := by
  obtain ⟨bm, _, ⟨rfl, _⟩ | ⟨_, msg, rfl⟩⟩ := take_cases h
  · by_cases h3 : stats.status = 3
    · rw [settle_error h3] at hb
      exact absurd hb not_going_exits
    · have hheard : (c.waited s stats tsv_written bm).aggregator.count k id =
          if c.Turns stats then 0 else c.aggregator.count k id := by
        unfold waited
        dsimp only
        split
        · rfl
        · rw [hear_aggregator]
          split
          · exact LiveStatsAggregator.count_unmark
          · rfl
      rw [settle_aggregator h3, ← hheard]
      by_cases hc : completes stats = true
      · have hnot : ¬(id = stats.agent_id ∧ completes stats = false) := by simp [hc]
        rw [if_pos hc, if_neg hnot, LiveStatsAggregator.count_mark]
      · rw [if_neg hc, LiveStatsAggregator.count_update]
        rw [Bool.not_eq_true] at hc
        have hentry : k.of (entryOf (c.waited s stats tsv_written bm) stats) = k.of stats := by
          cases k <;> rfl
        rw [hentry]
        simp only [hc, and_true]
        rfl
  · exact absurd hb not_going_exits

/-- In a run that goes on, an entry counts what the last regular message of
its agent since the statistics began anew has counted. -/
theorem step_count (hrun : (controllerMachine s).run (Controller.new s) es = some c)
    (hI : c.aggregator.count k id = lastCount k (regularOf id (recent s es)))
    (h : (controllerMachine s).step c e = some b) (hb : Going b) :
    b.aggregator.count k id = lastCount k (regularOf id (recent s (es ++ [e]))) := by
  rw [recent_snoc hrun h]
  rcases step_taken h with ⟨hnone, hsame⟩ | ⟨stats, turns, tsv_written, rfl, _, ht, htake⟩
  · rw [hnone, hsame.aggregator]
    exact hI
  · have hturns : c.ticked.Turns stats ↔ c.Turns stats := Iff.rfl
    simp only [ht, Option.toList_some, List.foldl_cons, List.foldl_nil, sinceReset,
      decide_eq_true_eq]
    rw [take_count id htake hb]
    by_cases hturn : c.Turns stats
    · simp only [hturns, if_pos hturn]
      exact (regularOf_snoc []).symm
    · simp only [hturns, if_neg hturn]
      rw [regularOf_snoc, ← hI]
      rfl

theorem run_count (hrun : (controllerMachine s).run (Controller.new s) es = some c)
    (hc : Going c) : c.aggregator.count k id = lastCount k (regularOf id (recent s es)) :=
  Machine.run_remembers (P := fun _ _ => True)
    (I := fun es c => Going c → c.aggregator.count k id = lastCount k (regularOf id (recent s es)))
    (fun _ _ _ _ hr hI _ hs hb => step_count hr (hI (going_of_step hs)) hs hb) (fun _ => rfl)
    (Machine.along_of_mem fun _ _ _ => trivial) hrun hc

/-! ## The totals of a run -/

/-- The messages that the loop has read, and their agents. -/
def messages (s : Setup) (es : List Event) : List LiveStats := (readings s es).map (·.1)

def agentsOf (ms : List LiveStats) : Finset String := (ms.map (·.agent_id)).toFinset

/-- The totals after the loop are the sums of what the agents have last sent
for the workload. -/
def TotalsKept (c : Controller) (ms : List LiveStats) : Prop :=
  ∀ k : Counter, k.total c.aggregator.aggregate =
    ∑ id ∈ agentsOf ms, lastCount k (workloadOf id ms)

/-- The messages that the statistics are about are among the messages read. -/
theorem recent_messages : ∀ m ∈ recent s es, m ∈ messages s es := by
  intro m hm
  rcases mem_foldl_sinceReset _ _ hm with hm | ⟨turn, hm⟩
  · cases hm
  · exact List.mem_map.mpr ⟨(m, turn), hm, rfl⟩

/-- An entry is of an agent whose message was read. -/
theorem run_entries (hrun : (controllerMachine s).run (Controller.new s) es = some c)
    (hc : Going c) : c.aggregator.agent_stats.keySet ⊆ agentsOf (messages s es) := by
  intro id hid
  by_contra hout
  have hnone : messagesOf id (recent s es) = [] := by
    refine List.filter_eq_nil_iff.mpr fun m hm hmid => hout ?_
    rw [← of_decide_eq_true hmid, agentsOf, List.mem_toFinset]
    exact List.mem_map_of_mem (recent_messages m hm)
  have hflag : c.aggregator.flag id = flagOf id (recent s es) := run_flag hrun hc
  obtain ⟨m, hm⟩ := AList.mem_iff_lookup.mp (AList.mem_keySet.mp hid)
  unfold LiveStatsAggregator.flag flagOf at hflag
  rw [hm, hnone] at hflag
  cases hflag

/-- The totals are the sums of the last regular messages. -/
theorem run_total (hrun : (controllerMachine s).run (Controller.new s) es = some c)
    (hc : Going c) : k.total c.aggregator.aggregate =
      (∑ id ∈ agentsOf (messages s es), lastCount k (regularOf id (recent s es))) % 2 ^ 64 := by
  have hcounts : ∀ id ∈ agentsOf (messages s es), c.aggregator.count k id =
      lastCount k (regularOf id (recent s es)) := fun id _ => run_count hrun hc
  rw [aggregate_total, AList.sum_values_of_subset _ (run_entries hrun hc),
    ← Finset.sum_congr rfl hcounts]
  rfl

/-- When the loop is over, the totals are what the agents have last sent for
the workload exactly when the sums of the last regular messages are: those
that are read after the last turn and do not complete. -/
theorem the_totals_are_kept_iff {s : Setup} {es : List Event} {c : Controller}
    (hrun : (controllerMachine s).run (Controller.new s) es = some c) (hover : c.phase = .Finishing) :
    TotalsKept c (messages s es) ↔ ∀ k : Counter,
      (∑ id ∈ agentsOf (messages s es), lastCount k (regularOf id (recent s es))) % 2 ^ 64 =
        ∑ id ∈ agentsOf (messages s es), lastCount k (workloadOf id (messages s es)) := by
  have hgoing : Going c := by
    intro outcome
    rw [hover]
    simp
  refine forall_congr' fun k => ?_
  rw [run_total hrun hgoing]

/-! ## Two agents -/

/-- An agent has got so many objects in its workload. -/
def hasGot (agent_id : String) (get_ops : Nat) : Event :=
  .Stats { agent_id := agent_id, status := 2, current_stage := 2, get_ops := get_ops } [] true

/-- An agent has completed with so many. -/
def endsWith (agent_id : String) (get_ops : Nat) : Event :=
  .Stats { agent_id := agent_id, status := 4, completed := true, current_stage := 2,
           get_ops := get_ops } [] true

def twoGet (last : Nat) : List Event :=
  [.Stats (readyMessage "a") [] true, .Stats (readyMessage "b") [] true, hasGot "a" 10,
    hasGot "b" 20, endsWith "a" last, endsWith "b" 20]

/-- The last regular messages have counted all. -/
theorem the_totals_of_two_are_kept :
    ∃ c, (controllerMachine twoRunners).run (Controller.new twoRunners) (twoGet 10) = some c ∧
      TotalsKept c (messages twoRunners (twoGet 10)) := by
  have hrun : ∃ c, (controllerMachine twoRunners).run (Controller.new twoRunners) (twoGet 10) =
      some c ∧ c.phase = .Finishing := ⟨_, rfl, rfl⟩
  obtain ⟨c, hc, hover⟩ := hrun
  refine ⟨c, hc, (the_totals_are_kept_iff hc hover).mpr fun k => ?_⟩
  cases k <;> rfl

/-- What an agent gets after its last regular message is lost. -/
theorem the_last_gets_are_lost :
    ∃ c, (controllerMachine twoRunners).run (Controller.new twoRunners) (twoGet 15) = some c ∧
      c.phase = .Finishing ∧ c.aggregator.aggregate.total_get_ops = 30 ∧
      (∑ id ∈ agentsOf (messages twoRunners (twoGet 15)),
        lastCount .get_ops (workloadOf id (messages twoRunners (twoGet 15)))) = 35 ∧
      ¬ TotalsKept c (messages twoRunners (twoGet 15)) := by
  have hrun : ∃ c, (controllerMachine twoRunners).run (Controller.new twoRunners) (twoGet 15) =
      some c ∧ c.phase = .Finishing ∧ c.aggregator.aggregate.total_get_ops = 30 := ⟨_, rfl, rfl, rfl⟩
  obtain ⟨c, hc, hover, htotal⟩ := hrun
  have hsent : (∑ id ∈ agentsOf (messages twoRunners (twoGet 15)),
      lastCount .get_ops (workloadOf id (messages twoRunners (twoGet 15)))) = 35 := rfl
  refine ⟨c, hc, hover, htotal, hsent, fun h => ?_⟩
  have hget := h .get_ops
  rw [hsent] at hget
  exact absurd (htotal.symm.trans hget) (by decide)

end sai3_bench.controller
