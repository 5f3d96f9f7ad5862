-- The agents of a parallel prepare share the missing objects among them: each
-- is made by one agent, and each agent knows how many are its own.
import Mathlib.Data.Int.CardIntervalMod
import Sai3Bench.ParallelPlans

namespace sai3_bench.prepare.parallel

open directory_tree

variable {job : Job} {turn : Turn} {endpoints : List Path} {existing_indices : Finset Nat}
  {num_agents agent_id idx : Nat}

/-! ## Numbers with one remainder -/

/-- The closed form of the number of numbers below `count` with one remainder. -/
theorem card_remainder {count : Nat} (h : agent_id < num_agents) :
    ((Finset.range count).filter fun idx => idx % num_agents = agent_id).card =
      (count + num_agents - 1 - agent_id) / num_agents := by
  have hpos : 0 < num_agents := by omega
  have hcount := Nat.count_modEq_card count hpos agent_id
  rw [Nat.count_eq_card_filter_range, Nat.mod_eq_of_lt h] at hcount
  have hmod : ∀ idx, idx ≡ agent_id [MOD num_agents] ↔ idx % num_agents = agent_id := by
    intro idx
    unfold Nat.ModEq
    rw [Nat.mod_eq_of_lt h]
  simp only [hmod] at hcount
  rw [hcount]
  -- the quotient of `count` comes off, and what is left is less than two rounds
  have hdiv := Nat.div_add_mod count num_agents
  have hlt := Nat.mod_lt count hpos
  have hsplit : count + num_agents - 1 - agent_id =
      (count % num_agents + num_agents - 1 - agent_id) + num_agents * (count / num_agents) := by
    omega
  rw [hsplit, Nat.add_mul_div_left _ _ hpos, Nat.add_comm]
  congr 1
  split
  · rename_i hmore
    symm
    rw [Nat.div_eq_of_lt_le] <;> omega
  · rename_i hless
    symm
    exact Nat.div_eq_of_lt (by omega)

/-- Numbers of 64 bits give the closed form, as long as it does not overflow. -/
theorem wrapping_count {count : Nat} (hcount : count < u64) (hn : num_agents < u64)
    (h : agent_id < num_agents) :
    wrapping_sub (wrapping_sub (wrapping_add count num_agents) 1) agent_id =
      (count + num_agents - 1 - agent_id) % u64 := by
  unfold wrapping_sub wrapping_add u64 at *
  omega

theorem wrapping_count_div {count : Nat} (hcount : count < u64) (hn : num_agents < u64)
    (h : agent_id < num_agents) :
    (count + num_agents - 1 - agent_id) % u64 / num_agents =
        (count + num_agents - 1 - agent_id) / num_agents ↔
      count + num_agents - 1 - agent_id < u64 := by
  constructor
  · intro heq
    by_contra hover
    have hmod : (count + num_agents - 1 - agent_id) % u64 =
        count + num_agents - 1 - agent_id - u64 := by
      rw [Nat.mod_eq_sub_mod (by omega), Nat.mod_eq_of_lt (by omega)]
    have hround : count + num_agents - 1 - agent_id - u64 + num_agents ≤
        count + num_agents - 1 - agent_id := by omega
    have hless := Nat.div_le_div_right (c := num_agents) hround
    rw [Nat.add_div_right _ (by omega), ← hmod, heq] at hless
    omega
  · intro hfits
    rw [Nat.mod_eq_of_lt hfits]

/-! ## What an agent takes -/

theorem mine_agentOf (h : agent_id < num_agents) :
    mine (agentOf job num_agents agent_id) idx = decide (idx % num_agents = agent_id) := by
  unfold mine agentOf
  dsimp only
  by_cases hn : 1 < num_agents
  · simp [hn]
  · have h1 : num_agents = 1 := by omega
    subst h1
    simp [Nat.mod_one, show agent_id = 0 by omega]

theorem selects_agentOf (h : agent_id < num_agents) :
    (planOf (agentOf job num_agents agent_id) turn endpoints existing_indices).selects
        (agentOf job num_agents agent_id) idx = true ↔
      (planOf job turn [] existing_indices).should_create idx = true ∧
        idx % num_agents = agent_id := by
  unfold PreparePlan.selects
  rw [mine_agentOf h, Bool.and_eq_true, decide_eq_true_eq]
  rfl

/-- The numbers that are to be made, of one agent. -/
def share (job : Job) (turn : Turn) (existing_indices : Finset Nat) (num_agents agent_id : Nat) :
    Finset Nat :=
  (missingIndices job turn existing_indices).filter fun idx => idx % num_agents = agent_id

theorem mem_share : idx ∈ share job turn existing_indices num_agents agent_id ↔
    idx < turn.spec.count ∧ (planOf job turn [] existing_indices).should_create idx = true ∧
      idx % num_agents = agent_id := by
  unfold share missingIndices
  rw [Finset.mem_filter, Finset.mem_filter, Finset.mem_range, and_assoc]

/-- An agent that counts its own objects right puts just these. -/
theorem taskIndices_eq_share (h : agent_id < num_agents)
    (hcount : actual_to_create (agentOf job num_agents agent_id) turn existing_indices =
      (share job turn existing_indices num_agents agent_id).card) :
    taskIndices (agentOf job num_agents agent_id) turn endpoints existing_indices =
      share job turn existing_indices num_agents agent_id := by
  unfold taskIndices
  rw [hcount]
  split
  · ext idx
    rw [Finset.mem_filter, Finset.mem_range, mem_share, selects_agentOf h]
  · rename_i hzero
    rw [Nat.pos_iff_ne_zero, not_not, Finset.card_eq_zero] at hzero
    exact hzero.symm

/-- The count of an agent is right, unless all is overwritten and the closed
form overflows. -/
theorem actual_to_create_iff (hcount : turn.spec.count < u64) (hn : num_agents < u64)
    (h : agent_id < num_agents) :
    actual_to_create (agentOf job num_agents agent_id) turn existing_indices =
        (share job turn existing_indices num_agents agent_id).card ↔
      job.config.force_overwrite = false ∨ num_agents = 1 ∨
        turn.spec.count + num_agents - 1 - agent_id < u64 := by
  have hconfig : (agentOf job num_agents agent_id).config = job.config := rfl
  unfold actual_to_create
  rw [hconfig]
  by_cases hforce : job.config.force_overwrite = true
  · have hshare : share job turn existing_indices num_agents agent_id =
        (Finset.range turn.spec.count).filter fun idx => idx % num_agents = agent_id := by
      ext idx
      rw [mem_share, Finset.mem_filter, Finset.mem_range]
      simp [PreparePlan.should_create, planOf, hforce]
    rw [hshare, card_remainder h]
    simp only [hforce, Bool.not_true, Bool.and_false, Bool.false_eq_true, if_false, if_true,
      false_or, Bool.true_eq_false]
    by_cases hone : 1 < num_agents
    · have hshared : ((agentOf job num_agents agent_id).shared_storage &&
          decide (1 < (agentOf job num_agents agent_id).num_agents)) = true := by
        simp [agentOf, hone]
      rw [if_pos hshared]
      have hids : (agentOf job num_agents agent_id).num_agents = num_agents ∧
          (agentOf job num_agents agent_id).agent_id = agent_id := ⟨rfl, rfl⟩
      rw [hids.1, hids.2, wrapping_count hcount hn h, wrapping_count_div hcount hn h]
      constructor
      · exact .inr
      · rintro (h1 | h1)
        · omega
        · exact h1
    · have h1 : num_agents = 1 := by omega
      have hshared : ((agentOf job num_agents agent_id).shared_storage &&
          decide (1 < (agentOf job num_agents agent_id).num_agents)) ≠ true := by
        simp [agentOf, hone]
      rw [if_neg hshared]
      subst h1
      simp [show agent_id = 0 by omega]
  · rw [Bool.not_eq_true] at hforce
    simp only [hforce, Bool.not_false, Bool.and_true, true_or, iff_true]
    by_cases hskip : job.config.skip_verification = true
    · rw [if_pos hskip]
      symm
      rw [Finset.card_eq_zero, Finset.eq_empty_iff_forall_notMem]
      intro idx hidx
      have := (mem_share.mp hidx).2.1
      simp [PreparePlan.should_create, planOf, hforce, hskip] at this
    · rw [if_neg hskip]
      simp only [Bool.false_eq_true, if_false]
      rw [List.countP_eq_length_filter, ← List.toFinset_card_of_nodup
        (List.Nodup.filter _ List.nodup_range)]
      congr 1
      ext idx
      rw [List.mem_toFinset, List.mem_filter, List.mem_range, mem_share, mine_agentOf h]
      simp [PreparePlan.should_create, planOf, hforce, hskip]

/-! ## The agents together -/

/-- The agents put all that is to be made, none of it twice, and each knows how much is its own. -/
structure Partitions (job : Job) (turn : Turn) (endpoints : List Path)
    (existing_indices : Finset Nat) (num_agents : Nat) : Prop where
  disjoint : ∀ a < num_agents, ∀ b < num_agents, a ≠ b →
    Disjoint (taskIndices (agentOf job num_agents a) turn endpoints existing_indices)
      (taskIndices (agentOf job num_agents b) turn endpoints existing_indices)
  union : ∀ idx, idx ∈ missingIndices job turn existing_indices ↔
    ∃ a < num_agents, idx ∈ taskIndices (agentOf job num_agents a) turn endpoints existing_indices
  counted : ∀ a < num_agents,
    actual_to_create (agentOf job num_agents a) turn existing_indices =
      (share job turn existing_indices num_agents a).card

/-- The agents share the missing objects, unless all objects are overwritten by
several agents and their number is so large that the count overflows. -/
theorem the_agents_partition_iff {job : Job} {turn : Turn} {endpoints : List Path}
    {existing_indices : Finset Nat} {num_agents : Nat} (hpos : 0 < num_agents)
    (hn : num_agents < u64) (hcount : turn.spec.count < u64) :
    Partitions job turn endpoints existing_indices num_agents ↔
      job.config.force_overwrite = false ∨ num_agents = 1 ∨
        turn.spec.count + num_agents - 1 < u64 := by
  constructor
  · intro hp
    have h0 := (actual_to_create_iff hcount hn hpos).mp (hp.counted 0 hpos)
    rwa [Nat.sub_zero] at h0
  · intro hcond
    have hcounted : ∀ a < num_agents,
        actual_to_create (agentOf job num_agents a) turn existing_indices =
          (share job turn existing_indices num_agents a).card := by
      intro a ha
      refine (actual_to_create_iff hcount hn ha).mpr ?_
      rcases hcond with h | h | h
      · exact .inl h
      · exact .inr (.inl h)
      · exact .inr (.inr (by omega))
    have htasks := fun a ha => @taskIndices_eq_share job turn endpoints existing_indices _ a ha
      (hcounted a ha)
    refine ⟨fun a ha b hb hab => ?_, fun idx => ?_, hcounted⟩
    · rw [htasks a ha, htasks b hb, Finset.disjoint_left]
      intro idx hidx hidx'
      exact hab ((mem_share.mp hidx).2.2.symm.trans (mem_share.mp hidx').2.2)
    · constructor
      · intro hidx
        have ha := Nat.mod_lt idx hpos
        refine ⟨idx % num_agents, ha, ?_⟩
        rw [htasks _ ha]
        exact Finset.mem_filter.mpr ⟨hidx, rfl⟩
      · rintro ⟨a, ha, hidx⟩
        rw [htasks a ha] at hidx
        exact Finset.mem_of_mem_filter idx hidx

/-! ## Agents that overwrite all objects -/

def overwriteJob : Job := { config := { force_overwrite := true } }

def countTurn (count : Nat) : Turn := ⟨{ count := count }, "prepared".toList⟩

theorem two_agents_overwrite_five_objects :
    Partitions overwriteJob (countTurn 5) ["s3://bucket/".toList] ∅ 2 :=
  (the_agents_partition_iff (by decide) (by decide) (by decide)).mpr (.inr (.inr (by decide)))

/-- With the largest number of objects the count of the first agent wraps to
nothing, and it puts nothing. -/
theorem two_agents_do_not_overwrite_all :
    actual_to_create (agentOf overwriteJob 2 0) (countTurn (u64 - 1)) ∅ = 0 ∧
      ¬ Partitions overwriteJob (countTurn (u64 - 1)) ["s3://bucket/".toList] ∅ 2 := by
  have hzero : actual_to_create (agentOf overwriteJob 2 0) (countTurn (u64 - 1)) ∅ = 0 := by decide
  refine ⟨hzero, fun hp => ?_⟩
  have hmissing : 0 ∈ missingIndices overwriteJob (countTurn (u64 - 1)) ∅ := by
    unfold missingIndices
    rw [Finset.mem_filter, Finset.mem_range]
    exact ⟨by decide, rfl⟩
  have hshare := hp.counted 0 (by decide)
  rw [hzero] at hshare
  have hmem : 0 ∈ share overwriteJob (countTurn (u64 - 1)) ∅ 2 0 :=
    Finset.mem_filter.mpr ⟨hmissing, rfl⟩
  rw [Finset.card_eq_zero.mp hshare.symm] at hmem
  exact absurd hmem (Finset.notMem_empty 0)

end sai3_bench.prepare.parallel
