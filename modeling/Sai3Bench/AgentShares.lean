-- What each agent gets of a tree (directory_tree.rs): its directories in turn, and
-- its files by their numbers.
import Sai3Bench.CleanupSweeps
import Sai3Bench.Groups
import Sai3Bench.PathSelectors

namespace sai3_bench.directory_tree.TreeManifest

open groups
open workload (mem_agent_dirs)

/-! ## The shares -/

/-- The table that the loop over the directories fills. -/
def assigned_dirs (m : TreeManifest) (num_agents : Nat) : AList fun _ : Nat => List Path :=
  m.all_directories.zipIdx.foldl (fun t d => push t (d.2 % num_agents) d.1) ∅

def should_agent_handle_file (global_file_idx agent_id num_agents : Nat) : Bool :=
  if num_agents ≤ 1 then true else global_file_idx % num_agents = agent_id

def get_agent_file_indices (m : TreeManifest) (agent_id num_agents : Nat) : List Nat :=
  if num_agents ≤ 1 then List.range m.total_files
  else (List.range m.total_files).filter fun idx => idx % num_agents = agent_id

section

variable {m : TreeManifest} {num_agents agent_id idx : Nat} {dir_path : Path}

/-- The lists of the agents are those of the table. -/
theorem assign_agents_eq (h : 0 < num_agents) :
    m.assign_agents num_agents =
      { m with agent_assignments := part (m.assigned_dirs num_agents) } := by
  unfold assign_agents assigned_dirs
  rw [if_neg h.ne']
  congr
  funext agent_id
  rw [part_foldl fun d : Path × Nat => d.1]
  rfl

/-- A cleanup asks for the files with these numbers. -/
theorem get_agent_file_paths_eq : prepare.get_agent_file_paths m agent_id num_agents =
    (m.get_agent_file_indices agent_id num_agents).filterMap m.get_file_path := by
  unfold prepare.get_agent_file_paths get_agent_file_indices
  split
  · rename_i hone
    simp [hone]
  · rename_i hmore
    simp [hmore]

theorem mem_agent_file_indices :
    idx ∈ m.get_agent_file_indices agent_id num_agents ↔
      idx < m.total_files ∧ should_agent_handle_file idx agent_id num_agents = true := by
  unfold get_agent_file_indices should_agent_handle_file
  split
  · simp
  · simp

/-- One of the agents handles a file, and no other one does. -/
theorem handles_iff (h : agent_id < num_agents) :
    should_agent_handle_file idx agent_id num_agents = true ↔ idx % num_agents = agent_id := by
  unfold should_agent_handle_file
  split
  · rename_i hone
    have hnum : num_agents = 1 := by omega
    subst hnum
    simp only [true_iff]
    omega
  · rw [decide_eq_true_eq]

theorem agent_file_indices_eq (h : agent_id < num_agents) :
    m.get_agent_file_indices agent_id num_agents =
      (List.range m.total_files).filter fun idx => idx % num_agents = agent_id := by
  unfold get_agent_file_indices
  split
  · rename_i hone
    have hnum : num_agents = 1 := by omega
    subst hnum
    refine (List.filter_eq_self.mpr fun idx _ => ?_).symm
    rw [decide_eq_true_eq]
    omega
  · rfl

/-- A directory with one place in the list has one agent. -/
theorem one_agent_of_place (hn : 0 < num_agents)
    (h : ∃! k : Nat, m.all_directories[k]? = some dir_path) :
    ∃! agent_id, dir_path ∈ (m.assign_agents num_agents).get_agent_dirs agent_id := by
  obtain ⟨k, hk, honly⟩ := h
  refine ⟨k % num_agents, (mem_agent_dirs hn).mpr ⟨k, hk, rfl⟩, ?_⟩
  intro other hother
  obtain ⟨j, hj, rfl⟩ := (mem_agent_dirs hn).mp hother
  rw [honly j hj]

def three_dirs : TreeManifest :=
  { all_directories := ["a".toList, "b".toList, "c".toList], total_files := 5 }

end

end sai3_bench.directory_tree.TreeManifest
