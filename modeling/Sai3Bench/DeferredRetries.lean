-- The deferred retry of a prepare phase (prepare/retry.rs), task by task: the
-- failed objects are put again by a crew whose permits are a quarter of the
-- concurrency of the phase.
import Sai3Bench.Crews
import Sai3Bench.PreparePuts

namespace sai3_bench.prepare

open directory_tree machines crews

/-! ## The tasks of a retry -/

/-- One attempt of `retry_with_backoff`, which `left` attempts may follow. -/
def attempt (left : Nat) : Except String Unit → Nat ⊕ Put
  | .ok () => .inr .Written
  | .error e => match left with
    | 0 => .inr (.Failed e)
    | left + 1 => .inl left

theorem attempt_left {left next : Nat} {result : Except String Unit}
    (h : attempt left result = .inl next) : next < left := by
  unfold attempt at h
  split at h
  · cases h
  · split at h
    · cases h
    · cases h
      exact Nat.lt_succ_self _

/-- The store of an object: its address up to the last slash. -/
def storeUri (uri : Path) : Path :=
  let store_uri := (uri.reverse.dropWhile (· ≠ '/')).reverse
  if store_uri.isEmpty then uri else store_uri

/-- The cache has the store, or one whose address the object's address extends. -/
def hasStore (store_cache : List Path) (uri : Path) : Bool :=
  store_cache.contains (storeUri uri) || store_cache.any (·.isPrefixOf uri)

/-- A task of the retry gives up at once when the cache has no store for its object. -/
def retryTrade (store_cache : List Path) (max_retries : Nat) :
    Trade PrepareFailure Nat Put Unit (Except String Unit) where
  begins f :=
    if hasStore store_cache f.uri then .inl max_retries
    else .inr (.Failed ("Store not found in cache for URI: " ++ String.ofList f.uri))
  work _ left _ result := ((), attempt left result)
  left := id
  most := max_retries
  left_begins h := by
    split at h
    · cases h
      exact le_rfl
    · cases h
  left_work h := attempt_left h

/-! ## The retry -/

structure RetryResults where
  successes : List (Path × Nat)
  permanent_failures : List (Path × String)

def RetryResults.of (collected : List (PrepareFailure × Put)) : RetryResults :=
  { successes := collected.filterMap fun
      | (f, .Written) => some (f.uri, f.size)
      | (_, .Failed _) => none
    permanent_failures := collected.filterMap fun
      | (_, .Written) => none
      | (f, .Failed e) => some (f.uri, e) }

inductive RetryPhase
  | Retrying (crew : Crew PrepareFailure Nat Put Unit)
  | Returned (results : RetryResults)

namespace RetryPhase

/-- How `retry_failed_objects` begins. -/
def start (failures : List PrepareFailure) (concurrency total_attempted : Nat) : RetryPhase :=
  if failures.isEmpty then .Returned ⟨[], []⟩
  else if (determine_retry_strategy failures.length total_attempted).1 then
    .Retrying (.start concurrency failures ())
  else
    .Returned ⟨[], failures.map fun f =>
      (f.uri, "Skipped retry due to high failure rate: " ++ f.error)⟩

/-- The results are returned when the last one is collected. -/
def settle (crew : Crew PrepareFailure Nat Put Unit) : RetryPhase :=
  if crew.over then .Returned (.of crew.collected) else .Retrying crew

end RetryPhase

def retryMachine (store_cache : List Path) (max_retries : Nat) :
    Machine RetryPhase (Act (Except String Unit)) where
  step
    | .Retrying crew, a => ((retryTrade store_cache max_retries).step crew a).map RetryPhase.settle
    | .Returned _, _ => none

/-- What became of an object, for each of the objects that failed. -/
def CountsAll (failures : List PrepareFailure) (results : RetryResults) : Prop :=
  (results.successes.map (·.1) ++ results.permanent_failures.map (·.1)).Perm
    (failures.map (·.uri))

/-- The deferred retry of a prepare phase: all that it can do when it is called
with a quarter of the concurrency. -/
def EndsCountingAll (store_cache : List Path) (failures : List PrepareFailure)
    (concurrency total_attempted : Nat) : Prop :=
  (retryMachine store_cache (determine_retry_strategy failures.length total_attempted).2).Ends
    (fun p => ∃ results, p = .Returned results ∧ CountsAll failures results)
    (.start failures (concurrency / 4) total_attempted)

variable {store_cache : List Path} {max_retries : Nat} {failures : List PrepareFailure}
  {concurrency total_attempted : Nat}

theorem countsAll_of {retries : List (PrepareFailure × Put)}
    (h : (retries.map (·.1)).Perm failures) : CountsAll failures (.of retries) := by
  have hown : CountsAll (retries.map (·.1)) (.of retries) := by
    clear h
    unfold CountsAll RetryResults.of
    dsimp only
    induction retries with
    | nil => exact List.Perm.refl _
    | cons r retries ih =>
      obtain ⟨f, put⟩ := r
      cases put with
      | Written => exact ih.cons f.uri
      | Failed e => exact List.perm_middle.trans (ih.cons f.uri)
  unfold CountsAll at *
  exact hown.trans (h.map _)

/-! ## Runs of the retry -/

/-- What holds of the retry at any time when it has `permits` permits. -/
def Sound (store_cache : List Path) (max_retries permits : Nat) (failures : List PrepareFailure) :
    RetryPhase → Prop
  | .Retrying crew => Kept (retryTrade store_cache max_retries) permits failures crew ∧ crew.over = false
  | .Returned results => ∃ retries, results = .of retries ∧ (retries.map (·.1)).Perm failures

theorem sound_step {permits : Nat} {p q : RetryPhase} {a : Act (Except String Unit)}
    (h : Sound store_cache max_retries permits failures p)
    (hstep : (retryMachine store_cache max_retries).step p a = some q) :
    Sound store_cache max_retries permits failures q := by
  cases p with
  | Returned results => cases hstep
  | Retrying crew =>
    obtain ⟨crew', hcrew, rfl⟩ := Option.map_eq_some_iff.mp hstep
    obtain ⟨hkept, _⟩ := kept_step h.1 hcrew
    unfold RetryPhase.settle
    split
    · rename_i hover
      exact ⟨_, rfl, collected_of_over hkept hover⟩
    · rename_i hmore
      exact ⟨hkept, Bool.not_eq_true _ ▸ hmore⟩

/-- How much of the retry is left at most. -/
def retryRank (store_cache : List Path) (max_retries : Nat) : RetryPhase → Nat
  | .Retrying crew => (retryTrade store_cache max_retries).rank crew + 1
  | .Returned _ => 0

theorem retryRank_step {permits : Nat} {p q : RetryPhase} {a : Act (Except String Unit)}
    (h : Sound store_cache max_retries permits failures p)
    (hstep : (retryMachine store_cache max_retries).step p a = some q) :
    retryRank store_cache max_retries q < retryRank store_cache max_retries p := by
  cases p with
  | Returned results => cases hstep
  | Retrying crew =>
    obtain ⟨crew', hcrew, rfl⟩ := Option.map_eq_some_iff.mp hstep
    have hless := (kept_step h.1 hcrew).2
    unfold RetryPhase.settle
    split
    · exact Nat.succ_pos _
    · exact Nat.succ_lt_succ hless

/-- With a permit, the retry goes on until it returns. -/
theorem retry_goes_on {permits : Nat} (hpermits : 0 < permits) {p : RetryPhase}
    (h : Sound store_cache max_retries permits failures p) :
    (∃ results, p = .Returned results ∧ CountsAll failures results) ∨
      ∃ a q, (retryMachine store_cache max_retries).step p a = some q := by
  cases p with
  | Returned results =>
    obtain ⟨retries, rfl, hperm⟩ := h
    exact .inl ⟨_, rfl, countsAll_of hperm⟩
  | Retrying crew =>
    obtain ⟨a, crew', _, hcrew⟩ :=
      (goes_on (.ok ()) h.1 hpermits).resolve_left (ne_true_of_eq_false h.2)
    refine .inr ⟨a, RetryPhase.settle crew', ?_⟩
    show ((retryTrade store_cache max_retries).step crew a).map _ = _
    rw [hcrew, Option.map_some]

theorem sound_start (store_cache : List Path) (max_retries concurrency total_attempted : Nat)
    (failures : List PrepareFailure) :
    Sound store_cache max_retries concurrency failures
      (.start failures concurrency total_attempted) := by
  unfold RetryPhase.start
  split
  · rename_i hempty
    rw [List.isEmpty_iff.mp hempty]
    exact ⟨[], rfl, List.Perm.refl _⟩
  · rename_i hsome
    split
    · refine ⟨kept_start (), ?_⟩
      rw [← Bool.not_eq_true, Crew.over_iff]
      exact fun hover => hsome (List.isEmpty_iff.mpr hover.1)
    · refine ⟨failures.map fun f =>
        (f, .Failed ("Skipped retry due to high failure rate: " ++ f.error)), ?_, ?_⟩
      · unfold RetryResults.of
        congr 1
        · symm
          rw [List.filterMap_eq_nil_iff]
          intro r hr
          obtain ⟨f, _, rfl⟩ := List.mem_map.mp hr
          rfl
        · rw [List.filterMap_map]
          exact (List.filterMap_eq_map (f := fun f : PrepareFailure => (f.uri, _)) ▸ rfl)
      · rw [List.map_map]
        exact List.Perm.of_eq (List.map_id'' (fun _ => rfl) failures)

/-- Without permits the tasks of the retry wait for ever. -/
theorem retry_hangs (store_cache : List Path) (hsome : failures ≠ [])
    (hretry : (determine_retry_strategy failures.length total_attempted).1 = true)
    (hfew : concurrency < 4) :
    ¬EndsCountingAll store_cache failures concurrency total_attempted := by
  have hnone : concurrency / 4 = 0 := Nat.div_eq_of_lt hfew
  have hstart : RetryPhase.start failures (concurrency / 4) total_attempted =
      .Retrying (.start 0 failures ()) := by
    unfold RetryPhase.start
    rw [if_neg (mt List.isEmpty_iff.mp hsome), if_pos hretry, hnone]
  unfold EndsCountingAll
  rw [hstart]
  refine Machine.not_ends_of_never (I := (· = .Retrying (.start 0 failures ()))) Machine.run_nil rfl
    (fun p a q hp hstep => ?_) fun p hp hdone => ?_
  · subst hp
    obtain ⟨crew, hcrew, _⟩ := Option.map_eq_some_iff.mp hstep
    rw [no_step rfl rfl rfl] at hcrew
    cases hcrew
  · subst hp
    obtain ⟨results, heq, _⟩ := hdone
    cases heq

/-- The deferred retry ends, with each failure counted once, exactly when it is skipped
or a quarter of the concurrency is a permit at least. -/
theorem the_retry_ends_iff (store_cache : List Path) (hsome : failures ≠ []) :
    EndsCountingAll store_cache failures concurrency total_attempted ↔
      (determine_retry_strategy failures.length total_attempted).1 = false ∨ 4 ≤ concurrency := by
  constructor
  · intro hends
    by_contra hnot
    rw [not_or, Bool.not_eq_false, Nat.not_le] at hnot
    exact retry_hangs store_cache hsome hnot.1 hnot.2 hends
  · intro h
    have hsound := sound_start store_cache
      (determine_retry_strategy failures.length total_attempted).2 (concurrency / 4)
      total_attempted failures
    rcases h with hskip | hmany
    · -- what is returned at once does not depend on the permits
      have hstart : RetryPhase.start failures (concurrency / 4) total_attempted =
          RetryPhase.start failures 1 total_attempted := by
        unfold RetryPhase.start
        rw [hskip]
        rfl
      unfold EndsCountingAll
      rw [hstart]
      exact Machine.ends_of_rank (fun p a q hp hstep => ⟨sound_step hp hstep, retryRank_step hp hstep⟩)
        (fun p hp => retry_goes_on Nat.one_pos hp) (sound_start _ _ 1 _ _)
    · exact Machine.ends_of_rank
        (fun p a q hp hstep => ⟨sound_step hp hstep, retryRank_step hp hstep⟩)
        (fun p hp => retry_goes_on (Nat.div_pos hmany (by omega)) hp) hsound

/-- One object of ten has failed. -/
def oneFailure : PrepareFailure := ⟨"file:///data/prepared-00000000.dat".toList, 4096, "timed out"⟩

theorem the_retry_of_four_ends : EndsCountingAll ["file:///data/".toList] [oneFailure] 4 10 :=
  (the_retry_ends_iff _ (by decide)).mpr (.inr le_rfl)

theorem the_retry_of_one_hangs : ¬∀ (store_cache : List Path) (failures : List PrepareFailure)
    (concurrency total_attempted : Nat), failures ≠ [] → 1 ≤ concurrency →
      EndsCountingAll store_cache failures concurrency total_attempted := by
  intro h
  have hretry : (determine_retry_strategy [oneFailure].length 10).1 = true := by decide
  exact retry_hangs ["file:///data/".toList] (by decide) hretry (by decide)
    (h _ [oneFailure] 1 10 (by decide) le_rfl)

/-- A retry that returns is one of those that a whole prepare phase reckons with. -/
theorem retry_refines {es : List (Act (Except String Unit))} {results : RetryResults}
    (hsome : failures ≠ [])
    (hretry : (determine_retry_strategy failures.length total_attempted).1 = true)
    (hrun : (retryMachine store_cache max_retries).run (.start failures concurrency total_attempted)
      es = some (.Returned results)) :
    ∃ retries, results = .of retries ∧
      retry_failed_objects failures concurrency total_attempted retries =
        some (.Ends ((retries.filter fun p => p.2 = .Written).map (·.1))) := by
  obtain ⟨retries, hresults, hperm⟩ := Machine.run_always (fun p a q hp hstep => sound_step hp hstep)
    (sound_start store_cache max_retries concurrency total_attempted failures) hrun
  refine ⟨retries, hresults, ?_⟩
  have hstart : RetryPhase.start failures concurrency total_attempted =
      .Retrying (.start concurrency failures ()) := by
    unfold RetryPhase.start
    rw [if_neg (mt List.isEmpty_iff.mp hsome), if_pos hretry]
  have hpermits : concurrency ≠ 0 := by
    rintro rfl
    rw [hstart] at hrun
    cases es with
    | nil => cases hrun
    | cons a es =>
      obtain ⟨q, hstep, _⟩ := Machine.run_cons_iff.mp hrun
      obtain ⟨crew, hcrew, _⟩ := Option.map_eq_some_iff.mp hstep
      rw [no_step rfl rfl rfl] at hcrew
      cases hcrew
  unfold retry_failed_objects
  rw [hretry, List.isEmpty_eq_false_iff.mpr hsome, if_neg (by decide), if_neg hpermits,
    if_pos (List.isPerm_iff.mpr hperm)]

end sai3_bench.prepare
