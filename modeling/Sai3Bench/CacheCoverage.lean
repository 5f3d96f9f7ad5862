-- When prepare may trust the cache: a turn is skipped when the cache has as
-- many objects of the config as the turn asks for, whatever turn they are of.
import Mathlib.Algebra.BigOperators.Fin
import Mathlib.Algebra.Order.BigOperators.Group.Finset
import Sai3Bench.SequentialPrepares

namespace sai3_bench.prepare

open directory_tree size_generator metadata_cache machines

/-! ## Turns that the cache skips -/

namespace Turn

/-- Nothing is listed, since the cache says that all objects are there. -/
def SkippedByCache (turn : Turn) (job : Job) (cache : Option MetadataCache) : Prop :=
  job.config.skip_verification = false ∧ job.config.force_overwrite = false ∧
    coverage cache turn = true

variable {turn : Turn} {job : Job} {cache : Option MetadataCache} {base_uri : Path}

/-- A skipped turn does not look at the store. -/
theorem existing_of_skipped (h : turn.SkippedByCache job cache)
    (stream : Path → List (Except String Path)) :
    turn.existing job stream (coverage cache turn) base_uri = .ok ⟨turn.spec.count, ∅⟩ := by
  obtain ⟨hskip, hforce, hcovers⟩ := h
  unfold Turn.existing
  rw [hskip, hforce, hcovers]
  rfl

end Turn

/-! ## What is recorded -/

section

variable (turn : Turn) (job : Job) (base_uri : Path) (m : MetadataCache)

/-- The cache has the object of the turn with that number. -/
def Recorded (idx : Nat) : Prop :=
  ∃ entry, m.get_object idx = some entry ∧ entry.state = .Created ∧
    turn.uri job base_uri idx = some entry.path

instance (idx : Nat) : Decidable (Recorded turn job base_uri m idx) :=
  decidable_of_iff ((m.get_object idx).any (fun entry => decide (entry.state = .Created) &&
      decide (turn.uri job base_uri idx = some entry.path)) = true) (by
    unfold Recorded
    cases m.get_object idx <;> simp)

/-- The objects of the turn that the cache does not have. -/
def missing : Nat :=
  ((Finset.range turn.spec.count).filter fun idx => ¬ Recorded turn job base_uri m idx).card

/-- An entry at an endpoint is that of an object of the turn. -/
def isOwn (endpoint idx : Nat) (entry : ObjectEntry) : Bool :=
  decide (idx < turn.spec.count) && decide (idx % m.endpoints.length = endpoint) &&
    decide (turn.uri job base_uri idx = some entry.path)

/-- The objects that the cache has of the config, and that are not of the turn. -/
def foreign : Nat :=
  ∑ k : Fin m.endpoints.length, (m.endpoints.get k).objects.entries.countP fun e =>
    (e.1.1 = m.config_hash && e.2.state = .Created) && !isOwn turn job base_uri m k e.1.2 e.2

end

variable {turn : Turn} {job : Job} {base_uri : Path} {m : MetadataCache}

/-- The entries of the turn at one endpoint are those of the numbers that go there. -/
theorem countP_own (k : Fin m.endpoints.length) :
    ((m.endpoints.get k).objects.entries.countP fun e =>
      (e.1.1 = m.config_hash && e.2.state = .Created) && isOwn turn job base_uri m k e.1.2 e.2) =
      (((Finset.range turn.spec.count).filter fun idx => Recorded turn job base_uri m idx).filter
        fun idx => idx % m.endpoints.length = k).card := by
  have hget : ∀ idx, idx % m.endpoints.length = k →
      m.get_object idx = (m.endpoints.get k).objects.lookup (m.config_hash, idx) := by
    intro idx hidx
    unfold MetadataCache.get_object MetadataCache.endpoint_for_file
    rw [hidx, List.getElem?_eq_getElem k.isLt]
    rfl
  rw [AList.countP_entries (m.endpoints.get k).objects fun key entry =>
    (key.1 = m.config_hash && entry.state = .Created) && isOwn turn job base_uri m k key.2 entry]
  refine Finset.card_bij' (fun key _ => key.2) (fun idx _ => (m.config_hash, idx)) ?_ ?_ ?_ ?_
  · rintro ⟨hash, idx⟩ hkey
    obtain ⟨_, entry, hlook, hp⟩ := Finset.mem_filter.mp hkey
    simp only [isOwn, Bool.and_eq_true, decide_eq_true_eq] at hp
    obtain ⟨⟨rfl, hstate⟩, ⟨hlt, hmod⟩, huri⟩ := hp
    refine Finset.mem_filter.mpr ⟨Finset.mem_filter.mpr ⟨Finset.mem_range.mpr hlt, ?_⟩, hmod⟩
    exact ⟨entry, (hget idx hmod).trans hlook, hstate, huri⟩
  · intro idx hidx
    obtain ⟨hrec, hmod⟩ := Finset.mem_filter.mp hidx
    obtain ⟨hlt, entry, hentry, hstate, huri⟩ := Finset.mem_filter.mp hrec
    rw [hget idx hmod] at hentry
    refine Finset.mem_filter.mpr ⟨?_, entry, hentry, ?_⟩
    · exact AList.mem_keySet.mpr (AList.mem_iff_lookup.mpr ⟨entry, hentry⟩)
    · simp [isOwn, hstate, huri, hmod, Finset.mem_range.mp hlt]
  · rintro ⟨hash, idx⟩ hkey
    obtain ⟨_, entry, _, hp⟩ := Finset.mem_filter.mp hkey
    simp only [Bool.and_eq_true, decide_eq_true_eq] at hp
    rw [hp.1.1]
  · intro idx _
    rfl

/-- What is created in the cache is of the turn or it is not. -/
theorem created_eq : m.count_by_state .Created =
    ((Finset.range turn.spec.count).filter fun idx => Recorded turn job base_uri m idx).card +
      foreign turn job base_uri m := by
  have hown : ((Finset.range turn.spec.count).filter fun idx =>
      Recorded turn job base_uri m idx).card = ∑ k : Fin m.endpoints.length,
        (((Finset.range turn.spec.count).filter fun idx => Recorded turn job base_uri m idx).filter
          fun idx => idx % m.endpoints.length = k).card := by
    rw [Finset.card_eq_sum_card_fiberwise (t := Finset.univ)
      (f := fun idx => (⟨idx % m.endpoints.length, MetadataCache.endpoint_lt⟩ :
        Fin m.endpoints.length)) fun idx _ => Finset.mem_coe.mpr (Finset.mem_univ _)]
    refine Finset.sum_congr rfl fun k _ => ?_
    congr 1
    refine Finset.filter_congr fun idx _ => ?_
    rw [Fin.ext_iff]
  rw [hown]
  unfold MetadataCache.count_by_state foreign
  rw [← Fin.sum_univ_fun_getElem, ← Finset.sum_add_distrib]
  refine Finset.sum_congr rfl fun k _ => ?_
  rw [← countP_own]
  unfold EndpointCache.count_by_state
  -- each entry is counted on one of the two sides
  have hsplit : ∀ entries : List (Sigma fun _ : String × Nat => ObjectEntry),
      entries.countP (fun e => e.1.1 = m.config_hash && e.2.state = .Created) =
        (entries.countP fun e => (e.1.1 = m.config_hash && e.2.state = .Created) &&
            isOwn turn job base_uri m k e.1.2 e.2) +
          entries.countP fun e => (e.1.1 = m.config_hash && e.2.state = .Created) &&
            !isOwn turn job base_uri m k e.1.2 e.2 := by
    intro entries
    rw [List.countP_eq_countP_filter_add _ _ fun e => isOwn turn job base_uri m k e.1.2 e.2,
      List.countP_filter, List.countP_filter]
  exact hsplit _

theorem recorded_add_missing :
    ((Finset.range turn.spec.count).filter fun idx => Recorded turn job base_uri m idx).card +
      missing turn job base_uri m = turn.spec.count := by
  unfold missing
  rw [Finset.card_filter_add_card_filter_not, Finset.card_range]

/-- The cache covers a turn when others' objects make up for those that are missing. -/
theorem covers_all_iff_foreign : m.covers_all turn.spec.count = true ↔
    0 < turn.spec.count ∧ missing turn job base_uri m ≤ foreign turn job base_uri m := by
  have hsum := @recorded_add_missing turn job base_uri m
  have hcreated := @created_eq turn job base_uri m
  rw [MetadataCache.covers_all_iff, hcreated]
  omega

theorem missing_eq_zero_iff : missing turn job base_uri m = 0 ↔
    ∀ idx < turn.spec.count, Recorded turn job base_uri m idx := by
  unfold missing
  rw [Finset.card_eq_zero, Finset.filter_eq_empty_iff]
  simp only [Finset.mem_range, not_not]

/-! ## The turns of a run -/

/-- If the cache skips the next turn, it has all objects of that turn. -/
def SkipsSoundly (job : Job) (s : Sequential) : Prop :=
  ∀ turn base_uri, s.turns.head? = some turn →
    turn.spec.get_base_uri job.multi_endpoint_uris = .ok base_uri →
      turn.SkippedByCache job s.cache →
        ∃ m, s.cache = some m ∧ ∀ idx < turn.spec.count, Recorded turn job base_uri m idx

/-- If the cache lacks objects of the next turn, it lacks more of them than it
has other objects of the config. -/
def FewForeign (job : Job) (s : Sequential) : Prop :=
  job.config.skip_verification = false → job.config.force_overwrite = false →
    ∀ turn base_uri m, s.turns.head? = some turn →
      turn.spec.get_base_uri job.multi_endpoint_uris = .ok base_uri → s.cache = some m →
        0 < missing turn job base_uri m → foreign turn job base_uri m < missing turn job base_uri m

theorem skipsSoundly_iff {s : Sequential} : SkipsSoundly job s ↔ FewForeign job s := by
  constructor
  · intro hsound hskip hforce turn base_uri m hturn hbase hcache hmissing
    by_contra hmany
    have hle : missing turn job base_uri m ≤ turn.spec.count := by
      have := @recorded_add_missing turn job base_uri m
      omega
    have hcovers : coverage s.cache turn = true := by
      rw [hcache]
      exact (@covers_all_iff_foreign turn job base_uri m).mpr ⟨by omega, by omega⟩
    obtain ⟨m', hm', hall⟩ := hsound turn base_uri hturn hbase ⟨hskip, hforce, hcovers⟩
    rw [hcache] at hm'
    cases hm'
    have hzero := missing_eq_zero_iff.mpr hall
    omega
  · rintro hfew turn base_uri hturn hbase ⟨hskip, hforce, hcovers⟩
    cases hcache : s.cache with
    | none =>
      rw [hcache] at hcovers
      cases hcovers
    | some m =>
      rw [hcache] at hcovers
      obtain ⟨_, hle⟩ := (@covers_all_iff_foreign turn job base_uri m).mp hcovers
      have hmore := hfew hskip hforce turn base_uri m hturn hbase hcache
      exact ⟨m, rfl, missing_eq_zero_iff.mp (by omega)⟩

/-- The cache skips only turns whose objects it has, if and only if at each
turn it lacks none of them, or more than it has others. -/
theorem the_skips_are_sound_iff {r : Random} {job : Job} {objects : Objects}
    {cache : Option MetadataCache} {es : List TurnEvent} {s : Sequential}
    (h : (sequentialMachine r job).run (.new job objects cache) es = some s) :
    (sequentialMachine r job).Along (fun s _ => SkipsSoundly job s) (.new job objects cache) es ↔
      (sequentialMachine r job).Along (fun s _ => FewForeign job s) (.new job objects cache) es :=
  Machine.along_congr (fun _ _ _ _ _ => trivial)
    (fun _ _ _ _ _ => skipsSoundly_iff) trivial h

/-! ## One object in each pool -/

def oneObject : EnsureSpec :=
  { base_uri := some "s3://bucket/".toList, count := 1, size_spec := some (.Fixed 4096) }

def oneObjectJob (needs_separate_pools : Bool) : Job :=
  { config := { ensure_objects := [oneObject] }, needs_separate_pools := needs_separate_pools }

def emptyCache : MetadataCache :=
  { endpoints := [{ endpoint_index := 0 }], config_hash := "config",
    some_endpoint := List.cons_ne_nil _ _ }

/-- An empty store, into which one object is put. -/
def putsOne (uri : String) : TurnEvent :=
  { stream := fun _ => [], puts := [(⟨uri.toList, 4096, 0⟩, .Written)] }

def seesNothing : TurnEvent := { stream := fun _ => [] }

theorem one_pool_is_put_soundly :
    (sequentialMachine noRandom (oneObjectJob false)).Along
      (fun s _ => SkipsSoundly (oneObjectJob false) s)
      (.new (oneObjectJob false) ∅ (some emptyCache))
      [putsOne "s3://bucket/prepared-00000000.dat"] := by
  refine (the_skips_are_sound_iff (s := _) rfl).mpr ⟨?_, fun _ _ => trivial⟩
  rintro _ _ turn base_uri m ⟨⟩ ⟨⟩ ⟨⟩ _
  decide +kernel

/-- With both pools, the object of the first pool covers the second: it is not put. -/
theorem the_first_pool_covers_the_second :
    ∃ s, (sequentialMachine noRandom (oneObjectJob true)).run
        (.new (oneObjectJob true) ∅ (some emptyCache))
        [putsOne "s3://bucket/prepared-00000000.dat", seesNothing] = some s ∧ s.Returns ∧
      s.objects.keys = ["s3://bucket/prepared-00000000.dat".toList] ∧
      ¬ (sequentialMachine noRandom (oneObjectJob true)).Along
        (fun s _ => SkipsSoundly (oneObjectJob true) s)
        (.new (oneObjectJob true) ∅ (some emptyCache))
        [putsOne "s3://bucket/prepared-00000000.dat", seesNothing] := by
  refine ⟨_, rfl, ⟨rfl, rfl⟩, by decide +kernel, fun hA => ?_⟩
  obtain ⟨hsound, _⟩ := hA.2 _ rfl
  obtain ⟨m, hm, hall⟩ := hsound ⟨oneObject, "deletable".toList⟩ _ rfl rfl ⟨rfl, rfl, rfl⟩
  cases hm
  have hrec := hall 0 (by decide)
  revert hrec
  decide +kernel

end sai3_bench.prepare
