-- The remapping of the addresses of a replay (remap.rs, replay_streaming.rs): the first
-- rule that matches gives the target, and a round robin counts in its engine.
import Mathlib.Data.List.AList
import Sai3Bench.OplogMerges

namespace sai3_bench.remap

open directory_tree texts
open oplog_merge (OpLogEntry)

/-! ## Rules -/

/-- The host is read with a rule, and no rule looks at it. -/
structure MatchSpec where
  host : Option Path := none
  bucket : Option Path := none
  prefix_part : Option Path := none

structure TargetSpec where
  bucket : Path
  prefix_part : Path := []
deriving DecidableEq, Repr

structure ManyTargets where
  targets : List TargetSpec
  strategy : String := "round_robin"

inductive RemapRule
  | Simple (match_spec : MatchSpec) (map_to : TargetSpec)
  | Fanout (match_spec : MatchSpec) (map_to_many : ManyTargets)
  | Consolidate (match_any : List MatchSpec) (map_to : TargetSpec)
  | Regex (regex replace : Path)

structure RemapConfig where
  rules : List RemapRule

/-! ## Addresses -/

/-- What is read in an address. -/
structure Url where
  scheme : Path
  host_str : Option Path
  path : Path

structure Regex where
  is_match : Path → Bool
  replace : Path → Path → Path

/-- What the engine takes from outside. -/
structure Outside where
  parse_url : Path → Option Url
  regex : Path → Option Regex
  hash : Path → Nat

structure ParsedUri where
  scheme : Path
  bucket : Path
  prefix_part : Path
  key : Path
deriving DecidableEq, Repr

def trim_start_slashes (s : Path) : Path := s.dropWhile fun c => c = '/'

namespace ParsedUri

/-- The bucket is in the host, if there is one, or else it is the first part of the path. -/
def parse (outside : Outside) (uri : Path) : Except String ParsedUri :=
  match outside.parse_url uri with
  | none => .error s!"Invalid URI: {String.ofList uri}"
  | some url =>
    let path := trim_start_slashes url.path
    let host := url.host_str.getD []
    if url.scheme ≠ "file".toList ∧ host ≠ [] then
      .ok ⟨url.scheme, host, throughLast '/' path, lastPart '/' path⟩
    else
      let bucket := path.takeWhile fun c => c ≠ '/'
      let rest := path.drop (bucket.length + 1)
      .ok ⟨url.scheme, bucket, throughLast '/' rest, lastPart '/' rest⟩

def to_uri (parsed : ParsedUri) : Path :=
  parsed.scheme ++ ("://".toList ++ (parsed.bucket ++ '/' :: (parsed.prefix_part ++ parsed.key)))

end ParsedUri

/-! ## The engine -/

def «matches» (parsed : ParsedUri) (spec : MatchSpec) : Bool :=
  (spec.bucket.all fun bucket => parsed.bucket = bucket) &&
    spec.prefix_part.all fun part => part.isPrefixOf parsed.prefix_part

/-- An empty prefix keeps that of the address. -/
def apply_target (parsed : ParsedUri) (target : TargetSpec) : Path :=
  ParsedUri.to_uri
    { scheme := parsed.scheme
      bucket := target.bucket
      prefix_part :=
        if target.prefix_part = [] then parsed.prefix_part else target.prefix_part
      key := parsed.key }

/-- The counters of the rules, and the targets of the keys. -/
structure RemapEngine where
  config : RemapConfig
  round_robin_state : AList fun _ : Nat => Nat := ∅
  sticky_state : AList fun _ : Path => AList fun _ : Path => Nat := ∅

def RemapEngine.new (config : RemapConfig) : RemapEngine := { config := config }

/-- The target at a place, a panic where there is none. -/
def target_at (targets : List TargetSpec) (idx : Nat) : Except String TargetSpec :=
  match targets[idx]? with
  | some target => .ok target
  | none => .error "index out of bounds"

/-- `draw` is the random number. -/
def select_target_from_many (outside : Outside) (engine : RemapEngine) (draw rule_idx : Nat)
    (key : Path) (many : ManyTargets) : Except String TargetSpec × RemapEngine :=
  let n := many.targets.length
  if many.targets.isEmpty then (.error "No targets defined for fanout rule", engine)
  else if many.strategy = "round_robin" then
    let counter := (engine.round_robin_state.lookup rule_idx).getD 0
    (target_at many.targets (counter % n),
      { engine with
        round_robin_state := engine.round_robin_state.insert rule_idx ((counter + 1) % n) })
  else if many.strategy = "random" then
    (target_at many.targets (draw % n), engine)
  else if many.strategy = "sticky_key" then
    let rule_state := (engine.sticky_state.lookup (padded 10 1 rule_idx)).getD ∅
    let idx := (rule_state.lookup key).getD (outside.hash key % n)
    (target_at many.targets idx,
      { engine with
        sticky_state := engine.sticky_state.insert (padded 10 1 rule_idx)
          (rule_state.insert key idx) })
  else (.error s!"Unknown strategy: {many.strategy}", engine)

/-- A new address, and the target that was taken where there are many. -/
structure Remapped where
  uri : Path
  target : Option TargetSpec := none
deriving DecidableEq, Repr

/-- The rule matches the address. -/
def rule_matches (outside : Outside) (uri : Path) (parsed : ParsedUri) :
    RemapRule → Except String Bool
  | .Simple match_spec _ | .Fanout match_spec _ => .ok («matches» parsed match_spec)
  | .Consolidate match_any _ => .ok (match_any.any («matches» parsed))
  | .Regex regex _ => match outside.regex regex with
    | none => .error s!"Invalid regex: {String.ofList regex}"
    | some re => .ok (re.is_match uri)

def apply_rule (outside : Outside) (engine : RemapEngine) (draw : Nat) (uri : Path)
    (parsed : ParsedUri) (rule_idx : Nat) : RemapRule → Except String Remapped × RemapEngine
  | .Simple _ map_to | .Consolidate _ map_to => (.ok { uri := apply_target parsed map_to }, engine)
  | .Fanout _ many =>
    match select_target_from_many outside engine draw rule_idx parsed.key many with
    | (.error e, engine) => (.error e, engine)
    | (.ok target, engine) => (.ok ⟨apply_target parsed target, some target⟩, engine)
  | .Regex regex replace => match outside.regex regex with
    | none => (.error s!"Invalid regex: {String.ofList regex}", engine)
    | some re => (.ok { uri := re.replace uri replace }, engine)

/-- The first of the rules that matches, with its place. -/
def first_match (outside : Outside) (uri : Path) (parsed : ParsedUri) :
    Nat → List RemapRule → Except String (Option (Nat × RemapRule))
  | _, [] => .ok none
  | rule_idx, rule :: rules => match rule_matches outside uri parsed rule with
    | .error e => .error e
    | .ok true => .ok (some (rule_idx, rule))
    | .ok false => first_match outside uri parsed (rule_idx + 1) rules

def RemapEngine.remap (outside : Outside) (engine : RemapEngine) (draw : Nat) (uri : Path) :
    Except String Remapped × RemapEngine :=
  match ParsedUri.parse outside uri with
  | .error e => (.error e, engine)
  | .ok parsed => match first_match outside uri parsed 0 engine.config.rules with
    | .error e => (.error e, engine)
    | .ok none => (.ok { uri := uri }, engine)
    | .ok (some (rule_idx, rule)) => apply_rule outside engine draw uri parsed rule_idx rule

end sai3_bench.remap

namespace sai3_bench.replay_streaming

open directory_tree texts remap
open oplog_merge (OpLogEntry)

/-! ## The addresses of a replay -/

/-- One to one, without rules. -/
def translate_uri (file endpoint target : Path) : Path :=
  let relative := ( strip_prefix endpoint file).getD file
  let target_clean := (target.reverse.dropWhile fun c => c = '/').reverse
  target_clean ++ '/' :: trim_start_slashes relative

/-- The address of an operation. Each operation makes an engine of its own. -/
def operation_uri (outside : Outside) (remap_config : Option RemapConfig)
    (target_uri : Option Path) (draw : Nat) (entry : OpLogEntry) : Except String Remapped :=
  match remap_config, target_uri with
  | some remap_config, _ =>
    (RemapEngine.remap outside (.new remap_config) draw (entry.endpoint ++ entry.file)).1
  | none, some target => .ok { uri := translate_uri entry.file entry.endpoint target }
  | none, none => .ok { uri := entry.endpoint ++ entry.file }

/-- An operation with its random number. -/
abbrev Operation := OpLogEntry × Nat

def original_uri (op : Operation) : Path := op.1.endpoint ++ op.1.file

/-- The place of the rule that an operation is matched by. -/
def matched_rule (outside : Outside) (config : RemapConfig) (op : Operation) : Option Nat :=
  (ParsedUri.parse outside (original_uri op)).toOption.bind fun parsed =>
    (first_match outside (original_uri op) parsed 0 config.rules).toOption.bind fun found =>
      found.map (·.1)

/-- The operations that a rule matches, in the order in which they are made. -/
def matched_operations (outside : Outside) (config : RemapConfig) (rule_idx : Nat)
    (ops : List Operation) : List Operation :=
  ops.filter fun op => matched_rule outside config op = some rule_idx

/-- The `k`-th operation that the rule matches goes to the target `k % m`. -/
def RoundRobinKept (outside : Outside) (config : RemapConfig) (target_uri : Option Path)
    (rule_idx : Nat) (targets : List TargetSpec) (ops : List Operation) : Prop :=
  ∀ k op, (matched_operations outside config rule_idx ops)[k]? = some op →
    ∃ r, operation_uri outside (some config) target_uri op.2 op.1 = .ok r ∧
      r.target = targets[k % targets.length]?

section

variable {outside : Outside} {engine : RemapEngine} {config : RemapConfig} {uri : Path}
  {parsed : ParsedUri} {rule : RemapRule} {draw rule_idx : Nat} {op : Operation}
  {match_spec : MatchSpec} {targets : List TargetSpec}

theorem first_match_place {start : Nat} {rules : List RemapRule}
    (h : first_match outside uri parsed start rules = .ok (some (rule_idx, rule))) :
    start ≤ rule_idx ∧ rules[rule_idx - start]? = some rule := by
  induction rules generalizing start with
  | nil => cases h
  | cons first rules ih =>
    unfold first_match at h
    split at h
    · cases h
    · cases h
      exact ⟨Nat.le_refl _, by rw [Nat.sub_self]; rfl⟩
    · obtain ⟨hle, hrule⟩ := ih h
      obtain ⟨next, rfl⟩ := Nat.exists_eq_add_of_le hle
      refine ⟨by omega, ?_⟩
      have hplace : start + 1 + next - start = next + 1 := by omega
      have hnext : start + 1 + next - (start + 1) = next := by omega
      rw [hplace, List.getElem?_cons_succ, ← hnext]
      exact hrule

/-- The counter of a rule. -/
def counter (engine : RemapEngine) (rule_idx : Nat) : Nat :=
  (engine.round_robin_state.lookup rule_idx).getD 0

/-- The engine after a round robin over `m` targets. -/
def counted (engine : RemapEngine) (rule_idx m : Nat) : RemapEngine :=
  { engine with
    round_robin_state :=
      engine.round_robin_state.insert rule_idx ((counter engine rule_idx + 1) % m) }

theorem counter_counted {m : Nat} :
    counter (counted engine rule_idx m) rule_idx = (counter engine rule_idx + 1) % m := by
  unfold counted
  rw [counter, AList.lookup_insert, Option.getD_some]

/-- A round robin takes the target that the counter says, and counts on. -/
theorem apply_round_robin (hm : 1 ≤ targets.length) : ∃ uri',
    apply_rule outside engine draw uri parsed rule_idx
        (.Fanout match_spec ⟨targets, "round_robin"⟩) =
      (.ok ⟨uri', targets[counter engine rule_idx % targets.length]?⟩,
        counted engine rule_idx targets.length) := by
  have hplace : counter engine rule_idx % targets.length < targets.length := Nat.mod_lt _ hm
  have hselect : select_target_from_many outside engine draw rule_idx parsed.key
      ⟨targets, "round_robin"⟩ =
        (target_at targets (counter engine rule_idx % targets.length),
          counted engine rule_idx targets.length) := by
    have hsome : targets.isEmpty = false := by
      rw [List.isEmpty_eq_false_iff]
      exact List.ne_nil_of_length_pos hm
    unfold select_target_from_many
    simp only [hsome, Bool.false_eq_true, if_false, if_true]
    rfl
  simp only [apply_rule, hselect, target_at, List.getElem?_eq_getElem hplace]
  exact ⟨_, rfl⟩

theorem matched_rule_iff : matched_rule outside config op = some rule_idx ↔
    ∃ parsed rule, ParsedUri.parse outside (original_uri op) = .ok parsed ∧
      first_match outside (original_uri op) parsed 0 config.rules =
        .ok (some (rule_idx, rule)) := by
  unfold matched_rule
  cases hparse : ParsedUri.parse outside (original_uri op) with
  | error e => simp [Except.toOption]
  | ok parsed =>
    cases hfirst : first_match outside (original_uri op) parsed 0 config.rules with
    | error e => simp [Except.toOption, hfirst]
    | ok found => simp [Except.toOption, hfirst]

/-- Each rule counts for itself. -/
theorem select_counts (many : ManyTargets) (key : Path) :
    (select_target_from_many outside engine draw rule_idx key many).2.config = engine.config ∧
      ∀ other, other ≠ rule_idx →
        counter (select_target_from_many outside engine draw rule_idx key many).2 other =
          counter engine other := by
  unfold select_target_from_many
  dsimp only
  split
  · exact ⟨rfl, fun _ _ => rfl⟩
  · split
    · refine ⟨rfl, fun other hother => ?_⟩
      rw [counter, AList.lookup_insert_ne hother]
      rfl
    · split
      · exact ⟨rfl, fun _ _ => rfl⟩
      · split <;> exact ⟨rfl, fun _ _ => rfl⟩

theorem apply_counts :
    (apply_rule outside engine draw uri parsed rule_idx rule).2.config = engine.config ∧
      ∀ other, other ≠ rule_idx →
        counter (apply_rule outside engine draw uri parsed rule_idx rule).2 other =
          counter engine other := by
  cases rule with
  | Simple spec target => exact ⟨rfl, fun _ _ => rfl⟩
  | Consolidate specs target => exact ⟨rfl, fun _ _ => rfl⟩
  | Regex regex replace =>
    unfold apply_rule
    dsimp only
    split <;> exact ⟨rfl, fun _ _ => rfl⟩
  | Fanout spec many =>
    have hcounts := @select_counts outside engine draw rule_idx many parsed.key
    unfold apply_rule
    dsimp only
    split
    · next e engine' hselect =>
      rw [hselect] at hcounts
      exact hcounts
    · next target engine' hselect =>
      rw [hselect] at hcounts
      exact hcounts

theorem remap_matched
    (hrule : engine.config.rules[rule_idx]? = some (.Fanout match_spec ⟨targets, "round_robin"⟩))
    (hm : 1 ≤ targets.length) (hop : matched_rule outside engine.config op = some rule_idx) :
    ∃ uri', engine.remap outside draw (original_uri op) =
      (.ok ⟨uri', targets[counter engine rule_idx % targets.length]?⟩,
        counted engine rule_idx targets.length) := by
  obtain ⟨parsed, rule, hparsed, hfirst⟩ := matched_rule_iff.mp hop
  have hplace := (first_match_place hfirst).2
  rw [Nat.sub_zero, hrule, Option.some.injEq] at hplace
  subst hplace
  obtain ⟨uri', happly⟩ := @apply_round_robin outside engine (original_uri op) parsed draw
    rule_idx match_spec targets hm
  refine ⟨uri', ?_⟩
  simp only [RemapEngine.remap, hparsed, hfirst]
  exact happly

/-- An operation of another rule leaves the counter. -/
theorem remap_counts :
    (engine.remap outside draw (original_uri op)).2.config = engine.config ∧
      (matched_rule outside engine.config op ≠ some rule_idx →
        counter (engine.remap outside draw (original_uri op)).2 rule_idx =
          counter engine rule_idx) := by
  unfold RemapEngine.remap
  split
  · exact ⟨rfl, fun _ => rfl⟩
  · next parsed hparsed =>
    split
    · exact ⟨rfl, fun _ => rfl⟩
    · exact ⟨rfl, fun _ => rfl⟩
    · next idx rule hfirst =>
      refine ⟨apply_counts.1, fun hother => apply_counts.2 rule_idx ?_⟩
      rintro rfl
      exact hother (matched_rule_iff.mpr ⟨parsed, rule, hparsed, hfirst⟩)

/-! ## One engine for all the operations -/

/-- The operations with the addresses that one engine gives them in their order. -/
def shared_uris (outside : Outside) :
    RemapEngine → List Operation → List (Operation × Except String Remapped)
  | _, [] => []
  | engine, op :: ops =>
    (op, (engine.remap outside op.2 (original_uri op)).1) ::
      shared_uris outside (engine.remap outside op.2 (original_uri op)).2 ops

/-- The law is that of one engine: each operation of the rule goes to the next target. -/
theorem shared_round_robin {ops : List Operation}
    (hrule : config.rules[rule_idx]? = some (.Fanout match_spec ⟨targets, "round_robin"⟩))
    (hm : 1 ≤ targets.length) (hconfig : engine.config = config) {k : Nat}
    {r : Operation × Except String Remapped}
    (hk : ((shared_uris outside engine ops).filter fun r =>
      matched_rule outside config r.1 = some rule_idx)[k]? = some r) :
    ∃ uri', r.2 = .ok ⟨uri', targets[(counter engine rule_idx + k) % targets.length]?⟩ := by
  induction ops generalizing engine k with
  | nil => cases hk
  | cons op ops ih =>
    have hcounts := @remap_counts outside engine op.2 rule_idx op
    have hkept : (engine.remap outside op.2 (original_uri op)).2.config = config :=
      hcounts.1.trans hconfig
    rw [shared_uris, List.filter_cons] at hk
    by_cases hop : matched_rule outside config op = some rule_idx
    · subst hconfig
      obtain ⟨uri', hremap⟩ := @remap_matched outside engine op.2 rule_idx op match_spec targets
        hrule hm hop
      rw [if_pos (decide_eq_true hop)] at hk
      cases k with
      | zero =>
        cases hk
        exact ⟨uri', by rw [hremap]; rfl⟩
      | succ k =>
        obtain ⟨uri', hr⟩ := ih hkept hk
        refine ⟨uri', ?_⟩
        rw [hr, hremap]
        dsimp only
        rw [counter_counted, Nat.mod_add_mod, Nat.add_assoc, Nat.add_comm 1 k]
    · rw [if_neg (fun h => hop (of_decide_eq_true h))] at hk
      obtain ⟨uri', hr⟩ := ih hkept hk
      refine ⟨uri', ?_⟩
      rw [hr, hcounts.2 (hconfig ▸ hop)]

/-! ## An engine for each operation -/

theorem counter_new : counter (.new config) rule_idx = 0 := rfl

/-- Each operation of the rule goes to the first target. -/
theorem operation_first {target_uri : Option Path}
    (hrule : config.rules[rule_idx]? = some (.Fanout match_spec ⟨targets, "round_robin"⟩))
    (hm : 1 ≤ targets.length) (hop : matched_rule outside config op = some rule_idx) :
    ∃ uri', operation_uri outside (some config) target_uri op.2 op.1 =
      .ok ⟨uri', targets[0]?⟩ := by
  obtain ⟨uri', hremap⟩ := @remap_matched outside (.new config) op.2 rule_idx op match_spec
    targets hrule hm hop
  refine ⟨uri', ?_⟩
  rw [counter_new, Nat.zero_mod] at hremap
  exact congrArg Prod.fst hremap

end

/-- The round robin is kept over a replay where it has nothing to go round: each target
whose turn would come is the first one again. -/
theorem round_robin_kept_iff (outside : Outside) (config : RemapConfig)
    (target_uri : Option Path) (rule_idx : Nat) (match_spec : MatchSpec)
    (targets : List TargetSpec) (ops : List Operation)
    (hrule : config.rules[rule_idx]? = some (.Fanout match_spec ⟨targets, "round_robin"⟩))
    (hm : 1 ≤ targets.length) :
    RoundRobinKept outside config target_uri rule_idx targets ops ↔
      ∀ i, i < targets.length → i < (matched_operations outside config rule_idx ops).length →
        targets[i]? = targets[0]? := by
  have hfirst : ∀ {k : Nat} {op : Operation},
      (matched_operations outside config rule_idx ops)[k]? = some op →
      ∃ uri', operation_uri outside (some config) target_uri op.2 op.1 =
        .ok ⟨uri', targets[0]?⟩ := by
    intro k op hk
    have hop := (List.mem_filter.mp (List.mem_of_getElem? hk)).2
    exact operation_first hrule hm (of_decide_eq_true hop)
  constructor
  · intro hkept i hi hmatched
    have hplace := List.getElem?_eq_getElem hmatched
    obtain ⟨r, hr, htarget⟩ := hkept i _ hplace
    obtain ⟨uri', huri⟩ := hfirst hplace
    rw [huri] at hr
    cases hr
    rw [Nat.mod_eq_of_lt hi] at htarget
    exact htarget.symm
  · intro h k op hk
    obtain ⟨uri', huri⟩ := hfirst hk
    obtain ⟨hlt, -⟩ := List.getElem?_eq_some_iff.mp hk
    have hturn : k % targets.length ≤ k := Nat.mod_le _ _
    exact ⟨_, huri, (h _ (Nat.mod_lt _ hm) (by omega)).symm⟩

/-- Addresses of one scheme, with a host. -/
def s3_only : Outside where
  parse_url uri := ( strip_prefix "s3://".toList uri).map fun rest =>
    { scheme := "s3".toList
      host_str := some (rest.takeWhile fun c => c ≠ '/')
      path := rest.dropWhile fun c => c ≠ '/' }
  regex _ := none
  hash _ := 0

/-- Two replicas in turn. -/
def two_replicas : List TargetSpec := [⟨"dest1".toList, []⟩, ⟨"dest2".toList, []⟩]

def fan_out (targets : List TargetSpec) : RemapConfig :=
  ⟨[.Fanout { bucket := some "src".toList } ⟨targets, "round_robin"⟩]⟩

def two_reads : List Operation :=
  [(⟨.GET, 0, "s3://src/".toList, "data/file1.dat".toList, none, 0, none⟩, 0),
    (⟨.GET, 0, "s3://src/".toList, "data/file2.dat".toList, none, 1, none⟩, 0)]

theorem round_robin_kept_one_target :
    RoundRobinKept s3_only (fan_out [⟨"dest1".toList, []⟩]) none 0 [⟨"dest1".toList, []⟩]
      two_reads := by
  refine (round_robin_kept_iff s3_only (fan_out [⟨"dest1".toList, []⟩]) none 0
    { bucket := some "src".toList } [⟨"dest1".toList, []⟩] two_reads rfl (Nat.le_refl _)).mpr ?_
  intro i hi _
  rw [Nat.lt_one_iff.mp hi]

/-- The second read of two goes to the first replica again. -/
theorem round_robin_lost : ¬ ∀ (outside : Outside) (config : RemapConfig)
    (target_uri : Option Path) (rule_idx : Nat) (match_spec : MatchSpec)
    (targets : List TargetSpec) (ops : List Operation),
    config.rules[rule_idx]? = some (.Fanout match_spec ⟨targets, "round_robin"⟩) →
    1 ≤ targets.length → RoundRobinKept outside config target_uri rule_idx targets ops := by
  intro h
  have hkept := h s3_only (fan_out two_replicas) none 0 { bucket := some "src".toList }
    two_replicas two_reads rfl (by decide)
  obtain ⟨r, hr, htarget⟩ := hkept 1
    (⟨.GET, 0, "s3://src/".toList, "data/file2.dat".toList, none, 1, none⟩, 0) (by rfl)
  have hfirst : r.target = some ⟨"dest1".toList, []⟩ := by
    cases hr
    rfl
  rw [hfirst] at htarget
  revert htarget
  decide

end sai3_bench.replay_streaming
