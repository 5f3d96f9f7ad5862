-- The rules of a remapping with all their match fields (remap.rs): the engine leaves out the
-- host, so the rule that it applies may be one for another host.
import Sai3Bench.UriTrips

namespace sai3_bench.remap

open directory_tree texts

/-! ## The rules as they are written -/

/-- The host of an address, if it has one. -/
def uri_host (outside : Outside) (uri : Path) : Option Path :=
  (outside.parse_url uri).bind (·.host_str)

/-- No host is given, or it is the host of the address. -/
def host_agrees (host : Option Path) (spec : MatchSpec) : Bool :=
  spec.host.all fun given => host = some given

def agrees (host : Option Path) (parsed : ParsedUri) (spec : MatchSpec) : Bool :=
  host_agrees host spec && «matches» parsed spec

/-- The rule matches the address with all its fields. -/
def rule_agrees (outside : Outside) (uri : Path) (host : Option Path) (parsed : ParsedUri) :
    RemapRule → Except String Bool
  | .Simple match_spec _ | .Fanout match_spec _ => .ok (agrees host parsed match_spec)
  | .Consolidate match_any _ => .ok (match_any.any (agrees host parsed))
  | .Regex regex _ => match outside.regex regex with
    | none => .error s!"Invalid regex: {String.ofList regex}"
    | some re => .ok (re.is_match uri)

/-- The first of the rules that matches with all its fields, with its place. -/
def first_agreeing (outside : Outside) (uri : Path) (host : Option Path) (parsed : ParsedUri) :
    Nat → List RemapRule → Except String (Option (Nat × RemapRule))
  | _, [] => .ok none
  | rule_idx, rule :: rules => match rule_agrees outside uri host parsed rule with
    | .error e => .error e
    | .ok true => .ok (some (rule_idx, rule))
    | .ok false => first_agreeing outside uri host parsed (rule_idx + 1) rules

/-- What is done with the rule that was found. -/
def carry_out (outside : Outside) (engine : RemapEngine) (draw : Nat) (uri : Path)
    (parsed : ParsedUri) :
    Except String (Option (Nat × RemapRule)) → Except String Remapped × RemapEngine
  | .error e => (.error e, engine)
  | .ok none => (.ok { uri := uri }, engine)
  | .ok (some (rule_idx, rule)) => apply_rule outside engine draw uri parsed rule_idx rule

/-! ## The properties -/

/-- The rule that the engine finds is the first one that matches with all its fields, the
address is remapped by it, and it is no rule for another host. -/
structure FirstRuleApplied (outside : Outside) (engine : RemapEngine) (uri : Path)
    (host : Option Path) (parsed : ParsedUri) : Prop where
  found : first_match outside uri parsed 0 engine.config.rules =
    first_agreeing outside uri host parsed 0 engine.config.rules
  remapped : ∀ draw, engine.remap outside draw uri =
    carry_out outside engine draw uri parsed
      (first_agreeing outside uri host parsed 0 engine.config.rules)
  fires : ∀ rule_idx rule,
    first_match outside uri parsed 0 engine.config.rules = .ok (some (rule_idx, rule)) →
      rule_agrees outside uri host parsed rule = .ok true

/-- A host in a rule that matches without it is the host of the address. -/
def HostKept (host : Option Path) (parsed : ParsedUri) : RemapRule → Prop
  | .Simple spec _ | .Fanout spec _ => spec.host = none ∨ spec.host = host
  | .Consolidate specs _ =>
    ∃ spec ∈ specs, «matches» parsed spec = true ∧ (spec.host = none ∨ spec.host = host)
  | .Regex _ _ => True

/-- The first rule that matches by bucket and prefix keeps the host. -/
def HostsKept (outside : Outside) (uri : Path) (host : Option Path) (parsed : ParsedUri)
    (rules : List RemapRule) : Prop :=
  ∀ before rule after, rules = before ++ rule :: after →
    (∀ earlier ∈ before, rule_matches outside uri parsed earlier = .ok false) →
    rule_matches outside uri parsed rule = .ok true → HostKept host parsed rule

section

variable {outside : Outside} {engine : RemapEngine} {uri : Path} {host : Option Path}
  {parsed : ParsedUri} {rule : RemapRule} {rules : List RemapRule} {rule_idx : Nat}

/-! ## One rule -/

theorem host_agrees_iff {spec : MatchSpec} :
    host_agrees host spec = true ↔ spec.host = none ∨ spec.host = host := by
  unfold host_agrees
  cases hspec : spec.host with
  | none => simp
  | some given => simp [eq_comm]

/-- One group of match fields, without the host and with it. -/
theorem agrees_cases (host : Option Path) (parsed : ParsedUri) (spec : MatchSpec) :
    «matches» parsed spec = false ∧ agrees host parsed spec = false ∨
      «matches» parsed spec = true ∧
        (agrees host parsed spec = true ↔ spec.host = none ∨ spec.host = host) := by
  unfold agrees
  cases hm : «matches» parsed spec with
  | false => exact .inl ⟨rfl, by simp⟩
  | true =>
    refine .inr ⟨rfl, ?_⟩
    rw [Bool.and_true]
    exact host_agrees_iff

/-- A rule that matches with all its fields matches. -/
theorem rule_agrees_cases :
    (∃ e, rule_matches outside uri parsed rule = .error e ∧
      rule_agrees outside uri host parsed rule = .error e) ∨
    (rule_matches outside uri parsed rule = .ok false ∧
      rule_agrees outside uri host parsed rule = .ok false) ∨
    (rule_matches outside uri parsed rule = .ok true ∧
      ∃ b, rule_agrees outside uri host parsed rule = .ok b ∧
        (b = true ↔ HostKept host parsed rule)) := by
  cases rule with
  | Simple spec map_to =>
    rcases agrees_cases host parsed spec with ⟨hm, ha⟩ | ⟨hm, ha⟩
    · exact .inr (.inl ⟨congrArg Except.ok hm, congrArg Except.ok ha⟩)
    · exact .inr (.inr ⟨congrArg Except.ok hm, _, rfl, ha⟩)
  | Fanout spec many =>
    rcases agrees_cases host parsed spec with ⟨hm, ha⟩ | ⟨hm, ha⟩
    · exact .inr (.inl ⟨congrArg Except.ok hm, congrArg Except.ok ha⟩)
    · exact .inr (.inr ⟨congrArg Except.ok hm, _, rfl, ha⟩)
  | Consolidate specs map_to =>
    cases hm : specs.any («matches» parsed) with
    | false =>
      refine Or.inr (Or.inl ⟨by simp [rule_matches, hm], ?_⟩)
      rw [List.any_eq_false] at hm
      simp only [rule_agrees, Except.ok.injEq, List.any_eq_false]
      intro spec hspec
      simp [agrees, hm spec hspec]
    | true =>
      refine Or.inr (Or.inr ⟨by simp [rule_matches, hm], _, rfl, ?_⟩)
      simp [agrees, host_agrees_iff, HostKept, and_comm]
  | Regex regex replace =>
    cases hregex : outside.regex regex with
    | none =>
      exact Or.inl ⟨_, by simp [rule_matches, hregex]; rfl, by simp [rule_agrees, hregex]⟩
    | some re =>
      cases hm : re.is_match uri with
      | false =>
        exact Or.inr (Or.inl ⟨by simp [rule_matches, hregex, hm],
          by simp [rule_agrees, hregex, hm]⟩)
      | true =>
        exact Or.inr (Or.inr ⟨by simp [rule_matches, hregex, hm], true,
          by simp [rule_agrees, hregex, hm], by simp [HostKept]⟩)

/-! ## All rules -/

theorem first_agreeing_place {start : Nat}
    (h : first_agreeing outside uri host parsed start rules = .ok (some (rule_idx, rule))) :
    start ≤ rule_idx := by
  induction rules generalizing start with
  | nil => cases h
  | cons first rules ih =>
    unfold first_agreeing at h
    split at h
    · cases h
    · cases h
      exact Nat.le_refl _
    · exact Nat.le_of_succ_le (ih h)

theorem first_agreeing_agrees {start : Nat}
    (h : first_agreeing outside uri host parsed start rules = .ok (some (rule_idx, rule))) :
    rule_agrees outside uri host parsed rule = .ok true := by
  induction rules generalizing start with
  | nil => cases h
  | cons first rules ih =>
    unfold first_agreeing at h
    split at h
    · cases h
    · next hfirst =>
      cases h
      exact hfirst
    · exact ih h

/-- One more rule in front. -/
theorem hostsKept_cons : HostsKept outside uri host parsed (rule :: rules) ↔
    (rule_matches outside uri parsed rule = .ok true → HostKept host parsed rule) ∧
      (rule_matches outside uri parsed rule = .ok false →
        HostsKept outside uri host parsed rules) := by
  constructor
  · intro h
    refine ⟨fun hrule => h [] rule rules rfl (by simp) hrule, ?_⟩
    intro hrule before later after hrules hbefore hlater
    refine h (rule :: before) later after (by rw [hrules]; rfl) ?_ hlater
    intro earlier he
    rcases List.mem_cons.mp he with rfl | he
    · exact hrule
    · exact hbefore earlier he
  · rintro ⟨hfirst, hrest⟩ before later after hrules hbefore hlater
    cases before with
    | nil =>
      cases hrules
      exact hfirst hlater
    | cons earlier before =>
      cases hrules
      exact hrest (hbefore _ (by simp)) before later after rfl
        (fun e he => hbefore e (by simp [he])) hlater

theorem first_match_eq_iff (start : Nat) :
    first_match outside uri parsed start rules =
        first_agreeing outside uri host parsed start rules ↔
      HostsKept outside uri host parsed rules := by
  induction rules generalizing start with
  | nil =>
    refine iff_of_true rfl ?_
    intro before rule after h
    simp at h
  | cons rule rules ih =>
    rw [hostsKept_cons]
    unfold first_match first_agreeing
    obtain ⟨e, hm, ha⟩ | ⟨hm, ha⟩ | ⟨hm, b, ha, hb⟩ :=
      @rule_agrees_cases outside uri host parsed rule
    · simp [hm, ha]
    · simp [hm, ha, ih]
    · cases b with
      | true => simp [hm, ha, hb.mp rfl]
      | false =>
        -- The rule is for another host, and the one that it hides stands after it.
        have hlost : ¬ HostKept host parsed rule := fun h => by simpa using hb.mpr h
        simp only [hm, ha, true_implies, Except.ok.injEq, hlost, false_and, iff_false]
        intro h
        have := first_agreeing_place h.symm
        omega

theorem remap_carries_out (hparsed : ParsedUri.parse outside uri = .ok parsed) (draw : Nat) :
    engine.remap outside draw uri =
      carry_out outside engine draw uri parsed
        (first_match outside uri parsed 0 engine.config.rules) := by
  unfold RemapEngine.remap
  simp only [hparsed]
  rcases first_match outside uri parsed 0 engine.config.rules with e | _ | ⟨rule_idx, rule⟩
  · rfl
  · rfl
  · rfl

end

/-- When the engine applies the first rule that matches with all its fields. -/
theorem first_rule_applied_iff (outside : Outside) (engine : RemapEngine) (uri : Path)
    (parsed : ParsedUri) (hparsed : ParsedUri.parse outside uri = .ok parsed) :
    FirstRuleApplied outside engine uri (uri_host outside uri) parsed ↔
      HostsKept outside uri (uri_host outside uri) parsed engine.config.rules := by
  rw [← first_match_eq_iff 0]
  constructor
  · exact FirstRuleApplied.found
  · intro h
    refine ⟨h, ?_, ?_⟩
    · intro draw
      rw [remap_carries_out hparsed, h]
    · intro rule_idx rule hfirst
      rw [h] at hfirst
      exact first_agreeing_agrees hfirst

/-- A rule for the objects of one bucket, or of one host. -/
def moved (spec : MatchSpec) : RemapEngine :=
  .new ⟨[.Simple spec ⟨"dest".toList, []⟩]⟩

theorem first_rule_applied_bucket :
    FirstRuleApplied generic (moved { bucket := some "bucket".toList })
      "s3://bucket/path/to/file.dat".toList (some "bucket".toList)
      ⟨"s3".toList, "bucket".toList, "path/to/".toList, "file.dat".toList⟩ := by
  have h := first_rule_applied_iff generic (moved { bucket := some "bucket".toList })
    "s3://bucket/path/to/file.dat".toList
    ⟨"s3".toList, "bucket".toList, "path/to/".toList, "file.dat".toList⟩ (by rfl)
  refine h.mpr ?_
  intro before rule after hrules _ _
  have hmem : rule ∈ (moved { bucket := some "bucket".toList }).config.rules := by
    rw [hrules]
    simp
  rw [List.mem_singleton.mp hmem]
  exact Or.inl rfl

/-- A rule for another host moves the object. -/
theorem other_host_applied : ¬ ∀ (outside : Outside) (engine : RemapEngine) uri parsed,
    ParsedUri.parse outside uri = .ok parsed →
      FirstRuleApplied outside engine uri (uri_host outside uri) parsed := by
  intro h
  have hfires := (h generic (moved { host := some "other".toList })
    "s3://bucket/path/to/file.dat".toList
    ⟨"s3".toList, "bucket".toList, "path/to/".toList, "file.dat".toList⟩ (by rfl)).fires 0
    (.Simple { host := some "other".toList } ⟨"dest".toList, []⟩) (by rfl)
  revert hfires
  decide

end sai3_bench.remap
