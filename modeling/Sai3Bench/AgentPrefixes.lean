-- The path prefix of an agent (config.rs): what it makes of the addresses of a config,
-- and which configs keep two agents apart.
import Sai3Bench.ConfigTrips
import Sai3Bench.PrepareTurns

namespace sai3_bench.config.written

open directory_tree texts
open prepare (withSlash joinUri withSlash_ends withSlash_of_ends withSlash_append prefix_withSlash)

/-! ## The prefix -/

/-- Join a base with a suffix; the scheme of an address is not part of its path. -/
def join_uri_path (base suffix : Path) : Path :=
  if suffix.isEmpty then base
  else
    let normalized_path (path : Path) :=
      if path.isEmpty || path.getLast? = some '/' then path else path ++ ['/']
    let normalized_suffix := suffix.dropWhile (· = '/')
    match beforeFirst "://".toList base with
    | some before =>
      let scheme_end := before.length
      let scheme := base.take (scheme_end + 3)
      let path := base.drop (scheme_end + 3)
      scheme ++ normalized_path path ++ normalized_suffix
    | none => normalized_path base ++ normalized_suffix

/-- The base of a spec, moved with the target. -/
def moved_base_uri (orig_target new_target path_prefix base_uri_str : Path) : Path :=
  match strip_prefix orig_target base_uri_str with
  | some relative_path => new_target ++ relative_path
  | none => join_uri_path base_uri_str path_prefix

/-- The id of the agent is not used, and no path fails to join. -/
def Config.apply_agent_prefix (self : Config) ( path_prefix : String) (shared_storage : Bool) :
    Config :=
  let original_target := self.target
  let target := self.target.map fun target =>
    String.ofList (join_uri_path target.toList path_prefix.toList)
  let prepare := match target, original_target with
    | some new_target, some orig_target =>
      if shared_storage then self.prepare
      else self.prepare.map fun prepare => { prepare with
        ensure_objects := prepare.ensure_objects.map fun ensure_spec => { ensure_spec with
          base_uri := ensure_spec.base_uri.map fun base_uri_str => String.ofList <|
            moved_base_uri orig_target.toList new_target.toList path_prefix.toList
              base_uri_str.toList } }
    | _, _ => self.prepare
  { self with target, prepare }

/-! ## Addresses -/

def EnsureSpec.get_base_uri (spec : EnsureSpec) (multi_endpoint_uris : Option (List String)) :
    Except String Path :=
  prepare.EnsureSpec.get_base_uri
    { base_uri := spec.base_uri.map String.toList, count := spec.count.toNat }
    (multi_endpoint_uris.map (·.map String.toList))

def Config.specs (config : Config) : List EnsureSpec :=
  (config.prepare.map (·.ensure_objects)).getD []

/-- The base of a spec, when it has one. -/
def Config.base_of (config : Config) (spec : EnsureSpec) : Option Path :=
  (spec.get_base_uri (config.multi_endpoint.map (·.endpoints))).toOption

/-- The target and the bases of the specs. -/
def Config.bases (config : Config) : List Path :=
  (config.target.map String.toList).toList ++ config.specs.filterMap config.base_of

/-- A base extended by a key. -/
def Config.Addresses (config : Config) (uri : Path) : Prop :=
  ∃ base ∈ config.bases, ∃ key, uri = joinUri base key

/-- Two agents have no object in common, and what was inside the target of an agent
is at the same place inside its new one. -/
structure Isolated (config : Config) (first second : String) : Prop where
  apart : ∀ uri, ¬((config.apply_agent_prefix first false).Addresses uri ∧
    (config.apply_agent_prefix second false).Addresses uri)
  inside : ∀ path_prefix ∈ [first, second], ∀ target, config.target = some target →
    ∃ new_target, (config.apply_agent_prefix path_prefix false).target = some new_target ∧
      ∀ (idx : Nat) spec rest, config.specs[idx]? = some spec →
        spec.base_uri = some (target ++ rest) →
        ∃ spec', (config.apply_agent_prefix path_prefix false).specs[idx]? = some spec' ∧
          spec'.base_uri = some (new_target ++ rest)

/-! ## Places -/

/-- A base: the part that the prefix goes on, and the part after it. -/
structure Place where
  root : Path
  rest : Path

/-- A root with its slash; an empty one has none. -/
def opened (root : Path) : Path := if root = [] then [] else withSlash root

def Place.moved (place : Place) (own : Path) : Path := opened place.root ++ own ++ place.rest

/-- The place of a base beside or inside the target. -/
def placed (target base_uri : Path) : Place :=
  match strip_prefix target base_uri with
  | some rest => ⟨target, rest⟩
  | none => ⟨base_uri, []⟩

def Config.places (config : Config) (target : Path) : List Place :=
  ⟨target, []⟩ :: config.specs.filterMap fun spec =>
    spec.base_uri.map fun base_uri => placed target base_uri.toList

/-- What the prefix puts after a root. -/
def own ( path_prefix : String) : Path := path_prefix.toList.dropWhile (· = '/')

/-- When two agents are apart, by the target, the bases and the prefixes. -/
structure Separates (config : Config) (target first second : Path) : Prop where
  based : ∀ spec ∈ config.specs, spec.base_uri = none → config.base_of spec = none
  prefixes : Apart first second ∨
    target = [] ∧ (first = [] ∧ (∀ x ∈ config.places target, Apart (withSlash x.rest) second) ∨
      second = [] ∧ ∀ x ∈ config.places target, Apart (withSlash x.rest) first)
  nested : ∀ x ∈ config.places target, ∀ y ∈ config.places target, ∀ below ≠ [],
    opened y.root = opened x.root ++ below →
    Apart (withSlash (first ++ x.rest)) (withSlash (below ++ second ++ y.rest)) ∧
      Apart (withSlash (second ++ x.rest)) (withSlash (below ++ first ++ y.rest))

variable {config : Config} {target : String} {first second path_prefix : String}
  {base r s t : Path}

/-! ## Slashes -/

theorem withSlash_opened (h : r ≠ []) : withSlash (opened r) = opened r := by
  unfold opened
  rw [if_neg h]
  exact withSlash_of_ends (withSlash_ends r)

theorem ne_nil_of_under (hr : r ≠ [])
    (h : Apart (withSlash (opened r ++ s)) (withSlash (opened r ++ t))) : s ≠ [] := by
  rintro rfl
  rw [List.append_nil, withSlash_opened hr] at h
  exact h.1 ((List.prefix_append _ _).trans prefix_withSlash)

/-- What parts under a root parts without it. -/
theorem apart_of_under (h : Apart (withSlash (opened r ++ s)) (withSlash (opened r ++ t))) :
    Apart (withSlash s) (withSlash t) := by
  by_cases hr : r = []
  · subst hr
    exact h
  · have hs := ne_nil_of_under hr h
    have ht := ne_nil_of_under hr h.symm
    rwa [withSlash_append hs, withSlash_append ht, apart_append_left] at h

/-- Two configs have no object in common when all their bases part. -/
theorem no_common_address_iff {config config' : Config} :
    (∀ uri, ¬(config.Addresses uri ∧ config'.Addresses uri)) ↔
      ∀ base ∈ config.bases, ∀ base' ∈ config'.bases, Apart (withSlash base) (withSlash base') := by
  constructor
  · intro h base hbase base' hbase'
    by_contra hmeet
    obtain ⟨key, key', hkey⟩ := exists_common_iff.mpr hmeet
    exact h _ ⟨⟨base, hbase, key, rfl⟩, base', hbase', key', hkey⟩
  · rintro h uri ⟨⟨base, hbase, key, rfl⟩, base', hbase', key', hkey⟩
    exact exists_common_iff.mp ⟨key, key', hkey⟩ (h base hbase base' hbase')

/-! ## One prefix -/

theorem own_ends (h : path_prefix.toList.getLast? = some '/') :
    own path_prefix = [] ∨ (own path_prefix).getLast? = some '/' := by
  by_cases hnil : own path_prefix = []
  · exact .inl hnil
  · refine .inr ?_
    rw [← List.takeWhile_append_dropWhile (p := (· = '/')) (l := path_prefix.toList)] at h
    unfold own at hnil ⊢
    rwa [List.getLast?_append_of_ne_nil _ hnil] at h

theorem normalized_path_eq (path : Path) :
    (if path.isEmpty || path.getLast? = some '/' then path else path ++ ['/']) = opened path := by
  unfold opened withSlash
  by_cases hpath : path = []
  · rw [if_pos hpath, hpath]
    rfl
  · rw [if_neg hpath]
    have hempty : path.isEmpty = false := by simpa using hpath
    simp only [hempty, Bool.false_or, decide_eq_true_eq]

/-- The scheme makes no difference. -/
theorem join_uri_path_eq {suffix : Path} (h : suffix ≠ []) :
    join_uri_path base suffix = opened base ++ suffix.dropWhile (· = '/') := by
  unfold join_uri_path
  have hempty : suffix.isEmpty = false := by simpa using h
  simp only [hempty, Bool.false_eq_true, if_false, normalized_path_eq]
  split
  · rename_i before hbefore
    obtain ⟨path, rfl⟩ := eq_of_beforeFirst hbefore
    have htake : (before ++ "://".toList ++ path).take (before.length + 3) =
        before ++ "://".toList := List.take_left' (by simp)
    have hdrop : (before ++ "://".toList ++ path).drop (before.length + 3) = path :=
      List.drop_left' (by simp)
    rw [htake, hdrop]
    congr 1
    have hne : before ++ "://".toList ++ path ≠ [] := by simp
    unfold opened
    rw [if_neg hne]
    by_cases hpath : path = []
    · rw [if_pos hpath, hpath, List.append_nil, withSlash_of_ends]
      simp
    · rw [if_neg hpath, withSlash_append hpath]
  · rfl

/-! ## The new config -/

theorem ne_nil_of_ends (h : s.getLast? = some '/') : s ≠ [] := by
  rintro rfl
  cases h

theorem moved_base_uri_eq (h : path_prefix.toList ≠ []) (base_uri : Path) :
    moved_base_uri target.toList (join_uri_path target.toList path_prefix.toList)
      path_prefix.toList base_uri = (placed target.toList base_uri).moved (own path_prefix) := by
  unfold moved_base_uri placed Place.moved own
  split
  · rw [join_uri_path_eq h]
  · rw [join_uri_path_eq h, List.append_nil]

/-- A spec of the new config. -/
def moved_spec (target : String) ( path_prefix : String) (spec : EnsureSpec) : EnsureSpec :=
  { spec with
    base_uri := spec.base_uri.map fun base_uri_str => String.ofList <|
      moved_base_uri target.toList (join_uri_path target.toList path_prefix.toList)
        path_prefix.toList base_uri_str.toList }

theorem new_target (h : config.target = some target) :
    (config.apply_agent_prefix path_prefix false).target =
      some (String.ofList (join_uri_path target.toList path_prefix.toList)) := by
  unfold Config.apply_agent_prefix
  rw [h]
  rfl

theorem new_specs (h : config.target = some target) :
    (config.apply_agent_prefix path_prefix false).specs =
      config.specs.map (moved_spec target path_prefix) := by
  unfold Config.apply_agent_prefix Config.specs
  rw [h]
  cases hprepare : config.prepare with
  | none => rfl
  | some prepare =>
    simp only [Option.map_some, Bool.false_eq_true, if_false, String.toList_ofList,
      Option.getD_some]
    rfl

theorem untargeted (h : config.target = none) :
    config.apply_agent_prefix path_prefix false = config := by
  unfold Config.apply_agent_prefix
  rw [h]
  obtain ⟨⟩ := config
  cases h
  rfl

theorem new_base_of (hpre : path_prefix.toList ≠ [])
    (spec : EnsureSpec) :
    (config.apply_agent_prefix path_prefix false).base_of (moved_spec target path_prefix spec) =
      match spec.base_uri with
      | some base_uri => some ((placed target.toList base_uri.toList).moved (own path_prefix))
      | none => config.base_of spec := by
  have hendpoints : (config.apply_agent_prefix path_prefix false).multi_endpoint =
      config.multi_endpoint := rfl
  unfold Config.base_of EnsureSpec.get_base_uri moved_spec
  rw [hendpoints]
  cases hbase : spec.base_uri with
  | some base_uri =>
    simp only [Option.map_some, String.toList_ofList]
    rw [moved_base_uri_eq hpre]
    rfl
  | none => rfl

/-- The bases of an agent: the places with its own prefix, and those that are not its own. -/
theorem mem_new_bases (h : config.target = some target) (hpre : path_prefix.toList ≠ []) :
    base ∈ (config.apply_agent_prefix path_prefix false).bases ↔
      (∃ x ∈ config.places target.toList, base = x.moved (own path_prefix)) ∨
      ∃ spec ∈ config.specs, spec.base_uri = none ∧ config.base_of spec = some base := by
  have hroot : (⟨target.toList, []⟩ : Place).moved (own path_prefix) =
      join_uri_path target.toList path_prefix.toList := by
    rw [join_uri_path_eq hpre]
    exact List.append_nil _
  unfold Config.bases Config.places
  rw [new_target h, new_specs h]
  simp only [Option.map_some, Option.toList_some, String.toList_ofList, List.singleton_append,
    List.mem_cons, List.mem_filterMap, List.mem_map, exists_exists_and_eq_and, exists_eq_or_imp,
    Option.map_eq_some_iff, new_base_of hpre, hroot, or_assoc]
  refine or_congr_right ?_
  constructor
  · rintro ⟨spec, hspec, hbase⟩
    cases hown : spec.base_uri with
    | some base_uri =>
      rw [hown] at hbase
      exact .inl ⟨_, ⟨spec, hspec, base_uri, hown, rfl⟩, (Option.some.inj hbase).symm⟩
    | none =>
      rw [hown] at hbase
      exact .inr ⟨spec, hspec, hown, hbase⟩
  · rintro (⟨_, ⟨spec, hspec, base_uri, hown, rfl⟩, rfl⟩ | ⟨spec, hspec, hown, hbase⟩)
    · exact ⟨spec, hspec, by rw [hown]⟩
    · exact ⟨spec, hspec, by rw [hown]; exact hbase⟩

/-! ## Places that part -/

section Places

variable {x y : Place} {a b below : Path}

theorem moved_eq (place : Place) (a : Path) : place.moved a = opened place.root ++ (a ++ place.rest) :=
  List.append_assoc _ _ _

theorem moved_below (h : opened y.root = opened x.root ++ below) :
    y.moved b = opened x.root ++ (below ++ b ++ y.rest) := by
  rw [moved_eq, h]
  simp only [List.append_assoc]

theorem withSlash_moved (ha : a ≠ []) :
    withSlash (x.moved a) = opened x.root ++ withSlash (a ++ x.rest) := by
  rw [moved_eq, withSlash_append (List.append_ne_nil_of_left_ne_nil ha _)]

theorem apart_withSlash (h : Apart a b) (s t : Path) :
    Apart (withSlash (a ++ s)) (withSlash (b ++ t)) :=
  h.mono ((List.prefix_append _ _).trans prefix_withSlash)
    ((List.prefix_append _ _).trans prefix_withSlash)

/-- A place whose root goes on from the root of another. -/
theorem moved_apart_of_below (ha : a ≠ []) (hb : b ≠ [])
    (hroot : opened y.root = opened x.root ++ below)
    (h : Apart (withSlash (a ++ x.rest)) (withSlash (below ++ b ++ y.rest))) :
    Apart (withSlash (x.moved a)) (withSlash (y.moved b)) := by
  have hne : below ++ b ++ y.rest ≠ [] := by
    simp [hb]
  rw [withSlash_moved ha, moved_below hroot, withSlash_append hne, apart_append_left]
  exact h

theorem root_of_empty (hx : x ∈ config.places []) : x.root = [] := by
  rcases List.mem_cons.mp hx with rfl | hx
  · rfl
  · obtain ⟨spec, _, hspec⟩ := List.mem_filterMap.mp hx
    obtain ⟨base_uri, _, rfl⟩ := Option.map_eq_some_iff.mp hspec
    rfl

theorem moved_of_empty (hx : x ∈ config.places []) : x.moved a = a ++ x.rest := by
  rw [moved_eq, root_of_empty hx]
  rfl

/-- One of the agents has nothing of its own to put after an empty target. -/
theorem moved_apart_of_empty (hx : x ∈ config.places []) (hy : y ∈ config.places [])
    (h : Apart (withSlash x.rest) b) :
    Apart (withSlash (x.moved [])) (withSlash (y.moved b)) := by
  rw [moved_of_empty hx, moved_of_empty hy]
  exact h.mono List.prefix_rfl ((List.prefix_append _ _).trans prefix_withSlash)

theorem apart_of_moved_empty (hb : b = [] ∨ b.getLast? = some '/')
    (h : ∀ x ∈ config.places [], ∀ y ∈ config.places [],
      Apart (withSlash (x.moved [])) (withSlash (y.moved b))) :
    ∀ x ∈ config.places [], Apart (withSlash x.rest) b := by
  intro x hx
  have hplace : (⟨[], []⟩ : Place) ∈ config.places [] := List.mem_cons_self
  rcases hb with rfl | hb
  · exact absurd (h _ hplace _ hplace) apart_self
  · have hapart := h x hx _ hplace
    rwa [moved_of_empty hx, moved_of_empty hplace, List.nil_append, List.append_nil,
      withSlash_of_ends hb] at hapart

/-- The prefixes of two agents with the same target. -/
theorem prefixes_of_apart {root : Path} (ha : a = [] ∨ a.getLast? = some '/')
    (hb : b = [] ∨ b.getLast? = some '/')
    (h : ∀ x ∈ config.places root, ∀ y ∈ config.places root,
      Apart (withSlash (x.moved a)) (withSlash (y.moved b))) :
    Apart a b ∨ root = [] ∧ (a = [] ∧ (∀ x ∈ config.places root, Apart (withSlash x.rest) b) ∨
      b = [] ∧ ∀ x ∈ config.places root, Apart (withSlash x.rest) a) := by
  have hplace : (⟨root, []⟩ : Place) ∈ config.places root := List.mem_cons_self
  have hown : Apart (withSlash (opened root ++ a)) (withSlash (opened root ++ b)) := by
    have hboth := h _ hplace _ hplace
    rwa [moved_eq, moved_eq, List.append_nil, List.append_nil] at hboth
  have hroot : a = [] ∨ b = [] → root = [] := by
    intro hnil
    by_contra hr
    rcases hnil with hnil | hnil
    · exact ne_nil_of_under hr hown hnil
    · exact ne_nil_of_under hr hown.symm hnil
  rcases ha with rfl | ha
  · obtain rfl := hroot (.inl rfl)
    exact .inr ⟨rfl, .inl ⟨rfl, apart_of_moved_empty hb h⟩⟩
  rcases hb with rfl | hb
  · obtain rfl := hroot (.inr rfl)
    exact .inr ⟨rfl, .inr ⟨rfl, apart_of_moved_empty (.inr ha) fun x hx y hy => (h y hy x hx).symm⟩⟩
  · have hparts := apart_of_under hown
    rw [withSlash_of_ends ha, withSlash_of_ends hb] at hparts
    exact .inl hparts

/-- Two agents whose prefixes part: the places that one agent has below a root of the
other decide. -/
theorem moved_apart (hab : Apart a b)
    (hbelow : ∀ below ≠ [], opened y.root = opened x.root ++ below →
      Apart (withSlash (a ++ x.rest)) (withSlash (below ++ b ++ y.rest)))
    (habove : ∀ below ≠ [], opened x.root = opened y.root ++ below →
      Apart (withSlash (b ++ y.rest)) (withSlash (below ++ a ++ x.rest))) :
    Apart (withSlash (x.moved a)) (withSlash (y.moved b)) := by
  have ha := hab.left_ne_nil
  have hb := hab.symm.left_ne_nil
  have hsame : opened y.root = opened x.root ++ [] →
      Apart (withSlash (x.moved a)) (withSlash (y.moved b)) := fun hroot =>
    moved_apart_of_below ha hb hroot (apart_withSlash hab _ _)
  by_cases hroots : Apart (opened x.root) (opened y.root)
  · rw [withSlash_moved ha, withSlash_moved hb]
    exact hroots.append _ _
  rcases not_and_or.mp hroots with h | h
  · obtain ⟨below, hroot⟩ := not_not.mp h
    by_cases hnil : below = []
    · exact hsame (hnil ▸ hroot.symm)
    · exact moved_apart_of_below ha hb hroot.symm (hbelow below hnil hroot.symm)
  · obtain ⟨below, hroot⟩ := not_not.mp h
    by_cases hnil : below = []
    · subst hnil
      exact hsame (by rw [List.append_nil] at hroot ⊢; exact hroot)
    · exact (moved_apart_of_below hb ha hroot.symm (habove below hnil hroot.symm)).symm

end Places

/-! ## Agents that are apart -/

/-- The condition on a config, which may have no target. -/
def Separated (config : Config) (first second : String) : Prop :=
  match config.target with
  | some target => Separates config target.toList (own first) (own second)
  | none => config.bases = []

/-- Bases inside the target leave nothing but the prefixes to part the agents. -/
theorem separated_of_inside (h : config.target = some target)
    (hinside : ∀ spec ∈ config.specs, ∃ rest, spec.base_uri = some (target ++ rest))
    (hapart : Apart (own first) (own second)) : Separated config first second := by
  have hroot : ∀ x ∈ config.places target.toList, x.root = target.toList := by
    intro x hx
    rcases List.mem_cons.mp hx with rfl | hx
    · rfl
    · obtain ⟨spec, hspec, hplace⟩ := List.mem_filterMap.mp hx
      obtain ⟨rest, hrest⟩ := hinside spec hspec
      rw [hrest, Option.map_some, Option.some.injEq] at hplace
      rw [← hplace, String.toList_append]
      unfold placed strip_prefix
      rw [if_pos (List.isPrefixOf_iff_prefix.mpr (List.prefix_append _ _))]
  unfold Separated
  rw [h]
  refine ⟨fun spec hspec hnone => ?_, .inl hapart, fun x hx y hy below hne hbelow => ?_⟩
  · obtain ⟨rest, hrest⟩ := hinside spec hspec
    rw [hnone] at hrest
    cases hrest
  · rw [hroot x hx, hroot y hy] at hbelow
    exact absurd (List.self_eq_append_right.mp hbelow) hne

/-- A base inside the target stays inside the new one. -/
theorem stays_inside ( path_prefix : String) (h : config.target = some target) :
    ∃ new_target, (config.apply_agent_prefix path_prefix false).target = some new_target ∧
      ∀ (idx : Nat) spec rest, config.specs[idx]? = some spec →
        spec.base_uri = some (target ++ rest) →
        ∃ spec', (config.apply_agent_prefix path_prefix false).specs[idx]? = some spec' ∧
          spec'.base_uri = some (new_target ++ rest) := by
  refine ⟨_, new_target h, fun idx spec rest hspec hbase => ⟨moved_spec target path_prefix spec, ?_, ?_⟩⟩
  · rw [new_specs h, List.getElem?_map, hspec]
    rfl
  · unfold moved_spec moved_base_uri strip_prefix
    simp only [hbase, Option.map_some, String.toList_append]
    rw [if_pos (List.isPrefixOf_iff_prefix.mpr (List.prefix_append _ _)), List.drop_left]
    simp

theorem places_apart_iff {a b root : Path} (ha : a = [] ∨ a.getLast? = some '/')
    (hb : b = [] ∨ b.getLast? = some '/')
    (hbased : ∀ spec ∈ config.specs, spec.base_uri = none → config.base_of spec = none) :
    (∀ x ∈ config.places root, ∀ y ∈ config.places root,
      Apart (withSlash (x.moved a)) (withSlash (y.moved b))) ↔ Separates config root a b := by
  constructor
  · intro h
    refine ⟨hbased, prefixes_of_apart ha hb h, fun x hx y hy below _ hroot => ⟨?_, ?_⟩⟩
    · have hapart := h x hx y hy
      rw [moved_eq, moved_below hroot] at hapart
      exact apart_of_under hapart
    · have hapart := (h y hy x hx).symm
      rw [moved_eq, moved_below hroot] at hapart
      exact apart_of_under hapart
  · intro h x hx y hy
    rcases h.prefixes with hab | ⟨rfl, ⟨rfl, hrest⟩ | ⟨rfl, hrest⟩⟩
    · refine moved_apart hab (fun below hne hroot => ?_) fun below hne hroot => ?_
      · exact (h.nested x hx y hy below hne hroot).1
      · exact (h.nested y hy x hx below hne hroot).2
    · exact moved_apart_of_empty hx hy (hrest x hx)
    · exact (moved_apart_of_empty hy hx (hrest y hy)).symm

/-- Two agents are apart exactly when the target, the bases and the prefixes part them. -/
theorem agents_isolated_iff (config : Config) (first second : String)
    (hfirst : first.toList.getLast? = some '/') (hsecond : second.toList.getLast? = some '/') :
    Isolated config first second ↔ Separated config first second := by
  have hone := ne_nil_of_ends hfirst
  have htwo := ne_nil_of_ends hsecond
  have hsplit : Isolated config first second ↔
      ∀ uri, ¬((config.apply_agent_prefix first false).Addresses uri ∧
        (config.apply_agent_prefix second false).Addresses uri) :=
    ⟨Isolated.apart, fun h => ⟨h, fun path_prefix _ _ htarget => stays_inside path_prefix htarget⟩⟩
  rw [hsplit, no_common_address_iff]
  unfold Separated
  split
  · rename_i target htarget
    constructor
    · intro h
      have hbased : ∀ spec ∈ config.specs, spec.base_uri = none → config.base_of spec = none := by
        intro spec hspec hnone
        by_contra hbase
        obtain ⟨base, hbase⟩ := Option.ne_none_iff_exists'.mp hbase
        have hold : ∃ spec ∈ config.specs, spec.base_uri = none ∧ config.base_of spec = some base :=
          ⟨spec, hspec, hnone, hbase⟩
        exact apart_self (h base ((mem_new_bases htarget hone).mpr (.inr hold)) base
          ((mem_new_bases htarget htwo).mpr (.inr hold)))
      refine (places_apart_iff (own_ends hfirst) (own_ends hsecond) hbased).mp fun x hx y hy => ?_
      exact h _ ((mem_new_bases htarget hone).mpr (.inl ⟨x, hx, rfl⟩)) _
        ((mem_new_bases htarget htwo).mpr (.inl ⟨y, hy, rfl⟩))
    · intro h base hbase base' hbase'
      have hplaces := (places_apart_iff (own_ends hfirst) (own_ends hsecond) h.based).mpr h
      rcases (mem_new_bases htarget hone).mp hbase with ⟨x, hx, rfl⟩ | ⟨spec, hspec, hnone, hsome⟩
      · rcases (mem_new_bases htarget htwo).mp hbase' with ⟨y, hy, rfl⟩ | ⟨spec, hspec, hnone, hsome⟩
        · exact hplaces x hx y hy
        · rw [h.based spec hspec hnone] at hsome
          cases hsome
      · rw [h.based spec hspec hnone] at hsome
        cases hsome
  · rename_i htarget
    rw [untargeted htarget, untargeted htarget]
    constructor
    · intro h
      rw [List.eq_nil_iff_forall_not_mem]
      exact fun base hbase => apart_self (h base hbase base hbase)
    · intro h base hbase
      rw [h] at hbase
      cases hbase

def benchRun : Config :=
  { target := some "file:///data/bench/"
    workload := []
    prepare := some { ensure_objects := [{ base_uri := some "file:///data/bench/objs/", count := 8 }] } }

theorem benchRun_isolated : "agent-1/".toList.getLast? = some '/' ∧
    "agent-2/".toList.getLast? = some '/' ∧
    (Isolated benchRun "agent-1/" "agent-2/" ↔ Separated benchRun "agent-1/" "agent-2/") :=
  ⟨by decide, by decide, agents_isolated_iff benchRun "agent-1/" "agent-2/" (by decide) (by decide)⟩

/-- A config with a prepare phase and no target. -/
def untargetedRun : Config :=
  { workload := []
    prepare := some { ensure_objects := [{ base_uri := some "file:///data/objs/", count := 8 }] } }

/-- Both agents prepare the same objects. -/
theorem agents_meet : Apart "agent-1/".toList "agent-2/".toList ∧
    ¬Isolated untargetedRun "agent-1/" "agent-2/" := by
  constructor
  · unfold Apart
    decide
  · intro h
    have hbase : "file:///data/objs/".toList ∈ untargetedRun.bases := List.mem_cons_self
    exact h.apart (joinUri "file:///data/objs/".toList "object".toList)
      ⟨⟨_, hbase, _, rfl⟩, _, hbase, _, rfl⟩

end sai3_bench.config.written
