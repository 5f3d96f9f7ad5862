-- An address that is parsed and written again (remap.rs), against the parts that it names: which
-- of them come back.
import Sai3Bench.Remaps

namespace sai3_bench.remap

open directory_tree texts

/-! ## The parts of an address -/

/-- Scheme, authority and path, as the generic syntax has them. -/
structure UriParts where
  scheme : Path
  userinfo : Option Path
  host : Path
  port : Option Path
  path : Path
deriving DecidableEq, Repr

/-- An authority ends here. -/
def delimits (c : Char) : Bool := c = '/' || c = '?' || c = '#'

/-- What stands before the last mark, without it. -/
def beforeLast (mark : Char) (s : Path) : Path := (throughLast mark s).dropLast

/-- The user information before the last `@`, if there is one. -/
def split_user (authority : Path) : Option Path × Path :=
  if '@' ∈ authority then (some (beforeLast '@' authority), lastPart '@' authority)
  else (none, authority)

/-- The digits after the last colon are the port. -/
def split_port (s : Path) : Path × Option Path :=
  if ':' ∈ s ∧ (lastPart ':' s).all Char.isDigit = true then
    (beforeLast ':' s, some (lastPart ':' s))
  else (s, none)

def parts_of (scheme authority path : Path) : UriParts where
  scheme := scheme
  userinfo := (split_user authority).1
  host := (split_port (split_user authority).2).1
  port := (split_port (split_user authority).2).2
  path := path

def split_uri (uri : Path) : Option UriParts :=
  let scheme := uri.takeWhile fun c => c ≠ ':'
  ( strip_prefix "://".toList (uri.drop scheme.length)).map fun rest =>
    let authority := rest.takeWhile fun c => !delimits c
    let path := (rest.drop authority.length).takeWhile fun c => c ≠ '?' && c ≠ '#'
    parts_of scheme authority path

/-! ## The properties -/

/-- The address has these parts, and the parser finds them. -/
structure SplitInto (outside : Outside) (uri : Path) (parts : UriParts) : Prop where
  split : split_uri uri = some parts
  parsed : ∃ url, outside.parse_url uri = some url ∧ url.scheme = parts.scheme ∧
    url.host_str.getD [] = parts.host ∧ url.path = parts.path

/-- A rule with one target, the bucket of the address and no prefix. -/
def IdentityRule (parsed : ParsedUri) : RemapRule → Prop
  | .Simple _ map_to | .Consolidate _ map_to => map_to = ⟨parsed.bucket, []⟩
  | .Fanout _ _ | .Regex _ _ => False

/-- The address is parsed, written again it has the same parts, and an identity rule that
matches it leaves them. -/
def SameObject (outside : Outside) (uri : Path) (parts : UriParts) : Prop :=
  ∃ parsed, ParsedUri.parse outside uri = .ok parsed ∧
    split_uri parsed.to_uri = some parts ∧
    ∀ (engine : RemapEngine) draw rule_idx rule,
      first_match outside uri parsed 0 engine.config.rules = .ok (some (rule_idx, rule)) →
      IdentityRule parsed rule →
      ∃ r, (engine.remap outside draw uri).1 = .ok r ∧ split_uri r.uri = some parts

/-- No user information and no port, and either the host is the bucket and the path has
one slash in front, or there is neither a host nor a bucket. -/
def Reconstructed (parts : UriParts) : Prop :=
  parts.userinfo = none ∧ parts.port = none ∧
    if parts.scheme ≠ "file".toList ∧ parts.host ≠ [] then
      parts.path = '/' :: trim_start_slashes parts.path
    else parts.host = [] ∧ parts.path = ['/']

/-! ## Parts of texts -/

theorem beforeLast_length {mark : Char} {s : Path} (h : s ≠ []) :
    (beforeLast mark s).length < s.length := by
  have hsplit := congrArg List.length (throughLast_append_lastPart mark s)
  have hpos := List.length_pos_of_ne_nil h
  unfold beforeLast
  rw [List.length_dropLast]
  rw [List.length_append] at hsplit
  omega

theorem mem_beforeLast {mark c : Char} {s : Path} (h : c ∈ beforeLast mark s) : c ∈ s := by
  rw [← throughLast_append_lastPart mark s]
  exact List.mem_append_left _ ((List.dropLast_sublist _).subset h)

theorem takeWhile_stop {p : Char → Bool} {s t : Path} (hs : ∀ c ∈ s, p c = true)
    (ht : ∀ c, t.head? = some c → p c = false) : (s ++ t).takeWhile p = s := by
  rw [List.takeWhile_append_of_pos hs]
  cases t with
  | nil => simp
  | cons c t => rw [List.takeWhile_cons_of_neg (by simp [ht c rfl]), List.append_nil]

theorem drop_takeWhile (p : Char → Bool) (s : Path) :
    s.drop (s.takeWhile p).length = s.dropWhile p := by
  have h : (s.takeWhile p ++ s.dropWhile p).drop (s.takeWhile p).length = s.dropWhile p :=
    List.drop_left
  rwa [List.takeWhile_append_dropWhile] at h

theorem head_dropWhile {p : Char → Bool} {s : Path} {c : Char}
    (h : (s.dropWhile p).head? = some c) : p c = false := by
  have hhead := List.head?_dropWhile_not p s
  rw [h] at hhead
  exact hhead

/-! ## The authority -/

theorem split_user_host_port (authority : Path) : '@' ∉ (split_user authority).2 := by
  unfold split_user
  split
  · exact mark_not_mem_lastPart '@' authority
  · next h => exact h

theorem mem_split_user {authority : Path} {c : Char} (h : c ∈ (split_user authority).2) :
    c ∈ authority := by
  unfold split_user at h
  split at h
  · exact mem_lastPart h
  · exact h

theorem mem_split_port {s : Path} {c : Char} (h : c ∈ (split_port s).1) : c ∈ s := by
  unfold split_port at h
  split at h
  · exact mem_beforeLast h
  · exact h

theorem split_user_eq (s : Path) (h : '@' ∉ s) : split_user s = (none, s) := by
  unfold split_user
  rw [if_neg h]

theorem split_port_none {s : Path} (h : (split_port s).2 = none) : split_port s = (s, none) := by
  unfold split_port at h ⊢
  split
  · next hport =>
    rw [if_pos hport] at h
    cases h
  · rfl

theorem split_port_self {s : Path} (h : (split_port s).1 = s) : (split_port s).2 = none := by
  unfold split_port at h ⊢
  split
  · next hport =>
    rw [if_pos hport] at h
    have hlt := @beforeLast_length ':' s (List.ne_nil_of_mem hport.1)
    have hself : beforeLast ':' s = s := h
    rw [hself] at hlt
    omega
  · rfl

/-- The host without the rest of the authority names the same only if there is no rest. -/
theorem parts_of_host_iff (scheme authority path path' : Path) :
    parts_of scheme (parts_of scheme authority path).host path' =
        parts_of scheme authority path ↔
      (parts_of scheme authority path).userinfo = none ∧
        (parts_of scheme authority path).port = none ∧ path' = path := by
  have hhost : '@' ∉ (split_port (split_user authority).2).1 := fun h =>
    split_user_host_port authority (mem_split_port h)
  constructor
  · intro h
    simp only [parts_of, UriParts.mk.injEq, true_and, split_user_eq _ hhost] at h
    obtain ⟨huser, hself, hport, hpath⟩ := h
    rw [split_port_self hself] at hport
    exact ⟨huser.symm, hport.symm, hpath⟩
  · rintro ⟨huser, hport, rfl⟩
    simp only [parts_of] at huser hport ⊢
    rw [split_user_eq _ hhost, huser]
    rw [split_port_none hport] at hhost ⊢
    rw [split_port_none hport]

theorem parts_of_nil (scheme path : Path) :
    parts_of scheme [] path = ⟨scheme, none, [], none, path⟩ := rfl

theorem eq_of_no_authority {parts : UriParts} (huser : parts.userinfo = none)
    (hport : parts.port = none) (hhost : parts.host = []) :
    parts_of parts.scheme [] parts.path = parts := by
  cases parts
  simp only at huser hport hhost
  rw [parts_of_nil, huser, hport, hhost]

/-! ## Split, and written again -/

theorem split_uri_joined {scheme authority path : Path} (hscheme : ':' ∉ scheme)
    (hauthority : ∀ c ∈ authority, delimits c = false)
    (hpath : ∀ c ∈ path, c ≠ '?' ∧ c ≠ '#') (hslash : ∀ c, path.head? = some c → c = '/') :
    split_uri (scheme ++ ("://".toList ++ (authority ++ path))) =
      some (parts_of scheme authority path) := by
  have htake : (scheme ++ ("://".toList ++ (authority ++ path))).takeWhile
      (fun c => decide (c ≠ ':')) = scheme := by
    apply takeWhile_stop
    · intro c hc
      exact decide_eq_true fun hm => hscheme (hm ▸ hc)
    · intro c hc
      cases hc
      rfl
  have hstop : (authority ++ path).takeWhile (fun c => !delimits c) = authority := by
    apply takeWhile_stop
    · intro c hc
      simp [hauthority c hc]
    · intro c hc
      simp [hslash c hc, delimits]
  have hrest : path.takeWhile (fun c => decide (c ≠ '?') && decide (c ≠ '#')) = path := by
    rw [List.takeWhile_eq_self_iff]
    intro c hc
    simp [hpath c hc]
  unfold split_uri
  simp only [htake, List.drop_left, strip_prefix_append, Option.map_some, hstop, hrest]

/-- What a split address looks like. -/
theorem split_uri_parts {uri : Path} {parts : UriParts} (h : split_uri uri = some parts) :
    ':' ∉ parts.scheme ∧ ∃ authority,
      parts = parts_of parts.scheme authority parts.path ∧
      (∀ c ∈ authority, delimits c = false) ∧
      (∀ c ∈ parts.path, c ≠ '?' ∧ c ≠ '#') ∧
      ∀ c, parts.path.head? = some c → c = '/' := by
  unfold split_uri at h
  simp only [Option.map_eq_some_iff] at h
  obtain ⟨rest, -, rfl⟩ := h
  refine ⟨?_, rest.takeWhile fun c => !delimits c, rfl, ?_, ?_, ?_⟩
  · intro hm
    have := List.mem_takeWhile_imp hm
    simp at this
  · intro c hc
    have := List.mem_takeWhile_imp hc
    simpa using this
  · intro c hc
    have := List.mem_takeWhile_imp hc
    simpa using this
  · -- The path starts where the authority ends, so with a slash.
    intro c hc
    have hmem := List.mem_takeWhile_imp (List.mem_of_mem_head? hc)
    simp only [drop_takeWhile] at hc
    have hstop : (rest.dropWhile fun c => !delimits c).head? = some c := by
      cases hrest : rest.dropWhile fun c => !delimits c with
      | nil =>
        rw [hrest] at hc
        cases hc
      | cons d rest' =>
        rw [hrest, List.takeWhile_cons] at hc
        split at hc
        · exact hc
        · cases hc
    have hdelimits := head_dropWhile hstop
    simp only [delimits, Bool.not_eq_false', Bool.or_eq_true, decide_eq_true_eq] at hdelimits
    simp only [Bool.and_eq_true, decide_eq_true_eq] at hmem
    rcases hdelimits with (h | h) | h
    · exact h
    · exact absurd h hmem.1
    · exact absurd h hmem.2

/-! ## Parse, and write again -/

/-- What a parsed address is written as. -/
theorem to_uri_eq (scheme bucket rest : Path) :
    ParsedUri.to_uri ⟨scheme, bucket, throughLast '/' rest, lastPart '/' rest⟩ =
      scheme ++ ("://".toList ++ (bucket ++ '/' :: rest)) := by
  unfold ParsedUri.to_uri
  dsimp only
  rw [throughLast_append_lastPart]

/-- The path that is written again. -/
def rewritten (parts : UriParts) : ParsedUri :=
  let path := trim_start_slashes parts.path
  if parts.scheme ≠ "file".toList ∧ parts.host ≠ [] then
    ⟨parts.scheme, parts.host, throughLast '/' path, lastPart '/' path⟩
  else
    let bucket := path.takeWhile fun c => c ≠ '/'
    let rest := path.drop (bucket.length + 1)
    ⟨parts.scheme, bucket, throughLast '/' rest, lastPart '/' rest⟩

theorem parse_eq {outside : Outside} {uri : Path} {parts : UriParts}
    (h : SplitInto outside uri parts) :
    ParsedUri.parse outside uri = .ok (rewritten parts) := by
  obtain ⟨url, hurl, hscheme, hhost, hpath⟩ := h.parsed
  simp only [ParsedUri.parse, hurl, hscheme, hhost, hpath, rewritten]
  split
  · rfl
  · rfl

theorem trim_subset {s : Path} {c : Char} (h : c ∈ trim_start_slashes s) : c ∈ s :=
  (List.dropWhile_sublist _).subset h

/-- A first part of the path that takes the place of an authority leaves the path only if
there is none. -/
theorem bucket_path_iff (path : Path) :
    '/' :: (trim_start_slashes path).drop
        (((trim_start_slashes path).takeWhile fun c => c ≠ '/').length + 1) = path ↔
      path = ['/'] := by
  constructor
  · intro h
    have hlength := congrArg List.length h
    have htrim : (trim_start_slashes path).length ≤ path.length :=
      (List.dropWhile_sublist _).length_le
    cases ht : trim_start_slashes path with
    | nil =>
      rw [ht] at h
      exact h.symm
    | cons c rest =>
      -- The first character is no slash, so a bucket is cut off and the rest is too short.
      have hc : decide (c = '/') = false := head_dropWhile (by
        rw [← trim_start_slashes, ht]
        rfl)
      rw [ht] at hlength htrim
      rw [List.takeWhile_cons_of_pos (by simpa using hc), List.length_cons,
        List.length_cons, List.length_drop] at hlength
      simp only [List.length_cons] at hlength htrim
      have hrest : rest = [] := List.eq_nil_of_length_eq_zero (by omega)
      subst hrest
      rw [ht, List.drop_eq_nil_of_le (by simp)] at h
      exact h.symm
  · rintro rfl
    rfl

/-- With a host, the address is written with the host and the path. -/
theorem split_host_iff {uri : Path} {parts : UriParts} (h : split_uri uri = some parts) :
    split_uri (parts.scheme ++ ("://".toList ++
        (parts.host ++ '/' :: trim_start_slashes parts.path))) = some parts ↔
      parts.userinfo = none ∧ parts.port = none ∧
        parts.path = '/' :: trim_start_slashes parts.path := by
  obtain ⟨hscheme, authority, hparts, hauthority, hpath, -⟩ := split_uri_parts h
  have hhost : ∀ c ∈ parts.host, delimits c = false := by
    intro c hc
    rw [hparts] at hc
    exact hauthority c (mem_split_user (mem_split_port hc))
  have hiff := parts_of_host_iff parts.scheme authority parts.path
    ('/' :: trim_start_slashes parts.path)
  rw [← hparts] at hiff
  rw [split_uri_joined hscheme hhost, Option.some.injEq, hiff]
  · exact and_congr_right fun _ => and_congr_right fun _ => eq_comm
  · intro c hc
    rcases List.mem_cons.mp hc with rfl | hc
    · decide
    · exact hpath c (trim_subset hc)
  · intro c hc
    exact (Option.some.inj hc).symm

/-- Without one, the first part of the path is written as the host. -/
theorem split_bucket_iff {uri : Path} {parts : UriParts} (h : split_uri uri = some parts) :
    split_uri (parts.scheme ++ ("://".toList ++
        ((trim_start_slashes parts.path).takeWhile (fun c => c ≠ '/') ++
          '/' :: (trim_start_slashes parts.path).drop
            (((trim_start_slashes parts.path).takeWhile fun c => c ≠ '/').length + 1)))) =
        some parts ↔
      parts.userinfo = none ∧ parts.port = none ∧ parts.host = [] ∧ parts.path = ['/'] := by
  obtain ⟨hscheme, -, -, -, hpath, -⟩ := split_uri_parts h
  have htrim : ∀ c ∈ trim_start_slashes parts.path, c ≠ '?' ∧ c ≠ '#' := fun c hc =>
    hpath c (trim_subset hc)
  rw [split_uri_joined hscheme]
  · rw [Option.some.injEq]
    constructor
    · intro h
      have hone := (bucket_path_iff parts.path).mp (congrArg UriParts.path h)
      rw [hone] at h
      have hnil : parts_of parts.scheme [] ['/'] = parts := h
      rw [← hnil]
      exact ⟨rfl, rfl, rfl, rfl⟩
    · rintro ⟨huser, hport, hnone, hone⟩
      rw [hone]
      have hnil := eq_of_no_authority huser hport hnone
      rw [hone] at hnil
      exact hnil
  · intro c hc
    have hslash := List.mem_takeWhile_imp hc
    have hmark := htrim c ((List.takeWhile_sublist _).subset hc)
    simpa [delimits, hmark] using hslash
  · intro c hc
    rcases List.mem_cons.mp hc with rfl | hc
    · decide
    · exact htrim c ((List.drop_sublist _ _).subset hc)
  · intro c hc
    exact (Option.some.inj hc).symm

theorem split_rewritten_iff {uri : Path} {parts : UriParts} (h : split_uri uri = some parts) :
    split_uri (rewritten parts).to_uri = some parts ↔ Reconstructed parts := by
  unfold rewritten Reconstructed
  by_cases hbucket : parts.scheme ≠ "file".toList ∧ parts.host ≠ []
  · rw [if_pos hbucket, if_pos hbucket, to_uri_eq]
    exact split_host_iff h
  · rw [if_neg hbucket, if_neg hbucket, to_uri_eq]
    exact split_bucket_iff h

/-- An identity rule writes the parsed address again. -/
theorem apply_identity {outside : Outside} {engine : RemapEngine} {uri : Path}
    {parsed : ParsedUri} {rule : RemapRule} (draw rule_idx : Nat)
    (h : IdentityRule parsed rule) :
    apply_rule outside engine draw uri parsed rule_idx rule =
      (.ok { uri := parsed.to_uri }, engine) := by
  cases rule with
  | Simple spec map_to =>
    have hmap : map_to = ⟨parsed.bucket, []⟩ := h
    subst hmap
    rfl
  | Consolidate specs map_to =>
    have hmap : map_to = ⟨parsed.bucket, []⟩ := h
    subst hmap
    rfl
  | Fanout spec many => exact h.elim
  | Regex regex replace => exact h.elim

/-- Which addresses keep their parts. -/
theorem same_object_iff {outside : Outside} {uri : Path} {parts : UriParts}
    (h : SplitInto outside uri parts) : SameObject outside uri parts ↔ Reconstructed parts := by
  have hparse := parse_eq h
  rw [← split_rewritten_iff h.split]
  constructor
  · rintro ⟨parsed, hparsed, hsame, -⟩
    rw [hparse] at hparsed
    cases hparsed
    exact hsame
  · intro hsame
    refine ⟨rewritten parts, hparse, hsame, ?_⟩
    intro engine draw rule_idx rule hfirst hrule
    refine ⟨{ uri := (rewritten parts).to_uri }, ?_, hsame⟩
    unfold RemapEngine.remap
    simp only [hparse, hfirst, apply_identity draw rule_idx hrule]

/-- A parser that splits as the generic syntax says. -/
def generic : Outside where
  parse_url uri := (split_uri uri).map fun parts =>
    { scheme := parts.scheme
      host_str := some parts.host
      path := parts.path }
  regex _ := none
  hash _ := 0

theorem generic_splits {uri : Path} {parts : UriParts} (h : split_uri uri = some parts) :
    SplitInto generic uri parts where
  split := h
  parsed := ⟨⟨parts.scheme, some parts.host, parts.path⟩, by simp [generic, h], rfl, rfl, rfl⟩

/-- An object in a bucket. -/
def object_parts : UriParts :=
  ⟨"s3".toList, none, "bucket".toList, none, "/path/to/file.dat".toList⟩

theorem same_object_in_bucket :
    SplitInto generic "s3://bucket/path/to/file.dat".toList object_parts ∧
      SameObject generic "s3://bucket/path/to/file.dat".toList object_parts :=
  have h : SplitInto generic "s3://bucket/path/to/file.dat".toList object_parts :=
    generic_splits (by decide)
  ⟨h, (same_object_iff h).mpr ⟨rfl, rfl, by decide⟩⟩

/-- The first directory of a file becomes its host. -/
theorem file_moved : ¬ ∀ (outside : Outside) uri parts,
    SplitInto outside uri parts → SameObject outside uri parts := by
  intro h
  obtain ⟨parsed, hparsed, hsame, -⟩ := h generic "file:///tmp/data/test.txt".toList
    ⟨"file".toList, none, [], none, "/tmp/data/test.txt".toList⟩ (generic_splits (by decide))
  cases hparsed
  revert hsame
  decide

end sai3_bench.remap
