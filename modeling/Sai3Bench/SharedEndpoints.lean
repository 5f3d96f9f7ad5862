-- Which endpoints are taken to share their storage (metadata_cache.rs), and which name
-- the same bucket, container or directory.
import Sai3Bench.Checkpoints

namespace sai3_bench.metadata_cache

open directory_tree texts

/-! ## Endpoints -/

/-- A bucket or a container. -/
structure Name where
  text : Path
  ne_nil : text ≠ []
  no_slash : '/' ∉ text

/-- The forms of an endpoint. What comes after the name begins with a slash, if
anything does. -/
inductive Endpoint
  | S3 (host : Path) (port : Option Nat) (bucket : Name) (rest : Option Path)
  | S3Bucket (bucket : Name) (rest : Option Path)
  | Gs (bucket : Name) (rest : Option Path)
  | Az (scheme : Bool) (host : Path) (port : Option Nat) (container : Name) (rest : Option Path)
  | File (path : Path)
  | Direct (path : Path)

/-- The kinds of storage. -/
inductive Storage
  | S3
  | Gs
  | Az
  | File
  | Direct
deriving DecidableEq, Repr

def Storage.scheme : Storage → Path
  | .S3 => "s3://".toList
  | .Gs => "gs://".toList
  | .Az => "az://".toList
  | .File => "file://".toList
  | .Direct => "direct://".toList

/-- What an endpoint addresses: a bucket, a container or a directory. -/
structure Location where
  storage : Storage
  name : Path

def Location.text (l : Location) : Path := l.storage.scheme ++ l.name

namespace Endpoint

def rest_text (rest : Option Path) : Path := (rest.map ('/' :: ·)).getD []

def authority (host : Path) (port : Option Nat) : Path :=
  host ++ (port.map fun n => ':' :: padded 10 1 n).getD []

def az_scheme (scheme : Bool) : String := if scheme then "azure" else "az"

/-- The path of the address. -/
def path : Endpoint → Path
  | .S3 _ _ bucket rest => '/' :: (bucket.text ++ rest_text rest)
  | .S3Bucket _ rest | .Gs _ rest => rest_text rest
  | .Az _ _ _ container rest => '/' :: (container.text ++ rest_text rest)
  | .File path | .Direct path => path

def uri : Endpoint → Path
  | .S3 host port bucket rest =>
    "s3://".toList ++ (authority host port ++ path (.S3 host port bucket rest))
  | .S3Bucket bucket rest => "s3://".toList ++ (bucket.text ++ rest_text rest)
  | .Gs bucket rest => "gs://".toList ++ (bucket.text ++ rest_text rest)
  | .Az scheme host port container rest =>
    (az_scheme scheme).toList ++ ("://".toList ++
      (authority host port ++ path (.Az scheme host port container rest)))
  | .File path => "file://".toList ++ path
  | .Direct path => "direct://".toList ++ path

/-- The parts of the address. -/
def parsed : Endpoint → ParsedUrl
  | .S3 host port bucket rest =>
    { scheme := "s3", host_str := some host, path := path (.S3 host port bucket rest) }
  | .S3Bucket bucket rest =>
    { scheme := "s3", host_str := some bucket.text, path := rest_text rest }
  | .Gs bucket rest => { scheme := "gs", host_str := some bucket.text, path := rest_text rest }
  | .Az scheme host port container rest =>
    { scheme := az_scheme scheme, host_str := some host
      path := path (.Az scheme host port container rest) }
  | .File path => { scheme := "file", path := path, to_file_path := some path }
  | .Direct path => { scheme := "direct", path := path }

def location : Endpoint → Location
  | .S3 _ _ bucket _ | .S3Bucket bucket _ => ⟨.S3, bucket.text⟩
  | .Gs bucket _ => ⟨.Gs, bucket.text⟩
  | .Az _ _ _ container _ => ⟨.Az, container.text⟩
  | .File path => ⟨.File, trim_end_slashes path⟩
  | .Direct path => ⟨.Direct, trim_end_slashes path⟩

/-- The endpoint with no host and no port, where these do not name the storage. -/
def without_host : Endpoint → Endpoint
  | .S3 _ _ bucket rest => .S3 [] none bucket rest
  | .Az scheme _ _ container rest => .Az scheme [] none container rest
  | e => e

/-- The first part of the path of an S3 address. -/
def s3_part : Endpoint → Option Path
  | .S3 _ _ bucket _ => some bucket.text
  | .S3Bucket _ rest =>
    some (((rest_text rest).dropWhile fun c => c = '/').takeWhile fun c => c ≠ '/')
  | _ => none

end Endpoint

/-! ## Sharing -/

section

variable {parse : Path → Option ParsedUrl} {e e' : Endpoint}

theorem takeWhile_name (name : Name) (rest : Option Path) :
    (name.text ++ Endpoint.rest_text rest).takeWhile (fun c => c ≠ '/') = name.text := by
  have hname : ∀ c ∈ name.text, decide (c ≠ '/') = true := by
    intro c hc
    rw [decide_eq_true_eq]
    rintro rfl
    exact name.no_slash hc
  have hrest : (Endpoint.rest_text rest).takeWhile (fun c => c ≠ '/') = [] := by
    cases rest <;> rfl
  rw [List.takeWhile_append_of_pos hname, hrest, List.append_nil]

theorem first_part_name (name : Name) (rest : Option Path) :
    (('/' :: (name.text ++ Endpoint.rest_text rest)).dropWhile fun c => c = '/').takeWhile
      (fun c => c ≠ '/') = name.text := by
  have hdrop : (name.text ++ Endpoint.rest_text rest).dropWhile (fun c => c = '/') =
      name.text ++ Endpoint.rest_text rest := by
    obtain ⟨text, hne, hslash⟩ := name
    cases text with
    | nil => exact absurd rfl hne
    | cons c text =>
      refine List.dropWhile_cons_of_neg ?_
      rw [decide_eq_true_eq]
      rintro rfl
      exact hslash List.mem_cons_self
  rw [List.dropWhile_cons_of_pos (by decide), hdrop, takeWhile_name]

/-- Where the bucket is in the host, the first part of the path is taken for it. -/
theorem extract_eq (h : parse e.uri = some e.parsed) :
    extract_storage_location parse e.uri = match e.s3_part with
      | some part => if part = [] then none else some ("s3://".toList ++ part)
      | none => some e.location.text := by
  unfold extract_storage_location
  rw [h, Option.bind_some]
  cases e with
  | S3 host port bucket rest =>
    have hscheme : (Endpoint.S3 host port bucket rest).parsed.scheme = "s3" := rfl
    have hpart : (((Endpoint.S3 host port bucket rest).parsed.path.dropWhile
        fun c => c = '/').takeWhile fun c => c ≠ '/') = bucket.text := first_part_name bucket rest
    dsimp only
    rw [if_pos hscheme, hpart]
    rfl
  | S3Bucket bucket rest => rfl
  | Gs bucket rest =>
    change (if bucket.text = [] then none else some ("gs://".toList ++ bucket.text)) = _
    rw [if_neg bucket.ne_nil]
    rfl
  | Az scheme host port container rest =>
    obtain ⟨hs3, hgs, haz⟩ : (Endpoint.Az scheme host port container rest).parsed.scheme ≠ "s3" ∧
        (Endpoint.Az scheme host port container rest).parsed.scheme ≠ "gs" ∧
        ((Endpoint.Az scheme host port container rest).parsed.scheme = "az" ∨
          (Endpoint.Az scheme host port container rest).parsed.scheme = "azure") := by
      dsimp only [Endpoint.parsed]
      cases scheme <;> decide
    have hpart : (((Endpoint.Az scheme host port container rest).parsed.path.dropWhile
        fun c => c = '/').takeWhile fun c => c ≠ '/') = container.text :=
      first_part_name container rest
    dsimp only
    rw [if_neg hs3, if_neg hgs, if_pos haz, hpart, if_neg container.ne_nil]
    rfl
  | File path => rfl
  | Direct path =>
    have hpath : strip_prefix "direct://".toList (Endpoint.Direct path).uri = some path :=
      strip_prefix_append _ _
    dsimp only [Endpoint.parsed]
    rw [hpath]
    rfl

theorem share_iff {uris : List Path} : endpoints_share_storage parse uris = true ↔
    2 ≤ uris.length ∧ ∃ loc, ∀ uri ∈ uris, extract_storage_location parse uri = some loc := by
  unfold endpoints_share_storage
  constructor
  · intro h
    split at h
    · cases h
    · rename_i hlength
      dsimp only at h
      split at h
      · cases h
      · rename_i hall
        refine ⟨by omega, ?_⟩
        rw [not_not, List.filterMap_length_eq_length] at hall
        rw [List.all_eq_true] at h
        cases uris with
        | nil => exact ⟨[], nofun⟩
        | cons first uris =>
          obtain ⟨loc, hfirst⟩ := Option.isSome_iff_exists.mp (hall first List.mem_cons_self)
          refine ⟨loc, fun uri huri => ?_⟩
          obtain ⟨other, hother⟩ := Option.isSome_iff_exists.mp (hall uri huri)
          have hsame := h other (List.mem_filterMap.mpr ⟨uri, huri, hother⟩)
          rw [decide_eq_true_eq, List.filterMap_cons_some hfirst, List.head?_cons] at hsame
          rw [hother, hsame]
  · rintro ⟨hlength, loc, hall⟩
    rw [if_neg (by omega)]
    have hlocations : uris.filterMap (extract_storage_location parse) = uris.map fun _ => loc := by
      rw [List.filterMap_congr hall]
      exact congrFun List.filterMap_eq_map' uris
    dsimp only
    rw [hlocations, List.length_map, if_neg (fun h => h rfl), List.all_eq_true]
    cases uris with
    | nil => nofun
    | cons first uris => simp

theorem scheme_injective {storage storage' : Storage}
    (h : storage.scheme.head? = storage'.scheme.head?) : storage = storage' := by
  cases storage <;> cases storage' <;>
    first
    | rfl
    | exact absurd h (by decide)

theorem head_text (l : Location) : l.text.head? = l.storage.scheme.head? := by
  obtain ⟨storage, name⟩ := l
  cases storage <;> rfl

/-- A location is known by its text: no two schemes begin with one letter. -/
theorem text_injective {l l' : Location} (h : l.text = l'.text) : l = l' := by
  have hstorage : l.storage = l'.storage := by
    apply scheme_injective
    rw [← head_text l, h, head_text l']
  obtain ⟨storage, name⟩ := l
  obtain ⟨storage', name'⟩ := l'
  cases hstorage
  have hname : name = name' := List.append_cancel_left h
  rw [hname]

theorem s3_part_none_iff : e.s3_part = none ↔ e.location.storage ≠ .S3 := by
  cases e <;> simp [Endpoint.s3_part, Endpoint.location]

/-- The location that is read in an address: the bucket that the first part of an S3 path
would be, or that of the endpoint. -/
theorem taken_location {loc : Path} (h : parse e.uri = some e.parsed)
    (hloc : extract_storage_location parse e.uri = some loc) : ∃ l : Location, loc = l.text ∧
      (l.storage = .S3 ∧ l.name ≠ [] ∧ e.s3_part = some l.name ∨
        l.storage ≠ .S3 ∧ e.location = l) := by
  rw [extract_eq h] at hloc
  cases hpart : e.s3_part with
  | none =>
    rw [hpart] at hloc
    cases hloc
    exact ⟨e.location, rfl, .inr ⟨s3_part_none_iff.mp hpart, rfl⟩⟩
  | some part =>
    rw [hpart] at hloc
    dsimp only at hloc
    split at hloc
    · cases hloc
    · rename_i hne
      cases hloc
      exact ⟨⟨.S3, part⟩, rfl, .inl ⟨rfl, hne, rfl⟩⟩

/-- Nothing that is compared depends on the host. -/
theorem without_host_eq (h : e.without_host = e'.without_host) :
    e.s3_part = e'.s3_part ∧ e.location = e'.location := by
  have hpart : ∀ e : Endpoint, e.without_host.s3_part = e.s3_part ∧
      e.without_host.location = e.location := by
    intro e
    cases e <;> exact ⟨rfl, rfl⟩
  rw [← (hpart e).1, ← (hpart e').1, ← (hpart e).2, ← (hpart e').2, h]
  exact ⟨rfl, rfl⟩

end

/-- Endpoints that are said to share their storage address the same one, and two or
more that differ in host and port only are said to. -/
def DetectsSharing (parse : Path → Option ParsedUrl) (endpoints : List Endpoint) : Prop :=
  (endpoints_share_storage parse (endpoints.map Endpoint.uri) = true →
    ∀ e ∈ endpoints, ∀ e' ∈ endpoints, e.location = e'.location) ∧
  (2 ≤ endpoints.length →
    (∀ e ∈ endpoints, ∀ e' ∈ endpoints, e.without_host = e'.without_host) →
      endpoints_share_storage parse (endpoints.map Endpoint.uri) = true)

/-- S3 endpoints whose paths begin with the same part name the same bucket. -/
def PartsNameBuckets (endpoints : List Endpoint) : Prop :=
  ∀ part, part ≠ [] → (∀ e ∈ endpoints, e.s3_part = some part) →
    ∀ e ∈ endpoints, ∀ e' ∈ endpoints, e.location = e'.location

/-- One S3 endpoint without a path, any number of times. -/
def OnlyOneBareBucket (endpoints : List Endpoint) : Prop :=
  (∀ e ∈ endpoints, e.s3_part = some []) ∧
    ∀ e ∈ endpoints, ∀ e' ∈ endpoints, e.without_host = e'.without_host

section

variable {parse : Path → Option ParsedUrl} {endpoints : List Endpoint}

/-- Where no bucket is in a host the paths name the buckets. -/
theorem parts_of_paths (h : ∀ e ∈ endpoints, ∀ part, e.s3_part = some part →
    e.location = ⟨.S3, part⟩) : PartsNameBuckets endpoints := by
  intro part _ hparts e he e' he'
  rw [h e he part (hparts e he), h e' he' part (hparts e' he')]

/-- An address as far as the scheme, the host and the path. -/
def read_url (uri : Path) : Option ParsedUrl :=
  (beforeFirst "://".toList uri).map fun scheme =>
    let rest := uri.drop (scheme.length + 3)
    { scheme := String.ofList scheme
      host_str := some (rest.takeWhile fun c => c ≠ '/' ∧ c ≠ ':')
      path := rest.dropWhile fun c => c ≠ '/' }

def my_bucket : Name := ⟨"my-bucket".toList, by decide, by decide⟩

def bucket1 : Name := ⟨"bucket1".toList, by decide, by decide⟩

def bucket2 : Name := ⟨"bucket2".toList, by decide, by decide⟩

/-- Sharing is detected if and only if no two buckets are in hosts before paths that
begin alike, and the endpoints are not one bare bucket repeated. -/
theorem detects_sharing_iff {parse : Path → Option ParsedUrl} {endpoints : List Endpoint}
    (hparse : ∀ e ∈ endpoints, parse e.uri = some e.parsed) :
    DetectsSharing parse endpoints ↔ endpoints.length ≤ 1 ∨
      PartsNameBuckets endpoints ∧ ¬OnlyOneBareBucket endpoints := by
  have hshare : endpoints_share_storage parse (endpoints.map Endpoint.uri) = true ↔
      2 ≤ endpoints.length ∧ ∃ loc, ∀ e ∈ endpoints,
        extract_storage_location parse e.uri = some loc := by
    rw [share_iff, List.length_map]
    simp only [List.forall_mem_map]
  unfold DetectsSharing
  rw [hshare]
  constructor
  · rintro ⟨hsound, hdetects⟩
    rcases Nat.lt_or_ge 1 endpoints.length with hmany | hone
    · refine .inr ⟨fun part hpart hparts => ?_, ?_⟩
      · refine hsound ⟨hmany, "s3://".toList ++ part, fun e he => ?_⟩
        rw [extract_eq (hparse e he), hparts e he]
        exact if_neg hpart
      · rintro ⟨hbare, hsame⟩
        obtain ⟨_, loc, hall⟩ := hdetects hmany hsame
        cases endpoints with
        | nil => cases hmany
        | cons e rest =>
          have hloc := hall e List.mem_cons_self
          rw [extract_eq (hparse e List.mem_cons_self), hbare e List.mem_cons_self] at hloc
          cases hloc
    · exact .inl hone
  · rintro (hone | ⟨hparts, hbare⟩)
    · exact ⟨fun h => absurd h.1 (by omega), fun h => absurd h (by omega)⟩
    · constructor
      · rintro ⟨_, loc, hall⟩ e he e' he'
        obtain ⟨l, rfl, hl⟩ := taken_location (hparse e he) (hall e he)
        have htaken : ∀ e ∈ endpoints, l.storage = .S3 ∧ l.name ≠ [] ∧ e.s3_part = some l.name ∨
            l.storage ≠ .S3 ∧ e.location = l := by
          intro e he
          obtain ⟨l', htext, hl'⟩ := taken_location (hparse e he) (hall e he)
          rwa [text_injective htext]
        rcases hl with ⟨hs3, hne, _⟩ | ⟨hother, hlocation⟩
        · refine hparts l.name hne (fun e he => ?_) e he e' he'
          exact ((htaken e he).resolve_right fun h => h.1 hs3).2.2
        · have hlocation' := ((htaken e' he').resolve_left fun h => hother h.1).2
          rw [hlocation, hlocation']
      · intro hmany hsame
        cases endpoints with
        | nil => cases hmany
        | cons e rest =>
          have hlike : ∀ e' ∈ e :: rest, extract_storage_location parse e'.uri =
              extract_storage_location parse e.uri := by
            intro e' he'
            obtain ⟨hpart, hlocation⟩ := without_host_eq (hsame e' he' e List.mem_cons_self)
            rw [extract_eq (hparse e' he'), extract_eq (hparse e List.mem_cons_self), hpart,
              hlocation]
          refine ⟨hmany, ?_⟩
          cases hloc : extract_storage_location parse e.uri with
          | some loc => exact ⟨loc, fun e' he' => (hlike e' he').trans hloc⟩
          | none =>
            rw [extract_eq (hparse e List.mem_cons_self)] at hloc
            refine absurd ⟨fun e' he' => ?_, hsame⟩ hbare
            rw [(without_host_eq (hsame e' he' e List.mem_cons_self)).1]
            cases hpart : e.s3_part with
            | none =>
              rw [hpart] at hloc
              cases hloc
            | some part =>
              rw [hpart] at hloc
              dsimp only at hloc
              split at hloc
              · rename_i hnil
                rw [hnil]
              · cases hloc

/-- Two hosts before one bucket. -/
theorem detects_sharing_two_hosts :
    DetectsSharing read_url
      [.S3 "10.9.0.21".toList (some 9000) my_bucket (some []),
        .S3 "10.9.0.25".toList (some 9000) my_bucket (some [])] := by
  refine (detects_sharing_iff ?_).mpr (.inr ⟨parts_of_paths ?_, ?_⟩)
  · simp only [List.forall_mem_cons]
    exact ⟨rfl, rfl, List.forall_mem_nil _⟩
  · simp only [List.forall_mem_cons]
    refine ⟨?_, ?_, List.forall_mem_nil _⟩ <;>
      · intro part hpart
        cases hpart
        rfl
  · intro hbare
    exact absurd (hbare.1 _ List.mem_cons_self) (by decide)

/-- Two buckets in hosts before one prefix are said to share their storage. -/
theorem detects_sharing_buckets_in_hosts : ¬∀ parse endpoints,
    (∀ e ∈ endpoints, parse e.uri = some e.parsed) → DetectsSharing parse endpoints := by
  intro h
  have hparse : ∀ e ∈ [Endpoint.S3Bucket bucket1 (some "prefix".toList),
      .S3Bucket bucket2 (some "prefix".toList)], read_url e.uri = some e.parsed := by
    simp only [List.forall_mem_cons]
    exact ⟨rfl, rfl, List.forall_mem_nil _⟩
  have hsame := (h read_url _ hparse).1 rfl _ List.mem_cons_self _
    (List.mem_cons_of_mem _ List.mem_cons_self)
  have hname : bucket1.text = bucket2.text := congrArg Location.name hsame
  exact absurd hname (by decide)

end

end sai3_bench.metadata_cache
