-- Checkpoints of the caches (metadata_cache.rs): where the archive of a cache is
-- written, where it is looked for, and whether all caches come back from theirs.
import Sai3Bench.CacheRestores

namespace sai3_bench.metadata_cache

open directory_tree texts prepare

/-! ## Shared storage -/

/-- What is read in an address. -/
structure ParsedUrl where
  scheme : String
  host_str : Option Path := none
  path : Path
  to_file_path : Option Path := none

def trim_end_slashes (path : Path) : Path := (path.reverse.dropWhile fun c => c = '/').reverse

/-- The bucket, the container or the directory of an endpoint. -/
def extract_storage_location (parse : Path → Option ParsedUrl) (uri : Path) : Option Path :=
  (parse uri).bind fun parsed =>
    let first_part := (parsed.path.dropWhile fun c => c = '/').takeWhile fun c => c ≠ '/'
    if parsed.scheme = "s3" then
      if first_part = [] then none else some ("s3://".toList ++ first_part)
    else if parsed.scheme = "gs" then
      parsed.host_str.bind fun bucket =>
        if bucket = [] then none else some ("gs://".toList ++ bucket)
    else if parsed.scheme = "az" ∨ parsed.scheme = "azure" then
      if first_part = [] then none else some ("az://".toList ++ first_part)
    else if parsed.scheme = "file" then some ("file://".toList ++ trim_end_slashes parsed.path)
    else if parsed.scheme = "direct" then
      ( strip_prefix "direct://".toList uri).map fun path =>
        "direct://".toList ++ trim_end_slashes path
    else none

def endpoints_share_storage (parse : Path → Option ParsedUrl) (endpoint_uris : List Path) : Bool :=
  if endpoint_uris.length ≤ 1 then false
  else
    let locations := endpoint_uris.filterMap (extract_storage_location parse)
    if locations.length ≠ endpoint_uris.length then false
    else locations.all fun loc => some loc = locations.head?

theorem share_of_one {parse : Path → Option ParsedUrl} {endpoint_uris : List Path}
    (h : endpoint_uris.length ≤ 1) : endpoints_share_storage parse endpoint_uris = false := by
  unfold endpoints_share_storage
  rw [if_pos h]

/-! ## The caches of an agent -/

/-- A cache as a flush has left it: its files, and the database in them. -/
structure SavedCache (recover : Files → Except String Database) where
  files : List (Path × String)
  db : Database
  written_at : Nat := 0
  nodup : (files.map Prod.fst).Nodup
  recovered : recover (fun path => files.lookup path) = .ok db

/-- The endpoints of an agent, with what lies outside the caches. `object` is the
object that an address names in its store and `file` the file at a path; the
table of the endpoints has them in some order. -/
structure CacheFleet (n : Nat) (L : Type) where
  endpoint_uris : Fin n → Path
  agent_id : Option Nat := none
  kv_cache_base_dir : Path
  hash : Path → Nat
  recover : Files → Except String Database
  parse : Path → Option ParsedUrl
  object : Path → L
  file : Path → L
  order : List (Fin n)
  nodup : order.Nodup
  complete : ∀ i, i ∈ order

namespace CacheFleet

variable {n : Nat} {L : Type}

/-- The start of the cache of an endpoint, with what lies in storage. -/
def start (fleet : CacheFleet n L) (storage : L → Option Checkpoint) (i : Fin n) : CacheStart :=
  { endpoint_uri := fleet.endpoint_uris i
    endpoint_index := i
    agent_id := fleet.agent_id
    kv_cache_base_dir := fleet.kv_cache_base_dir
    hash := fleet.hash
    recover := fleet.recover
    get := fun uri => storage (fleet.object uri) }

def checkpoint_name (fleet : CacheFleet n L) : Path :=
  match fleet.agent_id with
  | some id => ".sai3-cache-agent-".toList ++ Nat.toDigits 10 id ++ ".tar.zst".toList
  | none => "sai3-kv-cache.tar.zst".toList

/-- `PathBuf::join` with a name. -/
def joinPath (base_path name : Path) : Path := if base_path = [] then name else joinUri base_path name

/-- Where the archive of an endpoint is written. -/
def checkpoint_target (fleet : CacheFleet n L) (endpoint_uri : Path) : Except String L :=
  let name := fleet.checkpoint_name
  if "file://".toList.isPrefixOf endpoint_uri then
    match fleet.parse endpoint_uri with
    | none => .error "Failed to parse file:// URI"
    | some url =>
      match url.to_file_path with
      | none => .error "Invalid file:// path"
      | some base_path => .ok (fleet.file (joinPath base_path name))
  else if "direct://".toList.isPrefixOf endpoint_uri then
    .ok (fleet.file (joinPath (endpoint_uri.drop "direct://".toList.length) name))
  else if "s3://".toList.isPrefixOf endpoint_uri || "az://".toList.isPrefixOf endpoint_uri ||
      "gs://".toList.isPrefixOf endpoint_uri then
    .ok (fleet.object (endpoint_uri ++ name))
  else .error ("Unsupported URI scheme for checkpointing: " ++ String.ofList endpoint_uri)

/-- Where the archive of an endpoint is looked for. -/
def checkpoint_source (fleet : CacheFleet n L) (endpoint_uri : Path) : L :=
  fleet.object (joinUri endpoint_uri fleet.checkpoint_name)

/-- The archive of a cache, in the directory that the cache has. -/
def checkpoint (fleet : CacheFleet n L) (contents : Fin n → SavedCache fleet.recover) (i : Fin n) :
    Checkpoint :=
  { archive := create_checkpoint_archive
      (EndpointCache.cache_dir_name (fleet.start (fun _ => none) i)) (contents i).files
    written_at := (contents i).written_at }

/-! ## Where the archive is found -/

/-- The archive of an endpoint is looked for where it is written: a directory always,
a bucket when the address ends in a slash, and a file:// address when its path is the
one that the store reads. -/
def Found (fleet : CacheFleet n L) (endpoint_uri : Path) : Prop :=
  if "file://".toList.isPrefixOf endpoint_uri then
    ∃ url base_path, fleet.parse endpoint_uri = some url ∧ url.to_file_path = some base_path ∧
      fleet.file (joinPath base_path fleet.checkpoint_name) = fleet.checkpoint_source endpoint_uri
  else if "direct://".toList.isPrefixOf endpoint_uri then True
  else ("s3://".toList.isPrefixOf endpoint_uri || "az://".toList.isPrefixOf endpoint_uri ||
      "gs://".toList.isPrefixOf endpoint_uri) = true ∧ endpoint_uri.getLast? = some '/'

/-- What stores make of addresses: those of one object end in one name, and that of a
file without buffers is its path. -/
structure StoreNames (fleet : CacheFleet n L) : Prop where
  same_name : ∀ uri uri', fleet.object uri = fleet.object uri' → lastPart '/' uri = lastPart '/' uri'
  direct : ∀ path, fleet.object ("direct://".toList ++ path) = fleet.file path

variable {fleet : CacheFleet n L} {i : Fin n}

theorem slash_not_mem_checkpoint_name : '/' ∉ fleet.checkpoint_name := by
  unfold checkpoint_name
  split
  · rw [List.mem_append, List.mem_append]
    rintro ((h | h) | h)
    · revert h
      decide
    · exact absurd (Nat.isDigit_of_mem_toDigits (by decide) (by decide) h) (by decide)
    · revert h
      decide
  · decide

theorem joinUri_of_slash {uri name : Path} (h : uri.getLast? = some '/') :
    joinUri uri name = uri ++ name := by
  unfold joinUri withSlash
  rw [if_pos h]

theorem joinUri_of_no_slash {uri name : Path} (h : uri.getLast? ≠ some '/') :
    joinUri uri name = uri ++ '/' :: name := by
  unfold joinUri withSlash
  rw [if_neg h, List.append_assoc]
  rfl

/-- The path of a directory is joined as its address is. -/
theorem joinUri_direct (path name : Path) : joinUri ("direct://".toList ++ path) name =
    "direct://".toList ++ joinPath path name := by
  unfold joinPath
  split
  · rename_i hnil
    rw [hnil]
    rfl
  · rename_i hne
    have hlast : ("direct://".toList ++ path).getLast? = path.getLast? := by
      rw [List.getLast?_append]
      obtain ⟨c, hc⟩ := Option.ne_none_iff_exists'.mp (mt List.getLast?_eq_none_iff.mp hne)
      rw [hc]
      rfl
    unfold joinUri withSlash
    rw [hlast]
    split
    · rw [List.append_assoc]
    · simp only [List.append_assoc]

/-- The address of a bucket is followed by the name as it is, so it has to end in a slash. -/
theorem object_append_iff (hnames : fleet.StoreNames) {uri : Path} (huri : uri ≠ []) :
    fleet.object (uri ++ fleet.checkpoint_name) = fleet.checkpoint_source uri ↔
      uri.getLast? = some '/' := by
  unfold checkpoint_source
  constructor
  · intro heq
    by_contra hlast
    rw [joinUri_of_no_slash hlast] at heq
    have hpart := hnames.same_name _ _ heq
    rw [lastPart_append slash_not_mem_checkpoint_name,
      lastPart_append_right slash_not_mem_checkpoint_name] at hpart
    have hnil : lastPart '/' uri = [] := List.append_left_eq_self.mp hpart
    rcases lastPart_eq_nil.mp hnil with hempty | hslash
    · exact huri hempty
    · exact hlast hslash
  · intro hlast
    rw [joinUri_of_slash hlast]

theorem found_iff (hnames : fleet.StoreNames) (uri : Path) :
    fleet.checkpoint_target uri = .ok (fleet.checkpoint_source uri) ↔ fleet.Found uri := by
  unfold checkpoint_target Found
  dsimp only
  split
  · constructor
    · intro h
      split at h
      · cases h
      · rename_i url hurl
        split at h
        · cases h
        · rename_i base_path hbase
          exact ⟨url, base_path, hurl, hbase, Except.ok.inj h⟩
    · rintro ⟨url, base_path, hurl, hbase, hfile⟩
      rw [hurl]
      dsimp only
      rw [hbase]
      dsimp only
      rw [hfile]
  · split
    · rename_i hdirect
      obtain ⟨path, rfl⟩ := List.isPrefixOf_iff_prefix.mp hdirect
      refine iff_of_true ?_ trivial
      rw [List.drop_left, ← hnames.direct, ← joinUri_direct]
      rfl
    · split
      · rename_i hcloud
        have hne : uri ≠ [] := by
          rintro rfl
          exact absurd hcloud (by decide)
        rw [Except.ok.injEq, object_append_iff hnames hne]
        exact ⟨fun h => ⟨hcloud, h⟩, And.right⟩
      · rename_i hother
        exact iff_of_false (fun h => nomatch h) fun h => hother h.1

/-! ## What the caches are opened with -/

variable {contents : Fin n → SavedCache fleet.recover} {storage : L → Option Checkpoint} {place : L}

/-- A start reads storage at one place. -/
theorem new_congr {storage' : L → Option Checkpoint} {dirs : CacheDirs}
    (h : storage (fleet.checkpoint_source (fleet.endpoint_uris i)) =
      storage' (fleet.checkpoint_source (fleet.endpoint_uris i))) :
    EndpointCache.new (fleet.start storage i) dirs = EndpointCache.new (fleet.start storage' i) dirs := by
  have hget : (fleet.start storage i).get (EndpointCache.checkpoint_uri (fleet.start storage i)) =
      (fleet.start storage' i).get (EndpointCache.checkpoint_uri (fleet.start storage' i)) := h
  have hread : EndpointCache.read_checkpoint (fleet.start storage i) =
      EndpointCache.read_checkpoint (fleet.start storage' i) := by
    unfold EndpointCache.read_checkpoint
    rw [hget]
    rfl
  unfold EndpointCache.new EndpointCache.try_restore_from_checkpoint
  rw [hread]
  rfl

/-- A cache is opened with what is read from the files of its directory. -/
theorem new_of_recovered {start : CacheStart} {dirs : CacheDirs} {files : Files} {db : Database}
    (hcalls : start.calls.cache_dir = true)
    (hfiles : (EndpointCache.new start dirs).2 (EndpointCache.cache_dir_name start) = some files)
    (hdb : start.recover files = .ok db) : (EndpointCache.new start dirs).1 =
      .ok ({ endpoint_index := start.endpoint_index, objects := db.objects }, db) := by
  have hsame := @EndpointCache.new_files start dirs
  rw [hfiles, Option.getD_some] at hsame
  unfold EndpointCache.new
  dsimp only
  rw [← hsame, hcalls, hdb]
  rfl

/-- A cache whose own archive lies in storage is opened with what it held. -/
theorem new_of_checkpoint {dirs : CacheDirs}
    (h : storage (fleet.checkpoint_source (fleet.endpoint_uris i)) =
      some (fleet.checkpoint contents i)) :
    (EndpointCache.new (fleet.start storage i) dirs).1 =
      .ok ({ endpoint_index := i, objects := (contents i).db.objects }, (contents i).db) := by
  have hget : (fleet.start storage i).get (EndpointCache.checkpoint_uri (fleet.start storage i)) =
    some (fleet.checkpoint contents i) := h
  obtain ⟨_, hfiles⟩ := EndpointCache.a_checkpoint_is_restored (contents i).nodup rfl rfl rfl rfl
    hget rfl
  exact new_of_recovered rfl hfiles (contents i).recovered

/-! ## Writing the checkpoints -/

variable [DecidableEq L]

def write_checkpoint (fleet : CacheFleet n L) (contents : Fin n → SavedCache fleet.recover)
    (storage : L → Option Checkpoint) (i : Fin n) : L → Option Checkpoint :=
  match fleet.checkpoint_target (fleet.endpoint_uris i) with
  | .ok target => Function.update storage target (some (fleet.checkpoint contents i))
  | .error _ => storage

/-- The endpoints that write a checkpoint: one of them when they share their storage. -/
def writers (fleet : CacheFleet n L) : List (Fin n) :=
  if endpoints_share_storage fleet.parse (fleet.order.map fleet.endpoint_uris) then
    fleet.order.take 1
  else fleet.order

def write_checkpoints (fleet : CacheFleet n L) (contents : Fin n → SavedCache fleet.recover)
    (storage : L → Option Checkpoint) : L → Option Checkpoint :=
  fleet.writers.foldl (fleet.write_checkpoint contents) storage

/-- The endpoint whose archive lies at a place in the end, if one has been written there. -/
def last_writer (fleet : CacheFleet n L) (place : L) : Option (Fin n) :=
  fleet.writers.reverse.find? fun i =>
    (fleet.checkpoint_target (fleet.endpoint_uris i)).toOption = some place

theorem write_checkpoint_at : fleet.write_checkpoint contents storage i place =
    if (fleet.checkpoint_target (fleet.endpoint_uris i)).toOption = some place then
      some (fleet.checkpoint contents i)
    else storage place := by
  unfold write_checkpoint
  cases fleet.checkpoint_target (fleet.endpoint_uris i) with
  | error e => exact (if_neg (by simp [Except.toOption])).symm
  | ok target =>
    dsimp only
    rw [Function.update_apply]
    simp only [Except.toOption, Option.some.injEq, eq_comm]

/-- What lies at a place is the archive written there last. -/
theorem write_checkpoints_at : fleet.write_checkpoints contents storage place =
    match fleet.last_writer place with
    | some i => some (fleet.checkpoint contents i)
    | none => storage place := by
  unfold write_checkpoints last_writer
  generalize fleet.writers = writers
  induction writers using List.reverseRecOn with
  | nil => rfl
  | append_singleton writers i ih =>
    rw [List.foldl_append, List.reverse_append, List.foldl_cons, List.foldl_nil,
      List.reverse_singleton, List.singleton_append, write_checkpoint_at, List.find?_cons]
    split
    · rename_i htarget
      rw [decide_eq_true htarget]
    · rename_i htarget
      rw [decide_eq_false htarget, ih]

theorem last_writer_some (h : fleet.last_writer place = some i) : i ∈ fleet.writers ∧
    fleet.checkpoint_target (fleet.endpoint_uris i) = .ok place := by
  unfold last_writer at h
  refine ⟨List.mem_reverse.mp (List.mem_of_find?_eq_some h), ?_⟩
  have htarget := List.find?_some h
  rw [decide_eq_true_eq] at htarget
  cases hcase : fleet.checkpoint_target (fleet.endpoint_uris i) with
  | error e =>
    rw [hcase] at htarget
    cases htarget
  | ok target =>
    rw [hcase] at htarget
    cases htarget
    rfl

/-- Where one endpoint alone writes, its archive lies in the end. -/
theorem last_writer_of_only (hi : i ∈ fleet.writers)
    (htarget : fleet.checkpoint_target (fleet.endpoint_uris i) = .ok place)
    (honly : ∀ j, fleet.checkpoint_target (fleet.endpoint_uris j) = .ok place → j = i) :
    fleet.last_writer place = some i := by
  cases hlast : fleet.last_writer place with
  | none =>
    unfold last_writer at hlast
    have hnone := List.find?_eq_none.mp hlast i (List.mem_reverse.mpr hi)
    rw [htarget] at hnone
    exact absurd (decide_eq_true rfl) hnone
  | some j => rw [honly j (last_writer_some hlast).2]

/-! ## Checkpoints come back -/

/-- Each cache is opened with what it held at its checkpoint, whatever was in storage
before and whatever is left of the directories. -/
def Survives (fleet : CacheFleet n L) : Prop :=
  ∀ (contents : Fin n → SavedCache fleet.recover) (storage : L → Option Checkpoint)
    (dirs : CacheDirs) (i : Fin n),
    (EndpointCache.new (fleet.start (fleet.write_checkpoints contents storage) i) dirs).1 =
      .ok ({ endpoint_index := i, objects := (contents i).db.objects }, (contents i).db)

/-! ## Which caches come back -/

/-- A cache comes back exactly when the archive looked for is the one that was written last
at its place. -/
theorem survives_iff_last_writer (hmany : ∃ s t : SavedCache fleet.recover, s.db ≠ t.db) :
    fleet.Survives ↔
      ∀ i, fleet.last_writer (fleet.checkpoint_source (fleet.endpoint_uris i)) = some i := by
  constructor
  · intro h i
    by_contra hlast
    obtain ⟨s, t, hne⟩ := hmany
    -- Nothing that the start of this cache reads depends on what the cache held.
    have hsame : fleet.write_checkpoints (fun _ => s) (fun _ => none)
          (fleet.checkpoint_source (fleet.endpoint_uris i)) =
        fleet.write_checkpoints (Function.update (fun _ => s) i t) (fun _ => none)
          (fleet.checkpoint_source (fleet.endpoint_uris i)) := by
      rw [write_checkpoints_at, write_checkpoints_at]
      cases hwriter : fleet.last_writer (fleet.checkpoint_source (fleet.endpoint_uris i)) with
      | none => rfl
      | some j =>
        have hj : j ≠ i := fun hj => hlast (hwriter.trans (congrArg some hj))
        dsimp only
        unfold checkpoint
        rw [Function.update_of_ne hj]
    have hs := h (fun _ => s) (fun _ => none) (fun _ => none) i
    have ht := h (Function.update (fun _ => s) i t) (fun _ => none) (fun _ => none) i
    rw [← new_congr hsame, hs, Function.update_self] at ht
    exact hne (congrArg Prod.snd (Except.ok.inj ht))
  · intro h contents storage dirs i
    apply new_of_checkpoint
    rw [write_checkpoints_at, h i]

/-- The caches survive exactly when the endpoints do not share their storage, each archive is
looked for where it is written, and no two are written to one place. -/
theorem survives_iff (hmany : ∃ s t : SavedCache fleet.recover, s.db ≠ t.db)
    (hnames : fleet.StoreNames) : fleet.Survives ↔
      endpoints_share_storage fleet.parse (fleet.order.map fleet.endpoint_uris) = false ∧
      (∀ i, fleet.Found (fleet.endpoint_uris i)) ∧
      Function.Injective fun i => fleet.checkpoint_source (fleet.endpoint_uris i) := by
  rw [survives_iff_last_writer hmany]
  constructor
  · intro h
    refine ⟨?_, fun i => (found_iff hnames _).mp (last_writer_some (h i)).2, ?_⟩
    · by_contra hshare
      rw [Bool.not_eq_false] at hshare
      have hall : ∀ i, i ∈ fleet.order.take 1 := by
        intro i
        have hwriter := (last_writer_some (h i)).1
        unfold writers at hwriter
        rwa [if_pos hshare] at hwriter
      have hlength : fleet.order.length ≤ 1 := by
        have hsub := fleet.nodup.subperm fun i _ => hall i
        exact hsub.length_le.trans (List.length_take_le _ _)
      rw [share_of_one (by rwa [List.length_map])] at hshare
      cases hshare
    · intro i j heq
      have hi := h i
      rw [show fleet.checkpoint_source (fleet.endpoint_uris i) = _ from heq, h j] at hi
      exact (Option.some.inj hi).symm
  · rintro ⟨hshare, hfound, hdistinct⟩ i
    have htarget := fun j => (found_iff hnames _).mpr (hfound j)
    refine last_writer_of_only ?_ (htarget i) fun j hj => ?_
    · unfold writers
      rw [if_neg (by simp [hshare])]
      exact fleet.complete i
    · rw [htarget j] at hj
      exact hdistinct (Except.ok.inj hj)

/-! ## Agents with and without a slash -/

/-- An address cut at its marks. -/
def cutUrl (uri : Path) : Option ParsedUrl :=
  let scheme := uri.takeWhile fun c => c ≠ ':'
  let rest := uri.drop (scheme.length + 3)
  some
    { scheme := String.ofList scheme
      host_str := some (rest.takeWhile fun c => c ≠ '/')
      path := rest.dropWhile fun c => c ≠ '/'
      to_file_path := some (rest.dropWhile fun c => c ≠ '/') }

/-- The path of a file without its scheme, or the address. -/
def stripped (uri : Path) : Path :=
  match strip_prefix "direct://".toList uri with
  | some path => path
  | none => ( strip_prefix "file://".toList uri).getD uri

/-- An agent with some endpoints, with databases of one seed at most. -/
def agentWith (n : Nat) (endpoint_uris : Fin n → Path) : CacheFleet n Path :=
  { endpoint_uris := endpoint_uris
    agent_id := some 3
    kv_cache_base_dir := "/tmp".toList
    hash := List.length
    recover := EndpointCache.oneSeed
    parse := cutUrl
    object := stripped
    file := id
    order := List.finRange n
    nodup := List.nodup_finRange n
    complete := List.mem_finRange }

theorem lastPart_stripped (uri : Path) : lastPart '/' (stripped uri) = lastPart '/' uri := by
  unfold stripped
  split
  · rename_i path hpath
    rw [ eq_of_strip_prefix hpath]
    exact (lastPart_append_mark '/' "direct:/".toList path).symm
  · cases hfile : strip_prefix "file://".toList uri with
    | none => rfl
    | some path =>
      rw [ eq_of_strip_prefix hfile]
      exact (lastPart_append_mark '/' "file:/".toList path).symm

theorem names_of_agent (n : Nat) (endpoint_uris : Fin n → Path) :
    (agentWith n endpoint_uris).StoreNames where
  same_name uri uri' h := by
    rw [← lastPart_stripped uri, ← lastPart_stripped uri']
    exact congrArg (lastPart '/') h
  direct path := by
    show stripped ("direct://".toList ++ path) = path
    unfold stripped
    rw [strip_prefix_append]

theorem two_databases (n : Nat) (endpoint_uris : Fin n → Path) :
    ∃ s t : SavedCache (agentWith n endpoint_uris).recover, s.db ≠ t.db := by
  refine ⟨{ files := [], db := {}, nodup := List.nodup_nil, recovered := rfl },
    { files := [("journal".toList, "a")], db := { seeds := AList.singleton "a" 1 }
      nodup := List.nodup_singleton _, recovered := rfl }, ?_⟩
  intro h
  have hseed := congrArg (fun db => db.seeds.lookup "a") h
  cases hseed

/-- A bucket, a directory of files and one without buffers. -/
def threeKinds : CacheFleet 3 Path :=
  agentWith 3 fun i => ["s3://bucket/prefix/".toList, "file:///mnt/nvme1/".toList,
    "direct:///mnt/nvme2".toList].get i

theorem three_kinds_survive : threeKinds.Survives := by
  refine (survives_iff (two_databases _ _) (names_of_agent _ _)).mpr ⟨by decide, ?_, ?_⟩
  · intro i
    refine (found_iff (names_of_agent _ _) _).mp ?_
    revert i
    decide
  · unfold Function.Injective
    decide

/-- The address of a bucket without a slash at its end. -/
def oneBucket : CacheFleet 1 Path := agentWith 1 fun _ => "s3://bucket/prefix".toList

/-- The archive is written beside the bucket's directory, and looked for in it. -/
theorem a_checkpoint_is_not_found : ¬ oneBucket.Survives := by
  intro h
  have hlast := (survives_iff_last_writer (two_databases _ _)).mp h 0
  revert hlast
  decide

end CacheFleet

end sai3_bench.metadata_cache
