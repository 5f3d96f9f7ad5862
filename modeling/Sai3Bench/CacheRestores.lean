-- What opening the cache of an endpoint does first (metadata_cache.rs): an archive
-- of it that lies in storage is unpacked where the cache is.
import Sai3Bench.PrepareTurns

namespace sai3_bench.metadata_cache

open directory_tree texts

/-! ## Directories and archives -/

/-- The files of a cache, under their paths below its directory. -/
abbrev Files := Path → Option String

def noFiles : Files := fun _ => none

/-- The directories of the caches, under their names. -/
abbrev CacheDirs := Path → Option Files

/-- An entry of an archive: a file below a directory, or the directory alone. -/
structure ArchiveEntry where
  dir : Path
  file : Option (Path × String) := none
deriving DecidableEq

/-- An archive as it lies in storage. An entry may be unreadable, and so may
the whole. -/
structure Archive where
  decodes : Bool := true
  entries : List (Option ArchiveEntry)

structure Checkpoint where
  archive : Archive
  written_at : Nat

def Archive.list (archive : Archive) : Except String (List ArchiveEntry) :=
  if archive.decodes then
    match archive.entries.mapM id with
    | some entries => .ok entries
    | none => .error "Failed to read archive entry"
  else .error "Failed to create zstd decoder"

/-- One entry, unpacked: it makes its directory, and writes over its file. -/
def unpackEntry (dir : Path) (files : Option Files) (entry : ArchiveEntry) : Option Files :=
  if entry.dir = dir then
    match entry.file with
    | some (path, content) =>
      some (Function.update (files.getD noFiles) path (some content))
    | none => some (files.getD noFiles)
  else files

/-- What is in a directory once the entries are unpacked. -/
def unpacked (dir : Path) (files : Option Files) (entries : List ArchiveEntry) : Option Files :=
  entries.foldl (unpackEntry dir) files

def unpack (dirs : CacheDirs) (entries : List ArchiveEntry) : CacheDirs :=
  fun dir => unpacked dir (dirs dir) entries

/-- The archive of a cache holds its directory and then its files. -/
def create_checkpoint_archive (dir : Path) (files : List (Path × String)) : Archive :=
  let entries := files.map fun file => ({ dir := dir, file := some file } : ArchiveEntry)
  { entries := ({ dir := dir } :: entries).map some }

theorem unpacked_of_not_mem {dir : Path} {entries : List ArchiveEntry}
    (h : ∀ entry ∈ entries, entry.dir ≠ dir) (files : Option Files) :
    unpacked dir files entries = files := by
  unfold unpacked
  induction entries with
  | nil => rfl
  | cons entry entries ih =>
    have hentry := h entry List.mem_cons_self
    rw [List.foldl_cons, unpackEntry, if_neg hentry]
    exact ih fun e he => h e (List.mem_cons_of_mem _ he)

/-- Files that are unpacked are found under their paths, the others stay. -/
theorem unpacked_files (dir : Path) : ∀ (listing : List (Path × String)) (files : Files),
    (listing.map Prod.fst).Nodup →
    unpacked dir (some files) (listing.map fun file => { dir := dir, file := some file }) =
      some fun path => (listing.lookup path).or (files path)
  | [], files, _ => rfl
  | (path, content) :: listing, files, h => by
    rw [List.map_cons, List.nodup_cons] at h
    have ih := unpacked_files dir listing (Function.update files path (some content)) h.2
    unfold unpacked at ih ⊢
    rw [List.map_cons, List.foldl_cons, unpackEntry, if_pos rfl]
    dsimp only
    rw [Option.getD_some, ih]
    congr 1
    funext other
    rw [List.lookup_cons]
    by_cases hpath : other = path
    · subst hpath
      have hnone : listing.lookup other = none := by
        rw [List.lookup_eq_none_iff]
        intro file hfile
        have hne : other ≠ file.1 := fun e => h.1 (List.mem_map.mpr ⟨file, hfile, e.symm⟩)
        simpa using hne
      rw [hnone, Function.update_self, beq_self_eq_true]
      rfl
    · rw [Function.update_of_ne hpath, beq_false_of_ne hpath]

theorem mapM_some {α : Type} (l : List α) : (l.map some).mapM id = some l := by
  rw [List.mapM_map]
  simpa using List.mapM_pure (m := Option) (f := id) (l := l)

theorem list_checkpoint (dir : Path) (files : List (Path × String)) :
    (create_checkpoint_archive dir files).list =
      .ok ({ dir := dir } :: files.map fun file => { dir := dir, file := some file }) := by
  unfold create_checkpoint_archive Archive.list
  rw [if_pos rfl]
  dsimp only
  rw [mapM_some]

/-- What a checkpoint has packed is what a restore unpacks. -/
theorem unpacked_checkpoint {dir : Path} {files : List (Path × String)}
    (h : (files.map Prod.fst).Nodup) :
    ∃ entries, (create_checkpoint_archive dir files).list = .ok entries ∧
      (∀ entry ∈ entries, entry.dir = dir) ∧
      unpacked dir none entries = some fun path => files.lookup path := by
  refine ⟨_, list_checkpoint dir files, ?_, ?_⟩
  · intro entry hentry
    rcases List.mem_cons.mp hentry with rfl | hentry
    · rfl
    · obtain ⟨file, _, rfl⟩ := List.mem_map.mp hentry
      rfl
  · have hfiles := unpacked_files dir files noFiles h
    unfold unpacked at hfiles ⊢
    rw [List.foldl_cons, unpackEntry, if_pos rfl]
    dsimp only
    rw [Option.getD_none, hfiles]
    congr 1
    funext path
    exact Option.or_none

/-! ## Opening a cache -/

/-- What the database of a cache holds. -/
structure Database where
  objects : AList fun _ : String × Nat => ObjectEntry := ∅
  listing_cache : AList fun _ : String => String := ∅
  endpoint_map : AList fun _ : String => Nat := ∅
  seeds : AList fun _ : String => Nat := ∅

/-- How the calls of a restore end. A removal or an unpacking that fails leaves
something: what is left of the directory, and the entries it has unpacked. -/
structure RestoreCalls where
  store : Bool := true
  temp_file : Bool := true
  removal_left : Option Files := none
  unpack_left : Option (List ArchiveEntry) := none
  cache_dir : Bool := true

/-- A start of the cache of one endpoint, with all it meets. `hash` is the hash
of addresses, and `recover` reads a database from its files. -/
structure CacheStart where
  endpoint_uri : Path
  endpoint_index : Nat := 0
  agent_id : Option Nat := none
  kv_cache_base_dir : Path
  hash : Path → Nat
  recover : Files → Except String Database
  get : Path → Option Checkpoint
  calls : RestoreCalls := {}

namespace EndpointCache

variable (start : CacheStart)

def checkpoint_name : Path :=
  match start.agent_id with
  | some id => ".sai3-cache-agent-".toList ++ Nat.toDigits 10 id ++ ".tar.zst".toList
  | none => "sai3-kv-cache.tar.zst".toList

def checkpoint_uri : Path :=
  prepare.joinUri start.endpoint_uri (checkpoint_name start)

def cache_dir_name : Path :=
  match start.agent_id with
  | some id =>
    "sai3-cache-agent-".toList ++ Nat.toDigits 10 id ++ '-' ::
      padded 16 16 (start.hash start.endpoint_uri)
  | none => "sai3-cache-".toList ++ padded 16 16 (start.hash start.endpoint_uri)

def resolve_cache_location : Path :=
  prepare.joinUri start.kv_cache_base_dir (cache_dir_name start)

/-- The entries of the archive in storage, if there is one. -/
def read_checkpoint : Except String (Option (List ArchiveEntry)) :=
  if !start.calls.store then
    .error "Failed to create object store for checkpoint restore"
  else
    match start.get (checkpoint_uri start) with
    | none => .ok none
    | some checkpoint =>
      if !start.calls.temp_file then .error "Failed to write checkpoint to temporary file"
      else checkpoint.archive.list.map some

/-- The archive is unpacked, and the directory of the cache has to be there then. -/
def extract_checkpoint (entries : List ArchiveEntry) (dirs : CacheDirs) :
    Except String Bool × CacheDirs :=
  match start.calls.unpack_left with
  | some written => (.error "Failed to extract checkpoint archive", unpack dirs written)
  | none =>
    let dirs := unpack dirs entries
    if (dirs (cache_dir_name start)).isNone then
      (.error ("Checkpoint extraction failed: cache directory not created at " ++
        String.ofList (resolve_cache_location start)), dirs)
    else (.ok true, dirs)

/-- The cache goes before the archive is unpacked. -/
def replace_cache (entries : List ArchiveEntry) (dirs : CacheDirs) :
    Except String Bool × CacheDirs :=
  let dir := cache_dir_name start
  match dirs dir, start.calls.removal_left with
  | some _, some left =>
    (.error "Failed to remove old cache directory", Function.update dirs dir (some left))
  | _, _ => extract_checkpoint start entries (Function.update dirs dir none)

def try_restore_from_checkpoint (dirs : CacheDirs) : Except String Bool × CacheDirs :=
  match read_checkpoint start with
  | .error e => (.error e, dirs)
  | .ok none => (.ok false, dirs)
  | .ok (some entries) => replace_cache start entries dirs

/-- A restore that fails is not fatal. -/
def new (dirs : CacheDirs) : Except String (EndpointCache × Database) × CacheDirs :=
  let dirs := (try_restore_from_checkpoint start dirs).2
  let dir := cache_dir_name start
  if !start.calls.cache_dir then (.error "Failed to create endpoint cache directory", dirs)
  else
    let files := (dirs dir).getD noFiles
    let dirs := Function.update dirs dir (some files)
    match start.recover files with
    | .error _ => (.error "Failed to open fjall database for endpoint", dirs)
    | .ok db =>
      (.ok ({ endpoint_index := start.endpoint_index, objects := db.objects }, db), dirs)

variable {start : CacheStart} {dirs : CacheDirs} {dir : Path} {files : Files}
  {entries : List ArchiveEntry}

theorem restore_of_error {e : String} (h : read_checkpoint start = .error e) :
    try_restore_from_checkpoint start dirs = (.error e, dirs) := by
  unfold try_restore_from_checkpoint
  rw [h]

theorem restore_of_none (h : read_checkpoint start = .ok none) :
    try_restore_from_checkpoint start dirs = (.ok false, dirs) := by
  unfold try_restore_from_checkpoint
  rw [h]

theorem restore_of_some (h : read_checkpoint start = .ok (some entries)) :
    try_restore_from_checkpoint start dirs = replace_cache start entries dirs := by
  unfold try_restore_from_checkpoint
  rw [h]

/-- What is unpacked are the entries of the archive in storage. -/
theorem read_checkpoint_some (h : read_checkpoint start = .ok (some entries)) :
    ∃ checkpoint, start.get (checkpoint_uri start) = some checkpoint ∧
      checkpoint.archive.list = .ok entries := by
  unfold read_checkpoint at h
  split at h
  · cases h
  · split at h
    · cases h
    · rename_i checkpoint hget
      split at h
      · cases h
      · refine ⟨checkpoint, hget, ?_⟩
        cases hlist : checkpoint.archive.list with
        | error e =>
          rw [hlist] at h
          cases h
        | ok listed =>
          rw [hlist] at h
          cases h
          rfl

theorem replace_of_left {left : Files} (hfiles : dirs (cache_dir_name start) = some files)
    (hleft : start.calls.removal_left = some left) :
    replace_cache start entries dirs = (.error "Failed to remove old cache directory",
      Function.update dirs (cache_dir_name start) (some left)) := by
  unfold replace_cache
  dsimp only
  rw [hfiles, hleft]

theorem replace_of_removed (hleft : start.calls.removal_left = none) :
    replace_cache start entries dirs = extract_checkpoint start entries
      (Function.update dirs (cache_dir_name start) none) := by
  unfold replace_cache
  dsimp only
  rw [hleft]
  split
  · rename_i hnone
    cases hnone
  · rfl

theorem extract_of_left {written : List ArchiveEntry}
    (hleft : start.calls.unpack_left = some written) :
    extract_checkpoint start entries dirs =
      (.error "Failed to extract checkpoint archive", unpack dirs written) := by
  unfold extract_checkpoint
  rw [hleft]

theorem extract_of_none (hleft : start.calls.unpack_left = none)
    (h : unpack dirs entries (cache_dir_name start) = none) :
    extract_checkpoint start entries dirs =
      (.error ("Checkpoint extraction failed: cache directory not created at " ++
        String.ofList (resolve_cache_location start)), unpack dirs entries) := by
  unfold extract_checkpoint
  rw [hleft]
  dsimp only
  rw [h, if_pos Option.isNone_none]

theorem extract_of_some (hleft : start.calls.unpack_left = none)
    (h : unpack dirs entries (cache_dir_name start) = some files) :
    extract_checkpoint start entries dirs = (.ok true, unpack dirs entries) := by
  unfold extract_checkpoint
  rw [hleft]
  dsimp only
  rw [h, if_neg (by simp)]

/-- What the directory holds after the removal and the unpacking. -/
theorem unpack_removed (entries : List ArchiveEntry) :
    unpack (Function.update dirs dir none) entries dir = unpacked dir none entries := by
  unfold unpack
  rw [Function.update_self]

/-- The cache is opened on what the restore has left. -/
theorem new_files : ((new start dirs).2 (cache_dir_name start)).getD noFiles =
    ((try_restore_from_checkpoint start dirs).2 (cache_dir_name start)).getD noFiles := by
  unfold new
  dsimp only
  split
  · rfl
  · split
    · dsimp only
      rw [Function.update_self, Option.getD_some]
    · dsimp only
      rw [Function.update_self, Option.getD_some]

/-- When the restore has left a directory, the cache is opened there. -/
theorem new_of_some
    (h : (try_restore_from_checkpoint start dirs).2 (cache_dir_name start) = some files) :
    (new start dirs).2 (cache_dir_name start) = some files := by
  unfold new
  dsimp only
  rw [h, Option.getD_some]
  split
  · exact h
  · split
    · exact Function.update_self ..
    · exact Function.update_self ..

end EndpointCache

/-! ## When a restart keeps the cache -/

/-- Each entry of a table is in the other. -/
def Covered {κ α : Type} [DecidableEq κ] (t t' : AList fun _ : κ => α) : Prop :=
  ∀ k a, t.lookup k = some a → t'.lookup k = some a

/-- Each entry of a database is in the other. -/
structure Database.Keeps (db db' : Database) : Prop where
  objects : Covered db.objects db'.objects
  listing_cache : Covered db.listing_cache db'.listing_cache
  endpoint_map : Covered db.endpoint_map db'.endpoint_map
  seeds : Covered db.seeds db'.seeds

theorem Database.keeps_refl (db : Database) : db.Keeps db where
  objects _ _ h := h
  listing_cache _ _ h := h
  endpoint_map _ _ h := h
  seeds _ _ h := h

namespace EndpointCache

/-- What is durable in the files of a cache: all that opening them gives back. -/
def durable (start : CacheStart) (files : Files) : Database :=
  match start.recover files with
  | .ok db => db
  | .error _ => {}

/-- A strictly newer archive of this cache alone is in storage, and all of it is
in the directory. -/
def RestoredInFull (start : CacheStart) (local_at : Nat) (dirs : CacheDirs) : Prop :=
  (try_restore_from_checkpoint start dirs).1 = .ok true ∧
  ∃ checkpoint entries, start.get (checkpoint_uri start) = some checkpoint ∧
    local_at < checkpoint.written_at ∧ checkpoint.archive.list = .ok entries ∧
    (∀ entry ∈ entries, entry.dir = cache_dir_name start) ∧
    (new start dirs).2 (cache_dir_name start) = unpacked (cache_dir_name start) none entries

/-- A start never regresses the cache that is there since `local_at`. -/
structure NeverRegresses (start : CacheStart) (local_at : Nat) (dirs : CacheDirs) : Prop where
  kept : ∀ files, dirs (cache_dir_name start) = some files →
    RestoredInFull start local_at dirs ∨ (durable start files).Keeps (durable start
      (((new start dirs).2 (cache_dir_name start)).getD noFiles))
  unchanged : ∀ files e, dirs (cache_dir_name start) = some files →
    (try_restore_from_checkpoint start dirs).1 = .error e →
    (try_restore_from_checkpoint start dirs).2 (cache_dir_name start) = some files

/-- What is unpacked spares the files of the cache: a removal that fails has not
removed anything, an unpacking that fails has put all back, and an archive that
is unpacked is strictly newer and of this cache alone, or has every entry. -/
def Spares (start : CacheStart) (local_at : Nat) (files : Files) : Prop :=
  let dir := cache_dir_name start
  ∀ checkpoint entries, start.get (checkpoint_uri start) = some checkpoint →
    read_checkpoint start = .ok (some entries) →
    match start.calls.removal_left, start.calls.unpack_left with
    | some left, _ => left = files
    | none, some written => unpacked dir none written = some files
    | none, none => ∃ restored, unpacked dir none entries = some restored ∧
        (local_at < checkpoint.written_at ∧ (∀ entry ∈ entries, entry.dir = dir) ∨
          (durable start files).Keeps (durable start restored))

variable {start : CacheStart} {local_at : Nat} {dirs : CacheDirs} {files : Files}
  {entries : List ArchiveEntry} {checkpoint : Checkpoint}

/-- A cache that the restore has left as it was is kept. -/
theorem never_regresses_of_same (h : (try_restore_from_checkpoint start dirs).2 = dirs) :
    NeverRegresses start local_at dirs where
  kept files hfiles := by
    right
    rw [new_files, h, hfiles]
    exact Database.keeps_refl _
  unchanged files e hfiles _ := by
    rw [h]
    exact hfiles

/-- After an error the cache is kept exactly when its files are there again. -/
theorem never_regresses_of_error {e : String} (hfiles : dirs (cache_dir_name start) = some files)
    (herror : (try_restore_from_checkpoint start dirs).1 = .error e) :
    NeverRegresses start local_at dirs ↔
      (try_restore_from_checkpoint start dirs).2 (cache_dir_name start) = some files := by
  refine ⟨fun h => h.unchanged files e hfiles herror, fun hsame => ⟨?_, ?_⟩⟩
  · intro files' hfiles'
    obtain rfl : files = files' := Option.some.inj (hfiles.symm.trans hfiles')
    right
    rw [new_files, hsame]
    exact Database.keeps_refl _
  · intro files' _ hfiles' _
    rw [hsame, ← hfiles, hfiles']

/-- After a removal and an unpacking without an error, the cache is what the
archive has of it. -/
theorem never_regresses_of_unpacked (hfiles : dirs (cache_dir_name start) = some files)
    (hget : start.get (checkpoint_uri start) = some checkpoint)
    (hread : read_checkpoint start = .ok (some entries))
    (hremoval : start.calls.removal_left = none) (hunpack : start.calls.unpack_left = none) :
    NeverRegresses start local_at dirs ↔
      ∃ restored, unpacked (cache_dir_name start) none entries = some restored ∧
        (local_at < checkpoint.written_at ∧
            (∀ entry ∈ entries, entry.dir = cache_dir_name start) ∨
          (durable start files).Keeps (durable start restored)) := by
  have hlist : checkpoint.archive.list = .ok entries := by
    obtain ⟨checkpoint', hget', hlist⟩ := read_checkpoint_some hread
    rw [hget] at hget'
    cases hget'
    exact hlist
  have hrestore := (@restore_of_some start dirs entries hread).trans (replace_of_removed hremoval)
  have hunpacked := @unpack_removed dirs (cache_dir_name start) entries
  cases hrestored : unpacked (cache_dir_name start) none entries with
  | none =>
    rw [hrestored] at hunpacked
    rw [extract_of_none hunpack hunpacked] at hrestore
    rw [never_regresses_of_error hfiles (congrArg Prod.fst hrestore), hrestore]
    dsimp only
    rw [hunpacked]
    simp
  | some restored =>
    rw [hrestored] at hunpacked
    rw [extract_of_some hunpack hunpacked] at hrestore
    have hresult := congrArg Prod.fst hrestore
    have hnew : (new start dirs).2 (cache_dir_name start) = some restored := by
      apply new_of_some
      rw [hrestore]
      exact hunpacked
    constructor
    · intro h
      refine ⟨restored, rfl, ?_⟩
      rcases h.kept files hfiles with hfull | hkeeps
      · obtain ⟨_, checkpoint', entries', hget', hnewer, hlist', hdir, _⟩ := hfull
        rw [hget] at hget'
        cases hget'
        rw [hlist] at hlist'
        cases hlist'
        exact .inl ⟨hnewer, hdir⟩
      · rw [hnew, Option.getD_some] at hkeeps
        exact .inr hkeeps
    · rintro ⟨_, hsome, h⟩
      cases hsome
      refine ⟨?_, ?_⟩
      · intro files' hfiles'
        obtain rfl : files = files' := Option.some.inj (hfiles.symm.trans hfiles')
        rcases h with ⟨hnewer, hdir⟩ | hkeeps
        · exact .inl ⟨hresult, checkpoint, entries, hget, hnewer, hlist, hdir,
            hnew.trans hrestored.symm⟩
        · right
          rw [hnew]
          exact hkeeps
      · intro _ e _ herror
        rw [hresult] at herror
        cases herror

theorem never_regresses_iff_spares (hfiles : dirs (cache_dir_name start) = some files)
    (hread : read_checkpoint start = .ok (some entries)) :
    NeverRegresses start local_at dirs ↔ Spares start local_at files := by
  obtain ⟨checkpoint, hget, _⟩ := read_checkpoint_some hread
  have hspares : Spares start local_at files ↔
      match start.calls.removal_left, start.calls.unpack_left with
      | some left, _ => left = files
      | none, some written => unpacked (cache_dir_name start) none written = some files
      | none, none => ∃ restored, unpacked (cache_dir_name start) none entries = some restored ∧
          (local_at < checkpoint.written_at ∧
              (∀ entry ∈ entries, entry.dir = cache_dir_name start) ∨
            (durable start files).Keeps (durable start restored)) := by
    constructor
    · exact fun h => h checkpoint entries hget hread
    · intro h checkpoint' entries' hget' hread'
      rw [hget] at hget'
      rw [hread] at hread'
      cases hget'
      cases hread'
      exact h
  rw [hspares]
  cases hremoval : start.calls.removal_left with
  | some left =>
    have hrestore := (@restore_of_some start dirs entries hread).trans
      (replace_of_left hfiles hremoval)
    rw [never_regresses_of_error hfiles (congrArg Prod.fst hrestore), hrestore]
    dsimp only
    rw [Function.update_self, Option.some.injEq]
  | none =>
    cases hunpack : start.calls.unpack_left with
    | some written =>
      have hrestore := (@restore_of_some start dirs entries hread).trans
        ((replace_of_removed hremoval).trans (extract_of_left hunpack))
      rw [never_regresses_of_error hfiles (congrArg Prod.fst hrestore), hrestore]
      dsimp only
      rw [unpack_removed]
    | none => exact never_regresses_of_unpacked hfiles hget hread hremoval hunpack

/-- A restart keeps the cache exactly when what it unpacks spares the files. -/
theorem the_cache_never_regresses_iff (start : CacheStart) (local_at : Nat) (dirs : CacheDirs) :
    NeverRegresses start local_at dirs ↔
      ∀ files, dirs (cache_dir_name start) = some files → Spares start local_at files := by
  cases hread : read_checkpoint start with
  | error e =>
    refine iff_of_true (never_regresses_of_same ?_) ?_
    · rw [restore_of_error hread]
    · intro files _ checkpoint entries _ hsome
      rw [hread] at hsome
      cases hsome
  | ok read =>
    cases read with
    | none =>
      refine iff_of_true (never_regresses_of_same ?_) ?_
      · rw [restore_of_none hread]
      · intro files _ checkpoint entries _ hsome
        rw [hread] at hsome
        cases hsome
    | some entries =>
      cases hfiles : dirs (cache_dir_name start) with
      | none =>
        refine iff_of_true ⟨?_, ?_⟩ ?_
        · intro files hsome
          rw [hfiles] at hsome
          cases hsome
        · intro files _ hsome
          rw [hfiles] at hsome
          cases hsome
        · intro files hsome
          cases hsome
      | some files =>
        rw [never_regresses_iff_spares hfiles hread]
        constructor
        · intro h files' hfiles'
          cases hfiles'
          exact h
        · intro h
          exact h files rfl

/-- The archive that a checkpoint has made of this cache is restored as it was. -/
theorem a_checkpoint_is_restored {listing : List (Path × String)}
    (hnodup : (listing.map Prod.fst).Nodup)
    (hstore : start.calls.store = true) (htemp : start.calls.temp_file = true)
    (hremoval : start.calls.removal_left = none) (hunpack : start.calls.unpack_left = none)
    (hget : start.get (checkpoint_uri start) = some checkpoint)
    (harchive : checkpoint.archive = create_checkpoint_archive (cache_dir_name start) listing) :
    (try_restore_from_checkpoint start dirs).1 = .ok true ∧
      (new start dirs).2 (cache_dir_name start) = some fun path => listing.lookup path := by
  obtain ⟨entries, hlist, _, hrestored⟩ := @unpacked_checkpoint (cache_dir_name start) _ hnodup
  have hread : read_checkpoint start = .ok (some entries) := by
    unfold read_checkpoint
    rw [hstore, hget, htemp]
    dsimp only
    rw [harchive, hlist]
    rfl
  have hunpacked := (@unpack_removed dirs (cache_dir_name start) entries).trans hrestored
  have hrestore := (@restore_of_some start dirs entries hread).trans
    ((replace_of_removed hremoval).trans (extract_of_some hunpack hunpacked))
  refine ⟨congrArg Prod.fst hrestore, ?_⟩
  apply new_of_some
  rw [hrestore]
  exact hunpacked

/-- The archive of another cache is not this one, and deletes it. -/
theorem another_archive_deletes (hremoval : start.calls.removal_left = none)
    (hunpack : start.calls.unpack_left = none)
    (hread : read_checkpoint start = .ok (some entries))
    (hother : ∀ entry ∈ entries, entry.dir ≠ cache_dir_name start) :
    (try_restore_from_checkpoint start dirs).2 (cache_dir_name start) = none := by
  have hunpacked := (@unpack_removed dirs (cache_dir_name start) entries).trans
    (unpacked_of_not_mem hother none)
  rw [restore_of_some hread, replace_of_removed hremoval, extract_of_none hunpack hunpacked]
  exact hunpacked

/-- A database with one seed, under the name that its journal has. -/
def oneSeed (files : Files) : Except String Database :=
  match files "journal".toList with
  | some key => .ok { seeds := AList.singleton key 1 }
  | none => .ok {}

/-- In storage lies a checkpoint of the cache before it had a seed. -/
def olderCheckpoint : CacheStart :=
  { endpoint_uri := "file:///mnt/nvme1/".toList
    kv_cache_base_dir := "/tmp".toList
    hash := fun _ => 7
    recover := oneSeed
    get := fun uri =>
      if uri = "file:///mnt/nvme1/sai3-kv-cache.tar.zst".toList then
        let dir := "sai3-cache-0000000000000007".toList
        some { archive := create_checkpoint_archive dir [], written_at := 5 }
      else none }

def oneJournal : Files := fun path => if path = "journal".toList then some "a" else none

/-- The older checkpoint takes the place of the newer cache. -/
theorem an_older_checkpoint_regresses :
    ¬NeverRegresses olderCheckpoint 7 (fun _ => some oneJournal) := by
  have hread : read_checkpoint olderCheckpoint =
      .ok (some [{ dir := "sai3-cache-0000000000000007".toList }]) := by rfl
  rw [never_regresses_iff_spares rfl hread]
  intro h
  obtain ⟨restored, hrestored, hspared⟩ := h _ _ rfl hread
  cases hrestored
  rcases hspared with ⟨hnewer, _⟩ | hkeeps
  · exact absurd hnewer (by decide)
  · have hseed := hkeeps.seeds "a" 1 rfl
    cases hseed

end EndpointCache

end sai3_bench.metadata_cache
