-- The keyspace of one endpoint's cache (metadata_cache.rs): keys are texts made of
-- a config hash and a padded number, and the states are counted by a scan.
import Sai3Bench.MetadataCaches

namespace sai3_bench.metadata_cache

open directory_tree texts

abbrev usize := Fin (2 ^ 64)

def parse_usize (s : List Char) : Option usize :=
  (parse_u64 s).bind fun n => if h : n < 2 ^ 64 then some ⟨n, h⟩ else none

/-! ## Keys -/

/-- `format!("{}:{:08}")`. -/
def object_key (config_hash : Path) (file_idx : usize) : Path :=
  config_hash ++ ':' :: padded 10 8 file_idx

theorem parse_usize_padded (i : usize) : parse_usize (padded 10 8 i) = some i := by
  unfold parse_usize
  rw [parse_padded i.isLt]
  exact dif_pos i.isLt

/-- What reads as a number has no colon. -/
theorem colon_not_mem_of_parse {s : List Char} {i : usize} (h : parse_usize s = some i) :
    ':' ∉ s := by
  obtain ⟨n, hn, _⟩ := Option.bind_eq_some_iff.mp h
  have hdigits : ∀ digits : List Char, ¬ (digits.isEmpty || !digits.all Char.isDigit) = true →
      ':' ∉ digits := by
    intro digits hall hmem
    rw [Bool.or_eq_true, Bool.not_eq_true', not_or, Bool.not_eq_false, List.all_eq_true] at hall
    exact absurd (hall.2 ':' hmem) (by decide)
  unfold parse_u64 at hn
  dsimp only at hn
  rw [ite_eq_iff] at hn
  have hrest := hdigits _ (hn.resolve_left fun hnone => nomatch hnone.2).1
  intro hmem
  apply hrest
  split
  · rename_i hplus
    obtain ⟨t, rfl⟩ := List.head?_eq_some_iff.mp hplus
    exact (List.mem_cons.mp hmem).resolve_left (by decide)
  · exact hmem

variable {h h' : Path} {i j : usize}

/-- The part of a key after its last colon. -/
theorem key_parts {s t : Path} (heq : h ++ ':' :: s = h' ++ ':' :: t) (hs : ':' ∉ s)
    (ht : ':' ∉ t) : h = h' ∧ s = t := by
  have hlast := congrArg (lastPart ':') heq
  rw [lastPart_append hs, lastPart_append ht] at hlast
  subst hlast
  exact ⟨List.append_cancel_right heq, rfl⟩

theorem object_key_inj : object_key h i = object_key h' j ↔ (h, i) = (h', j) := by
  constructor
  · intro heq
    obtain ⟨rfl, hpad⟩ := key_parts heq (not_mem_padded rfl) (not_mem_padded rfl)
    rw [Fin.ext (padded_injective hpad)]
  · rintro ⟨⟩
    rfl

/-- The number of a key under a prefix is read only for the hash of the key. -/
theorem parse_key_iff {s : Path} : (h ++ [':']) ++ s = object_key h' i ∧ parse_usize s = some j ↔
    h = h' ∧ i = j ∧ s = padded 10 8 i := by
  constructor
  · rintro ⟨heq, hparse⟩
    rw [List.append_assoc] at heq
    obtain ⟨rfl, rfl⟩ := key_parts heq (colon_not_mem_of_parse hparse) (not_mem_padded rfl)
    rw [parse_usize_padded] at hparse
    exact ⟨rfl, Option.some.inj hparse, rfl⟩
  · rintro ⟨rfl, rfl, rfl⟩
    exact ⟨List.append_assoc .., parse_usize_padded i⟩

/-- A key with a prefix is one of the hash, or its own hash goes on after a colon. -/
theorem prefix_key (hstart : h ++ [':'] <+: object_key h' i) : h = h' ∨ h ++ [':'] <+: h' := by
  obtain ⟨s, hs⟩ := hstart
  unfold object_key at hs
  rw [List.append_assoc, List.append_eq_append_iff] at hs
  rcases hs with ⟨a, rfl, ha⟩ | ⟨a, rfl, ha⟩
  · cases a with
    | nil => exact .inl (List.append_nil h).symm
    | cons c a =>
      obtain ⟨rfl, _⟩ := List.cons.inj ha
      exact .inr ⟨a, by rw [List.append_assoc]; rfl⟩
  · cases a with
    | nil => exact .inl (List.append_nil h')
    | cons c a =>
      obtain ⟨_, hpad⟩ := List.cons.inj ha
      have hcolon : ':' ∉ padded 10 8 i := not_mem_padded rfl
      refine absurd ?_ hcolon
      rw [hpad]
      simp

/-! ## The hashes of configs -/

/-- `{:x}` of a 64-bit hash of the config. -/
def generate_config_hash (hash : List Char → usize) (config_json : List Char) : Path :=
  Nat.toDigits 16 (hash config_json)

theorem digitChar_ne_colon {n : Nat} (hn : n < 16) : n.digitChar ≠ ':' := by
  revert n
  decide

/-- The hashes that the code makes have no colon. -/
theorem colon_not_mem_config_hash (hash : List Char → usize) (config_json : List Char) :
    ':' ∉ generate_config_hash hash config_json := by
  unfold generate_config_hash
  generalize (hash config_json).val = n
  induction n using Nat.strong_induction_on with
  | _ n ih =>
    rw [Nat.toDigits_eq_if (by decide)]
    split
    · rename_i hn
      rw [List.mem_singleton]
      exact (digitChar_ne_colon hn).symm
    · rw [List.mem_append, List.mem_singleton, not_or]
      exact ⟨ih _ (Nat.div_lt_self (by omega) (by decide)),
        (digitChar_ne_colon (Nat.mod_lt n (by decide))).symm⟩

/-! ## The keyspaces of one endpoint -/

inductive FlushPolicy
  | Immediate
  | BatchSize (threshold : Nat)
  | AsyncInterval (secs : Nat)

/-- The keyspaces, and the part of the objects that is on the disk. -/
structure EndpointKeyspaces where
  endpoint_index : Nat
  objects : AList fun _ : Path => ObjectEntry := ∅
  listing_cache : AList fun _ : Path => List Path := ∅
  persisted : AList fun _ : Path => ObjectEntry := ∅
  flush_policy : FlushPolicy := .AsyncInterval 30
  pending_writes : Nat := 0

namespace EndpointKeyspaces

def persist (c : EndpointKeyspaces) : EndpointKeyspaces := { c with persisted := c.objects }

def maybe_flush (c : EndpointKeyspaces) : EndpointKeyspaces :=
  match c.flush_policy with
  | .Immediate => c.persist
  | .BatchSize threshold =>
    let pending := c.pending_writes + 1
    if threshold ≤ pending then { c with pending_writes := 0 }.persist
    else { c with pending_writes := pending }
  | .AsyncInterval _ => { c with pending_writes := c.pending_writes + 1 }

def force_flush (c : EndpointKeyspaces) : EndpointKeyspaces := { c with pending_writes := 0 }.persist

def set_flush_policy (c : EndpointKeyspaces) (policy : FlushPolicy) : EndpointKeyspaces :=
  { c with flush_policy := policy, pending_writes := 0 }

def insert (c : EndpointKeyspaces) (key : Path) (entry : ObjectEntry) : EndpointKeyspaces :=
  { c with objects := c.objects.insert key entry }

def plan_object (c : EndpointKeyspaces) (config_hash : Path) (file_idx : usize) (path : Path)
    (size : Nat) : EndpointKeyspaces :=
  (c.insert (object_key config_hash file_idx)
    (ObjectEntry.new_planned path size c.endpoint_index)).maybe_flush

/-- Change the entry of an object, if there is one. -/
def mark (c : EndpointKeyspaces) (config_hash : Path) (file_idx : usize)
    (change : ObjectEntry → ObjectEntry) : EndpointKeyspaces :=
  let key := object_key config_hash file_idx
  match c.objects.lookup key with
  | some entry => (c.insert key (change entry)).maybe_flush
  | none => c.maybe_flush

/-- What the marks make of an entry. -/
def creating (entry : ObjectEntry) : ObjectEntry := { entry with state := .Creating }
def failed (entry : ObjectEntry) : ObjectEntry := { entry with state := .Failed }
def deleted (entry : ObjectEntry) : ObjectEntry := { entry with state := .Deleted }
def created (created_at checksum : Option Nat) (now : Nat) (entry : ObjectEntry) : ObjectEntry :=
  { entry with state := .Created, created_at := some (created_at.getD now), checksum := checksum }

def mark_creating (c : EndpointKeyspaces) (config_hash : Path) (file_idx : usize) :
    EndpointKeyspaces :=
  c.mark config_hash file_idx creating

def mark_created (c : EndpointKeyspaces) (config_hash : Path) (file_idx : usize)
    (created_at checksum : Option Nat) (now : Nat) : EndpointKeyspaces :=
  c.mark config_hash file_idx (created created_at checksum now)

def mark_failed (c : EndpointKeyspaces) (config_hash : Path) (file_idx : usize) :
    EndpointKeyspaces :=
  c.mark config_hash file_idx failed

def mark_deleted (c : EndpointKeyspaces) (config_hash : Path) (file_idx : usize) :
    EndpointKeyspaces :=
  c.mark config_hash file_idx deleted

def record_created (c : EndpointKeyspaces) (config_hash : Path) (file_idx : usize) (path : Path)
    (size : Nat) (created_at checksum : Option Nat) (now : Nat) : EndpointKeyspaces :=
  let key := object_key config_hash file_idx
  let entry := (c.objects.lookup key).getD (ObjectEntry.new_planned path size c.endpoint_index)
  (c.insert key (created created_at checksum now entry)).maybe_flush

def BATCH_SIZE : Nat := 100000

/-- The loop of a batch, from its `idx`-th object on. -/
def plan_from (c : EndpointKeyspaces) (config_hash : Path) (idx : Nat) :
    List (usize × Path × Nat) → EndpointKeyspaces
  | [] => c
  | (file_idx, path, size) :: objects =>
    let c := c.insert (object_key config_hash file_idx)
      (ObjectEntry.new_planned path size c.endpoint_index)
    let c := if (idx + 1) % BATCH_SIZE = 0 then c.maybe_flush else c
    c.plan_from config_hash (idx + 1) objects

def plan_objects_batch (c : EndpointKeyspaces) (config_hash : Path)
    (objects : List (usize × Path × Nat)) : EndpointKeyspaces :=
  (c.plan_from config_hash 0 objects).force_flush

def put_listing (c : EndpointKeyspaces) (config_hash : Path) (timestamp : Nat) (paths : List Path) :
    EndpointKeyspaces :=
  let key := config_hash ++ ":list_timestamp:".toList ++ Nat.toDigits 10 timestamp
  { c with listing_cache := c.listing_cache.insert key paths }.maybe_flush

def get_object (c : EndpointKeyspaces) (config_hash : Path) (file_idx : usize) :
    Option ObjectEntry :=
  c.objects.lookup (object_key config_hash file_idx)

/-- Scan the keyspace: the number of an object is read off its key. -/
def get_objects_by_state (c : EndpointKeyspaces) (config_hash : Path) (target_state : ObjectState) :
    List (usize × ObjectEntry) :=
  let key_prefix := config_hash ++ [':']
  c.objects.entries.filterMap fun e =>
    ( strip_prefix key_prefix e.1).bind fun idx_str =>
      if e.2.state = target_state then (parse_usize idx_str).map fun file_idx => (file_idx, e.2)
      else none

def count_by_state (c : EndpointKeyspaces) (config_hash : Path) : AList fun _ : ObjectState => Nat :=
  let key_prefix := config_hash ++ [':']
  (c.objects.entries.filter fun e => key_prefix.isPrefixOf e.1).foldl
    (fun counts e => counts.addTo e.2.state 1) ∅

end EndpointKeyspaces

/-- The counts of all endpoints together. -/
def aggregate_progress (endpoints : List EndpointKeyspaces) (config_hash : Path) :
    AList fun _ : ObjectState => Nat :=
  endpoints.foldl (fun totals endpoint =>
    (endpoint.count_by_state config_hash).entries.foldl
      (fun totals e => totals.addTo e.1 e.2) totals) ∅

/-! ## A table of objects -/

/-- What a cache is for: an entry, or none, for each hash and number. -/
abbrev Objects := Path × usize → Option ObjectEntry

inductive Operation
  | plan_object (config_hash : Path) (file_idx : usize) (path : Path) (size : Nat)
  | mark_creating (config_hash : Path) (file_idx : usize)
  | mark_created (config_hash : Path) (file_idx : usize) (created_at checksum : Option Nat) (now : Nat)
  | mark_failed (config_hash : Path) (file_idx : usize)
  | mark_deleted (config_hash : Path) (file_idx : usize)
  | record_created (config_hash : Path) (file_idx : usize) (path : Path) (size : Nat)
      (created_at checksum : Option Nat) (now : Nat)
  | plan_objects_batch (config_hash : Path) (objects : List (usize × Path × Nat))
  | put_listing (config_hash : Path) (timestamp : Nat) (paths : List Path)
  | set_flush_policy (policy : FlushPolicy)
  | force_flush

namespace Operation

open EndpointKeyspaces

/-- The objects that an operation is about. -/
def keys : Operation → List (Path × usize)
  | .plan_object config_hash file_idx .. => [(config_hash, file_idx)]
  | .mark_creating config_hash file_idx => [(config_hash, file_idx)]
  | .mark_created config_hash file_idx .. => [(config_hash, file_idx)]
  | .mark_failed config_hash file_idx => [(config_hash, file_idx)]
  | .mark_deleted config_hash file_idx => [(config_hash, file_idx)]
  | .record_created config_hash file_idx .. => [(config_hash, file_idx)]
  | .plan_objects_batch config_hash objects => objects.map fun o => (config_hash, o.1)
  | .put_listing .. => []
  | .set_flush_policy _ => []
  | .force_flush => []

/-- What an operation writes in the table. -/
def write (endpoint_index : Nat) (t : Objects) : Operation → Objects
  | .plan_object h i path size =>
    Function.update t (h, i) (some (ObjectEntry.new_planned path size endpoint_index))
  | .mark_creating h i => Function.update t (h, i) ((t (h, i)).map creating)
  | .mark_created h i created_at checksum now =>
    Function.update t (h, i) ((t (h, i)).map (created created_at checksum now))
  | .mark_failed h i => Function.update t (h, i) ((t (h, i)).map failed)
  | .mark_deleted h i => Function.update t (h, i) ((t (h, i)).map deleted)
  | .record_created h i path size created_at checksum now =>
    Function.update t (h, i) (some (created created_at checksum now
      ((t (h, i)).getD (ObjectEntry.new_planned path size endpoint_index))))
  | .plan_objects_batch h objects => objects.foldl (fun t o =>
      Function.update t (h, o.1) (some (ObjectEntry.new_planned o.2.1 o.2.2 endpoint_index))) t
  | .put_listing .. => t
  | .set_flush_policy _ => t
  | .force_flush => t

/-- An operation leaves the other objects of the table as they are. -/
theorem write_of_not_mem {op : Operation} {k : Path × usize} (hk : k ∉ op.keys) (endpoint_index : Nat)
    (t : Objects) : op.write endpoint_index t k = t k := by
  cases op with
  | plan_objects_batch h objects =>
    show objects.foldl _ t k = t k
    have hrest : ∀ o ∈ objects, k ≠ (h, o.1) := by
      rintro o ho rfl
      exact hk (List.mem_map_of_mem ho)
    clear hk
    induction objects generalizing t with
    | nil => rfl
    | cons o objects ih =>
      rw [List.foldl_cons, ih _ fun o' ho => hrest o' (List.mem_cons_of_mem _ ho)]
      exact Function.update_of_ne (hrest o List.mem_cons_self) _ _
  | put_listing h timestamp paths => rfl
  | set_flush_policy policy => rfl
  | force_flush => rfl
  | _ => exact Function.update_of_ne (List.ne_of_not_mem_cons hk) _ _

/-- An object that no operation of a run is about stays as it is. -/
theorem foldl_write_of_not_mem {ops : List Operation} {k : Path × usize}
    (hk : ∀ op ∈ ops, k ∉ op.keys) (endpoint_index : Nat) (t : Objects) :
    ops.foldl (write endpoint_index) t k = t k := by
  induction ops generalizing t with
  | nil => rfl
  | cons op ops ih =>
    rw [List.foldl_cons, ih fun op' hop => hk op' (List.mem_cons_of_mem _ hop)]
    exact write_of_not_mem (hk op List.mem_cons_self) _ _

end Operation

namespace EndpointKeyspaces

def step (c : EndpointKeyspaces) : Operation → EndpointKeyspaces
  | .plan_object h i path size => c.plan_object h i path size
  | .mark_creating h i => c.mark_creating h i
  | .mark_created h i created_at checksum now => c.mark_created h i created_at checksum now
  | .mark_failed h i => c.mark_failed h i
  | .mark_deleted h i => c.mark_deleted h i
  | .record_created h i path size created_at checksum now =>
    c.record_created h i path size created_at checksum now
  | .plan_objects_batch h objects => c.plan_objects_batch h objects
  | .put_listing h timestamp paths => c.put_listing h timestamp paths
  | .set_flush_policy policy => c.set_flush_policy policy
  | .force_flush => c.force_flush

def run (c : EndpointKeyspaces) (ops : List Operation) : EndpointKeyspaces := ops.foldl step c

/-- The table that the keyspace stands for. -/
def read (c : EndpointKeyspaces) : Objects := fun k => c.get_object k.1 k.2

variable {c : EndpointKeyspaces}

@[simp] theorem objects_maybe_flush : c.maybe_flush.objects = c.objects := by
  unfold maybe_flush persist
  split
  · rfl
  · dsimp only
    split <;> rfl
  · rfl

@[simp] theorem endpoint_index_maybe_flush : c.maybe_flush.endpoint_index = c.endpoint_index := by
  unfold maybe_flush persist
  split
  · rfl
  · dsimp only
    split <;> rfl
  · rfl

theorem read_congr {c' : EndpointKeyspaces} (h : c'.objects = c.objects) : c'.read = c.read := by
  unfold read get_object
  rw [h]

@[simp] theorem read_maybe_flush : c.maybe_flush.read = c.read := read_congr objects_maybe_flush

@[simp] theorem read_insert (entry : ObjectEntry) :
    (c.insert (object_key h i) entry).read = Function.update c.read (h, i) (some entry) := by
  funext k
  unfold read get_object insert
  dsimp only
  rw [AList.lookup_insert_if, Function.update_apply]
  simp only [object_key_inj]

@[simp] theorem read_mark (change : ObjectEntry → ObjectEntry) :
    (c.mark h i change).read = Function.update c.read (h, i) ((c.read (h, i)).map change) := by
  have hread : c.read (h, i) = c.objects.lookup (object_key h i) := rfl
  unfold mark
  dsimp only
  split
  · rename_i entry hentry
    rw [read_maybe_flush, read_insert, hread, hentry]
    rfl
  · rename_i hnone
    rw [read_maybe_flush, hread, hnone]
    rw [hnone] at hread
    exact (Function.update_eq_self_iff.mpr hread.symm).symm

theorem read_plan_from (h : Path) (objects : List (usize × Path × Nat)) (idx : Nat) :
    (c.plan_from h idx objects).read = objects.foldl (fun t o =>
      Function.update t (h, o.1) (some (ObjectEntry.new_planned o.2.1 o.2.2 c.endpoint_index)))
        c.read := by
  induction objects generalizing c idx with
  | nil => rfl
  | cons o objects ih =>
    unfold plan_from
    dsimp only
    split
    · rw [ih, read_maybe_flush, read_insert, endpoint_index_maybe_flush]
      rfl
    · rw [ih, read_insert]
      rfl

/-- Each operation writes what it is to write in the table. -/
theorem read_step (op : Operation) : (c.step op).read = op.write c.endpoint_index c.read := by
  cases op with
  | plan_object h i path size =>
    show (c.plan_object h i path size).read = _
    unfold plan_object
    rw [read_maybe_flush, read_insert]
    rfl
  | mark_creating h i => exact read_mark _
  | mark_created h i created_at checksum now => exact read_mark _
  | mark_failed h i => exact read_mark _
  | mark_deleted h i => exact read_mark _
  | record_created h i path size created_at checksum now =>
    show (c.record_created h i path size created_at checksum now).read = _
    unfold record_created
    dsimp only
    rw [read_maybe_flush, read_insert]
    rfl
  | plan_objects_batch h objects => exact read_plan_from h objects 0
  | put_listing h timestamp paths =>
    show (c.put_listing h timestamp paths).read = _
    unfold put_listing
    dsimp only
    rw [read_maybe_flush]
    rfl
  | set_flush_policy policy => rfl
  | force_flush => rfl

@[simp] theorem endpoint_index_mark (change : ObjectEntry → ObjectEntry) :
    (c.mark h i change).endpoint_index = c.endpoint_index := by
  unfold mark
  dsimp only
  split
  · rw [endpoint_index_maybe_flush]
    rfl
  · rw [endpoint_index_maybe_flush]

theorem endpoint_index_plan_from (h : Path) (objects : List (usize × Path × Nat)) (idx : Nat) :
    (c.plan_from h idx objects).endpoint_index = c.endpoint_index := by
  induction objects generalizing c idx with
  | nil => rfl
  | cons o objects ih =>
    unfold plan_from
    dsimp only
    rw [ih]
    split
    · rw [endpoint_index_maybe_flush]
      rfl
    · rfl

theorem endpoint_index_step (op : Operation) : (c.step op).endpoint_index = c.endpoint_index := by
  cases op with
  | plan_object h i path size => exact endpoint_index_maybe_flush
  | mark_creating h i => exact endpoint_index_mark _
  | mark_created h i created_at checksum now => exact endpoint_index_mark _
  | mark_failed h i => exact endpoint_index_mark _
  | mark_deleted h i => exact endpoint_index_mark _
  | record_created h i path size created_at checksum now => exact endpoint_index_maybe_flush
  | plan_objects_batch h objects => exact endpoint_index_plan_from h objects 0
  | put_listing h timestamp paths => exact endpoint_index_maybe_flush
  | set_flush_policy policy => rfl
  | force_flush => rfl

/-- A run writes what its operations are to write, one after the other. -/
theorem read_run (ops : List Operation) :
    (c.run ops).read = ops.foldl (Operation.write c.endpoint_index) c.read := by
  induction ops generalizing c with
  | nil => rfl
  | cons op ops ih =>
    show ((c.step op).run ops).read = _
    rw [ih, endpoint_index_step, read_step]
    rfl

/-! ## The scan -/

/-- Every key is that of an object. -/
def Keyed (c : EndpointKeyspaces) : Prop := ∀ k ∈ c.objects, ∃ h i, k = object_key h i

theorem keyed_maybe_flush : c.maybe_flush.Keyed ↔ c.Keyed := by
  unfold Keyed
  rw [objects_maybe_flush]

theorem keyed_insert (hc : c.Keyed) (h : Path) (i : usize) (entry : ObjectEntry) :
    (c.insert (object_key h i) entry).Keyed := by
  intro k hk
  rcases (AList.mem_insert _).mp hk with rfl | hk
  · exact ⟨h, i, rfl⟩
  · exact hc k hk

theorem keyed_mark (hc : c.Keyed) (h : Path) (i : usize) (change : ObjectEntry → ObjectEntry) :
    (c.mark h i change).Keyed := by
  unfold mark
  dsimp only
  split
  · exact keyed_maybe_flush.mpr (keyed_insert hc h i _)
  · exact keyed_maybe_flush.mpr hc

theorem keyed_plan_from (hc : c.Keyed) (h : Path) (objects : List (usize × Path × Nat)) (idx : Nat) :
    (c.plan_from h idx objects).Keyed := by
  induction objects generalizing c idx with
  | nil => exact hc
  | cons o objects ih =>
    unfold plan_from
    dsimp only
    apply ih
    split
    · exact keyed_maybe_flush.mpr (keyed_insert hc h _ _)
    · exact keyed_insert hc h _ _

theorem keyed_step (hc : c.Keyed) (op : Operation) : (c.step op).Keyed := by
  cases op with
  | plan_object h i path size => exact keyed_maybe_flush.mpr (keyed_insert hc h i _)
  | mark_creating h i => exact keyed_mark hc h i _
  | mark_created h i created_at checksum now => exact keyed_mark hc h i _
  | mark_failed h i => exact keyed_mark hc h i _
  | mark_deleted h i => exact keyed_mark hc h i _
  | record_created h i path size created_at checksum now =>
    exact keyed_maybe_flush.mpr (keyed_insert hc h i _)
  | plan_objects_batch h objects => exact keyed_plan_from hc h objects 0
  | put_listing h timestamp paths => exact keyed_maybe_flush.mpr hc
  | set_flush_policy policy => exact hc
  | force_flush => exact hc

theorem keyed_run (hc : c.Keyed) (ops : List Operation) : (c.run ops).Keyed := by
  induction ops generalizing c with
  | nil => exact hc
  | cons op ops ih => exact ih (keyed_step hc op)

theorem mem_entries {e : Sigma fun _ : Path => ObjectEntry} :
    e ∈ c.objects.entries ↔ c.objects.lookup e.1 = some e.2 := AList.mem_lookup_iff.symm

/-- One entry of the scan: it is reported for its own hash, with its own number. -/
theorem scan_iff {k : Path} {h' : Path} {j : usize} {entry found : ObjectEntry} {s : ObjectState}
    (hk : k = object_key h' j) :
    (( strip_prefix (h ++ [':']) k).bind fun idx_str =>
      if entry.state = s then (parse_usize idx_str).map fun file_idx => (file_idx, entry)
      else none) = some (i, found) ↔ h = h' ∧ i = j ∧ found = entry ∧ entry.state = s := by
  subst hk
  rw [Option.bind_eq_some_iff]
  constructor
  · rintro ⟨idx_str, hstrip, hfound⟩
    rw [ite_eq_iff] at hfound
    obtain ⟨hs, hparse⟩ := hfound.resolve_right fun hnone => nomatch hnone.2
    obtain ⟨_, hnumber, heq⟩ := Option.map_eq_some_iff.mp hparse
    cases heq
    unfold strip_prefix at hstrip
    rw [ite_eq_iff] at hstrip
    obtain ⟨hstart, hdrop⟩ := hstrip.resolve_right fun hnone => nomatch hnone.2
    obtain ⟨rest, hrest⟩ := List.isPrefixOf_iff_prefix.mp hstart
    rw [← hrest, List.drop_left] at hdrop
    cases hdrop
    obtain ⟨hhash, hindex, _⟩ := parse_key_iff.mp ⟨hrest, hnumber⟩
    exact ⟨hhash, hindex.symm, rfl, hs⟩
  · rintro ⟨rfl, rfl, rfl, hs⟩
    refine ⟨padded 10 8 i, ?_, ?_⟩
    · have hkey : object_key h i = (h ++ [':']) ++ padded 10 8 i := by
        rw [List.append_assoc]
        rfl
      unfold strip_prefix
      rw [hkey, if_pos (List.isPrefixOf_iff_prefix.mpr (List.prefix_append _ _)), List.drop_left]
    · rw [if_pos hs, parse_usize_padded]
      rfl

theorem mem_get_objects_by_state (hc : c.Keyed) {s : ObjectState} {entry : ObjectEntry} :
    (i, entry) ∈ c.get_objects_by_state h s ↔ c.read (h, i) = some entry ∧ entry.state = s := by
  unfold get_objects_by_state
  rw [List.mem_filterMap]
  constructor
  · rintro ⟨e, he, hscan⟩
    have hlook := mem_entries.mp he
    obtain ⟨h', j, hk⟩ := hc e.1 (AList.mem_iff_lookup.mpr ⟨_, hlook⟩)
    obtain ⟨rfl, rfl, rfl, hs⟩ := (scan_iff hk).mp hscan
    rw [hk] at hlook
    exact ⟨hlook, hs⟩
  · rintro ⟨hread, hs⟩
    exact ⟨⟨object_key h i, entry⟩, mem_entries.mpr hread, (scan_iff rfl).mpr ⟨rfl, rfl, rfl, hs⟩⟩

theorem key_of_entry (hc : c.Keyed) {e : Sigma fun _ : Path => ObjectEntry}
    (he : e ∈ c.objects.entries) : ∃ h i, e.1 = object_key h i :=
  hc e.1 (AList.mem_iff_lookup.mpr ⟨_, mem_entries.mp he⟩)

/-- No number is reported twice. -/
theorem nodup_get_objects_by_state (hc : c.Keyed) (h : Path) (s : ObjectState) :
    ((c.get_objects_by_state h s).map Prod.fst).Nodup := by
  unfold get_objects_by_state List.Nodup
  rw [List.pairwise_map, List.pairwise_filterMap]
  refine List.Pairwise.imp_of_mem ?_ (List.NodupKeys.pairwise_ne c.objects.nodupKeys)
  rintro e e' he he' hne ⟨i, entry⟩ hscan ⟨i', entry'⟩ hscan' heq
  obtain ⟨_, _, hk⟩ := key_of_entry hc he
  obtain ⟨_, _, hk'⟩ := key_of_entry hc he'
  obtain ⟨rfl, rfl, _⟩ := (scan_iff hk).mp hscan
  obtain ⟨rfl, rfl, _⟩ := (scan_iff hk').mp hscan'
  dsimp only at heq
  subst heq
  exact hne (hk.trans hk'.symm)

/-- The count of a state is that of the objects reported, when no other hash begins
with the hash and a colon. -/
theorem count_by_state_eq (hc : c.Keyed)
    (hother : ∀ h' i, h ++ [':'] <+: h' → c.read (h', i) = none) (s : ObjectState) :
    ((c.count_by_state h).lookup s).getD 0 = (c.get_objects_by_state h s).length := by
  unfold count_by_state get_objects_by_state
  dsimp only
  rw [AList.foldl_addTo, List.filter_filter, List.map_const', List.sum_replicate_nat, Nat.mul_one,
    List.length_filterMap_eq_countP, ← List.countP_eq_length_filter]
  show 0 + _ = _
  rw [Nat.zero_add]
  refine List.countP_congr fun e he => ?_
  obtain ⟨h', i, hk⟩ := key_of_entry hc he
  rw [Bool.and_eq_true, decide_eq_true_iff, List.isPrefixOf_iff_prefix,
    Option.isSome_iff_exists]
  constructor
  · rintro ⟨hs, hstart⟩
    rw [hk] at hstart
    rcases prefix_key hstart with rfl | hlonger
    · exact ⟨(i, e.2), (scan_iff hk).mpr ⟨rfl, rfl, rfl, hs⟩⟩
    · have hread := hother h' i hlonger
      have hlook := mem_entries.mp he
      rw [hk] at hlook
      exact nomatch hlook.symm.trans hread
  · rintro ⟨⟨j, found⟩, hscan⟩
    obtain ⟨rfl, rfl, _, hs⟩ := (scan_iff hk).mp hscan
    refine ⟨hs, ?_⟩
    rw [hk]
    exact ⟨padded 10 8 j, List.append_assoc ..⟩

/-! ## The cache as a table -/

/-- The cache answers as the table does: it reads its entries, and reports the objects of
a hash and a state, each with its number and once; and it counts as many, when no other
hash in the table begins with the hash and a colon. -/
structure Reports (c : EndpointKeyspaces) (t : Objects) : Prop where
  reads : ∀ h i, c.get_object h i = t (h, i)
  by_state : ∀ h s i entry,
    (i, entry) ∈ c.get_objects_by_state h s ↔ t (h, i) = some entry ∧ entry.state = s
  once : ∀ h s, ((c.get_objects_by_state h s).map Prod.fst).Nodup
  one_state : ∀ h i, t (h, i) ≠ none → ∃! s, i ∈ (c.get_objects_by_state h s).map Prod.fst
  counts : ∀ h, (∀ h' i, h ++ [':'] <+: h' → t (h', i) = none) → ∀ s,
    ((c.count_by_state h).lookup s).getD 0 = (c.get_objects_by_state h s).length

theorem reports_of_keyed (hc : c.Keyed) : c.Reports c.read where
  reads _ _ := rfl
  by_state _ _ _ _ := mem_get_objects_by_state hc
  once := nodup_get_objects_by_state hc
  one_state h i hi := by
    obtain ⟨entry, hentry⟩ := Option.ne_none_iff_exists'.mp hi
    refine ⟨entry.state, List.mem_map.mpr ⟨(i, entry),
      (mem_get_objects_by_state hc).mpr ⟨hentry, rfl⟩, rfl⟩, fun s hs => ?_⟩
    obtain ⟨⟨_, found⟩, hfound, rfl⟩ := List.mem_map.mp hs
    obtain ⟨hread, rfl⟩ := (mem_get_objects_by_state hc).mp hfound
    rw [Option.some.inj (hentry.symm.trans hread)]
  counts _ hother := count_by_state_eq hc hother

end EndpointKeyspaces

open EndpointKeyspaces

/-- The counts of all endpoints are added up, state by state. -/
theorem lookup_aggregate_progress (endpoints : List EndpointKeyspaces) (h : Path) (s : ObjectState) :
    ((aggregate_progress endpoints h).lookup s).getD 0 =
      (endpoints.map fun c => ((c.count_by_state h).lookup s).getD 0).sum := by
  have hone : ∀ counts totals : AList fun _ : ObjectState => Nat,
      ((counts.entries.foldl (fun totals e => totals.addTo e.1 e.2) totals).lookup s).getD 0 =
        (totals.lookup s).getD 0 + (counts.lookup s).getD 0 := by
    intro counts totals
    rw [AList.foldl_addTo, AList.sum_entries_of_key]
  unfold aggregate_progress
  suffices hall : ∀ totals : AList fun _ : ObjectState => Nat,
      ((endpoints.foldl (fun totals c => (c.count_by_state h).entries.foldl
        (fun totals e => totals.addTo e.1 e.2) totals) totals).lookup s).getD 0 =
      (totals.lookup s).getD 0 +
        (endpoints.map fun c => ((c.count_by_state h).lookup s).getD 0).sum by
    have := hall ∅
    rwa [AList.lookup_empty, Option.getD_none, Nat.zero_add] at this
  intro totals
  induction endpoints generalizing totals with
  | nil => rfl
  | cons c endpoints ih =>
    rw [List.foldl_cons, ih, hone, List.map_cons, List.sum_cons, Nat.add_assoc]

/-- The keyspace after a run. -/
def cache_after (endpoint_index : Nat) (policy : FlushPolicy) (ops : List Operation) :
    EndpointKeyspaces :=
  run { endpoint_index := endpoint_index, flush_policy := policy } ops

/-- The table after a run. -/
def table_after (endpoint_index : Nat) (ops : List Operation) : Objects :=
  ops.foldl (Operation.write endpoint_index) fun _ => none

theorem reports_after (endpoint_index : Nat) (policy : FlushPolicy) (ops : List Operation) :
    (cache_after endpoint_index policy ops).Reports (table_after endpoint_index ops) := by
  have hstart : Keyed { endpoint_index := endpoint_index, flush_policy := policy } :=
    fun k hk => absurd hk (AList.notMem_empty k)
  have hread := read_run (c := { endpoint_index := endpoint_index, flush_policy := policy }) ops
  have hreports := reports_of_keyed (keyed_run hstart ops)
  rw [hread] at hreports
  exact hreports

/-- Whatever operations come, under whatever flush policy: the cache is the table of what they
wrote, and with the hashes that the code makes it counts what it reports, for each
hash; an operation leaves other objects as they are; and the counts of all endpoints
are those of each added up. -/
theorem cache_is_a_table (endpoint_index : Nat) (policy : FlushPolicy) (ops : List Operation) :
    (cache_after endpoint_index policy ops).Reports (table_after endpoint_index ops) ∧
    (∀ hash, (∀ op ∈ ops, ∀ k ∈ op.keys, ∃ config, k.1 = generate_config_hash hash config) →
      ∀ h s, (((cache_after endpoint_index policy ops).count_by_state h).lookup s).getD 0 =
        ((cache_after endpoint_index policy ops).get_objects_by_state h s).length) ∧
    (∀ (c : EndpointKeyspaces) (op : Operation) h i, (h, i) ∉ op.keys →
      (c.step op).get_object h i = c.get_object h i) ∧
    ∀ endpoints h s, ((aggregate_progress endpoints h).lookup s).getD 0 =
      (endpoints.map fun c => ((c.count_by_state h).lookup s).getD 0).sum := by
  have hreports := reports_after endpoint_index policy ops
  refine ⟨hreports, ?_, ?_, lookup_aggregate_progress⟩
  · intro hash hmade h s
    refine hreports.counts h (fun h' i hlonger => ?_) s
    apply Operation.foldl_write_of_not_mem
    intro op hop hk
    obtain ⟨config, rfl⟩ := hmade op hop _ hk
    refine colon_not_mem_config_hash hash config (hlonger.subset ?_)
    simp
  · intro c op h i hk
    have hread := congrFun (read_step (c := c) op) (h, i)
    exact hread.trans (Operation.write_of_not_mem hk _ _)

end sai3_bench.metadata_cache
