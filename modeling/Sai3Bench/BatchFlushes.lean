-- What of an endpoint's cache is on the disk (metadata_cache.rs): its keyspaces as
-- one journal of writes, of which a flush persists all.
import Sai3Bench.ObjectKeys

namespace sai3_bench.metadata_cache

open directory_tree texts

/-! ## The journal -/

/-- A write into one of the four keyspaces. -/
inductive Write
  | objects (key : Path) (entry : ObjectEntry)
  | listing_cache (key : Path) (paths : List Path)
  | endpoint_map (key : Path) (endpoint_idx : BitVec 32)
  | seeds (key : Path) (seed : BitVec 64)

/-- The writes, the last one first, of which the first `unsynced` are not on the disk. -/
structure Journal where
  endpoint_index : Nat
  writes : List Write := []
  unsynced : Nat := 0
  flush_policy : FlushPolicy := .AsyncInterval 30
  pending_writes : Nat := 0

/-- The entry of an object that was written last. -/
def entryOf (key : Path) (writes : List Write) : Option ObjectEntry :=
  writes.findSome? fun
    | .objects k entry => if k = key then some entry else none
    | _ => none

def listingOf (key : Path) (writes : List Write) : Option (List Path) :=
  writes.findSome? fun
    | .listing_cache k paths => if k = key then some paths else none
    | _ => none

theorem entryOf_cons (key k : Path) (entry : ObjectEntry) (writes : List Write) :
    entryOf key (.objects k entry :: writes) = if k = key then some entry else entryOf key writes := by
  unfold entryOf
  rw [List.findSome?_cons]
  by_cases hk : k = key
  · simp only [if_pos hk]
  · simp only [if_neg hk]

theorem listingOf_cons (key k : Path) (paths : List Path) (writes : List Write) :
    listingOf key (.listing_cache k paths :: writes) =
      if k = key then some paths else listingOf key writes := by
  unfold listingOf
  rw [List.findSome?_cons]
  by_cases hk : k = key
  · simp only [if_pos hk]
  · simp only [if_neg hk]

namespace Journal

/-- What is on the disk. -/
def persisted (c : Journal) : List Write := c.writes.drop c.unsynced

def insert (c : Journal) (w : Write) : Journal :=
  { c with writes := w :: c.writes, unsynced := c.unsynced + 1 }

def persist (c : Journal) : Journal := { c with unsynced := 0 }

def maybe_flush (c : Journal) : Journal :=
  match c.flush_policy with
  | .Immediate => c.persist
  | .BatchSize threshold =>
    let pending := c.pending_writes + 1
    if threshold ≤ pending then { c with pending_writes := 0 }.persist
    else { c with pending_writes := pending }
  | .AsyncInterval _ => { c with pending_writes := c.pending_writes + 1 }

def force_flush (c : Journal) : Journal := { c with pending_writes := 0 }.persist

def set_flush_policy (c : Journal) (policy : FlushPolicy) : Journal :=
  { c with flush_policy := policy, pending_writes := 0 }

/-! ## The operations -/

def plan_object (c : Journal) (config_hash : Path) (file_idx : usize) (path : Path) (size : Nat) :
    Journal :=
  (c.insert (.objects (object_key config_hash file_idx)
    (ObjectEntry.new_planned path size c.endpoint_index))).maybe_flush

/-- Change the entry of an object, if there is one. The call counts in any case. -/
def mark (c : Journal) (config_hash : Path) (file_idx : usize)
    (change : ObjectEntry → ObjectEntry) : Journal :=
  let key := object_key config_hash file_idx
  match entryOf key c.writes with
  | some entry => (c.insert (.objects key (change entry))).maybe_flush
  | none => c.maybe_flush

open EndpointKeyspaces (creating failed deleted created BATCH_SIZE)

def mark_creating (c : Journal) (config_hash : Path) (file_idx : usize) : Journal :=
  c.mark config_hash file_idx creating

def mark_created (c : Journal) (config_hash : Path) (file_idx : usize)
    (created_at checksum : Option Nat) (now : Nat) : Journal :=
  c.mark config_hash file_idx (created created_at checksum now)

def mark_failed (c : Journal) (config_hash : Path) (file_idx : usize) : Journal :=
  c.mark config_hash file_idx failed

def mark_deleted (c : Journal) (config_hash : Path) (file_idx : usize) : Journal :=
  c.mark config_hash file_idx deleted

def record_created (c : Journal) (config_hash : Path) (file_idx : usize) (path : Path)
    (size : Nat) (created_at checksum : Option Nat) (now : Nat) : Journal :=
  let key := object_key config_hash file_idx
  let entry := (entryOf key c.writes).getD (ObjectEntry.new_planned path size c.endpoint_index)
  (c.insert (.objects key (created created_at checksum now entry))).maybe_flush

/-- The loop of a batch, from its `idx`-th write on. -/
def insert_from (c : Journal) (idx : Nat) : List Write → Journal
  | [] => c
  | w :: ws =>
    let c := c.insert w
    let c := if (idx + 1) % BATCH_SIZE = 0 then c.maybe_flush else c
    c.insert_from (idx + 1) ws

def planned (endpoint_index : Nat) (config_hash : Path) (objects : List (usize × Path × Nat)) :
    List Write :=
  objects.map fun o =>
    .objects (object_key config_hash o.1) (ObjectEntry.new_planned o.2.1 o.2.2 endpoint_index)

def plan_objects_batch (c : Journal) (config_hash : Path) (objects : List (usize × Path × Nat)) :
    Journal :=
  (c.insert_from 0 (planned c.endpoint_index config_hash objects)).force_flush

def put_listing (c : Journal) (config_hash : Path) (timestamp : Nat) (paths : List Path) : Journal :=
  (c.insert (.listing_cache
    (config_hash ++ ":list_timestamp:".toList ++ Nat.toDigits 10 timestamp) paths)).maybe_flush

/-- The key of a number in one of the other two keyspaces. -/
def numbered_key (config_hash kind : Path) (idx : Nat) : Path :=
  config_hash ++ ':' :: kind ++ ':' :: padded 10 8 idx

def mapped (config_hash strategy : Path) (total_files num_endpoints : Nat) : List Write :=
  (List.range total_files).map fun file_idx =>
    .endpoint_map (numbered_key config_hash strategy file_idx)
      (BitVec.ofNat 32 (file_idx % num_endpoints))

/-- Without endpoints the first remainder panics, before anything is written. -/
def populate_endpoint_map (c : Journal) (config_hash strategy : Path)
    (total_files num_endpoints : Nat) : Journal :=
  if num_endpoints = 0 ∧ 0 < total_files then c
  else (c.insert_from 0 (mapped config_hash strategy total_files num_endpoints)).force_flush

def put_seed (c : Journal) (config_hash seed_type : Path) (index : Nat) (seed : BitVec 64) : Journal :=
  (c.insert (.seeds (numbered_key config_hash seed_type index) seed)).maybe_flush

end Journal

/-- All that is done with a cache. -/
inductive Call
  | op (op : Operation)
  | populate_endpoint_map (config_hash strategy : Path) (total_files num_endpoints : Nat)
  | put_seed (config_hash seed_type : Path) (index : Nat) (seed : BitVec 64)

namespace Journal

def step (c : Journal) : Operation → Journal
  | .plan_object h i path size => c.plan_object h i path size
  | .mark_creating h i => c.mark_creating h i
  | .mark_created h i created_at checksum now => c.mark_created h i created_at checksum now
  | .mark_failed h i => c.mark_failed h i
  | .mark_deleted h i => c.mark_deleted h i
  | .record_created h i path size created_at checksum now =>
    c.record_created h i path size created_at checksum now
  | .plan_objects_batch h objects => c.plan_objects_batch h objects
  | .put_listing h timestamp paths => c.put_listing h timestamp paths
  | .set_flush_policy policy => c.set_flush_policy policy
  | .force_flush => c.force_flush

def call (c : Journal) : Call → Journal
  | .op op => c.step op
  | .populate_endpoint_map h strategy total_files num_endpoints =>
    c.populate_endpoint_map h strategy total_files num_endpoints
  | .put_seed h seed_type index seed => c.put_seed h seed_type index seed

def run (c : Journal) (calls : List Call) : Journal := calls.foldl call c

end Journal

/-! ## The journal and the keyspaces -/

/-- A journal and the keyspaces of a cache hold the same objects, in memory and on the disk. -/
structure Agrees (j : Journal) (c : EndpointKeyspaces) : Prop where
  endpoint_index : j.endpoint_index = c.endpoint_index
  flush_policy : j.flush_policy = c.flush_policy
  pending_writes : j.pending_writes = c.pending_writes
  objects : ∀ key, entryOf key j.writes = c.objects.lookup key
  listings : ∀ key, listingOf key j.writes = c.listing_cache.lookup key
  persisted : ∀ key, entryOf key j.persisted = c.persisted.lookup key

namespace Agrees

variable {j : Journal} {c : EndpointKeyspaces}

theorem persist (h : Agrees j c) : Agrees j.persist c.persist where
  endpoint_index := h.endpoint_index
  flush_policy := h.flush_policy
  pending_writes := h.pending_writes
  objects := h.objects
  listings := h.listings
  persisted := h.objects

theorem pending (h : Agrees j c) (n : Nat) :
    Agrees { j with pending_writes := n } { c with pending_writes := n } where
  endpoint_index := h.endpoint_index
  flush_policy := h.flush_policy
  pending_writes := rfl
  objects := h.objects
  listings := h.listings
  persisted := h.persisted

theorem maybe_flush (h : Agrees j c) : Agrees j.maybe_flush c.maybe_flush := by
  have hpolicy := h.flush_policy
  have hpending := h.pending_writes
  unfold Journal.maybe_flush EndpointKeyspaces.maybe_flush
  cases hc : c.flush_policy with
  | Immediate =>
    rw [hc] at hpolicy
    rw [hpolicy]
    exact h.persist
  | BatchSize threshold =>
    rw [hc] at hpolicy
    simp only [hpolicy, hpending]
    by_cases hfull : threshold ≤ c.pending_writes + 1
    · rw [if_pos hfull, if_pos hfull]
      have hflush := (h.pending 0).persist
      rwa [hpolicy, hc] at hflush
    · rw [if_neg hfull, if_neg hfull]
      have hnext := h.pending (c.pending_writes + 1)
      rwa [hpolicy, hc] at hnext
  | AsyncInterval secs =>
    rw [hc] at hpolicy
    simp only [hpolicy, hpending]
    have hnext := h.pending (c.pending_writes + 1)
    rwa [hpolicy, hc] at hnext

theorem force_flush (h : Agrees j c) : Agrees j.force_flush c.force_flush := (h.pending 0).persist

theorem insert (h : Agrees j c) (key : Path) (entry : ObjectEntry) :
    Agrees (j.insert (.objects key entry)) (c.insert key entry) where
  endpoint_index := h.endpoint_index
  flush_policy := h.flush_policy
  pending_writes := h.pending_writes
  objects k := by
    show entryOf k (.objects key entry :: j.writes) = (c.objects.insert key entry).lookup k
    rw [entryOf_cons, AList.lookup_insert_if, h.objects]
    by_cases hk : key = k
    · rw [if_pos hk, if_pos hk.symm]
    · rw [if_neg hk, if_neg fun heq => hk heq.symm]
  listings k := h.listings k
  persisted := h.persisted

theorem mark (h : Agrees j c) (config_hash : Path) (file_idx : usize)
    (change : ObjectEntry → ObjectEntry) :
    Agrees (j.mark config_hash file_idx change) (c.mark config_hash file_idx change) := by
  unfold Journal.mark EndpointKeyspaces.mark
  dsimp only
  rw [h.objects]
  cases c.objects.lookup (object_key config_hash file_idx) with
  | some entry => exact (h.insert _ _).maybe_flush
  | none => exact h.maybe_flush

theorem insert_from (h : Agrees j c) (config_hash : Path) (objects : List (usize × Path × Nat))
    (idx : Nat) : Agrees (j.insert_from idx (Journal.planned c.endpoint_index config_hash objects))
      (c.plan_from config_hash idx objects) := by
  induction objects generalizing j c idx with
  | nil => exact h
  | cons o objects ih =>
    have hinsert := h.insert (object_key config_hash o.1)
      (ObjectEntry.new_planned o.2.1 o.2.2 c.endpoint_index)
    unfold Journal.planned
    rw [List.map_cons]
    unfold Journal.insert_from EndpointKeyspaces.plan_from
    dsimp only
    by_cases hbatch : (idx + 1) % EndpointKeyspaces.BATCH_SIZE = 0
    · rw [if_pos hbatch, if_pos hbatch]
      have hnext := ih hinsert.maybe_flush (idx + 1)
      rwa [EndpointKeyspaces.endpoint_index_maybe_flush] at hnext
    · rw [if_neg hbatch, if_neg hbatch]
      exact ih hinsert (idx + 1)

/-- Each operation does the same to both. -/
theorem step (h : Agrees j c) (op : Operation) : Agrees (j.step op) (c.step op) := by
  cases op with
  | plan_object config_hash i path size =>
    have hinsert := h.insert (object_key config_hash i)
      (ObjectEntry.new_planned path size c.endpoint_index)
    show Agrees (j.plan_object config_hash i path size) (c.plan_object config_hash i path size)
    unfold Journal.plan_object EndpointKeyspaces.plan_object
    rw [h.endpoint_index]
    exact hinsert.maybe_flush
  | mark_creating config_hash i => exact h.mark config_hash i _
  | mark_created config_hash i created_at checksum now => exact h.mark config_hash i _
  | mark_failed config_hash i => exact h.mark config_hash i _
  | mark_deleted config_hash i => exact h.mark config_hash i _
  | record_created config_hash i path size created_at checksum now =>
    show Agrees (j.record_created config_hash i path size created_at checksum now)
      (c.record_created config_hash i path size created_at checksum now)
    unfold Journal.record_created EndpointKeyspaces.record_created
    dsimp only
    rw [h.objects, h.endpoint_index]
    exact (h.insert _ _).maybe_flush
  | plan_objects_batch config_hash objects =>
    show Agrees (j.plan_objects_batch config_hash objects) (c.plan_objects_batch config_hash objects)
    unfold Journal.plan_objects_batch
    rw [h.endpoint_index]
    exact (h.insert_from config_hash objects 0).force_flush
  | put_listing config_hash timestamp paths =>
    apply maybe_flush
    refine ⟨h.endpoint_index, h.flush_policy, h.pending_writes, h.objects, fun key => ?_, h.persisted⟩
    refine (listingOf_cons key _ paths j.writes).trans ?_
    rw [AList.lookup_insert_if, h.listings]
    by_cases hk : key = config_hash ++ ":list_timestamp:".toList ++ Nat.toDigits 10 timestamp
    · rw [if_pos hk.symm, if_pos hk]
    · rw [if_neg fun heq => hk heq.symm, if_neg hk]
  | set_flush_policy policy =>
    exact ⟨h.endpoint_index, rfl, rfl, h.objects, h.listings, h.persisted⟩
  | force_flush => exact h.force_flush

theorem run (h : Agrees j c) (ops : List Operation) :
    Agrees (j.run (ops.map .op)) (c.run ops) := by
  induction ops generalizing j c with
  | nil => exact h
  | cons op ops ih => exact ih (h.step op)

end Agrees

/-- The journal of a new cache is about the cache that the table of objects stands for. -/
theorem journal_agrees (endpoint_index : Nat) (policy : FlushPolicy) (ops : List Operation) :
    Agrees (({ endpoint_index := endpoint_index, flush_policy := policy } : Journal).run
      (ops.map .op)) (cache_after endpoint_index policy ops) := by
  have hnew : Agrees { endpoint_index := endpoint_index, flush_policy := policy }
      { endpoint_index := endpoint_index, flush_policy := policy } :=
    ⟨rfl, rfl, rfl, fun _ => rfl, fun _ => rfl, fun _ => rfl⟩
  exact hnew.run ops

/-! ## The bound -/

namespace Call

/-- The calls that write. The one that panics before its first write is none of them. -/
def writes : Call → Bool
  | op (.set_flush_policy _) => false
  | op .force_flush => false
  | populate_endpoint_map _ _ total_files num_endpoints => !(num_endpoints = 0 && 0 < total_files)
  | _ => true

/-- The policy stays as it is. -/
def KeepsPolicy : Call → Prop
  | op (.set_flush_policy _) => False
  | _ => True

end Call

namespace Journal

/-- What a call does under a batch policy: it persists everything, or it is one more of
fewer than a batch, with one write at most, or it does nothing. -/
inductive Moves (n : Nat) (c c' : Journal) (writes : Bool) : Prop
  | flushes (new : List Write) (hwrites : c'.writes = new ++ c.writes)
      (hpolicy : c'.flush_policy = c.flush_policy) (hsynced : c'.unsynced = 0)
      (hpending : c'.pending_writes = 0)
  | counts (new : List Write) (hwrites : c'.writes = new ++ c.writes)
      (hpolicy : c'.flush_policy = c.flush_policy) (hone : new.length ≤ 1)
      (hsynced : c'.unsynced = c.unsynced + new.length)
      (hpending : c'.pending_writes = c.pending_writes + 1) (hbatch : c'.pending_writes < n)
  | rests (hsame : c' = c) (hwrites : writes = false)

variable {n : Nat} {c : Journal}

theorem policy_maybe_flush : c.maybe_flush.flush_policy = c.flush_policy := by
  unfold maybe_flush persist
  split
  · rfl
  · dsimp only
    split <;> rfl
  · rfl

theorem writes_maybe_flush : c.maybe_flush.writes = c.writes := by
  unfold maybe_flush persist
  split
  · rfl
  · dsimp only
    split <;> rfl
  · rfl

theorem maybe_flush_batch (hpolicy : c.flush_policy = .BatchSize n) :
    (c.maybe_flush.unsynced = 0 ∧ c.maybe_flush.pending_writes = 0) ∨
      (c.maybe_flush.unsynced = c.unsynced ∧
        c.maybe_flush.pending_writes = c.pending_writes + 1 ∧ c.pending_writes + 1 < n) := by
  unfold maybe_flush
  rw [hpolicy]
  dsimp only
  by_cases hfull : n ≤ c.pending_writes + 1
  · rw [if_pos hfull]
    exact .inl ⟨rfl, rfl⟩
  · rw [if_neg hfull]
    exact .inr ⟨rfl, rfl, by omega⟩

/-- A call that ends in `maybe_flush`. -/
theorem moves_maybe_flush (hpolicy : c.flush_policy = .BatchSize n) (writes : Bool) :
    Moves n c c.maybe_flush writes := by
  rcases maybe_flush_batch hpolicy with ⟨hsynced, hpending⟩ | ⟨hsynced, hpending, hlt⟩
  · exact .flushes [] writes_maybe_flush policy_maybe_flush hsynced hpending
  · exact .counts [] writes_maybe_flush policy_maybe_flush (Nat.zero_le 1) hsynced hpending (by omega)

theorem moves_insert (hpolicy : c.flush_policy = .BatchSize n) (w : Write) (writes : Bool) :
    Moves n c (c.insert w).maybe_flush writes := by
  have hinsert : (c.insert w).flush_policy = .BatchSize n := hpolicy
  rcases maybe_flush_batch hinsert with ⟨hsynced, hpending⟩ | ⟨hsynced, hpending, hlt⟩
  · exact .flushes [w] writes_maybe_flush policy_maybe_flush hsynced hpending
  · exact .counts [w] writes_maybe_flush policy_maybe_flush le_rfl hsynced hpending (by omega)

theorem moves_mark (hpolicy : c.flush_policy = .BatchSize n) (config_hash : Path)
    (file_idx : usize) (change : ObjectEntry → ObjectEntry) (writes : Bool) :
    Moves n c (c.mark config_hash file_idx change) writes := by
  unfold mark
  dsimp only
  split
  · exact moves_insert hpolicy _ writes
  · exact moves_maybe_flush hpolicy writes

theorem insert_from_writes (idx : Nat) (ws : List Write) (c : Journal) :
    ∃ new, (c.insert_from idx ws).writes = new ++ c.writes := by
  induction ws generalizing c idx with
  | nil => exact ⟨[], rfl⟩
  | cons w ws ih =>
    unfold insert_from
    dsimp only
    split
    · obtain ⟨new, hnew⟩ := ih (idx + 1) (c.insert w).maybe_flush
      exact ⟨new ++ [w], by rw [hnew, writes_maybe_flush, List.append_assoc]; rfl⟩
    · obtain ⟨new, hnew⟩ := ih (idx + 1) (c.insert w)
      exact ⟨new ++ [w], by rw [hnew, List.append_assoc]; rfl⟩

theorem policy_insert_from (idx : Nat) (ws : List Write) (c : Journal) :
    (c.insert_from idx ws).flush_policy = c.flush_policy := by
  induction ws generalizing c idx with
  | nil => rfl
  | cons w ws ih =>
    unfold insert_from
    dsimp only
    rw [ih]
    split
    · exact policy_maybe_flush
    · rfl

/-- Whatever a batch has left is persisted at its end. -/
theorem moves_batch (idx : Nat) (ws : List Write) (writes : Bool) :
    Moves n c (c.insert_from idx ws).force_flush writes := by
  obtain ⟨new, hnew⟩ := insert_from_writes idx ws c
  exact .flushes new hnew (policy_insert_from idx ws c) rfl rfl

theorem moves_call (hpolicy : c.flush_policy = .BatchSize n) (call : Call) (hkeeps : call.KeepsPolicy) :
    Moves n c (c.call call) call.writes := by
  match call with
  | .op (.plan_object h i path size) => exact moves_insert hpolicy _ true
  | .op (.mark_creating h i) => exact moves_mark hpolicy h i _ true
  | .op (.mark_created h i created_at checksum now) => exact moves_mark hpolicy h i _ true
  | .op (.mark_failed h i) => exact moves_mark hpolicy h i _ true
  | .op (.mark_deleted h i) => exact moves_mark hpolicy h i _ true
  | .op (.record_created h i path size created_at checksum now) => exact moves_insert hpolicy _ true
  | .op (.plan_objects_batch h objects) => exact moves_batch 0 _ true
  | .op (.put_listing h timestamp paths) => exact moves_insert hpolicy _ true
  | .op (.set_flush_policy policy) => exact absurd hkeeps id
  | .op .force_flush => exact .flushes [] rfl rfl rfl rfl
  | .put_seed h seed_type index seed => exact moves_insert hpolicy _ true
  | .populate_endpoint_map h strategy total_files num_endpoints =>
    show Moves n c (c.populate_endpoint_map h strategy total_files num_endpoints) _
    unfold populate_endpoint_map
    split
    · rename_i hpanics
      exact .rests rfl (by simp [Call.writes, hpanics])
    · exact moves_batch 0 _ _

theorem Moves.policy {c' : Journal} {writes : Bool} (h : Moves n c c' writes) :
    c'.flush_policy = c.flush_policy := by
  cases h with
  | flushes new hwrites hpolicy hsynced hpending => exact hpolicy
  | counts new hwrites hpolicy hone hsynced hpending hbatch => exact hpolicy
  | rests hsame hwrites => rw [hsame]

/-- The writes since some state that are not on the disk. -/
def unsynced_since (start c : Journal) : Nat :=
  min c.unsynced (c.writes.length - start.writes.length)

/-- Under a batch policy the pending writes count those that are not on the disk, and
are fewer than a batch. -/
structure Bounded (n : Nat) (start c : Journal) : Prop where
  policy : c.flush_policy = .BatchSize n
  later : start.writes <:+ c.writes
  counted : unsynced_since start c ≤ c.pending_writes
  below : c.pending_writes < n

variable {start : Journal}

theorem Bounded.call (h : Bounded n start c) (call : Call) (hkeeps : call.KeepsPolicy) :
    Bounded n start (c.call call) := by
  have hmoves := moves_call h.policy call hkeeps
  have hlen := h.later.length_le
  have hcounted := h.counted
  have hbelow := h.below
  unfold unsynced_since at hcounted
  refine ⟨hmoves.policy.trans h.policy, ?_, ?_, ?_⟩
  · cases hmoves with
    | flushes new hwrites hpolicy hsynced hpending =>
      rw [hwrites]
      exact h.later.trans (List.suffix_append new c.writes)
    | counts new hwrites hpolicy hone hsynced hpending hbatch =>
      rw [hwrites]
      exact h.later.trans (List.suffix_append new c.writes)
    | rests hsame hwrites =>
      rw [hsame]
      exact h.later
  · unfold unsynced_since
    cases hmoves with
    | flushes new hwrites hpolicy hsynced hpending =>
      rw [hsynced]
      omega
    | counts new hwrites hpolicy hone hsynced hpending hbatch =>
      rw [hwrites, hsynced, hpending, List.length_append]
      omega
    | rests hsame hwrites =>
      rw [hsame]
      exact hcounted
  · cases hmoves with
    | flushes new hwrites hpolicy hsynced hpending => omega
    | counts new hwrites hpolicy hone hsynced hpending hbatch => exact hbatch
    | rests hsame hwrites =>
      rw [hsame]
      exact hbelow

theorem Bounded.run (h : Bounded n start c) (calls : List Call)
    (hkeeps : ∀ call ∈ calls, call.KeepsPolicy) : Bounded n start (c.run calls) := by
  induction calls generalizing c with
  | nil => exact h
  | cons call calls ih =>
    rw [List.forall_mem_cons] at hkeeps
    exact ih (h.call call hkeeps.1) hkeeps.2

theorem run_append (before after : List Call) :
    c.run (before ++ after) = (c.run before).run after := List.foldl_append

/-- What was written by some state is on the disk, or all calls since then are pending. -/
def Awaits (written : List Write) (calls : Nat) (c : Journal) : Prop :=
  written <:+ c.persisted ∨ (written <:+ c.writes ∧ calls ≤ c.pending_writes)

theorem awaits_call {written : List Write} {k : Nat} (hpolicy : c.flush_policy = .BatchSize n)
    (h : Awaits written k c) (call : Call) (hkeeps : call.KeepsPolicy) :
    Awaits written (k + if call.writes then 1 else 0) (c.call call) := by
  have hmem : written <:+ c.writes := by
    rcases h with hdisk | ⟨hmem, _⟩
    · exact hdisk.trans (List.drop_suffix _ _)
    · exact hmem
  cases moves_call hpolicy call hkeeps with
  | flushes new hwrites _ hsynced hpending =>
    left
    unfold persisted
    rw [hsynced, List.drop_zero, hwrites]
    exact hmem.trans (List.suffix_append new c.writes)
  | counts new hwrites _ hone hsynced hpending hbatch =>
    rcases h with hdisk | ⟨_, hcalls⟩
    · left
      unfold persisted
      rw [hsynced, hwrites, Nat.add_comm, ← List.drop_drop, List.drop_left]
      exact hdisk
    · right
      rw [hwrites, hpending]
      refine ⟨hmem.trans (List.suffix_append new c.writes), ?_⟩
      split <;> omega
  | rests hsame hwrites =>
    rw [hsame, hwrites]
    exact h

theorem awaits_run {written : List Write} {k : Nat} (calls : List Call) (hb : Bounded n start c)
    (h : Awaits written k c) (hkeeps : ∀ call ∈ calls, call.KeepsPolicy) :
    Awaits written (k + calls.countP Call.writes) (c.run calls) := by
  induction calls generalizing c k with
  | nil => exact h
  | cons call calls ih =>
    rw [List.forall_mem_cons] at hkeeps
    have hnext := ih (hb.call call hkeeps.1) (awaits_call hb.policy h call hkeeps.1) hkeeps.2
    rw [List.countP_cons, Nat.add_comm (calls.countP _), ← Nat.add_assoc]
    exact hnext

theorem bounded_start (hn : 1 ≤ n) :
    Bounded n (c.set_flush_policy (.BatchSize n)) (c.set_flush_policy (.BatchSize n)) where
  policy := rfl
  later := List.suffix_refl _
  counted := by
    unfold unsynced_since
    omega
  below := hn

/-- Under `BatchSize(n)` fewer than `n` of the writes are not on the disk, after every
call, and all that was written by a call is there once `n` more calls have written. -/
theorem batch_size_bounds_unsynced (c : Journal) (n : Nat) (hn : 1 ≤ n) (calls : List Call)
    (hkeeps : ∀ call ∈ calls, call.KeepsPolicy) :
    unsynced_since (c.set_flush_policy (.BatchSize n))
        ((c.set_flush_policy (.BatchSize n)).run calls) < n ∧
      ∀ before call after, calls = before ++ call :: after → n ≤ after.countP Call.writes →
        ((c.set_flush_policy (.BatchSize n)).run (before ++ [call])).writes <:+
          ((c.set_flush_policy (.BatchSize n)).run calls).persisted := by
  have hall := (bounded_start (c := c) hn).run calls hkeeps
  refine ⟨Nat.lt_of_le_of_lt hall.counted hall.below, ?_⟩
  rintro before call after rfl hafter
  have hsplit : before ++ call :: after = (before ++ [call]) ++ after := by
    rw [List.append_assoc, List.singleton_append]
  rw [hsplit] at hkeeps hall ⊢
  rw [List.forall_mem_append] at hkeeps
  have hsome := (bounded_start (c := c) hn).run (before ++ [call]) hkeeps.1
  have hawaits := awaits_run (k := 0) after hsome (.inr ⟨List.suffix_refl _, Nat.zero_le _⟩) hkeeps.2
  have hbelow := hall.below
  rw [run_append (before ++ [call])] at hbelow ⊢
  rcases hawaits with hdisk | ⟨_, hcalls⟩
  · exact hdisk
  · omega

/-- Two writes of a batch of two. -/
theorem batch_size_bounds_unsynced_two :
    unsynced_since ((⟨0, [], 0, .Immediate, 0⟩ : Journal).set_flush_policy (.BatchSize 2))
        (((⟨0, [], 0, .Immediate, 0⟩ : Journal).set_flush_policy (.BatchSize 2)).run
          [.put_seed [] [] 0 7, .put_seed [] [] 1 8, .put_seed [] [] 2 9]) < 2 :=
  (batch_size_bounds_unsynced ⟨0, [], 0, .Immediate, 0⟩ 2 (by decide)
    [.put_seed [] [] 0 7, .put_seed [] [] 1 8, .put_seed [] [] 2 9]
    (by simp [Call.KeepsPolicy])).1

end Journal

end sai3_bench.metadata_cache
