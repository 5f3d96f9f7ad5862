-- Values as a text carries them, and codecs: how a type is written as a value
-- and read back. Which of its values come back is a proposition of the codec.
import Mathlib.Algebra.GroupWithZero.Nat
import Mathlib.Algebra.Group.Int.Defs
import Mathlib.Data.List.AList
import Mathlib.Logic.Equiv.Defs

namespace serde

/-! ## Values -/

/-- A finite float has a sign, an exponent (from 0 on) and the rest of its bits. -/
inductive F64
  | nan
  | infinite (negative : Bool)
  | finite (negative : Bool) (exponent : Fin 2047) (mantissa : Fin (2 ^ 52))
deriving DecidableEq, Repr

instance exponents_pos : NeZero 2047 := ⟨by decide⟩

instance mantissas_pos : NeZero (2 ^ 52) := ⟨by simp⟩

/-- The float next to an integer, the even one of two. -/
def F64.ofInt (i : Int) : F64 :=
  let m := i.natAbs
  if m = 0 then .finite false 0 0
  else if m.log2 ≤ 52 then
    .finite (i < 0) (Fin.ofNat _ (m.log2 + 1023)) (Fin.ofNat _ (m * 2 ^ (52 - m.log2)))
  else
    let shift := m.log2 - 52
    let below := m / 2 ^ shift
    let rest := 2 * (m % 2 ^ shift)
    let q := if 2 ^ shift < rest ∨ 2 ^ shift = rest ∧ below % 2 = 1 then below + 1 else below
    -- a carry into the next power of two leaves the bits at zero
    .finite (i < 0) (Fin.ofNat _ (m.log2 + 1023 + q / 2 ^ 53)) (Fin.ofNat _ q)

example : F64.ofInt 5 = .finite false 1025 (2 ^ 50) := by decide

inductive Value
  | null
  | bool (b : Bool)
  | int (i : Int)
  | float (x : F64)
  | str (s : String)
  | seq (items : List Value)
  | map (entries : List (String × Value))

def Value.kind : Value → String
  | .null => "unit value"
  | .bool _ => "boolean"
  | .int _ => "integer"
  | .float _ => "floating point"
  | .str _ => "string"
  | .seq _ => "sequence"
  | .map _ => "map"

def invalid_type (v : Value) (expected : String) : String :=
  "invalid type: " ++ v.kind ++ ", expected " ++ expected

theorem bind_ok {ε α β : Type} {x : Except ε α} {f : α → Except ε β} {b : β} :
    x >>= f = .ok b ↔ ∃ a, x = .ok a ∧ f a = .ok b := by
  cases x with
  | error e =>
    constructor
    · intro h
      cases h
    · rintro ⟨a, h, _⟩
      cases h
  | ok a =>
    constructor
    · exact fun h => ⟨a, rfl, h⟩
    · rintro ⟨a', h, hf⟩
      cases h
      exact hf

theorem mapM_cons_ok {ε α β : Type} {f : α → Except ε β} {a : α} {as : List α} {bs : List β} :
    (a :: as).mapM f = .ok bs ↔ ∃ b rest, f a = .ok b ∧ as.mapM f = .ok rest ∧ bs = b :: rest := by
  rw [List.mapM_cons, bind_ok]
  constructor
  · rintro ⟨b, hb, h⟩
    obtain ⟨rest, hrest, hbs⟩ := bind_ok.mp h
    cases hbs
    exact ⟨b, rest, hb, hrest, rfl⟩
  · rintro ⟨b, rest, hb, hrest, rfl⟩
    exact ⟨b, hb, bind_ok.mpr ⟨rest, hrest, rfl⟩⟩

theorem mem_mapM_ok {ε α β : Type} {f : α → Except ε β} {as : List α} {bs : List β}
    (h : as.mapM f = .ok bs) {b : β} : b ∈ bs ↔ ∃ a ∈ as, f a = .ok b := by
  induction as generalizing bs with
  | nil =>
    cases h
    simp
  | cons a as ih =>
    obtain ⟨first, rest, hfirst, hrest, rfl⟩ := mapM_cons_ok.mp h
    rw [List.mem_cons, ih hrest, List.exists_mem_cons_iff, hfirst, Except.ok.injEq, eq_comm]

theorem map_ok {ε α β : Type} {x : Except ε α} {f : α → β} {b : β} :
    f <$> x = .ok b ↔ ∃ a, x = .ok a ∧ f a = b := by
  cases x with
  | error e =>
    constructor
    · intro h
      cases h
    · rintro ⟨a, h, _⟩
      cases h
  | ok a =>
    constructor
    · exact fun h => ⟨a, rfl, Except.ok.inj h⟩
    · rintro ⟨a', h, hf⟩
      cases h
      exact congrArg Except.ok hf

/-! ## Codecs -/

structure Codec (α : Type) where
  serialize : α → Value
  deserialize : Value → Except String α

namespace Codec

variable {α : Type} {c : Codec α}

/-- A value comes back from what it is written as. -/
def Keeps (c : Codec α) (a : α) : Prop := c.deserialize (c.serialize a) = .ok a

/-- Some value is read back, it may be another one. -/
def Reads (c : Codec α) (a : α) : Prop := ∃ b, c.deserialize (c.serialize a) = .ok b

theorem reads_of_keeps {a : α} (h : c.Keeps a) : c.Reads a := ⟨a, h⟩

/-- No value is written as null. -/
def Solid (c : Codec α) : Prop := ∀ a, c.serialize a ≠ .null

def bool : Codec Bool where
  serialize := .bool
  deserialize
    | .bool b => .ok b
    | v => .error (invalid_type v "a boolean")

def string : Codec String where
  serialize := .str
  deserialize
    | .str s => .ok s
    | v => .error (invalid_type v "a string")

/-- Unsigned integers of a width. -/
def unsigned (w : Nat) : Codec (BitVec w) where
  serialize n := .int n.toNat
  deserialize
    | .int i =>
      if 0 ≤ i ∧ i < 2 ^ w then .ok (BitVec.ofNat w i.toNat)
      else .error "invalid value: integer out of range"
    | v => .error (invalid_type v "an unsigned integer")

/-- Floats. `carried` says as what value the reader of a text meets one. -/
def float (carried : F64 → Value) : Codec F64 where
  serialize := carried
  deserialize
    | .float x => .ok x
    | .int i => .ok (F64.ofInt i)
    | v => .error (invalid_type v "a float")

/-- The value of an enumeration without data is the name of its variant. -/
def unit (all : List α) (name : α → String) : Codec α where
  serialize a := .str (name a)
  deserialize
    | .str s =>
      match all.find? (name · == s) with
      | some a => .ok a
      | none => .error ("unknown variant " ++ s)
    | v => .error (invalid_type v "variant identifier")

def option (c : Codec α) : Codec (Option α) where
  serialize
    | none => .null
    | some a => c.serialize a
  deserialize
    | .null => .ok none
    | v => some <$> c.deserialize v

def vec (c : Codec α) : Codec (List α) where
  serialize l := .seq (l.map c.serialize)
  deserialize
    | .seq items => items.mapM c.deserialize
    | v => .error (invalid_type v "a sequence")

/-- A table of the entries; the last one of a key counts. -/
def tableOf (l : List (String × α)) : AList fun _ : String => α :=
  l.foldr (fun e t => if e.1 ∈ t then t else t.insert e.1 e.2) ∅

def table (c : Codec α) : Codec (AList fun _ : String => α) where
  serialize t := .map (t.entries.map fun e => (e.1, c.serialize e.2))
  deserialize
    | .map entries =>
      tableOf <$> entries.mapM fun e => (fun a => (e.1, a)) <$> c.deserialize e.2
    | v => .error (invalid_type v "a map")

@[simp] theorem string_solid : string.Solid := fun _ h => by cases h

@[simp] theorem bool_solid : bool.Solid := fun _ h => by cases h

@[simp] theorem unsigned_solid {w : Nat} : (unsigned w).Solid := fun _ h => by cases h

@[simp] theorem unit_solid {all : List α} {name : α → String} : (unit all name).Solid :=
  fun _ h => by cases h

@[simp] theorem bool_keeps (b : Bool) : bool.Keeps b := rfl

@[simp] theorem string_keeps (s : String) : string.Keeps s := rfl

@[simp] theorem unsigned_keeps {w : Nat} (n : BitVec w) : (unsigned w).Keeps n := by
  have hfits : (n.toNat : Int) < 2 ^ w := by exact_mod_cast n.isLt
  unfold Keeps unsigned
  dsimp only
  rw [if_pos ⟨Int.natCast_nonneg _, hfits⟩, Int.toNat_natCast, BitVec.ofNat_toNat,
    BitVec.setWidth_eq]

theorem unit_keeps {all : List α} {name : α → String} {a : α}
    (h : all.find? (name · == name a) = some a) : (unit all name).Keeps a := by
  unfold Keeps unit
  dsimp only
  rw [h]

@[simp] theorem option_keeps_none : c.option.Keeps none := rfl

theorem option_read_some {a : α} (h : c.Solid) :
    c.option.deserialize (c.serialize a) = some <$> c.deserialize (c.serialize a) := by
  unfold option
  dsimp only
  split
  · rename_i hnull
    exact absurd hnull (h a)
  · rfl

theorem option_keeps_some {a : α} (h : c.Solid) : c.option.Keeps (some a) ↔ c.Keeps a := by
  have hread := option_read_some (a := a) h
  have hkeeps : c.option.Keeps (some a) ↔ some <$> c.deserialize (c.serialize a) = .ok (some a) :=
    Iff.of_eq (congrArg (· = Except.ok (some a)) hread)
  rw [hkeeps, map_ok]
  constructor
  · rintro ⟨a', hread', hsome⟩
    cases hsome
    exact hread'
  · exact fun hread' => ⟨a, hread', rfl⟩

theorem option_keeps (h : c.Solid) {o : Option α} : c.option.Keeps o ↔ ∀ a ∈ o, c.Keeps a := by
  cases o with
  | none => simp
  | some a =>
    rw [option_keeps_some h]
    simp

theorem option_reads (h : c.Solid) {o : Option α} : c.option.Reads o ↔ ∀ a ∈ o, c.Reads a := by
  cases o with
  | none => exact iff_of_true (reads_of_keeps option_keeps_none) nofun
  | some a =>
    simp only [Option.mem_def, Option.some.injEq, forall_eq']
    constructor
    · rintro ⟨b, hb⟩
      obtain ⟨a', ha', _⟩ := map_ok.mp ((option_read_some h).symm.trans hb)
      exact ⟨a', ha'⟩
    · rintro ⟨a', ha'⟩
      exact ⟨some a', (option_read_some h).trans (map_ok.mpr ⟨a', ha', rfl⟩)⟩

theorem vec_keeps {l : List α} : c.vec.Keeps l ↔ ∀ a ∈ l, c.Keeps a := by
  show (l.map c.serialize).mapM c.deserialize = .ok l ↔ _
  induction l with
  | nil => simp [pure, Except.pure]
  | cons a l ih =>
    rw [List.map_cons, mapM_cons_ok, List.forall_mem_cons, ← ih]
    constructor
    · rintro ⟨a', l', ha, hl, hcons⟩
      cases hcons
      exact ⟨ha, hl⟩
    · rintro ⟨ha, hl⟩
      exact ⟨a, l, ha, hl, rfl⟩

theorem tableOf_entries (t : AList fun _ : String => α) :
    tableOf (t.entries.map fun e => (e.1, e.2)) = t := by
  obtain ⟨l, hl⟩ := t
  induction l with
  | nil => rfl
  | cons e l ih =>
    have hnodup := List.nodupKeys_cons.mp hl
    have htail := ih hnodup.2
    unfold tableOf at htail ⊢
    rw [List.map_cons, List.foldr_cons, htail]
    have hfresh : e.1 ∉ (⟨l, hnodup.2⟩ : AList fun _ : String => α) := hnodup.1
    rw [if_neg hfresh, AList.insert_of_notMem hfresh]

theorem table_keeps {t : AList fun _ : String => α} (h : ∀ a, c.Keeps a) : c.table.Keeps t := by
  have hread : ∀ l : List (Sigma fun _ : String => α),
      (l.map fun e => (e.1, c.serialize e.2)).mapM
        (fun e => (fun a => (e.1, a)) <$> c.deserialize e.2) =
      .ok (l.map fun e => (e.1, e.2)) := by
    intro l
    induction l with
    | nil => rfl
    | cons e l ih =>
      rw [List.map_cons, List.mapM_cons, bind_ok]
      exact ⟨(e.1, e.2), map_ok.mpr ⟨e.2, h e.2, rfl⟩, bind_ok.mpr ⟨_, ih, rfl⟩⟩
  show tableOf <$> (t.entries.map fun e => (e.1, c.serialize e.2)).mapM
    (fun e => (fun a => (e.1, a)) <$> c.deserialize e.2) = .ok t
  rw [hread, map_ok]
  exact ⟨_, rfl, tableOf_entries t⟩

end Codec

/-! ## Structures -/

/-- One field: its name and the other names it may have, its value when it is
missing, and when it is not written. -/
structure Field (α : Type) where
  name : String
  aliases : List String := []
  codec : Codec α
  absent : Option α := none
  omitted : α → Bool := fun _ => false

namespace Field

variable {α : Type} {f : Field α} {c : Codec α} {name : String} {a : α}

def required (name : String) (codec : Codec α) : Field α := { name := name, codec := codec }

def defaulted (name : String) (codec : Codec α) (absent : α) : Field α :=
  { name := name, codec := codec, absent := some absent }

/-- A field that may be missing or null. -/
def optional (name : String) (codec : Codec α) : Field (Option α) :=
  { name := name, codec := codec.option, absent := some none }

def names (f : Field α) : List String := f.name :: f.aliases

def write (f : Field α) (a : α) : List (String × Value) :=
  if f.omitted a then [] else [(f.name, f.codec.serialize a)]

def read (f : Field α) : List (String × Value) → Except String α
  | [] =>
    match f.absent with
    | some a => .ok a
    | none => .error ("missing field " ++ f.name)
  | [(_, v)] => f.codec.deserialize v
  | _ => .error ("duplicate field " ++ f.name)

def Keeps (f : Field α) (a : α) : Prop := f.read (f.write a) = .ok a

def Reads (f : Field α) (a : α) : Prop := ∃ b, f.read (f.write a) = .ok b

theorem reads_of_keeps (h : f.Keeps a) : f.Reads a := ⟨a, h⟩

theorem write_names {e : String × Value} (h : e ∈ f.write a) : e.1 ∈ f.names := by
  unfold write at h
  split at h
  · cases h
  · rw [List.mem_singleton.mp h]
    exact List.mem_cons_self

theorem keeps_of_omitted (h : f.omitted a = true) : f.Keeps a ↔ f.absent = some a := by
  unfold Keeps write
  rw [if_pos h]
  unfold read
  cases f.absent with
  | none => simp
  | some a' => simp

theorem keeps_of_written (h : f.omitted a = false) : f.Keeps a ↔ f.codec.Keeps a := by
  unfold Keeps write
  rw [if_neg (Bool.not_eq_true _ ▸ h)]
  exact Iff.rfl

theorem required_keeps : (required name c).Keeps a ↔ c.Keeps a := keeps_of_written rfl

theorem defaulted_keeps {absent : α} : (defaulted name c absent).Keeps a ↔ c.Keeps a :=
  keeps_of_written rfl

theorem optional_keeps {o : Option α} (h : c.Solid) :
    (optional name c).Keeps o ↔ ∀ a ∈ o, c.Keeps a :=
  (keeps_of_written rfl).trans (Codec.option_keeps h)

theorem reads_of_written (h : f.omitted a = false) : f.Reads a ↔ f.codec.Reads a := by
  unfold Reads write
  rw [if_neg (Bool.not_eq_true _ ▸ h)]
  exact Iff.rfl

theorem required_reads : (required name c).Reads a ↔ c.Reads a := reads_of_written rfl

theorem defaulted_reads {absent : α} : (defaulted name c absent).Reads a ↔ c.Reads a :=
  reads_of_written rfl

theorem optional_reads {o : Option α} (h : c.Solid) :
    (optional name c).Reads o ↔ ∀ a ∈ o, c.Reads a :=
  (reads_of_written rfl).trans (Codec.option_reads h)

end Field

/-- The fields of a type: those it may write, and how it reads them back. -/
structure Entries (α : Type) where
  names : List String
  write : α → List (String × Value)
  read : List (String × Value) → Except String α
  write_names : ∀ a, ∀ e ∈ write a, e.1 ∈ names

namespace Entries

variable {α β σ τ : Type}

def Keeps (e : Entries α) (a : α) : Prop := e.read (e.write a) = .ok a

def Reads (e : Entries α) (a : α) : Prop := ∃ b, e.read (e.write a) = .ok b

def nil : Entries Unit where
  names := []
  write _ := []
  read _ := .ok ()
  write_names _ _ h := by cases h

/-- A field before the others, which have other names. -/
def field (f : Field β) (rest : Entries τ)
    (_fresh : ∀ name ∈ rest.names, name ∉ f.names := by exact of_decide_eq_true rfl) :
    Entries (β × τ) where
  names := f.names ++ rest.names
  write a := f.write a.1 ++ rest.write a.2
  read entries := do
    let b ← f.read (entries.filter (·.1 ∈ f.names))
    let t ← rest.read (entries.filter (·.1 ∉ f.names))
    return (b, t)
  write_names a e h := by
    rcases List.mem_append.mp h with h | h
    · exact List.mem_append_left _ (Field.write_names h)
    · exact List.mem_append_right _ (rest.write_names _ e h)

/-- A field that is neither written nor read. -/
def skip (b : β) (rest : Entries τ) : Entries (β × τ) where
  names := rest.names
  write a := rest.write a.2
  read entries := (fun t => (b, t)) <$> rest.read entries
  write_names a := rest.write_names a.2

/-- An enumeration with the name of the variant under a tag, beside its fields. -/
def tagged (tag : String) (names : List String) (variant : α → String)
    (write : α → List (String × Value))
    (read : String → List (String × Value) → Except String α)
    (write_names : ∀ a, ∀ e ∈ write a, e.1 ∈ names) : Entries α where
  names := tag :: names
  write a := (tag, .str (variant a)) :: write a
  read entries := do
    let name ← ({ name := tag, codec := .string } : Field String).read
      (entries.filter (·.1 = tag))
    read name (entries.filter (·.1 ≠ tag))
  write_names a e h := by
    rcases List.mem_cons.mp h with rfl | h
    · exact List.mem_cons_self
    · exact List.mem_cons_of_mem _ (write_names a e h)

/-- The fields of a type that has just these. -/
def via (e : Entries τ) (parts : σ ≃ τ) : Entries σ where
  names := e.names
  write s := e.write (parts s)
  read entries := parts.symm <$> e.read entries
  write_names s := e.write_names (parts s)

@[simp] theorem nil_keeps (u : Unit) : nil.Keeps u := rfl

/-- Each field reads back just what it wrote. -/
theorem field_read_write {f : Field β} {rest : Entries τ} {fresh} (a : β × τ) :
    (field f rest fresh).read ((field f rest fresh).write a) = (do
      let b ← f.read (f.write a.1)
      let t ← rest.read (rest.write a.2)
      return (b, t)) := by
  have hown : (f.write a.1 ++ rest.write a.2).filter (·.1 ∈ f.names) = f.write a.1 := by
    rw [List.filter_append, List.filter_eq_self.mpr, List.filter_eq_nil_iff.mpr, List.append_nil]
    · intro e he
      simpa using fresh e.1 (rest.write_names _ e he)
    · intro e he
      simpa using Field.write_names he
  have hrest : (f.write a.1 ++ rest.write a.2).filter (·.1 ∉ f.names) = rest.write a.2 := by
    rw [List.filter_append, List.filter_eq_nil_iff.mpr, List.filter_eq_self.mpr, List.nil_append]
    · intro e he
      simpa using fresh e.1 (rest.write_names _ e he)
    · intro e he
      simpa using Field.write_names he
  unfold field
  dsimp only
  rw [hown, hrest]

theorem field_trip {f : Field β} {rest : Entries τ} {fresh} {a b : β × τ}
    (h : (field f rest fresh).read ((field f rest fresh).write a) = .ok b) :
    f.read (f.write a.1) = .ok b.1 ∧ rest.read (rest.write a.2) = .ok b.2 := by
  rw [field_read_write] at h
  obtain ⟨b', hb, h⟩ := bind_ok.mp h
  obtain ⟨t, ht, hpair⟩ := bind_ok.mp h
  cases hpair
  exact ⟨hb, ht⟩

theorem field_keeps {f : Field β} {rest : Entries τ} {fresh} {a : β × τ} :
    (field f rest fresh).Keeps a ↔ f.Keeps a.1 ∧ rest.Keeps a.2 := by
  constructor
  · exact field_trip
  · rintro ⟨hb, ht⟩
    unfold Keeps
    rw [field_read_write]
    exact bind_ok.mpr ⟨a.1, hb, bind_ok.mpr ⟨a.2, ht, rfl⟩⟩

theorem skip_keeps {b : β} {rest : Entries τ} {a : β × τ} :
    (skip b rest).Keeps a ↔ a.1 = b ∧ rest.Keeps a.2 := by
  unfold Keeps skip
  dsimp only
  rw [map_ok]
  constructor
  · rintro ⟨t, ht, hpair⟩
    rw [← hpair]
    rw [← hpair] at ht
    exact ⟨rfl, ht⟩
  · rintro ⟨hb, ht⟩
    exact ⟨a.2, ht, by rw [← hb]⟩

@[simp] theorem nil_reads (u : Unit) : nil.Reads u := ⟨u, rfl⟩

theorem field_reads {f : Field β} {rest : Entries τ} {fresh} {a : β × τ} :
    (field f rest fresh).Reads a ↔ f.Reads a.1 ∧ rest.Reads a.2 := by
  constructor
  · rintro ⟨b, h⟩
    exact ⟨⟨_, (field_trip h).1⟩, ⟨_, (field_trip h).2⟩⟩
  · rintro ⟨⟨b, hb⟩, ⟨t, ht⟩⟩
    refine ⟨(b, t), ?_⟩
    rw [field_read_write]
    exact bind_ok.mpr ⟨b, hb, bind_ok.mpr ⟨t, ht, rfl⟩⟩

theorem skip_reads {b : β} {rest : Entries τ} {a : β × τ} :
    (skip b rest).Reads a ↔ rest.Reads a.2 := by
  constructor
  · rintro ⟨p, h⟩
    obtain ⟨t, ht, _⟩ := map_ok.mp h
    exact ⟨t, ht⟩
  · rintro ⟨t, ht⟩
    exact ⟨(b, t), map_ok.mpr ⟨t, ht, rfl⟩⟩

/-- What a field leaves to the others. -/
theorem field_read {f : Field β} {rest : Entries τ} {fresh} {entries : List (String × Value)}
    {a : β × τ} (h : (field f rest fresh).read entries = .ok a) :
    ∃ left, rest.read left = .ok a.2 := by
  obtain ⟨b, _, h⟩ := bind_ok.mp h
  obtain ⟨t, ht, hpair⟩ := bind_ok.mp h
  cases hpair
  exact ⟨_, ht⟩

theorem skip_read {b : β} {rest : Entries τ} {entries : List (String × Value)} {a : β × τ}
    (h : (skip b rest).read entries = .ok a) : a.1 = b := by
  obtain ⟨t, _, hpair⟩ := map_ok.mp h
  exact (congrArg Prod.fst hpair).symm

theorem via_keeps {e : Entries τ} {parts : σ ≃ τ} {s : σ} :
    (e.via parts).Keeps s ↔ e.Keeps (parts s) := by
  unfold Keeps via
  dsimp only
  rw [map_ok]
  constructor
  · rintro ⟨t, ht, hs⟩
    rw [ht, ← hs, Equiv.apply_symm_apply]
  · exact fun h => ⟨_, h, parts.symm_apply_apply s⟩

theorem via_reads {e : Entries τ} {parts : σ ≃ τ} {s : σ} :
    (e.via parts).Reads s ↔ e.Reads (parts s) := by
  constructor
  · rintro ⟨s', h⟩
    obtain ⟨t, ht, _⟩ := map_ok.mp h
    exact ⟨t, ht⟩
  · rintro ⟨t, ht⟩
    exact ⟨parts.symm t, map_ok.mpr ⟨t, ht, rfl⟩⟩

theorem tagged_keeps {tag : String} {names : List String} {variant : α → String}
    {write : α → List (String × Value)} {read : String → List (String × Value) → Except String α}
    {write_names : ∀ a, ∀ e ∈ write a, e.1 ∈ names} (h : tag ∉ names) {a : α} :
    (tagged tag names variant write read write_names).Keeps a ↔
      read (variant a) (write a) = .ok a := by
  have hne : ∀ e ∈ write a, e.1 ≠ tag := fun e he htag => h (htag ▸ write_names a e he)
  have hown : (write a).filter (·.1 = tag) = [] := by
    rw [List.filter_eq_nil_iff]
    intro e he
    simpa using hne e he
  have hrest : (write a).filter (·.1 ≠ tag) = write a := by
    rw [List.filter_eq_self]
    intro e he
    simpa using hne e he
  unfold Keeps tagged
  dsimp only
  rw [List.filter_cons_of_pos (by simp), List.filter_cons_of_neg (by simp), hown, hrest]
  exact Iff.rfl

end Entries

namespace Codec

variable {α : Type}

/-- A structure is a map of its fields. -/
def struct (e : Entries α) : Codec α where
  serialize a := .map (e.write a)
  deserialize
    | .map entries => e.read entries
    | v => .error (invalid_type v "a map")

@[simp] theorem struct_solid {e : Entries α} : (struct e).Solid := fun _ h => by cases h

theorem struct_keeps {e : Entries α} {a : α} : (struct e).Keeps a ↔ e.Keeps a := Iff.rfl

theorem struct_reads {e : Entries α} {a : α} : (struct e).Reads a ↔ e.Reads a := Iff.rfl

end Codec

end serde
