-- Single entries of a map that is read as a structure: what the ones in order are read as,
-- what a further one changes, and what is read of one.
import Sai3Bench.Serde

namespace serde

namespace Entries

variable {α β σ τ : Type}

/-! ## Entries in the order of the fields -/

section Order

variable {name : String} {v : Value} {f : Field β} {rest : Entries τ} {fresh : _}
  {entries : List (String × Value)} {b : β} {t : τ}

theorem filter_ne (h : name ∉ entries.map Prod.fst) : entries.filter (·.1 ≠ name) = entries := by
  apply List.filter_eq_self.mpr
  intro e he
  rw [decide_eq_true_eq]
  rintro rfl
  exact h (List.mem_map_of_mem he)

theorem filter_eq (h : name ∉ entries.map Prod.fst) : entries.filter (·.1 = name) = [] := by
  apply List.filter_eq_nil_iff.mpr
  intro e he heq
  rw [decide_eq_true_eq] at heq
  exact h (heq ▸ List.mem_map_of_mem he)

/-- The first entry is that of the first field. -/
theorem read_cons (hname : f.names = [name]) (hv : f.codec.deserialize v = .ok b)
    (hfresh : name ∉ entries.map Prod.fst) (h : rest.read entries = .ok t) :
    (field f rest fresh).read ((name, v) :: entries) = .ok (b, t) := by
  have hown : ((name, v) :: entries).filter (·.1 ∈ f.names) = [(name, v)] := by
    simp only [hname, List.mem_singleton]
    rw [List.filter_cons_of_pos (by simp), filter_eq hfresh]
  have hothers : ((name, v) :: entries).filter (·.1 ∉ f.names) = entries := by
    simp only [hname, List.mem_singleton]
    rw [List.filter_cons_of_neg (by simp), filter_ne hfresh]
  refine bind_ok.mpr ⟨b, ?_, bind_ok.mpr ⟨t, ?_, rfl⟩⟩
  · rw [hown]
    exact hv
  · rw [hothers]
    exact h

/-- The first field has no entry. -/
theorem read_absent (hname : f.names = [name]) (habsent : f.absent = some b)
    (hfresh : name ∉ entries.map Prod.fst) (h : rest.read entries = .ok t) :
    (field f rest fresh).read entries = .ok (b, t) := by
  have hown : entries.filter (·.1 ∈ f.names) = [] := by
    simp only [hname, List.mem_singleton]
    exact filter_eq hfresh
  have hothers : entries.filter (·.1 ∉ f.names) = entries := by
    simp only [hname, List.mem_singleton]
    exact filter_ne hfresh
  refine bind_ok.mpr ⟨b, ?_, bind_ok.mpr ⟨t, ?_, rfl⟩⟩
  · rw [hown]
    unfold Field.read
    rw [habsent]
  · rw [hothers]
    exact h

theorem read_tagged {tag kind : String} {names : List String} {variant : α → String}
    {write : α → List (String × Value)} {read : String → List (String × Value) → Except String α}
    {write_names : ∀ a, ∀ e ∈ write a, e.1 ∈ names} (hfresh : tag ∉ entries.map Prod.fst) :
    (tagged tag names variant write read write_names).read ((tag, .str kind) :: entries) =
      read kind entries := by
  unfold tagged
  dsimp only
  rw [List.filter_cons_of_pos (by simp), List.filter_cons_of_neg (by simp), filter_eq hfresh,
    filter_ne hfresh]
  rfl

end Order
/-! ## One entry more -/

/-- The entries are the same but for those of one name, of which there is one with this value. -/
structure Puts (name : String) (v : Value) (entries entries' : List (String × Value)) : Prop where
  others : entries.filter (·.1 ≠ name) = entries'.filter (·.1 ≠ name)
  own : entries'.filter (·.1 = name) = [(name, v)]

theorem puts_last {name : String} {v : Value} {entries : List (String × Value)}
    (h : name ∉ entries.map Prod.fst) : Puts name v entries (entries ++ [(name, v)]) := by
  constructor
  · simp [List.filter_append]
  · rw [List.filter_append, filter_eq h]
    simp

theorem filter_middle {name : String} {v : Value} {a c : List (String × Value)}
    (h : ((a ++ (name, v) :: c).map Prod.fst).Nodup) :
    (a ++ (name, v) :: c).filter (·.1 = name) = [(name, v)] := by
  rw [List.map_append, List.map_cons, List.nodup_middle, List.nodup_cons, List.mem_append,
    not_or] at h
  rw [List.filter_append, List.filter_cons_of_pos (by simp), filter_eq h.1.1, filter_eq h.1.2]
  rfl

theorem puts_middle {name : String} {v v' : Value} {a c : List (String × Value)}
    (h : ((a ++ (name, v) :: c).map Prod.fst).Nodup) :
    Puts name v' (a ++ (name, v) :: c) (a ++ (name, v') :: c) := by
  constructor
  · rw [List.filter_append, List.filter_append, List.filter_cons_of_neg (by simp),
      List.filter_cons_of_neg (by simp)]
  · apply filter_middle
    simpa using h

/-- A further entry of a name has this effect on what is read. -/
def Takes (e : Entries α) (name : String) (v : Value) (effect : α → α) : Prop :=
  ∀ entries entries' a, Puts name v entries entries' → e.read entries = .ok a →
    e.read entries' = .ok (effect a)

section Takes

variable {name : String} {v : Value} {f : Field β} {rest : Entries τ} {fresh : _}

theorem takes_here {b' : β} (hname : f.names = [name]) (hv : f.codec.deserialize v = .ok b') :
    (field f rest fresh).Takes name v fun a => (b', a.2) := by
  intro entries entries' a hputs h
  obtain ⟨b, _, h⟩ := bind_ok.mp h
  obtain ⟨t, ht, hpair⟩ := bind_ok.mp h
  cases hpair
  have hown : entries'.filter (·.1 ∈ f.names) = [(name, v)] := by
    rw [← hputs.own]
    simp [hname]
  have hothers : entries.filter (·.1 ∉ f.names) = entries'.filter (·.1 ∉ f.names) := by
    have heq := hputs.others
    simpa [hname] using heq
  refine bind_ok.mpr ⟨b', ?_, bind_ok.mpr ⟨t, ?_, rfl⟩⟩
  · rw [hown]
    exact hv
  · rw [← hothers]
    exact ht

theorem takes_later {effect : τ → τ} (hname : name ∉ f.names) (hrest : rest.Takes name v effect) :
    (field f rest fresh).Takes name v fun a => (a.1, effect a.2) := by
  intro entries entries' a hputs h
  obtain ⟨b, hb, h⟩ := bind_ok.mp h
  obtain ⟨t, ht, hpair⟩ := bind_ok.mp h
  cases hpair
  have hown : entries.filter (·.1 ∈ f.names) = entries'.filter (·.1 ∈ f.names) := by
    have heq := congrArg (List.filter (·.1 ∈ f.names)) hputs.others
    rw [List.filter_filter, List.filter_filter] at heq
    have hne : ∀ e : String × Value, (decide (e.1 ∈ f.names) && decide (e.1 ≠ name)) =
        decide (e.1 ∈ f.names) := by
      intro e
      by_cases he : e.1 ∈ f.names
      · have : e.1 ≠ name := fun h => hname (h ▸ he)
        simp [he, this]
      · simp [he]
    simpa only [hne] using heq
  have hputs' : Puts name v (entries.filter (·.1 ∉ f.names)) (entries'.filter (·.1 ∉ f.names)) := by
    constructor
    · rw [List.filter_comm, hputs.others, List.filter_comm]
    · rw [List.filter_comm, hputs.own]
      simp [hname]
  refine bind_ok.mpr ⟨b, ?_, bind_ok.mpr ⟨effect t, hrest _ _ t hputs' ht, rfl⟩⟩
  rw [← hown]
  exact hb

theorem takes_via {e : Entries τ} {parts : σ ≃ τ} {effect : τ → τ} {effect' : σ → σ}
    (h : e.Takes name v effect) (heffect : ∀ s, parts (effect' s) = effect (parts s)) :
    (e.via parts).Takes name v effect' := by
  intro entries entries' s hputs hread
  obtain ⟨t, ht, rfl⟩ := map_ok.mp hread
  refine map_ok.mpr ⟨effect t, h _ _ t hputs ht, ?_⟩
  rw [Equiv.symm_apply_eq, heffect, Equiv.apply_symm_apply]

end Takes

/-- What is read holds this field of the entries. -/
def Shows (e : Entries α) (f : Field β) (part : α → β) : Prop :=
  ∀ entries a, e.read entries = .ok a → f.read (entries.filter (·.1 ∈ f.names)) = .ok (part a)

section Shows

variable {f : Field β} {rest : Entries τ} {fresh : _}

theorem shows_here : (field f rest fresh).Shows f Prod.fst := by
  intro entries a h
  obtain ⟨b, hb, h⟩ := bind_ok.mp h
  obtain ⟨t, _, hpair⟩ := bind_ok.mp h
  cases hpair
  exact hb

theorem shows_later {g : Field σ} {part : τ → β} {fresh : _}
    (hnames : ∀ name ∈ f.names, name ∉ g.names)
    (hrest : rest.Shows f part) : (field g rest fresh).Shows f fun a => part a.2 := by
  intro entries a h
  obtain ⟨_, _, h⟩ := bind_ok.mp h
  obtain ⟨t, ht, hpair⟩ := bind_ok.mp h
  cases hpair
  have hshown := hrest _ t ht
  rw [List.filter_filter] at hshown
  have hown : ∀ e : String × Value, (decide (e.1 ∈ f.names) && decide (e.1 ∉ g.names)) =
      decide (e.1 ∈ f.names) := by
    intro e
    by_cases he : e.1 ∈ f.names
    · simp [he, hnames e.1 he]
    · simp [he]
  simpa only [hown] using hshown

theorem shows_via {e : Entries τ} {parts : σ ≃ τ} {part : τ → β} {part' : σ → β}
    (h : e.Shows f part)
    (hpart : ∀ s, part' s = part (parts s)) : (e.via parts).Shows f part' := by
  intro entries s hread
  obtain ⟨t, ht, rfl⟩ := map_ok.mp hread
  rw [hpart, Equiv.apply_symm_apply]
  exact h _ _ ht

end Shows

end Entries

/-! ## Maps -/

namespace Codec

variable {α : Type} {c : Codec α}

/-- A further entry of a map has this effect on what is read. -/
def Takes (c : Codec α) (name : String) (v : Value) (effect : α → α) : Prop :=
  ∀ entries entries' a, Entries.Puts name v entries entries' →
    c.deserialize (.map entries) = .ok a →
    c.deserialize (.map entries') = .ok (effect a)

/-- What is read of a map holds this field. -/
def Shows {β : Type} (c : Codec α) (f : Field β) (part : α → β) : Prop :=
  ∀ entries a, c.deserialize (.map entries) = .ok a →
    f.read (entries.filter (·.1 ∈ f.names)) = .ok (part a)

theorem struct_takes {e : Entries α} {name : String} {v : Value} {effect : α → α}
    (h : e.Takes name v effect) : (struct e).Takes name v effect := h

theorem struct_shows {β : Type} {e : Entries α} {f : Field β} {part : α → β} (h : e.Shows f part) :
    (struct e).Shows f part := h

/-- The one entry of a field is what is read of it. -/
theorem shows_entry {β : Type} {f : Field β} {part : α → β} {name : String} (h : c.Shows f part)
    (hname : f.names = [name]) {a b : List (String × Value)} {v : Value}
    (hkeys : ((a ++ (name, v) :: b).map Prod.fst).Nodup) {x : α}
    (hread : c.deserialize (.map (a ++ (name, v) :: b)) = .ok x) :
      f.codec.deserialize v = .ok (part x) := by
  have hfield := h _ x hread
  simp only [hname, List.mem_singleton] at hfield
  rwa [Entries.filter_middle hkeys] at hfield

/-- A field without an entry has its value when it is missing. -/
theorem shows_absent {β : Type} {f : Field β} {part : α → β} {name : String} (h : c.Shows f part)
    (hname : f.names = [name]) {entries : List (String × Value)}
      (hfresh : name ∉ entries.map Prod.fst)
    {x : α} (hread : c.deserialize (.map entries) = .ok x) : f.absent = some (part x) := by
  have hfield := h _ x hread
  simp only [hname, List.mem_singleton] at hfield
  rw [Entries.filter_eq hfresh] at hfield
  unfold Field.read at hfield
  dsimp only at hfield
  cases habsent : f.absent with
  | none =>
    rw [habsent] at hfield
    cases hfield
  | some b =>
    rw [habsent] at hfield
    exact congrArg some (Except.ok.inj hfield)

end Codec

end serde
