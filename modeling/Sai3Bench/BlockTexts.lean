-- Texts in blocks: the lines of a text, the entries that start at a column, and what
-- is read of mappings and sequences of entries.
import Sai3Bench.Serde
import Sai3Bench.Texts
import Mathlib.Data.List.Nodup
import Mathlib.Data.List.TakeWhile

namespace blocks

open serde (Value)

abbrev Line := List Char

/-! ## Lines -/

def lines : List Char → List Line
  | [] => []
  | '\n' :: s => [] :: lines s
  | '\r' :: '\n' :: s => [] :: lines s
  | c :: s =>
    match lines s with
    | [] => [[c]]
    | l :: ls => (c :: l) :: ls

def unlines (ls : List Line) : List Char := ls.flatMap (· ++ ['\n'])

/-- A character of a line: no break and no control. -/
def printable (c : Char) : Bool :=
  let n := c.toNat
  n == 9 || (0x20 ≤ n && n ≤ 0x7E) ||
    (0xA0 ≤ n && !List.contains [0x2028, 0x2029, 0xFEFF, 0xFFFE, 0xFFFF] n)

def Printable (l : Line) : Prop := ∀ c ∈ l, printable c = true

instance (l : Line) : Decidable (Printable l) :=
  decidable_of_iff (l.all printable = true) List.all_eq_true

theorem lines_line {l : Line} (h : Printable l) (s : List Char) :
    lines (l ++ '\n' :: s) = l :: lines s := by
  induction l with
  | nil => simp [lines]
  | cons c l ih =>
    unfold Printable at h ih
    rw [List.forall_mem_cons] at h
    have hrest := ih h.2
    rw [List.cons_append, lines]
    · rw [hrest]
    · rintro rfl
      exact absurd h.1 (by decide)
    · rintro _ rfl _
      exact absurd h.1 (by decide)

theorem lines_unlines {ls : List Line} (h : ∀ l ∈ ls, Printable l) : lines (unlines ls) = ls := by
  induction ls with
  | nil => rfl
  | cons l ls ih =>
    rw [List.forall_mem_cons] at h
    unfold unlines at ih ⊢
    rw [List.flatMap_cons, List.append_assoc, List.singleton_append, lines_line h.1, ih h.2]

/-! ## Entries -/

/-- The spaces before the text of a line. -/
def column (l : Line) : Nat := (l.takeWhile fun c => decide (c = ' ')).length

/-- A blank line or a comment. -/
def neutral (l : Line) : Bool :=
  match l.dropWhile fun c => decide (c = ' ') with
  | [] => true
  | c :: _ => decide (c = '#')

structure Section where
  head : Line
  body : List Line

def Section.lines (s : Section) : List Line := s.head :: s.body

/-- The lines before the first start, and what begins with each start. -/
def sections (starts : Line → Bool) : List Line → List Line × List Section
  | [] => ([], [])
  | l :: ls =>
    let (opening, secs) := sections starts ls
    if starts l then ([], ⟨l, opening⟩ :: secs) else (l :: opening, secs)

variable {starts : Line → Bool} {l m : List Line}

/-- Only its first line starts. -/
structure Section.Of (starts : Line → Bool) (s : Section) : Prop where
  head : starts s.head = true
  body : ∀ x ∈ s.body, starts x = false

theorem flatten_sections (starts : Line → Bool) (l : List Line) :
    (sections starts l).1 ++ (sections starts l).2.flatMap Section.lines = l := by
  induction l with
  | nil => rfl
  | cons x l ih =>
    rw [sections]
    dsimp only
    split
    · rw [List.flatMap_cons, List.nil_append, Section.lines, List.cons_append, ih]
    · rw [List.cons_append, ih]

theorem sections_of (starts : Line → Bool) (l : List Line) :
    (∀ x ∈ (sections starts l).1, starts x = false) ∧ ∀ s ∈ (sections starts l).2, s.Of starts := by
  induction l with
  | nil => simp [sections]
  | cons x l ih =>
    rw [sections]
    dsimp only
    split
    · rename_i hx
      exact ⟨by simp, List.forall_mem_cons.mpr ⟨⟨hx, ih.1⟩, ih.2⟩⟩
    · rename_i hx
      exact ⟨List.forall_mem_cons.mpr ⟨by simpa using hx, ih.1⟩, ih.2⟩

/-- A text that begins with a start is made of sections. -/
theorem flatten_of_head (h : ∀ x ∈ l.head?, starts x = true) :
    (sections starts l).2.flatMap Section.lines = l := by
  have hopening : (sections starts l).1 = [] := by
    cases l with
    | nil => rfl
    | cons x l =>
      rw [sections]
      dsimp only
      rw [if_pos (h x rfl)]
  have hflat := flatten_sections starts l
  rwa [hopening, List.nil_append] at hflat

theorem sections_flat (h : ∀ x ∈ l, starts x = false) (m : List Line) :
    sections starts (l ++ m) = (l ++ (sections starts m).1, (sections starts m).2) := by
  induction l with
  | nil => rfl
  | cons x l ih =>
    rw [List.forall_mem_cons] at h
    rw [List.cons_append, sections, ih h.2, h.1]
    rfl

/-- A text made of sections falls into these. -/
theorem sections_flatten {opening : List Line} {secs : List Section}
    (hopening : ∀ x ∈ opening, starts x = false) (hsecs : ∀ s ∈ secs, s.Of starts) :
    sections starts (opening ++ secs.flatMap Section.lines) = (opening, secs) := by
  have hall : sections starts (secs.flatMap Section.lines) = ([], secs) := by
    induction secs with
    | nil => rfl
    | cons s secs ih =>
      rw [List.forall_mem_cons] at hsecs
      rw [List.flatMap_cons, Section.lines, List.cons_append, sections, sections_flat hsecs.1.body,
        ih hsecs.2, hsecs.1.head, List.append_nil]
      rfl
  rw [sections_flat hopening, hall, List.append_nil]

/-- Sections after a text are its last ones. -/
theorem sections_append {secs : List Section} (hsecs : ∀ s ∈ secs, s.Of starts) (l : List Line) :
    sections starts (l ++ secs.flatMap Section.lines) =
      ((sections starts l).1, (sections starts l).2 ++ secs) := by
  have hl := sections_of starts l
  have hboth : ∀ s ∈ (sections starts l).2 ++ secs, s.Of starts := by
    intro s hs
    exact (List.mem_append.mp hs).elim (hl.2 s) (hsecs s)
  have hflat := sections_flatten hl.1 hboth
  rwa [List.flatMap_append, ← List.append_assoc, flatten_sections] at hflat

/-- What does not start goes to the last section. -/
theorem sections_concat {last : Section} {secs : List Section} (hm : ∀ x ∈ m, starts x = false)
    (h : (sections starts l).2 = secs ++ [last]) :
    sections starts (l ++ m) = ((sections starts l).1, secs ++ [⟨last.head, last.body ++ m⟩]) := by
  have hl := sections_of starts l
  rw [h, List.forall_mem_append, List.forall_mem_singleton] at hl
  have hlast : (⟨last.head, last.body ++ m⟩ : Section).Of starts := by
    refine ⟨hl.2.2.head, fun x hx => ?_⟩
    exact (List.mem_append.mp hx).elim (hl.2.2.body x) (hm x)
  have hboth : ∀ s ∈ secs ++ [⟨last.head, last.body ++ m⟩], s.Of starts := by
    rw [List.forall_mem_append, List.forall_mem_singleton]
    exact ⟨hl.2.1, hlast⟩
  have hlines : (sections starts l).1 ++
      (secs ++ [(⟨last.head, last.body ++ m⟩ : Section)]).flatMap Section.lines = l ++ m := by
    nth_rewrite 2 [← flatten_sections starts l]
    rw [h]
    simp [Section.lines]
  rw [← hlines, sections_flatten hl.1 hboth]

/-! ## Mappings and sequences -/

/-- How an entry is read. -/
abbrev Reader := Section → Option (String × Value)

/-- Where an entry of a mapping at a column starts. A dash at this column goes on with the
sequence of the entry before. -/
def entryStart (k : Nat) (l : Line) : Bool :=
  !neutral l && decide (column l ≤ k) && !(decide (column l = k) && (l.drop k).head? == some '-')

def itemStart (k : Nat) (l : Line) : Bool := !neutral l && decide (column l ≤ k)

/-- What may stand before the first entry. -/
def opens (ls : List Line) : Bool :=
  match ls.filter (!neutral ·) with
  | [] => true
  | [l] => l == "---".toList
  | _ => false

/-- The entries of a mapping at a column, each with a key of its own. -/
def mapping (entry : Reader) (k : Nat) (ls : List Line) : Option (List (String × Value)) :=
  let (opening, secs) := sections (entryStart k) ls
  if opens opening && !secs.isEmpty && secs.all (fun s => decide (column s.head = k)) then
    (secs.mapM entry).filter fun es => decide (es.map Prod.fst).Nodup
  else none

/-- The entry behind the dash of an item. -/
def undash (k : Nat) (l : Line) : Line := l.take k ++ ' ' :: l.drop (k + 1)

/-- The items of a sequence at a column, each of them a mapping. -/
def items (entry : Reader) (k : Nat) (ls : List Line) : Option (List (List (String × Value))) :=
  let (opening, secs) := sections (itemStart k) ls
  if opening.all neutral && !secs.isEmpty &&
      secs.all (fun s => decide (column s.head = k) && "- ".toList.isPrefixOf (s.head.drop k)) then
    secs.mapM fun s => mapping entry (k + 2) (undash k s.head :: s.body)
  else none

/-- A character of a name. -/
def word (c : Char) : Bool := c.isAlphanum || c == '_'

/-- What is read of a scalar of one of these kinds: an empty sequence, a truth value, a number,
a name, a number with a unit. -/
def scalar (v : List Char) : Option Value :=
  if v = "[]".toList then some (.seq [])
  else if v = "true".toList then some (.bool true)
  else if v = "false".toList then some (.bool false)
  else match texts.parse_u64 v with
    | some n => if v = texts.padded 10 1 n then some (.int n) else none
    | none =>
      let name := v.head?.any Char.isLower && v != "null".toList
      let quantity := match v.dropWhile Char.isDigit with
        | [unit] => unit == 's' || unit == 'm' || unit == 'h'
        | _ => false
      if v.all word && (name || quantity) then some (.str (String.ofList v)) else none

/-- The key at a column, and what stands behind its colon. -/
def keyed (k : Nat) (l : Line) : Option (String × List Char) :=
  let key := (l.drop k).takeWhile word
  match scalar key, (l.drop k).drop key.length with
  | some (.str key), ':' :: rest =>
    if (l.take k).all (· == ' ') && (rest.isEmpty || rest.head? == some ' ') then some (key, rest)
    else none
  | _, _ => none

/-- An entry with a scalar on its line, and no more than comments after it. -/
def plain (k : Nat) : Reader := fun s =>
  match keyed k s.head with
  | some (key, ' ' :: rest) =>
    let value := rest.takeWhile (· != ' ')
    if neutral (rest.drop value.length) && s.body.all neutral then (scalar value).map ((key, ·))
    else none
  | _ => none

/-- The column of the text below a line. -/
def below (ls : List Line) : Option Nat := (ls.find? fun l => !neutral l).map column

/-- An entry with a block below it. What is no such block is read by `entry`. -/
def nested (block : List Line → Option Value) (k : Nat) (entry : Reader) : Reader := fun s =>
  match keyed k s.head, block s.body with
  | some (key, rest), some v => if neutral rest then some (key, v) else entry s
  | _, _ => entry s

def sequenceBelow (entry : Nat → Reader) (k : Nat) (ls : List Line) : Option Value :=
  match below ls with
  | some c =>
    if k ≤ c then (items (entry (c + 2)) c ls).map fun found => .seq (found.map .map) else none
  | none => none

def mappingBelow (entry : Nat → Reader) (k : Nat) (ls : List Line) : Option Value :=
  match below ls with
  | some c => if k < c then (mapping (entry c) c ls).map .map else none
  | none => none

/-- The entries of an entry of a document may have sequences of mappings below them. -/
def inner (entry : Nat → Reader) (k : Nat) : Reader := nested (sequenceBelow entry k) k (entry k)

/-- The entries of a document may have mappings below them. -/
def outer (entry : Nat → Reader) : Reader := nested (mappingBelow (inner entry) 0) 0 (entry 0)

def document (entry : Nat → Reader) (ls : List Line) : Option (List (String × Value)) :=
  mapping (outer entry) 0 ls

/-! ### Entries of a mapping -/

variable {entry : Reader} {k : Nat} {es : List (String × Value)}

theorem mapping_eq_some : mapping entry k l = some es ↔
    opens (sections (entryStart k) l).1 = true ∧ (sections (entryStart k) l).2 ≠ [] ∧
      (∀ s ∈ (sections (entryStart k) l).2, column s.head = k) ∧
        (sections (entryStart k) l).2.mapM entry = some es ∧ (es.map Prod.fst).Nodup := by
  unfold mapping
  dsimp only
  split
  · rename_i h
    simp only [Bool.and_eq_true, List.all_eq_true, Bool.not_eq_true', List.isEmpty_eq_false_iff,
      decide_eq_true_eq] at h
    rw [Option.filter_eq_some_iff, decide_eq_true_eq]
    exact ⟨fun hes => ⟨h.1.1, h.1.2, h.2, hes⟩, fun hes => hes.2.2.2⟩
  · rename_i h
    simp only [Bool.and_eq_true, List.all_eq_true, Bool.not_eq_true', List.isEmpty_eq_false_iff,
      decide_eq_true_eq] at h
    constructor
    · intro hes
      cases hes
    · exact fun hes => absurd ⟨⟨hes.1, hes.2.1⟩, hes.2.2.1⟩ h

theorem below_append {c : Nat} (h : below l = some c) (m : List Line) :
    below (l ++ m) = some c := by
  obtain ⟨x, hx, hcolumn⟩ := Option.map_eq_some_iff.mp h
  unfold below
  rw [List.find?_append, hx]
  exact congrArg some hcolumn

/-- No line of a mapping stands before its column. -/
theorem mapping_columns (h : mapping entry k l = some es) :
    ∀ x ∈ l, neutral x = true ∨ k ≤ column x := by
  obtain ⟨_, _, hcolumn, _, _⟩ := mapping_eq_some.mp h
  have hl := sections_of (entryStart k) l
  have hflat : ∀ x, entryStart k x = false → neutral x = true ∨ k ≤ column x := by
    intro x hx
    unfold entryStart at hx
    by_contra hnot
    rw [not_or, Bool.not_eq_true, Nat.not_le] at hnot
    rw [hnot.1, decide_eq_true (Nat.le_of_lt hnot.2), decide_eq_false (Nat.ne_of_lt hnot.2)] at hx
    cases hx
  intro x hx
  rw [← flatten_sections (entryStart k) l, List.mem_append, List.mem_flatMap] at hx
  rcases hx with hx | ⟨s, hs, hx⟩
  · exact hflat x (hl.1 x hx)
  · rcases List.mem_cons.mp hx with rfl | hx
    · exact .inr (hcolumn s hs).ge
    · exact hflat x ((hl.2 s hs).body x hx)

/-- One entry takes the place of another one of the same key. -/
theorem mapping_update {before : List Line} {after : List Section} {s t : Section} {key : String}
    {v v' : Value} (hs : s.Of (entryStart k)) (ht : t.Of (entryStart k)) (hhead : t.head = s.head)
    (hafter : ∀ x ∈ after, x.Of (entryStart k)) (hread : entry s = some (key, v))
    (hread' : entry t = some (key, v'))
    (h : mapping entry k (before ++ (s :: after).flatMap Section.lines) = some es) :
    ∃ a c, es = a ++ (key, v) :: c ∧
      mapping entry k (before ++ (t :: after).flatMap Section.lines) =
        some (a ++ (key, v') :: c) := by
  obtain ⟨hopening, _, hcolumn, hes, hnodup⟩ := mapping_eq_some.mp h
  rw [sections_append (List.forall_mem_cons.mpr ⟨hs, hafter⟩)] at hopening hcolumn hes
  rw [List.mapM_append, Option.bind_eq_bind, Option.bind_eq_some_iff] at hes
  obtain ⟨a, ha, hes⟩ := hes
  rw [List.mapM_cons, hread] at hes
  obtain ⟨c, hc, rfl⟩ : ∃ c, after.mapM entry = some c ∧ a ++ (key, v) :: c = es := by
    cases hc : after.mapM entry with
    | none =>
      rw [hc] at hes
      cases hes
    | some c =>
      rw [hc] at hes
      exact ⟨c, rfl, Option.some.inj hes⟩
  refine ⟨a, c, rfl, mapping_eq_some.mpr ?_⟩
  rw [sections_append (List.forall_mem_cons.mpr ⟨ht, hafter⟩)]
  refine ⟨hopening, by simp, ?_, ?_, ?_⟩
  · rw [List.forall_mem_append, List.forall_mem_cons] at hcolumn ⊢
    exact ⟨hcolumn.1, hhead ▸ hcolumn.2.1, hcolumn.2.2⟩
  · rw [List.mapM_append, ha, List.mapM_cons, hread', hc]
    rfl
  · simpa using hnodup

/-- An entry of a new key after a mapping, with lines between that the last entry does not mind. -/
theorem mapping_extend {gap : List Line} {t : Section} {key : String} {v : Value}
    (hgap : ∀ x ∈ gap, entryStart k x = false) (ht : t.Of (entryStart k))
      (hcolumn : column t.head = k)
    (hread : entry t = some (key, v)) (hkey : key ∉ es.map Prod.fst)
    (hlast : ∀ last ∈ (sections (entryStart k) l).2.getLast?,
      entry ⟨last.head, last.body ++ gap⟩ = entry last)
    (h : mapping entry k l = some es) :
      mapping entry k (l ++ gap ++ t.lines) = some (es ++ [(key, v)]) := by
  obtain ⟨hopening, hne, hcolumns, hes, hnodup⟩ := mapping_eq_some.mp h
  obtain ⟨secs, last, hsecs⟩ : ∃ secs last, (sections (entryStart k) l).2 = secs ++ [last] :=
    ⟨_, _, (List.dropLast_concat_getLast hne).symm⟩
  have hread' : entry ⟨last.head, last.body ++ gap⟩ = entry last := by
    apply hlast
    rw [hsecs]
    simp
  have hlines : t.lines = [t].flatMap Section.lines := by simp
  rw [hlines, mapping_eq_some, sections_append (List.forall_mem_singleton.mpr ht),
    sections_concat hgap hsecs]
  rw [hsecs] at hcolumns hes
  refine ⟨hopening, by simp, ?_, ?_, ?_⟩
  · simp only [List.forall_mem_append, List.forall_mem_singleton] at hcolumns ⊢
    exact ⟨hcolumns, hcolumn⟩
  · rw [List.mapM_append] at hes ⊢
    rw [List.mapM_append, List.mapM_cons (l := []), hread', ← List.mapM_cons, hes, List.mapM_cons,
      hread]
    rfl
  · rw [List.map_append, List.nodup_append]
    refine ⟨hnodup, by simp, ?_⟩
    rintro x hx y hy rfl
    rw [List.mem_singleton.mp hy] at hx
    exact hkey hx

/-- A mapping of entries, one after the other. -/
theorem mapping_flatten {secs : List Section} (hne : secs ≠ [])
    (hsecs : ∀ s ∈ secs, s.Of (entryStart k))
    (hcolumn : ∀ s ∈ secs, column s.head = k) (hread : secs.mapM entry = some es)
    (hnodup : (es.map Prod.fst).Nodup) :
      mapping entry k (secs.flatMap Section.lines) = some es := by
  have hflat : sections (entryStart k) (secs.flatMap Section.lines) = ([], secs) :=
    @sections_flatten (entryStart k) [] secs (by simp) hsecs
  rw [mapping_eq_some, hflat]
  exact ⟨rfl, hne, hcolumn, hread, hnodup⟩

/-- A sequence of items, one after the other. -/
theorem items_flatten {secs : List Section} {found : List (List (String × Value))} (hne : secs ≠ [])
    (hsecs : ∀ s ∈ secs, s.Of (itemStart k)) (hcolumn : ∀ s ∈ secs, column s.head = k)
    (hdash : ∀ s ∈ secs, "- ".toList.isPrefixOf (s.head.drop k) = true)
    (hread : secs.mapM (fun s => mapping entry (k + 2) (undash k s.head :: s.body)) = some found) :
    items entry k (secs.flatMap Section.lines) = some found := by
  have hflat : sections (itemStart k) (secs.flatMap Section.lines) = ([], secs) :=
    @sections_flatten (itemStart k) [] secs (by simp) hsecs
  unfold items
  rw [hflat]
  dsimp only
  rw [if_pos, hread]
  simp only [Bool.and_eq_true, List.all_eq_true, Bool.not_eq_true', List.isEmpty_eq_false_iff,
    decide_eq_true_eq]
  exact ⟨⟨by simp, hne⟩, fun s hs => ⟨hcolumn s hs, hdash s hs⟩⟩

end blocks
