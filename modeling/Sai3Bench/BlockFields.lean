-- Texts in blocks that a program writes itself: the lines of its fields and items,
-- with comments between them, and what is read of these.
import Sai3Bench.BlockTexts

namespace blocks

open serde (Value)

/-! ## Fields and items -/

variable {k : Nat} {v : List Char} {body : List Line}

/-- The line of an entry at a column. -/
def blockLine (k : Nat) (key : String) (rest : List Char) : Line :=
  List.replicate k ' ' ++ key.toList ++ ':' :: rest

/-- A field with its scalar. -/
def fieldLine (k : Nat) (p : String × List Char) : Line := blockLine k p.1 (' ' :: p.2)

/-- The fields of an item at a column. -/
def itemLines (k : Nat) : List (String × List Char) → List Line
  | [] => []
  | p :: ps => (List.replicate k ' ' ++ '-' :: ' ' :: (p.1.toList ++ ':' :: ' ' :: p.2)) ::
      ps.map (fieldLine (k + 2))

/-- A key is a name. -/
def Named (key : String) : Prop :=
  scalar key.toList = some (.str key) ∧ ∀ c ∈ key.toList, word c = true

theorem named_of {key : String} (hscalar : scalar key.toList = some (.str key))
    (hword : key.toList.all word = true) :
    Named key :=
  ⟨hscalar, List.all_eq_true.mp hword⟩

/-- What a field with its scalar says. -/
structure Says (p : String × List Char) (e : String × Value) : Prop where
  key : p.1 = e.1
  named : Named p.1
  unspaced : ' ' ∉ p.2
  value : scalar p.2 = some e.2

/-- What is read of an item. -/
structure SaysAll (ps : List (String × List Char)) (es : List (String × Value)) : Prop where
  fields : List.Forall₂ Says ps es
  nonempty : ps ≠ []
  nodup : (es.map Prod.fst).Nodup

/-- Lines with comments after them. -/
structure Annotates (ls : List Line) (secs : List Section) : Prop where
  heads : secs.map Section.head = ls
  notes : ∀ s ∈ secs, ∀ x ∈ s.body, neutral x = true

/-! ## Fields -/

theorem takeWhile_of_all {p : Char → Bool} {s : List Char} (h : ∀ c ∈ s, p c = true) {c : Char}
    (hc : p c = false) (t : List Char) : (s ++ c :: t).takeWhile p = s := by
  rw [List.takeWhile_append_of_pos h, List.takeWhile_cons_of_neg (by simp [hc]), List.append_nil]

theorem column_spaces {c : Char} (hc : c ≠ ' ') (t : List Char) :
    column (List.replicate k ' ' ++ c :: t) = k := by
  unfold column
  rw [takeWhile_of_all _ (by simpa using hc), List.length_replicate]
  intro c hc
  rw [(List.mem_replicate.mp hc).2]
  rfl

theorem neutral_spaces {c : Char} (hc : c ≠ ' ') (t : List Char) :
    neutral (List.replicate k ' ' ++ c :: t) = decide (c = '#') := by
  unfold neutral
  have hspaces : ∀ x ∈ List.replicate k ' ', decide (x = ' ') = true := by
    intro x hx
    rw [(List.mem_replicate.mp hx).2]
    rfl
  rw [List.dropWhile_append_of_pos hspaces, List.dropWhile_cons_of_neg (by simpa using hc)]

theorem named_start {key : String} (h : Named key) :
    ∃ c t, key.toList = c :: t ∧ word c = true := by
  cases hkey : key.toList with
  | nil =>
    have hnone := h.1
    rw [hkey] at hnone
    cases hnone
  | cons c t =>
    exact ⟨c, t, rfl, h.2 c (by rw [hkey]; exact List.mem_cons_self)⟩

theorem keyed_line {key : String} (h : Named key) {rest : List Char}
    (hrest : (rest.isEmpty || rest.head? == some ' ') = true) :
    keyed k (blockLine k key rest) = some (key, rest) := by
  have hdrop : (List.replicate k ' ' ++ key.toList ++ ':' :: rest).drop k =
      key.toList ++ ':' :: rest := by
    rw [List.append_assoc]
    exact List.drop_left' List.length_replicate
  have htake : (List.replicate k ' ' ++ key.toList ++ ':' :: rest).take k =
      List.replicate k ' ' := by
    rw [List.append_assoc]
    exact List.take_left' List.length_replicate
  have hspaces : (List.replicate k ' ').all (· == ' ') = true :=
    List.all_eq_true.mpr fun c hc => by rw [(List.mem_replicate.mp hc).2]; rfl
  unfold keyed blockLine
  dsimp only
  rw [hdrop, htake, takeWhile_of_all h.2 rfl, h.1, List.drop_left]
  simp only [hspaces, hrest, Bool.and_true, if_true]

/-- A field is read whatever comments follow it. -/
theorem plain_line {p : String × List Char} {e : String × Value} (h : Says p e)
    (hbody : ∀ x ∈ body, neutral x = true) : plain k ⟨fieldLine k p, body⟩ = some e := by
  have hall : body.all neutral = true := List.all_eq_true.mpr hbody
  have hvalue : p.2.takeWhile (· != ' ') = p.2 := by
    apply List.takeWhile_eq_self_iff.mpr
    intro c hc
    rw [bne_iff_ne]
    rintro rfl
    exact h.unspaced hc
  unfold plain fieldLine
  rw [keyed_line h.named rfl]
  simp only [hvalue, List.drop_length, hall, h.value, h.key]
  rfl

theorem scalar_number {n : Nat} (h : n < 2 ^ 64) :
    scalar (texts.padded 10 1 n) = some (.int n) := by
  have hne : ∀ {w : List Char} {c : Char}, c ∈ w → c.isDigit = false → texts.padded 10 1 n ≠ w := by
    rintro w c hc hdigit rfl
    exact texts.not_mem_padded hdigit hc
  unfold scalar
  rw [if_neg (hne (c := '[') (by decide) rfl), if_neg (hne (c := 't') (by decide) rfl),
    if_neg (hne (c := 'f') (by decide) rfl), texts.parse_padded h]
  simp

/-- A number with the letter of a unit is read as it stands. -/
theorem scalar_quantity (n : Nat) {unit : Char} (hunit : unit = 's' ∨ unit = 'm' ∨ unit = 'h') :
    scalar (texts.padded 10 1 n ++ [unit]) =
      some (.str (String.ofList (texts.padded 10 1 n ++ [unit]))) := by
  have hletter : unit.isDigit = false ∧ word unit = true := by
    rcases hunit with rfl | rfl | rfl <;> decide
  have hdigits : ∀ c ∈ texts.padded 10 1 n, c.isDigit = true := fun c hc => texts.padded_digits hc
  obtain ⟨d, t, hpadded⟩ := List.exists_cons_of_ne_nil (@texts.padded_ne_nil 10 1 n)
  have hd : d.isDigit = true := hdigits d (by rw [hpadded]; exact List.mem_cons_self)
  have hstart : ∀ {w : List Char}, w.head?.any Char.isDigit = false →
      texts.padded 10 1 n ++ [unit] ≠ w := by
    rintro w hw rfl
    rw [hpadded, List.cons_append, List.head?_cons, Option.any_some, hd] at hw
    cases hw
  have hsign : (texts.padded 10 1 n ++ [unit]).head? ≠ some '+' := by
    rw [hpadded, List.cons_append, List.head?_cons, ne_eq, Option.some.injEq]
    rintro rfl
    cases hd
  have hnone : texts.parse_u64 (texts.padded 10 1 n ++ [unit]) = none := by
    unfold texts.parse_u64
    rw [if_neg hsign]
    simp [hletter.1]
  have hunits : (texts.padded 10 1 n ++ [unit]).dropWhile Char.isDigit = [unit] := by
    rw [List.dropWhile_append_of_pos hdigits, List.dropWhile_cons_of_neg (by simp [hletter.1])]
  have hword : (texts.padded 10 1 n ++ [unit]).all word = true := by
    rw [List.all_append, Bool.and_eq_true, List.all_eq_true]
    refine ⟨fun c hc => ?_, by simp [hletter.2]⟩
    unfold word Char.isAlphanum
    rw [hdigits c hc, Bool.or_true, Bool.true_or]
  unfold scalar
  rw [if_neg (hstart rfl), if_neg (hstart rfl), if_neg (hstart rfl), hnone]
  simp only [hunits, hword]
  rcases hunit with rfl | rfl | rfl <;> simp

theorem block_shape {key : String} (h : Named key) (rest : List Char) :
    column (blockLine k key rest) = k ∧ neutral (blockLine k key rest) = false ∧
      entryStart k (blockLine k key rest) = true := by
  obtain ⟨c, t, hkey, hword⟩ := named_start h
  have hne : c ≠ ' ' ∧ c ≠ '#' ∧ c ≠ '-' := by
    refine ⟨?_, ?_, ?_⟩ <;> rintro rfl <;> exact absurd hword (by decide)
  have hline : blockLine k key rest = List.replicate k ' ' ++ c :: (t ++ ':' :: rest) := by
    unfold blockLine
    rw [hkey, List.append_assoc]
    rfl
  have hcolumn : column (blockLine k key rest) = k := by rw [hline, column_spaces hne.1]
  have hneutral : neutral (blockLine k key rest) = false := by
    rw [hline, neutral_spaces hne.1]
    exact decide_eq_false hne.2.1
  have hdrop : (blockLine k key rest).drop k = c :: (t ++ ':' :: rest) := by
    rw [hline]
    exact List.drop_left' List.length_replicate
  refine ⟨hcolumn, hneutral, ?_⟩
  unfold entryStart
  rw [hcolumn, hneutral, hdrop]
  simp [hne.2.2]

theorem field_shape {p : String × List Char} (h : Named p.1) :
    column (fieldLine k p) = k ∧ neutral (fieldLine k p) = false ∧
      entryStart k (fieldLine k p) = true :=
  block_shape h _

theorem entryStart_neutral {x : Line} (h : neutral x = true) : entryStart k x = false := by
  unfold entryStart
  rw [h]
  rfl

theorem mapM_fields {entry : Reader} (hentry : ∀ s e, plain k s = some e → entry s = some e)
    {ps : List (String × List Char)} {es : List (String × Value)} (htold : List.Forall₂ Says ps es)
    {secs : List Section} (h : Annotates (ps.map (fieldLine k)) secs) :
      secs.mapM entry = some es := by
  induction htold generalizing secs with
  | nil =>
    have hnil := List.map_eq_nil_iff.mp h.heads
    rw [hnil]
    rfl
  | @cons p e ps es hp _ ih =>
    obtain ⟨s, secs, rfl, hhead, hrest⟩ := List.map_eq_cons_iff.mp h.heads
    have hnotes := List.forall_mem_cons.mp h.notes
    have hs : entry s = some e := by
      apply hentry
      have hplain := plain_line (k := k) hp hnotes.1
      rwa [← hhead] at hplain
    rw [List.mapM_cons, hs, ih ⟨hrest, hnotes.2⟩]
    rfl

theorem says_named {ps : List (String × List Char)} {es : List (String × Value)}
    (h : List.Forall₂ Says ps es) : ∀ p ∈ ps, Named p.1 := by
  induction h with
  | nil => nofun
  | cons hp _ ih => exact List.forall_mem_cons.mpr ⟨hp.named, ih⟩

/-- A mapping of fields is read, with comments between them. -/
theorem mapping_fields {entry : Reader} (hentry : ∀ s e, plain k s = some e → entry s = some e)
    {ps : List (String × List Char)} {es : List (String × Value)} (htold : List.Forall₂ Says ps es)
    (hne : ps ≠ []) (hnodup : (es.map Prod.fst).Nodup) {secs : List Section}
    (h : Annotates (ps.map (fieldLine k)) secs) :
    mapping entry k (secs.flatMap Section.lines) = some es := by
  have hhead : ∀ s ∈ secs, ∃ p, Named p.1 ∧ s.head = fieldLine k p := by
    intro s hs
    have hmem : s.head ∈ ps.map (fieldLine k) := h.heads ▸ List.mem_map_of_mem hs
    obtain ⟨p, hp, heq⟩ := List.mem_map.mp hmem
    exact ⟨p, says_named htold p hp, heq.symm⟩
  apply mapping_flatten
  · rintro rfl
    exact hne (List.map_eq_nil_iff.mp h.heads.symm)
  · intro s hs
    obtain ⟨p, hp, heq⟩ := hhead s hs
    exact ⟨heq ▸ (field_shape hp).2.2, fun x hx => entryStart_neutral (h.notes s hs x hx)⟩
  · intro s hs
    obtain ⟨p, hp, heq⟩ := hhead s hs
    rw [heq, (field_shape hp).1]
  · exact mapM_fields hentry htold h
  · exact hnodup

theorem flatMap_lines_cons (s : Section) (secs : List Section) :
    (s :: secs).flatMap Section.lines =
      Section.lines ⟨s.head, s.body ++ secs.flatMap Section.lines⟩ := by
  simp [Section.lines]

/-! ## Items -/

/-- The lines of an item are one section of a sequence. -/
theorem item_section {entry : Reader} (hentry : ∀ s e, plain (k + 2) s = some e → entry s = some e)
    {ps : List (String × List Char)} {es : List (String × Value)} (h : SaysAll ps es)
    {secs : List Section} (hsecs : Annotates (itemLines k ps) secs) :
    ∃ t : Section, secs.flatMap Section.lines = t.lines ∧ t.Of (itemStart k) ∧ column t.head = k ∧
      "- ".toList.isPrefixOf (t.head.drop k) = true ∧
        mapping entry (k + 2) (undash k t.head :: t.body) = some es := by
  obtain ⟨p, ps, rfl⟩ := List.exists_cons_of_ne_nil h.nonempty
  rw [itemLines] at hsecs
  obtain ⟨s, secs, rfl, hhead, hrest⟩ := List.map_eq_cons_iff.mp hsecs.heads
  have hnotes := List.forall_mem_cons.mp hsecs.notes
  have hfields : ∀ x ∈ secs, ∃ q, Named q.1 ∧ x.head = fieldLine (k + 2) q := by
    intro x hx
    have hmem : x.head ∈ ps.map (fieldLine (k + 2)) := hrest ▸ List.mem_map_of_mem hx
    obtain ⟨q, hq, heq⟩ := List.mem_map.mp hmem
    exact ⟨q, says_named h.fields q (List.mem_cons_of_mem _ hq), heq.symm⟩
  have hdrop : s.head.drop k = '-' :: ' ' :: (p.1.toList ++ ':' :: ' ' :: p.2) := by
    rw [hhead]
    exact List.drop_left' List.length_replicate
  have hundash : undash k s.head = fieldLine (k + 2) p := by
    have htake : s.head.take k = List.replicate k ' ' := by
      rw [hhead]
      exact List.take_left' List.length_replicate
    unfold undash fieldLine blockLine
    rw [htake, ← List.drop_drop, hdrop, List.replicate_add]
    simp
  have hcolumn : column s.head = k := by
    rw [hhead]
    exact column_spaces (by decide) _
  have hneutral : neutral s.head = false := by
    rw [hhead, neutral_spaces (by decide)]
    rfl
  refine ⟨⟨s.head, s.body ++ secs.flatMap Section.lines⟩, flatMap_lines_cons s secs, ⟨?_, ?_⟩,
    hcolumn, ?_, ?_⟩
  · unfold itemStart
    rw [hcolumn, hneutral]
    simp
  · intro x hx
    unfold itemStart
    rcases List.mem_append.mp hx with hx | hx
    · rw [hnotes.1 x hx]
      rfl
    · obtain ⟨t, ht, hx⟩ := List.mem_flatMap.mp hx
      rcases List.mem_cons.mp hx with rfl | hx
      · obtain ⟨q, hq, heq⟩ := hfields t ht
        rw [heq, (field_shape hq).1]
        simp
      · rw [hnotes.2 t ht x hx]
        rfl
  · rw [hdrop]
    rfl
  · have hsecs' : Annotates ((p :: ps).map (fieldLine (k + 2)))
        (⟨undash k s.head, s.body⟩ :: secs) := by
      refine ⟨?_, List.forall_mem_cons.mpr hnotes⟩
      rw [List.map_cons, List.map_cons, hundash, hrest]
    have hread := mapping_fields hentry h.fields h.nonempty h.nodup hsecs'
    rwa [flatMap_lines_cons] at hread

/-- A sequence of items is read, with comments between their fields. -/
theorem items_fields {entry : Reader} (hentry : ∀ s e, plain (k + 2) s = some e → entry s = some e)
    {found : List (List (String × List Char))} {read : List (List (String × Value))}
    (h : List.Forall₂ SaysAll found read) (hne : found ≠ []) {secs : List Section}
    (hsecs : Annotates (found.flatMap (itemLines k)) secs) :
    items entry k (secs.flatMap Section.lines) = some read := by
  have hgroups : ∃ groups : List Section, secs.flatMap Section.lines =
      groups.flatMap Section.lines ∧
      (∀ t ∈ groups, t.Of (itemStart k) ∧ column t.head = k ∧
        "- ".toList.isPrefixOf (t.head.drop k) = true) ∧
        groups.mapM (fun t => mapping entry (k + 2) (undash k t.head :: t.body)) = some read := by
    clear hne
    induction h generalizing secs with
    | nil =>
      rw [List.map_eq_nil_iff.mp hsecs.heads]
      exact ⟨[], rfl, by simp, rfl⟩
    | @cons ps es found read hps _ ih =>
      obtain ⟨first, others, rfl, hfirst, hothers⟩ := List.map_eq_append_iff.mp hsecs.heads
      have hnotes := List.forall_mem_append.mp hsecs.notes
      obtain ⟨t, hlines, hof, hcolumn, hdash, hread⟩ := item_section hentry hps ⟨hfirst, hnotes.1⟩
      obtain ⟨groups, hrest, hall, hreads⟩ := ih ⟨hothers, hnotes.2⟩
      refine ⟨t :: groups, ?_, List.forall_mem_cons.mpr ⟨⟨hof, hcolumn, hdash⟩, hall⟩, ?_⟩
      · rw [List.flatMap_append, List.flatMap_cons, hlines, hrest]
      · rw [List.mapM_cons, hread, hreads]
        rfl
  obtain ⟨groups, hlines, hall, hread⟩ := hgroups
  rw [hlines]
  apply items_flatten
  · rintro rfl
    cases hread
    cases h
    exact hne rfl
  · exact fun t ht => (hall t ht).1
  · exact fun t ht => (hall t ht).2.1
  · exact fun t ht => (hall t ht).2.2
  · exact hread

theorem below_cons {x : Line} {l : List Line} (h : neutral x = false) :
    below (x :: l) = some (column x) := by
  unfold below
  rw [List.find?_cons_of_pos (by rw [h]; rfl)]
  rfl

theorem below_items {found : List (List (String × List Char))} {read : List (List (String × Value))}
    (h : List.Forall₂ SaysAll found read) (hne : found ≠ []) {secs : List Section}
    (hsecs : Annotates (found.flatMap (itemLines k)) secs) :
      below (secs.flatMap Section.lines) = some k := by
  cases h with
  | nil => exact absurd rfl hne
  | @cons ps es found read hps _ =>
    obtain ⟨p, ps, rfl⟩ := List.exists_cons_of_ne_nil hps.nonempty
    obtain ⟨s, secs, rfl, hhead, _⟩ := List.map_eq_cons_iff.mp hsecs.heads
    have hneutral : neutral s.head = false := by
      rw [hhead, neutral_spaces (by decide)]
      rfl
    rw [flatMap_lines_cons, Section.lines, below_cons hneutral, hhead, column_spaces (by decide)]

/-- A sequence starts no entry at its column. -/
theorem items_within {found : List (List (String × List Char))}
    {read : List (List (String × Value))}
    (h : List.Forall₂ SaysAll found read) {secs : List Section}
    (hsecs : Annotates (found.flatMap (itemLines k)) secs) :
    ∀ x ∈ secs.flatMap Section.lines, entryStart k x = false := by
  have hheads : ∀ x ∈ found.flatMap (itemLines k), entryStart k x = false := by
    intro x hx
    clear hsecs
    unfold entryStart
    induction h with
    | nil => cases hx
    | @cons ps es found read hps _ ih =>
      rcases List.mem_append.mp hx with hx | hx
      · obtain ⟨p, ps, rfl⟩ := List.exists_cons_of_ne_nil hps.nonempty
        rcases List.mem_cons.mp hx with rfl | hx
        · rw [column_spaces (by decide), List.drop_left' List.length_replicate]
          simp
        · obtain ⟨q, hq, rfl⟩ := List.mem_map.mp hx
          have hnamed := says_named hps.fields q (List.mem_cons_of_mem _ hq)
          rw [(field_shape hnamed).1, decide_eq_false (by omega : ¬k + 2 ≤ k)]
          simp
      · exact ih hx
  intro x hx
  obtain ⟨s, hs, hx⟩ := List.mem_flatMap.mp hx
  rcases List.mem_cons.mp hx with rfl | hx
  · exact hheads s.head (hsecs.heads ▸ List.mem_map_of_mem hs)
  · exact entryStart_neutral (hsecs.notes s hs x hx)

/-! ## Blocks below an entry -/

variable {entry : Nat → Reader} {key : String} {note : List Char} {c : Nat}

/-- A comment behind a colon. -/
structure Note (note : List Char) : Prop where
  apart : (note.isEmpty || note.head? == some ' ') = true
  neutral : neutral note = true

theorem inner_items (hkey : Named key) (hnote : Note note) (hbelow : below body = some c)
    (hc : k ≤ c)
    {found : List (List (String × Value))} (h : items (entry (c + 2)) c body = some found) :
    inner entry k ⟨blockLine k key note, body⟩ = some (key, .seq (found.map .map)) := by
  have hblock : sequenceBelow entry k body = some (.seq (found.map .map)) := by
    unfold sequenceBelow
    rw [hbelow]
    simp only [hc, h]
    rfl
  unfold inner nested
  rw [keyed_line hkey hnote.apart, hblock]
  simp only [hnote.neutral, if_true]

/-- An entry with its scalar on its line is no block. -/
theorem inner_plain (hentry : ∀ k s e, plain k s = some e → entry k s = some e) {s : Section}
    {e : String × Value} (h : plain k s = some e) : inner entry k s = some e := by
  have hbody : s.body.all neutral = true := by
    unfold plain at h
    split at h
    · by_contra hbody
      rw [Bool.not_eq_true] at hbody
      simp [hbody] at h
    · cases h
  have hnone : sequenceBelow entry k s.body = none := by
    have hbelow : below s.body = none := by
      unfold below
      rw [List.find?_eq_none.mpr]
      · rfl
      · intro x hx
        simp [List.all_eq_true.mp hbody x hx]
    unfold sequenceBelow
    rw [hbelow]
  unfold inner nested
  rw [hnone]
  simpa using hentry k s e h

theorem document_mapping (hkey : Named key) (hnote : Note note) (hbelow : below body = some c)
    (hc : 0 < c) {es : List (String × Value)} (h : mapping (inner entry c) c body = some es) :
    outer entry ⟨blockLine 0 key note, body⟩ = some (key, .map es) := by
  have hblock : mappingBelow (inner entry) 0 body = some (.map es) := by
    unfold mappingBelow
    rw [hbelow]
    simp only [hc, h]
    rfl
  unfold outer nested
  rw [keyed_line hkey hnote.apart, hblock]
  simp only [hnote.neutral, if_true]

/-! ## Printable lines -/

theorem printable_word {c : Char} (h : word c = true) : printable c = true := by
  rw [word, Bool.or_eq_true, beq_iff_eq] at h
  have hcode : 0x20 ≤ c.toNat ∧ c.toNat ≤ 0x7E := by
    rcases h with h | rfl
    · change ((decide (65 ≤ c.val ∧ c.val ≤ 90) ||
        decide (97 ≤ c.val) && decide (c.val ≤ 122)) ||
        decide (48 ≤ c.val) && decide (c.val ≤ 57)) = true at h
      simp only [Bool.or_eq_true, Bool.and_eq_true, decide_eq_true_eq] at h
      change ((65 ≤ c.toNat ∧ c.toNat ≤ 90) ∨ (97 ≤ c.toNat ∧ c.toNat ≤ 122)) ∨
        (48 ≤ c.toNat ∧ c.toNat ≤ 57) at h
      omega
    · decide
  unfold printable
  simp [hcode]

theorem printable_scalar {v : List Char} {e : Value} (h : scalar v = some e) : Printable v := by
  unfold scalar at h
  split at h
  · rename_i hv
    rw [hv]
    decide
  · split at h
    · rename_i hv
      rw [hv]
      decide
    · split at h
      · rename_i hv
        rw [hv]
        decide
      · split at h
        · split at h
          · rename_i hv
            rw [hv]
            intro c hc
            apply printable_word
            unfold word Char.isAlphanum
            rw [texts.padded_digits hc, Bool.or_true, Bool.true_or]
          · cases h
        · have hall : v.all word = true := by
            cases hword : v.all word with
            | true => rfl
            | false =>
              rw [hword] at h
              cases h
          rw [List.all_eq_true] at hall
          exact fun c hc => printable_word (hall c hc)

theorem printable_append {l m : Line} (hl : Printable l) (hm : Printable m) :
    Printable (l ++ m) := by
  intro c hc
  exact (List.mem_append.mp hc).elim (hl c) (hm c)

theorem printable_spaces (k : Nat) : Printable (List.replicate k ' ') := by
  intro c hc
  rw [(List.mem_replicate.mp hc).2]
  rfl

theorem printable_pair {p : String × List Char} {e : String × Value} (h : Says p e) :
    Printable (p.1.toList ++ ':' :: ' ' :: p.2) := by
  have hkey : Printable p.1.toList := fun c hc => printable_word (h.named.2 c hc)
  have hcolon : Printable [':', ' '] := by decide
  exact printable_append hkey (printable_append hcolon (printable_scalar h.value))

theorem printable_fields {ps : List (String × List Char)} {es : List (String × Value)}
    (h : List.Forall₂ Says ps es) : ∀ l ∈ ps.map (fieldLine k), Printable l := by
  induction h with
  | nil => nofun
  | cons hp _ ih =>
    rw [List.map_cons, List.forall_mem_cons]
    refine ⟨?_, ih⟩
    unfold fieldLine blockLine
    rw [List.append_assoc]
    exact printable_append (printable_spaces k) (printable_pair hp)

theorem printable_item {ps : List (String × List Char)} {es : List (String × Value)}
    (h : SaysAll ps es) :
    ∀ l ∈ itemLines k ps, Printable l := by
  obtain ⟨fields, hne, _⟩ := h
  cases fields with
  | nil => exact absurd rfl hne
  | cons hp hrest =>
    rw [itemLines, List.forall_mem_cons]
    have hdash : Printable ['-', ' '] := by decide
    exact ⟨printable_append (printable_spaces k) (printable_append hdash (printable_pair hp)),
      printable_fields hrest⟩

/-! ## Readers -/

/-- A reader of YAML. `leaf` reads an entry at a column on its own, of which a text in blocks
is made. -/
structure Yaml where
  from_str : List Char → Except String Value
  leaf : Nat → Reader
  reads_plain : ∀ k s e, plain k s = some e → leaf k s = some e
  reads_document : ∀ text es, (∀ l ∈ lines text, Printable l) →
    document leaf (lines text) = some es →
    from_str text = .ok (.map es)

end blocks
