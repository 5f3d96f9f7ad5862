-- Patterns of characters and of gaps within a line: which texts fit a pattern,
-- and which texts have a part that does.
import Mathlib.Data.List.Infix

namespace globs

/-- A gap is any text without a line break. -/
inductive Piece
  | char (c : Char)
  | gap
deriving DecidableEq, Repr

/-- What is left of a text after a part of its first line. -/
def rests : List Char → List (List Char)
  | [] => [[]]
  | c :: s => (c :: s) :: if c = '\n' then [] else rests s

/-- The whole text fits. -/
def isMatch : List Piece → List Char → Bool
  | [], s => s.isEmpty
  | .char _ :: _, [] => false
  | .char c :: p, d :: s => decide (c = d) && isMatch p s
  | .gap :: p, s => (rests s).any (isMatch p)

/-- Some part of the text fits. -/
def search (p : List Piece) (s : List Char) : Bool := s.tails.any fun t => t.inits.any (isMatch p)

/-- A star stands for a gap. -/
def ofGlob (glob : List Char) : List Piece :=
  glob.map fun c => if c = '*' then .gap else .char c

/-- The text is the glob with a filling for each of its stars. -/
inductive Filled (ok : List Char → Prop) : List Char → List Char → Prop
  | nil : Filled ok [] []
  | char {c : Char} {glob s : List Char} : c ≠ '*' → Filled ok glob s →
      Filled ok (c :: glob) (c :: s)
  | star {u glob s : List Char} : ok u → Filled ok glob s → Filled ok ('*' :: glob) (u ++ s)

variable {p q : List Piece} {s t l : List Char}

/-! ## Texts that fit -/

theorem mem_rests : t ∈ rests s ↔ ∃ u, s = u ++ t ∧ '\n' ∉ u := by
  induction s with
  | nil =>
    unfold rests
    rw [List.mem_singleton]
    constructor
    · rintro rfl
      exact ⟨[], rfl, List.not_mem_nil⟩
    · rintro ⟨u, h, _⟩
      exact (List.append_eq_nil_iff.mp h.symm).2
  | cons c s ih =>
    unfold rests
    rw [List.mem_cons]
    constructor
    · rintro (rfl | h)
      · exact ⟨[], rfl, List.not_mem_nil⟩
      · split at h
        · cases h
        · rename_i hc
          obtain ⟨u, rfl, hu⟩ := ih.mp h
          exact ⟨c :: u, rfl, by simpa [eq_comm] using ⟨hc, hu⟩⟩
    · rintro ⟨u, h, hu⟩
      cases u with
      | nil => exact .inl h.symm
      | cons d u =>
        cases h
        rw [List.mem_cons, not_or] at hu
        rw [if_neg (Ne.symm hu.1)]
        exact .inr (ih.mpr ⟨u, rfl, hu.2⟩)

theorem isMatch_nil : isMatch [] s = true ↔ s = [] := List.isEmpty_iff

theorem isMatch_char {c : Char} :
    isMatch (.char c :: p) s = true ↔ ∃ t, s = c :: t ∧ isMatch p t = true := by
  cases s with
  | nil => simp [isMatch]
  | cons d s =>
    rw [isMatch, Bool.and_eq_true, decide_eq_true_eq]
    constructor
    · rintro ⟨rfl, hp⟩
      exact ⟨s, rfl, hp⟩
    · rintro ⟨t, h, hp⟩
      cases h
      exact ⟨rfl, hp⟩

theorem isMatch_gap : isMatch (.gap :: p) s = true ↔
    ∃ u t, s = u ++ t ∧ '\n' ∉ u ∧ isMatch p t = true := by
  rw [isMatch, List.any_eq_true]
  constructor
  · rintro ⟨t, ht, hp⟩
    obtain ⟨u, hs, hu⟩ := mem_rests.mp ht
    exact ⟨u, t, hs, hu, hp⟩
  · rintro ⟨u, t, hs, hu, hp⟩
    exact ⟨t, mem_rests.mpr ⟨u, hs, hu⟩, hp⟩

/-- A text that fits two patterns after each other is made of two that fit them. -/
theorem isMatch_append : isMatch (p ++ q) s = true ↔
    ∃ u t, s = u ++ t ∧ isMatch p u = true ∧ isMatch q t = true := by
  induction p generalizing s with
  | nil => simp [isMatch_nil]
  | cons piece p ih =>
    rw [List.cons_append]
    cases piece with
    | char c =>
      simp only [isMatch_char, ih]
      constructor
      · rintro ⟨_, rfl, u, t, rfl, hp, hq⟩
        exact ⟨c :: u, t, rfl, ⟨u, rfl, hp⟩, hq⟩
      · rintro ⟨_, t, rfl, ⟨u, rfl, hp⟩, hq⟩
        exact ⟨u ++ t, rfl, u, t, rfl, hp, hq⟩
    | gap =>
      simp only [isMatch_gap, ih]
      constructor
      · rintro ⟨line, _, rfl, hline, u, t, rfl, hp, hq⟩
        exact ⟨line ++ u, t, by rw [List.append_assoc], ⟨line, u, rfl, hline, hp⟩, hq⟩
      · rintro ⟨_, t, rfl, ⟨line, u, rfl, hline, hp⟩, hq⟩
        exact ⟨line, u ++ t, by rw [List.append_assoc], hline, u, t, rfl, hp, hq⟩

theorem isMatch_chars : isMatch (l.map .char) s = true ↔ s = l := by
  induction l generalizing s with
  | nil => exact isMatch_nil
  | cons c l ih => simp [isMatch_char, ih]

/-! ## Texts with a part that fits -/

theorem search_iff : search p s = true ↔ ∃ part, part <:+: s ∧ isMatch p part = true := by
  unfold search
  simp only [List.any_eq_true, List.mem_tails, List.mem_inits, List.infix_iff_prefix_suffix]
  constructor
  · rintro ⟨t, ht, part, hpart, hp⟩
    exact ⟨part, ⟨t, hpart, ht⟩, hp⟩
  · rintro ⟨part, ⟨t, hpart, ht⟩, hp⟩
    exact ⟨t, ht, part, hpart, hp⟩

/-- A gap in front makes no difference to a search. -/
theorem search_gap : search (.gap :: p) s = true ↔ search p s = true := by
  simp only [search_iff, isMatch_gap]
  constructor
  · rintro ⟨_, hpart, u, t, rfl, _, hp⟩
    exact ⟨t, (List.suffix_append u t).isInfix.trans hpart, hp⟩
  · rintro ⟨part, hpart, hp⟩
    exact ⟨part, hpart, [], part, rfl, List.not_mem_nil, hp⟩

/-! ## Globs -/

theorem ofGlob_append (a b : List Char) : ofGlob (a ++ b) = ofGlob a ++ ofGlob b := List.map_append

theorem ofGlob_of_no_star (h : '*' ∉ l) : ofGlob l = l.map .char := by
  refine List.map_congr_left fun c hc => if_neg ?_
  rintro rfl
  exact h hc

/-- Where there is no star, a text is as the glob says. -/
theorem isMatch_literal_append {glob : List Char} (h : '*' ∉ l) :
    isMatch (ofGlob (l ++ glob)) (l ++ s) = true ↔ isMatch (ofGlob glob) s = true := by
  rw [ofGlob_append, ofGlob_of_no_star h, isMatch_append]
  simp only [isMatch_chars]
  constructor
  · rintro ⟨_, t, hs, rfl, hp⟩
    rwa [List.append_cancel_left hs]
  · exact fun hp => ⟨l, s, rfl, rfl, hp⟩

/-- A text that fits has a part that fits the end of the glob. -/
theorem search_of_isMatch {a glob : List Char} (h : isMatch (ofGlob (a ++ glob)) s = true) :
    ∃ u t, s = u ++ t ∧ isMatch (ofGlob glob) t = true := by
  rw [ofGlob_append, isMatch_append] at h
  obtain ⟨u, t, hs, _, ht⟩ := h
  exact ⟨u, t, hs, ht⟩

/-! ## Stars that are filled -/

variable {ok ok' : List Char → Prop} {glob : List Char}

/-- What is known of the characters of the text is known of its fillings. -/
theorem Filled.of_mem (h : Filled ok glob s) (hok : ∀ u, ok u → (∀ c ∈ u, c ∈ s) → ok' u) :
    Filled ok' glob s := by
  induction h with
  | nil => exact .nil
  | char hc _ ih => exact .char hc (ih fun u hu hmem => hok u hu fun c hc => .tail _ (hmem c hc))
  | star hu _ ih =>
    refine .star (hok _ hu fun c => List.mem_append_left _) (ih fun u hu hmem => ?_)
    exact hok u hu fun c hc => List.mem_append_right _ (hmem c hc)

/-- A character of the text is in the glob or in a filling. -/
theorem Filled.mem {c : Char} (h : Filled ok glob s) (hc : c ∈ s) :
    c ∈ glob ∨ ∃ u, ok u ∧ c ∈ u := by
  induction h with
  | nil => cases hc
  | char _ _ ih =>
    rcases List.mem_cons.mp hc with rfl | hc
    · exact .inl List.mem_cons_self
    · exact (ih hc).imp_left (.tail _)
  | star hu _ ih =>
    rcases List.mem_append.mp hc with hc | hc
    · exact .inr ⟨_, hu, hc⟩
    · exact (ih hc).imp_left (.tail _)

theorem filled_char {c : Char} (hc : c ≠ '*') :
    Filled ok (c :: glob) s ↔ ∃ t, s = c :: t ∧ Filled ok glob t := by
  constructor
  · intro h
    cases h with
    | char _ h => exact ⟨_, rfl, h⟩
    | star => exact absurd rfl hc
  · rintro ⟨t, rfl, h⟩
    exact .char hc h

theorem filled_star : Filled ok ('*' :: glob) s ↔ ∃ u t, s = u ++ t ∧ ok u ∧ Filled ok glob t := by
  constructor
  · intro h
    cases h with
    | char hc => exact absurd rfl hc
    | star hu h => exact ⟨_, _, rfl, hu, h⟩
  · rintro ⟨u, t, rfl, hu, h⟩
    exact .star hu h

theorem filled_literal_append (h : '*' ∉ l) :
    Filled ok (l ++ glob) s ↔ ∃ t, s = l ++ t ∧ Filled ok glob t := by
  induction l generalizing s with
  | nil => simp
  | cons c l ih =>
    rw [List.mem_cons, not_or] at h
    rw [List.cons_append, filled_char (Ne.symm h.1)]
    simp only [ih h.2]
    constructor
    · rintro ⟨_, rfl, t, rfl, ht⟩
      exact ⟨t, rfl, ht⟩
    · rintro ⟨t, rfl, ht⟩
      exact ⟨l ++ t, rfl, t, rfl, ht⟩

/-- The texts that fit a glob have a part of a line for each of its stars. -/
theorem isMatch_ofGlob :
    isMatch (ofGlob glob) s = true ↔ Filled (fun u => '\n' ∉ u) glob s := by
  induction glob generalizing s with
  | nil =>
    rw [ofGlob, List.map_nil, isMatch_nil]
    constructor
    · rintro rfl
      exact .nil
    · intro h
      cases h
      rfl
  | cons c glob ih =>
    by_cases hc : c = '*'
    · subst hc
      rw [ofGlob, List.map_cons, if_pos rfl, isMatch_gap, filled_star]
      exact exists_congr fun u => exists_congr fun t =>
        and_congr_right fun _ => and_congr_right fun _ => ih
    · rw [ofGlob, List.map_cons, if_neg hc, isMatch_char, filled_char hc]
      exact exists_congr fun t => and_congr_right fun _ => ih

end globs
