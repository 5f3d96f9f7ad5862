-- Templates with the placeholder %d: how many a template has, what a number
-- put in place of the first one makes of it, and what can be read back.
import Sai3Bench.Texts

namespace templates

open texts

/-- The placeholder of a number. -/
def hole : List Char := ['%', 'd']

/-- How often the placeholder stands in a template. -/
def holes : List Char → Nat
  | [] => 0
  | c :: s => (if c = '%' ∧ s.head? = some 'd' then 1 else 0) + holes s

/-- A text of digits. -/
def Digits (part : List Char) : Prop := part ≠ [] ∧ ∀ c ∈ part, c.isDigit = true

theorem digits_toDigits (n : Nat) : Digits (Nat.toDigits 10 n) :=
  ⟨Nat.toDigits_ne_nil, fun _ hc => Nat.isDigit_of_mem_toDigits (by decide) (by decide) hc⟩

variable {s part : List Char}

theorem holes_cons (c : Char) (s : List Char) :
    holes (c :: s) = (if c = '%' ∧ s.head? = some 'd' then 1 else 0) + holes s := rfl

theorem replaceFirst_cons (c : Char) (s : List Char) : replaceFirst hole part (c :: s) =
    if c = '%' ∧ s.head? = some 'd' then part ++ s.tail else c :: replaceFirst hole part s := by
  show (if hole.isPrefixOf (c :: s) then part ++ (c :: s).drop hole.length
    else c :: replaceFirst hole part s) = _
  by_cases h : c = '%' ∧ s.head? = some 'd'
  · obtain ⟨rfl, hd⟩ := h
    cases s with
    | nil => cases hd
    | cons d s =>
      cases hd
      rfl
  · rw [if_neg h, if_neg]
    intro hstart
    cases s with
    | nil => simp [hole, List.isPrefixOf] at hstart
    | cons d s =>
      simp only [hole, List.isPrefixOf, Bool.and_eq_true, beq_iff_eq, and_true] at hstart
      exact h ⟨hstart.1.symm, congrArg some hstart.2.symm⟩

/-! ## Filling a template in -/

/-- Where there is no placeholder, nothing is filled in. -/
theorem replaceFirst_of_no_hole (h : holes s = 0) (part : List Char) :
    replaceFirst hole part s = s := by
  induction s with
  | nil => rfl
  | cons c s ih =>
    rw [holes_cons] at h
    rw [replaceFirst_cons]
    split at h
    · omega
    · rename_i hc
      rw [if_neg hc, ih (by omega)]

/-- The text before the first placeholder and the text after it. -/
theorem split_of_hole (h : 0 < holes s) : ∃ before after, s = before ++ hole ++ after ∧
    ∀ part, replaceFirst hole part s = before ++ part ++ after := by
  induction s with
  | nil => exact absurd h (Nat.lt_irrefl 0)
  | cons c s ih =>
    rw [holes_cons] at h
    split at h
    · rename_i hc
      obtain ⟨after, rfl⟩ : ∃ after, s = 'd' :: after := List.head?_eq_some_iff.mp hc.2
      refine ⟨[], after, by rw [hc.1]; rfl, fun part => ?_⟩
      rw [replaceFirst_cons, if_pos hc]
      rfl
    · rename_i hc
      obtain ⟨before, after, hs, hfill⟩ := ih (by omega)
      refine ⟨c :: before, after, by rw [hs]; rfl, fun part => ?_⟩
      rw [replaceFirst_cons, if_neg hc, hfill]
      rfl

theorem holes_append_digits (hpart : ∀ c ∈ part, c.isDigit = true) :
    holes (part ++ s) = holes s := by
  induction part with
  | nil => rfl
  | cons c part ih =>
    rw [List.cons_append, holes_cons, if_neg, Nat.zero_add]
    · exact ih fun d hd => hpart d (List.mem_cons_of_mem _ hd)
    · rintro ⟨rfl, _⟩
      exact absurd (hpart '%' List.mem_cons_self) (by decide)

/-- What is filled in begins with a digit, so it does not end a placeholder. -/
theorem head_replaceFirst (hpart : Digits part) (h : s.head? ≠ some 'd') :
    (replaceFirst hole part s).head? ≠ some 'd' := by
  cases s with
  | nil => exact h
  | cons c s =>
    rw [replaceFirst_cons]
    split
    · obtain ⟨hne, hdigits⟩ := hpart
      cases part with
      | nil => exact absurd rfl hne
      | cons d part =>
        rintro ⟨⟩
        exact absurd (hdigits 'd' List.mem_cons_self) (by decide)
    · exact h

/-- A number takes the place of one placeholder. -/
theorem holes_replaceFirst (hpart : Digits part) :
    holes (replaceFirst hole part s) = holes s - 1 := by
  induction s with
  | nil => rfl
  | cons c s ih =>
    rw [replaceFirst_cons, holes_cons]
    by_cases hc : c = '%' ∧ s.head? = some 'd'
    · obtain ⟨after, rfl⟩ : ∃ after, s = 'd' :: after := List.head?_eq_some_iff.mp hc.2
      rw [if_pos hc, if_pos hc, holes_append_digits hpart.2, holes_cons, if_neg (by simp)]
      simp
    · rw [if_neg hc, if_neg hc, holes_cons, if_neg, ih, Nat.zero_add, Nat.zero_add]
      rintro ⟨hpercent, hhead⟩
      exact head_replaceFirst hpart (fun hd => hc ⟨hpercent, hd⟩) hhead

/-- A mark that is no digit and no part of the placeholder stays where it is. -/
theorem count_replaceFirst {mark : Char} (hmark : mark.isDigit = false) (hhole : mark ∉ hole)
    (hpart : ∀ c ∈ part, c.isDigit = true) :
    (replaceFirst hole part s).count mark = s.count mark := by
  have hnone : part.count mark = 0 := by
    rw [List.count_eq_zero]
    intro hmem
    rw [hpart mark hmem] at hmark
    cases hmark
  by_cases h : 0 < holes s
  · obtain ⟨before, after, hs, hfill⟩ := split_of_hole h
    rw [hfill, hs]
    simp only [List.count_append, hnone, List.count_eq_zero.mpr hhole]
  · rw [replaceFirst_of_no_hole (by omega)]

theorem replaceFirst_ne_nil (hpart : Digits part) (h : s ≠ []) : replaceFirst hole part s ≠ [] := by
  cases s with
  | nil => exact absurd rfl h
  | cons c s =>
    rw [replaceFirst_cons]
    split
    · simp [hpart.1]
    · simp

/-! ## Two numbers in a template -/

/-- A template with two numbers in it. -/
def fill (mask : List Char) (m n : Nat) : List Char :=
  replaceFirst hole (Nat.toDigits 10 n) (replaceFirst hole (Nat.toDigits 10 m) mask)

variable {mask : List Char}

/-- With two placeholders the second number can be read back. -/
theorem fill_injective (h : 2 ≤ holes mask) {m n n' : Nat} (heq : fill mask m n = fill mask m n') :
    n = n' := by
  have hholes := holes_replaceFirst (s := mask) (digits_toDigits m)
  obtain ⟨before, after, _, hfill⟩ :=
    split_of_hole (s := replaceFirst hole (Nat.toDigits 10 m) mask) (by omega)
  unfold fill at heq
  rw [hfill, hfill, List.append_cancel_right_eq, List.append_cancel_left_eq] at heq
  have hread := congrArg (fun ds => Nat.ofDigitChars 10 ds 0) heq
  simpa only [Nat.ofDigitChars_ten_toDigits] using hread

/-- With fewer it is not there. -/
theorem fill_const (h : holes mask < 2) (m n n' : Nat) : fill mask m n = fill mask m n' := by
  have hholes := holes_replaceFirst (s := mask) (digits_toDigits m)
  have hnone : holes (replaceFirst hole (Nat.toDigits 10 m) mask) = 0 := by omega
  unfold fill
  rw [replaceFirst_of_no_hole hnone, replaceFirst_of_no_hole hnone]

theorem count_fill {mark : Char} (hmark : mark.isDigit = false) (hhole : mark ∉ hole) (m n : Nat) :
    (fill mask m n).count mark = mask.count mark := by
  unfold fill
  rw [count_replaceFirst hmark hhole (digits_toDigits n).2,
    count_replaceFirst hmark hhole (digits_toDigits m).2]

theorem fill_eq_nil {m n : Nat} : fill mask m n = [] ↔ mask = [] := by
  constructor
  · intro h
    by_contra hne
    exact replaceFirst_ne_nil (digits_toDigits n) (replaceFirst_ne_nil (digits_toDigits m) hne) h
  · rintro rfl
    rfl

/-! ## Parts between marks -/

/-- Two texts that agree are cut at the same mark. -/
theorem append_cons_inj {mark : Char} {s t s' t' : List Char} (h : s ++ mark :: s' = t ++ mark :: t')
    (hcount : s.count mark = t.count mark) : s = t ∧ s' = t' := by
  induction s generalizing t with
  | nil =>
    cases t with
    | nil =>
      cases h
      exact ⟨rfl, rfl⟩
    | cons c t =>
      obtain ⟨rfl, _⟩ := List.cons.inj h
      rw [List.count_cons_self] at hcount
      cases hcount
  | cons c s ih =>
    cases t with
    | nil =>
      obtain ⟨rfl, _⟩ := List.cons.inj h
      rw [List.count_cons_self] at hcount
      cases hcount
    | cons d t =>
      obtain ⟨rfl, hrest⟩ := List.cons.inj h
      rw [List.count_cons, List.count_cons] at hcount
      obtain ⟨rfl, rfl⟩ := ih hrest (by omega)
      exact ⟨rfl, rfl⟩

end templates
