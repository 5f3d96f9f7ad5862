-- Numbers in names: digits padded with zeros, numbers read back from digits,
-- and the parts of a name before and after a mark.
import Mathlib.Algebra.GroupWithZero.Nat
import Mathlib.Data.List.Basic
import Mathlib.Data.List.TakeWhile

namespace texts

/-- Texts are compared by their characters. -/
instance lawfulText : LawfulBEq (List Char) := inferInstance

/-! ## Digits -/

/-- The digits of a number, padded with zeros to a width. -/
def padded (base width n : Nat) : List Char :=
  List.replicate (width - (Nat.toDigits base n).length) '0' ++ Nat.toDigits base n

/-- `parse::<u64>`: a plus sign may come first, and the number has to fit. -/
def parse_u64 (s : List Char) : Option Nat :=
  let digits := if s.head? = some '+' then s.tail else s
  if digits.isEmpty || !digits.all Char.isDigit then none
  else if Nat.ofDigitChars 10 digits 0 < 2 ^ 64 then some (Nat.ofDigitChars 10 digits 0)
  else none

theorem padded_digits {width n : Nat} {c : Char} (h : c ∈ padded 10 width n) :
    c.isDigit = true := by
  unfold padded at h
  rcases List.mem_append.mp h with h | h
  · rw [(List.mem_replicate.mp h).2]
    rfl
  · exact Nat.isDigit_of_mem_toDigits (by decide) (by decide) h

theorem padded_ne_nil {base width n : Nat} : padded base width n ≠ [] := by
  unfold padded
  simp

theorem ofDigitChars_padded (width n : Nat) : Nat.ofDigitChars 10 (padded 10 width n) 0 = n := by
  unfold padded
  rw [Nat.ofDigitChars_append, Nat.ofDigitChars_replicate_zero, Nat.mul_zero,
    Nat.ofDigitChars_ten_toDigits]

theorem padded_injective {width m n : Nat} (h : padded 10 width m = padded 10 width n) : m = n := by
  rw [← ofDigitChars_padded width m, h, ofDigitChars_padded]

/-- A number that was written is read back. -/
theorem parse_padded {width n : Nat} (h : n < 2 ^ 64) : parse_u64 (padded 10 width n) = some n := by
  have hplus : (padded 10 width n).head? ≠ some '+' := by
    intro hp
    have := padded_digits (List.mem_of_mem_head? hp)
    cases this
  have hall : (padded 10 width n).all Char.isDigit = true :=
    List.all_eq_true.mpr fun c hc => padded_digits hc
  unfold parse_u64
  simp only [if_neg hplus, hall, ofDigitChars_padded, if_pos h]
  simp [padded_ne_nil]

/-- A mark that is no digit does not stand in a number. -/
theorem not_mem_padded {width n : Nat} {c : Char} (hc : c.isDigit = false) :
    c ∉ padded 10 width n := by
  intro h
  rw [padded_digits h] at hc
  cases hc

/-! ## Prefixes and suffixes -/

def strip_prefix (p s : List Char) : Option (List Char) :=
  if p.isPrefixOf s then some (s.drop p.length) else none

def strip_suffix (p s : List Char) : Option (List Char) :=
  ( strip_prefix p.reverse s.reverse).map List.reverse

theorem strip_prefix_append (p s : List Char) : strip_prefix p (p ++ s) = some s := by
  unfold strip_prefix
  rw [if_pos (List.isPrefixOf_iff_prefix.mpr (List.prefix_append p s)), List.drop_left]

theorem eq_of_strip_prefix {p s t : List Char} (h : strip_prefix p s = some t) : s = p ++ t := by
  unfold strip_prefix at h
  split at h
  · rename_i hprefix
    obtain ⟨rest, rfl⟩ := List.isPrefixOf_iff_prefix.mp hprefix
    rw [List.drop_left] at h
    rw [Option.some.inj h]
  · cases h

theorem strip_suffix_append (p s : List Char) : strip_suffix p (s ++ p) = some s := by
  unfold strip_suffix
  rw [List.reverse_append, strip_prefix_append, Option.map_some, List.reverse_reverse]

/-- The part after the last mark, or all of it. -/
def lastPart (mark : Char) (s : List Char) : List Char :=
  (s.reverse.takeWhile fun c => decide (c ≠ mark)).reverse

/-- What has no mark goes on the last part. -/
theorem lastPart_append_right {mark : Char} {s t : List Char} (h : mark ∉ t) :
    lastPart mark (s ++ t) = lastPart mark s ++ t := by
  have ht : t.reverse.takeWhile (fun c => decide (c ≠ mark)) = t.reverse := by
    refine List.takeWhile_eq_self_iff.mpr fun c hc => ?_
    rw [List.mem_reverse] at hc
    exact decide_eq_true fun hm => h (hm ▸ hc)
  unfold lastPart
  rw [List.reverse_append, List.takeWhile_append, ht, if_pos rfl, List.reverse_append,
    List.reverse_reverse]

/-- What stands before a mark is not in the last part. -/
theorem lastPart_append_mark (mark : Char) (s t : List Char) :
    lastPart mark (s ++ mark :: t) = lastPart mark t := by
  unfold lastPart
  rw [List.reverse_append, List.reverse_cons, List.append_assoc, List.takeWhile_append]
  split
  · rename_i hall
    rw [List.singleton_append, List.takeWhile_cons_of_neg (by simp), List.append_nil]
    rw [(List.takeWhile_prefix _).eq_of_length hall]
  · rfl

theorem lastPart_append {mark : Char} {s t : List Char} (h : mark ∉ t) :
    lastPart mark (s ++ mark :: t) = t := by
  rw [lastPart_append_mark]
  exact lastPart_append_right (s := []) h

theorem lastPart_eq_nil {mark : Char} {s : List Char} :
    lastPart mark s = [] ↔ s = [] ∨ s.getLast? = some mark := by
  unfold lastPart
  rw [List.reverse_eq_nil_iff, List.getLast?_eq_head?_reverse]
  cases hs : s.reverse with
  | nil => simpa using hs
  | cons c t =>
    have hne : s ≠ [] := by
      rintro rfl
      cases hs
    by_cases hc : c = mark
    · simp [hc]
    · simp [hc, hne]

theorem lastPart_append_ends {mark : Char} {s : List Char} (h : s.getLast? = some mark)
    (t : List Char) : lastPart mark (s ++ t) = lastPart mark t := by
  obtain ⟨s', rfl⟩ := List.getLast?_eq_some_iff.mp h
  rw [List.append_assoc]
  exact lastPart_append_mark mark s' t

theorem mark_not_mem_lastPart (mark : Char) (s : List Char) : mark ∉ lastPart mark s := by
  unfold lastPart
  rw [List.mem_reverse]
  intro h
  have := List.mem_takeWhile_imp h
  simp at this

/-- What stands before the last part, with the mark. -/
def throughLast (mark : Char) (s : List Char) : List Char :=
  (s.reverse.dropWhile fun c => decide (c ≠ mark)).reverse

theorem throughLast_append_lastPart (mark : Char) (s : List Char) :
    throughLast mark s ++ lastPart mark s = s := by
  unfold throughLast lastPart
  rw [← List.reverse_append, List.takeWhile_append_dropWhile, List.reverse_reverse]

theorem mem_lastPart {mark c : Char} {s : List Char} (h : c ∈ lastPart mark s) : c ∈ s := by
  rw [← throughLast_append_lastPart mark s]
  exact List.mem_append_right _ h

theorem throughLast_prefix_self (mark : Char) (s : List Char) : throughLast mark s <+: s :=
  ⟨_, throughLast_append_lastPart mark s⟩

theorem throughLast_append_ends {mark : Char} {s : List Char} (h : s.getLast? = some mark)
    (t : List Char) : throughLast mark (s ++ t) = s ++ throughLast mark t := by
  have heq : throughLast mark (s ++ t) ++ lastPart mark t =
      s ++ throughLast mark t ++ lastPart mark t := by
    rw [List.append_assoc, throughLast_append_lastPart, ← lastPart_append_ends h t,
      throughLast_append_lastPart]
  exact List.append_cancel_right heq

/-- Put one part for the first `pattern`. -/
def replaceFirst (pattern part : List Char) : List Char → List Char
  | [] => if pattern.isEmpty then part else []
  | c :: s =>
    if pattern.isPrefixOf (c :: s) then part ++ (c :: s).drop pattern.length
    else c :: replaceFirst pattern part s

/-- Put one part for each `pattern`, after the rest of one that was just replaced. -/
def replaceAfter (pattern part : List Char) : Nat → List Char → List Char
  | _, [] => []
  | n + 1, _ :: s => replaceAfter pattern part n s
  | 0, c :: s =>
    if pattern.isPrefixOf (c :: s) then part ++ replaceAfter pattern part (pattern.length - 1) s
    else c :: replaceAfter pattern part 0 s

def replaceAll (pattern part s : List Char) : List Char := replaceAfter pattern part 0 s

/-- What stands before the first `pattern`. -/
def beforeFirst (pattern : List Char) : List Char → Option (List Char)
  | [] => if pattern.isEmpty then some [] else none
  | c :: s =>
    if pattern.isPrefixOf (c :: s) then some [] else (beforeFirst pattern s).map (c :: ·)

def contains (pattern s : List Char) : Bool := (beforeFirst pattern s).isSome

theorem eq_of_beforeFirst {pattern before s : List Char}
    (h : beforeFirst pattern s = some before) : ∃ rest, s = before ++ pattern ++ rest := by
  induction s generalizing before with
  | nil =>
    unfold beforeFirst at h
    split at h
    · rename_i hempty
      cases h
      exact ⟨[], by rw [List.isEmpty_iff.mp hempty]; rfl⟩
    · cases h
  | cons c s ih =>
    unfold beforeFirst at h
    split at h
    · rename_i hpattern
      cases h
      obtain ⟨rest, hrest⟩ := List.isPrefixOf_iff_prefix.mp hpattern
      exact ⟨rest, hrest.symm⟩
    · obtain ⟨before', hbefore, rfl⟩ := Option.map_eq_some_iff.mp h
      obtain ⟨rest, hrest⟩ := ih hbefore
      exact ⟨rest, by rw [hrest]; rfl⟩

theorem beforeFirst_mark {mark : Char} {s : List Char} (h : mark ∉ s) (t : List Char) :
    beforeFirst [mark] (s ++ mark :: t) = some s := by
  induction s with
  | nil => simp [beforeFirst]
  | cons c s ih =>
    rw [List.mem_cons, not_or] at h
    rw [List.cons_append, beforeFirst, ih h.2]
    simp [h.1]

theorem beforeFirst_no_mark {mark : Char} {s : List Char} (h : mark ∉ s) :
    beforeFirst [mark] s = none := by
  induction s with
  | nil => rfl
  | cons c s ih =>
    rw [List.mem_cons, not_or] at h
    rw [beforeFirst, ih h.2]
    simp [h.1]

/-- The first `pattern` of a text is the first one of a longer text. -/
theorem beforeFirst_append {pattern before s : List Char}
    (h : beforeFirst pattern s = some before) (t : List Char) :
    beforeFirst pattern (s ++ t) = some before := by
  induction s generalizing before with
  | nil =>
    unfold beforeFirst at h
    split at h
    · rename_i hempty
      cases h
      rw [List.isEmpty_iff.mp hempty, List.nil_append]
      cases t <;> rfl
    · cases h
  | cons c s ih =>
    unfold beforeFirst at h
    rw [List.cons_append]
    unfold beforeFirst
    split at h
    · rename_i hpattern
      cases h
      rw [if_pos]
      exact List.isPrefixOf_iff_prefix.mpr
        ((List.isPrefixOf_iff_prefix.mp hpattern).trans (List.prefix_append (c :: s) t))
    · rename_i hpattern
      obtain ⟨before', hbefore, rfl⟩ := Option.map_eq_some_iff.mp h
      rw [if_neg, ih hbefore]
      · rfl
      · intro hlonger
        obtain ⟨rest, rfl⟩ := eq_of_beforeFirst hbefore
        apply hpattern
        apply List.isPrefixOf_iff_prefix.mpr
        exact List.prefix_of_prefix_length_le (List.isPrefixOf_iff_prefix.mp hlonger)
          (List.prefix_append (c :: (before' ++ pattern ++ rest)) t) (by simp; omega)

/-- Where the first `pattern` ends, it is still the first one. -/
theorem beforeFirst_through {pattern before s : List Char}
    (h : beforeFirst pattern s = some before) :
    beforeFirst pattern (before ++ pattern) = some before := by
  induction s generalizing before with
  | nil =>
    unfold beforeFirst at h
    split at h
    · rename_i hempty
      cases h
      rw [List.isEmpty_iff.mp hempty]
      rfl
    · cases h
  | cons c s ih =>
    unfold beforeFirst at h
    split at h
    · cases h
      cases pattern with
      | nil => rfl
      | cons d pattern => simp [beforeFirst]
    · rename_i hpattern
      obtain ⟨before', hbefore, rfl⟩ := Option.map_eq_some_iff.mp h
      obtain ⟨rest, rfl⟩ := eq_of_beforeFirst hbefore
      rw [List.cons_append, beforeFirst, if_neg, ih hbefore]
      · rfl
      · intro hfirst
        apply hpattern
        rw [List.isPrefixOf_iff_prefix] at hfirst ⊢
        exact hfirst.trans (List.prefix_append (c :: (before' ++ pattern)) rest)

/-! ## Texts that part -/

section Apart

variable {α : Type*} {r s t : List α}

/-- Neither text goes on from the other. -/
def Apart (s t : List α) : Prop := ¬s <+: t ∧ ¬t <+: s

theorem Apart.symm (h : Apart s t) : Apart t s := And.symm h

theorem apart_self : ¬Apart s s := fun h => h.1 List.prefix_rfl

/-- Texts that part have no common way on. -/
theorem exists_common_iff : (∃ u v, s ++ u = t ++ v) ↔ ¬Apart s t := by
  constructor
  · rintro ⟨u, v, h⟩ hapart
    rcases List.prefix_or_prefix_of_prefix ⟨u, h⟩ (List.prefix_append t v) with hs | ht
    · exact hapart.1 hs
    · exact hapart.2 ht
  · intro h
    rcases not_and_or.mp h with h | h
    · obtain ⟨u, hu⟩ := not_not.mp h
      exact ⟨u, [], by rw [hu, List.append_nil]⟩
    · obtain ⟨v, hv⟩ := not_not.mp h
      exact ⟨[], v, by rw [hv, List.append_nil]⟩

theorem Apart.append (h : Apart s t) (u v : List α) : Apart (s ++ u) (t ++ v) := by
  refine ⟨fun ⟨w, hw⟩ => ?_, fun ⟨w, hw⟩ => ?_⟩
  · rw [List.append_assoc] at hw
    exact exists_common_iff.mp ⟨_, _, hw⟩ h
  · rw [List.append_assoc] at hw
    exact exists_common_iff.mp ⟨_, _, hw⟩ h.symm

theorem Apart.mono {s' t' : List α} (h : Apart s t) (hs : s <+: s') (ht : t <+: t') :
    Apart s' t' := by
  obtain ⟨u, rfl⟩ := hs
  obtain ⟨v, rfl⟩ := ht
  exact h.append u v

theorem apart_append_left : Apart (r ++ s) (r ++ t) ↔ Apart s t := by
  unfold Apart
  rw [List.prefix_append_right_inj, List.prefix_append_right_inj]

theorem Apart.left_ne_nil (h : Apart s t) : s ≠ [] := by
  rintro rfl
  exact h.1 List.nil_prefix

end Apart

end texts
