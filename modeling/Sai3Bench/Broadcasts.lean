-- A broadcast channel that keeps the newest messages for a receiver that
-- has not read them: a receiver that falls behind loses the oldest ones.
import Mathlib.Data.List.Basic

namespace broadcasts

variable {α : Type*} {cap : Nat}

/-- One receiver of a channel that keeps `cap` messages: the messages that
it has not read, oldest first, and how many it has lost. -/
structure Receiver (α : Type*) (cap : Nat) where
  pending : List α
  missed : Nat
  fits : pending.length ≤ cap
deriving DecidableEq

/-- What one `recv` gives. -/
inductive Recv (α : Type*)
  | Empty
  | Lagged (n : Nat)
  | Value (x : α)

namespace Receiver

/-- A new receiver sees only what is sent after it subscribed. -/
def subscribe : Receiver α cap := ⟨[], 0, by simp⟩

/-- One message arrives. A full receiver loses its oldest message. -/
def push (r : Receiver α cap) (x : α) : Receiver α cap :=
  ⟨(r.pending ++ [x]).drop (r.pending.length + 1 - cap),
    r.missed + (r.pending.length + 1 - cap),
    by have := r.fits; simp; omega⟩

/-- A lagged receiver hears of its loss first, and then reads in order. -/
def recv (r : Receiver α cap) : Recv α × Receiver α cap :=
  if 0 < r.missed then (.Lagged r.missed, { r with missed := 0 })
  else match h : r.pending with
    | [] => (.Empty, r)
    | x :: rest => (.Value x, ⟨rest, 0, by have := r.fits; simp [h] at this; omega⟩)

/-- Nothing to read: the next `recv` waits. -/
def isEmpty (r : Receiver α cap) : Bool := r.pending.isEmpty && r.missed == 0

@[simp] theorem subscribe_pending : (subscribe : Receiver α cap).pending = [] := rfl

theorem mem_push {r : Receiver α cap} {x y : α} (h : y ∈ (r.push x).pending) :
    y ∈ r.pending ∨ y = x := by
  have := List.mem_of_mem_drop h
  simpa using this

/-- A message with fewer than `cap` messages behind it is not lost: at most
the messages before it are. -/
theorem push_keeps {r : Receiver α cap} {front back : List α} {x y : α}
    (h : r.pending = front ++ x :: back) (hb : back.length + 1 < cap) :
    ∃ front', (r.push y).pending = front' ++ x :: (back ++ [y]) ∧
      front'.length ≤ front.length := by
  have hfits := r.fits
  rw [h] at hfits
  simp only [List.length_append, List.length_cons] at hfits
  refine ⟨front.drop (r.pending.length + 1 - cap), ?_, by simp⟩
  have hle : r.pending.length + 1 - cap ≤ front.length := by
    rw [h]; simp only [List.length_append, List.length_cons]; omega
  simp only [push]
  rw [h] at hle ⊢
  rw [List.append_assoc, List.drop_append_of_le_length hle]
  rfl

/-- A new message is there, with nothing behind it. -/
theorem push_pending_last (r : Receiver α cap) (x : α) (hcap : 0 < cap) :
    ∃ front, (r.push x).pending = front ++ [x] ∧ front.length < cap := by
  have hfits := r.fits
  refine ⟨r.pending.drop (r.pending.length + 1 - cap), ?_, by simp; omega⟩
  simp only [push]
  rw [List.drop_append_of_le_length (by omega)]

/-- A receiver with room keeps all, a full one loses its oldest message. -/
theorem push_cases (r : Receiver α cap) (x : α) (hcap : 0 < cap) :
    (r.pending.length < cap ∧ (r.push x).pending = r.pending ++ [x]) ∨
      ∃ y rest, r.pending.length = cap ∧ r.pending = y :: rest ∧
        (r.push x).pending = rest ++ [x] := by
  have hfits := r.fits
  rcases Nat.lt_or_ge r.pending.length cap with hroom | hfull
  · refine .inl ⟨hroom, ?_⟩
    simp [push, Nat.sub_eq_zero_of_le hroom]
  · have hlen : r.pending.length = cap := by omega
    cases hp : r.pending with
    | nil =>
      rw [hp] at hlen
      exact absurd hlen (by simp; omega)
    | cons y rest =>
      rw [hp] at hlen
      refine .inr ⟨y, rest, hlen, rfl, ?_⟩
      have hone : (y :: rest).length + 1 - cap = 1 := by omega
      simp only [push, hp, hone]
      rfl

/-- After many messages, the newest `cap` of all are there. -/
theorem pushes_pending (r : Receiver α cap) (xs : List α) :
    (xs.foldl push r).pending = (r.pending ++ xs).drop (r.pending.length + xs.length - cap) := by
  induction xs generalizing r with
  | nil =>
    have := r.fits
    simp [Nat.sub_eq_zero_of_le this]
  | cons x xs ih =>
    have hfits := r.fits
    have hlen : (r.push x).pending.length = r.pending.length + 1 - (r.pending.length + 1 - cap) := by
      simp [push]
    rw [List.foldl_cons, ih, hlen, List.length_cons]
    simp only [push]
    rw [← List.drop_append_of_le_length (by simp), List.append_assoc, List.drop_drop]
    congr 1
    omega

/-- As many messages as the channel keeps push out all that was there. -/
theorem mem_pushes {r : Receiver α cap} {xs : List α} {y : α} (hlen : cap ≤ xs.length)
    (h : y ∈ (xs.foldl push r).pending) : y ∈ xs := by
  rw [pushes_pending, List.drop_append] at h
  have hnil : r.pending.drop (r.pending.length + xs.length - cap) = [] := by
    rw [List.drop_eq_nil_iff]; omega
  rw [hnil, List.nil_append] at h
  exact List.mem_of_mem_drop h

/-- How many reads a receiver has before it blocks. -/
def unread (r : Receiver α cap) : Nat := r.pending.length + if 0 < r.missed then 1 else 0

theorem unread_le (r : Receiver α cap) : r.unread ≤ cap + 1 := by
  have := r.fits
  unfold unread
  split <;> omega

/-- A read blocks, tells of a loss, or takes the oldest message. -/
theorem recv_cases (r : Receiver α cap) :
    (r.pending = [] ∧ r.recv = (.Empty, r)) ∨
    (∃ n rx, r.recv = (.Lagged n, rx) ∧ rx.pending = r.pending ∧ rx.unread + 1 = r.unread) ∨
    ∃ x rx, r.recv = (.Value x, rx) ∧ r.pending = x :: rx.pending ∧ rx.unread + 1 = r.unread := by
  by_cases hm : 0 < r.missed
  · exact .inr (.inl ⟨r.missed, { r with missed := 0 }, by simp [recv, hm], rfl,
      by simp [unread, hm]⟩)
  · unfold recv
    rw [if_neg hm]
    split
    · rename_i hp
      exact .inl ⟨hp, rfl⟩
    · rename_i x rest hp
      exact .inr (.inr ⟨x, _, rfl, hp, by simp [unread, hm, hp]⟩)

@[simp] theorem isEmpty_iff {r : Receiver α cap} :
    r.isEmpty = true ↔ r.pending = [] ∧ r.missed = 0 := by
  simp [isEmpty, List.isEmpty_iff]

end Receiver

end broadcasts
