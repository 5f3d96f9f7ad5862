-- Machines that take one event at a time, and the rules for their runs:
-- what one step keeps, a whole run keeps.
import Mathlib.Data.List.Basic
import Mathlib.Data.List.Range

namespace machines

variable {σ ε β : Type*}

/-- A machine takes one event at a time. `none` says that the event cannot
happen in that state. -/
structure Machine (σ ε : Type*) where
  step : σ → ε → Option σ

namespace Machine

/-- The state after a list of events, oldest first. -/
def run (m : Machine σ ε) : σ → List ε → Option σ
  | s, [] => some s
  | s, e :: es => (m.step s e).bind (m.run · es)

/-- Each step of the run, with the state before it, meets `P`. -/
def Along (m : Machine σ ε) (P : σ → ε → Prop) : σ → List ε → Prop
  | _, [] => True
  | s, e :: es => P s e ∧ ∀ t, m.step s e = some t → m.Along P t es

/-- What the steps of a run put on a log, oldest first. -/
def log (m : Machine σ ε) (f : σ → ε → σ → Option β) : σ → List ε → List β
  | _, [] => []
  | s, e :: es =>
    match m.step s e with
    | none => []
    | some t => (f s e t).toList ++ m.log f t es

variable {m : Machine σ ε} {P Q : σ → ε → Prop} {s t u : σ} {e : ε} {es fs : List ε}

@[simp] theorem run_nil : m.run s [] = some s := rfl

theorem run_cons_iff : m.run s (e :: es) = some u ↔ ∃ t, m.step s e = some t ∧ m.run t es = some u := by
  simp [run, Option.bind_eq_some_iff]

theorem run_append_iff :
    m.run s (es ++ fs) = some u ↔ ∃ t, m.run s es = some t ∧ m.run t fs = some u := by
  induction es generalizing s with
  | nil => simp
  | cons e es ih =>
    simp only [List.cons_append, run_cons_iff, ih]
    constructor
    · rintro ⟨t, ht, v, hv, hu⟩
      exact ⟨v, ⟨t, ht, hv⟩, hu⟩
    · rintro ⟨v, ⟨t, ht, hv⟩, hu⟩
      exact ⟨t, ht, v, hv, hu⟩

theorem run_snoc_iff :
    m.run s (es ++ [e]) = some u ↔ ∃ t, m.run s es = some t ∧ m.step t e = some u := by
  rw [run_append_iff]
  simp [run_cons_iff]

/-! ## Steps that all meet a condition -/

@[simp] theorem along_nil : m.Along P s [] := trivial

theorem along_append (h : m.run s es = some t) :
    m.Along P s (es ++ fs) ↔ m.Along P s es ∧ m.Along P t fs := by
  induction es generalizing s with
  | nil => simp_all
  | cons e es ih =>
    obtain ⟨v, hv, ht⟩ := run_cons_iff.mp h
    simp only [List.cons_append, Along, hv, Option.some.injEq, forall_eq']
    rw [ih ht, and_assoc]

theorem along_snoc (h : m.run s es = some t) :
    m.Along P s (es ++ [e]) ↔ m.Along P s es ∧ P t e := by
  rw [along_append h]
  simp [Along]

theorem Along.mono (h : m.Along P s es) (hPQ : ∀ s e, P s e → Q s e) : m.Along Q s es := by
  induction es generalizing s with
  | nil => trivial
  | cons e es ih => exact ⟨hPQ _ _ h.1, fun t ht => ih (h.2 t ht)⟩

theorem along_of_mem (h : ∀ e ∈ es, ∀ s, P s e) : m.Along P s es := by
  induction es generalizing s with
  | nil => trivial
  | cons e es ih =>
    exact ⟨h e (by simp) s, fun t _ => ih (fun f hf => h f (List.mem_cons_of_mem _ hf))⟩

/-- `Along` for a condition that can be evaluated. -/
def check (m : Machine σ ε) (p : σ → ε → Bool) : σ → List ε → Bool
  | _, [] => true
  | s, e :: es => p s e && match m.step s e with
    | none => true
    | some t => m.check p t es

theorem along_of_check {p : σ → ε → Bool} (hp : ∀ s e, p s e = true → P s e)
    (h : m.check p s es = true) : m.Along P s es := by
  induction es generalizing s with
  | nil => trivial
  | cons e es ih =>
    simp only [check, Bool.and_eq_true] at h
    refine ⟨hp s e h.1, fun t ht => ih ?_⟩
    simpa [ht] using h.2

/-! ## Invariants -/

/-- Two conditions that agree on each step agree on a run. -/
theorem along_congr {I : σ → Prop} (hstep : ∀ s e t, I s → m.step s e = some t → I t)
    (hiff : ∀ s e t, I s → m.step s e = some t → (P s e ↔ Q s e)) (hI : I s)
    (h : m.run s es = some t) : m.Along P s es ↔ m.Along Q s es := by
  induction es generalizing s with
  | nil => exact Iff.rfl
  | cons e es ih =>
    obtain ⟨v, hv, ht⟩ := run_cons_iff.mp h
    simp only [Along, hv, Option.some.injEq, forall_eq']
    rw [hiff s e v hI hv, ih (hstep s e v hI hv) ht]

/-- What one step keeps, a whole run keeps. -/
theorem run_keeps {I : σ → Prop} (hstep : ∀ s e t, I s → P s e → m.step s e = some t → I t)
    (hI : I s) (hA : m.Along P s es) (h : m.run s es = some t) : I t := by
  induction es generalizing s with
  | nil => cases h; exact hI
  | cons e es ih =>
    obtain ⟨v, hv, ht⟩ := run_cons_iff.mp h
    exact ih (hstep s e v hI hA.1 hv) (hA.2 v hv) ht

theorem run_always {I : σ → Prop} (hstep : ∀ s e t, I s → m.step s e = some t → I t)
    (hI : I s) (h : m.run s es = some t) : I t :=
  run_keeps (P := fun _ _ => True) (fun s e t hs _ ht => hstep s e t hs ht) hI
    (along_of_mem fun _ _ _ => trivial) h

/-- The same for an invariant that also reads the events so far. -/
theorem run_remembers {I : List ε → σ → Prop}
    (hstep : ∀ es t e u, m.run s es = some t → I es t → P t e → m.step t e = some u →
      I (es ++ [e]) u)
    (h0 : I [] s) (hA : m.Along P s es) (h : m.run s es = some t) : I es t := by
  induction es using List.reverseRecOn generalizing t with
  | nil => cases h; exact h0
  | append_singleton es e ih =>
    obtain ⟨v, hv, ht⟩ := run_snoc_iff.mp h
    obtain ⟨hA1, hA2⟩ := (along_snoc hv).mp hA
    exact hstep es v e t hv (ih hA1 hv) hA2 ht

/-! ## Conditions that read the events so far -/

/-- Each step of the run, with the events and the state before it, meets `P`. -/
def AlongWith (m : Machine σ ε) (P : List ε → σ → ε → Prop) (s : σ) (es : List ε) : Prop :=
  ∀ pre e post t, es = pre ++ e :: post → m.run s pre = some t → P pre t e

section AlongWith

variable {R : List ε → σ → ε → Prop}

@[simp] theorem alongWith_nil : m.AlongWith R s [] := by
  intro pre e post t h
  simp at h

theorem alongWith_snoc (h : m.run s es = some t) :
    m.AlongWith R s (es ++ [e]) ↔ m.AlongWith R s es ∧ R es t e := by
  constructor
  · intro hA
    refine ⟨fun pre d post v hes hv => hA pre d (post ++ [e]) v (by simp [hes]) hv, ?_⟩
    exact hA es e [] t rfl h
  · rintro ⟨hA, hR⟩ pre d post v hes hv
    rcases List.eq_nil_or_concat post with rfl | ⟨post', x, rfl⟩
    · obtain ⟨rfl, hd⟩ := List.append_inj' hes rfl
      cases hd
      rw [h] at hv
      cases hv
      exact hR
    · rw [List.concat_eq_append, ← List.cons_append, ← List.append_assoc] at hes
      exact hA pre d post' v (List.append_inj' hes rfl).1 hv

/-- Some step of the run, with the state before it, meets `P`. -/
def Sometime (m : Machine σ ε) (P : σ → ε → Prop) (s : σ) (es : List ε) : Prop :=
  ∃ pre e post t, es = pre ++ e :: post ∧ m.run s pre = some t ∧ P t e

@[simp] theorem sometime_nil : ¬ m.Sometime P s [] := by
  rintro ⟨pre, e, post, t, h, _⟩
  simp at h

theorem sometime_snoc (h : m.run s es = some t) :
    m.Sometime P s (es ++ [e]) ↔ m.Sometime P s es ∨ P t e := by
  constructor
  · rintro ⟨pre, d, post, v, hes, hv, hP⟩
    rcases List.eq_nil_or_concat post with rfl | ⟨post', x, rfl⟩
    · obtain ⟨rfl, hd⟩ := List.append_inj' hes rfl
      cases hd
      rw [h] at hv
      cases hv
      exact .inr hP
    · rw [List.concat_eq_append, ← List.cons_append, ← List.append_assoc] at hes
      exact .inl ⟨pre, d, post', v, (List.append_inj' hes rfl).1, hv, hP⟩
  · rintro (⟨pre, d, post, v, rfl, hv, hP⟩ | hP)
    · exact ⟨pre, d, post ++ [e], v, by simp, hv, hP⟩
    · exact ⟨es, e, [], t, rfl, h, hP⟩

/-- What one step keeps, a whole run keeps. -/
theorem run_recalls {I : List ε → σ → Prop}
    (hstep : ∀ es t e u, m.run s es = some t → I es t → R es t e → m.step t e = some u →
      I (es ++ [e]) u)
    (h0 : I [] s) (hA : m.AlongWith R s es) (h : m.run s es = some t) : I es t := by
  induction es using List.reverseRecOn generalizing t with
  | nil => cases h; exact h0
  | append_singleton es e ih =>
    obtain ⟨v, hv, ht⟩ := run_snoc_iff.mp h
    obtain ⟨hA1, hA2⟩ := (alongWith_snoc hv).mp hA
    exact hstep es v e t hv (ih hA1 hv) hA2 ht

end AlongWith

/-! ## Logs -/

theorem log_append {f : σ → ε → σ → Option β} (h : m.run s es = some t) :
    m.log f s (es ++ fs) = m.log f s es ++ m.log f t fs := by
  induction es generalizing s with
  | nil => cases h; rfl
  | cons d es ih =>
    obtain ⟨v, hv, ht⟩ := run_cons_iff.mp h
    simp only [List.cons_append, log, hv, ih ht, List.append_assoc]

theorem log_snoc {f : σ → ε → σ → Option β} (h : m.run s es = some t)
    (hu : m.step t e = some u) :
    m.log f s (es ++ [e]) = m.log f s es ++ (f t e u).toList := by
  rw [log_append h]
  simp [log, hu]

/-- A log is empty when no step puts anything on it. -/
theorem log_eq_nil_iff {f : σ → ε → σ → Option β} :
    m.log f s es = [] ↔ m.Along (fun s e => ∀ t, m.step s e = some t → f s e t = none) s es := by
  induction es generalizing s with
  | nil => simp [log]
  | cons e es ih =>
    unfold log Along
    cases hs : m.step s e with
    | none => simp
    | some t => simp [ih, Option.toList_eq_nil_iff]

/-- What stands on a log was put there by one of the events. -/
theorem exists_of_mem_log {f : σ → ε → σ → Option β} {x : β} (h : x ∈ m.log f s es) :
    ∃ e ∈ es, ∃ t u, f t e u = some x := by
  induction es generalizing s with
  | nil => cases h
  | cons e es ih =>
    unfold log at h
    split at h
    · cases h
    · rename_i t _
      rcases List.mem_append.mp h with h | h
      · exact ⟨e, List.mem_cons_self, s, t, Option.mem_toList.mp h⟩
      · obtain ⟨e', he', hx⟩ := ih h
        exact ⟨e', List.mem_cons_of_mem _ he', hx⟩

end Machine

end machines
