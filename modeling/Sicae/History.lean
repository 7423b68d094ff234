import Mathlib.Data.List.DropRight

/-! # Counting events since the last reset

`count reset tick es` is the number of `tick` events of the history `es` after its last `reset`
event.  A counter that is cleared by a reset and stops at a limit holds the minimum of that
number and the limit (`counter_eq_min`); a flag raised by the ticks that find the counter at its
limit tells whether some stretch without a reset held more ticks than the limit (`flag_iff`). -/

namespace History

variable {α : Type*} (reset tick : α → Bool)

/-- The events after the last reset. -/
def sinceReset (es : List α) : List α := es.rtakeWhile (fun e => !reset e)

/-- The ticks since the last reset. -/
def count (es : List α) : ℕ := (sinceReset reset es).countP tick

/-- A stretch of the history without a reset holds at least `n` ticks. -/
def Stretch (n : ℕ) (es : List α) : Prop :=
  ∃ mid, mid <:+: es ∧ (∀ e ∈ mid, reset e = false) ∧ n ≤ mid.countP tick

variable {reset tick}

@[simp] theorem sinceReset_nil : sinceReset reset [] = [] := rfl

theorem sinceReset_concat (es : List α) (e : α) :
    sinceReset reset (es ++ [e]) = if reset e then [] else sinceReset reset es ++ [e] := by
  unfold sinceReset
  rw [List.rtakeWhile_concat]
  cases reset e <;> rfl

theorem reset_of_mem_sinceReset {es : List α} {e : α} (h : e ∈ sinceReset reset es) :
    reset e = false := by
  simpa using List.mem_rtakeWhile_imp h

/-- Events without a reset come after the last one. -/
theorem sinceReset_append {mid : List α} (es : List α) (h : ∀ e ∈ mid, reset e = false) :
    sinceReset reset (es ++ mid) = sinceReset reset es ++ mid := by
  induction mid using List.reverseRecOn with
  | nil => simp
  | append_singleton mid e ih =>
      have he : reset e = false := h e (by simp)
      rw [← List.append_assoc, sinceReset_concat, he, if_neg (by simp),
        ih (fun x hx => h x (by simp [hx])), List.append_assoc]

@[simp] theorem count_nil : count reset tick [] = 0 := rfl

theorem count_concat (es : List α) (e : α) :
    count reset tick (es ++ [e]) =
      if reset e then 0 else count reset tick es + if tick e then 1 else 0 := by
  unfold count
  rw [sinceReset_concat]
  split
  · rfl
  · rw [List.countP_append, List.countP_singleton]

theorem count_append {mid : List α} (es : List α) (h : ∀ e ∈ mid, reset e = false) :
    count reset tick (es ++ mid) = count reset tick es + mid.countP tick := by
  unfold count
  rw [sinceReset_append es h, List.countP_append]

/-- The longest stretch is the one since the last reset of some point of the history. -/
theorem stretch_iff {n : ℕ} {es : List α} :
    Stretch reset tick n es ↔ ∃ p, p <+: es ∧ n ≤ count reset tick p := by
  constructor
  · rintro ⟨mid, ⟨pre, suf, rfl⟩, hreset, hn⟩
    refine ⟨pre ++ mid, List.prefix_append _ _, ?_⟩
    rw [count_append pre hreset]
    omega
  · rintro ⟨p, hp, hn⟩
    have hsuffix : sinceReset reset p <:+ p := List.rtakeWhile_suffix _ _
    exact ⟨sinceReset reset p, hsuffix.isInfix.trans hp.isInfix,
      fun e he => reset_of_mem_sinceReset he, hn⟩

theorem stretch_nil {n : ℕ} : ¬ Stretch reset tick (n + 1) [] := by
  rintro ⟨mid, hmid, -, hn⟩
  rw [List.infix_nil.mp hmid, List.countP_nil] at hn
  omega

theorem stretch_concat {n : ℕ} (es : List α) (e : α) :
    Stretch reset tick n (es ++ [e]) ↔
      Stretch reset tick n es ∨ n ≤ count reset tick (es ++ [e]) := by
  rw [stretch_iff, stretch_iff]
  constructor
  · rintro ⟨p, hp, hn⟩
    rcases List.prefix_concat_iff.mp hp with rfl | hp
    · exact .inr hn
    · exact .inl ⟨p, hp, hn⟩
  · rintro (⟨p, hp, hn⟩ | hn)
    · exact ⟨p, hp.trans (List.prefix_append _ _), hn⟩
    · exact ⟨es ++ [e], List.prefix_rfl, hn⟩

/-! ### Machines that count -/

section machine

variable {σ : Type*} {step : σ → α → σ} {counter : σ → ℕ} {n : ℕ} {s : σ}

/-- **A counter that stops at `n` holds the smaller of `n` and the ticks since the last reset.** -/
theorem counter_eq_min
    (hcounter : ∀ s e, counter (step s e) =
      if reset e then 0
      else if tick e ∧ counter s < n then counter s + 1 else counter s)
    (hs : counter s = 0) (es : List α) :
    counter (es.foldl step s) = min (count reset tick es) n := by
  induction es using List.reverseRecOn with
  | nil => simp [hs]
  | append_singleton es e ih =>
      rw [List.foldl_concat, hcounter, ih, count_concat]
      split
      · simp
      · cases tick e with
        | true => simp only [true_and, if_true]; split <;> omega
        | false => simp

/-- **A flag raised by the ticks that find the counter at `n` tells whether more than `n` ticks
occurred without a reset between them.** -/
theorem flag_iff {flag : σ → Prop}
    (hcounter : ∀ s e, counter (step s e) =
      if reset e then 0
      else if tick e ∧ counter s < n then counter s + 1 else counter s)
    (hdisjoint : ∀ e, tick e = true → reset e = false)
    (hflag : ∀ s e, flag (step s e) ↔ flag s ∨ tick e = true ∧ n ≤ counter s)
    (hs : counter s = 0) (hf : ¬ flag s) (es : List α) :
    flag (es.foldl step s) ↔ Stretch reset tick (n + 1) es := by
  induction es using List.reverseRecOn with
  | nil => simp [hf, stretch_nil]
  | append_singleton es e ih =>
      rw [List.foldl_concat, hflag, ih, counter_eq_min hcounter hs, stretch_concat, count_concat]
      cases ht : tick e with
      | true =>
          have hlimit : n ≤ min (count reset tick es) n ↔ n ≤ count reset tick es := by omega
          simp [hdisjoint e ht, hlimit]
      | false =>
          -- a stretch that this event does not lengthen was there before it
          have hold : n + 1 ≤ count reset tick es → Stretch reset tick (n + 1) es :=
            fun h => stretch_iff.mpr ⟨es, List.prefix_rfl, h⟩
          cases hr : reset e with
          | true => simp
          | false => simpa using hold

end machine

end History
