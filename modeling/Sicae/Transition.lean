import Mathlib.Data.List.Basic

/-! # Runs of a transition system

A system is a partial step function `step : σ → α → Option σ`: `step s a = none` when the
action `a` is not enabled in `s`.  `run step s as` is the state after the actions `as`.

* `AllSteps step P s as`: `P` holds of every step taken by the run, as a relation between
  the state before the step and the action;
* `AllStates step I s as`: `I` holds of every state the run passes through.

`run_invariant` and `allStates_of_invariant` are the induction rules for runs whose steps meet
a guard; `allStates_iff_allSteps` and `allSteps_congr` turn a step lemma that says exactly when a
property is kept, or holds of the step, into the same statement about whole runs.  Where a bad
step shows only later, `allSteps_iff_of_doomed` follows the states it leads to up to the end; where
what a step owes can still be made good, `no_debt_iff` looks for the later step that does. -/

namespace Transition

variable {σ α : Type*} (step : σ → α → Option σ)

/-- The state after a list of actions, `none` if one of them is not enabled. -/
def run : σ → List α → Option σ
  | s, [] => some s
  | s, a :: as => (step s a).bind (fun s' => run s' as)

/-- Every step of the run satisfies `P`. -/
def AllSteps (P : σ → α → Prop) : σ → List α → Prop
  | _, [] => True
  | s, a :: as => P s a ∧ ∀ s', step s a = some s' → AllSteps P s' as

/-- Every state of the run satisfies `I`, the first and the last included. -/
def AllStates (I : σ → Prop) : σ → List α → Prop
  | s, [] => I s
  | s, a :: as => I s ∧ ∀ s', step s a = some s' → AllStates I s' as

/-- `t` is reached from `s` by some run. -/
def Reaches (s t : σ) : Prop := ∃ as, run step s as = some t

variable {step}

theorem run_cons_some {s t : σ} {a : α} {as : List α} :
    run step s (a :: as) = some t ↔ ∃ s', step s a = some s' ∧ run step s' as = some t :=
  Option.bind_eq_some_iff

theorem run_append {s : σ} {as bs : List α} :
    run step s (as ++ bs) = (run step s as).bind (fun t => run step t bs) := by
  induction as generalizing s with
  | nil => rfl
  | cons a as ih =>
      rw [List.cons_append, run, run, Option.bind_assoc]
      exact congrArg _ (funext fun s' => ih)

/-- A system whose actions are always enabled runs to the end. -/
theorem run_of_total {f : σ → α → σ} {s : σ} {as : List α} :
    run (fun s a => some (f s a)) s as = some (as.foldl f s) := by
  induction as generalizing s with
  | nil => rfl
  | cons a as ih => exact ih

/-- A fact about the successor of an enabled step. -/
theorem forall_step_iff {s s' : σ} {a : α} (h : step s a = some s') {Q : σ → Prop} :
    (∀ s'', step s a = some s'' → Q s'') ↔ Q s' := by
  rw [h]
  exact ⟨fun hq => hq s' rfl, fun hq s'' e => Option.some.inj e ▸ hq⟩

/-- The steps of a run that goes on after `t` are those up to `t` and those from there. -/
theorem allSteps_append {P : σ → α → Prop} : ∀ {as bs : List α} {s t : σ},
    run step s as = some t →
      (AllSteps step P s (as ++ bs) ↔ AllSteps step P s as ∧ AllSteps step P t bs)
  | [], bs, s, t, hr => by
      obtain rfl := Option.some.inj hr
      rw [List.nil_append, AllSteps, true_and]
  | a :: as, bs, s, t, hr => by
      obtain ⟨s', h1, h2⟩ := run_cons_some.mp hr
      rw [List.cons_append, AllSteps, AllSteps, forall_step_iff h1, forall_step_iff h1,
        allSteps_append h2, and_assoc]

instance decidableAllSteps {P : σ → α → Prop} [∀ s a, Decidable (P s a)] :
    ∀ (s : σ) (as : List α), Decidable (AllSteps step P s as)
  | _, [] => isTrue trivial
  | s, a :: as =>
      match h : step s a with
      | none => decidable_of_iff (P s a) (by simp [AllSteps, h])
      | some s' =>
          have := decidableAllSteps (P := P) s' as
          decidable_of_iff (P s a ∧ AllSteps step P s' as) (by rw [AllSteps, forall_step_iff h])

instance decidableAllStates {I : σ → Prop} [∀ s, Decidable (I s)] :
    ∀ (s : σ) (as : List α), Decidable (AllStates step I s as)
  | s, [] => inferInstanceAs (Decidable (I s))
  | s, a :: as =>
      match h : step s a with
      | none => decidable_of_iff (I s) (by simp [AllStates, h])
      | some s' =>
          have := decidableAllStates (I := I) s' as
          decidable_of_iff (I s ∧ AllStates step I s' as) (by rw [AllStates, forall_step_iff h])

/-- A property of the actions of a run holds of its steps. -/
theorem AllSteps.of_forall {P : σ → α → Prop} : ∀ {as : List α} {s : σ},
    (∀ a ∈ as, ∀ s, P s a) → AllSteps step P s as
  | [], _, _ => trivial
  | a :: _, s, h =>
      ⟨h a List.mem_cons_self s, fun _ _ => .of_forall (fun b hb => h b (List.mem_cons_of_mem _ hb))⟩

/-- An invariant kept by every step that meets the guard holds at the end of a guarded run. -/
theorem run_invariant {I : σ → Prop} {ok : σ → α → Prop}
    (hstep : ∀ s a s', I s → ok s a → step s a = some s' → I s') :
    ∀ {as : List α} {s t : σ}, I s → AllSteps step ok s as → run step s as = some t → I t
  | [], s, t, hs, _, hr => by
      obtain rfl := Option.some.inj hr
      exact hs
  | a :: as, s, t, hs, ho, hr => by
      obtain ⟨s', h1, h2⟩ := run_cons_some.mp hr
      exact run_invariant hstep (hstep s a s' hs ho.1 h1) (ho.2 s' h1) h2

/-- An invariant kept by every step holds of every reachable state. -/
theorem reaches_invariant {I : σ → Prop} (hstep : ∀ s a s', I s → step s a = some s' → I s')
    {s t : σ} (hs : I s) (h : Reaches step s t) : I t := by
  obtain ⟨as, hr⟩ := h
  induction as generalizing s with
  | nil =>
      obtain rfl := Option.some.inj hr
      exact hs
  | cons a as ih =>
      obtain ⟨s', h1, h2⟩ := run_cons_some.mp hr
      exact ih (hstep s a s' hs h1) h2

/-- What an invariant implies about a state holds of every state of a guarded run. -/
theorem allStates_of_invariant {I P : σ → Prop} {ok : σ → α → Prop}
    (hstep : ∀ s a s', I s → ok s a → step s a = some s' → I s') (hP : ∀ s, I s → P s) :
    ∀ {as : List α} {s : σ}, I s → AllSteps step ok s as → AllStates step P s as
  | [], s, hs, _ => hP s hs
  | a :: _, s, hs, ho =>
      ⟨hP s hs, fun s' h => allStates_of_invariant hstep hP (hstep s a s' hs ho.1 h) (ho.2 s' h)⟩

theorem AllStates.last {I : σ → Prop} : ∀ {as : List α} {s t : σ}, AllStates step I s as →
    run step s as = some t → I t
  | [], s, t, h, hr => by
      obtain rfl := Option.some.inj hr
      exact h
  | a :: as, s, t, h, hr => by
      obtain ⟨s', h1, h2⟩ := run_cons_some.mp hr
      exact AllStates.last (h.2 s' h1) h2

/-- Two properties of a step that are the same under an invariant are the same along a run, as
long as its steps meet the guard that keeps the invariant. -/
theorem allSteps_congr {I : σ → Prop} {ok P Q : σ → α → Prop}
    (hstep : ∀ s a s', I s → ok s a → step s a = some s' → I s')
    (hiff : ∀ s a, I s → ok s a → (P s a ↔ Q s a)) :
    ∀ {as : List α} {s : σ}, I s → AllSteps step ok s as →
      (AllSteps step P s as ↔ AllSteps step Q s as)
  | [], _, _, _ => Iff.rfl
  | a :: _, s, hs, ho =>
      and_congr (hiff s a hs ho.1) (forall₂_congr fun s' h =>
        allSteps_congr hstep hiff (hstep s a s' hs ho.1 h) (ho.2 s' h))

/-- The same where one of the two properties itself keeps the invariant. -/
theorem allSteps_congr_of_kept {I : σ → Prop} {P Q : σ → α → Prop}
    (hiff : ∀ s a, I s → (P s a ↔ Q s a))
    (hstep : ∀ s a s', I s → P s a → step s a = some s' → I s') :
    ∀ {as : List α} {s : σ}, I s → (AllSteps step P s as ↔ AllSteps step Q s as)
  | [], _, _ => Iff.rfl
  | a :: as, s, hs => by
      rw [AllSteps, AllSteps, ← hiff s a hs]
      exact and_congr_right fun hp => forall₂_congr fun s' h =>
        allSteps_congr_of_kept hiff hstep (hstep s a s' hs hp h)

/-- If a step from a state with `J` and `I` keeps `J`, and keeps `I` exactly when it meets the
guard, then a run from such a state stays in `I` exactly when all its steps meet it. -/
theorem allStates_iff_allSteps {I J : σ → Prop} {ok : σ → α → Prop}
    (hstep : ∀ s a s', J s → I s → step s a = some s' → J s' ∧ (I s' ↔ ok s a)) :
    ∀ {as : List α} {s t : σ}, J s → I s → run step s as = some t →
      (AllStates step I s as ↔ AllSteps step ok s as)
  | [], s, t, _, hI, _ => by simp [AllStates, AllSteps, hI]
  | a :: as, s, t, hj, hI, hr => by
      obtain ⟨s', h1, h2⟩ := run_cons_some.mp hr
      obtain ⟨hj', hk⟩ := hstep s a s' hj hI h1
      rw [AllStates, AllSteps, forall_step_iff h1, forall_step_iff h1, and_iff_right hI]
      constructor
      · intro hs
        have hI' : I s' := by
          cases as with
          | nil => exact hs
          | cons b bs => exact hs.1
        exact ⟨hk.mp hI', (allStates_iff_allSteps hstep hj' hI' h2).mp hs⟩
      · rintro ⟨ho, hs⟩
        exact (allStates_iff_allSteps hstep hj' (hk.mpr ho) h2).mpr hs

/-- What the guarded steps from an invariant state satisfy holds of all steps of a guarded run. -/
theorem allSteps_of_guarded {I : σ → Prop} {P ok : σ → α → Prop}
    (hgood : ∀ s a s', I s → ok s a → step s a = some s' → P s a ∧ I s') :
    ∀ {as : List α} {s t : σ}, I s → run step s as = some t → AllSteps step ok s as →
      AllSteps step P s as
  | [], _, _, _, _, _ => trivial
  | a :: as, s, t, hs, hr, ho => by
      obtain ⟨s', h1, h2⟩ := run_cons_some.mp hr
      rw [AllSteps, forall_step_iff h1] at ho ⊢
      obtain ⟨hp, hs'⟩ := hgood s a s' hs ho.1 h1
      exact ⟨hp, allSteps_of_guarded hgood hs' h2 ho.2⟩

/-- If a step off the guard leads into a region that is only left by a step without `P`, then in
a run that ends outside that region all steps have `P` exactly when all meet the guard. -/
theorem allSteps_iff_of_doomed {I D : σ → Prop} {P ok : σ → α → Prop}
    (hgood : ∀ s a s', I s → ok s a → step s a = some s' → P s a ∧ I s')
    (hbad : ∀ s a s', I s → ¬ ok s a → P s a → step s a = some s' → D s')
    (hdoom : ∀ s a s', D s → P s a → step s a = some s' → D s')
    {as : List α} {s t : σ} (hs : I s) (hr : run step s as = some t) (ht : ¬ D t) :
    AllSteps step P s as ↔ AllSteps step ok s as := by
  refine ⟨fun hps => ?_, allSteps_of_guarded hgood hs hr⟩
  induction as generalizing s with
  | nil => trivial
  | cons a as ih =>
      obtain ⟨s', h1, h2⟩ := run_cons_some.mp hr
      rw [AllSteps, forall_step_iff h1] at hps ⊢
      have ho : ok s a := by
        by_contra hno
        exact ht (run_invariant hdoom (hbad s a s' hs hno hps.1 h1) hps.2 h2)
      exact ⟨ho, ih (hgood s a s' hs ho h1).2 h2 hps.2⟩

/-! ### Debts -/

/-- Some step of the run satisfies `P`. -/
def Later (step : σ → α → Option σ) (P : σ → α → Prop) : σ → List α → Prop
  | _, [] => False
  | s, a :: as => P s a ∨ ∃ s', step s a = some s' ∧ Later step P s' as

/-- Every step that incurs a debt is followed by one that pays it. -/
def AllPaid {ι : Type*} (step : σ → α → Option σ) (incurs pays : σ → α → ι → Prop) :
    σ → List α → Prop
  | _, [] => True
  | s, a :: as => ∀ s', step s a = some s' →
      (∀ i, incurs s a i → Later step (fun s a => pays s a i) s' as) ∧
        AllPaid step incurs pays s' as

/-- If a step pays and incurs debts, then a run ends without one exactly if those it starts with
are paid, and those its steps incur are paid later. -/
theorem no_debt_iff {ι : Type*} {I : σ → Prop} {debt : σ → ι → Prop}
    {incurs pays : σ → α → ι → Prop}
    (hstep : ∀ s a s', I s → step s a = some s' →
      I s' ∧ ∀ i, debt s' i ↔ debt s i ∧ ¬ pays s a i ∨ incurs s a i) :
    ∀ {as : List α} {s t : σ}, I s → run step s as = some t →
      ((∀ i, ¬ debt t i) ↔
        (∀ i, debt s i → Later step (fun s a => pays s a i) s as) ∧ AllPaid step incurs pays s as)
  | [], s, t, _, hr => by
      obtain rfl := Option.some.inj hr
      simp [Later, AllPaid]
  | a :: as, s, t, hs, hr => by
      obtain ⟨s', h1, h2⟩ := run_cons_some.mp hr
      obtain ⟨hs', hdebt⟩ := hstep s a s' hs h1
      have hlater : ∀ i, Later step (fun s a => pays s a i) s (a :: as) ↔
          pays s a i ∨ Later step (fun s a => pays s a i) s' as := by
        intro i
        simp [Later, h1]
      rw [no_debt_iff hstep hs' h2, AllPaid, forall_step_iff h1]
      constructor
      · rintro ⟨hpaid, hrest⟩
        refine ⟨fun i hi => (hlater i).mpr ?_, fun i hi => hpaid i ((hdebt i).mpr (.inr hi)), hrest⟩
        by_cases hnow : pays s a i
        · exact .inl hnow
        · exact .inr (hpaid i ((hdebt i).mpr (.inl ⟨hi, hnow⟩)))
      · rintro ⟨hold, hnew, hrest⟩
        refine ⟨fun i hi => ?_, hrest⟩
        rcases (hdebt i).mp hi with ⟨hd, hnot⟩ | hinc
        · exact ((hlater i).mp (hold i hd)).resolve_left hnot
        · exact hnew i hinc

/-- Where all actions are enabled and a property of a step depends on the action alone, as long
as it held so far, it holds along a run exactly if every action has it. -/
theorem allSteps_iff_forall {I : σ → Prop} {P : σ → α → Prop} {Q : α → Prop}
    (hiff : ∀ s a, I s → (P s a ↔ Q a)) (hen : ∀ s a, I s → P s a → ∃ s', step s a = some s' ∧ I s') :
    ∀ {as : List α} {s : σ}, I s → (AllSteps step P s as ↔ ∀ a ∈ as, Q a)
  | [], s, _ => by simp [AllSteps]
  | a :: as, s, hs => by
      rw [AllSteps, List.forall_mem_cons, hiff s a hs]
      refine and_congr_right fun hq => ?_
      obtain ⟨s', h1, hs'⟩ := hen s a hs ((hiff s a hs).mpr hq)
      rw [← allSteps_iff_forall hiff hen hs', forall_step_iff h1]

end Transition
