import Mathlib.Data.List.Basic

/-! # Writes that a power cut may interrupt

A medium changes by single writes.  When power goes in the course of a write, what is left depends
on how far it got (`Medium.torn`); the writes behind it do not happen.  `M.cut ws c s` is what the
writes `ws` leave of `s` when power goes at the point `c`.

`M.Safe I ws s` says that `I` holds wherever power goes, and at the end.  One write is safe if `I`
holds before it, after it and however far it gets (`safe_single`), and an operation made of several
series of writes is if each series is (`safe_append`). -/

namespace PowerCut

/-- How writes change a medium, and what they leave when power goes in their course. -/
structure Medium (ω τ σ : Type*) where
  write : ω → σ → σ
  torn : ω → τ → σ → σ

/-- Where power goes: the number of complete writes, and how far the next one gets. -/
structure Point (τ : Type*) where
  done : ℕ
  under : Option τ

variable {ω τ σ : Type*} (M : Medium ω τ σ)

namespace Medium

/-- A series of writes. -/
def writes (ws : List ω) (s : σ) : σ := ws.foldl (fun s w => M.write w s) s

/-- What the writes leave when power goes. -/
def cut : List ω → Point τ → σ → σ
  | [], _, s => s
  | _ :: _, ⟨0, none⟩, s => s
  | w :: _, ⟨0, some t⟩, s => M.torn w t s
  | w :: ws, ⟨n + 1, t⟩, s => cut ws ⟨n, t⟩ (M.write w s)

/-- The property holds wherever power goes. -/
def Safe (I : σ → Prop) (ws : List ω) (s : σ) : Prop := ∀ c, I (M.cut ws c s)

variable {M} {I J : σ → Prop} {ws vs : List ω} {s : σ}

@[simp] theorem writes_nil : M.writes [] s = s := rfl

@[simp] theorem writes_cons (w : ω) : M.writes (w :: ws) s = M.writes ws (M.write w s) := rfl

theorem writes_append : M.writes (ws ++ vs) s = M.writes vs (M.writes ws s) :=
  List.foldl_append

/-- Power goes in one series of writes or in the one behind it. -/
theorem cut_append (c : Point τ) : ∃ c', M.cut (ws ++ vs) c s = M.cut ws c' s ∨
    M.cut (ws ++ vs) c s = M.cut vs c' (M.writes ws s) := by
  induction ws generalizing s c with
  | nil => exact ⟨c, .inr rfl⟩
  | cons w ws ih =>
      obtain ⟨n, t⟩ := c
      cases n with
      | zero =>
          refine ⟨⟨0, t⟩, .inl ?_⟩
          cases t <;> rfl
      | succ n =>
          obtain ⟨⟨n', t'⟩, h | h⟩ := @ih (M.write w s) ⟨n, t⟩
          · exact ⟨⟨n' + 1, t'⟩, .inl h⟩
          · exact ⟨⟨n', t'⟩, .inr h⟩

theorem Safe.mono (h : M.Safe I ws s) (hi : ∀ t, I t → J t) : M.Safe J ws s :=
  fun c => hi _ (h c)

theorem safe_nil (h : I s) : M.Safe I [] s :=
  fun _ => h

/-- One write: what holds before it, after it, and however far it gets. -/
theorem safe_single {w : ω} (hs : I s) (ht : ∀ t, I (M.torn w t s)) (hw : I (M.write w s)) :
    M.Safe I [w] s
  | ⟨0, none⟩ => hs
  | ⟨0, some t⟩ => ht t
  | ⟨_ + 1, _⟩ => hw

/-- One series of writes behind the other. -/
theorem safe_append (h : M.Safe I ws s) (h' : M.Safe I vs (M.writes ws s)) :
    M.Safe I (ws ++ vs) s := by
  intro c
  obtain ⟨c', e | e⟩ : ∃ c', M.cut (ws ++ vs) c s = M.cut ws c' s ∨
      M.cut (ws ++ vs) c s = M.cut vs c' (M.writes ws s) := cut_append c
  · rw [e]
    exact h c'
  · rw [e]
    exact h' c'

end Medium

end PowerCut
