import Mathlib.Data.List.Basic
import Mathlib.Data.Nat.ModEq
import Mathlib.Logic.Function.Basic

/-! # Text written into a ring of cells

A ring has `n` cells, numbered from 0, and a cursor that goes from the last cell to the first.  A
text written from a cursor position on may run around the ring and over itself, so a cell holds the
character that landed on it last (`write_apply`).

`lastAt n p s i` is that character, for the cell `i` and a text `s` written from position `p` on:
`lastAt_eq_none_iff` says when there is none, and `lastAt_of_length_le` which one it is for a text
that does not run around the ring. -/

namespace Ring

variable {α : Type*} (n : ℕ)

/-- The cells after a text is written from a position on. -/
def write (f : ℕ → α) : ℕ → List α → ℕ → α
  | _, [] => f
  | p, c :: s => write (Function.update f (p % n) c) (p + 1) s

/-- The last character of a text that lands on a cell. -/
def lastAt : ℕ → List α → ℕ → Option α
  | _, [], _ => none
  | p, c :: s, i => (lastAt (p + 1) s i).or (if p % n = i then some c else none)

variable {n}

/-- **A cell holds what landed on it last**, or what it held before. -/
theorem write_apply (f : ℕ → α) (p : ℕ) (s : List α) (i : ℕ) :
    write n f p s i = (lastAt n p s i).getD (f i) := by
  induction s generalizing f p with
  | nil => rfl
  | cons c s ih =>
      rw [write, ih, lastAt]
      cases lastAt n (p + 1) s i with
      | some d => rfl
      | none =>
          rw [Option.none_or, Option.getD_none]
          split_ifs with h
          · rw [← h, Function.update_self, Option.getD_some]
          · rw [Function.update_of_ne (Ne.symm h), Option.getD_none]

/-- Nothing lands on a cell exactly if no position of the text is over it. -/
theorem lastAt_eq_none_iff {p : ℕ} {s : List α} {i : ℕ} :
    lastAt n p s i = none ↔ ∀ k < s.length, (p + k) % n ≠ i := by
  induction s generalizing p with
  | nil => exact iff_of_true rfl (fun k hk => absurd hk (Nat.not_lt_zero k))
  | cons c s ih =>
      rw [lastAt, Option.or_eq_none_iff, ih, List.length_cons]
      constructor
      · rintro ⟨hrest, hfirst⟩ k hk
        cases k with
        | zero =>
            intro he
            rw [if_pos (by simpa using he)] at hfirst
            cases hfirst
        | succ k =>
            rw [show p + (k + 1) = p + 1 + k by omega]
            exact hrest k (by omega)
      · intro h
        constructor
        · intro k hk
          rw [show p + 1 + k = p + (k + 1) by omega]
          exact h (k + 1) (by omega)
        · exact if_neg (by simpa using h 0 (by omega))

/-- What lands on a cell is a character of the text at a position over it. -/
theorem exists_of_lastAt {p : ℕ} {s : List α} {i : ℕ} {c : α} (h : lastAt n p s i = some c) :
    ∃ k, s[k]? = some c ∧ (p + k) % n = i := by
  induction s generalizing p with
  | nil => cases h
  | cons d s ih =>
      rw [lastAt, Option.or_eq_some_iff] at h
      rcases h with h | ⟨-, h⟩
      · obtain ⟨k, hk, hi⟩ := ih h
        exact ⟨k + 1, hk, by rw [← hi]; congr 1; omega⟩
      · split_ifs at h with hp
        exact ⟨0, h, hp⟩

/-- Where nothing lands, the text has no position over the cell. -/
theorem getElem?_eq_none_of_lastAt {p k : ℕ} {s : List α}
    (h : lastAt n p s ((p + k) % n) = none) : s[k]? = none := by
  rw [List.getElem?_eq_none_iff]
  by_contra hlt
  exact lastAt_eq_none_iff.mp h k (by omega) rfl

/-- Where something lands, the text reaches that far. -/
theorem lt_length_of_lastAt {p k : ℕ} {s : List α} {c : α}
    (h : lastAt n p s (p + k) = some c) : k < s.length := by
  obtain ⟨j, hj, he⟩ := exists_of_lastAt h
  have hlt := (List.getElem?_eq_some_iff.mp hj).1
  have hle := Nat.mod_le (p + j) n
  omega

/-- A text that does not run around the ring lands on the cell at most once. -/
theorem lastAt_of_length_le {p k : ℕ} {s : List α} (hs : s.length ≤ n) (hk : k < n) :
    lastAt n p s ((p + k) % n) = s[k]? := by
  cases h : lastAt n p s ((p + k) % n) with
  | none => exact (getElem?_eq_none_of_lastAt h).symm
  | some c =>
      obtain ⟨j, hj, he⟩ := exists_of_lastAt h
      have hjlt : j < s.length := (List.getElem?_eq_some_iff.mp hj).1
      have hjk : j % n = k % n := Nat.ModEq.add_left_cancel' p he
      rw [Nat.mod_eq_of_lt (by omega), Nat.mod_eq_of_lt hk] at hjk
      rw [← hjk, hj]

end Ring
