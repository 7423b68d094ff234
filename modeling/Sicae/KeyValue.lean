import Mathlib.Data.List.Nodup

/-! # Writes to a key-value store that may fail

A store is a partial function from keys to values.  `write ok f p` stores the pair `p` when the
write of its key succeeds, and leaves the store alone otherwise; `writeAll` does so for a list of
pairs.  For pairs with different keys, `writeAll_of_mem` and `writeAll_of_not_mem` say what is
stored afterwards, `writeAll_eq_self_iff` when nothing has changed, and `allOrNothing_iff` when no
part of the list alone took effect. -/

namespace KeyValue

variable {κ ν : Type*} [DecidableEq κ] (ok : κ → Prop) [DecidablePred ok]

/-- One write. -/
def write (f : κ → Option ν) (p : κ × ν) : κ → Option ν :=
  if ok p.1 then Function.update f p.1 (some p.2) else f

/-- The writes of a list, in order. -/
def writeAll (f : κ → Option ν) (ps : List (κ × ν)) : κ → Option ν := ps.foldl (write ok) f

variable {ok} {f : κ → Option ν} {ps : List (κ × ν)} {p : κ × ν} {k : κ}

theorem write_self : write ok f p p.1 = if ok p.1 then some p.2 else f p.1 := by
  unfold write
  split_ifs
  · exact Function.update_self ..
  · rfl

theorem write_of_ne (h : k ≠ p.1) : write ok f p k = f k := by
  unfold write
  split_ifs
  · exact Function.update_of_ne h ..
  · rfl

/-- A key that is not written keeps its value. -/
theorem writeAll_of_not_mem (h : k ∉ ps.map Prod.fst) : writeAll ok f ps k = f k := by
  induction ps generalizing f with
  | nil => rfl
  | cons q ps ih =>
      rw [List.map_cons] at h
      obtain ⟨hne, h'⟩ := List.ne_and_not_mem_of_not_mem_cons h
      rw [writeAll, List.foldl_cons, ← writeAll, ih h', write_of_ne hne]

/-- A key that is written once has the new value if the write succeeds. -/
theorem writeAll_of_mem (hnd : (ps.map Prod.fst).Nodup) (hp : p ∈ ps) :
    writeAll ok f ps p.1 = if ok p.1 then some p.2 else f p.1 := by
  induction ps generalizing f with
  | nil => exact absurd hp List.not_mem_nil
  | cons q ps ih =>
      rw [List.map_cons, List.nodup_cons] at hnd
      rw [writeAll, List.foldl_cons, ← writeAll]
      rcases List.mem_cons.mp hp with rfl | hp'
      · rw [writeAll_of_not_mem hnd.1, write_self]
      · have hne : p.1 ≠ q.1 := fun e => hnd.1 (e ▸ List.mem_map_of_mem hp')
        rw [ih hnd.2 hp', write_of_ne hne]

/-- The store is unchanged exactly if each successful write stored what was there before. -/
theorem writeAll_eq_self_iff (hnd : (ps.map Prod.fst).Nodup) :
    writeAll ok f ps = f ↔ ∀ p ∈ ps, ok p.1 → f p.1 = some p.2 := by
  constructor
  · intro h p hp hok
    rw [← h, writeAll_of_mem hnd hp, if_pos hok]
  · intro h
    funext k
    by_cases hk : k ∈ ps.map Prod.fst
    · obtain ⟨p, hp, rfl⟩ := List.mem_map.mp hk
      rw [writeAll_of_mem hnd hp]
      split_ifs with hok
      · exact (h p hp hok).symm
      · rfl
    · exact writeAll_of_not_mem hk

/-- The keys of a list have all kept their values, or all have the new ones. -/
def AllOrNothing (f f' : κ → Option ν) (ps : List (κ × ν)) : Prop :=
  (∀ p ∈ ps, f' p.1 = f p.1) ∨ ∀ p ∈ ps, f' p.1 = some p.2

omit [DecidableEq κ] in
theorem AllOrNothing.refl (f : κ → Option ν) (ps : List (κ × ν)) : AllOrNothing f f ps :=
  .inl fun _ _ => rfl

/-- The writes take effect together exactly if those that succeed store what was there, or those
that fail were to store what was there. -/
theorem allOrNothing_iff (hnd : (ps.map Prod.fst).Nodup) :
    AllOrNothing f (writeAll ok f ps) ps ↔
      (∀ p ∈ ps, ok p.1 → f p.1 = some p.2) ∨ ∀ p ∈ ps, ¬ ok p.1 → f p.1 = some p.2 := by
  apply or_congr
  · apply forall₂_congr
    intro p hp
    rw [writeAll_of_mem hnd hp]
    split_ifs with hok
    · simp [hok, eq_comm]
    · simp [hok]
  · apply forall₂_congr
    intro p hp
    rw [writeAll_of_mem hnd hp]
    split_ifs with hok
    · simp [hok]
    · simp [hok]

end KeyValue
