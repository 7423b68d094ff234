import Sicae.NvsRuns

/-! # The page as a memory

If the values are stored under names with different hashes, and each name with one type (`Schema`),
the runs of the device are those of a `Memory`: every value read is the last one that was stored
under the name (`runs_memory`).  What it holds of one namespace is an `Nvs`, and the calls are
`nvsSet` and `nvsGetU8` (`runs_namespace`). -/

namespace Sicae

open CString PowerCut Simulation

namespace NvsPage

/-! ### The memory -/

/-- A value under its name. -/
def Content.update (m : Content) (s : Stored) : Content := fun nsIndex key =>
  if s.Named nsIndex key then some s.value else m nsIndex key

/-- The values of the device, without power those that the next start finds; and the number of
entries that are used at most. -/
inductive Memory where
  | off (m : Content) (used : ℕ)
  | on (m : Content) (used : ℕ)

/-- A step of the memory.  A call that is cut short has been done or has not. -/
inductive Memory.Step : Memory → Event → Memory → Prop
  | start {m n} : Step (.off m n) .start (.on m n)
  | startCut {m n c} : Step (.off m n) (.startCut c) (.off m n)
  | set {m n s} : Step (.on m n) (.set s .ok) (.on (m.update s.stored) (n + m.cost s.stored))
  | setFails {m n s r} : r ≠ .ok → m.Refuses n s.stored → Step (.on m n) (.set s r) (.on m n)
  | cutBefore {m n s c} : Step (.on m n) (.setCut s c) (.off m (n + m.cost s.stored))
  | cutAfter {m n s c} :
      Step (.on m n) (.setCut s c) (.off (m.update s.stored) (n + m.cost s.stored))
  | get {m n nsIndex datatype key} :
      Step (.on m n) (.get nsIndex datatype key
        ((m nsIndex key).filter fun v => v.datatype = datatype)) (.on m n)
  | off {m n} : Step (.on m n) .off (.off m n)

/-- Names with their types.  No two of them have one hash. -/
structure Schema where
  type : ℕ → CStr → Option ItemType
  inj : ∀ {n k n' k'}, (type n k).isSome → (type n' k').isSome → hash24 n k = hash24 n' k' →
    n = n' ∧ k = k'

/-- The value is of the type of its name. -/
def Schema.Admits (S : Schema) (s : Stored) : Prop :=
  S.type s.nsIndex (keyField s.key) = some s.value.datatype

/-- Items of a schema with different names. -/
structure Tidy (S : Schema) (l : List Stored) : Prop where
  apart : l.Pairwise Stored.Apart
  admits : ∀ s ∈ l, S.Admits s
  terminated : ∀ s ∈ l, s.value.Terminated

section
variable {S : Schema} {s t : Stored} {l A B : List Stored}

theorem Schema.Admits.named (hs : S.Admits s) (ht : S.Admits t) (h : s.hash = t.hash) :
    s.Named t.nsIndex t.key := by
  have hsome : ∀ {u : Stored}, S.Admits u → (S.type u.nsIndex (keyField u.key)).isSome := by
    intro u hu
    rw [hu]
    rfl
  refine S.inj (hsome hs) (hsome ht) ?_
  have hhash : ∀ u : Stored, hash24 u.nsIndex (keyField u.key) = u.hash := fun u => u.hash_header
  rw [hhash, hhash, h]

theorem Schema.Admits.datatype_eq (hs : S.Admits s) (ht : S.Admits t)
    (h : s.Named t.nsIndex t.key) : s.value.datatype = t.value.datatype := by
  rw [Schema.Admits, h.1, h.2, ht] at hs
  exact (Option.some.inj hs).symm

/-- Items with the same name are found under the same names. -/
theorem Stored.Named.congr (h : s.Named t.nsIndex t.key) (nsIndex : ℕ) (key : CStr) :
    s.Named nsIndex key ↔ t.Named nsIndex key := by
  unfold Stored.Named
  rw [h.1, h.2]

theorem ItemValue.Terminated.read {v : ItemValue} (h : v.Terminated) : v.read = v := by
  cases v with
  | u8 v => rfl
  | sz s => exact congrArg ItemValue.sz (cstr_eq_self_iff.mpr h)

theorem Tidy.survivors_eq (h : Tidy S l) : survivors l = l := survivors_of_pairwise h.apart

/-- The item that storing a value replaces, if there is one. -/
theorem Tidy.split (h : Tidy S l) (hs : S.Admits s) :
    ((∀ u ∈ l, ¬ u.Named s.nsIndex s.key) ∧ store l s = l ++ [s]) ∨
    ∃ A t B, l = A ++ t :: B ∧ t.Named s.nsIndex s.key ∧
      (∀ u ∈ A ++ B, ¬ u.Named s.nsIndex s.key) ∧
      store l s = if t.value = s.value then l else A ++ B ++ [s] := by
  rw [store]
  cases hfind : l.find? fun u => u.Named s.nsIndex s.key with
  | none =>
      refine .inl ⟨fun u hu => ?_, rfl⟩
      simpa using List.find?_eq_none.mp hfind u hu
  | some t =>
      obtain ⟨ht, A, B, rfl, hA⟩ := List.find?_eq_some_iff_append.mp hfind
      have hnamed : t.Named s.nsIndex s.key := of_decide_eq_true ht
      have hA' : ∀ u ∈ A, ¬ u.Named s.nsIndex s.key := by simpa using hA
      have htype := (h.admits t (by simp)).datatype_eq hs hnamed
      refine .inr ⟨A, t, B, rfl, hnamed, fun u hu hn => ?_, ?_⟩
      · rcases List.mem_append.mp hu with hu | hu
        · exact hA' u hu hn
        · have := (List.pairwise_cons.mp (List.pairwise_append.mp h.apart).2.1).1 u hu
          exact this (hnamed.hash_eq.trans hn.hash_eq.symm)
      · dsimp only
        rw [if_pos htype, eraseP_named hnamed hA']

/-- An item with a new name. -/
theorem Tidy.append (h : Tidy S l) (hs : S.Admits s) (hterm : s.value.Terminated)
    (hnone : ∀ u ∈ l, ¬ u.Named s.nsIndex s.key) : Tidy S (l ++ [s]) where
  apart := by
    refine List.pairwise_append.mpr ⟨h.apart, List.pairwise_singleton _ _, fun u hu v hv hhash => ?_⟩
    obtain rfl := List.mem_singleton.mp hv
    exact hnone u hu ((h.admits u hu).named hs hhash)
  admits := by simpa [or_imp, forall_and] using ⟨h.admits, hs⟩
  terminated := by simpa [or_imp, forall_and] using ⟨h.terminated, hterm⟩

/-- Items without one of them. -/
theorem Tidy.erase (h : Tidy S (A ++ t :: B)) : Tidy S (A ++ B) := by
  refine ⟨?_, fun u hu => h.admits u ?_, fun u hu => h.terminated u ?_⟩
  · exact (List.pairwise_cons.mp ((List.pairwise_middle Stored.Apart.symm).mp h.apart)).2
  all_goals
    rw [List.mem_append] at hu ⊢
    exact hu.imp_right (List.mem_cons_of_mem t)

/-- Storing an admitted value keeps the names apart. -/
theorem Tidy.stored (h : Tidy S l) (hs : S.Admits s) (hterm : s.value.Terminated) :
    Tidy S (store l s) := by
  obtain ⟨hnone, hstore⟩ | ⟨A, t, B, rfl, -, hnone, hstore⟩ := h.split hs
  · rw [hstore]
    exact h.append hs hterm hnone
  · rw [hstore]
    split_ifs with hsame
    · exact h
    · exact h.erase.append hs hterm hnone

end

/-- A value as `nvs_get_u8` and `nvs_get_str` tell them apart. -/
def ItemValue.toNvs : ItemValue → NvsValue
  | .u8 v => .u8 v
  | .sz s => .str s

theorem Content.length_lt {m : Content} {nsIndex : ℕ} (key : CStr)
    (h : (if key.length < 16 then (m nsIndex key).map ItemValue.toNvs else none).isSome) :
    key.length < 16 := by
  by_contra hlt
  rw [if_neg hlt] at h
  cases h

/-- The content of a namespace. -/
def Content.nvs (m : Content) (nsIndex : ℕ) : Nvs :=
  ⟨fun key => if key.length < 16 then (m nsIndex key).map ItemValue.toNvs else none,
    Content.length_lt⟩

/-- A value of the type asked for is read exactly if it is the one of the namespace. -/
theorem filter_eq_some_iff {value : Option ItemValue} {v : ItemValue} :
    value.filter (fun w => w.datatype = v.datatype) = some v ↔
      value.map ItemValue.toNvs = some v.toNvs := by
  cases value with
  | none => simp
  | some w => cases w <;> cases v <;> simp [Option.filter, ItemValue.datatype, ItemValue.toNvs]

/-- The content of the device. -/
def Memory.content : Memory → Content
  | .off m _ => m
  | .on m _ => m

end NvsPage

end Sicae
