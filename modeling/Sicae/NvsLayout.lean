import Mathlib.Data.List.Pairwise
import Mathlib.Data.List.Range
import Sicae.NvsPage

/-! # What lies on a page

The entries of a page are grouped into segments: erased entries, complete items, and items of which
not all entries have the state written, because their writing or their erasing was cut short.
Behind the last segment the page is blank, up to an entry that may have been programmed without its
state (`Layout`).

Erasing an item turns its segment into erased ones; whatever is left of it when power goes in its
course is an incomplete item (`Layout.eraseItem`, `Layout.breakItem`). -/

namespace Sicae

open CString PowerCut

namespace NvsPage

/-! ### Ranges of the table -/

@[simp] theorem EntryState.program_erased (s : EntryState) : s.program .erased = .erased := by
  cases s <;> rfl

@[simp] theorem EntryState.empty_program (s : EntryState) : EntryState.empty.program s = s := rfl

@[simp] theorem setStates_entry (f : Flash) (lo hi : ℕ) (s : EntryState) :
    (f.setStates lo hi s).entry = f.entry := rfl

theorem setStates_state (f : Flash) (lo hi : ℕ) (s : EntryState) (k : ℕ) :
    (f.setStates lo hi s).state k =
      if lo ≤ k ∧ k < hi then (f.state k).program s else f.state k := rfl

theorem setStates_of_le {f : Flash} {lo hi : ℕ} {s : EntryState} (h : hi ≤ lo) :
    f.setStates lo hi s = f := by
  have hstate : (f.setStates lo hi s).state = f.state := by
    funext k
    rw [setStates_state, if_neg (by omega)]
  cases f
  simp only [Flash.setStates] at hstate ⊢
  rw [hstate]

/-- Two ranges one behind the other. -/
theorem setStates_setStates {f : Flash} {lo m hi : ℕ} {s : EntryState} (h : lo ≤ m) (h' : m ≤ hi) :
    (f.setStates m hi s).setStates lo m s = f.setStates lo hi s := by
  have hstate : ((f.setStates m hi s).setStates lo m s).state = (f.setStates lo hi s).state := by
    funext k
    simp only [setStates_state]
    by_cases hk : k < m
    · by_cases hlo : lo ≤ k
      · rw [if_pos ⟨hlo, hk⟩, if_neg (by omega), if_pos ⟨hlo, by omega⟩]
      · rw [if_neg (by omega), if_neg (by omega), if_neg (by omega)]
    · rw [if_neg (by omega)]
      by_cases hhi : k < hi
      · rw [if_pos ⟨by omega, hhi⟩, if_pos ⟨by omega, hhi⟩]
      · rw [if_neg (by omega), if_neg (by omega)]
  simp only [Flash.setStates] at hstate ⊢
  rw [hstate]

/-- The words of a range written one after the other. -/
theorem writes_rangeWrites (f : Flash) (lo hi : ℕ) (s : EntryState) (w : ℕ) :
    flashMedium.writes (rangeWrites lo hi s w) f = f.setStates lo (min hi (16 * w)) s := by
  induction w generalizing f with
  | zero => exact (setStates_of_le (by omega)).symm
  | succ w ih =>
      rw [rangeWrites]
      split_ifs with h
      · rw [Medium.writes_cons, ih]
        show (f.setStates _ _ s).setStates lo (min hi (16 * w)) s = _
        by_cases hw : lo ≤ 16 * w
        · have h1 : max lo (16 * w) = 16 * w := by omega
          have h2 : min hi (16 * w) = 16 * w := by omega
          have h3 : min hi (16 * w + 16) = min hi (16 * (w + 1)) := by omega
          rw [h1, h2, h3]
          exact setStates_setStates hw (by omega)
        · have h1 : max lo (16 * w) = lo := by omega
          have h3 : min hi (16 * w + 16) = min hi (16 * (w + 1)) := by omega
          rw [h1, h3]
          exact setStates_of_le (by omega)
      · rw [ih]
        by_cases hw : hi ≤ 16 * w
        · have h1 : min hi (16 * w) = min hi (16 * (w + 1)) := by omega
          rw [h1]
        · rw [setStates_of_le (by omega), setStates_of_le (by omega)]

/-- When power goes in their course, the upper part of the range has changed. -/
theorem cut_rangeWrites (f : Flash) (lo hi : ℕ) (s : EntryState) (w : ℕ) (c : Point Torn) :
    ∃ m, lo ≤ m ∧ flashMedium.cut (rangeWrites lo hi s w) c f =
      f.setStates m (min hi (16 * w)) s := by
  induction w generalizing f c with
  | zero => exact ⟨lo, le_rfl, (setStates_of_le (by omega)).symm⟩
  | succ w ih =>
      rw [rangeWrites]
      split_ifs with h
      · have hunchanged : ∃ m, lo ≤ m ∧ f = f.setStates m (min hi (16 * (w + 1))) s :=
          ⟨max lo hi, by omega, (setStates_of_le (by omega)).symm⟩
        obtain ⟨n, t⟩ := c
        cases n with
        | zero =>
            cases t with
            | none => exact hunchanged
            | some t => exact hunchanged
        | succ n =>
            obtain ⟨m, hm, he⟩ := ih (f.setStates (max lo (16 * w)) (min hi (16 * w + 16)) s) ⟨n, t⟩
            have h3 : min hi (16 * w + 16) = min hi (16 * (w + 1)) := by omega
            show ∃ m, lo ≤ m ∧ flashMedium.cut (rangeWrites lo hi s w) ⟨n, t⟩
              (f.setStates (max lo (16 * w)) (min hi (16 * w + 16)) s) = _
            rw [he, h3]
            by_cases hw : m < 16 * w
            · have h1 : max lo (16 * w) = 16 * w := by omega
              have h2 : min hi (16 * w) = 16 * w := by omega
              refine ⟨m, hm, ?_⟩
              rw [h1, h2]
              exact setStates_setStates (by omega) (by omega)
            · refine ⟨max lo (16 * w), by omega, ?_⟩
              exact setStates_of_le (by omega)
      · obtain ⟨m, hm, he⟩ := ih f c
        rw [he]
        by_cases hw : hi ≤ 16 * w
        · have h1 : min hi (16 * w) = min hi (16 * (w + 1)) := by omega
          rw [h1]
          exact ⟨m, hm, rfl⟩
        · refine ⟨m, hm, ?_⟩
          rw [setStates_of_le (by omega), setStates_of_le (by omega)]

/-- Writes of the table that set the states from `lo` up to `hi`, from the upper end on. -/
def Programs (ws : List FlashWrite) (lo hi : ℕ) (s : EntryState) : Prop :=
  ∀ f, flashMedium.writes ws f = f.setStates lo hi s ∧
    ∀ c, ∃ m, lo ≤ m ∧ flashMedium.cut ws c f = f.setStates m hi s

/-- `alterEntryState`. -/
theorem programs_single (i : ℕ) (s : EntryState) : Programs [.states i (i + 1) s] i (i + 1) s := by
  intro f
  refine ⟨rfl, fun c => ?_⟩
  have hunchanged : ∃ m, i ≤ m ∧ f = f.setStates m (i + 1) s :=
    ⟨i + 1, by omega, (setStates_of_le le_rfl).symm⟩
  obtain ⟨n, t⟩ := c
  cases n with
  | zero =>
      cases t with
      | none => exact hunchanged
      | some t => exact hunchanged
  | succ n => exact ⟨i, le_rfl, rfl⟩

/-- `alterEntryRangeState`. -/
theorem programs_range {lo hi : ℕ} (h : hi ≤ entryCount) (s : EntryState) :
    Programs (rangeWrites lo hi s 8) lo hi s := by
  have hmin : min hi (16 * 8) = hi := by
    rw [entryCount] at h
    omega
  intro f
  have hwrites := writes_rangeWrites f lo hi s 8
  have hcut := cut_rangeWrites f lo hi s 8
  rw [hmin] at hwrites hcut
  exact ⟨hwrites, hcut⟩

/-! ### Segments -/

/-- A value with its name. -/
structure Stored where
  nsIndex : ℕ
  key : CStr
  value : ItemValue
deriving DecidableEq, Repr

/-- Its header. -/
def Stored.header (s : Stored) : Item := s.value.header s.nsIndex s.key

/-- Its entries. -/
def Stored.entries (s : Stored) : List Entry :=
  .item s.header :: (fullEntries s.value.bytes ++ tailEntries s.value.bytes)

/-- Its number of entries. -/
def Stored.span (s : Stored) : ℕ := s.entries.length

/-- Its hash. -/
def Stored.hash (s : Stored) : BitVec 32 := hash24 s.nsIndex s.key

theorem Stored.header_span (s : Stored) : s.header.span = s.span := by
  simp only [Stored.header, ItemValue.header, Stored.span, Stored.entries, List.length_cons,
    List.length_append]
  omega

theorem Stored.span_pos (s : Stored) : 0 < s.span := Nat.succ_pos _

theorem keyField_keyField (key : CStr) : keyField (keyField key) = keyField key := by
  rw [keyField, keyField, List.take_take, min_self]

theorem Stored.hash_header (s : Stored) : hash24 s.header.nsIndex s.header.key = s.hash := by
  show hash24 s.nsIndex (keyField s.key) = hash24 s.nsIndex s.key
  rw [hash24, hash24, keyField_keyField]

/-- The header of a string is of variable length. -/
theorem Stored.datatype_header (s : Stored) : s.header.datatype = s.value.datatype := by
  obtain ⟨_, _, value⟩ := s
  cases value <;> rfl

/-- A value that is no string takes one entry. -/
theorem Stored.span_of_u8 {s : Stored} (h : s.value.datatype ≠ .sz) : s.span = 1 := by
  obtain ⟨_, _, value⟩ := s
  cases value with
  | u8 v => simp [Stored.span, Stored.entries, ItemValue.bytes, fullEntries, tailEntries]
  | sz _ => exact absurd rfl h

/-- A part of a page. -/
inductive Seg where
  | dead
  | live (s : Stored)
  | broken (s : Stored)
deriving DecidableEq, Repr

/-- Its number of entries. -/
def Seg.size : Seg → ℕ
  | .dead => 1
  | .live s => s.span
  | .broken s => s.span

/-- The number of entries of several. -/
def size (segs : List Seg) : ℕ := (segs.map Seg.size).sum

@[simp] theorem size_nil : size [] = 0 := rfl

@[simp] theorem size_cons (x : Seg) (segs : List Seg) : size (x :: segs) = x.size + size segs := rfl

@[simp] theorem size_append (A B : List Seg) : size (A ++ B) = size A + size B := by
  simp [size]

@[simp] theorem size_replicate_dead (n : ℕ) : size (List.replicate n .dead) = n := by
  simp [size, Seg.size]

theorem Seg.size_pos (x : Seg) : 0 < x.size := by
  cases x with
  | dead => exact Nat.one_pos
  | live s => exact s.span_pos
  | broken s => exact s.span_pos

theorem length_le_size (segs : List Seg) : segs.length ≤ size segs := by
  induction segs with
  | nil => exact Nat.zero_le _
  | cons x segs ih =>
      have := x.size_pos
      rw [List.length_cons, size_cons]
      omega

/-- The complete items, in order. -/
def lives (segs : List Seg) : List Stored :=
  segs.filterMap fun
    | .live s => some s
    | _ => none

@[simp] theorem lives_append (A B : List Seg) : lives (A ++ B) = lives A ++ lives B :=
  List.filterMap_append

@[simp] theorem lives_nil : lives [] = [] := rfl

@[simp] theorem lives_live (s : Stored) (B : List Seg) : lives (.live s :: B) = s :: lives B := rfl

@[simp] theorem lives_broken (s : Stored) (B : List Seg) : lives (.broken s :: B) = lives B := rfl

@[simp] theorem lives_dead (B : List Seg) : lives (.dead :: B) = lives B := rfl

@[simp] theorem lives_replicate_dead (n : ℕ) : lives (List.replicate n .dead) = [] := by
  induction n with
  | zero => rfl
  | succ n ih => exact ih

theorem exists_of_mem_lives {s : Stored} {segs : List Seg} (h : s ∈ lives segs) :
    ∃ A B, segs = A ++ .live s :: B := by
  obtain ⟨x, hx, hs⟩ := List.mem_filterMap.mp h
  cases x with
  | dead => cases hs
  | live t =>
      obtain rfl := Option.some.inj hs
      exact List.append_of_mem hx
  | broken t => cases hs

/-- The entries `es` lie on the page from `i` on. -/
def Flash.Holds (f : Flash) (i : ℕ) (es : List Entry) : Prop :=
  ∀ k e, es[k]? = some e → f.entry (i + k) = e

/-- The segment lies on the page from `i` on. -/
def Seg.At (f : Flash) (i : ℕ) : Seg → Prop
  | .dead => f.state i = .erased
  | .live s => f.Holds i s.entries ∧ ∀ k < s.span, f.state (i + k) = .written
  | .broken s => f.entry i = .item s.header ∧ f.state i = .written ∧
      (∃ k < s.span, f.state (i + k) ≠ .written) ∧ ∀ k < s.span, f.state (i + k) ≠ .illegal

/-- Segments lie on the page one after the other. -/
def Lays (f : Flash) : ℕ → List Seg → Prop
  | _, [] => True
  | i, x :: segs => x.At f i ∧ Lays f (i + x.size) segs

theorem lays_append {f : Flash} : ∀ {i : ℕ} {A B : List Seg},
    Lays f i (A ++ B) ↔ Lays f i A ∧ Lays f (i + size A) B
  | i, [], B => by simp [Lays]
  | i, x :: A, B => by
      rw [List.cons_append, Lays, Lays, lays_append, size_cons, Nat.add_assoc, and_assoc]

/-- The pages agree from `lo` up to `hi`. -/
def Agree (f f' : Flash) (lo hi : ℕ) : Prop :=
  ∀ k, lo ≤ k → k < hi → f'.state k = f.state k ∧ f'.entry k = f.entry k

theorem Seg.At.congr {f f' : Flash} {i : ℕ} {x : Seg} (h : x.At f i)
    (hf : Agree f f' i (i + x.size)) : x.At f' i := by
  have hi := hf i le_rfl (by have := x.size_pos; omega)
  cases x with
  | dead => exact hi.1.trans h
  | live s =>
      obtain ⟨hh, hs⟩ := h
      constructor
      · intro k e he
        have hk : k < s.span := (List.getElem?_eq_some_iff.mp he).1
        exact (hf (i + k) (by omega) (Nat.add_lt_add_left hk i)).2.trans (hh k e he)
      · intro k hk
        exact (hf (i + k) (by omega) (Nat.add_lt_add_left hk i)).1.trans (hs k hk)
  | broken s =>
      obtain ⟨he, hw, ⟨k, hk, hne⟩, hill⟩ := h
      refine ⟨hi.2.trans he, hi.1.trans hw, ⟨k, hk, ?_⟩, fun j hj => ?_⟩
      · rw [(hf (i + k) (by omega) (Nat.add_lt_add_left hk i)).1]
        exact hne
      · rw [(hf (i + j) (by omega) (Nat.add_lt_add_left hj i)).1]
        exact hill j hj

theorem Lays.congr {f f' : Flash} : ∀ {i : ℕ} {segs : List Seg}, Lays f i segs →
    Agree f f' i (i + size segs) → Lays f' i segs
  | _, [], _, _ => trivial
  | i, x :: segs, h, hf => by
      rw [size_cons] at hf
      exact ⟨h.1.congr fun k hlo hhi => hf k hlo (by omega),
        h.2.congr fun k hlo hhi => hf k (by omega) (by omega)⟩

theorem lays_replicate_dead {f : Flash} : ∀ {n i : ℕ},
    (∀ k, i ≤ k → k < i + n → f.state k = .erased) → Lays f i (List.replicate n .dead)
  | 0, _, _ => trivial
  | n + 1, i, h =>
      ⟨h i le_rfl (by omega), lays_replicate_dead fun k hlo hhi =>
        h k (Nat.le_of_succ_le hlo) (by simp only [Seg.size] at hhi; omega)⟩

/-! ### The layout of a page -/

variable {N : ℕ}

/-- The segments that lie on a page, in its first `N` entries.  An entry in a segment may be empty
only in the last one, if its writing was cut short. -/
structure Layout (N : ℕ) (f : Flash) (segs : List Seg) : Prop where
  lays : Lays f 0 segs
  limit : N ≤ entryCount
  le : size segs ≤ N
  rest : ∀ k, size segs < k → f.state k = .empty ∧ f.entry k = .blank
  next : f.state (size segs) = .empty
  begun : f.entry (size segs) = .blank ∨ (size segs < N ∧
    (f.entry (size segs)).headerBlank = false ∧ ∀ k < size segs, f.state k ≠ .empty)
  unwritten : ∀ k < size segs, f.state k = .empty → ∃ A s, segs = A ++ [.broken s] ∧ size A < k

theorem Layout.mono {f : Flash} {segs : List Seg} {M : ℕ} (h : Layout N f segs) (hle : N ≤ M)
    (hlimit : M ≤ entryCount) : Layout M f segs where
  lays := h.lays
  limit := hlimit
  le := h.le.trans hle
  rest := h.rest
  next := h.next
  begun := h.begun.imp_right fun hb => ⟨hb.1.trans_le hle, hb.2⟩
  unwritten := h.unwritten

theorem layout_blank (hlimit : N ≤ entryCount) : Layout N .blank [] where
  lays := trivial
  limit := hlimit
  le := Nat.zero_le _
  rest := fun _ _ => ⟨rfl, rfl⟩
  next := rfl
  begun := .inl rfl
  unwritten := fun _ hk => absurd hk (Nat.not_lt_zero _)

/-- The segment behind others. -/
theorem Layout.at {f : Flash} {A B : List Seg} {x : Seg} (h : Layout N f (A ++ x :: B)) :
    x.At f (size A) := by
  have := (lays_append.mp h.lays).2
  rw [Nat.zero_add] at this
  exact this.1

/-- One segment replaced by others of the same size, without new empty entries. -/
theorem Layout.replace {f f' : Flash} {A B X : List Seg} {x : Seg} (h : Layout N f (A ++ x :: B))
    (hsize : size X = x.size)
    (hout : ∀ k, k < size A ∨ size A + x.size ≤ k → f'.state k = f.state k ∧ f'.entry k = f.entry k)
    (hX : Lays f' (size A) X) (hempty : ∀ k, f'.state k = .empty → f.state k = .empty)
    (hlast : ∀ k, size A ≤ k → k < size A + x.size → f'.state k = .empty →
      ∃ s, X = [.broken s] ∧ size A < k) : Layout N f' (A ++ X ++ B) := by
  have hsum : size (A ++ X ++ B) = size (A ++ x :: B) := by
    simp only [size_append, size_cons, hsize]
    omega
  have hA : size A + x.size + size B = size (A ++ x :: B) := by
    simp only [size_append, size_cons]
    omega
  obtain ⟨hlA, hlx⟩ := lays_append.mp h.lays
  rw [Nat.zero_add] at hlx
  refine ⟨?_, h.limit, hsum ▸ h.le, ?_, ?_, ?_, ?_⟩
  · rw [List.append_assoc, lays_append, Nat.zero_add, lays_append, hsize]
    exact ⟨hlA.congr fun k _ hk => hout k (.inl (by omega)), hX,
      hlx.2.congr fun k hk _ => hout k (.inr hk)⟩
  · intro k hk
    rw [hsum] at hk
    have := hout k (.inr (by omega))
    rw [this.1, this.2]
    exact h.rest k hk
  · rw [hsum, (hout _ (.inr (by omega))).1]
    exact h.next
  · rw [hsum, (hout _ (.inr (by omega))).2]
    exact h.begun.imp_right fun hb => ⟨hb.1, hb.2.1, fun k hk he => hb.2.2 k hk (hempty k he)⟩
  · intro k hk he
    rw [hsum] at hk
    obtain ⟨A', s, hsegs, hlt⟩ := h.unwritten k hk (hempty k he)
    rcases List.eq_nil_or_concat B with rfl | ⟨B', y, rfl⟩
    · obtain ⟨rfl, hx⟩ := List.append_inj' hsegs rfl
      have hle : k < size A + x.size := by simpa using hA ▸ hk
      obtain ⟨s', rfl, hlt'⟩ := hlast k (by omega) hle he
      exact ⟨A, s', by simp, hlt'⟩
    · have hsegs' : (A ++ x :: B') ++ [y] = A' ++ [.broken s] := by simpa using hsegs
      obtain ⟨hA', hy⟩ := List.append_inj' hsegs' rfl
      refine ⟨A ++ X ++ B', s, ?_, ?_⟩
      · rw [← hy, List.concat_eq_append, List.append_assoc, List.append_assoc, List.append_assoc]
      · rw [← hA'] at hlt
        simp only [size_append, size_cons, hsize] at hlt ⊢
        omega

/-- A segment that starts with the header of a value. -/
def Seg.Of (s : Stored) (x : Seg) : Prop := x = .live s ∨ x = .broken s

theorem Seg.Of.size_eq {s : Stored} {x : Seg} (h : x.Of s) : x.size = s.span := by
  rcases h with rfl | rfl <;> rfl

/-- Its header is found there. -/
theorem Seg.Of.header {f : Flash} {i : ℕ} {s : Stored} {x : Seg} (h : x.Of s) (hx : x.At f i) :
    f.entry i = .item s.header ∧ f.state i = .written := by
  rcases h with rfl | rfl
  · exact ⟨hx.1 0 _ rfl, hx.2 0 s.span_pos⟩
  · exact ⟨hx.1, hx.2.1⟩

/-- None of its states is illegal. -/
theorem Seg.Of.legal {f : Flash} {i : ℕ} {s : Stored} {x : Seg} (h : x.Of s) (hx : x.At f i) {k : ℕ}
    (hk : k < s.span) : f.state (i + k) ≠ .illegal := by
  rcases h with rfl | rfl
  · rw [hx.2 k hk]
    exact EntryState.noConfusion
  · exact hx.2.2.2 k hk

/-- Only a string can be incomplete. -/
theorem Seg.At.datatype_broken {f : Flash} {i : ℕ} {s : Stored} (h : Seg.At f i (.broken s)) :
    s.value.datatype = .sz := by
  obtain ⟨-, hstate, ⟨k, hk, hne⟩, -⟩ := h
  by_contra hsz
  rw [Stored.span_of_u8 hsz] at hk
  obtain rfl : k = 0 := by omega
  exact hne hstate

theorem incomplete_iff {f : Flash} {i span : ℕ} :
    f.incomplete i span = true ↔ ∃ k < span, f.state (i + k) ≠ .written := by
  rw [Flash.incomplete, List.any_eq_true]
  constructor
  · rintro ⟨j, hj, hne⟩
    obtain ⟨hlo, hhi⟩ := List.mem_range'_1.mp hj
    refine ⟨j - i, by omega, ?_⟩
    rw [Nat.add_sub_cancel' hlo]
    exact of_decide_eq_true hne
  · rintro ⟨k, hk, hne⟩
    exact ⟨i + k, List.mem_range'_1.mpr (by omega), decide_eq_true hne⟩

theorem EntryState.eq_empty_of_program {s t : EntryState} (h : s.program t = .empty) :
    s = .empty := by
  cases s <;> cases t <;> first | rfl | cases h

theorem empty_of_setStates {f : Flash} {lo hi : ℕ} {s : EntryState} {k : ℕ}
    (h : (f.setStates lo hi s).state k = .empty) : f.state k = .empty := by
  rw [setStates_state] at h
  split_ifs at h with hk
  · exact EntryState.eq_empty_of_program h
  · exact h

/-- Erasing a value. -/
theorem Layout.eraseItem {f : Flash} {A B : List Seg} {x : Seg} {s : Stored}
    (h : Layout N f (A ++ x :: B)) (hx : x.Of s) :
    Layout N (f.setStates (size A) (size A + s.span) .erased)
      (A ++ List.replicate s.span .dead ++ B) := by
  have herased : ∀ k, size A ≤ k → k < size A + s.span →
      (f.setStates (size A) (size A + s.span) .erased).state k = .erased := by
    intro k hlo hhi
    rw [setStates_state, if_pos ⟨hlo, hhi⟩, EntryState.program_erased]
  refine h.replace (by rw [size_replicate_dead, hx.size_eq]) ?_ (lays_replicate_dead herased)
    (fun k => empty_of_setStates) ?_
  · intro k hk
    rw [hx.size_eq] at hk
    exact ⟨by rw [setStates_state, if_neg (by omega)], rfl⟩
  · intro k hlo hhi he
    rw [hx.size_eq] at hhi
    rw [herased k hlo hhi] at he
    cases he

/-- Erasing entries behind the header of a value leaves an incomplete one. -/
theorem Layout.breakItem {f : Flash} {A B : List Seg} {x : Seg} {s : Stored} {lo hi : ℕ}
    (h : Layout N f (A ++ x :: B)) (hx : x.Of s) (hlo : size A < lo) (hlt : lo < hi)
    (hhi : hi ≤ size A + s.span) :
    Layout N (f.setStates lo hi .erased) (A ++ .broken s :: B) := by
  obtain ⟨hentry, hstate⟩ := hx.header h.at
  have hbroken : Lays (f.setStates lo hi .erased) (size A) [.broken s] := by
    refine ⟨⟨hentry, ?_, ⟨lo - size A, by omega, ?_⟩, fun k hk => ?_⟩, trivial⟩
    · rw [setStates_state, if_neg (by omega)]
      exact hstate
    · rw [setStates_state, if_pos (by omega), EntryState.program_erased]
      exact EntryState.noConfusion
    · rw [setStates_state]
      split_ifs
      · rw [EntryState.program_erased]
        exact EntryState.noConfusion
      · exact hx.legal h.at hk
  have := h.replace (X := [.broken s]) (by rw [hx.size_eq]; rfl) ?_ hbroken
    (fun k => empty_of_setStates) ?_
  · simpa using this
  · intro k hk
    rw [hx.size_eq] at hk
    exact ⟨by rw [setStates_state, if_neg (by omega)], rfl⟩
  · intro k hlo' _ he
    refine ⟨s, rfl, Nat.lt_of_le_of_ne hlo' ?_⟩
    rintro rfl
    rw [setStates_state, if_neg (by omega), hstate] at he
    cases he

/-! ### What a page stands for -/

/-- The value has this name. -/
def Stored.Named (s : Stored) (nsIndex : ℕ) (key : CStr) : Prop :=
  s.nsIndex = nsIndex ∧ keyField s.key = keyField key

instance (s : Stored) (nsIndex : ℕ) (key : CStr) : Decidable (s.Named nsIndex key) :=
  inferInstanceAs (Decidable (_ ∧ _))

theorem Stored.Named.hash_eq {s : Stored} {nsIndex : ℕ} {key : CStr} (h : s.Named nsIndex key) :
    s.hash = hash24 nsIndex key := by
  obtain ⟨hns, hkey⟩ := h
  rw [Stored.hash, hash24, hash24, hns, hkey]

/-- The items have different hashes. -/
def Stored.Apart (s t : Stored) : Prop := s.hash ≠ t.hash

instance : DecidableRel Stored.Apart := fun s t => inferInstanceAs (Decidable (s.hash ≠ t.hash))

theorem Stored.Apart.symm {s t : Stored} (h : s.Apart t) : t.Apart s := Ne.symm h

theorem Stored.Apart.split {s t u : Stored} (h : s.Apart u) : s.Apart t ∨ t.Apart u := by
  by_cases hst : s.hash = t.hash
  · right
    rwa [Stored.Apart, ← hst]
  · exact .inl hst

/-- Of the items with one hash, the last. -/
def survivors (l : List Stored) : List Stored := l.pwFilter Stored.Apart

theorem pairwise_survivors (l : List Stored) : (survivors l).Pairwise Stored.Apart :=
  List.pairwise_pwFilter l

theorem survivors_of_pairwise {l : List Stored} (h : l.Pairwise Stored.Apart) : survivors l = l :=
  List.pwFilter_eq_self.mpr h

/-- An item survives if no later one has its hash. -/
theorem survivors_cons (s : Stored) (l : List Stored) :
    survivors (s :: l) = if ∀ t ∈ l, s.Apart t then s :: survivors l else survivors l := by
  have hiff : (∀ t ∈ survivors l, s.Apart t) ↔ ∀ t ∈ l, s.Apart t :=
    List.forall_mem_pwFilter (R := Stored.Apart) (fun h => h.split) s l
  split_ifs with h
  · exact List.pwFilter_cons_of_pos (hiff.mpr h)
  · exact List.pwFilter_cons_of_neg fun hc => h (hiff.mp hc)

/-- An item in front of one with the same hash does not count. -/
theorem survivors_shadowed {A B : List Stored} {s t : Stored} (ht : t ∈ B) (h : s.hash = t.hash) :
    survivors (A ++ s :: B) = survivors (A ++ B) := by
  induction A with
  | nil => rw [List.nil_append, survivors_cons, if_neg fun hc => hc t ht h, List.nil_append]
  | cons a A ih =>
      have hiff : (∀ u ∈ A ++ s :: B, a.Apart u) ↔ ∀ u ∈ A ++ B, a.Apart u := by
        simp only [List.mem_append, List.mem_cons]
        constructor
        · intro hu u hm
          exact hu u (hm.imp_right .inr)
        · rintro hu u (hm | rfl | hm)
          · exact hu u (.inl hm)
          · rw [Stored.Apart, h]
            exact hu t (.inr ht)
          · exact hu u (.inr hm)
      rw [List.cons_append, List.cons_append, survivors_cons, survivors_cons, ih]
      simp only [hiff]

/-- The next start finds these items in the first `N` entries of the page. -/
def Recovers (N : ℕ) (f : Flash) (l : List Stored) : Prop :=
  ∃ segs, Layout N f segs ∧ survivors (lives segs) = l

/-- Power may go while an item is erased that does not count. -/
theorem Layout.erase_recovers {f : Flash} {A B : List Seg} {x : Seg} {s : Stored}
    (h : Layout N f (A ++ x :: B)) (hx : x.Of s)
    (hl : survivors (lives (A ++ x :: B)) = survivors (lives (A ++ B))) {m : ℕ} (hm : size A ≤ m) :
    Recovers N (f.setStates m (size A + s.span) .erased) (survivors (lives (A ++ x :: B))) := by
  by_cases hout : size A + s.span ≤ m
  · rw [setStates_of_le hout]
    exact ⟨_, h, rfl⟩
  rcases Nat.eq_or_lt_of_le hm with rfl | hlt
  · refine ⟨_, h.eraseItem hx, ?_⟩
    rw [hl]
    simp
  · refine ⟨_, h.breakItem hx hlt (by omega) le_rfl, ?_⟩
    rw [hl]
    simp

end NvsPage

end Sicae
