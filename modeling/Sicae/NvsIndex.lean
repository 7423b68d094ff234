import Sicae.NvsLayout

/-! # The index of a page

A page has in memory the hashes of its items, the first entry that is used and the next one that is
free.  `Page.Indexed` says that they are those of the first of the segments that lie on the page;
while the page is loaded, the others are still to be checked.

Erasing an item keeps the index (`Indexed.eraseChecked`, `Indexed.eraseBroken`), and `findItem` finds
the first item with a name (`Indexed.findItem`). -/

namespace Sicae

open CString PowerCut

namespace NvsPage

/-! ### Series of writes -/

/-- The page has made further writes, with the property wherever power goes. -/
def Page.Extends (I : Flash → Prop) (p p' : Page) : Prop :=
  ∃ ws, p'.log = p.log ++ ws ∧ p'.flash = flashMedium.writes ws p.flash ∧
    flashMedium.Safe I ws p.flash

section
variable {I : Flash → Prop} {p p' p'' : Page}

theorem Page.Extends.refl (hf : p'.flash = p.flash) (hl : p'.log = p.log) (hi : I p.flash) :
    p.Extends I p' :=
  ⟨[], by rw [hl, List.append_nil], hf, Medium.safe_nil hi⟩

theorem Page.Extends.trans (h : p.Extends I p') (h' : p'.Extends I p'') : p.Extends I p'' := by
  obtain ⟨ws, hlog, hflash, hsafe⟩ := h
  obtain ⟨vs, hlog', hflash', hsafe'⟩ := h'
  refine ⟨ws ++ vs, by rw [hlog', hlog, List.append_assoc], ?_, ?_⟩
  · rw [hflash', hflash, Medium.writes_append]
  · rw [hflash] at hsafe'
    exact Medium.safe_append hsafe hsafe'

theorem Page.Extends.mono {J : Flash → Prop} (h : p.Extends I p') (hi : ∀ f, I f → J f) :
    p.Extends J p' := by
  obtain ⟨ws, hlog, hflash, hsafe⟩ := h
  exact ⟨ws, hlog, hflash, hsafe.mono hi⟩

end

theorem foldl_write (p : Page) (ws : List FlashWrite) :
    ws.foldl Page.write p =
      { p with flash := flashMedium.writes ws p.flash, log := p.log ++ ws } := by
  induction ws generalizing p with
  | nil => simp
  | cons w ws ih =>
      rw [List.foldl_cons, ih]
      simp [Page.write]

/-! ### Erasing -/

/-- `eraseEntryAndSpan` has erased the entries from `i` on. -/
structure Page.Erases (p p' : Page) (i span : ℕ) : Prop where
  flash : p'.flash = p.flash.setStates i (i + span) .erased
  hashList : p'.hashList = p.hashList.filter fun e => e.2 ≠ i
  firstUsed : p'.firstUsedEntry =
    if p.firstUsedEntry = some i then
      (List.range' (i + span) (p.stop - (i + span))).find? fun k => p'.flash.state k = .written
    else p.firstUsedEntry
  nextFree : p'.nextFreeEntry =
    if p.nextFreeEntry.any (fun n => n < i + span) then some (i + span) else p.nextFreeEntry
  log : ∃ ws, p'.log = p.log ++ ws ∧ p'.flash = flashMedium.writes ws p.flash ∧
    ∀ c, ∃ m, i ≤ m ∧ flashMedium.cut ws c p.flash = p.flash.setStates m (i + span) .erased

/-- The writes of `eraseEntryAndSpan`. -/
def eraseWrites (i span : ℕ) : List FlashWrite :=
  if span = 1 then [.states i (i + 1) .erased] else rangeWrites i (i + span) .erased 8

theorem programs_eraseWrites {i span : ℕ} (hle : i + span ≤ entryCount) :
    Programs (eraseWrites i span) i (i + span) .erased := by
  rw [eraseWrites]
  split_ifs with h
  · rw [h]
    exact programs_single i .erased
  · exact programs_range hle .erased

variable (mis : Misread)

/-- Erasing at a header. -/
theorem eraseEntryAndSpan_header {p : Page} {i : ℕ} {item : Item} (hs : p.flash.state i = .written)
    (he : p.flash.entry i = .item item) (hpos : 0 < item.span)
    (hle : i + item.span ≤ entryCount) :
    ∃ p', p.eraseEntryAndSpan mis i = some p' ∧ p.Erases p' i item.span := by
  have hspan : p.erasedSpan mis i = item.span := by
    rw [Page.erasedSpan, he]
    exact if_pos ⟨hs, rfl⟩
  have hwrites : ∀ q : Page, (if item.span = 1 then q.alterEntryState i .erased
      else q.alterEntryRangeState i (i + item.span) .erased) =
      (eraseWrites i item.span).foldl Page.write q := by
    intro q
    rw [eraseWrites]
    split_ifs <;> rfl
  simp only [Page.eraseEntryAndSpan, hspan, hwrites, foldl_write, if_pos hs]
  rw [if_neg (by omega)]
  refine ⟨_, rfl, ?_⟩
  obtain ⟨hflash, hcut⟩ := programs_eraseWrites hle p.flash
  split_ifs with h1 h2 h2
  all_goals
    refine ⟨hflash, rfl, ?_, ?_, eraseWrites i item.span, rfl, rfl, hcut⟩
  · rw [if_pos h1]
    rfl
  · rw [if_pos (by simpa [Page.updateFirstUsedEntry] using h2)]
  · rw [if_pos h1]
    rfl
  · rw [if_neg (by simpa [Page.updateFirstUsedEntry] using h2)]
    rfl
  · rw [if_neg h1]
  · rw [if_pos h2]
  · rw [if_neg h1]
  · rw [if_neg h2]

/-! ### Hashes -/

/-- The hashes of complete items that lie on a page from an entry on. -/
def hashes : ℕ → List Seg → List (BitVec 32 × ℕ)
  | _, [] => []
  | i, .dead :: segs => hashes (i + 1) segs
  | i, .live s :: segs => (s.hash, i) :: hashes (i + s.span) segs
  | i, .broken s :: segs => hashes (i + s.span) segs

theorem hashes_append {A B : List Seg} {i : ℕ} :
    hashes i (A ++ B) = hashes i A ++ hashes (i + size A) B := by
  induction A generalizing i with
  | nil => rfl
  | cons x A ih => cases x <;> simp [hashes, ih, Seg.size, Nat.add_assoc]

@[simp] theorem hashes_replicate_dead {n i : ℕ} : hashes i (List.replicate n .dead) = [] := by
  induction n generalizing i with
  | zero => rfl
  | succ n ih => exact ih

theorem mem_hashes {A : List Seg} {i : ℕ} {e : BitVec 32 × ℕ} (h : e ∈ hashes i A) :
    ∃ P s B, A = P ++ .live s :: B ∧ e = (s.hash, i + size P) := by
  induction A generalizing i with
  | nil => exact absurd h List.not_mem_nil
  | cons x A ih =>
      have hnext : ∀ {j}, e ∈ hashes j A → j = i + x.size →
          ∃ P s B, x :: A = P ++ .live s :: B ∧ e = (s.hash, i + size P) := by
        rintro j hj rfl
        obtain ⟨P, s, B, rfl, he⟩ := ih hj
        exact ⟨x :: P, s, B, rfl, by rw [he, size_cons, Nat.add_assoc]⟩
      cases x with
      | dead => exact hnext h rfl
      | live s =>
          rcases List.mem_cons.mp h with rfl | h
          · exact ⟨[], s, A, rfl, rfl⟩
          · exact hnext h rfl
      | broken s => exact hnext h rfl

theorem mem_hashes_lt {A : List Seg} {i : ℕ} {e : BitVec 32 × ℕ} (h : e ∈ hashes i A) :
    i ≤ e.2 ∧ e.2 < i + size A := by
  obtain ⟨P, s, B, rfl, rfl⟩ := mem_hashes h
  have := s.span_pos
  simp only [size_append, size_cons, Seg.size]
  omega

/-- Without the entry of one item. -/
theorem hashes_filter {A B : List Seg} {s : Stored} :
    (hashes 0 (A ++ .live s :: B)).filter (fun e => e.2 ≠ size A) =
      hashes 0 (A ++ List.replicate s.span .dead ++ B) := by
  have hA : (hashes 0 A).filter (fun e => e.2 ≠ size A) = hashes 0 A := by
    rw [List.filter_eq_self]
    intro e he
    have := mem_hashes_lt he
    exact decide_eq_true (by omega)
  have hB : (hashes (size A + s.span) B).filter (fun e => e.2 ≠ size A) =
      hashes (size A + s.span) B := by
    rw [List.filter_eq_self]
    intro e he
    have := mem_hashes_lt he
    have := s.span_pos
    exact decide_eq_true (by omega)
  rw [hashes_append, List.filter_append, hA, Nat.zero_add, hashes, List.filter_cons_of_neg (by simp),
    hB, hashes_append, hashes_append]
  simp

/-- The first entry with a hash. -/
theorem find_hashes {segs : List Seg} {i start : ℕ} (hstart : ∀ e ∈ hashes i segs, start ≤ e.2)
    (hash : BitVec 32) :
    ((hashes i segs).find? (fun e => start ≤ e.2 ∧ e.1 = hash) = none ∧
      ∀ s ∈ lives segs, s.hash ≠ hash) ∨
    ∃ A s B, segs = A ++ .live s :: B ∧ s.hash = hash ∧ (∀ t ∈ lives A, t.hash ≠ hash) ∧
      (hashes i segs).find? (fun e => start ≤ e.2 ∧ e.1 = hash) = some (s.hash, i + size A) := by
  induction segs generalizing i with
  | nil => exact .inl ⟨rfl, fun s hs => absurd hs List.not_mem_nil⟩
  | cons x segs ih =>
      cases x with
      | dead =>
          rcases ih (i := i + 1) hstart with h | ⟨A, s, B, rfl, hs, hA, hfind⟩
          · exact .inl h
          · refine .inr ⟨.dead :: A, s, B, rfl, hs, hA, ?_⟩
            rw [size_cons, ← Nat.add_assoc]
            exact hfind
      | broken t =>
          rcases ih (i := i + t.span) hstart with h | ⟨A, s, B, rfl, hs, hA, hfind⟩
          · exact .inl h
          · refine .inr ⟨.broken t :: A, s, B, rfl, hs, hA, ?_⟩
            rw [size_cons, ← Nat.add_assoc]
            exact hfind
      | live t =>
          have hle : start ≤ i := hstart (t.hash, i) List.mem_cons_self
          rw [hashes]
          by_cases ht : t.hash = hash
          · exact .inr ⟨[], t, segs, rfl, ht, fun _ hm => absurd hm List.not_mem_nil,
              List.find?_cons_of_pos (by simp [hle, ht])⟩
          · rw [List.find?_cons_of_neg (by simp [ht])]
            rcases ih (i := i + t.span) (fun e he => hstart e (List.mem_cons_of_mem _ he)) with
              ⟨h, hl⟩ | ⟨A, s, B, rfl, hs, hA, hfind⟩
            · refine .inl ⟨h, fun s hs => ?_⟩
              rcases List.mem_cons.mp hs with rfl | hs
              · exact ht
              · exact hl s hs
            · refine .inr ⟨.live t :: A, s, B, rfl, hs, fun u hu => ?_, ?_⟩
              · rcases List.mem_cons.mp hu with rfl | hu
                · exact ht
                · exact hA u hu
              · rw [size_cons, ← Nat.add_assoc]
                exact hfind

/-! ### The first used entry and the next free one -/

/-- Below the end of the page no entry in front of the first used one is written. -/
structure Page.Used (p : Page) : Prop where
  first : ∀ k < p.stop, p.flash.state k = .written → ∃ u ≤ k, p.firstUsedEntry = some u
  le : ∀ u, p.firstUsedEntry = some u → u ≤ p.stop

theorem exists_find_range' {q : ℕ → Bool} {lo n k : ℕ} (hk : k ∈ List.range' lo n) (hq : q k) :
    ∃ u ≤ k, (List.range' lo n).find? q = some u := by
  obtain ⟨u, hu⟩ := Option.isSome_iff_exists.mp (List.find?_isSome.mpr ⟨k, hk, hq⟩)
  refine ⟨u, Nat.le_of_not_lt fun hlt => ?_, hu⟩
  have hbefore := (List.find?_range'_eq_some.mp hu).2.2 k (List.mem_range'_1.mp hk).1 hlt
  rw [hq] at hbefore
  cases hbefore

theorem Page.stop_le_entryCount (p : Page) : p.stop ≤ entryCount := by
  rw [Page.stop]
  cases p.nextFreeEntry with
  | none => exact le_rfl
  | some n => exact Nat.min_le_right _ _

theorem Page.Erases.stop_le {p p' : Page} {i span : ℕ} (h : p.Erases p' i span) :
    p.stop ≤ p'.stop ∧ p'.stop ≤ max p.stop (i + span) := by
  unfold Page.stop
  rw [h.nextFree]
  cases p.nextFreeEntry with
  | none => simp
  | some n =>
      by_cases hn : n < i + span
      · simp only [Option.any_some, hn, decide_true, if_true]
        omega
      · simp only [Option.any_some, hn, decide_false, Bool.false_eq_true, if_false]
        omega

theorem Page.Erases.used {p p' : Page} {i span : ℕ} (h : p.Erases p' i span) (hused : p.Used)
    (hi : i ≤ p.stop) : p'.Used := by
  have hle := h.stop_le
  refine ⟨fun k hk hw => ?_, fun u hu => ?_⟩
  case refine_2 =>
    rw [h.firstUsed] at hu
    split_ifs at hu with hfirst
    · have := (List.find?_range'_eq_some.mp hu).2.1
      rw [List.mem_range'_1] at this
      omega
    · exact (hused.le u hu).trans hle.1
  have hout : (k < i ∨ i + span ≤ k) ∧ p.flash.state k = .written := by
    rw [h.flash, setStates_state] at hw
    split_ifs at hw with hin
    · rw [EntryState.program_erased] at hw
      cases hw
    · exact ⟨by omega, hw⟩
  have hstop : k < p.stop := by omega
  obtain ⟨u, hu, hfirst⟩ := hused.first k hstop hout.2
  rw [h.firstUsed, hfirst]
  by_cases hui : u = i
  · rw [if_pos (congrArg some hui)]
    exact exists_find_range' (List.mem_range'_1.mpr (by omega)) (decide_eq_true hw)
  · rw [if_neg (by simpa using hui)]
    exact ⟨u, hu, rfl⟩

/-- The next free entry, where the segments from `i` on are still to be checked: that behind the last
segment, or one inside it, if its writing was cut short. -/
inductive FreeAfter (i : ℕ) (R : List Seg) : Option ℕ → Prop
  | settled : FreeAfter i R (some (i + size R))
  | full : i + size R = entryCount → FreeAfter i R none
  | cutShort {Q : List Seg} {s : Stored} {e : ℕ} : R = Q ++ [.broken s] → i + size Q < e →
      e < i + size R → FreeAfter i R (some e)

theorem FreeAfter.le {i e : ℕ} {R : List Seg} (h : FreeAfter i R (some e)) : i ≤ e := by
  cases h <;> omega

/-- A segment in front that stays as it is. -/
theorem FreeAfter.tail {i : ℕ} {x : Seg} {R : List Seg} {n : Option ℕ}
    (h : FreeAfter i (x :: R) n) (hx : ∀ s, x ≠ .broken s) : FreeAfter (i + x.size) R n := by
  cases h with
  | settled =>
      rw [size_cons, ← Nat.add_assoc]
      exact .settled
  | full hfull => exact .full (by rw [← hfull, size_cons, Nat.add_assoc])
  | @cutShort Q s e hR hlo hhi =>
      cases Q with
      | nil => exact absurd (List.cons.inj hR).1 (hx s)
      | cons y Q =>
          obtain ⟨rfl, hQ⟩ := List.cons.inj hR
          rw [size_cons] at hlo hhi
          exact .cutShort hQ (by omega) (by omega)

/-- The next free entry after `eraseEntryAndSpan`, if it was behind the erased ones. -/
theorem raise_of_le {e m : ℕ} (h : m ≤ e) :
    (if (some e).any (fun n => decide (n < m)) then some m else some e) = some e :=
  if_neg (by simpa using h)

/-- The same, if it was among them. -/
theorem raise_of_lt {e m : ℕ} (h : e < m) :
    (if (some e).any (fun n => decide (n < m)) then some m else some e) = some m :=
  if_pos (by simpa using h)

/-- A segment in front that is erased. -/
theorem FreeAfter.erase {i : ℕ} {s : Stored} {R : List Seg} {n : Option ℕ}
    (h : FreeAfter i (.broken s :: R) n) :
    FreeAfter (i + s.span) R
      (if n.any (fun n => n < i + s.span) then some (i + s.span) else n) := by
  have hsize : size (.broken s :: R) = s.span + size R := rfl
  cases h with
  | settled =>
      rw [raise_of_le (by omega), hsize, ← Nat.add_assoc]
      exact .settled
  | full hfull => exact .full (by omega)
  | @cutShort Q t e hR hlo hhi =>
      cases Q with
      | nil =>
          obtain ⟨-, rfl⟩ := List.cons.inj hR
          rw [size_nil] at hsize
          rw [raise_of_lt (by omega)]
          exact .settled
      | cons y Q =>
          obtain ⟨rfl, hQ⟩ := List.cons.inj hR
          rw [size_cons, Seg.size] at hlo
          rw [raise_of_le (by omega)]
          exact .cutShort hQ (by omega) (by omega)

/-- Erasing in front of all that changes nothing. -/
theorem FreeAfter.eraseBefore {i m : ℕ} {R : List Seg} {n : Option ℕ} (h : FreeAfter i R n)
    (hm : m ≤ i) : (if n.any (fun n => n < m) then some m else n) = n := by
  cases n with
  | none => rfl
  | some e => exact raise_of_le (hm.trans h.le)

/-! ### Indexed pages -/

variable {N : ℕ}

/-- The segments `P` lie on the page and are indexed, and behind them lie `R`, all of them in the
first `N` entries. -/
structure Page.Indexed (p : Page) (N : ℕ) (P R : List Seg) : Prop where
  layout : Layout N p.flash (P ++ R)
  blank : p.flash.entry (size (P ++ R)) = .blank
  whole : ∀ s, Seg.broken s ∉ P
  hashList : p.hashList = hashes 0 P
  free : FreeAfter (size P) R p.nextFreeEntry
  used : p.Used

section
variable {p : Page} {P R : List Seg}

theorem Page.Indexed.mono {M : ℕ} (h : p.Indexed N P R) (hle : N ≤ M) (hlimit : M ≤ entryCount) :
    p.Indexed M P R :=
  ⟨h.layout.mono hle hlimit, h.blank, h.whole, h.hashList, h.free, h.used⟩

/-- No segment to be checked lies behind the end. -/
theorem Page.Indexed.le_stop (h : p.Indexed N P R) : size P ≤ p.stop := by
  have hle := h.layout.le.trans h.layout.limit
  rw [size_append] at hle
  have hfree := h.free
  rw [Page.stop]
  cases hn : p.nextFreeEntry with
  | none => show size P ≤ entryCount; omega
  | some n =>
      rw [hn] at hfree
      have := hfree.le
      show size P ≤ min n entryCount
      omega

theorem Page.Indexed.stop_eq (h : p.Indexed N P []) : p.stop = size P := by
  have hle := h.layout.le.trans h.layout.limit
  rw [List.append_nil] at hle
  have hfree := h.free
  rw [Page.stop]
  cases hn : p.nextFreeEntry with
  | none =>
      rw [hn] at hfree
      cases hfree with
      | full hfull => exact hfull.symm
  | some n =>
      rw [hn] at hfree
      cases hfree with
      | settled => exact Nat.min_eq_left hle
      | cutShort hR _ _ => exact absurd hR (by simp)

end

section
variable (mis : Misread) {p : Page} {A B P R : List Seg} {s : Stored}

/-- Erasing a segment that starts with a header. -/
theorem eraseEntryAndSpan_seg {x : Seg} (h : Layout N p.flash (A ++ x :: B)) (hx : x.Of s) :
    ∃ p', p.eraseEntryAndSpan mis (size A) = some p' ∧ p.Erases p' (size A) s.span := by
  obtain ⟨hentry, hstate⟩ := hx.header h.at
  have hle := h.le.trans h.limit
  rw [size_append, size_cons, hx.size_eq] at hle
  rw [← s.header_span]
  exact eraseEntryAndSpan_header mis hstate hentry (s.header_span ▸ s.span_pos)
    (by rw [s.header_span]; omega)

/-- Power may go while it is erased, if its item does not count. -/
theorem Page.Erases.extends {p' : Page} {x : Seg} (herase : p.Erases p' (size A) s.span)
    (h : Layout N p.flash (A ++ x :: B)) (hx : x.Of s)
    (hl : survivors (lives (A ++ x :: B)) = survivors (lives (A ++ B))) :
    p.Extends (Recovers N · (survivors (lives (A ++ x :: B)))) p' := by
  obtain ⟨ws, hlog, hflash, hcut⟩ := herase.log
  refine ⟨ws, hlog, hflash, fun c => ?_⟩
  obtain ⟨m, hm, he⟩ := hcut c
  rw [he]
  exact h.erase_recovers hx hl hm

/-- Erasing an indexed item that does not count. -/
theorem Page.Indexed.eraseChecked (h : p.Indexed N (A ++ .live s :: B) R)
    (hl : survivors (lives (A ++ .live s :: B ++ R)) = survivors (lives (A ++ B ++ R))) :
    ∃ p', p.eraseEntryAndSpan mis (size A) = some p' ∧
      p.Extends (Recovers N · (survivors (lives (A ++ .live s :: B ++ R)))) p' ∧
      p'.Indexed N (A ++ List.replicate s.span .dead ++ B) R := by
  have hlayout : Layout N p.flash (A ++ .live s :: (B ++ R)) := by
    have := h.layout
    rwa [List.append_assoc] at this
  obtain ⟨p', hp', herase⟩ := eraseEntryAndSpan_seg mis hlayout (.inl rfl)
  have hsize : size (A ++ List.replicate s.span .dead ++ B) = size (A ++ .live s :: B) := by
    simp [Seg.size]
  refine ⟨p', hp', ?_, ⟨?_, ?_, ?_, ?_, ?_, ?_⟩⟩
  · have := herase.extends hlayout (.inl rfl) (by simpa using hl)
    simpa using this
  · rw [herase.flash, List.append_assoc]
    exact hlayout.eraseItem (.inl rfl)
  · rw [herase.flash, setStates_entry, size_append, hsize, ← size_append]
    exact h.blank
  · intro t ht
    simp only [List.mem_append, List.mem_replicate] at ht
    rcases ht with (ht | ⟨-, ht⟩) | ht
    · exact h.whole t (List.mem_append_left _ ht)
    · cases ht
    · exact h.whole t (List.mem_append_right _ (List.mem_cons_of_mem _ ht))
  · rw [herase.hashList, h.hashList, hashes_filter]
  · rw [herase.nextFree, hsize, h.free.eraseBefore]
    · exact h.free
    · simp only [size_append, size_cons, Seg.size]
      omega
  · refine herase.used h.used ?_
    have := h.le_stop
    rw [size_append] at this
    omega

/-- Erasing the first item that is still to be checked, after its hash was inserted. -/
theorem Page.Indexed.eraseBroken (h : p.Indexed N P (.broken s :: R)) :
    ∃ p', ({ p with hashList := p.hashList ++ [(s.hash, size P)] } : Page).eraseEntryAndSpan mis
        (size P) = some p' ∧ p.Extends (Recovers N · (survivors (lives (P ++ .broken s :: R)))) p' ∧
      p'.Indexed N (P ++ List.replicate s.span .dead) R := by
  have hlayout : Layout N ({ p with hashList := p.hashList ++ [(s.hash, size P)] } : Page).flash
      (P ++ .broken s :: R) := h.layout
  obtain ⟨p', hp', herase⟩ := eraseEntryAndSpan_seg mis hlayout (.inr rfl)
  have hsize : size (P ++ List.replicate s.span .dead ++ R) = size (P ++ .broken s :: R) := by
    simp [Seg.size]
  refine ⟨p', hp', herase.extends hlayout (.inr rfl) (by simp), ⟨?_, ?_, ?_, ?_, ?_, ?_⟩⟩
  · rw [herase.flash]
    exact h.layout.eraseItem (.inr rfl)
  · rw [herase.flash, setStates_entry, hsize]
    exact h.blank
  · intro t ht
    simp only [List.mem_append, List.mem_replicate] at ht
    rcases ht with ht | ⟨-, ht⟩
    · exact h.whole t ht
    · cases ht
  · have hkept : (hashes 0 P).filter (fun e => e.2 ≠ size P) = hashes 0 P := by
      rw [List.filter_eq_self]
      intro e he
      have := mem_hashes_lt he
      exact decide_eq_true (by omega)
    rw [herase.hashList, h.hashList, List.filter_append, hkept, hashes_append,
      hashes_replicate_dead]
    simp
  · rw [herase.nextFree, size_append, size_replicate_dead]
    exact h.free.erase
  · exact herase.used ⟨h.used.first, h.used.le⟩ h.le_stop

end

/-! ### Finding items -/

/-- The result of `findItem` for segments that lie on a page from an entry on: the first item with
the name counts, also if its type is another one. -/
def locate (nsIndex : ℕ) (datatype : ItemType) (key : CStr) : ℕ → List Seg → FindResult
  | _, [] => .notFound
  | i, .dead :: segs => locate nsIndex datatype key (i + 1) segs
  | i, .live s :: segs =>
      if s.Named nsIndex key then
        if s.value.datatype = datatype then .found i s.header else .typeMismatch
      else locate nsIndex datatype key (i + s.span) segs
  | i, .broken s :: segs => locate nsIndex datatype key (i + s.span) segs

section
variable {nsIndex : ℕ} {datatype : ItemType} {key : CStr}

theorem locate_append {A B : List Seg} {i : ℕ} (h : ∀ s ∈ lives A, ¬ s.Named nsIndex key) :
    locate nsIndex datatype key i (A ++ B) = locate nsIndex datatype key (i + size A) B := by
  induction A generalizing i with
  | nil => rfl
  | cons x A ih =>
      rw [size_cons, ← Nat.add_assoc, List.cons_append]
      cases x with
      | dead => exact ih h
      | live s =>
          have hs : ¬ s.Named nsIndex key := h s List.mem_cons_self
          rw [locate, if_neg hs]
          exact ih fun t ht => h t (List.mem_cons_of_mem _ ht)
      | broken s => exact ih h

theorem locate_notFound {A : List Seg} {i : ℕ} (h : ∀ s ∈ lives A, ¬ s.Named nsIndex key) :
    locate nsIndex datatype key i A = .notFound := by
  have happend : locate nsIndex datatype key i (A ++ []) = .notFound := locate_append h
  rwa [List.append_nil] at happend

/-- The first item with a name, and where it lies. -/
theorem exists_locate (nsIndex : ℕ) (datatype : ItemType) (key : CStr) (segs : List Seg) (i : ℕ) :
    ((lives segs).find? (fun s => s.Named nsIndex key) = none ∧
      locate nsIndex datatype key i segs = .notFound) ∨
    ∃ A s B, segs = A ++ .live s :: B ∧ s.Named nsIndex key ∧
      (∀ t ∈ lives A, ¬ t.Named nsIndex key) ∧
      (lives segs).find? (fun s => s.Named nsIndex key) = some s ∧
      locate nsIndex datatype key i segs =
        if s.value.datatype = datatype then .found (i + size A) s.header else .typeMismatch := by
  by_cases h : ∃ s ∈ lives segs, s.Named nsIndex key
  · right
    induction segs generalizing i with
    | nil =>
        obtain ⟨s, hs, -⟩ := h
        exact absurd hs List.not_mem_nil
    | cons x segs ih =>
        have hnext : (∀ t ∈ lives [x], ¬ t.Named nsIndex key) →
            ∃ A s B, x :: segs = A ++ .live s :: B ∧ s.Named nsIndex key ∧
              (∀ t ∈ lives A, ¬ t.Named nsIndex key) ∧
              (lives (x :: segs)).find? (fun s => s.Named nsIndex key) = some s ∧
              locate nsIndex datatype key i (x :: segs) =
                if s.value.datatype = datatype then .found (i + size A) s.header
                else .typeMismatch := by
          intro hx
          have hsplit : lives (x :: segs) = lives [x] ++ lives segs := lives_append [x] segs
          have hrest : ∃ s ∈ lives segs, s.Named nsIndex key := by
            obtain ⟨s, hs, hn⟩ := h
            rw [hsplit] at hs
            exact ⟨s, (List.mem_append.mp hs).resolve_left fun hm => hx s hm hn, hn⟩
          obtain ⟨A, s, B, hAB, hs, hA, hfind, hloc⟩ := ih (i + x.size) hrest
          refine ⟨x :: A, s, B, by rw [hAB]; rfl, hs, ?_, ?_, ?_⟩
          · intro t ht
            have ht' : t ∈ lives [x] ++ lives A := lives_append [x] A ▸ ht
            exact (List.mem_append.mp ht').elim (hx t) (hA t)
          · rw [hsplit, List.find?_append, List.find?_eq_none.mpr (by simpa using hx), hfind]
            rfl
          · have happend : locate nsIndex datatype key i ([x] ++ segs) =
                locate nsIndex datatype key (i + size [x]) segs := locate_append hx
            rw [size_cons, ← Nat.add_assoc, ← hloc]
            simpa using happend
        cases x with
        | dead => exact hnext fun t ht => absurd ht List.not_mem_nil
        | broken t => exact hnext fun t ht => absurd ht List.not_mem_nil
        | live t =>
            by_cases ht : t.Named nsIndex key
            · exact ⟨[], t, segs, rfl, ht, fun _ hm => absurd hm List.not_mem_nil,
                List.find?_cons_of_pos (by simpa using ht), by rw [locate, if_pos ht]; rfl⟩
            · exact hnext fun u hu => by
                rcases List.mem_singleton.mp hu with rfl
                exact ht
  · left
    have hnone : ∀ s ∈ lives segs, ¬ s.Named nsIndex key := fun s hs hn => h ⟨s, hs, hn⟩
    exact ⟨List.find?_eq_none.mpr (by simpa using hnone), locate_notFound hnone⟩

variable (mis : Misread) {p : Page} {A B P : List Seg}

/-- The loop of `findItem` from a segment on. -/
theorem Page.Indexed.findLoop (h : p.Indexed N (A ++ B) []) {fuel : ℕ} (hfuel : size B < fuel) :
    p.findLoop mis nsIndex datatype key p.stop fuel (size A) =
      some (p, locate nsIndex datatype key (size A) B) := by
  induction B generalizing A fuel with
  | nil =>
      cases fuel with
      | zero => omega
      | succ fuel =>
          rw [Page.findLoop, if_pos (by rw [h.stop_eq, List.append_nil])]
          rfl
  | cons x B ih =>
      have hpos := x.size_pos
      have hstop : ¬ p.stop ≤ size A := by
        rw [h.stop_eq, size_append, size_cons]
        omega
      have hlayout := h.layout
      rw [List.append_nil] at hlayout
      have hat := hlayout.at
      rw [size_cons] at hfuel
      cases fuel with
      | zero => omega
      | succ fuel =>
          have hnext : p.findLoop mis nsIndex datatype key p.stop fuel (size A + x.size) =
              some (p, locate nsIndex datatype key (size A + x.size) B) := by
            have := @ih (A ++ [x]) (by simpa using h) fuel (by omega)
            simpa using this
          rw [Page.findLoop, if_neg hstop]
          cases x with
          | dead =>
              have hstate : p.flash.state (size A) = .erased := hat
              rw [if_pos (by rw [hstate]; exact EntryState.noConfusion)]
              exact hnext
          | broken s => exact absurd (by simp) (h.whole s)
          | live s =>
              obtain ⟨hentry, hstate⟩ := Seg.Of.header (.inl rfl) hat
              have hread : mis.readItem (.item s.header) = (s.header, true) := rfl
              have hstep : (if s.header.datatype = .sz then size A + s.header.span
                  else size A + 1) = size A + s.span := by
                rw [s.datatype_header, s.header_span]
                split_ifs with hsz
                · rfl
                · rw [Stored.span_of_u8 hsz]
              simp only [hstate, hentry, hread, hstep, ne_eq, not_true, if_false, reduceCtorEq]
              rw [locate]
              by_cases hn : s.Named nsIndex key
              · have hfound : ¬ (¬ s.header.nsIndex = nsIndex ∨ ¬ s.header.key = keyField key) :=
                  fun hc => hc.elim (fun hc => hc hn.1) (fun hc => hc hn.2)
                rw [if_neg hfound, if_pos hn, s.datatype_header]
                split_ifs <;> rfl
              · have hother : ¬ s.header.nsIndex = nsIndex ∨ ¬ s.header.key = keyField key :=
                  not_and_or.mp hn
                rw [if_pos hother, if_neg hn]
                exact hnext

/-- `findItem` finds the first item with the name. -/
theorem Page.Indexed.findItem (h : p.Indexed N P []) :
    p.findItem mis nsIndex datatype key = some (p, locate nsIndex datatype key 0 P) := by
  have hstart : ∀ A s B, P = A ++ .live s :: B → ∃ u ≤ size A, p.firstUsedEntry = some u := by
    rintro A s B rfl
    have hlayout := h.layout
    rw [List.append_assoc] at hlayout
    refine h.used.first (size A) ?_ (Seg.Of.header (.inl rfl) hlayout.at).2
    have := s.span_pos
    rw [h.stop_eq, size_append, size_cons, Seg.size]
    omega
  rw [Page.findItem]
  cases hfirst : p.firstUsedEntry with
  | none =>
      have hnone : ∀ s ∈ lives P, ¬ s.Named nsIndex key := by
        intro s hs
        obtain ⟨A, B, hAB⟩ := exists_of_mem_lives hs
        obtain ⟨u, -, hu⟩ := hstart A s B hAB
        rw [hfirst] at hu
        cases hu
      exact congrArg (fun r => some (p, r)) (locate_notFound hnone).symm
  | some start =>
      have hle : ∀ e ∈ hashes 0 P, start ≤ e.2 := by
        intro e he
        obtain ⟨A, s, B, hAB, rfl⟩ := mem_hashes he
        obtain ⟨u, hu, hfu⟩ := hstart A s B hAB
        rw [hfirst] at hfu
        obtain rfl := Option.some.inj hfu
        rwa [Nat.zero_add]
      rw [Option.bind_some, Page.hashFind, h.hashList]
      obtain ⟨hfind, hl⟩ | ⟨A, s, B, rfl, hs, hA, hfind⟩ := find_hashes hle (hash24 nsIndex key)
      · have hnone : ∀ s ∈ lives P, ¬ s.Named nsIndex key := fun s hs hn => hl s hs hn.hash_eq
        rw [hfind, locate_notFound hnone]
        rfl
      · have hnone : ∀ s ∈ lives A, ¬ s.Named nsIndex key := fun s hs hn => hA s hs hn.hash_eq
        rw [hfind, locate_append hnone, Nat.zero_add]
        refine h.findLoop mis ?_
        have := h.layout.le.trans h.layout.limit
        simp only [size_append, size_nil] at this
        omega

end

end NvsPage

end Sicae
