import Sicae.NvsIndex

/-! # Loading a page

`mLoadEntryTable` makes good what a power cut left behind: an entry that was programmed without its
state is erased, an item of which entries are missing is erased, and of two items with the same hash
the earlier one is.

It comes to an end on every page on which segments lie, and leaves one of complete items with
different hashes; whenever power goes before, the page stands for what it stood for
(`load_recovers`). -/

namespace Sicae

open CString PowerCut

namespace NvsPage

variable {N : ℕ}

/-! ### Entries without their state -/

theorem firstEntry_eq_some {f : Flash} {s : EntryState} {e : ℕ} :
    f.firstEntry s = some e ↔ f.state e = s ∧ e < entryCount ∧ ∀ k < e, f.state k ≠ s := by
  rw [Flash.firstEntry, List.find?_range_eq_some]
  simp

theorem firstEntry_eq_none {f : Flash} {s : EntryState} :
    f.firstEntry s = none ↔ ∀ k < entryCount, f.state k ≠ s := by
  rw [Flash.firstEntry, List.find?_range_eq_none]
  simp

/-- Erasing the entry behind the last segment, which was programmed without its state. -/
theorem Layout.eraseNext {f : Flash} {segs : List Seg} (h : Layout N f segs)
    (hlt : size segs < N) (hne : ∀ k < size segs, f.state k ≠ .empty) :
    Layout N (f.setStates (size segs) (size segs + 1) .erased) (segs ++ [.dead]) := by
  have hsize : size (segs ++ [.dead]) = size segs + 1 := by simp [Seg.size]
  have hout : ∀ k, k ≠ size segs →
      (f.setStates (size segs) (size segs + 1) .erased).state k = f.state k := by
    intro k hk
    rw [setStates_state, if_neg (by omega)]
  have herased : (f.setStates (size segs) (size segs + 1) .erased).state (size segs) = .erased := by
    rw [setStates_state, if_pos (by omega), EntryState.program_erased]
  refine ⟨?_, h.limit, by omega, ?_, ?_, ?_, ?_⟩
  · rw [lays_append, Nat.zero_add]
    exact ⟨h.lays.congr fun k _ hk => ⟨hout k (by omega), rfl⟩, herased, trivial⟩
  · intro k hk
    rw [hout k (by omega), setStates_entry]
    exact h.rest k (by omega)
  · rw [hsize, hout _ (by omega)]
    exact (h.rest _ (by omega)).1
  · rw [hsize, setStates_entry]
    exact .inl (h.rest _ (by omega)).2
  · intro k hk he
    rw [hsize] at hk
    rcases Nat.eq_or_lt_of_le (Nat.le_of_lt_succ hk) with rfl | hlt
    · rw [herased] at he
      cases he
    · exact absurd (empty_of_setStates he) (hne k hlt)

/-- Where the loop that erases such entries stands. -/
inductive Erasing (f : Flash) (segs : List Seg) : ℕ → Prop
  | behind : Erasing f segs (size segs)
  | inside {A : List Seg} {s : Stored} {e : ℕ} : segs = A ++ [.broken s] → size A < e →
      e < size segs → f.entry (size segs) = .blank → Erasing f segs e

/-- Where it stops. -/
theorem Erasing.free {f : Flash} {segs : List Seg} {e : ℕ} (h : Erasing f segs e)
    (hl : Layout N f segs) (hstop : ¬ (e < entryCount ∧ (f.entry e).headerBlank = false)) :
    f.entry (size segs) = .blank ∧ FreeAfter 0 segs (some e) := by
  cases h with
  | behind =>
      refine ⟨?_, by simpa using FreeAfter.settled (i := 0) (R := segs)⟩
      rcases hl.begun with hb | ⟨hlt, hb, -⟩
      · exact hb
      · exact absurd ⟨hlt.trans_le hl.limit, hb⟩ hstop
  | inside hA hlo hhi hb => exact ⟨hb, .cutShort hA (by omega) (by omega)⟩

/-- One round of it. -/
theorem Erasing.step {f : Flash} {segs : List Seg} {e : ℕ} (h : Erasing f segs e)
    (hl : Layout N f segs) (hb : (f.entry e).headerBlank = false) :
    ∃ segs', Layout N (f.setStates e (e + 1) .erased) segs' ∧ lives segs' = lives segs ∧
      Erasing (f.setStates e (e + 1) .erased) segs' (e + 1) := by
  cases h with
  | behind =>
      obtain ⟨hlt, hne⟩ : size segs < N ∧ ∀ k < size segs, f.state k ≠ .empty := by
        rcases hl.begun with hblank | ⟨hlt, -, hne⟩
        · rw [hblank] at hb
          cases hb
        · exact ⟨hlt, hne⟩
      refine ⟨segs ++ [.dead], hl.eraseNext hlt hne, by simp, ?_⟩
      have hsize : size segs + 1 = size (segs ++ [.dead]) := by simp [Seg.size]
      rw [hsize]
      exact .behind
  | @inside A s e hA hlo hhi hblank =>
      subst hA
      have hsize : size (A ++ [.broken s]) = size A + s.span := by simp [Seg.size]
      refine ⟨A ++ [.broken s], hl.breakItem (.inr rfl) hlo (by omega) (by omega), rfl, ?_⟩
      rcases Nat.eq_or_lt_of_le (Nat.succ_le_of_lt hhi) with heq | hlt
      · have heq : e + 1 = size (A ++ [.broken s]) := heq
        rw [heq]
        exact .behind
      · exact .inside rfl (by omega) hlt hblank

theorem Page.Extends.write {I : Flash → Prop} {p : Page} {w : FlashWrite} (hs : I p.flash)
    (ht : ∀ t, I (flashMedium.torn w t p.flash)) (hw : I (flashMedium.write w p.flash)) :
    p.Extends I (p.write w) :=
  ⟨[w], rfl, rfl, Medium.safe_single hs ht hw⟩

/-- The page after rounds of the loop: the segments hold the same items. -/
structure Page.Settles (p : Page) (N : ℕ) (p' : Page) (segs segs' : List Seg) : Prop where
  layout : Layout N p'.flash segs'
  lives_eq : lives segs' = lives segs
  safe : p.Extends (Recovers N · (survivors (lives segs))) p'
  hashList : p'.hashList = p.hashList
  firstUsed : p'.firstUsedEntry = p.firstUsedEntry
  stop_le : p.stop ≤ p'.stop
  written : ∀ k, p'.flash.state k = .written → p.flash.state k = .written

theorem Page.Settles.trans {p p' p'' : Page} {segs segs' segs'' : List Seg}
    (h : p.Settles N p' segs segs') (h' : p'.Settles N p'' segs' segs'') :
    p.Settles N p'' segs segs'' where
  layout := h'.layout
  lives_eq := h'.lives_eq.trans h.lives_eq
  safe := h.safe.trans (h.lives_eq ▸ h'.safe)
  hashList := h'.hashList.trans h.hashList
  firstUsed := h'.firstUsed.trans h.firstUsed
  stop_le := h.stop_le.trans h'.stop_le
  written := fun k hk => h.written k (h'.written k hk)

/-- No round. -/
theorem Page.settles_self {p : Page} {segs : List Seg} (h : Layout N p.flash segs) :
    p.Settles N p segs segs :=
  ⟨h, rfl, .refl rfl rfl ⟨segs, h, rfl⟩, rfl, rfl, le_rfl, fun _ hk => hk⟩

/-- One round. -/
theorem Erasing.settles {p : Page} {segs : List Seg} {e : ℕ} (he : Erasing p.flash segs e)
    (h : Layout N p.flash segs) (hn : p.nextFreeEntry = some e)
    (hb : (p.flash.entry e).headerBlank = false) :
    ∃ segs', p.Settles N { p.alterEntryState e .erased with nextFreeEntry := some (e + 1) } segs
        segs' ∧
      Erasing (p.flash.setStates e (e + 1) .erased) segs' (e + 1) := by
  obtain ⟨segs', hl, hlives, he'⟩ := he.step h hb
  refine ⟨segs', ⟨hl, hlives, ?_, rfl, rfl, ?_, fun k hk => ?_⟩, he'⟩
  · exact Page.Extends.write ⟨segs, h, rfl⟩ (fun _ => ⟨segs, h, rfl⟩) ⟨segs', hl, by rw [hlives]⟩
  · rw [Page.stop, hn]
    show min e entryCount ≤ min (e + 1) entryCount
    omega
  · have hk' : (p.flash.setStates e (e + 1) .erased).state k = .written := hk
    rw [setStates_state] at hk'
    split_ifs at hk' with hin
    · rw [EntryState.program_erased] at hk'
      cases hk'
    · exact hk'

/-- The loop erases the entries that were programmed without their state. -/
theorem eraseHalfWritten_settles {segs : List Seg} {fuel e : ℕ} {p : Page}
    (h : Layout N p.flash segs) (hn : p.nextFreeEntry = some e) (he : Erasing p.flash segs e) (hfuel : entryCount ≤ e + fuel) :
    ∃ segs', p.Settles N (p.eraseHalfWritten fuel) segs segs' ∧
      (p.eraseHalfWritten fuel).flash.entry (size segs') = .blank ∧
      FreeAfter 0 segs' (p.eraseHalfWritten fuel).nextFreeEntry := by
  induction fuel generalizing p segs e with
  | zero =>
      obtain ⟨hb, hf⟩ := he.free h (by omega)
      exact ⟨segs, p.settles_self h, hb, hn ▸ hf⟩
  | succ fuel ih =>
      rw [Page.eraseHalfWritten, hn]
      dsimp only
      split_ifs with hstep
      · obtain ⟨segs', hs, he'⟩ := he.settles h hn hstep.2
        obtain ⟨segs'', hs', hblank, hfree⟩ := ih hs.layout rfl he' (by omega)
        exact ⟨segs'', hs.trans hs', hblank, hfree⟩
      · obtain ⟨hb, hf⟩ := he.free h hstep
        exact ⟨segs, p.settles_self h, hb, hn ▸ hf⟩

/-- The page that `mLoadEntryTable` starts with. -/
def Flash.scanned (f : Flash) : Page where
  flash := f
  nextFreeEntry := f.firstEntry .empty
  firstUsedEntry := f.firstEntry .written
  hashList := []
  log := []

/-- The first empty entry is the one behind the segments, or lies inside the last one. -/
theorem Layout.erasing {f : Flash} {segs : List Seg} {e : ℕ} (h : Layout N f segs)
    (he : f.firstEntry .empty = some e) : Erasing f segs e := by
  obtain ⟨hstate, -, hmin⟩ := firstEntry_eq_some.mp he
  have hle : e ≤ size segs := Nat.le_of_not_lt fun hlt => hmin _ hlt h.next
  rcases Nat.eq_or_lt_of_le hle with rfl | hlt
  · exact .behind
  · obtain ⟨A, s, rfl, hA⟩ := h.unwritten e hlt hstate
    refine .inside rfl hA hlt ?_
    rcases h.begun with hb | ⟨-, -, hne⟩
    · exact hb
    · exact absurd hstate (hne e hlt)

/-- The first entry that is written lies in front of the first empty one. -/
theorem Layout.firstUsed_le {f : Flash} {segs : List Seg} {u : ℕ} (h : Layout N f segs)
    (hu : f.firstEntry .written = some u) : u ≤ f.scanned.stop := by
  obtain ⟨hw, hlt, hmin⟩ := firstEntry_eq_some.mp hu
  rw [Page.stop, Flash.scanned]
  cases he : f.firstEntry .empty with
  | none => exact hlt.le
  | some e =>
      have hle : u ≤ e := by
        cases h.erasing he with
        | behind =>
            by_contra hgt
            rw [(h.rest u (by omega)).1] at hw
            cases hw
        | @inside A s e hA hlo hhi hb =>
            subst hA
            have := (Seg.Of.header (.inr rfl) h.at).2
            by_contra hgt
            exact hmin _ (by omega) this
      show u ≤ min e entryCount
      omega

/-- The page before its items are checked. -/
theorem Layout.indexed {f : Flash} {segs : List Seg} (h : Layout N f segs) :
    ∃ segs', (f.scanned.eraseHalfWritten entryCount).Indexed N [] segs' ∧ lives segs' = lives segs ∧
      f.scanned.Extends (Recovers N · (survivors (lives segs)))
        (f.scanned.eraseHalfWritten entryCount) := by
  have hsettled : ∃ segs', f.scanned.Settles N (f.scanned.eraseHalfWritten entryCount) segs segs' ∧
      (f.scanned.eraseHalfWritten entryCount).flash.entry (size segs') = .blank ∧
      FreeAfter 0 segs' (f.scanned.eraseHalfWritten entryCount).nextFreeEntry := by
    cases he : f.firstEntry .empty with
    | some e => exact eraseHalfWritten_settles h he (h.erasing he) (by omega)
    | none =>
        have hfull : size segs = entryCount := by
          have := firstEntry_eq_none.mp he
          by_contra hne
          exact this _ (Nat.lt_of_le_of_ne (h.le.trans h.limit) hne) h.next
        have hsame : f.scanned.eraseHalfWritten entryCount = f.scanned := by
          rw [entryCount, Page.eraseHalfWritten, Flash.scanned, he]
        rw [hsame]
        have hfree : FreeAfter 0 segs (f.firstEntry .empty) := by
          rw [he]
          exact .full (by rw [hfull, Nat.zero_add])
        refine ⟨segs, f.scanned.settles_self h, ?_, hfree⟩
        rcases h.begun with hb | ⟨hlt, -, -⟩
        · exact hb
        · have := h.limit
          omega
  obtain ⟨segs', hs, hblank, hfree⟩ := hsettled
  refine ⟨segs', ⟨hs.layout, hblank, fun s hm => absurd hm List.not_mem_nil, hs.hashList, hfree, ?_⟩,
    hs.lives_eq, hs.safe⟩
  refine ⟨fun k hk hw => ?_, fun u hu => ?_⟩
  case refine_2 =>
    rw [hs.firstUsed] at hu
    refine le_trans ?_ hs.stop_le
    exact h.firstUsed_le hu
  have hmem : k ∈ List.range' 0 entryCount := by
    have := Page.stop_le_entryCount (f.scanned.eraseHalfWritten entryCount)
    exact List.mem_range'_1.mpr (by omega)
  have hk' : decide (f.state k = .written) = true := decide_eq_true (hs.written k hw)
  rw [hs.firstUsed, Flash.scanned, Flash.firstEntry, List.range_eq_range']
  exact exists_find_range' (q := fun i => f.state i = .written) hmem hk'

/-! ### Checking the items -/

/-- The loop over the entries up to `stop` meets the beginning of every segment from `i` on. -/
def StopsAfter (stop i : ℕ) (R : List Seg) : Prop :=
  stop ≤ i + size R ∧ ∀ Q x S, R = Q ++ x :: S → i + size Q < stop

theorem StopsAfter.tail {stop i : ℕ} {x : Seg} {R : List Seg} (h : StopsAfter stop i (x :: R)) :
    StopsAfter stop (i + x.size) R := by
  obtain ⟨hle, hlt⟩ := h
  refine ⟨by rwa [size_cons, ← Nat.add_assoc] at hle, ?_⟩
  rintro Q y S rfl
  have := hlt (x :: Q) y S rfl
  rwa [size_cons, ← Nat.add_assoc] at this

theorem Page.Indexed.stopsAfter {p : Page} {P R : List Seg} (h : p.Indexed N P R) :
    StopsAfter p.stop (size P) R := by
  have hle := h.layout.le.trans h.layout.limit
  rw [size_append] at hle
  have hpos : ∀ {Q S : List Seg} {x : Seg}, size Q < size (Q ++ x :: S) := by
    intro Q S x
    have := x.size_pos
    rw [size_append, size_cons]
    omega
  have hfree := h.free
  rw [Page.stop]
  generalize p.nextFreeEntry = n at hfree
  cases hfree with
  | settled =>
      refine ⟨Nat.min_le_left _ _, ?_⟩
      rintro Q x S rfl
      have := @hpos Q S x
      show size P + size Q < min _ _
      omega
  | full hfull =>
      refine ⟨hfull.ge, ?_⟩
      rintro Q x S rfl
      have := @hpos Q S x
      show size P + size Q < entryCount
      omega
  | @cutShort T s e hR hlo hhi =>
      refine ⟨by show min e entryCount ≤ _; omega, ?_⟩
      rintro Q x S hQ
      have hQT : size Q ≤ size T := by
        rw [hR] at hQ
        rcases List.eq_nil_or_concat S with rfl | ⟨S, y, rfl⟩
        · rw [(List.append_inj' hQ rfl).1]
        · have hQ' : T ++ [.broken s] = (Q ++ x :: S) ++ [y] := by simpa using hQ
          rw [(List.append_inj' hQ' rfl).1]
          exact hpos.le
      show size P + size Q < min e entryCount
      omega

/-- The last item of the loop is that of the last segment. -/
def LastOf (P : List Seg) : Option (ℕ × Item) → Prop
  | none => True
  | some (i, item) => ∃ A s, P = A ++ [.live s] ∧ i = size A ∧ item = s.header

section
variable {p : Page} {P R : List Seg} {s : Stored}

/-- An erased entry is passed over. -/
theorem Page.Indexed.skipDead (h : p.Indexed N P (.dead :: R)) : p.Indexed N (P ++ [.dead]) R where
  layout := by simpa using h.layout
  blank := by simpa using h.blank
  whole := by simpa using h.whole
  hashList := by simpa [hashes_append, hashes] using h.hashList
  free := by
    have := h.free.tail (fun s hc => Seg.noConfusion hc)
    simpa using this
  used := h.used

/-- The hash of a complete item is inserted. -/
theorem Page.Indexed.insertHash (h : p.Indexed N P (.live s :: R)) :
    ({ p with hashList := p.hashList ++ [(s.hash, size P)] } : Page).Indexed N (P ++ [.live s])
      R where
  layout := by simpa using h.layout
  blank := by simpa using h.blank
  whole := by simpa using h.whole
  hashList := by
    show p.hashList ++ [(s.hash, size P)] = _
    rw [h.hashList, hashes_append, Nat.zero_add]
    rfl
  free := by
    have := h.free.tail (fun s hc => Seg.noConfusion hc)
    simpa using this
  used := ⟨h.used.first, h.used.le⟩

/-- Where the duplicate of the last item lies: at an earlier item with its hash, or at itself. -/
theorem Page.Indexed.duplicate (h : p.Indexed N (P ++ [.live s]) R) :
    (p.hashFind 0 s.hash = some (size P) ∧ ∀ t ∈ lives P, t.hash ≠ s.hash) ∨
    ∃ A t B, P = A ++ .live t :: B ∧ t.hash = s.hash ∧ p.hashFind 0 s.hash = some (size A) := by
  rw [Page.hashFind, h.hashList]
  have hstart : ∀ e ∈ hashes 0 (P ++ [.live s]), 0 ≤ e.2 := fun e _ => Nat.zero_le e.2
  obtain ⟨-, hnone⟩ | ⟨A, t, B, hAB, ht, hA, hfind⟩ := find_hashes hstart s.hash
  · exact absurd rfl (hnone s (by simp))
  · rw [hfind, Nat.zero_add]
    rcases List.eq_nil_or_concat B with rfl | ⟨B, y, rfl⟩
    · obtain ⟨rfl, -⟩ := List.append_inj' hAB rfl
      exact .inl ⟨rfl, hA⟩
    · have hAB' : P ++ [.live s] = (A ++ .live t :: B) ++ [y] := by simpa using hAB
      exact .inr ⟨A, t, B, (List.append_inj' hAB' rfl).1, ht, rfl⟩

/-- One round of the loop: the page before and after it, and the segments that are indexed then. -/
structure Page.Round (p : Page) (N : ℕ) (p' : Page) (P : List Seg) (x : Seg) (R P' : List Seg)
    (last : Option (ℕ × Item)) : Prop where
  indexed : p'.Indexed N P' R
  size_eq : size P' = size P + x.size
  pairwise : (lives P').Pairwise Stored.Apart
  survivors_eq : survivors (lives (P' ++ R)) = survivors (lives (P ++ x :: R))
  last : LastOf P' last
  safe : p.Extends (Recovers N · (survivors (lives (P ++ x :: R)))) p'

theorem Page.Indexed.recovers (h : p.Indexed N P R) :
    Recovers N p.flash (survivors (lives (P ++ R))) :=
  ⟨P ++ R, h.layout, rfl⟩

/-- The round at an erased entry. -/
theorem Page.Indexed.roundDead (h : p.Indexed N P (.dead :: R))
    (hP : (lives P).Pairwise Stored.Apart) :
    p.Round N p P .dead R (P ++ [.dead]) none where
  indexed := h.skipDead
  size_eq := by simp
  pairwise := by simpa using hP
  survivors_eq := by simp
  last := trivial
  safe := .refl rfl rfl h.recovers

/-- The round at an item that is not complete. -/
theorem Page.Indexed.roundBroken (mis : Misread) (h : p.Indexed N P (.broken s :: R))
    (hP : (lives P).Pairwise Stored.Apart) :
    ∃ p', ({ p with hashList := p.hashList ++ [(s.hash, size P)] } : Page).eraseEntryAndSpan mis
        (size P) = some p' ∧
      p.Round N p' P (.broken s) R (P ++ List.replicate s.span .dead) none := by
  obtain ⟨p', hp', hsafe, hindexed⟩ := h.eraseBroken mis
  exact ⟨p', hp', hindexed, by simp [Seg.size], by simpa using hP, by simp, trivial, hsafe⟩

/-- The round at a complete item without duplicates. -/
theorem Page.Indexed.roundFresh (h : p.Indexed N P (.live s :: R))
    (hP : (lives P).Pairwise Stored.Apart) (hfresh : ∀ t ∈ lives P, t.hash ≠ s.hash) :
    p.Round N { p with hashList := p.hashList ++ [(s.hash, size P)] } P (.live s) R
      (P ++ [.live s]) (some (size P, s.header)) where
  indexed := h.insertHash
  size_eq := by simp
  pairwise := by
    rw [lives_append, List.pairwise_append]
    refine ⟨hP, List.pairwise_singleton _ _, fun t ht u hu => ?_⟩
    obtain rfl := List.mem_singleton.mp hu
    exact hfresh t ht
  survivors_eq := by simp
  last := ⟨P, s, rfl, rfl, rfl⟩
  safe := .refl rfl rfl h.recovers

/-- The round at a complete item with an earlier duplicate. -/
theorem Page.Indexed.roundDuplicate (mis : Misread) {A B : List Seg} {t : Stored}
    (h : p.Indexed N (A ++ .live t :: B) (.live s :: R))
    (hP : (lives (A ++ .live t :: B)).Pairwise Stored.Apart) (ht : t.hash = s.hash) :
    ∃ p', ({ p with hashList := p.hashList ++
        [(s.hash, size (A ++ .live t :: B))] } : Page).eraseEntryAndSpan mis (size A) = some p' ∧
      p.Round N p' (A ++ .live t :: B) (.live s) R
        (A ++ List.replicate t.span .dead ++ (B ++ [.live s]))
        (some (size (A ++ .live t :: B), s.header)) := by
  have hindexed := h.insertHash
  rw [List.append_assoc, List.cons_append] at hindexed
  have hshadow : survivors (lives (A ++ .live t :: (B ++ [.live s]) ++ R)) =
      survivors (lives (A ++ (B ++ [.live s]) ++ R)) := by
    have := survivors_shadowed (A := lives A) (B := lives B ++ s :: lives R) (s := t) (t := s)
      (by simp) ht
    simpa using this
  obtain ⟨p', hp', hsafe, hindexed'⟩ := hindexed.eraseChecked mis hshadow
  have hsafe' : p.Extends
      (Recovers N · (survivors (lives (A ++ .live t :: (B ++ [.live s]) ++ R)))) p' := hsafe
  refine ⟨p', hp', hindexed', ?_, ?_, ?_, ?_, ?_⟩
  · simp [Seg.size, Nat.add_assoc]
  · rw [lives_append, lives_live, List.pairwise_middle Stored.Apart.symm] at hP
    obtain ⟨hall, hAB⟩ := List.pairwise_cons.mp hP
    have hrest : lives (A ++ List.replicate t.span .dead ++ (B ++ [.live s])) =
        lives A ++ lives B ++ [s] := by simp
    rw [hrest, List.pairwise_append]
    refine ⟨hAB, List.pairwise_singleton _ _, fun u hu v hv => ?_⟩
    obtain rfl := List.mem_singleton.mp hv
    rw [Stored.Apart, ← ht]
    exact (hall u hu).symm
  · simpa using hshadow.symm
  · refine ⟨A ++ List.replicate t.span .dead ++ B, s, by simp, ?_, rfl⟩
    simp [Seg.size]
  · simpa using hsafe'

/-- One round of the loop. -/
theorem Page.Indexed.round (mis : Misread) {x : Seg} (h : p.Indexed N P (x :: R))
    (hP : (lives P).Pairwise Stored.Apart) :
    ∃ p' P' last, p.checkEntry mis (size P) = some (p', size P', last) ∧
      p.Round N p' P x R P' last := by
  have hat := h.layout.at
  rw [Page.checkEntry]
  cases x with
  | dead =>
      have hround := h.roundDead hP
      have hstate : p.flash.state (size P) = .erased := hat
      rw [if_pos hstate]
      exact ⟨_, _, _, by rw [hround.size_eq]; rfl, hround⟩
  | broken s =>
      obtain ⟨p', hp', hround⟩ := h.roundBroken mis hP
      obtain ⟨hentry, hstate⟩ := Seg.Of.header (.inr rfl) hat
      have hread : mis.readItem (.item s.header) = (s.header, true) := rfl
      have hsz : s.value.datatype = .sz := hat.datatype_broken
      have hincomplete : p.flash.incomplete (size P) s.span = true := incomplete_iff.mpr hat.2.2.1
      refine ⟨p', _, none, ?_, hround⟩
      rw [hround.size_eq]
      simp only [hstate, hentry, hread, Page.checkItem, Page.insertHash, s.hash_header,
        s.datatype_header, s.header_span, hsz, hincomplete, and_self, if_true, hp', Option.map_some, Seg.size,
        reduceCtorEq, if_false]
  | live s =>
      obtain ⟨hentry, hstate⟩ := Seg.Of.header (.inl rfl) hat
      have hread : mis.readItem (.item s.header) = (s.header, true) := rfl
      have hcomplete : p.flash.incomplete (size P) s.span = false := by
        rw [← Bool.not_eq_true, incomplete_iff]
        rintro ⟨k, hk, hne⟩
        exact hne (hat.2 k hk)
      have hspan : (if s.value.datatype = .sz then s.span else 1) = s.span := by
        split_ifs with hsz
        · rfl
        · exact (Stored.span_of_u8 hsz).symm
      simp only [hstate, hentry, hread, Page.checkItem, Page.insertHash, s.hash_header,
        s.datatype_header, s.header_span, hcomplete, hspan, and_false, if_false, reduceCtorEq, Bool.false_eq_true]
      rcases h.insertHash.duplicate with ⟨hfind, hfresh⟩ | ⟨A, t, B, rfl, ht, hfind⟩
      · have hround := h.roundFresh hP hfresh
        refine ⟨_, _, _, ?_, hround⟩
        rw [hfind, hround.size_eq]
        simp [Seg.size]
      · obtain ⟨p', hp', hround⟩ := h.roundDuplicate mis hP ht
        refine ⟨p', _, _, ?_, hround⟩
        have hearlier : size A < size (A ++ .live t :: B) := by
          have := t.span_pos
          simp only [size_append, size_cons, Seg.size]
          omega
        rw [hfind, hround.size_eq]
        simp only [hearlier, if_true, hp', Option.map_some, Seg.size]

/-- The page after the loop, which had items `l` to check. -/
structure Page.Checked (p : Page) (N : ℕ) (p' : Page) (l : List Stored) (P : List Seg)
    (last : Option (ℕ × Item)) : Prop where
  indexed : p'.Indexed N P []
  lives_eq : lives P = survivors l
  last : LastOf P last
  safe : p.Extends (Recovers N · (survivors l)) p'

theorem Page.Round.checked {p' p'' : Page} {x : Seg} {P' P'' : List Seg}
    {last last' : Option (ℕ × Item)} (h : p.Round N p' P x R P' last)
    (h' : p'.Checked N p'' (lives (P' ++ R)) P'' last') :
    p.Checked N p'' (lives (P ++ x :: R)) P'' last' where
  indexed := h'.indexed
  lives_eq := h'.lives_eq.trans h.survivors_eq
  last := h'.last
  safe := h.safe.trans (h.survivors_eq ▸ h'.safe)

/-- The loop comes to an end, and of the items with one hash it leaves the last. -/
theorem Page.Indexed.checkItems (mis : Misread) {stop fuel : ℕ} {last : Option (ℕ × Item)}
    (h : p.Indexed N P R) (hP : (lives P).Pairwise Stored.Apart) (hstop : StopsAfter stop (size P) R)
    (hlast : LastOf P last) (hfuel : R.length < fuel) :
    ∃ p' P' last', p.checkItems mis stop fuel (size P) last = some (p', last') ∧
      p.Checked N p' (lives (P ++ R)) P' last' := by
  induction R generalizing p P fuel last with
  | nil =>
      cases fuel with
      | zero => omega
      | succ fuel =>
          have hle : stop ≤ size P := hstop.1
          refine ⟨p, P, last, by rw [Page.checkItems, if_pos hle], h, ?_, hlast, ?_⟩
          · rw [List.append_nil, survivors_of_pairwise hP]
          · exact .refl rfl rfl h.recovers
  | cons x R ih =>
      cases fuel with
      | zero => omega
      | succ fuel =>
          have hlt : size P < stop := hstop.2 [] x R rfl
          obtain ⟨p', P', last', heq, hround⟩ := h.round mis hP
          have hstop' : StopsAfter stop (size P') R := hround.size_eq ▸ hstop.tail
          obtain ⟨p'', P'', last'', heq', hchecked⟩ :=
            ih hround.indexed hround.pairwise hstop' hround.last (Nat.lt_of_succ_lt_succ hfuel)
          refine ⟨p'', P'', last'', ?_, hround.checked hchecked⟩
          rw [Page.checkItems, if_neg (by omega), heq, Option.bind_some]
          exact heq'

/-- The last item is no duplicate then. -/
theorem Page.Indexed.checkLast (mis : Misread) {last : Option (ℕ × Item)} (h : p.Indexed N P [])
    (hP : (lives P).Pairwise Stored.Apart) (hlast : LastOf P last) :
    p.checkLast mis last = some p := by
  cases last with
  | none => rfl
  | some last =>
      obtain ⟨i, item⟩ := last
      obtain ⟨A, s, rfl, rfl, rfl⟩ := hlast
      have hnamed : s.Named s.header.nsIndex s.header.key := ⟨rfl, (keyField_keyField s.key).symm⟩
      have hA : ∀ t ∈ lives A, ¬ t.Named s.header.nsIndex s.header.key := by
        intro t ht hn
        rw [lives_append, List.pairwise_append] at hP
        exact hP.2.2 t ht s List.mem_cons_self (hn.hash_eq.trans hnamed.hash_eq.symm)
      rw [Page.checkLast, h.findItem mis, locate_append hA, locate, if_pos hnamed,
        if_pos s.datatype_header.symm]
      simp

end

/-! ### The whole load -/

/-- **Loading comes to an end on every page on which segments lie, whatever a power cut left of them,
and it can be cut short itself at any point.**  It finds the same items whenever it is started
again. -/
theorem load_recovers (mis : Misread) {f : Flash} {l : List Stored} (h : Recovers N f l) :
    ∃ p segs, load mis f = some p ∧ p.Indexed N segs [] ∧ lives segs = l ∧
      p.flash = flashMedium.writes p.log f ∧ flashMedium.Safe (Recovers N · l) p.log f := by
  obtain ⟨segs, hl, rfl⟩ := h
  obtain ⟨segs', hindexed, hlives, hsafe⟩ := hl.indexed
  have hstop : StopsAfter _ 0 segs' := hindexed.stopsAfter
  have hlen : segs'.length < entryCount + 1 := by
    have hle := hindexed.layout.le.trans hindexed.layout.limit
    have := length_le_size segs'
    rw [List.nil_append] at hle
    omega
  have hnone : LastOf [] none := trivial
  obtain ⟨p, P, last, hcheck, hchecked⟩ :=
    hindexed.checkItems mis List.Pairwise.nil hstop hnone hlen
  have hlivesP : lives P = survivors (lives segs) := by
    rw [hchecked.lives_eq, List.nil_append, hlives]
  have hP : (lives P).Pairwise Stored.Apart := hlivesP ▸ pairwise_survivors _
  have hload : load mis f = some p := by
    show ((f.scanned.eraseHalfWritten entryCount).checkItems mis
      (f.scanned.eraseHalfWritten entryCount).stop (entryCount + 1) 0 none).bind _ = _
    rw [size_nil] at hcheck
    rw [hcheck]
    exact hchecked.indexed.checkLast mis hP hchecked.last
  have hsafe' := hchecked.safe
  rw [List.nil_append, hlives] at hsafe'
  obtain ⟨ws, hlog, hflash, hcut⟩ := hsafe.trans hsafe'
  have hws : p.log = ws := hlog
  refine ⟨p, P, hload, hchecked.indexed, hlivesP, ?_, ?_⟩
  · rw [hws]
    exact hflash
  · rw [hws]
    exact hcut

end NvsPage

end Sicae
