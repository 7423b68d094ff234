import Sicae.NvsLoad

/-! # Storing values

A value is written behind all others: its header, the header's state, then its bytes and their
states.  The last state is what makes it count; until then a restart finds the items that were there
before (`Writing.append`, `Indexed.writeItem`).  The old value under the name is erased only
afterwards, and need not be, as a restart would do it (`Indexed.setItem`). -/

namespace Sicae

open CString PowerCut

namespace NvsPage

variable {N : ℕ}

/-! ### Entries behind the last segment -/

/-- The segments `segs` lie on the page, with room behind them for a value. -/
structure Room (N : ℕ) (f : Flash) (segs : List Seg) (s : Stored) : Prop where
  layout : Layout N f segs
  blank : f.entry (size segs) = .blank
  settled : ∀ k < size segs, f.state k ≠ .empty
  fits : size segs + s.span ≤ N

/-- The first entries of the value are written. -/
structure Progress (f : Flash) (n : ℕ) (s : Stored) (m : ℕ) (g : Flash) : Prop where
  before : Agree f g 0 n
  holds : ∀ k e, k < m → s.entries[k]? = some e → g.entry (n + k) = e
  written : ∀ k < m, g.state (n + k) = .written
  behind : ∀ k, n + m ≤ k → g.state k = .empty ∧ g.entry k = .blank

section
variable {f g : Flash} {segs : List Seg} {s : Stored}

theorem Room.behind (h : Room N f segs s) {k : ℕ} (hk : size segs ≤ k) :
    f.state k = .empty ∧ f.entry k = .blank := by
  rcases Nat.eq_or_lt_of_le hk with rfl | hlt
  · exact ⟨h.layout.next, h.blank⟩
  · exact h.layout.rest k hlt

/-- Another segment behind the others. -/
theorem Room.extend {x : Seg} (h : Room N f segs s) (hx : x.Of s) (hbefore : Agree f g 0 (size segs))
    (hat : x.At g (size segs))
    (hbehind : ∀ k, size segs + s.span ≤ k → g.state k = .empty ∧ g.entry k = .blank)
    (hlast : ∀ k, size segs ≤ k → g.state k = .empty → k < size segs + s.span →
      x = .broken s ∧ size segs < k) : Layout N g (segs ++ [x]) := by
  have hsize : size (segs ++ [x]) = size segs + s.span := by simp [hx.size_eq]
  refine ⟨?_, h.layout.limit, hsize ▸ h.fits, ?_, ?_, ?_, ?_⟩
  · rw [lays_append, Nat.zero_add]
    refine ⟨h.layout.lays.congr ?_, hat, trivial⟩
    rwa [Nat.zero_add]
  · intro k hk
    exact hbehind k (by omega)
  · exact (hbehind _ hsize.ge).1
  · exact .inl (hbehind _ hsize.ge).2
  · intro k hk he
    rw [hsize] at hk
    by_cases hlt : k < size segs
    · rw [(hbefore k (Nat.zero_le k) hlt).1] at he
      exact absurd he (h.settled k hlt)
    · obtain ⟨rfl, hk'⟩ := hlast k (by omega) he hk
      exact ⟨segs, s, rfl, hk'⟩

/-- All entries are written. -/
theorem Room.complete (h : Room N f segs s) (hp : Progress f (size segs) s s.span g) :
    Layout N g (segs ++ [.live s]) := by
  refine h.extend (.inl rfl) hp.before ⟨fun k e he => ?_, hp.written⟩ hp.behind fun k hk he hlt => ?_
  · exact hp.holds k e (List.getElem?_eq_some_iff.mp he).1 he
  · have := hp.written (k - size segs) (by omega)
    rw [Nat.add_sub_cancel' hk, he] at this
    cases this

/-- The header is written, and not all states behind it. -/
theorem Room.incomplete (h : Room N f segs s) (hbefore : Agree f g 0 (size segs))
    (hentry : g.entry (size segs) = .item s.header) (hstate : g.state (size segs) = .written)
    (hstates : ∀ k < s.span, g.state (size segs + k) = .written ∨ g.state (size segs + k) = .empty)
    (hempty : ∃ k < s.span, g.state (size segs + k) = .empty)
    (hbehind : ∀ k, size segs + s.span ≤ k → g.state k = .empty ∧ g.entry k = .blank) :
    Layout N g (segs ++ [.broken s]) := by
  obtain ⟨k, hk, he⟩ := hempty
  refine h.extend (.inr rfl) hbefore ⟨hentry, hstate, ⟨k, hk, ?_⟩, fun j hj => ?_⟩ hbehind ?_
  · rw [he]
    exact EntryState.noConfusion
  · rcases hstates j hj with hj | hj
    all_goals
      rw [hj]
      exact EntryState.noConfusion
  · intro j hj hje _
    refine ⟨rfl, Nat.lt_of_le_of_ne hj ?_⟩
    rintro rfl
    rw [hstate] at hje
    cases hje

/-- The header is programmed, wholly or in part, without its state. -/
theorem Room.begun (h : Room N f segs s) (hbefore : Agree f g 0 (size segs))
    (hstate : g.state (size segs) = .empty) (hentry : (g.entry (size segs)).headerBlank = false)
    (hbehind : ∀ k, size segs < k → g.state k = .empty ∧ g.entry k = .blank) :
    Layout N g segs where
  lays := h.layout.lays.congr (by rwa [Nat.zero_add])
  limit := h.layout.limit
  le := h.layout.le
  rest := hbehind
  next := hstate
  begun := by
    refine .inr ⟨?_, hentry, fun k hk he => ?_⟩
    · have := s.span_pos
      have := h.fits
      omega
    · rw [(hbefore k (Nat.zero_le k) hk).1] at he
      exact h.settled k hk he
  unwritten := by
    intro k hk he
    rw [(hbefore k (Nat.zero_le k) hk).1] at he
    exact absurd he (h.settled k hk)

end

/-! ### Programming -/

theorem program_nil {f : Flash} {i : ℕ} : f.program i [] = f := by
  have hentry : (f.program i []).entry = f.entry := by
    funext k
    exact if_neg (by simp)
  cases f
  simp only [Flash.program] at hentry ⊢
  rw [hentry]

theorem program_entry_out {f : Flash} {i k : ℕ} {es : List Entry} (h : k < i ∨ i + es.length ≤ k) :
    (f.program i es).entry k = f.entry k :=
  if_neg (by omega)

theorem program_entry_blank {f : Flash} {i k : ℕ} {es : List Entry} {e : Entry}
    (hb : f.entry (i + k) = .blank) (he : es[k]? = some e) : (f.program i es).entry (i + k) = e := by
  have hk : k < es.length := (List.getElem?_eq_some_iff.mp he).1
  show (if i ≤ i + k ∧ i + k < i + es.length then
    (f.entry (i + k)).program (es.getD (i + k - i) .blank) else f.entry (i + k)) = e
  rw [if_pos (by omega), hb, Nat.add_sub_cancel_left, List.getD_eq_getElem?_getD, he]
  rfl

theorem program_entry_single {f : Flash} {i : ℕ} (hb : f.entry i = .blank) (e : Entry) :
    (f.program i [e]).entry i = e :=
  program_entry_blank (k := 0) hb rfl

/-- What is left of a write of entries lies where they would have been. -/
theorem torn_entry_out {f : Flash} {i k : ℕ} {es : List Entry} (t : Torn)
    (h : k < i ∨ i + es.length ≤ k) : (flashMedium.torn (.entries i es) t f).entry k = f.entry k := by
  refine program_entry_out ?_
  have hlen : (es.take t.whole ++ ((es.drop t.whole).head?.bind fun e =>
      t.begun.map fun b => e.begun b).toList).length ≤ es.length := by
    rw [List.length_append, List.length_take]
    cases hd : es.drop t.whole with
    | nil => simp
    | cons e rest =>
        have hlt : 0 < es.length - t.whole := by
          rw [← List.length_drop, hd]
          exact Nat.succ_pos _
        cases t.begun with
        | none => simp
        | some b =>
            simp
            omega
  omega

/-- A header of which the writing has begun is not blank. -/
theorem torn_header {f : Flash} {i : ℕ} (item : Item) (t : Torn) (hb : f.entry i = .blank) :
    flashMedium.torn (.entries i [.item item]) t f = f ∨
      ((flashMedium.torn (.entries i [.item item]) t f).entry i).headerBlank = false := by
  obtain ⟨whole, begun⟩ := t
  cases whole with
  | zero =>
      cases begun with
      | none => exact .inl program_nil
      | some b =>
          right
          show ((f.program i [.torn false]).entry i).headerBlank = false
          rw [program_entry_single hb]
          rfl
  | succ whole =>
      right
      have htake : flashMedium.torn (.entries i [.item item]) ⟨whole + 1, begun⟩ f =
          f.program i [.item item] := by
        show f.program i ([.item item].take (whole + 1) ++ _) = _
        simp
      rw [htake, program_entry_single hb]
      rfl

/-- Entries are appended to a page. -/
structure Page.Appends (p p' : Page) (i : ℕ) (es : List Entry) : Prop where
  nextFree : p'.nextFreeEntry = some (i + es.length)
  firstUsed : p'.firstUsedEntry = p.firstUsedEntry.or (some i)
  hashList : p'.hashList = p.hashList
  log : ∃ ws, p'.log = p.log ++ .entries i es :: ws ∧
    p'.flash = flashMedium.writes (.entries i es :: ws) p.flash ∧
    Programs ws i (i + es.length) .written

theorem writeEntry_appends {p : Page} {i : ℕ} (hn : p.nextFreeEntry = some i)
    (hi : i < entryCount) (e : Entry) :
    ∃ p', p.writeEntry e = some p' ∧ p.Appends p' i [e] := by
  rw [Page.writeEntry, hn]
  dsimp only
  rw [if_neg (by omega)]
  refine ⟨_, rfl, rfl, rfl, rfl, [.states i (i + 1) .written], ?_, rfl, programs_single i .written⟩
  show p.log ++ [_] ++ [_] = _
  rw [List.append_assoc]
  rfl

theorem writeEntryData_appends {p : Page} {i : ℕ} {es : List Entry}
    (hn : p.nextFreeEntry = some i) (hu : p.firstUsedEntry ≠ none)
    (hle : i + es.length ≤ entryCount) :
    ∃ p', p.writeEntryData es = some p' ∧ p.Appends p' i es := by
  rw [Page.writeEntryData, hn]
  dsimp only
  rw [if_neg (by rintro (hc | hc); exact hu hc; omega), Page.alterEntryRangeState, foldl_write]
  refine ⟨_, rfl, rfl, ?_, rfl, rangeWrites i (i + es.length) .written 8, ?_, rfl,
    programs_range hle .written⟩
  · obtain ⟨u, hu⟩ := Option.ne_none_iff_exists'.mp hu
    show p.firstUsedEntry = _
    rw [hu]
    rfl
  · show p.log ++ [_] ++ _ = _
    rw [List.append_assoc]
    rfl

/-- While a value is stored, a restart finds the items without it or those with it. -/
def OldOrNew (N : ℕ) (l : List Stored) (s : Stored) (f : Flash) : Prop :=
  Recovers N f (survivors l) ∨ Recovers N f (survivors (l ++ [s]))

/-- The page after some entries of a value were written. -/
structure Page.Writing (p : Page) (N : ℕ) (p' : Page) (segs : List Seg) (s : Stored) (m : ℕ) :
    Prop where
  progress : Progress p.flash (size segs) s m p'.flash
  nextFree : p'.nextFreeEntry = some (size segs + m)
  firstUsed : p'.firstUsedEntry = p.firstUsedEntry.or (some (size segs))
  hashList : p'.hashList = p.hashList
  safe : p.Extends (OldOrNew N (lives segs) s) p'

section
variable {p p' p'' : Page} {f g : Flash} {segs : List Seg} {s : Stored} {m : ℕ}

/-- The value is not complete yet: a restart does not find it. -/
theorem oldOrNew_of_layout (h : Layout N g segs ∨ Layout N g (segs ++ [.broken s])) :
    OldOrNew N (lives segs) s g := by
  left
  rcases h with h | h
  · exact ⟨_, h, rfl⟩
  · exact ⟨_, h, by simp⟩

/-- The value is complete. -/
theorem Room.oldOrNew (h : Room N f segs s) (hp : Progress f (size segs) s s.span g) :
    OldOrNew N (lives segs) s g :=
  .inr ⟨_, h.complete hp, by simp⟩

/-- Appending entries. -/
theorem Progress.append {n : ℕ} (h : Progress f n s m g) (es : List Entry)
    (hes : ∀ k e, es[k]? = some e → s.entries[m + k]? = some e) :
    Progress f n s (m + es.length)
      ((g.program (n + m) es).setStates (n + m) (n + m + es.length) .written) where
  before := by
    intro k hlo hk
    rw [setStates_state, if_neg (by omega), setStates_entry, program_entry_out (by omega)]
    exact h.before k hlo hk
  holds := by
    intro k e hk he
    rw [setStates_entry]
    by_cases hlt : k < m
    · rw [program_entry_out (by omega)]
      exact h.holds k e hlt he
    · obtain ⟨j, rfl⟩ := Nat.exists_eq_add_of_le (Nat.le_of_not_lt hlt)
      obtain ⟨e', he'⟩ : ∃ e', es[j]? = some e' :=
        ⟨_, List.getElem?_eq_getElem (by omega)⟩
      have heq : e' = e := Option.some.inj ((hes j e' he').symm.trans he)
      rw [← Nat.add_assoc, ← heq]
      exact program_entry_blank (h.behind _ (by omega)).2 he'
  written := by
    intro k hk
    rw [setStates_state]
    split_ifs with hin
    · show (g.state (n + k)).program .written = .written
      rw [(h.behind _ hin.1).1]
      rfl
    · exact h.written k (by omega)
  behind := by
    intro k hk
    rw [setStates_state, if_neg (by omega), setStates_entry, program_entry_out (by omega)]
    exact h.behind k (by omega)

/-- When the writes that append entries are cut short, a state behind the header is still empty. -/
theorem Room.cutShort {g' : Flash} (h : Room N f segs s) (hp : Progress f (size segs) s m g)
    (hm : 0 < m) (len : ℕ) (hle : m + len ≤ s.span)
    (hentry : ∀ k, k < size segs + m ∨ size segs + m + len ≤ k → g'.entry k = g.entry k)
    (hstate : ∀ k, g'.state k = g.state k ∨
      size segs + m ≤ k ∧ k < size segs + m + len ∧ g'.state k = .written)
    (hempty : ∃ k < s.span, g'.state (size segs + k) = .empty) :
    OldOrNew N (lives segs) s g' := by
  have hout : ∀ k, k < size segs + m ∨ size segs + m + len ≤ k → g'.state k = g.state k := by
    intro k hk
    rcases hstate k with hs | ⟨hlo, hhi, -⟩
    · exact hs
    · omega
  refine oldOrNew_of_layout (.inr (h.incomplete (fun k hlo hk => ?_) ?_ ?_ ?_ hempty ?_))
  · rw [hentry k (by omega), hout k (by omega)]
    exact hp.before k hlo hk
  · rw [hentry _ (by omega)]
    exact hp.holds 0 _ hm rfl
  · rw [hout _ (by omega)]
    exact hp.written 0 hm
  · intro k hk
    rcases hstate (size segs + k) with hs | ⟨-, -, hs⟩
    · rw [hs]
      by_cases hlt : k < m
      · exact .inl (hp.written k hlt)
      · exact .inr (hp.behind _ (by omega)).1
    · exact .inl hs
  · intro k hk
    rw [hentry k (by omega), hout k (by omega)]
    exact hp.behind k (by omega)

/-- Power may go while entries behind the header are appended. -/
theorem Room.append_safe {es : List Entry} {ws : List FlashWrite} (h : Room N f segs s)
    (hp : Progress f (size segs) s m g) (hm : 0 < m) (hpos : 0 < es.length)
    (hes : ∀ k e, es[k]? = some e → s.entries[m + k]? = some e) (hle : m + es.length ≤ s.span)
    (hws : Programs ws (size segs + m) (size segs + m + es.length) .written) :
    flashMedium.Safe (OldOrNew N (lives segs) s) (.entries (size segs + m) es :: ws) g := by
  have hnext : ∃ k < s.span, g.state (size segs + k) = .empty :=
    ⟨m, by omega, (hp.behind _ le_rfl).1⟩
  have hentries : flashMedium.Safe (OldOrNew N (lives segs) s) [.entries (size segs + m) es] g := by
    refine Medium.safe_single ?_ (fun t => ?_) ?_
    · exact h.cutShort hp hm _ hle (fun _ _ => rfl) (fun _ => .inl rfl) hnext
    · exact h.cutShort hp hm _ hle (fun k hk => torn_entry_out t hk) (fun _ => .inl rfl) hnext
    · exact h.cutShort hp hm _ hle (fun k hk => program_entry_out hk) (fun _ => .inl rfl) hnext
  refine Medium.safe_append hentries fun c => ?_
  obtain ⟨lo, hlo, hcut⟩ := (hws (g.program (size segs + m) es)).2 c
  have hcut' : flashMedium.cut ws c (flashMedium.writes [.entries (size segs + m) es] g) = _ := hcut
  rw [hcut']
  by_cases hall : lo = size segs + m ∧ m + es.length = s.span
  · obtain ⟨rfl, hspan⟩ := hall
    have := hp.append es hes
    rw [hspan] at this
    exact h.oldOrNew this
  · refine h.cutShort hp hm _ hle (fun k hk => program_entry_out hk) (fun k => ?_) ?_
    · rw [setStates_state]
      split_ifs with hin
      · right
        refine ⟨by omega, hin.2, ?_⟩
        show (g.state k).program .written = .written
        rw [(hp.behind k (by omega)).1]
        rfl
      · exact .inl rfl
    · by_cases hlt : size segs + m < lo
      · refine ⟨m, by omega, ?_⟩
        rw [setStates_state, if_neg (by omega)]
        exact (hp.behind _ le_rfl).1
      · refine ⟨m + es.length, by omega, ?_⟩
        rw [setStates_state, if_neg (by omega)]
        exact (hp.behind _ (by omega)).1

theorem Room.progress_zero (h : Room N f segs s) : Progress f (size segs) s 0 f where
  before := fun _ _ _ => ⟨rfl, rfl⟩
  holds := fun k _ hk => absurd hk (Nat.not_lt_zero k)
  written := fun k hk => absurd hk (Nat.not_lt_zero k)
  behind := fun _ hk => h.behind hk

/-- The header is written, and its state is. -/
theorem Room.progress_header (h : Room N f segs s) :
    Progress f (size segs) s 1 ((f.program (size segs) [.item s.header]).setStates (size segs)
      (size segs + 1) .written) := by
  refine h.progress_zero.append [.item s.header] fun k e he => ?_
  cases k with
  | zero => exact he
  | succ k => cases he

/-- Power may go while the header is written. -/
theorem Room.header_safe {ws : List FlashWrite} (h : Room N f segs s)
    (hws : Programs ws (size segs) (size segs + 1) .written) :
    flashMedium.Safe (OldOrNew N (lives segs) s) (.entries (size segs) [.item s.header] :: ws) f := by
  have hnext := h.behind (le_refl (size segs))
  have hold : OldOrNew N (lives segs) s f := oldOrNew_of_layout (.inl h.layout)
  have htorn : ∀ t, OldOrNew N (lives segs) s
      (flashMedium.torn (.entries (size segs) [.item s.header]) t f) := by
    intro t
    rcases torn_header s.header t hnext.2 with he | hb
    · rw [he]
      exact hold
    · refine oldOrNew_of_layout (.inl (h.begun (fun k hlo hk => ?_) hnext.1 hb fun k hk => ?_))
      · exact ⟨rfl, torn_entry_out t (by omega)⟩
      · rw [torn_entry_out t (by simp; omega)]
        exact h.behind (by omega)
  have hwhole : OldOrNew N (lives segs) s (f.program (size segs) [.item s.header]) := by
    refine oldOrNew_of_layout (.inl (h.begun (fun k hlo hk => ?_) hnext.1 ?_ fun k hk => ?_))
    · exact ⟨rfl, program_entry_out (by omega)⟩
    · rw [program_entry_single hnext.2]
      rfl
    · rw [program_entry_out (by simp; omega)]
      exact h.behind (by omega)
  have hentries := Medium.safe_single hold htorn hwhole
  refine Medium.safe_append hentries fun c => ?_
  obtain ⟨lo, hlo, hcut⟩ := (hws (f.program (size segs) [.item s.header])).2 c
  have hcut' : flashMedium.cut ws c
    (flashMedium.writes [.entries (size segs) [.item s.header]] f) = _ := hcut
  rw [hcut']
  rcases Nat.eq_or_lt_of_le hlo with rfl | hlt
  · have hp := h.progress_header
    have hpos := s.span_pos
    by_cases hone : s.span = 1
    · rw [← hone] at hp ⊢
      exact h.oldOrNew hp
    · refine h.cutShort hp Nat.one_pos 0 (by omega) (fun _ _ => rfl) (fun _ => .inl rfl) ?_
      exact ⟨1, by omega, (hp.behind _ le_rfl).1⟩
  · rw [setStates_of_le hlt]
    exact hwhole

theorem Programs.flash_append {i : ℕ} {es : List Entry} {ws : List FlashWrite}
    (hws : Programs ws i (i + es.length) .written) (f : Flash) :
    flashMedium.writes (.entries i es :: ws) f =
      (f.program i es).setStates i (i + es.length) .written :=
  (hws (f.program i es)).1

/-- The header is appended. -/
theorem Room.writeHeader (h : Room N p.flash segs s)
    (happ : p.Appends p' (size segs) [.item s.header]) : p.Writing N p' segs s 1 := by
  obtain ⟨ws, hlog, hflash, hws⟩ := happ.log
  refine ⟨?_, happ.nextFree, happ.firstUsed, happ.hashList, _, hlog, hflash, h.header_safe hws⟩
  rw [hflash, hws.flash_append]
  exact h.progress_header

/-- Entries behind it are appended. -/
theorem Page.Writing.append {es : List Entry} (hw : p.Writing N p' segs s m)
    (h : Room N p.flash segs s) (hm : 0 < m) (happ : p'.Appends p'' (size segs + m) es)
    (hpos : 0 < es.length) (hes : ∀ k e, es[k]? = some e → s.entries[m + k]? = some e)
    (hle : m + es.length ≤ s.span) : p.Writing N p'' segs s (m + es.length) := by
  obtain ⟨ws, hlog, hflash, hws⟩ := happ.log
  refine ⟨?_, ?_, ?_, happ.hashList.trans hw.hashList, ?_⟩
  · rw [hflash, hws.flash_append]
    exact hw.progress.append es hes
  · rw [happ.nextFree, Nat.add_assoc]
  · rw [happ.firstUsed, hw.firstUsed]
    cases p.firstUsedEntry <;> rfl
  · exact hw.safe.trans ⟨_, hlog, hflash, h.append_safe hw.progress hm hpos hes hle hws⟩

theorem Stored.entries_behind (s : Stored) (k : ℕ) :
    s.entries[1 + k]? = (fullEntries s.value.bytes ++ tailEntries s.value.bytes)[k]? := by
  rw [Nat.add_comm]
  rfl

theorem Stored.span_eq (s : Stored) :
    s.span = 1 + (fullEntries s.value.bytes).length + (tailEntries s.value.bytes).length := by
  rw [← s.header_span]
  rfl

/-- `Page.writeData` writes the rest. -/
theorem Page.Writing.writeData (hw : p.Writing N p' segs s 1) (h : Room N p.flash segs s) :
    ∃ p'', p'.writeData s.value.bytes = some p'' ∧ p.Writing N p'' segs s s.span := by
  have hspan := s.span_eq
  have hfits := h.fits.trans h.layout.limit
  have hfull : ∃ q, (if fullEntries s.value.bytes = [] then some p'
      else p'.writeEntryData (fullEntries s.value.bytes)) = some q ∧
      p.Writing N q segs s (1 + (fullEntries s.value.bytes).length) := by
    split_ifs with hnil
    · exact ⟨p', rfl, by rwa [hnil]⟩
    · have hused : p'.firstUsedEntry ≠ none := by
        rw [hw.firstUsed]
        cases p.firstUsedEntry <;> exact Option.some_ne_none _
      have hle : size segs + 1 + (fullEntries s.value.bytes).length ≤ entryCount := by omega
      obtain ⟨q, hq, happ⟩ := writeEntryData_appends hw.nextFree hused hle
      refine ⟨q, hq, hw.append h Nat.one_pos happ (List.length_pos_iff.mpr hnil) ?_ (by omega)⟩
      intro k e he
      rw [s.entries_behind, List.getElem?_append_left (List.getElem?_eq_some_iff.mp he).1, he]
  obtain ⟨q, hq, hw'⟩ := hfull
  rw [Page.writeData, hq, Option.bind_some]
  cases htail : tailEntries s.value.bytes with
  | nil =>
      refine ⟨q, rfl, ?_⟩
      rw [htail, List.length_nil] at hspan
      rwa [hspan]
  | cons e rest =>
      have hrest : rest = [] := by
        rw [tailEntries] at htail
        split_ifs at htail
        exact (List.cons.inj htail).2.symm
      subst hrest
      rw [htail, List.length_singleton] at hspan
      obtain ⟨q', hq', happ⟩ := writeEntry_appends hw'.nextFree (by omega) e
      have hle : 1 + (fullEntries s.value.bytes).length + [e].length ≤ s.span := hspan.ge
      refine ⟨q', by simp [hq'], ?_⟩
      rw [hspan]
      refine hw'.append h (by omega) happ Nat.one_pos (fun k e' he => ?_) hle
      cases k with
      | zero =>
          rw [Nat.add_zero, s.entries_behind, List.getElem?_append_right le_rfl, htail,
            Nat.sub_self]
          exact he
      | succ k => cases he

theorem Page.Indexed.nextFree (h : p.Indexed N segs []) :
    p.nextFreeEntry = some (size segs) ∨ p.nextFreeEntry = none ∧ size segs = entryCount := by
  have hfree := h.free
  generalize p.nextFreeEntry = n at hfree
  cases hfree with
  | settled => exact .inl rfl
  | full hfull => exact .inr ⟨rfl, hfull⟩
  | cutShort hR _ _ => exact absurd hR (by simp)

/-- The page behind the last entry of the value. -/
theorem Page.Indexed.complete (h : p.Indexed N segs []) (hr : Room N p.flash segs s)
    (hw : ({ p with hashList := p.hashList ++ [(s.hash, size segs)] } : Page).Writing N p' segs s
      s.span) : p'.Indexed N (segs ++ [.live s]) [] := by
  have hlayout := hr.complete hw.progress
  have hsize : size (segs ++ [.live s]) = size segs + s.span := by simp [Seg.size]
  have hused := hw.firstUsed
  have hstop : p'.stop = size segs + s.span := by
    rw [Page.stop, hw.nextFree]
    exact Nat.min_eq_left (hr.fits.trans hr.layout.limit)
  have hfirst : ∃ u ≤ size segs, p'.firstUsedEntry = some u := by
    rw [hused]
    show ∃ u ≤ size segs, p.firstUsedEntry.or _ = _
    cases hf : p.firstUsedEntry with
    | none => exact ⟨_, le_rfl, rfl⟩
    | some u => exact ⟨u, h.stop_eq ▸ h.used.le u hf, rfl⟩
  refine ⟨by simpa using hlayout, ?_, ?_, ?_, ?_, ⟨fun k hk hk' => ?_, fun u hu => ?_⟩⟩
  · rw [List.append_nil, hsize]
    exact (hw.progress.behind _ le_rfl).2
  · simpa using h.whole
  · rw [hw.hashList, hashes_append, Nat.zero_add]
    show p.hashList ++ _ = _
    rw [h.hashList]
    rfl
  · rw [hw.nextFree, ← hsize]
    exact .settled
  · by_cases hlt : k < size segs
    · rw [(hw.progress.before k (Nat.zero_le k) hlt).1] at hk'
      obtain ⟨u, hu, hfirst⟩ := h.used.first k (by rwa [h.stop_eq]) hk'
      refine ⟨u, hu, ?_⟩
      rw [hused]
      show p.firstUsedEntry.or _ = _
      rw [hfirst]
      rfl
    · obtain ⟨u, hu, hfirst⟩ := hfirst
      exact ⟨u, by omega, hfirst⟩
  · obtain ⟨v, hv, hfirst⟩ := hfirst
    obtain rfl := Option.some.inj (hfirst.symm.trans hu)
    omega

/-- The conditions under which a value is written. -/
structure Fits (segs : List Seg) (s : Stored) : Prop where
  key : s.key.length ≤ maxKeyLength
  value : s.value.bytes.length ≤ entrySize * (entryCount - 1)
  room : size segs + s.span ≤ entryCount

/-- The bytes of a value lie in the entries behind its header. -/
theorem Stored.length_bytes_le (s : Stored) :
    s.value.bytes.length ≤ entrySize * (s.span - 1) := by
  have hspan := s.span_eq
  have hdiv := Nat.div_add_mod s.value.bytes.length entrySize
  have hmod : s.value.bytes.length % entrySize < entrySize := Nat.mod_lt _ (by decide)
  have htail : s.value.bytes.length % entrySize ≤
      entrySize * (tailEntries s.value.bytes).length := by
    rw [tailEntries]
    split_ifs with hnone
    · omega
    · rw [List.length_singleton]
      omega
  rw [fullEntries, List.length_map, List.length_range] at hspan
  rw [hspan, Nat.add_assoc, Nat.add_sub_cancel_left, Nat.mul_add]
  omega

/-- Where there is room for a value, it is not too long. -/
theorem Fits.of_room (hkey : s.key.length ≤ maxKeyLength)
    (hroom : size segs + s.span ≤ entryCount) : Fits segs s where
  key := hkey
  value := s.length_bytes_le.trans (Nat.mul_le_mul_left entrySize (by omega))
  room := hroom

theorem Page.Indexed.room (h : p.Indexed N segs []) (hfits : size segs + s.span ≤ N) :
    Room N p.flash segs s where
  layout := by simpa using h.layout
  blank := by simpa using h.blank
  settled := by
    intro k hk he
    have hl := h.layout
    rw [List.append_nil] at hl
    obtain ⟨A, t, hA, -⟩ := hl.unwritten k hk he
    exact h.whole t (by simp [hA])
  fits := hfits

/-- **`Page::writeItem` writes a value that fits, and changes nothing if it does not fit.** -/
theorem Page.Indexed.writeItem (h : p.Indexed N segs []) (s : Stored)
    (hN : Fits segs s → size segs + s.span ≤ N) :
    (Fits segs s ∧ ∃ p', p.writeItem s.nsIndex s.key s.value = some (p', .ok) ∧
      p'.Indexed N (segs ++ [.live s]) [] ∧ p.Extends (OldOrNew N (lives segs) s) p') ∨
    (¬ Fits segs s ∧ ∃ r, r ≠ .ok ∧ p.writeItem s.nsIndex s.key s.value = some (p, r)) := by
  rw [Page.writeItem]
  dsimp only
  split_ifs with hkey hvalue
  · exact .inr ⟨fun hf => by have := hf.key; omega, _, SetResult.noConfusion, rfl⟩
  · exact .inr ⟨fun hf => by have := hf.value; omega, _, SetResult.noConfusion, rfl⟩
  · rcases h.nextFree with hn | ⟨hn, hfull⟩
    · rw [hn]
      dsimp only
      have hspan : (s.value.header s.nsIndex s.key).span = s.span := s.header_span
      rw [hspan]
      split_ifs with hroom
      · exact .inr ⟨fun hf => by have := hf.room; omega, _, SetResult.noConfusion, rfl⟩
      · have hfits : Fits segs s := ⟨by omega, by omega, by omega⟩
        have hr : Room N ({ p with hashList := p.hashList ++ [(s.hash, size segs)] } : Page).flash
            segs s := h.room (hN hfits)
        have hpos := s.span_pos
        obtain ⟨p₁, hp₁, happ⟩ := writeEntry_appends
          (p := { p with hashList := p.hashList ++ [(s.hash, size segs)] }) hn (by omega)
          (.item s.header)
        obtain ⟨p₂, hp₂, hw⟩ := (hr.writeHeader happ).writeData hr
        refine .inl ⟨hfits, p₂, ?_, h.complete (h.room (hN hfits)) hw, hw.safe⟩
        rw [← hn]
        show ((Page.writeEntry { p with hashList := p.hashList ++ [(s.hash, size segs)] }
          (.item s.header)).bind fun p => p.writeData s.value.bytes).map _ = _
        rw [hp₁, Option.bind_some, hp₂]
        rfl
    · rw [hn]
      refine .inr ⟨fun hf => ?_, _, SetResult.noConfusion, rfl⟩
      have := hf.room
      have := s.span_pos
      omega

end

/-! ### Reading -/

theorem flatMap_chunks (bytes : CStr) (n q : ℕ) :
    (List.range q).flatMap (fun k => (bytes.drop (n * k)).take n) = bytes.take (n * q) := by
  induction q with
  | zero => simp
  | succ q ih =>
      rw [List.range_succ, List.flatMap_append, ih, List.flatMap_singleton, Nat.mul_succ,
        List.take_add]

/-- The bytes of the entries of a value, up to their number, are its bytes. -/
theorem take_flatMap_entries (mis : Misread) (bytes : CStr) :
    ((fullEntries bytes ++ tailEntries bytes).flatMap fun e =>
      (mis.readData e).take entrySize).take bytes.length = bytes := by
  have hfull : (fullEntries bytes).flatMap (fun e => (mis.readData e).take entrySize) =
      bytes.take (entrySize * (bytes.length / entrySize)) := by
    rw [fullEntries, List.flatMap_map, ← flatMap_chunks]
    refine congrArg (fun g => List.flatMap g _) (funext fun k => ?_)
    show ((bytes.drop _).take entrySize).take entrySize = _
    rw [List.take_take, min_self]
  have hdiv := Nat.div_add_mod bytes.length entrySize
  rw [List.flatMap_append, hfull, tailEntries]
  split_ifs with hmod
  · rw [List.flatMap_nil, List.append_nil, List.take_take]
    exact List.take_of_length_le (by omega)
  · have hlt : bytes.length % entrySize < entrySize := Nat.mod_lt _ (by decide)
    rw [List.flatMap_singleton]
    have htail : (bytes.drop (entrySize * (bytes.length / entrySize)) ++
        List.replicate (entrySize - bytes.length % entrySize) '\xff').take entrySize =
        bytes.drop (entrySize * (bytes.length / entrySize)) ++
          List.replicate (entrySize - bytes.length % entrySize) '\xff' := by
      refine List.take_of_length_le ?_
      rw [List.length_append, List.length_drop, List.length_replicate]
      omega
    show (_ ++ (bytes.drop _ ++ List.replicate _ _).take entrySize).take bytes.length = bytes
    rw [htail, ← List.append_assoc, List.take_append_drop, List.take_append_of_le_length le_rfl,
      List.take_length]

section
variable (mis : Misread) {p : Page} {A B segs : List Seg} {s : Stored}

/-- The data behind a header that lies on the page. -/
theorem Page.Indexed.dataAt (h : p.Indexed N (A ++ .live s :: B) []) :
    p.dataAt mis (size A) s.header s.value.bytes.length = s.value.bytes := by
  have hlayout := h.layout
  rw [List.append_nil] at hlayout
  have hentries : (List.range' (size A + 1) (s.span - 1)).map p.flash.entry =
      fullEntries s.value.bytes ++ tailEntries s.value.bytes := by
    refine List.ext_getElem? fun k => ?_
    have hlen : s.span = s.entries.length := rfl
    rw [← s.entries_behind, List.getElem?_map]
    by_cases hk : k < s.span - 1
    · have hlt : 1 + k < s.entries.length := by omega
      have hheld := hlayout.at.1 (1 + k) _ (List.getElem?_eq_getElem hlt)
      rw [List.getElem?_range' hk, List.getElem?_eq_getElem hlt, ← hheld]
      simp [Nat.add_assoc]
    · rw [List.getElem?_eq_none (by simp; omega), List.getElem?_eq_none (by omega)]
      rfl
  have hread := List.flatMap_map p.flash.entry (fun e => (mis.readData e).take entrySize)
    (List.range' (size A + 1) (s.span - 1))
  rw [Page.dataAt, s.header_span, ← hread, hentries]
  exact take_flatMap_entries mis s.value.bytes

/-- What is read of a value: a string ends at its first NUL. -/
def ItemValue.read : ItemValue → ItemValue
  | .u8 v => .u8 v
  | .sz s => .sz (cstr s)

/-- The value under a name in a list of items: that of the first one, if the type is the one asked
for. -/
def lookup (l : List Stored) (nsIndex : ℕ) (datatype : ItemType) (key : CStr) : Option ItemValue :=
  (l.find? fun s => s.Named nsIndex key).bind fun s =>
    if s.value.datatype = datatype then some s.value.read else none

/-- A terminated string is found at the beginning of another one only if they are the same. -/
theorem take_terminated {s t : CStr} (ht : '\x00' ∉ t) :
    (t ++ ['\x00']).take (s.length + 1) = s ++ ['\x00'] ↔ s = t := by
  constructor
  · intro h
    by_cases hlt : s.length < t.length
    · rw [List.take_append_of_le_length hlt] at h
      have hmem : '\x00' ∈ t.take (s.length + 1) := by simp [h]
      exact absurd (List.mem_of_mem_take hmem) ht
    · rw [List.take_of_length_le (by simp; omega)] at h
      exact (List.append_cancel_right h).symm
  · rintro rfl
    exact List.take_of_length_le (by simp)

theorem cstr_terminated (s : CStr) : cstr (s ++ ['\x00']) = cstr s := by
  rw [cstr, List.takeWhile_append]
  split_ifs with h
  · have hs : cstr s = s := List.takeWhile_prefix _ |>.eq_of_length h
    rw [hs]
    simp
  · rfl

variable {nsIndex : ℕ} {datatype : ItemType} {key : CStr}

/-- **Reading finds what a lookup in the list of items finds**, and changes nothing. -/
theorem Page.Indexed.readItem (h : p.Indexed N segs []) :
    p.readItem mis nsIndex datatype key = some (p, lookup (lives segs) nsIndex datatype key) := by
  rw [Page.readItem, h.findItem mis, Option.bind_some, lookup]
  obtain ⟨hfind, hloc⟩ | ⟨A, s, B, rfl, -, -, hfind, hloc⟩ :=
    exists_locate nsIndex datatype key segs 0
  · rw [hfind, hloc]
    rfl
  · rw [hfind, hloc, Nat.zero_add, Option.bind_some]
    split_ifs with htype
    · obtain ⟨_, _, value⟩ := s
      cases value with
      | u8 v => rfl
      | sz str =>
          have hdata := h.dataAt mis
          have hlen : (ItemValue.sz str).bytes.length = str.length + 1 := by
            simp [ItemValue.bytes]
          dsimp only at hdata
          rw [hlen] at hdata
          show (if espRomCrc32Le _ (p.dataAt mis (size A) _ (str.length + 1)) = _ then _ else _) = _
          rw [hdata]
          rw [if_pos]
          · exact congrArg (fun t => some (p, some (ItemValue.sz t))) (cstr_terminated str)
          · rfl
    · rfl

/-- A value as `nvs_set_u8` and `nvs_set_str` pass it on: a string has no NUL inside. -/
def ItemValue.Terminated : ItemValue → Prop
  | .u8 _ => True
  | .sz s => '\x00' ∉ s

/-- `Page::cmpItem` tells whether the value stored is the one to be stored. -/
theorem Page.Indexed.sameData {value : ItemValue} (h : p.Indexed N (A ++ .live s :: B) [])
    (hvalue : value.Terminated) :
    p.sameData mis (size A) s.header value = true ↔ s.value = value := by
  have hdata := h.dataAt mis
  obtain ⟨nsIndex, key, stored⟩ := s
  cases stored with
  | u8 v =>
      cases value with
      | u8 w =>
          show decide (w = v) = true ↔ _
          rw [decide_eq_true_iff, ItemValue.u8.injEq, eq_comm]
      | sz str => exact ⟨fun hc => Bool.noConfusion hc, fun hc => ItemValue.noConfusion hc⟩
  | sz str =>
      cases value with
      | u8 w => exact ⟨fun hc => Bool.noConfusion hc, fun hc => ItemValue.noConfusion hc⟩
      | sz str' =>
          have hlen : (ItemValue.sz str).bytes.length = str.length + 1 := by
            simp [ItemValue.bytes]
          dsimp only at hdata
          rw [hlen] at hdata
          show (decide (str.length + 1 ≤ (str' ++ ['\x00']).length) &&
            decide (p.dataAt mis (size A) _ (str.length + 1) =
              (str' ++ ['\x00']).take (str.length + 1)) &&
            decide (espRomCrc32Le _ ((str' ++ ['\x00']).take (str.length + 1)) =
              espRomCrc32Le _ (str ++ ['\x00']))) = true ↔ _
          rw [hdata, Bool.and_eq_true, Bool.and_eq_true, decide_eq_true_iff, decide_eq_true_iff,
            decide_eq_true_iff, ItemValue.sz.injEq]
          constructor
          · rintro ⟨⟨-, htake⟩, -⟩
            exact (take_terminated hvalue).mp htake.symm
          · rintro rfl
            have htake := (take_terminated hvalue).mpr rfl
            rw [htake]
            exact ⟨⟨by simp, rfl⟩, rfl⟩

/-! ### Replacing a value -/

/-- The values by name. -/
abbrev Content := ℕ → CStr → Option ItemValue

/-- The values of a list of items. -/
def content (l : List Stored) : Content := fun nsIndex key =>
  (l.find? fun s => s.Named nsIndex key).map Stored.value

/-- What storing a value makes of a list of items: nothing, if the first one with its name has this
value already; else the value is the last one, and replaces the first one if that has its type. -/
def store (l : List Stored) (s : Stored) : List Stored :=
  match l.find? fun t => t.Named s.nsIndex s.key with
  | none => l ++ [s]
  | some t =>
      if t.value = s.value then l
      else if t.value.datatype = s.value.datatype then
        (l.eraseP fun t => t.Named s.nsIndex s.key) ++ [s]
      else l ++ [s]

theorem eraseP_named {A B : List Stored} {t : Stored} (ht : t.Named nsIndex key)
    (hA : ∀ u ∈ A, ¬ u.Named nsIndex key) :
    (A ++ t :: B).eraseP (fun u => u.Named nsIndex key) = A ++ B := by
  rw [List.eraseP_append_right _ (by simpa using hA), List.eraseP_cons_of_pos (by simpa using ht)]

/-- A restart does not tell the old value from an erased one, if the new one is there. -/
theorem survivors_replaced {A B : List Stored} {t : Stored} (h : t.hash = s.hash) :
    survivors (A ++ t :: (B ++ [s])) = survivors (A ++ (B ++ [s])) :=
  survivors_shadowed (by simp) h

/-- While a value is stored, a restart finds the items from before or those from after. -/
def BeforeOrAfter (N : ℕ) (l : List Stored) (s : Stored) (f : Flash) : Prop :=
  Recovers N f (survivors l) ∨ Recovers N f (survivors (store l s))

/-- The page after an attempt to store a value. -/
structure Page.Sets (p : Page) (N : ℕ) (p' : Page) (r : SetResult) (segs segs' : List Seg)
    (s : Stored) : Prop where
  indexed : p'.Indexed N segs' []
  lives_eq : lives segs' = if r = .ok then store (lives segs) s else lives segs
  ok : content (lives segs) s.nsIndex s.key = some s.value ∨ Fits segs s → r = .ok
  same : content (lives segs) s.nsIndex s.key = some s.value ∨ r ≠ .ok → p' = p
  safe : p.Extends (BeforeOrAfter N (lives segs) s) p'

theorem Page.Indexed.recovers' (h : p.Indexed N segs []) :
    Recovers N p.flash (survivors (lives segs)) := by
  have := h.recovers
  rwa [List.append_nil] at this

/-- Nothing is done. -/
theorem Page.Indexed.setsNothing {r : SetResult} (h : p.Indexed N segs [])
    (hr : r = .ok → store (lives segs) s = lives segs)
    (hok : content (lives segs) s.nsIndex s.key = some s.value ∨ Fits segs s → r = .ok) :
    p.Sets N p r segs segs s where
  indexed := h
  lives_eq := by
    split_ifs with hok
    · exact (hr hok).symm
    · rfl
  ok := hok
  same := fun _ => rfl
  safe := .refl rfl rfl (.inl h.recovers')

/-- A new value that is stored is neither there already nor refused. -/
theorem not_same {v : Option ItemValue} {w : ItemValue} (hnew : v ≠ some w) :
    ¬ (v = some w ∨ SetResult.ok ≠ .ok) :=
  not_or.mpr ⟨hnew, fun hr => hr rfl⟩

/-- The value is stored behind the others. -/
theorem Page.Indexed.setsNew {p' : Page} (h : p'.Indexed N (segs ++ [.live s]) [])
    (hsafe : p.Extends (OldOrNew N (lives segs) s) p')
    (hstore : store (lives segs) s = lives segs ++ [s])
    (hnew : content (lives segs) s.nsIndex s.key ≠ some s.value) :
    p.Sets N p' .ok segs (segs ++ [.live s]) s where
  indexed := h
  lives_eq := by rw [if_pos rfl, hstore]; simp
  ok := fun _ => rfl
  same := fun hsame => absurd hsame (not_same hnew)
  safe := by
    have hsame : BeforeOrAfter N (lives segs) s = OldOrNew N (lives segs) s := by
      unfold BeforeOrAfter OldOrNew
      rw [hstore]
    rw [hsame]
    exact hsafe

/-- The old value is erased then. -/
theorem Page.Indexed.setsReplaced {p' : Page} {t : Stored}
    (h : p'.Indexed N (A ++ .live t :: (B ++ [.live s])) [])
    (hsafe : p.Extends (OldOrNew N (lives (A ++ .live t :: B)) s) p')
    (hstore : store (lives (A ++ .live t :: B)) s = lives A ++ lives B ++ [s])
    (hnew : content (lives (A ++ .live t :: B)) s.nsIndex s.key ≠ some s.value)
    (hhash : t.hash = s.hash) :
    ∃ p'', p'.eraseEntryAndSpan mis (size A) = some p'' ∧
      p.Sets N p'' .ok (A ++ .live t :: B) (A ++ List.replicate t.span .dead ++ (B ++ [.live s]))
        s := by
  have hshadow := survivors_replaced (s := s) (A := lives A) (B := lives B) hhash
  obtain ⟨p'', hp'', hsafe', hi⟩ := h.eraseChecked mis (by simpa using hshadow)
  refine ⟨p'', hp'', hi, ?_, fun _ => rfl, fun hsame => absurd hsame (not_same hnew), ?_⟩
  · rw [if_pos rfl, hstore]
    simp
  · have hafter : survivors (store (lives (A ++ .live t :: B)) s) =
        survivors (lives (A ++ .live t :: B) ++ [s]) := by
      rw [hstore]
      simpa using hshadow.symm
    have hsame : BeforeOrAfter N (lives (A ++ .live t :: B)) s =
        OldOrNew N (lives (A ++ .live t :: B)) s := by
      unfold BeforeOrAfter OldOrNew
      rw [hafter]
    rw [hsame]
    refine hsafe.trans (hsafe'.mono fun f hf => .inr ?_)
    simpa using hf

/-- **Storing a value: either it is done, or nothing is; and wherever power goes in its course, a
restart finds the items from before or those from after.** -/
theorem Page.Indexed.setItem (h : p.Indexed N segs []) (hvalue : s.value.Terminated)
    (hN : content (lives segs) s.nsIndex s.key ≠ some s.value → Fits segs s →
      size segs + s.span ≤ N) :
    ∃ p' r segs', p.setItem mis s.nsIndex s.key s.value = some (p', r) ∧
      p.Sets N p' r segs segs' s := by
  have hfails : ∀ {r}, content (lives segs) s.nsIndex s.key ≠ some s.value → ¬ Fits segs s →
      r ≠ .ok → p.Sets N p r segs segs s := fun hkept hfits hr =>
    h.setsNothing (absurd · hr) fun hok => absurd hok (not_or.mpr ⟨hkept, hfits⟩)
  have hnew : store (lives segs) s = lives segs ++ [s] →
      content (lives segs) s.nsIndex s.key ≠ some s.value →
      ∃ p' r segs', p.writeItem s.nsIndex s.key s.value = some (p', r) ∧
        p.Sets N p' r segs segs' s := by
    intro hstore hkept
    rcases h.writeItem s (hN hkept) with ⟨-, p', hp', hi, hsafe⟩ | ⟨hfits, r, hr, hp'⟩
    · exact ⟨p', _, _, hp', hi.setsNew hsafe hstore hkept⟩
    · exact ⟨p, r, segs, hp', hfails hkept hfits hr⟩
  rw [Page.setItem, h.findItem mis, Option.bind_some]
  obtain ⟨hfind, hloc⟩ | ⟨A, t, B, rfl, hn, hA, hfind, hloc⟩ :=
    exists_locate s.nsIndex s.value.datatype s.key segs 0
  · rw [hloc]
    exact hnew (by rw [store, hfind]) (by simp [content, hfind])
  · rw [hloc, Nat.zero_add]
    by_cases htype : t.value.datatype = s.value.datatype
    · rw [if_pos htype]
      dsimp only
      split_ifs with hsame
      · have heq : t.value = s.value := (h.sameData mis hvalue).mp hsame
        refine ⟨p, .ok, _, rfl, h.setsNothing (fun _ => ?_) fun _ => rfl⟩
        rw [store, hfind]
        exact if_pos heq
      · have hne : t.value ≠ s.value := fun hc => hsame ((h.sameData mis hvalue).mpr hc)
        have hkept : content (lives (A ++ .live t :: B)) s.nsIndex s.key ≠ some s.value := by
          rw [content, hfind]
          simpa using hne
        have hstore : store (lives (A ++ .live t :: B)) s = lives A ++ lives B ++ [s] := by
          rw [store, hfind]
          dsimp only
          rw [if_neg hne, if_pos htype, lives_append, lives_live, eraseP_named hn hA]
        rcases h.writeItem s (hN hkept) with ⟨-, p', hp', hi, hsafe⟩ | ⟨hfits, r, hr, hp'⟩
        · rw [List.append_assoc, List.cons_append] at hi
          obtain ⟨p'', hp'', hsets⟩ := hi.setsReplaced mis hsafe hstore hkept hn.hash_eq
          refine ⟨p'', .ok, _, ?_, hsets⟩
          rw [hp', Option.bind_some]
          dsimp only
          rw [hi.findItem mis, locate_append hA, locate, if_pos hn, if_pos htype, Nat.zero_add,
            Option.bind_some]
          dsimp only
          rw [hp'']
          rfl
        · refine ⟨p, r, _, ?_, hfails hkept hfits hr⟩
          rw [hp', Option.bind_some]
          cases r with
          | ok => exact absurd rfl hr
          | keyTooLong => rfl
          | valueTooLong => rfl
          | pageFull => rfl
          | notFound => rfl
    · rw [if_neg htype]
      have hne : t.value ≠ s.value := fun hc => htype (by rw [hc])
      refine hnew ?_ ?_
      · rw [store, hfind]
        dsimp only
        rw [if_neg hne, if_neg htype]
      · rw [content, hfind]
        simpa using hne

end

end NvsPage

end Sicae
