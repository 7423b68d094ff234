import Sicae.FailedRefresh
import Sicae.Interleaving
import Sicae.Transition

/-! # The device menu as a mirror of the table

The items of `submenu1` hold no names of their own: `populate_device_menu` copies the pointers of
the table.  A refresh frees the table in one piece of `data_processing_task`, the handler of its
GET builds the new one, and the menu is refilled at the end of the POSTNONEWDATA branch; the
button task may run at each point between.

So a menu that was filled mirrors the table just as long as the table is left as it was: from the
moment a table with entries is freed, or a new one with entries is there, the items carry names
that were freed, and their number is wrong (`mirrored_iff`). -/

namespace Sicae

open CString Transition

/-! ### The interleavings -/

/-- The globals, the position of the processing task, whether the menu was ever filled, and whether
the names it was filled with belong to the table that is there now. -/
structure MirrorState where
  globals : Globals
  pc : Pc := .info
  filled : Bool := false
  live : Bool := false

/-- A step of the processing task, the answer to its GET of the devices, a call of `navigate_menu`,
and what other tasks do to globals that are neither the table nor the items of `submenu1`. -/
inductive MirrorAct where
  | process (io : Io)
  | answer (env : Env) (json : Option Json)
  | button
  | others (g : Globals)

/-- Other tasks have changed the globals to `g'`, but for the table, the items of `submenu1` and
POPULATEDEVICES. -/
def outsideTable (g g' : Globals) : Globals :=
  { g' with
    devices := g.devices
    deviceCount := g.deviceCount
    menu := { g'.menu with items1 := g.menu.items1, itemCount1 := g.menu.itemCount1 }
    flags := g'.flags.withPopulate g.flags.populateDevices }

/-- The next step of the processing task frees the table. -/
def Refreshes (s : MirrorState) : Prop :=
  s.pc = .devices ∧ s.globals.flags.fetchNewDevicesData = true

/-- The next step of the processing task fills the menu. -/
def Refills (s : MirrorState) : Prop :=
  s.pc = .cleared ∧ s.globals.flags.populateDevices = true

instance (s : MirrorState) : Decidable (Refreshes s) := inferInstanceAs (Decidable (_ ∧ _))

instance (s : MirrorState) : Decidable (Refills s) := inferInstanceAs (Decidable (_ ∧ _))

/-- An array brings a table of its own, whose names the menu does not have. -/
def liveAfter (live : Bool) : Option Json → Bool
  | some (.array _) => false
  | _ => live

/-- One step.  A filling without memory for the items does not complete. -/
def mirrorStep (s : MirrorState) : MirrorAct → Option MirrorState
  | .process io => some
      { globals := (processStep io s.pc s.globals).2
        pc := (processStep io s.pc s.globals).1
        filled := s.filled || (decide (Refills s) && io.menuAllocated)
        live := if Refills s then io.menuAllocated else s.live && !decide (Refreshes s) }
  | .answer env json =>
      if s.pc = .inDevices then some
        { s with
          globals := (handleAnswer env .devices json s.globals).1
          live := liveAfter s.live json }
      else none
  | .button => (navigateMenu s.globals).map fun g => { s with globals := g }
  | .others g => some { s with globals := outsideTable s.globals g }

/-- Power-up: there is no table, and the menu was not filled. -/
def mirrorInitial (g : Globals) : MirrorState where
  globals := { g with devices := none, deviceCount := 0 }

/-! ### The mirror -/

/-- The name that item `i` of `submenu1` carries. -/
def itemName (g : Globals) (i : ℕ) : Option CStr := (g.menu.items1.get? i).bind MenuItem.name

/-- The menu shows the table: an item for each entry, with the name of that entry, and VOLVER. -/
structure Mirrors (s : MirrorState) : Prop where
  itemCount : s.globals.menu.itemCount1 = s.globals.deviceCount + 1
  names : ∀ i < s.globals.deviceCount, s.live = true ∧
    ∃ d, s.globals.device? i = some d ∧ itemName s.globals i = some d.name
  last : s.globals.menu.items1.get? s.globals.deviceCount =
    some { name := some "VOLVER".toList, action := some .volver }

/-- The menu mirrors the table once it was filled. -/
def MirrorsOnceFilled (s : MirrorState) : Prop := s.filled = true → Mirrors s

/-- The condition on a step: after the first filling no table with entries is freed, no array but
the empty one arrives, and every filling gets its memory; and a filling finds an entry in each
slot of the table. -/
def KeepsMirror (s : MirrorState) : MirrorAct → Prop
  | .process io =>
      (s.filled = true → Refreshes s → s.globals.deviceCount = 0) ∧
      (Refills s → (s.filled = true → io.menuAllocated = true) ∧
        (io.menuAllocated = true →
          ∀ i < s.globals.deviceCount, (s.globals.device? i).isSome = true))
  | .answer _ json => s.filled = true →
      ∀ items, json = some (.array items) → items = [] ∧ s.globals.deviceCount = 0
  | .button | .others _ => True

/-! ### What the steps leave alone -/

/-- The names in the table and the items of `submenu1` are the same in `g'` as in `g`. -/
structure SameNames (g g' : Globals) : Prop where
  names : ∀ i, (g'.device? i).map Device.name = (g.device? i).map Device.name
  deviceCount : g'.deviceCount = g.deviceCount
  items1 : g'.menu.items1 = g.menu.items1
  itemCount1 : g'.menu.itemCount1 = g.menu.itemCount1

theorem SameNames.trans {g g' g'' : Globals} (h : SameNames g g') (h' : SameNames g' g'') :
    SameNames g g'' where
  names i := (h'.names i).trans (h.names i)
  deviceCount := h'.deviceCount.trans h.deviceCount
  items1 := h'.items1.trans h.items1
  itemCount1 := h'.itemCount1.trans h.itemCount1

theorem SameTable.sameNames {g g' : Globals} (h : SameTable g g') : SameNames g g' where
  names i := by rw [device?_congr h.devices]
  deviceCount := h.deviceCount
  items1 := by rw [h.menu]
  itemCount1 := by rw [h.menu]

/-- A step that keeps names and items keeps the mirror. -/
theorem Mirrors.congr {s s' : MirrorState} (hs : Mirrors s) (h : SameNames s.globals s'.globals)
    (hlive : s.live = true → s'.live = true) : Mirrors s' where
  itemCount := by rw [h.itemCount1, h.deviceCount, hs.itemCount]
  names i hi := by
    rw [h.deviceCount] at hi
    obtain ⟨hl, d, hd, hname⟩ := hs.names i hi
    have hsome := h.names i
    rw [hd, Option.map_some, Option.map_eq_some_iff] at hsome
    obtain ⟨d', hd', heq⟩ := hsome
    exact ⟨hlive hl, d', hd', by rw [itemName, h.items1, heq]; exact hname⟩
  last := by
    rw [h.items1, h.deviceCount]
    exact hs.last

/-- The device action changes the state of an entry, not its name. -/
theorem deviceAction_sameNames {g g' : Globals} (h : deviceAction g = some g') :
    SameNames g g' := by
  unfold deviceAction at h
  cases hd : g.device? g.currentDeviceIndex with
  | none =>
      rw [hd] at h
      cases h
  | some d =>
      rw [hd] at h
      obtain rfl := Option.some.inj h
      split_ifs
      · refine ⟨fun i => ?_, rfl, rfl, rfl⟩
        rw [device?_toggleRelay hd]
        split_ifs with hi
        · rw [hi, hd]
          rfl
        · rfl
      · exact ⟨fun _ => rfl, rfl, rfl, rfl⟩

theorem liveAfter_other {live : Bool} {json : Option Json}
    (h : ∀ items, json ≠ some (.array items)) : liveAfter live json = live := by
  unfold liveAfter
  split
  · exact absurd rfl (h _)
  · rfl

theorem volver_sameNames (g : Globals) : SameNames g (volver g) := by
  unfold volver
  split_ifs
  · exact ⟨fun _ => rfl, rfl, rfl, rfl⟩
  · split <;> exact ⟨fun _ => rfl, rfl, rfl, rfl⟩

theorem call_sameNames {f : MenuFunction} {g g' : Globals} (h : f.call g = some g') :
    SameNames g g' := by
  cases f with
  | volver =>
      obtain rfl := Option.some.inj h
      exact volver_sameNames g
  | deviceAction => exact deviceAction_sameNames h
  | submenu1Fn | submenu2Fn | submenu3Fn =>
      obtain rfl := Option.some.inj h
      exact ⟨fun _ => rfl, rfl, rfl, rfl⟩

theorem navigateEnter_sameNames {g g' : Globals} (h : navigateEnter g = some g') :
    SameNames g g' := by
  have htaken : SameNames g (enterTaken g) := ⟨fun _ => rfl, rfl, rfl, rfl⟩
  rcases navigateEnter_cases h with ⟨f, hf⟩ | ⟨submenu, rfl⟩ | rfl
  · exact htaken.trans (call_sameNames hf)
  · exact ⟨fun _ => rfl, rfl, rfl, rfl⟩
  · exact htaken

/-- The button task keeps names and items. -/
theorem navigateMenu_sameNames {g g' : Globals} (h : navigateMenu g = some g') :
    SameNames g g' := by
  have hmoved : SameNames g (navigateDown (navigateUp g)) := by
    unfold navigateDown navigateUp
    split_ifs <;> exact ⟨fun _ => rfl, rfl, rfl, rfl⟩
  exact hmoved.trans (navigateEnter_sameNames h)

/-- So does the processing task where it neither frees the table nor fills the menu. -/
theorem processStep_sameTable {io : Io} {s : MirrorState} (hfree : ¬ Refreshes s)
    (hfill : ¬ Refills s) : SameTable s.globals (processStep io s.pc s.globals).2 := by
  cases hpc : s.pc with
  | info | current | post =>
      rw [processStep]
      split_ifs <;> exact ⟨rfl, rfl, rfl, rfl⟩
  | devices =>
      rw [processStep, if_neg fun hflag => hfree ⟨hpc, hflag⟩]
      exact .refl _
  | set =>
      rw [processStep, setStep]
      split_ifs
      · split <;> exact ⟨rfl, rfl, rfl, rfl⟩
      · exact .refl _
  | cleared =>
      have hflag : s.globals.flags.populateDevices = false :=
        Bool.eq_false_iff.mpr fun hflag => hfill ⟨hpc, hflag⟩
      rw [processStep, postEnd]
      split_ifs with hok hpopulate hpopulate
      · exact absurd hpopulate (by simp [clearFlags, hflag])
      · exact ⟨rfl, rfl, rfl, rfl⟩
      · exact absurd hpopulate (by simp [hflag])
      · exact ⟨rfl, rfl, rfl, rfl⟩
  | inInfo | inDevices | inCurrent | inSet | clearing => exact ⟨rfl, rfl, rfl, rfl⟩

/-! ### Freeing and filling -/

/-- A filling leaves the table alone and puts an item for each entry into the menu. -/
theorem postEnd_filled {allocated : Bool} {g : Globals} (h : g.flags.populateDevices = true) :
    (postEnd allocated g).devices = g.devices ∧
      (postEnd allocated g).deviceCount = g.deviceCount ∧
      (postEnd allocated g).menu.items1 =
        (if allocated then .block (deviceItems g) else g.menu.items1.free) ∧
      (allocated = true → (postEnd allocated g).menu.itemCount1 = g.deviceCount + 1) := by
  rw [postEnd]
  simp only [h, if_true, populateDeviceMenu]
  cases allocated with
  | false => exact ⟨rfl, rfl, rfl, by simp⟩
  | true =>
      simp only [if_true]
      split_ifs <;> exact ⟨rfl, rfl, rfl, fun _ => rfl⟩

/-- Where the names of the menu are not those of the table any more, it mirrors the table just
when neither the old nor the new table has entries. -/
theorem Mirrors.changed_iff {s s' : MirrorState} (hs : Mirrors s)
    (hmenu : s'.globals.menu = s.globals.menu) (hlive : s'.live = false) :
    Mirrors s' ↔ s.globals.deviceCount = 0 ∧ s'.globals.deviceCount = 0 := by
  constructor
  · intro hs'
    have hcount : s'.globals.deviceCount = s.globals.deviceCount := by
      have hold := hs.itemCount
      have hnew := hs'.itemCount
      rw [hmenu, hold] at hnew
      omega
    have hempty : s'.globals.deviceCount = 0 := by
      by_contra hpos
      have hname := (hs'.names 0 (Nat.pos_of_ne_zero hpos)).1
      rw [hlive] at hname
      cases hname
    exact ⟨hcount ▸ hempty, hempty⟩
  · rintro ⟨hold, hnew⟩
    refine ⟨?_, fun i hi => absurd hi (by omega), ?_⟩
    · rw [hmenu, hnew, hs.itemCount, hold]
    · rw [hmenu, hnew, ← hs.last, hold]

/-- A menu that was just filled mirrors the table if each slot of it has an entry. -/
theorem mirrors_filled_iff {s : MirrorState} {g : Globals} (hlive : s.live = true)
    (hdevices : s.globals.devices = g.devices) (hcount : s.globals.deviceCount = g.deviceCount)
    (hitems : s.globals.menu.items1 = .block (deviceItems g))
    (hitemCount : s.globals.menu.itemCount1 = g.deviceCount + 1) :
    Mirrors s ↔ ∀ i < g.deviceCount, (g.device? i).isSome = true := by
  have hdevice := device?_congr hdevices
  constructor
  · intro hs i hi
    obtain ⟨-, d, hd, -⟩ := hs.names i (hcount ▸ hi)
    rw [← hdevice, hd]
    rfl
  · intro hsome
    refine ⟨by rw [hitemCount, hcount], fun i hi => ⟨hlive, ?_⟩, ?_⟩
    · rw [hcount] at hi
      obtain ⟨d, hd⟩ := Option.isSome_iff_exists.mp (hsome i hi)
      refine ⟨d, (hdevice i).trans hd, ?_⟩
      rw [itemName, hitems, get?_deviceItems g hi, hd]
      rfl
    · rw [hitems, hcount]
      exact get?_deviceItems_last g

/-! ### One step -/

section
variable {s s' : MirrorState} {io : Io}

/-- The processing task frees and fills at different points. -/
theorem Refreshes.not_refills (h : Refreshes s) : ¬ Refills s :=
  fun hr => absurd (h.1.symm.trans hr.1) (by decide)

/-- Freeing keeps the mirror of an empty table only. -/
theorem refresh_iff (hs : MirrorsOnceFilled s) (hfree : Refreshes s)
    (h : mirrorStep s (.process io) = some s') :
    MirrorsOnceFilled s' ↔ (s.filled = true → s.globals.deviceCount = 0) := by
  have hfill := hfree.not_refills
  obtain rfl := Option.some.inj h
  have hfreed : Freed s.globals (processStep io s.pc s.globals).2 := by
    rw [hfree.1, processStep, if_pos hfree.2]
    exact fetchDevicesStart_freed
  unfold MirrorsOnceFilled
  simp only [hfill, decide_false, Bool.false_and, Bool.or_false]
  refine forall_congr' fun hfilled => ?_
  rw [(hs hfilled).changed_iff hfreed.menu (by simp [hfree])]
  refine and_iff_left_of_imp fun hzero => ?_
  show (processStep io s.pc s.globals).2.deviceCount = 0
  rw [hfreed.deviceCount, hzero, ite_self]

/-- A filling makes the menu a mirror if it gets its memory and finds all entries. -/
theorem refill_iff (hfill : Refills s) (h : mirrorStep s (.process io) = some s') :
    MirrorsOnceFilled s' ↔ (s.filled = true → io.menuAllocated = true) ∧
      (io.menuAllocated = true →
        ∀ i < s.globals.deviceCount, (s.globals.device? i).isSome = true) := by
  obtain rfl := Option.some.inj h
  obtain ⟨g, hg, hpopulate, hdevices, hcount⟩ : ∃ g,
      (processStep io s.pc s.globals).2 = postEnd io.menuAllocated g ∧
        g.flags.populateDevices = true ∧ g.devices = s.globals.devices ∧
        g.deviceCount = s.globals.deviceCount := by
    rw [hfill.1, processStep]
    split_ifs
    · exact ⟨_, rfl, hfill.2, rfl, rfl⟩
    · exact ⟨_, rfl, hfill.2, rfl, rfl⟩
  have hdevice := device?_congr hdevices
  obtain ⟨hdevices', hcount', hitems, hitemCount⟩ :=
    @postEnd_filled io.menuAllocated g hpopulate
  unfold MirrorsOnceFilled
  cases hm : io.menuAllocated with
  | true =>
      rw [hm] at hg hdevices' hcount' hitems hitemCount
      simp only [hfill, decide_true, Bool.true_and, Bool.or_true, if_true, forall_const, implies_true,
        true_and]
      rw [mirrors_filled_iff (g := g) rfl (by rw [hg, hdevices']) (by rw [hg, hcount'])
        (by rw [hg, hitems, if_pos rfl]) (by rw [hg, hitemCount rfl]), hcount]
      simp only [hdevice]
  | false =>
      have hnone : (processStep io s.pc s.globals).2.menu.items1.get?
          (processStep io s.pc s.globals).2.deviceCount = none := by
        rw [hg, hitems, hm, if_neg (by decide)]
        cases g.menu.items1 <;> rfl
      have hno : ∀ t : MirrorState, t.globals = (processStep io s.pc s.globals).2 → ¬ Mirrors t := by
        intro t ht hs'
        have hlast := hs'.last
        rw [ht, hnone] at hlast
        cases hlast
      simp only [Bool.and_false, Bool.or_false, Bool.false_eq_true, IsEmpty.forall_iff, and_true]
      exact forall_congr' fun _ => iff_of_false (hno _ rfl) id

/-- An array keeps the mirror of an empty table if it is empty itself; other answers keep any. -/
theorem answer_iff {env : Env} {json : Option Json} (hs : MirrorsOnceFilled s)
    (h : mirrorStep s (.answer env json) = some s') :
    MirrorsOnceFilled s' ↔ (s.filled = true →
      ∀ items, json = some (.array items) → items = [] ∧ s.globals.deviceCount = 0) := by
  simp only [mirrorStep] at h
  split_ifs at h
  by_cases harray : ∃ items, json = some (.array items)
  · obtain ⟨items, rfl⟩ := harray
    obtain rfl := Option.some.inj h
    refine forall_congr' fun hfilled => ?_
    have hsame := handleAnswer_same env .devices (some (.array items)) s.globals
    rw [(hs hfilled).changed_iff hsame.menu rfl, (handleAnswer_array env items s.globals).2,
      List.length_eq_zero_iff, and_comm]
    constructor
    · rintro hboth items' he
      cases he
      exact hboth
    · exact fun hall => hall items rfl
  · have hother : ∀ items, json ≠ some (.array items) := fun items he => harray ⟨items, he⟩
    have hsame := @handleAnswer_sameTable env .devices json s.globals fun _ => hother
    obtain rfl := Option.some.inj h
    refine iff_of_true (fun hfilled => ?_) fun _ items he => absurd he (hother items)
    exact (hs hfilled).congr hsame.sameNames fun hl => (liveAfter_other hother).trans hl

/-- A step keeps the mirror exactly if it meets the condition. -/
theorem mirrorStep_iff {a : MirrorAct} (hs : MirrorsOnceFilled s) (h : mirrorStep s a = some s') :
    MirrorsOnceFilled s' ↔ KeepsMirror s a := by
  cases a with
  | process io =>
      by_cases hfree : Refreshes s
      · have hfill := hfree.not_refills
        simp [refresh_iff hs hfree h, KeepsMirror, hfree, hfill]
      · by_cases hfill : Refills s
        · simp [refill_iff hfill h, KeepsMirror, hfree, hfill]
        · refine iff_of_true (fun hfilled => ?_)
            ⟨fun _ hr => absurd hr hfree, fun hr => absurd hr hfill⟩
          obtain rfl := Option.some.inj h
          have hold : s.filled = true := by simpa [hfill] using hfilled
          exact (hs hold).congr (processStep_sameTable hfree hfill).sameNames
            fun hl => by simp [hfill, hfree, hl]
  | answer env json => exact answer_iff hs h
  | button =>
      obtain ⟨g, hg, rfl⟩ := Option.map_eq_some_iff.mp h
      exact iff_of_true (fun hfilled => (hs hfilled).congr (navigateMenu_sameNames hg) id) trivial
  | others g =>
      obtain rfl := Option.some.inj h
      have hsame : SameNames s.globals (outsideTable s.globals g) := ⟨fun _ => rfl, rfl, rfl, rfl⟩
      exact iff_of_true (fun hfilled => (hs hfilled).congr hsame id) trivial

end

/-! ### Whole runs -/

/-- **The menu mirrors the table at every point after its first filling** exactly if from then on no
table with entries is freed, only empty arrays arrive, and every filling gets its memory, and if
each filling finds an entry in each slot of the table. -/
theorem mirrored_iff {g : Globals} {as : List MirrorAct} {t : MirrorState}
    (hr : run mirrorStep (mirrorInitial g) as = some t) :
    AllStates mirrorStep MirrorsOnceFilled (mirrorInitial g) as ↔
      AllSteps mirrorStep KeepsMirror (mirrorInitial g) as := by
  apply allStates_iff_allSteps (J := fun _ => True) _ trivial _ hr
  · intro s a s' _ hs h
    exact ⟨trivial, mirrorStep_iff hs h⟩
  · exact fun hfilled => absurd hfilled (by simp [mirrorInitial])

/-! ### The second refresh -/

/-- The globals after an answer to the polling task that asks for a refresh. -/
def refreshAsked : Globals :=
  { exampleGlobals with flags := { fetchNewDevicesData := true, postNoNewData := true } }

/-- A refresh with one relay, whose menu is filled, and the start of the next refresh. -/
def secondRefresh : List MirrorAct :=
  [.others refreshAsked, .process exampleIo, .process exampleIo,
    .answer zeroedHeap (some (.array [exampleRelay]))] ++
    List.replicate 6 (.process exampleIo) ++
    [.others refreshAsked, .process exampleIo, .process exampleIo]

theorem run_secondRefresh :
    (run mirrorStep (mirrorInitial exampleGlobals) secondRefresh).map
        (fun t => (t.filled, t.globals.menu.itemCount1, t.globals.deviceCount)) =
      some (true, 2, 0) := by
  decide +kernel

theorem mirrored_secondRefresh :
    AllStates mirrorStep MirrorsOnceFilled (mirrorInitial exampleGlobals) secondRefresh ↔
      AllSteps mirrorStep KeepsMirror (mirrorInitial exampleGlobals) secondRefresh := by
  obtain ⟨t, ht, -⟩ := Option.map_eq_some_iff.mp run_secondRefresh
  exact mirrored_iff ht

/-- The relay is freed, and the menu still shows it. -/
theorem secondRefresh_stale :
    ¬ AllStates mirrorStep MirrorsOnceFilled (mirrorInitial exampleGlobals) secondRefresh := by
  intro h
  obtain ⟨t, ht, hend⟩ := Option.map_eq_some_iff.mp run_secondRefresh
  simp only [Prod.mk.injEq] at hend
  have hcount := (h.last ht hend.1).itemCount
  rw [hend.2.1, hend.2.2] at hcount
  exact absurd hcount (by decide)

end Sicae
