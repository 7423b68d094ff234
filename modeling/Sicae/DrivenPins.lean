import Sicae.DeviceIndices
import Sicae.DevicePins
import Sicae.Interleaving
import Sicae.MenuNavigation
import Sicae.SwitchCommand

/-! # Which pins are ever driven

Once the tasks run, three paths drive a pin: the refresh of the table, the remote command and the
action of the menu.  (`app_main` drives GPIO 23 itself, once and before them.)  Here they run with
everything else between them: answers of any content at any time, the processing task cut at its
HTTP calls, the buttons, and the measuring loop.

The refresh and the menu take a pin from NVS, or -1, which is no output, and leftover bytes above
the stored one make the number too large for a pin (`fieldMapped_storeDevice`).  So the only step that can
drive a pin which is stored for no device is the command after a failed lookup, with what the stack
left in `gpio_pin` (`drivenPins_iff`). -/

namespace Sicae

open CString Transition

/-! ### The steps -/

/-- The processing task at one of its points, and the globals. -/
structure PinState where
  pc : Pc
  globals : Globals

/-- A step of the processing task, an answer in any of the clients, a call of `navigate_menu` after
the buttons, an iteration of the measuring loop. -/
inductive PinAct where
  | process (io : Io)
  | answer (env : Env) (r : Route) (json : Option Json)
  | navigate (up down enter : Bool)
  | acs (level : ℤ) (current : ℚ) (i : ℕ)

/-- One step.  There is none where an action reads outside the table, or the loop an entry that was
never stored. -/
def pinStep (s : PinState) : PinAct → Option PinState
  | .process io => some ⟨(processStep io s.pc s.globals).1, (processStep io s.pc s.globals).2⟩
  | .answer env r json => some { s with globals := (handleAnswer env r json s.globals).1 }
  | .navigate up down enter =>
      (navigateMenu (released up down enter s.globals)).map fun g => { s with globals := g }
  | .acs level current i =>
      (acsIteration level current i s.globals).map fun r => { s with globals := r.2 }

/-- The pin is stored for some device. -/
def MappedPin (nvs : Nvs) (pin : ℤ) : Prop :=
  ∃ n p, nvs.lookup (deviceKey n) = some (.u8 p) ∧ pin = p.toNat

/-- Every pin that has been driven is stored for some device. -/
def DrivenMapped (g : Globals) : Prop := ∀ w ∈ g.gpio, MappedPin g.nvs w.1

/-- A command is carried out whose lookup fails, and the stack byte names an output that is stored
for no device. -/
def Misdirected (s : PinState) (io : Io) : Prop :=
  s.pc = .set ∧ s.globals.flags.setNewDeviceData = true ∧
    ∃ c, readSwitchCommand s.globals.urlSection = some c ∧
      (∃ e, readDevicePinFromNvs s.globals.nvs io.pinFaults c.deviceNumber = .error e) ∧
      gpioIsValidOutputGpio io.gpioPin.toNat = true ∧
      ¬ MappedPin s.globals.nvs io.gpioPin.toNat

/-- The condition on a step. -/
def Directed (s : PinState) : PinAct → Prop
  | .process io => ¬ Misdirected s io
  | .answer _ _ _ | .navigate _ _ _ | .acs _ _ _ => True

/-! ### Entries of the table -/

/-- A pin that is handed on is stored for some device, if it is an output at all. -/
def PinMapped (nvs : Nvs) (pin : ℤ) : Prop := gpioIsValidOutputGpio pin = true → MappedPin nvs pin

/-- Both readings of the field `pin`: the number itself, and its lowest byte. -/
structure FieldMapped (nvs : Nvs) (d : Device) : Prop where
  word : PinMapped nvs d.pin.toInt
  byte : PinMapped nvs (d.pin.setWidth 8).toNat

/-- So are all entries of the table. -/
def TablePins (g : Globals) : Prop := ∀ i d, g.device? i = some d → FieldMapped g.nvs d

/-- An output's number is its lowest byte. -/
theorem toInt_eq_of_valid {pin : BitVec 32} (h : gpioIsValidOutputGpio pin.toInt = true) :
    pin.toInt = ((pin.setWidth 8).toNat : ℤ) := by
  obtain ⟨h0, h64⟩ := lt_of_gpioIsValidOutputGpio h
  rw [BitVec.toNat_setWidth]
  rw [BitVec.toInt_eq_toNat_cond] at h0 h64 ⊢
  split_ifs at h0 h64 ⊢ <;> omega

/-- **An entry that a refresh stores** has a stored pin or none that can be driven. -/
theorem fieldMapped_storeDevice (nvs : Nvs) (faults : NvsFaults) (leftover : BitVec 32)
    (x : DeviceData) : FieldMapped nvs (storeDevice nvs faults leftover x) := by
  have hpin : (storeDevice nvs faults leftover x).pin =
      loadPin leftover (readDevicePinFromNvs nvs faults x.id) := rfl
  cases hread : readDevicePinFromNvs nvs faults x.id with
  | ok p =>
      rw [hread, loadPin] at hpin
      have hbyte : ((storeDevice nvs faults leftover x).pin.setWidth 8) = p := by
        rw [hpin, setWidth_append_byte]
      have hmapped : MappedPin nvs p.toNat := ⟨x.id, p, lookup_of_read hread, rfl⟩
      constructor
      · intro hvalid
        rw [toInt_eq_of_valid hvalid, hbyte]
        exact hmapped
      · intro _
        rw [hbyte]
        exact hmapped
  | error e =>
      rw [hread, loadPin] at hpin
      constructor
      · intro hvalid
        rw [hpin] at hvalid
        exact absurd hvalid (by decide)
      · intro hvalid
        rw [hpin] at hvalid
        exact absurd hvalid (by decide)

theorem fieldMapped_storedDevices (nvs : Nvs) (env : Env) (heap : ℕ → BitVec 32) :
    ∀ (items : List Json) (pos index : ℕ), ∀ d ∈ storedDevices nvs env heap items pos index,
      FieldMapped nvs d
  | [], _, _ => fun _ hd => absurd hd List.not_mem_nil
  | item :: items, pos, index => by
      have ih := fieldMapped_storedDevices nvs env heap items (pos + 1)
      intro d hd
      rw [storedDevices] at hd
      split at hd
      · rcases List.mem_cons.mp hd with rfl | hd
        · exact fieldMapped_storeDevice ..
        · exact ih _ d hd
      · exact ih _ d hd

theorem tablePins_congr {g g' : Globals} (h : TablePins g) (hnvs : g'.nvs = g.nvs)
    (hdevices : g'.devices = g.devices ∨ g'.devices = none) : TablePins g' := by
  intro i d hd
  rw [hnvs]
  rcases hdevices with hdevices | hdevices
  · exact h i d (by rwa [← device?_congr hdevices])
  · rw [Globals.device?, hdevices] at hd
    cases hd

/-! ### Levels -/

/-- A level is driven on a pin that is stored, if it is driven at all. -/
theorem mapped_gpioSetLevel_iff {nvs : Nvs} {gpio : Gpio} {pin : ℤ} {level : ℕ}
    (h : ∀ w ∈ gpio, MappedPin nvs w.1) :
    (∀ w ∈ gpioSetLevel gpio pin level, MappedPin nvs w.1) ↔ PinMapped nvs pin := by
  unfold gpioSetLevel PinMapped
  split_ifs with hvalid
  · rw [List.forall_mem_cons, and_iff_left h, forall_prop_of_true hvalid]
  · exact ⟨fun _ hv => absurd hv hvalid, fun _ => h⟩

theorem mapped_setPower_iff {nvs : Nvs} {gpio : Gpio} {b : Bool} {p : BitVec 8}
    (h : ∀ w ∈ gpio, MappedPin nvs w.1) :
    (∀ w ∈ setPower gpio b p, MappedPin nvs w.1) ↔ PinMapped nvs p.toNat := by
  rw [setPower_eq]
  exact mapped_gpioSetLevel_iff h

theorem mapped_foldl_driveRelay {nvs : Nvs} {ds : List Device} {gpio : Gpio}
    (hds : ∀ d ∈ ds, FieldMapped nvs d) (h : ∀ w ∈ gpio, MappedPin nvs w.1) :
    ∀ w ∈ ds.foldl driveRelay gpio, MappedPin nvs w.1 := by
  induction ds generalizing gpio with
  | nil => exact h
  | cons d ds ih =>
      obtain ⟨hd, hds⟩ := List.forall_mem_cons.mp hds
      refine ih hds ?_
      unfold driveRelay
      split_ifs
      · exact (mapped_setPower_iff h).mpr hd.byte
      · exact h

/-! ### Single steps -/

/-- The entries of the table and the levels so far are as they should be. -/
structure PinsInv (g : Globals) : Prop where
  table : TablePins g
  driven : DrivenMapped g

/-- What changes neither the NVS content, nor the levels, nor an entry of the table. -/
theorem PinsInv.congr {g g' : Globals} (h : PinsInv g) (hnvs : g'.nvs = g.nvs)
    (hdevices : g'.devices = g.devices ∨ g'.devices = none) (hgpio : g'.gpio = g.gpio) :
    PinsInv g' := by
  refine ⟨tablePins_congr h.table hnvs hdevices, ?_⟩
  rw [DrivenMapped, hgpio, hnvs]
  exact h.driven

/-- A refresh fills the table with stored pins and drives them. -/
theorem pinsInv_devicesBranch {env : Env} {items : List Json} {g : Globals} (h : PinsInv g) :
    PinsInv (devicesBranch env items g).1 := by
  cases hm : env.malloc items.length with
  | none =>
      rw [devicesBranch_eq, hm]
      exact h.congr rfl (.inr rfl) rfl
  | some heap =>
      have hstored := fieldMapped_storedDevices g.nvs env heap items 0 0
      have hnvs := (devicesBranch_same env items g).nvs
      constructor
      · intro i d hd
        rw [device?_devicesBranch hm] at hd
        rw [hnvs]
        exact hstored d (List.mem_of_getElem? hd)
      · rw [DrivenMapped, hnvs, devicesBranch_eq, hm]
        exact mapped_foldl_driveRelay hstored h.driven

theorem pinsInv_handleAnswer {env : Env} {r : Route} {json : Option Json} {g : Globals}
    (h : PinsInv g) : PinsInv (handleAnswer env r json g).1 := by
  have hbranch : PinsInv (answerBranch env r json g).1 := by
    unfold answerBranch
    split
    · rename_i v
      have hsame : (newDataBranch v g).devices = g.devices ∧ (newDataBranch v g).gpio = g.gpio := by
        unfold newDataBranch
        split_ifs
        · split <;> exact ⟨rfl, rfl⟩
        · exact ⟨rfl, rfl⟩
      exact h.congr (newDataBranch_same v g).nvs (.inl hsame.1) hsame.2
    · exact pinsInv_devicesBranch h
    · exact h
    · exact h
  unfold handleAnswer
  dsimp only
  split_ifs
  · exact hbranch.congr rfl (.inl rfl) rfl
  · exact hbranch

/-- The menu action drives the pin of an entry. -/
theorem pinsInv_deviceAction {g g' : Globals} (h : PinsInv g) (ha : deviceAction g = some g') :
    PinsInv g' := by
  cases hrelay : relay? g g.currentDeviceIndex with
  | none => rwa [deviceAction_other hrelay ha]
  | some d =>
      rw [deviceAction_relay hrelay] at ha
      obtain rfl := Option.some.inj ha
      have hslot := (relay?_eq_some_iff.mp hrelay).1
      have hd := h.table _ _ hslot
      refine ⟨fun i e he => ?_, ?_⟩
      · rw [device?_toggleRelay hslot] at he
        split_ifs at he
        · obtain rfl := Option.some.inj he
          exact ⟨hd.word, hd.byte⟩
        · exact h.table i e he
      · exact (mapped_gpioSetLevel_iff h.driven).mpr hd.word

theorem pinsInv_call {f : MenuFunction} {g g' : Globals} (h : PinsInv g) (hf : f.call g = some g') :
    PinsInv g' := by
  cases f with
  | deviceAction => exact pinsInv_deviceAction h hf
  | volver =>
      obtain rfl := Option.some.inj hf
      have hnvs : (volver g).nvs = g.nvs := by
        unfold volver
        split_ifs
        · rfl
        · split <;> rfl
      exact h.congr hnvs (.inl (volver_devices g).1) (volver_devices g).2
  | submenu1Fn | submenu2Fn | submenu3Fn =>
      obtain rfl := Option.some.inj hf
      exact h.congr rfl (.inl rfl) rfl

theorem pinsInv_navigateMenu {up down enter : Bool} {g g' : Globals} (h : PinsInv g)
    (hn : navigateMenu (released up down enter g) = some g') : PinsInv g' := by
  rw [navigateMenu, navigateDown_navigateUp] at hn
  rcases navigateEnter_cases hn with ⟨f, hf⟩ | ⟨submenu, rfl⟩ | rfl
  · refine pinsInv_call ?_ hf
    exact h.congr rfl (.inl rfl) rfl
  · exact h.congr rfl (.inl rfl) rfl
  · exact h.congr rfl (.inl rfl) rfl

theorem pinsInv_acsIteration {level : ℤ} {current : ℚ} {i : ℕ} {g : Globals} {r : ℕ × Globals}
    (h : PinsInv g) (hr : acsIteration level current i g = some r) : PinsInv r.2 := by
  rcases @acsIteration_cases level current i r.1 g r.2 hr with ⟨-, he⟩ | ⟨-, he⟩
  · rw [he]
    exact h.congr rfl (.inl rfl) rfl
  · rw [he]
    exact h

/-- Away from the command the processing task leaves the pins alone. -/
theorem pinsInv_processStep {io : Io} {pc : Pc} {g : Globals} (h : PinsInv g) (hpc : pc ≠ .set) :
    PinsInv (processStep io pc g).2 := by
  cases pc with
  | set => exact absurd rfl hpc
  | info =>
      rw [processStep]
      split_ifs
      · exact h.congr rfl (.inl rfl) rfl
      · exact h
  | devices =>
      rw [processStep]
      split_ifs
      · exact h.congr (by rw [fetchDevicesStart_eq]) (.inr (by rw [fetchDevicesStart_eq]))
          (by rw [fetchDevicesStart_eq])
      · exact h
  | current =>
      rw [processStep]
      split_ifs
      · exact h.congr rfl (.inl rfl) rfl
      · exact h
  | inCurrent => exact h.congr rfl (.inl rfl) rfl
  | inSet => exact h.congr rfl (.inl rfl) rfl
  | post =>
      rw [processStep]
      split_ifs
      · exact h.congr rfl (.inl rfl) rfl
      · exact h
  | cleared =>
      obtain ⟨b, menu, lcd, he⟩ := postEnd_eq io.menuAllocated
        (if (io.reply .clearNewData).status = some 200 then clearFlags g else g)
      rw [processStep, he]
      refine h.congr ?_ (.inl ?_) ?_ <;> · dsimp only; split_ifs <;> rfl
  | inInfo | inDevices | clearing => exact h

/-- **The command** drives a stored pin unless it is misdirected. -/
theorem pinsInv_set_iff {io : Io} {g : Globals} (h : PinsInv g) :
    PinsInv (processStep io .set g).2 ↔ ¬ Misdirected ⟨.set, g⟩ io := by
  rw [processStep, setStep]
  by_cases hflag : g.flags.setNewDeviceData = true
  · rw [if_pos hflag]
    cases hc : readSwitchCommand g.urlSection with
    | none =>
        refine iff_of_true (h.congr rfl (.inl rfl) rfl) ?_
        rintro ⟨-, -, c, hc', -⟩
        cases hc.symm.trans hc'
    | some c =>
        have hdriven : PinsInv (switchStart io c (setDeviceStart g)) ↔
            PinMapped g.nvs (io.gpioPinAfter g.nvs c.deviceNumber).toNat := by
          constructor
          · exact fun hi => (mapped_setPower_iff h.driven).mp hi.driven
          · exact fun hp => ⟨tablePins_congr h.table rfl (.inl rfl),
              (mapped_setPower_iff h.driven).mpr hp⟩
        refine hdriven.trans ?_
        cases hread : readDevicePinFromNvs g.nvs io.pinFaults c.deviceNumber with
        | ok p =>
            rw [Io.gpioPinAfter, hread]
            refine iff_of_true (fun _ => ⟨_, p, lookup_of_read hread, rfl⟩) ?_
            rintro ⟨-, -, c', hc', ⟨e, he⟩, -⟩
            obtain rfl : c = c' := Option.some.inj (hc.symm.trans hc')
            cases hread.symm.trans he
        | error e =>
            rw [Io.gpioPinAfter, hread]
            constructor
            · rintro hp ⟨-, -, -, -, -, hvalid, hno⟩
              exact hno (hp hvalid)
            · intro hno hvalid
              by_contra hmapped
              exact hno ⟨rfl, hflag, c, hc, ⟨e, hread⟩, hvalid, hmapped⟩
  · rw [if_neg hflag]
    exact iff_of_true h fun hm => hflag hm.2.1

/-! ### Runs -/

/-- A step keeps the levels as they should be exactly if it is directed. -/
theorem pinStep_iff {s s' : PinState} {a : PinAct} (h : PinsInv s.globals)
    (hs : pinStep s a = some s') : TablePins s'.globals ∧ (DrivenMapped s'.globals ↔ Directed s a) := by
  have htrivial : PinsInv s'.globals → Directed s a →
      TablePins s'.globals ∧ (DrivenMapped s'.globals ↔ Directed s a) :=
    fun hi hd => ⟨hi.table, iff_of_true hi.driven hd⟩
  cases a with
  | answer env r json =>
      obtain rfl := Option.some.inj hs
      exact htrivial (pinsInv_handleAnswer h) trivial
  | navigate up down enter =>
      obtain ⟨g, hg, rfl⟩ := Option.map_eq_some_iff.mp hs
      exact htrivial (pinsInv_navigateMenu h hg) trivial
  | acs level current i =>
      obtain ⟨r, hr, rfl⟩ := Option.map_eq_some_iff.mp hs
      exact htrivial (pinsInv_acsIteration h hr) trivial
  | process io =>
      obtain rfl := Option.some.inj hs
      obtain ⟨pc, g⟩ := s
      by_cases hpc : pc = .set
      · subst hpc
        have hiff := @pinsInv_set_iff io g h
        have htable : TablePins (processStep io .set g).2 := by
          rw [processStep, setStep]
          split_ifs
          · split <;> exact tablePins_congr h.table rfl (.inl rfl)
          · exact h.table
        exact ⟨htable, ⟨fun hd => hiff.mp ⟨htable, hd⟩, fun hd => (hiff.mpr hd).driven⟩⟩
      · exact htrivial (pinsInv_processStep h hpc) fun hm => hpc hm.1

/-- **A pin that is stored for no device is driven in a run exactly if a command is misdirected**:
in every run, over all orders of the steps, the pins driven are stored ones as long as no command
whose lookup fails finds such an output in the stack byte. -/
theorem drivenPins_iff {s t : PinState} {as : List PinAct} (htable : TablePins s.globals)
    (hdriven : DrivenMapped s.globals) (hr : run pinStep s as = some t) :
    AllStates pinStep (fun s => DrivenMapped s.globals) s as ↔ AllSteps pinStep Directed s as :=
  allStates_iff_allSteps
    (J := fun s => TablePins s.globals)
    (fun _ _ _ hj hi hs => pinStep_iff ⟨hj, hi⟩ hs) htable hdriven hr

/-- A command for a device without a stored pin is carried out. -/
theorem drivenPins_iff_unmapped :
    AllStates pinStep (fun s => DrivenMapped s.globals) ⟨.set, unmappedPending⟩
        [.process exampleIo] ↔
      AllSteps pinStep Directed ⟨.set, unmappedPending⟩ [.process exampleIo] :=
  drivenPins_iff
    (fun i d h => by
      have hnone : unmappedPending.device? i = none := rfl
      cases hnone.symm.trans h)
    (fun w h => absurd (show w ∈ ([] : Gpio) from h) List.not_mem_nil) rfl

end Sicae
