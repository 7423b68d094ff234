import Sicae.DeviceTable
import Sicae.SwitchCommand
import Sicae.Transition

/-! # The state of a relay and the level of its pin

Three paths write the `state` of a table entry or its pin: the refresh of the table, the remote
command and the action of the menu.  `setPower` drives a pin low to switch the relay on, so
state and pin agree when the state is on exactly if the last level on the pin is 0 (`Agree`).

The refresh writes both and uses `setPower` for the pin.  The command drives the pin and does
not look at the table.  The menu action writes both, but the state itself as the level.  So of
the three only the refresh makes them agree; a command keeps them in agreement if it repeats the
state in the table, and the menu action never does (`KeepsAgree`). -/

namespace Sicae

open CString Transition

/-! ### Operations -/

/-- The pin of a relay is the one stored for it, and is an output; the number is an `int`. -/
def RelayOk (nvs : Nvs) (d : Device) : Prop :=
  readDevicePinFromNvs nvs .none d.id = .ok (d.pin.setWidth 8) ∧
  gpioIsValidOutputGpio d.pin.toInt = true ∧ -2 ^ 31 ≤ d.id ∧ d.id < 2 ^ 31

instance (nvs : Nvs) (d : Device) : Decidable (RelayOk nvs d) :=
  inferInstanceAs (Decidable (_ ∧ _ ∧ _ ∧ _))

/-- Every relay of the table is so, and the pins of the relays are pairwise distinct. -/
def RelaysOk (nvs : Nvs) (ds : List Device) : Prop :=
  (∀ d ∈ ds, d.isRelay = true → RelayOk nvs d) ∧
  ds.Pairwise (fun d e => d.isRelay = true → e.isRelay = true → d.pin ≠ e.pin)

instance (nvs : Nvs) (ds : List Device) : Decidable (RelaysOk nvs ds) :=
  inferInstanceAs (Decidable (_ ∧ _))

/-- The operations: a refresh answered with an array, a command for the relay at an index of the
table, and the menu action with `currentDeviceIndex` at such an index. -/
inductive RelayOp where
  | refresh (env : Env) (items : List Json)
  | command (io : Io) (i : ℕ) (b : Bool)
  | action (i : ℕ)

/-- A refresh: the old table is freed and the answer is handled. -/
def refresh (env : Env) (items : List Json) (g : Globals) : Globals :=
  (handleAnswer env .devices (some (.array items)) (freeDevicesArray g)).1

/-- The dispatch of a switch command and the SETNEWDEVICEDATA branch. -/
def command (parse : CStr → Option Json) (io : Io) (n : ℤ) (b : Bool) (g : Globals) : Globals :=
  setDeviceBranch parse { io with pinFaults := .none }
    (handleAnswer io.env .newData (some (newDataJson (switchText (decimal n) b))) g).1

/-- One operation; a refresh counts only if the table could be allocated and its relays are as
they should be. -/
def relayStep (parse : CStr → Option Json) (g : Globals) : RelayOp → Option Globals
  | .refresh env items =>
      (env.malloc items.length).bind (fun heap =>
        if RelaysOk g.nvs (storedDevices g.nvs env heap items 0 0) then some (refresh env items g)
        else none)
  | .command io i b => (relay? g i).map (fun d => command parse io d.id b g)
  | .action i =>
      (relay? g i).bind (fun _ => deviceAction { g with currentDeviceIndex := i })

/-- State and pin agree for every relay in the table. -/
def Agree (g : Globals) : Prop :=
  ∀ i d, relay? g i = some d → (d.state = true ↔ lastLevel g.gpio d.pin.toInt = some 0)

/-- The condition on an operation, in the state before it. -/
def KeepsAgree (g : Globals) : RelayOp → Prop
  | .refresh _ _ => True
  | .command _ i b => ∀ d, relay? g i = some d → d.state = b
  | .action _ => False

/-- The relays in the table have the stored pins, which are outputs and pairwise distinct. -/
structure TableOk (g : Globals) : Prop where
  relayOk : ∀ i d, relay? g i = some d → RelayOk g.nvs d
  pin_ne : ∀ i j d e, relay? g i = some d → relay? g j = some e → i ≠ j → d.pin ≠ e.pin

/-! ### Entries and pins -/

section
variable {d : Device}

/-- The pin of a relay that is as it should be survives the narrowing to a byte. -/
theorem RelayOk.toInt_eq {nvs : Nvs} (h : RelayOk nvs d) :
    d.pin.toInt = ((d.pin.setWidth 8).toNat : ℤ) := by
  obtain ⟨h0, h64⟩ := lt_of_gpioIsValidOutputGpio h.2.1
  rw [BitVec.toNat_setWidth]
  rw [BitVec.toInt_eq_toNat_cond] at h0 h64 ⊢
  split_ifs at h0 h64 ⊢ <;> omega

/-- Driving a relay that is as it should be. -/
theorem RelayOk.driveRelay_eq {nvs : Nvs} {gpio : Gpio} (h : RelayOk nvs d)
    (hr : d.isRelay = true) :
    driveRelay gpio d = gpioSetLevel gpio d.pin.toInt (powerLevel d.state) := by
  rw [driveRelay, if_pos hr, setPower_eq, h.toInt_eq]

/-- Entries with other pins leave the level of a pin alone. -/
theorem lastLevel_foldl_driveRelay_ne {nvs : Nvs} {pin : BitVec 32} : ∀ {ds : List Device}
    {gpio : Gpio}, (∀ e ∈ ds, e.isRelay = true → RelayOk nvs e ∧ pin ≠ e.pin) →
    lastLevel (ds.foldl driveRelay gpio) pin.toInt = lastLevel gpio pin.toInt
  | [], _, _ => rfl
  | e :: ds, gpio, h => by
      have ih := @lastLevel_foldl_driveRelay_ne nvs pin ds (driveRelay gpio e)
        (fun e' he' => h e' (List.mem_cons_of_mem _ he'))
      rw [List.foldl_cons, ih]
      by_cases hr : e.isRelay = true
      · obtain ⟨hok, hne⟩ := h e List.mem_cons_self hr
        rw [hok.driveRelay_eq hr]
        exact lastLevel_gpioSetLevel_ne (fun he => hne (BitVec.eq_of_toInt_eq he))
      · rw [driveRelay, if_neg hr]

/-- After the loop of a refresh every relay has the level of its state. -/
theorem lastLevel_foldl_driveRelay {nvs : Nvs} : ∀ {ds : List Device} {gpio : Gpio},
    RelaysOk nvs ds → ∀ d ∈ ds, d.isRelay = true →
      lastLevel (ds.foldl driveRelay gpio) d.pin.toInt = some (powerLevel d.state)
  | [], _, _, d, hd, _ => absurd hd List.not_mem_nil
  | e :: ds, gpio, h, d, hd, hr => by
      obtain ⟨hhead, htail⟩ := List.pairwise_cons.mp h.2
      rw [List.foldl_cons]
      rcases List.mem_cons.mp hd with rfl | hm
      · have hok := h.1 d List.mem_cons_self hr
        rw [@lastLevel_foldl_driveRelay_ne nvs _ ds _ (fun e' he' hr' =>
            ⟨h.1 e' (List.mem_cons_of_mem _ he') hr', hhead e' he' hr hr'⟩), hok.driveRelay_eq hr]
        exact lastLevel_gpioSetLevel_self hok.2.1
      · exact lastLevel_foldl_driveRelay
          ⟨fun e' he' => h.1 e' (List.mem_cons_of_mem _ he'), htail⟩ d hm hr

end

/-! ### The refresh -/

section
variable {parse : CStr → Option Json} {g s' : Globals} {d : Device}

theorem freeDevicesArray_same (g : Globals) :
    (freeDevicesArray g).nvs = g.nvs ∧ (freeDevicesArray g).gpio = g.gpio := by
  rw [freeDevicesArray_eq]
  exact ⟨rfl, rfl⟩

/-- A completed refresh: the stored entries are the table and their relays have been driven. -/
theorem refresh_spec {env : Env} {items : List Json} {heap : ℕ → BitVec 32}
    (hm : env.malloc items.length = some heap) :
    (refresh env items g).nvs = g.nvs ∧
    (∀ i, (refresh env items g).device? i = (storedDevices g.nvs env heap items 0 0)[i]?) ∧
    (refresh env items g).gpio =
      (storedDevices g.nvs env heap items 0 0).foldl driveRelay g.gpio := by
  obtain ⟨hnvs, hgpio⟩ := freeDevicesArray_same g
  have hslot := device?_devicesBranch (g := freeDevicesArray g) hm
  have heq := devicesBranch_eq env items (freeDevicesArray g)
  rw [hm, hnvs, hgpio] at heq
  rw [hnvs] at hslot
  rw [refresh, handleAnswer_devices hm]
  refine ⟨?_, hslot, ?_⟩
  · rw [postNoNewDataTest, heq]
  · rw [postNoNewDataTest, heq]

theorem relayStep_refresh {env : Env} {items : List Json}
    (h : relayStep parse g (.refresh env items) = some s') :
    ∃ ds, RelaysOk g.nvs ds ∧ s'.nvs = g.nvs ∧ (∀ i, s'.device? i = ds[i]?) ∧
      s'.gpio = ds.foldl driveRelay g.gpio := by
  simp only [relayStep, Option.bind_eq_some_iff] at h
  obtain ⟨heap, hm, h⟩ := h
  split_ifs at h with hok
  obtain rfl := Option.some.inj h
  exact ⟨_, hok, refresh_spec hm⟩

/-- After a refresh the table is as it should be, and states and pins agree. -/
theorem refresh_agree {env : Env} {items : List Json}
    (h : relayStep parse g (.refresh env items) = some s') : TableOk s' ∧ Agree s' := by
  obtain ⟨ds, hok, hnvs, hslot, hgpio⟩ := relayStep_refresh h
  have hmem : ∀ {i d}, relay? s' i = some d → ds[i]? = some d ∧ d.isRelay = true := by
    intro i d hd
    rw [relay?_eq_some_iff, hslot] at hd
    exact hd
  refine ⟨⟨fun i d hd => ?_, fun i j d e hd he hij hpin => ?_⟩, fun i d hd => ?_⟩
  · obtain ⟨h1, h2⟩ := hmem hd
    rw [hnvs]
    exact hok.1 d (List.mem_of_getElem? h1) h2
  · obtain ⟨h1, h2⟩ := hmem hd
    obtain ⟨h3, h4⟩ := hmem he
    obtain ⟨hi, rfl⟩ := List.getElem?_eq_some_iff.mp h1
    obtain ⟨hj, rfl⟩ := List.getElem?_eq_some_iff.mp h3
    rcases Nat.lt_or_gt_of_ne hij with hlt | hlt
    · exact List.pairwise_iff_getElem.mp hok.2 i j hi hj hlt h2 h4 hpin
    · exact List.pairwise_iff_getElem.mp hok.2 j i hj hi hlt h4 h2 hpin.symm
  · obtain ⟨h1, h2⟩ := hmem hd
    rw [hgpio, lastLevel_foldl_driveRelay hok d (List.mem_of_getElem? h1) h2, Option.some.injEq,
      powerLevel_eq_zero]

/-! ### The command -/

/-- A command drives the stored pin of its device and leaves the table alone. -/
theorem command_spec {io : Io} {n : ℤ} {b : Bool} {p : BitVec 8}
    (hp : readDevicePinFromNvs g.nvs .none n = .ok p) (hlo : -2 ^ 31 ≤ n) (hhi : n < 2 ^ 31) :
    (command parse io n b g).gpio = gpioSetLevel g.gpio p.toNat (powerLevel b) ∧
    (command parse io n b g).devices = g.devices ∧ (command parse io n b g).nvs = g.nvs := by
  have hlen := length_decimal_le hlo hhi
  have hread := readSwitchCommand_switchText
    (not_mem_decimal (c := '/') (by decide) (by decide) n) b
  rw [if_pos (by omega), decide_eq_true (by omega), Bool.and_true] at hread
  have hflag : (dispatched (switchText (decimal n) b) g).flags.setNewDeviceData = true := by
    rw [dispatched, Flags.postTest_setNewDeviceData, dispatchSection_setDevices (prefix_switchText _ b)]
  rw [command, handleAnswer_dispatched rfl rfl]
  obtain ⟨hgpio, -⟩ := @setDeviceBranch_some parse { io with pinFaults := .none }
    (dispatched (switchText (decimal n) b) g) _ hflag hread
  obtain ⟨hdev, hnvs⟩ := @setDeviceBranch_same parse { io with pinFaults := .none }
    (dispatched (switchText (decimal n) b) g)
  refine ⟨?_, hdev, hnvs⟩
  have hpin : { io with pinFaults := .none }.gpioPinAfter
      (dispatched (switchText (decimal n) b) g).nvs n = p := by
    rw [Io.gpioPinAfter, dispatched, hp]
  rw [hgpio, setPower_eq, SwitchCommand.deviceNumber, atoi_decimal hlo hhi, hpin]
  rfl

/-! ### One operation -/

theorem lastLevel_after_ne {gpio : Gpio} {pin pin' : BitVec 32} {level : ℕ} (h : pin ≠ pin') :
    lastLevel (gpioSetLevel gpio pin'.toInt level) pin.toInt = lastLevel gpio pin.toInt :=
  lastLevel_gpioSetLevel_ne (fun he => h (BitVec.eq_of_toInt_eq he))

/-- A command keeps table and pins as they should be, and in agreement exactly if it repeats the
state in the table. -/
theorem command_agree {io : Io} {i : ℕ} {b : Bool} (hok : TableOk g) (hag : Agree g)
    (h : relayStep parse g (.command io i b) = some s') :
    TableOk s' ∧ (Agree s' ↔ KeepsAgree g (.command io i b)) := by
  obtain ⟨d, hd, rfl⟩ := Option.map_eq_some_iff.mp h
  obtain ⟨hp, hvalid, hlo, hhi⟩ := hok.relayOk i d hd
  have hpin := RelayOk.toInt_eq ⟨hp, hvalid, hlo, hhi⟩
  obtain ⟨hgpio, hdev, hnvs⟩ := @command_spec parse g io d.id b _ hp hlo hhi
  rw [← hpin] at hgpio
  generalize command parse io d.id b g = s' at hgpio hdev hnvs ⊢
  have hrel : ∀ j, relay? s' j = relay? g j := relay?_congr hdev
  refine ⟨⟨fun j e he => ?_, fun j k e f he hf => ?_⟩, ?_⟩
  · rw [hnvs]
    exact hok.relayOk j e (hrel j ▸ he)
  · exact hok.pin_ne j k e f (hrel j ▸ he) (hrel k ▸ hf)
  · simp only [Agree, KeepsAgree, hrel, hgpio]
    constructor
    · intro hs e he
      have hse := hs i e he
      rw [hd] at he
      obtain rfl := Option.some.inj he
      rw [lastLevel_gpioSetLevel_self hvalid, Option.some.injEq, powerLevel_eq_zero] at hse
      exact Bool.eq_iff_iff.mpr hse
    · intro hs j e he
      by_cases hij : j = i
      · subst hij
        have hb := hs e he
        rw [hd] at he
        obtain rfl := Option.some.inj he
        rw [lastLevel_gpioSetLevel_self hvalid, Option.some.injEq, powerLevel_eq_zero, hb]
      · rw [lastLevel_after_ne (hok.pin_ne j i e d he hd hij)]
        exact hag j e he

/-- The toggle keeps the table as it should be, and always breaks the agreement. -/
theorem toggleRelay_agree (hok : TableOk g) (hd : relay? g g.currentDeviceIndex = some d) :
    TableOk (toggleRelay d g) ∧ ¬ Agree (toggleRelay d g) := by
  have hrel := relay?_toggleRelay hd
  have hold : ∀ j e, relay? (toggleRelay d g) j = some e →
      ∃ e', relay? g j = some e' ∧ e'.id = e.id ∧ e'.pin = e.pin := by
    intro j e he
    rw [hrel] at he
    split_ifs at he with hj
    · obtain rfl := Option.some.inj he
      exact ⟨d, hj ▸ hd, rfl, rfl⟩
    · exact ⟨e, he, rfl, rfl⟩
  refine ⟨⟨fun j e he => ?_, fun j k e f he hf hjk => ?_⟩, fun h => ?_⟩
  · obtain ⟨e', he', hid, hpin⟩ := hold j e he
    have := hok.relayOk j e' he'
    rwa [RelayOk, hid, hpin] at this
  · obtain ⟨e', he', -, hpin⟩ := hold j e he
    obtain ⟨f', hf', -, hpin'⟩ := hold k f hf
    rw [← hpin, ← hpin']
    exact hok.pin_ne j k e' f' he' hf' hjk
  · have hown := h g.currentDeviceIndex d.toggled (by rw [hrel, if_pos rfl])
    have hlevel : lastLevel (toggleRelay d g).gpio d.toggled.pin.toInt =
        some (if d.toggled.state then 1 else 0) :=
      lastLevel_gpioSetLevel_self (hok.relayOk _ d hd).2.1
    rw [hlevel] at hown
    cases hs : d.toggled.state <;> simp [hs] at hown

theorem action_agree {i : ℕ} (hok : TableOk g)
    (h : relayStep parse g (.action i) = some s') : TableOk s' ∧ ¬ Agree s' := by
  obtain ⟨d, hd, h⟩ := Option.bind_eq_some_iff.mp h
  rw [deviceAction_relay (g := { g with currentDeviceIndex := i }) hd, Option.some.injEq] at h
  obtain rfl := h
  exact @toggleRelay_agree { g with currentDeviceIndex := i } d ⟨hok.relayOk, hok.pin_ne⟩ hd

/-- What one operation does to table and agreement. -/
theorem relayStep_agree {op : RelayOp} (hok : TableOk g) (hag : Agree g)
    (h : relayStep parse g op = some s') : TableOk s' ∧ (Agree s' ↔ KeepsAgree g op) := by
  cases op with
  | refresh env items =>
      obtain ⟨h1, h2⟩ := refresh_agree h
      exact ⟨h1, iff_of_true h2 trivial⟩
  | command io i b => exact command_agree hok hag h
  | action i =>
      obtain ⟨h1, h2⟩ := action_agree hok h
      exact ⟨h1, iff_of_false h2 id⟩

/-- **State and pin agree after every operation of a run** that starts with a completed refresh
exactly if every command repeats the state in the table and the menu action is never used. -/
theorem agree_iff_keepsAgree {env : Env} {items : List Json} {ops : List RelayOp} {t : Globals}
    (h : relayStep parse g (.refresh env items) = some s')
    (hr : run (relayStep parse) s' ops = some t) :
    AllStates (relayStep parse) Agree s' ops ↔ AllSteps (relayStep parse) KeepsAgree s' ops := by
  obtain ⟨hok, hag⟩ := refresh_agree h
  exact allStates_iff_allSteps (fun _ _ _ => relayStep_agree) hok hag hr

end

/-! ### One relay -/

/-- The operation that refreshes the table to the relay of device 0, which is on. -/
def oneRelay : RelayOp := .refresh zeroedHeap [exampleRelay]

/-- The example device with that table. -/
def oneRelayGlobals : Globals := refresh zeroedHeap [exampleRelay] exampleGlobals

theorem relayStep_oneRelay (parse : CStr → Option Json) :
    relayStep parse exampleGlobals oneRelay = some oneRelayGlobals := by
  have h : RelaysOk exampleGlobals.nvs
      (storedDevices exampleGlobals.nvs zeroedHeap (fun _ => 0#32) [exampleRelay] 0 0) := by
    decide +kernel
  exact if_pos (e := none) h

theorem relayStep_oneRelay_action :
    ∃ t, relayStep (fun _ => none) oneRelayGlobals (.action 0) = some t :=
  Option.isSome_iff_exists.mp (by decide +kernel)

theorem agree_oneRelay :
    AllStates (relayStep (fun _ => none)) Agree oneRelayGlobals [.action 0] ↔
      AllSteps (relayStep (fun _ => none)) KeepsAgree oneRelayGlobals [.action 0] := by
  obtain ⟨t, ht⟩ := relayStep_oneRelay_action
  exact agree_iff_keepsAgree (relayStep_oneRelay _) (run_cons_some.mpr ⟨t, ht, rfl⟩)

/-- The menu action on that relay notes it as off and drives its pin low, which is on. -/
theorem action_disagrees :
    ¬ AllStates (relayStep (fun _ => none)) Agree oneRelayGlobals [.action 0] := by
  obtain ⟨t, ht⟩ := relayStep_oneRelay_action
  obtain ⟨hok, -⟩ := refresh_agree (relayStep_oneRelay (fun _ => none))
  exact fun h => (action_agree hok ht).2 (h.2 t ht)

end Sicae
