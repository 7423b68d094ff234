import Sicae.Tasks

/-! # The remote switch command

A section `set/devices/<n>/status/<b>` passes two parsers: the dispatcher copies its first 79
characters to `urlSection` and looks at the prefix only; the SETNEWDEVICEDATA branch searches
for `/status/`, converts what stands before it with `atoi` and takes every word but `true` for
off.  So the command is cut when it is too long, and texts outside the grammar are acted on
(`SwitchOk` is the condition under which neither happens).

After a failed lookup of the pin the branch goes on: it drives whatever pin the uninitialised
byte names, and sends the PATCH. -/

namespace Sicae

open CString

/-! ### The grammar -/

/-- The status word of a command. -/
def statusWord (b : Bool) : CStr := if b then "true".toList else "false".toList

/-- The text of a switch command with the number text `ds`. -/
def switchText (ds : CStr) (b : Bool) : CStr :=
  "set/devices/".toList ++ (ds ++ ("/status/".toList ++ statusWord b))

/-- `s` is the command to switch device `n` on or off: a non-empty decimal number that fits an
`int`, and exactly one of the two words. -/
def IsSwitchCommand (s : CStr) (n : ℕ) (b : Bool) : Prop :=
  ∃ ds, ds ≠ [] ∧ (∀ c ∈ ds, c.isDigit = true) ∧ Nat.ofDigitChars 10 ds 0 = n ∧ n < 2 ^ 31 ∧
    s = switchText ds b

/-- The pin stored for device `n` is `p`. -/
def PinStored (nvs : Nvs) (n : ℤ) (p : BitVec 8) : Prop :=
  nvs.lookup ("device-".toList ++ decimal n) = some (.u8 p)

theorem PinStored.read {nvs : Nvs} {n : ℤ} {p : BitVec 8} (h : PinStored nvs n p) :
    readDevicePinFromNvs nvs .none n = .ok p := by
  rw [readDevicePinFromNvs_ok_iff, deviceKey_of_stored h]
  exact h

theorem length_statusWord (b : Bool) : (statusWord b).length = if b then 4 else 5 := by
  cases b <;> rfl

theorem length_devicesPrefix : ("set/devices/".toList).length = 12 := by decide

theorem length_separator : ("/status/".toList).length = 8 := by decide

theorem length_switchText (ds : CStr) (b : Bool) :
    (switchText ds b).length = ds.length + (if b then 24 else 25) := by
  unfold switchText
  simp only [List.length_append, length_devicesPrefix, length_separator, length_statusWord]
  split_ifs <;> omega

theorem prefix_switchText (ds : CStr) (b : Bool) : "set/devices/".toList <+: switchText ds b :=
  List.prefix_append _ _

/-! ### The two parsers on one text -/

theorem slash_not_mem_of_digits {ds : CStr} (h : ∀ c ∈ ds, c.isDigit = true) : '/' ∉ ds :=
  fun hm => absurd (h _ hm) (by decide)

/-- The branch accepts exactly the texts with the prefix and the separator. -/
theorem readSwitchCommand_isSome_iff {t : CStr} :
    (readSwitchCommand t).isSome ↔
      "set/devices/".toList <+: t ∧ "/status/".toList <:+: t.drop 12 := by
  unfold readSwitchCommand
  split_ifs with h
  · rw [Option.isSome_map, and_iff_right h, ← not_iff_not, ← strstr_eq_none,
      Bool.not_eq_true, Option.isSome_eq_false_iff, Option.isNone_iff_eq_none]
  · exact iff_of_false Bool.false_ne_true (fun hn => h hn.1)

/-- Only the whole word `true` reads as on. -/
theorem take_statusWord_eq_true {b : Bool} {k : ℕ} :
    ((statusWord b).take k == "true".toList) = (b && decide (4 ≤ k)) := by
  have hlen : ("true".toList).length = 4 := rfl
  cases b with
  | true =>
      rw [Bool.true_and, Bool.eq_iff_iff, beq_iff_eq, decide_eq_true_iff]
      exact List.take_eq_self_iff _
  | false =>
      rw [Bool.false_and, beq_eq_false_iff_ne]
      cases k with
      | zero => decide
      | succ k => exact fun h => absurd (List.cons.inj h).1 (by decide)

/-- A command as it comes out of the 80-byte mailbox: the number, and the word as far as it is
there; nothing at all when the cut takes away part of the separator. -/
theorem readSwitchCommand_switchText {ds : CStr} (hds : '/' ∉ ds) (b : Bool) :
    readSwitchCommand (snprintf 80 (switchText ds b)) =
      if ds.length ≤ 59 then some ⟨ds, b && decide (ds.length ≤ 55)⟩ else none := by
  have hcut : snprintf 80 (switchText ds b) =
      "set/devices/".toList ++ (ds ++ ("/status/".toList ++ statusWord b)).take 67 := by
    unfold snprintf switchText
    have hp : ("set/devices/".toList).take 79 = "set/devices/".toList := by decide
    rw [List.take_append, hp, length_devicesPrefix]
  have hfind : strstr "/status/".toList ((ds ++ ("/status/".toList ++ statusWord b)).take 67) =
      if ds.length + ("/status/".toList).length ≤ 67 then
        some (ds, "/status/".toList ++
          (statusWord b).take (67 - ds.length - ("/status/".toList).length))
      else none :=
    strstr_take_append hds 67
  rw [readSwitchCommand, hcut, if_pos ⟨_, rfl⟩, ← length_devicesPrefix, List.drop_left, hfind,
    length_separator]
  by_cases hlen : ds.length ≤ 59
  · have hword : decide (ds.length ≤ 55) = decide (4 ≤ 67 - ds.length - 8) := by
      rw [decide_eq_decide]
      omega
    rw [if_pos hlen, if_pos (by omega), Option.map_some, ← length_separator, List.drop_left,
      length_separator, take_statusWord_eq_true, hword]
  · rw [if_neg hlen, if_neg (by omega), Option.map_none]

theorem dispatchSection_setDevices {s : CStr} {f : Flags} (h : "set/devices/".toList <+: s) :
    dispatchSection s f = { f with setNewDeviceData := true } := by
  obtain ⟨r, rfl⟩ := h
  have h1 : "set/".toList <+: "set/devices/".toList ++ r := ⟨"devices/".toList ++ r, rfl⟩
  have h2 : "devices/".toList <+: ("set/devices/".toList ++ r).drop 4 := ⟨r, rfl⟩
  rw [dispatchSection, if_pos h1, if_pos h2]

theorem Flags.postTest_setNewDeviceData (f : Flags) :
    f.postTest.setNewDeviceData = f.setNewDeviceData := by rw [f.postTest_eq]

/-! ### The branch -/

section
variable {parse : CStr → Option Json} {io : Io} {g : Globals}

/-- An accepted command drives a pin and sends a PATCH. -/
theorem setDeviceBranch_some {c : SwitchCommand} (hf : g.flags.setNewDeviceData = true)
    (hc : readSwitchCommand g.urlSection = some c) :
    (setDeviceBranch parse io g).gpio =
        setPower g.gpio c.desiredStatus (io.gpioPinAfter g.nvs c.deviceNumber) ∧
      (setDeviceBranch parse io g).sent =
        .updateDeviceStatus c.deviceNumber c.desiredStatus :: g.sent := by
  have h := @perform_passive parse io.env (.updateDeviceStatus c.deviceNumber c.desiredStatus)
    (io.reply (.updateDeviceStatus c.deviceNumber c.desiredStatus))
    (switchStart io c (setDeviceStart g)) rfl (by simp)
  rw [setDeviceBranch, if_pos hf, hc]
  exact ⟨h.gpio, h.sent⟩

/-- A text that is not accepted does neither. -/
theorem setDeviceBranch_none (hc : readSwitchCommand g.urlSection = none) :
    (setDeviceBranch parse io g).gpio = g.gpio ∧ (setDeviceBranch parse io g).sent = g.sent := by
  rw [setDeviceBranch, hc]
  split_ifs <;> exact ⟨rfl, rfl⟩

/-- The branch never changes the table or the NVS content. -/
theorem setDeviceBranch_same :
    (setDeviceBranch parse io g).devices = g.devices ∧
      (setDeviceBranch parse io g).nvs = g.nvs := by
  unfold setDeviceBranch
  split_ifs
  · split
    · rename_i c _
      have h := @perform_passive parse io.env (.updateDeviceStatus c.deviceNumber c.desiredStatus)
        (io.reply (.updateDeviceStatus c.deviceNumber c.desiredStatus))
        (switchStart io c (setDeviceStart g)) rfl (by simp)
      exact ⟨h.devices, h.nvs⟩
    · exact ⟨rfl, rfl⟩
  · exact ⟨rfl, rfl⟩

/-- The text that the branch finds in the mailbox after the dispatch of `s` decides everything. -/
theorem setDeviceBranch_delivered {env : Env} {clientUrl : Option CStr} {s : CStr}
    (h : Delivers parse clientUrl g s) :
    (∀ c, readSwitchCommand (snprintf 80 s) = some c →
      (setDeviceBranch parse io (onFinish parse env clientUrl g)).gpio =
          setPower g.gpio c.desiredStatus (io.gpioPinAfter g.nvs c.deviceNumber) ∧
        (setDeviceBranch parse io (onFinish parse env clientUrl g)).sent =
          .updateDeviceStatus c.deviceNumber c.desiredStatus :: g.sent) ∧
    (readSwitchCommand (snprintf 80 s) = none →
      (setDeviceBranch parse io (onFinish parse env clientUrl g)).gpio = g.gpio ∧
        (setDeviceBranch parse io (onFinish parse env clientUrl g)).sent = g.sent) := by
  have hd := @Delivers.dispatched parse env clientUrl g s h
  generalize onFinish parse env clientUrl g = g' at hd ⊢
  rw [← hd.urlSection, ← hd.gpio, ← hd.sent, ← hd.nvs]
  refine ⟨fun c hc => setDeviceBranch_some ?_ hc, setDeviceBranch_none⟩
  have hpre : "set/devices/".toList <+: snprintf 80 s :=
    (readSwitchCommand_isSome_iff.mp (by rw [← hd.urlSection, hc]; rfl)).1
  rw [hd.flags, dispatchSection_setDevices (hpre.trans (List.take_prefix _ _)),
    Flags.postTest_setNewDeviceData]

/-! ### The command against its grammar -/

/-- What should come of section `s` between the states `g` and `g'`: a command for a stored pin
drives that pin alone and is reported, a text that is no command does nothing. -/
def SwitchExact (s : CStr) (g g' : Globals) : Prop :=
  (∀ (n : ℕ) b p, IsSwitchCommand s n b → PinStored g.nvs n p →
    g'.gpio = ((p.toNat : ℤ), powerLevel b) :: g.gpio ∧ g'.sent = .updateDeviceStatus n b :: g.sent) ∧
  ((∀ n b, ¬ IsSwitchCommand s n b) → g'.gpio = g.gpio ∧ g'.sent = g.sent)

/-- The condition on section and NVS content: a command for a stored pin names an output pin and
is short enough for the mailbox, where the last letters of `false` may be missing; a text that is
no command lacks the prefix, or the separator in the part that is kept. -/
def SwitchOk (s : CStr) (nvs : Nvs) : Prop :=
  (∀ (n : ℕ) b p, IsSwitchCommand s n b → PinStored nvs n p →
    gpioIsValidOutputGpio p.toNat = true ∧ s.length ≤ if b then 79 else 84) ∧
  ((∀ n b, ¬ IsSwitchCommand s n b) →
    ¬ ("set/devices/".toList <+: s ∧ "/status/".toList <:+: (s.take 79).drop 12))

/-- Driving a pin adds exactly the wanted level when the pin is an output and the level right. -/
theorem setPower_eq_cons_iff {gpio : Gpio} {b b' : Bool} {p : BitVec 8} :
    setPower gpio b' p = ((p.toNat : ℤ), powerLevel b) :: gpio ↔
      gpioIsValidOutputGpio p.toNat = true ∧ b' = b := by
  have hb : powerLevel b' = powerLevel b ↔ b' = b := by cases b <;> cases b' <;> simp [powerLevel]
  rw [setPower_eq, gpioSetLevel]
  split_ifs with h
  · simp [h, hb]
  · simp [h]

/-- A command for a stored pin is carried out exactly when the pin is an output and the text
short enough. -/
theorem switchText_carried_iff {ds : CStr} {b : Bool} {p : BitVec 8} {g g' : Globals}
    (hds : ∀ c ∈ ds, c.isDigit = true) (hlt : Nat.ofDigitChars 10 ds 0 < 2 ^ 31)
    (hp : PinStored g.nvs (Nat.ofDigitChars 10 ds 0 : ℕ) p)
    (hsome : ∀ c, readSwitchCommand (snprintf 80 (switchText ds b)) = some c →
      g'.gpio = setPower g.gpio c.desiredStatus
          ({ io with pinFaults := .none }.gpioPinAfter g.nvs c.deviceNumber) ∧
        g'.sent = .updateDeviceStatus c.deviceNumber c.desiredStatus :: g.sent)
    (hnone : readSwitchCommand (snprintf 80 (switchText ds b)) = none →
      g'.gpio = g.gpio ∧ g'.sent = g.sent) :
    (g'.gpio = ((p.toNat : ℤ), powerLevel b) :: g.gpio ∧
        g'.sent = .updateDeviceStatus (Nat.ofDigitChars 10 ds 0 : ℕ) b :: g.sent) ↔
      gpioIsValidOutputGpio p.toNat = true ∧ (switchText ds b).length ≤ if b then 79 else 84 := by
  have hread := readSwitchCommand_switchText (slash_not_mem_of_digits hds) b
  have hlen := length_switchText ds b
  by_cases h59 : ds.length ≤ 59
  · rw [if_pos h59] at hread
    obtain ⟨hgpio, hsent⟩ := hsome _ hread
    have hpin : { io with pinFaults := .none }.gpioPinAfter g.nvs
        (Nat.ofDigitChars 10 ds 0 : ℕ) = p := by rw [Io.gpioPinAfter, hp.read]
    have hb : (b && decide (ds.length ≤ 55)) = b ↔
        (switchText ds b).length ≤ if b then 79 else 84 := by
      rw [hlen]
      cases b with
      | false => simp; omega
      | true => simp
    simp only [SwitchCommand.deviceNumber, atoi_digits hds hlt, hpin] at hgpio hsent
    rw [hgpio, hsent, setPower_eq_cons_iff, ← hb]
    simp only [List.cons.injEq, Request.updateDeviceStatus.injEq, true_and, and_true]
    tauto
  · rw [if_neg h59] at hread
    obtain ⟨-, hsent⟩ := hnone hread
    have hlong : ¬ (switchText ds b).length ≤ if b then 79 else 84 := by
      rw [hlen]
      split_ifs <;> omega
    simp [hsent, hlong]

/-- **A delivered section is treated by its grammar** exactly when it is short enough and its pin
an output, or, being no command, falls through the tests of the branch. -/
theorem switchExact_iff {env : Env} {clientUrl : Option CStr} {s : CStr}
    (h : Delivers parse clientUrl g s) :
    SwitchExact s g (setDeviceBranch parse { io with pinFaults := .none }
        (onFinish parse env clientUrl g)) ↔
      SwitchOk s g.nvs := by
  obtain ⟨hsome, hnone⟩ :=
    @setDeviceBranch_delivered parse { io with pinFaults := .none } g env clientUrl s h
  generalize setDeviceBranch parse { io with pinFaults := .none }
    (onFinish parse env clientUrl g) = g' at hsome hnone ⊢
  refine and_congr ?_ ?_
  · refine forall₃_congr fun n b p => forall₂_congr fun hs hp => ?_
    obtain ⟨ds, -, hds, rfl, hlt, rfl⟩ := hs
    exact switchText_carried_iff hds hlt hp hsome hnone
  · refine forall_congr' fun _ => ?_
    have hacc : (readSwitchCommand (snprintf 80 s)).isSome ↔
        "set/devices/".toList <+: s ∧ "/status/".toList <:+: (s.take 79).drop 12 := by
      rw [readSwitchCommand_isSome_iff, snprintf, List.prefix_take_iff, length_devicesPrefix]
      simp
    rw [← hacc]
    cases hc : readSwitchCommand (snprintf 80 s) with
    | none => simp [hnone hc]
    | some c => simp [(hsome c hc).2]

end

/-! ### A number that is none -/

/-- The section `set/devices/abc/status/true`. -/
def letterCommand : CStr := "set/devices/abc/status/true".toList

/-- A command of the grammar for device 0. -/
def plainCommand : CStr := switchText "0".toList true

theorem switchExact_plainCommand :
    SwitchExact plainCommand (newDataAnswered plainCommand)
      (setDeviceBranch (parseNewData plainCommand) { exampleIo with pinFaults := .none }
        (onFinish (parseNewData plainCommand) zeroedHeap (some (Request.getNewData.url exampleId))
          (newDataAnswered plainCommand))) ↔
      SwitchOk plainCommand exampleNvs :=
  switchExact_iff (newDataAnswered_delivers plainCommand (by decide))

theorem not_isSwitchCommand_letterCommand (n : ℕ) (b : Bool) :
    ¬ IsSwitchCommand letterCommand n b := by
  rintro ⟨ds, -, hds, -, -, he⟩
  have hread := readSwitchCommand_switchText (slash_not_mem_of_digits hds) b
  rw [← he, show readSwitchCommand (snprintf 80 letterCommand) = some ⟨"abc".toList, true⟩ by
    decide +kernel] at hread
  split_ifs at hread with h
  have hd : "abc".toList = ds := congrArg SwitchCommand.numberText (Option.some.inj hread)
  exact absurd (hds 'a' (hd ▸ by decide)) (by decide)

/-- The text drives the pin of device 0 and reports device 0 as switched on. -/
theorem letterCommand_switches_zero :
    ¬ SwitchExact letterCommand (newDataAnswered letterCommand)
      (setDeviceBranch (parseNewData letterCommand) exampleIo
        (onFinish (parseNewData letterCommand) zeroedHeap
          (some (Request.getNewData.url exampleId)) (newDataAnswered letterCommand))) := by
  intro h
  have hd := newDataAnswered_delivers letterCommand (by decide)
  have hs := (@setDeviceBranch_delivered _ exampleIo _ zeroedHeap _ _ hd).1
    ⟨"abc".toList, true⟩ (by decide +kernel)
  have hsent := (h.2 not_isSwitchCommand_letterCommand).2
  rw [hs.2] at hsent
  exact absurd hsent (List.cons_ne_self _ _)

/-! ### A pin that is not stored -/

/-- No level is driven and no request is sent. -/
def NoEffect (g g' : Globals) : Prop := g'.gpio = g.gpio ∧ g'.sent = g.sent

section
variable {parse : CStr → Option Json} {io : Io} {g : Globals}

/-- **A command whose pin cannot be looked up always has an effect**: the PATCH is sent, and the
pin named by the leftover stack byte is driven whenever it is an output. -/
theorem failedLookup_has_effect {c : SwitchCommand} {e : EspErr}
    (hf : g.flags.setNewDeviceData = true) (hc : readSwitchCommand g.urlSection = some c)
    (he : readDevicePinFromNvs g.nvs io.pinFaults c.deviceNumber = .error e) :
    ¬ NoEffect g (setDeviceBranch parse io g) ∧
      ((setDeviceBranch parse io g).gpio = g.gpio ↔
        gpioIsValidOutputGpio io.gpioPin.toNat = false) := by
  obtain ⟨hgpio, hsent⟩ := @setDeviceBranch_some parse io g c hf hc
  have hpin : io.gpioPinAfter g.nvs c.deviceNumber = io.gpioPin := by rw [Io.gpioPinAfter, he]
  refine ⟨fun h => ?_, ?_⟩
  · rw [NoEffect, hsent] at h
    exact absurd h.2 (List.cons_ne_self _ _)
  · rw [hgpio, hpin, setPower_eq, gpioSetLevel]
    split_ifs with hv <;> simp [hv]

end

/-- The command to switch on device 5, which has no stored pin, waits in the mailbox. -/
def unmappedPending : Globals :=
  { exampleGlobals with
    urlSection := "set/devices/5/status/true".toList
    flags := { exampleGlobals.flags with setNewDeviceData := true } }

theorem unmappedPending_read :
    readSwitchCommand unmappedPending.urlSection = some ⟨"5".toList, true⟩ := by
  decide +kernel

theorem unmappedPending_lookup :
    readDevicePinFromNvs unmappedPending.nvs .none 5 = .error .nvsNotFound := by
  decide +kernel

theorem failedLookup_has_effect_unmapped :
    ¬ NoEffect unmappedPending (setDeviceBranch (fun _ => none) exampleIo unmappedPending) ∧
      ((setDeviceBranch (fun _ => none) exampleIo unmappedPending).gpio = unmappedPending.gpio ↔
        gpioIsValidOutputGpio exampleIo.gpioPin.toNat = false) :=
  failedLookup_has_effect rfl unmappedPending_read unmappedPending_lookup

/-- With GPIO 22 in the stack byte the command drives that pin, and reports device 5. -/
theorem unmapped_drives_leftover :
    (setDeviceBranch (fun _ => none) exampleIo unmappedPending).gpio = [(22, 0)] ∧
    ¬ NoEffect unmappedPending (setDeviceBranch (fun _ => none) exampleIo unmappedPending) := by
  obtain ⟨hgpio, hsent⟩ :=
    @setDeviceBranch_some (fun _ => none) exampleIo unmappedPending _ rfl unmappedPending_read
  refine ⟨hgpio.trans (by decide +kernel), fun h => ?_⟩
  rw [NoEffect, hsent] at h
  exact absurd h.2 (List.cons_ne_self _ _)

end Sicae
