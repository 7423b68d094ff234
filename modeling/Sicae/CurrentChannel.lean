import Sicae.DeviceIndices
import Sicae.Interleaving
import Sicae.MenuSelection

/-! # The channel of the current measurements

A completed measurement of `read_acs712_task` is handed to `data_processing_task` by one flag,
SETCONSUMEDCURRENT, and one index, `currentDeviceIndex`; the value lies in `device_currents`.  The
processing task may be busy with another branch, or blocked in HTTP, while the measuring task goes
on to the next relay.

The value sent is always the latest one measured for the device named.  But a measurement that
completes while that of another device waits takes its place: the other one is sent no more, unless
the device is measured again (`measurements_kept_iff`). -/

namespace Sicae

open CString Transition

/-! ### The interleavings -/

/-- The globals, the positions of both tasks, and for each device the value measured last and
whether it is still to be sent. -/
structure ChannelState where
  globals : Globals
  pc : Pc := .info
  i : ℕ := 0
  latest : ℕ → Option ℚ := fun _ => none
  unsent : ℕ → Bool := fun _ => false

/-- An iteration of the measuring loop, a step of the processing task, and what other tasks do to
globals that are no part of the channel. -/
inductive ChannelAct where
  | acs (level : ℤ) (current : ℚ)
  | process (io : Io)
  | others (g : Globals)

/-- Other tasks have changed the globals to `g`, but for the device table and the channel. -/
def outsideChannel (g g' : Globals) : Globals :=
  { g' with
    devices := g.devices
    deviceCount := g.deviceCount
    currentDeviceIndex := g.currentDeviceIndex
    deviceCurrents := g.deviceCurrents
    flags := { g'.flags with setConsumedCurrent := g.flags.setConsumedCurrent }
    tasks := { g'.tasks with acsReadSuspended := g.tasks.acsReadSuspended } }

/-- The processing task takes the measurement that waits. -/
def Takes (s : ChannelState) : Prop :=
  s.pc = .current ∧ s.globals.flags.setConsumedCurrent = true

instance (s : ChannelState) : Decidable (Takes s) := inferInstanceAs (Decidable (_ ∧ _))

/-- One step; the device table is fixed, so no refresh is entered. -/
def channelStep (s : ChannelState) : ChannelAct → Option ChannelState
  | .acs level current =>
      if s.globals.tasks.acsReadSuspended then none
      else (acsIteration level current s.i s.globals).map fun r =>
        if Measures level s.i s.globals then
          { s with
            i := r.1
            globals := r.2
            latest := Function.update s.latest s.i (some current)
            unsent := Function.update s.unsent s.i true }
        else { s with i := r.1, globals := r.2 }
  | .process io =>
      if s.pc = .devices ∧ s.globals.flags.fetchNewDevicesData = true then none
      else some { s with
        globals := (processStep io s.pc s.globals).2
        pc := (processStep io s.pc s.globals).1
        unsent :=
          if Takes s then Function.update s.unsent s.globals.currentDeviceIndex false else s.unsent }
  | .others g => some { s with globals := outsideChannel s.globals g }

/-- No measurement was made. -/
def ChannelState.initial (g : Globals) : ChannelState where
  globals := { g with flags := { g.flags with setConsumedCurrent := false } }

/-! ### What is sent -/

/-- An upload sends the latest value measured for the device it names. -/
def SendsLatest (s : ChannelState) : ChannelAct → Prop
  | .process _ => Takes s → ∃ (i : ℕ) (v : ℚ),
      currentRequest s.globals = .updateDeviceCurrent i v ∧ s.latest i = some v
  | _ => True

/-- The measurement of a device waits to be sent. -/
def Waits (s : ChannelState) (i : ℕ) : Prop :=
  s.globals.flags.setConsumedCurrent = true ∧ s.globals.currentDeviceIndex = i

/-- Every measurement was sent or superseded by a later one of its device, or it still waits. -/
def MeasurementsKept (s : ChannelState) : Prop := ∀ i, s.unsent i = true → Waits s i

/-- A measurement of a device completes. -/
def Completes (s : ChannelState) (a : ChannelAct) (i : ℕ) : Prop :=
  match a with
  | .acs level _ => s.i = i ∧ Measures level s.i s.globals
  | _ => False

/-- A measurement of another device completes while that of a device waits. -/
def Overwrites (s : ChannelState) (a : ChannelAct) (i : ℕ) : Prop :=
  Waits s i ∧ ∃ j ≠ i, Completes s a j

/-! ### One step -/

/-- What waits is a measurement that was not sent, and the array holds the values measured last. -/
structure ChannelInv (s : ChannelState) : Prop where
  unsent : s.globals.flags.setConsumedCurrent = true →
    s.unsent s.globals.currentDeviceIndex = true
  latest : ∀ i, s.unsent i = true → s.latest i = some (s.globals.deviceCurrents i)

/-- A measurement that was not sent does not wait any more. -/
def Lost (s : ChannelState) (i : ℕ) : Prop := s.unsent i = true ∧ ¬ Waits s i

theorem channelInv_initial (g : Globals) : ChannelInv (.initial g) :=
  ⟨fun h => absurd h (by simp [ChannelState.initial]),
    fun i h => absurd h (by simp [ChannelState.initial])⟩

theorem ChannelInv.sendsLatest {s : ChannelState} (hs : ChannelInv s) (a : ChannelAct) :
    SendsLatest s a := by
  cases a with
  | process io =>
      intro ht
      exact ⟨_, _, rfl, hs.latest _ (hs.unsent ht.2)⟩
  | acs level current => trivial
  | others g => trivial

/-- The processing task clears the flag where it takes a measurement, and never sets it. -/
theorem processStep_setConsumedCurrent (io : Io) (pc : Pc) (g : Globals) :
    (processStep io pc g).2.flags.setConsumedCurrent =
      (g.flags.setConsumedCurrent && decide (pc ≠ .current)) := by
  obtain ⟨b, hflags⟩ := processStep_flags io pc g
  rw [hflags]
  show (flagsAfter io pc g).setConsumedCurrent = _
  cases pc with
  | current => simp [flagsAfter]
  | cleared =>
      rw [flagsAfter]
      split_ifs <;> simp [clearFlags]
  | info | inInfo | devices | inDevices | inCurrent | set | inSet | post | clearing =>
      simp [flagsAfter]

/-- It writes no other part of the channel. -/
theorem processStep_channel (io : Io) (pc : Pc) (g : Globals) :
    (processStep io pc g).2.currentDeviceIndex = g.currentDeviceIndex ∧
      (processStep io pc g).2.deviceCurrents = g.deviceCurrents := by
  cases pc with
  | info | current | post =>
      rw [processStep]
      split_ifs <;> exact ⟨rfl, rfl⟩
  | devices =>
      rw [processStep]
      split_ifs
      · rw [fetchDevicesStart_eq]
        exact ⟨rfl, rfl⟩
      · exact ⟨rfl, rfl⟩
  | set =>
      rw [processStep, setStep]
      split_ifs
      · split <;> exact ⟨rfl, rfl⟩
      · exact ⟨rfl, rfl⟩
  | cleared =>
      obtain ⟨b, menu, lcd, h⟩ := postEnd_eq io.menuAllocated
        (if (io.reply .clearNewData).status = some 200 then clearFlags g else g)
      rw [processStep, h]
      split_ifs <;> exact ⟨rfl, rfl⟩
  | inInfo | inDevices | inCurrent | inSet | clearing => exact ⟨rfl, rfl⟩

/-- A completed measurement waits in the place of what waited before. -/
theorem channelStep_completes {s s' : ChannelState} {level : ℤ} {current : ℚ}
    (hs : ChannelInv s) (hm : Measures level s.i s.globals)
    (h : channelStep s (.acs level current) = some s') :
    ChannelInv s' ∧ ∀ i, Lost s' i ↔ i ≠ s.i ∧ s.unsent i = true := by
  simp only [channelStep] at h
  split_ifs at h
  obtain ⟨r, hiter, rfl⟩ := Option.map_eq_some_iff.mp h
  obtain ⟨-, heq⟩ := (@acsIteration_cases level current s.i r.1 s.globals r.2 hiter).resolve_right
    fun hno => hno.1 hm
  rw [heq]
  refine ⟨⟨fun _ => by simp [measured], fun i hi => ?_⟩, fun i => ?_⟩
  · by_cases hsi : i = s.i
    · subst hsi
      simp [measured]
    · have hold : s.unsent i = true := by simpa [hsi] using hi
      simpa [measured, hsi] using hs.latest i hold
  · by_cases hsi : i = s.i
    · simp [Lost, Waits, measured, hsi]
    · simp [Lost, Waits, measured, hsi, Ne.symm hsi]

/-- An iteration that measures nothing goes on to the next index. -/
theorem channelStep_skips {s s' : ChannelState} {level : ℤ} {current : ℚ}
    (hm : ¬ Measures level s.i s.globals) (h : channelStep s (.acs level current) = some s') :
    ∃ i, s' = { s with i := i } := by
  simp only [channelStep] at h
  split_ifs at h
  obtain ⟨r, hiter, rfl⟩ := Option.map_eq_some_iff.mp h
  obtain ⟨-, heq⟩ := (@acsIteration_cases level current s.i r.1 s.globals r.2 hiter).resolve_left
    fun hyes => hm hyes.1
  exact ⟨r.1, by rw [heq]⟩

/-- The processing task takes what waits or leaves it waiting. -/
theorem channelStep_process {s s' : ChannelState} {io : Io} (hs : ChannelInv s)
    (h : channelStep s (.process io) = some s') :
    ChannelInv s' ∧ ∀ i, Lost s' i ↔ Lost s i := by
  obtain ⟨hindex, hcurrents⟩ := processStep_channel io s.pc s.globals
  have hflag := processStep_setConsumedCurrent io s.pc s.globals
  simp only [channelStep] at h
  split_ifs at h with hrefresh ht
  · obtain rfl := Option.some.inj h
    have hcleared : (processStep io s.pc s.globals).2.flags.setConsumedCurrent = false := by
      rw [hflag, ht.1]
      simp
    -- the device taken was waiting, so it was not lost before and has nothing unsent after
    refine ⟨⟨fun hset => absurd hset (by simp [hcleared]), fun i hi => ?_⟩, fun i => ?_⟩
    · by_cases hi' : i = s.globals.currentDeviceIndex
      · simp [hi'] at hi
      · have hold : s.unsent i = true := by simpa [hi'] using hi
        simpa [hcurrents] using hs.latest i hold
    · by_cases hi' : i = s.globals.currentDeviceIndex
      · simp [Lost, Waits, hi', ht.2]
      · simp [Lost, Waits, hi', Ne.symm hi', hcleared]
  · obtain rfl := Option.some.inj h
    have hsame : (processStep io s.pc s.globals).2.flags.setConsumedCurrent =
        s.globals.flags.setConsumedCurrent := by
      rw [hflag]
      by_cases hpc : s.pc = .current
      · have hclear : s.globals.flags.setConsumedCurrent = false := by
          simpa [Takes, hpc] using ht
        rw [hclear, Bool.false_and]
      · simp [hpc]
    refine ⟨⟨?_, fun i hi => ?_⟩, fun i => ?_⟩
    · simpa [hsame, hindex] using hs.unsent
    · simpa [hcurrents] using hs.latest i hi
    · simp [Lost, Waits, hsame, hindex]

theorem completes_iff {s : ChannelState} {level : ℤ} {current : ℚ}
    (hm : Measures level s.i s.globals) (i : ℕ) : Completes s (.acs level current) i ↔ s.i = i :=
  and_iff_left hm

theorem overwrites_iff {s : ChannelState} {level : ℤ} {current : ℚ}
    (hm : Measures level s.i s.globals) (i : ℕ) :
    Overwrites s (.acs level current) i ↔ Waits s i ∧ s.i ≠ i := by
  refine and_congr_right fun _ => ⟨?_, fun hne => ⟨s.i, hne, rfl, hm⟩⟩
  rintro ⟨j, hne, rfl, -⟩
  exact hne

/-- What is not sent is lost, or it waits. -/
theorem ChannelInv.unsent_iff {s : ChannelState} (hs : ChannelInv s) (i : ℕ) :
    s.unsent i = true ↔ Lost s i ∨ Waits s i := by
  constructor
  · intro hi
    by_cases hw : Waits s i
    · exact .inr hw
    · exact .inl ⟨hi, hw⟩
  · rintro (hl | ⟨hflag, rfl⟩)
    · exact hl.1
    · exact hs.unsent hflag

/-- A measurement of a device makes good what it lost before, and one that is overwritten is
lost. -/
theorem ChannelInv.step {s s' : ChannelState} {a : ChannelAct} (hs : ChannelInv s)
    (h : channelStep s a = some s') :
    ChannelInv s' ∧ ∀ i, Lost s' i ↔ Lost s i ∧ ¬ Completes s a i ∨ Overwrites s a i := by
  cases a with
  | acs level current =>
      by_cases hm : Measures level s.i s.globals
      · obtain ⟨hs', hlost⟩ := channelStep_completes hs hm h
        refine ⟨hs', fun i => ?_⟩
        rw [hlost, completes_iff hm, overwrites_iff hm, hs.unsent_iff, ne_comm, ← or_and_right,
          and_comm]
      · obtain ⟨i', rfl⟩ := channelStep_skips hm h
        exact ⟨⟨hs.unsent, hs.latest⟩, fun i => by simp [Lost, Waits, Completes, Overwrites, hm]⟩
  | process io =>
      obtain ⟨hs', hlost⟩ := channelStep_process hs h
      refine ⟨hs', fun i => ?_⟩
      rw [hlost]
      simp [Completes, Overwrites]
  | others g =>
      obtain rfl := Option.some.inj h
      exact ⟨⟨hs.unsent, hs.latest⟩,
        fun i => by simp [Lost, Waits, Completes, Overwrites, outsideChannel]⟩

/-! ### Whole runs -/

/-- No upload sends an old value. -/
theorem allSteps_sendsLatest {as : List ChannelAct} {s : ChannelState} (hs : ChannelInv s) :
    AllSteps channelStep SendsLatest s as := by
  induction as generalizing s with
  | nil => trivial
  | cons a as ih => exact ⟨hs.sendsLatest a, fun s' h => ih (hs.step h).1⟩

/-- **Every upload sends the latest value of the device it names, and no measurement is lost, exactly
if each one that is overwritten by that of another device is followed by a new one of its device.** -/
theorem measurements_kept_iff {g : Globals} {as : List ChannelAct} {t : ChannelState}
    (hr : run channelStep (.initial g) as = some t) :
    (AllSteps channelStep SendsLatest (.initial g) as ∧ MeasurementsKept t) ↔
      AllPaid channelStep Overwrites Completes (.initial g) as := by
  have hsent : AllSteps channelStep SendsLatest (.initial g) as :=
    allSteps_sendsLatest (channelInv_initial g)
  have hkept : MeasurementsKept t ↔ ∀ i, ¬ Lost t i := by
    simp [MeasurementsKept, Lost]
  have hnone : ∀ i, ¬ Lost (.initial g) i := by simp [Lost, ChannelState.initial]
  rw [and_iff_right hsent, hkept,
    no_debt_iff (I := ChannelInv) (fun s a s' hs h => hs.step h) (channelInv_initial g) hr]
  exact and_iff_right fun i hi => absurd hi (hnone i)

/-- Two relays are measured, one after the other, before the processing task comes to its test. -/
def twoMeasurements : List ChannelAct := [.acs 0 1, .acs 0 2, .process exampleIo,
  .process exampleIo, .process exampleIo]

theorem run_twoMeasurements :
    (run channelStep (.initial (withTable twoRelays 0 exampleGlobals)) twoMeasurements).map
        (fun t => (t.unsent 0, t.globals.flags.setConsumedCurrent)) = some (true, false) := by
  decide +kernel

theorem measurementsKept_twoMeasurements :
    ∃ t, run channelStep (.initial (withTable twoRelays 0 exampleGlobals)) twoMeasurements = some t ∧
      ((AllSteps channelStep SendsLatest (.initial (withTable twoRelays 0 exampleGlobals))
          twoMeasurements ∧ MeasurementsKept t) ↔
        AllPaid channelStep Overwrites Completes (.initial (withTable twoRelays 0 exampleGlobals))
          twoMeasurements) := by
  obtain ⟨t, ht, -⟩ := Option.map_eq_some_iff.mp run_twoMeasurements
  exact ⟨t, ht, measurements_kept_iff ht⟩

/-- The measurement of the first relay is not sent any more. -/
theorem twoMeasurements_loses :
    ¬ ∀ t, run channelStep (.initial (withTable twoRelays 0 exampleGlobals)) twoMeasurements =
      some t → MeasurementsKept t := by
  intro h
  obtain ⟨t, ht, hend⟩ := Option.map_eq_some_iff.mp run_twoMeasurements
  obtain ⟨hunsent, hflag⟩ := Prod.mk.inj hend
  have hwaits := h t ht 0 hunsent
  rw [Waits, hflag] at hwaits
  exact absurd hwaits.1 (by decide)

end Sicae
