import Sicae.Tasks

/-! # The processing task between its HTTP calls

`data_processing_task` runs beside the polling task and loses the processor in each of its HTTP
calls.  `processStep` cuts one pass of its loop into the pieces between two such points, with
the definitions of the branches; what the server answers inside a call is a step of its own,
`handleAnswer`, because it may come at any time of the call. -/

namespace Sicae

open CString

/-- Where the processing task stands: before one of its tests, or in the HTTP call of a branch.
The call of the last branch has two points, before and after the PUT takes effect. -/
inductive Pc where
  | info
  | inInfo
  | devices
  | inDevices
  | current
  | inCurrent
  | set
  | inSet
  | post
  | clearing
  | cleared
deriving DecidableEq, Repr

/-- The test of SETNEWDEVICEDATA, and the branch up to its request if it comes to one. -/
def setStep (io : Io) (g : Globals) : Pc × Globals :=
  if g.flags.setNewDeviceData then
    match readSwitchCommand g.urlSection with
    | some c => (.inSet, switchStart io c (setDeviceStart g))
    | none => (.post, raisePost (setDeviceStart g))
  else (.post, g)

/-- The way of the task from one point to the next. -/
def processStep (io : Io) (pc : Pc) (g : Globals) : Pc × Globals :=
  match pc with
  | .info => if g.flags.fetchNewInfoData then (.inInfo, fetchInfoStart g) else (.devices, g)
  | .inInfo => (.devices, g)
  | .devices =>
      if g.flags.fetchNewDevicesData then (.inDevices, fetchDevicesStart g) else (.current, g)
  | .inDevices => (.current, g)
  | .current =>
      if g.flags.setConsumedCurrent then (.inCurrent, consumedCurrentStart g) else (.set, g)
  | .inCurrent => (.set, resumeAcsRead g)
  | .set => setStep io g
  | .inSet => (.post, raisePost g)
  | .post => if g.flags.postNoNewData then (.clearing, postStart g) else (.info, g)
  | .clearing => (.cleared, g)
  | .cleared =>
      (.info, postEnd io.menuAllocated
        (if (io.reply .clearNewData).status = some 200 then clearFlags g else g))

/-! ### The flags after a step -/

/-- The end of the last branch resumes the polling task and touches the menu only. -/
theorem postEnd_eq (allocated : Bool) (g : Globals) :
    ∃ b menu lcd, postEnd allocated g =
      { g with
        tasks := { g.tasks with dataFetchSuspended := false }
        flags := g.flags.withPopulate b
        menu := menu
        lcd := lcd } := by
  unfold postEnd
  simp only
  split_ifs
  · obtain ⟨menu, lcd, h, -⟩ := populateDeviceMenu_eq allocated
      { g with
        tasks := { g.tasks with dataFetchSuspended := false }
        flags := { g.flags with populateDevices := false } }
    exact ⟨false, menu, lcd, h⟩
  · exact ⟨g.flags.populateDevices, g.menu, g.lcd, rfl⟩

/-- The flags after a step, up to POPULATEDEVICES. -/
def flagsAfter (io : Io) (pc : Pc) (g : Globals) : Flags :=
  match pc with
  | .info => { g.flags with fetchNewInfoData := false }
  | .devices => { g.flags with fetchNewDevicesData := false }
  | .current => { g.flags with setConsumedCurrent := false }
  | .set =>
      { g.flags with
        setNewDeviceData := false
        postNoNewData := g.flags.postNoNewData ||
          (g.flags.setNewDeviceData && (readSwitchCommand g.urlSection).isNone) }
  | .inSet => { g.flags with postNoNewData := true }
  | .post => { g.flags with postNoNewData := false }
  | .cleared =>
      if (io.reply .clearNewData).status = some 200 then (clearFlags g).flags else g.flags
  | .inInfo | .inDevices | .inCurrent | .clearing => g.flags

theorem setStep_flags (io : Io) (g : Globals) : (setStep io g).2.flags = flagsAfter io .set g := by
  rw [setStep, flagsAfter]
  split_ifs with hf
  · rw [hf, Bool.true_and]
    cases readSwitchCommand g.urlSection with
    | some c => exact congrArg (fun b => { g.flags with
        setNewDeviceData := false, postNoNewData := b }) (Bool.or_false _).symm
    | none => exact congrArg (fun b => { g.flags with
        setNewDeviceData := false, postNoNewData := b }) (Bool.or_true _).symm
  · have hclear := Bool.eq_false_iff.mpr hf
    rw [hclear, Bool.false_and, Bool.or_false, ← hclear]

/-- A step clears or sets the flags of its own branch only. -/
theorem processStep_flags (io : Io) (pc : Pc) (g : Globals) :
    ∃ b, (processStep io pc g).2.flags = (flagsAfter io pc g).withPopulate b := by
  cases pc with
  | info =>
      refine ⟨g.flags.populateDevices, ?_⟩
      rw [processStep, flagsAfter]
      split_ifs with hf
      · rfl
      · rw [← Bool.eq_false_iff.mpr hf]
        rfl
  | devices =>
      refine ⟨g.flags.populateDevices, ?_⟩
      rw [processStep, flagsAfter]
      split_ifs with hf
      · rw [fetchDevicesStart_eq]
        rfl
      · rw [← Bool.eq_false_iff.mpr hf]
        rfl
  | current =>
      refine ⟨g.flags.populateDevices, ?_⟩
      rw [processStep, flagsAfter]
      split_ifs with hf
      · rfl
      · rw [← Bool.eq_false_iff.mpr hf]
        rfl
  | set => exact ⟨g.flags.populateDevices, setStep_flags io g⟩
  | post =>
      refine ⟨g.flags.populateDevices, ?_⟩
      rw [processStep, flagsAfter]
      split_ifs with hf
      · rfl
      · rw [← Bool.eq_false_iff.mpr hf]
        rfl
  | cleared =>
      obtain ⟨b, menu, lcd, h⟩ := postEnd_eq io.menuAllocated
        (if (io.reply .clearNewData).status = some 200 then clearFlags g else g)
      refine ⟨b, ?_⟩
      rw [processStep, h, flagsAfter]
      split_ifs <;> rfl
  | inInfo | inDevices | inCurrent | inSet | clearing => exact ⟨g.flags.populateDevices, rfl⟩

/-- Where the task goes after its tests. -/
theorem processStep_enters {io : Io} {pc : Pc} {g : Globals} :
    ((processStep io pc g).1 = .inSet → g.flags.setNewDeviceData = true) ∧
      ((processStep io pc g).1 = .clearing → g.flags.postNoNewData = true) := by
  cases pc with
  | info | devices | current =>
      rw [processStep]
      split_ifs <;> exact ⟨nofun, nofun⟩
  | set =>
      rw [processStep, setStep]
      split_ifs with hf
      · exact ⟨fun _ => hf, by split <;> exact nofun⟩
      · exact ⟨nofun, nofun⟩
  | post =>
      rw [processStep]
      split_ifs with hf
      · exact ⟨nofun, fun _ => hf⟩
      · exact ⟨nofun, nofun⟩
  | inInfo | inDevices | inCurrent | inSet | clearing | cleared => exact ⟨nofun, nofun⟩

/-- No request flag is set, POSTNONEWDATA neither, and the task is not in a call after which it
acknowledges. -/
def Calm (pc : Pc) (f : Flags) : Prop :=
  f.requestPending = false ∧ f.postNoNewData = false ∧ pc ≠ .inSet ∧ pc ≠ .clearing

theorem requestPending_eq_false_iff {f : Flags} :
    f.requestPending = false ↔
      f.fetchNewInfoData = false ∧ f.fetchNewDevicesData = false ∧
      f.fetchNewFirmwareData = false ∧ f.fetchNewDatetimeData = false ∧
      f.setNewInfoData = false ∧ f.setNewDeviceData = false ∧ f.setNewDatetime = false := by
  simp only [Flags.requestPending, Bool.or_eq_false_iff, and_assoc]

theorem flagsAfter_calm {io : Io} {pc : Pc} {g : Globals} (h : Calm pc g.flags) :
    (flagsAfter io pc g).requestPending = false ∧ (flagsAfter io pc g).postNoNewData = false := by
  obtain ⟨hr, hp, hset, -⟩ := h
  obtain ⟨hinfo, hdevices, hfirmware, hdatetime, hseti, hsetd, hsett⟩ :=
    requestPending_eq_false_iff.mp hr
  rw [requestPending_eq_false_iff]
  cases pc with
  | info => exact ⟨⟨rfl, hdevices, hfirmware, hdatetime, hseti, hsetd, hsett⟩, hp⟩
  | devices => exact ⟨⟨hinfo, rfl, hfirmware, hdatetime, hseti, hsetd, hsett⟩, hp⟩
  | set =>
      refine ⟨⟨hinfo, hdevices, hfirmware, hdatetime, hseti, rfl, hsett⟩, ?_⟩
      rw [flagsAfter, hp, hsetd]
      rfl
  | inSet => exact absurd rfl hset
  | post => exact ⟨⟨hinfo, hdevices, hfirmware, hdatetime, hseti, hsetd, hsett⟩, rfl⟩
  | cleared =>
      rw [flagsAfter]
      split_ifs
      · exact ⟨⟨rfl, rfl, rfl, rfl, hseti, hsetd, hsett⟩, rfl⟩
      · exact ⟨⟨hinfo, hdevices, hfirmware, hdatetime, hseti, hsetd, hsett⟩, hp⟩
  | current | inInfo | inDevices | inCurrent | clearing =>
      exact ⟨⟨hinfo, hdevices, hfirmware, hdatetime, hseti, hsetd, hsett⟩, hp⟩

/-- A calm task stays calm. -/
theorem processStep_calm {io : Io} {pc : Pc} {g : Globals} (h : Calm pc g.flags) :
    Calm (processStep io pc g).1 (processStep io pc g).2.flags := by
  obtain ⟨b, hflags⟩ := processStep_flags io pc g
  obtain ⟨hr, hp⟩ := @flagsAfter_calm io pc g h
  obtain ⟨hset, hclear⟩ := @processStep_enters io pc g
  have hsetd := (requestPending_eq_false_iff.mp h.1).2.2.2.2.2.1
  rw [hflags]
  refine ⟨hr, hp, fun he => ?_, fun he => ?_⟩
  · exact absurd (hset he) (Bool.eq_false_iff.mp hsetd)
  · exact absurd (hclear he) (Bool.eq_false_iff.mp h.2.1)

/-- The number of steps to the test of POSTNONEWDATA, with all branches taken. -/
def Pc.toPost : Pc → ℕ
  | .post => 0
  | .inSet => 1
  | .set => 2
  | .inCurrent => 3
  | .current => 4
  | .inDevices => 5
  | .devices => 6
  | .inInfo => 7
  | .info => 8
  | .cleared => 9
  | .clearing => 10

/-- Away from the test of POSTNONEWDATA the task comes closer to it. -/
theorem processStep_toPost {io : Io} {pc : Pc} {g : Globals} (h : pc ≠ .post) :
    (processStep io pc g).1.toPost < pc.toPost := by
  cases pc with
  | post => exact absurd rfl h
  | info | devices | current =>
      simp only [processStep]
      split_ifs <;> simp [Pc.toPost]
  | set =>
      simp only [processStep, setStep]
      split_ifs
      · split <;> simp [Pc.toPost]
      · simp [Pc.toPost]
  | inInfo | inDevices | inCurrent | inSet | clearing | cleared => simp [processStep, Pc.toPost]

/-- POSTNONEWDATA stays set on the way to its test, if the last clear was not acknowledged. -/
theorem processStep_postNoNewData {io : Io} {pc : Pc} {g : Globals} (h : pc ≠ .post)
    (hio : (io.reply .clearNewData).status ≠ some 200) (hp : g.flags.postNoNewData = true) :
    (processStep io pc g).2.flags.postNoNewData = true := by
  obtain ⟨b, hflags⟩ := processStep_flags io pc g
  rw [hflags]
  show (flagsAfter io pc g).postNoNewData = true
  cases pc with
  | post => exact absurd rfl h
  | set =>
      rw [flagsAfter, hp]
      rfl
  | inSet => rfl
  | cleared =>
      rw [flagsAfter, if_neg hio]
      exact hp
  | info | inInfo | devices | inDevices | current | inCurrent | clearing => exact hp

/-- An answer that is no command leaves a calm task calm. -/
theorem handleAnswer_calm {env : Env} {r : Route} {json : Option Json} {pc : Pc} {g : Globals}
    (hj : commandSection r json = none) (h : Calm pc g.flags) :
    Calm pc (handleAnswer env r json g).1.flags := by
  obtain ⟨hr, hp, hset, hclear⟩ := h
  obtain ⟨populate, hflags⟩ := @handleAnswer_flags env r json g hj
  have htest : g.flags.postTest = g.flags := by
    rw [Flags.postTest, hr]
    rfl
  rw [hflags, htest, ite_self]
  exact ⟨hr, hp, hset, hclear⟩

/-! ### Answers that are no command -/

/-- An answer that is no command. -/
structure OtherAnswer where
  env : Env
  route : Route
  json : Option Json
  isOther : commandSection route json = none

/-- An answer that is no command leaves `urlSection` and SETNEWDEVICEDATA alone. -/
theorem handleAnswer_urlSection {env : Env} {r : Route} {json : Option Json} {g : Globals}
    (h : commandSection r json = none) :
    (handleAnswer env r json g).1.urlSection = g.urlSection := by
  have hsame : (answerBranch env r json g).1.urlSection = g.urlSection := by
    unfold answerBranch
    split
    · simp only [commandSection] at h
      unfold newDataBranch
      split_ifs at h ⊢
      · split
        · simp_all
        · rfl
      · rfl
    · rw [devicesBranch]
      split <;> rfl
    · rfl
    · rfl
  simp only [handleAnswer]
  split_ifs
  · exact hsame
  · exact hsame

theorem handleAnswer_setNewDeviceData {env : Env} {r : Route} {json : Option Json} {g : Globals}
    (h : commandSection r json = none) :
    (handleAnswer env r json g).1.flags.setNewDeviceData = g.flags.setNewDeviceData := by
  obtain ⟨b, hb⟩ := @handleAnswer_flags env r json g h
  rw [hb]
  split_ifs
  · rw [Flags.postTest_eq]
    rfl
  · rfl

end Sicae
