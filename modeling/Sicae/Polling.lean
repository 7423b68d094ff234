import Sicae.Interleaving
import Sicae.SwitchCommand
import Sicae.Transition

/-! # The polling task beside the processing task

`check_new_data_task` polls only while FETCHNEWINFODATA and FETCHNEWDEVICESDATA are clear, and
takes anything else for a lost connection: it deletes the processing task.  The station stays
connected here.

The two flags are raised by the dispatch of a poll and cleared by the tests of the processing
task, which suspends the polling task for its two GETs (`suspended_of_get`) but for no other
call.  So the processing task survives a run exactly if every iteration of the polling task
starts with both flags clear, and in particular if between two iterations both tests are made
(`alive_of_tested`). -/

namespace Sicae

open CString Transition

/-! ### The two tasks -/

/-- The globals, the place of the processing task, whether the polling task is in its GET, and on
record whether each of the two flags has been tested since the last poll was answered. -/
structure PollState where
  globals : Globals
  pc : Pc
  polling : Bool := false
  testedInfo : Bool := true
  testedDevices : Bool := true

/-- The start of an iteration of `check_new_data_task`, the answer to its GET or the failure of
it; any answer that is no command; the end of a measurement; a step of the processing task. -/
inductive PollAct where
  | poll
  | answer (env : Env) (json : Option Json)
  | fail
  | finish (env : Env) (r : Route) (json : Option Json)
  | measure (i : ℕ) (current : ℚ)
  | process (io : Io)

/-- `vTaskDelete(dataProcessHandler)`. -/
def deleteDataProcess (g : Globals) : Globals :=
  { g with tasks := { g.tasks with dataProcessDeleted := true } }

/-- The start of `firebase_get_new_data`. -/
def pollStart (g : Globals) : Globals :=
  { g with url := Request.getNewData.url g.deviceId, sent := .getNewData :: g.sent }

/-- The condition of `check_new_data_task`, as long as the station is connected. -/
def Flags.fetching (f : Flags) : Bool := f.fetchNewInfoData || f.fetchNewDevicesData

/-- An iteration of `check_new_data_task` up to its GET. -/
def PollState.check (s : PollState) : PollState :=
  if s.globals.flags.fetching then { s with globals := deleteDataProcess s.globals }
  else { s with globals := pollStart s.globals, polling := true }

/-- A step of the processing task. -/
def PollState.process (s : PollState) (io : Io) : PollState :=
  { s with
    pc := (processStep io s.pc s.globals).1
    globals := (processStep io s.pc s.globals).2
    testedInfo := s.testedInfo || s.pc == .info
    testedDevices := s.testedDevices || s.pc == .devices }

/-- One step of one of the tasks.  A suspended task does not run, and a deleted one no more. -/
def pollStep (s : PollState) : PollAct → Option PollState
  | .poll =>
      if s.globals.tasks.dataFetchSuspended || s.polling then none else some s.check
  | .answer env json =>
      if s.globals.tasks.dataFetchSuspended || !s.polling then none
      else some { s with
        globals := (handleAnswer env .newData json s.globals).1
        polling := false
        testedInfo := false
        testedDevices := false }
  | .fail =>
      if s.globals.tasks.dataFetchSuspended || !s.polling then none
      else some { s with polling := false }
  | .finish env r json =>
      if (commandSection r json).isSome then none
      else some { s with globals := (handleAnswer env r json s.globals).1 }
  | .measure i current => some { s with globals := measured i current s.globals }
  | .process io =>
      if s.globals.tasks.dataProcessDeleted then none else some (s.process io)

/-- Both tasks at the top of their loops. -/
def PollState.initial (g : Globals) : PollState where
  globals := { g with flags := {}, tasks := {} }
  pc := .info

/-- `vTaskDelete` has not been called. -/
def Alive (s : PollState) : Prop := s.globals.tasks.dataProcessDeleted = false

/-- The condition on a step: an iteration of the polling task starts with both flags clear. -/
def PollsIdle (s : PollState) : PollAct → Prop
  | .poll => s.globals.flags.fetchNewInfoData = false ∧ s.globals.flags.fetchNewDevicesData = false
  | _ => True

theorem fetching_eq_false_iff {f : Flags} :
    f.fetching = false ↔ f.fetchNewInfoData = false ∧ f.fetchNewDevicesData = false :=
  Bool.or_eq_false_iff

/-! ### Who deletes the task -/

section
variable {s s' : PollState}

/-- The processing task does not delete itself. -/
theorem processStep_deleted (io : Io) (pc : Pc) (g : Globals) :
    (processStep io pc g).2.tasks.dataProcessDeleted = g.tasks.dataProcessDeleted := by
  cases pc with
  | info | current | post =>
      simp only [processStep]
      split_ifs <;> rfl
  | devices =>
      simp only [processStep]
      split_ifs
      · rw [fetchDevicesStart_eq]
      · rfl
  | set =>
      simp only [processStep, setStep]
      split_ifs
      · split <;> rfl
      · rfl
  | cleared =>
      obtain ⟨b, menu, lcd, h⟩ := postEnd_eq io.menuAllocated
        (if (io.reply .clearNewData).status = some 200 then clearFlags g else g)
      rw [processStep, h]
      split_ifs <;> rfl
  | inInfo | inDevices | inCurrent | inSet | clearing => rfl

/-- The state that each step leads to. -/
inductive PollStep (s : PollState) : PollAct → PollState → Prop where
  | poll : PollStep s .poll s.check
  | answer (env : Env) (json : Option Json) : PollStep s (.answer env json)
      { s with
        globals := (handleAnswer env .newData json s.globals).1
        polling := false
        testedInfo := false
        testedDevices := false }
  | fail : PollStep s .fail { s with polling := false }
  | finish (env : Env) (r : Route) (json : Option Json) (h : commandSection r json = none) :
      PollStep s (.finish env r json) { s with globals := (handleAnswer env r json s.globals).1 }
  | measure (i : ℕ) (current : ℚ) :
      PollStep s (.measure i current) { s with globals := measured i current s.globals }
  | process (io : Io) : PollStep s (.process io) (s.process io)

theorem pollStep_cases {a : PollAct} (h : pollStep s a = some s') : PollStep s a s' := by
  cases a with
  | poll | answer | fail | process =>
      simp only [pollStep] at h
      split_ifs at h
      obtain rfl := Option.some.inj h
      constructor
  | finish env r json =>
      simp only [pollStep] at h
      split_ifs at h with hj
      obtain rfl := Option.some.inj h
      exact .finish env r json (Option.not_isSome_iff_eq_none.mp hj)
  | measure i current =>
      obtain rfl := Option.some.inj h
      exact .measure i current

/-- A step keeps the processing task alive exactly when it is no iteration of the polling task
that finds one of the flags set. -/
theorem pollStep_alive_iff {a : PollAct} (ha : Alive s) (h : pollStep s a = some s') :
    Alive s' ↔ PollsIdle s a := by
  cases pollStep_cases h with
  | poll =>
      rw [PollsIdle, ← fetching_eq_false_iff, PollState.check]
      split_ifs with hf
      · simp [Alive, deleteDataProcess, hf]
      · simp [Alive, pollStart, show s.globals.tasks.dataProcessDeleted = false from ha, hf]
  | answer env json =>
      refine iff_of_true ?_ trivial
      rw [Alive, (handleAnswer_same env .newData json s.globals).tasks]
      exact ha
  | finish env r json =>
      refine iff_of_true ?_ trivial
      rw [Alive, (handleAnswer_same env r json s.globals).tasks]
      exact ha
  | process io => exact iff_of_true ((processStep_deleted io s.pc s.globals).trans ha) trivial
  | fail | measure i current => exact iff_of_true ha trivial

/-- **The processing task survives a run** exactly if every iteration of the polling task starts
with FETCHNEWINFODATA and FETCHNEWDEVICESDATA clear. -/
theorem alive_iff_pollsIdle {g : Globals} {as : List PollAct} {t : PollState}
    (hr : run pollStep (.initial g) as = some t) :
    AllStates pollStep Alive (.initial g) as ↔ AllSteps pollStep PollsIdle (.initial g) as :=
  allStates_iff_allSteps (J := fun _ => True)
    (fun _ _ _ _ ha h => ⟨trivial, pollStep_alive_iff ha h⟩) trivial rfl hr

/-! ### What the suspension covers -/

/-- In the two GETs of the processing task the polling task is suspended. -/
def SuspendedInGet (s : PollState) : Prop :=
  s.pc = .inInfo ∨ s.pc = .inDevices → s.globals.tasks.dataFetchSuspended = true

/-- The processing task enters a GET with the polling task suspended. -/
theorem processStep_suspended {io : Io} {pc : Pc} {g : Globals}
    (h : (processStep io pc g).1 = .inInfo ∨ (processStep io pc g).1 = .inDevices) :
    (processStep io pc g).2.tasks.dataFetchSuspended = true := by
  cases pc with
  | info =>
      simp only [processStep] at h ⊢
      split_ifs at h ⊢
      · rfl
      · simp at h
  | devices =>
      simp only [processStep] at h ⊢
      split_ifs at h ⊢
      · rw [fetchDevicesStart_eq]
      · simp at h
  | current | post =>
      simp only [processStep] at h
      split_ifs at h <;> simp at h
  | set =>
      simp only [processStep, setStep] at h
      split_ifs at h
      · split at h <;> simp at h
      · simp at h
  | inInfo | inDevices | inCurrent | inSet | clearing | cleared => simp [processStep] at h

theorem pollStep_suspendedInGet {a : PollAct} (hi : SuspendedInGet s)
    (h : pollStep s a = some s') : SuspendedInGet s' := by
  cases pollStep_cases h with
  | poll =>
      unfold PollState.check
      split_ifs <;> exact hi
  | answer env json =>
      rw [SuspendedInGet, (handleAnswer_same env .newData json s.globals).tasks]
      exact hi
  | finish env r json =>
      rw [SuspendedInGet, (handleAnswer_same env r json s.globals).tasks]
      exact hi
  | process io => exact processStep_suspended
  | fail | measure i current => exact hi

/-- So no iteration of the polling task starts, and no poll is answered, during these. -/
theorem suspended_of_get {g : Globals} (h : Reaches pollStep (.initial g) s) :
    SuspendedInGet s :=
  reaches_invariant (fun _ _ _ => pollStep_suspendedInGet)
    (fun h => by simp [PollState.initial] at h) h

/-! ### A schedule that is safe -/

/-- The condition that both flags have been tested since the last poll was answered. -/
def PollsTested (s : PollState) : PollAct → Prop
  | .poll => s.testedInfo = true ∧ s.testedDevices = true
  | _ => True

/-- A flag that has been tested is clear. -/
structure TestedClear (s : PollState) : Prop where
  alive : Alive s
  info : s.testedInfo = true → s.globals.flags.fetchNewInfoData = false
  devices : s.testedDevices = true → s.globals.flags.fetchNewDevicesData = false

/-- The processing task raises neither flag, and clears each in its test. -/
theorem processStep_fetching (io : Io) (pc : Pc) (g : Globals) :
    (pc = .info ∨ g.flags.fetchNewInfoData = false →
        (processStep io pc g).2.flags.fetchNewInfoData = false) ∧
      (pc = .devices ∨ g.flags.fetchNewDevicesData = false →
        (processStep io pc g).2.flags.fetchNewDevicesData = false) := by
  obtain ⟨b, hflags⟩ := processStep_flags io pc g
  rw [hflags]
  show (_ → (flagsAfter io pc g).fetchNewInfoData = false) ∧
    (_ → (flagsAfter io pc g).fetchNewDevicesData = false)
  cases pc with
  | info => exact ⟨fun _ => rfl, fun h => h.resolve_left (by decide)⟩
  | devices => exact ⟨fun h => h.resolve_left (by decide), fun _ => rfl⟩
  | cleared =>
      rw [flagsAfter]
      split_ifs
      · exact ⟨fun _ => rfl, fun _ => rfl⟩
      · exact ⟨fun h => h.resolve_left (by decide), fun h => h.resolve_left (by decide)⟩
  | inInfo | inDevices | current | inCurrent | set | inSet | post | clearing =>
      exact ⟨fun h => h.resolve_left (by decide), fun h => h.resolve_left (by decide)⟩

/-- An answer that is no command raises neither. -/
theorem handleAnswer_fetching {env : Env} {r : Route} {json : Option Json} {g : Globals}
    (h : commandSection r json = none) :
    (handleAnswer env r json g).1.flags.fetchNewInfoData = g.flags.fetchNewInfoData ∧
      (handleAnswer env r json g).1.flags.fetchNewDevicesData = g.flags.fetchNewDevicesData := by
  obtain ⟨b, hflags⟩ := @handleAnswer_flags env r json g h
  rw [hflags, Flags.postTest_eq]
  split_ifs <;> exact ⟨rfl, rfl⟩

theorem pollStep_testedClear {a : PollAct} (hi : TestedClear s) (ht : PollsTested s a)
    (h : pollStep s a = some s') : TestedClear s' := by
  have hidle : PollsIdle s a := by
    cases a with
    | poll => exact ⟨hi.info ht.1, hi.devices ht.2⟩
    | _ => trivial
  have halive : Alive s' := (pollStep_alive_iff hi.alive h).mpr hidle
  cases pollStep_cases h with
  | poll =>
      refine ⟨halive, ?_, ?_⟩
      · unfold PollState.check
        split_ifs <;> exact hi.info
      · unfold PollState.check
        split_ifs <;> exact hi.devices
  | answer env json => exact ⟨halive, nofun, nofun⟩
  | finish env r json hj =>
      obtain ⟨hinfo, hdevices⟩ := @handleAnswer_fetching env r json s.globals hj
      exact ⟨halive, fun hs => hinfo.trans (hi.info hs), fun hs => hdevices.trans (hi.devices hs)⟩
  | process io =>
      obtain ⟨hinfo, hdevices⟩ := processStep_fetching io s.pc s.globals
      refine ⟨halive, fun hs => hinfo ?_, fun hs => hdevices ?_⟩
      · rw [PollState.process, Bool.or_eq_true, beq_iff_eq] at hs
        exact hs.elim (fun h => Or.inr (hi.info h)) Or.inl
      · rw [PollState.process, Bool.or_eq_true, beq_iff_eq] at hs
        exact hs.elim (fun h => Or.inr (hi.devices h)) Or.inl
  | fail | measure i current => exact ⟨halive, hi.info, hi.devices⟩

/-- If between two iterations of the polling task the processing task always makes both tests, it
survives. -/
theorem alive_of_tested {g : Globals} {as : List PollAct}
    (h : AllSteps pollStep PollsTested (.initial g) as) :
    AllStates pollStep Alive (.initial g) as :=
  allStates_of_invariant (fun _ _ _ => pollStep_testedClear) (fun _ h => h.alive)
    ⟨rfl, fun _ => rfl, fun _ => rfl⟩ h

end

/-! ### A command during a PATCH -/

/-- A switch command is polled and the processing task enters the PATCH for it; get/info is
polled meanwhile, and the next iteration of the polling task starts. -/
def pollDuringPatch : List PollAct :=
  [.poll, .answer zeroedHeap (some (newDataJson (switchText "0".toList true))),
    .process exampleIo, .process exampleIo, .process exampleIo, .process exampleIo,
    .poll, .answer zeroedHeap (some (newDataJson "get/info".toList)), .poll]

theorem run_pollDuringPatch :
    (run pollStep (.initial exampleGlobals) pollDuringPatch).map
      (fun s => (s.pc, s.globals.tasks.dataProcessDeleted)) = some (.inSet, true) := by
  decide +kernel

theorem alive_pollDuringPatch :
    AllStates pollStep Alive (.initial exampleGlobals) pollDuringPatch ↔
      AllSteps pollStep PollsIdle (.initial exampleGlobals) pollDuringPatch := by
  obtain ⟨t, ht, -⟩ := Option.map_eq_some_iff.mp run_pollDuringPatch
  exact alive_iff_pollsIdle ht

/-- The third iteration deletes the processing task in the middle of its PATCH. -/
theorem pollDuringPatch_deletes :
    ¬ AllStates pollStep Alive (.initial exampleGlobals) pollDuringPatch := by
  intro h
  obtain ⟨t, ht, he⟩ := Option.map_eq_some_iff.mp run_pollDuringPatch
  rw [Prod.mk.injEq, (h.last ht : t.globals.tasks.dataProcessDeleted = false)] at he
  exact absurd he.2 (by decide)

end Sicae
