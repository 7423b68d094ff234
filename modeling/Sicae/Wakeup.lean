import Sicae.Interleaving
import Sicae.Transition

/-! # The wake-up of the polling task

The two FETCH branches of `data_processing_task` suspend the polling task; only the branch of
POSTNONEWDATA resumes it.  That flag is set by the test at the end of `ON_FINISH`, which the
polling task itself runs after it has assigned the request flags, and by the SETNEWDEVICEDATA
branch.

The steps are those of `processStep`, the two halves of the handler in the polling task, and
the answers handled in other tasks.  The polling task is never left asleep if each FETCH branch
is entered with POSTNONEWDATA or SETNEWDEVICEDATA set; a branch entered otherwise can put it to
sleep for good (`asleep_of_not_fetchGuarded`). -/

namespace Sicae

open CString Transition

/-! ### The steps -/

/-- The globals, the position of the processing task, and whether the polling task has assigned
the flags of an answer and not yet come to the test at the end of the branch. -/
structure WakeupState where
  globals : Globals
  pc : Pc
  assigned : Bool := false

/-- The polling task handles the branch of a parsed answer, then the test; any task handles an
answer that is no command; the processing task goes on. -/
inductive WakeupAct where
  | assign (json : Json)
  | test
  | finish (answer : OtherAnswer)
  | process (io : Io)

/-- One step; a suspended polling task makes none, wherever it is. -/
def wakeupStep (s : WakeupState) : WakeupAct → Option WakeupState
  | .assign json =>
      if s.globals.tasks.dataFetchSuspended || s.assigned then none
      else some { s with globals := newDataBranch json s.globals, assigned := true }
  | .test =>
      if s.globals.tasks.dataFetchSuspended || !s.assigned then none
      else some { s with globals := postNoNewDataTest s.globals, assigned := false }
  | .finish answer =>
      some { s with globals := (handleAnswer answer.env answer.route answer.json s.globals).1 }
  | .process io =>
      some { s with
        globals := (processStep io s.pc s.globals).2
        pc := (processStep io s.pc s.globals).1 }

/-- Power-up: no flag is set and no task is suspended. -/
def WakeupState.initial (g : Globals) : WakeupState where
  globals := { g with flags := {}, tasks := {} }
  pc := .info

/-- At the top of the loop, a suspended polling task is about to be resumed. -/
def Awake (s : WakeupState) : Prop :=
  s.globals.tasks.dataFetchSuspended = true → s.pc = .info → s.globals.flags.postNoNewData = true

instance (s : WakeupState) : Decidable (Awake s) := inferInstanceAs (Decidable (_ → _ → _))

/-- The next step of the processing task suspends the polling task. -/
def Suspends (pc : Pc) (f : Flags) : Prop :=
  pc = .info ∧ f.fetchNewInfoData = true ∨ pc = .devices ∧ f.fetchNewDevicesData = true

instance (pc : Pc) (f : Flags) : Decidable (Suspends pc f) :=
  inferInstanceAs (Decidable (_ ∧ _ ∨ _ ∧ _))

/-- The condition on a step: a branch that suspends the polling task is entered only with one of
the flags set that lead to its wake-up in the same iteration. -/
def FetchGuarded (s : WakeupState) : WakeupAct → Prop
  | .process _ => Suspends s.pc s.globals.flags →
      s.globals.flags.postNoNewData = true ∨ s.globals.flags.setNewDeviceData = true
  | _ => True

instance (s : WakeupState) (a : WakeupAct) : Decidable (FetchGuarded s a) :=
  match a with
  | .process _ => inferInstanceAs (Decidable (_ → _ ∨ _))
  | .assign _ | .test | .finish _ => inferInstanceAs (Decidable True)

/-! ### The way to the wake-up -/

/-- From here the task comes to `vTaskResume(dataFetchHandler)` in the same iteration. -/
def WillResume (pc : Pc) (f : Flags) : Prop :=
  match pc with
  | .clearing | .cleared | .inSet => True
  | .info | .post => f.postNoNewData = true
  | .inInfo | .devices | .inDevices | .current | .inCurrent | .set =>
      f.postNoNewData = true ∨ f.setNewDeviceData = true

/-- Setting POSTNONEWDATA does not hurt. -/
theorem WillResume.mono {pc : Pc} {f f' : Flags} (h : WillResume pc f)
    (hpost : f.postNoNewData = true → f'.postNoNewData = true)
    (hset : f'.setNewDeviceData = f.setNewDeviceData) : WillResume pc f' := by
  cases pc with
  | clearing | cleared | inSet => trivial
  | info | post => exact hpost h
  | inInfo | devices | inDevices | current | inCurrent | set =>
      rcases h with h | h
      · exact Or.inl (hpost h)
      · exact Or.inr (hset.trans h)

/-- While the polling task is suspended its wake-up is ahead. -/
def ResumeAhead (pc : Pc) (g : Globals) : Prop :=
  g.tasks.dataFetchSuspended = true → WillResume pc g.flags

/-- A step of the processing task keeps the wake-up ahead, if it suspends under guard. -/
theorem processStep_resumeAhead {io : Io} {pc : Pc} {g : Globals} (h : ResumeAhead pc g)
    (hguard : Suspends pc g.flags →
      g.flags.postNoNewData = true ∨ g.flags.setNewDeviceData = true) :
    ResumeAhead (processStep io pc g).1 (processStep io pc g).2 := by
  cases pc with
  | info =>
      rw [processStep]
      split_ifs with hf
      · exact fun _ => hguard (Or.inl ⟨rfl, hf⟩)
      · exact fun hs => Or.inl (h hs)
  | devices =>
      rw [processStep]
      split_ifs with hf
      · intro _
        rw [fetchDevicesStart_eq]
        exact hguard (Or.inr ⟨rfl, hf⟩)
      · exact h
  | current =>
      rw [processStep]
      split_ifs with hf
      · exact h
      · exact h
  | set =>
      rw [processStep, setStep]
      split_ifs with hf
      · split
        · exact fun _ => trivial
        · exact fun _ => rfl
      · exact fun hs => (h hs).resolve_right hf
  | post =>
      rw [processStep]
      split_ifs with hf
      · exact fun _ => trivial
      · exact fun hs => absurd (h hs) hf
  | cleared =>
      obtain ⟨b, menu, lcd, he⟩ := postEnd_eq io.menuAllocated
        (if (io.reply .clearNewData).status = some 200 then clearFlags g else g)
      intro hs
      rw [processStep, he] at hs
      cases hs
  | inSet => exact fun _ => rfl
  | clearing => exact fun _ => trivial
  | inInfo | inDevices | inCurrent => exact h

theorem newDataBranch_tasks (json : Json) (g : Globals) :
    (newDataBranch json g).tasks = g.tasks := (newDataBranch_same json g).tasks

theorem handleAnswer_postNoNewData {env : Env} {r : Route} {json : Option Json} {g : Globals}
    (h : commandSection r json = none) (hp : g.flags.postNoNewData = true) :
    (handleAnswer env r json g).1.flags.postNoNewData = true := by
  obtain ⟨b, hb⟩ := @handleAnswer_flags env r json g h
  rw [hb, Flags.postTest_eq]
  split_ifs
  · show (g.flags.postNoNewData || _) = true
    rw [hp, Bool.true_or]
  · exact hp

section
variable {s s' : WakeupState}

/-- Every guarded step keeps the wake-up ahead. -/
theorem wakeupStep_resumeAhead {a : WakeupAct} (h : ResumeAhead s.pc s.globals)
    (hguard : FetchGuarded s a) (hstep : wakeupStep s a = some s') :
    ResumeAhead s'.pc s'.globals := by
  cases a with
  | assign json =>
      simp only [wakeupStep] at hstep
      split_ifs at hstep with hs
      obtain rfl := Option.some.inj hstep
      intro hsus
      rw [newDataBranch_tasks] at hsus
      exact absurd (Bool.or_eq_true_iff.mpr (Or.inl hsus)) hs
  | test =>
      simp only [wakeupStep] at hstep
      split_ifs at hstep with hs
      obtain rfl := Option.some.inj hstep
      exact fun hsus => absurd (Bool.or_eq_true_iff.mpr (Or.inl hsus)) hs
  | finish answer =>
      obtain rfl := Option.some.inj hstep
      intro hsus
      rw [(handleAnswer_same _ _ _ _).tasks] at hsus
      exact (h hsus).mono (handleAnswer_postNoNewData answer.isOther)
        (handleAnswer_setNewDeviceData answer.isOther)
  | process io =>
      obtain rfl := Option.some.inj hstep
      exact processStep_resumeAhead h hguard

/-- **The polling task is never left asleep** in a run in which the processing task suspends it
only with POSTNONEWDATA or SETNEWDEVICEDATA set. -/
theorem awake_of_fetchGuarded (g : Globals) {as : List WakeupAct}
    (h : AllSteps wakeupStep FetchGuarded (.initial g) as) :
    AllStates wakeupStep Awake (.initial g) as := by
  apply allStates_of_invariant (fun _ _ _ => wakeupStep_resumeAhead) _ _ h
  · intro s hs hsus hpc
    have hw := hs hsus
    rw [hpc] at hw
    exact hw
  · intro hsus
    cases hsus

/-! ### Branches entered without the flags -/

/-- The points from which the task comes to the wake-up whatever the flags are. -/
def Pc.resumes : Pc → Bool
  | .inSet | .clearing | .cleared => true
  | .info | .inInfo | .devices | .inDevices | .current | .inCurrent | .set | .post => false

/-- The polling task is suspended, and nothing up to the test of POSTNONEWDATA sets that flag. -/
structure Drowsy (s : WakeupState) : Prop where
  suspended : s.globals.tasks.dataFetchSuspended = true
  post : s.globals.flags.postNoNewData = false
  setDevice : s.globals.flags.setNewDeviceData = false
  pc : s.pc.resumes = false

/-- The processing task alone goes on to the top of its loop without a wake-up. -/
theorem Drowsy.process (h : Drowsy s) (io : Io) :
    Drowsy { s with
      globals := (processStep io s.pc s.globals).2
      pc := (processStep io s.pc s.globals).1 } := by
  obtain ⟨hsus, hpost, hset, hpc⟩ := h
  rcases s with ⟨g, pc, assigned⟩
  cases pc with
  | info =>
      simp only [processStep]
      split_ifs
      · exact ⟨rfl, hpost, hset, rfl⟩
      · exact ⟨hsus, hpost, hset, rfl⟩
  | devices =>
      simp only [processStep]
      split_ifs
      · refine ⟨?_, ?_, ?_, rfl⟩
        · rw [fetchDevicesStart_eq]
        · rw [fetchDevicesStart_eq]
          exact hpost
        · rw [fetchDevicesStart_eq]
          exact hset
      · exact ⟨hsus, hpost, hset, rfl⟩
  | current =>
      simp only [processStep]
      split_ifs
      · exact ⟨hsus, hpost, hset, rfl⟩
      · exact ⟨hsus, hpost, hset, rfl⟩
  | set =>
      have hf : ¬ g.flags.setNewDeviceData = true := Bool.eq_false_iff.mp hset
      simp only [processStep, setStep, if_neg hf]
      exact ⟨hsus, hpost, hset, rfl⟩
  | post =>
      have hf : ¬ g.flags.postNoNewData = true := Bool.eq_false_iff.mp hpost
      simp only [processStep, if_neg hf]
      exact ⟨hsus, hpost, hset, rfl⟩
  | inSet | clearing | cleared => cases hpc
  | inInfo | inDevices | inCurrent => exact ⟨hsus, hpost, hset, rfl⟩

/-- Some continuation by the processing task alone leaves the polling task asleep. -/
def CanSleep (s : WakeupState) : Prop :=
  ∃ (ios : List Io) (t : WakeupState),
    run wakeupStep s (ios.map WakeupAct.process) = some t ∧ ¬ Awake t

theorem canSleep_of_step {io : Io} (hstep : wakeupStep s (.process io) = some s')
    (h : CanSleep s') : CanSleep s := by
  obtain ⟨ios, t, hr, ht⟩ := h
  exact ⟨io :: ios, t, run_cons_some.mpr ⟨s', hstep, hr⟩, ht⟩

theorem Drowsy.canSleep {s : WakeupState} (h : Drowsy s) : CanSleep s := by
  by_cases hinfo : s.pc = .info
  · refine ⟨[], s, rfl, fun ha => ?_⟩
    exact absurd (ha h.suspended hinfo) (Bool.eq_false_iff.mp h.post)
  · refine @canSleep_of_step s _ exampleIo rfl ?_
    have hnext := h.process exampleIo
    by_cases hpost : s.pc = .post
    · refine ⟨[], _, rfl, fun ha => ?_⟩
      have hf : ¬ s.globals.flags.postNoNewData = true := Bool.eq_false_iff.mp h.post
      have htop : (processStep exampleIo s.pc s.globals).1 = .info := by
        rw [hpost, processStep, if_neg hf]
      exact absurd (ha hnext.suspended htop) (Bool.eq_false_iff.mp hnext.post)
    · have hlt := @processStep_toPost exampleIo s.pc s.globals hpost
      exact hnext.canSleep
termination_by s.pc.toPost

/-- No weaker condition on the state in which a branch is entered is enough: entered without the
two flags, it can put the polling task to sleep. -/
theorem asleep_of_not_fetchGuarded {io : Io} (h : ¬ FetchGuarded s (.process io)) :
    CanSleep s := by
  obtain ⟨hsus, hno⟩ := Classical.not_imp.mp h
  obtain ⟨hpost, hset⟩ := not_or.mp hno
  refine @canSleep_of_step s _ io rfl (Drowsy.canSleep ?_)
  rcases hsus with ⟨hpc, hf⟩ | ⟨hpc, hf⟩
  · simp only [hpc, processStep, hf, ↓reduceIte]
    exact ⟨rfl, Bool.eq_false_iff.mpr hpost, Bool.eq_false_iff.mpr hset, rfl⟩
  · simp only [hpc, processStep, hf, ↓reduceIte]
    refine ⟨?_, ?_, ?_, rfl⟩
    · rw [fetchDevicesStart_eq]
    · rw [fetchDevicesStart_eq]
      exact Bool.eq_false_iff.mpr hpost
    · rw [fetchDevicesStart_eq]
      exact Bool.eq_false_iff.mpr hset

end

/-! ### A clear that is not acknowledged -/

/-- A poll answered with `get/info`. -/
def getInfoAnswered : List WakeupAct := [.assign (newDataJson "get/info".toList), .test]

/-- The command is dispatched at the top of the loop and served in the pass that follows. -/
def servedGetInfo : List WakeupAct := getInfoAnswered ++ List.replicate 8 (.process exampleIo)

/-- The command is dispatched when its test has just gone by: its POSTNONEWDATA is used up by a
clear that fails, and the branch runs in the next pass. -/
def missedGetInfo : List WakeupAct :=
  .process exampleIo :: (getInfoAnswered ++ List.replicate 12 (.process exampleIo))

theorem awake_servedGetInfo :
    AllStates wakeupStep Awake (.initial exampleGlobals) servedGetInfo :=
  awake_of_fetchGuarded exampleGlobals (by decide +kernel)

/-- The polling task is left asleep. -/
theorem missedGetInfo_sleeps :
    ¬ AllStates wakeupStep Awake (.initial exampleGlobals) missedGetInfo := by
  decide +kernel

end Sicae
