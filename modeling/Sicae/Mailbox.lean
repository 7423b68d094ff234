import Sicae.Interleaving
import Sicae.SwitchCommand
import Sicae.Transition

/-! # The mailbox `urlSection`

The dispatcher hands a switch command to the processing task through one buffer and one flag:
it copies every section with status true into `urlSection`, whatever its kind, and sets
SETNEWDEVICEDATA for those that start with `set/devices/`.  The task clears the flag and works
on what the buffer holds at that moment.  A state keeps the switch commands received since the
last execution on record, and an execution is right when exactly the command in the buffer is
waiting (`ExecutedAsReceived`).

Neither side asks whether the buffer is free, so every command is executed once and as received
exactly if no section at all is dispatched while a command is waiting. -/

namespace Sicae

open CString Transition

/-! ### The two parties -/

/-- The section of a poll answer with status true, which fits the 80 bytes of `urlSection`. -/
structure ReceivedSection where
  text : CStr
  length_le : text.length ≤ 79

/-- The globals, the position of the processing task, and the switch commands dispatched since
its last execution of one, in order. -/
structure MailboxState where
  globals : Globals
  pc : Pc
  waiting : List CStr := []

/-- The dispatch of a section by the polling task, the handling of any other answer, and a step
of the processing task. -/
inductive MailboxAct where
  | dispatch (received : ReceivedSection)
  | finish (answer : OtherAnswer)
  | process (io : Io)

/-- A section for which SETNEWDEVICEDATA is set. -/
def IsSwitch (s : CStr) : Prop := "set/devices/".toList <+: s

instance (s : CStr) : Decidable (IsSwitch s) := inferInstanceAs (Decidable (_ <+: _))

/-- The next step of the processing task enters its SETNEWDEVICEDATA branch. -/
def MailboxState.Executes (s : MailboxState) : Prop :=
  s.pc = .set ∧ s.globals.flags.setNewDeviceData = true

instance (s : MailboxState) : Decidable s.Executes := inferInstanceAs (Decidable (_ ∧ _))

/-- One step of one of the parties. -/
def mailboxStep (s : MailboxState) : MailboxAct → Option MailboxState
  | .dispatch received =>
      some { s with
        globals := dispatched received.text s.globals
        waiting := if IsSwitch received.text then s.waiting ++ [received.text] else s.waiting }
  | .finish answer =>
      some { s with globals := (handleAnswer answer.env answer.route answer.json s.globals).1 }
  | .process io =>
      some {
        globals := (processStep io s.pc s.globals).2
        pc := (processStep io s.pc s.globals).1
        waiting := if s.Executes then [] else s.waiting }

/-- No command is waiting; the task stands anywhere. -/
def MailboxState.initial (g : Globals) (pc : Pc) : MailboxState where
  globals := setDeviceStart g
  pc := pc

/-- Where the SETNEWDEVICEDATA branch is executed, the one command waiting is the text in the
buffer. -/
def ExecutedAsReceived (s : MailboxState) : MailboxAct → Prop
  | .process _ => s.Executes → s.waiting = [s.globals.urlSection]
  | _ => True

/-- The condition on a step: a section is dispatched only while no command is waiting. -/
def DispatchedWhenFree (s : MailboxState) : MailboxAct → Prop
  | .dispatch _ => s.globals.flags.setNewDeviceData = false
  | _ => True

/-! ### What the parties do to the mailbox -/

theorem dispatchSection_other {s : CStr} {f : Flags} (h : ¬ IsSwitch s) :
    (dispatchSection s f).setNewDeviceData = f.setNewDeviceData := by
  have hno : "set/".toList <+: s → ¬ "devices/".toList <+: s.drop 4 := by
    rintro ⟨r, rfl⟩ ⟨r', hr⟩
    apply h
    refine ⟨r', ?_⟩
    have hdrop : ("set/".toList ++ r).drop 4 = r := rfl
    rw [hdrop] at hr
    rw [← hr]
    rfl
  unfold dispatchSection
  split_ifs with h1 h2
  · exact absurd h2 (hno h1)
  all_goals rfl

/-- The flag after a dispatch. -/
theorem dispatched_setNewDeviceData (s : CStr) (g : Globals) :
    (dispatched s g).flags.setNewDeviceData =
      (decide (IsSwitch s) || g.flags.setNewDeviceData) := by
  show (dispatchSection s g.flags).postTest.setNewDeviceData = _
  rw [Flags.postTest_setNewDeviceData]
  by_cases h : IsSwitch s
  · rw [dispatchSection_setDevices h, decide_eq_true h, Bool.true_or]
  · rw [dispatchSection_other h, decide_eq_false h, Bool.false_or]

theorem dispatched_urlSection (r : ReceivedSection) (g : Globals) :
    (dispatched r.text g).urlSection = r.text :=
  snprintf_of_length_lt (Nat.lt_succ_of_le r.length_le)

/-- The processing task clears the flag in its SETNEWDEVICEDATA branch only. -/
theorem processStep_setNewDeviceData (io : Io) (pc : Pc) (g : Globals) :
    (processStep io pc g).2.flags.setNewDeviceData =
      (g.flags.setNewDeviceData && decide (pc ≠ .set)) := by
  obtain ⟨b, hb⟩ := processStep_flags io pc g
  rw [hb]
  show (flagsAfter io pc g).setNewDeviceData = _
  cases pc with
  | set => exact (Bool.and_false _).symm
  | cleared =>
      rw [flagsAfter]
      split_ifs <;> exact (Bool.and_true _).symm
  | info | inInfo | devices | inDevices | current | inCurrent | inSet | post | clearing =>
      exact (Bool.and_true _).symm

/-- Outside that branch the processing task does not touch the buffer. -/
theorem processStep_urlSection {io : Io} {pc : Pc} {g : Globals}
    (h : ¬ (pc = .set ∧ g.flags.setNewDeviceData = true)) :
    (processStep io pc g).2.urlSection = g.urlSection := by
  cases pc with
  | set =>
      have hclear : ¬ g.flags.setNewDeviceData = true := fun hf => h ⟨rfl, hf⟩
      rw [processStep, setStep, if_neg hclear]
  | devices =>
      rw [processStep]
      split_ifs
      · rw [fetchDevicesStart_eq]
      · rfl
  | info | current | post =>
      rw [processStep]
      split_ifs <;> rfl
  | cleared =>
      obtain ⟨b, menu, lcd, he⟩ := postEnd_eq io.menuAllocated
        (if (io.reply .clearNewData).status = some 200 then clearFlags g else g)
      rw [processStep, he]
      split_ifs <;> rfl
  | inInfo | inDevices | inCurrent | inSet | clearing => rfl

/-! ### Commands in a free mailbox -/

/-- The flag is set exactly while one command is waiting, and that is in the buffer. -/
def OneWaiting (s : MailboxState) : Prop :=
  if s.globals.flags.setNewDeviceData then
    s.waiting = [s.globals.urlSection] ∧ IsSwitch s.globals.urlSection
  else s.waiting = []

/-- The flag is set, and what is in the buffer is not the one command waiting. -/
structure Mixed (s : MailboxState) : Prop where
  pending : s.globals.flags.setNewDeviceData = true
  waiting : ∀ t ∈ s.waiting, IsSwitch t
  nonempty : s.waiting ≠ []
  ne_buffer : s.waiting ≠ [s.globals.urlSection]

section
variable {s s' : MailboxState}

theorem oneWaiting_of_clear (hf : s.globals.flags.setNewDeviceData = false)
    (hw : s.waiting = []) : OneWaiting s := by
  rw [OneWaiting, hf]
  exact hw

theorem oneWaiting_of_set (hf : s.globals.flags.setNewDeviceData = true)
    (hw : s.waiting = [s.globals.urlSection]) (hu : IsSwitch s.globals.urlSection) :
    OneWaiting s := by
  rw [OneWaiting, hf]
  exact ⟨hw, hu⟩

/-- A step that changes neither the flag, nor the buffer, nor what is waiting. -/
theorem oneWaiting_congr (h : OneWaiting s)
    (hf : s'.globals.flags.setNewDeviceData = s.globals.flags.setNewDeviceData)
    (hu : s'.globals.urlSection = s.globals.urlSection) (hw : s'.waiting = s.waiting) :
    OneWaiting s' := by
  rw [OneWaiting, hf, hu, hw]
  exact h

theorem mixed_congr (h : Mixed s)
    (hf : s'.globals.flags.setNewDeviceData = s.globals.flags.setNewDeviceData)
    (hu : s'.globals.urlSection = s.globals.urlSection) (hw : s'.waiting = s.waiting) :
    Mixed s' where
  pending := hf.trans h.pending
  waiting := by rw [hw]; exact h.waiting
  nonempty := by rw [hw]; exact h.nonempty
  ne_buffer := by rw [hw, hu]; exact h.ne_buffer

/-- A step of the processing task that executes no command. -/
theorem process_same {io : Io} (he : ¬ s.Executes)
    (hstep : mailboxStep s (.process io) = some s') :
    s'.globals.flags.setNewDeviceData = s.globals.flags.setNewDeviceData ∧
      s'.globals.urlSection = s.globals.urlSection ∧ s'.waiting = s.waiting := by
  obtain rfl := Option.some.inj hstep
  refine ⟨?_, processStep_urlSection he, if_neg he⟩
  rw [processStep_setNewDeviceData]
  by_cases hpc : s.pc = .set
  · have hclear : s.globals.flags.setNewDeviceData = false :=
      Bool.eq_false_iff.mpr (fun hf => he ⟨hpc, hf⟩)
    rw [hclear, Bool.false_and]
  · rw [decide_eq_true hpc, Bool.and_true]

/-- A dispatch into the free mailbox, and any other step, keeps at most one command waiting and
executes what was received. -/
theorem mailboxStep_oneWaiting {a : MailboxAct} (h : OneWaiting s) (hfree : DispatchedWhenFree s a)
    (hstep : mailboxStep s a = some s') : ExecutedAsReceived s a ∧ OneWaiting s' := by
  cases a with
  | dispatch r =>
      obtain rfl := Option.some.inj hstep
      have hclear : s.globals.flags.setNewDeviceData = false := hfree
      have hw : s.waiting = [] := by
        rw [OneWaiting, hclear] at h
        exact h
      have hflag := dispatched_setNewDeviceData r.text s.globals
      refine ⟨trivial, ?_⟩
      by_cases hs : IsSwitch r.text
      · rw [decide_eq_true hs, Bool.true_or] at hflag
        refine oneWaiting_of_set hflag ?_ ?_
        · show (if IsSwitch r.text then s.waiting ++ [r.text] else s.waiting) = _
          rw [if_pos hs, hw, dispatched_urlSection]
          rfl
        · show IsSwitch (dispatched r.text s.globals).urlSection
          rw [dispatched_urlSection]
          exact hs
      · rw [decide_eq_false hs, Bool.false_or, hclear] at hflag
        refine oneWaiting_of_clear hflag ?_
        show (if IsSwitch r.text then s.waiting ++ [r.text] else s.waiting) = _
        rw [if_neg hs, hw]
  | finish answer =>
      obtain rfl := Option.some.inj hstep
      exact ⟨trivial, oneWaiting_congr h (handleAnswer_setNewDeviceData answer.isOther)
        (handleAnswer_urlSection answer.isOther) rfl⟩
  | process io =>
      by_cases he : s.Executes
      · have hw : s.waiting = [s.globals.urlSection] := by
          rw [OneWaiting, he.2] at h
          exact h.1
        refine ⟨fun _ => hw, ?_⟩
        obtain rfl := Option.some.inj hstep
        refine oneWaiting_of_clear ?_ (if_pos he)
        rw [processStep_setNewDeviceData, he.1, decide_eq_false (not_not_intro rfl), Bool.and_false]
      · obtain ⟨hf, hu, hw⟩ := process_same he hstep
        exact ⟨fun hx => absurd hx he, oneWaiting_congr h hf hu hw⟩

/-! ### A dispatch on top of a waiting command -/

/-- After a dispatch on top of waiting commands the buffer holds only the new section. -/
theorem mixed_dispatch {r : ReceivedSection} (hf : s.globals.flags.setNewDeviceData = true)
    (hall : ∀ t ∈ s.waiting, IsSwitch t) (hne : s.waiting ≠ [])
    (hstep : mailboxStep s (.dispatch r) = some s') : Mixed s' := by
  obtain rfl := Option.some.inj hstep
  have hflag : (dispatched r.text s.globals).flags.setNewDeviceData = true := by
    rw [dispatched_setNewDeviceData, hf, Bool.or_true]
  by_cases hs : IsSwitch r.text
  · refine ⟨hflag, ?_, ?_, ?_⟩
    · intro t ht
      rw [if_pos hs] at ht
      rcases List.mem_append.mp ht with ht | ht
      · exact hall t ht
      · rw [List.mem_singleton.mp ht]
        exact hs
    · rw [if_pos hs]
      simp
    · rw [if_pos hs]
      intro he
      have hlen := congrArg List.length he
      rw [List.length_append, List.length_singleton, List.length_singleton] at hlen
      exact hne (List.length_eq_zero_iff.mp (by omega))
  · refine ⟨hflag, ?_, ?_, ?_⟩
    · rw [if_neg hs]
      exact hall
    · rw [if_neg hs]
      exact hne
    · rw [if_neg hs]
      intro he
      have hmem : (dispatched r.text s.globals).urlSection ∈ s.waiting := by
        rw [he]
        exact List.mem_singleton_self _
      rw [dispatched_urlSection] at hmem
      exact hs (hall _ hmem)

/-- Once mixed up, the mailbox stays so until a wrong execution. -/
theorem mailboxStep_mixed {a : MailboxAct} (h : Mixed s) (hp : ExecutedAsReceived s a)
    (hstep : mailboxStep s a = some s') : Mixed s' := by
  cases a with
  | dispatch r => exact mixed_dispatch h.pending h.waiting h.nonempty hstep
  | finish answer =>
      obtain rfl := Option.some.inj hstep
      exact mixed_congr h (handleAnswer_setNewDeviceData answer.isOther)
        (handleAnswer_urlSection answer.isOther) rfl
  | process io =>
      have he : ¬ s.Executes := fun he => h.ne_buffer (hp he)
      obtain ⟨hf, hu, hw⟩ := process_same he hstep
      exact mixed_congr h hf hu hw

theorem mailboxStep_mixes {a : MailboxAct} (h : OneWaiting s) (hno : ¬ DispatchedWhenFree s a)
    (hstep : mailboxStep s a = some s') : Mixed s' := by
  cases a with
  | dispatch r =>
      have hf : s.globals.flags.setNewDeviceData = true := by
        rw [← Bool.not_eq_false]
        exact hno
      rw [OneWaiting, hf] at h
      have hw : s.waiting = [s.globals.urlSection] := h.1
      refine mixed_dispatch hf ?_ ?_ hstep
      · rw [hw]
        exact List.forall_mem_singleton.mpr h.2
      · rw [hw]
        exact List.cons_ne_nil _ _
  | finish answer => exact absurd trivial hno
  | process io => exact absurd trivial hno

end

/-! ### The way to the execution -/

/-- The number of steps to the test of SETNEWDEVICEDATA, with all branches taken. -/
def Pc.toSet : Pc → ℕ
  | .set => 0
  | .inCurrent => 1
  | .current => 2
  | .inDevices => 3
  | .devices => 4
  | .inInfo => 5
  | .info => 6
  | .cleared => 7
  | .clearing => 8
  | .post => 9
  | .inSet => 10

/-- Away from that test the task comes closer to it. -/
theorem processStep_toSet {io : Io} {pc : Pc} {g : Globals} (h : pc ≠ .set) :
    (processStep io pc g).1.toSet < pc.toSet := by
  cases pc with
  | set => exact absurd rfl h
  | info | devices | current | post =>
      simp only [processStep]
      split_ifs <;> simp [Pc.toSet]
  | inInfo | inDevices | inCurrent | inSet | clearing | cleared => simp [processStep, Pc.toSet]

/-- The task alone gets to the test and clears the flag there. -/
theorem exists_run_to_clear (s : MailboxState) :
    ∃ (ios : List Io) (t : MailboxState), run mailboxStep s (ios.map MailboxAct.process) = some t ∧
      t.globals.flags.setNewDeviceData = false := by
  by_cases hpc : s.pc = .set
  · refine ⟨[exampleIo], _, rfl, ?_⟩
    rw [processStep_setNewDeviceData, hpc, decide_eq_false (not_not_intro rfl), Bool.and_false]
  · obtain ⟨s', hs'⟩ : ∃ s', mailboxStep s (.process exampleIo) = some s' := ⟨_, rfl⟩
    have hlt : s'.pc.toSet < s.pc.toSet := by
      obtain rfl := Option.some.inj hs'
      exact processStep_toSet hpc
    obtain ⟨ios, t, hr, ht⟩ := exists_run_to_clear s'
    exact ⟨exampleIo :: ios, t, run_cons_some.mpr ⟨s', hs', hr⟩, ht⟩
termination_by s.pc.toSet

theorem mailboxStep_total (s : MailboxState) (a : MailboxAct) :
    ∃ s', mailboxStep s a = some s' := by
  cases a with
  | dispatch r => exact ⟨_, rfl⟩
  | finish answer => exact ⟨_, rfl⟩
  | process io => exact ⟨_, rfl⟩

theorem exists_run (s : MailboxState) : ∀ as, ∃ t, run mailboxStep s as = some t := by
  intro as
  induction as generalizing s with
  | nil => exact ⟨s, rfl⟩
  | cons a as ih =>
      obtain ⟨s', hs'⟩ := mailboxStep_total s a
      obtain ⟨t, ht⟩ := ih s'
      exact ⟨t, run_cons_some.mpr ⟨s', hs', ht⟩⟩

/-- **Every command is executed once and as received**, however the task goes on alone after the
run, exactly if sections of any kind are dispatched only while no command is waiting. -/
theorem executedAsReceived_iff (g : Globals) (pc : Pc) (as : List MailboxAct) :
    (∀ ios : List Io, AllSteps mailboxStep ExecutedAsReceived (.initial g pc)
        (as ++ ios.map MailboxAct.process)) ↔
      AllSteps mailboxStep DispatchedWhenFree (.initial g pc) as := by
  obtain ⟨t, ht⟩ := exists_run (.initial g pc) as
  have hinit : OneWaiting (.initial g pc) := oneWaiting_of_clear rfl rfl
  have hfree : ∀ ios : List Io,
      AllSteps mailboxStep DispatchedWhenFree t (ios.map MailboxAct.process) := by
    intro ios
    refine .of_forall fun a ha s => ?_
    obtain ⟨io, -, rfl⟩ := List.mem_map.mp ha
    trivial
  constructor
  · intro h
    -- go on until the flag is clear: a mixed-up mailbox would have shown by then
    obtain ⟨ios, u, hu, hclear⟩ := exists_run_to_clear t
    have hrun : run mailboxStep (.initial g pc) (as ++ ios.map MailboxAct.process) = some u := by
      rw [run_append, ht]
      exact hu
    have hend : ¬ Mixed u := fun hm => by
      have := hm.pending
      rw [hclear] at this
      cases this
    have hiff := allSteps_iff_of_doomed (fun _ _ _ => mailboxStep_oneWaiting)
      (fun _ _ _ hi hno _ => mailboxStep_mixes hi hno) (fun _ _ _ => mailboxStep_mixed)
      hinit hrun hend
    exact ((allSteps_append ht).mp (hiff.mp (h ios))).1
  · intro h ios
    have hall := (allSteps_append ht).mpr ⟨h, hfree ios⟩
    obtain ⟨u, hu⟩ := exists_run (.initial g pc) (as ++ ios.map MailboxAct.process)
    exact allSteps_of_guarded (fun _ _ _ => mailboxStep_oneWaiting) hinit hu hall

/-! ### Two commands within one HTTP call -/

/-- `set/devices/0/status/true`. -/
def firstSwitch : ReceivedSection := ⟨switchText "0".toList true, by decide⟩

/-- `set/devices/1/status/true`. -/
def secondSwitch : ReceivedSection := ⟨switchText "1".toList true, by decide⟩

/-- Both arrive while the processing task is in the upload of a current. -/
def twoInUpload : List MailboxAct :=
  [.dispatch firstSwitch, .dispatch secondSwitch, .process exampleIo]

/-- The first command is lost: the task finds only the second one. -/
theorem twoInUpload_loses :
    ¬ ∀ ios : List Io, AllSteps mailboxStep ExecutedAsReceived (.initial exampleGlobals .inCurrent)
      (twoInUpload ++ ios.map MailboxAct.process) := by
  intro h
  obtain ⟨-, h1⟩ := h [exampleIo]
  obtain ⟨-, h2⟩ := h1 _ rfl
  obtain ⟨-, h3⟩ := h2 _ rfl
  obtain ⟨hexec, -⟩ := h3 _ rfl
  have hone := congrArg List.length (hexec ⟨rfl, by decide +kernel⟩)
  exact absurd hone (by decide +kernel)

end Sicae
