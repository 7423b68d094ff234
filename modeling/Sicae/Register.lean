import Sicae.Interleaving
import Sicae.Transition

/-! # The node `newData` as a register

Three parties work on one node of the cloud: the web app writes a section with status true, the
polling task reads the node and dispatches the section, and the clear of the processing task
overwrites it with the empty section.  Each request takes effect at the cloud in one step, and
the steps of the parties interleave freely.

The clear is unconditional and is triggered by flags that outlive the poll that raised them, so
it may hit a command that no poll has read.  It cannot if the web app writes only while the
device is quiet (`Quiet`); a command written at any other moment can be lost
(`write_can_be_lost`). -/

namespace Sicae

open CString Transition

/-! ### The parties -/

/-- A value of the node; `write` numbers the writes of the web app. -/
structure Node where
  sectionValue : CStr
  status : Bool
  write : ℕ

/-- The body of the answer to a poll that reads this value. -/
def Node.json (n : Node) : Json :=
  .object [("section".toList, .string n.sectionValue), ("status".toList, .bool n.status)]

/-- The value written by `clear_new_data_section`. -/
def Node.cleared (n : Node) : Node := { n with sectionValue := [], status := false }

/-- The device, the node, the value read by a poll whose answer has not been handled yet, and on
record the writes dispatched and the commands that a clear has overwritten before that. -/
structure RegisterState where
  globals : Globals
  pc : Pc
  node : Node
  writes : ℕ
  fetched : Option Node := none
  seen : List ℕ := []
  erased : List Node := []

/-- A write of the web app, the two halves of a poll, any answer that is no command (from
another endpoint, or the echo of a clear), and a step of the processing task, whose PUT may get
lost. -/
inductive RegisterAct where
  | webWrite (sectionValue : CStr)
  | get
  | dispatch
  | finish (env : Env) (r : Route) (json : Option Json)
  | process (io : Io) (arrives : Bool)

/-- The node holds a command that no poll has dispatched. -/
def RegisterState.Unseen (s : RegisterState) : Prop :=
  s.node.status = true ∧ s.node.write ∉ s.seen

instance (s : RegisterState) : Decidable s.Unseen := inferInstanceAs (Decidable (_ ∧ _))

/-- The PUT of a clear takes effect. -/
def RegisterState.clear (s : RegisterState) : RegisterState :=
  { s with
    node := s.node.cleared
    erased := if s.Unseen then s.node :: s.erased else s.erased }

/-- The answer to a poll is handled. -/
def RegisterState.dispatch (s : RegisterState) (n : Node) : RegisterState :=
  { s with
    globals := postNoNewDataTest (newDataBranch n.json s.globals)
    fetched := none
    seen := if n.status then n.write :: s.seen else s.seen }

/-- A step of the processing task. -/
def RegisterState.process (s : RegisterState) (io : Io) : RegisterState :=
  { s with pc := (processStep io s.pc s.globals).1, globals := (processStep io s.pc s.globals).2 }

/-- One step of one of the parties. -/
def registerStep (s : RegisterState) : RegisterAct → Option RegisterState
  | .webWrite sectionValue =>
      some { s with node := ⟨sectionValue, true, s.writes⟩, writes := s.writes + 1 }
  | .get => if s.fetched.isNone then some { s with fetched := some s.node } else none
  | .dispatch => s.fetched.map s.dispatch
  | .finish env r json =>
      if (commandSection r json).isSome then none
      else some { s with globals := (handleAnswer env r json s.globals).1 }
  | .process io arrives =>
      some (if s.pc = .clearing ∧ arrives then s.clear.process io else s.process io)

/-- Power-up: the node holds some value, and nothing has happened yet. -/
def RegisterState.initial (g : Globals) (sectionValue : CStr) (status : Bool) : RegisterState where
  globals := { g with flags := {} }
  pc := .info
  node := ⟨sectionValue, status, 0⟩
  writes := 1

/-- No command has been overwritten before it was dispatched. -/
def NothingErased (s : RegisterState) : Prop := s.erased = []

/-! ### Quiet states -/

/-- A value whose dispatch raises a flag that triggers a clear. -/
def Node.Raising (n : Node) : Prop := n.status = true ∧ raises n.sectionValue = true

/-- No request flag is set, no clear is due or under way, and no answer that would raise such a
flag is on its way. -/
def Quiet (s : RegisterState) : Prop :=
  Calm s.pc s.globals.flags ∧ ∀ n, s.fetched = some n → ¬ n.Raising

/-- The condition on a step: the web app writes only in quiet states. -/
def WritesQuietly (s : RegisterState) : RegisterAct → Prop
  | .webWrite _ => Quiet s
  | _ => True

/-- While a command is unseen the device is calm, and only that command itself is on its way. -/
structure Protected (s : RegisterState) : Prop where
  calm : s.Unseen → Calm s.pc s.globals.flags
  fetched : s.Unseen → ∀ n, s.fetched = some n → n.Raising → n.write = s.node.write
  erased : NothingErased s

section
variable {s s' : RegisterState} {n : Node}

/-- The flags after the handling of an answer to a poll. -/
theorem dispatch_flags :
    (s.dispatch n).globals.flags.requestPending =
        (s.globals.flags.requestPending || (n.status && raises n.sectionValue)) ∧
      (s.dispatch n).globals.flags.postNoNewData =
        (s.globals.flags.postNoNewData || (s.globals.flags.requestPending ||
          (n.status && raises n.sectionValue))) := by
  cases hs : n.status with
  | false =>
      have hj : Json.isTrueBool (n.json.getObjectItem "status".toList) = false := hs
      have hflags : (s.dispatch n).globals.flags = s.globals.flags.postTest := by
        simp only [RegisterState.dispatch, newDataBranch, hj]
        rfl
      rw [hflags, requestPending_postTest, Flags.postTest_eq, Bool.false_and, Bool.or_false]
      exact ⟨rfl, rfl⟩
  | true =>
      have hj : n.json.getObjectItem "status".toList = some (.bool true) :=
        congrArg (fun b => some (Json.bool b)) hs
      have hflags : (s.dispatch n).globals.flags =
          (dispatchSection n.sectionValue s.globals.flags).postTest := by
        rw [RegisterState.dispatch, newDataBranch_dispatched hj rfl, dispatched]
      rw [hflags, requestPending_postTest, Flags.postTest_eq, requestPending_dispatchSection,
        Bool.true_and]
      exact ⟨rfl, by rw [postNoNewData_dispatchSection]⟩

/-- The dispatch of an answer that raises no flag leaves a calm device calm. -/
theorem dispatch_calm (h : Calm s.pc s.globals.flags) (hn : ¬ n.Raising) :
    Calm s.pc (s.dispatch n).globals.flags := by
  obtain ⟨hr, hp, hset, hclear⟩ := h
  have hraise : (n.status && raises n.sectionValue) = false := by
    rw [Bool.eq_false_iff, Ne, Bool.and_eq_true]
    exact hn
  obtain ⟨h1, h2⟩ := dispatch_flags (s := s) (n := n)
  rw [hr, hraise] at h1
  rw [hr, hp, hraise] at h2
  exact ⟨h1, h2, hset, hclear⟩

/-! ### Nothing is erased by quiet writes -/

theorem dispatch_seen :
    (s.dispatch n).seen = if n.status then n.write :: s.seen else s.seen := rfl

/-- A command that is unseen after a dispatch was so before, and is not the one dispatched. -/
theorem unseen_of_dispatch (h : (s.dispatch n).Unseen) :
    s.Unseen ∧ (n.status = true → n.write ≠ s.node.write) := by
  obtain ⟨hstatus, hseen⟩ := h
  rw [dispatch_seen] at hseen
  split_ifs at hseen with hs
  · exact ⟨⟨hstatus, fun hm => hseen (List.mem_cons_of_mem _ hm)⟩,
      fun _ he => hseen (he ▸ List.mem_cons_self)⟩
  · exact ⟨⟨hstatus, hseen⟩, fun h => absurd h hs⟩

theorem protected_dispatch (h : Protected s) (hf : s.fetched = some n) :
    Protected (s.dispatch n) where
  calm hu := by
    obtain ⟨hu', hne⟩ := unseen_of_dispatch hu
    exact @dispatch_calm s n (h.calm hu') fun hr => hne hr.1 (h.fetched hu' n hf hr)
  fetched _ m hm := by
    have hnone : (s.dispatch n).fetched = none := rfl
    rw [hnone] at hm
    cases hm
  erased := h.erased

theorem protected_process (h : Protected s) (io : Io) : Protected (s.process io) where
  calm hu := processStep_calm (h.calm hu)
  fetched hu := h.fetched hu
  erased := h.erased

theorem protected_clear (h : Protected s) (hpc : s.pc = .clearing) : Protected s.clear where
  calm hu := by cases hu.1
  fetched hu := by cases hu.1
  erased := by
    have hu : ¬ s.Unseen := fun hu => (h.calm hu).2.2.2 hpc
    rw [NothingErased, RegisterState.clear, if_neg hu]
    exact h.erased

/-- Every step keeps unseen commands protected, if the web app writes quietly. -/
theorem registerStep_protected {a : RegisterAct} (h : Protected s) (hq : WritesQuietly s a)
    (hstep : registerStep s a = some s') : Protected s' := by
  cases a with
  | webWrite sectionValue =>
      obtain rfl := Option.some.inj hstep
      exact ⟨fun _ => hq.1, fun _ m hm hr => absurd hr (hq.2 m hm), h.erased⟩
  | get =>
      simp only [registerStep] at hstep
      split_ifs at hstep
      obtain rfl := Option.some.inj hstep
      refine ⟨h.calm, fun _ m hm _ => ?_, h.erased⟩
      obtain rfl := Option.some.inj hm
      rfl
  | dispatch =>
      obtain ⟨n, hf, rfl⟩ := Option.map_eq_some_iff.mp hstep
      exact protected_dispatch h hf
  | finish env r json =>
      simp only [registerStep] at hstep
      split_ifs at hstep with hj
      obtain rfl := Option.some.inj hstep
      have hnone := Option.not_isSome_iff_eq_none.mp hj
      exact ⟨fun hu => handleAnswer_calm hnone (h.calm hu), h.fetched, h.erased⟩
  | process io arrives =>
      obtain rfl := Option.some.inj hstep
      split_ifs with hc
      · exact protected_process (protected_clear h hc.1) io
      · exact protected_process h io

theorem protected_initial (g : Globals) (sectionValue : CStr) (status : Bool) :
    Protected (.initial g sectionValue status) where
  calm _ := ⟨rfl, rfl, nofun, nofun⟩
  fetched _ n hn := by cases hn
  erased := rfl

/-- **No command is erased unseen** in a run in which the web app writes in quiet states only. -/
theorem nothingErased_of_writesQuietly (g : Globals) (sectionValue : CStr) (status : Bool)
    {as : List RegisterAct}
    (hq : AllSteps registerStep WritesQuietly (.initial g sectionValue status) as) :
    AllStates registerStep NothingErased (.initial g sectionValue status) as :=
  allStates_of_invariant (fun _ _ _ => registerStep_protected) (fun _ h => h.erased)
    (protected_initial g sectionValue status) hq

/-! ### Writes at other moments -/

/-- The step is a write of the web app. -/
def RegisterAct.isWebWrite : RegisterAct → Bool
  | .webWrite _ => true
  | _ => false

/-- Without a further write, some continuation erases a command unseen. -/
def CanErase (s : RegisterState) : Prop :=
  ∃ as t, (∀ a ∈ as, a.isWebWrite = false) ∧ run registerStep s as = some t ∧ ¬ NothingErased t

theorem canErase_of_step {a : RegisterAct} (ha : a.isWebWrite = false)
    (hstep : registerStep s a = some s') (h : CanErase s') : CanErase s := by
  obtain ⟨as, t, has, hr, ht⟩ := h
  exact ⟨a :: as, t, List.forall_mem_cons.mpr ⟨ha, has⟩, run_cons_some.mpr ⟨s', hstep, hr⟩, ht⟩

/-- A clear under way erases an unseen command. -/
theorem canErase_of_clearing (hu : s.Unseen) (hpc : s.pc = .clearing) : CanErase s := by
  refine ⟨[.process exampleIo true], s.clear.process exampleIo, by simp [RegisterAct.isWebWrite],
    ?_, ?_⟩
  · rw [run_cons_some]
    exact ⟨_, congrArg some (if_pos ⟨hpc, rfl⟩), rfl⟩
  · have h : (s.clear.process exampleIo).erased = s.node :: s.erased := if_pos hu
    rw [NothingErased, h]
    exact List.cons_ne_nil _ _

theorem registerStep_process (hpc : s.pc ≠ .clearing) :
    registerStep s (.process exampleIo false) = some (s.process exampleIo) :=
  congrArg some (if_neg (fun h => hpc h.1))

/-- Once POSTNONEWDATA is set, the task comes to a clear. -/
theorem canErase_of_postNoNewData {s : RegisterState} (hu : s.Unseen)
    (hp : s.globals.flags.postNoNewData = true) : CanErase s := by
  by_cases hclear : s.pc = .clearing
  · exact canErase_of_clearing hu hclear
  · refine canErase_of_step rfl (registerStep_process hclear) ?_
    by_cases hpost : s.pc = .post
    · refine canErase_of_clearing hu ?_
      simp only [RegisterState.process, hpost, processStep, hp, ↓reduceIte]
    · have hlt := @processStep_toPost exampleIo s.pc s.globals hpost
      exact canErase_of_postNoNewData (s := s.process exampleIo) hu
        (processStep_postNoNewData hpost (by decide) hp)
termination_by s.pc.toPost

/-- A pending request makes the next answer set it. -/
theorem canErase_of_requestPending (hu : s.Unseen)
    (hr : s.globals.flags.requestPending = true) : CanErase s := by
  refine canErase_of_step (a := .finish zeroedHeap .unknown none) rfl rfl ?_
  refine canErase_of_postNoNewData hu ?_
  show s.globals.flags.postTest.postNoNewData = true
  rw [Flags.postTest_eq, hr]
  exact Bool.or_true _

/-- In a state that is not quiet, an unseen command can be erased, if it is not itself on its way
to the device. -/
theorem canErase_of_not_quiet (hu : s.Unseen) (hq : ¬ Quiet s)
    (hw : ∀ n, s.fetched = some n → n.write ≠ s.node.write) : CanErase s := by
  by_cases hr : s.globals.flags.requestPending = true
  · exact canErase_of_requestPending hu hr
  by_cases hp : s.globals.flags.postNoNewData = true
  · exact canErase_of_postNoNewData hu hp
  by_cases hclear : s.pc = .clearing
  · exact canErase_of_clearing hu hclear
  by_cases hset : s.pc = .inSet
  · refine canErase_of_step rfl (registerStep_process hclear) ?_
    refine canErase_of_postNoNewData hu ?_
    rw [RegisterState.process, hset]
    rfl
  · have hcalm : Calm s.pc s.globals.flags :=
      ⟨Bool.eq_false_iff.mpr hr, Bool.eq_false_iff.mpr hp, hset, hclear⟩
    obtain ⟨n, hf, hn⟩ : ∃ n, s.fetched = some n ∧ n.Raising := by
      by_contra hno
      exact hq ⟨hcalm, fun n hf hn => hno ⟨n, hf, hn⟩⟩
    refine canErase_of_step (a := .dispatch) rfl (congrArg (Option.map s.dispatch) hf) ?_
    refine canErase_of_requestPending ⟨hu.1, ?_⟩ ?_
    · rw [dispatch_seen, hn.1]
      exact fun hm => (List.mem_cons.mp hm).elim (fun he => hw n hf he.symm) hu.2
    · rw [dispatch_flags.1, hn.1, hn.2]
      exact Bool.or_true _

/-- The numbers of all values around are those of writes that have been made. -/
structure Numbered (s : RegisterState) : Prop where
  node : s.node.write < s.writes
  fetched : ∀ n, s.fetched = some n → n.write < s.writes
  seen : ∀ i ∈ s.seen, i < s.writes

theorem registerStep_numbered {a : RegisterAct} (h : Numbered s)
    (hstep : registerStep s a = some s') : Numbered s' := by
  cases a with
  | webWrite sectionValue =>
      obtain rfl := Option.some.inj hstep
      exact ⟨Nat.lt_succ_self _, fun n hn => Nat.lt_succ_of_lt (h.fetched n hn),
        fun i hi => Nat.lt_succ_of_lt (h.seen i hi)⟩
  | get =>
      simp only [registerStep] at hstep
      split_ifs at hstep
      obtain rfl := Option.some.inj hstep
      exact ⟨h.node, fun n hn => Option.some.inj hn ▸ h.node, h.seen⟩
  | dispatch =>
      obtain ⟨n, hf, rfl⟩ := Option.map_eq_some_iff.mp hstep
      refine ⟨h.node, fun m hm => ?_, fun i hi => ?_⟩
      · have hnone : (s.dispatch n).fetched = none := rfl
        rw [hnone] at hm
        cases hm
      · rw [dispatch_seen] at hi
        split_ifs at hi
        · exact (List.mem_cons.mp hi).elim (fun he => he ▸ h.fetched n hf) (h.seen i)
        · exact h.seen i hi
  | finish env r json =>
      simp only [registerStep] at hstep
      split_ifs at hstep
      obtain rfl := Option.some.inj hstep
      exact ⟨h.node, h.fetched, h.seen⟩
  | process io arrives =>
      obtain rfl := Option.some.inj hstep
      split_ifs
      · exact ⟨h.node, h.fetched, h.seen⟩
      · exact ⟨h.node, h.fetched, h.seen⟩

theorem numbered_initial (g : Globals) (first : CStr) (status : Bool) :
    Numbered (.initial g first status) where
  node := Nat.zero_lt_one
  fetched n hn := by cases hn
  seen i hi := by cases hi

/-- A command written in a reachable state that is not quiet can be erased unseen, without any
further write: no weaker condition on the writes is enough. -/
theorem write_can_be_lost {g : Globals} {first : CStr} {status : Bool}
    (h : Reaches registerStep (.initial g first status) s) (hq : ¬ Quiet s) (sectionValue : CStr) :
    ∃ s', registerStep s (.webWrite sectionValue) = some s' ∧ CanErase s' := by
  have hn : Numbered s := reaches_invariant (fun _ _ _ => registerStep_numbered)
    (numbered_initial g first status) h
  refine ⟨_, rfl, canErase_of_not_quiet ⟨rfl, ?_⟩ hq ?_⟩
  · exact fun hm => lt_irrefl _ (hn.seen _ hm)
  · exact fun n hf he => absurd (hn.fetched n hf) (by rw [he]; exact lt_irrefl _)

end

/-! ### A command overrun by a clear -/

/-- One pass of the processing task from the top of its loop through the get/info branch, up to
the effect of its PUT. -/
def infoPass : List RegisterAct :=
  List.replicate 6 (.process exampleIo false) ++ [.process exampleIo true]

/-- A command get/info is written and served with nothing else going on. -/
def servedInfo : List RegisterAct :=
  .webWrite "get/info".toList :: .get :: .dispatch :: infoPass

/-- Here the next command is written right after the dispatch of the first. -/
def overrun : List RegisterAct :=
  [.webWrite "get/info".toList, .get, .dispatch, .webWrite "get/devices".toList] ++ infoPass

theorem nothingErased_servedInfo :
    AllStates registerStep NothingErased (.initial exampleGlobals [] false) servedInfo :=
  nothingErased_of_writesQuietly exampleGlobals [] false
    ⟨⟨⟨rfl, rfl, nofun, nofun⟩, fun n hn => by cases hn⟩, fun _ _ => .of_forall (by
      intro a ha s
      rcases List.mem_cons.mp ha with rfl | ha
      · trivial
      rcases List.mem_cons.mp ha with rfl | ha
      · trivial
      rcases List.mem_append.mp ha with ha | ha
      · rw [List.eq_of_mem_replicate ha]
        trivial
      · rw [List.mem_singleton.mp ha]
        trivial)⟩

theorem run_overrun :
    (run registerStep (.initial exampleGlobals [] false) overrun).map
      (fun s => s.erased.map Node.sectionValue) = some ["get/devices".toList] := by
  decide +kernel

/-- The second command is overwritten although no poll has read it. -/
theorem overrun_erases :
    ¬ AllStates registerStep NothingErased (.initial exampleGlobals [] false) overrun := by
  intro h
  obtain ⟨t, ht, he⟩ := Option.map_eq_some_iff.mp run_overrun
  rw [(h.last ht : t.erased = [])] at he
  cases he

end Sicae
