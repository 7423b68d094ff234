import Sicae.MenuSelection
import Sicae.Tasks
import Sicae.Transition

/-! # The upload of a local toggle

The menu action toggles the relay at `currentDeviceIndex` and creates a `firebase_update_task`,
which takes no argument: when it runs it reads `currentDeviceIndex` and the state again, and sends
the negated state.  Actions, measurements and runs of the created tasks interleave freely here.

A task sends the right PATCH exactly when at its run the index is that of its device and the
state is the opposite of the one its toggle left (`PatchFits`).  So the task of the last toggle
never does, and in a run in which all tasks have run some PATCH is wrong as soon as there was a
toggle (`no_toggle_of_complete`). -/

namespace Sicae

open CString Transition

/-! ### The interleavings -/

/-- A created `firebase_update_task`: the device and the state that its toggle left, and the
PATCH it has sent once it has run. -/
structure Upload where
  device : ℕ
  state : Bool
  patch : Option Request := none

/-- The globals and the tasks created so far, newest first. -/
structure Uploads where
  globals : Globals
  created : List Upload

/-- A menu action, the run of the `j`-th task, the end of a measurement of entry `i`. -/
inductive UploadAct where
  | action
  | runTask (j : ℕ) (env : Env) (reply : Reply)
  | measure (i : ℕ) (current : ℚ)

/-- The tasks after a menu action. -/
def createdBy (g : Globals) (created : List Upload) : List Upload :=
  match relay? g g.currentDeviceIndex with
  | some d => { device := g.currentDeviceIndex, state := d.toggled.state } :: created
  | none => created

/-- One step.  A task runs once; a measurement ends a second after it found the entry to be a
relay that is switched on, so only the former is a condition here. -/
def uploadStep (parse : CStr → Option Json) (s : Uploads) : UploadAct → Option Uploads
  | .action => (deviceAction s.globals).map (fun g => ⟨g, createdBy s.globals s.created⟩)
  | .runTask j env reply =>
      match s.created[j]? with
      | some ⟨d, v, none⟩ => (firebaseUpdateTask parse env reply s.globals).map (fun g =>
          ⟨g, s.created.set j ⟨d, v, firebaseUpdateRequest s.globals⟩⟩)
      | _ => none
  | .measure i current =>
      (relay? s.globals i).map (fun _ => ⟨measured i current s.globals, s.created⟩)

/-! ### What the cloud should receive -/

/-- The task has not run, or it has sent device and state of its toggle. -/
def Upload.Right (u : Upload) : Prop :=
  u.patch = none ∨ u.patch = some (.updateDeviceStatus u.device u.state)

/-- The status that a PATCH sets for device `d`. -/
def patchFor (d : ℕ) (u : Upload) : Option Bool :=
  match u.patch with
  | some (.updateDeviceStatus n b) => if n = d then some b else none
  | _ => none

/-- The status of device `d` in the cloud when the PATCHes are applied in the order in which their
tasks were created. -/
def cloudStatus (created : List Upload) (d : ℕ) : Option Bool := created.findSome? (patchFor d)

/-- The state of entry `i`. -/
def state? (g : Globals) (i : ℕ) : Option Bool := (g.device? i).map Device.state

/-- Every PATCH is right, and when no task is pending the cloud agrees with the table for every
device toggled. -/
def UploadsOk (s : Uploads) : Prop :=
  (∀ u ∈ s.created, u.Right) ∧
  ((∀ u ∈ s.created, u.patch ≠ none) →
    ∀ u ∈ s.created, cloudStatus s.created u.device = state? s.globals u.device)

/-- The condition on a step, in the state before it. -/
def PatchFits (s : Uploads) : UploadAct → Prop
  | .runTask j _ _ => ∀ u, s.created[j]? = some u →
      s.globals.currentDeviceIndex = u.device ∧ state? s.globals u.device = some (!u.state)
  | .action | .measure _ _ => True

/-- Device and state of the toggle. -/
def Upload.toggle (u : Upload) : ℕ × Bool := (u.device, u.state)

/-- The last toggle of a device left the state that is in the table. -/
def LastToggle (s : Uploads) : Prop :=
  ∀ d v, (s.created.map Upload.toggle).lookup d = some v → state? s.globals d = some v

/-! ### The cloud after right PATCHes -/

theorem patchFor_of_right {u : Upload} (hr : u.Right) (hp : u.patch ≠ none) (d : ℕ) :
    patchFor d u = if u.device = d then some u.state else none := by
  rw [patchFor, hr.resolve_left hp]
  simp only [Nat.cast_inj]

/-- If all tasks have run and were right, the cloud holds what the last toggles left. -/
theorem cloudStatus_of_right : ∀ {created : List Upload},
    (∀ u ∈ created, u.Right) → (∀ u ∈ created, u.patch ≠ none) → ∀ d,
      cloudStatus created d = (created.map Upload.toggle).lookup d
  | [], _, _, _ => rfl
  | u :: created, hr, hp, d => by
      have ih := cloudStatus_of_right (fun u' h => hr u' (List.mem_cons_of_mem _ h))
        (fun u' h => hp u' (List.mem_cons_of_mem _ h)) d
      have hu := patchFor_of_right (hr u List.mem_cons_self) (hp u List.mem_cons_self) d
      rw [cloudStatus, List.findSome?_cons, hu, List.map_cons, Upload.toggle, List.lookup_cons]
      by_cases h : u.device = d
      · simp [h]
      · rw [if_neg h, beq_false_of_ne (Ne.symm h)]
        exact ih

theorem lookup_toggle_isSome {created : List Upload} {u : Upload} (h : u ∈ created) :
    ∃ v, (created.map Upload.toggle).lookup u.device = some v := by
  cases hl : (created.map Upload.toggle).lookup u.device with
  | some v => exact ⟨v, rfl⟩
  | none =>
      rw [List.lookup_eq_none_iff] at hl
      have := hl u.toggle (List.mem_map_of_mem h)
      simp [Upload.toggle] at this

/-- While the table shows the last toggles, right PATCHes are all that is needed. -/
theorem uploadsOk_iff {s : Uploads} (hl : LastToggle s) :
    UploadsOk s ↔ ∀ u ∈ s.created, u.Right := by
  refine ⟨fun h => h.1, fun h => ⟨h, fun hp u hu => ?_⟩⟩
  obtain ⟨v, hv⟩ := lookup_toggle_isSome hu
  rw [cloudStatus_of_right h hp, hv, hl _ _ hv]

/-! ### One step -/

section
variable {parse : CStr → Option Json} {s s' : Uploads}

/-- A task that runs leaves the table alone. -/
theorem firebaseUpdateTask_spec {env : Env} {reply : Reply} {g g' : Globals}
    (h : firebaseUpdateTask parse env reply g = some g') :
    (∀ i, state? g' i = state? g i) ∧
    ∃ b, state? g g.currentDeviceIndex = some b ∧
      firebaseUpdateRequest g = some (.updateDeviceStatus g.currentDeviceIndex (!b)) := by
  obtain ⟨r, hreq, rfl⟩ := Option.map_eq_some_iff.mp h
  obtain ⟨d, hd, rfl⟩ := Option.map_eq_some_iff.mp hreq
  have hp := @perform_passive parse env (.updateDeviceStatus g.currentDeviceIndex (!d.state)) reply
    g rfl (by simp)
  refine ⟨fun i => ?_, d.state, by rw [state?, hd]; rfl, hreq⟩
  rw [state?, hp.device?]
  rfl

/-- The action: either a task is created for the toggled relay, or nothing happens. -/
theorem uploadStep_action (h : uploadStep parse s .action = some s') :
    (∃ v, s'.created = ⟨s.globals.currentDeviceIndex, v, none⟩ :: s.created ∧
      ∀ i, state? s'.globals i =
        if i = s.globals.currentDeviceIndex then some v else state? s.globals i) ∨
    s' = s := by
  obtain ⟨g, hg, rfl⟩ := Option.map_eq_some_iff.mp h
  cases hd : relay? s.globals s.globals.currentDeviceIndex with
  | none =>
      right
      rw [createdBy, hd, deviceAction_other hd hg]
  | some d =>
      left
      rw [deviceAction_relay hd] at hg
      obtain rfl := Option.some.inj hg
      refine ⟨d.toggled.state, by rw [createdBy, hd], fun i => ?_⟩
      rw [state?, device?_toggleRelay (relay?_eq_some_iff.mp hd).1]
      split_ifs <;> rfl

/-- The run of a task: it was pending, and has now sent the negated state at the index. -/
theorem uploadStep_runTask {j : ℕ} {env : Env} {reply : Reply}
    (h : uploadStep parse s (.runTask j env reply) = some s') :
    ∃ d v b, s.created[j]? = some ⟨d, v, none⟩ ∧
      state? s.globals s.globals.currentDeviceIndex = some b ∧
      s'.created = s.created.set j
        ⟨d, v, some (.updateDeviceStatus s.globals.currentDeviceIndex (!b))⟩ ∧
      ∀ i, state? s'.globals i = state? s.globals i := by
  simp only [uploadStep] at h
  split at h
  · rename_i d v hj
    obtain ⟨g, hg, rfl⟩ := Option.map_eq_some_iff.mp h
    obtain ⟨hstate, b, hb, hreq⟩ := firebaseUpdateTask_spec hg
    exact ⟨d, v, b, hj, hb, by rw [hreq], hstate⟩
  · cases h

theorem uploadStep_measure {i : ℕ} {current : ℚ}
    (h : uploadStep parse s (.measure i current) = some s') :
    s'.created = s.created ∧ ∀ k, state? s'.globals k = state? s.globals k := by
  obtain ⟨d, -, rfl⟩ := Option.map_eq_some_iff.mp h
  exact ⟨rfl, fun k => rfl⟩

/-- Noting the PATCH of a task does not change its toggle. -/
theorem map_toggle_set {created : List Upload} {j d : ℕ} {v : Bool} {p p' : Option Request}
    (h : created[j]? = some ⟨d, v, p⟩) :
    (created.set j ⟨d, v, p'⟩).map Upload.toggle = created.map Upload.toggle := by
  obtain ⟨hj, he⟩ := List.getElem?_eq_some_iff.mp h
  have hj' : j < (created.map Upload.toggle).length := by rwa [List.length_map]
  have ht : (created.map Upload.toggle)[j] = (d, v) := by
    rw [List.getElem_map, he]
    rfl
  rw [List.map_set, Upload.toggle, ← ht, List.set_getElem_self]

/-- Every step keeps the table in line with the last toggles. -/
theorem uploadStep_lastToggle {a : UploadAct} (hl : LastToggle s)
    (h : uploadStep parse s a = some s') : LastToggle s' := by
  cases a with
  | action =>
      rcases uploadStep_action h with ⟨v, hcreated, hstate⟩ | rfl
      · intro d w hd
        rw [hcreated, List.map_cons, Upload.toggle, List.lookup_cons] at hd
        rw [hstate]
        by_cases hi : d = s.globals.currentDeviceIndex
        · simpa [hi] using hd
        · rw [if_neg hi]
          rw [beq_false_of_ne hi] at hd
          exact hl d w hd
      · exact hl
  | runTask j env reply =>
      obtain ⟨d, v, b, hj, -, hcreated, hstate⟩ := uploadStep_runTask h
      intro e w he
      rw [hcreated, map_toggle_set hj] at he
      rw [hstate]
      exact hl e w he
  | measure i current =>
      obtain ⟨hcreated, hstate⟩ := uploadStep_measure h
      intro e w he
      rw [hcreated] at he
      rw [hstate]
      exact hl e w he

/-- A step keeps the PATCHes right exactly when it fits. -/
theorem uploadStep_right_iff {a : UploadAct} (hr : ∀ u ∈ s.created, u.Right)
    (h : uploadStep parse s a = some s') : (∀ u ∈ s'.created, u.Right) ↔ PatchFits s a := by
  cases a with
  | action =>
      rw [PatchFits, iff_true]
      rcases uploadStep_action h with ⟨v, hcreated, -⟩ | rfl
      · rw [hcreated]
        exact List.forall_mem_cons.mpr ⟨Or.inl rfl, hr⟩
      · exact hr
  | runTask j env reply =>
      obtain ⟨d, v, b, hj, hb, hcreated, -⟩ := uploadStep_runTask h
      have hlt : j < s.created.length := (List.getElem?_eq_some_iff.mp hj).1
      have hfits : PatchFits s (.runTask j env reply) ↔
          s.globals.currentDeviceIndex = d ∧ state? s.globals d = some (!v) := by
        rw [PatchFits, hj]
        simp
      have hnew : Upload.Right ⟨d, v, some (.updateDeviceStatus s.globals.currentDeviceIndex (!b))⟩ ↔
          s.globals.currentDeviceIndex = d ∧ state? s.globals d = some (!v) := by
        simp only [Upload.Right, reduceCtorEq, false_or, Option.some.injEq,
          Request.updateDeviceStatus.injEq, Nat.cast_inj]
        refine and_congr_right ?_
        rintro rfl
        rw [hb, Option.some.injEq, Bool.not_eq_eq_eq_not]
      rw [hcreated, hfits, ← hnew]
      constructor
      · exact fun hall => hall _ (List.mem_set hlt _)
      · intro hu u hm
        rcases List.mem_or_eq_of_mem_set hm with hm | rfl
        · exact hr u hm
        · exact hu
  | measure i current =>
      rw [PatchFits, iff_true, (uploadStep_measure h).1]
      exact hr

/-! ### Runs -/

theorem lastToggle_nil (g : Globals) : LastToggle ⟨g, []⟩ := fun d v h => by simp at h

theorem uploadStep_uploadsOk {a : UploadAct} (hl : LastToggle s) (hok : UploadsOk s)
    (h : uploadStep parse s a = some s') : LastToggle s' ∧ (UploadsOk s' ↔ PatchFits s a) := by
  have hl' := uploadStep_lastToggle hl h
  exact ⟨hl', (uploadsOk_iff hl').trans (uploadStep_right_iff hok.1 h)⟩

/-- **Every toggle reaches the cloud as it happened** exactly if each task runs while the index
is that of its device and the device has been toggled back since. -/
theorem uploadsOk_iff_patchFits {g : Globals} {as : List UploadAct} {t : Uploads}
    (hr : run (uploadStep parse) ⟨g, []⟩ as = some t) :
    AllStates (uploadStep parse) UploadsOk ⟨g, []⟩ as ↔
      AllSteps (uploadStep parse) PatchFits ⟨g, []⟩ as :=
  allStates_iff_allSteps (J := LastToggle) (fun _ _ _ => uploadStep_uploadsOk)
    (lastToggle_nil g) ⟨by simp, by simp⟩ hr

/-- The newest task has not run. -/
def NewestPending (s : Uploads) : Prop := ∀ u, s.created[0]? = some u → u.patch = none

/-- A step that fits never runs the newest task: the table still shows its toggle. -/
theorem uploadStep_newestPending {a : UploadAct} (hl : LastToggle s) (hn : NewestPending s)
    (hf : PatchFits s a) (h : uploadStep parse s a = some s') : NewestPending s' := by
  cases a with
  | action =>
      rcases uploadStep_action h with ⟨v, hcreated, -⟩ | rfl
      · intro u hu
        rw [hcreated] at hu
        obtain rfl := Option.some.inj hu
        rfl
      · exact hn
  | runTask j env reply =>
      obtain ⟨d, v, b, hj, -, hcreated, -⟩ := uploadStep_runTask h
      have hne : j ≠ 0 := by
        rintro rfl
        have hhead : (s.created.map Upload.toggle).lookup d = some v := by
          cases hc : s.created with
          | nil => simp [hc] at hj
          | cons u created =>
              obtain rfl : u = ⟨d, v, none⟩ := by simpa [hc] using hj
              simp [Upload.toggle]
        have hfit := (hf _ hj).2
        rw [hl d v hhead] at hfit
        cases v <;> simp at hfit
      intro u hu
      rw [hcreated, List.getElem?_set_ne hne] at hu
      exact hn u hu
  | measure i current =>
      rw [NewestPending, (uploadStep_measure h).1]
      exact hn

/-- In a run whose steps all fit and which leaves no task pending there was no toggle. -/
theorem no_toggle_of_complete {g : Globals} {as : List UploadAct} {t : Uploads}
    (hr : run (uploadStep parse) ⟨g, []⟩ as = some t)
    (hf : AllSteps (uploadStep parse) PatchFits ⟨g, []⟩ as)
    (hc : ∀ u ∈ t.created, u.patch ≠ none) : t.created = [] := by
  have hinv : LastToggle t ∧ NewestPending t :=
    run_invariant (I := fun s => LastToggle s ∧ NewestPending s)
      (fun _ _ _ hi hfit hstep => ⟨uploadStep_lastToggle hi.1 hstep,
        uploadStep_newestPending hi.1 hi.2 hfit hstep⟩)
      ⟨lastToggle_nil g, fun u h => by simp at h⟩ hf hr
  cases ht : t.created with
  | nil => rfl
  | cons u created => exact absurd (hinv.2 u (by rw [ht]; rfl)) (hc u (by rw [ht]; simp))

end

/-! ### One toggle -/

/-- The example device with two relays that are off, and no task. -/
def twoRelaysIdle : Uploads := ⟨withTable twoRelays 0 exampleGlobals, []⟩

/-- The action on the first relay, and the run of its task right after it. -/
def toggleAndUpload : List UploadAct :=
  [.action, .runTask 0 zeroedHeap { chunks := [], status := none }]

theorem run_toggleAndUpload :
    (run (uploadStep (fun _ => none)) twoRelaysIdle toggleAndUpload).map
      (fun s => s.created.map (fun u => (u.device, u.state, u.patch))) =
      some [(0, true, some (.updateDeviceStatus 0 false))] := by
  decide +kernel

theorem uploadsOk_toggleAndUpload :
    AllStates (uploadStep (fun _ => none)) UploadsOk twoRelaysIdle toggleAndUpload ↔
      AllSteps (uploadStep (fun _ => none)) PatchFits twoRelaysIdle toggleAndUpload := by
  obtain ⟨t, ht, -⟩ := Option.map_eq_some_iff.mp run_toggleAndUpload
  exact uploadsOk_iff_patchFits ht

/-- The relay has been switched on, and the cloud is told that it is off. -/
theorem toggleAndUpload_wrong :
    ¬ AllStates (uploadStep (fun _ => none)) UploadsOk twoRelaysIdle toggleAndUpload := by
  intro h
  obtain ⟨t, ht, hc⟩ := Option.map_eq_some_iff.mp run_toggleAndUpload
  obtain ⟨u, hu, he⟩ := List.mem_map.mp (hc ▸ List.mem_singleton_self _)
  simp only [Prod.mk.injEq] at he
  have hr := (h.last ht).1 u hu
  rw [Upload.Right, he.1, he.2.1, he.2.2] at hr
  revert hr
  decide

end Sicae
