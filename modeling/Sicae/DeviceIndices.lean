import Sicae.DeviceTable
import Sicae.FailedRefresh
import Sicae.Transition

/-! # Indices into the device arrays

The loop of `read_acs712_task` runs over the device table and uses the same variable for
`device_currents`, an array of four floats; `currentDeviceIndex` keeps the index of the last
measurement and is used for both arrays later, in the menu action, in `firebase_update_task` and in
the SETCONSUMEDCURRENT branch.  The size of the table comes from the cloud, and the index outlives
the table it was taken from.

Here runs consist of whole refreshes and of single iterations of the other tasks.  The inputs of a
run alone, that is the arrays that the refreshes delivered and the levels that the loop read, say
which relays were read low, and at which positions (`Deliveries`).  An index is out of range exactly
when a relay from position 4 on is read low, or when the action or the upload starts while the
array of the last refresh does not reach up to the relay that was read low last (`inRange_iff`). -/

namespace Sicae

open CString Transition

/-! ### The steps -/

/-- A refresh of the table: the old one is freed, then the answer to the GET is handled.  Without
an answer, or with one that is not parsed, `answer` is `none`. -/
def refreshWith (env : Env) (answer : Option Json) (g : Globals) : Globals :=
  (handleAnswer env .devices answer (freeDevicesArray g)).1

/-- An iteration of the loop of `read_acs712_task` at index `i`, with the level that
`get_gpio_output_gpio_level` reads and the average of the current; the result holds the next
index, which is 0 after the end of the loop. -/
def acsIteration (level : ℤ) (current : ℚ) (i : ℕ) (g : Globals) : Option (ℕ × Globals) :=
  if i < g.deviceCount then
    match g.device? i with
    | none => none
    | some d =>
        if !d.isRelay then some (i + 1, g)
        else if level ≠ 0 then some (i + 1, g)
        else some (i + 1, measured i current g)
  else some (0, g)

/-- The iteration comes to the measurement. -/
def Measures (level : ℤ) (i : ℕ) (g : Globals) : Prop :=
  i < g.deviceCount ∧ (relay? g i).isSome = true ∧ level = 0

instance (level : ℤ) (i : ℕ) (g : Globals) : Decidable (Measures level i g) :=
  inferInstanceAs (Decidable (_ ∧ _ ∧ _))

/-- An iteration measures, or it leaves the globals alone. -/
theorem acsIteration_cases {level : ℤ} {current : ℚ} {i j : ℕ} {g g' : Globals}
    (h : acsIteration level current i g = some (j, g')) :
    Measures level i g ∧ g' = measured i current g ∨ ¬ Measures level i g ∧ g' = g := by
  unfold acsIteration at h
  by_cases hi : i < g.deviceCount
  · rw [if_pos hi] at h
    cases hd : g.device? i with
    | none =>
        rw [hd] at h
        cases h
    | some d =>
        rw [hd] at h
        cases hr : d.isRelay with
        | false =>
            have hnone : relay? g i = none := by
              rw [relay?, hd]
              simp [Option.filter, hr]
            simp only [hr, Bool.not_false, if_true, Option.some.injEq, Prod.mk.injEq] at h
            refine .inr ⟨fun hm => ?_, h.2.symm⟩
            have hsome := hm.2.1
            rw [hnone] at hsome
            cases hsome
        | true =>
            have hsome : relay? g i = some d := relay?_eq_some_iff.mpr ⟨hd, hr⟩
            by_cases hl : level = 0
            · simp only [hr, hl, Bool.not_true, Bool.false_eq_true, if_false, ne_eq, not_true,
                Option.some.injEq, Prod.mk.injEq] at h
              exact .inl ⟨⟨hi, by rw [hsome]; rfl, hl⟩, h.2.symm⟩
            · simp only [hr, hl, Bool.not_true, Bool.false_eq_true, if_false, ne_eq, not_false_eq_true,
                if_true, Option.some.injEq, Prod.mk.injEq] at h
              exact .inr ⟨fun hm => hl hm.2.2, h.2.symm⟩
  · rw [if_neg hi] at h
    obtain ⟨-, rfl⟩ := Prod.mk.inj (Option.some.inj h)
    exact .inr ⟨fun hm => hi hm.1, rfl⟩

/-- The index that the loop goes on with. -/
theorem acsIteration_fst {level : ℤ} {current : ℚ} {i : ℕ} {g : Globals} {r : ℕ × Globals}
    (h : acsIteration level current i g = some r) :
    r.1 = if i < g.deviceCount then i + 1 else 0 := by
  unfold acsIteration at h
  by_cases hi : i < g.deviceCount
  · rw [if_pos hi] at h ⊢
    split at h
    · cases h
    · split_ifs at h <;> exact congrArg Prod.fst (Option.some.inj h).symm
  · rw [if_neg hi] at h ⊢
    exact congrArg Prod.fst (Option.some.inj h).symm

/-- An entry that the loop passes exists. -/
theorem acsIteration_slot {level : ℤ} {current : ℚ} {i : ℕ} {g : Globals} {r : ℕ × Globals}
    (h : acsIteration level current i g = some r) (hi : i < g.deviceCount) :
    g.devices.isSome = true := by
  rw [acsIteration, if_pos hi] at h
  cases hd : g.devices with
  | none => simp [Globals.device?, hd] at h
  | some t => rfl

/-- A whole refresh, an iteration of the measuring loop, a menu action, a run of
`firebase_update_task`, the SETCONSUMEDCURRENT branch. -/
inductive IndexAct where
  | refresh (env : Env) (answer : Option Json)
  | acs (level : ℤ) (current : ℚ)
  | action
  | update (env : Env) (reply : Reply)
  | current (io : Io)

/-! ### What the inputs say -/

/-- The array of a refresh; it has no elements if there is none or its table cannot be allocated. -/
def deliveredArray (env : Env) : Option Json → List Json
  | some (.array items) => if (env.malloc items.length).isSome then items else []
  | _ => []

/-- The valid element of an array at a position is a relay. -/
def RelayAt (items : List Json) (i : ℕ) : Prop :=
  ((items.filterMap deviceData)[i]?).any (fun x => x.type == "relay".toList) = true

instance (items : List Json) (i : ℕ) : Decidable (RelayAt items i) :=
  inferInstanceAs (Decidable (_ = _))

/-- What the refreshes and the levels of a run say: the array of the last refresh, the position that
the measuring loop has come to in it, and the position of the relay that was read low last. -/
structure Deliveries where
  array : List Json := []
  position : ℕ := 0
  low : ℕ := 0

/-- A relay is read low. -/
def Deliveries.LowRelay (d : Deliveries) (level : ℤ) : Prop :=
  RelayAt d.array d.position ∧ level = 0

instance (d : Deliveries) (level : ℤ) : Decidable (d.LowRelay level) :=
  inferInstanceAs (Decidable (_ ∧ _))

/-- The next input. -/
def Deliveries.step (d : Deliveries) : IndexAct → Deliveries
  | .refresh env answer => { d with array := deliveredArray env answer }
  | .acs level _ =>
      { d with
        position := if d.position < d.array.length then d.position + 1 else 0
        low := if d.LowRelay level then d.position else d.low }
  | .action | .update _ _ | .current _ => d

/-! ### Runs -/

/-- The globals, the loop variable of `read_acs712_task`, and the instances of
`firebase_update_task` that have run; beside them, what the inputs so far say. -/
structure IndexState where
  globals : Globals
  i : ℕ := 0
  updates : ℕ := 0
  seen : Deliveries := {}

/-- What the firmware does in a step; an instance of `firebase_update_task` runs once, and a
suspended task makes no step. -/
def indexMove (parse : CStr → Option Json) (s : IndexState) : IndexAct → Option IndexState
  | .refresh env answer => some { s with globals := refreshWith env answer s.globals }
  | .acs level current =>
      if s.globals.tasks.acsReadSuspended then none
      else (acsIteration level current s.i s.globals).map
        (fun r => { s with i := r.1, globals := r.2 })
  | .action => (deviceAction s.globals).map (fun g => { s with globals := g })
  | .update env reply =>
      if s.updates < s.globals.tasks.firebaseUpdateCreated then
        (firebaseUpdateTask parse env reply s.globals).map
          (fun g => { s with globals := g, updates := s.updates + 1 })
      else none
  | .current io => some { s with globals := consumedCurrentBranch parse io s.globals }

/-- One step. -/
def indexStep (parse : CStr → Option Json) (s : IndexState) (a : IndexAct) : Option IndexState :=
  (indexMove parse s a).map (fun t => { t with seen := s.seen.step a })

/-- Power-up: no table, and the index is 0. -/
def indexInitial (g : Globals) : IndexState where
  globals := { g with devices := none, deviceCount := 0, currentDeviceIndex := 0 }

theorem indexStep_seen {parse : CStr → Option Json} {s t : IndexState} {a : IndexAct}
    (h : indexStep parse s a = some t) : t.seen = s.seen.step a := by
  obtain ⟨u, -, rfl⟩ := Option.map_eq_some_iff.mp h
  rfl

/-- What a run has seen depends on its inputs alone. -/
theorem run_seen {parse : CStr → Option Json} : ∀ {as : List IndexAct} {s t : IndexState},
    run (indexStep parse) s as = some t → t.seen = as.foldl Deliveries.step s.seen
  | [], s, t, h => by
      obtain rfl := Option.some.inj h
      rfl
  | a :: as, s, t, h => by
      obtain ⟨s', h1, h2⟩ := run_cons_some.mp h
      rw [run_seen h2, indexStep_seen h1, List.foldl_cons]

/-! ### The accesses -/

/-- `device_currents[i]` and `devices[i]`. -/
inductive Access where
  | deviceCurrents (i : ℕ)
  | devices (i : ℕ)
deriving DecidableEq, Repr

/-- The accesses of a step to `device_currents`, and those to `devices` by `currentDeviceIndex`. -/
def accesses (s : IndexState) : IndexAct → List Access
  | .refresh _ _ => []
  | .acs level _ =>
      if s.globals.tasks.acsReadSuspended = false ∧ Measures level s.i s.globals then
        [.deviceCurrents s.i]
      else []
  | .action => [.devices s.globals.currentDeviceIndex]
  | .update _ _ =>
      if s.updates < s.globals.tasks.firebaseUpdateCreated then
        [.devices s.globals.currentDeviceIndex]
      else []
  | .current _ =>
      if s.globals.flags.setConsumedCurrent then [.deviceCurrents s.globals.currentDeviceIndex]
      else []

/-- The access is inside its array: four floats, and a table of `deviceCount` entries. -/
def Access.InRange (g : Globals) : Access → Prop
  | .deviceCurrents i => i < 4
  | .devices i => g.devices.isSome = true ∧ i < g.deviceCount

instance (g : Globals) (a : Access) : Decidable (a.InRange g) :=
  match a with
  | .deviceCurrents _ => inferInstanceAs (Decidable (_ < _))
  | .devices _ => inferInstanceAs (Decidable (_ ∧ _))

/-- All accesses of the step are inside their arrays. -/
def StepInRange (s : IndexState) (a : IndexAct) : Prop :=
  ∀ x ∈ accesses s a, x.InRange s.globals

instance (s : IndexState) (a : IndexAct) : Decidable (StepInRange s a) :=
  inferInstanceAs (Decidable (∀ x ∈ accesses s a, _))

/-- The condition on a step: a relay that is read low is one of the first four, and the action and
the upload run while the array of the last refresh reaches up to the relay read low last. -/
def DeliveriesFit (s : IndexState) : IndexAct → Prop
  | .refresh _ _ | .current _ => True
  | .acs level _ =>
      s.globals.tasks.acsReadSuspended = false → s.seen.LowRelay level → s.seen.position < 4
  | .action => s.seen.low < s.seen.array.length
  | .update _ _ => s.updates < s.globals.tasks.firebaseUpdateCreated →
      s.seen.low < s.seen.array.length

/-! ### The table between refreshes -/

/-- The table is that of an array: it has an entry for an index exactly if the array has, and a relay
where the array has one. -/
structure TableOf (items : List Json) (g : Globals) : Prop where
  entries : ∀ i, (g.devices.isSome = true ∧ i < g.deviceCount) ↔ i < items.length
  relays : ∀ i, (relay? g i).isSome = true ↔ RelayAt items i

theorem lt_length_of_relayAt {items : List Json} {i : ℕ} (h : RelayAt items i) :
    i < items.length := by
  have hi : i < (items.filterMap deviceData).length := by
    by_contra hle
    simp [RelayAt, List.getElem?_eq_none (Nat.not_lt.mp hle)] at h
  exact hi.trans_le (List.length_filterMap_le _ _)

/-- Any other answer leaves no table. -/
theorem refreshWith_other {env : Env} {answer : Option Json} (g : Globals)
    (h : ∀ items, answer ≠ some (.array items)) : (refreshWith env answer g).devices = none := by
  have hsame := @handleAnswer_sameTable env .devices answer (freeDevicesArray g) (fun _ => h)
  rw [refreshWith, hsame.devices, freeDevicesArray_eq]

theorem deliveredArray_other {env : Env} {answer : Option Json}
    (h : ∀ items, answer ≠ some (.array items)) : deliveredArray env answer = [] := by
  unfold deliveredArray
  split
  · exact absurd rfl (h _)
  · rfl

theorem tableOf_nil {g : Globals} (h : g.devices = none) : TableOf [] g where
  entries i := by simp [h]
  relays i := by simp [relay?, Globals.device?, h, RelayAt]

/-- A stored entry is a relay exactly if its element is. -/
theorem relay?_stored {nvs : Nvs} {env : Env} {heap : ℕ → BitVec 32} {items : List Json}
    {g : Globals} {i : ℕ} (h : g.device? i = (storedDevices nvs env heap items 0 0)[i]?) :
    (relay? g i).isSome = true ↔ RelayAt items i := by
  have hdata := congrArg (fun l => l[i]?) (storedDevices_data nvs env heap items 0 0)
  rw [List.getElem?_map] at hdata
  rw [relay?, h, RelayAt, ← hdata, Option.isSome_filter, Option.any_map]
  rfl

theorem tableOf_refreshWith (env : Env) (answer : Option Json) (g : Globals) :
    TableOf (deliveredArray env answer) (refreshWith env answer g) := by
  by_cases harray : ∃ items, answer = some (.array items)
  · obtain ⟨items, rfl⟩ := harray
    obtain ⟨hdevices, hcount⟩ := handleAnswer_array env items (freeDevicesArray g)
    cases hm : env.malloc items.length with
    | none =>
        have hnone : (refreshWith env (some (.array items)) g).devices = none := by
          have hsome : (refreshWith env (some (.array items)) g).devices.isSome = false := by
            rw [refreshWith, hdevices, hm]
            rfl
          simpa using hsome
        rw [deliveredArray, hm]
        exact tableOf_nil hnone
    | some heap =>
        have harr : deliveredArray env (some (.array items)) = items := by
          rw [deliveredArray, hm]
          rfl
        rw [harr]
        constructor <;> intro i
        · rw [refreshWith, hdevices, hcount, hm]
          simp
        · have hslot := @device?_devicesBranch env items (freeDevicesArray g) heap hm i
          have hanswer := @handleAnswer_devices env items (freeDevicesArray g) heap hm
          refine relay?_stored (Eq.trans ?_ hslot)
          rw [refreshWith, hanswer]
          rfl
  · have hother : ∀ items, answer ≠ some (.array items) := fun items e => harray ⟨items, e⟩
    rw [deliveredArray_other hother]
    exact tableOf_nil (refreshWith_other g hother)

/-- The table of `g'` has the size and the relays of that of `g`, and the index is the same. -/
structure SameIndex (g g' : Globals) : Prop where
  devices : g'.devices.isSome = g.devices.isSome
  deviceCount : g'.deviceCount = g.deviceCount
  relays : ∀ i, (relay? g' i).isSome = (relay? g i).isSome
  currentDeviceIndex : g'.currentDeviceIndex = g.currentDeviceIndex

theorem TableOf.congr {items : List Json} {g g' : Globals} (h : TableOf items g)
    (hsame : SameIndex g g') : TableOf items g' where
  entries i := by rw [hsame.devices, hsame.deviceCount]; exact h.entries i
  relays i := by rw [hsame.relays]; exact h.relays i

theorem SameIndex.of_devices {g g' : Globals} (hdevices : g'.devices = g.devices)
    (hcount : g'.deviceCount = g.deviceCount)
    (hindex : g'.currentDeviceIndex = g.currentDeviceIndex) : SameIndex g g' where
  devices := congrArg Option.isSome hdevices
  deviceCount := hcount
  relays i := congrArg Option.isSome (relay?_congr hdevices i)
  currentDeviceIndex := hindex

theorem deviceAction_sameIndex {g g' : Globals} (h : deviceAction g = some g') : SameIndex g g' := by
  cases hd : relay? g g.currentDeviceIndex with
  | none =>
      obtain rfl := deviceAction_other hd h
      exact .of_devices rfl rfl rfl
  | some d =>
      obtain rfl := Option.some.inj ((deviceAction_relay hd).symm.trans h)
      refine ⟨by simp [toggleRelay, Globals.setDevice], rfl, fun i => ?_, rfl⟩
      rw [relay?_toggleRelay hd]
      split_ifs with hi
      · rw [hi, hd]
        rfl
      · rfl

theorem firebaseUpdateTask_sameIndex {parse : CStr → Option Json} {env : Env} {reply : Reply}
    {g g' : Globals} (h : firebaseUpdateTask parse env reply g = some g') : SameIndex g g' := by
  obtain ⟨r, hr, rfl⟩ := Option.map_eq_some_iff.mp h
  obtain ⟨d, -, rfl⟩ := Option.map_eq_some_iff.mp hr
  have hsame := @perform_passive parse env (.updateDeviceStatus g.currentDeviceIndex (!d.state)) reply
    g rfl (by simp)
  exact .of_devices hsame.devices hsame.deviceCount hsame.currentDeviceIndex

theorem consumedCurrentBranch_sameIndex (parse : CStr → Option Json) (io : Io) (g : Globals) :
    SameIndex g (consumedCurrentBranch parse io g) := by
  unfold consumedCurrentBranch
  split_ifs
  · have hsame := @perform_passive parse io.env (currentRequest g) (io.reply (currentRequest g))
      (consumedCurrentStart g) rfl (by simp [currentRequest])
    exact .of_devices hsame.devices hsame.deviceCount hsame.currentDeviceIndex
  · exact .of_devices rfl rfl rfl

/-! ### Whole runs -/

/-- The table is that of the last array, the loop variable and the index are the positions that the
inputs say, and the index is one of `device_currents`. -/
structure IndexInv (s : IndexState) : Prop where
  table : TableOf s.seen.array s.globals
  position : s.i = s.seen.position
  low : s.globals.currentDeviceIndex = s.seen.low
  low_lt : s.seen.low < 4

theorem indexInv_initial (g : Globals) : IndexInv (indexInitial g) where
  table := tableOf_nil rfl
  position := rfl
  low := rfl
  low_lt := Nat.zero_lt_succ 3

/-- The loop comes to a measurement exactly if it reads a relay of the last array low. -/
theorem IndexInv.measures_iff {s : IndexState} (hs : IndexInv s) (level : ℤ) :
    Measures level s.i s.globals ↔ s.seen.LowRelay level := by
  have hrelay := hs.table.relays s.i
  rw [Measures, Deliveries.LowRelay, hrelay, ← hs.position]
  constructor
  · exact fun h => h.2
  · exact fun h => ⟨((hs.table.entries s.i).mpr (lt_length_of_relayAt h.1)).2, h⟩

/-- Under the invariant a step stays in range exactly if it meets the condition. -/
theorem stepInRange_iff {s : IndexState} {a : IndexAct} (hs : IndexInv s) :
    StepInRange s a ↔ DeliveriesFit s a := by
  unfold StepInRange
  cases a with
  | refresh env answer => simp [accesses, DeliveriesFit]
  | acs level current =>
      have hmeasures := hs.measures_iff level
      by_cases hacs : s.globals.tasks.acsReadSuspended = false ∧ Measures level s.i s.globals
      · have hlow := hmeasures.mp hacs.2
        have haccesses : accesses s (.acs level current) = [.deviceCurrents s.i] := if_pos hacs
        rw [haccesses, hs.position]
        simp only [DeliveriesFit, List.forall_mem_singleton, Access.InRange, hacs.1, hlow,
          forall_const]
      · have himp : DeliveriesFit s (.acs level current) :=
          fun h1 h2 => absurd ⟨h1, hmeasures.mpr h2⟩ hacs
        simp [accesses, hacs, himp]
  | action =>
      simp only [accesses, DeliveriesFit, List.forall_mem_singleton, Access.InRange, hs.low]
      exact hs.table.entries _
  | update env reply =>
      by_cases hrun : s.updates < s.globals.tasks.firebaseUpdateCreated
      · simp only [accesses, DeliveriesFit, hrun, if_true, List.forall_mem_singleton,
          Access.InRange, forall_const, hs.low]
        exact hs.table.entries _
      · simp [accesses, DeliveriesFit, hrun]
  | current io =>
      have hlt := hs.low_lt
      simp only [accesses, DeliveriesFit, iff_true, hs.low]
      split_ifs
      · simpa [Access.InRange] using hlt
      · simp

/-- A step that moves neither table nor index keeps the invariant. -/
theorem SameIndex.inv {s : IndexState} {g : Globals} (hs : IndexInv s) (h : SameIndex s.globals g)
    (updates : ℕ) : IndexInv { s with globals := g, updates := updates } where
  table := hs.table.congr h
  position := hs.position
  low := h.currentDeviceIndex.trans hs.low
  low_lt := hs.low_lt

/-- The next iteration of the loop, which stays in step with what the inputs say. -/
theorem IndexInv.acs {s : IndexState} {level : ℤ} {current : ℚ} {r : ℕ × Globals} (hs : IndexInv s)
    (hlow : s.seen.LowRelay level → s.seen.position < 4)
    (h : acsIteration level current s.i s.globals = some r) :
    IndexInv { s with i := r.1, globals := r.2, seen := s.seen.step (.acs level current) } := by
  have hnext : r.1 = (s.seen.step (.acs level current)).position := by
    have hentries := hs.table.entries s.i
    rw [acsIteration_fst h, Deliveries.step, ← hs.position]
    by_cases hi : s.i < s.globals.deviceCount
    · rw [if_pos hi, if_pos (hentries.mp ⟨acsIteration_slot h hi, hi⟩)]
    · rw [if_neg hi, if_neg (fun hlt => hi (hentries.mpr hlt).2)]
  rcases @acsIteration_cases level current s.i r.1 s.globals r.2 h with ⟨hm, heq⟩ | ⟨hm, heq⟩
  · have hread := (hs.measures_iff level).mp hm
    have hstep : (s.seen.step (.acs level current)).low = s.seen.position := if_pos hread
    constructor
    · rw [heq]
      exact ⟨hs.table.entries, hs.table.relays⟩
    · exact hnext
    · rw [heq]
      exact hs.position.trans hstep.symm
    · exact hstep ▸ hlow hread
  · have hread := mt (hs.measures_iff level).mpr hm
    have hstep : (s.seen.step (.acs level current)).low = s.seen.low := if_neg hread
    constructor
    · rw [heq]
      exact hs.table
    · exact hnext
    · rw [heq]
      exact hs.low.trans hstep.symm
    · exact hstep ▸ hs.low_lt

/-- What a step in range does to table and index. -/
theorem IndexInv.step {parse : CStr → Option Json} {s s' : IndexState} {a : IndexAct}
    (hs : IndexInv s) (hr : StepInRange s a) (h : indexStep parse s a = some s') : IndexInv s' := by
  obtain ⟨t, hmove, rfl⟩ := Option.map_eq_some_iff.mp h
  cases a with
  | refresh env answer =>
      obtain rfl := Option.some.inj hmove
      refine ⟨tableOf_refreshWith env answer s.globals, hs.position, ?_, hs.low_lt⟩
      have hsame := handleAnswer_same env .devices answer (freeDevicesArray s.globals)
      show (refreshWith env answer s.globals).currentDeviceIndex = s.seen.low
      rw [refreshWith, hsame.currentDeviceIndex, freeDevicesArray_eq]
      exact hs.low
  | acs level current =>
      have hlow := (stepInRange_iff hs).mp hr
      simp only [indexMove] at hmove
      split_ifs at hmove with hsus
      obtain ⟨r, hiter, rfl⟩ := Option.map_eq_some_iff.mp hmove
      exact hs.acs (hlow (by simpa using hsus)) hiter
  | action =>
      obtain ⟨g, hg, rfl⟩ := Option.map_eq_some_iff.mp hmove
      exact (deviceAction_sameIndex hg).inv hs s.updates
  | update env reply =>
      simp only [indexMove] at hmove
      split_ifs at hmove with hrun
      obtain ⟨g, hg, rfl⟩ := Option.map_eq_some_iff.mp hmove
      exact (firebaseUpdateTask_sameIndex hg).inv hs (s.updates + 1)
  | current io =>
      obtain rfl := Option.some.inj hmove
      exact (consumedCurrentBranch_sameIndex parse io s.globals).inv hs s.updates

/-- **Every index is in range exactly if a relay that is read low is always one of the first four,
and the action and the upload run only while the array of the last refresh reaches up to the relay
read low last.** -/
theorem inRange_iff (parse : CStr → Option Json) (g : Globals) (as : List IndexAct) :
    AllSteps (indexStep parse) StepInRange (indexInitial g) as ↔
      AllSteps (indexStep parse) DeliveriesFit (indexInitial g) as :=
  allSteps_congr_of_kept (P := StepInRange) (Q := DeliveriesFit) (fun _ _ hs => stepInRange_iff hs)
    (fun _ _ _ hs hr h => hs.step hr h) (indexInv_initial g)

/-! ### Arrays that do not shrink -/

/-- A refresh brings at least as many elements as the last one and at most four, and the action and
the upload come after one that brought some. -/
def ArraysKept (s : IndexState) : IndexAct → Prop
  | .refresh env answer =>
      s.seen.array.length ≤ (deliveredArray env answer).length ∧
        (deliveredArray env answer).length ≤ 4
  | .acs _ _ | .current _ => True
  | .action | .update _ _ => s.seen.array ≠ []

/-- The position of the last relay read low stays inside arrays that do not shrink. -/
def LowInside (d : Deliveries) : Prop :=
  d.array.length ≤ 4 ∧ (d.low = 0 ∨ d.low < d.array.length)

theorem LowInside.lt {d : Deliveries} (h : LowInside d) (hne : d.array ≠ []) :
    d.low < d.array.length := by
  have hpos := List.length_pos_of_ne_nil hne
  rcases h.2 with h0 | hlt
  · rwa [h0]
  · exact hlt

theorem LowInside.step {s : IndexState} {a : IndexAct} (h : LowInside s.seen)
    (ha : ArraysKept s a) : LowInside (s.seen.step a) := by
  cases a with
  | refresh env answer =>
      refine ⟨ha.2, ?_⟩
      rcases h.2 with h0 | hlt
      · exact .inl h0
      · exact .inr (hlt.trans_le ha.1)
  | acs level current =>
      refine ⟨h.1, ?_⟩
      by_cases hlow : s.seen.LowRelay level
      · have hstep : (s.seen.step (.acs level current)).low = s.seen.position := if_pos hlow
        rw [hstep]
        exact .inr (lt_length_of_relayAt hlow.1)
      · have hstep : (s.seen.step (.acs level current)).low = s.seen.low := if_neg hlow
        rw [hstep]
        exact h.2
  | action | update _ _ | current _ => exact h

theorem LowInside.fit {s : IndexState} {a : IndexAct} (h : LowInside s.seen)
    (ha : ArraysKept s a) : DeliveriesFit s a := by
  cases a with
  | refresh env answer => trivial
  | acs level current => exact fun _ hlow => (lt_length_of_relayAt hlow.1).trans_le h.1
  | action => exact h.lt ha
  | update env reply => exact fun _ => h.lt ha
  | current io => trivial

/-- A device list that never has more than four elements and never shrinks keeps every index in
range, whatever the levels are. -/
theorem inRange_of_arraysKept (parse : CStr → Option Json) (g : Globals) {as : List IndexAct}
    (h : AllSteps (indexStep parse) ArraysKept (indexInitial g) as) :
    AllSteps (indexStep parse) StepInRange (indexInitial g) as := by
  have hinv : IndexInv (indexInitial g) ∧ LowInside (indexInitial g).seen :=
    ⟨indexInv_initial g, Nat.zero_le 4, .inl rfl⟩
  have hfit : ∀ s a, IndexInv s ∧ LowInside s.seen → ArraysKept s a → StepInRange s a :=
    fun s a hs ha => (stepInRange_iff hs.1).mpr (hs.2.fit ha)
  have hstep : ∀ s a s', IndexInv s ∧ LowInside s.seen → ArraysKept s a →
      indexStep parse s a = some s' → IndexInv s' ∧ LowInside s'.seen := by
    intro s a s' hs ha h1
    refine ⟨hs.1.step (hfit s a hs ha) h1, ?_⟩
    rw [indexStep_seen h1]
    exact hs.2.step ha
  exact (allSteps_congr hstep (fun s a hs ha => iff_of_true (hfit s a hs ha) ha) hinv h).mpr h

/-- Five relays are listed, and the loop measures all of them. -/
def fiveRelays : List IndexAct :=
  .refresh zeroedHeap (some (.array (List.replicate 5 exampleRelay))) ::
    List.replicate 5 (.acs 0 1)

/-- The fifth current is stored behind the array. -/
theorem fiveRelays_outside :
    ¬ AllSteps (indexStep (fun _ => none)) StepInRange (indexInitial exampleGlobals) fiveRelays := by
  decide +kernel

end Sicae
