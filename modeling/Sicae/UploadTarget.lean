import Sicae.DeviceTable
import Sicae.Tasks

/-! # The element an upload is addressed to

The loop of `ON_FINISH` stores the valid elements of the array one after the other, so a table
index is the number of valid elements before the element, not its position.  Both uploads, the
PATCH of `firebase_update_task` and the PUT of the SETCONSUMEDCURRENT branch, format the table
index into their URL, where the server expects the position.

The two numberings agree exactly if no invalid element stands before a valid one
(`forall_findIdxs_eq_iff`), and then only do the uploads go to the element the entry was read
from. -/

namespace Sicae

open CString

/-! ### Positions -/

section positions
variable {α β : Type*}

/-- The `i`-th position at which `p` holds is `i`, for every `i`, exactly if `p` holds nowhere
behind a place where it does not. -/
theorem forall_findIdxs_eq_iff (p : α → Bool) (xs : List α) (s : ℕ) :
    (∀ i k, (xs.findIdxs p s)[i]? = some k → k = s + i) ↔
      xs.Pairwise (fun x y => p y = true → p x = true) := by
  induction xs generalizing s with
  | nil => simp
  | cons x xs ih =>
      rw [List.pairwise_cons, List.findIdxs_cons]
      cases hx : p x with
      | true =>
          simp only [if_true, implies_true, true_and]
          rw [← ih (s + 1)]
          constructor
          · intro h i k hk
            have := h (i + 1) k hk
            omega
          · intro h i k hk
            cases i with
            | zero =>
                obtain rfl := Option.some.inj hk
                rfl
            | succ i =>
                have := h i k hk
                omega
      | false =>
          simp only [Bool.false_eq_true, if_false, imp_false]
          constructor
          · intro h
            -- the first position is already one too far
            have hnil : xs.findIdxs p (s + 1) = [] := by
              by_contra hne
              obtain ⟨k, rest, hcons⟩ := List.exists_cons_of_ne_nil hne
              have hk := h 0 k (by rw [hcons]; rfl)
              have hge := List.ge_of_mem_findIdxs k (hcons ▸ List.mem_cons_self)
              omega
            have hnone := List.findIdxs_eq_nil_iff.mp hnil
            refine ⟨fun y hy => by simp [hnone y hy], ?_⟩
            refine List.pairwise_of_forall_mem_list fun a _ b hb hpb => ?_
            rw [hnone b hb] at hpb
            cases hpb
          · rintro ⟨hnone, -⟩ i k hk
            have hnil : xs.findIdxs p (s + 1) = [] :=
              List.findIdxs_eq_nil_iff.mpr fun y hy => by simpa using hnone y hy
            rw [hnil] at hk
            cases hk

/-- The `i`-th of the values that a partial function has on a list is that at the `i`-th
position where it has one. -/
theorem getElem?_filterMap_of_findIdxs (f : α → Option β) {xs : List α} {s i k : ℕ}
    (h : (xs.findIdxs (fun x => (f x).isSome) s)[i]? = some k) :
    s ≤ k ∧ (xs.filterMap f)[i]? = (xs[k - s]?).bind f ∧ ((xs.filterMap f)[i]?).isSome := by
  induction xs generalizing s i with
  | nil => cases h
  | cons x xs ih =>
      rw [List.findIdxs_cons] at h
      cases hx : f x with
      | none =>
          rw [hx] at h
          obtain ⟨hle, hget, hsome⟩ := ih h
          rw [List.filterMap_cons_none hx]
          refine ⟨by omega, ?_, hsome⟩
          rw [hget, show k - s = k - (s + 1) + 1 by omega, List.getElem?_cons_succ]
      | some y =>
          rw [hx, Option.isSome_some, if_pos rfl] at h
          rw [List.filterMap_cons_some hx]
          cases i with
          | zero =>
              obtain rfl := Option.some.inj h
              exact ⟨le_rfl, by simp [hx], rfl⟩
          | succ i =>
              obtain ⟨hle, hget, hsome⟩ := ih h
              refine ⟨by omega, ?_, hsome⟩
              rw [List.getElem?_cons_succ, hget, show k - s = k - (s + 1) + 1 by omega,
                List.getElem?_cons_succ]

end positions

/-! ### The uploads of an entry -/

/-- The loop stores the element at position `p` in `devices[i]`. -/
def StoredAt (items : List Json) (i p : ℕ) : Prop :=
  (items.findIdxs (fun item => (deviceData item).isSome))[i]? = some p

instance (items : List Json) (i p : ℕ) : Decidable (StoredAt items i p) :=
  inferInstanceAs (Decidable (_ = _))

/-- What `devices[i]` holds after the loop is the element at the position stored there. -/
theorem device?_of_storedAt {env : Env} {items : List Json} {g : Globals} {heap : ℕ → BitVec 32}
    {i p : ℕ} (hm : env.malloc items.length = some heap) (h : StoredAt items i p) :
    ∃ d, (devicesBranch env items g).1.device? i = some d ∧
      (items[p]?).bind deviceData = some d.data := by
  obtain ⟨-, hget, hsome⟩ := getElem?_filterMap_of_findIdxs deviceData h
  rw [← storedDevices_data g.nvs env heap items 0 0, List.getElem?_map] at hget hsome
  rw [device?_devicesBranch hm]
  obtain ⟨d, hd⟩ := Option.isSome_iff_exists.mp (Option.isSome_map ▸ hsome)
  rw [hd] at hget
  exact ⟨d, hd, hget.symm⟩

/-- The state in which an upload for entry `i` starts. -/
def atEntry (i : ℕ) (g : Globals) : Globals := { g with currentDeviceIndex := i }

/-- The URL of the element at a position, as the PATCH of the status addresses it. -/
def elementUrl (d : DeviceId) (p : ℕ) : CStr :=
  d.dispUrl ++ "devices/".toList ++ decimal p ++ ".json".toList

/-- The URL of its current. -/
def elementCurrentUrl (d : DeviceId) (p : ℕ) : CStr :=
  d.dispUrl ++ "devices/".toList ++ decimal p ++ "/currentConsumed.json".toList

/-- After the loop, both uploads for an entry go to the element stored there. -/
def UploadsMatch (env : Env) (items : List Json) (g : Globals) : Prop :=
  ∀ i p, StoredAt items i p →
    (firebaseUpdateRequest (atEntry i (devicesBranch env items g).1)).map
        (Request.url g.deviceId) = some (elementUrl g.deviceId p) ∧
      (currentRequest (atEntry i (devicesBranch env items g).1)).url g.deviceId =
        elementCurrentUrl g.deviceId p

/-- Different numbers of an `int` have different texts. -/
theorem decimal_injOn {m n : ℕ} (hm : m < 2 ^ 31) (hn : n < 2 ^ 31)
    (h : decimal m = decimal n) : m = n := by
  have hm' := @atoi_decimal m (by omega) (by omega)
  have hn' := @atoi_decimal n (by omega) (by omega)
  rw [h, hn'] at hm'
  omega

theorem decimal_fits (d : DeviceId) {n : ℕ} (hn : n < 2 ^ 31) :
    snprintf 256 (elementUrl d n) = elementUrl d n ∧
      snprintf 256 (elementCurrentUrl d n) = elementCurrentUrl d n := by
  have hd := d.length_dispUrl
  have hl := @length_decimal_le n (by omega) (by omega)
  have h1 : "devices/".toList.length = 8 := rfl
  have h2 : ".json".toList.length = 5 := rfl
  have h3 : "/currentConsumed.json".toList.length = 21 := rfl
  constructor
  · apply snprintf_of_length_lt
    simp only [elementUrl, List.length_append]
    omega
  · apply snprintf_of_length_lt
    simp only [elementCurrentUrl, List.length_append]
    omega

theorem elementUrl_inj {d : DeviceId} {m n : ℕ} (hm : m < 2 ^ 31) (hn : n < 2 ^ 31)
    (h : elementUrl d m = elementUrl d n) : m = n := by
  unfold elementUrl at h
  rw [List.append_left_inj, List.append_right_inj] at h
  exact decimal_injOn hm hn h

/-- The uploads for an entry are addressed by its table index. -/
theorem uploads_atEntry {env : Env} {items : List Json} {g : Globals} {heap : ℕ → BitVec 32}
    {i p : ℕ} (hm : env.malloc items.length = some heap) (hi : i < 2 ^ 31) (h : StoredAt items i p) :
    (firebaseUpdateRequest (atEntry i (devicesBranch env items g).1)).map
        (Request.url g.deviceId) = some (elementUrl g.deviceId i) ∧
      (currentRequest (atEntry i (devicesBranch env items g).1)).url g.deviceId =
        elementCurrentUrl g.deviceId i := by
  obtain ⟨d, hd, -⟩ := @device?_of_storedAt env items g heap i p hm h
  obtain ⟨hurl, hcurrent⟩ := decimal_fits g.deviceId hi
  have hrequest : firebaseUpdateRequest (atEntry i (devicesBranch env items g).1) =
      some (.updateDeviceStatus i (!d.state)) := by
    have hslot : (atEntry i (devicesBranch env items g).1).device? i = some d := hd
    simp only [firebaseUpdateRequest, show (atEntry i (devicesBranch env items g).1).currentDeviceIndex
      = i from rfl, hslot, Option.map_some]
  rw [hrequest, Option.map_some]
  exact ⟨congrArg some hurl, hcurrent⟩

/-- **The uploads go to the element the entry was read from exactly if no invalid element stands
before a valid one.**  The size of an array is an `int`. -/
theorem uploadsMatch_iff {env : Env} {items : List Json} {g : Globals} {heap : ℕ → BitVec 32}
    (hm : env.malloc items.length = some heap) (hsize : items.length < 2 ^ 31) :
    UploadsMatch env items g ↔
      items.Pairwise (fun x y => ValidElement y → ValidElement x) := by
  have hbound : ∀ {i p}, StoredAt items i p → i < 2 ^ 31 ∧ p < 2 ^ 31 := by
    intro i p h
    obtain ⟨hi, -⟩ := List.getElem?_eq_some_iff.mp h
    rw [List.length_findIdxs] at hi
    have hcount := List.countP_le_length (p := fun item => (deviceData item).isSome) (l := items)
    have hp := List.lt_add_of_mem_findIdxs p (List.mem_of_getElem? h)
    omega
  have hvalid : items.Pairwise (fun x y => ValidElement y → ValidElement x) ↔
      items.Pairwise (fun x y => (deviceData y).isSome = true → (deviceData x).isSome = true) := by
    simp only [deviceData_isSome_iff]
  rw [hvalid, ← forall_findIdxs_eq_iff (fun item => (deviceData item).isSome) items 0]
  constructor
  · intro h i p hp
    obtain ⟨hi, hlt⟩ := hbound hp
    have hsent := (uploads_atEntry (g := g) hm hi hp).1
    rw [(h i p hp).1] at hsent
    have := elementUrl_inj hlt hi (Option.some.inj hsent)
    omega
  · intro h i p hp
    have hpi : p = i := by
      have := h i p hp
      omega
    have hsent := @uploads_atEntry env items g heap i p hm (hbound hp).1 hp
    rw [hpi]
    exact hsent

/-- One relay, alone in the array. -/
theorem uploadsMatch_oneRelay :
    UploadsMatch zeroedHeap [exampleRelay] exampleGlobals ↔
      [exampleRelay].Pairwise (fun x y => ValidElement y → ValidElement x) :=
  uploadsMatch_iff rfl (by decide)

/-- The relay behind a `null`, as a sparse array is padded, is entry 0 and element 1. -/
theorem not_uploadsMatch_padded :
    ¬ UploadsMatch zeroedHeap [.null, exampleRelay] exampleGlobals := by
  intro h
  have hstored : StoredAt [.null, exampleRelay] 0 1 := by decide +kernel
  exact absurd (h 0 1 hstored).2 (by decide +kernel)

end Sicae
