import Sicae.CString
import Sicae.Double

/-! # cJSON values

The tree that `cJSON_Parse` returns: a number is its `valuedouble`, from which `valueint` follows,
an object is its member list in order.  A `cJSON *` that may be `NULL` is an `Option Json`. -/

namespace Sicae

open CString Binary64

/-- A cJSON node. -/
inductive Json where
  | null
  | bool (b : Bool)
  | number (valuedouble : Double)
  | string (valuestring : CStr)
  | array (items : List Json)
  | object (members : List (CStr × Json))

namespace Json

/-- A number cut to an `int`, saturating. -/
def cutToInt (x : ℚ) : ℤ :=
  if 2147483647 ≤ x then 2147483647
  else if x ≤ -2147483648 then -2147483648
  else x.num.tdiv x.den

/-- `valueint`, which is set with `valuedouble`. -/
def valueint : Double → ℤ
  | .finite negative m => cutToInt (signed negative m.val)
  | .infinite negative => if negative then -2147483648 else 2147483647

/-- `cJSON_CreateNumber` of an `int`. -/
def createNumber (n : ℤ) : Json := number (.ofInt n)

/-- `case_insensitive_strcmp(a, b) == 0`. -/
def caseInsensitiveEq (a b : CStr) : Bool := a.map Char.toLower == b.map Char.toLower

/-- `cJSON_GetObjectItem`: the first member whose name agrees up to case.  Only objects have
named members. -/
def getObjectItem (name : CStr) : Json → Option Json
  | object members => (members.find? (fun m => caseInsensitiveEq name m.1)).map Prod.snd
  | _ => none

/-- `cJSON_IsBool(item) && cJSON_IsTrue(item)`. -/
def isTrueBool : Option Json → Bool
  | some (bool b) => b
  | _ => false

end Json

/-- The four members read from an element of `devices.json`. -/
structure DeviceData where
  name : CStr
  type : CStr
  id : ℤ
  state : Bool
deriving DecidableEq, Repr

/-- The type test of the loop over `devices.json`: the data of an element with a string
`deviceType`, a boolean `status`, a numeric `id` and a string `name`. -/
def deviceData (device : Json) : Option DeviceData :=
  match device.getObjectItem "deviceType".toList, device.getObjectItem "status".toList,
      device.getObjectItem "id".toList, device.getObjectItem "name".toList with
  | some (.string deviceType), some (.bool status), some (.number deviceId),
      some (.string deviceName) =>
        some ⟨deviceName, deviceType, Json.valueint deviceId, status⟩
  | _, _, _, _ => none

/-- An element of `devices.json` is valid when it has a string `deviceType`, a boolean
`status`, a numeric `id` and a string `name`. -/
def ValidElement (device : Json) : Prop :=
  (∃ s, device.getObjectItem "deviceType".toList = some (.string s)) ∧
  (∃ b, device.getObjectItem "status".toList = some (.bool b)) ∧
  (∃ n, device.getObjectItem "id".toList = some (.number n)) ∧
  (∃ s, device.getObjectItem "name".toList = some (.string s))

theorem deviceData_isSome_iff {device : Json} :
    (deviceData device).isSome ↔ ValidElement device := by
  unfold deviceData ValidElement
  constructor
  · intro h
    split at h
    · rename_i t b n s ht hb hn hs
      exact ⟨⟨t, ht⟩, ⟨b, hb⟩, ⟨n, hn⟩, ⟨s, hs⟩⟩
    · simp at h
  · rintro ⟨⟨t, ht⟩, ⟨b, hb⟩, ⟨n, hn⟩, ⟨s, hs⟩⟩
    rw [ht, hb, hn, hs]
    rfl

end Sicae
