import Sicae.Globals

/-! # Request URLs and their routing

The URL every request is sent to, and the chain of `strstr` tests by which `ON_FINISH`
recognises the endpoint of an answer.

A URL built from a `DeviceId` is a fixed host part followed by `/`-separated segments, so a
needle `/w` occurs in it only where a segment starts with `w` (`infix_joinSegments`).  Hence
the answer to a clear is routed to the `newData` branch, the answer to a refresh to the table
branch, and the answers to the other requests to a branch that only parses
(`route_clearNewData`, `route_getDevices`, `route_passive`). -/

namespace Sicae

open CString

/-- The branches of the `strstr` chain. -/
inductive Route where
  | newData
  | devices
  | device
  | info
  | unknown
deriving DecidableEq, Repr

/-- `strstr(url, needle) != NULL`. -/
def contains (url : CStr) (needle : String) : Bool := (strstr needle.toList url).isSome

theorem contains_iff {url : CStr} {needle : String} :
    contains url needle = true ↔ needle.toList <:+: url := by
  rw [contains, ← not_iff_not, ← strstr_eq_none, Bool.not_eq_true, Option.isSome_eq_false_iff,
    Option.isNone_iff_eq_none]

/-- The branch taken for an answer from `url`. -/
def route (url : CStr) : Route :=
  if contains url "/newData.json" then .newData
  else if contains url "/devices.json" then .devices
  else if contains url "/devices/" && contains url ".json" then .device
  else if contains url "/info.json" then .info
  else .unknown

/-- The branches that do nothing but parse the body. -/
def Route.passive : Route → Bool
  | newData | devices => false
  | device | info | unknown => true

/-! ### URLs -/

/-- The text of the URL a request is sent to. -/
def Request.urlText (d : DeviceId) : Request → CStr
  | getNewData | clearNewData => d.eventsUrl ++ "newData.json".toList
  | getInfo => d.dispUrl ++ "info.json".toList
  | getDevices => d.dispUrl ++ "devices.json".toList
  | updateDeviceStatus deviceNumber _ =>
      d.dispUrl ++ "devices/".toList ++ decimal deviceNumber ++ ".json".toList
  | updateDeviceCurrent deviceNumber _ =>
      d.dispUrl ++ "devices/".toList ++ decimal deviceNumber ++ "/currentConsumed.json".toList

/-- The URL as formatted into the 256 bytes of `url`. -/
def Request.url (d : DeviceId) (r : Request) : CStr := snprintf 256 (r.urlText d)

/-- Read back into a buffer of the same size, it is the same. -/
theorem Request.snprintf_url (d : DeviceId) (r : Request) : snprintf 256 (r.url d) = r.url d :=
  snprintf_snprintf ..

theorem DeviceId.dispUrl_eq (d : DeviceId) (x : CStr) :
    d.dispUrl ++ x = dispBase ++ '/' :: (d.text ++ '/' :: ("data".toList ++ '/' :: x)) := by
  simp [DeviceId.dispUrl]

theorem DeviceId.eventsUrl_eq (d : DeviceId) (x : CStr) :
    d.eventsUrl ++ x = eventsBase ++ '/' :: (d.text ++ '/' :: x) := by
  simp [DeviceId.eventsUrl]

theorem DeviceId.not_mem {d : DeviceId} {c : Char} (h : isHexDigit c = false) : c ∉ d.text :=
  fun hm => by simp [d.isHex c hm] at h

theorem DeviceId.length_dispUrl (d : DeviceId) : d.dispUrl.length ≤ 84 := by
  have h := d.length_le
  have hb : dispBase.length = 60 := rfl
  simp [DeviceId.dispUrl, hb]
  omega

theorem DeviceId.length_eventsUrl (d : DeviceId) : d.eventsUrl.length ≤ 73 := by
  have h := d.length_le
  have hb : eventsBase.length = 54 := rfl
  simp [DeviceId.eventsUrl, hb]
  omega

/-- A word with a character that is not hexadecimal starts a segment of an address only if it is
one of those behind the device id. -/
theorem DeviceId.not_infix_joinSegments (d : DeviceId) {base w : CStr} {c : Char}
    {segments : List CStr} (hw : '/' ∉ w) (hc : c ∈ w) (hhex : isHexDigit c = false)
    (hbase : ¬ '/' :: w <:+: base) (hs : ∀ s ∈ segments, '/' ∉ s)
    (hseg : ∀ s ∈ segments, ¬ w <+: s) :
    ¬ '/' :: w <:+: joinSegments '/' base (d.text :: segments) := by
  rw [infix_joinSegments hw]
  · rintro (h | ⟨s, hm, hp⟩)
    · exact hbase h
    · rcases List.mem_cons.mp hm with rfl | hm
      · exact DeviceId.not_mem hhex (hp.subset hc)
      · exact hseg s hm hp
  · intro s hm
    rcases List.mem_cons.mp hm with rfl | hm
    · exact DeviceId.not_mem (by decide)
    · exact hs s hm

/-- The same for the addresses under `disp_url`. -/
theorem DeviceId.not_infix_dispUrl (d : DeviceId) {w : CStr} {c : Char} {segments : List CStr}
    (hw : '/' ∉ w) (hc : c ∈ w) (hhex : isHexDigit c = false) (hbase : ¬ '/' :: w <:+: dispBase)
    (hdata : ¬ w <+: "data".toList) (hs : ∀ s ∈ segments, '/' ∉ s)
    (hseg : ∀ s ∈ segments, ¬ w <+: s) :
    ¬ '/' :: w <:+: joinSegments '/' dispBase (d.text :: "data".toList :: segments) :=
  d.not_infix_joinSegments hw hc hhex hbase
    (List.forall_mem_cons.mpr ⟨by decide, hs⟩) (List.forall_mem_cons.mpr ⟨hdata, hseg⟩)

/-- The segments under `data` of the requests that are sent to `disp_url`. -/
def Request.segments : Request → List CStr
  | getNewData | clearNewData => []
  | getInfo => ["info.json".toList]
  | getDevices => ["devices.json".toList]
  | updateDeviceStatus deviceNumber _ =>
      ["devices".toList, decimal deviceNumber ++ ".json".toList]
  | updateDeviceCurrent deviceNumber _ =>
      ["devices".toList, decimal deviceNumber, "currentConsumed.json".toList]

/-- The requests sent to `disp_url`. -/
def Request.toDisp : Request → Bool
  | getNewData | clearNewData => false
  | getInfo | getDevices | updateDeviceStatus _ _ | updateDeviceCurrent _ _ => true

theorem Request.urlText_eq {d : DeviceId} : ∀ {r : Request}, r.toDisp = true →
    r.urlText d = joinSegments '/' dispBase (d.text :: "data".toList :: r.segments)
  | getInfo, _ => by rw [urlText, d.dispUrl_eq]; simp [segments, joinSegments]
  | getDevices, _ => by rw [urlText, d.dispUrl_eq]; simp [segments, joinSegments]
  | updateDeviceStatus n _, _ => by
      rw [urlText, List.append_assoc, List.append_assoc, d.dispUrl_eq]
      simp [segments, joinSegments]
  | updateDeviceCurrent n _, _ => by
      rw [urlText, List.append_assoc, List.append_assoc, d.dispUrl_eq]
      simp [segments, joinSegments]

theorem Request.slash_not_mem_segments {r : Request} : ∀ s ∈ r.segments, '/' ∉ s := by
  have hn : ∀ n, '/' ∉ decimal n := not_mem_decimal (by decide) (by decide)
  cases r <;> simp [segments, hn]

/-- The segments: fixed words, and those that start with a device number. -/
theorem Request.mem_segments {r : Request} {s : CStr} (hs : s ∈ r.segments) :
    s ∈ ["info.json".toList, "devices".toList, "currentConsumed.json".toList] ∨
      (r = getDevices ∧ s = "devices.json".toList) ∨
      ∃ n, s = decimal n ∨ s = decimal n ++ ".json".toList := by
  cases r with
  | getNewData | clearNewData => cases hs
  | getInfo =>
      rw [List.mem_singleton.mp hs]
      exact Or.inl List.mem_cons_self
  | getDevices => exact Or.inr (Or.inl ⟨rfl, List.mem_singleton.mp hs⟩)
  | updateDeviceStatus n b =>
      rcases List.mem_cons.mp hs with rfl | hs
      · exact Or.inl (by decide)
      · exact Or.inr (Or.inr ⟨n, Or.inr (List.mem_singleton.mp hs)⟩)
  | updateDeviceCurrent n v =>
      rcases List.mem_cons.mp hs with rfl | hs
      · exact Or.inl (by decide)
      · rcases List.mem_cons.mp hs with rfl | hs
        · exact Or.inr (Or.inr ⟨n, Or.inl rfl⟩)
        · rw [List.mem_singleton.mp hs]
          exact Or.inl (by decide)

/-- A word does not start a segment if it starts no fixed one and has a character that is not in
device numbers. -/
theorem Request.not_prefix_segments {r : Request} {w : CStr} {c : Char} (hc : c ∈ w)
    (hnum : ∀ n, c ∉ decimal n) (hjson : c ∉ ".json".toList)
    (hfixed : ∀ s ∈ ["info.json".toList, "devices".toList, "currentConsumed.json".toList],
      ¬ w <+: s)
    (hdevices : r = getDevices → ¬ w <+: "devices.json".toList) : ∀ s ∈ r.segments, ¬ w <+: s := by
  intro s hs hp
  rcases mem_segments hs with hm | ⟨hr, rfl⟩ | ⟨n, rfl | rfl⟩
  · exact hfixed s hm hp
  · exact hdevices hr hp
  · exact hnum n (hp.subset hc)
  · exact (List.mem_append.mp (hp.subset hc)).elim (hnum n) hjson

/-- No request to `disp_url` is taken for one to `newData.json`. -/
theorem Request.not_newData {d : DeviceId} {r : Request} (hr : r.toDisp = true) :
    contains (r.url d) "/newData.json" = false := by
  have hseg : ∀ s ∈ r.segments, ¬ "newData.json".toList <+: s :=
    not_prefix_segments (c := 'D') (by decide) (not_mem_decimal (by decide) (by decide))
      (by decide) (by decide) (fun _ => by decide)
  have h : ¬ '/' :: "newData.json".toList <:+: r.urlText d := by
    rw [r.urlText_eq hr]
    exact d.not_infix_dispUrl (c := 'w') (by decide) (by decide) (by decide) (by decide)
      (by decide) r.slash_not_mem_segments hseg
  rw [Bool.eq_false_iff, Ne, contains_iff]
  exact not_infix_snprintf h

/-- Only the refresh is taken for one to `devices.json`. -/
theorem Request.not_devices {d : DeviceId} {r : Request} (hr : r.toDisp = true)
    (hne : r ≠ getDevices) : contains (r.url d) "/devices.json" = false := by
  have hseg : ∀ s ∈ r.segments, ¬ "devices.json".toList <+: s :=
    not_prefix_segments (c := 'v') (by decide) (not_mem_decimal (by decide) (by decide))
      (by decide) (by decide) (fun h => absurd h hne)
  have h : ¬ '/' :: "devices.json".toList <:+: r.urlText d := by
    rw [r.urlText_eq hr]
    exact d.not_infix_dispUrl (c := 'v') (by decide) (by decide) (by decide) (by decide)
      (by decide) r.slash_not_mem_segments hseg
  rw [Bool.eq_false_iff, Ne, contains_iff]
  exact not_infix_snprintf h

/-! ### Where the answers go -/

theorem route_clearNewData (d : DeviceId) : route (Request.clearNewData.url d) = .newData := by
  have hlen : (Request.clearNewData.urlText d).length < 256 := by
    have := d.length_eventsUrl
    simp [Request.urlText]
    omega
  have h : "/newData.json".toList <:+: Request.clearNewData.url d := by
    rw [Request.url, snprintf_of_length_lt hlen, Request.urlText, d.eventsUrl_eq]
    exact ⟨eventsBase ++ '/' :: d.text, [], by simp⟩
  rw [route, if_pos (contains_iff.mpr h)]

theorem route_getNewData (d : DeviceId) : route (Request.getNewData.url d) = .newData :=
  route_clearNewData d

theorem route_getDevices (d : DeviceId) : route (Request.getDevices.url d) = .devices := by
  have hlen : (Request.getDevices.urlText d).length < 256 := by
    have := d.length_dispUrl
    simp [Request.urlText]
    omega
  have h : "/devices.json".toList <:+: Request.getDevices.url d := by
    rw [Request.url, snprintf_of_length_lt hlen, Request.urlText, d.dispUrl_eq]
    exact ⟨dispBase ++ '/' :: (d.text ++ '/' :: "data".toList), [], by simp⟩
  rw [route, Request.not_newData rfl, if_neg Bool.false_ne_true, if_pos (contains_iff.mpr h)]

/-- The answers to the requests sent to `disp_url` are not taken for polls. -/
theorem route_ne_newData {d : DeviceId} {r : Request} (hr : r.toDisp = true) :
    route (r.url d) ≠ .newData := by
  rw [route, Request.not_newData hr, if_neg Bool.false_ne_true]
  split_ifs <;> exact nofun

/-- The answers to the info request and to the uploads reach a branch that only parses. -/
theorem route_passive {d : DeviceId} {r : Request} (hr : r.toDisp = true)
    (hne : r ≠ .getDevices) : (route (r.url d)).passive = true := by
  rw [route, Request.not_newData hr, Request.not_devices hr hne, if_neg Bool.false_ne_true,
    if_neg Bool.false_ne_true]
  split_ifs <;> rfl

end Sicae
