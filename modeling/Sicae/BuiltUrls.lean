import Sicae.CredentialPairs
import Sicae.Webserver

/-! # The URLs from the device id to the answer

A device id becomes two addresses in NVS, which `read_server_credentials` reads into arrays of 156
bytes, from which the requests format their URLs into the 256 bytes of `url`, in which `ON_FINISH`
searches for the endpoint.

Nothing is cut on the way (`readServerCredentials_of_stored`, `Endpoint.length_text_lt`), and the
answer from each endpoint is taken for what it is (`Endpoint.route_url`). -/

namespace Sicae

open CString

/-! ### The source -/

/-- The macro `SERVER_URL_MAX_LEN`. -/
def serverUrlMaxLen : ℕ := 156

/-- `read_server_credentials`. -/
def readServerCredentials {n m : ℕ} (nvs : Nvs) (faults : NvsReadFaults) (dispUrl : CharArray n)
    (eventsUrl : CharArray m) : CharArray n × CharArray m :=
  match faults.openErr with
  | some _ => (dispUrl, eventsUrl)
  | none =>
      (readStr nvs faults "disp_url".toList dispUrl,
       readStr nvs faults "events_url".toList eventsUrl)

/-- The endpoints that `firebaseFns.c` formats a URL for, those of a section apart. -/
inductive Endpoint where
  | newData
  | info
  | devices
  | device (deviceNumber : ℤ)
  | currentConsumed (deviceNumber : ℤ)
  | retrievedData
deriving DecidableEq, Repr

/-- The formats, applied to `disp_url` or `events_url`. -/
def Endpoint.text (dispUrl eventsUrl : CStr) : Endpoint → CStr
  | newData => eventsUrl ++ "newData.json".toList
  | info => dispUrl ++ "info.json".toList
  | devices => dispUrl ++ "devices.json".toList
  | device deviceNumber => dispUrl ++ "devices/".toList ++ decimal deviceNumber ++ ".json".toList
  | currentConsumed deviceNumber =>
      dispUrl ++ "devices/".toList ++ decimal deviceNumber ++ "/currentConsumed.json".toList
  | retrievedData => eventsUrl ++ "retrievedData.json".toList

/-- The URL in the 256 bytes of `url`. -/
def Endpoint.url (dispUrl eventsUrl : CStr) (e : Endpoint) : CStr :=
  snprintf 256 (e.text dispUrl eventsUrl)

/-- The format of `firebase_get_dispositivo_device`. -/
def sectionText (dispUrl urlSection : CStr) : CStr := dispUrl ++ urlSection ++ ".json".toList

/-- The device number is an `int`. -/
def Endpoint.IsInt : Endpoint → Prop
  | device n | currentConsumed n => -2 ^ 31 ≤ n ∧ n < 2 ^ 31
  | newData | info | devices | retrievedData => True

instance : DecidablePred Endpoint.IsInt
  | .device _ | .currentConsumed _ => inferInstanceAs (Decidable (_ ∧ _))
  | .newData | .info | .devices | .retrievedData => inferInstanceAs (Decidable True)

/-- The branch for the answers of an endpoint. -/
def Endpoint.branch : Endpoint → Route
  | newData => .newData
  | info => .info
  | devices => .devices
  | device _ | currentConsumed _ => .device
  | retrievedData => .unknown

/-! ### From the device id to the addresses -/

/-- An NVS content that one of the two functions has left behind, having stored the addresses of
`d`. -/
inductive StoresServerUrls (d : DeviceId) : Nvs → Prop where
  | boot {faults : InitFaults} {g : Globals} (hid : g.deviceId = d)
      (ho : faults.openErr = none) (hn : needsDefaultData g.nvs faults.getErr = true)
      (hdisp : faults.Accepts "disp_url".toList) (hevents : faults.Accepts "events_url".toList) :
      StoresServerUrls d (initializeNvsWithDefaultData faults g).nvs
  | save {faults : NvsWriteFaults} {g : Globals} (ho : faults.openErr = none)
      (hdisp : faults.Accepts "disp_url".toList) (hevents : faults.Accepts "events_url".toList) :
      StoresServerUrls d (saveServerCredentials faults g d.text).nvs

/-- The addresses are stored in full. -/
theorem StoresServerUrls.lookup {d : DeviceId} {nvs : Nvs} (h : StoresServerUrls d nvs) :
    nvs.lookup "disp_url".toList = some (.str d.dispUrl) ∧
      nvs.lookup "events_url".toList = some (.str d.eventsUrl) := by
  cases h with
  | @boot faults g hid ho hn hdisp hevents =>
      have hwrites : (initializeNvsWithDefaultData faults g).nvs.lookup =
          KeyValue.writeAll faults.Accepts g.nvs.lookup (provisioning d) := by
        simp only [initializeNvsWithDefaultData, ho, hn, if_true, ← hid]
        exact lookup_saveDefaultData _ _
      have hmem : ∀ p ∈ provisioning d, faults.Accepts p.1 →
          (initializeNvsWithDefaultData faults g).nvs.lookup p.1 = some p.2 := by
        intro p hp ha
        rw [hwrites, KeyValue.writeAll_of_mem (provisioning_nodup d) hp, if_pos ha]
      exact ⟨hmem ("disp_url".toList, .str d.dispUrl) (by simp [provisioning, defaultData]) hdisp,
        hmem ("events_url".toList, .str d.eventsUrl) (by simp [provisioning, defaultData]) hevents⟩
  | @save faults g ho hdisp hevents =>
      obtain ⟨hd, he⟩ := d.urls_fit
      have hmem : ∀ p ∈ (PairSave.serverCredentials d.text).pair, faults.Accepts p.1 →
          (saveServerCredentials faults g d.text).nvs.lookup p.1 = some p.2 := by
        intro p hp ha
        rw [lookup_saveServerCredentials_of_open ho,
          KeyValue.writeAll_of_mem (PairSave.nodup_keys _) hp, if_pos ha]
      constructor
      · exact (hmem _ List.mem_cons_self hdisp).trans (congrArg (fun u => some (NvsValue.str u)) hd)
      · exact (hmem _ (List.mem_cons_of_mem _ List.mem_cons_self) hevents).trans
          (congrArg (fun u => some (NvsValue.str u)) he)

theorem DeviceId.nul_not_mem (d : DeviceId) : '\x00' ∉ d.dispUrl ∧ '\x00' ∉ d.eventsUrl := by
  have htext : '\x00' ∉ d.text := DeviceId.not_mem (by decide)
  have hbase : '\x00' ∉ dispBase ∧ '\x00' ∉ eventsBase := by decide
  constructor
  · simp [DeviceId.dispUrl, htext, hbase.1]
  · simp [DeviceId.eventsUrl, htext, hbase.2]

/-- **The addresses are read back in full** into the arrays of 156 bytes. -/
theorem readServerCredentials_of_stored {d : DeviceId} {nvs : Nvs} (h : StoresServerUrls d nvs)
    (dispUrl eventsUrl : CharArray serverUrlMaxLen) :
    (readServerCredentials nvs {} dispUrl eventsUrl).1.str = d.dispUrl ∧
      (readServerCredentials nvs {} dispUrl eventsUrl).2.str = d.eventsUrl := by
  obtain ⟨hdisp, hevents⟩ := h.lookup
  obtain ⟨hz, hz'⟩ := d.nul_not_mem
  have hl := d.length_dispUrl
  have hl' := d.length_eventsUrl
  constructor
  · exact str_readStr hdisp hz rfl (by unfold serverUrlMaxLen; omega) _
  · exact str_readStr hevents hz' rfl (by unfold serverUrlMaxLen; omega) _

/-! ### From the addresses to `url` -/

/-- The longest address leaves room for the longest endpoint. -/
theorem Endpoint.length_text_lt {dispUrl eventsUrl : CStr} (hd : dispUrl.length ≤ 155)
    (he : eventsUrl.length ≤ 155) {e : Endpoint} (hi : e.IsInt) :
    (e.text dispUrl eventsUrl).length < 256 := by
  cases e with
  | newData | info | devices | retrievedData =>
      simp [text]
      omega
  | device n | currentConsumed n =>
      have hn := length_decimal_le hi.1 hi.2
      simp [text]
      omega

theorem length_sectionText_lt {dispUrl urlSection : CStr} (hd : dispUrl.length ≤ 155)
    (hs : urlSection.length ≤ 79) : (sectionText dispUrl urlSection).length < 256 := by
  simp [sectionText]
  omega

/-- No URL is cut. -/
theorem Endpoint.url_eq {dispUrl eventsUrl : CStr} (hd : dispUrl.length ≤ 155)
    (he : eventsUrl.length ≤ 155) {e : Endpoint} (hi : e.IsInt) :
    e.url dispUrl eventsUrl = e.text dispUrl eventsUrl :=
  snprintf_of_length_lt (length_text_lt hd he hi)

/-! ### From `url` to the branch -/

/-- The URLs of a single device are taken for what they are. -/
theorem route_device {d : DeviceId} {r : Request} (hr : r.toDisp = true) (hne : r ≠ .getDevices)
    (hdevices : "/devices/".toList <:+: r.url d) (hjson : ".json".toList <:+: r.url d) :
    route (r.url d) = .device := by
  rw [route, Request.not_newData hr, Request.not_devices hr hne, if_neg Bool.false_ne_true,
    if_neg Bool.false_ne_true, contains_iff.mpr hdevices, contains_iff.mpr hjson]
  rfl

/-- The endpoints under `disp_url` as requests. -/
def Endpoint.request : Endpoint → Option Request
  | info => some .getInfo
  | devices => some .getDevices
  | device n => some (.updateDeviceStatus n true)
  | currentConsumed n => some (.updateDeviceCurrent n 0)
  | newData | retrievedData => none

theorem Endpoint.url_request {d : DeviceId} {e : Endpoint} {r : Request} (h : e.request = some r) :
    e.url d.dispUrl d.eventsUrl = r.url d := by
  cases e <;> cases h <;> rfl

/-- The info endpoint is recognised by the last test. -/
theorem route_getInfo (d : DeviceId) : route (Request.getInfo.url d) = .info := by
  have hlen : (Request.getInfo.urlText d).length < 256 := by
    have := d.length_dispUrl
    simp [Request.urlText]
    omega
  have hinfo : "/info.json".toList <:+: Request.getInfo.url d := by
    rw [Request.url, snprintf_of_length_lt hlen, Request.urlText, d.dispUrl_eq]
    exact ⟨dispBase ++ '/' :: (d.text ++ '/' :: "data".toList), [], by simp⟩
  have hdevices : ¬ "/devices/".toList <:+: Request.getInfo.url d := by
    have hword : ¬ '/' :: "devices".toList <:+: Request.getInfo.urlText d := by
      rw [Request.urlText_eq rfl]
      exact d.not_infix_dispUrl (c := 'v') (by decide) (by decide) (by decide) (by decide)
        (by decide) (Request.slash_not_mem_segments) (by decide)
    intro h
    exact not_infix_snprintf hword
      ((show '/' :: "devices".toList <:+: "/devices/".toList from ⟨[], ['/'], rfl⟩).trans h)
  rw [route, Request.not_newData rfl, Request.not_devices rfl (by decide),
    if_neg Bool.false_ne_true, if_neg Bool.false_ne_true, contains_iff.mpr hinfo,
    Bool.eq_false_iff.mpr (mt contains_iff.mp hdevices)]
  rfl

/-- `retrievedData.json` is recognised by none. -/
theorem route_retrievedData (d : DeviceId) :
    route (Endpoint.retrievedData.url d.dispUrl d.eventsUrl) = .unknown := by
  have htext : Endpoint.retrievedData.text d.dispUrl d.eventsUrl =
      joinSegments '/' eventsBase [d.text, "retrievedData.json".toList] := by
    rw [Endpoint.text, d.eventsUrl_eq]
    simp [joinSegments]
  have hnone : ∀ {w : CStr} {c : Char}, '/' ∉ w → c ∈ w → isHexDigit c = false →
      ¬ '/' :: w <:+: eventsBase → ¬ w <+: "retrievedData.json".toList →
      ¬ '/' :: w <:+: Endpoint.retrievedData.url d.dispUrl d.eventsUrl := by
    intro w c hw hc hhex hbase hseg
    apply not_infix_snprintf
    rw [htext]
    exact d.not_infix_joinSegments hw hc hhex hbase (by decide) (by simpa using hseg)
  have hnew : ¬ "/newData.json".toList <:+: Endpoint.retrievedData.url d.dispUrl d.eventsUrl :=
    @hnone "newData.json".toList 'w' (by decide) (by decide) (by decide) (by decide) (by decide)
  have hdevices : ¬ "/devices".toList <:+: Endpoint.retrievedData.url d.dispUrl d.eventsUrl :=
    @hnone "devices".toList 'v' (by decide) (by decide) (by decide) (by decide) (by decide)
  have hinfo : ¬ "/info.json".toList <:+: Endpoint.retrievedData.url d.dispUrl d.eventsUrl :=
    @hnone "info.json".toList 'i' (by decide) (by decide) (by decide) (by decide) (by decide)
  have htable : ¬ "/devices.json".toList <:+: Endpoint.retrievedData.url d.dispUrl d.eventsUrl :=
    fun h => hdevices
      ((show "/devices".toList <:+: "/devices.json".toList from ⟨[], ".json".toList, rfl⟩).trans h)
  have hdevice : ¬ "/devices/".toList <:+: Endpoint.retrievedData.url d.dispUrl d.eventsUrl :=
    fun h => hdevices
      ((show "/devices".toList <:+: "/devices/".toList from ⟨[], ['/'], rfl⟩).trans h)
  simp only [← contains_iff, Bool.not_eq_true] at hnew hinfo htable hdevice
  rw [route, hnew, htable, hdevice, hinfo]
  rfl

/-- The answer from each endpoint is taken for what it is. -/
theorem Endpoint.route_url (d : DeviceId) {e : Endpoint} (hi : e.IsInt) :
    route (e.url d.dispUrl d.eventsUrl) = e.branch := by
  have hl := d.length_dispUrl
  have hl' := d.length_eventsUrl
  have hurl := @url_eq d.dispUrl d.eventsUrl (by omega) (by omega) e hi
  cases e with
  | newData => exact route_getNewData d
  | info => exact route_getInfo d
  | devices => exact route_getDevices d
  | device n =>
      rw [url_request rfl] at hurl ⊢
      apply route_device rfl (by simp)
      · rw [hurl, text, List.append_assoc, List.append_assoc, d.dispUrl_eq]
        exact ⟨dispBase ++ '/' :: (d.text ++ '/' :: "data".toList), decimal n ++ ".json".toList,
          by simp⟩
      · rw [hurl, text]
        exact ⟨_, [], List.append_nil _⟩
  | currentConsumed n =>
      rw [url_request rfl] at hurl ⊢
      apply route_device rfl (by simp)
      · rw [hurl, text, List.append_assoc, List.append_assoc, d.dispUrl_eq]
        exact ⟨dispBase ++ '/' :: (d.text ++ '/' :: "data".toList),
          decimal n ++ "/currentConsumed.json".toList, by simp⟩
      · rw [hurl, text]
        exact ⟨d.dispUrl ++ "devices/".toList ++ decimal n ++ "/currentConsumed".toList, [],
          by simp⟩
  | retrievedData => exact route_retrievedData d

/-- **Built URLs are complete and come back to their own parser.**  With the addresses stored for a
device id and read back, no URL is cut, and the answer is routed to the branch of its endpoint;
and no URL is cut with any addresses and section that fill their arrays. -/
theorem builtUrls {d : DeviceId} {nvs : Nvs} (h : StoresServerUrls d nvs)
    (dispUrl eventsUrl : CharArray serverUrlMaxLen) (g : Globals) :
    (∀ e : Endpoint, e.IsInt →
      let stored := readServerCredentials nvs {} dispUrl eventsUrl
      let url := e.url stored.1.str stored.2.str
      url = e.text stored.1.str stored.2.str ∧ url.length < 256 ∧
        route (urlAfter (some url) g) = e.branch) ∧
    ∀ dispUrl eventsUrl urlSection : CStr, dispUrl.length ≤ 155 → eventsUrl.length ≤ 155 →
      urlSection.length ≤ 79 →
      (∀ e : Endpoint, e.IsInt → e.url dispUrl eventsUrl = e.text dispUrl eventsUrl) ∧
        snprintf 256 (sectionText dispUrl urlSection) = sectionText dispUrl urlSection := by
  constructor
  · intro e hi
    obtain ⟨hd, he⟩ := readServerCredentials_of_stored h dispUrl eventsUrl
    have hl := d.length_dispUrl
    have hl' := d.length_eventsUrl
    have hurl := @Endpoint.url_eq d.dispUrl d.eventsUrl (by omega) (by omega) e hi
    have hlt := @Endpoint.length_text_lt d.dispUrl d.eventsUrl (by omega) (by omega) e hi
    simp only [hd, he, urlAfter_some]
    refine ⟨hurl, hurl ▸ hlt, ?_⟩
    rw [Endpoint.url, snprintf_snprintf]
    exact Endpoint.route_url d hi
  · intro dispUrl eventsUrl urlSection hd he hs
    exact ⟨fun e hi => Endpoint.url_eq hd he hi,
      snprintf_of_length_lt (length_sectionText_lt hd hs)⟩

/-- The addresses of the example device, saved into an NVS that takes them. -/
theorem exampleServerUrls :
    StoresServerUrls exampleId (saveServerCredentials {} exampleGlobals exampleId.text).nvs :=
  .save rfl (by decide) (by decide)

/-- The relays of the example device come back to the single-device branch. -/
theorem builtUrls_example :
    let nvs := (saveServerCredentials {} exampleGlobals exampleId.text).nvs
    let stored := readServerCredentials nvs {} (.zero serverUrlMaxLen) (.zero serverUrlMaxLen)
    route (urlAfter (some ((Endpoint.device (-2 ^ 31)).url stored.1.str stored.2.str))
        exampleGlobals) = .device ∧
      snprintf 256 (sectionText dispBase "devices/3".toList) =
        sectionText dispBase "devices/3".toList :=
  have h := builtUrls exampleServerUrls (.zero serverUrlMaxLen) (.zero serverUrlMaxLen)
    exampleGlobals
  ⟨(h.1 (.device (-2 ^ 31)) (by decide)).2.2,
    (h.2 dispBase eventsBase "devices/3".toList (by decide) (by decide) (by decide)).2⟩

end Sicae
