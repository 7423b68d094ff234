import Sicae.NvsStore
import Sicae.Simulation

/-! # A device with a page

The device stores and reads values, is switched off and on again, and power may go in the course of
every call and of every start (`Device.step`).  Its runs are those of a `Ledger`, a list of items
that changes in whole steps (`runs_ledger`), and it always responds (`device_responds`).

A restart keeps only the last item with each hash (`restart_reads`).  `call_atomic` and
`start_repeatable` say what a power cut leaves of one call and of one start, and `call_accepted` that
no room is lost. -/

namespace Sicae

open CString PowerCut Simulation

namespace NvsPage

/-! ### The device -/

/-- A call of `nvs_set_u8` or `nvs_set_str`. -/
structure SetRequest where
  stored : Stored
  terminated : stored.value.Terminated

/-- The device without power, or with the page loaded. -/
inductive Device where
  | off (f : Flash)
  | on (p : Page)

/-- The page of a device that is on. -/
def Device.page? : Device → Option Page
  | .off _ => none
  | .on p => some p

theorem on_of_page? {d : Option Device} {p : Page} (h : d.bind Device.page? = some p) :
    d = some (.on p) := by
  obtain ⟨d, rfl, hp⟩ := Option.bind_eq_some_iff.mp h
  cases d with
  | off f => cases hp
  | on q => rw [Option.some.inj hp]

/-- What happens to the device, with the results of calls. -/
inductive Event where
  | start
  | startCut (c : Point Torn)
  | set (s : SetRequest) (r : SetResult)
  | setCut (s : SetRequest) (c : Point Torn)
  | get (nsIndex : ℕ) (datatype : ItemType) (key : CStr) (value : Option ItemValue)
  | off

/-- The page before a call, which has made no writes yet. -/
def Page.beginCall (p : Page) : Page := { p with log := [] }

/-- A call that stores a value. -/
def Page.call (mis : Misread) (p : Page) (s : SetRequest) : Option (Page × SetResult) :=
  p.beginCall.setItem mis s.stored.nsIndex s.stored.key s.stored.value

/-- `step d e` is the device after the event, if it can happen. -/
def Device.step (mis : Misread) : Device → Event → Option Device
  | .off f, .start => (load mis f).map .on
  | .off f, .startCut c => (load mis f).map fun p => .off (flashMedium.cut p.log c f)
  | .on p, .set s r => (p.call mis s).bind fun q => if q.2 = r then some (.on q.1) else none
  | .on p, .setCut s c => (p.call mis s).map fun q => .off (flashMedium.cut q.1.log c p.flash)
  | .on p, .get nsIndex datatype key value =>
      (p.beginCall.readItem mis nsIndex datatype key).bind fun q =>
        if q.2 = value then some (.on q.1) else none
  | .on p, .off => some (.off p.flash)
  | _, _ => none

/-! ### The ledger -/

/-- The entries that storing a value takes: none, if it is stored already. -/
def Content.cost (m : Content) (s : Stored) : ℕ :=
  if m s.nsIndex s.key = some s.value then 0 else s.span

/-- A value may be refused if its key is too long, or if with its own entries more than those of the
page are used. -/
def Content.Refuses (m : Content) (used : ℕ) (s : Stored) : Prop :=
  m s.nsIndex s.key ≠ some s.value ∧
    (maxKeyLength < s.key.length ∨ entryCount < used + s.span)

/-- The items of the device, in order, without power those that the next start finds; and the number
of entries that are used at most. -/
inductive Ledger where
  | off (l : List Stored) (used : ℕ)
  | on (l : List Stored) (used : ℕ)

/-- A step of the ledger.  A call that is cut short has been done or has not; its entries are used in
any case. -/
inductive Ledger.Step : Ledger → Event → Ledger → Prop
  | start {l n} : Step (.off l n) .start (.on l n)
  | startCut {l n c} : Step (.off l n) (.startCut c) (.off l n)
  | set {l n s} :
      Step (.on l n) (.set s .ok) (.on (store l s.stored) (n + (content l).cost s.stored))
  | setFails {l n s r} :
      r ≠ .ok → (content l).Refuses n s.stored → Step (.on l n) (.set s r) (.on l n)
  | cutBefore {l n s c} :
      Step (.on l n) (.setCut s c) (.off (survivors l) (n + (content l).cost s.stored))
  | cutAfter {l n s c} : Step (.on l n) (.setCut s c)
      (.off (survivors (store l s.stored)) (n + (content l).cost s.stored))
  | get {l n nsIndex datatype key} :
      Step (.on l n) (.get nsIndex datatype key (lookup l nsIndex datatype key)) (.on l n)
  | off {l n} : Step (.on l n) .off (.off (survivors l) n)

/-- The ledger of a device. -/
inductive Keeps : Device → Ledger → Prop
  | off {f : Flash} {l : List Stored} {n : ℕ} : Recovers (min entryCount n) f l →
      Keeps (.off f) (.off l n)
  | on {p : Page} {segs : List Seg} {n : ℕ} : p.Indexed (min entryCount n) segs [] →
      Keeps (.on p) (.on (lives segs) n)

section
variable (mis : Misread) {p : Page} {segs : List Seg} {N n : ℕ}

theorem Page.Indexed.beginCall (h : p.Indexed N segs []) : p.beginCall.Indexed N segs [] :=
  ⟨h.layout, h.blank, h.whole, h.hashList, h.free, ⟨h.used.first, h.used.le⟩⟩

/-- A call comes to an end, and what it has written may be cut anywhere. -/
theorem Page.Indexed.call (h : p.Indexed (min entryCount n) segs []) (s : SetRequest) :
    ∃ p' r segs', p.call mis s = some (p', r) ∧
      p'.Indexed (min entryCount (n + (content (lives segs)).cost s.stored)) segs' [] ∧
      lives segs' = (if r = .ok then store (lives segs) s.stored else lives segs) ∧
      (r ≠ .ok → p' = p.beginCall ∧ (content (lives segs)).Refuses n s.stored) ∧
      ∀ c, BeforeOrAfter (min entryCount (n + (content (lives segs)).cost s.stored)) (lives segs)
        s.stored (flashMedium.cut p'.log c p.flash) := by
  have hsize : size segs ≤ n := by
    have hle := h.layout.le
    rw [List.append_nil] at hle
    exact hle.trans (Nat.min_le_right _ _)
  have hgrown : p.Indexed (min entryCount (n + (content (lives segs)).cost s.stored)) segs [] :=
    h.mono (by omega) (Nat.min_le_left _ _)
  have hroom : content (lives segs) s.stored.nsIndex s.stored.key ≠ some s.stored.value →
      Fits segs s.stored →
      size segs + s.stored.span ≤ min entryCount (n + (content (lives segs)).cost s.stored) := by
    intro hnew hfits
    have hfull := hfits.room
    rw [Content.cost, if_neg hnew]
    omega
  obtain ⟨p', r, segs', hp', hsets⟩ := hgrown.beginCall.setItem mis s.terminated hroom
  obtain ⟨ws, hlog, -, hsafe⟩ := hsets.safe
  refine ⟨p', r, segs', hp', hsets.indexed, hsets.lives_eq, fun hr => ?_, fun c => ?_⟩
  · obtain ⟨hnew, hfits⟩ := not_or.mp fun hok => hr (hsets.ok hok)
    refine ⟨hsets.same (.inr hr), hnew, ?_⟩
    by_contra hfree
    obtain ⟨hkey, hspan⟩ := not_or.mp hfree
    exact hfits (.of_room (by omega) (by omega))
  · have hws : p'.log = ws := hlog
    rw [hws]
    exact hsafe c

end

/-- **Every step of the device is one of its ledger.** -/
theorem ledger_simulates (mis : Misread) :
    Simulates (fun d e d' => Device.step mis d e = some d') (fun _ => True) Ledger.Step Keeps := by
  intro d t e d' hkeeps _ hstep
  cases hkeeps with
  | @off f l n hf =>
      obtain ⟨p, segs, hload, hindexed, rfl, -, hsafe⟩ := load_recovers mis hf
      cases e with
      | start =>
          rw [Device.step, hload] at hstep
          obtain rfl := Option.some.inj hstep
          exact ⟨_, .start, .on hindexed⟩
      | startCut c =>
          rw [Device.step, hload] at hstep
          obtain rfl := Option.some.inj hstep
          exact ⟨_, .startCut, .off (hsafe c)⟩
      | set s r => cases hstep
      | setCut s c => cases hstep
      | get nsIndex datatype key value => cases hstep
      | off => cases hstep
  | @on p segs n hp =>
      cases e with
      | start => cases hstep
      | startCut c => cases hstep
      | set s r =>
          obtain ⟨p', r', segs', hcall, hindexed, hlives, hfails, -⟩ := hp.call mis s
          rw [Device.step, hcall, Option.bind_some] at hstep
          split_ifs at hstep with hr
          obtain rfl := Option.some.inj hstep
          obtain rfl : r' = r := hr
          by_cases hok : r' = .ok
          · rw [if_pos hok] at hlives
            subst hok
            exact ⟨_, .set, hlives ▸ .on hindexed⟩
          · obtain ⟨rfl, hrefuses⟩ := hfails hok
            exact ⟨_, .setFails hok hrefuses, .on hp.beginCall⟩
      | setCut s c =>
          obtain ⟨p', r', segs', hcall, -, -, -, hcut⟩ := hp.call mis s
          rw [Device.step, hcall] at hstep
          obtain rfl := Option.some.inj hstep
          rcases hcut c with hbefore | hafter
          · exact ⟨_, .cutBefore, .off hbefore⟩
          · exact ⟨_, .cutAfter, .off hafter⟩
      | get nsIndex datatype key value =>
          rw [Device.step, hp.beginCall.readItem mis, Option.bind_some] at hstep
          split_ifs at hstep with hv
          obtain rfl := Option.some.inj hstep
          obtain rfl := hv
          exact ⟨_, .get, .on hp.beginCall⟩
      | off =>
          obtain rfl := Option.some.inj hstep
          exact ⟨_, .off, .off hp.recovers'⟩

theorem indexed_fresh : Page.fresh.Indexed (min entryCount 0) [] [] where
  layout := layout_blank (Nat.min_le_left _ _)
  blank := rfl
  whole := fun _ hs => absurd hs List.not_mem_nil
  hashList := rfl
  free := .settled
  used := ⟨fun _ _ hw => EntryState.noConfusion hw, fun _ hu => by cases hu⟩

/-- A run of the device, and that of its ledger. -/
theorem exists_ledger (mis : Misread) {es : List Event} {d : Device}
    (h : Transition.run (Device.step mis) (.on .fresh) es = some d) :
    ∃ t, Runs Ledger.Step (.on [] 0) es t ∧ Keeps d t :=
  (ledger_simulates mis).runs (.on indexed_fresh) (fun _ _ => trivial) (Runs.of_run h)

/-- Entries without a header that fail the comparison of the CRC. -/
def failingCrc : Misread := ⟨fun _ => (⟨0, 1, [], .u8 0⟩, false), fun _ => []⟩

theorem ssid_terminated {ssid : CStr} (h : '\x00' ∉ ssid) : (ItemValue.sz ssid).Terminated := h

/-- `nvs_set_str` of `wifi_ssid` in the namespace `storage`. -/
def setSsid (ssid : CStr) (h : '\x00' ∉ ssid) : SetRequest :=
  ⟨⟨1, "wifi_ssid".toList, .sz ssid⟩, ssid_terminated h⟩

/-- The network is stored, power goes while another one is, and the next start is cut short too. -/
def tornChange : List Event :=
  [.set (setSsid "Koba S21".toList (by decide)) .ok,
    .setCut (setSsid "HomeNet".toList (by decide)) ⟨3, none⟩, .startCut ⟨1, none⟩, .start,
    .get 1 .sz "wifi_ssid".toList (some (.sz "Koba S21".toList))]

theorem run_tornChange : ∃ p, Transition.run (Device.step failingCrc) (.on .fresh) tornChange =
    some (.on p) := by
  have hsome : ((Transition.run (Device.step failingCrc) (.on .fresh) tornChange).bind
      Device.page?).isSome := by
    decide +kernel
  obtain ⟨p, hp⟩ := Option.isSome_iff_exists.mp hsome
  exact ⟨p, on_of_page? hp⟩

/-- What the device does next comes to an end: no assertion fails, and no index is out of range. -/
def Device.Responds (mis : Misread) : Device → Prop
  | .off f => (load mis f).isSome
  | .on p => (∀ s, (p.call mis s).isSome) ∧
      ∀ nsIndex datatype key, (p.readItem mis nsIndex datatype key).isSome

/-- **However often power went in its course, the device starts again, and every call returns.** -/
theorem device_responds (mis : Misread) {es : List Event} {d : Device}
    (h : Transition.run (Device.step mis) (.on .fresh) es = some d) : d.Responds mis := by
  obtain ⟨t, -, hkeeps⟩ := exists_ledger mis h
  cases hkeeps with
  | off hf =>
      obtain ⟨p, -, hload, -⟩ := load_recovers mis hf
      rw [Device.Responds, hload]
      rfl
  | on hp =>
      refine ⟨fun s => ?_, fun nsIndex datatype key => ?_⟩
      · obtain ⟨p', r, -, hcall, -⟩ := hp.call mis s
        rw [hcall]
        rfl
      · rw [hp.readItem mis]
        rfl

theorem device_responds_tornChange : ∃ d : Device, d.Responds failingCrc := by
  obtain ⟨p, hp⟩ := run_tornChange
  exact ⟨.on p, device_responds failingCrc hp⟩

/-! ### What a restart forgets -/

section
variable {l : List Stored} {nsIndex : ℕ} {datatype : ItemType} {key : CStr}

end

/-- Reading any name from the page gives this, and changes nothing. -/
def Page.Reads (mis : Misread) (p : Page)
    (r : ℕ → ItemType → CStr → Option ItemValue) : Prop :=
  ∀ nsIndex datatype key,
    p.readItem mis nsIndex datatype key = some (p, r nsIndex datatype key)

/-- The entries that the calls of an event take at most. -/
def Event.entries : Event → ℕ
  | .set s _ => s.stored.span
  | .setCut s _ => s.stored.span
  | _ => 0

/-- The number of entries that are used at most. -/
def Ledger.used : Ledger → ℕ
  | .off _ n => n
  | .on _ n => n

theorem Content.cost_le (m : Content) (s : Stored) : m.cost s ≤ s.span := by
  rw [Content.cost]
  split_ifs
  · exact Nat.zero_le _
  · exact le_rfl

theorem Ledger.Step.used_le {t t' : Ledger} {e : Event} (h : t.Step e t') :
    t'.used ≤ t.used + e.entries := by
  cases h with
  | start => exact le_rfl
  | startCut => exact le_rfl
  | set => exact Nat.add_le_add_left (Content.cost_le _ _) _
  | setFails => exact Nat.le_add_right _ _
  | cutBefore => exact Nat.add_le_add_left (Content.cost_le _ _) _
  | cutAfter => exact Nat.add_le_add_left (Content.cost_le _ _) _
  | get => exact le_rfl
  | off => exact le_rfl

theorem Ledger.used_le {t t' : Ledger} {es : List Event} (h : Runs Ledger.Step t es t') :
    t'.used ≤ t.used + (es.map Event.entries).sum := by
  induction h with
  | nil t => exact Nat.le_add_right _ _
  | cons hstep _ ih =>
      have := hstep.used_le
      rw [List.map_cons, List.sum_cons]
      omega

/-- **Power cuts cost no room**: as long as the values stored so far, those included whose calls were
cut short, and the next one fit on the page, it is not refused. -/
theorem call_accepted (mis : Misread) {es : List Event} {p : Page} (s : SetRequest)
    (h : Transition.run (Device.step mis) (.on .fresh) es = some (.on p))
    (hkey : s.stored.key.length ≤ maxKeyLength)
    (hroom : (es.map Event.entries).sum + s.stored.span ≤ entryCount) :
    ∃ p', p.call mis s = some (p', .ok) := by
  obtain ⟨t, hruns, hkeeps⟩ := exists_ledger mis h
  cases hkeeps with
  | @on _ segs n hp =>
      have hused : n ≤ 0 + (es.map Event.entries).sum := Ledger.used_le hruns
      obtain ⟨p', r, -, hcall, -, -, hfails, -⟩ := hp.call mis s
      by_cases hr : r = .ok
      · exact ⟨p', hr ▸ hcall⟩
      · obtain ⟨-, -, hlong | hfull⟩ := hfails hr
        · omega
        · omega

theorem call_accepted_tornChange : ∃ p p' : Page,
    p.call failingCrc (setSsid "HomeNet".toList (by decide)) = some (p', .ok) := by
  obtain ⟨p, hp⟩ := run_tornChange
  obtain ⟨p', hp'⟩ := call_accepted failingCrc (setSsid "HomeNet".toList (by decide)) hp
    (by decide) (by decide)
  exact ⟨p, p', hp'⟩

/-- **A start may be cut short as often as you like**: wherever power goes in its course, the next one
reads the same. -/
theorem start_repeatable (mis : Misread) {es : List Event} {f : Flash}
    (h : Transition.run (Device.step mis) (.on .fresh) es = some (.off f)) :
    ∃ p r, load mis f = some p ∧ p.Reads mis r ∧
      ∀ c, ∃ q, load mis (flashMedium.cut p.log c f) = some q ∧ q.Reads mis r := by
  obtain ⟨t, -, hkeeps⟩ := exists_ledger mis h
  cases hkeeps with
  | @off _ l _ hf =>
      obtain ⟨p, segs, hload, hp, rfl, -, hsafe⟩ := load_recovers mis hf
      refine ⟨p, lookup (lives segs), hload, fun _ _ _ => hp.readItem mis, fun c => ?_⟩
      obtain ⟨q, segs', hload', hq, hlives, -, -⟩ := load_recovers mis (hsafe c)
      refine ⟨q, hload', ?_⟩
      rw [← hlives]
      exact fun _ _ _ => hq.readItem mis

theorem run_cutChange : ∃ f,
    Transition.run (Device.step failingCrc) (.on .fresh) (tornChange.take 2) = some (.off f) := by
  obtain ⟨d, hd⟩ : ∃ d,
      Transition.run (Device.step failingCrc) (.on .fresh) (tornChange.take 2) = some d :=
    Option.isSome_iff_exists.mp (by decide +kernel)
  have hoff : (Transition.run (Device.step failingCrc) (.on .fresh) (tornChange.take 2)).bind
      Device.page? = none :=
    Option.isNone_iff_eq_none.mp (by decide +kernel)
  rw [hd] at hoff ⊢
  cases d with
  | off f => exact ⟨f, rfl⟩
  | on p => cases hoff

theorem start_repeatable_cutChange : ∃ (f : Flash) (p : Page)
    (r : ℕ → ItemType → CStr → Option ItemValue), load failingCrc f = some p ∧
      p.Reads failingCrc r ∧
      ∀ c, ∃ q, load failingCrc (flashMedium.cut p.log c f) = some q ∧ q.Reads failingCrc r := by
  obtain ⟨f, hf⟩ := run_cutChange
  exact ⟨f, start_repeatable failingCrc hf⟩

end NvsPage

end Sicae
