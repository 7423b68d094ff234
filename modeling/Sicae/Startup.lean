import Sicae.Transition
import Sicae.WifiEvents

/-! # The fallback access point at start-up

`wifi_init_sta` and then `app_main` wait for one of the two bits of the event group, and both
react to a fail bit that comes without the connected bit by `wifi_init_softap`.  That routine asks
for the default interface of the access point at its start and a second time for the argument of
`esp_netif_get_ip_info`; the interface exists by then, so the assertion of
`esp_netif_create_default_wifi_ap` ends the program.

A run interleaves the events delivered to `event_handler` with the steps of `app_main`.  A wait
returns the bits as they were when it was satisfied: those at the call, or those stored by the
`xEventGroupSetBits` that woke the task, so an address that comes later does not change them.
Once a wait has returned the fail bit alone, the calls made and those ahead stay at least two
(`Fallback`). -/

namespace Sicae

open Transition

/-! ### The start-up -/

/-- The caller of `wifi_init_softap`. -/
inductive SoftapCaller where
  | wifiInitSta
  | appMain
deriving DecidableEq, Repr

/-- What `xEventGroupWaitBits` returns for a wait on either of two bits without a time limit: at
least one of them, so UNEXPECTED EVENT is never logged. -/
inductive WaitBits where
  | connected
  | fail
  | both
deriving DecidableEq, Repr

/-- The bits of the group, if they satisfy the wait. -/
def WifiState.waitBits (s : WifiState) : Option WaitBits :=
  match s.connectedBit, s.failBit with
  | true, true => some .both
  | true, false => some .connected
  | false, true => some .fail
  | false, false => none

/-- The position of `app_main`: at the call of one of the two waits, blocked in it, or ready with the
bits that satisfied it; in `wifi_init_softap`; past the second wait; or ended by an assertion or by
ESP_ERROR_CHECK. -/
inductive StartupPc where
  | wait (caller : SoftapCaller)
  | blocked (caller : SoftapCaller)
  | satisfied (caller : SoftapCaller) (bits : WaitBits)
  | softapCreate (caller : SoftapCaller)
  | softapStart (caller : SoftapCaller)
  | softapGetIp (caller : SoftapCaller)
  | started
  | aborted
  | checkFailed
deriving DecidableEq, Repr

/-- The `wifi_auth_mode_t` values of `wifi_init_softap`. -/
inductive AuthMode where
  | wifiAuthOpen
  | wifiAuthWpa2Psk
deriving DecidableEq, Repr

/-- The `ap` part of `wifi_config_t`. -/
structure SoftapConfig where
  ssid : CString.CStr
  ssidLen : ℕ
  password : CString.CStr
  channel : ℕ
  maxConnection : ℕ
  authmode : AuthMode
deriving DecidableEq, Repr

/-- The configuration that `wifi_init_softap` builds. -/
def softapConfig : SoftapConfig :=
  let ssid := "ESP32AP".toList
  let password := "ap123456".toList
  { ssid, ssidLen := ssid.length, password, channel := 1, maxConnection := 4
    authmode := if password.length = 0 then .wifiAuthOpen else .wifiAuthWpa2Psk }

/-- The globals of the start-up, the default interface of the access point, and the calls of
`esp_netif_create_default_wifi_ap` so far. -/
structure StartupState where
  wifi : WifiState := {}
  pc : StartupPc := .wait .wifiInitSta
  apNetif : Bool := false
  apCalls : ℕ := 0
  softap : Option SoftapConfig := none
deriving DecidableEq

/-- An event is delivered, or `app_main` goes on; `checks` says whether the calls under
ESP_ERROR_CHECK in its step succeed. -/
inductive StartupAct where
  | event (e : WifiEvent)
  | main (checks : Bool)
deriving DecidableEq, Repr

/-- `esp_netif_create_default_wifi_ap`, followed by `next`: a second interface with the same key is
refused, and the assertion on it fails. -/
def createDefaultWifiAp (checks : Bool) (next : StartupState → StartupState) (s : StartupState) :
    StartupState :=
  if s.apNetif then { s with apCalls := s.apCalls + 1, pc := .aborted }
  else if checks then next { s with apCalls := s.apCalls + 1, apNetif := true }
  else { s with apCalls := s.apCalls + 1, pc := .checkFailed }

/-- Where `wifi_init_softap` returns to. -/
def SoftapCaller.next : SoftapCaller → StartupPc
  | .wifiInitSta => .wait .appMain
  | .appMain => .started

/-- The position in `xEventGroupWaitBits` for a state of the group: a wait that its bits satisfy is
over, with these bits, and any other one blocks. -/
def waitPc (caller : SoftapCaller) : Option WaitBits → StartupPc
  | some bits => .satisfied caller bits
  | none => .blocked caller

/-- The test of the bits that a wait returned. -/
def SoftapCaller.afterWait (caller : SoftapCaller) : WaitBits → StartupPc
  | .connected | .both => caller.next
  | .fail => .softapCreate caller

/-- An event is handled; `xEventGroupSetBits` stores the bits for a task that waits for them and
makes it ready. -/
def deliverEvent (e : WifiEvent) (s : StartupState) : StartupState :=
  match s.pc with
  | .blocked caller =>
      { s with wifi := eventHandler s.wifi e, pc := waitPc caller (eventHandler s.wifi e).waitBits }
  | _ => { s with wifi := eventHandler s.wifi e }

/-- The next step of `app_main`, if it is not blocked. -/
def mainStep (checks : Bool) (s : StartupState) : Option StartupState :=
  match s.pc with
  | .wait caller => some { s with pc := waitPc caller s.wifi.waitBits }
  | .blocked _ => none
  | .satisfied caller bits => some { s with pc := caller.afterWait bits }
  | .softapCreate caller =>
      some (createDefaultWifiAp checks (fun s => { s with pc := .softapStart caller }) s)
  | .softapStart caller =>
      -- esp_wifi_set_mode, esp_wifi_set_config, esp_wifi_start
      if checks then some { s with softap := some softapConfig, pc := .softapGetIp caller }
      else some { s with pc := .checkFailed }
  | .softapGetIp caller =>
      -- the argument of esp_netif_get_ip_info, then printCurrentIP
      some (createDefaultWifiAp checks
        (fun s => { s with wifi.lcd := .currentIp, pc := caller.next }) s)
  | .started | .aborted | .checkFailed => none

/-- The program has not ended. -/
def StartupPc.alive : StartupPc → Bool
  | .aborted | .checkFailed => false
  | _ => true

/-- One step of the start-up. -/
def startupStep (s : StartupState) : StartupAct → Option StartupState
  | .event e => if s.pc.alive then some (deliverEvent e s) else none
  | .main checks => mainStep checks s

/-! ### The calls made and those ahead -/

/-- The calls of `esp_netif_create_default_wifi_ap` ahead in `wifi_init_softap`. -/
def StartupPc.callsAhead : StartupPc → ℕ
  | .softapCreate _ => 2
  | .softapStart _ | .softapGetIp _ => 1
  | _ => 0

/-- `app_main` is inside `wifi_init_softap`, or ESP_ERROR_CHECK ended the program there. -/
def StartupPc.inSoftap : StartupPc → Bool
  | .softapCreate _ | .softapStart _ | .softapGetIp _ | .checkFailed => true
  | _ => false

/-- `app_main` is at one of the two waits. -/
def StartupPc.isWait : StartupPc → Bool
  | .wait _ | .blocked _ | .satisfied _ _ => true
  | _ => false

/-- The condition on a step: the bits that satisfied a wait hold the connected bit. -/
def WaitConnected (s : StartupState) : StartupAct → Prop
  | .main _ => ∀ caller bits, s.pc = .satisfied caller bits → bits ≠ .fail
  | .event _ => True

/-- No access point so far: `app_main` is at a wait or past both. -/
def NoFallback (s : StartupState) : Prop :=
  s.apCalls = 0 ∧ s.apNetif = false ∧ (s.pc.isWait = true ∨ s.pc = .started)

/-- `wifi_init_softap` was entered: the calls made and those ahead are at least two, unless
ESP_ERROR_CHECK ended the program. -/
def Fallback (s : StartupState) : Prop :=
  (s.apNetif = true → 1 ≤ s.apCalls) ∧ (s.pc = .checkFailed ∨ 2 ≤ s.apCalls + s.pc.callsAhead)

@[simp] theorem waitPc_isWait (caller : SoftapCaller) (bits : Option WaitBits) :
    (waitPc caller bits).isWait = true := by
  cases bits <;> rfl

@[simp] theorem waitPc_callsAhead (caller : SoftapCaller) (bits : Option WaitBits) :
    (waitPc caller bits).callsAhead = 0 := by
  cases bits <;> rfl

/-- The handler of an event touches neither the interface nor the count of the calls, and moves
`app_main` only inside a wait. -/
theorem deliverEvent_cases (e : WifiEvent) (s : StartupState) :
    deliverEvent e s = { s with wifi := eventHandler s.wifi e } ∨
      ∃ caller, s.pc = .blocked caller ∧
        deliverEvent e s =
          { s with
            wifi := eventHandler s.wifi e
            pc := waitPc caller (eventHandler s.wifi e).waitBits } := by
  unfold deliverEvent
  split
  · rename_i caller hpc
    exact .inr ⟨caller, hpc, rfl⟩
  · exact .inl rfl

theorem startupStep_event {s s' : StartupState} {e : WifiEvent}
    (h : startupStep s (.event e) = some s') : s' = deliverEvent e s := by
  simp only [startupStep] at h
  split at h
  · exact (Option.some.inj h).symm
  · cases h

/-- A step of `app_main` outside `wifi_init_softap` is one of a wait: the call, or the test of the
bits that satisfied it. -/
theorem mainStep_noFallback {s s' : StartupState} {checks : Bool} (hs : NoFallback s)
    (h : mainStep checks s = some s') :
    (∃ caller, s.pc = .wait caller ∧ s' = { s with pc := waitPc caller s.wifi.waitBits }) ∨
      ∃ caller bits, s.pc = .satisfied caller bits ∧ s' = { s with pc := caller.afterWait bits } := by
  unfold mainStep at h
  obtain ⟨-, -, hw | hw⟩ := hs
  · cases hpc : s.pc <;> simp only [hpc] at h hw
    case wait caller => exact .inl ⟨caller, rfl, (Option.some.inj h).symm⟩
    case satisfied caller bits => exact .inr ⟨caller, bits, rfl, (Option.some.inj h).symm⟩
    case blocked => cases h
    all_goals cases hw
  · rw [hw] at h
    cases h

theorem SoftapCaller.next_noFallback (caller : SoftapCaller) :
    caller.next.isWait = true ∨ caller.next = .started := by
  cases caller <;> simp [SoftapCaller.next, StartupPc.isWait]

theorem SoftapCaller.afterWait_of_ne {bits : WaitBits} (caller : SoftapCaller) (h : bits ≠ .fail) :
    caller.afterWait bits = caller.next := by
  cases bits with
  | connected | both => rfl
  | fail => exact absurd rfl h

/-- A wait that returns the connected bit does not lead to the fallback. -/
theorem NoFallback.step {s s' : StartupState} {a : StartupAct} (hs : NoFallback s)
    (ho : WaitConnected s a) (h : startupStep s a = some s') : NoFallback s' := by
  cases a with
  | event e =>
      obtain rfl := startupStep_event h
      rcases deliverEvent_cases e s with heq | ⟨caller, -, heq⟩ <;> rw [heq]
      · exact hs
      · exact ⟨hs.1, hs.2.1, .inl (waitPc_isWait _ _)⟩
  | main checks =>
      rcases mainStep_noFallback hs h with ⟨caller, -, rfl⟩ | ⟨caller, bits, hpc, rfl⟩
      · exact ⟨hs.1, hs.2.1, .inl (waitPc_isWait _ _)⟩
      · have hnext := caller.afterWait_of_ne (ho caller bits hpc)
        exact ⟨hs.1, hs.2.1, by simp only [hnext]; exact caller.next_noFallback⟩

/-- Any other wait does. -/
theorem NoFallback.fallback {s s' : StartupState} {a : StartupAct} (hs : NoFallback s)
    (ho : ¬ WaitConnected s a) (h : startupStep s a = some s') : Fallback s' := by
  cases a with
  | event e => exact absurd trivial ho
  | main checks =>
      obtain ⟨caller, bits, hpc, hbits⟩ : ∃ caller bits, s.pc = .satisfied caller bits ∧
          bits = .fail := by
        simpa [WaitConnected] using ho
      have hs' : s' = { s with pc := .softapCreate caller } := by
        rw [startupStep, mainStep, hpc, hbits] at h
        exact (Option.some.inj h).symm
      rw [hs']
      exact ⟨by simp [hs.2.1], .inr (by simp [StartupPc.callsAhead])⟩

/-- The second call is reached from the first one, and counts even if it ends the program. -/
theorem Fallback.step {s s' : StartupState} {a : StartupAct} (hs : Fallback s)
    (h : startupStep s a = some s') : Fallback s' := by
  obtain ⟨hnet, hcalls⟩ := hs
  cases a with
  | event e =>
      obtain rfl := startupStep_event h
      rcases deliverEvent_cases e s with heq | ⟨caller, hpc, heq⟩ <;> rw [heq]
      · exact ⟨hnet, hcalls⟩
      · simp only [hpc, StartupPc.callsAhead, reduceCtorEq, false_or] at hcalls
        exact ⟨hnet, .inr (by simpa using hcalls)⟩
  | main checks =>
      simp only [startupStep, mainStep] at h
      cases hpc : s.pc with
      | wait caller =>
          simp only [hpc, StartupPc.callsAhead, reduceCtorEq, false_or, Option.some.injEq] at h hcalls
          subst h
          exact ⟨hnet, .inr (by simpa using hcalls)⟩
      | satisfied caller bits =>
          simp only [hpc, StartupPc.callsAhead, reduceCtorEq, false_or, Option.some.injEq] at h hcalls
          subst h
          exact ⟨hnet, .inr (Nat.le_add_right_of_le hcalls)⟩
      | blocked => simp [hpc] at h
      | softapCreate caller =>
          simp only [hpc, StartupPc.callsAhead, reduceCtorEq, false_or, Option.some.injEq] at h hcalls
          subst h
          unfold createDefaultWifiAp
          split
          · exact ⟨by simp, .inr (by have := hnet ‹_›; simp [StartupPc.callsAhead]; omega)⟩
          · split
            · exact ⟨by simp, .inr (by simp [StartupPc.callsAhead])⟩
            · exact ⟨by simp, .inl rfl⟩
      | softapStart caller =>
          simp only [hpc, StartupPc.callsAhead, reduceCtorEq, false_or] at h hcalls
          split at h <;> obtain rfl := Option.some.inj h
          · exact ⟨hnet, .inr (by simp [StartupPc.callsAhead]; omega)⟩
          · exact ⟨hnet, .inl rfl⟩
      | softapGetIp caller =>
          simp only [hpc, StartupPc.callsAhead, reduceCtorEq, false_or, Option.some.injEq] at h hcalls
          subst h
          unfold createDefaultWifiAp
          split
          · exact ⟨by simp, .inr (by simp [StartupPc.callsAhead]; omega)⟩
          · split
            · exact ⟨by simp, .inr (by simp; omega)⟩
            · exact ⟨by simp, .inl rfl⟩
      | started | aborted | checkFailed => simp [hpc] at h

/-! ### Whole runs -/

theorem noFallback_initial : NoFallback {} := ⟨rfl, rfl, .inl rfl⟩

/-- **The access point is asked for at most once exactly if every wait returns the connected
bit**, in a run that does not end inside `wifi_init_softap`. -/
theorem apCalls_le_one_iff {as : List StartupAct} {t : StartupState}
    (hr : run startupStep {} as = some t) (ht : t.pc.inSoftap = false) :
    t.apCalls ≤ 1 ↔ AllSteps startupStep WaitConnected {} as := by
  constructor
  · intro hle
    have hend : ¬ Fallback t := by
      rintro ⟨-, hpc | hcalls⟩
      · rw [hpc] at ht
        cases ht
      · have hahead : t.pc.callsAhead = 0 := by
          cases hpc : t.pc <;> simp_all [StartupPc.inSoftap, StartupPc.callsAhead]
        omega
    refine (allSteps_iff_of_doomed (P := fun _ _ => True) (D := Fallback)
      (fun s a s' hs ho h => ⟨trivial, hs.step ho h⟩) (fun s a s' hs ho _ h => hs.fallback ho h)
      (fun s a s' hs _ h => hs.step h) noFallback_initial hr hend).mp ?_
    exact .of_forall fun _ _ _ => trivial
  · intro hall
    have hend := run_invariant (fun s a s' hs ho h => NoFallback.step hs ho h)
      noFallback_initial hall hr
    rw [hend.1]
    exact Nat.zero_le 1

/-- `wifi_init_sta` blocks, the station starts and loses its access point six times, and `app_main`
goes on from the wait. -/
def fallbackRun : List StartupAct :=
  .main true :: .event .staStart :: List.replicate 6 (.event .staDisconnected) ++
    List.replicate 4 (.main true)

/-- What that run ends in. -/
def fallbackEnd : StartupState where
  wifi := { sRetryNum := 5, failBit := true, connectCalls := 6 }
  pc := .aborted
  apNetif := true
  apCalls := 2
  softap := some softapConfig

theorem apCalls_fallbackRun :
    fallbackEnd.apCalls ≤ 1 ↔ AllSteps startupStep WaitConnected {} fallbackRun :=
  apCalls_le_one_iff (by decide +kernel) rfl

/-- An address that comes when the wait is over does not change what it returns. -/
example :
    (run startupStep {} (.main true :: List.replicate 6 (.event .staDisconnected) ++
      [.event (.staGotIp ⟨0x0100a8c0, 0x00ffffff, 0xfe00a8c0⟩), .main true])).map StartupState.pc =
        some (.softapCreate .wifiInitSta) := by
  decide

/-- `wifi_init_softap` alone asks twice for the access point, and the second time aborts. -/
theorem fallbackRun_aborts :
    ¬ ∀ t, run startupStep {} fallbackRun = some t → t.apCalls ≤ 1 := by
  intro h
  exact absurd (h fallbackEnd (by decide +kernel)) (by decide)

end Sicae
