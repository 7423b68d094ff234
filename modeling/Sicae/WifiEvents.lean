import Sicae.Globals
import Sicae.History

/-! # Wi-Fi events

`event_handler` keeps the retry counter `s_retry_num` and the two bits of `s_wifi_event_group`.
An event that the station lost its access point makes it connect again while the counter is below
`CONFIG_ESP_MAXIMUM_RETRY`, and sets WIFI_FAIL_BIT from then on; an address clears the counter
and sets WIFI_CONNECTED_BIT.

The counter and the fail bit are those of a machine that counts the losses since the last
address (`wifiRun_sRetryNum`, `wifiRun_failBit`).  No event clears a bit, so WIFI_CONNECTED_BIT
says that there was an address, not that the station still has it (`wifiRun_connectedBit`). -/

namespace Sicae

open History

/-! ### The handler -/

/-- `esp_netif_ip_info_t`. -/
structure IpInfo where
  ip : BitVec 32
  netmask : BitVec 32
  gw : BitVec 32
deriving DecidableEq, Repr

/-- The events that `event_handler` tells apart, and any other event it is registered for. -/
inductive WifiEvent where
  | staStart
  | staDisconnected
  | staGotIp (ipInfo : IpInfo)
  | apStaConnected
  | apStaDisconnected
  | other
deriving DecidableEq, Repr

/-- IP_EVENT_STA_GOT_IP. -/
def WifiEvent.isGotIp : WifiEvent → Bool
  | .staGotIp _ => true
  | _ => false

/-- WIFI_EVENT_STA_DISCONNECTED. -/
def WifiEvent.isDisconnected : WifiEvent → Bool
  | .staDisconnected => true
  | _ => false

/-- WIFI_EVENT_STA_START. -/
def WifiEvent.isStart : WifiEvent → Bool
  | .staStart => true
  | _ => false

/-- CONFIG_ESP_MAXIMUM_RETRY. -/
def maximumRetry : ℕ := 5

/-- What `event_handler` reads and writes, and the calls of `esp_wifi_connect` so far. -/
structure WifiState where
  sRetryNum : ℕ := 0
  connectedBit : Bool := false
  failBit : Bool := false
  connectCalls : ℕ := 0
  systemIp : IpInfo := ⟨0, 0, 0⟩
  lcd : Lcd := .text "INICIANDO".toList "WIFI".toList
deriving DecidableEq

/-- `event_handler`. -/
def eventHandler (s : WifiState) : WifiEvent → WifiState
  | .staStart => { s with connectCalls := s.connectCalls + 1 }
  | .staDisconnected =>
      if s.sRetryNum < maximumRetry then
        { s with connectCalls := s.connectCalls + 1, sRetryNum := s.sRetryNum + 1 }
      else
        { s with failBit := true }
  | .staGotIp ipInfo =>
      -- the LCD shows the address: printCurrentIP
      { s with systemIp := ipInfo, lcd := .currentIp, sRetryNum := 0, connectedBit := true }
  | .apStaConnected | .apStaDisconnected | .other => s

/-- The events delivered since start-up. -/
def wifiRun (es : List WifiEvent) : WifiState := es.foldl eventHandler {}

@[simp] theorem wifiRun_nil : wifiRun [] = {} := rfl

theorem wifiRun_concat (es : List WifiEvent) (e : WifiEvent) :
    wifiRun (es ++ [e]) = eventHandler (wifiRun es) e := List.foldl_concat ..

/-! ### One event -/

/-- The handler counts the losses up to the limit. -/
theorem eventHandler_sRetryNum (s : WifiState) (e : WifiEvent) :
    (eventHandler s e).sRetryNum =
      if e.isGotIp then 0
      else if e.isDisconnected ∧ s.sRetryNum < maximumRetry then s.sRetryNum + 1
      else s.sRetryNum := by
  cases e with
  | staDisconnected =>
      by_cases h : s.sRetryNum < maximumRetry <;>
        simp [eventHandler, WifiEvent.isGotIp, WifiEvent.isDisconnected, h]
  | staStart | staGotIp | apStaConnected | apStaDisconnected | other => rfl

theorem eventHandler_connectedBit (s : WifiState) (e : WifiEvent) :
    (eventHandler s e).connectedBit = (s.connectedBit || e.isGotIp) := by
  cases e with
  | staDisconnected =>
      by_cases h : s.sRetryNum < maximumRetry <;> simp [eventHandler, WifiEvent.isGotIp, h]
  | staStart | staGotIp | apStaConnected | apStaDisconnected | other =>
      simp [eventHandler, WifiEvent.isGotIp]

theorem eventHandler_failBit (s : WifiState) (e : WifiEvent) :
    (eventHandler s e).failBit = true ↔
      s.failBit = true ∨ e.isDisconnected = true ∧ maximumRetry ≤ s.sRetryNum := by
  cases e with
  | staDisconnected =>
      by_cases h : s.sRetryNum < maximumRetry
      · simp [eventHandler, WifiEvent.isDisconnected, h]
      · simp [eventHandler, WifiEvent.isDisconnected, h, Nat.not_lt.mp h]
  | staStart | staGotIp | apStaConnected | apStaDisconnected | other =>
      simp [eventHandler, WifiEvent.isDisconnected]

/-- The handler connects at the start of the station and at a loss below the limit. -/
theorem eventHandler_connectCalls (s : WifiState) (e : WifiEvent) :
    (eventHandler s e).connectCalls =
      s.connectCalls + (if e.isStart then 1 else 0) +
        (if e.isDisconnected ∧ s.sRetryNum < maximumRetry then 1 else 0) := by
  cases e with
  | staDisconnected =>
      by_cases h : s.sRetryNum < maximumRetry <;>
        simp [eventHandler, WifiEvent.isDisconnected, WifiEvent.isStart, h]
  | staStart | staGotIp | apStaConnected | apStaDisconnected | other =>
      simp [eventHandler, WifiEvent.isDisconnected, WifiEvent.isStart]

theorem not_isGotIp_of_isDisconnected (e : WifiEvent) (h : e.isDisconnected = true) :
    e.isGotIp = false := by
  cases e <;> simp_all [WifiEvent.isDisconnected, WifiEvent.isGotIp]

/-! ### Histories -/

/-- The losses since the last address, or since start-up. -/
abbrev losses (es : List WifiEvent) : ℕ := count WifiEvent.isGotIp WifiEvent.isDisconnected es

/-- `n` losses occurred with no address between them. -/
abbrev LossesInARow (n : ℕ) (es : List WifiEvent) : Prop :=
  Stretch WifiEvent.isGotIp WifiEvent.isDisconnected n es

/-- The retry counter holds the losses since the last address, at most `maximumRetry`. -/
theorem wifiRun_sRetryNum (es : List WifiEvent) :
    (wifiRun es).sRetryNum = min (losses es) maximumRetry :=
  counter_eq_min eventHandler_sRetryNum rfl es

/-- The fail bit tells whether the retries were exhausted once. -/
theorem wifiRun_failBit (es : List WifiEvent) :
    (wifiRun es).failBit = true ↔ LossesInARow (maximumRetry + 1) es :=
  @flag_iff _ _ _ _ _ _ _ _ (fun s => s.failBit = true) eventHandler_sRetryNum
    not_isGotIp_of_isDisconnected eventHandler_failBit rfl (by simp) es

/-- The connected bit tells whether there was an address. -/
theorem wifiRun_connectedBit (es : List WifiEvent) :
    (wifiRun es).connectedBit = es.any WifiEvent.isGotIp := by
  induction es using List.reverseRecOn with
  | nil => rfl
  | append_singleton es e ih =>
      rw [wifiRun_concat, eventHandler_connectedBit, ih, List.any_append, List.any_cons,
        List.any_nil, Bool.or_false]

/-- A loss makes the station connect again if fewer than `maximumRetry` came before it. -/
theorem connectCalls_staDisconnected (es : List WifiEvent) :
    (wifiRun (es ++ [.staDisconnected])).connectCalls =
      (wifiRun es).connectCalls + if losses es < maximumRetry then 1 else 0 := by
  have hlt : min (losses es) maximumRetry < maximumRetry ↔ losses es < maximumRetry := by omega
  rw [wifiRun_concat, eventHandler_connectCalls, wifiRun_sRetryNum]
  simp [WifiEvent.isStart, WifiEvent.isDisconnected, hlt]

/-- Without an address between them, all losses together lead to as many calls as the counter
advances. -/
theorem connectCalls_append (es : List WifiEvent) {mid : List WifiEvent}
    (h : ∀ e ∈ mid, e.isGotIp = false) :
    (wifiRun (es ++ mid)).connectCalls + (wifiRun es).sRetryNum =
      (wifiRun es).connectCalls + mid.countP WifiEvent.isStart +
        (wifiRun (es ++ mid)).sRetryNum := by
  induction mid using List.reverseRecOn with
  | nil => simp
  | append_singleton mid e ih =>
      have he : e.isGotIp = false := h e (by simp)
      have ih := ih fun x hx => h x (by simp [hx])
      rw [← List.append_assoc, wifiRun_concat, eventHandler_connectCalls, eventHandler_sRetryNum,
        List.countP_append, List.countP_singleton, he]
      simp only [Bool.false_eq_true, if_false]
      split <;> split <;> omega

/-- **Reconnection is bounded, and failure is exhaustion.**  After every sequence of events the
counter is the number of losses since the last address, at most 5; a loss makes the station
connect again exactly if fewer than 5 came before it, so no stretch without an address has more
than 5 such calls; and the fail bit is set exactly if 6 losses occurred with no address between
them. -/
theorem reconnection_bounded (es : List WifiEvent) :
    (wifiRun es).sRetryNum = min (losses es) 5 ∧
    (wifiRun (es ++ [.staDisconnected])).connectCalls =
      (wifiRun es).connectCalls + (if losses es < 5 then 1 else 0) ∧
    (∀ mid : List WifiEvent, (∀ e ∈ mid, e.isGotIp = false) →
      (wifiRun (es ++ mid)).connectCalls ≤
        (wifiRun es).connectCalls + mid.countP WifiEvent.isStart + 5) ∧
    ((wifiRun es).failBit = true ↔ LossesInARow 6 es) := by
  refine ⟨wifiRun_sRetryNum es, connectCalls_staDisconnected es, fun mid h => ?_,
    wifiRun_failBit es⟩
  have hcalls := connectCalls_append es h
  have hmax : (wifiRun (es ++ mid)).sRetryNum ≤ 5 := by
    rw [wifiRun_sRetryNum]
    exact Nat.min_le_right _ _
  omega

/-! ### The connected bit -/

/-- The station has an address: it got one, and lost no access point since the last one. -/
def HasAddress (es : List WifiEvent) : Prop := (∃ e ∈ es, e.isGotIp = true) ∧ losses es = 0

instance (es : List WifiEvent) : Decidable (HasAddress es) := inferInstanceAs (Decidable (_ ∧ _))

/-- The bits of the event group after the events: the connected bit is set if and only if the
station has an address, and never together with the fail bit. -/
def Truthful (es : List WifiEvent) : Prop :=
  ((wifiRun es).connectedBit = true ↔ HasAddress es) ∧
    ¬ ((wifiRun es).connectedBit = true ∧ (wifiRun es).failBit = true)

instance (es : List WifiEvent) : Decidable (Truthful es) := inferInstanceAs (Decidable (_ ∧ _))

/-- **The connected bit tells the truth exactly until the station loses an address.**  It does
after the events that hold no address at all, and after those where no loss follows the last
address and the retries were never exhausted. -/
theorem truthful_iff (es : List WifiEvent) :
    Truthful es ↔ ((∃ e ∈ es, e.isGotIp = true) → losses es = 0 ∧ ¬ LossesInARow 6 es) := by
  have hfail := wifiRun_failBit es
  unfold Truthful HasAddress
  rw [wifiRun_connectedBit, List.any_eq_true, hfail]
  by_cases haddr : ∃ e ∈ es, e.isGotIp = true
  · simp only [haddr, true_and, true_iff, forall_true_left]
    rfl
  · simp [haddr]

/-- The station gets an address and loses its access point. -/
theorem not_truthful_after_loss :
    ¬ Truthful [.staGotIp ⟨0x0100a8c0, 0x00ffffff, 0xfe00a8c0⟩, .staDisconnected] := by
  decide

end Sicae
