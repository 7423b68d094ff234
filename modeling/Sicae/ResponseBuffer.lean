import Sicae.DeviceTable
import Sicae.Transition

/-! # The response buffer over a sequence of exchanges

`response_data` is global and is freed at the bottom of the `ON_FINISH` branch.  An exchange
delivers the chunks of one body and then `ON_FINISH`; it leaves the buffer empty and parses its
own body exactly when the branch taken reaches that bottom and the body has no NUL in it
(`BodyOk`).  Over any sequence of exchanges the bodies stay apart exactly when every exchange is
of that kind.

The heap here is the one of the target: an allocation of non-zero size succeeds and `malloc(0)`
returns `NULL`, which makes the table branch break off on an empty array. -/

namespace Sicae

open CString

/-- Surroundings in which allocations succeed, except for `malloc(0)`. -/
structure TargetEnv extends Env where
  malloc_zero : malloc 0 = none
  malloc_pos : ∀ n, 0 < n → (malloc n).isSome

/-- One HTTP exchange as the handler sees it: the URL of the client and a body that arrives in
chunks without chunked transfer coding. -/
structure Exchange where
  env : TargetEnv
  url : CStr
  chunks : List (List Char)

/-- The body of an exchange. -/
def Exchange.body (x : Exchange) : List Char := x.chunks.flatten

section exchanges
variable (parse : CStr → Option Json)

/-- The events of an exchange: `ON_DATA` for every chunk, then `ON_FINISH`. -/
def exchange (g : Globals) (x : Exchange) : Globals :=
  clientEventGetHandler parse x.env.toEnv (some x.url) .onFinish
    (onDataEvents parse x.env.toEnv (some x.url) false x.chunks g)

/-- The step of the system: an exchange is always possible. -/
def exchangeStep (g : Globals) (x : Exchange) : Option Globals := some (exchange parse g x)

/-- What an exchange should do: hand nothing but its own body to the parser, and leave the
buffer empty. -/
def OwnBody (g : Globals) (x : Exchange) : Prop :=
  ((exchange parse g x).parsed = g.parsed ∨ (exchange parse g x).parsed = x.body :: g.parsed) ∧
  (exchange parse g x).response = .empty

/-- The exchanges that reach the bottom of the branch with their body intact: there is no body
at all; or it has no NUL in it where it is parsed, and it is a non-empty array where the table
is built from it. -/
def BodyOk (x : Exchange) : Prop :=
  x.chunks = [] ∨
  ((route (snprintf 256 x.url) ≠ .unknown → '\x00' ∉ x.body) ∧
    (route (snprintf 256 x.url) = .devices →
      ∃ item items, parse x.body = some (.array (item :: items))))

variable {parse}

/-- A table can be allocated exactly if the array is not empty. -/
theorem TargetEnv.isSome_malloc_iff (env : TargetEnv) {json : Option Json} :
    (∃ items, json = some (.array items) ∧ (env.malloc items.length).isSome) ↔
      ∃ item items, json = some (.array (item :: items)) := by
  constructor
  · rintro ⟨items, hj, hm⟩
    cases items with
    | nil =>
        rw [List.length_nil, env.malloc_zero] at hm
        cases hm
    | cons item items => exact ⟨item, items, hj⟩
  · rintro ⟨item, items, hj⟩
    exact ⟨item :: items, hj, env.malloc_pos _ (Nat.succ_pos _)⟩

/-- An exchange without a body changes neither the buffer nor what was parsed. -/
theorem ownBody_nil {g : Globals} {x : Exchange} (hg : g.response = .empty) (hx : x.chunks = []) :
    OwnBody parse g x := by
  have h : exchange parse g x = g := by
    rw [exchange, hx]
    exact onFinish_empty hg
  exact ⟨Or.inl (by rw [h]), by rw [h, hg]⟩

/-- An exchange with a body is as it should be exactly when the body reaches the bottom of the
branch intact. -/
theorem ownBody_body {g : Globals} {x : Exchange} (hg : g.response = .empty)
    (hx : x.chunks ≠ []) :
    OwnBody parse g x ↔
      (route (snprintf 256 x.url) ≠ .unknown → cstr x.body = x.body) ∧
      (route (snprintf 256 x.url) = .devices →
        ∃ item items, parse (cstr x.body) = some (.array (item :: items))) := by
  obtain ⟨u, hu⟩ := @onDataEvents_eq parse x.env.toEnv (some x.url) false x.chunks g
  have hdata : (onDataEvents parse x.env.toEnv (some x.url) false x.chunks g).response.data =
      some x.body := by
    rw [hu]
    show (x.chunks.foldl ResponseBuffer.append g.response).data = some x.body
    rw [foldl_append_data, if_neg hx, hg]
    rfl
  have hparsed : (onDataEvents parse x.env.toEnv (some x.url) false x.chunks g).parsed = g.parsed := by
    rw [hu]
  have hne : (onDataEvents parse x.env.toEnv (some x.url) false x.chunks g).response ≠ .empty :=
    fun h => by simp [h] at hdata
  rw [OwnBody, exchange, clientEventGetHandler, onFinish_parsed hdata, onFinish_response hdata,
    hparsed, urlAfter_some]
  generalize onDataEvents parse x.env.toEnv (some x.url) false x.chunks g = s at hne ⊢
  refine and_congr ?_ ?_
  · split_ifs with hr
    · simp [hr]
    · simp [hr]
  · rw [← x.env.isSome_malloc_iff, ← reachesTest_iff]
    split_ifs with ht
    · simp [ht]
    · simp [ht, hne]

/-- One exchange from an empty buffer. -/
theorem ownBody_iff {g : Globals} {x : Exchange} (hg : g.response = .empty) :
    OwnBody parse g x ↔ BodyOk parse x := by
  by_cases hx : x.chunks = []
  · exact ⟨fun _ => Or.inl hx, fun _ => ownBody_nil hg hx⟩
  · rw [ownBody_body hg hx, BodyOk, or_iff_right hx, cstr_eq_self_iff]
    refine and_congr_right fun h => ?_
    refine forall_congr' fun hr => ?_
    rw [cstr_eq_self_iff.mpr (h (by rw [hr]; decide))]

/-- **Bodies stay apart over a sequence of exchanges** exactly when every exchange reaches the
bottom of its branch with its body intact. -/
theorem exchanges_ownBody_iff (g : Globals) (xs : List Exchange) :
    Transition.AllSteps (exchangeStep parse) (OwnBody parse) { g with response := .empty } xs ↔
      ∀ x ∈ xs, BodyOk parse x :=
  Transition.allSteps_iff_forall (I := fun g => g.response = .empty) (fun _ _ => ownBody_iff)
    (fun g x _ h => ⟨exchange parse g x, rfl, h.2⟩) rfl

end exchanges

/-! ### A refresh that is answered with `null` -/

/-- The parser on texts that start with `null`; `cJSON_Parse` ignores what follows a value. -/
def parseNull (t : CStr) : Option Json := if "null".toList <+: t then some .null else none

/-- The example heap, which is the target's. -/
def zeroedTarget : TargetEnv where
  toEnv := zeroedHeap
  malloc_zero := rfl
  malloc_pos n h := by simp [zeroedHeap, Nat.pos_iff_ne_zero.mp h]

/-- The answer to a refresh when the cloud holds no devices. -/
def nullRefresh : Exchange := ⟨zeroedTarget, Request.getDevices.url exampleId, ["null".toList]⟩

/-- The answer to a poll. -/
def pollAnswer : Exchange :=
  ⟨zeroedTarget, Request.getNewData.url exampleId, ["\x7b\"status\":false\x7d".toList]⟩

theorem nullRefresh_response :
    (exchange parseNull exampleGlobals nullRefresh).response.data = some "null".toList := by
  decide +kernel

/-- After a refresh answered with `null` the next poll parses the leftover in front of its own
body. -/
theorem nullRefresh_leaks :
    (exchange parseNull (exchange parseNull exampleGlobals nullRefresh) pollAnswer).parsed =
      ["null\x7b\"status\":false\x7d".toList, "null".toList] ∧
    ¬ Transition.AllSteps (exchangeStep parseNull) (OwnBody parseNull)
      { exampleGlobals with response := .empty } [nullRefresh, pollAnswer] := by
  refine ⟨by decide +kernel, fun h => ?_⟩
  have hempty : (exchange parseNull exampleGlobals nullRefresh).response = .empty := h.1.2
  have hleft := nullRefresh_response
  rw [hempty] at hleft
  cases hleft

end Sicae
