import Sicae.Webserver
import Sicae.Transition
import Mathlib.Logic.Function.Basic

/-! # One address buffer for all requests

Every request formats its address into the global `url` and, as a step of its own, opens an HTTP
client with what `url` holds by then; the event handler writes the address of its client to the
same variable.  A state follows each task through its current call: it has formatted an address,
or opened a client (`CallPhase`).

A client is opened with the address its call has formatted, however the tasks go on, exactly as
long as nobody writes another address to `url` while a call is between its two steps. -/

namespace Sicae

open CString Transition

/-! ### The calls -/

/-- The functions of `firebaseFns.c` that issue a request. -/
inductive FirebaseCall where
  | request (r : Request)
  | setDispositivoInfo
  | sendAlivePackage
  | getDispositivoDevice
  | sendDevicesPins
  | readDeviceStatus
deriving DecidableEq

/-- The address that a call formats. -/
def FirebaseCall.text (g : Globals) : FirebaseCall → CStr
  | request r => r.urlText g.deviceId
  | setDispositivoInfo | sendAlivePackage => g.deviceId.dispUrl ++ "info.json".toList
  | getDispositivoDevice => g.deviceId.dispUrl ++ g.urlSection ++ ".json".toList
  | sendDevicesPins => g.deviceId.eventsUrl ++ "retrievedData.json".toList
  | readDeviceStatus => g.deviceId.eventsUrl ++ "newData.json".toList

/-- The `snprintf` of a call into the 256 bytes of `url`. -/
def FirebaseCall.format (call : FirebaseCall) (g : Globals) : CStr := snprintf 256 (call.text g)

/-- How far a task is in its current call: it has formatted an address, or opened a client. -/
inductive CallPhase where
  | idle
  | formatted (address : CStr)
  | opened (clientUrl : CStr)
deriving DecidableEq

/-- The globals and the phase of each task. -/
structure AddressState (τ : Type*) where
  globals : Globals
  phase : τ → CallPhase

/-- A task formats the address of a call, opens the client, runs the handler on an event, which
may fail to get the address of the client, or ends the call. -/
inductive AddressAct (τ : Type*) where
  | format (task : τ) (call : FirebaseCall)
  | init (task : τ)
  | handle (task : τ) (failed : Bool)
  | cleanup (task : τ)

section
variable {τ : Type*}

/-- The `url` that the handler of a client leaves behind. -/
def handledUrl (clientUrl : CStr) (failed : Bool) (g : Globals) : CStr :=
  urlAfter (if failed then none else some clientUrl) g

/-- One step of one task. -/
def addressStep [DecidableEq τ] (s : AddressState τ) : AddressAct τ → Option (AddressState τ)
  | .format task call =>
      match s.phase task with
      | .idle => some {
          globals := { s.globals with url := call.format s.globals }
          phase := Function.update s.phase task (.formatted (call.format s.globals)) }
      | .formatted _ | .opened _ => none
  | .init task =>
      match s.phase task with
      | .formatted _ =>
          some { s with phase := Function.update s.phase task (.opened s.globals.url) }
      | .idle | .opened _ => none
  | .handle task failed =>
      match s.phase task with
      | .opened clientUrl =>
          some { s with globals := { s.globals with url := handledUrl clientUrl failed s.globals } }
      | .idle | .formatted _ => none
  | .cleanup task => some { s with phase := Function.update s.phase task .idle }

/-- No task is in a call. -/
def AddressState.initial (g : Globals) : AddressState τ where
  globals := g
  phase := fun _ => .idle

/-- Whichever call opens its client next, it does so with the address it has formatted. -/
def Addressed (s : AddressState τ) : Prop :=
  ∀ task address, s.phase task = .formatted address → s.globals.url = address

/-- Every call that waits to open its client, apart from those of `task`, has formatted `w`. -/
def OthersFormatted (s : AddressState τ) (task : τ) (w : CStr) : Prop :=
  ∀ other, other ≠ task → ∀ address, s.phase other = .formatted address → w = address

/-- The condition on a step: what it writes to `url` is the address of every other call that has
formatted its address and not opened its client yet. -/
def WritesAddress (s : AddressState τ) : AddressAct τ → Prop
  | .format task call => OthersFormatted s task (call.format s.globals)
  | .handle task failed => ∀ clientUrl, s.phase task = .opened clientUrl →
      OthersFormatted s task (handledUrl clientUrl failed s.globals)
  | .init _ | .cleanup _ => True

variable [DecidableEq τ] {s s' : AddressState τ}

/-- In such a state the next client is opened with the address of its call. -/
theorem Addressed.init {task : τ} {address : CStr} (h : Addressed s)
    (hphase : s.phase task = .formatted address) (hstep : addressStep s (.init task) = some s') :
    s'.phase task = .opened address := by
  simp only [addressStep, hphase, Option.some.injEq] at hstep
  rw [← hstep, ← h task address hphase]
  exact Function.update_self _ _ _

/-- After a write by `task` the calls waiting are those of the others, and perhaps its own. -/
theorem addressed_write_iff {task : τ} {w : CStr} (hurl : s'.globals.url = w)
    (hself : ∀ address, s'.phase task = .formatted address → w = address)
    (hother : ∀ other, other ≠ task → s'.phase other = s.phase other) :
    Addressed s' ↔ OthersFormatted s task w := by
  constructor
  · intro h other hne address hphase
    rw [← hurl]
    exact h other address ((hother other hne).trans hphase)
  · intro h other address hphase
    rw [hurl]
    by_cases he : other = task
    · rw [he] at hphase
      exact hself address hphase
    · rw [hother other he] at hphase
      exact h other he address hphase

/-- A step that writes nothing keeps all calls addressed if it starts none. -/
theorem addressed_of_same {task : τ} {phase : CallPhase} (h : Addressed s)
    (hphase : ∀ address, phase ≠ .formatted address) :
    Addressed { s with phase := Function.update s.phase task phase } := by
  intro other address hother
  by_cases he : other = task
  · simp only [he, Function.update_self] at hother
    exact absurd hother (hphase address)
  · simp only [Function.update_of_ne he] at hother
    exact h other address hother

/-- A step keeps all calls addressed exactly when it meets the condition. -/
theorem addressStep_addressed_iff {a : AddressAct τ} (h : Addressed s)
    (hstep : addressStep s a = some s') : Addressed s' ↔ WritesAddress s a := by
  cases a with
  | format task call =>
      simp only [addressStep] at hstep
      split at hstep
      · obtain rfl := Option.some.inj hstep
        apply addressed_write_iff rfl
        · intro address hphase
          simp only [Function.update_self, CallPhase.formatted.injEq] at hphase
          exact hphase
        · exact fun other hne => Function.update_of_ne hne _ _
      · cases hstep
      · cases hstep
  | init task =>
      simp only [addressStep] at hstep
      split at hstep
      · obtain rfl := Option.some.inj hstep
        exact iff_of_true (addressed_of_same h (by simp)) trivial
      · cases hstep
      · cases hstep
  | handle task failed =>
      simp only [addressStep] at hstep
      split at hstep
      · rename_i clientUrl hopen
        obtain rfl := Option.some.inj hstep
        rw [WritesAddress, hopen]
        simp only [CallPhase.opened.injEq, forall_eq']
        apply addressed_write_iff rfl
        · intro address hphase
          rw [hopen] at hphase
          cases hphase
        · exact fun _ _ => rfl
      · cases hstep
      · cases hstep
  | cleanup task =>
      obtain rfl := Option.some.inj hstep
      exact iff_of_true (addressed_of_same h (by simp)) trivial

/-- **Every client goes to the address its call has formatted**, however the run goes on, exactly
if nobody writes another address while a call is between `snprintf` and
`esp_http_client_init`. -/
theorem addressed_iff {g : Globals} {as : List (AddressAct τ)} {t : AddressState τ}
    (hr : run addressStep (.initial g) as = some t) :
    AllStates addressStep Addressed (.initial g) as ↔
      AllSteps addressStep WritesAddress (.initial g) as := by
  apply allStates_iff_allSteps (J := fun _ => True) _ trivial _ hr
  · exact fun _ _ _ _ h hstep => ⟨trivial, addressStep_addressed_iff h hstep⟩
  · exact fun _ _ hphase => CallPhase.noConfusion hphase

end

/-! ### A status for the wrong node -/

/-- Two of the tasks. -/
inductive ExampleTask where
  | poll
  | update
deriving DecidableEq

/-- The upload of a status. -/
def uploadStatus : FirebaseCall := .request (.updateDeviceStatus 0 true)

/-- The upload opens its client before the poll formats its address. -/
def inTurn : List (AddressAct ExampleTask) :=
  [.format .update uploadStatus, .init .update, .format .poll (.request .getNewData), .init .poll]

/-- The poll formats its address before the upload has opened its client. -/
def crossed : List (AddressAct ExampleTask) :=
  [.format .update uploadStatus, .format .poll (.request .getNewData), .init .update]

theorem run_inTurn :
    (run addressStep (.initial exampleGlobals) inTurn).isSome = true := by decide +kernel

theorem addressed_inTurn :
    AllStates addressStep Addressed (.initial exampleGlobals) inTurn ↔
      AllSteps addressStep WritesAddress (.initial exampleGlobals) inTurn := by
  obtain ⟨t, ht⟩ := Option.isSome_iff_exists.mp run_inTurn
  exact addressed_iff ht

/-- The PATCH goes to the address of the poll. -/
theorem crossed_misdirects :
    (run addressStep (.initial exampleGlobals) crossed).map (fun s => s.phase .update) =
      some (.opened (Request.getNewData.url exampleId)) ∧
    ¬ AllStates addressStep Addressed (.initial exampleGlobals) crossed := by
  refine ⟨by decide +kernel, ?_⟩
  rintro ⟨-, h1⟩
  obtain ⟨-, h2⟩ := h1 _ rfl
  have haddressed := (h2 _ rfl).1 .update _ rfl
  exact absurd haddressed (by decide +kernel)

end Sicae
