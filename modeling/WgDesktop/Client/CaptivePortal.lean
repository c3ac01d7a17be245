import Mathlib.Algebra.Order.Ring.Int
import Mathlib.Data.List.Count
import WgDesktop.Lib.Runs
import WgDesktop.Lib.Text

/-!
# Captive portals

`CaptivePortalRequest` and `CaptivePortalRequestTask` of `src/captiveportal`, with the part of
`NetworkRequest` that they use: one probe for each address, a new attempt when all probes of one
have failed, and a timeout over all of them. A probe reports once (`onEvent_pending`,
`onEvent_done`), so that the counter of an attempt is the number of probes that are still to report
(`Attempt.Counted`); `verdict_run` says what the task concludes for any order of the events.
-/

namespace WgDesktop.CaptivePortal

open Runs Text

inductive CaptivePortalResult where
  | noPortal
  | portalDetected
  | failure
  deriving DecidableEq, Repr

/-! ## The requests -/

/-- How a reply finished: whether with an error, its status, zero when there is none, and the
data. -/
structure ReplyResult where
  error : Bool
  status : ℕ
  data : List Char
  deriving DecidableEq, Repr

/-- A `QNetworkReply`: it says once how it finished, and redirects nowhere from then on. -/
structure QNetworkReply where
  redirected : Bool := false
  result : Option ReplyResult := none
  deriving DecidableEq, Repr

structure NetworkRequest where
  url : String
  reply : QNetworkReply := {}
  timerActive : Bool := true
  completed : Bool := false
  aborted : Bool := false
  deriving DecidableEq, Repr

/-- What happens to a request from outside. -/
inductive ReplyEvent where
  | redirected
  | finished (result : ReplyResult)
  | timeout
  deriving DecidableEq, Repr

/-- `CAPTIVEPORTAL_REQUEST_CONTENT`. -/
def requestContent : List Char := "success".toList

namespace NetworkRequest

/-- The function connected to `requestFailed`. -/
def requestFailed (r : NetworkRequest) : List CaptivePortalResult :=
  if r.aborted then [] else [.failure]

/-- The function connected to `requestCompleted`. -/
def requestCompleted (r : NetworkRequest) (status : ℕ) (data : List Char) :
    List CaptivePortalResult :=
  if r.aborted then []
  else if status ≠ 200 then [.portalDetected]
  else if trimmed data = requestContent then [.noPortal]
  else [.portalDetected]

/-- No status was declared as expected, so that the error alone decides. -/
def processData (r : NetworkRequest) (result : ReplyResult) :
    NetworkRequest × List CaptivePortalResult :=
  let r := { r with completed := true, timerActive := false }
  (r, if result.error then r.requestFailed else r.requestCompleted result.status result.data)

/-- The reply finishes, unless it has done so before; with what `onResult` is called with. -/
def replyFinished (r : NetworkRequest) (result : ReplyResult) :
    NetworkRequest × List CaptivePortalResult :=
  if r.reply.result ≠ none then (r, [])
  else
    let r := { r with reply := { r.reply with result := some result } }
    if r.completed then (r, []) else r.processData result

/-- The end of a reply that was aborted. -/
def canceled : ReplyResult := { error := true, status := 0, data := [] }

def abort (r : NetworkRequest) : NetworkRequest × List CaptivePortalResult :=
  replyFinished { r with aborted := true } canceled

/-- A redirect aborts the request before it is reported. -/
def handleRedirect (r : NetworkRequest) : NetworkRequest × List CaptivePortalResult :=
  if r.reply.result ≠ none then (r, [])
  else
    let aborted := abort { r with reply := { r.reply with redirected := true } }
    (aborted.1, aborted.2 ++ [.portalDetected])

/-- The reply is aborted here without the request being so. -/
def timeout (r : NetworkRequest) : NetworkRequest × List CaptivePortalResult :=
  if r.timerActive then
    let finished := replyFinished { r with timerActive := false, completed := true } canceled
    (finished.1, finished.2 ++ finished.1.requestFailed)
  else (r, [])

def onEvent (r : NetworkRequest) : ReplyEvent → NetworkRequest × List CaptivePortalResult
  | .redirected => r.handleRedirect
  | .finished result => r.replyFinished result
  | .timeout => r.timeout

end NetworkRequest

/-! ## The attempts -/

/-- A `CaptivePortalRequest`, with the requests it made. `assertion` is false once an assertion has
failed; `deleted` is set when the deletion that `deleteLater` asks for has taken place. -/
structure CaptivePortalRequest where
  running : ℤ := 0
  success : ℕ := 0
  requests : List NetworkRequest := []
  deleteLater : Bool := false
  deleted : Bool := false
  assertion : Bool := true
  deriving DecidableEq, Repr

/-- The url of an address. -/
def captivePortalUrl (address : String) : String := "http://" ++ address ++ "/success.txt"

namespace CaptivePortalRequest

def createRequest (a : CaptivePortalRequest) (url : String) : CaptivePortalRequest :=
  { a with requests := a.requests ++ [{ url }], running := a.running + 1 }

/-- With the result it is completed with, if it is. -/
def run (ipv4Addresses ipv6Addresses : List String) :
    CaptivePortalRequest × Option CaptivePortalResult :=
  if ipv4Addresses = [] ∧ ipv6Addresses = [] then ({}, some .noPortal)
  else
    let a := ipv4Addresses.foldl (fun a address => a.createRequest (captivePortalUrl address)) {}
    (ipv6Addresses.foldl
      (fun a address => a.createRequest (captivePortalUrl ("[" ++ address ++ "]"))) a, none)

def onResult (a : CaptivePortalRequest) (detected : CaptivePortalResult) :
    CaptivePortalRequest × Option CaptivePortalResult :=
  let a := { a with assertion := a.assertion && decide (0 < a.running) }
  let a := { a with running := a.running - 1 }
  let a := if detected = .noPortal then { a with success := a.success + 1 } else a
  if detected = .portalDetected then
    ({ a with deleteLater := true }, some detected)
  else if a.running = 0 then
    ({ a with deleteLater := true }, some (if 0 < a.success then .noPortal else .failure))
  else (a, none)

end CaptivePortalRequest

/-! ## The task -/

/-- A `CaptivePortalRequestTask`, with the attempts it made, the latest one last, the retries that
are scheduled and what it has emitted. -/
structure CaptivePortalRequestTask where
  retryOnFailure : Bool
  completed : Bool := false
  attempts : List CaptivePortalRequest := []
  retries : ℕ := 0
  timerActive : Bool := false
  timedOut : Bool := false
  operationCompleted : List CaptivePortalResult := []

namespace CaptivePortalRequestTask

def onResult (s : CaptivePortalRequestTask) (detected : CaptivePortalResult) :
    CaptivePortalRequestTask :=
  if s.completed then s
  else if detected = .failure ∧ s.retryOnFailure then { s with retries := s.retries + 1 }
  else
    { s with
      completed := true
      operationCompleted := s.operationCompleted ++ [detected] }

/-- The function connected to the `completed` of an attempt. -/
def attemptCompleted (s : CaptivePortalRequestTask) (result : Option CaptivePortalResult) :
    CaptivePortalRequestTask :=
  match result with
  | none => s
  | some detected => s.onResult detected

/-- The addresses are read from the settings for each attempt. -/
def createRequest (s : CaptivePortalRequestTask) (ipv4Addresses ipv6Addresses : List String) :
    CaptivePortalRequestTask :=
  let (a, result) := CaptivePortalRequest.run ipv4Addresses ipv6Addresses
  { s with attempts := s.attempts ++ [a] }.attemptCompleted result

def run (retryOnFailure : Bool) (ipv4Addresses ipv6Addresses : List String) :
    CaptivePortalRequestTask :=
  createRequest { retryOnFailure, timerActive := true } ipv4Addresses ipv6Addresses

/-- A report of a request to its attempt, which is gone once it is deleted. -/
def report (s : CaptivePortalRequestTask) (attempt : ℕ) (result : CaptivePortalResult) :
    CaptivePortalRequestTask :=
  match s.attempts[attempt]? with
  | none => s
  | some a =>
    if a.deleted then s
    else
      let (a, completed) := a.onResult result
      { s with attempts := s.attempts.set attempt a }.attemptCompleted completed

/-- What happens: to a request of an attempt, the deletion of an attempt that was asked for, the
end of the wait before a retry and the timeout of the task. -/
inductive Event where
  | request (attempt request : ℕ) (event : ReplyEvent)
  | delete (attempt : ℕ)
  | retry (ipv4Addresses ipv6Addresses : List String)
  | timeout

def step (s : CaptivePortalRequestTask) : Event → CaptivePortalRequestTask
  | .request attempt request event =>
    match s.attempts[attempt]? with
    | none => s
    | some a =>
      match a.requests[request]? with
      | none => s
      | some r =>
        let (r, results) := r.onEvent event
        results.foldl (report · attempt)
          { s with
            attempts := s.attempts.set attempt { a with requests := a.requests.set request r } }
  | .delete attempt =>
    match s.attempts[attempt]? with
    | none => s
    | some a =>
      if a.deleteLater then { s with attempts := s.attempts.set attempt { a with deleted := true } }
      else s
  | .retry ipv4Addresses ipv6Addresses =>
    if 0 < s.retries then
      createRequest { s with retries := s.retries - 1 } ipv4Addresses ipv6Addresses
    else s
  | .timeout =>
    if s.timerActive then onResult { s with timerActive := false, timedOut := true } .noPortal
    else s

end CaptivePortalRequestTask

/-! ## One request -/

namespace NetworkRequest

/-- Nothing has happened to the request yet. -/
def pending (r : NetworkRequest) : Bool := r.reply.result = none

/-- A probe that was redirected, answered with a status other than 200 or with other content. -/
def IsPortal (r : NetworkRequest) : Prop :=
  r.reply.redirected = true ∨ ∃ result, r.reply.result = some result ∧ result.error = false ∧
    (result.status ≠ 200 ∨ trimmed result.data ≠ requestContent)

/-- A probe that was answered as expected. -/
def Succeeded (r : NetworkRequest) : Prop :=
  r.reply.redirected = false ∧ ∃ result, r.reply.result = some result ∧ result.error = false ∧
    result.status = 200 ∧ trimmed result.data = requestContent

theorem Succeeded.done {r : NetworkRequest} (h : r.Succeeded) : r.pending = false := by
  obtain ⟨-, result, hresult, -⟩ := h
  rw [pending, hresult]
  rfl

/-- A request is as it was made until its reply finishes, and has no timer from then on. -/
structure WellFormed (r : NetworkRequest) : Prop where
  pending : r.pending = true → r = { url := r.url }
  done : r.pending = false → r.timerActive = false

variable {r : NetworkRequest}

theorem pending_eq_false : r.pending = false ↔ r.reply.result ≠ none := by
  rw [pending, decide_eq_false_iff_not]

theorem IsPortal.done (h : r.IsPortal) (hw : WellFormed r) : r.pending = false := by
  by_contra hpending
  rw [hw.pending (by simpa using hpending)] at h
  rcases h with h | ⟨result, hresult, -⟩
  · cases h
  · cases hresult

theorem onEvent_done (hw : WellFormed r) (h : r.pending = false) (event : ReplyEvent) :
    r.onEvent event = (r, []) := by
  have hresult := pending_eq_false.mp h
  cases event with
  | redirected => exact if_pos hresult
  | finished result => exact if_pos hresult
  | timeout => exact if_neg (by rw [hw.done h]; exact Bool.false_ne_true)

theorem requestCompleted_unaborted (h : r.aborted = false) (status : ℕ) (data : List Char) :
    ∃ detected, r.requestCompleted status data = [detected] ∧
      (detected = .portalDetected → status ≠ 200 ∨ trimmed data ≠ requestContent) ∧
      (detected = .noPortal → status = 200 ∧ trimmed data = requestContent) := by
  rw [requestCompleted, if_neg (by rw [h]; exact Bool.false_ne_true)]
  split
  · next hstatus => exact ⟨_, rfl, fun _ => .inl hstatus, nofun⟩
  · next hstatus =>
    split
    · next hdata => exact ⟨_, rfl, nofun, fun _ => ⟨not_not.mp hstatus, hdata⟩⟩
    · next hdata => exact ⟨_, rfl, fun _ => .inr hdata, nofun⟩

/-- The first event finishes a request, and it reports what came of it. -/
theorem onEvent_pending (hw : WellFormed r) (h : r.pending = true) (event : ReplyEvent) :
    ∃ r' detected, r.onEvent event = (r', [detected]) ∧ r'.WellFormed ∧ r'.pending = false ∧
      (detected = .portalDetected → r'.IsPortal) ∧ (detected = .noPortal → r'.Succeeded) := by
  rw [hw.pending h]
  cases event with
  | redirected =>
    exact ⟨_, _, rfl, ⟨nofun, fun _ => rfl⟩, rfl, fun _ => .inl rfl, nofun⟩
  | timeout => exact ⟨_, _, rfl, ⟨nofun, fun _ => rfl⟩, rfl, nofun, nofun⟩
  | finished result =>
    obtain ⟨error, status, data⟩ := result
    cases error with
    | true => exact ⟨_, _, rfl, ⟨nofun, fun _ => rfl⟩, rfl, nofun, nofun⟩
    | false =>
      obtain ⟨detected, hdetected, hportal, hnoPortal⟩ :=
        @requestCompleted_unaborted { url := r.url } rfl status data
      exact ⟨_, detected, congrArg (Prod.mk _) hdetected, ⟨nofun, fun _ => rfl⟩, rfl,
        fun h => .inr ⟨_, rfl, rfl, hportal h⟩, fun h => ⟨rfl, _, rfl, rfl, hnoPortal h⟩⟩

end NetworkRequest

/-! ## One attempt -/

namespace CaptivePortalRequest

/-- The counter of an attempt that still listens is the number of requests that are still to
report, and it has counted only successes. -/
structure Counted (a : CaptivePortalRequest) : Prop where
  wellFormed : ∀ r ∈ a.requests, r.WellFormed
  running : a.deleted = false → a.running = a.requests.countP NetworkRequest.pending
  success : 0 < a.success → ∃ r ∈ a.requests, r.Succeeded
  assertion : a.assertion = true

/-- Every request has reported. -/
def Finished (a : CaptivePortalRequest) : Prop := ∀ r ∈ a.requests, r.pending = false

/-- What an attempt may be completed with. -/
def Justified (a : CaptivePortalRequest) : CaptivePortalResult → Prop
  | .portalDetected => ∃ r ∈ a.requests, r.IsPortal
  | .noPortal => a.requests = [] ∨ ∃ r ∈ a.requests, r.Succeeded
  | .failure => a.Finished

theorem counted_empty : Counted {} := ⟨nofun, fun _ => rfl, nofun, rfl⟩

theorem wellFormed_new (url : String) : NetworkRequest.WellFormed { url } := ⟨fun _ => rfl, nofun⟩

variable {a : CaptivePortalRequest}

theorem Counted.createRequest (h : Counted a) (url : String) : Counted (a.createRequest url) := by
  refine ⟨fun r hr => ?_, fun hdeleted => ?_, fun hsuccess => ?_, h.assertion⟩
  · rcases List.mem_append.mp hr with hr | hr
    · exact h.wellFormed r hr
    · rw [List.mem_singleton.mp hr]
      exact wellFormed_new url
  · show a.running + 1 =
      (List.countP NetworkRequest.pending (a.requests ++ [({ url } : NetworkRequest)]) : ℕ)
    rw [h.running hdeleted, List.countP_append]
    rfl
  · obtain ⟨r, hr, hs⟩ := h.success hsuccess
    exact ⟨r, List.mem_append_left _ hr, hs⟩

theorem Counted.foldl_createRequest (h : Counted a) (url : String → String)
    (addresses : List String) :
    Counted (addresses.foldl (fun a address => a.createRequest (url address)) a) := by
  induction addresses generalizing a with
  | nil => exact h
  | cons address addresses ih => exact ih (h.createRequest (url address))

/-- A new attempt is completed at once just when it makes no request. -/
theorem run_counted (ipv4Addresses ipv6Addresses : List String) :
    Counted (run ipv4Addresses ipv6Addresses).1 := by
  rw [run]
  split
  · exact counted_empty
  · exact (counted_empty.foldl_createRequest _ _).foldl_createRequest _ _

theorem run_justified {ipv4Addresses ipv6Addresses : List String} {detected : CaptivePortalResult}
    (h : (run ipv4Addresses ipv6Addresses).2 = some detected) :
    detected = .noPortal ∧ (run ipv4Addresses ipv6Addresses).1.requests = [] := by
  rw [run] at h ⊢
  split at h
  · next hnone =>
    rw [if_pos hnone]
    exact ⟨(Option.some.inj h).symm, rfl⟩
  · cases h

theorem mem_set_of_done {requests : List NetworkRequest} {j : ℕ} {r r' r₀ : NetworkRequest}
    (hr : requests[j]? = some r) (hpending : r.pending = true) (hr₀ : r₀ ∈ requests)
    (hdone : r₀.pending = false) : r₀ ∈ requests.set j r' := by
  obtain ⟨k, hk⟩ := List.mem_iff_getElem?.mp hr₀
  have hne : j ≠ k := by
    rintro rfl
    rw [Option.some.inj (hr.symm.trans hk), hdone] at hpending
    cases hpending
  exact List.mem_of_getElem? ((List.getElem?_set_ne hne).trans hk)

theorem countP_set_pending {requests : List NetworkRequest} {j : ℕ} {r r' : NetworkRequest}
    (hr : requests[j]? = some r) (hpending : r.pending = true) (hdone : r'.pending = false) :
    requests.countP NetworkRequest.pending =
      (requests.set j r').countP NetworkRequest.pending + 1 := by
  obtain ⟨hj, rfl⟩ := List.getElem?_eq_some_iff.mp hr
  have hpos : 0 < requests.countP NetworkRequest.pending :=
    List.countP_pos_iff.mpr ⟨_, List.getElem_mem hj, hpending⟩
  rw [List.countP_set hj, if_pos hpending, if_neg (by rw [hdone]; exact Bool.false_ne_true)]
  omega

/-- The requests of an attempt, once the `j`-th has reported. -/
structure Reported (a : CaptivePortalRequest) (j : ℕ) (r r' : NetworkRequest) : Prop where
  request : a.requests[j]? = some r
  pending : r.pending = true
  wellFormed : r'.WellFormed
  done : r'.pending = false

variable {j : ℕ} {r r' : NetworkRequest}

theorem Reported.mem (hrep : Reported a j r r') : r' ∈ a.requests.set j r' :=
  List.mem_set (List.getElem?_eq_some_iff.mp hrep.request).1 r'

theorem Reported.countP (hrep : Reported a j r r') :
    a.requests.countP NetworkRequest.pending =
      (a.requests.set j r').countP NetworkRequest.pending + 1 :=
  countP_set_pending hrep.request hrep.pending hrep.done

theorem Reported.wellFormed_set (hrep : Reported a j r r') (h : Counted a) :
    ∀ r ∈ a.requests.set j r', r.WellFormed := by
  intro r₀ hr₀
  rcases List.mem_or_eq_of_mem_set hr₀ with hr₀ | rfl
  · exact h.wellFormed r₀ hr₀
  · exact hrep.wellFormed

theorem Reported.success (hrep : Reported a j r r') (h : Counted a) (hsuccess : 0 < a.success) :
    ∃ r ∈ a.requests.set j r', r.Succeeded := by
  obtain ⟨r₀, hr₀, hs⟩ := h.success hsuccess
  exact ⟨r₀, mem_set_of_done hrep.request hrep.pending hr₀ hs.done, hs⟩

/-- A report that nobody listens to. -/
theorem Counted.set_of_deleted (h : Counted a) (hrep : Reported a j r r')
    (hdeleted : a.deleted = true) : Counted { a with requests := a.requests.set j r' } :=
  ⟨hrep.wellFormed_set h, fun hlive => absurd hdeleted (by rw [hlive]; exact Bool.false_ne_true),
    hrep.success h, h.assertion⟩

theorem onResult_fields (a : CaptivePortalRequest) (detected : CaptivePortalResult) :
    (a.onResult detected).1.running = a.running - 1 ∧
      (a.onResult detected).1.success = a.success + (if detected = .noPortal then 1 else 0) ∧
      (a.onResult detected).1.requests = a.requests ∧
      (a.onResult detected).1.deleted = a.deleted ∧
      (a.onResult detected).1.assertion = (a.assertion && decide (0 < a.running)) := by
  cases detected with
  | noPortal =>
    rw [onResult]
    dsimp only
    split_ifs <;> exact ⟨rfl, rfl, rfl, rfl, rfl⟩
  | portalDetected => exact ⟨rfl, rfl, rfl, rfl, rfl⟩
  | failure =>
    rw [onResult]
    dsimp only
    split_ifs <;> exact ⟨rfl, rfl, rfl, rfl, rfl⟩

theorem onResult_completed {detected v : CaptivePortalResult}
    (h : (a.onResult detected).2 = some v) :
    detected = .portalDetected ∧ v = .portalDetected ∨
      a.running = 1 ∧
        v = if 0 < (a.onResult detected).1.success then .noPortal else .failure := by
  by_cases hdetected : detected = .portalDetected
  · subst hdetected
    exact .inl ⟨rfl, (Option.some.inj h).symm⟩
  · by_cases hrunning : a.running - 1 = 0
    · refine .inr ⟨sub_eq_zero.mp hrunning, ?_⟩
      cases detected with
      | portalDetected => exact absurd rfl hdetected
      | noPortal => simpa [onResult, hrunning] using h.symm
      | failure => simpa [onResult, hrunning] using h.symm
    · cases detected with
      | portalDetected => exact absurd rfl hdetected
      | noPortal => simp [onResult, hrunning] at h
      | failure => simp [onResult, hrunning] at h

theorem Counted.onResult (h : Counted a) (hrep : Reported a j r r') (hlive : a.deleted = false)
    {detected : CaptivePortalResult} (hs : detected = .noPortal → r'.Succeeded) :
    Counted
      (CaptivePortalRequest.onResult { a with requests := a.requests.set j r' } detected).1 := by
  obtain ⟨hrunning, hsuccess, hrequests, hdeleted, hassertion⟩ :=
    onResult_fields { a with requests := a.requests.set j r' } detected
  have hcount := h.running hlive
  rw [hrep.countP] at hcount
  refine ⟨?_, fun _ => ?_, fun hpos => ?_, ?_⟩
  · rw [hrequests]
    exact hrep.wellFormed_set h
  · rw [hrunning, hrequests, hcount]
    push_cast
    exact add_sub_cancel_right _ _
  · rw [hrequests]
    rw [hsuccess] at hpos
    by_cases hno : detected = .noPortal
    · exact ⟨r', hrep.mem, hs hno⟩
    · rw [if_neg hno] at hpos
      exact hrep.success h hpos
  · rw [hassertion, h.assertion, hcount, Bool.true_and, decide_eq_true_iff]
    exact Int.natCast_pos.mpr (Nat.succ_pos _)

theorem onResult_justified (h : Counted a) (hrep : Reported a j r r') (hlive : a.deleted = false)
    {detected v : CaptivePortalResult} (hs : detected = .noPortal → r'.Succeeded)
    (hportal : detected = .portalDetected → r'.IsPortal)
    (hv : (CaptivePortalRequest.onResult
      { a with requests := a.requests.set j r' } detected).2 = some v) :
    Justified
      (CaptivePortalRequest.onResult { a with requests := a.requests.set j r' } detected).1 v := by
  have hcounted := h.onResult hrep hlive hs
  obtain ⟨-, -, hrequests, -, -⟩ :=
    onResult_fields { a with requests := a.requests.set j r' } detected
  rcases onResult_completed hv with ⟨hdetected, rfl⟩ | ⟨hrunning, rfl⟩
  · exact ⟨r', by rw [hrequests]; exact hrep.mem, hportal hdetected⟩
  · split
    · next hpos => exact .inr (hcounted.success hpos)
    · have hcount := h.running hlive
      rw [hrep.countP, show a.running = 1 from hrunning] at hcount
      have hzero : (a.requests.set j r').countP NetworkRequest.pending = 0 := by omega
      intro r₀ hr₀
      rw [hrequests] at hr₀
      exact Bool.eq_false_iff.mpr (List.countP_eq_zero.mp hzero r₀ hr₀)

end CaptivePortalRequest

/-! ## The task's account -/

namespace CaptivePortalRequestTask

open CaptivePortalRequest

/-- What a verdict rests on. -/
def Justified (s : CaptivePortalRequestTask) : CaptivePortalResult → Prop
  | .portalDetected => ∃ a ∈ s.attempts, ∃ r ∈ a.requests, r.IsPortal
  | .noPortal => s.timedOut = true ∨ ∃ a, s.attempts.getLast? = some a ∧
      (a.requests = [] ∨ ∃ r ∈ a.requests, r.Succeeded)
  | .failure => True

/-- Only the latest attempt has requests to wait for, and none while a retry is scheduled. -/
def Waiting (s : CaptivePortalRequestTask) : Prop :=
  s.retries = 0 ∧ (∀ k a, s.attempts[k]? = some a → k + 1 < s.attempts.length → a.Finished) ∨
    s.retries = 1 ∧ ∀ a ∈ s.attempts, a.Finished

/-- What holds between two events: the task has emitted one justified verdict once it is completed,
and waits for one attempt before. -/
structure Accounted (s : CaptivePortalRequestTask) : Prop where
  counted : ∀ a ∈ s.attempts, a.Counted
  emitted : s.operationCompleted.length = if s.completed then 1 else 0
  justified : ∀ v ∈ s.operationCompleted, s.Justified v
  waiting : s.completed = false → s.Waiting
  quiet : s.completed = true → s.timedOut = false → s.retries = 0

variable {s : CaptivePortalRequestTask} {a b : CaptivePortalRequest} {i j : ℕ}
  {r r' : NetworkRequest} {v : CaptivePortalResult}

/-- An attempt after an event: what has reported stays. -/
structure Grows (a b : CaptivePortalRequest) : Prop where
  kept : ∀ r ∈ a.requests, r.pending = false → r ∈ b.requests
  finished : a.Finished → b.Finished
  empty : a.requests = [] → b.requests = []

theorem Grows.of_requests_eq (h : b.requests = a.requests) : Grows a b := by
  refine ⟨fun r hr _ => ?_, fun hf => ?_, fun he => ?_⟩
  · rwa [h]
  · rwa [Finished, h]
  · rwa [h]

theorem grows_of_reported (hrep : Reported a j r r') (h : b.requests = a.requests.set j r') :
    Grows a b := by
  refine ⟨fun r₀ hr₀ hdone => ?_, fun hf => ?_, fun he => ?_⟩
  · rw [h]
    exact mem_set_of_done hrep.request hrep.pending hr₀ hdone
  · have hdone := hf r (List.mem_of_getElem? hrep.request)
    rw [hrep.pending] at hdone
    cases hdone
  · have hr := hrep.request
    rw [he] at hr
    cases hr

theorem Grows.isPortal (h : Grows a b) (hc : a.Counted) (hp : ∃ r ∈ a.requests, r.IsPortal) :
    ∃ r ∈ b.requests, r.IsPortal := by
  obtain ⟨r, hr, hportal⟩ := hp
  exact ⟨r, h.kept r hr (hportal.done (hc.wellFormed r hr)), hportal⟩

theorem Grows.succeeded (h : Grows a b) (hs : ∃ r ∈ a.requests, r.Succeeded) :
    ∃ r ∈ b.requests, r.Succeeded := by
  obtain ⟨r, hr, hsucceeded⟩ := hs
  exact ⟨r, h.kept r hr hsucceeded.done, hsucceeded⟩

theorem mem_set_or {l : List CaptivePortalRequest} {c : CaptivePortalRequest}
    (ha : l[i]? = some a) (hc : c ∈ l) : c = a ∨ c ∈ l.set i b := by
  obtain ⟨k, hk⟩ := List.mem_iff_getElem?.mp hc
  by_cases hi : i = k
  · subst hi
    exact .inl (Option.some.inj (hk.symm.trans ha))
  · exact .inr (List.mem_of_getElem? ((List.getElem?_set_ne hi).trans hk))

theorem Justified.set (h : s.Justified v) (ha : s.attempts[i]? = some a) (hc : a.Counted)
    (hg : Grows a b) : Justified { s with attempts := s.attempts.set i b } v := by
  have hi : i < s.attempts.length := (List.getElem?_eq_some_iff.mp ha).1
  cases v with
  | failure => trivial
  | portalDetected =>
    obtain ⟨c, hmem, hp⟩ := h
    rcases mem_set_or ha hmem with rfl | hmem
    · exact ⟨b, List.mem_set hi b, hg.isPortal hc hp⟩
    · exact ⟨c, hmem, hp⟩
  | noPortal =>
    refine h.imp id fun ⟨c, hlast, hs⟩ => ?_
    rw [List.getLast?_eq_getElem?] at hlast
    rw [List.getLast?_eq_getElem?, List.length_set]
    by_cases hlasti : i = s.attempts.length - 1
    · rw [← hlasti] at hlast ⊢
      obtain rfl : a = c := Option.some.inj (ha.symm.trans hlast)
      exact ⟨b, List.getElem?_set_self hi, hs.imp hg.empty hg.succeeded⟩
    · exact ⟨c, (List.getElem?_set_ne hlasti).trans hlast, hs⟩

theorem Waiting.set (h : s.Waiting) (ha : s.attempts[i]? = some a) (hg : Grows a b) :
    Waiting { s with attempts := s.attempts.set i b } := by
  have hi : i < s.attempts.length := (List.getElem?_eq_some_iff.mp ha).1
  refine h.imp (fun ⟨hretries, hf⟩ => ⟨hretries, fun k c hk hlt => ?_⟩)
    fun ⟨hretries, hf⟩ => ⟨hretries, fun c hc => ?_⟩
  · rw [List.length_set] at hlt
    by_cases hik : i = k
    · subst hik
      obtain rfl : b = c := Option.some.inj ((List.getElem?_set_self hi).symm.trans hk)
      exact hg.finished (hf i a ha hlt)
    · exact hf k c ((List.getElem?_set_ne hik).symm.trans hk) hlt
  · rcases List.mem_or_eq_of_mem_set hc with hc | rfl
    · exact hf c hc
    · exact hg.finished (hf a (List.mem_of_getElem? ha))

theorem Accounted.set (h : Accounted s) (ha : s.attempts[i]? = some a) (hb : b.Counted)
    (hg : Grows a b) : Accounted { s with attempts := s.attempts.set i b } := by
  refine ⟨fun c hc => ?_, h.emitted, fun v hv => ?_, fun hopen => ?_, h.quiet⟩
  · rcases List.mem_or_eq_of_mem_set hc with hc | rfl
    · exact h.counted c hc
    · exact hb
  · exact (h.justified v hv).set ha (h.counted a (List.mem_of_getElem? ha)) hg
  · exact (h.waiting hopen).set ha hg

/-! ## One event -/

theorem onResult_of_completed (h : s.completed = true) (v : CaptivePortalResult) :
    s.onResult v = s := if_pos h

theorem Accounted.emit (h : Accounted s) (hopen : s.completed = false)
    (hquiet : s.timedOut = false → s.retries = 0) (hj : s.Justified v) :
    Accounted
      { s with completed := true, operationCompleted := s.operationCompleted ++ [v] } := by
  have hnone : s.operationCompleted = [] := by
    rw [← List.length_eq_zero_iff, h.emitted, hopen]
    rfl
  refine ⟨h.counted, by simp [hnone], fun w hw => ?_, nofun, fun _ => hquiet⟩
  obtain rfl : w = v := by simpa [hnone] using hw
  cases w with
  | failure => trivial
  | portalDetected => exact hj
  | noPortal => exact hj

theorem Accounted.onResult (h : Accounted s)
    (hv : s.completed = false → s.retries = 0 ∧ s.Justified v ∧
      (v = .failure → ∀ a ∈ s.attempts, a.Finished)) : Accounted (s.onResult v) := by
  by_cases hcompleted : s.completed = true
  · rw [onResult_of_completed hcompleted]
    exact h
  · have hopen : s.completed = false := Bool.eq_false_iff.mpr hcompleted
    obtain ⟨hretries, hj, hfinished⟩ := hv hopen
    rw [CaptivePortalRequestTask.onResult, if_neg hcompleted]
    split
    · next hretry =>
      refine ⟨h.counted, h.emitted, h.justified, fun _ => .inr ⟨?_, hfinished hretry.1⟩, ?_⟩
      · show s.retries + 1 = 1
        rw [hretries]
      · exact fun hc => absurd hc hcompleted
    · exact h.emit hopen (fun _ => hretries) hj

theorem Accounted.attemptCompleted (h : Accounted s) {result : Option CaptivePortalResult}
    (hv : ∀ v, result = some v → s.completed = false → s.retries = 0 ∧
      ∃ a, s.attempts.getLast? = some a ∧ a.Justified v ∧
        (v = .failure → ∀ a ∈ s.attempts, a.Finished)) : Accounted (s.attemptCompleted result) := by
  cases result with
  | none => exact h
  | some v =>
    refine h.onResult fun hopen => ?_
    obtain ⟨hretries, a, hlast, hj, hfinished⟩ := hv v rfl hopen
    refine ⟨hretries, ?_, hfinished⟩
    cases v with
    | failure => trivial
    | portalDetected => exact ⟨a, List.mem_of_getLast? hlast, hj⟩
    | noPortal => exact .inr ⟨a, hlast, hj⟩

/-- A request that is still to report belongs to the latest attempt. -/
theorem Waiting.last (h : s.Waiting) (ha : s.attempts[i]? = some a) (hr : a.requests[j]? = some r)
    (hpending : r.pending = true) : s.retries = 0 ∧ i + 1 = s.attempts.length := by
  have hnot : ¬a.Finished := fun hf => by
    have hdone := hf r (List.mem_of_getElem? hr)
    rw [hpending] at hdone
    cases hdone
  have hi : i < s.attempts.length := (List.getElem?_eq_some_iff.mp ha).1
  rcases h with ⟨hretries, hf⟩ | ⟨-, hf⟩
  · refine ⟨hretries, ?_⟩
    by_contra hne
    exact hnot (hf i a ha (by omega))
  · exact absurd (hf a (List.mem_of_getElem? ha)) hnot

theorem Waiting.finished (h : s.Waiting) (hlast : s.attempts.getLast? = some a)
    (ha : a.Finished) : ∀ c ∈ s.attempts, c.Finished := by
  intro c hc
  rcases h with ⟨-, hf⟩ | ⟨-, hf⟩
  · obtain ⟨k, hk⟩ := List.mem_iff_getElem?.mp hc
    have hlt : k < s.attempts.length := (List.getElem?_eq_some_iff.mp hk).1
    by_cases hkl : k + 1 = s.attempts.length
    · rw [List.getLast?_eq_getElem?, ← hkl, Nat.add_sub_cancel] at hlast
      obtain rfl : a = c := Option.some.inj (hlast.symm.trans hk)
      exact ha
    · exact hf k c hk (by omega)
  · exact hf c hc

theorem getLast?_set_last {l : List CaptivePortalRequest} (hlast : i + 1 = l.length) :
    (l.set i b).getLast? = some b := by
  rw [List.getLast?_eq_getElem?, List.length_set, ← hlast, Nat.add_sub_cancel]
  exact List.getElem?_set_self (by omega)

theorem Accounted.report (h : Accounted s) (ha : s.attempts[i]? = some a)
    (hrep : Reported a j r r') (hlive : a.deleted = false) {detected : CaptivePortalResult}
    (hportal : detected = .portalDetected → r'.IsPortal)
    (hs : detected = .noPortal → r'.Succeeded) :
    Accounted (CaptivePortalRequestTask.report
      { s with attempts := s.attempts.set i { a with requests := a.requests.set j r' } }
      i detected) := by
  have hi : i < s.attempts.length := (List.getElem?_eq_some_iff.mp ha).1
  have hcounted := h.counted a (List.mem_of_getElem? ha)
  have hb := hcounted.onResult hrep hlive hs
  have hjustified := fun v => @onResult_justified a j r r' hcounted hrep hlive detected v hs hportal
  obtain ⟨-, -, hrequests, -, -⟩ :=
    onResult_fields { a with requests := a.requests.set j r' } detected
  rw [CaptivePortalRequestTask.report, List.getElem?_set_self hi]
  dsimp only
  rw [if_neg (by rw [hlive]; exact Bool.false_ne_true), List.set_set]
  generalize CaptivePortalRequest.onResult { a with requests := a.requests.set j r' } detected = p
    at hb hjustified hrequests
  obtain ⟨b, completed⟩ := p
  have hset := h.set ha hb (grows_of_reported hrep hrequests)
  refine hset.attemptCompleted fun v hv hopen => ?_
  obtain ⟨hretries, hlast⟩ := (h.waiting hopen).last ha hrep.request hrep.pending
  refine ⟨hretries, b, getLast?_set_last hlast, hjustified v hv, fun hfailure => ?_⟩
  subst hfailure
  exact (hset.waiting hopen).finished (getLast?_set_last hlast) (hjustified .failure hv)

theorem set_eq_of_getElem? {α : Type} {l : List α} {x : α} (h : l[i]? = some x) :
    l.set i x = l := by
  obtain ⟨hi, rfl⟩ := List.getElem?_eq_some_iff.mp h
  exact List.set_getElem_self hi

theorem Accounted.request (h : Accounted s) (attempt request : ℕ) (event : ReplyEvent) :
    Accounted (step s (.request attempt request event)) := by
  rw [step]
  cases ha : s.attempts[attempt]? with
  | none => exact h
  | some a =>
    dsimp only
    cases hr : a.requests[request]? with
    | none => exact h
    | some r =>
      dsimp only
      have hcounted := h.counted a (List.mem_of_getElem? ha)
      have hw := hcounted.wellFormed r (List.mem_of_getElem? hr)
      cases hpending : r.pending with
      | false =>
        rw [NetworkRequest.onEvent_done hw hpending]
        dsimp only
        rw [List.foldl_nil, set_eq_of_getElem? hr, set_eq_of_getElem? ha]
        exact h
      | true =>
        obtain ⟨r', detected, hevent, hwellFormed, hdone, hportal, hs⟩ :=
          NetworkRequest.onEvent_pending hw hpending event
        have hrep : Reported a request r r' := ⟨hr, hpending, hwellFormed, hdone⟩
        rw [hevent]
        dsimp only
        rw [List.foldl_cons, List.foldl_nil]
        by_cases hdeleted : a.deleted = true
        · have hi : attempt < s.attempts.length := (List.getElem?_eq_some_iff.mp ha).1
          rw [CaptivePortalRequestTask.report, List.getElem?_set_self hi]
          dsimp only
          rw [if_pos hdeleted]
          exact h.set ha (hcounted.set_of_deleted hrep hdeleted) (grows_of_reported hrep rfl)
        · exact h.report ha hrep (Bool.eq_false_iff.mpr hdeleted) hportal hs

theorem Accounted.delete (h : Accounted s) (attempt : ℕ) :
    Accounted (step s (.delete attempt)) := by
  rw [step]
  cases ha : s.attempts[attempt]? with
  | none => exact h
  | some a =>
    dsimp only
    split
    · have hcounted := h.counted a (List.mem_of_getElem? ha)
      exact h.set ha ⟨hcounted.wellFormed, nofun, hcounted.success, hcounted.assertion⟩
        (.of_requests_eq rfl)
    · exact h

theorem Accounted.addAttempt (h : Accounted s) (ha : a.Counted)
    (hfinished : s.completed = false → s.retries = 0 ∧ ∀ a ∈ s.attempts, a.Finished)
    (htimedOut : s.completed = true → s.timedOut = true) :
    Accounted { s with attempts := s.attempts ++ [a] } := by
  refine ⟨fun c hc => ?_, h.emitted, fun v hv => ?_, fun hopen => .inl ?_, h.quiet⟩
  · rcases List.mem_append.mp hc with hc | hc
    · exact h.counted c hc
    · rw [List.mem_singleton.mp hc]
      exact ha
  · have hcompleted : s.completed = true := by
      by_contra hopen
      have hnone := h.emitted
      rw [if_neg hopen, List.length_eq_zero_iff] at hnone
      rw [show s.operationCompleted = [] from hnone] at hv
      cases hv
    cases v with
    | failure => trivial
    | noPortal => exact .inl (htimedOut hcompleted)
    | portalDetected =>
      obtain ⟨c, hc, hp⟩ := h.justified _ hv
      exact ⟨c, List.mem_append_left _ hc, hp⟩
  · obtain ⟨hretries, hall⟩ := hfinished hopen
    refine ⟨hretries, fun k c hk hlt => hall c ?_⟩
    rw [List.length_append, List.length_singleton] at hlt
    rw [List.getElem?_append_left (by omega)] at hk
    exact List.mem_of_getElem? hk

theorem Accounted.createRequest (h : Accounted s)
    (hfinished : s.completed = false → s.retries = 0 ∧ ∀ a ∈ s.attempts, a.Finished)
    (htimedOut : s.completed = true → s.timedOut = true)
    (ipv4Addresses ipv6Addresses : List String) :
    Accounted (s.createRequest ipv4Addresses ipv6Addresses) := by
  have hcounted := run_counted ipv4Addresses ipv6Addresses
  have hjustified := @run_justified ipv4Addresses ipv6Addresses
  rw [CaptivePortalRequestTask.createRequest]
  generalize CaptivePortalRequest.run ipv4Addresses ipv6Addresses = p at hcounted hjustified
  obtain ⟨a, result⟩ := p
  have hadded := h.addAttempt hcounted hfinished htimedOut
  refine hadded.attemptCompleted fun v hv hopen => ?_
  obtain ⟨rfl, hempty⟩ := hjustified hv
  exact ⟨(hfinished hopen).1, a, List.getLast?_concat, .inl hempty, nofun⟩

theorem Accounted.retry (h : Accounted s) (ipv4Addresses ipv6Addresses : List String) :
    Accounted (step s (.retry ipv4Addresses ipv6Addresses)) := by
  rw [step]
  split
  · next hpos =>
    have hfinished : s.completed = false → s.retries - 1 = 0 ∧ ∀ a ∈ s.attempts, a.Finished := by
      intro hopen
      rcases h.waiting hopen with ⟨hzero, -⟩ | ⟨hone, hf⟩
      · omega
      · exact ⟨by omega, hf⟩
    have htimedOut : s.completed = true → s.timedOut = true := by
      intro hcompleted
      by_contra hnot
      have := h.quiet hcompleted (Bool.eq_false_iff.mpr hnot)
      omega
    have hfewer : Accounted { s with retries := s.retries - 1 } := by
      refine ⟨h.counted, h.emitted, h.justified, fun hopen => .inl ?_, fun hc ht => ?_⟩
      · obtain ⟨hretries, hf⟩ := hfinished hopen
        exact ⟨hretries, fun k c hk _ => hf c (List.mem_of_getElem? hk)⟩
      · have hyes := htimedOut hc
        rw [show s.timedOut = false from ht] at hyes
        cases hyes
    exact hfewer.createRequest hfinished htimedOut ipv4Addresses ipv6Addresses
  · exact h

theorem Accounted.timeout (h : Accounted s) : Accounted (step s .timeout) := by
  rw [step]
  split
  · have htimedOut : Accounted { s with timerActive := false, timedOut := true } := by
      refine ⟨h.counted, h.emitted, fun v hv => ?_, h.waiting, nofun⟩
      cases v with
      | failure => trivial
      | noPortal => exact .inl rfl
      | portalDetected => exact h.justified _ hv
    rw [CaptivePortalRequestTask.onResult]
    split
    · exact htimedOut
    · next hcompleted =>
      rw [if_neg fun hretry => nomatch hretry.1]
      exact htimedOut.emit (Bool.eq_false_iff.mpr hcompleted) nofun (.inl rfl)
  · exact h

/-- **One event.** -/
theorem Accounted.step (h : Accounted s) (event : Event) :
    Accounted (CaptivePortalRequestTask.step s event) := by
  cases event with
  | request attempt request event => exact h.request attempt request event
  | delete attempt => exact h.delete attempt
  | retry ipv4Addresses ipv6Addresses => exact h.retry ipv4Addresses ipv6Addresses
  | timeout => exact h.timeout

theorem accounted_run (retryOnFailure : Bool) (ipv4Addresses ipv6Addresses : List String) :
    Accounted (run retryOnFailure ipv4Addresses ipv6Addresses) := by
  have hstart : Accounted { retryOnFailure, timerActive := true } :=
    ⟨nofun, rfl, nofun, fun _ => .inl ⟨rfl, nofun⟩, nofun⟩
  exact hstart.createRequest (fun _ => ⟨rfl, nofun⟩) nofun ipv4Addresses ipv6Addresses

/-! ## The timeout -/

/-- The timeout has the task completed, and nothing undoes that. -/
def Ended (s : CaptivePortalRequestTask) : Prop := s.timedOut = true → s.completed = true

theorem onResult_ended (h : Ended s) (v : CaptivePortalResult) : Ended (s.onResult v) := by
  rw [CaptivePortalRequestTask.onResult]
  split_ifs
  · exact h
  · exact h
  · exact fun _ => rfl

theorem attemptCompleted_ended (h : Ended s) (result : Option CaptivePortalResult) :
    Ended (s.attemptCompleted result) := by
  cases result with
  | none => exact h
  | some v => exact onResult_ended h v

theorem report_ended (h : Ended s) (attempt : ℕ) (result : CaptivePortalResult) :
    Ended (s.report attempt result) := by
  rw [report]
  split
  · exact h
  · split
    · exact h
    · refine attemptCompleted_ended ?_ _
      exact h

theorem createRequest_ended (h : Ended s) (ipv4Addresses ipv6Addresses : List String) :
    Ended (s.createRequest ipv4Addresses ipv6Addresses) := by
  refine attemptCompleted_ended ?_ _
  exact h

theorem onResult_noPortal (s : CaptivePortalRequestTask) :
    (s.onResult .noPortal).completed = true := by
  rw [CaptivePortalRequestTask.onResult]
  split
  · assumption
  · rw [if_neg fun hretry => nomatch hretry.1]

theorem step_ended (h : Ended s) (event : Event) : Ended (step s event) := by
  cases event with
  | request attempt request event =>
    rw [step]
    split
    · exact h
    · split
      · exact h
      · refine @foldl_invariant _ _ (report · attempt) Ended ?_ _ ?_ _
        · exact fun s v hs => report_ended hs attempt v
        · exact h
  | delete attempt =>
    rw [step]
    split
    · exact h
    · split
      · exact h
      · exact h
  | retry ipv4Addresses ipv6Addresses =>
    rw [step]
    split
    · refine createRequest_ended ?_ _ _
      exact h
    · exact h
  | timeout =>
    rw [step]
    split
    · exact fun _ => onResult_noPortal _
    · exact h

/-! ## Every run -/

/-- Whatever the order of the events: the task emits one verdict at most, and has emitted one when
the timeout has fired. A detected portal is one that some probe has seen; without the timeout, no
portal means that a probe of the latest attempt has succeeded, or that there was none to send. No
report finds the counter of its attempt at zero. -/
theorem verdict_run (retryOnFailure : Bool) (ipv4Addresses ipv6Addresses : List String)
    (events : List Event) :
    let s := events.foldl step (run retryOnFailure ipv4Addresses ipv6Addresses)
    s.operationCompleted.length ≤ 1 ∧
      (s.timedOut = true → s.operationCompleted.length = 1) ∧
      (.portalDetected ∈ s.operationCompleted →
        ∃ a ∈ s.attempts, ∃ r ∈ a.requests, r.IsPortal) ∧
      (.noPortal ∈ s.operationCompleted → s.timedOut = false →
        ∃ a, s.attempts.getLast? = some a ∧
          (a.requests = [] ∨ ∃ r ∈ a.requests, r.Succeeded)) ∧
      ∀ a ∈ s.attempts, a.assertion = true := by
  intro s
  have h : Accounted s := foldl_invariant (fun _ event hs => hs.step event)
    (accounted_run retryOnFailure ipv4Addresses ipv6Addresses) events
  have hstart : Ended { retryOnFailure, timerActive := true } := nofun
  have hrun : Ended (run retryOnFailure ipv4Addresses ipv6Addresses) :=
    createRequest_ended hstart ipv4Addresses ipv6Addresses
  have hended : Ended s :=
    @foldl_invariant _ _ step Ended (fun _ event hs => step_ended hs event) _ hrun events
  refine ⟨?_, fun htimedOut => ?_, fun hv => h.justified _ hv, fun hv htimedOut => ?_,
    fun a ha => (h.counted a ha).assertion⟩
  · rw [h.emitted]
    split
    · exact Nat.le_refl 1
    · exact Nat.zero_le 1
  · rw [h.emitted, if_pos (hended htimedOut)]
  · refine (h.justified _ hv).resolve_left ?_
    rw [htimedOut]
    exact Bool.false_ne_true

end CaptivePortalRequestTask

end WgDesktop.CaptivePortal
