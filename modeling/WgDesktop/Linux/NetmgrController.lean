import WgDesktop.Lib.Runs
import WgDesktop.Profile.InterfaceConfig
import WgDesktop.Linux.NetmgrUtils

/-!
# `NetmgrController`

The tunnel sessions of `src/platforms/linux/netmgrcontroller.cpp`: the client asks for a connection
to be activated or deactivated, NetworkManager answers these calls and reports its devices, both at
any later time and in any order, and the controller tells the client `connected` and `disconnected`.

A deactivation can be reported twice, by the reply to `DeactivateConnection` and by the removal of
the device, and the device of a session can go away when the next one has begun. `endsOnce_iff` names
exactly the runs in which neither happens.
-/

namespace WgDesktop.NetmgrController

open NetmgrUtils Runs
open scoped List

/-! ## The controller -/

/-- `NetmgrDevice::State`. -/
inductive DeviceState where
  | unknown
  | unmanaged
  | unavailable
  | disconnected
  | prepare
  | config
  | needAuth
  | ipConfig
  | ipCheck
  | secondaries
  | activated
  | deactivating
  | failed
  deriving DecidableEq, Repr

/-- `NetmgrDevice`: the object path, and what was last heard of its state and of the connection it
carries. -/
structure NetmgrDevice where
  path : List Char
  state : DeviceState
  activeConnection : List Char
  uuid : List Char
  deriving DecidableEq, Repr

/-- The calls whose reply the controller waits for. -/
inductive Call where
  | update2
  | activateConnection
  | deactivateConnection (connection : List Char)
  deriving DecidableEq, Repr

/-- The controller. A reply comes to the request, numbered in the order the client made them, whose
call it answers. -/
structure State where
  uuid : List Char
  device : Option NetmgrDevice
  activationRxBytes : ℕ := 0
  waitingForHandshakeTraffic : Bool := false
  requiresIpv4DefaultRoute : Bool := false
  serverPublicKey : QString := .null
  handshakePollTimer : Bool := false
  requests : ℕ := 0
  calls : ℕ → Option Call := fun _ => none

/-- The signals of `ControllerImpl` that a session emits. -/
inductive Signal where
  | connected (pubkey : QString)
  | disconnected
  | backendFailure
  deriving DecidableEq, Repr

/-- What a traffic check reads: `RxBytes` of the device, and `/proc/net/route` if it opens. -/
structure Reading where
  rxBytes : ℕ
  routeTable : Option (List Char)

/-- What the client asks for and what NetworkManager reports. Where a handler reads properties of
the device, the event carries what it finds. -/
inductive Event where
  | activate (config : InterfaceConfig)
  | deactivate
  | reply (request : ℕ) (success : Bool)
  | deviceAdded (device : NetmgrDevice) (name driver : List Char) (baseline : ℕ) (now : Reading)
  | deviceRemoved (path : List Char)
  | propertyChanged (activeConnection uuid : List Char)
  | stateChanged (state : DeviceState) (baseline : ℕ) (now : Reading)
  | handshakePoll (now : Reading)

def wgInterfaceName : List Char := "wg0".toList

namespace State

/-- `initCompleted`: the device in case it already exists. -/
def initCompleted (uuid : List Char) (device : Option NetmgrDevice) : State :=
  { uuid := uuid, device := device }

def activate (T : HostAddressText) (config : InterfaceConfig) (s : State) : State :=
  { s with
    waitingForHandshakeTraffic := true
    activationRxBytes := 0
    requiresIpv4DefaultRoute :=
      hasIpv4DefaultRoute (config.allowedIPAddressRanges.map (IPAddress.toString T))
    serverPublicKey := config.serverPublicKey
    requests := s.requests + 1
    calls := Function.update s.calls s.requests (some .update2) }

/-- The reply to `Update2`: `peerCompleted` goes on to activate the connection. -/
def peerCompleted (request : ℕ) (s : State) : State :=
  { s with calls := Function.update s.calls request (some .activateConnection) }

/-- The device that `deactivate` takes down: the current one, if it carries the connection. -/
def carrier (s : State) : Option NetmgrDevice := s.device.filter (·.uuid = s.uuid)

def deactivate (s : State) : State × List Signal :=
  match s.carrier with
  | none => ({ s with requests := s.requests + 1 }, [.disconnected])
  | some device =>
    ({ s with
       requests := s.requests + 1
       calls := Function.update s.calls s.requests
         (some (.deactivateConnection device.activeConnection)) }, [])

/-- A reply finishes its call. That of `DeactivateConnection` reports the end of the session,
whatever it says. -/
def reply (request : ℕ) (success : Bool) (s : State) : State × List Signal :=
  let finished := { s with calls := Function.update s.calls request none }
  match s.calls request with
  | none => (s, [])
  | some .update2 =>
    if success then (s.peerCompleted request, []) else (finished, [.backendFailure])
  | some .activateConnection => (finished, if success then [] else [.backendFailure])
  | some (.deactivateConnection _) => (finished, [.disconnected])

def ipv4DefaultRouteReady (T : HostAddressText) (routeTable : Option (List Char)) (s : State) :
    Bool :=
  if !s.requiresIpv4DefaultRoute then true
  else
    match routeTable with
    | none => false
    | some contents => !mainRouteBlocksInterface T contents "1.1.1.1".toList wgInterfaceName

def checkHandshakeTraffic (T : HostAddressText) (now : Reading) (s : State) :
    State × List Signal :=
  match s.device with
  | none => (s, [])
  | some device =>
    if !s.waitingForHandshakeTraffic || device.uuid ≠ s.uuid || device.state ≠ .activated then
      (s, [])
    else if !hasNewHandshakeTraffic s.activationRxBytes now.rxBytes then (s, [])
    else if !s.ipv4DefaultRouteReady T now.routeTable then (s, [])
    else
      ({ s with handshakePollTimer := false, waitingForHandshakeTraffic := false },
        [.connected s.serverPublicKey])

def startPolling (s : State) : State :=
  if s.waitingForHandshakeTraffic then { s with handshakePollTimer := true } else s

@[simp] theorem startPolling_requests (s : State) : s.startPolling.requests = s.requests := by
  unfold startPolling
  split <;> rfl

@[simp] theorem startPolling_calls (s : State) : s.startPolling.calls = s.calls := by
  unfold startPolling
  split <;> rfl

/-- `deviceStateChanged`: it reads `RxBytes` for the baseline, and once more for the check. -/
def deviceStateChanged (T : HostAddressText) (state : DeviceState) (baseline : ℕ) (now : Reading)
    (s : State) : State × List Signal :=
  match s.device with
  | none => (s, [])
  | some device =>
    if device.uuid ≠ s.uuid then (s, [])
    else if state = .activated then
      let r := checkHandshakeTraffic T now { s with activationRxBytes := baseline }
      (r.1.startPolling, r.2)
    else if state = .deactivating ∨ state = .failed then
      ({ s with handshakePollTimer := false, waitingForHandshakeTraffic := false }, [])
    else (s, [])

def deviceAdded (T : HostAddressText) (device : NetmgrDevice) (name driver : List Char)
    (baseline : ℕ) (now : Reading) (s : State) : State × List Signal :=
  if name ≠ wgInterfaceName then (s, [])
  else if driver ≠ "wireguard".toList then (s, [])
  else { s with device := some device }.deviceStateChanged T device.state baseline now

/-- The removal that `deviceRemoved` acts on: that of the current device. -/
def Removes (s : State) (path : List Char) : Prop :=
  ∃ device, s.device = some device ∧ device.path = path

instance (s : State) (path : List Char) : Decidable (s.Removes path) :=
  decidable_of_iff (s.device.any (·.path = path)) (by simp [Removes, Option.any_eq_true])

def deviceRemoved (path : List Char) (s : State) : State × List Signal :=
  if s.Removes path then
    ({ s with handshakePollTimer := false, waitingForHandshakeTraffic := false, device := none },
      [.disconnected])
  else (s, [])

/-- `NetmgrDevice::propertyChanged` for the connection that the device carries. -/
def propertyChanged (activeConnection uuid : List Char) (s : State) : State :=
  { s with device := s.device.map fun device =>
      { device with activeConnection := activeConnection, uuid := uuid } }

/-- `NetmgrDevice::dbusStateChanged`, and the slot it is connected to. -/
def dbusStateChanged (T : HostAddressText) (state : DeviceState) (baseline : ℕ) (now : Reading)
    (s : State) : State × List Signal :=
  let device := s.device.map fun device => { device with state := state }
  { s with device := device }.deviceStateChanged T state baseline now

/-- One event. The signals of a device that is gone, replies that were delivered before and the
timeouts of a stopped timer do not come. -/
def step (T : HostAddressText) (s : State) : Event → State × List Signal
  | .activate config => (s.activate T config, [])
  | .deactivate => s.deactivate
  | .reply request success => s.reply request success
  | .deviceAdded device name driver baseline now =>
    s.deviceAdded T device name driver baseline now
  | .deviceRemoved path => s.deviceRemoved path
  | .propertyChanged activeConnection uuid => (s.propertyChanged activeConnection uuid, [])
  | .stateChanged state baseline now => s.dbusStateChanged T state baseline now
  | .handshakePoll now =>
    if s.handshakePollTimer then s.checkHandshakeTraffic T now else (s, [])

end State

/-! ## The history of a run -/

/-- What the client sees: a session that begins, a request to end one, and a signal with the session
and the `deactivate` that it belongs to. Session 0 is what was there before the first `activate`. -/
inductive Entry where
  | session (number : ℕ)
  | deactivate (request : ℕ)
  | signal (signal : Signal) (session : ℕ) (cause : Option ℕ)
  deriving DecidableEq, Repr

/-- The `disconnected` signal that reports the end of a deactivation. -/
def ended (session request : ℕ) : Entry := .signal .disconnected session (some request)

/-- The entry reports the end of this deactivation. -/
def Entry.ends (request : ℕ) : Entry → Bool
  | .signal .disconnected _ (some request') => request = request'
  | _ => false

/-- The controller with the history of its run: the session, the one that the device belongs to, the
last `deactivate` that was for each session, the session of each request, and the deactivations that
the removal of a device has reported. The sessions below `settled` began before some report of a
deactivation, and those below `closed` before one that another session followed. -/
structure History where
  controller : State
  session : ℕ := 0
  carried : ℕ := 0
  deactivation : ℕ → Option ℕ := fun _ => none
  called : ℕ → ℕ := fun _ => 0
  removed : List ℕ := []
  settled : ℕ := 0
  closed : ℕ := 0
  log : List Entry := [.session 0]

namespace History

/-- The `deactivate` that the signals of an event belong to: the one answered, and for the removal of
a device the last one that was for its session. -/
def cause (h : History) : Event → Option ℕ
  | .deactivate => some h.controller.requests
  | .reply request _ => some request
  | .deviceRemoved _ => h.deactivation h.carried
  | _ => none

def requested (h : History) : Event → List Entry
  | .activate _ => [.session (h.session + 1)]
  | .deactivate => [.deactivate h.controller.requests]
  | _ => []

def nextSession (h : History) : Event → ℕ
  | .activate _ => h.session + 1
  | _ => h.session

/-- The session of the device, where the event tells for which one NetworkManager has it. -/
def nextCarried (h : History) (session : ℕ) : Event → ℕ
  | .deviceAdded _ name driver _ _ =>
    if name = wgInterfaceName ∧ driver = "wireguard".toList then session else h.carried
  | .propertyChanged _ _ => session
  | _ => h.carried

/-- A `deactivate` is for the session in which it is called, and for that of the device it takes
down. -/
def nextDeactivation (h : History) : Event → ℕ → Option ℕ
  | .deactivate =>
    let called := Function.update h.deactivation h.session (some h.controller.requests)
    match h.controller.carrier with
    | none => called
    | some _ => Function.update called h.carried (some h.controller.requests)
  | _ => h.deactivation

def nextCalled (h : History) : Event → ℕ → ℕ
  | .activate _ => Function.update h.called h.controller.requests (h.session + 1)
  | .deactivate => Function.update h.called h.controller.requests h.session
  | _ => h.called

def nextRemoved (h : History) : Event → List ℕ
  | .deviceRemoved path =>
    if h.controller.Removes path then (h.deactivation h.carried).toList ++ h.removed else h.removed
  | _ => h.removed

/-- The event reports the end of a deactivation: there is nothing to take down, the call is answered,
or the device goes away. -/
def reports (h : History) : Event → Bool
  | .deactivate => h.controller.carrier.isNone
  | .reply request _ =>
    match h.controller.calls request with
    | some (.deactivateConnection _) => true
    | _ => false
  | .deviceRemoved path => h.controller.Removes path && (h.deactivation h.carried).isSome
  | _ => false

def nextClosed (h : History) : Event → ℕ
  | .activate _ => h.settled
  | _ => h.closed

/-- The session that the signals of an event belong to. -/
def owner (h : History) (e : Event) : ℕ := (h.cause e).elim h.carried (h.nextCalled e)

/-- One event, with the session for which NetworkManager has the device that the event is about. -/
def step (T : HostAddressText) (h : History) (e : Event × ℕ) : History :=
  let r := h.controller.step T e.1
  { controller := r.1
    session := h.nextSession e.1
    carried := h.nextCarried e.2 e.1
    deactivation := h.nextDeactivation e.1
    called := h.nextCalled e.1
    removed := h.nextRemoved e.1
    settled := if h.reports e.1 then h.session + 1 else h.settled
    closed := h.nextClosed e.1
    log := h.log ++ h.requested e.1 ++
      r.2.map fun signal => .signal signal (h.owner e.1) (h.cause e.1) }

/-- A deactivation whose reply has not come. -/
def Stopping (h : History) (request : ℕ) : Prop :=
  ∃ connection, h.controller.calls request = some (.deactivateConnection connection)

/-- No removal has reported the deactivation, and no session has followed a report since it was
called. -/
def Unreported (h : History) (request : ℕ) : Prop :=
  request ∉ h.removed ∧ h.closed ≤ h.called request

/-- The deactivations are reported by their reply or by the removal of the device, and a device goes
away only if it is not of a session from before the last report that another session followed. -/
def Once (h : History) : Event → Prop
  | .reply request _ => h.Stopping request → h.Unreported request
  | .deviceRemoved path => h.controller.Removes path →
    match h.deactivation h.carried with
    | none => h.closed ≤ h.carried
    | some request => h.Stopping request ∧ h.Unreported request
  | _ => True

end History

/-- Each deactivation ends in at most one `disconnected`, and none comes that belongs to a session
from before some report of a deactivation once another session has followed that report. -/
def EndsOnce (log : List Entry) : Prop :=
  (∀ k, log.countP (Entry.ends k) ≤ 1) ∧ ∀ m m' k n cause,
    ¬ [.session m, ended m' k, .session n, .signal .disconnected m cause] <+ log

/-! ## What an event does -/

namespace State

variable {T : HostAddressText} {s : State}

/-- The events that report no deactivation keep the calls that wait for one. -/
def Quiet (s : State) (r : State × List Signal) : Prop :=
  r.1.requests = s.requests ∧ .disconnected ∉ r.2 ∧ ∀ request connection,
    r.1.calls request = some (.deactivateConnection connection) ↔
      s.calls request = some (.deactivateConnection connection)

theorem quiet_refl (s : State) : s.Quiet (s, []) := ⟨rfl, by simp, by simp⟩

theorem quiet_checkHandshakeTraffic (now : Reading) : s.Quiet (s.checkHandshakeTraffic T now) := by
  unfold checkHandshakeTraffic
  split
  · exact quiet_refl s
  · repeat' split
    all_goals first | exact quiet_refl s | exact ⟨rfl, by simp, by simp⟩

theorem quiet_deviceStateChanged (state : DeviceState) (baseline : ℕ) (now : Reading) :
    s.Quiet (s.deviceStateChanged T state baseline now) := by
  unfold deviceStateChanged
  split
  · exact quiet_refl s
  · split
    · exact quiet_refl s
    · split
      · obtain ⟨hrequests, hsignals, hcalls⟩ :=
          quiet_checkHandshakeTraffic (T := T) (s := { s with activationRxBytes := baseline }) now
        exact ⟨by simpa using hrequests, hsignals, by simpa using hcalls⟩
      · split <;> exact ⟨rfl, by simp, by simp⟩

theorem quiet_deviceAdded (device : NetmgrDevice) (name driver : List Char) (baseline : ℕ)
    (now : Reading) : s.Quiet (s.deviceAdded T device name driver baseline now) := by
  unfold deviceAdded
  repeat' split
  · exact quiet_refl s
  · exact quiet_refl s
  · exact quiet_deviceStateChanged (s := { s with device := some device }) _ _ _

theorem quiet_reply {request : ℕ} {success : Bool}
    (h : ∀ connection, s.calls request ≠ some (.deactivateConnection connection)) :
    s.Quiet (s.reply request success) := by
  have hupdate : ∀ call, (∀ connection, call ≠ some (.deactivateConnection connection)) →
      ∀ k connection, Function.update s.calls request call k =
        some (.deactivateConnection connection) ↔
          s.calls k = some (.deactivateConnection connection) := by
    intro call hcall k connection
    by_cases hk : k = request
    · subst hk
      simp [hcall, h]
    · rw [Function.update_of_ne hk]
  unfold reply
  split
  · exact quiet_refl s
  · split
    · exact ⟨rfl, by simp, hupdate _ (by simp)⟩
    · exact ⟨rfl, by simp, hupdate _ (by simp)⟩
  · refine ⟨rfl, ?_, hupdate _ (by simp)⟩
    split <;> simp
  · rename_i connection hcall
    exact absurd hcall (h connection)

end State

/-! ## The order of a history -/

/-- The numbers of a history say which sessions began before a report, and before a report that
another session followed. -/
structure Ordered (log : List Entry) (session settled closed : ℕ) : Prop where
  closed_le : closed ≤ session
  settled_le : settled ≤ session + 1
  session_iff : ∀ m, .session m ∈ log ↔ m ≤ session
  settled_iff : ∀ m, (∃ m' k, [.session m, ended m' k] <+ log) ↔ m < settled
  closed_iff : ∀ m, (∃ m' k n, [.session m, ended m' k, .session n] <+ log) ↔ m < closed
  never : ∀ m m' k n cause,
    ¬ [.session m, ended m' k, .session n, .signal .disconnected m cause] <+ log

namespace Ordered

variable {log : List Entry} {session settled closed : ℕ}

theorem pair_concat {x y b : Entry} :
    [x, y] <+ log ++ [b] ↔ [x, y] <+ log ∨ y = b ∧ x ∈ log := by
  rw [← List.singleton_sublist]
  exact concat_sublist_concat (l := [x])

theorem triple_concat {x y z b : Entry} :
    [x, y, z] <+ log ++ [b] ↔ [x, y, z] <+ log ∨ z = b ∧ [x, y] <+ log :=
  concat_sublist_concat (l := [x, y])

theorem quad_concat {x y z w b : Entry} :
    [x, y, z, w] <+ log ++ [b] ↔ [x, y, z, w] <+ log ∨ w = b ∧ [x, y, z] <+ log :=
  concat_sublist_concat (l := [x, y, z])

theorem start : Ordered [.session 0] 0 0 0 := by
  constructor
  · exact le_rfl
  · exact Nat.zero_le _
  · simp
  · refine fun m => iff_of_false ?_ (Nat.not_lt_zero m)
    rintro ⟨m', k, hsub⟩
    simpa using hsub.length_le
  · refine fun m => iff_of_false ?_ (Nat.not_lt_zero m)
    rintro ⟨m', k, n, hsub⟩
    simpa using hsub.length_le
  · intro m m' k n cause hsub
    simpa using hsub.length_le

/-- After a new session every report so far is one that a session followed. -/
theorem begin (h : Ordered log session settled closed) :
    Ordered (log ++ [.session (session + 1)]) (session + 1) settled settled := by
  constructor
  · exact h.settled_le
  · exact h.settled_le.trans (Nat.le_succ _)
  · intro m
    rw [List.mem_append, h.session_iff, List.mem_singleton, Entry.session.injEq]
    omega
  · intro m
    rw [← h.settled_iff]
    simp [pair_concat, ended]
  · intro m
    rw [← h.settled_iff]
    constructor
    · rintro ⟨m', k, n, hsub⟩
      refine ⟨m', k, ?_⟩
      rcases triple_concat.mp hsub with hold | ⟨-, hold⟩
      · exact .trans (by simp) hold
      · exact hold
    · rintro ⟨m', k, hold⟩
      exact ⟨m', k, session + 1, triple_concat.mpr (.inr ⟨rfl, hold⟩)⟩
  · intro m m' k n cause
    simpa [quad_concat] using h.never m m' k n cause

/-- A `disconnected` may come unless a session followed a report since its own one began. -/
theorem never_concat (h : Ordered log session settled closed) {m : ℕ} (hm : closed ≤ m)
    (cause : Option ℕ) (j m' k n : ℕ) (cause' : Option ℕ) :
    ¬ [.session j, ended m' k, .session n, .signal .disconnected j cause'] <+
      log ++ [.signal .disconnected m cause] := by
  intro hsub
  rcases quad_concat.mp hsub with hold | ⟨heq, hold⟩
  · exact h.never j m' k n cause' hold
  · obtain ⟨rfl, rfl⟩ : j = m ∧ cause' = cause := by simpa using heq
    have hlt := (h.closed_iff j).mp ⟨m', k, n, hold⟩
    omega

theorem report (h : Ordered log session settled closed) {m : ℕ} (hm : closed ≤ m) (k : ℕ) :
    Ordered (log ++ [ended m k]) session (session + 1) closed := by
  have hmem : ∀ j, .session j ∈ log ++ [ended m k] ↔ .session j ∈ log := by simp [ended]
  constructor
  · exact h.closed_le
  · exact le_rfl
  · intro j
    rw [hmem, h.session_iff]
  · intro j
    rw [Nat.lt_succ_iff, ← h.session_iff]
    constructor
    · rintro ⟨m', k', hsub⟩
      exact (hmem j).mp (hsub.subset (by simp))
    · exact fun hj => ⟨m, k, pair_concat.mpr (.inr ⟨rfl, hj⟩)⟩
  · intro j
    rw [← h.closed_iff]
    simp [triple_concat, ended]
  · exact h.never_concat hm (some k)

theorem other (h : Ordered log session settled closed) (x : Entry) (hsession : ∀ n, x ≠ .session n)
    (hended : ∀ m k, x ≠ ended m k)
    (hlate : ∀ m cause, x = .signal .disconnected m cause → closed ≤ m) :
    Ordered (log ++ [x]) session settled closed := by
  constructor
  · exact h.closed_le
  · exact h.settled_le
  · intro m
    rw [← h.session_iff]
    simp [(hsession m).symm]
  · intro m
    rw [← h.settled_iff]
    simp [pair_concat, (hended _ _).symm]
  · intro m
    rw [← h.closed_iff]
    simp [triple_concat, (hsession _).symm]
  · intro m m' k n cause hsub
    rcases quad_concat.mp hsub with hold | ⟨rfl, hold⟩
    · exact h.never m m' k n cause hold
    · exact h.never_concat (hlate m cause rfl) cause m m' k n cause hsub

theorem signals {signals : List Signal} (h : Ordered log session settled closed)
    (hs : .disconnected ∉ signals) (m : ℕ) (cause : Option ℕ) :
    Ordered (log ++ signals.map fun signal => .signal signal m cause) session settled closed := by
  induction signals generalizing log with
  | nil => simpa using h
  | cons signal signals ih =>
    rw [List.mem_cons, not_or] at hs
    have hne : ∀ m' cause', Entry.signal signal m cause ≠ .signal .disconnected m' cause' := by
      intro m' cause' heq
      exact hs.1 (Entry.signal.inj heq).1.symm
    have hfirst : Ordered (log ++ [.signal signal m cause]) session settled closed :=
      h.other _ (by simp) (fun m' k => hne m' (some k)) fun m' cause' heq =>
        absurd heq (hne m' cause')
    simpa using ih hfirst hs.2

end Ordered

/-! ## The counts of a history -/

theorem countP_concat_ended (log : List Entry) (m j k : ℕ) :
    (log ++ [ended m k]).countP (Entry.ends j) =
      log.countP (Entry.ends j) + if j = k then 1 else 0 := by
  rw [List.countP_append, List.countP_singleton]
  simp [ended, Entry.ends]

/-- A deactivation is reported once, and not before its reply or the removal of its device; the
predicate is on the deactivations that wait for a reply. -/
structure Counted (log : List Entry) (requests : ℕ) (stopping : ℕ → Prop) (removed : List ℕ)
    (deactivation : ℕ → Option ℕ) : Prop where
  once : ∀ k, log.countP (Entry.ends k) ≤ 1
  fresh : ∀ k, requests ≤ k → log.countP (Entry.ends k) = 0
  lt_requests : ∀ k, stopping k → k < requests
  of_stopping : ∀ k, stopping k → k ∉ removed → log.countP (Entry.ends k) = 0
  of_removed : ∀ k ∈ removed, log.countP (Entry.ends k) = 1
  of_deactivation : ∀ m k, deactivation m = some k →
    k < requests ∧ (¬ stopping k → log.countP (Entry.ends k) = 1)

namespace Counted

variable {log : List Entry} {requests : ℕ} {stopping : ℕ → Prop} {removed : List ℕ}
  {deactivation : ℕ → Option ℕ} {k : ℕ}

theorem start : Counted [.session 0] 0 (fun _ => False) [] fun _ => none :=
  ⟨by simp [Entry.ends], by simp [Entry.ends], by simp, by simp, by simp, by simp⟩

theorem not_stopping_requests (h : Counted log requests stopping removed deactivation) :
    ¬ stopping requests :=
  fun hk => absurd (h.lt_requests _ hk) (lt_irrefl _)

theorem requests_notMem_removed (h : Counted log requests stopping removed deactivation) :
    requests ∉ removed := by
  intro hk
  have hone := h.of_removed _ hk
  rw [h.fresh _ le_rfl] at hone
  cases hone

theorem append {requests' : ℕ} (h : Counted log requests stopping removed deactivation)
    (more : List Entry) (hmore : ∀ x ∈ more, ∀ k, x.ends k = false)
    (hrequests : requests ≤ requests') :
    Counted (log ++ more) requests' stopping removed deactivation := by
  have hcount : ∀ k, (log ++ more).countP (Entry.ends k) = log.countP (Entry.ends k) := by
    intro k
    rw [List.countP_append, Nat.add_eq_left, List.countP_eq_zero]
    intro x hx hends
    rw [hmore x hx k] at hends
    cases hends
  refine ⟨?_, ?_, ?_, ?_, ?_, ?_⟩
  · simpa only [hcount] using h.once
  · intro k hk
    rw [hcount]
    exact h.fresh k (hrequests.trans hk)
  · exact fun k hk => (h.lt_requests k hk).trans_le hrequests
  · simpa only [hcount] using h.of_stopping
  · simpa only [hcount] using h.of_removed
  · intro m k hk
    rw [hcount]
    exact (h.of_deactivation m k hk).imp_left fun hlt => hlt.trans_le hrequests

theorem ask (h : Counted log requests stopping removed deactivation) (stopping' : ℕ → Prop)
    (deactivation' : ℕ → Option ℕ) (hs : ∀ k, stopping' k ↔ stopping k ∨ k = requests)
    (hd : ∀ m k, deactivation' m = some k → deactivation m = some k ∨ k = requests) :
    Counted (log ++ [.deactivate requests]) (requests + 1) stopping' removed deactivation' := by
  have h' := h.append [.deactivate requests] (by simp [Entry.ends]) (Nat.le_succ requests)
  refine ⟨h'.once, h'.fresh, ?_, ?_, h'.of_removed, ?_⟩
  · intro k hk
    rcases (hs k).mp hk with hk | rfl
    · exact h'.lt_requests k hk
    · exact Nat.lt_succ_self k
  · intro k hk hremoved
    rcases (hs k).mp hk with hk | rfl
    · exact h'.of_stopping k hk hremoved
    · rw [List.countP_append, h.fresh k le_rfl]
      simp [Entry.ends]
  · intro m k hk
    rcases hd m k hk with hk | rfl
    · exact (h'.of_deactivation m k hk).imp_right fun hone hn =>
        hone fun hk => hn ((hs k).mpr (.inl hk))
    · exact ⟨Nat.lt_succ_self k, fun hn => absurd ((hs k).mpr (.inr rfl)) hn⟩

theorem countP_ended (h : Counted log requests stopping removed deactivation) (m : ℕ)
    (hk : stopping k) (hremoved : k ∉ removed) :
    (∀ j, (log ++ [ended m k]).countP (Entry.ends j) ≤ 1) ∧
      (∀ j, requests ≤ j → (log ++ [ended m k]).countP (Entry.ends j) = 0) ∧
      (log ++ [ended m k]).countP (Entry.ends k) = 1 := by
  have hzero := h.of_stopping k hk hremoved
  have hlt := h.lt_requests k hk
  refine ⟨fun j => ?_, fun j hj => ?_, ?_⟩
  · rw [countP_concat_ended]
    split
    · subst j
      omega
    · exact h.once j
  · rw [countP_concat_ended, if_neg (by omega), add_zero]
    exact h.fresh j hj
  · rw [countP_concat_ended, if_pos rfl, hzero]

theorem reply (h : Counted log requests stopping removed deactivation) (stopping' : ℕ → Prop) (m : ℕ)
    (hk : stopping k) (hremoved : k ∉ removed) (hs : ∀ j, stopping' j ↔ stopping j ∧ j ≠ k) :
    Counted (log ++ [ended m k]) requests stopping' removed deactivation := by
  obtain ⟨honce, hfresh, hone⟩ := h.countP_ended m hk hremoved
  refine ⟨honce, hfresh, fun j hj => h.lt_requests j ((hs j).mp hj).1, ?_, ?_, ?_⟩
  · intro j hj hjr
    obtain ⟨hj, hjk⟩ := (hs j).mp hj
    rw [countP_concat_ended, if_neg hjk, add_zero]
    exact h.of_stopping j hj hjr
  · intro j hj
    have hjk : j ≠ k := fun heq => hremoved (heq ▸ hj)
    rw [countP_concat_ended, if_neg hjk, add_zero]
    exact h.of_removed j hj
  · intro n j hj
    obtain ⟨hlt, hone'⟩ := h.of_deactivation n j hj
    refine ⟨hlt, fun hn => ?_⟩
    by_cases hjk : j = k
    · rw [hjk]
      exact hone
    · rw [countP_concat_ended, if_neg hjk, add_zero]
      exact hone' fun hj => hn ((hs j).mpr ⟨hj, hjk⟩)

/-- A deactivation that was not reported is, by the removal of its device. -/
theorem remove (h : Counted log requests stopping removed deactivation) (m : ℕ) (hk : stopping k)
    (hremoved : k ∉ removed) :
    Counted (log ++ [ended m k]) requests stopping (k :: removed) deactivation := by
  obtain ⟨honce, hfresh, hone⟩ := h.countP_ended m hk hremoved
  refine ⟨honce, hfresh, h.lt_requests, ?_, ?_, ?_⟩
  · intro j hj hjr
    rw [List.mem_cons, not_or] at hjr
    rw [countP_concat_ended, if_neg hjr.1, add_zero]
    exact h.of_stopping j hj hjr.2
  · intro j hj
    by_cases hjk : j = k
    · rw [hjk]
      exact hone
    · rw [countP_concat_ended, if_neg hjk, add_zero]
      exact h.of_removed j ((List.mem_cons.mp hj).resolve_left hjk)
  · intro n j hj
    refine (h.of_deactivation n j hj).imp_right fun hone' hn => ?_
    have hjk : j ≠ k := fun heq => hn (heq ▸ hk)
    rw [countP_concat_ended, if_neg hjk, add_zero]
    exact hone' hn

end Counted

/-! ## Steps -/

namespace History

variable {T : HostAddressText} {h : History}

/-- The numbers and the counts of a history, along every run that reports no deactivation twice. -/
structure Inv (h : History) : Prop where
  ordered : Ordered h.log h.session h.settled h.closed
  counted : Counted h.log h.controller.requests h.Stopping h.removed h.deactivation

/-- The order and the counts after a step, by the parts of the history it leaves. -/
theorem inv_of {h' : History} {log : List Entry} {requests session settled closed : ℕ}
    {stopping : ℕ → Prop} {removed : List ℕ} {deactivation : ℕ → Option ℕ}
    (ho : Ordered log session settled closed)
    (hc : Counted log requests stopping removed deactivation) (hlog : h'.log = log)
    (hrequests : h'.controller.requests = requests) (hsession : h'.session = session)
    (hsettled : h'.settled = settled) (hclosed : h'.closed = closed)
    (hstopping : ∀ k, h'.Stopping k ↔ stopping k) (hremoved : h'.removed = removed)
    (hdeactivation : h'.deactivation = deactivation) : Inv h' := by
  subst hlog hrequests hsession hsettled hclosed hremoved hdeactivation
  obtain rfl : h'.Stopping = stopping := funext fun k => propext (hstopping k)
  exact ⟨ho, hc⟩

theorem inv_step_activate (hi : Inv h) (config : InterfaceConfig) (m : ℕ) :
    Inv (h.step T (.activate config, m)) := by
  refine inv_of hi.ordered.begin (hi.counted.append [.session (h.session + 1)] ?_ (Nat.le_succ _))
    ?_ rfl rfl rfl rfl ?_ rfl rfl
  · simp [Entry.ends]
  · simp [step, State.step, requested]
  · intro k
    by_cases hk : k = h.controller.requests
    · subst hk
      simp only [hi.counted.not_stopping_requests, iff_false]
      simp [Stopping, step, State.step, State.activate]
    · simp [Stopping, step, State.step, State.activate, Function.update_of_ne hk]

/-- The deactivations of the sessions are those from before, and the new one. -/
theorem nextDeactivation_cases (m k : ℕ) (hk : h.nextDeactivation .deactivate m = some k) :
    h.deactivation m = some k ∨ k = h.controller.requests := by
  have hupdate : ∀ (d : ℕ → Option ℕ) (n : ℕ),
      Function.update d n (some h.controller.requests) m = some k →
        d m = some k ∨ k = h.controller.requests := by
    intro d n hd
    by_cases hm : m = n
    · subst hm
      rw [Function.update_self] at hd
      exact .inr (Option.some.inj hd).symm
    · rw [Function.update_of_ne hm] at hd
      exact .inl hd
  rw [nextDeactivation] at hk
  cases hc : h.controller.carrier with
  | none =>
    rw [hc] at hk
    exact hupdate _ _ hk
  | some device =>
    rw [hc] at hk
    exact (hupdate _ _ hk).elim (hupdate _ _) .inr

theorem inv_step_deactivate_none (hi : Inv h) (hc : h.controller.carrier = none) (m : ℕ) :
    Inv (h.step T (.deactivate, m)) := by
  have hask := hi.counted.ask (fun k => h.Stopping k ∨ k = h.controller.requests)
    (h.nextDeactivation .deactivate) (fun k => Iff.rfl) nextDeactivation_cases
  have hrequests := hi.counted.requests_notMem_removed
  have hordered := hi.ordered.other (.deactivate h.controller.requests) (by simp) (by simp [ended])
    (by simp)
  refine inv_of (hordered.report hordered.closed_le h.controller.requests)
    (hask.reply h.Stopping h.session (.inr rfl) hrequests ?_) ?_ ?_ rfl ?_ rfl ?_ rfl rfl
  · intro k
    have hne : h.Stopping k → k ≠ h.controller.requests :=
      fun hk => (hi.counted.lt_requests k hk).ne
    tauto
  · simp [step, State.step, State.deactivate, hc, requested, cause, owner, nextCalled, ended]
  · simp [step, State.step, State.deactivate, hc]
  · simp [step, reports, hc]
  · simp [Stopping, step, State.step, State.deactivate, hc]

theorem inv_step_deactivate_some (hi : Inv h) {device : NetmgrDevice}
    (hc : h.controller.carrier = some device) (m : ℕ) : Inv (h.step T (.deactivate, m)) := by
  have hask := hi.counted.ask (fun k => h.Stopping k ∨ k = h.controller.requests)
    (h.nextDeactivation .deactivate) (fun k => Iff.rfl) nextDeactivation_cases
  have hordered := hi.ordered.other (.deactivate h.controller.requests) (by simp) (by simp [ended])
    (by simp)
  refine inv_of hordered hask ?_ ?_ rfl ?_ rfl ?_ rfl rfl
  · simp [step, State.step, State.deactivate, hc, requested]
  · simp [step, State.step, State.deactivate, hc]
  · simp [step, reports, hc]
  · intro k
    by_cases hk : k = h.controller.requests
    · subst hk
      simp [Stopping, step, State.step, State.deactivate, hc]
    · simp [Stopping, step, State.step, State.deactivate, hc, hk]

theorem inv_step_reply (hi : Inv h) {k : ℕ} {success : Bool} (hk : h.Stopping k)
    (hunreported : h.Unreported k) (m : ℕ) : Inv (h.step T (.reply k success, m)) := by
  obtain ⟨connection, hcall⟩ := hk
  refine inv_of (hi.ordered.report hunreported.2 k)
    (hi.counted.reply (fun j => h.Stopping j ∧ j ≠ k) (h.called k) ⟨connection, hcall⟩ hunreported.1
      fun j => Iff.rfl) ?_ ?_ rfl ?_ rfl ?_ rfl rfl
  · simp [step, State.step, State.reply, hcall, requested, cause, owner, nextCalled, ended]
  · simp [step, State.step, State.reply, hcall]
  · simp [step, reports, hcall]
  · intro j
    by_cases hj : j = k
    · subst hj
      simp [Stopping, step, State.step, State.reply, hcall]
    · simp [Stopping, step, State.step, State.reply, hcall, hj]

/-- The removal of a device for whose session a deactivation was called. -/
theorem inv_step_removed_some (hi : Inv h) {path : List Char} (hr : h.controller.Removes path)
    {k : ℕ} (hd : h.deactivation h.carried = some k) (hk : h.Stopping k)
    (hunreported : h.Unreported k) (m : ℕ) : Inv (h.step T (.deviceRemoved path, m)) := by
  refine inv_of (hi.ordered.report hunreported.2 k)
    (hi.counted.remove (h.called k) hk hunreported.1) ?_ ?_ rfl ?_ rfl ?_ ?_ rfl
  · simp [step, State.step, State.deviceRemoved, hr, requested, cause, hd, owner, nextCalled, ended]
  · simp [step, State.step, State.deviceRemoved, hr]
  · simp [step, reports, hr, hd]
  · simp [Stopping, step, State.step, State.deviceRemoved, hr]
  · simp [step, nextRemoved, hr, hd]

/-- The removal of a device for whose session no deactivation was called. -/
theorem inv_step_removed_none (hi : Inv h) {path : List Char} (hr : h.controller.Removes path)
    (hd : h.deactivation h.carried = none) (hclosed : h.closed ≤ h.carried) (m : ℕ) :
    Inv (h.step T (.deviceRemoved path, m)) := by
  have hordered := hi.ordered.other (.signal .disconnected h.carried none) (by simp) (by simp [ended])
    fun m' cause heq => by
      obtain ⟨-, rfl, -⟩ := Entry.signal.inj heq
      exact hclosed
  refine inv_of hordered
    (hi.counted.append [.signal .disconnected h.carried none] (by simp [Entry.ends]) le_rfl)
    ?_ ?_ rfl ?_ rfl ?_ ?_ rfl
  · simp [step, State.step, State.deviceRemoved, hr, requested, cause, hd, owner]
  · simp [step, State.step, State.deviceRemoved, hr]
  · simp [step, reports, hr, hd]
  · simp [Stopping, step, State.step, State.deviceRemoved, hr]
  · simp [step, nextRemoved, hr, hd]

theorem inv_step_quiet {e : Event} (hi : Inv h) (hq : h.controller.Quiet (h.controller.step T e))
    (hrequested : h.requested e = []) (hsession : h.nextSession e = h.session)
    (hremoved : h.nextRemoved e = h.removed) (hclosed : h.nextClosed e = h.closed)
    (hdeactivation : h.nextDeactivation e = h.deactivation) (hreports : h.reports e = false) (m : ℕ) :
    Inv (h.step T (e, m)) := by
  obtain ⟨hrequests, hsignals, hcalls⟩ := hq
  refine inv_of (hi.ordered.signals hsignals (h.owner e) (h.cause e))
    (hi.counted.append _ ?_ le_rfl) ?_ hrequests hsession ?_ hclosed
    (fun k => exists_congr fun connection => hcalls k connection) hremoved hdeactivation
  · intro x hx
    obtain ⟨signal, hsignal, rfl⟩ := List.mem_map.mp hx
    cases signal with
    | disconnected => exact absurd hsignal hsignals
    | connected pubkey => exact fun k => rfl
    | backendFailure => exact fun k => rfl
  · simp [step, hrequested]
  · simp [step, hreports]

/-- **Every step** that reports no deactivation for the second time keeps the invariant. -/
theorem inv_step (e : Event × ℕ) (hi : Inv h) (ho : h.Once e.1) : Inv (h.step T e) := by
  obtain ⟨e, m⟩ := e
  cases e with
  | activate config => exact inv_step_activate hi config m
  | deactivate =>
    cases hc : h.controller.carrier with
    | none => exact inv_step_deactivate_none hi hc m
    | some device => exact inv_step_deactivate_some hi hc m
  | reply k success =>
    by_cases hk : h.Stopping k
    · exact inv_step_reply hi hk (ho hk) m
    · have hother : ∀ connection, h.controller.calls k ≠ some (.deactivateConnection connection) :=
        fun connection hc => hk ⟨connection, hc⟩
      have hreports : h.reports (.reply k success) = false := by
        unfold reports
        dsimp only
        split
        · rename_i connection hc
          exact absurd hc (hother connection)
        · rfl
      refine inv_step_quiet hi ?_ rfl rfl rfl rfl rfl hreports m
      exact State.quiet_reply hother
  | deviceAdded device name driver baseline now =>
    exact inv_step_quiet hi (State.quiet_deviceAdded ..) rfl rfl rfl rfl rfl rfl m
  | deviceRemoved path =>
    by_cases hr : h.controller.Removes path
    · have ho := ho hr
      cases hd : h.deactivation h.carried with
      | none =>
        rw [hd] at ho
        exact inv_step_removed_none hi hr hd ho m
      | some k =>
        rw [hd] at ho
        exact inv_step_removed_some hi hr hd ho.1 ho.2 m
    · refine inv_step_quiet hi ?_ rfl rfl (by simp [nextRemoved, hr]) rfl rfl
        (by simp [reports, hr]) m
      simpa [State.step, State.deviceRemoved, hr] using State.quiet_refl h.controller
  | propertyChanged activeConnection uuid =>
    exact inv_step_quiet hi ⟨rfl, by simp [State.step], by simp [State.step, State.propertyChanged]⟩
      rfl rfl rfl rfl rfl rfl m
  | stateChanged state baseline now =>
    refine inv_step_quiet hi ?_ rfl rfl rfl rfl rfl rfl m
    exact State.quiet_deviceStateChanged (s := { h.controller with device := _ }) state baseline now
  | handshakePoll now =>
    refine inv_step_quiet hi ?_ rfl rfl rfl rfl rfl rfl m
    simp only [State.step]
    split
    · exact State.quiet_checkHandshakeTraffic now
    · exact State.quiet_refl _

theorem Inv.endsOnce (hi : Inv h) : EndsOnce h.log := ⟨hi.counted.once, hi.ordered.never⟩

/-! ## Runs -/

theorem endsOnce_append {log more : List Entry} (h : EndsOnce (log ++ more)) : EndsOnce log := by
  have hsub := List.sublist_append_left log more
  exact ⟨fun k => (hsub.countP_le).trans (h.1 k),
    fun m m' k n cause hlate => h.2 m m' k n cause (hlate.trans hsub)⟩

/-- A `disconnected` of a session from before a report that another session followed. -/
theorem not_endsOnce_late (hi : Inv h) {m : ℕ} (hm : m < h.closed) (cause : Option ℕ) :
    ¬ EndsOnce (h.log ++ [.signal .disconnected m cause]) := by
  obtain ⟨m', k, n, hsub⟩ := (hi.ordered.closed_iff m).mpr hm
  exact fun hends => hends.2 m m' k n cause (Ordered.quad_concat.mpr (.inr ⟨rfl, hsub⟩))

theorem not_endsOnce_again {k : ℕ} (hk : h.log.countP (Entry.ends k) = 1) (m : ℕ) :
    ¬ EndsOnce (h.log ++ [ended m k]) := by
  intro hends
  have hle := hends.1 k
  rw [countP_concat_ended, if_pos rfl] at hle
  omega

theorem not_endsOnce_step (e : Event × ℕ) (hi : Inv h) (ho : ¬ h.Once e.1) :
    ¬ EndsOnce (h.step T e).log := by
  obtain ⟨e, m⟩ := e
  cases e with
  | reply k success =>
    simp only [Once, Unreported, Classical.not_imp, not_and_or, not_le, not_not] at ho
    obtain ⟨⟨connection, hcall⟩, hk⟩ := ho
    have hlog : (h.step T (.reply k success, m)).log = h.log ++ [ended (h.called k) k] := by
      simp [step, State.step, State.reply, hcall, requested, cause, owner, nextCalled, ended]
    rw [hlog]
    rcases hk with hremoved | hclosed
    · exact not_endsOnce_again (hi.counted.of_removed k hremoved) _
    · exact not_endsOnce_late hi hclosed _
  | deviceRemoved path =>
    simp only [Once, Classical.not_imp] at ho
    obtain ⟨hr, ho⟩ := ho
    cases hd : h.deactivation h.carried with
    | none =>
      have hlog : (h.step T (.deviceRemoved path, m)).log =
          h.log ++ [.signal .disconnected h.carried none] := by
        simp [step, State.step, State.deviceRemoved, hr, requested, cause, hd, owner]
      rw [hd] at ho
      rw [hlog]
      exact not_endsOnce_late hi (Nat.lt_of_not_le ho) none
    | some k =>
      have hlog : (h.step T (.deviceRemoved path, m)).log = h.log ++ [ended (h.called k) k] := by
        simp [step, State.step, State.deviceRemoved, hr, requested, cause, hd, owner, nextCalled,
          ended]
      rw [hd] at ho
      simp only [Unreported, not_and_or, not_le, not_not] at ho
      rw [hlog]
      rcases ho with hreplied | hremoved | hclosed
      · exact not_endsOnce_again ((hi.counted.of_deactivation _ k hd).2 hreplied) _
      · exact not_endsOnce_again (hi.counted.of_removed k hremoved) _
      · exact not_endsOnce_late hi hclosed _
  | _ => exact absurd trivial ho

end History

/-- The history of a controller that has just been initialised. -/
def History.start (uuid : List Char) (device : Option NetmgrDevice) : History :=
  { controller := .initCompleted uuid device }

theorem History.inv_start (uuid : List Char) (device : Option NetmgrDevice) :
    Inv (start uuid device) := by
  refine inv_of .start .start rfl rfl rfl rfl rfl ?_ rfl rfl
  simp [Stopping, start, State.initCompleted]

/-- **One end for each deactivation.** Over every run, from any device that was there before, the
deactivations are reported once, and no `disconnected` of an earlier session comes after another one
has followed a report, exactly when NetworkManager delivers the end of each session once and in
time. -/
theorem endsOnce_iff (T : HostAddressText) (uuid : List Char) (device : Option NetmgrDevice)
    (events : List (Event × ℕ)) :
    EndsOnce (events.foldl (History.step T) (.start uuid device)).log ↔
      Guarded (History.step T) (fun h e => h.Once e.1) (.start uuid device) events := by
  refine guarded_iff (P := fun h => EndsOnce h.log) (fun h e => History.inv_step e)
    (fun h => History.Inv.endsOnce) (fun h e => History.not_endsOnce_step e) (fun h e hstep => ?_)
    (History.inv_start uuid device) events
  rw [History.step, List.append_assoc] at hstep
  exact History.endsOnce_append hstep

/-! ## A deactivation that ends twice -/

/-- The tables of Qt's conversions for the address that the route check probes. -/
def probeText : HostAddressText := .ofTable [("1.1.1.1".toList, .ipv4 0x01010101#32)] []

def profile : InterfaceConfig := { hopType := .singleHop, serverPublicKey := .text "key".toList }

def tunnel : NetmgrDevice :=
  { path := "/Devices/5".toList, state := .prepare
    activeConnection := "/ActiveConnection/7".toList, uuid := "uuid".toList }

/-- A session that connects and is deactivated. NetworkManager answers, the client activates the
next session, and only then does the device of the first one go away. -/
def lateRemoval : List (Event × ℕ) :=
  [.activate profile, .reply 0 true, .reply 0 true,
   .deviceAdded tunnel "wg0".toList "wireguard".toList 0 ⟨0, none⟩,
   .stateChanged .activated 92 ⟨92, none⟩, .handshakePoll ⟨184, none⟩,
   .deactivate, .stateChanged .deactivating 0 ⟨184, none⟩, .reply 1 true,
   .activate profile, .deviceRemoved tunnel.path].map (·, 1)

theorem lateRemoval_log :
    (lateRemoval.foldl (History.step probeText) (.start tunnel.uuid none)).log =
      [.session 0, .session 1, .signal (.connected (.text "key".toList)) 1 none, .deactivate 1,
       ended 1 1, .session 2, ended 1 1] := by
  decide +kernel

/-- The second report of the first session comes after the activation of the next one. -/
theorem not_endsOnce_lateRemoval :
    ¬ EndsOnce (lateRemoval.foldl (History.step probeText) (.start tunnel.uuid none)).log := by
  rw [lateRemoval_log]
  rintro ⟨-, hnever⟩
  exact hnever 1 1 1 2 (some 1) (by decide)

/-- So does the first one when the client gives up before the device of its session appears. -/
def lateDevice : List (Event × ℕ) :=
  [.activate profile, .reply 0 true, .reply 0 true, .deactivate, .activate profile,
   .deviceAdded tunnel "wg0".toList "wireguard".toList 0 ⟨0, none⟩,
   .deviceRemoved tunnel.path].map (·, 1)

example : (lateDevice.foldl (History.step probeText) (.start tunnel.uuid none)).log =
    [.session 0, .session 1, .deactivate 1, ended 1 1, .session 2, ended 1 1] := by
  decide +kernel

end WgDesktop.NetmgrController
