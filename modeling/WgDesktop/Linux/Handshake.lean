import WgDesktop.Linux.NetmgrController

/-!
# Waiting for the handshake

After `activate` the controller waits for the device to come up and to receive traffic, and polls
its counter until it does. The flag that it waits is one for all sessions, so a signal of the device
that the previous session leaves behind can clear it under the next one, and nothing polls then.
`progress_iff` names exactly the runs in which no activation is dropped.
-/

namespace WgDesktop.NetmgrController

open Runs

/-! ## Activations that wait -/

/-- The current device carries the connection and is activated. -/
def State.Activated (s : State) : Prop :=
  ∃ device, s.device = some device ∧ device.uuid = s.uuid ∧ device.state = .activated

/-- The controller with what the client waits for. An activation is pending from `activate` until
`connected` or the next request; it is dropped when the device was reported to go down since. -/
structure Session where
  controller : State
  pending : Bool := false
  dropped : Bool := false

/-- The states that `deviceStateChanged` takes for the end of a session. -/
def DeviceState.down (state : DeviceState) : Bool := state = .deactivating || state = .failed

def Signal.isConnected : Signal → Bool
  | .connected _ => true
  | _ => false

namespace Session

/-- The device of a signal is a tunnel, and not some other device. -/
def tunnels (name driver : List Char) : Bool :=
  name = wgInterfaceName && driver = "wireguard".toList

/-- The event reports that the device of the connection goes down. -/
def drops (s : State) : Event → Bool
  | .stateChanged state _ _ => s.carrier.isSome && state.down
  | .deviceAdded device name driver _ _ =>
    tunnels name driver && device.uuid = s.uuid && device.state.down
  | .deviceRemoved path => s.Removes path
  | _ => false

def step (T : HostAddressText) (h : Session) (e : Event) : Session :=
  let r := h.controller.step T e
  match e with
  | .activate _ => ⟨r.1, true, false⟩
  | .deactivate => ⟨r.1, false, h.dropped⟩
  | _ => ⟨r.1, h.pending && !r.2.any Signal.isConnected, h.dropped || drops h.controller e⟩

/-- An activation whose device is up is waited for. -/
def Progress (h : Session) : Prop :=
  h.pending = true → h.controller.Activated →
    h.controller.waitingForHandshakeTraffic = true ∧ h.controller.handshakePollTimer = true

/-- What keeps an activation from being dropped. The client does not activate while the device is up
and nothing polls. The device does not come up for a pending activation that it was reported to go
down under, and it carries the connection when it comes up. -/
def Kept (h : Session) : Event → Prop
  | .activate _ => h.controller.Activated → h.controller.handshakePollTimer = true
  | .stateChanged state _ _ =>
    state = .activated → h.pending = true → h.controller.carrier.isSome → h.dropped = false
  | .deviceAdded device name driver _ _ => tunnels name driver →
    device.uuid = h.controller.uuid → device.state = .activated → h.pending = true →
      h.dropped = false
  | .propertyChanged _ uuid => uuid = h.controller.uuid → h.pending = true →
    ∀ device, h.controller.device = some device → device.state = .activated →
      device.uuid = h.controller.uuid ∨
        h.dropped = false ∧ h.controller.handshakePollTimer = true
  | _ => True

/-- Along every run, an activation that was not dropped is waited for; the rest is `Progress`. -/
structure Inv (h : Session) : Prop where
  waiting : h.pending = true → h.controller.waitingForHandshakeTraffic = !h.dropped
  progress : h.Progress

end Session

/-! ## Traffic checks and states of the device -/

namespace State

variable {T : HostAddressText} {s : State} {device : NetmgrDevice}

theorem checkHandshakeTraffic_cases (now : Reading) : s.checkHandshakeTraffic T now = (s, []) ∨
    (s.waitingForHandshakeTraffic = true ∧ s.checkHandshakeTraffic T now =
      ({ s with handshakePollTimer := false, waitingForHandshakeTraffic := false },
        [.connected s.serverPublicKey])) := by
  unfold checkHandshakeTraffic
  split
  · exact .inl rfl
  · split_ifs with hskip htraffic hroute
    · exact .inl rfl
    · exact .inl rfl
    · exact .inl rfl
    · refine .inr ⟨?_, rfl⟩
      simp only [Bool.or_eq_true, Bool.not_eq_true', not_or, Bool.not_eq_false] at hskip
      exact hskip.1.1

theorem reply_frame (s : State) (request : ℕ) (success : Bool) :
    (s.reply request success).1 = { s with calls := (s.reply request success).1.calls } ∧
      (s.reply request success).2.any Signal.isConnected = false := by
  unfold reply
  split
  · exact ⟨rfl, rfl⟩
  · split <;> exact ⟨rfl, rfl⟩
  · refine ⟨rfl, ?_⟩
    split <;> rfl
  · exact ⟨rfl, rfl⟩

theorem deviceStateChanged_of_ne {state : DeviceState} {baseline : ℕ} {now : Reading}
    (hd : s.device = some device) (hu : device.uuid ≠ s.uuid) :
    s.deviceStateChanged T state baseline now = (s, []) := by
  simp [deviceStateChanged, hd, hu]

/-- A carrier that comes up is waited for, unless the wait is over or the traffic is there. -/
theorem deviceStateChanged_activated (baseline : ℕ) (now : Reading) (hd : s.device = some device)
    (hu : device.uuid = s.uuid) :
    let r := s.deviceStateChanged T .activated baseline now
    r.1.device = s.device ∧ r.1.uuid = s.uuid ∧
      (s.waitingForHandshakeTraffic = false →
        r.2 = [] ∧ r.1.waitingForHandshakeTraffic = false) ∧
      (s.waitingForHandshakeTraffic = true → r.2.any Signal.isConnected = true ∨
        r.1.waitingForHandshakeTraffic = true ∧ r.1.handshakePollTimer = true ∧ r.2 = []) := by
  have hr : s.deviceStateChanged T .activated baseline now =
      let r := checkHandshakeTraffic T now { s with activationRxBytes := baseline }
      (r.1.startPolling, r.2) := by
    simp [deviceStateChanged, hd, hu]
  rw [hr]
  rcases checkHandshakeTraffic_cases (T := T) (s := { s with activationRxBytes := baseline }) now
    with hc | ⟨hw, hc⟩
  · rw [hc]
    cases hw : s.waitingForHandshakeTraffic <;> simp [startPolling]
  · rw [hc]
    have hw' : s.waitingForHandshakeTraffic = true := hw
    simp [startPolling, hw', Signal.isConnected]

theorem deviceStateChanged_of_ne_activated {state : DeviceState} (baseline : ℕ) (now : Reading)
    (hd : s.device = some device) (hu : device.uuid = s.uuid) (hs : state ≠ .activated) :
    let r := s.deviceStateChanged T state baseline now
    r.1.device = s.device ∧ r.1.uuid = s.uuid ∧ r.2 = [] ∧
      r.1.waitingForHandshakeTraffic = (s.waitingForHandshakeTraffic && !state.down) := by
  have hdown : state.down = true ↔ state = .deactivating ∨ state = .failed := by
    simp [DeviceState.down]
  by_cases h : state = .deactivating ∨ state = .failed
  · simp [deviceStateChanged, hd, hu, hs, h, hdown.mpr h]
  · simp [deviceStateChanged, hd, hu, hs, h, (Bool.not_eq_true _).mp (mt hdown.mp h)]

end State

namespace Session

variable {T : HostAddressText} {s : State} {device : NetmgrDevice} {pending dropped : Bool}

/-- The session after the current device was reported to be in its state. -/
def reported (T : HostAddressText) (s : State) (device : NetmgrDevice) (pending dropped : Bool)
    (baseline : ℕ) (now : Reading) : Session :=
  let r := s.deviceStateChanged T device.state baseline now
  ⟨r.1, pending && !r.2.any Signal.isConnected,
    dropped || (device.uuid = s.uuid && device.state.down)⟩

theorem inv_reported (hd : s.device = some device) (baseline : ℕ) (now : Reading)
    (hw : pending = true → s.waitingForHandshakeTraffic = !dropped)
    (hk : device.state = .activated → pending = true → device.uuid = s.uuid → dropped = false) :
    Inv (reported T s device pending dropped baseline now) := by
  unfold reported
  by_cases hu : device.uuid = s.uuid
  · by_cases hs : device.state = .activated
    · obtain ⟨hdev, huuid, -, hyes⟩ :=
        State.deviceStateChanged_activated (T := T) baseline now hd hu
      rw [hs]
      constructor
      · intro hp
        simp only [Bool.and_eq_true, Bool.not_eq_true'] at hp
        have hnd := hk hs hp.1 hu
        rcases hyes (by rw [hw hp.1, hnd]; rfl) with hc | ⟨hwait, -, -⟩
        · rw [hc] at hp
          exact absurd hp.2 (by simp)
        · simp [hwait, hnd, DeviceState.down]
      · intro hp _
        simp only [Bool.and_eq_true, Bool.not_eq_true'] at hp
        have hnd := hk hs hp.1 hu
        rcases hyes (by rw [hw hp.1, hnd]; rfl) with hc | ⟨hwait, htimer, -⟩
        · rw [hc] at hp
          exact absurd hp.2 (by simp)
        · exact ⟨hwait, htimer⟩
    · obtain ⟨hdev, huuid, hsig, hwait⟩ := State.deviceStateChanged_of_ne_activated (T := T)
        baseline now hd hu hs
      constructor
      · intro hp
        simp only [hsig, List.any_nil, Bool.not_false, Bool.and_true] at hp
        simp only [hwait, hw hp, hu]
        cases dropped <;> cases device.state.down <;> rfl
      · rintro - ⟨device', hdev', -, hact⟩
        rw [hdev, hd] at hdev'
        obtain rfl := Option.some.inj hdev'
        exact absurd hact hs
  · rw [State.deviceStateChanged_of_ne hd hu]
    constructor
    · intro hp
      simp only [List.any_nil, Bool.not_false, Bool.and_true] at hp
      simp [hw hp, hu]
    · rintro - ⟨device', hdev', hu', -⟩
      rw [hd] at hdev'
      obtain rfl := Option.some.inj hdev'
      exact absurd hu' hu

theorem not_progress_reported (hd : s.device = some device) (baseline : ℕ) (now : Reading)
    (hw : pending = true → s.waitingForHandshakeTraffic = !dropped) (hp : pending = true)
    (hs : device.state = .activated) (hu : device.uuid = s.uuid) (hdrop : dropped = true) :
    ¬ Progress (reported T s device pending dropped baseline now) := by
  obtain ⟨hdev, huuid, hno, -⟩ :=
    State.deviceStateChanged_activated (T := T) baseline now hd hu
  obtain ⟨hsig, hwait⟩ := hno (by rw [hw hp, hdrop]; rfl)
  intro hprogress
  unfold reported at hprogress
  rw [hs] at hprogress
  have hcontra := hprogress (by simp [hp, hsig]) ⟨device, hdev.trans hd, hu.trans huuid.symm, hs⟩
  simp only [hwait] at hcontra
  exact absurd hcontra.1 (by simp)

/-! ## Steps -/

variable {h : Session}

theorem isSome_carrier (hd : s.device = some device) :
    s.carrier.isSome = decide (device.uuid = s.uuid) := by
  by_cases hu : device.uuid = s.uuid <;> simp [State.carrier, hd, hu]

/-- A state change of the current device is a report of the device in its new state. -/
theorem step_stateChanged (hd : h.controller.device = some device) (state : DeviceState)
    (baseline : ℕ) (now : Reading) :
    h.step T (.stateChanged state baseline now) =
      reported T { h.controller with device := some { device with state := state } }
        { device with state := state } h.pending h.dropped baseline now := by
  simp [step, State.step, State.dbusStateChanged, hd, reported, drops, isSome_carrier hd]

theorem step_stateChanged_none (hd : h.controller.device = none) (state : DeviceState)
    (baseline : ℕ) (now : Reading) : h.step T (.stateChanged state baseline now) = h := by
  have hsame : { h.controller with device := none } = h.controller := by rw [← hd]
  simp [step, State.step, State.dbusStateChanged, State.deviceStateChanged, drops, State.carrier,
    hd, hsame]

theorem tunnels_iff {name driver : List Char} : tunnels name driver = true ↔
    name = wgInterfaceName ∧ driver = "wireguard".toList := by
  unfold tunnels
  rw [Bool.and_eq_true, decide_eq_true_eq, decide_eq_true_eq]

theorem step_deviceAdded {name driver : List Char} (ht : tunnels name driver = true)
    (device : NetmgrDevice) (baseline : ℕ) (now : Reading) :
    h.step T (.deviceAdded device name driver baseline now) =
      reported T { h.controller with device := some device } device h.pending h.dropped baseline
        now := by
  obtain ⟨hname, hdriver⟩ := tunnels_iff.mp ht
  have hr : h.controller.deviceAdded T device name driver baseline now =
      { h.controller with device := some device }.deviceStateChanged T device.state baseline
        now := by
    unfold State.deviceAdded
    rw [if_neg (not_not.mpr hname), if_neg (not_not.mpr hdriver)]
  simp only [step, State.step, hr, reported, drops, ht, Bool.true_and]

theorem deviceAdded_of_not_tunnels {name driver : List Char} (ht : tunnels name driver = false)
    (s : State) (device : NetmgrDevice) (baseline : ℕ) (now : Reading) :
    s.deviceAdded T device name driver baseline now = (s, []) := by
  unfold State.deviceAdded
  by_cases hname : name = wgInterfaceName
  · have hdriver : driver ≠ "wireguard".toList := by
      intro hdriver
      rw [tunnels_iff.mpr ⟨hname, hdriver⟩] at ht
      cases ht
    rw [if_neg (not_not.mpr hname), if_pos hdriver]
  · rw [if_pos hname]

theorem step_deviceAdded_other {name driver : List Char} (ht : tunnels name driver = false)
    (device : NetmgrDevice) (baseline : ℕ) (now : Reading) :
    h.step T (.deviceAdded device name driver baseline now) = h := by
  simp only [step, State.step, deviceAdded_of_not_tunnels ht, drops, ht, Bool.false_and,
    Bool.or_false, List.any_nil, Bool.not_false, Bool.and_true]

/-- The invariant reads only the device and the two marks of the wait. -/
theorem Inv.congr {h' : Session} (hi : Inv h) (hd : h'.controller.device = h.controller.device)
    (hu : h'.controller.uuid = h.controller.uuid)
    (hw : h'.controller.waitingForHandshakeTraffic = h.controller.waitingForHandshakeTraffic)
    (ht : h'.controller.handshakePollTimer = h.controller.handshakePollTimer)
    (hp : h'.pending = h.pending) (hdrop : h'.dropped = h.dropped) : Inv h' := by
  constructor
  · rw [hp, hw, hdrop]
    exact hi.waiting
  · unfold Progress State.Activated
    rw [hp, hd, hu, hw, ht]
    exact hi.progress

theorem inv_step_reply (hi : Inv h) (request : ℕ) (success : Bool) :
    Inv (h.step T (.reply request success)) := by
  obtain ⟨hstate, hsignals⟩ := h.controller.reply_frame request success
  have hcontroller : (h.step T (.reply request success)).controller =
      { h.controller with calls := (h.controller.reply request success).1.calls } := hstate
  refine hi.congr ?_ ?_ ?_ ?_ ?_ ?_
  · rw [hcontroller]
  · rw [hcontroller]
  · rw [hcontroller]
  · rw [hcontroller]
  · simp [step, State.step, hsignals]
  · simp [step, drops]

theorem inv_step_deviceRemoved (hi : Inv h) (path : List Char) :
    Inv (h.step T (.deviceRemoved path)) := by
  by_cases hr : h.controller.Removes path
  · constructor
    · intro _
      simp [step, State.step, State.deviceRemoved, drops, hr]
    · rintro - ⟨device, hd, -⟩
      simp [step, State.step, State.deviceRemoved, hr] at hd
  · have hsame : h.step T (.deviceRemoved path) = h := by
      simp [step, State.step, State.deviceRemoved, drops, hr]
    rw [hsame]
    exact hi

theorem inv_step_propertyChanged (hi : Inv h) {activeConnection uuid : List Char}
    (hk : h.Kept (.propertyChanged activeConnection uuid)) :
    Inv (h.step T (.propertyChanged activeConnection uuid)) := by
  have hp' : (h.step T (.propertyChanged activeConnection uuid)).pending = h.pending := by
    simp [step, State.step]
  have hdrop' : (h.step T (.propertyChanged activeConnection uuid)).dropped = h.dropped := by
    simp [step, drops]
  constructor
  · rw [hp', hdrop']
    exact hi.waiting
  · rw [Progress, hp']
    rintro hp ⟨device', hd', hu', hs'⟩
    obtain ⟨device, hd, rfl⟩ : ∃ device, h.controller.device = some device ∧
        { device with activeConnection := activeConnection, uuid := uuid } = device' := by
      simpa [step, State.step, State.propertyChanged] using hd'
    rcases hk hu' hp device hd hs' with hu | ⟨hdrop, ht⟩
    · exact hi.progress hp ⟨device, hd, hu, hs'⟩
    · refine ⟨?_, ht⟩
      have hsame : (h.step T
          (.propertyChanged activeConnection uuid)).controller.waitingForHandshakeTraffic =
            h.controller.waitingForHandshakeTraffic := rfl
      rw [hsame, hi.waiting hp, hdrop]
      rfl

theorem inv_step_handshakePoll (hi : Inv h) (now : Reading) :
    Inv (h.step T (.handshakePoll now)) := by
  have hsame : h.controller.step T (.handshakePoll now) = (h.controller, []) →
      h.step T (.handshakePoll now) = h := by
    intro hr
    simp [step, hr, drops]
  cases ht : h.controller.handshakePollTimer with
  | false =>
    rw [hsame (by simp [State.step, ht])]
    exact hi
  | true =>
    rcases State.checkHandshakeTraffic_cases (T := T) (s := h.controller) now with hc | ⟨-, hc⟩
    · rw [hsame (by simp [State.step, ht, hc])]
      exact hi
    · have hp : (h.step T (.handshakePoll now)).pending = false := by
        simp [step, State.step, ht, hc, Signal.isConnected]
      exact ⟨fun hp' => absurd hp' (by simp [hp]), fun hp' => absurd hp' (by simp [hp])⟩

/-- **Every step** of a kept activation keeps the invariant. -/
theorem inv_step (e : Event) (hi : Inv h) (hk : h.Kept e) : Inv (h.step T e) := by
  cases e with
  | activate config =>
    refine ⟨fun _ => rfl, fun _ hact => ⟨rfl, ?_⟩⟩
    exact hk hact
  | deactivate => exact ⟨fun hp => absurd hp (by simp [step]), fun hp => absurd hp (by simp [step])⟩
  | reply request success => exact inv_step_reply hi request success
  | deviceAdded device name driver baseline now =>
    cases ht : tunnels name driver with
    | false =>
      rw [step_deviceAdded_other ht]
      exact hi
    | true =>
      rw [step_deviceAdded ht]
      exact inv_reported rfl baseline now hi.waiting fun hs hp hu => hk ht hu hs hp
  | deviceRemoved path => exact inv_step_deviceRemoved hi path
  | propertyChanged activeConnection uuid => exact inv_step_propertyChanged hi hk
  | stateChanged state baseline now =>
    cases hd : h.controller.device with
    | none =>
      rw [step_stateChanged_none hd]
      exact hi
    | some device =>
      rw [step_stateChanged hd]
      refine inv_reported rfl baseline now hi.waiting fun hs hp hu => hk hs hp ?_
      rw [isSome_carrier hd]
      exact decide_eq_true hu
  | handshakePoll now => exact inv_step_handshakePoll hi now

/-- A step that does not keep a pending activation ends in a state that drops it. -/
theorem not_progress_step (e : Event) (hi : Inv h) (hk : ¬ h.Kept e) : ¬ Progress (h.step T e) := by
  cases e with
  | activate config =>
    simp only [Kept, Classical.not_imp, Bool.not_eq_true] at hk
    intro hprogress
    have htimer := (hprogress rfl hk.1).2
    rw [show (h.step T (.activate config)).controller.handshakePollTimer =
      h.controller.handshakePollTimer from rfl, hk.2] at htimer
    cases htimer
  | deviceAdded device name driver baseline now =>
    simp only [Kept, Classical.not_imp, Bool.not_eq_false] at hk
    obtain ⟨ht, hu, hs, hp, hdrop⟩ := hk
    rw [step_deviceAdded ht]
    exact not_progress_reported rfl baseline now hi.waiting hp hs hu hdrop
  | stateChanged state baseline now =>
    simp only [Kept, Classical.not_imp, Bool.not_eq_false] at hk
    obtain ⟨hs, hp, hcarrier, hdrop⟩ := hk
    cases hd : h.controller.device with
    | none => simp [State.carrier, hd] at hcarrier
    | some device =>
      rw [isSome_carrier hd, decide_eq_true_eq] at hcarrier
      rw [step_stateChanged hd]
      exact not_progress_reported rfl baseline now hi.waiting hp hs hcarrier hdrop
  | propertyChanged activeConnection uuid =>
    simp only [Kept, Classical.not_imp, not_forall, not_or, not_and] at hk
    obtain ⟨hu, hp, device, hd, hs, hu', hkept⟩ := hk
    intro hprogress
    have hwait := hprogress (by simp [step, State.step, hp])
      ⟨{ device with activeConnection := activeConnection, uuid := uuid },
        by simp [step, State.step, State.propertyChanged, hd], hu, hs⟩
    have hdrop : h.dropped = false := by
      have := hi.waiting hp
      rw [show h.controller.waitingForHandshakeTraffic = true from hwait.1] at this
      simpa using this.symm
    exact hkept hdrop hwait.2
  | _ => exact absurd trivial hk

end Session

/-! ## Runs -/

/-- The session of a controller that has just been initialised. -/
def Session.start (uuid : List Char) (device : Option NetmgrDevice) : Session :=
  { controller := .initCompleted uuid device }

theorem Session.inv_start (uuid : List Char) (device : Option NetmgrDevice) :
    (Session.start uuid device).Inv :=
  ⟨fun hp => absurd hp (by simp [start]), fun hp => absurd hp (by simp [start])⟩

/-- **No activation is dropped.** Over every run, from any device that was there before, every state
waits for a pending activation whose device is up exactly when every step keeps the activation. -/
theorem progress_iff (T : HostAddressText) (uuid : List Char) (device : Option NetmgrDevice)
    (events : List Event) :
    (∀ n, ((events.take n).foldl (Session.step T) (.start uuid device)).Progress) ↔
      Guarded (Session.step T) Session.Kept (.start uuid device) events :=
  forall_take_iff_guarded (P := Session.Progress)
    (fun _ e (hi : Session.Inv _) hk => Session.inv_step e hi hk) (fun _ hi => hi.progress)
    (fun _ e hi hk => Session.not_progress_step e hi hk) (Session.inv_start uuid device) events

/-- A session is cancelled while its device is still coming up, and the client activates again. The
device then reports that it went down for the first session, and comes up for the second one. -/
def repeatedActivation : List Event :=
  [.activate profile, .reply 0 true, .reply 0 true,
   .deviceAdded tunnel wgInterfaceName "wireguard".toList 0 ⟨0, none⟩,
   .deactivate, .reply 1 true, .activate profile, .reply 2 true,
   .stateChanged .deactivating 0 ⟨0, none⟩, .reply 2 true,
   .stateChanged .prepare 0 ⟨0, none⟩, .stateChanged .activated 0 ⟨0, none⟩]

/-- The second activation is dropped: its device is up, and nothing waits for traffic. -/
theorem not_progress_repeatedActivation : ¬ ∀ n, ((repeatedActivation.take n).foldl
    (Session.step probeText) (.start tunnel.uuid none)).Progress := by
  intro h
  have hlast := h 12
  have hrun : ((repeatedActivation.take 12).foldl (Session.step probeText)
      (.start tunnel.uuid none)).controller.waitingForHandshakeTraffic = false := by
    decide +kernel
  have hcontra := hlast (by decide +kernel)
    ⟨{ tunnel with state := .activated }, by decide +kernel, by decide +kernel, rfl⟩
  rw [hrun] at hcontra
  exact absurd hcontra.1 (by simp)

end WgDesktop.NetmgrController
