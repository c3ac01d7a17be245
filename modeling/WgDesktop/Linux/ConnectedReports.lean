import WgDesktop.Linux.Handshake

/-!
# What `connected` says

`NetmgrController` tells the client that the tunnel is up when the device has received something
since it came up. The number of bytes it came up with is kept in `m_activationRxBytes`, which
`activate` sets to zero, and the timer that polls the counter belongs to no activation: one that an
earlier activation has started goes on polling for the next. `truthful_iff` names exactly the runs
in which every `connected` says what it should.
-/

namespace WgDesktop.NetmgrController

open NetmgrUtils Runs

/-! ## What was reported -/

/-- A `connected` signal: the key it carries, the bytes that the device had received when it came
up, if it did, and what the check that it comes from has read. -/
structure Report where
  key : QString
  entry : Option ℕ
  now : Option Reading

/-- What the handler of an event reads for a traffic check. -/
def Event.reading : Event → Option Reading
  | .deviceAdded _ _ _ _ now | .stateChanged _ _ now | .handshakePoll now => some now
  | _ => none

def Signal.report (entry : Option ℕ) (now : Option Reading) : Signal → Option Report
  | .connected pubkey => some ⟨pubkey, entry, now⟩
  | _ => none

/-- The controller with the latest `activate`, the bytes that the device had received when it last
came up since for the connection, and the `connected` signals since. -/
structure Watch where
  controller : State
  latest : Option InterfaceConfig := none
  entry : Option ℕ := none
  reports : List Report := []

/-- The default route of the tunnel is ready, if the connection takes it. -/
def routeReady (T : HostAddressText) (config : InterfaceConfig) (routeTable : Option (List Char)) :
    Bool :=
  !hasIpv4DefaultRoute (config.allowedIPAddressRanges.map (IPAddress.toString T)) ||
    routeTable.any fun contents =>
      !mainRouteBlocksInterface T contents "1.1.1.1".toList wgInterfaceName

namespace Watch

/-- The latest `activate` was reported at most once, with its key, and after the device had come up
for it and received something since. -/
structure Truthful (T : HostAddressText) (h : Watch) : Prop where
  once : h.reports.length ≤ 1
  grounded : ∀ r ∈ h.reports, ∃ config now baseline, h.latest = some config ∧
    r.key = config.serverPublicKey ∧ r.now = some now ∧ r.entry = some baseline ∧
      baseline < now.rxBytes ∧ routeReady T config now.routeTable = true

def nextLatest (h : Watch) : Event → Option InterfaceConfig
  | .activate config => some config
  | _ => h.latest

/-- The device comes up for the connection when it is reported to be activated and carries it; a new
device has not come up before. -/
def nextEntry (h : Watch) : Event → Option ℕ
  | .activate _ => none
  | .stateChanged state baseline _ =>
    if state = .activated ∧ h.controller.carrier.isSome then some baseline else h.entry
  | .deviceAdded device name driver baseline _ =>
    if !Session.tunnels name driver then h.entry
    else if device.state = .activated ∧ device.uuid = h.controller.uuid then some baseline
    else none
  | .deviceRemoved path => if h.controller.Removes path then none else h.entry
  | _ => h.entry

def oldReports (h : Watch) : Event → List Report
  | .activate _ => []
  | _ => h.reports

def step (T : HostAddressText) (h : Watch) (e : Event) : Watch :=
  let r := h.controller.step T e
  { controller := r.1
    latest := h.nextLatest e
    entry := h.nextEntry e
    reports := h.oldReports e ++ r.2.filterMap (Signal.report (h.nextEntry e) e.reading) }

end Watch

/-! ## Traffic checks -/

namespace State

variable {T : HostAddressText} {s : State} {now : Reading}

/-- The wait is over, and nothing polls any more. -/
def stopWaiting (s : State) : State :=
  { s with handshakePollTimer := false, waitingForHandshakeTraffic := false }

/-- The check ends the wait: the device that carries the connection is up, it has received more than
the baseline says, and the route is ready. -/
structure Confirms (T : HostAddressText) (now : Reading) (s : State) : Prop where
  waiting : s.waitingForHandshakeTraffic = true
  activated : s.Activated
  traffic : s.activationRxBytes < now.rxBytes
  route : s.ipv4DefaultRouteReady T now.routeTable = true

theorem checkHandshakeTraffic_of_confirms (h : s.Confirms T now) :
    s.checkHandshakeTraffic T now = (s.stopWaiting, [.connected s.serverPublicKey]) := by
  obtain ⟨device, hd, hu, hs⟩ := h.activated
  simp [checkHandshakeTraffic, hd, hu, hs, h.waiting, hasNewHandshakeTraffic, h.traffic, h.route,
    stopWaiting]

theorem checkHandshakeTraffic_of_not_confirms (h : ¬ s.Confirms T now) :
    s.checkHandshakeTraffic T now = (s, []) := by
  unfold checkHandshakeTraffic
  split
  · rfl
  · rename_i device hd
    split_ifs with hskip htraffic hroute
    · rfl
    · rfl
    · rfl
    · simp only [Bool.or_eq_true, Bool.not_eq_true', decide_eq_true_eq, not_or,
        Bool.not_eq_false, ne_eq, not_not] at hskip
      obtain ⟨⟨hw, hu⟩, hs⟩ := hskip
      simp only [Bool.not_eq_true', Bool.not_eq_false, hasNewHandshakeTraffic,
        decide_eq_true_eq] at htraffic
      simp only [Bool.not_eq_true', Bool.not_eq_false] at hroute
      exact absurd ⟨hw, ⟨device, hd, hu, hs⟩, htraffic, hroute⟩ h

theorem startPolling_eq (s : State) :
    s.startPolling =
      { s with handshakePollTimer := s.waitingForHandshakeTraffic || s.handshakePollTimer } := by
  obtain ⟨_, _, _, waiting, _, _, _, _, _⟩ := s
  cases waiting <;> rfl

end State

namespace Watch

variable {T : HostAddressText} {h : Watch}

/-! ## The invariant -/

/-- While the controller waits, the latest activation is not reported yet, and the key and the
default route are its own. The baseline is what the device came up with, if it did. -/
structure Inv (T : HostAddressText) (h : Watch) : Prop where
  waiting : h.controller.waitingForHandshakeTraffic = true → h.reports = [] ∧
    ∃ config, h.latest = some config ∧
      h.controller.serverPublicKey = config.serverPublicKey ∧
      h.controller.requiresIpv4DefaultRoute =
        hasIpv4DefaultRoute (config.allowedIPAddressRanges.map (IPAddress.toString T))
  entry : ∀ baseline, h.entry = some baseline → h.controller.activationRxBytes = baseline
  truthful : h.Truthful T

theorem Inv.calm {h' : Watch} (hi : Inv T h)
    (hw : h'.controller.waitingForHandshakeTraffic = true →
      h.controller.waitingForHandshakeTraffic = true)
    (hkey : h'.controller.serverPublicKey = h.controller.serverPublicKey)
    (hroute : h'.controller.requiresIpv4DefaultRoute = h.controller.requiresIpv4DefaultRoute)
    (hlatest : h'.latest = h.latest) (hreports : h'.reports = h.reports)
    (hentry : ∀ baseline, h'.entry = some baseline →
      h'.controller.activationRxBytes = baseline) : Inv T h' where
  waiting hw' := by
    rw [hreports, hlatest, hkey, hroute]
    exact hi.waiting (hw hw')
  entry := hentry
  truthful := ⟨by rw [hreports]; exact hi.truthful.once,
    by rw [hreports, hlatest]; exact hi.truthful.grounded⟩

theorem ipv4DefaultRouteReady_eq {s : State} {config : InterfaceConfig}
    (hroute : s.requiresIpv4DefaultRoute =
      hasIpv4DefaultRoute (config.allowedIPAddressRanges.map (IPAddress.toString T)))
    (routeTable : Option (List Char)) :
    s.ipv4DefaultRouteReady T routeTable = routeReady T config routeTable := by
  unfold State.ipv4DefaultRouteReady routeReady
  rw [hroute]
  cases hasIpv4DefaultRoute (config.allowedIPAddressRanges.map (IPAddress.toString T)) <;>
    cases routeTable <;> rfl

/-- A check that ends the wait tells the truth when the device has come up with the baseline. -/
theorem inv_confirmed (hi : Inv T h) {s : State} {now : Reading} {baseline : ℕ}
    (hkey : s.serverPublicKey = h.controller.serverPublicKey)
    (hroute : s.requiresIpv4DefaultRoute = h.controller.requiresIpv4DefaultRoute)
    (hw : s.waitingForHandshakeTraffic = h.controller.waitingForHandshakeTraffic)
    (hc : s.Confirms T now) (hb : s.activationRxBytes = baseline) :
    Inv T
      { controller := s.stopWaiting
        latest := h.latest
        entry := some baseline
        reports := h.reports ++ [⟨s.serverPublicKey, some baseline, some now⟩] } := by
  obtain ⟨hnone, config, hlatest, hkey', hroute'⟩ := hi.waiting (hw ▸ hc.waiting)
  refine ⟨(by simp [State.stopWaiting]), ?_, ⟨?_, ?_⟩⟩
  · rintro _ ⟨⟩
    exact hb
  · simp [hnone]
  · intro r hr
    obtain rfl : r = ⟨s.serverPublicKey, some baseline, some now⟩ := by simpa [hnone] using hr
    refine ⟨config, now, baseline, hlatest, hkey.trans hkey', rfl, rfl, hb ▸ hc.traffic, ?_⟩
    rw [← ipv4DefaultRouteReady_eq (hroute.trans hroute')]
    exact hc.route

/-! ## Reports of the device -/

/-- The watch after the current device was reported to be in its state. -/
def reported (T : HostAddressText) (h : Watch) (s : State) (device : NetmgrDevice)
    (old : Option ℕ) (baseline : ℕ) (now : Reading) : Watch :=
  let r := s.deviceStateChanged T device.state baseline now
  let entry := if device.state = .activated ∧ device.uuid = s.uuid then some baseline else old
  { controller := r.1
    latest := h.latest
    entry := entry
    reports := h.reports ++ r.2.filterMap (Signal.report entry (some now)) }

theorem inv_reported (hi : Inv T h) {s : State} {device : NetmgrDevice} {old : Option ℕ}
    (hs : s = { h.controller with device := some device })
    (hold : ∀ b, old = some b → h.entry = some b) (baseline : ℕ) (now : Reading) :
    Inv T (reported T h s device old baseline now) := by
  have hd : s.device = some device := by rw [hs]
  have hentry (b : ℕ) (hb : old = some b) : s.activationRxBytes = b := by
    rw [hs]
    exact hi.entry b (hold b hb)
  have hw : s.waitingForHandshakeTraffic = h.controller.waitingForHandshakeTraffic := by rw [hs]
  have hkey : s.serverPublicKey = h.controller.serverPublicKey := by rw [hs]
  have hroute : s.requiresIpv4DefaultRoute = h.controller.requiresIpv4DefaultRoute := by rw [hs]
  unfold reported
  by_cases hu : device.uuid = s.uuid
  · by_cases hact : device.state = .activated
    · have hr : s.deviceStateChanged T .activated baseline now =
          let r := State.checkHandshakeTraffic T now { s with activationRxBytes := baseline }
          (r.1.startPolling, r.2) := by
        simp [State.deviceStateChanged, hd, hu]
      simp only [hact, hu, hr, and_self, if_true]
      by_cases hc : State.Confirms T now { s with activationRxBytes := baseline }
      · rw [State.checkHandshakeTraffic_of_confirms hc]
        exact inv_confirmed hi hkey hroute hw hc rfl
      · rw [State.checkHandshakeTraffic_of_not_confirms hc]
        simp only [State.startPolling_eq, List.filterMap_nil, List.append_nil]
        refine hi.calm (fun h => hw ▸ h) hkey hroute rfl rfl ?_
        rintro b ⟨⟩
        rfl
    · simp only [hact, false_and, if_false]
      by_cases hdown : device.state = .deactivating ∨ device.state = .failed
      · have hr : s.deviceStateChanged T device.state baseline now = (s.stopWaiting, []) := by
          simp [State.deviceStateChanged, hd, hu, hact, hdown, State.stopWaiting]
        rw [hr]
        simp only [List.filterMap_nil, List.append_nil]
        exact hi.calm (by simp [State.stopWaiting]) hkey hroute rfl rfl hentry
      · have hr : s.deviceStateChanged T device.state baseline now = (s, []) := by
          simp [State.deviceStateChanged, hd, hu, hact, hdown]
        rw [hr]
        simp only [List.filterMap_nil, List.append_nil]
        exact hi.calm (fun h => hw ▸ h) hkey hroute rfl rfl hentry
  · rw [State.deviceStateChanged_of_ne hd hu]
    simp only [hu, and_false, if_false, List.filterMap_nil, List.append_nil]
    exact hi.calm (fun h => hw ▸ h) hkey hroute rfl rfl hentry

/-! ## Steps -/

theorem step_stateChanged {device : NetmgrDevice} (hd : h.controller.device = some device)
    (state : DeviceState) (baseline : ℕ) (now : Reading) :
    h.step T (.stateChanged state baseline now) =
      reported T h { h.controller with device := some { device with state := state } }
        { device with state := state } h.entry baseline now := by
  simp [step, State.step, State.dbusStateChanged, hd, reported, nextLatest, nextEntry, oldReports,
    Event.reading, Session.isSome_carrier hd]

theorem step_stateChanged_none (hd : h.controller.device = none) (state : DeviceState)
    (baseline : ℕ) (now : Reading) : h.step T (.stateChanged state baseline now) = h := by
  have hsame : { h.controller with device := none } = h.controller := by rw [← hd]
  simp [step, State.step, State.dbusStateChanged, State.deviceStateChanged, nextLatest, nextEntry,
    oldReports, State.carrier, hd, hsame]

theorem step_deviceAdded {name driver : List Char} (ht : Session.tunnels name driver = true)
    (device : NetmgrDevice) (baseline : ℕ) (now : Reading) :
    h.step T (.deviceAdded device name driver baseline now) =
      reported T h { h.controller with device := some device } device none baseline now := by
  obtain ⟨hname, hdriver⟩ := Session.tunnels_iff.mp ht
  simp [step, State.step, State.deviceAdded, hname, hdriver, reported, nextLatest, nextEntry,
    oldReports, Event.reading, Session.tunnels]

theorem step_deviceAdded_other {name driver : List Char}
    (ht : Session.tunnels name driver = false) (device : NetmgrDevice) (baseline : ℕ)
    (now : Reading) : h.step T (.deviceAdded device name driver baseline now) = h := by
  simp [step, State.step, Session.deviceAdded_of_not_tunnels ht, nextLatest, nextEntry, oldReports,
    ht]

theorem filterMap_report_eq_nil {signals : List Signal} (h : signals.any Signal.isConnected = false)
    (entry : Option ℕ) (now : Option Reading) :
    signals.filterMap (Signal.report entry now) = [] := by
  rw [List.filterMap_eq_nil_iff]
  intro signal hsignal
  have hnot := List.any_eq_false.mp h signal hsignal
  cases signal with
  | connected => exact absurd rfl hnot
  | disconnected => rfl
  | backendFailure => rfl

/-- A poll that ends the wait finds a device that has come up for the latest activation. -/
def Fresh (T : HostAddressText) (h : Watch) : Event → Prop
  | .handshakePoll now => h.controller.handshakePollTimer = true → h.controller.Confirms T now →
    h.entry.isSome = true
  | _ => True

/-- A step that changes only the device and the calls, and does not report the activation. -/
theorem inv_step_frame (hi : Inv T h) {e : Event}
    (hstate : ∃ device requests calls, (h.controller.step T e).1 =
      { h.controller with device := device, requests := requests, calls := calls })
    (hsignals : (h.controller.step T e).2.any Signal.isConnected = false)
    (hlatest : h.nextLatest e = h.latest) (hold : h.oldReports e = h.reports)
    (hentry : ∀ b, h.nextEntry e = some b → h.entry = some b) : Inv T (h.step T e) := by
  obtain ⟨device, requests, calls, hstate⟩ := hstate
  have hcontroller : (h.step T e).controller =
      { h.controller with device := device, requests := requests, calls := calls } := hstate
  refine hi.calm ?_ ?_ ?_ hlatest ?_ ?_
  · rw [hcontroller]
    exact id
  · rw [hcontroller]
  · rw [hcontroller]
  · show h.oldReports e ++ _ = h.reports
    rw [filterMap_report_eq_nil hsignals, List.append_nil, hold]
  · rw [hcontroller]
    exact fun b hb => hi.entry b (hentry b hb)

theorem inv_step_deviceRemoved (hi : Inv T h) (path : List Char) :
    Inv T (h.step T (.deviceRemoved path)) := by
  by_cases hr : h.controller.Removes path
  · have hcontroller : (h.step T (.deviceRemoved path)).controller =
        { h.controller.stopWaiting with device := none } := by
      simp [step, State.step, State.deviceRemoved, hr, State.stopWaiting]
    refine hi.calm ?_ ?_ ?_ rfl ?_ ?_
    · simp [hcontroller, State.stopWaiting]
    · simp [hcontroller, State.stopWaiting]
    · simp [hcontroller, State.stopWaiting]
    · simp [step, State.step, State.deviceRemoved, hr, oldReports, Signal.report]
    · simp [step, nextEntry, hr]
  · have hsame : h.step T (.deviceRemoved path) = h := by
      simp [step, State.step, State.deviceRemoved, hr, nextLatest, nextEntry, oldReports]
    rw [hsame]
    exact hi

theorem step_handshakePoll_of_not {now : Reading}
    (hn : ¬ (h.controller.handshakePollTimer = true ∧ h.controller.Confirms T now)) :
    h.step T (.handshakePoll now) = h := by
  have hr : h.controller.step T (.handshakePoll now) = (h.controller, []) := by
    by_cases ht : h.controller.handshakePollTimer = true
    · simp only [State.step, ht, if_true]
      exact State.checkHandshakeTraffic_of_not_confirms fun hc => hn ⟨ht, hc⟩
    · simp [State.step, ht]
  simp [step, hr, nextLatest, nextEntry, oldReports]

theorem step_handshakePoll_of_confirms {now : Reading}
    (ht : h.controller.handshakePollTimer = true) (hc : h.controller.Confirms T now) :
    h.step T (.handshakePoll now) =
      { controller := h.controller.stopWaiting
        latest := h.latest
        entry := h.entry
        reports := h.reports ++ [⟨h.controller.serverPublicKey, h.entry, some now⟩] } := by
  have hr : h.controller.step T (.handshakePoll now) =
      (h.controller.stopWaiting, [.connected h.controller.serverPublicKey]) := by
    simp only [State.step, ht, if_true]
    exact State.checkHandshakeTraffic_of_confirms hc
  simp [step, hr, nextLatest, nextEntry, oldReports, Event.reading, Signal.report]

theorem inv_step_handshakePoll (hi : Inv T h) {now : Reading}
    (hf : h.Fresh T (.handshakePoll now)) : Inv T (h.step T (.handshakePoll now)) := by
  by_cases hn : h.controller.handshakePollTimer = true ∧ h.controller.Confirms T now
  · obtain ⟨baseline, hb⟩ := Option.isSome_iff_exists.mp (hf hn.1 hn.2)
    rw [step_handshakePoll_of_confirms hn.1 hn.2, hb]
    exact inv_confirmed hi rfl rfl rfl hn.2 (hi.entry baseline hb)
  · rw [step_handshakePoll_of_not hn]
    exact hi

/-- **Every step** that polls only for a device that has come up keeps the invariant. -/
theorem inv_step (e : Event) (hi : Inv T h) (hf : h.Fresh T e) : Inv T (h.step T e) := by
  cases e with
  | activate config =>
    refine Inv.mk (fun _ => ⟨rfl, config, rfl, rfl, rfl⟩) ?_ ⟨Nat.zero_le 1, ?_⟩
    · intro b hb
      cases hb
    · intro r hr
      cases hr
  | deactivate =>
    refine inv_step_frame hi ?_ ?_ rfl rfl fun b hb => hb
    all_goals
      unfold State.step State.deactivate
      cases h.controller.carrier
    · exact ⟨_, _, _, rfl⟩
    · exact ⟨_, _, _, rfl⟩
    · rfl
    · rfl
  | reply request success =>
    obtain ⟨hstate, hsignals⟩ := h.controller.reply_frame request success
    exact inv_step_frame hi ⟨_, _, _, hstate⟩ hsignals rfl rfl fun b hb => hb
  | deviceAdded device name driver baseline now =>
    cases ht : Session.tunnels name driver with
    | false =>
      rw [step_deviceAdded_other ht]
      exact hi
    | true =>
      rw [step_deviceAdded ht]
      exact inv_reported hi rfl (fun _ hb => by cases hb) baseline now
  | deviceRemoved path => exact inv_step_deviceRemoved hi path
  | propertyChanged activeConnection uuid =>
    exact inv_step_frame hi ⟨_, _, _, rfl⟩ rfl rfl rfl fun b hb => hb
  | stateChanged state baseline now =>
    cases hd : h.controller.device with
    | none =>
      rw [step_stateChanged_none hd]
      exact hi
    | some device =>
      rw [step_stateChanged hd]
      exact inv_reported hi rfl (fun _ hb => hb) baseline now
  | handshakePoll now => exact inv_step_handshakePoll hi hf

/-- A poll that ends the wait of an activation whose device has not come up. -/
theorem not_truthful_step (e : Event) (hf : ¬ h.Fresh T e) : ¬ Truthful T (h.step T e) := by
  cases e with
  | handshakePoll now =>
    simp only [Fresh, Classical.not_imp, Bool.not_eq_true] at hf
    obtain ⟨ht, hc, hnone⟩ := hf
    rw [step_handshakePoll_of_confirms ht hc]
    intro htruth
    obtain ⟨config, now', baseline, -, -, -, hentry, -⟩ :=
      htruth.grounded ⟨h.controller.serverPublicKey, h.entry, some now⟩ (by simp)
    have hsome : h.entry = some baseline := hentry
    rw [hsome] at hnone
    cases hnone
  | _ => exact absurd trivial hf

end Watch

/-! ## Runs -/

/-- The watch of a controller that has just been initialised. -/
def Watch.start (uuid : List Char) (device : Option NetmgrDevice) : Watch :=
  { controller := .initCompleted uuid device }

theorem Watch.inv_start (T : HostAddressText) (uuid : List Char) (device : Option NetmgrDevice) :
    Inv T (start uuid device) := by
  refine Inv.mk (fun hw => ?_) (fun b hb => ?_) ⟨Nat.zero_le 1, fun r hr => ?_⟩
  · cases hw
  · cases hb
  · cases hr

/-- **Truthful reports.** Over every run, from any device that was there before, every state reports
the latest activation at most once, with its key, and after its device has come up and received
something since, exactly when no poll ends the wait of an activation whose device has not come
up. -/
theorem truthful_iff (T : HostAddressText) (uuid : List Char) (device : Option NetmgrDevice)
    (events : List Event) :
    (∀ n, ((events.take n).foldl (Watch.step T) (.start uuid device)).Truthful T) ↔
      Guarded (Watch.step T) (Watch.Fresh T) (.start uuid device) events :=
  forall_take_iff_guarded (P := Watch.Truthful T)
    (fun _ e (hi : Watch.Inv T _) hf => Watch.inv_step e hi hf) (fun _ hi => hi.truthful)
    (fun _ e _ hf => Watch.not_truthful_step e hf) (Watch.inv_start T uuid device) events

/-- The client switches to another server while the device is up for the first one, and nothing has
come over the tunnel yet. -/
def switchedServers : List Event :=
  [.activate profile, .reply 0 true, .reply 0 true,
   .deviceAdded tunnel wgInterfaceName "wireguard".toList 0 ⟨0, none⟩,
   .stateChanged .activated 92 ⟨92, none⟩,
   .activate { profile with serverPublicKey := .text "other".toList },
   .handshakePoll ⟨92, none⟩]

/-- The other server is reported as connected, though the device has not come up for it and has
received nothing since. -/
theorem not_truthful_switchedServers : ¬ ∀ n, ((switchedServers.take n).foldl
    (Watch.step probeText) (.start tunnel.uuid none)).Truthful probeText := by
  intro h
  have hentries : ((switchedServers.take 7).foldl (Watch.step probeText)
      (.start tunnel.uuid none)).reports.map (·.entry) = [none] := by
    decide +kernel
  obtain ⟨r, hr, hnone⟩ := List.mem_map.mp (hentries ▸ List.mem_singleton_self none)
  obtain ⟨config, now, baseline, -, -, -, hentry, -⟩ := (h 7).grounded r hr
  rw [hentry] at hnone
  cases hnone

end WgDesktop.NetmgrController
