import WgDesktop.Client.Controller

/-!
# No lost next step

Whether a request to quit or to update is answered. While the VPN is active the request is kept in
`m_nextStep` until a `disconnected` signal. It is lost when another request writes the field, and it
is never answered when the controller comes to rest on another way: `deactivate` returns early after
a missing server, and `updateRequired` deactivates only a connection that is up. `Requests` follows
the request that stands and the `deactivate` call that has not been answered.
-/

namespace WgDesktop

namespace Controller

/-- The requests that wait for the VPN to be off. -/
inductive Request where
  | quit
  | update
  deriving DecidableEq, Repr

def Request.nextStep : Request → NextStep
  | .quit => .quit
  | .update => .update

def Request.signal : Request → Output
  | .quit => .readyToQuit
  | .update => .readyToUpdate

/-- The request an event makes. -/
def Event.request : Event → Option Request
  | .quit => some .quit
  | .updateRequired => some .update
  | _ => none

/-- A `disconnected` signal answers a `deactivate` call, and a new implementation knows nothing of
it. -/
def Event.forgets : Event → Bool
  | .disconnected | .initializeController => true
  | _ => false

/-- A request to quit or to update is recorded. -/
def leaving (c : Controller) : Prop := c.nextStep = .quit ∨ c.nextStep = .update

instance : DecidablePred leaving := fun _ => inferInstanceAs (Decidable (_ ∨ _))

/-- The controller, whether a `deactivate` call is still to be answered by a `disconnected` signal,
and the request that is still to be answered. -/
structure Requests where
  controller : Controller := {}
  awaiting : Bool := false
  request : Option Request := none

namespace Requests

/-- The request that stands once an event has come: a new one takes the place of the one before. -/
def standing (s : Requests) (e : Env × Event) : Option Request := e.2.request.or s.request

def step (s : Requests) (e : Env × Event) : Requests :=
  let c := s.controller.step e
  { controller := c
    awaiting := !e.2.forgets && s.awaiting || c.out.contains .implDeactivate
    request := (s.standing e).filter fun r => !c.out.contains r.signal }

/-- Something is under way that ends in a `disconnected` signal, a handshake or a timeout. -/
def inFlight (s : Requests) : Prop := s.controller.handshakeTimer ∨ s.awaiting

instance : DecidablePred inFlight := fun _ => inferInstanceAs (Decidable (_ ∨ _))

/-- The controller has come to rest in an off or error state. -/
def atRest (s : Requests) : Prop :=
  (s.controller.state = .off ∨ s.controller.state = .connectionError) ∧ ¬ s.inFlight

/-- The event does not lose the request: when the controller comes to rest, it answers the request
that stands, and a recorded request never waits for nothing. -/
structure Kept (s : Requests) (e : Env × Event) : Prop where
  answered : ∀ r, s.standing e = some r → (s.step e).atRest →
    r.signal ∈ (s.step e).controller.out
  pending : (s.step e).controller.leaving → (s.step e).inFlight

/-- An activation does not lose the request: it can be made, or a `disconnected` signal is due. -/
def Connectable (s : Requests) (env : Env) (policy : ServerSelectionPolicy) (data : ServerData) :
    Prop :=
  if serverMissing env policy data then s.awaiting
  else env.currentDevice.isSome ∨ s.request = none

/-- The events that keep the requests. -/
def KeepsRequest (s : Requests) (e : Env × Event) : Prop :=
  match e.2 with
  | .quit =>
    s.controller.isActive →
      s.controller.state ≠ .disconnecting ∧ s.controller.neverConnected = false ∨ s.inFlight
  | .updateRequired =>
    s.controller.isActive →
      s.controller.state = .on ∨ s.controller.state = .onPartial ∨ s.inFlight
  | .initializeController => s.controller.leaving → s.controller.handshakeTimer
  | .handshakeTimeout =>
    s.controller.leaving → s.controller.handshakeTimer → s.awaiting ∨
      (if e.1.hasProfiles then s.controller.hasImpl = true
        else s.controller.isActive ∧ s.controller.neverConnected = false)
  | .activate data _ policy =>
    s.controller.leaving → s.controller.acceptsActivation →
      ¬ (s.controller.state = .off ∧ s.controller.portalDetected) → s.Connectable e.1 policy data
  | .activateConfig .. =>
    s.controller.leaving → s.controller.acceptsActivation →
      (s.controller.hasImpl && s.controller.backendAvailable) →
      (e.1.hasProfiles || e.1.currentDevice.isSome) ∨ s.awaiting
  | .switchServers data =>
    s.controller.leaving → s.controller.isActive →
      (e.1.multihopSupported ∧ data.multihop ≠ s.controller.serverData.multihop →
        s.request = none) ∧
      (¬ (e.1.multihopSupported ∧ data.multihop ≠ s.controller.serverData.multihop) →
        s.Connectable e.1 .randomizeServerSelection data)
  | .silentSwitchServers policy =>
    s.controller.leaving → s.controller.state = .on →
      ¬ (policy = .serverCoolDownNeeded ∧
        (s.controller.serverData.exitServers e.1.getServerList).length ≤ 1) →
      s.Connectable e.1 policy.selection s.controller.serverData
  | _ => True

/-- What holds in every state of a run that keeps the requests: the request that stands is the one
that is recorded, and a recorded request waits for something. -/
structure Inv (s : Requests) : Prop where
  recorded : ∀ r, s.request = some r → s.controller.nextStep = r.nextStep
  pending : s.controller.leaving → s.inFlight

variable {s : Requests} {e : Env × Event}

theorem leaves_of_leaving {c : Controller} (h : c.leaving) : c.nextStep.leaves = true := by
  rcases h with h | h <;> rw [h] <;> rfl

theorem request_step {r : Request} (he : e.2.request = none) (h : (s.step e).request = some r) :
    s.request = some r := by
  simp only [step, standing, he, Option.none_or, Option.filter_eq_some_iff] at h
  exact h.1

/-- An event that keeps what is recorded, and leaves something in flight. -/
theorem inv_of_keep (h : s.Inv) (he : e.2.request = none)
    (hn : (s.controller.step e).nextStep = s.controller.nextStep)
    (hf : s.controller.leaving → (s.step e).inFlight) : (s.step e).Inv where
  recorded r hr := hn.trans (h.recorded r (request_step he hr))
  pending hl := hf (by unfold leaving at hl ⊢; rwa [← hn])

theorem inv_of_drop (he : e.2.request = none) (hr : s.request = none)
    (hn : ¬ (s.controller.step e).leaving) : (s.step e).Inv where
  recorded r hr' := by
    rw [request_step he hr'] at hr
    cases hr
  pending hl := absurd hl hn

theorem Inv.request_eq_none (h : s.Inv) (hl : ¬ s.controller.leaving) : s.request = none := by
  cases hr : s.request with
  | none => rfl
  | some r =>
    refine absurd ?_ hl
    have := h.recorded r hr
    cases r with
    | quit => exact Or.inl this
    | update => exact Or.inr this

theorem inFlight_of_timer (h : (s.controller.step e).handshakeTimer = true) : (s.step e).inFlight :=
  Or.inl h

theorem inFlight_of_mem (h : .implDeactivate ∈ (s.controller.step e).out) :
    (s.step e).inFlight := by
  refine Or.inr ?_
  simp only [step, List.contains_iff_mem.mpr h, Bool.or_true]

theorem inFlight_of_awaiting (he : e.2.forgets = false) (h : s.awaiting = true) :
    (s.step e).inFlight := by
  refine Or.inr ?_
  simp only [step, he, h]
  rfl

theorem inFlight_of_same (he : e.2.forgets = false)
    (ht : (s.controller.step e).handshakeTimer = s.controller.handshakeTimer) (h : s.inFlight) :
    (s.step e).inFlight := by
  rcases h with h | h
  · exact Or.inl (ht.trans h)
  · exact inFlight_of_awaiting he h

theorem implDeactivate_mem_tearDown (c : Controller) : .implDeactivate ∈ c.tearDown.out := by
  rw [tearDown_eq]
  simp

theorem inv_of_same (h : s.Inv) (he : e.2.request = none) (hf : e.2.forgets = false)
    {d : Controller} (hc : s.controller.step e = d)
    (hn : d.nextStep = s.controller.nextStep)
    (ht : d.handshakeTimer = s.controller.handshakeTimer) : (s.step e).Inv := by
  subst hc
  exact inv_of_keep h he hn fun hl => inFlight_of_same hf ht (h.pending hl)

theorem inv_of_activateInternal (h : s.Inv) (he : e.2.request = none) (hf : e.2.forgets = false)
    {env : Env} {c : Controller} {dnsPort : DNSPortPolicy} {policy : ServerSelectionPolicy}
    {initiator : ActivationPrincipal}
    (hc : s.controller.step e = activateInternal env dnsPort policy initiator c)
    (hn : c.nextStep = s.controller.nextStep)
    (hk : s.controller.leaving → s.Connectable env policy c.serverData) : (s.step e).Inv := by
  obtain ⟨hm, ha⟩ | ⟨hm, hd, ha⟩ | ⟨-, -, first, rest, -, ha⟩ :=
    c.activateInternal_cases env dnsPort policy initiator
  · refine inv_of_keep h he ?_ fun hl => inFlight_of_awaiting hf ?_
    · rw [hc, ha, serverUnavailable_eq]
      exact hn
    · have := hk hl
      rwa [Connectable, if_pos hm] at this
  · have hr : s.request = none := by
      by_cases hl : s.controller.leaving
      · have := hk hl
        rw [Connectable, hm, hd] at this
        simpa using this
      · exact h.request_eq_none hl
    refine inv_of_drop he hr ?_
    rw [hc, ha]
    simp [leaving]
  · refine inv_of_keep h he ?_ fun _ => inFlight_of_timer ?_
    · rw [hc, ha, submit_eq]
      exact hn
    · rw [hc, ha, submit_eq]

theorem inv_connected (h : s.Inv) (env : Env) (pubkey : QString) :
    (s.step (env, .connected pubkey)).Inv := by
  have hstep : s.controller.step (env, .connected pubkey) =
      s.controller.resetOut.connected env pubkey := rfl
  -- a connection that comes up while a request stands is torn down at once
  have hup {c : Controller} (hc : s.controller.step (env, .connected pubkey) = c.connectionUp)
      (hn : c.nextStep = s.controller.nextStep) : (s.step (env, .connected pubkey)).Inv := by
    rw [connectionUp_eq, hn] at hc
    refine inv_of_keep h rfl ?_ fun hl => inFlight_of_mem ?_
    · rw [hc]
      split_ifs
      · rw [tearDown_eq]
        exact hn
      · exact hn
    · rw [hc, if_pos (leaves_of_leaving hl)]
      exact implDeactivate_mem_tearDown _
  obtain ⟨-, hc⟩ | ⟨-, -, hc⟩ | ⟨hop, -, -, hc⟩ | ⟨hop, next, rest, -, -, hc | hc⟩ :=
    s.controller.resetOut.connected_cases env pubkey
  · exact inv_of_same h rfl rfl (hstep.trans hc) rfl rfl
  · exact hup (hstep.trans hc) rfl
  · exact hup (hstep.trans hc) rfl
  · exact inv_of_same h rfl rfl (hstep.trans hc) rfl rfl
  · refine inv_of_keep h rfl (by rw [hstep, hc, submit_eq]; rfl) fun _ => inFlight_of_timer ?_
    rw [hstep, hc, submit_eq]

theorem inv_disconnected (h : s.Inv) (env : Env) : (s.step (env, .disconnected)).Inv := by
  have hstep : s.controller.step (env, .disconnected) =
      s.controller.resetOut.disconnected env := rfl
  -- the record is gone, and so is the request that stood
  have hnone {r : Request} (hn : s.controller.nextStep = r.nextStep)
      (hc : s.controller.resetOut.disconnected env =
        (s.controller.resetOut.cleared.emit r.signal).setState .off) :
      (s.step (env, .disconnected)).Inv := by
    rw [setState_eq] at hc
    refine ⟨fun r' hr' => ?_, fun hl => ?_⟩
    · have hr : s.request = some r' := request_step rfl hr'
      have hrr : r' = r := by
        have := (h.recorded r' hr).symm.trans hn
        cases r <;> cases r' <;> first | rfl | cases this
      subst hrr
      have hmem : (s.controller.step (env, .disconnected)).out.contains r'.signal = true := by
        rw [hstep, hc]
        simp [emit, cleared]
      simp only [step, Option.filter_eq_some_iff, hmem] at hr'
      exact absurd hr'.2 (by simp)
    · change (s.controller.step _).leaving at hl
      rw [hstep, hc] at hl
      simp [leaving, emit, cleared] at hl
  obtain ⟨hn, hc⟩ | ⟨hn, hc⟩ | ⟨hn, hc⟩ | ⟨hn, hc⟩ :=
    s.controller.resetOut.disconnected_cases env
  · exact hnone (r := .quit) hn hc
  · exact hnone (r := .update) hn hc
  · have hl : ¬ s.controller.leaving := by
      rw [resetOut_nextStep] at hn
      simp [leaving, hn]
    refine inv_of_drop rfl (h.request_eq_none hl) ?_
    rw [hstep, hc]
    obtain ⟨-, ha⟩ | ⟨-, -, ha⟩ | ⟨-, -, first, rest, -, ha⟩ := activateInternal_cases
      { s.controller.resetOut.cleared with serverData := s.controller.resetOut.nextServerData } env
        .doNotForceDNSPort .randomizeServerSelection s.controller.resetOut.initiator
    all_goals rw [ha]
    · rw [serverUnavailable_eq]
      simp [leaving, resetAttempt, cleared]
    · simp [leaving]
    · rw [submit_eq]
      rintro (hn | hn) <;> cases hn
  · have hl : ¬ s.controller.leaving := by
      rw [resetOut_nextStep] at hn
      rcases hn with hn | hn <;> simp [leaving, hn]
    refine inv_of_drop rfl (h.request_eq_none hl) ?_
    rw [hstep, hc, setState_eq]
    simp [leaving, cleared]

theorem inv_handshakeTimeout (h : s.Inv) {env : Env}
    (hk : s.KeepsRequest (env, .handshakeTimeout)) : (s.step (env, .handshakeTimeout)).Inv := by
  have hstep : s.controller.step (env, .handshakeTimeout) =
      s.controller.resetOut.handshakeTimeout env := rfl
  obtain ⟨-, hc⟩ | ⟨ht, hp, hc⟩ | ⟨ht, hp, -, hc⟩ | ⟨-, -, hl, -, hc⟩ |
    ⟨-, -, hl, -, hc⟩ := s.controller.resetOut.handshakeTimeout_cases env
  · exact inv_of_same h rfl rfl (hstep.trans hc) rfl rfl
  · have himpl : s.controller.resetOut.profileExpired.hasImpl = s.controller.hasImpl := by
      rw [profileExpired, setState_eq]
      rfl
    have hnext : s.controller.resetOut.profileExpired.nextStep = s.controller.nextStep := by
      rw [profileExpired, setState_eq]
      rfl
    rw [himpl] at hc
    refine inv_of_keep h rfl ?_ fun hl => ?_
    · rw [hstep, hc]
      split_ifs
      · exact hnext
      · exact hnext
    · obtain hw | hi := hk hl ht
      · exact inFlight_of_awaiting rfl hw
      · rw [if_pos hp] at hi
        refine inFlight_of_mem ?_
        rw [hstep, hc, if_pos hi]
        simp [emit]
  · have hnever : s.controller.resetOut.expired.neverConnected = s.controller.neverConnected := rfl
    have hactive : s.controller.resetOut.expired.isActive = s.controller.isActive := rfl
    have hnext : s.controller.resetOut.expired.nextStep = s.controller.nextStep := rfl
    obtain ⟨hn, hd⟩ | ⟨ha, hd⟩ | ⟨-, -, hd⟩ :=
      s.controller.resetOut.expired.deactivate_clientUser_cases
    · refine inv_of_keep h rfl (by rw [hstep, hc, hd, setState_eq]; exact hnext) fun hl => ?_
      obtain hw | hi := hk hl ht
      · exact inFlight_of_awaiting rfl hw
      · rw [if_neg (by simp [hp])] at hi
        exact absurd (hi.2.symm.trans hn) (by simp)
    · refine inv_of_keep h rfl (by rw [hstep, hc, hd]; exact hnext) fun hl => ?_
      obtain hw | hi := hk hl ht
      · exact inFlight_of_awaiting rfl hw
      · rw [if_neg (by simp [hp])] at hi
        exact absurd (hi.1.symm.trans ha) (by simp)
    · refine inv_of_keep h rfl (by rw [hstep, hc, hd, tearDown_eq]; exact hnext) fun _ =>
        inFlight_of_mem ?_
      rw [hstep, hc, hd]
      exact implDeactivate_mem_tearDown _
  · have hl' : ¬ s.controller.leaving := fun h' =>
      absurd ((leaves_of_leaving h').symm.trans hl) (by simp)
    exact inv_of_activateInternal h rfl rfl (hstep.trans hc) rfl fun h' => absurd h' hl'
  · have hl' : ¬ s.controller.leaving := fun h' =>
      absurd ((leaves_of_leaving h').symm.trans hl) (by simp)
    refine inv_of_keep h rfl ?_ fun h' => absurd h' hl'
    rw [hstep, hc, serverUnavailable_eq]
    rfl

theorem inv_activate (h : s.Inv) {env : Env} {data : ServerData}
    {initiator : ActivationPrincipal} {policy : ServerSelectionPolicy}
    (hk : s.KeepsRequest (env, .activate data initiator policy)) :
    (s.step (env, .activate data initiator policy)).Inv := by
  have hstep : s.controller.step (env, .activate data initiator policy) =
      (s.controller.resetOut.activate env data initiator policy).1 := rfl
  obtain ⟨-, hc⟩ | ⟨-, -, hc⟩ | ⟨ha, hp, hc⟩ :=
    s.controller.resetOut.activate_cases env data initiator policy
  · exact inv_of_same h rfl rfl (hstep.trans (congrArg Prod.fst hc)) rfl rfl
  · exact inv_of_same h rfl rfl (hstep.trans (congrArg Prod.fst hc)) rfl rfl
  · have hdata : (s.controller.resetOut.accepted data initiator).serverData = data := by
      rw [accepted_eq]
    have hnext : (s.controller.resetOut.accepted data initiator).nextStep =
        s.controller.nextStep := by
      rw [accepted_eq]
      rfl
    refine inv_of_activateInternal h rfl rfl (hstep.trans (by rw [hc])) hnext fun hl => ?_
    rw [hdata]
    exact hk hl ha hp

theorem inv_activateConfig (h : s.Inv) {env : Env} {config : InterfaceConfig}
    {initiator : ActivationPrincipal}
    (hk : s.KeepsRequest (env, .activateConfig config initiator)) :
    (s.step (env, .activateConfig config initiator)).Inv := by
  have hstep : s.controller.step (env, .activateConfig config initiator) =
      (s.controller.resetOut.activateConfig env config initiator).1 := rfl
  have hnext (config' : InterfaceConfig) :
      (s.controller.resetOut.profileQueued config' initiator).nextStep =
        s.controller.nextStep := by
    change (s.controller.resetOut.accepted _ initiator).nextStep = _
    rw [accepted_eq]
    rfl
  obtain ⟨-, hc⟩ | ⟨-, -, hc⟩ | ⟨ha, hb, hp, hd, hc⟩ | ⟨-, -, -, hc⟩ :=
    s.controller.resetOut.activateConfig_cases env config initiator
  · exact inv_of_same h rfl rfl (hstep.trans (congrArg Prod.fst hc)) rfl rfl
  · exact inv_of_same h rfl rfl (hstep.trans (congrArg Prod.fst hc)) (by rw [setState_eq]; rfl)
      (by rw [setState_eq]; rfl)
  · refine inv_of_keep h rfl (by rw [hstep, hc]; exact hnext (localConfig env config)) fun hl => ?_
    obtain hd' | hw := hk hl ha hb
    · simp [hp, hd] at hd'
    · exact inFlight_of_awaiting rfl hw
  · refine inv_of_keep h rfl ?_ fun _ => inFlight_of_timer ?_
    · rw [hstep, hc, submit_eq]
      exact hnext (localConfig env config)
    · rw [hstep, hc, submit_eq]

theorem inv_switchServers (h : s.Inv) {env : Env} {data : ServerData}
    (hk : s.KeepsRequest (env, .switchServers data)) :
    (s.step (env, .switchServers data)).Inv := by
  have hstep : s.controller.step (env, .switchServers data) =
      (s.controller.resetOut.switchServers env data).1 := rfl
  have hnext : (s.controller.resetOut.switchAccepted data).nextStep = s.controller.nextStep := by
    rw [switchAccepted_eq]
    rfl
  obtain ⟨-, hc⟩ | ⟨ha, hm, hc⟩ | ⟨ha, hm, hc⟩ :=
    s.controller.resetOut.switchServers_cases env data
  · exact inv_of_same h rfl rfl (hstep.trans (congrArg Prod.fst hc)) rfl rfl
  · have hr : s.request = none := by
      by_cases hl : s.controller.leaving
      · exact (hk hl ha).1 hm
      · exact h.request_eq_none hl
    refine inv_of_drop rfl hr ?_
    rw [hstep, hc]
    obtain ⟨-, hd⟩ | ⟨-, hd⟩ | ⟨-, -, hd⟩ := ({ s.controller.resetOut.switchAccepted data with
        nextStep := .reconnect } : Controller).deactivate_clientUser_cases
    all_goals rw [hd]
    · rw [setState_eq]
      simp [leaving]
    · simp [leaving]
    · rw [tearDown_eq]
      simp [leaving]
  · exact inv_of_activateInternal h rfl rfl (hstep.trans (congrArg Prod.fst hc)) hnext
      fun hl => (hk hl ha).2 hm

theorem inv_silentSwitchServers (h : s.Inv) {env : Env} {policy : ServerCoolDownPolicy}
    (hk : s.KeepsRequest (env, .silentSwitchServers policy)) :
    (s.step (env, .silentSwitchServers policy)).Inv := by
  have hstep : s.controller.step (env, .silentSwitchServers policy) =
      (s.controller.resetOut.silentSwitchServers env policy).1 := rfl
  have hnext : (s.controller.resetOut.silentSwitchAccepted policy).nextStep =
      s.controller.nextStep := by
    rw [silentSwitchAccepted_eq]
    rfl
  have hdata : (s.controller.resetOut.silentSwitchAccepted policy).serverData =
      s.controller.serverData := by
    rw [silentSwitchAccepted_eq]
    rfl
  obtain hc | ⟨hs, hn, hc⟩ := s.controller.resetOut.silentSwitchServers_cases env policy
  · exact inv_of_same h rfl rfl (hstep.trans (congrArg Prod.fst hc)) rfl rfl
  · refine inv_of_activateInternal h rfl rfl (hstep.trans (congrArg Prod.fst hc)) hnext
      fun hl => ?_
    rw [hdata]
    exact hk hl hs hn

theorem inv_of_request {r : Request} (he : e.2.request = some r)
    (hn : (s.controller.step e).nextStep = r.nextStep) (hf : (s.step e).inFlight) :
    (s.step e).Inv where
  recorded r' hr' := by
    simp only [step, standing, he, Option.some_or, Option.filter_eq_some_iff] at hr'
    obtain ⟨hr', -⟩ := hr'
    cases hr'
    exact hn
  pending _ := hf

theorem inv_of_answer (h : s.Inv) {r : Request} (he : e.2.request = some r)
    (hf : e.2.forgets = false) (hout : (s.controller.step e).out = [r.signal])
    (hn : (s.controller.step e).nextStep = s.controller.nextStep)
    (ht : (s.controller.step e).handshakeTimer = s.controller.handshakeTimer) :
    (s.step e).Inv where
  recorded r' hr' := by
    simp only [step, standing, he, Option.some_or, Option.filter_eq_some_iff, hout] at hr'
    obtain ⟨hr, hr'⟩ := hr'
    cases hr
    simp at hr'
  pending hl := by
    refine inFlight_of_same hf ht (h.pending ?_)
    change (s.controller.step e).leaving at hl
    rwa [leaving, hn] at hl

theorem inv_quit (h : s.Inv) {env : Env} (hk : s.KeepsRequest (env, .quit)) :
    (s.step (env, .quit)).Inv := by
  have hstep : s.controller.step (env, .quit) = s.controller.resetOut.quit := rfl
  obtain ⟨-, hq⟩ | ⟨hs, hq⟩ | ⟨ha, -, hq⟩ := s.controller.resetOut.quit_cases
  · exact inv_of_answer h (r := .quit) rfl rfl (by rw [hstep, hq]; rfl) (by rw [hstep, hq]; rfl)
      (by rw [hstep, hq]; rfl)
  · refine inv_of_request (r := .quit) rfl (by rw [hstep, hq]; rfl) ?_
    refine inFlight_of_same rfl (by rw [hstep, hq]; rfl) ?_
    have ha : s.controller.isActive := by
      have hs : s.controller.state = .disconnecting := hs
      simp [isActive, hs, State.rank, State.ctorIdx]
    obtain hs' | hf := hk ha
    · exact absurd hs hs'.1
    · exact hf
  · obtain ⟨hn, hd⟩ | ⟨ha', -⟩ | ⟨-, -, hd⟩ :=
      ({ s.controller.resetOut with nextStep := .quit } : Controller).deactivate_clientUser_cases
    · refine inv_of_request (r := .quit) rfl (by rw [hstep, hq, hd, setState_eq]; rfl) ?_
      refine inFlight_of_same rfl (by rw [hstep, hq, hd, setState_eq]; rfl) ?_
      obtain hs' | hf := hk ha
      · exact absurd (hs'.2.symm.trans hn) (by simp)
      · exact hf
    · exact absurd (ha.symm.trans ha') (by simp)
    · refine inv_of_request (r := .quit) rfl (by rw [hstep, hq, hd, tearDown_eq]; rfl) ?_
      refine inFlight_of_mem ?_
      rw [hstep, hq, hd]
      exact implDeactivate_mem_tearDown _

theorem inv_updateRequired (h : s.Inv) {env : Env} (hk : s.KeepsRequest (env, .updateRequired)) :
    (s.step (env, .updateRequired)).Inv := by
  have hstep : s.controller.step (env, .updateRequired) =
      s.controller.resetOut.updateRequired := rfl
  obtain ⟨-, hu⟩ | ⟨ha, hon, hpart, hu⟩ | ⟨hs, hu⟩ := s.controller.resetOut.updateRequired_cases
  · exact inv_of_answer h (r := .update) rfl rfl (by rw [hstep, hu]; rfl) (by rw [hstep, hu]; rfl)
      (by rw [hstep, hu]; rfl)
  · refine inv_of_request (r := .update) rfl (by rw [hstep, hu]; rfl) ?_
    refine inFlight_of_same rfl (by rw [hstep, hu]; rfl) ?_
    obtain hs | hs | hf := hk ha
    · exact absurd hs hon
    · exact absurd hs hpart
    · exact hf
  · have hs : s.controller.state = .on ∨ s.controller.state = .onPartial := hs
    obtain ⟨hn, -⟩ | ⟨ha, -⟩ | ⟨-, -, hd⟩ :=
      ({ s.controller.resetOut with nextStep := .update } : Controller).deactivate_clientUser_cases
    · rcases hs with hs | hs <;> simp [neverConnected, hs] at hn
    · rcases hs with hs | hs <;> simp [isActive, hs, State.rank, State.ctorIdx] at ha
    · refine inv_of_request (r := .update) rfl (by rw [hstep, hu, hd, tearDown_eq]; rfl) ?_
      refine inFlight_of_mem ?_
      rw [hstep, hu, hd]
      exact implDeactivate_mem_tearDown _

theorem inv_deactivate (h : s.Inv) (env : Env) (user : ActivationPrincipal) :
    (s.step (env, .deactivate user)).Inv := by
  have hstep : s.controller.step (env, .deactivate user) =
      (s.controller.resetOut.deactivate user).1 := rfl
  obtain ⟨-, hd⟩ | ⟨-, hd⟩ | ⟨-, hd⟩ | ⟨-, -, hd⟩ := s.controller.resetOut.deactivate_cases user
  · exact inv_of_same h rfl rfl (hstep.trans (congrArg Prod.fst hd)) rfl rfl
  · exact inv_of_same h rfl rfl (hstep.trans (congrArg Prod.fst hd)) (by rw [setState_eq]; rfl)
      (by rw [setState_eq]; rfl)
  · exact inv_of_same h rfl rfl (hstep.trans (congrArg Prod.fst hd)) rfl rfl
  · refine inv_of_keep h rfl (by rw [hstep, hd, tearDown_eq]; rfl) fun _ => inFlight_of_mem ?_
    rw [hstep, hd]
    exact implDeactivate_mem_tearDown _

theorem request_of_isPassive {e : Event} (he : e.isPassive) : e.request = none := by
  unfold Event.request
  split
  · cases he
  · cases he
  · rfl

theorem forgets_of_isPassive {e : Event} (he : e.isPassive) (hne : e ≠ .initializeController) :
    e.forgets = false := by
  unfold Event.forgets
  split
  · cases he
  · exact absurd rfl hne
  · rfl

/-- An event that leaves the attempt alone keeps the requests, but a new implementation does not
answer a `deactivate` call to the one before. -/
theorem inv_passive (h : s.Inv) (he : e.2.isPassive) (hk : s.KeepsRequest e) : (s.step e).Inv := by
  have hs := s.controller.resetOut.sameAttempt_handle e.1 he
  refine inv_of_keep h (request_of_isPassive he) hs.nextStep fun hl => ?_
  by_cases hne : e.2 = .initializeController
  · rw [KeepsRequest, hne] at hk
    exact inFlight_of_timer (hs.timer.trans (hk hl))
  · exact inFlight_of_same (forgets_of_isPassive he hne) hs.timer (h.pending hl)

/-- **The step.** An event that meets the condition keeps the requests. -/
theorem inv_step (h : s.Inv) (hk : s.KeepsRequest e) : (s.step e).Inv := by
  by_cases hp : e.2.isPassive
  · exact inv_passive h hp hk
  obtain ⟨env, e⟩ := e
  cases e with
  | connected pubkey => exact inv_connected h env pubkey
  | disconnected => exact inv_disconnected h env
  | handshakeTimeout => exact inv_handshakeTimeout h hk
  | activate data initiator policy => exact inv_activate h hk
  | activateConfig config initiator => exact inv_activateConfig h hk
  | deactivate user => exact inv_deactivate h env user
  | switchServers data => exact inv_switchServers h hk
  | silentSwitchServers policy => exact inv_silentSwitchServers h hk
  | quit => exact inv_quit h hk
  | updateRequired => exact inv_updateRequired h hk
  | _ => exact absurd rfl hp

theorem inv_initial : Inv {} where
  recorded r hr := by cases hr
  pending hl := by rcases hl with hl | hl <;> cases hl

/-- With the invariant before and after it, the event has answered the request if it had to. -/
theorem kept_of_inv (h : (s.step e).Inv) : s.Kept e where
  answered r hr hrest := by
    by_contra hmem
    have hstanding : (s.step e).request = some r := by
      simp only [step, hr, Option.filter_eq_some_iff, Bool.not_eq_true', List.contains_eq_mem]
      exact ⟨trivial, decide_eq_false hmem⟩
    refine hrest.2 (h.pending ?_)
    have := h.recorded r hstanding
    cases r with
    | quit => exact Or.inl this
    | update => exact Or.inr this
  pending := h.pending

/-- **No lost next step.** In a run whose events all keep the requests, the event with which the
controller comes to rest answers the request that stands, and no recorded request is left with
nothing in flight. -/
theorem kept_of_guarded (es : List (Env × Event)) (h : Runs.Guarded step KeepsRequest {} es)
    (n : ℕ) (e : Env × Event) (he : es[n]? = some e) :
    ((es.take n).foldl step {}).Kept e := by
  have hinv := @Runs.Guarded.invariant _ _ step KeepsRequest Inv (fun _ _ hi hk => inv_step hi hk)
    _ _ inv_initial h (n + 1)
  rw [List.take_add_one, he, List.foldl_append] at hinv
  exact kept_of_inv hinv

/-- An environment in which every server is cooling down. -/
def exhaustedEnv : Env := { availableEnv with getServerList := fun _ _ => [] }

/-- No server is found, and the user quits. -/
def quitWithoutServer : List (Env × Event) :=
  [(exhaustedEnv, .initializeController),
   (exhaustedEnv, .implInitialized true false),
   (exhaustedEnv, .activate {} .clientUser .randomizeServerSelection),
   (exhaustedEnv, .quit)]

/-- The user quits while the VPN is up, and the implementation disconnects. -/
def quitWhileUp : List (Env × Event) :=
  [(availableEnv, .initializeController),
   (availableEnv, .implInitialized true false),
   (availableEnv, .activate {} .clientUser .randomizeServerSelection),
   (availableEnv, .connected availableServer.publicKey),
   (availableEnv, .quit),
   (availableEnv, .disconnected)]

theorem kept_of_guarded_quitWhileUp :
    Runs.Guarded step KeepsRequest {} quitWhileUp ∧
      ((quitWhileUp.take 5).foldl step {}).Kept (availableEnv, .disconnected) := by
  have h : Runs.Guarded step KeepsRequest {} quitWhileUp :=
    ⟨fun hl => absurd hl (by decide), trivial, fun hl => absurd hl (by decide), trivial,
      fun _ => Or.inl (by decide), trivial, trivial⟩
  exact ⟨h, kept_of_guarded quitWhileUp h 5 _ rfl⟩

/-- The controller is off and the request to quit is never answered. -/
theorem not_forall_kept :
    ¬ ∀ (es : List (Env × Event)) (n : ℕ) (e : Env × Event), es[n]? = some e →
      ((es.take n).foldl step {}).Kept e := by
  intro h
  have hk := h quitWithoutServer 3 (exhaustedEnv, .quit) rfl
  have hleaving : (((quitWithoutServer.take 3).foldl step {}).step
      (exhaustedEnv, .quit)).controller.leaving := by decide
  have hidle : ¬ (((quitWithoutServer.take 3).foldl step {}).step
      (exhaustedEnv, .quit)).inFlight := by decide
  exact hidle (hk.pending hleaving)

end Requests

end Controller

end WgDesktop
