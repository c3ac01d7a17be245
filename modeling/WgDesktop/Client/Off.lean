import WgDesktop.Client.Controller

/-!
# Off means off

Whether the controller is idle whenever it says that it is off. The state is one field and the
queue, the timer and the implementation's own state are others: an activation for the browser
extension leaves the state alone, and two paths set `off` without looking at the queue. `Session`
follows, beside the controller, whether the implementation still has an activation to undo.
-/

namespace WgDesktop

namespace Controller

/-! ## The handshake timer -/

/-- The handshake timer runs only while a hop is queued. -/
def TimerSafe (c : Controller) : Prop := c.handshakeTimer → c.activationQueue ≠ []

namespace TimerSafe

variable {c : Controller}

theorem of_stopped (h : c.handshakeTimer = false) : c.TimerSafe := by
  intro ht
  rw [h] at ht
  cases ht

theorem framed : Framed TimerSafe where
  same h hq ht := by
    unfold TimerSafe
    rw [hq, ht]
    exact h
  tearDown c := by
    rw [tearDown_eq]
    exact of_stopped rfl

theorem submit {config : InterfaceConfig} (h : c.activationQueue ≠ []) :
    (c.submit config).TimerSafe := by
  rw [submit_eq]
  exact fun _ => h

theorem connectionUp (c : Controller) : c.connectionUp.TimerSafe := by
  rw [connectionUp_eq]
  split_ifs
  · exact framed.tearDown _
  · exact of_stopped rfl

theorem activateInternal (c : Controller) (env : Env) (dnsPort : DNSPortPolicy)
    (policy : ServerSelectionPolicy) (initiator : ActivationPrincipal) :
    (activateInternal env dnsPort policy initiator c).TimerSafe := by
  obtain ⟨-, h⟩ | ⟨-, -, h⟩ | ⟨-, -, first, rest, -, h⟩ :=
    c.activateInternal_cases env dnsPort policy initiator <;> rw [h]
  · rw [serverUnavailable_eq]
    exact of_stopped rfl
  · exact of_stopped rfl
  · exact submit (List.cons_ne_nil _ _)

theorem connected (h : c.TimerSafe) (env : Env) (pubkey : QString) :
    (c.connected env pubkey).TimerSafe := by
  obtain ⟨-, hc⟩ | ⟨-, -, hc⟩ | ⟨hop, -, -, hc⟩ | ⟨hop, next, rest, -, -, hc | hc⟩ :=
    c.connected_cases env pubkey <;> rw [hc]
  · exact h
  · exact connectionUp c
  · exact connectionUp _
  · exact fun _ => List.cons_ne_nil _ _
  · exact submit (List.cons_ne_nil _ _)

theorem disconnected (c : Controller) (env : Env) : (c.disconnected env).TimerSafe := by
  obtain ⟨-, h⟩ | ⟨-, h⟩ | ⟨-, h⟩ | ⟨-, h⟩ := c.disconnected_cases env <;> rw [h]
  · exact framed.setState (of_stopped rfl) _
  · exact framed.setState (of_stopped rfl) _
  · exact activateInternal _ _ _ _ _
  · exact framed.setState (of_stopped rfl) _

theorem handshakeTimeout (h : c.TimerSafe) (env : Env) : (c.handshakeTimeout env).TimerSafe := by
  have hexpired : c.expired.TimerSafe := of_stopped rfl
  have hprofile : c.profileExpired.TimerSafe := by
    rw [profileExpired, setState_eq]
    exact of_stopped rfl
  obtain ⟨-, ht⟩ | ⟨-, -, ht⟩ | ⟨-, -, -, ht⟩ | ⟨-, -, -, -, ht⟩ | ⟨-, -, -, -, ht⟩ :=
    c.handshakeTimeout_cases env <;> rw [ht]
  · exact h
  · split_ifs
    · exact framed.same hprofile rfl rfl
    · exact hprofile
  · exact framed.deactivate hexpired .clientUser
  · exact activateInternal _ _ _ _ _
  · rw [serverUnavailable_eq]
    exact of_stopped rfl

theorem handle (h : c.TimerSafe) (env : Env) (e : Event) : (c.handle env e).TimerSafe := by
  by_cases hp : e.isPassive
  · exact framed.handle_passive h env hp
  cases e with
  | connected pubkey => exact h.connected env pubkey
  | disconnected => exact disconnected c env
  | handshakeTimeout => exact h.handshakeTimeout env
  | activate serverData initiator policy =>
    rw [Controller.handle]
    obtain ⟨-, ha⟩ | ⟨-, -, ha⟩ | ⟨-, -, ha⟩ := c.activate_cases env serverData initiator policy <;>
      rw [ha]
    · exact h
    · exact framed.same h rfl rfl
    · exact activateInternal _ _ _ _ _
  | activateConfig config initiator =>
    rw [Controller.handle]
    obtain ⟨-, ha⟩ | ⟨-, -, ha⟩ | ⟨-, -, -, -, ha⟩ | ⟨-, -, -, ha⟩ :=
      c.activateConfig_cases env config initiator <;> rw [ha]
    · exact h
    · exact framed.setState (c := c.setError .noServerAvailable) (framed.same h rfl rfl) _
    · exact of_stopped rfl
    · exact submit (List.cons_ne_nil _ _)
  | deactivate user => exact framed.deactivate h user
  | switchServers serverData =>
    rw [Controller.handle]
    have hs : TimerSafe { c.switchAccepted serverData with nextStep := .reconnect } := by
      rw [switchAccepted_eq]
      exact framed.same h rfl rfl
    obtain ⟨-, hw⟩ | ⟨-, -, hw⟩ | ⟨-, -, hw⟩ := c.switchServers_cases env serverData <;> rw [hw]
    · exact h
    · exact framed.deactivate hs _
    · exact activateInternal _ _ _ _ _
  | silentSwitchServers policy =>
    rw [Controller.handle]
    obtain hw | ⟨-, -, hw⟩ := c.silentSwitchServers_cases env policy <;> rw [hw]
    · exact h
    · exact activateInternal _ _ _ _ _
  | quit => exact framed.quit h
  | updateRequired => exact framed.updateRequired h
  | _ => exact absurd rfl hp

theorem step (h : c.TimerSafe) (e : Env × Event) : (step c e).TimerSafe :=
  handle (c := c.resetOut) (framed.same h rfl rfl) e.1 e.2

theorem run (h : c.TimerSafe) (es : List (Env × Event)) : (run c es).TimerSafe :=
  @Runs.foldl_invariant _ _ Controller.step TimerSafe (fun _ e hc => hc.step e) c h es

end TimerSafe

/-- **The timer has its hop.** Whatever happens, and in whatever order: while the handshake timer
runs a hop is queued, so that a timeout finds the hop it was started for, as `handshakeTimeout`
asserts. -/
theorem timer_has_hop (es : List (Env × Event)) :
    (run {} es).TimerSafe ∧
      ∀ (fs gs : List (Env × Event)) (env : Env), es = fs ++ (env, .handshakeTimeout) :: gs →
        (run {} fs).handshakeTimer → ∃ hop rest, (run {} fs).activationQueue = hop :: rest := by
  have hsafe (fs : List (Env × Event)) : (run {} fs).TimerSafe :=
    TimerSafe.run (TimerSafe.of_stopped rfl) fs
  refine ⟨hsafe es, fun fs gs env _ ht => ?_⟩
  exact List.exists_cons_of_ne_nil (hsafe fs ht)

/-- A client user asks for a connection, and the handshake takes too long. -/
def lateHandshake : List (Env × Event) :=
  [(availableEnv, .initializeController),
   (availableEnv, .implInitialized true false),
   (availableEnv, .activate {} .clientUser .randomizeServerSelection)]

/-- The timer runs when it fires for this activation. -/
theorem timer_has_hop_lateHandshake :
    (run {} lateHandshake).handshakeTimer ∧
      (∃ hop rest, (run {} lateHandshake).activationQueue = hop :: rest) ∧
      (run {} (lateHandshake ++ [(availableEnv, .handshakeTimeout)])).TimerSafe := by
  have hrun : (run {} lateHandshake).handshakeTimer := by decide
  have h := timer_has_hop (lateHandshake ++ [(availableEnv, .handshakeTimeout)])
  exact ⟨hrun, h.2 lateHandshake [] availableEnv rfl hrun, h.1⟩

/-! ## Sessions -/

/-- Whether the implementation has an activation to undo after a call. -/
def Output.outstanding (b : Bool) : Output → Bool
  | .implActivate .. => true
  | .implDeactivate => false
  | _ => b

/-- Whether it has one after the calls of an event. -/
def outstandingAfter (b : Bool) (out : List Output) : Bool := out.foldl Output.outstanding b

@[simp] theorem outstandingAfter_nil (b : Bool) : outstandingAfter b [] = b := rfl

@[simp] theorem outstandingAfter_cons (b : Bool) (o : Output) (out : List Output) :
    outstandingAfter b (o :: out) = outstandingAfter (o.outstanding b) out := rfl

@[simp] theorem outstandingAfter_append (b : Bool) (out out' : List Output) :
    outstandingAfter b (out ++ out') = outstandingAfter (outstandingAfter b out) out' :=
  List.foldl_append

@[simp] theorem outstandingAfter_changed (b : Bool) (c : Controller) (s : State) :
    outstandingAfter b (c.changed s) = b := by
  unfold changed
  split_ifs <;> rfl

/-- The controller, and whether an activation was submitted to the implementation that neither a
`deactivate` call nor a `disconnected` signal has followed. -/
structure Session where
  controller : Controller := {}
  outstanding : Bool := false

namespace Session

def step (s : Session) (e : Env × Event) : Session :=
  let c := s.controller.step e
  { controller := c
    outstanding :=
      outstandingAfter (if e.2 = .disconnected then false else s.outstanding) c.out }

/-- Nothing is up or coming up. -/
structure Quiet (s : Session) : Prop where
  queue : s.controller.activationQueue = []
  timer : s.controller.handshakeTimer = false
  outstanding : s.outstanding = false

/-- `quit` or `updateRequired` is answered at once. -/
def answersAtOnce (c : Controller) : Bool :=
  c.resetOut.quit.out.contains .readyToQuit ||
    c.resetOut.updateRequired.out.contains .readyToUpdate

/-- An initialised controller that is off, or that lets the program quit or update at once, is
quiet. -/
structure OffMeansOff (s : Session) : Prop where
  off : s.controller.state = .off → s.Quiet
  answers : s.controller.isInitialized → answersAtOnce s.controller → s.Quiet

/-- The servers and the device for a connection are there. -/
def canConnect (env : Env) (policy : ServerSelectionPolicy) (data : ServerData) : Bool :=
  !serverMissing env policy data && env.currentDevice.isSome

/-- The events that keep the promise. The state becomes `off` without a `disconnected` signal only
when all is quiet, and an activation for the extension finds the controller off only when it
fails. -/
def KeepsOff (s : Session) (e : Env × Event) : Prop :=
  match e.2 with
  | .implInitialized status connected => (status && connected) = false → s.Quiet
  | .deactivate user =>
    s.controller.initiator.rank ≤ user.rank → s.controller.neverConnected → s.Quiet
  | .quit => s.controller.neverConnected → s.Quiet
  | .handshakeTimeout =>
    s.controller.handshakeTimer → e.1.hasProfiles = false → s.controller.nextStep.leaves →
      s.controller.neverConnected = false
  | .activate data initiator policy =>
    s.controller.state = .off → s.controller.portalDetected = false →
      initiator = .extensionUser → canConnect e.1 policy data = false
  | .activateConfig _ initiator =>
    s.controller.state = .off → initiator = .extensionUser →
      (s.controller.hasImpl && s.controller.backendAvailable) = false
  | .disconnected =>
    s.controller.state = .off → s.controller.nextStep = .reconnect →
      s.controller.initiator = .extensionUser →
      canConnect e.1 .randomizeServerSelection s.controller.nextServerData = false
  | _ => True

theorem not_mem_out_deactivate {c : Controller} {o : Output} (hout : c.out = [])
    (ho : o = .readyToQuit ∨ o = .readyToUpdate) : o ∉ (c.deactivate .clientUser).1.out := by
  obtain ⟨-, h⟩ | ⟨-, h⟩ | ⟨-, -, h⟩ := c.deactivate_clientUser_cases <;> rw [h]
  · rw [setState_eq]
    unfold changed
    rcases ho with rfl | rfl <;> split_ifs <;> simp [hout]
  · simp [hout]
  · rw [tearDown_eq]
    unfold changed
    rcases ho with rfl | rfl <;> split_ifs <;> simp [hout]

/-- The program may quit or update at once when the controller is not active. -/
theorem isActive_of_answersAtOnce {c : Controller} (h : answersAtOnce c) : c.isActive = false := by
  unfold answersAtOnce at h
  rw [Bool.or_eq_true, List.contains_iff_mem, List.contains_iff_mem] at h
  rcases h with h | h
  · obtain ⟨ha, -⟩ | ⟨-, hq⟩ | ⟨-, -, hq⟩ := c.resetOut.quit_cases
    · exact ha
    · simp [hq] at h
    · rw [hq] at h
      exact absurd h (not_mem_out_deactivate rfl (Or.inl rfl))
  · obtain ⟨ha, -⟩ | ⟨-, -, -, hu⟩ | ⟨-, hu⟩ := c.resetOut.updateRequired_cases
    · exact ha
    · simp [hu] at h
    · rw [hu] at h
      exact absurd h (not_mem_out_deactivate rfl (Or.inr rfl))

variable {s : Session}

theorem submit_eq_off (c : Controller) (config : InterfaceConfig) :
    (c.submit config).state = .off ↔ c.state = .off ∧ c.initiator = .extensionUser := by
  rw [submit_eq]
  by_cases hi : c.initiator = .extensionUser
  · simp [hi]
  · by_cases hs : c.inSwitch
    · have hne : c.state ≠ .off := by
        intro h
        simp [inSwitch, h] at hs
      simp [hs, hne]
    · simp [hi, hs]

theorem offMeansOff_iff : s.OffMeansOff ↔ (s.controller.state = .off → s.Quiet) := by
  refine ⟨fun h => h.off, fun h => ⟨h, fun hi ha => h ?_⟩⟩
  have hactive := isActive_of_answersAtOnce ha
  unfold isInitialized at hi
  unfold isActive at hactive
  cases hs : s.controller.state <;> simp_all [State.rank, State.ctorIdx]

theorem OffMeansOff.of_ne (h : s.controller.state ≠ .off) : s.OffMeansOff :=
  offMeansOff_iff.mpr fun h' => absurd h' h

/-- An activation keeps the promise unless it is for the extension, finds the controller off, and
succeeds. -/
theorem offMeansOff_activateInternal {c : Controller} {env : Env} {dnsPort : DNSPortPolicy}
    {policy : ServerSelectionPolicy} {initiator : ActivationPrincipal} {b : Bool}
    (hc : s.controller = activateInternal env dnsPort policy initiator c)
    (ho : s.outstanding = outstandingAfter b s.controller.out)
    (hb : c.state = .off → outstandingAfter b c.out = false) :
    s.OffMeansOff ↔
      (c.state = .off → initiator = .extensionUser →
        canConnect env policy c.serverData = false) := by
  obtain ⟨hm, h⟩ | ⟨hm, hd, h⟩ | ⟨hm, hd, first, rest, -, h⟩ :=
    c.activateInternal_cases env dnsPort policy initiator
  · refine ⟨fun _ _ _ => by simp [canConnect, hm], fun _ => OffMeansOff.of_ne ?_⟩
    rw [hc, h, serverUnavailable_eq]
    simp
  · refine ⟨fun _ _ _ => by simp [canConnect, hd], fun _ => offMeansOff_iff.mpr fun hoff => ?_⟩
    rw [hc, h] at hoff
    refine ⟨by rw [hc, h]; rfl, by rw [hc, h]; rfl, ?_⟩
    rw [ho, hc, h]
    exact hb hoff
  · have hcan : canConnect env policy c.serverData = true := by simp [canConnect, hm, hd]
    have hqueue : s.controller.activationQueue ≠ [] := by
      rw [hc, h, submit_eq]
      exact List.cons_ne_nil _ _
    have hstate : s.controller.state = .off ↔ c.state = .off ∧ initiator = .extensionUser := by
      rw [hc, h]
      exact submit_eq_off _ _
    rw [offMeansOff_iff, hstate, hcan]
    refine ⟨fun hq hs hi => absurd (hq ⟨hs, hi⟩).queue hqueue, fun hno hoff => ?_⟩
    exact absurd (hno hoff.1 hoff.2) (by simp)

/-- What holds after every event of a run that keeps the promise. -/
structure Inv (s : Session) : Prop where
  off : s.OffMeansOff
  timer : s.controller.TimerSafe

/-- An event that leaves the state, the queue and the timer alone, and neither activates nor
deactivates. -/
theorem OffMeansOff.of_same (h : s.OffMeansOff) {e : Env × Event} (he : e.2 ≠ .disconnected)
    {d : Controller} (hc : s.controller.step e = d) (hs : d.state = s.controller.state)
    (hq : d.activationQueue = s.controller.activationQueue)
    (ht : d.handshakeTimer = s.controller.handshakeTimer)
    (ho : ∀ b, outstandingAfter b d.out = b) : (s.step e).OffMeansOff := by
  subst hc
  refine offMeansOff_iff.mpr fun hoff => ?_
  have hquiet := h.off (hs ▸ hoff)
  refine ⟨hq.trans hquiet.queue, ht.trans hquiet.timer, ?_⟩
  simp only [step, he, if_false, ho]
  exact hquiet.outstanding

/-- An event that only sets the state to `off` must find the session quiet. -/
theorem offMeansOff_iff_quiet {e : Env × Event} (he : e.2 ≠ .disconnected)
    (hs : (s.controller.step e).state = .off)
    (hq : (s.controller.step e).activationQueue = s.controller.activationQueue)
    (ht : (s.controller.step e).handshakeTimer = s.controller.handshakeTimer)
    (ho : ∀ b, outstandingAfter b (s.controller.step e).out = b) :
    (s.step e).OffMeansOff ↔ s.Quiet := by
  have hout : (s.step e).outstanding = s.outstanding := by simp only [step, he, if_false, ho]
  rw [offMeansOff_iff]
  constructor
  · intro h
    obtain ⟨hq', ht', ho'⟩ := h hs
    exact ⟨hq.symm.trans hq', ht.symm.trans ht', hout.symm.trans ho'⟩
  · intro h _
    exact ⟨hq.trans h.queue, ht.trans h.timer, hout.trans h.outstanding⟩

theorem tearDown_ne_off (c : Controller) : c.tearDown.state ≠ .off := by
  rw [tearDown_eq]
  by_cases h : c.inSwitch
  · intro hs
    simp only [h, if_true] at hs
    simp [inSwitch, hs] at h
  · simp [h]

theorem connectionUp_ne_off (c : Controller) : c.connectionUp.state ≠ .off := by
  rw [connectionUp_eq]
  split_ifs
  · exact tearDown_ne_off _
  · obtain h | h := c.upState_eq_or <;> simp [up, h]

theorem of_step_ne {e : Env × Event} (h : (s.controller.step e).state ≠ .off) :
    (s.step e).OffMeansOff :=
  OffMeansOff.of_ne h

theorem step_connected (h : s.Inv) (env : Env) (pubkey : QString) :
    (s.step (env, .connected pubkey)).OffMeansOff := by
  have hstep : s.controller.step (env, .connected pubkey) =
      s.controller.resetOut.connected env pubkey := rfl
  obtain ⟨-, hc⟩ | ⟨-, -, hc⟩ | ⟨hop, -, -, hc⟩ | ⟨hop, next, rest, hq, -, hc⟩ :=
    s.controller.resetOut.connected_cases env pubkey
  · exact h.off.of_same (by simp) (hstep.trans hc) rfl rfl rfl fun _ => rfl
  · refine of_step_ne ?_
    rw [hstep, hc]
    exact connectionUp_ne_off _
  · refine of_step_ne ?_
    rw [hstep, hc]
    exact connectionUp_ne_off _
  · -- with a hop queued the controller is not off, and another hop does not turn it off
    have hne : s.controller.state ≠ .off := fun hoff => by
      rw [resetOut_activationQueue, (h.off.off hoff).queue] at hq
      cases hq
    refine of_step_ne ?_
    rw [hstep]
    rcases hc with hc | hc <;> rw [hc]
    · exact hne
    · rw [ne_eq, submit_eq_off]
      exact fun h => hne h.1

theorem step_disconnected (s : Session) (env : Env) :
    (s.step (env, .disconnected)).OffMeansOff ↔ s.KeepsOff (env, .disconnected) := by
  have hstep : s.controller.step (env, .disconnected) =
      s.controller.resetOut.disconnected env := rfl
  have hquiet {c : Controller} (hc : s.controller.resetOut.disconnected env = c.setState .off)
      (hq : c.activationQueue = []) (ht : c.handshakeTimer = false)
      (ho : outstandingAfter false c.out = false) : (s.step (env, .disconnected)).OffMeansOff := by
    refine offMeansOff_iff.mpr fun _ => ⟨?_, ?_, ?_⟩
    · change (s.controller.step _).activationQueue = []
      rw [hstep, hc, setState_eq]
      exact hq
    · change (s.controller.step _).handshakeTimer = false
      rw [hstep, hc, setState_eq]
      exact ht
    · change outstandingAfter _ (s.controller.step _).out = false
      rw [hstep, hc, setState_eq]
      simp [ho]
  have hkeeps (hn : s.controller.nextStep ≠ .reconnect) : s.KeepsOff (env, .disconnected) :=
    fun _ h => absurd h hn
  obtain ⟨hn, hc⟩ | ⟨hn, hc⟩ | ⟨hn, hc⟩ | ⟨hn, hc⟩ :=
    s.controller.resetOut.disconnected_cases env
  · rw [resetOut_nextStep] at hn
    exact iff_of_true (hquiet hc rfl rfl rfl) (hkeeps (by simp [hn]))
  · rw [resetOut_nextStep] at hn
    exact iff_of_true (hquiet hc rfl rfl rfl) (hkeeps (by simp [hn]))
  · rw [resetOut_nextStep] at hn
    rw [offMeansOff_activateInternal (b := false) (s := s.step (env, .disconnected)) hc rfl
      fun _ => rfl]
    simp only [KeepsOff, hn, true_implies]
    rfl
  · rw [resetOut_nextStep] at hn
    refine iff_of_true (hquiet hc rfl rfl rfl) (hkeeps ?_)
    rcases hn with hn | hn <;> simp [hn]

/-- A `deactivate` by the client user that was not asked for by an event of its own. -/
theorem offMeansOff_deactivate {e : Env × Event} {c : Controller} (he : e.2 ≠ .disconnected)
    (hc : s.controller.step e = (deactivate .clientUser c).1) (hs : c.state = s.controller.state)
    (herr : c.errorCode = s.controller.errorCode)
    (hq : c.activationQueue = s.controller.activationQueue)
    (ht : c.handshakeTimer = s.controller.handshakeTimer) (hout : c.out = [])
    (hactive : s.controller.isActive) :
    (s.step e).OffMeansOff ↔ (s.controller.neverConnected → s.Quiet) := by
  have hnever : c.neverConnected = s.controller.neverConnected := by
    rw [neverConnected, neverConnected, hs, herr]
  have hact : c.isActive = s.controller.isActive := by rw [isActive, isActive, hs]
  obtain ⟨hn, hd⟩ | ⟨ha, -⟩ | ⟨-, hn, hd⟩ := c.deactivate_clientUser_cases
  · rw [hnever] at hn
    rw [offMeansOff_iff_quiet he]
    · exact ⟨fun h _ => h, fun h => h hn⟩
    all_goals rw [hc, hd, setState_eq]
    · exact hq
    · exact ht
    · intro b
      simp [hout]
  · rw [hact, hactive] at ha
    cases ha
  · rw [hnever] at hn
    refine iff_of_true (of_step_ne ?_) (fun h => by rw [hn] at h; cases h)
    rw [hc, hd]
    exact tearDown_ne_off c

theorem neverConnected_of_not_isActive {c : Controller} (h : c.isActive = false) :
    c.neverConnected = false := by
  unfold isActive at h
  unfold neverConnected
  cases hs : c.state <;> simp_all [State.rank, State.ctorIdx]

theorem step_deactivate (h : s.Inv) (env : Env) (user : ActivationPrincipal) :
    (s.step (env, .deactivate user)).OffMeansOff ↔ s.KeepsOff (env, .deactivate user) := by
  have hstep : s.controller.step (env, .deactivate user) =
      (s.controller.resetOut.deactivate user).1 := rfl
  have hsame (hd : s.controller.resetOut.deactivate user = (s.controller.resetOut, false)) :
      (s.step (env, .deactivate user)).OffMeansOff := by
    exact h.off.of_same (by simp) (hstep.trans (congrArg Prod.fst hd)) rfl rfl rfl fun _ => rfl
  obtain ⟨hr, hd⟩ | ⟨hn, hd⟩ | ⟨ha, hd⟩ | ⟨-, hn, hd⟩ :=
    s.controller.resetOut.deactivate_cases user
  · refine iff_of_true (hsame hd) fun hle => ?_
    exact absurd hr (Nat.not_lt.mpr hle)
  · have hr : s.controller.initiator.rank ≤ user.rank :=
      rank_le_of_deactivate (c := s.controller.resetOut) (by rw [hd])
    rw [offMeansOff_iff_quiet (by simp)]
    · exact ⟨fun hq _ _ => hq, fun hq => hq hr hn⟩
    all_goals rw [hstep, hd, setState_eq]
    · rfl
    · rfl
    · intro b
      simp
  · refine iff_of_true (hsame hd) fun _ hn => ?_
    have hn' : s.controller.neverConnected = false := neverConnected_of_not_isActive ha
    rw [hn'] at hn
    cases hn
  · refine iff_of_true (of_step_ne ?_) fun _ hn' => ?_
    · rw [hstep, hd]
      exact tearDown_ne_off _
    · have hn : s.controller.neverConnected = false := hn
      rw [hn] at hn'
      cases hn'

theorem step_quit (h : s.Inv) (env : Env) :
    (s.step (env, .quit)).OffMeansOff ↔ s.KeepsOff (env, .quit) := by
  have hstep : s.controller.step (env, .quit) = s.controller.resetOut.quit := rfl
  obtain ⟨ha, hq⟩ | ⟨hs, hq⟩ | ⟨ha, -, hq⟩ := s.controller.resetOut.quit_cases
  · refine iff_of_true ?_ fun hn => ?_
    · exact h.off.of_same (by simp) (hstep.trans hq) rfl rfl rfl fun _ => rfl
    · have hn' : s.controller.neverConnected = false := neverConnected_of_not_isActive ha
      rw [hn'] at hn
      cases hn
  · have hs' : s.controller.state = .disconnecting := hs
    refine iff_of_true (of_step_ne ?_) fun hn => ?_
    · rw [hstep, hq]
      simp [hs']
    · simp [neverConnected, hs'] at hn
  · exact offMeansOff_deactivate (c := { s.controller.resetOut with nextStep := .quit }) (by simp)
      hq rfl rfl rfl rfl rfl ha

theorem step_updateRequired (h : s.Inv) (env : Env) :
    (s.step (env, .updateRequired)).OffMeansOff := by
  have hstep : s.controller.step (env, .updateRequired) =
      s.controller.resetOut.updateRequired := rfl
  obtain ⟨-, hu⟩ | ⟨-, -, -, hu⟩ | ⟨hs, hu⟩ := s.controller.resetOut.updateRequired_cases
  · exact h.off.of_same (by simp) (hstep.trans hu) rfl rfl rfl fun _ => rfl
  · exact h.off.of_same (by simp) (hstep.trans hu) rfl rfl rfl fun _ => rfl
  · have hs' : s.controller.state = .on ∨ s.controller.state = .onPartial := hs
    have ha : s.controller.isActive := by
      rcases hs' with hs' | hs' <;> simp [isActive, hs', State.rank, State.ctorIdx]
    have hn : s.controller.neverConnected = false := by
      rcases hs' with hs' | hs' <;> simp [neverConnected, hs']
    rw [offMeansOff_deactivate (e := (env, .updateRequired)) (by simp) (hstep.trans hu) rfl rfl rfl
      rfl rfl ha, hn]
    exact fun h => by cases h

theorem step_handshakeTimeout (h : s.Inv) (env : Env) :
    (s.step (env, .handshakeTimeout)).OffMeansOff ↔ s.KeepsOff (env, .handshakeTimeout) := by
  have hstep : s.controller.step (env, .handshakeTimeout) =
      s.controller.resetOut.handshakeTimeout env := rfl
  -- while the timer runs a hop is queued, so the controller is not off
  have hne (ht : s.controller.handshakeTimer) : s.controller.state ≠ .off := fun hoff => by
    rw [(h.off.off hoff).timer] at ht
    cases ht
  obtain ⟨ht, hc⟩ | ⟨ht, hp, hc⟩ | ⟨ht, hp, hl, hc⟩ | ⟨ht, hp, hl, -, hc⟩ |
      ⟨ht, hp, hl, -, hc⟩ := s.controller.resetOut.handshakeTimeout_cases env
  · refine iff_of_true ?_ fun ht' => ?_
    · exact h.off.of_same (by simp) (hstep.trans hc) rfl rfl rfl fun _ => rfl
    · have ht : s.controller.handshakeTimer = false := ht
      rw [ht] at ht'
      cases ht'
  · refine iff_of_true (of_step_ne ?_) fun _ hp' => by rw [hp] at hp'; cases hp'
    have hprofile : s.controller.resetOut.profileExpired.state = .connectionError := by
      rw [profileExpired, setState_eq]
    rw [hstep, hc]
    split_ifs
    · exact fun h => by cases hprofile.symm.trans h
    · rw [hprofile]
      decide
  · have ht : s.controller.handshakeTimer = true := ht
    have hl : s.controller.nextStep.leaves = true := hl
    have hnever : s.controller.resetOut.expired.neverConnected = s.controller.neverConnected := rfl
    have hactive : s.controller.resetOut.expired.isActive = s.controller.isActive := rfl
    have hkeeps : s.KeepsOff (env, .handshakeTimeout) ↔ s.controller.neverConnected = false :=
      ⟨fun hk => hk ht hp hl, fun hn _ _ _ => hn⟩
    rw [hkeeps]
    obtain ⟨hn, hd⟩ | ⟨ha, hd⟩ | ⟨-, hn, hd⟩ :=
      s.controller.resetOut.expired.deactivate_clientUser_cases
    · rw [hnever] at hn
      rw [hn]
      refine iff_of_false (fun hoff => ?_) (by simp)
      have hoff' : (s.step (env, .handshakeTimeout)).controller.state = .off := by
        change (s.controller.step _).state = .off
        rw [hstep, hc, hd, setState_eq]
      have hq := (hoff.off hoff').queue
      change (s.controller.step _).activationQueue = [] at hq
      rw [hstep, hc, hd, setState_eq] at hq
      exact h.timer ht hq
    · refine iff_of_true (of_step_ne ?_) (neverConnected_of_not_isActive ha)
      rw [hstep, hc, hd]
      exact hne ht
    · refine iff_of_true (of_step_ne ?_) hn
      rw [hstep, hc, hd]
      exact tearDown_ne_off _
  · refine iff_of_true ?_ fun _ _ hl' => absurd (hl'.symm.trans hl) (by simp)
    rw [offMeansOff_activateInternal (s := s.step (env, .handshakeTimeout)) hc rfl]
    · exact fun hoff => absurd hoff (hne ht)
    · exact fun hoff => absurd hoff (hne ht)
  · refine iff_of_true (of_step_ne ?_) fun _ _ hl' => absurd (hl'.symm.trans hl) (by simp)
    rw [hstep, hc, serverUnavailable_eq]
    simp

theorem step_activate (h : s.Inv) (env : Env) (data : ServerData)
    (initiator : ActivationPrincipal) (policy : ServerSelectionPolicy) :
    (s.step (env, .activate data initiator policy)).OffMeansOff ↔
      s.KeepsOff (env, .activate data initiator policy) := by
  have hstep : s.controller.step (env, .activate data initiator policy) =
      (s.controller.resetOut.activate env data initiator policy).1 := rfl
  obtain ⟨ha, hc⟩ | ⟨-, hp, hc⟩ | ⟨-, hp, hc⟩ :=
    s.controller.resetOut.activate_cases env data initiator policy
  · refine iff_of_true ?_ fun hoff => ?_
    · exact h.off.of_same (by simp) (hstep.trans (congrArg Prod.fst hc)) rfl rfl rfl fun _ => rfl
    · simp [acceptsActivation, hoff] at ha
  · refine iff_of_true ?_ fun _ hp' => absurd (hp'.symm.trans hp) (by simp)
    exact h.off.of_same (by simp) (hstep.trans (congrArg Prod.fst hc)) rfl rfl rfl fun _ => rfl
  · have hc' : (s.step (env, .activate data initiator policy)).controller =
        activateInternal env .doNotForceDNSPort policy initiator
          (s.controller.resetOut.accepted data initiator) :=
      hstep.trans (by rw [hc])
    have hstate : (s.controller.resetOut.accepted data initiator).state = .off ↔
        s.controller.state = .off ∧ initiator = .extensionUser := by
      rw [accepted_eq]
      by_cases hi : initiator = .extensionUser <;> simp [hi]
    have hdata : (s.controller.resetOut.accepted data initiator).serverData = data := by
      rw [accepted_eq]
    rw [offMeansOff_activateInternal hc' rfl, hstate, hdata]
    · refine ⟨fun hk hoff _ hi => hk ⟨hoff, hi⟩ hi, fun hk hoff hi => hk hoff.1 ?_ hi⟩
      have hp' : ¬ (s.controller.state = .off ∧ s.controller.portalDetected = true) := hp
      simpa [hoff.1] using hp'
    · intro hoff
      obtain ⟨hoff, hi⟩ := hstate.mp hoff
      rw [accepted_eq]
      simp [hi, (h.off.off hoff).outstanding]

theorem step_activateConfig (h : s.Inv) (env : Env) (config : InterfaceConfig)
    (initiator : ActivationPrincipal) :
    (s.step (env, .activateConfig config initiator)).OffMeansOff ↔
      s.KeepsOff (env, .activateConfig config initiator) := by
  have hstep : s.controller.step (env, .activateConfig config initiator) =
      (s.controller.resetOut.activateConfig env config initiator).1 := rfl
  -- with the profile queued the controller must not be off
  have hqueued (hb : (s.controller.hasImpl && s.controller.backendAvailable) = true)
      {d : Controller} (hd : s.controller.step (env, .activateConfig config initiator) = d)
      (hq : d.activationQueue ≠ [])
      (hs : d.state = .off ↔ s.controller.state = .off ∧ initiator = .extensionUser) :
      (s.step (env, .activateConfig config initiator)).OffMeansOff ↔
        s.KeepsOff (env, .activateConfig config initiator) := by
    have hs' : (s.step (env, .activateConfig config initiator)).controller.state = .off ↔
        s.controller.state = .off ∧ initiator = .extensionUser := by
      rw [← hs, ← hd]
      rfl
    have hq' :
        (s.step (env, .activateConfig config initiator)).controller.activationQueue ≠ [] := by
      rw [← hd] at hq
      exact hq
    rw [offMeansOff_iff, hs']
    refine ⟨fun hk hoff hi => absurd (hk ⟨hoff, hi⟩).queue hq', fun hk hoff => ?_⟩
    exact absurd ((hk hoff.1 hoff.2).symm.trans hb) (by simp)
  have hstate (config' : InterfaceConfig) :
      (s.controller.resetOut.profileQueued config' initiator).state = .off ↔
        s.controller.state = .off ∧ initiator = .extensionUser := by
    change (s.controller.resetOut.accepted _ initiator).state = .off ↔ _
    rw [accepted_eq]
    by_cases hi : initiator = .extensionUser <;> simp [hi]
  obtain ⟨ha, hc⟩ | ⟨-, hb, hc⟩ | ⟨-, hb, -, -, hc⟩ | ⟨-, hb, -, hc⟩ :=
    s.controller.resetOut.activateConfig_cases env config initiator
  · refine iff_of_true ?_ fun hoff => ?_
    · exact h.off.of_same (by simp) (hstep.trans (congrArg Prod.fst hc)) rfl rfl rfl fun _ => rfl
    · simp [acceptsActivation, hoff] at ha
  · refine iff_of_true (of_step_ne ?_) fun _ _ => hb
    rw [hstep, hc, setState_eq]
    simp
  · have hd : s.controller.step (env, .activateConfig config initiator) =
        (s.controller.resetOut.profileQueued (localConfig env config) initiator).emit .vpnReset :=
      hstep.trans (by rw [hc])
    exact hqueued hb hd (List.cons_ne_nil _ _) (hstate (localConfig env config))
  · refine hqueued hb (hstep.trans (by rw [hc])) ?_ ?_
    · rw [submit_eq]
      exact List.cons_ne_nil _ _
    · rw [submit_eq_off, hstate]
      exact and_iff_left_of_imp fun hoff => hoff.2

theorem activateInternal_ne_off {c : Controller} (env : Env) (dnsPort : DNSPortPolicy)
    (policy : ServerSelectionPolicy) (initiator : ActivationPrincipal) (h : c.state ≠ .off) :
    (activateInternal env dnsPort policy initiator c).state ≠ .off := by
  obtain ⟨-, ha⟩ | ⟨-, -, ha⟩ | ⟨-, -, first, rest, -, ha⟩ :=
    c.activateInternal_cases env dnsPort policy initiator <;> rw [ha]
  · rw [serverUnavailable_eq]
    simp
  · exact h
  · rw [ne_eq, submit_eq_off]
    exact fun hoff => h hoff.1

theorem step_switchServers (h : s.Inv) (env : Env) (data : ServerData) :
    (s.step (env, .switchServers data)).OffMeansOff := by
  have hstep : s.controller.step (env, .switchServers data) =
      (s.controller.resetOut.switchServers env data).1 := rfl
  have hstate : (s.controller.resetOut.switchAccepted data).state = .connecting ∨
      (s.controller.resetOut.switchAccepted data).state = .switching := by
    rw [switchAccepted_eq]
    by_cases hs : s.controller.state = .connecting <;> simp [hs]
  obtain ⟨-, hc⟩ | ⟨-, -, hc⟩ | ⟨-, -, hc⟩ := s.controller.resetOut.switchServers_cases env data
  · exact h.off.of_same (by simp) (hstep.trans (congrArg Prod.fst hc)) rfl rfl rfl fun _ => rfl
  · refine of_step_ne ?_
    rw [hstep, hc]
    obtain ⟨hn, -⟩ | ⟨ha, -⟩ | ⟨-, -, hd⟩ := ({ s.controller.resetOut.switchAccepted data with
        nextStep := .reconnect } : Controller).deactivate_clientUser_cases
    · rcases hstate with hs | hs <;> simp [neverConnected, hs] at hn
    · rcases hstate with hs | hs <;> simp [isActive, hs, State.rank, State.ctorIdx] at ha
    · rw [hd]
      exact tearDown_ne_off _
  · refine of_step_ne ?_
    rw [hstep, hc]
    refine activateInternal_ne_off _ _ _ _ ?_
    rcases hstate with hs | hs <;> simp [hs]

theorem step_silentSwitchServers (h : s.Inv) (env : Env) (policy : ServerCoolDownPolicy) :
    (s.step (env, .silentSwitchServers policy)).OffMeansOff := by
  have hstep : s.controller.step (env, .silentSwitchServers policy) =
      (s.controller.resetOut.silentSwitchServers env policy).1 := rfl
  obtain hc | ⟨-, -, hc⟩ := s.controller.resetOut.silentSwitchServers_cases env policy
  · exact h.off.of_same (by simp) (hstep.trans (congrArg Prod.fst hc)) rfl rfl rfl fun _ => rfl
  · refine of_step_ne ?_
    rw [hstep, hc]
    refine activateInternal_ne_off _ _ _ _ ?_
    rw [silentSwitchAccepted_eq]
    simp

theorem step_implInitialized (env : Env) (status connected : Bool) :
    (s.step (env, .implInitialized status connected)).OffMeansOff ↔
      s.KeepsOff (env, .implInitialized status connected) := by
  have hstep : s.controller.step (env, .implInitialized status connected) =
      ({ s.controller.resetOut with backendAvailable := status } : Controller).setState
        (if status && connected then .on else .off) :=
    implInitialized_eq _ status connected
  cases hb : status && connected with
  | true =>
    refine iff_of_true (of_step_ne ?_) fun hb' => absurd (hb.symm.trans hb') (by simp)
    rw [hstep, setState_eq]
    simp [hb]
  | false =>
    rw [offMeansOff_iff_quiet (by simp)]
    · exact ⟨fun hq _ => hq, fun hq => hq hb⟩
    all_goals rw [hstep, setState_eq]
    · simp [hb]
    · rfl
    · rfl
    · intro b
      simp

/-- **The step.** An event keeps the promise just when it meets the condition. -/
theorem step_iff (h : s.Inv) (e : Env × Event) : (s.step e).OffMeansOff ↔ s.KeepsOff e := by
  obtain ⟨env, e⟩ := e
  cases e with
  | initializeController =>
    refine iff_of_true (of_step_ne ?_) trivial
    change (s.controller.resetOut.setState .initializing).state ≠ .off
    simp [setState_eq]
  | implPermRequired =>
    refine iff_of_true (of_step_ne ?_) trivial
    change (setState _ .permissionRequired).state ≠ .off
    simp [setState_eq]
  | implInitialized status connected => exact step_implInitialized env status connected
  | connected pubkey => exact iff_of_true (step_connected h env pubkey) trivial
  | disconnected => exact step_disconnected s env
  | backendFailure code =>
    exact iff_of_true (h.off.of_same (by simp) rfl rfl rfl rfl fun _ => rfl) trivial
  | handshakeTimeout => exact step_handshakeTimeout h env
  | pingSentAndReceived =>
    refine iff_of_true (h.off.of_same (by simp) rfl ?_ ?_ ?_ fun b => ?_) trivial <;>
      simp only [Controller.step, handle, pingSentAndReceived] <;> split_ifs <;> rfl
  | activate data initiator policy => exact step_activate h env data initiator policy
  | activateConfig config initiator => exact step_activateConfig h env config initiator
  | deactivate user => exact step_deactivate h env user
  | switchServers data => exact iff_of_true (step_switchServers h env data) trivial
  | silentSwitchServers policy => exact iff_of_true (step_silentSwitchServers h env policy) trivial
  | quit => exact step_quit h env
  | updateRequired => exact iff_of_true (step_updateRequired h env) trivial
  | serverUnavailable =>
    refine iff_of_true (of_step_ne ?_) trivial
    change s.controller.resetOut.serverUnavailable.state ≠ .off
    simp [serverUnavailable_eq]
  | startKeyRegeneration =>
    refine iff_of_true (of_step_ne ?_) trivial
    change (setState _ .regeneratingKey).state ≠ .off
    simp [setState_eq]
  | deleteOSTunnelConfig =>
    refine iff_of_true (of_step_ne ?_) trivial
    change (setState _ .initializing).state ≠ .off
    simp [setState_eq]
  | captivePortalPresent =>
    exact iff_of_true (h.off.of_same (by simp) rfl rfl rfl rfl fun _ => rfl) trivial
  | captivePortalGone =>
    exact iff_of_true (h.off.of_same (by simp) rfl rfl rfl rfl fun _ => rfl) trivial

theorem inv_initial : Inv {} where
  off := OffMeansOff.of_ne (by decide)
  timer := TimerSafe.of_stopped rfl

/-- **When off means off.** The runs in which the controller is idle whenever it says that it is off
are those whose events all keep the promise. -/
theorem offMeansOff_forall_iff (es : List (Env × Event)) :
    (∀ n, ((es.take n).foldl step {}).OffMeansOff) ↔ Runs.Guarded step KeepsOff {} es :=
  @Runs.forall_take_iff_guarded _ _ step KeepsOff Inv OffMeansOff
    (fun _ e h hk => ⟨(step_iff h e).mpr hk, h.timer.step e⟩) (fun _ h => h.off)
    (fun _ e h hk hoff => hk ((step_iff h e).mp hoff)) _ inv_initial es

/-- The extension asks for a connection while the VPN is off. -/
def extensionActivation : List (Env × Event) :=
  [(availableEnv, .initializeController),
   (availableEnv, .implInitialized true false),
   (availableEnv, .activate {} .extensionUser .randomizeServerSelection)]

/-- The connection that the extension asked for is coming up while the state is `off`. -/
theorem not_forall_offMeansOff :
    ¬ ∀ (es : List (Env × Event)) (n : ℕ), ((es.take n).foldl step {}).OffMeansOff := by
  intro h
  have hoff : ((extensionActivation.take 3).foldl step {}).controller.state = .off := by decide
  have hrun : ((extensionActivation.take 3).foldl step {}).outstanding = true := by decide
  rw [((h extensionActivation 3).off hoff).outstanding] at hrun
  cases hrun

end Session

end Controller

end WgDesktop
