import WgDesktop.Client.Controller

/-!
# After a disconnect

What can still bring the tunnel up once the user has disconnected. `deactivate` drops the queued
hops and the handshake timer, but a reconnect that a server switch recorded stays in `m_nextStep`,
the early return after a missing server drops nothing, and a late handshake of the exit server is
taken for an activation from outside.
-/

namespace WgDesktop

namespace Controller

/-- The requests that ask for a new connection. -/
def Event.connects : Event → Bool
  | .activate .. | .activateConfig .. | .switchServers .. | .silentSwitchServers .. => true
  | _ => false

/-! ## A disconnect that stays -/

/-- Whatever happens but a request to connect, nothing is submitted to the implementation, and a
`disconnected` signal, the next one among them, leads to `off`. -/
def Final (c : Controller) : Prop :=
  ∀ (es : List (Env × Event)) (e : Env × Event), (∀ e' ∈ es ++ [e], e'.2.connects = false) →
    submissions (run c (es ++ [e])).out = [] ∧
      (e.2 = .disconnected → (run c (es ++ [e])).state = .off)

/-- Nothing is left that could start a connection: no reconnect is due, no further hop is queued,
and the handshake timer does not retry when it fires. -/
structure Settled (c : Controller) : Prop where
  nextStep : c.nextStep ≠ .reconnect
  queue : c.activationQueue.length ≤ 1
  timer : c.handshakeTimer → c.nextStep.leaves ∨ connectionMaxRetry ≤ c.connectionRetry + 1

namespace Settled

variable {c : Controller}

theorem of_eq {d : Controller} (h : c.Settled) (hn : d.nextStep = c.nextStep)
    (hq : d.activationQueue = c.activationQueue) (ht : d.handshakeTimer = c.handshakeTimer)
    (hr : d.connectionRetry = c.connectionRetry) : d.Settled :=
  ⟨hn ▸ h.nextStep, hq ▸ h.queue, by rw [hn, ht, hr]; exact h.timer⟩

theorem setState (h : c.Settled) (s : State) : (c.setState s).Settled := by
  rw [setState_eq]
  exact h.of_eq rfl rfl rfl rfl

theorem of_idle (hn : c.nextStep ≠ .reconnect) (hq : c.activationQueue.length ≤ 1)
    (ht : c.handshakeTimer = false) : c.Settled :=
  ⟨hn, hq, by simp [ht]⟩

theorem tearDown (h : c.nextStep ≠ .reconnect) : c.tearDown.Settled := by
  rw [tearDown_eq]
  exact of_idle h (by simp) rfl

theorem deactivate (h : c.Settled) (user : ActivationPrincipal) :
    (c.deactivate user).1.Settled := by
  obtain ⟨-, hd⟩ | ⟨-, hd⟩ | ⟨-, hd⟩ | ⟨-, -, hd⟩ := c.deactivate_cases user
  · rw [hd]
    exact h
  · rw [hd]
    exact h.setState .off
  · rw [hd]
    exact h
  · rw [hd]
    exact tearDown h.nextStep

theorem connectionUp (hn : c.nextStep ≠ .reconnect) (hq : c.activationQueue.length ≤ 1) :
    c.connectionUp.Settled := by
  rw [connectionUp_eq]
  split_ifs
  · exact tearDown hn
  · exact of_idle hn hq rfl

/-- A recorded wish to leave keeps the timer from retrying. -/
theorem leave {next : NextStep} (h : c.Settled) (hnext : next.leaves = true) :
    ({ c with nextStep := next } : Controller).Settled where
  nextStep := by
    intro hr
    rw [show next = .reconnect from hr] at hnext
    cases hnext
  queue := h.queue
  timer _ := Or.inl hnext

theorem quit (h : c.Settled) : c.quit.Settled := by
  obtain ⟨-, hq⟩ | ⟨-, hq⟩ | ⟨-, -, hq⟩ := c.quit_cases
  · rw [hq]
    exact h.of_eq rfl rfl rfl rfl
  · rw [hq]
    exact h.leave rfl
  · rw [hq]
    exact (h.leave rfl).deactivate .clientUser

theorem updateRequired (h : c.Settled) : c.updateRequired.Settled := by
  obtain ⟨-, hu⟩ | ⟨-, -, -, hu⟩ | ⟨-, hu⟩ := c.updateRequired_cases
  · rw [hu]
    exact h.of_eq rfl rfl rfl rfl
  · rw [hu]
    exact h.leave rfl
  · rw [hu]
    exact (h.leave rfl).deactivate .clientUser

theorem connected (h : c.Settled) (env : Env) (pubkey : QString) :
    (c.connected env pubkey).Settled ∧
      submissions (c.connected env pubkey).out = submissions c.out := by
  obtain ⟨-, hc⟩ | ⟨-, -, hc⟩ | ⟨hop, hq, -, hc⟩ | ⟨hop, next, rest, hq, -⟩ :=
    c.connected_cases env pubkey
  · rw [hc]
    exact ⟨h, rfl⟩
  · rw [hc]
    exact ⟨connectionUp h.nextStep h.queue, submissions_connectionUp c⟩
  · rw [hc]
    exact ⟨connectionUp h.nextStep (by simp), submissions_connectionUp _⟩
  · have := h.queue
    rw [hq] at this
    simp at this

theorem handshakeTimeout (h : c.Settled) (env : Env) :
    (c.handshakeTimeout env).Settled ∧
      submissions (c.handshakeTimeout env).out = submissions c.out := by
  have hexpired : c.expired.Settled := of_idle h.nextStep h.queue rfl
  have hprofile : c.profileExpired.Settled := by
    rw [profileExpired, setState_eq]
    exact of_idle h.nextStep h.queue rfl
  have hout : submissions c.expired.out = submissions c.out := by
    simp [expired, emit, Output.submission]
  have hout' : submissions c.profileExpired.out = submissions c.out := by
    simp [profileExpired, setError]
  obtain ⟨-, ht⟩ | ⟨-, -, ht⟩ | ⟨-, -, -, ht⟩ | ⟨hrun, -, hl, hr, -⟩ | ⟨-, -, -, -, ht⟩ :=
    c.handshakeTimeout_cases env
  · rw [ht]
    exact ⟨h, rfl⟩
  · rw [ht]
    split_ifs
    · exact ⟨hprofile.of_eq rfl rfl rfl rfl, by simp [emit, Output.submission, hout']⟩
    · exact ⟨hprofile, hout'⟩
  · rw [ht]
    exact ⟨hexpired.deactivate .clientUser, by rw [submissions_deactivate, hout]⟩
  · obtain h' | h' := h.timer hrun
    · rw [hl] at h'
      cases h'
    · omega
  · rw [ht]
    refine ⟨?_, by rw [submissions_serverUnavailable]; exact hout⟩
    rw [serverUnavailable_eq]
    exact of_idle h.nextStep h.queue rfl

theorem disconnected (h : c.Settled) (env : Env) :
    (c.disconnected env).Settled ∧ (c.disconnected env).state = .off ∧
      submissions (c.disconnected env).out = submissions c.out := by
  obtain ⟨-, hd⟩ | ⟨-, hd⟩ | ⟨hn, -⟩ | ⟨-, hd⟩ := c.disconnected_cases env
  · rw [hd, setState_eq]
    exact ⟨of_idle (by simp [emit, cleared]) (by simp [emit, cleared]) rfl, rfl,
      by simp [emit, cleared, Output.submission]⟩
  · rw [hd, setState_eq]
    exact ⟨of_idle (by simp [emit, cleared]) (by simp [emit, cleared]) rfl, rfl,
      by simp [emit, cleared, Output.submission]⟩
  · exact absurd hn h.nextStep
  · rw [hd, setState_eq]
    exact ⟨of_idle (by simp [cleared]) (by simp [cleared]) rfl, rfl, by simp [cleared]⟩

/-- What an event that does not ask for a connection preserves and submits. -/
theorem handle (h : c.Settled) (env : Env) {e : Event} (he : e.connects = false) :
    (c.handle env e).Settled ∧ submissions (c.handle env e).out = submissions c.out := by
  by_cases hp : e.isPassive
  · have hs := c.sameAttempt_handle env hp
    exact ⟨h.of_eq hs.nextStep hs.queue hs.timer hs.retry, hs.submissions⟩
  cases e with
  | connected pubkey => exact h.connected env pubkey
  | disconnected => exact ⟨(h.disconnected env).1, (h.disconnected env).2.2⟩
  | handshakeTimeout => exact h.handshakeTimeout env
  | activate | activateConfig | switchServers | silentSwitchServers => cases he
  | deactivate user => exact ⟨h.deactivate user, submissions_deactivate c user⟩
  | quit => exact ⟨h.quit, submissions_quit c⟩
  | updateRequired => exact ⟨h.updateRequired, submissions_updateRequired c⟩
  | _ => exact absurd rfl hp

/-- The start of an event: the outputs of the event before are dropped. -/
theorem start (h : c.Settled) : c.resetOut.Settled :=
  h.of_eq rfl rfl rfl rfl

theorem step (h : c.Settled) {e : Env × Event} (he : e.2.connects = false) :
    (step c e).Settled :=
  (h.start.handle e.1 he).1

theorem run (h : c.Settled) {es : List (Env × Event)} (hes : ∀ e ∈ es, e.2.connects = false) :
    (run c es).Settled := by
  induction es generalizing c with
  | nil => exact h
  | cons e es ih =>
    exact ih (h.step (hes e (by simp))) fun e' he' => hes e' (by simp [he'])

/-- Once nothing is left that could start a connection, none is started. -/
theorem final (h : c.Settled) : c.Final := by
  intro es e hes
  have hrun : (Controller.run c es).Settled := h.run fun e' he' => hes e' (by simp [he'])
  have he : e.2.connects = false := hes e (by simp)
  rw [run_append]
  refine ⟨(hrun.start.handle e.1 he).2, fun hd => ?_⟩
  obtain ⟨env, e⟩ := e
  obtain rfl : e = .disconnected := hd
  exact (hrun.start.disconnected env).2.1

end Settled

section NotFinal

variable {c : Controller}

/-- An event that submits a hop shows that the disconnect was not final. -/
theorem not_final (env : Env) (e : Event) (he : e.connects = false)
    (h : submissions (step c (env, e)).out ≠ []) : ¬ c.Final := by
  intro hf
  have h0 := (hf [] (env, e) (by simpa using he)).1
  exact h h0

theorem not_final_of_reconnect (h : c.nextStep = .reconnect) : ¬ c.Final := by
  refine not_final availableEnv .disconnected rfl ?_
  obtain ⟨hn, -⟩ | ⟨hn, -⟩ | ⟨-, hd⟩ | ⟨hn, -⟩ :=
    c.resetOut.disconnected_cases availableEnv
  · simp [h] at hn
  · simp [h] at hn
  · simp only [step, Controller.handle, hd]
    exact submissions_activateInternal_availableEnv _ _ _
  · simp [h] at hn

theorem not_final_of_queue (h : 1 < c.activationQueue.length) : ¬ c.Final := by
  obtain ⟨hop, next, rest, hq⟩ : ∃ hop next rest, c.activationQueue = hop :: next :: rest := by
    match hq : c.activationQueue with
    | [] => simp [hq] at h
    | [_] => simp [hq] at h
    | hop :: next :: rest => exact ⟨hop, next, rest, rfl⟩
  refine not_final availableEnv (.connected hop.serverPublicKey) rfl ?_
  have hc : step c (availableEnv, .connected hop.serverPublicKey) =
      ({ c with out := [], activationQueue := next :: rest } : Controller).submit next := by
    simp only [step, resetOut, Controller.handle, Controller.connected, hq, QString.beq_iff,
      if_true]
    rfl
  rw [hc]
  simp

theorem not_final_of_timer (ht : c.handshakeTimer) (hl : c.nextStep.leaves = false)
    (hr : c.connectionRetry + 1 < connectionMaxRetry) : ¬ c.Final := by
  refine not_final availableEnv .handshakeTimeout rfl ?_
  obtain ⟨h, -⟩ | ⟨-, h, -⟩ | ⟨-, -, h, -⟩ | ⟨-, -, -, -, h⟩ | ⟨-, -, -, h, -⟩ :=
    c.resetOut.handshakeTimeout_cases availableEnv
  · simp [ht] at h
  · cases h
  · simp [hl] at h
  · simp only [step, Controller.handle, h]
    exact submissions_activateInternal_availableEnv _ _ _
  · simp only [resetOut_connectionRetry] at h
    omega

end NotFinal

/-- Nothing starts a connection for good just when nothing is left that could. -/
theorem final_iff_settled {c : Controller} : c.Final ↔ c.Settled := by
  refine ⟨fun hf => ⟨fun hr => not_final_of_reconnect hr hf, ?_, fun ht => ?_⟩, Settled.final⟩
  · by_contra hq
    exact not_final_of_queue (Nat.lt_of_not_le hq) hf
  · by_contra hr
    rw [not_or, Bool.not_eq_true, Nat.not_le] at hr
    exact not_final_of_timer ht hr.1 hr.2 hf

/-- **When a disconnect is final.** No reconnect may be due, and when `deactivate` returns early
because no server was found, it must leave neither a further hop nor a timer that retries. -/
theorem deactivate_final_iff (c : Controller) (h : (c.deactivate .clientUser).2 = true) :
    (c.deactivate .clientUser).1.Final ↔
      c.nextStep ≠ .reconnect ∧
        (c.neverConnected → c.activationQueue.length ≤ 1 ∧
          (c.handshakeTimer →
            c.nextStep.leaves ∨ connectionMaxRetry ≤ c.connectionRetry + 1)) := by
  rw [final_iff_settled]
  obtain ⟨hn, hd⟩ | ⟨-, hd⟩ | ⟨-, hn, hd⟩ := c.deactivate_clientUser_cases
  · -- the early return: everything but the state is left as it was
    rw [hd, setState_eq]
    exact ⟨fun hs => ⟨hs.nextStep, fun _ => ⟨hs.queue, hs.timer⟩⟩,
      fun hc => ⟨hc.1, (hc.2 hn).1, (hc.2 hn).2⟩⟩
  · rw [hd] at h
    cases h
  · rw [hd, hn]
    refine ⟨fun hs => ⟨?_, fun h => by cases h⟩, fun hc => Settled.tearDown hc.1⟩
    have := hs.nextStep
    rwa [tearDown_eq] at this

/-- The controller is up on a single hop, and a switch to two hops has begun. -/
def hopSwitch : List (Env × Event) :=
  [(availableEnv, .initializeController),
   (availableEnv, .implInitialized true false),
   (availableEnv, .activate { exitCityName := .text "Gothenburg".toList } .clientUser
    .randomizeServerSelection),
   (availableEnv, .connected availableServer.publicKey),
   (availableEnv, .switchServers
    { exitCityName := .text "Gothenburg".toList
      entryCountryCode := .text "no".toList
      entryCityName := .text "Oslo".toList })]

theorem deactivate_final_iff_initial :
    ((run {} (hopSwitch.take 4)).deactivate .clientUser).2 = true ∧
      ((run {} (hopSwitch.take 4)).deactivate .clientUser).1.Final :=
  ⟨by decide, (deactivate_final_iff _ (by decide)).mpr (by decide)⟩

/-- The reconnect of a switch outlives the disconnect. -/
theorem not_forall_reachable_final :
    ¬ ∀ c : Controller, c.Reachable → (c.deactivate .clientUser).2 = true →
      (c.deactivate .clientUser).1.Final := by
  intro h
  have haccepted : ((run {} hopSwitch).deactivate .clientUser).2 = true := by decide
  exact not_final_of_reconnect (by decide) (h _ ⟨hopSwitch, rfl⟩ haccepted)

/-! ## Late handshakes -/

/-- No hop is queued and no handshake is waited for. -/
structure Idle (c : Controller) : Prop where
  queue : c.activationQueue = []
  timer : c.handshakeTimer = false

namespace Idle

variable {c : Controller}

theorem framed : Framed Idle where
  same h hq ht := ⟨hq ▸ h.queue, ht ▸ h.timer⟩
  tearDown c := by
    rw [tearDown_eq]
    exact ⟨rfl, rfl⟩

theorem connected (h : c.Idle) (env : Env) (pubkey : QString) : (c.connected env pubkey).Idle := by
  obtain ⟨-, hc⟩ | ⟨-, -, hc⟩ | ⟨hop, hq, -⟩ | ⟨hop, next, rest, hq, -⟩ :=
    c.connected_cases env pubkey
  · rw [hc]
    exact h
  · rw [hc, connectionUp_eq]
    split_ifs
    · exact framed.tearDown _
    · exact framed.same h rfl h.timer.symm
  · rw [h.queue] at hq
    cases hq
  · rw [h.queue] at hq
    cases hq

/-- An idle controller stays so until it is asked to connect, or reconnects after a disconnect. -/
theorem handle (h : c.Idle) (env : Env) {e : Event} (he : e.connects = false)
    (hd : e ≠ .disconnected) : (c.handle env e).Idle := by
  by_cases hp : e.isPassive
  · exact framed.handle_passive h env hp
  cases e with
  | connected pubkey => exact h.connected env pubkey
  | disconnected => exact absurd rfl hd
  | handshakeTimeout =>
    simp only [Controller.handle, Controller.handshakeTimeout, h.timer]
    exact h
  | activate | activateConfig | switchServers | silentSwitchServers => cases he
  | deactivate user => exact framed.deactivate h user
  | quit => exact framed.quit h
  | updateRequired => exact framed.updateRequired h
  | _ => exact absurd rfl hp

theorem run (h : c.Idle) {es : List (Env × Event)}
    (hes : ∀ e ∈ es, e.2.connects = false ∧ e.2 ≠ .disconnected) : (run c es).Idle := by
  induction es generalizing c with
  | nil => exact h
  | cons e es ih =>
    have he := hes e (by simp)
    have h0 : c.resetOut.Idle := framed.same h rfl rfl
    exact ih (h0.handle e.1 he.1 he.2) fun e' he' => hes e' (by simp [he'])

end Idle

/-- A handshake brings an idle controller up when it is the one of the exit server, and the
controller is not up yet. -/
theorem Idle.cameUp_connected {c : Controller} (h : c.Idle) (env : Env) (pubkey : QString) :
    (step c (env, .connected pubkey)).cameUp ↔
      c.serverData.exitServerPublicKey.chars = pubkey.chars ∧ c.state ≠ c.upState := by
  have hup : c.resetOut.connectionUp.cameUp ↔ c.state ≠ c.upState := by
    rw [connectionUp_eq]
    split_ifs
    · rw [cameUp_tearDown]
      exact cameUp_up _ rfl
    · exact cameUp_up _ rfl
  have hstep : step c (env, .connected pubkey) =
      c.resetOut.connected env pubkey := rfl
  obtain ⟨hk, hc⟩ | ⟨-, hk, hc⟩ | ⟨hop, hq, -⟩ | ⟨hop, next, rest, hq, -⟩ :=
    c.resetOut.connected_cases env pubkey
  · have hk' : c.serverData.exitServerPublicKey.chars ≠ pubkey.chars :=
      (stray_iff_of_nil h.queue).mp hk
    rw [hstep, hc]
    simp [hk', cameUp]
  · rw [hstep, hc, hup]
    exact ⟨fun hs => ⟨hk, hs⟩, fun hs => hs.2⟩
  · simp [h.queue] at hq
  · simp [h.queue] at hq

/-- **When a late handshake does no harm.** After a disconnect the controller comes up again on the
handshake of its exit server, and on no other. -/
theorem connected_after_deactivate_iff (c : Controller) (user : ActivationPrincipal)
    (h : (c.deactivate user).2 = true) (hstate : (c.deactivate user).1.state = .disconnecting)
    (es : List (Env × Event)) (hes : ∀ e ∈ es, e.2.connects = false ∧ e.2 ≠ .disconnected)
    (env : Env) (pubkey : QString) :
    (step (run (c.deactivate user).1 es) (env, .connected pubkey)).cameUp = false ↔
      (run (c.deactivate user).1 es).serverData.exitServerPublicKey.chars ≠ pubkey.chars ∨
        (run (c.deactivate user).1 es).state = (run (c.deactivate user).1 es).upState := by
  have hidle : (c.deactivate user).1.Idle := by
    obtain ⟨-, hd⟩ | ⟨-, hd⟩ | ⟨-, hd⟩ | ⟨-, -, hd⟩ := c.deactivate_cases user
    · rw [hd] at h
      cases h
    · rw [hd, setState_eq] at hstate
      cases hstate
    · rw [hd] at h
      cases h
    · rw [hd]
      exact Idle.framed.tearDown c
  rw [← Bool.not_eq_true, (hidle.run hes).cameUp_connected env pubkey, not_and_or, not_not]

/-- A stray handshake of another server changes nothing. -/
theorem connected_after_deactivate_stray :
    (step (run ((run {} (hopSwitch.take 4)).deactivate .clientUser).1 [])
      (availableEnv, .connected (.text "stray".toList))).cameUp = false :=
  (connected_after_deactivate_iff _ .clientUser (by decide) (by decide) [] (by simp) _ _).mpr
    (Or.inl (by decide))

/-- The handshake of the session that is going down brings the controller up again. -/
theorem not_forall_reachable_down :
    ¬ ∀ c : Controller, c.Reachable → ∀ user, (c.deactivate user).2 = true →
      (c.deactivate user).1.state = .disconnecting → ∀ es : List (Env × Event),
      (∀ e ∈ es, e.2.connects = false ∧ e.2 ≠ .disconnected) → ∀ env pubkey,
      (step (run (c.deactivate user).1 es) (env, .connected pubkey)).cameUp = false := by
  intro h
  have hdown := h (run {} (hopSwitch.take 4)) ⟨_, rfl⟩ .clientUser (by decide) (by decide) []
    (by simp) availableEnv availableServer.publicKey
  exact absurd hdown (by decide)

end Controller

end WgDesktop
