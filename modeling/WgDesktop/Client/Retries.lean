import WgDesktop.Client.Controller

/-!
# Retries

How often the controller tries again when the handshake timer fires. The counter is raised by the
timeout, cleared by the requests and by what ends a connection, and read when the next hops are set
up: the first retry is made over port 53. `Attempts` follows the attempts of the current activation
beside the controller. An attempt that has been given up stays queued, so that a late handshake of
its entry server resumes it.
-/

namespace WgDesktop

namespace Controller

/-! ## The port of an attempt -/

/-- The port of the hop that is activated first. A connection that reaches the exit server through
its multihop port cannot use port 53. -/
def firstHopPort (env : Env) (dnsPort : DNSPortPolicy) (policy : ServerSelectionPolicy)
    (data : ServerData) : ℤ :=
  if data.multihop && !env.multihopSupported then toInt32 (exitServer env policy data).multihopPort
  else if dnsPort = .forceDNSPort then 53
  else if data.multihop then
    toInt32 ((entryServer env policy data).choosePort (env.random 3))
  else toInt32 ((exitServer env policy data).choosePort (env.random 1))

theorem serverPort_of_setupConfigs {c : Controller} {env : Env} {dnsPort : DNSPortPolicy}
    {policy : ServerSelectionPolicy} {hop : InterfaceConfig} {rest : List InterfaceConfig}
    (h53 : env.alwaysPort53 = false) (h : (setupConfigs env dnsPort policy c).2 = hop :: rest) :
    hop.serverPort = firstHopPort env dnsPort policy c.serverData := by
  unfold setupConfigs at h
  dsimp only at h
  unfold firstHopPort
  cases hx : (exitServer env policy c.serverData).initialized with
  | false => simp [hx] at h
  | true =>
    cases hd : env.currentDevice with
    | none => simp [hx, hd] at h
    | some device =>
      cases hm : c.serverData.multihop with
      | false =>
        simp only [hx, hd, hm, h53] at h
        obtain ⟨rfl, -⟩ := List.cons.inj h
        by_cases hp : dnsPort = .forceDNSPort <;> simp [hp, exitConfig]
      | true =>
        cases hn : (entryServer env policy c.serverData).initialized with
        | false => cases hs : env.multihopSupported <;> simp [hx, hd, hm, hn, hs] at h
        | true =>
          cases hs : env.multihopSupported <;> simp only [hx, hd, hm, hn, hs, h53] at h <;>
            obtain ⟨rfl, -⟩ := List.cons.inj h
          · rfl
          · rfl

theorem submissions_activateInternal (c : Controller) (env : Env) (dnsPort : DNSPortPolicy)
    (policy : ServerSelectionPolicy) (initiator : ActivationPrincipal) :
    let d := activateInternal env dnsPort policy initiator c
    d.connectionRetry = c.connectionRetry ∧
      (submissions d.out = submissions c.out ∧ d.activationQueue = [] ∧ d.handshakeTimer = false ∨
        ∃ hop, submissions d.out = submissions c.out ++ [hop] ∧
          (env.alwaysPort53 = false →
            hop.serverPort = firstHopPort env dnsPort policy c.serverData)) := by
  obtain ⟨-, h⟩ | ⟨-, -, h⟩ | ⟨-, hd, hops, hhops, h⟩ :=
    setupConfigs_cases (c.resetAttempt initiator) env dnsPort policy
  · have ha : activateInternal env dnsPort policy initiator c =
        (c.resetAttempt initiator).serverUnavailable := by
      unfold activateInternal
      rw [h]
    rw [ha]
    refine ⟨by rw [serverUnavailable_eq]; rfl, Or.inl ⟨submissions_serverUnavailable _, ?_⟩⟩
    rw [serverUnavailable_eq]
    exact ⟨rfl, rfl⟩
  · have ha : activateInternal env dnsPort policy initiator c =
        { c.resetAttempt initiator with nextStep := .disconnect } := by
      unfold activateInternal
      rw [h]
    rw [ha]
    exact ⟨rfl, Or.inl ⟨rfl, rfl, rfl⟩⟩
  · cases hops with
    | nil => simp [ExitLast] at hhops
    | cons first rest =>
      rw [c.activateInternal_eq_submit hd h]
      refine ⟨by rw [submit_eq]; rfl, Or.inr ⟨first, submissions_submit _ _, fun h53 => ?_⟩⟩
      exact serverPort_of_setupConfigs (c := c.resetAttempt initiator) h53 (congrArg Prod.snd h)

/-! ## What an event does to the attempt -/

/-- The requests that begin another activation, and the signal after which a server switch goes
on. -/
def Event.begins : Event → Bool
  | .activate .. | .activateConfig .. | .switchServers .. | .silentSwitchServers ..
  | .disconnected => true
  | _ => false

/-- Nothing happened to the attempt, but that its timer may have fired. -/
structure Kept (c d : Controller) : Prop where
  submissions : submissions d.out = []
  queue : d.activationQueue = c.activationQueue
  timer : d.handshakeTimer → c.handshakeTimer
  retry : d.connectionRetry = c.connectionRetry

/-- What an event does to the attempt under way: it leaves it alone or ends it, begins another
activation, confirms a hop, or is a timeout after which there is another attempt or none. -/
inductive Effect (c d : Controller) : Event → Prop where
  | kept (e : Event) (h : Kept c d) : Effect c d e
  | ended (e : Event) (hsub : submissions d.out = []) (hqueue : d.activationQueue.length ≤ 1)
      (htimer : d.handshakeTimer = false) (hretry : d.connectionRetry < connectionMaxRetry) :
      Effect c d e
  | begun (e : Event) (he : e.begins) (hop : InterfaceConfig) (hsub : submissions d.out = [hop])
      (hretry : d.connectionRetry = 0) : Effect c d e
  | next (pubkey : QString) (hop next : InterfaceConfig) (rest : List InterfaceConfig)
      (hqueue : c.activationQueue = hop :: next :: rest)
      (hkey : hop.serverPublicKey.chars = pubkey.chars)
      (hretry : d.connectionRetry = c.connectionRetry) : Effect c d (.connected pubkey)
  | retried (htimer : c.handshakeTimer) (hretry : c.connectionRetry + 1 < connectionMaxRetry)
      (hop : InterfaceConfig) (hsub : submissions d.out = [hop])
      (hretry' : d.connectionRetry = c.connectionRetry + 1) : Effect c d .handshakeTimeout
  | exhausted (htimer : c.handshakeTimer) (hretry : connectionMaxRetry ≤ c.connectionRetry + 1)
      (hsub : submissions d.out = []) (htimer' : d.handshakeTimer = false)
      (hretry' : d.connectionRetry = c.connectionRetry + 1) : Effect c d .handshakeTimeout

section Effects

variable {c d : Controller} {e : Event}

theorem Kept.of_passive (c : Controller) (env : Env) (he : e.isPassive) :
    Kept c (c.step (env, e)) where
  submissions := (c.resetOut.sameAttempt_handle env he).submissions
  queue := (c.resetOut.sameAttempt_handle env he).queue
  timer := by
    intro h
    rwa [show (c.step (env, e)).handshakeTimer = c.handshakeTimer from
      (c.resetOut.sameAttempt_handle env he).timer] at h
  retry := (c.resetOut.sameAttempt_handle env he).retry

theorem Kept.setState (h : Kept c d) (s : State) : Kept c (d.setState s) where
  submissions := by rw [submissions_setState, h.submissions]
  queue := by rw [setState_eq, ← h.queue]
  timer := by
    rw [setState_eq]
    exact h.timer
  retry := by rw [setState_eq, ← h.retry]

theorem effect_tearDown (hsub : submissions d.out = []) : Effect c d.tearDown e := by
  refine .ended e (by rw [submissions_tearDown, hsub]) ?_ ?_ ?_
  all_goals rw [tearDown_eq]
  · simp
  · simp [connectionMaxRetry]

theorem effect_connectionUp (hsub : submissions d.out = []) (hq : d.activationQueue = []) :
    Effect c d.connectionUp e := by
  have hup : submissions d.up.out = [] := by simp [up, hsub]
  rw [connectionUp_eq]
  split_ifs
  · exact effect_tearDown hup
  · refine .ended e hup ?_ rfl (by simp [up, connectionMaxRetry])
    simp [up, hq]

theorem effect_deactivate (h : Kept c d) (user : ActivationPrincipal) :
    Effect c (d.deactivate user).1 e := by
  obtain ⟨-, hd⟩ | ⟨-, hd⟩ | ⟨-, hd⟩ | ⟨-, -, hd⟩ := d.deactivate_cases user <;> rw [hd]
  · exact .kept e h
  · exact .kept e (h.setState .off)
  · exact .kept e h
  · exact effect_tearDown h.submissions

theorem effect_activateInternal (he : e.begins) (hsub : submissions d.out = [])
    (hretry : d.connectionRetry = 0) (env : Env) (dnsPort : DNSPortPolicy)
    (policy : ServerSelectionPolicy) (initiator : ActivationPrincipal) :
    Effect c (activateInternal env dnsPort policy initiator d) e := by
  obtain ⟨hr, ⟨hs, hq, ht⟩ | ⟨hop, hs, -⟩⟩ :=
    d.submissions_activateInternal env dnsPort policy initiator
  · refine .ended e (hs.trans hsub) (by simp [hq]) ht ?_
    rw [hr, hretry]
    decide
  · exact .begun e he hop (by rw [hs, hsub]; rfl) (hr.trans hretry)

theorem effect_retry (ht : c.handshakeTimer) (hr : c.connectionRetry + 1 < connectionMaxRetry)
    (hsub : submissions d.out = []) (hretry : d.connectionRetry = c.connectionRetry + 1)
    (env : Env) (dnsPort : DNSPortPolicy) (policy : ServerSelectionPolicy)
    (initiator : ActivationPrincipal) :
    Effect c (activateInternal env dnsPort policy initiator d) .handshakeTimeout := by
  obtain ⟨hr', ⟨hs, hq, ht'⟩ | ⟨hop, hs, -⟩⟩ :=
    d.submissions_activateInternal env dnsPort policy initiator
  · refine .ended _ (hs.trans hsub) (by simp [hq]) ht' ?_
    rw [hr', hretry]
    exact hr
  · exact .retried ht hr hop (by rw [hs, hsub]; rfl) (hr'.trans hretry)

theorem deactivate_switchAccepted (c : Controller) (data : ServerData) :
    (deactivate .clientUser { c.switchAccepted data with nextStep := .reconnect }).1 =
      ({ c.switchAccepted data with nextStep := .reconnect } : Controller).tearDown := by
  have hstate : (c.switchAccepted data).state = .connecting ∨
      (c.switchAccepted data).state = .switching := by
    rw [switchAccepted_eq]
    by_cases h : c.state = .connecting <;> simp [h]
  obtain ⟨hn, -⟩ | ⟨ha, -⟩ | ⟨-, -, hd⟩ :=
    deactivate_clientUser_cases { c.switchAccepted data with nextStep := .reconnect }
  · obtain h | h := hstate <;> simp [neverConnected, h] at hn
  · obtain h | h := hstate <;> simp [isActive, h, State.rank, State.ctorIdx] at ha
  · rw [hd]

theorem effect_connected (c : Controller) (env : Env) (pubkey : QString) :
    Effect c (c.step (env, .connected pubkey)) (.connected pubkey) := by
  have hstep : c.step (env, .connected pubkey) = c.resetOut.connected env pubkey := rfl
  rw [hstep]
  obtain ⟨-, hc⟩ | ⟨hq, -, hc⟩ | ⟨hop, -, -, hc⟩ | ⟨hop, next, rest, hq, hk, hc | hc⟩ :=
    c.resetOut.connected_cases env pubkey <;> rw [hc]
  · exact .kept _ ⟨rfl, rfl, id, rfl⟩
  · exact effect_connectionUp rfl hq
  · exact effect_connectionUp rfl rfl
  · exact .next pubkey hop next rest hq hk rfl
  · exact .next pubkey hop next rest hq hk (by rw [submit_eq]; rfl)

theorem effect_disconnected (c : Controller) (env : Env) :
    Effect c (c.step (env, .disconnected)) .disconnected := by
  have hoff {d : Controller} (hsub : submissions d.out = []) (hq : d.activationQueue = [])
      (ht : d.handshakeTimer = false) (hr : d.connectionRetry = 0) :
      Effect c (d.setState .off) .disconnected := by
    refine .ended _ (by rw [submissions_setState, hsub]) ?_ ?_ ?_
    all_goals rw [setState_eq]
    · simp [hq]
    · exact ht
    · simp [hr, connectionMaxRetry]
  have hstep : c.step (env, .disconnected) = c.resetOut.disconnected env := rfl
  rw [hstep]
  obtain ⟨-, h⟩ | ⟨-, h⟩ | ⟨-, h⟩ | ⟨-, h⟩ := c.resetOut.disconnected_cases env <;> rw [h]
  · exact hoff rfl rfl rfl rfl
  · exact hoff rfl rfl rfl rfl
  · exact effect_activateInternal rfl rfl rfl env _ _ _
  · exact hoff rfl rfl rfl rfl

/-- A timeout makes no attempt for a local profile. -/
theorem kept_of_hasProfiles (c : Controller) {env : Env} (hp : env.hasProfiles) :
    Kept c (c.step (env, .handshakeTimeout)) := by
  have hstopped : Kept c (({ c.resetOut with handshakeTimer := false } : Controller).setError
      .serverTimeout) := ⟨rfl, rfl, nofun, rfl⟩
  have hstate := hstopped.setState .connectionError
  have hprofile : Kept c c.resetOut.profileExpired :=
    ⟨hstate.submissions, hstate.queue, hstate.timer, hstate.retry⟩
  have hstep : c.step (env, .handshakeTimeout) = c.resetOut.handshakeTimeout env := rfl
  rw [hstep]
  obtain ⟨-, h⟩ | ⟨-, -, h⟩ | ⟨-, hp', -⟩ | ⟨-, hp', -⟩ | ⟨-, hp', -⟩ :=
    c.resetOut.handshakeTimeout_cases env
  · rw [h]
    exact ⟨rfl, rfl, id, rfl⟩
  · rw [h]
    split_ifs
    · refine ⟨?_, hprofile.queue, hprofile.timer, hprofile.retry⟩
      simp [emit, hprofile.submissions, Output.submission]
    · exact hprofile
  all_goals
    rw [hp] at hp'
    cases hp'

theorem effect_handshakeTimeout (c : Controller) (env : Env) :
    Effect c (c.step (env, .handshakeTimeout)) .handshakeTimeout := by
  have hexpired : Kept c c.resetOut.expired := ⟨rfl, rfl, nofun, rfl⟩
  have hstep : c.step (env, .handshakeTimeout) = c.resetOut.handshakeTimeout env := rfl
  obtain ⟨-, h⟩ | ⟨-, hp, -⟩ | ⟨-, -, -, h⟩ | ⟨ht, -, -, hr, h⟩ | ⟨ht, -, -, hr, h⟩ :=
    c.resetOut.handshakeTimeout_cases env
  · rw [hstep, h]
    exact .kept _ ⟨rfl, rfl, id, rfl⟩
  · exact .kept _ (kept_of_hasProfiles c hp)
  · rw [hstep, h]
    exact effect_deactivate hexpired .clientUser
  · rw [hstep, h]
    refine effect_retry (c := c) ht hr ?_ ?_ env _ _ _
    · rfl
    · rfl
  · rw [hstep, h]
    refine .exhausted ht hr (submissions_serverUnavailable _) ?_ ?_
    all_goals rw [serverUnavailable_eq]
    · rfl
    · rfl

@[simp] theorem submissions_accepted (c : Controller) (data : ServerData)
    (initiator : ActivationPrincipal) :
    submissions (c.accepted data initiator).out = submissions c.out := by
  rw [accepted_eq]
  split_ifs <;> simp

@[simp] theorem submissions_switchAccepted (c : Controller) (data : ServerData) :
    submissions (c.switchAccepted data).out = submissions c.out := by
  rw [switchAccepted_eq]
  split_ifs <;> simp

@[simp] theorem submissions_silentSwitchAccepted (c : Controller) (policy : ServerCoolDownPolicy) :
    submissions (c.silentSwitchAccepted policy).out = submissions c.out := by
  rw [silentSwitchAccepted_eq]
  split_ifs <;> simp [Output.submission]

theorem effect_activate (c : Controller) (env : Env) (data : ServerData)
    (initiator : ActivationPrincipal) (policy : ServerSelectionPolicy) :
    Effect c (c.step (env, .activate data initiator policy)) (.activate data initiator policy) := by
  have hstep : c.step (env, .activate data initiator policy) =
      (c.resetOut.activate env data initiator policy).1 := rfl
  rw [hstep]
  obtain ⟨-, h⟩ | ⟨-, -, h⟩ | ⟨-, -, h⟩ := c.resetOut.activate_cases env data initiator policy <;>
    rw [h]
  · exact .kept _ ⟨rfl, rfl, id, rfl⟩
  · exact .kept _ ⟨rfl, rfl, id, rfl⟩
  · refine effect_activateInternal rfl (submissions_accepted _ _ _) ?_ env _ _ _
    rw [accepted_eq]

theorem effect_activateConfig (c : Controller) (env : Env) (config : InterfaceConfig)
    (initiator : ActivationPrincipal) :
    Effect c (c.step (env, .activateConfig config initiator))
      (.activateConfig config initiator) := by
  have hstep : c.step (env, .activateConfig config initiator) =
      (c.resetOut.activateConfig env config initiator).1 := rfl
  have hsub (config : InterfaceConfig) :
      submissions (c.resetOut.profileQueued config initiator).out = [] := by
    exact submissions_accepted c.resetOut _ initiator
  have hretry (config : InterfaceConfig) :
      (c.resetOut.profileQueued config initiator).connectionRetry = 0 := by
    unfold profileQueued
    rw [accepted_eq]
    rfl
  rw [hstep]
  obtain ⟨-, h⟩ | ⟨-, -, h⟩ | ⟨-, -, -, -, h⟩ | ⟨-, -, -, h⟩ :=
    c.resetOut.activateConfig_cases env config initiator <;> rw [h]
  · exact .kept _ ⟨rfl, rfl, id, rfl⟩
  · have hfatal : Kept c (c.resetOut.setError .noServerAvailable) := ⟨rfl, rfl, id, rfl⟩
    exact .kept _ (hfatal.setState .connectionError)
  · refine .ended _ ?_ le_rfl rfl ?_
    · simp [emit, hsub, Output.submission]
    · simp [emit, hretry, connectionMaxRetry]
  · refine .begun _ rfl (localConfig env config) ?_ ?_
    · rw [submissions_submit, hsub]
      rfl
    · rw [submit_eq]
      exact hretry (localConfig env config)

theorem effect_switchServers (c : Controller) (env : Env) (data : ServerData) :
    Effect c (c.step (env, .switchServers data)) (.switchServers data) := by
  have hstep : c.step (env, .switchServers data) = (c.resetOut.switchServers env data).1 := rfl
  have hsub : submissions (c.resetOut.switchAccepted data).out = [] :=
    submissions_switchAccepted _ _
  rw [hstep]
  obtain ⟨-, h⟩ | ⟨-, -, h⟩ | ⟨-, -, h⟩ := c.resetOut.switchServers_cases env data <;> rw [h]
  · exact .kept _ ⟨rfl, rfl, id, rfl⟩
  · rw [deactivate_switchAccepted]
    refine effect_tearDown ?_
    exact hsub
  · refine effect_activateInternal rfl ?_ ?_ env _ _ _
    · exact hsub
    · rw [switchAccepted_eq]

theorem effect_silentSwitchServers (c : Controller) (env : Env) (policy : ServerCoolDownPolicy) :
    Effect c (c.step (env, .silentSwitchServers policy)) (.silentSwitchServers policy) := by
  have hstep : c.step (env, .silentSwitchServers policy) =
      (c.resetOut.silentSwitchServers env policy).1 := rfl
  rw [hstep]
  obtain h | ⟨-, -, h⟩ := c.resetOut.silentSwitchServers_cases env policy <;> rw [h]
  · exact .kept _ ⟨rfl, rfl, id, rfl⟩
  · refine effect_activateInternal rfl (submissions_silentSwitchAccepted _ _) ?_ env _ _ _
    rw [silentSwitchAccepted_eq]

theorem effect_quit (c : Controller) (env : Env) : Effect c (c.step (env, .quit)) .quit := by
  have hstep : c.step (env, .quit) = c.resetOut.quit := rfl
  have hnext : Kept c { c.resetOut with nextStep := .quit } := ⟨rfl, rfl, id, rfl⟩
  rw [hstep]
  obtain ⟨-, h⟩ | ⟨-, h⟩ | ⟨-, -, h⟩ := c.resetOut.quit_cases <;> rw [h]
  · exact .kept _ ⟨rfl, rfl, id, rfl⟩
  · exact .kept _ ⟨rfl, rfl, id, rfl⟩
  · exact effect_deactivate hnext .clientUser

theorem effect_updateRequired (c : Controller) (env : Env) :
    Effect c (c.step (env, .updateRequired)) .updateRequired := by
  have hstep : c.step (env, .updateRequired) = c.resetOut.updateRequired := rfl
  have hnext : Kept c { c.resetOut with nextStep := .update } := ⟨rfl, rfl, id, rfl⟩
  rw [hstep]
  obtain ⟨-, h⟩ | ⟨-, -, -, h⟩ | ⟨-, h⟩ := c.resetOut.updateRequired_cases <;> rw [h]
  · exact .kept _ ⟨rfl, rfl, id, rfl⟩
  · exact .kept _ ⟨rfl, rfl, id, rfl⟩
  · exact effect_deactivate hnext .clientUser

theorem effect_step (c : Controller) (env : Env) (e : Event) : Effect c (c.step (env, e)) e := by
  by_cases he : e.isPassive
  · exact .kept e (Kept.of_passive c env he)
  cases e with
  | connected pubkey => exact effect_connected c env pubkey
  | disconnected => exact effect_disconnected c env
  | handshakeTimeout => exact effect_handshakeTimeout c env
  | activate data initiator policy => exact effect_activate c env data initiator policy
  | activateConfig config initiator => exact effect_activateConfig c env config initiator
  | deactivate user =>
    have hstart : Kept c c.resetOut := ⟨rfl, rfl, id, rfl⟩
    exact effect_deactivate hstart user
  | switchServers data => exact effect_switchServers c env data
  | silentSwitchServers policy => exact effect_silentSwitchServers c env policy
  | quit => exact effect_quit c env
  | updateRequired => exact effect_updateRequired c env
  | _ => exact absurd rfl he

/-! ## The counter -/

/-- The handshake of an entry server that resumes an attempt after the retries were exhausted. -/
def Resumes (c : Controller) (e : Event) : Prop :=
  ∃ pubkey hop next rest, e = .connected pubkey ∧ c.connectionRetry = connectionMaxRetry ∧
    c.activationQueue = hop :: next :: rest ∧ hop.serverPublicKey.chars = pubkey.chars

/-- The counter is in its bounds, and below the limit while the timer runs. -/
structure RetryBound (c : Controller) : Prop where
  le : c.connectionRetry ≤ connectionMaxRetry
  lt : c.handshakeTimer → c.connectionRetry < connectionMaxRetry

theorem retryBound_step (h : c.RetryBound) (env : Env) (he : ¬ c.Resumes e) :
    (c.step (env, e)).RetryBound := by
  cases effect_step c env e with
  | kept _ hk =>
    refine ⟨by rw [hk.retry]; exact h.le, fun ht => ?_⟩
    rw [hk.retry]
    exact h.lt (hk.timer ht)
  | ended _ _ _ _ hretry => exact ⟨hretry.le, fun _ => hretry⟩
  | begun _ _ _ _ hretry =>
    have hlt : (c.step (env, e)).connectionRetry < connectionMaxRetry := by
      rw [hretry]
      decide
    exact ⟨hlt.le, fun _ => hlt⟩
  | next pubkey hop next rest hqueue hkey hretry =>
    have hlt : c.connectionRetry < connectionMaxRetry :=
      lt_of_le_of_ne h.le fun hmax => he ⟨pubkey, hop, next, rest, rfl, hmax, hqueue, hkey⟩
    exact ⟨by omega, fun _ => by omega⟩
  | retried _ hretry _ _ hretry' => exact ⟨by omega, fun _ => by omega⟩
  | exhausted htimer _ _ htimer' hretry' =>
    have := h.lt htimer
    refine ⟨by omega, fun ht => ?_⟩
    rw [htimer'] at ht
    cases ht

end Effects

/-! ## The attempts of an activation -/

/-- How the servers of the attempt that an event makes are selected. -/
def Event.attempt (c : Controller) : Event → Option (ServerSelectionPolicy × ServerData)
  | .activate data _ policy => some (policy, data)
  | .switchServers data => some (.randomizeServerSelection, data)
  | .silentSwitchServers policy => some (policy.selection, c.serverData)
  | .disconnected => some (.randomizeServerSelection, c.nextServerData)
  | .handshakeTimeout => some (.randomizeServerSelection, c.serverData)
  | _ => none

/-- The port policy of that attempt. -/
def Event.dnsPort (c : Controller) : Event → DNSPortPolicy
  | .handshakeTimeout => c.retryDnsPort
  | _ => .doNotForceDNSPort

theorem serverPort_of_mem_activateInternal {d : Controller} {env : Env} {dnsPort : DNSPortPolicy}
    {policy : ServerSelectionPolicy} {initiator : ActivationPrincipal} {hop : InterfaceConfig}
    (hnone : submissions d.out = []) (h53 : env.alwaysPort53 = false)
    (h : hop ∈ submissions (activateInternal env dnsPort policy initiator d).out) :
    hop.serverPort = firstHopPort env dnsPort policy d.serverData := by
  obtain ⟨-, ⟨hs, -⟩ | ⟨hop', hs, hport⟩⟩ :=
    d.submissions_activateInternal env dnsPort policy initiator
  · rw [hs, hnone] at h
    cases h
  · rw [hs, hnone] at h
    obtain rfl : hop = hop' := by simpa using h
    exact hport h53

section Ports

variable {c : Controller} {env : Env} {hop : InterfaceConfig}

theorem serverPort_of_mem_activate {data : ServerData} {initiator : ActivationPrincipal}
    {policy : ServerSelectionPolicy} (h53 : env.alwaysPort53 = false)
    (h : hop ∈ submissions (c.step (env, .activate data initiator policy)).out) :
    hop.serverPort = firstHopPort env .doNotForceDNSPort policy data := by
  have hdata : (c.resetOut.accepted data initiator).serverData = data := by rw [accepted_eq]
  obtain ⟨-, ha⟩ | ⟨-, -, ha⟩ | ⟨-, -, ha⟩ := c.resetOut.activate_cases env data initiator policy
  all_goals rw [show c.step (env, .activate data initiator policy) =
    (c.resetOut.activate env data initiator policy).1 from rfl, ha] at h
  · exact absurd h List.not_mem_nil
  · exact absurd h List.not_mem_nil
  · have hport := serverPort_of_mem_activateInternal (submissions_accepted _ _ _) h53 h
    rwa [hdata] at hport

theorem serverPort_of_mem_switchServers {data : ServerData} (h53 : env.alwaysPort53 = false)
    (h : hop ∈ submissions (c.step (env, .switchServers data)).out) :
    hop.serverPort = firstHopPort env .doNotForceDNSPort .randomizeServerSelection data := by
  have hswitch : submissions (c.resetOut.switchAccepted data).out = [] :=
    submissions_switchAccepted _ _
  obtain ⟨-, hs⟩ | ⟨-, -, hs⟩ | ⟨-, -, hs⟩ := c.resetOut.switchServers_cases env data
  all_goals rw [show c.step (env, .switchServers data) =
    (c.resetOut.switchServers env data).1 from rfl, hs] at h
  · exact absurd h List.not_mem_nil
  · rw [submissions_deactivate] at h
    rw [hswitch] at h
    exact absurd h List.not_mem_nil
  · refine serverPort_of_mem_activateInternal ?_ h53 h
    exact hswitch

theorem serverPort_of_mem_silentSwitchServers {policy : ServerCoolDownPolicy}
    (h53 : env.alwaysPort53 = false)
    (h : hop ∈ submissions (c.step (env, .silentSwitchServers policy)).out) :
    hop.serverPort = firstHopPort env .doNotForceDNSPort policy.selection c.serverData := by
  have hdata : (c.resetOut.silentSwitchAccepted policy).serverData = c.serverData := by
    rw [silentSwitchAccepted_eq]
    rfl
  obtain hs | ⟨-, -, hs⟩ := c.resetOut.silentSwitchServers_cases env policy
  all_goals rw [show c.step (env, .silentSwitchServers policy) =
    (c.resetOut.silentSwitchServers env policy).1 from rfl, hs] at h
  · exact absurd h List.not_mem_nil
  · have hport :=
      serverPort_of_mem_activateInternal (submissions_silentSwitchAccepted _ _) h53 h
    rwa [hdata] at hport

theorem serverPort_of_mem_disconnected (h53 : env.alwaysPort53 = false)
    (h : hop ∈ submissions (c.step (env, .disconnected)).out) :
    hop.serverPort =
      firstHopPort env .doNotForceDNSPort .randomizeServerSelection c.nextServerData := by
  obtain ⟨-, hd⟩ | ⟨-, hd⟩ | ⟨-, hd⟩ | ⟨-, hd⟩ := c.resetOut.disconnected_cases env
  all_goals rw [show c.step (env, .disconnected) = c.resetOut.disconnected env from rfl, hd] at h
  · rw [submissions_setState] at h
    exact absurd h List.not_mem_nil
  · rw [submissions_setState] at h
    exact absurd h List.not_mem_nil
  · exact serverPort_of_mem_activateInternal rfl h53 h
  · rw [submissions_setState] at h
    exact absurd h List.not_mem_nil

theorem serverPort_of_mem_handshakeTimeout (h53 : env.alwaysPort53 = false)
    (h : hop ∈ submissions (c.step (env, .handshakeTimeout)).out) :
    hop.serverPort = firstHopPort env c.retryDnsPort .randomizeServerSelection c.serverData := by
  have hstep : c.step (env, .handshakeTimeout) = c.resetOut.handshakeTimeout env := rfl
  obtain ⟨-, ht⟩ | ⟨-, hp, -⟩ | ⟨-, -, -, ht⟩ | ⟨-, -, -, -, ht⟩ | ⟨-, -, -, -, ht⟩ :=
    c.resetOut.handshakeTimeout_cases env
  · rw [hstep, ht] at h
    exact absurd h List.not_mem_nil
  · rw [(kept_of_hasProfiles c hp).submissions] at h
    exact absurd h List.not_mem_nil
  · rw [hstep, ht, submissions_deactivate] at h
    exact absurd h List.not_mem_nil
  · rw [hstep, ht] at h
    refine (serverPort_of_mem_activateInternal ?_ h53 h).trans ?_
    · rfl
    · rfl
  · rw [hstep, ht, submissions_serverUnavailable] at h
    exact absurd h List.not_mem_nil

/-- The port of the hop that a request, a timeout or the end of a connection submits. -/
theorem serverPort_of_mem_submissions {e : Event} {policy : ServerSelectionPolicy}
    {data : ServerData} (h53 : env.alwaysPort53 = false)
    (hreq : e.attempt c = some (policy, data)) (h : hop ∈ submissions (c.step (env, e)).out) :
    hop.serverPort = firstHopPort env (e.dnsPort c) policy data := by
  cases e with
  | activate data' initiator policy' =>
    obtain ⟨rfl, rfl⟩ : policy' = policy ∧ data' = data := by simpa [Event.attempt] using hreq
    exact serverPort_of_mem_activate h53 h
  | switchServers data' =>
    obtain ⟨rfl, rfl⟩ : .randomizeServerSelection = policy ∧ data' = data := by
      simpa [Event.attempt] using hreq
    exact serverPort_of_mem_switchServers h53 h
  | silentSwitchServers policy' =>
    obtain ⟨rfl, rfl⟩ : policy'.selection = policy ∧ c.serverData = data := by
      simpa [Event.attempt] using hreq
    exact serverPort_of_mem_silentSwitchServers h53 h
  | disconnected =>
    obtain ⟨rfl, rfl⟩ : .randomizeServerSelection = policy ∧ c.nextServerData = data := by
      simpa [Event.attempt] using hreq
    exact serverPort_of_mem_disconnected h53 h
  | handshakeTimeout =>
    obtain ⟨rfl, rfl⟩ : .randomizeServerSelection = policy ∧ c.serverData = data := by
      simpa [Event.attempt] using hreq
    exact serverPort_of_mem_handshakeTimeout h53 h
  | _ => cases hreq

end Ports

/-- The controller, and the first hops of the attempts that were made for the current activation: by
the request, or by the signal that lets a server switch go on, and then by the handshake timer. -/
structure Attempts where
  controller : Controller := {}
  attempts : List InterfaceConfig := []

namespace Attempts

def step (a : Attempts) (e : Env × Event) : Attempts :=
  let c := a.controller.step e
  { controller := c
    attempts :=
      match e.2 with
      | .connected _ => a.attempts
      | .handshakeTimeout => a.attempts ++ submissions c.out
      | _ => if submissions c.out = [] then a.attempts else submissions c.out }

def run (a : Attempts) (es : List (Env × Event)) : Attempts := es.foldl step a

/-- While the timer runs or a second hop is queued, the counter says how many attempts were made,
unless they are exhausted. -/
structure Inv (a : Attempts) : Prop where
  length : a.attempts.length ≤ connectionMaxRetry
  pending : a.controller.handshakeTimer ∨ 2 ≤ a.controller.activationQueue.length →
    a.controller.connectionRetry < connectionMaxRetry →
    a.attempts.length = a.controller.connectionRetry + 1

section Step

variable {a : Attempts} {env : Env} {e : Event}

theorem attempts_step_of_nil (h : submissions (a.controller.step (env, e)).out = []) :
    (a.step (env, e)).attempts = a.attempts := by
  cases e <;> simp [step, h]

theorem attempts_step_of_begins (he : e.begins) {hop : InterfaceConfig}
    (h : submissions (a.controller.step (env, e)).out = [hop]) :
    (a.step (env, e)).attempts = [hop] := by
  cases e <;> simp [Event.begins] at he <;> simp [step, h]

theorem inv_step (h : a.Inv) (env : Env) (e : Event) : (a.step (env, e)).Inv := by
  have hstep : (a.step (env, e)).controller = a.controller.step (env, e) := rfl
  cases effect_step a.controller env e with
  | kept _ hk =>
    have hattempts : (a.step (env, e)).attempts = a.attempts := attempts_step_of_nil hk.submissions
    refine ⟨by rw [hattempts]; exact h.length, fun hp hr => ?_⟩
    rw [hstep, hk.retry] at hr
    rw [hstep, hk.queue] at hp
    rw [hattempts, hstep, hk.retry]
    exact h.pending (hp.imp_left hk.timer) hr
  | ended _ hsub hqueue htimer _ =>
    refine ⟨by rw [attempts_step_of_nil hsub]; exact h.length, fun hp _ => ?_⟩
    rw [hstep, htimer] at hp
    obtain hp | hp := hp
    · cases hp
    · omega
  | begun _ he hop hsub hretry =>
    rw [← hstep] at hretry
    have hattempts := attempts_step_of_begins he hsub
    exact ⟨by simp [hattempts, connectionMaxRetry], fun _ _ => by simp [hattempts, hretry]⟩
  | next pubkey hop next rest hqueue hkey hretry =>
    refine ⟨h.length, fun _ hr => ?_⟩
    rw [hstep, hretry] at hr ⊢
    exact h.pending (Or.inr (by simp [hqueue])) hr
  | retried htimer hretry hop hsub hretry' =>
    have hattempts : (a.step (env, .handshakeTimeout)).attempts = a.attempts ++ [hop] := by
      rw [← hsub]
      rfl
    have hlength : (a.step (env, .handshakeTimeout)).attempts.length =
        a.controller.connectionRetry + 2 := by
      have := h.pending (Or.inl htimer) (by omega)
      rw [hattempts, List.length_append, this]
      rfl
    refine ⟨by omega, fun _ _ => ?_⟩
    rw [hlength, hstep, hretry']
  | exhausted htimer hretry hsub htimer' hretry' =>
    refine ⟨by rw [attempts_step_of_nil hsub]; exact h.length, fun _ hr => ?_⟩
    rw [hstep, hretry'] at hr
    omega

theorem inv_run (es : List (Env × Event)) : (run {} es).Inv :=
  @Runs.foldl_invariant _ _ step Inv (fun _ e h => inv_step h e.1 e.2) {}
    ⟨by simp, fun hp => by simp at hp⟩ es

theorem controller_run (a : Attempts) (es : List (Env × Event)) :
    (run a es).controller = Controller.run a.controller es := by
  induction es generalizing a with
  | nil => rfl
  | cons e es ih => exact ih (step a e)

theorem length_step_le_one (h : a.attempts.length ≤ 1)
    (hp : e = .handshakeTimeout → env.hasProfiles) : (a.step (env, e)).attempts.length ≤ 1 := by
  cases effect_step a.controller env e with
  | kept _ hk => rwa [attempts_step_of_nil hk.submissions]
  | ended _ hsub => rwa [attempts_step_of_nil hsub]
  | begun _ he hop hsub =>
    rw [attempts_step_of_begins he hsub]
    exact le_rfl
  | next => exact h
  | retried => rwa [attempts_step_of_nil (kept_of_hasProfiles _ (hp rfl)).submissions]
  | exhausted _ _ hsub => rwa [attempts_step_of_nil hsub]

/-- The first attempt that follows a timeout is the one for which the counter asks for port 53. -/
theorem dnsPort_eq (h : a.Inv) (hsub : submissions (a.controller.step (env, e)).out ≠ []) :
    e.dnsPort a.controller =
      if e = .handshakeTimeout ∧ a.attempts.length = 1 then .forceDNSPort
      else .doNotForceDNSPort := by
  by_cases he : e = .handshakeTimeout
  · subst he
    cases effect_step a.controller env .handshakeTimeout with
    | kept _ hk => exact absurd hk.submissions hsub
    | ended _ hnil => exact absurd hnil hsub
    | begun _ he => cases he
    | retried htimer hretry =>
      have := h.pending (Or.inl htimer) (by omega)
      simp [Event.dnsPort, retryDnsPort, this]
    | exhausted _ _ hnil => exact absurd hnil hsub
  · rw [if_neg fun h => he h.1]
    cases e <;> first | rfl | exact absurd rfl he

theorem serverPort_of_mem_activateConfig (c : Controller) {config hop : InterfaceConfig}
    {initiator : ActivationPrincipal}
    (h : hop ∈ submissions (c.step (env, .activateConfig config initiator)).out) :
    hop.serverPort = config.serverPort := by
  have hstep : c.step (env, .activateConfig config initiator) =
      (c.resetOut.activateConfig env config initiator).1 := rfl
  have hnone : hop ∉ submissions [] := List.not_mem_nil
  have hqueued : submissions (c.resetOut.profileQueued (localConfig env config) initiator).out = [] :=
    submissions_accepted c.resetOut _ initiator
  obtain ⟨-, ha⟩ | ⟨-, -, ha⟩ | ⟨-, -, -, -, ha⟩ | ⟨-, -, -, ha⟩ :=
    c.resetOut.activateConfig_cases env config initiator
  all_goals rw [hstep, ha] at h
  · exact absurd h hnone
  · rw [submissions_setState] at h
    exact absurd h hnone
  · simp [emit, hqueued, Output.submission] at h
  · rw [submissions_submit, hqueued] at h
    obtain rfl : hop = localConfig env config := by simpa using h
    unfold localConfig
    split_ifs <;> rfl

end Step

theorem retryBound_run {es : List (Env × Event)}
    (h : Runs.Guarded Controller.step (fun c e => ¬ c.Resumes e.2) {} es) :
    (run {} es).controller.RetryBound := by
  have hrun := @Runs.Guarded.invariant _ _ Controller.step _ RetryBound
    (fun _ e hc he => retryBound_step hc e.1 he) {} es ⟨by decide, by simp⟩ h es.length
  rw [List.take_length] at hrun
  rw [controller_run]
  exact hrun

theorem length_run_le_one {a : Attempts} {fs : List (Env × Event)} (ha : a.attempts.length ≤ 1)
    (h : ∀ f ∈ fs, f.2 = .handshakeTimeout → f.1.hasProfiles) :
    (run a fs).attempts.length ≤ 1 := by
  have hrun := @Runs.Guarded.invariant _ _ step (fun _ f => f.2 = .handshakeTimeout → f.1.hasProfiles)
    (fun a => a.attempts.length ≤ 1) (fun _ f hb hf => length_step_le_one hb hf) a fs ha
    ((Runs.guarded_const a fs).mpr h) fs.length
  rwa [List.take_length] at hrun

/-- **The retries.** In every run: the counter stays within the limit as long as no late handshake
resumes an attempt after the retries were exhausted; an activation gets at most as many attempts as
the limit says, and one with a local profile; and the first hop of an attempt is forced to port 53
if the attempt is the first one after a timeout, and only then, unless the exit server is reached
through its multihop port. A local profile keeps its port. -/
theorem retry_discipline (es : List (Env × Event)) :
    (Runs.Guarded Controller.step (fun c e => ¬ c.Resumes e.2) {} es →
        (run {} es).controller.connectionRetry ≤ connectionMaxRetry) ∧
      (run {} es).attempts.length ≤ connectionMaxRetry ∧
      (∀ fs : List (Env × Event), (run {} es).attempts.length ≤ 1 →
        (∀ f ∈ fs, f.2 = .handshakeTimeout → f.1.hasProfiles) →
          (run (run {} es) fs).attempts.length ≤ 1) ∧
      (∀ (env : Env) (e : Event) (policy : ServerSelectionPolicy) (data : ServerData),
        env.alwaysPort53 = false → e.attempt (run {} es).controller = some (policy, data) →
          ∀ hop ∈ submissions ((run {} es).controller.step (env, e)).out,
            hop.serverPort = firstHopPort env
              (if e = .handshakeTimeout ∧ (run {} es).attempts.length = 1 then .forceDNSPort
                else .doNotForceDNSPort) policy data) ∧
      ∀ (env : Env) (config : InterfaceConfig) (initiator : ActivationPrincipal),
        ∀ hop ∈ submissions
            ((run {} es).controller.step (env, .activateConfig config initiator)).out,
          hop.serverPort = config.serverPort := by
  have hinv := inv_run es
  refine ⟨fun h => (retryBound_run h).le, hinv.length, fun fs h1 hp => length_run_le_one h1 hp,
    fun env e policy data h53 hreq hop hmem => ?_,
    fun env config initiator hop hmem => serverPort_of_mem_activateConfig _ hmem⟩
  rw [serverPort_of_mem_submissions h53 hreq hmem, dnsPort_eq hinv (List.ne_nil_of_mem hmem)]

/-- A client user asks for a connection over two hops. -/
def activation (env : Env) : List (Env × Event) :=
  [(env, .initializeController),
   (env, .implInitialized true false),
   (env, .activate
      { entryCountryCode := .text "ch".toList, entryCityName := .text "Zurich".toList }
      .clientUser .randomizeServerSelection)]

/-- The first retry of a run without late handshakes is made over port 53. -/
theorem retry_discipline_activation :
    (run {} (activation availableEnv)).controller.connectionRetry ≤ connectionMaxRetry ∧
      ∀ hop ∈ submissions ((run {} (activation availableEnv)).controller.step
        (availableEnv, .handshakeTimeout)).out, hop.serverPort = 53 := by
  obtain ⟨hbound, -, -, hport, -⟩ := retry_discipline (activation availableEnv)
  refine ⟨hbound ⟨?_, ?_, ?_, trivial⟩, fun hop hmem => ?_⟩
  · rintro ⟨pubkey, hop, next, rest, he, -⟩
    cases he
  · rintro ⟨pubkey, hop, next, rest, he, -⟩
    cases he
  · rintro ⟨pubkey, hop, next, rest, he, -⟩
    cases he
  · have hfirst : (run {} (activation availableEnv)).attempts.length = 1 := by decide
    rw [hport availableEnv .handshakeTimeout _ _ rfl rfl hop hmem, if_pos ⟨rfl, hfirst⟩]
    decide

/-- All retries end in a timeout, and then the entry server answers. -/
def lateAnswer : List (Env × Event) :=
  activation availableEnv ++ List.replicate 9 (availableEnv, .handshakeTimeout) ++
    [(availableEnv, .connected (.text "exit".toList)), (availableEnv, .handshakeTimeout)]

/-- An implementation without support for several hops, and a server with a multihop port. -/
def singleHopEnv : Env :=
  { availableEnv with
    getServerList := fun _ _ => [{ availableServer with multihopPort := 3155 }]
    multihopSupported := false }

/-- The late answer starts the timer again, which raises the counter above the limit. Where the
implementation cannot do several hops, the first retry is not made over port 53. -/
theorem not_retry_discipline :
    connectionMaxRetry < (run {} lateAnswer).controller.connectionRetry ∧
      (run {} (activation singleHopEnv)).attempts.length = 1 ∧
      (submissions ((run {} (activation singleHopEnv)).controller.step
        (singleHopEnv, .handshakeTimeout)).out).map
          (fun hop => (hop.hopType, hop.serverPort)) = [(.singleHop, 3155)] := by
  decide

end Attempts

end Controller

end WgDesktop
