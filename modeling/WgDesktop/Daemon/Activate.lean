import WgDesktop.Lib.Runs
import WgDesktop.Profile.InterfaceConfig

/-!
# The daemon

`Daemon::activate`, `switchServer` and `deactivate` from `src/daemon/daemon.cpp`, over a backend
whose calls may fail. The daemon keeps one configuration for each hop type; all hops share one
interface, one table of routes and one set of peers.

`routing_run` says when routes and peers are those of the stored configurations: switching the
server of one hop removes what its old configuration had and its new one has not, whether or not
another hop still uses it.
-/

namespace WgDesktop

open Runs

namespace Daemon

/-! ## The state -/

/-- `Daemon::ConnectionState`: the configuration, and the time of the handshake once there was
one. -/
structure ConnectionState where
  config : InterfaceConfig
  date : Option ℤ := none

/-- The signals of the daemon. -/
inductive Signal where
  | connected (pubkey : QString)
  | activationFailure
  | disconnected
  deriving DecidableEq

/-- The daemon with what its backend has been asked for: the peers by public key, what each of them
was set from, the route prefixes and the resolvers. `calls` counts the calls to the backend. -/
structure State where
  connections : HopType → Option ConnectionState := fun _ => none
  interfaceExists : Bool := false
  peers : List (List Char) := []
  peerConfigs : List Char → Option InterfaceConfig := fun _ => none
  routes : List IPAddress := []
  resolvers : List QHostAddress := []
  handshakeTimer : Bool := false
  signals : List Signal := []
  calls : ℕ := 0

/-- What the daemon is built on: Qt's address texts, whether there is an `IPUtils`, and which calls
to the backend succeed. -/
structure Backend where
  addressText : HostAddressText
  hasIpUtils : Bool
  succeeds : ℕ → Bool

/-- A method of the daemon that returns `true` or fails with `false`. -/
abbrev DaemonM := ExceptT Unit (StateM State)

/-- A call to the backend: it has its effect if it succeeds, and none otherwise. -/
def call (B : Backend) (effect : State → State) : DaemonM Unit := do
  let s ← get
  if B.succeeds s.calls then modify fun s => { effect s with calls := s.calls + 1 }
  else do
    modify fun s => { s with calls := s.calls + 1 }
    throw ()

/-- A call whose result is ignored. -/
def callIgnored (B : Backend) (effect : State → State) : DaemonM Unit :=
  tryCatch (call B effect) fun _ => pure ()

section Methods

variable (B : Backend)

/-! ## The backend -/

def addInterface : DaemonM Unit := call B fun s => { s with interfaceExists := true }

/-- `addInterfaceIPs` and `setMTUAndUp` of the `IPUtils`. -/
def setUpInterface : DaemonM Unit := do
  if B.hasIpUtils then
    call B id
    call B id

def deleteInterface : DaemonM Unit := call B fun s => { s with interfaceExists := false }

def updatePeer (config : InterfaceConfig) : DaemonM Unit :=
  call B fun s =>
    { s with
      peers := config.serverPublicKey.chars :: s.peers
      peerConfigs := Function.update s.peerConfigs config.serverPublicKey.chars (some config) }

/-- The effect of `deletePeer`. -/
def withoutPeer (config : InterfaceConfig) (s : State) : State :=
  { s with
    peers := s.peers.filter (· ≠ config.serverPublicKey.chars)
    peerConfigs := Function.update s.peerConfigs config.serverPublicKey.chars none }

def updateRoutePrefix (ip : IPAddress) : DaemonM Unit :=
  call B fun s => { s with routes := ip :: s.routes }

def deleteRoutePrefix (ip : IPAddress) : DaemonM Unit :=
  callIgnored B fun s => { s with routes := s.routes.filter (· != ip) }

def restoreResolvers : DaemonM Unit := call B fun s => { s with resolvers := [] }

/-! ## The methods -/

/-- The resolvers of `maybeUpdateResolvers`. -/
def resolversOf (config : InterfaceConfig) : List QHostAddress :=
  B.addressText.hostAddress config.dnsServer.chars ::
    if config.dnsServer == config.serverIpv4Gateway then
      [B.addressText.hostAddress config.serverIpv6Gateway.chars]
    else []

def maybeUpdateResolvers (config : InterfaceConfig) : DaemonM Unit := do
  if config.hopType = .multiHopExit ∨ config.hopType = .singleHop then
    call B fun s => { s with resolvers := resolversOf B config }

/-- The connections in the order of the map. -/
def connectionList (s : State) : List ConnectionState :=
  [HopType.singleHop, .multiHopEntry, .multiHopExit].filterMap s.connections

/-- `m_connections[config.m_hopType] = ConnectionState(config)`. -/
def setConnection (config : InterfaceConfig) (s : State) : State :=
  { s with connections := Function.update s.connections config.hopType (some { config }) }

/-- The start of the handshake timer and the end of a successful activation. -/
def finishActivation (config : InterfaceConfig) : DaemonM Unit :=
  modify fun s => { setConnection config s with handshakeTimer := true }

def deleteRoutes (ranges : List IPAddress) : DaemonM Unit :=
  ranges.forM (deleteRoutePrefix B)

def updateRoutes (ranges : List IPAddress) : DaemonM Unit :=
  ranges.forM (updateRoutePrefix B)

/-- The cleanup of one connection in `deactivate`. -/
def cleanUp (state : ConnectionState) : DaemonM Unit := do
  deleteRoutes B state.config.allowedIPAddressRanges
  callIgnored B (withoutPeer state.config)

/-- `Daemon::deactivate`. `run(Down, …)` succeeds. -/
def deactivate (emitSignals : Bool) : DaemonM Unit := do
  callIgnored B fun s => { s with resolvers := [] }
  (connectionList (← get)).forM (cleanUp B)
  modify fun s => { s with connections := fun _ => none }
  tryCatch (deleteInterface B) fun _ => do
    -- the signal is emitted whatever the result
    if emitSignals then modify fun s => { s with signals := s.signals ++ [.disconnected] }
    throw ()
  if emitSignals then modify fun s => { s with signals := s.signals ++ [.disconnected] }

/-- `supportServerSwitching`, for the connection of the same hop. -/
def supportServerSwitching (current config : InterfaceConfig) : Bool :=
  current.privateKey == config.privateKey &&
    current.deviceIpv4Address == config.deviceIpv4Address &&
    current.deviceIpv6Address == config.deviceIpv6Address &&
    current.serverIpv4Gateway == config.serverIpv4Gateway &&
    current.serverIpv6Gateway == config.serverIpv6Gateway

/-- The ranges of `lastConfig` that `config` does not have. -/
def droppedRanges (lastConfig config : InterfaceConfig) : List IPAddress :=
  lastConfig.allowedIPAddressRanges.filter fun ip => !config.allowedIPAddressRanges.any (· == ip)

def switchServer (lastConfig config : InterfaceConfig) : DaemonM Unit := do
  updatePeer B config
  -- a failure stops the loop but not the switch
  tryCatch (updateRoutes B config.allowedIPAddressRanges) fun _ => pure ()
  deleteRoutes B (droppedRanges lastConfig config)
  if config.serverPublicKey != lastConfig.serverPublicKey then
    call B (withoutPeer lastConfig)
  modify (setConnection config)

/-- The scope guard of `activate`. -/
def guardFailure (m : DaemonM Unit) : DaemonM Unit :=
  tryCatch m fun _ => do
    modify fun s => { s with signals := s.signals ++ [.activationFailure] }
    throw ()

/-- The creation of the interface, if there is none, with `excludeLocalNetworks` at the end. -/
def ensureInterface : DaemonM Unit := do
  if !(← get).interfaceExists then
    addInterface B
    setUpInterface B
    call B id

/-- The part of `activate` for a hop that is not connected. -/
def bringUp (config : InterfaceConfig) : DaemonM Unit := do
  ensureInterface B
  updatePeer B config
  maybeUpdateResolvers B config
  updateRoutes B config.allowedIPAddressRanges
  finishActivation config

/-- `Daemon::activate`, with a bound on its calls of itself. -/
def activateWith : ℕ → InterfaceConfig → DaemonM Unit
  | 0, _ => throw ()
  | fuel + 1, config => guardFailure do
    match (← get).connections config.hopType with
    | none => bringUp B config
    | some current =>
      if supportServerSwitching current.config config then
        switchServer B current.config config
        restoreResolvers B
        maybeUpdateResolvers B config
        finishActivation config
      else
        deactivate B false
        activateWith fuel config

/-- `Daemon::activate`. It calls itself only after `deactivate`, when no hop is connected. -/
def activate (config : InterfaceConfig) : DaemonM Unit := activateWith B 2 config

end Methods

/-! ## When every call succeeds -/

section Succeeding

variable {B : Backend}

/-- The method succeeds, and these are the connections, peers and routes after it. -/
def Leads (m : DaemonM Unit) (s : State) (connections : HopType → Option ConnectionState)
    (peers : List (List Char)) (routes : List IPAddress) : Prop :=
  ∃ s', exec m s = (.ok (), s') ∧ s'.connections = connections ∧ s'.peers = peers ∧
    s'.routes = routes

theorem Leads.bind {m m' : DaemonM Unit} {s : State}
    {connections connections' : HopType → Option ConnectionState}
    {peers peers' : List (List Char)} {routes routes' : List IPAddress}
    (h : Leads m s connections peers routes)
    (h' : ∀ s', s'.connections = connections → s'.peers = peers → s'.routes = routes →
      Leads m' s' connections' peers' routes') :
    Leads (m >>= fun _ => m') s connections' peers' routes' := by
  obtain ⟨s', hexec, hc, hp, hr⟩ := h
  obtain ⟨s'', hexec', hafter⟩ := h' s' hc hp hr
  exact ⟨s'', by rw [exec_bind_ok hexec, hexec'], hafter⟩

theorem leads_modify (f : State → State) (s : State) :
    Leads (modify f) s (f s).connections (f s).peers (f s).routes :=
  ⟨f s, rfl, rfl, rfl, rfl⟩

theorem leads_pure (s : State) : Leads (pure ()) s s.connections s.peers s.routes :=
  ⟨s, rfl, rfl, rfl, rfl⟩

theorem leads_get {f : State → DaemonM Unit} {s : State}
    {connections : HopType → Option ConnectionState} {peers : List (List Char)}
    {routes : List IPAddress} (h : Leads (f s) s connections peers routes) :
    Leads (get >>= f) s connections peers routes := by
  obtain ⟨s', hexec, hafter⟩ := h
  exact ⟨s', by rw [exec_bind_ok (exec_get s), hexec], hafter⟩

theorem leads_tryCatch {m : DaemonM Unit} {s : State}
    {connections : HopType → Option ConnectionState} {peers : List (List Char)}
    {routes : List IPAddress} (h : Leads m s connections peers routes)
    (handler : Unit → DaemonM Unit) :
    Leads (tryCatch m handler) s connections peers routes := by
  obtain ⟨s', hexec, hafter⟩ := h
  exact ⟨s', by rw [exec_tryCatch, hexec], hafter⟩

variable (hB : ∀ n, B.succeeds n = true)

include hB

theorem leads_call (effect : State → State) (s : State) :
    Leads (call B effect) s (effect s).connections (effect s).peers (effect s).routes := by
  refine ⟨{ effect s with calls := s.calls + 1 }, ?_, rfl, rfl, rfl⟩
  rw [call, exec_bind_ok (exec_get s), if_pos (hB s.calls), exec_modify]

theorem leads_callIgnored (effect : State → State) (s : State) :
    Leads (callIgnored B effect) s (effect s).connections (effect s).peers (effect s).routes :=
  leads_tryCatch (leads_call hB effect s) _

theorem leads_updateRoutes (ranges : List IPAddress) (s : State) :
    Leads (updateRoutes B ranges) s s.connections s.peers (ranges.reverse ++ s.routes) := by
  induction ranges generalizing s with
  | nil => exact leads_pure s
  | cons ip ranges ih =>
    change Leads (updateRoutePrefix B ip >>= fun _ => updateRoutes B ranges) s _ _ _
    rw [List.reverse_cons, List.append_assoc, List.singleton_append]
    refine (leads_call hB _ s).bind fun s' hc hp hr => ?_
    have := ih s'
    rw [hc, hp, hr] at this
    exact this

/-- The routes after the deletion of some prefixes. -/
def withoutRoutes (ranges routes : List IPAddress) : List IPAddress :=
  routes.filter fun r => ranges.all fun ip => r != ip

omit hB in
theorem withoutRoutes_append (ranges ranges' routes : List IPAddress) :
    withoutRoutes (ranges ++ ranges') routes =
      withoutRoutes ranges' (withoutRoutes ranges routes) := by
  rw [withoutRoutes, withoutRoutes, withoutRoutes, List.filter_filter]
  congr 1
  funext r
  rw [List.all_append, Bool.and_comm]

theorem leads_deleteRoutes (ranges : List IPAddress) (s : State) :
    Leads (deleteRoutes B ranges) s s.connections s.peers (withoutRoutes ranges s.routes) := by
  induction ranges generalizing s with
  | nil =>
    rw [show withoutRoutes [] s.routes = s.routes by simp [withoutRoutes]]
    exact leads_pure s
  | cons ip ranges ih =>
    change Leads (deleteRoutePrefix B ip >>= fun _ => deleteRoutes B ranges) s _ _ _
    have hone : withoutRoutes [ip] s.routes = s.routes.filter (· != ip) := by
      simp [withoutRoutes]
    rw [← List.singleton_append, withoutRoutes_append, hone]
    refine (leads_callIgnored hB _ s).bind fun s' hc hp hr => ?_
    have := ih s'
    rw [hc, hp, hr] at this
    exact this

theorem leads_maybeUpdateResolvers (config : InterfaceConfig) (s : State) :
    Leads (maybeUpdateResolvers B config) s s.connections s.peers s.routes := by
  unfold maybeUpdateResolvers
  split_ifs
  · exact leads_call hB _ s
  · exact leads_pure s

theorem leads_switchServer (last config : InterfaceConfig) (s : State) :
    Leads (switchServer B last config) s (setConnection config s).connections
      (if config.serverPublicKey != last.serverPublicKey then
        (config.serverPublicKey.chars :: s.peers).filter (· ≠ last.serverPublicKey.chars)
      else config.serverPublicKey.chars :: s.peers)
      (withoutRoutes (droppedRanges last config)
        (config.allowedIPAddressRanges.reverse ++ s.routes)) := by
  unfold switchServer
  refine (leads_call hB _ s).bind fun s₁ hc₁ hp₁ hr₁ => ?_
  refine (leads_tryCatch (leads_updateRoutes hB _ s₁) _).bind fun s₂ hc₂ hp₂ hr₂ => ?_
  refine (leads_deleteRoutes hB _ s₂).bind fun s₃ hc₃ hp₃ hr₃ => ?_
  have hconn : s₃.connections = s.connections := hc₃.trans (hc₂.trans hc₁)
  have hpeers : s₃.peers = config.serverPublicKey.chars :: s.peers := hp₃.trans (hp₂.trans hp₁)
  have hroutes : s₃.routes = withoutRoutes (droppedRanges last config)
      (config.allowedIPAddressRanges.reverse ++ s.routes) := by
    rw [hr₃, hr₂, hr₁]
  split_ifs with hkey
  · refine (leads_call hB _ s₃).bind fun s₄ hc₄ hp₄ hr₄ => ?_
    have := leads_modify (setConnection config) s₄
    simp only [setConnection, hc₄, hp₄, hr₄, withoutPeer, hconn, hpeers, hroutes] at this ⊢
    exact this
  · have := leads_modify (setConnection config) s₃
    simp only [setConnection, hconn, hpeers, hroutes] at this ⊢
    exact this

theorem leads_ensureInterface (s : State) :
    Leads (ensureInterface B) s s.connections s.peers s.routes := by
  unfold ensureInterface
  refine leads_get ?_
  split_ifs
  · refine (leads_call hB _ s).bind fun s₁ hc₁ hp₁ hr₁ => ?_
    have hsetUp : Leads (setUpInterface B) s₁ s.connections s.peers s.routes := by
      rw [← show s₁.connections = s.connections from hc₁, ← show s₁.peers = s.peers from hp₁,
        ← show s₁.routes = s.routes from hr₁]
      unfold setUpInterface
      split_ifs
      · refine (leads_call hB _ s₁).bind fun s₂ hc₂ hp₂ hr₂ => ?_
        have := leads_call hB id s₂
        rwa [id, hc₂, hp₂, hr₂] at this
      · exact leads_pure s₁
    refine hsetUp.bind fun s₂ hc₂ hp₂ hr₂ => ?_
    have := leads_call hB id s₂
    rwa [id, hc₂, hp₂, hr₂] at this
  · exact leads_pure s

theorem leads_bringUp (config : InterfaceConfig) (s : State) :
    Leads (bringUp B config) s (setConnection config s).connections
      (config.serverPublicKey.chars :: s.peers)
      (config.allowedIPAddressRanges.reverse ++ s.routes) := by
  unfold bringUp
  refine (leads_ensureInterface hB s).bind fun s₁ hc₁ hp₁ hr₁ => ?_
  refine (leads_call hB _ s₁).bind fun s₂ hc₂ hp₂ hr₂ => ?_
  refine (leads_maybeUpdateResolvers hB config s₂).bind fun s₃ hc₃ hp₃ hr₃ => ?_
  refine (leads_updateRoutes hB _ s₃).bind fun s₄ hc₄ hp₄ hr₄ => ?_
  have := leads_modify (fun s => { setConnection config s with handshakeTimer := true }) s₄
  simp only [setConnection, hc₄, hc₃, hc₂, hc₁, hp₄, hp₃, hp₂, hp₁, hr₄, hr₃, hr₂, hr₁] at this ⊢
  exact this

/-- The peers after the deletion of those of some connections. -/
def withoutPeers (states : List ConnectionState) (peers : List (List Char)) : List (List Char) :=
  peers.filter fun k => states.all fun c => k ≠ c.config.serverPublicKey.chars

omit hB in
theorem withoutPeers_cons (c : ConnectionState) (states : List ConnectionState)
    (peers : List (List Char)) :
    withoutPeers (c :: states) peers =
      withoutPeers states (peers.filter (· ≠ c.config.serverPublicKey.chars)) := by
  rw [withoutPeers, withoutPeers, List.filter_filter]
  congr 1
  funext k
  rw [List.all_cons, Bool.and_comm]

theorem leads_cleanUp (states : List ConnectionState) (s : State) :
    Leads (states.forM (cleanUp B)) s s.connections (withoutPeers states s.peers)
      (withoutRoutes (states.flatMap fun c => c.config.allowedIPAddressRanges) s.routes) := by
  induction states generalizing s with
  | nil =>
    have := leads_pure s
    simpa [withoutPeers, withoutRoutes] using this
  | cons c states ih =>
    change Leads (cleanUp B c >>= fun _ => states.forM (cleanUp B)) s _ _ _
    have hclean : Leads (cleanUp B c) s s.connections
        (s.peers.filter (· ≠ c.config.serverPublicKey.chars))
        (withoutRoutes c.config.allowedIPAddressRanges s.routes) := by
      unfold cleanUp
      refine (leads_deleteRoutes hB _ s).bind fun s₁ hc₁ hp₁ hr₁ => ?_
      have := leads_callIgnored hB (withoutPeer c.config) s₁
      simp only [withoutPeer, hc₁, hp₁, hr₁] at this
      exact this
    refine hclean.bind fun s₁ hc₁ hp₁ hr₁ => ?_
    have := ih s₁
    rw [hc₁, hp₁, hr₁] at this
    rw [List.flatMap_cons, withoutRoutes_append, withoutPeers_cons]
    exact this

/-- Deactivating leaves no connection, and no peer and no route of the former ones. -/
theorem leads_deactivate (emitSignals : Bool) (s : State) :
    Leads (deactivate B emitSignals) s (fun _ => none) (withoutPeers (connectionList s) s.peers)
      (withoutRoutes ((connectionList s).flatMap fun c => c.config.allowedIPAddressRanges)
        s.routes) := by
  unfold deactivate
  refine (leads_callIgnored hB _ s).bind fun s₁ hc₁ hp₁ hr₁ => ?_
  refine leads_get ?_
  have hlist : connectionList s₁ = connectionList s := by
    rw [connectionList, hc₁, connectionList]
  refine (leads_cleanUp hB _ s₁).bind fun s₂ hc₂ hp₂ hr₂ => ?_
  refine (leads_modify _ s₂).bind fun s₃ hc₃ hp₃ hr₃ => ?_
  refine (leads_tryCatch (leads_call hB _ s₃) _).bind fun s₄ hc₄ hp₄ hr₄ => ?_
  have hconn : s₄.connections = fun _ => none := hc₄.trans hc₃
  have hpeers : s₄.peers = withoutPeers (connectionList s) s.peers := by
    rw [hp₄, hp₃, hp₂, hp₁, hlist]
  have hroutes : s₄.routes =
      withoutRoutes ((connectionList s).flatMap fun c => c.config.allowedIPAddressRanges)
        s.routes := by
    rw [hr₄, hr₃, hr₂, hr₁, hlist]
  rw [← hconn, ← hpeers, ← hroutes]
  split_ifs
  · exact leads_modify _ s₄
  · exact leads_pure s₄

theorem leads_activateWith_new {config : InterfaceConfig} {s : State} (fuel : ℕ)
    (h : s.connections config.hopType = none) :
    Leads (activateWith B (fuel + 1) config) s (setConnection config s).connections
      (config.serverPublicKey.chars :: s.peers)
      (config.allowedIPAddressRanges.reverse ++ s.routes) := by
  unfold activateWith
  refine leads_tryCatch (leads_get ?_) _
  rw [h]
  exact leads_bringUp hB config s

theorem leads_activate_switch {config : InterfaceConfig} {s : State} {current : ConnectionState}
    (h : s.connections config.hopType = some current)
    (hs : supportServerSwitching current.config config = true) :
    Leads (activate B config) s (setConnection config s).connections
      (if config.serverPublicKey != current.config.serverPublicKey then
        (config.serverPublicKey.chars :: s.peers).filter
          (· ≠ current.config.serverPublicKey.chars)
      else config.serverPublicKey.chars :: s.peers)
      (withoutRoutes (droppedRanges current.config config)
        (config.allowedIPAddressRanges.reverse ++ s.routes)) := by
  unfold activate activateWith
  refine leads_tryCatch (leads_get ?_) _
  rw [h]
  dsimp only
  rw [if_pos hs]
  refine (leads_switchServer hB _ _ s).bind fun s₁ hc₁ hp₁ hr₁ => ?_
  refine (leads_call hB _ s₁).bind fun s₂ hc₂ hp₂ hr₂ => ?_
  refine (leads_maybeUpdateResolvers hB config s₂).bind fun s₃ hc₃ hp₃ hr₃ => ?_
  have := leads_modify (fun s => { setConnection config s with handshakeTimer := true }) s₃
  simp only [setConnection, hc₃, hc₂, hc₁, hp₃, hp₂, hp₁, hr₃, hr₂, hr₁,
    Function.update_idem] at this ⊢
  exact this

/-- A configuration that the connection cannot be switched to: all hops are disconnected first. -/
theorem leads_activate_restart {config : InterfaceConfig} {s : State} {current : ConnectionState}
    (h : s.connections config.hopType = some current)
    (hs : ¬ supportServerSwitching current.config config = true) :
    Leads (activate B config) s
      (Function.update (fun _ => none) config.hopType (some { config }))
      (config.serverPublicKey.chars :: withoutPeers (connectionList s) s.peers)
      (config.allowedIPAddressRanges.reverse ++
        withoutRoutes ((connectionList s).flatMap fun c => c.config.allowedIPAddressRanges)
          s.routes) := by
  unfold activate activateWith
  refine leads_tryCatch (leads_get ?_) _
  rw [h]
  dsimp only
  rw [if_neg hs]
  refine (leads_deactivate hB false s).bind fun s₁ hc₁ hp₁ hr₁ => ?_
  have hnone : s₁.connections config.hopType = none := by rw [hc₁]
  have := leads_activateWith_new hB 0 hnone
  rw [setConnection, hc₁, hp₁, hr₁] at this
  exact this

end Succeeding

/-! ## Routes and peers -/

/-- The prefixes of a list, as `operator==` tells them apart. -/
def routeSet (ranges : List IPAddress) : Set (NetworkLayerProtocol × (ℕ → Bool) × ℤ) :=
  { k | ∃ ip ∈ ranges, ip.key = k }

/-- The prefixes that the connected configurations allow. -/
def allowedRoutes (s : State) : Set (NetworkLayerProtocol × (ℕ → Bool) × ℤ) :=
  { k | ∃ hop, ∃ c ∈ s.connections hop, k ∈ routeSet c.config.allowedIPAddressRanges }

/-- The public keys of the connected configurations. -/
def allowedPeers (s : State) : Set (List Char) :=
  { k | ∃ hop, ∃ c ∈ s.connections hop, c.config.serverPublicKey.chars = k }

/-- The routes and the peers are those of the connected configurations. -/
structure Routed (s : State) : Prop where
  routes : routeSet s.routes = allowedRoutes s
  peers : { k | k ∈ s.peers } = allowedPeers s

theorem mem_routeSet {l : List IPAddress} {k} : k ∈ routeSet l ↔ ∃ ip ∈ l, ip.key = k := Iff.rfl

theorem mem_routeSet_append {l l' : List IPAddress} {k} :
    k ∈ routeSet (l ++ l') ↔ k ∈ routeSet l ∨ k ∈ routeSet l' := by
  simp only [mem_routeSet, List.mem_append, or_and_right, exists_or]

theorem mem_routeSet_reverse {l : List IPAddress} {k} :
    k ∈ routeSet l.reverse ↔ k ∈ routeSet l := by
  simp only [mem_routeSet, List.mem_reverse]

theorem bne_iff_key {p q : IPAddress} : (p != q) = true ↔ p.key ≠ q.key := by
  rw [bne, Bool.not_eq_true', ← Bool.not_eq_true, IPAddress.beq_iff_key]

theorem mem_routeSet_withoutRoutes {ranges routes : List IPAddress} {k} :
    k ∈ routeSet (withoutRoutes ranges routes) ↔ k ∈ routeSet routes ∧ k ∉ routeSet ranges := by
  simp only [mem_routeSet, withoutRoutes, List.mem_filter, List.all_eq_true, bne_iff_key]
  constructor
  · rintro ⟨r, ⟨hr, hall⟩, rfl⟩
    refine ⟨⟨r, hr, rfl⟩, ?_⟩
    rintro ⟨ip, hip, heq⟩
    exact hall ip hip heq.symm
  · rintro ⟨⟨r, hr, rfl⟩, hnot⟩
    exact ⟨r, ⟨hr, fun ip hip heq => hnot ⟨ip, hip, heq.symm⟩⟩, rfl⟩

theorem mem_routeSet_droppedRanges {last config : InterfaceConfig} {k} :
    k ∈ routeSet (droppedRanges last config) ↔
      k ∈ routeSet last.allowedIPAddressRanges ∧ k ∉ routeSet config.allowedIPAddressRanges := by
  simp only [mem_routeSet, droppedRanges, List.mem_filter, Bool.not_eq_true', List.any_eq_false,
    IPAddress.beq_iff_key]
  constructor
  · rintro ⟨r, ⟨hr, hnone⟩, rfl⟩
    exact ⟨⟨r, hr, rfl⟩, fun ⟨ip, hip, heq⟩ => hnone ip hip heq⟩
  · rintro ⟨⟨r, hr, rfl⟩, hnot⟩
    exact ⟨r, ⟨hr, fun ip hip heq => hnot ⟨ip, hip, heq⟩⟩, rfl⟩

/-- A request to the daemon. -/
inductive Request where
  | activate (config : InterfaceConfig)
  | deactivate (emitSignals : Bool)

/-- The state after a request. -/
def step (B : Backend) (s : State) : Request → State
  | .activate config => (exec (activate B config) s).2
  | .deactivate emitSignals => (exec (deactivate B emitSignals) s).2

/-- Switching from `last` to `config` takes nothing away from another hop: no other hop allows a
range that only `last` has, and none has its public key unless the key stays. -/
def KeepsOthers (s : State) (last config : InterfaceConfig) : Prop :=
  ∀ hop ≠ config.hopType, ∀ other ∈ s.connections hop,
    (∀ ip ∈ droppedRanges last config, ∀ ip' ∈ other.config.allowedIPAddressRanges,
      (ip' == ip) = false) ∧
    (config.serverPublicKey.chars ≠ last.serverPublicKey.chars →
      other.config.serverPublicKey.chars ≠ last.serverPublicKey.chars)

/-- The condition on a request: an activation that switches servers takes nothing away from another
hop. -/
def Undisturbing (s : State) : Request → Prop
  | .activate config => ∀ current ∈ s.connections config.hopType,
    supportServerSwitching current.config config = true → KeepsOthers s current.config config
  | .deactivate _ => True

theorem exists_update {connections : HopType → Option ConnectionState} {config : InterfaceConfig}
    {P : ConnectionState → Prop} :
    (∃ hop, ∃ c ∈ Function.update connections config.hopType (some { config }) hop, P c) ↔
      P { config } ∨ ∃ hop ≠ config.hopType, ∃ c ∈ connections hop, P c := by
  constructor
  · rintro ⟨hop, c, hc, hP⟩
    by_cases hhop : hop = config.hopType
    · subst hhop
      rw [Function.update_self] at hc
      obtain rfl : c = { config } := by simpa using hc.symm
      exact Or.inl hP
    · rw [Function.update_of_ne hhop] at hc
      exact Or.inr ⟨hop, hhop, c, hc, hP⟩
  · rintro (hP | ⟨hop, hhop, c, hc, hP⟩)
    · exact ⟨config.hopType, { config }, by simp, hP⟩
    · exact ⟨hop, c, by rwa [Function.update_of_ne hhop], hP⟩

theorem mem_connectionList {s : State} {c : ConnectionState} :
    c ∈ connectionList s ↔ ∃ hop, c ∈ s.connections hop := by
  rw [connectionList, List.mem_filterMap]
  constructor
  · rintro ⟨hop, -, hc⟩
    exact ⟨hop, hc⟩
  · rintro ⟨hop, hc⟩
    exact ⟨hop, by cases hop <;> simp, hc⟩

theorem mem_allowedRoutes {s : State} {k} : k ∈ allowedRoutes s ↔
    ∃ hop, ∃ c ∈ s.connections hop, k ∈ routeSet c.config.allowedIPAddressRanges := Iff.rfl

theorem mem_allowedPeers {s : State} {k} : k ∈ allowedPeers s ↔
    ∃ hop, ∃ c ∈ s.connections hop, c.config.serverPublicKey.chars = k := Iff.rfl

section Step

variable {B : Backend} {s : State}

theorem Routed.mem_routes (hs : Routed s) {k} : k ∈ routeSet s.routes ↔
    ∃ hop, ∃ c ∈ s.connections hop, k ∈ routeSet c.config.allowedIPAddressRanges := by
  rw [hs.routes]
  rfl

theorem Routed.mem_peers (hs : Routed s) {k} : k ∈ s.peers ↔
    ∃ hop, ∃ c ∈ s.connections hop, c.config.serverPublicKey.chars = k := by
  rw [← mem_allowedPeers, ← hs.peers]
  rfl

theorem Routed.not_mem_cleared_routes (hs : Routed s) (k) : k ∉ routeSet (withoutRoutes
    ((connectionList s).flatMap fun c => c.config.allowedIPAddressRanges) s.routes) := by
  rw [mem_routeSet_withoutRoutes, hs.mem_routes]
  rintro ⟨⟨hop, c, hc, ip, hip, rfl⟩, hnot⟩
  refine hnot ⟨ip, List.mem_flatMap.mpr ⟨c, mem_connectionList.mpr ⟨hop, hc⟩, hip⟩, rfl⟩

theorem Routed.not_mem_cleared_peers (hs : Routed s) (k : List Char) :
    k ∉ withoutPeers (connectionList s) s.peers := by
  rw [withoutPeers, List.mem_filter, hs.mem_peers]
  rintro ⟨⟨hop, c, hc, rfl⟩, hall⟩
  have := List.all_eq_true.mp hall c (mem_connectionList.mpr ⟨hop, hc⟩)
  simp at this

theorem Routed.added (hs : Routed s) {config : InterfaceConfig}
    (hnew : s.connections config.hopType = none) {s' : State}
    (hc : s'.connections = (setConnection config s).connections)
    (hp : s'.peers = config.serverPublicKey.chars :: s.peers)
    (hr : s'.routes = config.allowedIPAddressRanges.reverse ++ s.routes) : Routed s' := by
  have hother : ∀ P : ConnectionState → Prop, (∃ hop, ∃ c ∈ s.connections hop, P c) ↔
      ∃ hop ≠ config.hopType, ∃ c ∈ s.connections hop, P c := by
    intro P
    constructor
    · rintro ⟨hop, c, hc, hP⟩
      refine ⟨hop, fun hhop => ?_, c, hc, hP⟩
      rw [hhop, hnew] at hc
      cases hc
    · rintro ⟨hop, -, c, hc, hP⟩
      exact ⟨hop, c, hc, hP⟩
  constructor
  · ext k
    rw [mem_allowedRoutes, hc, setConnection, exists_update, hr, mem_routeSet_append,
      mem_routeSet_reverse, hs.mem_routes, hother]
  · ext k
    rw [mem_allowedPeers, hc, setConnection, exists_update, ← hother]
    show k ∈ s'.peers ↔ _
    rw [hp, List.mem_cons, hs.mem_peers, eq_comm]

/-- The connections by hop: the one of `config`'s hop, and the others. -/
theorem exists_split {config : InterfaceConfig} {current : ConnectionState}
    (h : s.connections config.hopType = some current) {P : ConnectionState → Prop} :
    (∃ hop, ∃ c ∈ s.connections hop, P c) ↔
      P current ∨ ∃ hop ≠ config.hopType, ∃ c ∈ s.connections hop, P c := by
  constructor
  · rintro ⟨hop, c, hc, hP⟩
    by_cases hhop : hop = config.hopType
    · rw [hhop, h] at hc
      obtain rfl : c = current := by simpa using hc.symm
      exact Or.inl hP
    · exact Or.inr ⟨hop, hhop, c, hc, hP⟩
  · rintro (hP | ⟨hop, -, c, hc, hP⟩)
    · exact ⟨config.hopType, current, h, hP⟩
    · exact ⟨hop, c, hc, hP⟩

theorem keepsOthers_iff {last config : InterfaceConfig} : KeepsOthers s last config ↔
    (∀ k, (∃ hop ≠ config.hopType, ∃ c ∈ s.connections hop,
      k ∈ routeSet c.config.allowedIPAddressRanges) → k ∉ routeSet (droppedRanges last config)) ∧
    (config.serverPublicKey.chars ≠ last.serverPublicKey.chars →
      ¬ ∃ hop ≠ config.hopType, ∃ c ∈ s.connections hop,
        c.config.serverPublicKey.chars = last.serverPublicKey.chars) := by
  constructor
  · intro h
    constructor
    · rintro k ⟨hop, hhop, c, hc, ip', hip', rfl⟩ ⟨ip, hip, heq⟩
      have := (h hop hhop c hc).1 ip hip ip' hip'
      rw [IPAddress.beq_iff_key.mpr heq.symm] at this
      cases this
    · rintro hne ⟨hop, hhop, c, hc, heq⟩
      exact (h hop hhop c hc).2 hne heq
  · rintro ⟨hroutes, hpeers⟩ hop hhop c hc
    refine ⟨fun ip hip ip' hip' => ?_, fun hne heq => hpeers hne ⟨hop, hhop, c, hc, heq⟩⟩
    rw [← Bool.not_eq_true, IPAddress.beq_iff_key]
    exact fun heq => hroutes _ ⟨hop, hhop, c, hc, ip', hip', rfl⟩ ⟨ip, hip, heq.symm⟩

section Switched

variable {config : InterfaceConfig} {current : ConnectionState} {s' : State}

theorem Routed.switched_routes_iff (hs : Routed s)
    (hcurrent : s.connections config.hopType = some current)
    (hc : s'.connections = (setConnection config s).connections)
    (hr : s'.routes = withoutRoutes (droppedRanges current.config config)
        (config.allowedIPAddressRanges.reverse ++ s.routes)) :
    routeSet s'.routes = allowedRoutes s' ↔
      ∀ k, (∃ hop ≠ config.hopType, ∃ c ∈ s.connections hop,
        k ∈ routeSet c.config.allowedIPAddressRanges) →
          k ∉ routeSet (droppedRanges current.config config) := by
  rw [Set.ext_iff]
  refine forall_congr' fun k => ?_
  rw [mem_allowedRoutes, hc, setConnection, exists_update, hr, mem_routeSet_withoutRoutes,
    mem_routeSet_append, mem_routeSet_reverse, hs.mem_routes, exists_split hcurrent,
    mem_routeSet_droppedRanges]
  dsimp only
  generalize (∃ hop, hop ≠ config.hopType ∧ ∃ c ∈ s.connections hop,
    k ∈ routeSet c.config.allowedIPAddressRanges) = others
  by_cases hnew : k ∈ routeSet config.allowedIPAddressRanges
  · simp [hnew]
  · by_cases hold : k ∈ routeSet current.config.allowedIPAddressRanges
    · simp [hnew, hold]
    · simp [hnew, hold]

/-- The peers after a switch to another key: the old one is gone, whoever else used it. -/
theorem Routed.mem_switched_peers (hs : Routed s)
    (hcurrent : s.connections config.hopType = some current)
    (hp : s'.peers = (config.serverPublicKey.chars :: s.peers).filter
      (· ≠ current.config.serverPublicKey.chars)) (k : List Char) :
    k ∈ s'.peers ↔ (k = config.serverPublicKey.chars ∨
      ∃ hop ≠ config.hopType, ∃ c ∈ s.connections hop, c.config.serverPublicKey.chars = k) ∧
        k ≠ current.config.serverPublicKey.chars := by
  rw [hp, List.mem_filter, List.mem_cons, hs.mem_peers, exists_split hcurrent]
  simp only [decide_not, Bool.not_eq_true', decide_eq_false_iff_not]
  constructor
  · rintro ⟨h | h | h, hne⟩
    · exact ⟨Or.inl h, hne⟩
    · exact absurd h.symm hne
    · exact ⟨Or.inr h, hne⟩
  · rintro ⟨h | h, hne⟩
    · exact ⟨Or.inl h, hne⟩
    · exact ⟨Or.inr (Or.inr h), hne⟩

theorem Routed.switched_peers_iff (hs : Routed s)
    (hcurrent : s.connections config.hopType = some current)
    (hc : s'.connections = (setConnection config s).connections)
    (hp : s'.peers = if config.serverPublicKey != current.config.serverPublicKey then
        (config.serverPublicKey.chars :: s.peers).filter
          (· ≠ current.config.serverPublicKey.chars)
      else config.serverPublicKey.chars :: s.peers) :
    { k | k ∈ s'.peers } = allowedPeers s' ↔
      (config.serverPublicKey.chars ≠ current.config.serverPublicKey.chars →
        ¬ ∃ hop ≠ config.hopType, ∃ c ∈ s.connections hop,
          c.config.serverPublicKey.chars = current.config.serverPublicKey.chars) := by
  rw [Set.ext_iff]
  simp only [mem_allowedPeers, hc, setConnection, exists_update]
  change (∀ k, k ∈ s'.peers ↔ _) ↔ _
  by_cases hkey : config.serverPublicKey.chars = current.config.serverPublicKey.chars
  · have hsame : (config.serverPublicKey != current.config.serverPublicKey) = false := by
      rw [bne, QString.beq_iff.mpr hkey, Bool.not_true]
    refine iff_of_true (fun k => ?_) fun hne => absurd hkey hne
    rw [hp, hsame, if_neg Bool.false_ne_true, List.mem_cons, hs.mem_peers,
      exists_split hcurrent, ← hkey]
    tauto
  · have hdiff : (config.serverPublicKey != current.config.serverPublicKey) = true := by
      rw [bne, Bool.not_eq_true', ← Bool.not_eq_true, QString.beq_iff]
      exact hkey
    rw [if_pos hdiff] at hp
    have hmem := hs.mem_switched_peers hcurrent hp
    constructor
    · intro h _ hother
      have := (h current.config.serverPublicKey.chars).mpr (Or.inr hother)
      exact ((hmem _).mp this).2 rfl
    · intro h k
      rw [hmem k]
      constructor
      · rintro ⟨rfl | hother, -⟩
        · exact Or.inl rfl
        · exact Or.inr hother
      · rintro (rfl | hother)
        · exact ⟨Or.inl rfl, hkey⟩
        · refine ⟨Or.inr hother, ?_⟩
          rintro rfl
          exact h hkey hother

/-- **Switching the server of a hop** keeps routes and peers right exactly when it takes nothing
away from another hop. -/
theorem Routed.switched_iff (hs : Routed s)
    (hcurrent : s.connections config.hopType = some current)
    (hc : s'.connections = (setConnection config s).connections)
    (hp : s'.peers = if config.serverPublicKey != current.config.serverPublicKey then
        (config.serverPublicKey.chars :: s.peers).filter
          (· ≠ current.config.serverPublicKey.chars)
      else config.serverPublicKey.chars :: s.peers)
    (hr : s'.routes = withoutRoutes (droppedRanges current.config config)
        (config.allowedIPAddressRanges.reverse ++ s.routes)) :
    Routed s' ↔ KeepsOthers s current.config config := by
  rw [keepsOthers_iff, ← hs.switched_routes_iff hcurrent hc hr,
    ← hs.switched_peers_iff hcurrent hc hp]
  exact ⟨fun h => ⟨h.routes, h.peers⟩, fun h => ⟨h.1, h.2⟩⟩

end Switched

theorem step_eq_of_leads {m : DaemonM Unit} {connections : HopType → Option ConnectionState}
    {peers : List (List Char)} {routes : List IPAddress} (h : Leads m s connections peers routes) :
    (exec m s).2.connections = connections ∧ (exec m s).2.peers = peers ∧
      (exec m s).2.routes = routes := by
  obtain ⟨s', hexec, hafter⟩ := h
  rw [hexec]
  exact hafter

theorem Routed.step (hB : ∀ n, B.succeeds n = true) (hs : Routed s) {request : Request}
    (hu : Undisturbing s request) : Routed (step B s request) := by
  cases request with
  | deactivate emitSignals =>
    obtain ⟨hc, hp, hr⟩ := step_eq_of_leads (leads_deactivate hB emitSignals s)
    constructor
    · ext k
      rw [mem_allowedRoutes, Daemon.step, hc, hr]
      exact iff_of_false (hs.not_mem_cleared_routes k) (by simp)
    · ext k
      rw [mem_allowedPeers, Daemon.step, hc]
      show k ∈ (exec _ s).2.peers ↔ _
      rw [hp]
      exact iff_of_false (hs.not_mem_cleared_peers k) (by simp)
  | activate config =>
    cases hcurrent : s.connections config.hopType with
    | none =>
      obtain ⟨hc, hp, hr⟩ := step_eq_of_leads (leads_activateWith_new hB 1 hcurrent)
      exact hs.added hcurrent hc hp hr
    | some current =>
      by_cases hswitch : supportServerSwitching current.config config = true
      · obtain ⟨hc, hp, hr⟩ := step_eq_of_leads (leads_activate_switch hB hcurrent hswitch)
        exact (hs.switched_iff hcurrent hc hp hr).mpr (hu current hcurrent hswitch)
      · obtain ⟨hc, hp, hr⟩ := step_eq_of_leads (leads_activate_restart hB hcurrent hswitch)
        constructor
        · ext k
          rw [mem_allowedRoutes, Daemon.step, hc, hr, exists_update, mem_routeSet_append,
            mem_routeSet_reverse, or_iff_left (hs.not_mem_cleared_routes k)]
          simp
        · ext k
          rw [mem_allowedPeers, Daemon.step, hc, exists_update]
          show k ∈ (exec _ s).2.peers ↔ _
          rw [hp, List.mem_cons, or_iff_left (hs.not_mem_cleared_peers k)]
          simp [eq_comm]

end Step

/-- **Routes and peers over a run.** From a state in which the routes and peers are those of the
connections, as the initial one, with a backend whose calls succeed, they are so in every state of a
run in which no switch takes away what another hop uses. -/
theorem routing_run {B : Backend} (hB : ∀ n, B.succeeds n = true) {s : State} (hs : Routed s)
    {requests : List Request} (hu : Guarded (step B) Undisturbing s requests) (n : ℕ) :
    Routed ((requests.take n).foldl (step B) s) :=
  hu.invariant (fun _ _ hs hu => hs.step hB hu) hs n

theorem routed_init : Routed {} := by
  constructor
  · ext k
    simp [routeSet, allowedRoutes]
  · ext k
    simp [allowedPeers]

/-! ## Two hops with a common range -/

/-- A configuration of a hop with one server and one IPv4 range. -/
def hopConfig (hopType : HopType) (key : String) (range : BitVec 32) : InterfaceConfig :=
  { hopType
    privateKey := .text "a".toList
    deviceIpv4Address := .text "10.0.0.2/32".toList
    serverPublicKey := .text key.toList
    serverIpv4AddrIn := .text "192.0.2.1".toList
    serverPort := 51820
    allowedIPAddressRanges := [⟨.ipv4 range, 8⟩] }

def succeedingBackend : Backend where
  addressText := .ofTable [] []
  hasIpUtils := true
  succeeds _ := true

/-- Both hops allow 10.0.0.0/8; then the entry hop gets another server. -/
def sharedRangeRequests : List Request :=
  [.activate (hopConfig .multiHopEntry "b" 0x0a000000#32),
    .activate (hopConfig .multiHopExit "c" 0x0a000000#32),
    .activate (hopConfig .multiHopEntry "d" 0x0b000000#32)]

/-- The range of the exit hop is gone although its configuration is still connected. -/
theorem shared_range_deleted :
    Routed {} ∧ (∀ n, succeedingBackend.succeeds n = true) ∧
      ¬ Routed (sharedRangeRequests.foldl (step succeedingBackend) {}) := by
  refine ⟨routed_init, fun _ => rfl, fun h => ?_⟩
  have hexit : (⟨.ipv4 0x0a000000#32, 8⟩ : IPAddress).key ∈
      allowedRoutes (sharedRangeRequests.foldl (step succeedingBackend) {}) :=
    ⟨.multiHopExit, { config := hopConfig .multiHopExit "c" 0x0a000000#32 }, rfl, _,
      List.mem_singleton_self _, rfl⟩
  have hroutes : (sharedRangeRequests.foldl (step succeedingBackend) {}).routes =
      [⟨.ipv4 0x0b000000#32, 8⟩] := by decide
  rw [← h.routes, hroutes] at hexit
  obtain ⟨ip, hip, hkey⟩ := hexit
  rw [List.mem_singleton.mp hip, ← IPAddress.beq_iff_key] at hkey
  exact absurd hkey (by decide)

/-- The same with different ranges: switching the entry hop leaves the exit hop its own. -/
def disjointRangeRequests : List Request :=
  [.activate (hopConfig .multiHopEntry "b" 0x0a000000#32),
    .activate (hopConfig .multiHopExit "c" 0x0c000000#32),
    .activate (hopConfig .multiHopEntry "d" 0x0b000000#32)]

theorem routed_disjointRangeRequests :
    Routed ((disjointRangeRequests.take 3).foldl (step succeedingBackend) {}) := by
  have hu : Guarded (step succeedingBackend) Undisturbing {} disjointRangeRequests := by
    refine ⟨?_, ?_, ?_, trivial⟩
    · rintro current hcurrent -
      cases hcurrent
    · rintro current hcurrent -
      cases hcurrent
    · rintro current hcurrent -
      obtain rfl : { config := hopConfig .multiHopEntry "b" 0x0a000000#32 } = current :=
        Option.some.inj hcurrent
      intro hop hhop other hother
      cases hop with
      | singleHop => cases hother
      | multiHopEntry => exact absurd rfl hhop
      | multiHopExit =>
        obtain rfl : { config := hopConfig .multiHopExit "c" 0x0c000000#32 } = other :=
          Option.some.inj hother
        exact ⟨by decide, by decide⟩
  exact routing_run (fun _ => rfl) routed_init hu 3

end Daemon

end WgDesktop
