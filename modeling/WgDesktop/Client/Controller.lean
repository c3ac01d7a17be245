import WgDesktop.Client.Server
import WgDesktop.Lib.Runs

/-!
# The controller of the client

The state machine of `src/controller.cpp` on a desktop platform. `Controller` is the part of the
object its transitions read, `Env` what they look up elsewhere at the time of an event (the
settings, the models, the random generator), and `step` one event. The calls and signals of the
event that came last are in `out`; a state change is one of them, the other change notifications
can be read off the state. The controller implementation answers with later events. Connection
times, which no transition looks at, are left out, and so is the connectivity check, a feature that
is compiled out.
-/

namespace WgDesktop

namespace Controller

/-- `Controller::State`, from least to most active. -/
inductive State where
  | initializing
  | permissionRequired
  | off
  | disconnecting
  | regeneratingKey
  | connectionError
  | connecting
  | confirming
  | switching
  | silentSwitching
  | onPartial
  | on
  deriving DecidableEq, Repr

inductive Reason where
  | none
  | switching
  | confirming
  | updating
  deriving DecidableEq, Repr

inductive ErrorCode where
  | none
  | fatal
  | splitTunnelInit
  | splitTunnelStart
  | splitTunnelExclude
  | serverTimeout
  | noServerAvailable
  deriving DecidableEq, Repr

/-- `Controller::ActivationPrincipal`: who asked for the connection. -/
inductive ActivationPrincipal where
  | null
  | extensionUser
  | clientUser
  deriving DecidableEq, Repr

inductive NextStep where
  | none
  | quit
  | update
  | reconnect
  | disconnect
  deriving DecidableEq, Repr

inductive DNSPortPolicy where
  | forceDNSPort
  | doNotForceDNSPort
  deriving DecidableEq, Repr

inductive ServerSelectionPolicy where
  | randomizeServerSelection
  | doNotRandomizeServerSelection
  deriving DecidableEq, Repr

/-- `Controller::ServerCoolDownPolicyForSilentSwitch`. -/
inductive ServerCoolDownPolicy where
  | serverCoolDownNeeded
  | serverCoolDownNotNeeded
  deriving DecidableEq, Repr

/-- How a silent switch selects the server: a server that cools down is replaced by another. -/
def ServerCoolDownPolicy.selection : ServerCoolDownPolicy → ServerSelectionPolicy
  | .serverCoolDownNeeded => .randomizeServerSelection
  | .serverCoolDownNotNeeded => .doNotRandomizeServerSelection

/-- The place of a state in the enumeration. -/
def State.rank (s : State) : ℕ := s.ctorIdx

/-- The place of a principal in the enumeration. -/
def ActivationPrincipal.rank (p : ActivationPrincipal) : ℕ := p.ctorIdx

def stateToReason : State → Reason
  | .switching | .silentSwitching => .switching
  | .confirming => .confirming
  | _ => .none

def connectionMaxRetry : ℕ := 9

/-- The addresses of the user's device. -/
structure Device where
  ipv4Address : QString
  ipv6Address : QString
  deriving DecidableEq, Repr

/-- What the controller looks up when it handles an event: the WireGuard profiles, the device and
its key, the server models (`getServerList` leaves out servers that are cooling down), the settings,
and what the controller implementation supports. `random` gives the successive draws. -/
structure Env where
  T : HostAddressText
  hasProfiles : Bool
  currentDevice : Option Device
  privateKey : QString
  server : QString → Server
  getServerList : QString → QString → List Server
  random : ℕ → ℕ
  getTranslatedCityName : QString → QString
  settingsServerData : ServerData
  dnsSettings : DnsSettings
  vpnDisabledApps : List (List Char)
  alwaysPort53 : Bool
  splitTunnelSupported : Bool
  multihopSupported : Bool

/-- The calls on the controller implementation and the other objects, and the signals. -/
inductive Output where
  | implInitialize
  | implActivate (config : InterfaceConfig) (reason : Reason)
  | implDeactivate
  | implDeleteOSTunnelConfig
  | stateChanged (state : State)
  | readyToQuit
  | readyToUpdate
  | readyToServerUnavailable (pingReceived : Bool)
  | activationBlockedForCaptivePortal
  | setCooldown (publicKey : QString)
  | vpnReset
  deriving DecidableEq, Repr

end Controller

open Controller

/-- `Controller`. The flag `handshakeTimer` says that the timer runs, and `pingCanary` which address
is pinged in which range. -/
structure Controller where
  state : State := .initializing
  nextStep : NextStep := .none
  initiator : ActivationPrincipal := .null
  activationQueue : List InterfaceConfig := []
  connectionRetry : ℕ := 0
  errorCode : ErrorCode := .none
  hasImpl : Bool := false
  backendAvailable : Bool := false
  portalDetected : Bool := false
  handshakeTimer : Bool := false
  pingCanary : Option (QString × List Char) := .none
  pingReceived : Bool := false
  serverData : ServerData := {}
  nextServerData : ServerData := {}
  out : List Output := []
  deriving DecidableEq, Repr

namespace Controller

/-! ## Setters -/

def emit (c : Controller) (o : Output) : Controller := { c with out := c.out ++ [o] }

def isActive (c : Controller) : Bool := State.rank .off < c.state.rank

def isInitialized (c : Controller) : Bool := State.rank .off ≤ c.state.rank

def setState (c : Controller) (s : State) : Controller :=
  if c.state = s then c else { c with state := s, out := c.out ++ [.stateChanged s] }

def setError (c : Controller) (code : ErrorCode) : Controller := { c with errorCode := code }

def clearRetryCounter (c : Controller) : Controller := { c with connectionRetry := 0 }

/-- The prompt for a captive portal, which is shown once. -/
def promptCaptivePortal (c : Controller) : Controller :=
  { c.emit .activationBlockedForCaptivePortal with portalDetected := false }

/-! ## Activation -/

/-- `serverUnavailable`: without a tunnel yet, the error allows going straight to `off`. -/
def serverUnavailable (c : Controller) : Controller :=
  let c := c.emit (.readyToServerUnavailable c.pingReceived)
  let c := c.setError (if c.state = .connecting then .noServerAvailable else .serverTimeout)
  c.setState .connectionError

/-- The exit server of `setupConfigs`: the one in use, or one drawn by weight. -/
def exitServer (env : Env) (policy : ServerSelectionPolicy) (data : ServerData) : Server :=
  if policy = .doNotRandomizeServerSelection ∧ !data.exitServerPublicKey.isEmpty then
    env.server data.exitServerPublicKey
  else Server.weightChooser (data.exitServers env.getServerList) (env.random 0)

/-- The entry server of `setupConfigs`. -/
def entryServer (env : Env) (policy : ServerSelectionPolicy) (data : ServerData) : Server :=
  if policy = .doNotRandomizeServerSelection ∧ !data.entryServerPublicKey.isEmpty then
    env.server data.entryServerPublicKey
  else Server.weightChooser (data.entryServers env.getServerList) (env.random 2)

/-- An `int` made of a 32-bit word. -/
def toInt32 (n : ℕ) : ℤ := (BitVec.ofNat 32 n).toInt

/-- The exit server's connection data, before the port and the kind of hop are settled. -/
def exitConfig (env : Env) (initiator : ActivationPrincipal) (device : Device) (exit : Server) :
    InterfaceConfig :=
  { hopType := .singleHop
    privateKey := env.privateKey
    deviceIpv4Address := device.ipv4Address
    deviceIpv6Address := device.ipv6Address
    serverIpv4Gateway := exit.ipv4Gateway
    serverIpv6Gateway := exit.ipv6Gateway
    serverPublicKey := exit.publicKey
    serverIpv4AddrIn := exit.ipv4AddrIn
    serverIpv6AddrIn := exit.ipv6AddrIn
    serverPort := toInt32 (exit.choosePort (env.random 1))
    allowedIPAddressRanges :=
      if initiator = .extensionUser then
        AddressRanges.getExtensionProxyAddressRanges env.T env.dnsSettings exit
      else AddressRanges.getAllowedIPAddressRanges env.T exit
    dnsServer := DnsHelper.getDNS env.T env.dnsSettings exit.ipv4Gateway
    exitCity := env.getTranslatedCityName exit.cityName
    vpnDisabledApps := if env.splitTunnelSupported then env.vpnDisabledApps else [] }

/-- The entry server's connection data. -/
def entryConfig (env : Env) (dnsPort : DNSPortPolicy) (device : Device) (exit entry : Server) :
    InterfaceConfig :=
  { hopType := .multiHopEntry
    privateKey := env.privateKey
    deviceIpv4Address := device.ipv4Address
    deviceIpv6Address := device.ipv6Address
    serverPublicKey := entry.publicKey
    serverIpv4AddrIn := entry.ipv4AddrIn
    serverIpv6AddrIn := entry.ipv6AddrIn
    serverPort :=
      if dnsPort = .forceDNSPort then 53 else toInt32 (entry.choosePort (env.random 3))
    allowedIPAddressRanges :=
      IPAddress.ofString env.T exit.ipv4AddrIn.chars ::
        (if !exit.ipv6AddrIn.isEmpty then [IPAddress.ofString env.T exit.ipv6AddrIn.chars]
          else []) }

/-- `setupConfigs`: the hops of the connection, the entry server first. The list is empty when there
is no server, or no device to connect. -/
def setupConfigs (env : Env) (dnsPort : DNSPortPolicy) (policy : ServerSelectionPolicy)
    (c : Controller) : Controller × List InterfaceConfig :=
  let exit := exitServer env policy c.serverData
  if !exit.initialized then (c.serverUnavailable, [])
  else
    match env.currentDevice with
    | none => ({ c with nextStep := .disconnect }, [])
    | some device =>
      let config := exitConfig env c.initiator device exit
      let dnsPort := if env.alwaysPort53 then .forceDNSPort else dnsPort
      let entry := entryServer env policy c.serverData
      if !c.serverData.multihop then
        (c, [if dnsPort = .forceDNSPort then { config with serverPort := 53 } else config])
      else if env.multihopSupported then
        if !entry.initialized then (c.serverUnavailable, [])
        else
          (c, [entryConfig env dnsPort device exit entry,
            { config with
              hopType := .multiHopExit
              entryCity := env.getTranslatedCityName entry.cityName }])
      else if !entry.initialized then (c.serverUnavailable, [])
      else
        (c, [{ config with
          serverPort := toInt32 exit.multihopPort
          serverIpv4AddrIn := entry.ipv4AddrIn
          serverIpv6AddrIn := entry.ipv6AddrIn
          entryCity := env.getTranslatedCityName entry.cityName }])

/-- The end of `activateNext`: submit a hop to the implementation and wait for its handshake. -/
def submit (c : Controller) (config : InterfaceConfig) : Controller :=
  let c := { c with handshakeTimer := true }
  let c := c.emit (.implActivate config (stateToReason c.state))
  if c.initiator = .extensionUser then c
  else if c.state ≠ .switching ∧ c.state ≠ .silentSwitching then c.setState .confirming
  else c

/-- `activateNext`: submit the head of the queue. -/
def activateNext (env : Env) (c : Controller) : Controller :=
  match c.activationQueue with
  | [] => (c.setError .fatal).setState .connectionError
  | config :: _ =>
    if !env.hasProfiles && env.currentDevice.isNone then c.emit .vpnReset else c.submit config

/-- The hops of a new attempt are queued, and their servers remembered. -/
def queueHops (c : Controller) (first last : InterfaceConfig) (hops : List InterfaceConfig) :
    Controller :=
  { c with
    activationQueue := hops
    serverData :=
      { c.serverData with
        entryServerPublicKey := first.serverPublicKey
        exitServerPublicKey := last.serverPublicKey }
    pingReceived := false
    pingCanary :=
      if first.serverIpv4AddrIn.isNull then some (first.serverIpv6AddrIn, "::/0".toList)
      else some (first.serverIpv4AddrIn, "0.0.0.0/0".toList) }

/-- The start of `activateInternal`: the attempt of before is dropped. -/
def resetAttempt (initiator : ActivationPrincipal) (c : Controller) : Controller :=
  { c with initiator := initiator, handshakeTimer := false, activationQueue := [] }

def activateInternal (env : Env) (dnsPort : DNSPortPolicy) (policy : ServerSelectionPolicy)
    (initiator : ActivationPrincipal) (c : Controller) : Controller :=
  let r := setupConfigs env dnsPort policy (c.resetAttempt initiator)
  match r.2 with
  | [] => r.1
  | first :: rest => activateNext env (queueHops r.1 first (rest.getLastD first) (first :: rest))

/-! ## Requests -/

/-- The states in which `activate` goes on. -/
def acceptsActivation (c : Controller) : Bool :=
  c.state = .off || c.state = .onPartial || c.state = .switching || c.state = .silentSwitching ||
    c.state = .regeneratingKey

/-- `activate(serverData, initiator, serverSelectionPolicy)`, with what it returns. -/
def activate (env : Env) (serverData : ServerData) (initiator : ActivationPrincipal)
    (policy : ServerSelectionPolicy) (c : Controller) : Controller × Bool :=
  if !c.acceptsActivation then (c, false)
  else
    let c := { c.setError .none with serverData := serverData }
    if c.state = .off ∧ c.portalDetected then (c.promptCaptivePortal, true)
    else
      let c := if initiator ≠ .extensionUser then c.setState .connecting else c
      (activateInternal env .doNotForceDNSPort policy initiator c.clearRetryCounter, true)

/-- The canary ping of a local profile. -/
def startCanary (c : Controller) (config : InterfaceConfig) : Controller :=
  { c with
    pingReceived := false
    pingCanary :=
      if !config.serverIpv4AddrIn.isEmpty then
        some (config.serverIpv4AddrIn, "0.0.0.0/0".toList)
      else if !config.serverIpv6AddrIn.isEmpty then some (config.serverIpv6AddrIn, "::/0".toList)
      else c.pingCanary }

/-- The configuration of a local profile, with the applications that stay outside the tunnel. -/
def localConfig (env : Env) (config : InterfaceConfig) : InterfaceConfig :=
  if env.splitTunnelSupported then { config with vpnDisabledApps := env.vpnDisabledApps }
  else config

/-- `activate(config, initiator)`, for a local profile. -/
def activateConfig (env : Env) (config : InterfaceConfig) (initiator : ActivationPrincipal)
    (c : Controller) : Controller × Bool :=
  if !c.acceptsActivation then (c, false)
  else
    let c := c.setError .none
    if !c.hasImpl || !c.backendAvailable then
      ((c.setError .noServerAvailable).setState .connectionError, false)
    else
      let config := localConfig env config
      let c := if initiator ≠ .extensionUser then c.setState .connecting else c
      let c := { c.clearRetryCounter with
        initiator := initiator
        handshakeTimer := false
        activationQueue := [config] }
      (activateNext env (c.startCanary config), true)

/-- There is nothing to disconnect: no server was found before a tunnel came up. -/
def neverConnected (c : Controller) : Bool :=
  c.state = .connectionError && c.errorCode = .noServerAvailable

/-- The end of `deactivate`: drop what is pending and have the implementation disconnect. -/
def tearDown (c : Controller) : Controller :=
  let c := if c.portalDetected then c.promptCaptivePortal else c
  let c := if c.state ≠ .switching ∧ c.state ≠ .silentSwitching then c.setState .disconnecting
    else c
  let c := { c.clearRetryCounter with
    pingCanary := none
    handshakeTimer := false
    activationQueue := []
    errorCode := .none }
  c.emit .implDeactivate

/-- `deactivate(user)`, with what it returns. -/
def deactivate (user : ActivationPrincipal) (c : Controller) : Controller × Bool :=
  if c.initiator.rank > user.rank then (c, false)
  else if c.neverConnected then (c.setState .off, true)
  else if !c.isActive then (c, false)
  else (c.tearDown, true)

/-- A step after which the connection is not wanted any more. -/
def NextStep.leaves : NextStep → Bool
  | .quit | .disconnect | .update => true
  | _ => false

/-- `switchServers`. On desktop platforms no configuration is sent while the VPN is off. -/
def switchServers (env : Env) (serverData : ServerData) (c : Controller) : Controller × Bool :=
  if !c.isActive then (c, false)
  else
    let c := { c with nextServerData := serverData }.clearRetryCounter
    let c := if c.state ≠ .connecting then c.setState .switching else c
    if env.multihopSupported ∧ c.nextServerData.multihop ≠ c.serverData.multihop then
      ((deactivate .clientUser { c with nextStep := .reconnect }).1, true)
    else
      (activateInternal env .doNotForceDNSPort .randomizeServerSelection c.initiator
        { c with serverData := serverData }, true)

def silentSwitchServers (env : Env) (policy : ServerCoolDownPolicy) (c : Controller) :
    Controller × Bool :=
  if c.state ≠ .on then (c, false)
  else if policy = .serverCoolDownNeeded ∧
      (c.serverData.exitServers env.getServerList).length ≤ 1 then (c, false)
  else
    let c := if policy = .serverCoolDownNeeded then
      c.emit (.setCooldown c.serverData.exitServerPublicKey) else c
    let c := c.clearRetryCounter.setState .silentSwitching
    (activateInternal env .doNotForceDNSPort policy.selection c.initiator c, true)

def quit (c : Controller) : Controller :=
  if !c.isActive then c.emit .readyToQuit
  else
    let c := { c with nextStep := .quit }
    if c.state.rank > State.rank .disconnecting then (deactivate .clientUser c).1 else c

def updateRequired (c : Controller) : Controller :=
  if !c.isActive then c.emit .readyToUpdate
  else
    let c := { c with nextStep := .update }
    if c.state = .on ∨ c.state = .onPartial then (deactivate .clientUser c).1 else c

/-! ## Signals and timers -/

/-- `initialize`. The implementation of before is replaced by a new one. -/
def initializeController (env : Env) (c : Controller) : Controller :=
  { c.setState .initializing with
    backendAvailable := false
    hasImpl := true
    serverData := env.settingsServerData
    nextServerData := env.settingsServerData }.emit .implInitialize

def implPermRequired (c : Controller) : Controller :=
  { c with backendAvailable := false }.setState .permissionRequired

def implInitialized (status connected : Bool) (c : Controller) : Controller :=
  if !status then { c with backendAvailable := false }.setState .off
  else { c with backendAvailable := true }.setState (if connected then .on else .off)

/-- The end of `connected`: every hop is up. -/
def connectionUp (c : Controller) : Controller :=
  let c := { c with handshakeTimer := false, pingCanary := none, connectionRetry := 0 }
  let c := c.setState (if c.initiator = .extensionUser then .onPartial else .on)
  let c := c.setError .none
  if c.nextStep.leaves then (deactivate .clientUser c).1 else c

/-- `connected(pubkey)`. With nothing queued, the key of the exit server means that the VPN was
activated from outside. -/
def connected (env : Env) (pubkey : QString) (c : Controller) : Controller :=
  match c.activationQueue with
  | [] => if c.serverData.exitServerPublicKey == pubkey then c.connectionUp else c
  | hop :: rest =>
    if hop.serverPublicKey == pubkey then
      let c := { c with activationQueue := rest }
      if rest.isEmpty then c.connectionUp else activateNext env c
    else c

def disconnected (env : Env) (c : Controller) : Controller :=
  let next := c.nextStep
  let c := { c with
    pingCanary := none
    handshakeTimer := false
    activationQueue := []
    connectionRetry := 0
    nextStep := .none }
  match next with
  | .quit => (c.emit .readyToQuit).setState .off
  | .update => (c.emit .readyToUpdate).setState .off
  | .reconnect =>
    activateInternal env .doNotForceDNSPort .randomizeServerSelection c.initiator
      { c with serverData := c.nextServerData }
  | .none | .disconnect => { c with initiator := .null }.setState .off

/-- `handshakeTimeout`, when the single-shot timer fires. -/
def handshakeTimeout (env : Env) (c : Controller) : Controller :=
  if !c.handshakeTimer then c
  else
    let c := { c with handshakeTimer := false }
    if env.hasProfiles then
      let c := { (c.setError .serverTimeout).setState .connectionError with pingCanary := none }
      if c.hasImpl then c.emit .implDeactivate else c
    else
      let c := c.emit (.setCooldown ((c.activationQueue.head?.map (·.serverPublicKey)).getD .null))
      if c.nextStep.leaves then (deactivate .clientUser c).1
      else
        let c := { c with connectionRetry := c.connectionRetry + 1 }
        if c.connectionRetry = 1 then
          activateInternal env .forceDNSPort .randomizeServerSelection c.initiator c
        else if c.connectionRetry < connectionMaxRetry then
          activateInternal env .doNotForceDNSPort .randomizeServerSelection c.initiator c
        else c.serverUnavailable

/-- The answer to the canary ping. -/
def pingSentAndReceived (c : Controller) : Controller :=
  if c.pingCanary.isSome then { c with pingCanary := none, pingReceived := true } else c

def deleteOSTunnelConfig (c : Controller) : Controller :=
  let c := if c.hasImpl then c.emit .implDeleteOSTunnelConfig else c
  c.setState .initializing

/-! ## Events -/

/-- The calls of the client and the extension, the signals of the implementation and the timers. -/
inductive Event where
  | initializeController
  | implPermRequired
  | implInitialized (status connected : Bool)
  | connected (pubkey : QString)
  | disconnected
  | backendFailure (code : ErrorCode)
  | handshakeTimeout
  | pingSentAndReceived
  | activate (serverData : ServerData) (initiator : ActivationPrincipal)
      (policy : ServerSelectionPolicy)
  | activateConfig (config : InterfaceConfig) (initiator : ActivationPrincipal)
  | deactivate (user : ActivationPrincipal)
  | switchServers (serverData : ServerData)
  | silentSwitchServers (policy : ServerCoolDownPolicy)
  | quit
  | updateRequired
  | serverUnavailable
  | startKeyRegeneration
  | deleteOSTunnelConfig
  | captivePortalPresent
  | captivePortalGone
  deriving DecidableEq, Repr

/-- What the controller does on an event. -/
def handle (env : Env) (c : Controller) : Event → Controller
  | .initializeController => c.initializeController env
  | .implPermRequired => c.implPermRequired
  | .implInitialized status connected => c.implInitialized status connected
  | .connected pubkey => c.connected env pubkey
  | .disconnected => c.disconnected env
  | .backendFailure code => c.setError code
  | .handshakeTimeout => c.handshakeTimeout env
  | .pingSentAndReceived => c.pingSentAndReceived
  | .activate serverData initiator policy => (c.activate env serverData initiator policy).1
  | .activateConfig config initiator => (c.activateConfig env config initiator).1
  | .deactivate user => (c.deactivate user).1
  | .switchServers serverData => (c.switchServers env serverData).1
  | .silentSwitchServers policy => (c.silentSwitchServers env policy).1
  | .quit => c.quit
  | .updateRequired => c.updateRequired
  | .serverUnavailable => c.serverUnavailable
  | .startKeyRegeneration => c.setState .regeneratingKey
  | .deleteOSTunnelConfig => c.deleteOSTunnelConfig
  | .captivePortalPresent => { c with portalDetected := true }
  | .captivePortalGone => { c with portalDetected := false }

/-- The start of an event: the outputs of the one before are dropped. -/
@[simps] def resetOut (c : Controller) : Controller := { c with out := [] }

/-- One event, with what the controller looks up meanwhile. -/
def step (c : Controller) (e : Env × Event) : Controller := handle e.1 c.resetOut e.2

/-- The controller after a run of events. -/
def run (c : Controller) (es : List (Env × Event)) : Controller := es.foldl step c

@[simp] theorem run_nil (c : Controller) : run c [] = c := rfl

@[simp] theorem run_cons (c : Controller) (e : Env × Event) (es : List (Env × Event)) :
    run c (e :: es) = run (step c e) es := rfl

theorem run_append (c : Controller) (es fs : List (Env × Event)) :
    run c (es ++ fs) = run (run c es) fs := List.foldl_append

/-! ## What the functions do -/

section Specs

variable (c : Controller)

/-- The signal of a change to the state `s`. -/
def changed (s : State) : List Output := if c.state = s then [] else [.stateChanged s]

theorem setState_eq (s : State) :
    c.setState s = { c with state := s, out := c.out ++ c.changed s } := by
  unfold setState changed
  split_ifs with h
  · subst h
    simp
  · rfl

theorem serverUnavailable_eq :
    c.serverUnavailable =
      { c with
        state := .connectionError
        errorCode := if c.state = .connecting then .noServerAvailable else .serverTimeout
        out := c.out ++
          .readyToServerUnavailable c.pingReceived :: c.changed .connectionError } := by
  by_cases h : c.state = .connecting <;>
    simp [serverUnavailable, emit, setError, setState_eq, changed, h]

/-- A server switch is going on. -/
def inSwitch : Bool := c.state = .switching || c.state = .silentSwitching

theorem submit_eq (config : InterfaceConfig) :
    c.submit config =
      { c with
        handshakeTimer := true
        state := if c.initiator = .extensionUser ∨ c.inSwitch then c.state else .confirming
        out := c.out ++ .implActivate config (stateToReason c.state) ::
          if c.initiator = .extensionUser ∨ c.inSwitch then [] else c.changed .confirming } := by
  by_cases hi : c.initiator = .extensionUser
  · simp [submit, hi, emit]
  · by_cases hs : c.state = .switching ∨ c.state = .silentSwitching
    · rcases hs with hs | hs <;> simp [submit, hi, hs, emit, inSwitch]
    · push Not at hs
      simp [submit, hi, hs, emit, inSwitch, setState_eq, changed]

theorem tearDown_eq :
    c.tearDown =
      { c with
        state := if c.inSwitch then c.state else .disconnecting
        portalDetected := false
        connectionRetry := 0
        pingCanary := none
        handshakeTimer := false
        activationQueue := []
        errorCode := .none
        out := c.out ++ (if c.portalDetected then [.activationBlockedForCaptivePortal] else []) ++
          (if c.inSwitch then [] else c.changed .disconnecting) ++ [.implDeactivate] } := by
  have hs : (c.state = .switching ∨ c.state = .silentSwitching) ∨
      c.state ≠ .switching ∧ c.state ≠ .silentSwitching := by tauto
  cases hp : c.portalDetected <;> rcases hs with (hs | hs) | hs <;>
    simp [tearDown, hp, hs, setState_eq, promptCaptivePortal, emit, clearRetryCounter, inSwitch,
      changed]

theorem implInitialized_eq (status connected : Bool) :
    c.implInitialized status connected =
      ({ c with backendAvailable := status } : Controller).setState
        (if status && connected then .on else .off) := by
  cases status <;> cases connected <;> rfl

theorem deactivate_cases (user : ActivationPrincipal) :
    c.initiator.rank > user.rank ∧ c.deactivate user = (c, false) ∨
    c.neverConnected ∧ c.deactivate user = (c.setState .off, true) ∨
    c.isActive = false ∧ c.deactivate user = (c, false) ∨
    c.isActive ∧ c.neverConnected = false ∧ c.deactivate user = (c.tearDown, true) := by
  unfold deactivate
  by_cases hr : c.initiator.rank > user.rank
  · exact Or.inl ⟨hr, if_pos hr⟩
  · rw [if_neg hr]
    cases hn : c.neverConnected with
    | true => exact Or.inr (Or.inl ⟨rfl, rfl⟩)
    | false =>
      cases ha : c.isActive with
      | true => exact Or.inr (Or.inr (Or.inr ⟨rfl, rfl, rfl⟩))
      | false => exact Or.inr (Or.inr (Or.inl ⟨rfl, rfl⟩))

theorem rank_le_of_deactivate {c : Controller} {user : ActivationPrincipal}
    (h : (c.deactivate user).2 = true) : c.initiator.rank ≤ user.rank := by
  by_contra hr
  rw [deactivate, if_pos (Nat.lt_of_not_le hr)] at h
  cases h

/-- Nobody outranks the client user. -/
theorem rank_le_clientUser (p : ActivationPrincipal) :
    p.rank ≤ ActivationPrincipal.rank .clientUser := by
  cases p <;> decide

/-- The state of a connection that is up. -/
def upState : State := if c.initiator = .extensionUser then .onPartial else .on

theorem upState_eq_or : c.upState = .onPartial ∨ c.upState = .on := by
  unfold upState
  split_ifs <;> simp

/-- The controller when the last hop has come up. -/
def up : Controller :=
  { c with
    handshakeTimer := false
    pingCanary := none
    connectionRetry := 0
    state := c.upState
    errorCode := .none
    out := c.out ++ c.changed c.upState }

/-- A connection that came up is torn down again when it is not wanted any more. -/
theorem connectionUp_eq : c.connectionUp = if c.nextStep.leaves then c.up.tearDown else c.up := by
  have hup : ((({ c with
      handshakeTimer := false, pingCanary := none, connectionRetry := 0 } : Controller).setState
        (if c.initiator = .extensionUser then .onPartial else .on)).setError .none) = c.up := by
    rw [setState_eq]
    rfl
  have hdown : (deactivate .clientUser c.up).1 = c.up.tearDown := by
    have hr : ¬ c.up.initiator.rank > ActivationPrincipal.rank .clientUser := by
      have := rank_le_clientUser c.up.initiator
      omega
    unfold deactivate
    rw [if_neg hr]
    obtain h | h := c.upState_eq_or <;>
      simp [neverConnected, isActive, up, h, State.rank, State.ctorIdx]
  unfold connectionUp
  dsimp only
  rw [hup, hdown]
  rfl

/-- A server that a connection needs is missing. -/
def serverMissing (env : Env) (policy : ServerSelectionPolicy) (data : ServerData) : Bool :=
  !(exitServer env policy data).initialized ||
    env.currentDevice.isSome && data.multihop && !(entryServer env policy data).initialized

/-- The hops of a connection in the order in which they are activated, the exit last. -/
def ExitLast (hops : List InterfaceConfig) : Prop :=
  (∃ exit, hops = [exit] ∧ exit.hopType = .singleHop) ∨
  ∃ entry exit, hops = [entry, exit] ∧ entry.hopType = .multiHopEntry ∧
    exit.hopType = .multiHopExit

theorem setupConfigs_cases (env : Env) (dnsPort : DNSPortPolicy) (policy : ServerSelectionPolicy) :
    serverMissing env policy c.serverData ∧
      setupConfigs env dnsPort policy c = (c.serverUnavailable, []) ∨
    serverMissing env policy c.serverData = false ∧ env.currentDevice = none ∧
      setupConfigs env dnsPort policy c = ({ c with nextStep := .disconnect }, []) ∨
    serverMissing env policy c.serverData = false ∧ env.currentDevice.isSome ∧
      ∃ hops, ExitLast hops ∧ setupConfigs env dnsPort policy c = (c, hops) := by
  unfold setupConfigs serverMissing
  dsimp only
  cases hx : (exitServer env policy c.serverData).initialized with
  | false => exact Or.inl ⟨rfl, rfl⟩
  | true =>
    cases hd : env.currentDevice with
    | none => exact Or.inr (Or.inl ⟨rfl, rfl, rfl⟩)
    | some device =>
      cases hm : c.serverData.multihop with
      | false => exact Or.inr (Or.inr ⟨rfl, rfl, _, Or.inl ⟨_, rfl, by split_ifs <;> rfl⟩, rfl⟩)
      | true =>
        cases hn : (entryServer env policy c.serverData).initialized with
        | false =>
          refine Or.inl ⟨rfl, ?_⟩
          cases env.multihopSupported <;> rfl
        | true =>
          refine Or.inr (Or.inr ⟨rfl, rfl, ?_⟩)
          cases env.multihopSupported with
          | true => exact ⟨_, Or.inr ⟨_, _, rfl, rfl, rfl⟩, rfl⟩
          | false => exact ⟨_, Or.inl ⟨_, rfl, rfl⟩, rfl⟩

theorem activateInternal_eq_submit {env : Env} {dnsPort : DNSPortPolicy}
    {policy : ServerSelectionPolicy} {initiator : ActivationPrincipal} {first : InterfaceConfig}
    {rest : List InterfaceConfig} (hd : env.currentDevice.isSome)
    (h : setupConfigs env dnsPort policy (c.resetAttempt initiator) =
      (c.resetAttempt initiator, first :: rest)) :
    activateInternal env dnsPort policy initiator c =
      (queueHops (c.resetAttempt initiator) first (rest.getLastD first)
        (first :: rest)).submit first := by
  have hdevice : (!env.hasProfiles && env.currentDevice.isNone) = false := by
    rw [Option.isNone_eq_false_iff.mpr hd, Bool.and_false]
  unfold activateInternal
  dsimp only
  rw [h]
  simp only [activateNext, queueHops, hdevice]
  rfl

/-- The three ways `activateInternal` can end: a server is missing, there is no device, or the first
hop is submitted. -/
theorem activateInternal_cases (env : Env) (dnsPort : DNSPortPolicy)
    (policy : ServerSelectionPolicy) (initiator : ActivationPrincipal) :
    serverMissing env policy c.serverData ∧
      activateInternal env dnsPort policy initiator c =
        (c.resetAttempt initiator).serverUnavailable ∨
    serverMissing env policy c.serverData = false ∧ env.currentDevice = none ∧
      activateInternal env dnsPort policy initiator c =
        { c.resetAttempt initiator with nextStep := .disconnect } ∨
    serverMissing env policy c.serverData = false ∧ env.currentDevice.isSome ∧
      ∃ first rest, ExitLast (first :: rest) ∧
        activateInternal env dnsPort policy initiator c =
          (queueHops (c.resetAttempt initiator) first (rest.getLastD first)
            (first :: rest)).submit first := by
  obtain ⟨hm, h⟩ | ⟨hm, hd, h⟩ | ⟨hm, hd, hops, hhops, h⟩ :=
    setupConfigs_cases (c.resetAttempt initiator) env dnsPort policy
  · exact Or.inl ⟨hm, by unfold activateInternal; rw [h]⟩
  · exact Or.inr (Or.inl ⟨hm, hd, by unfold activateInternal; rw [h]⟩)
  · refine Or.inr (Or.inr ⟨hm, hd, ?_⟩)
    cases hops with
    | nil => simp [ExitLast] at hhops
    | cons first rest => exact ⟨first, rest, hhops, c.activateInternal_eq_submit hd h⟩

theorem deactivate_clientUser_cases :
    c.neverConnected ∧ c.deactivate .clientUser = (c.setState .off, true) ∨
    c.isActive = false ∧ c.deactivate .clientUser = (c, false) ∨
    c.isActive ∧ c.neverConnected = false ∧ c.deactivate .clientUser = (c.tearDown, true) := by
  obtain ⟨hr, -⟩ | h := c.deactivate_cases .clientUser
  · have := rank_le_clientUser c.initiator
    omega
  · exact h

theorem quit_cases :
    c.isActive = false ∧ c.quit = c.emit .readyToQuit ∨
    c.state = .disconnecting ∧ c.quit = { c with nextStep := .quit } ∨
    c.isActive ∧ c.state ≠ .disconnecting ∧
      c.quit = (deactivate .clientUser { c with nextStep := .quit }).1 := by
  unfold quit isActive
  dsimp only
  cases h : c.state <;> simp [State.rank, State.ctorIdx]

theorem updateRequired_cases :
    c.isActive = false ∧ c.updateRequired = c.emit .readyToUpdate ∨
    c.isActive ∧ c.state ≠ .on ∧ c.state ≠ .onPartial ∧
      c.updateRequired = { c with nextStep := .update } ∨
    (c.state = .on ∨ c.state = .onPartial) ∧
      c.updateRequired = (deactivate .clientUser { c with nextStep := .update }).1 := by
  unfold updateRequired isActive
  dsimp only
  cases h : c.state <;> simp [State.rank, State.ctorIdx]

/-- A handshake that nothing waits for. -/
def Stray (pubkey : QString) : Prop :=
  match c.activationQueue with
  | [] => c.serverData.exitServerPublicKey.chars ≠ pubkey.chars
  | hop :: _ => hop.serverPublicKey.chars ≠ pubkey.chars

theorem stray_iff_of_nil {c : Controller} {pubkey : QString} (h : c.activationQueue = []) :
    c.Stray pubkey ↔ c.serverData.exitServerPublicKey.chars ≠ pubkey.chars := by
  rw [Stray, h]

theorem stray_iff_of_cons {c : Controller} {pubkey : QString} {hop : InterfaceConfig}
    {rest : List InterfaceConfig} (h : c.activationQueue = hop :: rest) :
    c.Stray pubkey ↔ hop.serverPublicKey.chars ≠ pubkey.chars := by
  rw [Stray, h]

/-- The five ways `connected` can end: the handshake is stray, the VPN was activated from outside,
the last hop is up, or the next hop is submitted, for which there must be a device. -/
theorem connected_cases (env : Env) (pubkey : QString) :
    c.Stray pubkey ∧ c.connected env pubkey = c ∨
    c.activationQueue = [] ∧ c.serverData.exitServerPublicKey.chars = pubkey.chars ∧
      c.connected env pubkey = c.connectionUp ∨
    (∃ hop, c.activationQueue = [hop] ∧ hop.serverPublicKey.chars = pubkey.chars ∧
      c.connected env pubkey = ({ c with activationQueue := [] } : Controller).connectionUp) ∨
    ∃ hop next rest, c.activationQueue = hop :: next :: rest ∧
      hop.serverPublicKey.chars = pubkey.chars ∧
      (c.connected env pubkey =
          ({ c with activationQueue := next :: rest } : Controller).emit .vpnReset ∨
        c.connected env pubkey =
          ({ c with activationQueue := next :: rest } : Controller).submit next) := by
  unfold connected Stray
  cases hq : c.activationQueue with
  | nil =>
    by_cases hk : c.serverData.exitServerPublicKey.chars = pubkey.chars <;> simp [hk]
  | cons hop rest =>
    by_cases hk : hop.serverPublicKey.chars = pubkey.chars
    · cases rest with
      | nil => simp [hk]
      | cons next rest =>
        refine Or.inr (Or.inr (Or.inr ⟨hop, next, rest, rfl, hk, ?_⟩))
        simp only [QString.beq_iff, hk, List.isEmpty_cons, activateNext]
        cases (!env.hasProfiles && env.currentDevice.isNone) with
        | true => exact Or.inl rfl
        | false => exact Or.inr rfl
    · simp [hk]

/-- The controller after a lost connection, before the next step is taken. -/
def cleared : Controller :=
  { c with
    pingCanary := none
    handshakeTimer := false
    activationQueue := []
    connectionRetry := 0
    nextStep := .none }

theorem disconnected_cases (env : Env) :
    c.nextStep = .quit ∧ c.disconnected env = (c.cleared.emit .readyToQuit).setState .off ∨
    c.nextStep = .update ∧ c.disconnected env = (c.cleared.emit .readyToUpdate).setState .off ∨
    c.nextStep = .reconnect ∧ c.disconnected env =
      activateInternal env .doNotForceDNSPort .randomizeServerSelection c.initiator
        { c.cleared with serverData := c.nextServerData } ∨
    (c.nextStep = .none ∨ c.nextStep = .disconnect) ∧
      c.disconnected env = ({ c.cleared with initiator := .null } : Controller).setState .off := by
  unfold disconnected
  dsimp only
  cases h : c.nextStep <;> simp [cleared]

/-- The controller when the handshake timer has fired for a server that is now blocked. -/
def expired : Controller :=
  ({ c with handshakeTimer := false } : Controller).emit
    (.setCooldown ((c.activationQueue.head?.map (·.serverPublicKey)).getD .null))

/-- The controller when the handshake timer has fired for a local profile. -/
def profileExpired : Controller :=
  { (({ c with handshakeTimer := false } : Controller).setError .serverTimeout).setState
      .connectionError with pingCanary := none }

/-- The port that the next attempt asks for: the first retry is made over port 53. -/
def retryDnsPort : DNSPortPolicy :=
  if c.connectionRetry = 0 then .forceDNSPort else .doNotForceDNSPort

/-- The five ways `handshakeTimeout` can end: the timer does not run, a local profile is given up,
the connection is not wanted any more, there is another attempt, or there have been enough. -/
theorem handshakeTimeout_cases (env : Env) :
    c.handshakeTimer = false ∧ c.handshakeTimeout env = c ∨
    c.handshakeTimer ∧ env.hasProfiles ∧ c.handshakeTimeout env =
      (if c.profileExpired.hasImpl then c.profileExpired.emit .implDeactivate
        else c.profileExpired) ∨
    c.handshakeTimer ∧ env.hasProfiles = false ∧ c.nextStep.leaves ∧
      c.handshakeTimeout env = (deactivate .clientUser c.expired).1 ∨
    c.handshakeTimer ∧ env.hasProfiles = false ∧ c.nextStep.leaves = false ∧
      c.connectionRetry + 1 < connectionMaxRetry ∧
      c.handshakeTimeout env =
        activateInternal env c.retryDnsPort .randomizeServerSelection c.initiator
          { c.expired with connectionRetry := c.connectionRetry + 1 } ∨
    c.handshakeTimer ∧ env.hasProfiles = false ∧ c.nextStep.leaves = false ∧
      connectionMaxRetry ≤ c.connectionRetry + 1 ∧
      c.handshakeTimeout env =
        ({ c.expired with connectionRetry := c.connectionRetry + 1 } : Controller).serverUnavailable
      := by
  unfold handshakeTimeout
  dsimp only
  cases ht : c.handshakeTimer with
  | false => exact Or.inl ⟨rfl, rfl⟩
  | true =>
    cases hp : env.hasProfiles with
    | true => exact Or.inr (Or.inl ⟨rfl, rfl, rfl⟩)
    | false =>
      cases hl : c.nextStep.leaves with
      | true => exact Or.inr (Or.inr (Or.inl ⟨rfl, rfl, rfl, by simp [emit, hl, expired]⟩))
      | false =>
        refine Or.inr (Or.inr (Or.inr ?_))
        by_cases hr : c.connectionRetry + 1 < connectionMaxRetry
        · refine Or.inl ⟨rfl, rfl, rfl, hr, ?_⟩
          by_cases h1 : c.connectionRetry = 0
          · simp [emit, hl, expired, retryDnsPort, h1]
          · simp [emit, hl, expired, retryDnsPort, h1, hr]
        · have h1 : c.connectionRetry ≠ 0 := by
            unfold connectionMaxRetry at hr
            omega
          exact Or.inr ⟨rfl, rfl, rfl, by omega, by simp [emit, hl, expired, h1, hr]⟩

/-- The controller that has accepted an activation: for the client user it is now connecting. -/
def accepted (serverData : ServerData) (initiator : ActivationPrincipal) : Controller :=
  let c := { c.setError .none with serverData := serverData }
  (if initiator ≠ .extensionUser then c.setState .connecting else c).clearRetryCounter

theorem accepted_eq (serverData : ServerData) (initiator : ActivationPrincipal) :
    c.accepted serverData initiator =
      { c with
        errorCode := .none
        serverData := serverData
        state := if initiator = .extensionUser then c.state else .connecting
        connectionRetry := 0
        out := c.out ++ if initiator = .extensionUser then [] else c.changed .connecting } := by
  unfold accepted
  by_cases h : initiator = .extensionUser <;>
    simp [h, setState_eq, setError, clearRetryCounter, changed]

theorem activate_cases (env : Env) (serverData : ServerData) (initiator : ActivationPrincipal)
    (policy : ServerSelectionPolicy) :
    c.acceptsActivation = false ∧ c.activate env serverData initiator policy = (c, false) ∨
    c.state = .off ∧ c.portalDetected ∧ c.activate env serverData initiator policy =
      (({ c with errorCode := .none, serverData := serverData } : Controller).promptCaptivePortal,
        true) ∨
    c.acceptsActivation ∧ ¬ (c.state = .off ∧ c.portalDetected) ∧
      c.activate env serverData initiator policy =
        (activateInternal env .doNotForceDNSPort policy initiator
          (c.accepted serverData initiator), true) := by
  unfold activate
  cases ha : c.acceptsActivation with
  | false => exact Or.inl ⟨rfl, rfl⟩
  | true =>
    by_cases hp : c.state = .off ∧ c.portalDetected = true
    · exact Or.inr (Or.inl ⟨hp.1, hp.2, by simp [setError, hp]⟩)
    · refine Or.inr (Or.inr ⟨rfl, hp, ?_⟩)
      have hp' : ¬ ({ c.setError .none with serverData := serverData } : Controller).state = .off ∨
          ¬ ({ c.setError .none with serverData := serverData } : Controller).portalDetected =
            true :=
        not_and_or.mp hp
      simp only [Bool.not_true, Bool.false_eq_true, if_false, not_and_or.mpr hp', accepted]

/-- The controller that is about to submit a local profile. -/
def profileQueued (config : InterfaceConfig) (initiator : ActivationPrincipal) : Controller :=
  ({ c.accepted c.serverData initiator with
    initiator := initiator
    handshakeTimer := false
    activationQueue := [config] } : Controller).startCanary config

theorem activateConfig_cases (env : Env) (config : InterfaceConfig)
    (initiator : ActivationPrincipal) :
    c.acceptsActivation = false ∧ c.activateConfig env config initiator = (c, false) ∨
    c.acceptsActivation ∧ (c.hasImpl && c.backendAvailable) = false ∧
      c.activateConfig env config initiator =
        ((c.setError .noServerAvailable).setState .connectionError, false) ∨
    c.acceptsActivation ∧ (c.hasImpl && c.backendAvailable) ∧ env.hasProfiles = false ∧
      env.currentDevice = none ∧ c.activateConfig env config initiator =
        ((c.profileQueued (localConfig env config) initiator).emit .vpnReset, true) ∨
    c.acceptsActivation ∧ (c.hasImpl && c.backendAvailable) ∧
      (env.hasProfiles || env.currentDevice.isSome) ∧ c.activateConfig env config initiator =
        ((c.profileQueued (localConfig env config) initiator).submit (localConfig env config),
          true) := by
  have hgo : c.activateConfig env config initiator =
      if !c.acceptsActivation then (c, false)
      else if !(c.hasImpl && c.backendAvailable) then
        ((c.setError .noServerAvailable).setState .connectionError, false)
      else (activateNext env (c.profileQueued (localConfig env config) initiator), true) := by
    rw [Bool.not_and]
    rfl
  rw [hgo]
  cases c.acceptsActivation with
  | false => exact Or.inl ⟨rfl, rfl⟩
  | true =>
    cases c.hasImpl && c.backendAvailable with
    | false => exact Or.inr (Or.inl ⟨rfl, rfl, rfl⟩)
    | true =>
      refine Or.inr (Or.inr ?_)
      cases hp : env.hasProfiles with
      | true =>
        refine Or.inr ⟨rfl, rfl, rfl, ?_⟩
        simp only [activateNext, profileQueued, startCanary, hp]
        rfl
      | false =>
        cases hd : env.currentDevice with
        | none =>
          refine Or.inl ⟨rfl, rfl, rfl, rfl, ?_⟩
          simp only [activateNext, profileQueued, startCanary, hp, hd]
          rfl
        | some device =>
          refine Or.inr ⟨rfl, rfl, rfl, ?_⟩
          simp only [activateNext, profileQueued, startCanary, hp, hd]
          rfl

/-- The controller that has accepted a server switch. -/
def switchAccepted (serverData : ServerData) : Controller :=
  let c := ({ c with nextServerData := serverData } : Controller).clearRetryCounter
  if c.state ≠ .connecting then c.setState .switching else c

theorem switchAccepted_eq (serverData : ServerData) :
    c.switchAccepted serverData =
      { c with
        nextServerData := serverData
        connectionRetry := 0
        state := if c.state = .connecting then .connecting else .switching
        out := c.out ++ if c.state = .connecting then [] else c.changed .switching } := by
  unfold switchAccepted
  by_cases h : c.state = .connecting <;> simp [h, setState_eq, clearRetryCounter, changed]

theorem switchServers_cases (env : Env) (serverData : ServerData) :
    c.isActive = false ∧ c.switchServers env serverData = (c, false) ∨
    c.isActive ∧ (env.multihopSupported ∧ serverData.multihop ≠ c.serverData.multihop) ∧
      c.switchServers env serverData =
        ((deactivate .clientUser
          { c.switchAccepted serverData with nextStep := .reconnect }).1, true) ∨
    c.isActive ∧ ¬ (env.multihopSupported ∧ serverData.multihop ≠ c.serverData.multihop) ∧
      c.switchServers env serverData =
        (activateInternal env .doNotForceDNSPort .randomizeServerSelection c.initiator
          { c.switchAccepted serverData with serverData := serverData }, true) := by
  have hgo : c.switchServers env serverData =
      if !c.isActive then (c, false)
      else if env.multihopSupported ∧
          (c.switchAccepted serverData).nextServerData.multihop ≠
            (c.switchAccepted serverData).serverData.multihop then
        ((deactivate .clientUser
          { c.switchAccepted serverData with nextStep := .reconnect }).1, true)
      else
        (activateInternal env .doNotForceDNSPort .randomizeServerSelection
          (c.switchAccepted serverData).initiator
          { c.switchAccepted serverData with serverData := serverData }, true) := rfl
  have hnext : (c.switchAccepted serverData).nextServerData = serverData := by
    rw [switchAccepted_eq]
  have hdata : (c.switchAccepted serverData).serverData = c.serverData := by
    rw [switchAccepted_eq]
  have hinit : (c.switchAccepted serverData).initiator = c.initiator := by
    rw [switchAccepted_eq]
  rw [hnext, hdata, hinit] at hgo
  rw [hgo]
  cases c.isActive with
  | false => exact Or.inl ⟨rfl, rfl⟩
  | true =>
    by_cases hm : env.multihopSupported ∧ serverData.multihop ≠ c.serverData.multihop
    · exact Or.inr (Or.inl ⟨rfl, hm, if_pos hm⟩)
    · exact Or.inr (Or.inr ⟨rfl, hm, if_neg hm⟩)

/-- The controller that has accepted a silent switch, which blocks the server in use if needed. -/
def silentSwitchAccepted (policy : ServerCoolDownPolicy) : Controller :=
  let c := if policy = .serverCoolDownNeeded then
    c.emit (.setCooldown c.serverData.exitServerPublicKey) else c
  c.clearRetryCounter.setState .silentSwitching

theorem silentSwitchAccepted_eq (policy : ServerCoolDownPolicy) :
    c.silentSwitchAccepted policy =
      { c with
        connectionRetry := 0
        state := .silentSwitching
        out := c.out ++ (if policy = .serverCoolDownNeeded then
            [.setCooldown c.serverData.exitServerPublicKey] else []) ++
          c.changed .silentSwitching } := by
  unfold silentSwitchAccepted
  by_cases h : policy = .serverCoolDownNeeded <;>
    simp [h, setState_eq, clearRetryCounter, changed, emit]

theorem silentSwitchServers_cases (env : Env) (policy : ServerCoolDownPolicy) :
    c.silentSwitchServers env policy = (c, false) ∨
    c.state = .on ∧ ¬ (policy = .serverCoolDownNeeded ∧
      (c.serverData.exitServers env.getServerList).length ≤ 1) ∧ c.silentSwitchServers env policy =
      (activateInternal env .doNotForceDNSPort policy.selection c.initiator
        (c.silentSwitchAccepted policy), true) := by
  have hinit : (c.silentSwitchAccepted policy).initiator = c.initiator := by
    rw [silentSwitchAccepted_eq]
  by_cases hs : c.state = .on
  · by_cases hn : policy = .serverCoolDownNeeded ∧
        (c.serverData.exitServers env.getServerList).length ≤ 1
    · exact Or.inl (by rw [silentSwitchServers, if_neg (by simp [hs]), if_pos hn])
    · refine Or.inr ⟨hs, hn, ?_⟩
      rw [silentSwitchServers, if_neg (by simp [hs]), if_neg hn, ← hinit]
      rfl
  · exact Or.inl (by rw [silentSwitchServers, if_pos hs])

end Specs

/-! ## Submissions -/

/-- The hop an output submits to the implementation. -/
def Output.submission : Output → Option InterfaceConfig
  | .implActivate config _ => some config
  | _ => none

/-- The hops that are submitted to the implementation. -/
def submissions (out : List Output) : List InterfaceConfig := out.filterMap Output.submission

section Submissions

variable (c : Controller)

@[simp] theorem submissions_nil : submissions [] = [] := rfl

@[simp] theorem submissions_cons (o : Output) (out : List Output) :
    submissions (o :: out) = o.submission.toList ++ submissions out := by
  unfold submissions
  cases h : o.submission <;> simp [h]

@[simp] theorem submissions_append (out out' : List Output) :
    submissions (out ++ out') = submissions out ++ submissions out' := List.filterMap_append

@[simp] theorem submissions_changed (s : State) : submissions (c.changed s) = [] := by
  unfold changed
  split_ifs <;> rfl

@[simp] theorem submissions_setState (s : State) :
    submissions (c.setState s).out = submissions c.out := by
  simp [setState_eq]

@[simp] theorem submissions_serverUnavailable :
    submissions c.serverUnavailable.out = submissions c.out := by
  simp [serverUnavailable_eq, Output.submission]

@[simp] theorem submissions_submit (config : InterfaceConfig) :
    submissions (c.submit config).out = submissions c.out ++ [config] := by
  rw [submit_eq]
  split_ifs <;> simp [Output.submission]

@[simp] theorem submissions_tearDown : submissions c.tearDown.out = submissions c.out := by
  rw [tearDown_eq]
  split_ifs <;> simp [Output.submission]

@[simp] theorem submissions_deactivate (user : ActivationPrincipal) :
    submissions (c.deactivate user).1.out = submissions c.out := by
  obtain ⟨-, h⟩ | ⟨-, h⟩ | ⟨-, h⟩ | ⟨-, -, h⟩ := c.deactivate_cases user <;> simp [h]

@[simp] theorem submissions_connectionUp : submissions c.connectionUp.out = submissions c.out := by
  rw [connectionUp_eq]
  split_ifs <;> simp [up]

@[simp] theorem submissions_quit : submissions c.quit.out = submissions c.out := by
  obtain ⟨-, h⟩ | ⟨-, h⟩ | ⟨-, -, h⟩ := c.quit_cases <;> simp [h, emit, Output.submission]

@[simp] theorem submissions_updateRequired :
    submissions c.updateRequired.out = submissions c.out := by
  obtain ⟨-, h⟩ | ⟨-, -, -, h⟩ | ⟨-, h⟩ := c.updateRequired_cases <;>
    simp [h, emit, Output.submission]

end Submissions

/-! ## Events that leave the attempt alone -/

/-- The calls and signals that neither start nor end an attempt to connect. -/
def Event.isPassive : Event → Bool
  | .initializeController | .implPermRequired | .implInitialized .. | .backendFailure ..
  | .pingSentAndReceived | .serverUnavailable | .startKeyRegeneration | .deleteOSTunnelConfig
  | .captivePortalPresent | .captivePortalGone => true
  | _ => false

/-- `d` is where `c` was in its attempt to connect. -/
structure SameAttempt (c d : Controller) : Prop where
  nextStep : d.nextStep = c.nextStep
  queue : d.activationQueue = c.activationQueue
  timer : d.handshakeTimer = c.handshakeTimer
  retry : d.connectionRetry = c.connectionRetry
  submissions : submissions d.out = submissions c.out

theorem SameAttempt.setState {c d : Controller} (h : c.SameAttempt d) (s : State) :
    c.SameAttempt (d.setState s) where
  nextStep := by rw [setState_eq, ← h.nextStep]
  queue := by rw [setState_eq, ← h.queue]
  timer := by rw [setState_eq, ← h.timer]
  retry := by rw [setState_eq, ← h.retry]
  submissions := by rw [submissions_setState, h.submissions]

theorem sameAttempt_handle (c : Controller) (env : Env) {e : Event} (he : e.isPassive) :
    c.SameAttempt (c.handle env e) := by
  have hrefl : c.SameAttempt c := ⟨rfl, rfl, rfl, rfl, rfl⟩
  have hbackend (b : Bool) : c.SameAttempt { c with backendAvailable := b } :=
    ⟨rfl, rfl, rfl, rfl, rfl⟩
  cases e with
  | initializeController =>
    have hs := hrefl.setState .initializing
    refine ⟨hs.nextStep, hs.queue, hs.timer, hs.retry, ?_⟩
    simp [handle, initializeController, emit, Output.submission]
  | implPermRequired => exact (hbackend false).setState _
  | implInitialized status connected =>
    rw [handle, implInitialized_eq]
    exact (hbackend status).setState _
  | backendFailure code => exact ⟨rfl, rfl, rfl, rfl, rfl⟩
  | pingSentAndReceived =>
    unfold handle pingSentAndReceived
    split_ifs
    · exact ⟨rfl, rfl, rfl, rfl, rfl⟩
    · exact hrefl
  | serverUnavailable =>
    have hsub := submissions_serverUnavailable c
    rw [serverUnavailable_eq] at hsub
    rw [handle, serverUnavailable_eq]
    exact ⟨rfl, rfl, rfl, rfl, hsub⟩
  | startKeyRegeneration => exact hrefl.setState _
  | deleteOSTunnelConfig =>
    unfold handle deleteOSTunnelConfig
    dsimp only
    split_ifs
    · have hemit : c.SameAttempt (c.emit .implDeleteOSTunnelConfig) :=
        ⟨rfl, rfl, rfl, rfl, by simp [emit, Output.submission]⟩
      exact hemit.setState _
    · exact hrefl.setState _
  | captivePortalPresent => exact ⟨rfl, rfl, rfl, rfl, rfl⟩
  | captivePortalGone => exact ⟨rfl, rfl, rfl, rfl, rfl⟩
  | _ => cases he

/-- A property of the queue and the timer that `tearDown` establishes. -/
structure Framed (P : Controller → Prop) : Prop where
  same : ∀ {c d : Controller}, P c → d.activationQueue = c.activationQueue →
    d.handshakeTimer = c.handshakeTimer → P d
  tearDown : ∀ c : Controller, P c.tearDown

namespace Framed

variable {P : Controller → Prop} {c : Controller}

theorem setState (hP : Framed P) (h : P c) (s : State) : P (c.setState s) := by
  rw [setState_eq]
  exact hP.same h rfl rfl

theorem handle_passive (hP : Framed P) (h : P c) (env : Env) {e : Event} (he : e.isPassive) :
    P (c.handle env e) :=
  hP.same h (c.sameAttempt_handle env he).queue (c.sameAttempt_handle env he).timer

theorem deactivate (hP : Framed P) (h : P c) (user : ActivationPrincipal) :
    P (c.deactivate user).1 := by
  obtain ⟨-, hd⟩ | ⟨-, hd⟩ | ⟨-, hd⟩ | ⟨-, -, hd⟩ := c.deactivate_cases user <;> rw [hd]
  · exact h
  · exact hP.setState h .off
  · exact h
  · exact hP.tearDown c

theorem quit (hP : Framed P) (h : P c) : P c.quit := by
  have hnext : P { c with nextStep := .quit } := hP.same h rfl rfl
  obtain ⟨-, hq⟩ | ⟨-, hq⟩ | ⟨-, -, hq⟩ := c.quit_cases <;> rw [hq]
  · exact hP.same h rfl rfl
  · exact hnext
  · exact hP.deactivate hnext .clientUser

theorem updateRequired (hP : Framed P) (h : P c) : P c.updateRequired := by
  have hnext : P { c with nextStep := .update } := hP.same h rfl rfl
  obtain ⟨-, hu⟩ | ⟨-, -, -, hu⟩ | ⟨-, hu⟩ := c.updateRequired_cases <;> rw [hu]
  · exact hP.same h rfl rfl
  · exact hnext
  · exact hP.deactivate hnext .clientUser

end Framed

/-! ## Coming up -/

/-- The signal that the VPN is connected, for the whole device or in part. -/
def Output.isUp : Output → Bool
  | .stateChanged .on | .stateChanged .onPartial => true
  | _ => false

def comesUp (out : List Output) : Bool := out.any Output.isUp

/-- The last event brought the connection up. -/
def cameUp (c : Controller) : Bool := comesUp c.out

section ComesUp

variable (c : Controller)

@[simp] theorem comesUp_nil : comesUp [] = false := rfl

@[simp] theorem comesUp_cons (o : Output) (out : List Output) :
    comesUp (o :: out) = (o.isUp || comesUp out) := rfl

@[simp] theorem comesUp_append (out out' : List Output) :
    comesUp (out ++ out') = (comesUp out || comesUp out') := List.any_append

@[simp] theorem comesUp_changed (s : State) :
    comesUp (c.changed s) = (c.state ≠ s && Output.isUp (.stateChanged s)) := by
  unfold changed
  by_cases h : c.state = s <;> simp [h]

@[simp] theorem cameUp_tearDown : c.tearDown.cameUp = c.cameUp := by
  unfold cameUp
  rw [tearDown_eq]
  split_ifs <;> simp [Output.isUp]

@[simp] theorem cameUp_deactivate (user : ActivationPrincipal) :
    (c.deactivate user).1.cameUp = c.cameUp := by
  obtain ⟨-, h⟩ | ⟨-, h⟩ | ⟨-, h⟩ | ⟨-, -, h⟩ := c.deactivate_cases user <;> rw [h]
  · rw [setState_eq]
    simp [cameUp, Output.isUp]
  · exact c.cameUp_tearDown

@[simp] theorem cameUp_serverUnavailable : c.serverUnavailable.cameUp = c.cameUp := by
  rw [serverUnavailable_eq]
  simp [cameUp, Output.isUp]

@[simp] theorem cameUp_submit (config : InterfaceConfig) :
    (c.submit config).cameUp = c.cameUp := by
  unfold cameUp
  rw [submit_eq]
  split_ifs <;> simp [Output.isUp]

theorem cameUp_activateInternal (env : Env) (dnsPort : DNSPortPolicy)
    (policy : ServerSelectionPolicy) (initiator : ActivationPrincipal) :
    (activateInternal env dnsPort policy initiator c).cameUp = c.cameUp := by
  obtain ⟨-, h⟩ | ⟨-, -, h⟩ | ⟨-, -, first, rest, -, h⟩ :=
    c.activateInternal_cases env dnsPort policy initiator <;> rw [h]
  · rw [cameUp_serverUnavailable]
    rfl
  · rfl
  · rw [cameUp_submit]
    rfl

theorem cameUp_handshakeTimeout (env : Env) :
    (c.handshakeTimeout env).cameUp = c.cameUp := by
  have hexpired : c.expired.cameUp = c.cameUp := by simp [cameUp, expired, emit, Output.isUp]
  have hprofile : c.profileExpired.cameUp = c.cameUp := by
    rw [profileExpired, setState_eq]
    simp [cameUp, setError, Output.isUp]
  obtain ⟨-, h⟩ | ⟨-, -, h⟩ | ⟨-, -, -, h⟩ | ⟨-, -, -, -, h⟩ | ⟨-, -, -, -, h⟩ :=
    c.handshakeTimeout_cases env <;> rw [h]
  · split_ifs
    · rw [← hprofile]
      simp [cameUp, emit, Output.isUp]
    · exact hprofile
  · rw [cameUp_deactivate, hexpired]
  · rw [cameUp_activateInternal]
    exact hexpired
  · rw [cameUp_serverUnavailable]
    exact hexpired

theorem cameUp_up (hout : c.out = []) : c.up.cameUp ↔ c.state ≠ c.upState := by
  unfold cameUp up
  obtain h | h := c.upState_eq_or <;> simp [h, hout, Output.isUp]

end ComesUp

/-! ## An environment with a server -/

/-- A server that can be reached. -/
def availableServer : Server :=
  { hostname := .text "se-got".toList
    publicKey := .text "exit".toList
    ipv4AddrIn := .text "192.0.2.1".toList
    ipv4Gateway := .text "10.64.0.1".toList
    portRanges := [(51820, 51820)]
    weight := 1 }

/-- A device, and one server in every city. -/
def availableEnv : Env where
  T := .ofTable [] []
  hasProfiles := false
  currentDevice := some ⟨.text "10.64.0.2/32".toList, .null⟩
  privateKey := .text "private".toList
  server _ := availableServer
  getServerList _ _ := [availableServer]
  random _ := 0
  getTranslatedCityName := id
  settingsServerData := {}
  dnsSettings := {}
  vpnDisabledApps := []
  alwaysPort53 := false
  splitTunnelSupported := false
  multihopSupported := true

theorem submissions_activateInternal_availableEnv (dnsPort : DNSPortPolicy)
    (initiator : ActivationPrincipal) (c : Controller) :
    submissions
      (activateInternal availableEnv dnsPort .randomizeServerSelection initiator c).out ≠ [] := by
  have hmissing : serverMissing availableEnv .randomizeServerSelection c.serverData = false := by
    unfold serverMissing
    have hentry : (c.serverData.entryServers availableEnv.getServerList) = [availableServer] := by
      unfold ServerData.entryServers
      split_ifs <;> rfl
    have hexit : exitServer availableEnv .randomizeServerSelection c.serverData = availableServer :=
      rfl
    have hchosen : entryServer availableEnv .randomizeServerSelection c.serverData =
        availableServer := by
      unfold entryServer
      rw [if_neg (by simp), hentry]
      rfl
    rw [hexit, hchosen]
    simp [availableServer, Server.initialized, QString.isEmpty]
  obtain ⟨hm, -⟩ | ⟨-, hd, -⟩ | ⟨-, -, first, rest, -, ha⟩ :=
    c.activateInternal_cases availableEnv dnsPort .randomizeServerSelection initiator
  · rw [hmissing] at hm
    cases hm
  · cases hd
  · rw [ha]
    simp

/-- The states a controller can get into. -/
def Reachable (c : Controller) : Prop := ∃ es, run {} es = c

end Controller

end WgDesktop
