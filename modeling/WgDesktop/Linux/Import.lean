import WgDesktop.Daemon.Config
import WgDesktop.Linux.WireguardUtils
import WgDesktop.Profile.RoundTrip

/-!
# From an imported file to a peer

The way of an imported configuration: `WireGuardConfig::parse`, `InterfaceConfig::toJson`,
`Daemon::parseConfig`, `WireguardUtilsLinux::updatePeer` and, in there,
`LinuxFirewall::markInbound`. The importer and the resolver take host names, the firewall takes
numeric addresses only; `updatePeer_imported_iff` says which imported configurations become a peer.
-/

namespace WgDesktop.WireguardUtils

open Bytes GoNet Netfilter LinuxFirewall WireGuardConfig Runs

/-! ## The route to the endpoint -/

/-- `inet_pton(AF_INET, …)` on a C string: four decimal fields without leading zeros. -/
def inetPton4 (text : List Char) : Option (List Byte) :=
  parseIPv4Fields (text.takeWhile fun c => c ≠ '\x00') [] 0 0

/-- The static `hasRouteToIPv4`: a text that is no address counts as reachable. `connects` is what
`connect` answers for an address. -/
def hasRouteToIPv4 (connects : List Byte → Bool) (ipv4addr : List Char) : Bool :=
  match inetPton4 ipv4addr with
  | none => true
  | some a => connects a

/-- `updatePeer` with the route that it finds. -/
def updatePeerVia (sys : System) (connects : List Byte → Bool) (s : State)
    (config : InterfaceConfig) : Bool × State :=
  updatePeer sys s config (hasRouteToIPv4 connects config.serverIpv4AddrIn.chars)

section Update

variable {sys : System} {s : State} {config : InterfaceConfig} {route : Bool}

/-- On a firewall that is up, an update succeeds exactly when its endpoint is a numeric address and
its prefixes are addresses. -/
theorem updatePeer_iff (hsys : sys.Succeeds) (hup : ∃ rules, Running rules s.firewall) :
    (updatePeer sys s config route).1 = true ↔
      parseIP (endpointAddr config route).chars ≠ none ∧ prefixesOk sys config = true := by
  obtain ⟨rules, hrunning⟩ := hup
  by_cases hok : prefixesOk sys config = true
  · cases hip : parseIP (endpointAddr config route).chars with
    | none =>
      cases hget : sys.getaddrinfo (endpointAddr config route).chars with
      | none => simp [updatePeer, hget]
      | some ip => simp [updatePeer, hget, hok, exec_markInbound_none hip]
    | some ip =>
      obtain ⟨fw, hexec, -, -⟩ := exec_markInbound hsys.willing hrunning hip
      simp [updatePeer, hsys.numeric _ _ hip, hok, hexec, hsys.device]
  · refine iff_of_false ?_ fun h => hok h.2
    cases hget : sys.getaddrinfo (endpointAddr config route).chars with
    | none => simp [updatePeer, hget]
    | some ip => simp [updatePeer, hget, hok]

end Update

/-! ## Imported configurations -/

section Imported

variable {T : HostAddressText} {c : InterfaceConfig} {content : List Char}

/-- An address that was read is read back from its text. -/
def Rereads (T : HostAddressText) : Prop :=
  ∀ s a n, T.Reads s a n → T.hostAddress (T.toString a) = a

/-- The prefixes of an imported configuration survive the way to the daemon. -/
theorem sendable_of_parse (hT : T.Lawful) (hback : Rereads T) (h : parse T content = .ok c) :
    ∀ i ∈ c.allowedIPAddressRanges, Daemon.Sendable T i := by
  intro i hi
  obtain ⟨v, -, hvalid, rfl⟩ := (imported_of_parse h).allowedIPAddressRanges i hi
  obtain ⟨a, n, hreads, hof⟩ := reads_of_valid hT hvalid
  have hle := hT.prefixLength_le v a n hreads
  rw [hof]
  refine ⟨⟨hreads.1, hreads.2.1, ?_⟩, hback v a n hreads⟩
  have hnonneg : (0 : ℤ) ≤ n := hreads.2.1
  change n.toNat ≤ a.width
  omega

/-- The endpoint that the daemon takes is numeric: the first one, unless it is an IPv4 address that
cannot be reached; in that case the second one. -/
def NumericEndpoint (connects : List Byte → Bool) (c : InterfaceConfig) : Prop :=
  ((∀ a, inetPton4 c.serverIpv4AddrIn.chars = some a → connects a = true) ∧
      parseIP c.serverIpv4AddrIn.chars ≠ none) ∨
    (∃ a, inetPton4 c.serverIpv4AddrIn.chars = some a ∧ connects a = false) ∧
      parseIP c.serverIpv6AddrIn.chars ≠ none

/-- **From the file to the peer.** The daemon takes every configuration that the importer accepted,
and with a firewall that is up and calls that all succeed it sets the peer exactly when the endpoint
that it takes is a numeric address. -/
theorem updatePeer_imported_iff (hT : T.Lawful) (hback : Rereads T) (S : Daemon.PrefixSort)
    (h : parse T content = .ok c) {sys : System} (hsys : sys.Succeeds) {s : State}
    (hup : ∃ rules, Running rules s.firewall) (connects : List Byte → Bool) :
    ∃ c', Daemon.parseConfig T S (c.toJson T) = .ok c' ∧
      ((updatePeerVia sys connects s c').1 = true ↔ NumericEndpoint connects c) := by
  have hsingle : c.hopType = .singleHop := by
    rw [(imported_of_parse h).defaults]
  refine ⟨_, Daemon.parseConfig_toJson S c (sendable_of_parse hT hback h), ?_⟩
  rw [updatePeerVia, updatePeer_iff hsys hup]
  simp only [prefixesOk, hsingle, and_true, endpointAddr, QString.isNull_text, Bool.not_false,
    Bool.true_and, Bool.false_or, QString.chars_text, hasRouteToIPv4, NumericEndpoint]
  cases hpton : inetPton4 c.serverIpv4AddrIn.chars with
  | none => simp
  | some a =>
    cases hroute : connects a with
    | true => simp [hroute]
    | false => simp [hroute]

end Imported

/-! ### Two files -/

theorem rereads_ofTable {addresses : List (List Char × QHostAddress)}
    {subnets : List (List Char × QHostAddress × ℤ)}
    (h : ∀ e ∈ HostAddressText.tableReadings addresses subnets,
      (HostAddressText.ofTable addresses subnets).hostAddress
        ((HostAddressText.ofTable addresses subnets).toString e.2.1) = e.2.1) :
    Rereads (.ofTable addresses subnets) := fun _ _ _ hreads =>
  h _ (HostAddressText.mem_tableReadings hreads)

theorem rereads_dualStackText : Rereads dualStackText := by
  refine rereads_ofTable ?_
  decide

/-- A file with the given endpoint. -/
def importedContent (endpoint : String) : List Char :=
  ['\n'].intercalate (["[Interface]", "PrivateKey = " ++ keyC, "Address = 10.0.0.2/32", "[Peer]",
    "PublicKey = " ++ keyB, "Endpoint = " ++ endpoint, "AllowedIPs = 0.0.0.0/0"].map String.toList)

def importedConfig (host : String) : InterfaceConfig :=
  { hopType := .singleHop
    privateKey := .text keyC.toList
    deviceIpv4Address := .text "10.0.0.2/32".toList
    serverPublicKey := .text keyB.toList
    serverIpv4AddrIn := .text host.toList
    serverPort := 51820
    allowedIPAddressRanges := [⟨.ipv4 0#32, 0⟩] }

theorem parse_numericContent :
    parse dualStackText (importedContent "192.0.2.1:51820") = .ok (importedConfig "192.0.2.1") := by
  decide +kernel

theorem parse_hostContent :
    parse dualStackText (importedContent "vpn.example:51820") =
      .ok (importedConfig "vpn.example") := by
  decide +kernel

/-- A system on which every name resolves. -/
def resolving : System := { succeeding with getaddrinfo := fun s => (parseIP s).or (some ip1) }

theorem succeeds_resolving : resolving.Succeeds :=
  ⟨willing_willing, fun _ _ h => by simp [resolving, h], fun _ => rfl⟩

theorem exists_running : ∃ s : State, ∃ rules, Running rules s.firewall := by
  obtain ⟨s, hs⟩ := exists_started
  exact ⟨s, (exact_started hs).1.running⟩

/-- A numeric endpoint becomes a peer. -/
theorem updatePeer_numericContent : ∃ s c', (∃ rules, Running rules s.firewall) ∧
    Daemon.parseConfig dualStackText .insertion
      ((importedConfig "192.0.2.1").toJson dualStackText) = .ok c' ∧
    (updatePeerVia resolving (fun _ => true) s c').1 = true := by
  obtain ⟨s, hup⟩ := exists_running
  obtain ⟨c', hc', hiff⟩ := updatePeer_imported_iff lawful_dualStackText rereads_dualStackText
    .insertion parse_numericContent succeeds_resolving hup fun _ => true
  exact ⟨s, c', hup, hc', hiff.mpr (.inl ⟨fun _ _ => rfl, by decide +kernel⟩)⟩

/-- A host name that the importer and the resolver take is refused by the firewall. -/
theorem updatePeer_refuses_hostName : resolving.Succeeds ∧
    (∀ name, resolving.getaddrinfo name ≠ none) ∧
    ∃ c, parse dualStackText (importedContent "vpn.example:51820") = .ok c ∧
      ∃ c', Daemon.parseConfig dualStackText .insertion (c.toJson dualStackText) = .ok c' ∧
        ∃ s, (∃ rules, Running rules s.firewall) ∧
          (updatePeerVia resolving (fun _ => true) s c').1 = false := by
  refine ⟨succeeds_resolving, fun name => ?_, _, parse_hostContent, _,
    Daemon.parseConfig_toJson _ _ (sendable_of_parse lawful_dualStackText rereads_dualStackText
      parse_hostContent), ?_⟩
  · cases h : parseIP name with
    | none => simp [resolving, h]
    | some ip => simp [resolving, h]
  · obtain ⟨s, hup⟩ := exists_running
    refine ⟨s, hup, ?_⟩
    rw [← Bool.not_eq_true, updatePeerVia, updatePeer_iff succeeds_resolving hup]
    rintro ⟨hip, -⟩
    exact hip (by decide +kernel)

end WgDesktop.WireguardUtils
