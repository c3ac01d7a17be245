import WgDesktop.Lib.InUse
import WgDesktop.Profile.InterfaceConfig
import WgDesktop.Linux.Firewall

/-!
# `WireguardUtilsLinux`

`updatePeer` and `deletePeer` of `src/platforms/linux/daemon/wireguardutilslinux.cpp`: a peer is
set on the WireGuard device and its endpoint is marked in the firewall, one address at a time, with
the address kept by public key for `deletePeer`.

The firewall should let out exactly the endpoints of the configured peers. `exact_run` shows that it
does along every run that gives up no endpoint by an update and deletes no endpoint that another
peer shares; `exact_updatePeer_iff` and `exact_deletePeer_iff` show that each step that does breaks
it.
-/

namespace WgDesktop.WireguardUtils

open Bytes GoNet Netfilter LinuxFirewall InUse Runs

/-! ## Keys -/

/-- The value of a base64 digit, and -1 for any other byte. -/
def base64Value (b : Byte) : BitVec 32 :=
  let c := b.setWidth 32
  if 65 ≤ b.toNat ∧ b.toNat ≤ 90 then c - 65#32
  else if 97 ≤ b.toNat ∧ b.toNat ≤ 122 then c - 71#32
  else if 48 ≤ b.toNat ∧ b.toNat ≤ 57 then c + 4#32
  else if b.toNat = 43 then 62#32
  else if b.toNat = 47 then 63#32
  else BitVec.allOnes 32

def decodeBase64 (a b c d : Byte) : BitVec 32 :=
  (base64Value a <<< 18) ||| (base64Value b <<< 12) ||| (base64Value c <<< 6) ||| base64Value d

/-- The groups of four digits, of which the last has a padding digit. -/
def decodeGroups : List Byte → List Byte
  | [a, b, c, _] =>
    let val := decodeBase64 a b c 65#8
    [val.extractLsb' 16 8, val.extractLsb' 8 8]
  | a :: b :: c :: d :: rest =>
    let val := decodeBase64 a b c d
    val.extractLsb' 16 8 :: val.extractLsb' 8 8 :: val.extractLsb' 0 8 :: decodeGroups rest
  | _ => []

/-- `wg_key_from_base64` on a key of zeros; the callers do not look at its error. -/
def wgKeyFromBase64 (base64 : List Byte) : List Byte :=
  let base64 := base64.takeWhile fun b => b ≠ 0#8
  if base64.length = 44 ∧ base64.getLast? = some 61#8 then decodeGroups base64
  else List.replicate 32 0#8

/-! ## Peers -/

/-- The calls out of the class: the firewall's kernel, the resolver, `inet_pton` on the text of an
address, and the WireGuard device, which may refuse a change of a key. -/
structure System where
  kernel : Kernel
  getaddrinfo : List Char → Option (List Byte)
  inetPton : QHostAddress → Bool
  setDevice : List Byte → Bool

/-- The firewall, `m_peerEndpoints`, and the peers of the device with their endpoints. -/
structure State where
  firewall : Netfilter.State
  peerEndpoints : List Char → Option (List Char)
  peers : List Byte → Option (List Byte)

def peerKey (config : InterfaceConfig) : List Byte :=
  wgKeyFromBase64 (toLocal8Bit config.serverPublicKey.chars)

/-- The endpoint that `updatePeer` uses: IPv4, but IPv6 when there is no IPv4 endpoint, or no route
to it while there is an IPv6 one. -/
def endpointAddr (config : InterfaceConfig) (hasRouteToIPv4 : Bool) : QString :=
  if !config.serverIpv4AddrIn.isNull && (config.serverIpv6AddrIn.isNull || hasRouteToIPv4) then
    config.serverIpv4AddrIn
  else config.serverIpv6AddrIn

def buildAllowedIp (sys : System) (range : IPAddress) : Bool :=
  match range.address.protocol with
  | .unknownNetworkLayerProtocol => false
  | _ => sys.inetPton range.address

/-- Only an entry hop gives up on a range that is no address. -/
def prefixesOk (sys : System) (config : InterfaceConfig) : Bool :=
  match config.hopType with
  | .multiHopEntry => config.allowedIPAddressRanges.all (buildAllowedIp sys)
  | _ => true

def updatePeer (sys : System) (s : State) (config : InterfaceConfig) (hasRouteToIPv4 : Bool) :
    Bool × State :=
  let addr := (endpointAddr config hasRouteToIPv4).chars
  match sys.getaddrinfo addr with
  | none => (false, s)
  | some ip =>
    if prefixesOk sys config then
      match exec (markInbound sys.kernel addr) s.firewall with
      | (.ok true, fw) =>
        let s := { s with
          firewall := fw
          peerEndpoints :=
            Function.update s.peerEndpoints config.serverPublicKey.chars (some addr) }
        if sys.setDevice (peerKey config) then
          (true, { s with peers := Function.update s.peers (peerKey config) (some ip) })
        else (false, s)
      | (_, fw) => (false, { s with firewall := fw })
    else (false, s)

def deletePeer (sys : System) (s : State) (config : InterfaceConfig) : Bool × State :=
  let key := config.serverPublicKey.chars
  let addr := (s.peerEndpoints key).getD []
  let s := { s with peerEndpoints := Function.update s.peerEndpoints key none }
  let (cleared, fw) :=
    if addr = [] then (.ok true, s.firewall) else exec (clearInbound sys.kernel addr) s.firewall
  let s := { s with firewall := fw }
  match cleared with
  | .ok true =>
    if sys.setDevice (peerKey config) then
      (true, { s with peers := Function.update s.peers (peerKey config) none })
    else (false, s)
  | _ => (false, s)

/-- A call, with the routing table's answer at that time. -/
inductive Call where
  | updatePeer (config : InterfaceConfig) (hasRouteToIPv4 : Bool)
  | deletePeer (config : InterfaceConfig)
  deriving DecidableEq, Repr

def step (sys : System) (s : State) : Call → State
  | .updatePeer config route => (WireguardUtils.updatePeer sys s config route).2
  | .deletePeer config => (WireguardUtils.deletePeer sys s config).2

/-! ## The property -/

/-- Every system call succeeds, and the resolver returns a numeric address as it is. -/
structure System.Succeeds (sys : System) : Prop where
  willing : Willing sys.kernel
  numeric : ∀ s ip, parseIP s = some ip → sys.getaddrinfo s = some ip
  device : ∀ key, sys.setDevice key = true

/-- The firewall is up and there are no peers yet. -/
def Started (sys : System) (s : State) : Prop :=
  (∃ T fw ifname fwmark addr, IPAddress.ReadsLan T ∧ Fresh fw ∧
    exec (up sys.kernel T ifname fwmark addr) fw = (.ok true, s.firewall)) ∧
    s.peerEndpoints = (fun _ => none) ∧ s.peers = fun _ => none

/-- The endpoint sets hold exactly the endpoints of the configured peers. -/
def Exact (s : State) : Prop := elementKeys s.firewall = addressKey '' inUse s.peers

/-- What the class keeps: a firewall that runs, and an entry of `m_peerEndpoints` for each peer
that says where it is. -/
structure Kept (s : State) : Prop where
  running : ∃ rules, Running rules s.firewall
  entry : ∀ key addr, s.peerEndpoints key = some addr →
    ∃ ip, parseIP addr = some ip ∧ s.peers (wgKeyFromBase64 (toLocal8Bit key)) = some ip
  peer : ∀ key, s.peers key ≠ none →
    ∃ text, wgKeyFromBase64 (toLocal8Bit text) = key ∧ s.peerEndpoints text ≠ none
  length : ∀ key ip, s.peers key = some ip → ip.length = 16

/-- No other text of the same key is in use. -/
def Unaliased (s : State) (config : InterfaceConfig) : Prop :=
  ∀ text, wgKeyFromBase64 (toLocal8Bit text) = peerKey config →
    text ≠ config.serverPublicKey.chars → s.peerEndpoints text = none

/-- An update that takes effect gives up no endpoint that only its peer had, and a deletion deletes
no endpoint that another peer has. -/
def Undisturbing (sys : System) (s : State) : Call → Prop
  | .updatePeer config route => Unaliased s config ∧
      ∀ ip, parseIP (endpointAddr config route).chars = some ip → prefixesOk sys config = true →
        ∀ old, s.peers (peerKey config) = some old →
          old = ip ∨ ∃ key, key ≠ peerKey config ∧ s.peers key = some old
  | .deletePeer config => Unaliased s config ∧
      ∀ ip, s.peers (peerKey config) = some ip →
        ∀ key, key ≠ peerKey config → s.peers key ≠ some ip

/-! ## What a call does -/

section Calls

variable {sys : System} {s : State} {config : InterfaceConfig} {route : Bool} {ip : List Byte}

/-- An update without a numeric endpoint, or with a range that is no address, changes nothing. -/
theorem updatePeer_of_refused
    (h : parseIP (endpointAddr config route).chars = none ∨ prefixesOk sys config = false) :
    (updatePeer sys s config route).2 = s := by
  cases hget : sys.getaddrinfo (endpointAddr config route).chars with
  | none => simp only [updatePeer, hget]
  | some ip =>
    by_cases hok : prefixesOk sys config = true
    · have hip := h.resolve_right (by simp [hok])
      simp only [updatePeer, hget, hok, if_true, exec_markInbound_none hip]
    · simp only [updatePeer, hget, hok]
      rfl

theorem updatePeer_of_numeric (hsys : sys.Succeeds) (hkept : Kept s)
    (hip : parseIP (endpointAddr config route).chars = some ip)
    (hok : prefixesOk sys config = true) :
    ∃ fw, (∃ rules, Running rules fw) ∧
      elementKeys fw = elementKeys s.firewall ∪ {addressKey ip} ∧
      (updatePeer sys s config route).2 =
        { firewall := fw
          peerEndpoints := Function.update s.peerEndpoints config.serverPublicKey.chars
            (some (endpointAddr config route).chars)
          peers := Function.update s.peers (peerKey config) (some ip) } := by
  obtain ⟨rules, hrunning⟩ := hkept.running
  obtain ⟨fw, hexec, hrunning', hkeys⟩ := exec_markInbound hsys.willing hrunning hip
  refine ⟨fw, ⟨rules, hrunning'⟩, hkeys, ?_⟩
  simp only [updatePeer, hsys.numeric _ _ hip, hok, if_true, hexec, hsys.device]

theorem Kept.peers_eq_none (hkept : Kept s) (halias : Unaliased s config)
    (h : s.peerEndpoints config.serverPublicKey.chars = none) :
    s.peers (peerKey config) = none := by
  by_contra hne
  obtain ⟨text, hkey, hentry⟩ := hkept.peer _ hne
  by_cases htext : text = config.serverPublicKey.chars
  · exact hentry (htext ▸ h)
  · exact hentry (halias text hkey htext)

theorem deletePeer_of_none (hsys : sys.Succeeds) (hkept : Kept s) (halias : Unaliased s config)
    (h : s.peerEndpoints config.serverPublicKey.chars = none) :
    (deletePeer sys s config).2 = s := by
  have hpeer := hkept.peers_eq_none halias h
  have hupdate : Function.update s.peerEndpoints config.serverPublicKey.chars none =
      s.peerEndpoints := Function.update_eq_self_iff.mpr h.symm
  have hupdate' : Function.update s.peers (peerKey config) none = s.peers :=
    Function.update_eq_self_iff.mpr hpeer.symm
  simp only [deletePeer, h, hupdate, hupdate', Option.getD_none, if_true, hsys.device]

theorem deletePeer_of_some (hsys : sys.Succeeds) (hkept : Kept s) (hexact : Exact s)
    (hip : s.peers (peerKey config) = some ip) {addr : List Char}
    (haddr : s.peerEndpoints config.serverPublicKey.chars = some addr) :
    ∃ fw, (∃ rules, Running rules fw) ∧
      elementKeys fw = elementKeys s.firewall \ {addressKey ip} ∧
      (deletePeer sys s config).2 =
        { firewall := fw
          peerEndpoints := Function.update s.peerEndpoints config.serverPublicKey.chars none
          peers := Function.update s.peers (peerKey config) none } := by
  obtain ⟨rules, hrunning⟩ := hkept.running
  obtain ⟨ip', hparse, hpeer⟩ := hkept.entry _ _ haddr
  obtain rfl : ip' = ip := Option.some.inj (hpeer.symm.trans hip)
  have hmem : addressKey ip' ∈ elementKeys s.firewall := by
    rw [hexact]
    exact ⟨ip', ⟨_, hip⟩, rfl⟩
  obtain ⟨fw, hexec, hrunning', hkeys⟩ := exec_clearInbound hsys.willing hrunning hparse hmem
  have hne : addr ≠ [] := by
    rintro rfl
    simp [show parseIP [] = none from rfl] at hparse
  refine ⟨fw, ⟨rules, hrunning'⟩, hkeys, ?_⟩
  simp only [deletePeer, haddr, Option.getD_some, if_neg hne, hexec, hsys.device, if_true]

/-! ## Exactness, step by step -/

theorem image_addressKey_eq_iff {A B : Set (List Byte)} (hA : ∀ ip ∈ A, ip.length = 16)
    (hB : ∀ ip ∈ B, ip.length = 16) : addressKey '' A = addressKey '' B ↔ A = B :=
  addressKey_injOn.image_eq_image_iff hA hB

theorem Kept.length_of_inUse (hkept : Kept s) : ∀ ip ∈ inUse s.peers, ip.length = 16 := by
  rintro ip ⟨key, hkey⟩
  exact hkept.length key ip hkey

/-- **Updating.** An update that takes effect keeps the sets exact if and only if the peer gives up
no endpoint that only it had. -/
theorem exact_updatePeer_iff (hsys : sys.Succeeds) (hkept : Kept s) (hexact : Exact s)
    (hip : parseIP (endpointAddr config route).chars = some ip)
    (hok : prefixesOk sys config = true) :
    Exact (updatePeer sys s config route).2 ↔ ∀ old, s.peers (peerKey config) = some old →
      old = ip ∨ ∃ key, key ≠ peerKey config ∧ s.peers key = some old := by
  obtain ⟨fw, -, hkeys, hnext⟩ := updatePeer_of_numeric hsys hkept hip hok
  have hlen := length_of_parseIP hip
  have hA : ∀ a ∈ inUse s.peers ∪ {ip}, a.length = 16 := by
    rintro a (ha | rfl)
    · exact hkept.length_of_inUse a ha
    · exact hlen
  have hB : ∀ a ∈ inUse (Function.update s.peers (peerKey config) (some ip)), a.length = 16 := by
    intro a ha
    rcases mem_inUse_update_some.mp ha with rfl | ⟨key, -, hkey⟩
    · exact hlen
    · exact hkept.length key a hkey
  rw [hnext, Exact, hkeys, hexact, ← Set.image_singleton, ← Set.image_union,
    image_addressKey_eq_iff hA hB, union_eq_inUse_update_some_iff]

/-- **Deleting.** A deletion keeps the sets exact if and only if no other peer has the endpoint. -/
theorem exact_deletePeer_iff (hsys : sys.Succeeds) (hkept : Kept s) (hexact : Exact s)
    (hip : s.peers (peerKey config) = some ip)
    (hentry : s.peerEndpoints config.serverPublicKey.chars ≠ none) :
    Exact (deletePeer sys s config).2 ↔
      ∀ key, key ≠ peerKey config → s.peers key ≠ some ip := by
  obtain ⟨addr, haddr⟩ := Option.ne_none_iff_exists'.mp hentry
  obtain ⟨fw, -, hkeys, hnext⟩ := deletePeer_of_some hsys hkept hexact hip haddr
  have hA : ∀ a ∈ inUse s.peers \ {ip}, a.length = 16 := fun a ha => hkept.length_of_inUse a ha.1
  have hB : ∀ a ∈ inUse (Function.update s.peers (peerKey config) none), a.length = 16 := by
    intro a ha
    obtain ⟨key, -, hkey⟩ := mem_inUse_update_none.mp ha
    exact hkept.length key a hkey
  have hinj : Set.InjOn addressKey (inUse s.peers) := addressKey_injOn.mono hkept.length_of_inUse
  have himage : addressKey '' inUse s.peers \ {addressKey ip} =
      addressKey '' (inUse s.peers \ {ip}) := by
    rw [← Set.image_singleton, hinj.image_sdiff_subset (Set.singleton_subset_iff.mpr ⟨_, hip⟩)]
  rw [hnext, Exact, hkeys, hexact, himage, image_addressKey_eq_iff hA hB,
    diff_eq_inUse_update_none_iff hip]

/-! ## Runs -/

theorem Kept.assign (hkept : Kept s) (halias : Unaliased s config) {fw : Netfilter.State}
    (hrunning : ∃ rules, Running rules fw) {entry : Option (List Char)} {peer : Option (List Byte)}
    (h : entry = none ∧ peer = none ∨
      ∃ addr ip, entry = some addr ∧ peer = some ip ∧ parseIP addr = some ip) :
    Kept { firewall := fw
           peerEndpoints := Function.update s.peerEndpoints config.serverPublicKey.chars entry
           peers := Function.update s.peers (peerKey config) peer } := by
  refine ⟨hrunning, ?_, ?_, ?_⟩ <;> dsimp only
  · intro text addr haddr
    by_cases htext : text = config.serverPublicKey.chars
    · subst htext
      rw [Function.update_self] at haddr
      obtain ⟨hnone, -⟩ | ⟨addr', ip, hentry, hpeer, hip⟩ := h
      · simp [hnone] at haddr
      · obtain rfl : addr' = addr := Option.some.inj (hentry.symm.trans haddr)
        exact ⟨ip, hip, (Function.update_self ..).trans hpeer⟩
    · rw [Function.update_of_ne htext] at haddr
      obtain ⟨ip', hparse, hpeer⟩ := hkept.entry _ _ haddr
      have hne : wgKeyFromBase64 (toLocal8Bit text) ≠ peerKey config := by
        intro hkey
        simp [halias text hkey htext] at haddr
      exact ⟨ip', hparse, by rw [Function.update_of_ne hne, hpeer]⟩
  · intro key hkey
    by_cases hk : key = peerKey config
    · subst hk
      rw [Function.update_self] at hkey
      obtain ⟨-, hnone⟩ | ⟨addr, ip, hentry, -, -⟩ := h
      · exact absurd hnone hkey
      · exact ⟨_, rfl, by rw [Function.update_self, hentry]; simp⟩
    · rw [Function.update_of_ne hk] at hkey
      obtain ⟨text, htext, hentry⟩ := hkept.peer key hkey
      have hne : text ≠ config.serverPublicKey.chars := by
        rintro rfl
        exact hk htext.symm
      exact ⟨text, htext, by rwa [Function.update_of_ne hne]⟩
  · intro key a ha
    by_cases hk : key = peerKey config
    · subst hk
      rw [Function.update_self] at ha
      obtain ⟨-, hnone⟩ | ⟨addr, ip, -, hpeer, hip⟩ := h
      · simp [hnone] at ha
      · obtain rfl : ip = a := Option.some.inj (hpeer.symm.trans ha)
        exact length_of_parseIP hip
    · rw [Function.update_of_ne hk] at ha
      exact hkept.length key a ha

theorem kept_updatePeer (hsys : sys.Succeeds) (hkept : Kept s) (halias : Unaliased s config)
    (hip : parseIP (endpointAddr config route).chars = some ip)
    (hok : prefixesOk sys config = true) : Kept (updatePeer sys s config route).2 := by
  obtain ⟨fw, hrunning, -, hnext⟩ := updatePeer_of_numeric hsys hkept hip hok
  rw [hnext]
  exact hkept.assign halias hrunning (.inr ⟨_, ip, rfl, rfl, hip⟩)

theorem kept_deletePeer (hsys : sys.Succeeds) (hkept : Kept s) (hexact : Exact s)
    (halias : Unaliased s config) (hip : s.peers (peerKey config) = some ip)
    {addr : List Char} (haddr : s.peerEndpoints config.serverPublicKey.chars = some addr) :
    Kept (deletePeer sys s config).2 := by
  obtain ⟨fw, hrunning, -, hnext⟩ := deletePeer_of_some hsys hkept hexact hip haddr
  rw [hnext]
  exact hkept.assign halias hrunning (.inl ⟨rfl, rfl⟩)

theorem exact_step (hsys : sys.Succeeds) (call : Call) (h : Kept s ∧ Exact s)
    (hu : Undisturbing sys s call) : Kept (step sys s call) ∧ Exact (step sys s call) := by
  obtain ⟨hkept, hexact⟩ := h
  cases call with
  | updatePeer config route =>
    obtain ⟨halias, hgives⟩ := hu
    change Kept (updatePeer sys s config route).2 ∧ Exact (updatePeer sys s config route).2
    cases hip : parseIP (endpointAddr config route).chars with
    | none =>
      rw [updatePeer_of_refused (.inl hip)]
      exact ⟨hkept, hexact⟩
    | some ip =>
      by_cases hok : prefixesOk sys config = true
      · exact ⟨kept_updatePeer hsys hkept halias hip hok,
          (exact_updatePeer_iff hsys hkept hexact hip hok).mpr (hgives ip hip hok)⟩
      · rw [updatePeer_of_refused (.inr (Bool.not_eq_true _ ▸ hok))]
        exact ⟨hkept, hexact⟩
  | deletePeer config =>
    obtain ⟨halias, hshared⟩ := hu
    change Kept (deletePeer sys s config).2 ∧ Exact (deletePeer sys s config).2
    cases haddr : s.peerEndpoints config.serverPublicKey.chars with
    | none =>
      rw [deletePeer_of_none hsys hkept halias haddr]
      exact ⟨hkept, hexact⟩
    | some addr =>
      obtain ⟨ip, -, hip⟩ := hkept.entry _ _ haddr
      exact ⟨kept_deletePeer hsys hkept hexact halias hip haddr,
        (exact_deletePeer_iff hsys hkept hexact hip (by simp [haddr])).mpr (hshared ip hip)⟩

theorem exact_started (h : Started sys s) : Kept s ∧ Exact s := by
  obtain ⟨⟨T, fw, ifname, fwmark, addr, hT, hfresh, hup⟩, hentries, hpeers⟩ := h
  obtain ⟨tb, htb, hempty⟩ := elements_of_up hT hfresh hup
  refine ⟨⟨⟨_, running_of_up hT hfresh hup⟩, by simp [hentries], by simp [hpeers],
    by simp [hpeers]⟩, ?_⟩
  rw [Exact, elementKeys_of_table htb]
  simp [hempty, hpeers, inUse]

/-- **The endpoint sets.** In every run that disturbs nothing, every state has exact sets. -/
theorem exact_run (hsys : sys.Succeeds) (hs : Started sys s) {calls : List Call}
    (hu : Guarded (step sys) (Undisturbing sys) s calls) (n : ℕ) :
    Exact ((calls.take n).foldl (step sys) s) := by
  have hstep : ∀ s call, (Kept s ∧ Exact s) → Undisturbing sys s call →
      Kept (step sys s call) ∧ Exact (step sys s call) :=
    fun _ call h hu => exact_step hsys call h hu
  exact (Guarded.invariant hstep (exact_started hs) hu n).2

end Calls

/-! ### Runs of two peers -/

/-- A system whose calls all succeed. -/
def succeeding : System := ⟨willing, parseIP, fun _ => true, fun _ => true⟩

theorem succeeds_succeeding : succeeding.Succeeds :=
  ⟨willing_willing, fun _ _ h => h, fun _ => rfl⟩

theorem exists_started : ∃ s, Started succeeding s := by
  obtain ⟨fw, hup⟩ := exists_up_quiet
  exact ⟨⟨fw, fun _ => none, fun _ => none⟩,
    ⟨lanText, quiet, _, _, _, readsLan_lanText, fresh_quiet, hup⟩, rfl, rfl⟩

def peerConfig (key addr : String) : InterfaceConfig :=
  { hopType := .singleHop
    serverPublicKey := .text key.toList
    serverIpv4AddrIn := .text addr.toList }

theorem peerKey_peerConfig (key addr : String) :
    peerKey (peerConfig key addr) = wgKeyFromBase64 (toLocal8Bit key.toList) := rfl

def keyB : String := "AQAAAAAAAAAAAAAAAAAAAAAAAAAAAAAAAAAAAAAAAAA="
def keyC : String := "AgAAAAAAAAAAAAAAAAAAAAAAAAAAAAAAAAAAAAAAAAA="

def first : InterfaceConfig := peerConfig keyB "192.0.2.1"
def moved : InterfaceConfig := peerConfig keyB "192.0.2.2"
def shared : InterfaceConfig := peerConfig keyC "192.0.2.1"
def second : InterfaceConfig := peerConfig keyC "192.0.2.2"

def ip1 : List Byte := v4InV6Prefix ++ [192#8, 0#8, 2#8, 1#8]
def ip2 : List Byte := v4InV6Prefix ++ [192#8, 0#8, 2#8, 2#8]

theorem parseIP_first : parseIP (endpointAddr first true).chars = some ip1 := by decide +kernel
theorem parseIP_moved : parseIP (endpointAddr moved true).chars = some ip2 := by decide +kernel
theorem parseIP_shared : parseIP (endpointAddr shared true).chars = some ip1 := by decide +kernel
theorem parseIP_second : parseIP (endpointAddr second true).chars = some ip2 := by decide +kernel
theorem peerKey_ne : peerKey shared ≠ peerKey first := by decide +kernel
theorem peerKey_moved : peerKey moved = peerKey first := by
  rw [moved, first, peerKey_peerConfig, peerKey_peerConfig]

theorem peerKey_second : peerKey second = peerKey shared := by
  rw [second, shared, peerKey_peerConfig, peerKey_peerConfig]

theorem ip1_ne_ip2 : ip1 ≠ ip2 := by decide

theorem peers_updatePeer {s : State} {config : InterfaceConfig} {ip : List Byte} (hkept : Kept s)
    (hip : parseIP (endpointAddr config true).chars = some ip)
    (hok : prefixesOk succeeding config = true) :
    (step succeeding s (.updatePeer config true)).peers =
        Function.update s.peers (peerKey config) (some ip) ∧
      (step succeeding s (.updatePeer config true)).peerEndpoints =
        Function.update s.peerEndpoints config.serverPublicKey.chars
          (some (endpointAddr config true).chars) := by
  obtain ⟨fw, -, -, hnext⟩ := updatePeer_of_numeric succeeds_succeeding hkept hip hok
  exact ⟨congrArg State.peers hnext, congrArg State.peerEndpoints hnext⟩

theorem undisturbing_first {s : State} (hs : Started succeeding s) :
    Undisturbing succeeding s (.updatePeer first true) := by
  obtain ⟨-, hentries, hpeers⟩ := hs
  exact ⟨fun text _ _ => by rw [hentries], fun ip _ _ old hold => by simp [hpeers] at hold⟩

theorem after_first {s : State} (hs : Started succeeding s) :
    let s₁ := step succeeding s (.updatePeer first true)
    (Kept s₁ ∧ Exact s₁) ∧
      s₁.peers = Function.update (fun _ => none) (peerKey first) (some ip1) ∧
      s₁.peerEndpoints = Function.update (fun _ => none) keyB.toList
        (some (endpointAddr first true).chars) := by
  have hstart := exact_started hs
  have hstep := exact_step succeeds_succeeding _ hstart (undisturbing_first hs)
  obtain ⟨hpeers, hentries⟩ := peers_updatePeer hstart.1 parseIP_first rfl
  obtain ⟨-, hnone, hnone'⟩ := hs
  rw [hnone'] at hpeers
  rw [hnone] at hentries
  exact ⟨hstep, hpeers, hentries⟩

theorem undisturbing_update_keyC {s₁ : State} {config : InterfaceConfig}
    (hkey : config.serverPublicKey = .text keyC.toList)
    (hpeers : s₁.peers = Function.update (fun _ => none) (peerKey first) (some ip1))
    (hentries : s₁.peerEndpoints = Function.update (fun _ => none) keyB.toList
      (some (endpointAddr first true).chars)) :
    Undisturbing succeeding s₁ (.updatePeer config true) := by
  have hpeer : peerKey config = peerKey shared := by rw [peerKey, hkey]; rfl
  refine ⟨fun text htext hne => ?_, fun ip _ _ old hold => ?_⟩
  · rw [hentries]
    refine Function.update_of_ne ?_ _ _
    rintro rfl
    exact peerKey_ne (hpeer.symm.trans htext.symm)
  · rw [hpeers, hpeer, Function.update_of_ne peerKey_ne] at hold
    simp at hold

/-- Moving a peer to another endpoint leaves the old address in the set, and deleting one of two
peers with the same endpoint removes the address of the other. -/
theorem endpoint_sets_not_exact : succeeding.Succeeds ∧ ∃ s, Started succeeding s ∧
    ¬Exact ([Call.updatePeer first true, .updatePeer moved true].foldl (step succeeding) s) ∧
    ¬Exact ([Call.updatePeer first true, .updatePeer shared true, .deletePeer first].foldl
      (step succeeding) s) := by
  obtain ⟨s, hs⟩ := exists_started
  refine ⟨succeeds_succeeding, s, hs, ?_, ?_⟩
  · obtain ⟨⟨hkept, hexact⟩, hpeers, -⟩ := after_first hs
    intro h
    have hiff := exact_updatePeer_iff succeeds_succeeding hkept hexact parseIP_moved rfl
    rw [peerKey_moved] at hiff
    have hold : (step succeeding s (.updatePeer first true)).peers (peerKey first) = some ip1 := by
      rw [hpeers, Function.update_self]
    rcases hiff.mp h ip1 hold with heq | ⟨key, hne, hkey⟩
    · exact ip1_ne_ip2 heq
    · rw [hpeers, Function.update_of_ne hne] at hkey
      simp at hkey
  · obtain ⟨hinv, hpeers, hentries⟩ := after_first hs
    have hu := undisturbing_update_keyC (rfl : shared.serverPublicKey = _) hpeers hentries
    obtain ⟨hkept', hexact'⟩ := exact_step succeeds_succeeding _ hinv hu
    obtain ⟨hpeers', hentries'⟩ := peers_updatePeer hinv.1 parseIP_shared rfl
    rw [hpeers] at hpeers'
    rw [hentries] at hentries'
    intro h
    have hold : (step succeeding (step succeeding s (.updatePeer first true))
        (.updatePeer shared true)).peers (peerKey first) = some ip1 := by
      rw [hpeers', Function.update_of_ne peerKey_ne.symm, Function.update_self]
    have hentry : (step succeeding (step succeeding s (.updatePeer first true))
        (.updatePeer shared true)).peerEndpoints first.serverPublicKey.chars ≠ none := by
      rw [hentries']
      decide +kernel
    have hiff := exact_deletePeer_iff succeeds_succeeding hkept' hexact' hold hentry
    exact hiff.mp h _ peerKey_ne (by rw [hpeers', Function.update_self])

/-- A server switch: the new peer is set, then the old one is deleted. -/
theorem exact_switch : ∃ s, Started succeeding s ∧
    Exact ([Call.updatePeer first true, .updatePeer second true, .deletePeer first].foldl
      (step succeeding) s) := by
  obtain ⟨s, hs⟩ := exists_started
  obtain ⟨hinv, hpeers, hentries⟩ := after_first hs
  have hu := undisturbing_update_keyC (rfl : second.serverPublicKey = _) hpeers hentries
  obtain ⟨hpeers', hentries'⟩ := peers_updatePeer hinv.1 parseIP_second rfl
  rw [hpeers] at hpeers'
  rw [hentries] at hentries'
  have hne : peerKey second ≠ peerKey first := by
    rw [peerKey_second]
    exact peerKey_ne
  have hdelete : Undisturbing succeeding (step succeeding (step succeeding s
      (.updatePeer first true)) (.updatePeer second true)) (.deletePeer first) := by
    refine ⟨fun text htext htext' => ?_, fun ip hip key hkey hshared => ?_⟩
    · have hB : text ≠ keyB.toList := htext'
      rw [hentries', Function.update_of_ne, Function.update_of_ne hB]
      rintro rfl
      exact hne htext
    · rw [hpeers', Function.update_of_ne hne.symm, Function.update_self, Option.some_inj] at hip
      subst hip
      rw [hpeers'] at hshared
      by_cases hk : key = peerKey second
      · subst hk
        rw [Function.update_self, Option.some_inj] at hshared
        exact ip1_ne_ip2 hshared.symm
      · rw [Function.update_of_ne hk, Function.update_of_ne hkey] at hshared
        simp at hshared
  have hguarded : Guarded (step succeeding) (Undisturbing succeeding) s
      [.updatePeer first true, .updatePeer second true, .deletePeer first] :=
    ⟨undisturbing_first hs, hu, hdelete, trivial⟩
  exact ⟨s, hs, exact_run succeeds_succeeding hs hguarded 3⟩

end WgDesktop.WireguardUtils
