import WgDesktop.Lib.Bytes
import WgDesktop.Profile.RoundTrip

/-!
# The settings of `NetmgrController`

The connection settings that `src/platforms/linux/netmgrcontroller.cpp` sends to NetworkManager.
They live in four maps of the controller, which every activation changes in part.

An activation leaves nothing of an earlier one (`activate_isolated`). Whether its settings are
admissible depends on the DNS server, whose address family may be one in which the profile has no
address, and on the way in which a prefix length is written (`activate_admissible_iff`).
-/

namespace WgDesktop.NetmgrSettings

open Bytes Text WireGuardConfig

/-! ## Variants -/

/-- The values of the settings. -/
inductive Value where
  | string (s : List Char)
  | bool (b : Bool)
  | int (n : ℤ)
  | uint (n : ℕ)
  | stringList (items : List (List Char))
  | uintList (items : List (BitVec 32))
  | ipv6List (items : List (BitVec 128))
  deriving DecidableEq, Repr

/-- `QVariantMap`, with values of a type. -/
abbrev VariantMap (α : Type) := String → Option α

namespace VariantMap

variable {α : Type}

def empty : VariantMap α := fun _ => none

def insert (map : VariantMap α) (key : String) (value : α) : VariantMap α :=
  Function.update map key (some value)

def remove (map : VariantMap α) (key : String) : VariantMap α := Function.update map key none

@[simp] theorem empty_apply (key : String) : (empty : VariantMap α) key = none := rfl

theorem insert_apply (map : VariantMap α) (key : String) (value : α) (key' : String) :
    map.insert key value key' = if key' = key then some value else map key' :=
  Function.update_apply ..

theorem remove_apply (map : VariantMap α) (key key' : String) :
    map.remove key key' = if key' = key then none else map key' :=
  Function.update_apply ..

end VariantMap

/-- What a settings map holds: a value, or a `NetmgrDataList`. -/
inductive Variant where
  | value (v : Value)
  | dataList (maps : List (VariantMap Value))

/-- `NetmgrConfig`: the map of each group of settings. -/
structure NetmgrConfig where
  connection : VariantMap Variant
  ipv4 : VariantMap Variant
  ipv6 : VariantMap Variant
  wireguard : VariantMap Variant

/-! ## The controller -/

/-- The maps of the controller and the addresses it keeps. -/
structure State where
  config : VariantMap Variant := .empty
  ipv4config : VariantMap Variant := .empty
  ipv6config : VariantMap Variant := .empty
  wireguard : VariantMap Variant := .empty
  serverPublicKey : QString := .null
  serverIpv4Gateway : QHostAddress := .null
  serverIpv6Gateway : QHostAddress := .null
  deviceIpv4Address : QHostAddress := .null
  deviceIpv6Address : QHostAddress := .null

/-- What the settings of the system give: the application's name, and the tunnel's UUID, which is
made up once. -/
structure Host where
  applicationName : List Char
  tunnelUuid : List Char

/-- Whose addresses `initialize` takes: those of the device, or those of the active profile. -/
inductive Identity where
  | device (privateKey ipv4Address ipv6Address : QString)
  | activeProfile (config : Option InterfaceConfig)

/-- `QString::toUInt`, without a value for a text that is no number in range. -/
def readUInt (s : List Char) : Option ℕ :=
  let digits := match trimmed s with
    | '+' :: t => t
    | t => t
  (ofDigits digits).filter fun n => n < 2 ^ 32

def toUInt (s : List Char) : ℕ := (readUInt s).getD 0

/-- One entry of `address-data`. -/
def addressData (address : List Char) (prefixLength : ℕ) : VariantMap Value :=
  (VariantMap.empty.insert "address" (.string address)).insert "prefix" (.uint prefixLength)

/-- The map of one address family: `width` is the prefix length of an address without one. -/
def familyConfig (width : ℕ) (address : QString) : VariantMap Variant :=
  if !address.isEmpty then
    let split := address.chars.splitOn '/'
    let prefixLength := (split[1]?.map toUInt).getD width
    (VariantMap.empty.insert "method" (.value (.string "manual".toList))).insert "address-data"
      (.dataList [addressData (split.headD []) prefixLength])
  else VariantMap.empty.insert "method" (.value (.string "disabled".toList))

section Controller

variable (T : HostAddressText) (E : Endian)

/-- The address of a family that the controller keeps. -/
def deviceAddress (address : QString) : QHostAddress :=
  if !address.isEmpty then T.hostAddress ((address.chars.splitOn '/').headD []) else .null

def applyInterfaceConfig (c : InterfaceConfig) (s : State) : State :=
  { s with
    wireguard := s.wireguard.insert "private-key" (.value (.string c.privateKey.chars))
    ipv4config := familyConfig 32 c.deviceIpv4Address
    ipv6config := familyConfig 128 c.deviceIpv6Address
    deviceIpv4Address := deviceAddress T c.deviceIpv4Address
    deviceIpv6Address := deviceAddress T c.deviceIpv6Address }

def wgFirewallMark : ℕ := 0xca6c

/-- The part of `initialize` in front of the addresses. -/
def genericSettings (host : Host) (s : State) : State :=
  { s with
    config := ((((s.config.insert "id" (.value (.string host.applicationName))).insert
      "interface-name" (.value (.string "wg0".toList))).insert
      "type" (.value (.string "wireguard".toList))).insert
      "uuid" (.value (.string host.tunnelUuid))).insert
      "autoconnect" (.value (.bool false))
    wireguard := (((s.wireguard.insert "fwmark" (.value (.uint wgFirewallMark))).insert
      "ip4-auto-default-route" (.value (.int 1))).insert
      "ip6-auto-default-route" (.value (.int 1))).insert
      "peer-routes" (.value (.bool true)) }

/-- `initialize`, for a new controller. Without an active profile it fails. -/
def initializeController (host : Host) : Identity → Option State
  | .device privateKey ipv4Address ipv6Address =>
    some (applyInterfaceConfig T
      { hopType := .singleHop, privateKey, deviceIpv4Address := ipv4Address,
        deviceIpv6Address := ipv6Address } (genericSettings host {}))
  | .activeProfile config => config.map fun c => applyInterfaceConfig T c (genericSettings host {})

def wgPeer (c : InterfaceConfig) : VariantMap Value :=
  let endpoint :=
    if !c.serverIpv4AddrIn.isNull then c.serverIpv4AddrIn.chars ++ ':' :: decimal c.serverPort
    else '[' :: c.serverIpv6AddrIn.chars ++ "]:".toList ++ decimal c.serverPort
  (((VariantMap.empty.insert "endpoint" (.string endpoint)).insert
    "persistent-keepalive" (.int 60)).insert
    "public-key" (.string c.serverPublicKey.chars)).insert
    "allowed-ips" (.stringList (c.allowedIPAddressRanges.map (IPAddress.toString T)))

/-- The word that the machine stores with its most significant byte first. -/
def qToBigEndian (address : BitVec 32) : BitVec 32 := E.word (toBytes address)

def setDnsConfig (map : VariantMap Variant) (server : QHostAddress) : VariantMap Variant :=
  match server with
  | .null => ((map.remove "dns").remove "dns-priority").remove "dns-search"
  | .ipv6 address _ =>
    ((map.insert "dns" (.value (.ipv6List [address]))).insert
      "dns-priority" (.value (.int 10))).insert "dns-search" (.value (.stringList [['.']]))
  | .ipv4 address =>
    ((map.insert "dns" (.value (.uintList [qToBigEndian E address]))).insert
      "dns-priority" (.value (.int 10))).insert "dns-search" (.value (.stringList [['.']]))

def serializeConfig (s : State) : NetmgrConfig :=
  { connection := s.config, ipv4 := s.ipv4config, ipv6 := s.ipv6config, wireguard := s.wireguard }

/-- The DNS servers of the two families. -/
def dnsServers (c : InterfaceConfig) : QHostAddress × QHostAddress :=
  if c.dnsServer == c.serverIpv4Gateway || c.dnsServer == c.serverIpv6Gateway then
    (T.hostAddress c.serverIpv4Gateway.chars, T.hostAddress c.serverIpv6Gateway.chars)
  else if ':' ∈ c.dnsServer.chars then (.null, T.hostAddress c.dnsServer.chars)
  else (T.hostAddress c.dnsServer.chars, .null)

/-- The maps as `activate` leaves them. -/
def prepare (c : InterfaceConfig) (s : State) : State :=
  let s := applyInterfaceConfig T c s
  let servers := dnsServers T c
  { s with
    ipv4config := setDnsConfig E (s.ipv4config.remove "route-data") servers.1
    ipv6config := setDnsConfig E (s.ipv6config.remove "route-data") servers.2
    wireguard := s.wireguard.insert "peers" (.dataList [wgPeer T c])
    serverPublicKey := c.serverPublicKey
    serverIpv4Gateway := T.hostAddress c.serverIpv4Gateway.chars
    serverIpv6Gateway := T.hostAddress c.serverIpv6Gateway.chars }

/-- `activate`, as far as the settings go: what it sends, and the new state. -/
def activate (c : InterfaceConfig) (s : State) : NetmgrConfig × State :=
  (serializeConfig (prepare T E c s), prepare T E c s)

end Controller

/-! ## Isolation -/

section Isolation

variable {T : HostAddressText} {E : Endian}

/-- What no activation changes: the generic settings, and in the `wireguard` map everything but the
key and the peers. -/
structure Generic (host : Host) (s : State) : Prop where
  config : s.config = (genericSettings host {}).config
  wireguard : ∀ key, key ≠ "private-key" → key ≠ "peers" →
    s.wireguard key = (genericSettings host {}).wireguard key

theorem generic_applyInterfaceConfig {host : Host} {s : State} (hs : Generic host s)
    (c : InterfaceConfig) : Generic host (applyInterfaceConfig T c s) := by
  refine ⟨hs.config, fun key hkey hpeers => ?_⟩
  show s.wireguard.insert _ _ key = _
  rw [VariantMap.insert_apply, if_neg hkey]
  exact hs.wireguard key hkey hpeers

theorem generic_initializeController {host : Host} {identity : Identity} {s : State}
    (h : initializeController T host identity = some s) : Generic host s := by
  have hstart : Generic host (genericSettings host {}) := ⟨rfl, fun _ _ _ => rfl⟩
  cases identity with
  | device privateKey ipv4Address ipv6Address =>
    obtain rfl := Option.some.inj h
    exact generic_applyInterfaceConfig hstart _
  | activeProfile config =>
    obtain ⟨c, -, rfl⟩ := Option.map_eq_some_iff.mp h
    exact generic_applyInterfaceConfig hstart c

theorem generic_prepare {host : Host} {s : State} (hs : Generic host s) (c : InterfaceConfig) :
    Generic host (prepare T E c s) := by
  have happlied : Generic host (applyInterfaceConfig T c s) := generic_applyInterfaceConfig hs c
  refine ⟨happlied.config, fun key hkey hpeers => ?_⟩
  show (applyInterfaceConfig T c s).wireguard.insert _ _ key = _
  rw [VariantMap.insert_apply, if_neg hpeers]
  exact happlied.wireguard key hkey hpeers

/-- **Nothing else counts.** Two controllers with the same generic settings are the same after one
activation. -/
theorem prepare_eq {host : Host} {s s' : State} (hs : Generic host s) (hs' : Generic host s')
    (c : InterfaceConfig) : prepare T E c s = prepare T E c s' := by
  have hconfig : s.config = s'.config := hs.config.trans hs'.config.symm
  have hwireguard : (prepare T E c s).wireguard = (prepare T E c s').wireguard := by
    funext key
    simp only [prepare, applyInterfaceConfig, VariantMap.insert_apply]
    by_cases hpeers : key = "peers"
    · rw [if_pos hpeers, if_pos hpeers]
    · rw [if_neg hpeers, if_neg hpeers]
      by_cases hkey : key = "private-key"
      · rw [if_pos hkey, if_pos hkey]
      · rw [if_neg hkey, if_neg hkey, hs.wireguard key hkey hpeers, hs'.wireguard key hkey hpeers]
  unfold prepare at hwireguard ⊢
  unfold applyInterfaceConfig at hwireguard ⊢
  dsimp only at hwireguard ⊢
  rw [hwireguard, hconfig]

/-- **Isolation.** After any initialisation and any activations, an activation sends what it sends
right after an initialisation. -/
theorem activate_isolated {host : Host} {identity identity' : Identity} {s s' : State}
    (h : initializeController T host identity = some s)
    (h' : initializeController T host identity' = some s')
    (earlier : List InterfaceConfig) (c : InterfaceConfig) :
    (activate T E c (earlier.foldl (fun s c => (activate T E c s).2) s)).1 =
      (activate T E c s').1 := by
  have hgeneric : Generic host (earlier.foldl (fun s c => (activate T E c s).2) s) :=
    @Runs.foldl_invariant _ _ (fun s c => (activate T E c s).2) (Generic host)
      (fun _ c hs => generic_prepare hs c) _ (generic_initializeController h) earlier
  rw [activate, activate, prepare_eq hgeneric (generic_initializeController h')]

end Isolation

/-! ## Admissible settings -/

section Admissible

variable (T : HostAddressText) (E : Endian)

/-- The prefix length of an address, as the import reads it. -/
def prefixLength (width : ℕ) (v : List Char) : ℤ :=
  if '/' ∈ v then (T.parseSubnet v).2 else width

/-- A family with exactly one address. -/
structure Manual (width : ℕ) (v : List Char) (map : VariantMap Variant) : Prop where
  method : map "method" = some (.value (.string "manual".toList))
  address : ∃ n : ℕ, (n : ℤ) = prefixLength T width v ∧
    map "address-data" = some (.dataList [addressData (hostPart v) n])

/-- A family without addresses, as NetworkManager takes it. -/
structure Disabled (map : VariantMap Variant) : Prop where
  method : map "method" = some (.value (.string "disabled".toList))
  absent : ∀ key ∈ ["address-data", "dns", "dns-priority", "dns-search"], map key = none

/-- The DNS list of a family contains an address, in network byte order. -/
def Lists (map : VariantMap Variant) : QHostAddress → Prop
  | .null => False
  | .ipv4 address => ∃ words, map "dns" = some (.value (.uintList words)) ∧
      ∃ word ∈ words, E.bytes word = toBytes address
  | .ipv6 address _ => ∃ items, map "dns" = some (.value (.ipv6List items)) ∧ address ∈ items

/-- One family: manual with the configuration's address, if it has one, and disabled otherwise. -/
def FamilyAdmissible (width : ℕ) (address : QString) (map : VariantMap Variant) : Prop :=
  if address.isEmpty then Disabled map else Manual T width address.chars map

/-- Settings that NetworkManager takes, and that say what the configuration says. -/
structure Admissible (c : InterfaceConfig) (sent : NetmgrConfig) : Prop where
  ipv4 : FamilyAdmissible T 32 c.deviceIpv4Address sent.ipv4
  ipv6 : FamilyAdmissible T 128 c.deviceIpv6Address sent.ipv6
  dns : T.hostAddress c.dnsServer.chars ≠ .null →
    Xor (Lists E sent.ipv4 (T.hostAddress c.dnsServer.chars))
      (Lists E sent.ipv6 (T.hostAddress c.dnsServer.chars))

/-- What Qt documents beside `Lawful`: an empty text is no address, an IPv4 address has no colon,
and what stands behind the only slash of a subnet is its prefix length, if it is a number that an
`int` holds. -/
structure ReadsTexts : Prop where
  hostAddress_nil : T.hostAddress [] = .null
  colon_notMem : ∀ s, (T.hostAddress s).protocol = .ipv4Protocol → ':' ∉ s
  behind_slash : ∀ host rest, '/' ∉ host → 0 ≤ (T.parseSubnet (host ++ '/' :: rest)).2 →
    '/' ∉ rest ∧ ∀ n, readUInt rest = some n → n < 2 ^ 31 →
      (T.parseSubnet (host ++ '/' :: rest)).2 = n

/-- The prefix length is written as a number, if at all, or it is the mask of length zero. -/
def PlainPrefix (v : List Char) : Prop :=
  ∀ host rest, v = host ++ '/' :: rest → '/' ∉ host →
    match readUInt rest with
    | some n => n < 2 ^ 31
    | none => (T.parseSubnet v).2 = 0

/-- The condition: a DNS server has an address family in which the configuration has an address, and
prefix lengths are plain. -/
structure Fits (c : InterfaceConfig) : Prop where
  dnsIpv4 : (T.hostAddress c.dnsServer.chars).protocol = .ipv4Protocol →
    c.deviceIpv4Address.isEmpty = false
  dnsIpv6 : (T.hostAddress c.dnsServer.chars).protocol = .ipv6Protocol →
    c.deviceIpv6Address.isEmpty = false
  prefixIpv4 : PlainPrefix T c.deviceIpv4Address.chars
  prefixIpv6 : PlainPrefix T c.deviceIpv6Address.chars

variable {T E}

/-! ### Addresses -/

/-- An address without a prefix length, or one with a slash in it. -/
theorem splitOn_slash (v : List Char) :
    ('/' ∉ v ∧ v.splitOn '/' = [v] ∧ hostPart v = v) ∨
      ∃ host rest, v = host ++ '/' :: rest ∧ '/' ∉ host ∧
        v.splitOn '/' = host :: rest.splitOn '/' ∧ hostPart v = host := by
  have hall : ∀ {s : List Char}, '/' ∉ s → ∀ c ∈ s, decide (c ≠ '/') = true := by
    intro s hs c hc
    simpa using fun heq : c = '/' => hs (heq ▸ hc)
  by_cases hslash : '/' ∈ v
  · obtain ⟨host, rest, rfl, hhost⟩ := List.eq_append_cons_of_mem hslash
    refine Or.inr ⟨host, rest, rfl, hhost, List.splitOn_append_cons_self_of_not_mem hhost _, ?_⟩
    rw [hostPart, List.takeWhile_append_of_pos (hall hhost),
      List.takeWhile_cons_of_neg (by simp), List.append_nil]
  · refine Or.inl ⟨hslash, List.splitOn_eq_singleton hslash, ?_⟩
    rw [hostPart, ← List.append_nil v, List.takeWhile_append_of_pos (hall (by simpa using hslash)),
      List.takeWhile_nil]

/-- The prefix length that `applyInterfaceConfig` takes from a text. -/
def sentPrefixLength (width : ℕ) (v : List Char) : ℕ :=
  ((v.splitOn '/')[1]?.map toUInt).getD width

/-- It is the one that the import reads exactly where the prefix length is plain. -/
theorem sentPrefixLength_eq_iff (hlaw : T.Lawful) (hT : ReadsTexts T) {width : ℕ} {v : List Char}
    (hvalid : isValidAddressWithPrefix T v = true) :
    (sentPrefixLength width v : ℤ) = prefixLength T width v ↔ PlainPrefix T v := by
  rcases splitOn_slash v with ⟨hslash, hsplit, -⟩ | ⟨host, rest, rfl, hhost, hsplit, -⟩
  · refine iff_of_true ?_ fun host rest hv => ?_
    · rw [sentPrefixLength, hsplit, prefixLength, if_neg hslash]
      rfl
    · exact absurd (by simp [hv]) hslash
  · have hslash : '/' ∈ host ++ '/' :: rest := by simp
    obtain ⟨hproto, hnonneg⟩ := isValidAddressWithPrefix_iff.mp hvalid
    rw [if_pos hslash] at hproto hnonneg
    have hle : (T.parseSubnet (host ++ '/' :: rest)).2 ≤ 128 := by
      have hwidth := hlaw.prefixLength_le (host ++ '/' :: rest) _ _
        ⟨hproto, hnonneg, by rw [if_pos hslash]⟩
      have hmax := (T.parseSubnet (host ++ '/' :: rest)).1.width_le
      omega
    obtain ⟨hrest, hread⟩ := hT.behind_slash host rest hhost hnonneg
    have hsent : sentPrefixLength width (host ++ '/' :: rest) = (readUInt rest).getD 0 := by
      rw [sentPrefixLength, hsplit, List.splitOn_eq_singleton hrest]
      rfl
    have hplain : PlainPrefix T (host ++ '/' :: rest) ↔
        match readUInt rest with
        | some n => n < 2 ^ 31
        | none => (T.parseSubnet (host ++ '/' :: rest)).2 = 0 := by
      refine ⟨fun h => h host rest rfl hhost, fun h host' rest' heq _ => ?_⟩
      obtain ⟨-, -, rfl⟩ := (List.append_cons_inj_of_notMem hhost hrest).mp heq
      exact h
    rw [hsent, prefixLength, if_pos hslash, hplain]
    cases hnumber : readUInt rest with
    | none => simp [eq_comm]
    | some n =>
      simp only [Option.getD_some]
      constructor
      · intro h
        omega
      · intro h
        exact (hread n hnumber h).symm

/-! ### Families -/

theorem setDnsConfig_apply {map : VariantMap Variant} {server : QHostAddress} {key : String}
    (hdns : key ≠ "dns") (hpriority : key ≠ "dns-priority") (hsearch : key ≠ "dns-search") :
    setDnsConfig E map server key = map key := by
  cases server <;>
    simp [setDnsConfig, VariantMap.insert_apply, VariantMap.remove_apply, hdns, hpriority, hsearch]

theorem setDnsConfig_dns_eq_none {map : VariantMap Variant} {server : QHostAddress} :
    setDnsConfig E map server "dns" = none ↔ server = .null := by
  cases server <;> simp [setDnsConfig, VariantMap.insert_apply, VariantMap.remove_apply]

theorem setDnsConfig_null {map : VariantMap Variant} {key : String}
    (h : key ∈ ["dns", "dns-priority", "dns-search"]) :
    setDnsConfig E map .null key = none := by
  simp only [List.mem_cons, List.not_mem_nil, or_false] at h
  rcases h with rfl | rfl | rfl <;> simp [setDnsConfig, VariantMap.remove_apply]

/-- The map of a family as it is sent. -/
def sentFamily (E : Endian) (width : ℕ) (address : QString) (server : QHostAddress) :
    VariantMap Variant :=
  setDnsConfig E ((familyConfig width address).remove "route-data") server

theorem sentFamily_apply {width : ℕ} {address : QString} {server : QHostAddress} {key : String}
    (h : key = "method" ∨ key = "address-data") :
    sentFamily E width address server key = familyConfig width address key := by
  rcases h with rfl | rfl
  · rw [sentFamily, setDnsConfig_apply (by decide) (by decide) (by decide),
      VariantMap.remove_apply, if_neg (by decide)]
  · rw [sentFamily, setDnsConfig_apply (by decide) (by decide) (by decide),
      VariantMap.remove_apply, if_neg (by decide)]

theorem addressData_inj {address address' : List Char} {m n : ℕ}
    (h : addressData address m = addressData address' n) : m = n := by
  have hprefix := congrFun h "prefix"
  simpa [addressData, VariantMap.insert_apply] using hprefix

/-- A family without an address is admissible unless it gets a DNS server. -/
theorem disabled_sentFamily_iff {width : ℕ} {address : QString} {server : QHostAddress}
    (hempty : address.isEmpty = true) :
    Disabled (sentFamily E width address server) ↔ server = .null := by
  have hfamily : familyConfig width address =
      VariantMap.empty.insert "method" (.value (.string "disabled".toList)) := by
    rw [familyConfig, hempty]
    rfl
  constructor
  · intro h
    exact setDnsConfig_dns_eq_none.mp (h.absent "dns" (by simp))
  · rintro rfl
    constructor
    · rw [sentFamily_apply (Or.inl rfl), hfamily, VariantMap.insert_apply, if_pos rfl]
    · intro key hkey
      rcases List.mem_cons.mp hkey with rfl | hkey
      · rw [sentFamily_apply (Or.inr rfl), hfamily, VariantMap.insert_apply, if_neg (by decide)]
        rfl
      · exact setDnsConfig_null hkey

theorem familyConfig_text {width : ℕ} {v : List Char} (hne : v ≠ []) :
    familyConfig width (.text v) =
      (VariantMap.empty.insert "method" (.value (.string "manual".toList))).insert "address-data"
        (.dataList [addressData (hostPart v) (sentPrefixLength width v)]) := by
  have hhost : (v.splitOn '/').headD [] = hostPart v := by
    rcases splitOn_slash v with ⟨-, hsplit, hpart⟩ | ⟨host, rest, -, -, hsplit, hpart⟩
    · rw [hsplit, hpart]
      rfl
    · rw [hsplit, hpart]
      rfl
  have hfull : (QString.text v).isEmpty = false := by simp [QString.isEmpty, hne]
  rw [familyConfig, hfull, ← hhost]
  rfl

/-- A family with an address is admissible exactly where the prefix length is plain. -/
theorem manual_sentFamily_iff (hlaw : T.Lawful) (hT : ReadsTexts T) {width : ℕ} {v : List Char}
    {server : QHostAddress} (hne : v ≠ []) (hvalid : isValidAddressWithPrefix T v = true) :
    Manual T width v (sentFamily E width (.text v) server) ↔ PlainPrefix T v := by
  rw [← sentPrefixLength_eq_iff hlaw hT hvalid]
  constructor
  · rintro ⟨-, n, hn, hdata⟩
    rw [sentFamily_apply (Or.inr rfl), familyConfig_text hne, VariantMap.insert_apply, if_pos rfl,
      Option.some.injEq, Variant.dataList.injEq, List.cons.injEq] at hdata
    rw [addressData_inj hdata.1, hn]
  · intro h
    refine ⟨?_, sentPrefixLength width v, h, ?_⟩
    · rw [sentFamily_apply (Or.inl rfl), familyConfig_text hne, VariantMap.insert_apply,
        if_neg (by decide), VariantMap.insert_apply, if_pos rfl]
    · rw [sentFamily_apply (Or.inr rfl), familyConfig_text hne, VariantMap.insert_apply, if_pos rfl]

/-- The prefix length in the address data of a family is the one that the import reads. -/
def AddressAgrees (T : HostAddressText) (width : ℕ) (v : List Char) (map : VariantMap Variant) :
    Prop :=
  ∃ address n, map "address-data" = some (.dataList [addressData address n]) ∧
    (n : ℤ) = prefixLength T width v

theorem addressAgrees_familyConfig_iff (hlaw : T.Lawful) (hT : ReadsTexts T) {width : ℕ}
    {v : List Char} (hne : v ≠ []) (hvalid : isValidAddressWithPrefix T v = true) :
    AddressAgrees T width v (familyConfig width (.text v)) ↔ PlainPrefix T v := by
  have hdata : familyConfig width (.text v) "address-data" =
      some (.dataList [addressData (hostPart v) (sentPrefixLength width v)]) := by
    rw [familyConfig_text hne, VariantMap.insert_apply, if_pos rfl]
  rw [← sentPrefixLength_eq_iff hlaw hT hvalid]
  constructor
  · rintro ⟨address, n, hsent, hn⟩
    rw [hdata, Option.some.injEq, Variant.dataList.injEq, List.cons.injEq] at hsent
    rw [addressData_inj hsent.1, hn]
  · intro h
    exact ⟨_, _, hdata, h⟩

/-! ### DNS servers -/

/-- The machine stores the word with the most significant byte first. -/
theorem bytes_qToBigEndian (address : BitVec 32) : E.bytes (qToBigEndian E address) =
    toBytes address :=
  Endian.bytes_word E (by decide) (length_toBytes address)

theorem not_lists_null {map : VariantMap Variant} (server : QHostAddress) :
    ¬ Lists E (setDnsConfig E map .null) server := by
  cases server <;> simp [Lists, setDnsConfig_null]

theorem lists_setDnsConfig {map : VariantMap Variant} {server : QHostAddress}
    (h : server ≠ .null) : Lists E (setDnsConfig E map server) server := by
  cases server with
  | null => exact absurd rfl h
  | ipv4 address =>
    refine ⟨[qToBigEndian E address], ?_, _, List.mem_singleton_self _, bytes_qToBigEndian address⟩
    simp [setDnsConfig, VariantMap.insert_apply]
  | ipv6 address scopeId =>
    refine ⟨[address], ?_, List.mem_singleton_self _⟩
    simp [setDnsConfig, VariantMap.insert_apply]

section Parsed

variable {c : InterfaceConfig} {content : List Char}

/-- The DNS server of an imported configuration goes to its own family. -/
theorem dnsServers_of_parse (hT : T.Lawful) (hread : ReadsTexts T) (h : parse T content = .ok c) :
    dnsServers T c =
      match T.hostAddress c.dnsServer.chars with
      | .null => (.null, .null)
      | .ipv4 address => (.ipv4 address, .null)
      | .ipv6 address scopeId => (.null, .ipv6 address scopeId) := by
  have hc := imported_of_parse h
  have hgateway4 : c.serverIpv4Gateway = .null := by rw [hc.defaults]
  have hgateway6 : c.serverIpv6Gateway = .null := by rw [hc.defaults]
  rw [dnsServers, hgateway4, hgateway6, Bool.or_self]
  by_cases hnone : (c.dnsServer == .null) = true
  · have hempty : c.dnsServer.chars = [] := QString.beq_iff.mp hnone
    rw [if_pos hnone, hempty, QString.chars_null, hread.hostAddress_nil]
  · rw [if_neg hnone]
    cases hserver : T.hostAddress c.dnsServer.chars with
    | null => simp
    | ipv4 address =>
      rw [if_neg (hread.colon_notMem _ (by rw [hserver]; rfl))]
    | ipv6 address scopeId =>
      rw [if_pos (hT.colon_mem _ (by rw [hserver]; rfl))]

theorem familyAdmissible_iff (hT : T.Lawful) (hread : ReadsTexts T) {width : ℕ} {address : QString}
    {server : QHostAddress}
    (hvalid : ∀ v, address = .text v → v ≠ [] ∧ isValidAddressWithPrefix T v = true) :
    FamilyAdmissible T width address (sentFamily E width address server) ↔
      (server ≠ .null → address.isEmpty = false) ∧ PlainPrefix T address.chars := by
  cases address with
  | null =>
    have hplain : PlainPrefix T QString.null.chars := by
      intro host rest hv
      simp at hv
    have hempty : QString.null.isEmpty = true := rfl
    rw [FamilyAdmissible, if_pos hempty, disabled_sentFamily_iff hempty, and_iff_left hplain]
    simp [QString.isEmpty]
  | text v =>
    obtain ⟨hne, hok⟩ := hvalid v rfl
    have hfull : (QString.text v).isEmpty = false := by simp [QString.isEmpty, hne]
    rw [FamilyAdmissible, hfull, if_neg Bool.false_ne_true, QString.chars_text,
      manual_sentFamily_iff hT hread hne hok]
    simp

/-- The addresses of an imported configuration have passed their check. -/
theorem valid_of_parse (h : parse T content = .ok c) {v : List Char}
    (hv : c.deviceIpv4Address = .text v ∨ c.deviceIpv6Address = .text v) :
    v ≠ [] ∧ isValidAddressWithPrefix T v = true := by
  have hc := imported_of_parse h
  rcases hv with hv | hv
  · exact ⟨(hc.deviceIpv4Address v hv).1.solid.ne_nil, (hc.deviceIpv4Address v hv).2.1⟩
  · exact ⟨(hc.deviceIpv6Address v hv).1.solid.ne_nil, (hc.deviceIpv6Address v hv).2.1⟩

/-- **Prefix lengths.** For an address of an imported configuration `applyInterfaceConfig` takes the
prefix length that the import read exactly when it is plain. -/
theorem applied_prefix_iff (hT : T.Lawful) (hread : ReadsTexts T) (h : parse T content = .ok c)
    (s : State) :
    (∀ v, c.deviceIpv4Address = .text v →
      (AddressAgrees T 32 v (applyInterfaceConfig T c s).ipv4config ↔ PlainPrefix T v)) ∧
    ∀ v, c.deviceIpv6Address = .text v →
      (AddressAgrees T 128 v (applyInterfaceConfig T c s).ipv6config ↔ PlainPrefix T v) := by
  refine ⟨fun v hv => ?_, fun v hv => ?_⟩
  · obtain ⟨hne, hvalid⟩ := valid_of_parse h (Or.inl hv)
    have happlied : (applyInterfaceConfig T c s).ipv4config = familyConfig 32 (.text v) := by
      rw [← hv]
      rfl
    rw [happlied, addressAgrees_familyConfig_iff hT hread hne hvalid]
  · obtain ⟨hne, hvalid⟩ := valid_of_parse h (Or.inr hv)
    have happlied : (applyInterfaceConfig T c s).ipv6config = familyConfig 128 (.text v) := by
      rw [← hv]
      rfl
    rw [happlied, addressAgrees_familyConfig_iff hT hread hne hvalid]

/-- **Admissible settings.** An activation with an imported configuration sends admissible settings
exactly when each DNS server has an address family of its own and prefix lengths are plain. -/
theorem activate_admissible_iff (hT : T.Lawful) (hread : ReadsTexts T)
    (h : parse T content = .ok c) (s : State) :
    Admissible T E c (activate T E c s).1 ↔ Fits T c := by
  have hvalid4 : ∀ v, c.deviceIpv4Address = .text v →
      v ≠ [] ∧ isValidAddressWithPrefix T v = true := fun v hv => valid_of_parse h (Or.inl hv)
  have hvalid6 : ∀ v, c.deviceIpv6Address = .text v →
      v ≠ [] ∧ isValidAddressWithPrefix T v = true := fun v hv => valid_of_parse h (Or.inr hv)
  have hipv4 : (activate T E c s).1.ipv4 =
      sentFamily E 32 c.deviceIpv4Address (dnsServers T c).1 := rfl
  have hipv6 : (activate T E c s).1.ipv6 =
      sentFamily E 128 c.deviceIpv6Address (dnsServers T c).2 := rfl
  have hservers := dnsServers_of_parse hT hread h
  have hdns : T.hostAddress c.dnsServer.chars ≠ .null →
      Xor (Lists E (activate T E c s).1.ipv4 (T.hostAddress c.dnsServer.chars))
        (Lists E (activate T E c s).1.ipv6 (T.hostAddress c.dnsServer.chars)) := by
    intro hserver
    rw [hipv4, hipv6, hservers, sentFamily, sentFamily]
    cases hkind : T.hostAddress c.dnsServer.chars with
    | null => exact absurd hkind hserver
    | ipv4 address => exact Or.inl ⟨lists_setDnsConfig (by simp), not_lists_null _⟩
    | ipv6 address scopeId => exact Or.inr ⟨lists_setDnsConfig (by simp), not_lists_null _⟩
  have hfamily4 : (dnsServers T c).1 ≠ .null ↔
      (T.hostAddress c.dnsServer.chars).protocol = .ipv4Protocol := by
    rw [hservers]
    cases T.hostAddress c.dnsServer.chars <;> simp [QHostAddress.protocol]
  have hfamily6 : (dnsServers T c).2 ≠ .null ↔
      (T.hostAddress c.dnsServer.chars).protocol = .ipv6Protocol := by
    rw [hservers]
    cases T.hostAddress c.dnsServer.chars <;> simp [QHostAddress.protocol]
  constructor
  · rintro ⟨h4, h6, -⟩
    rw [hipv4, familyAdmissible_iff hT hread hvalid4, hfamily4] at h4
    rw [hipv6, familyAdmissible_iff hT hread hvalid6, hfamily6] at h6
    exact ⟨h4.1, h6.1, h4.2, h6.2⟩
  · rintro ⟨h4, h6, hplain4, hplain6⟩
    refine ⟨?_, ?_, hdns⟩
    · rw [hipv4, familyAdmissible_iff hT hread hvalid4, hfamily4]
      exact ⟨h4, hplain4⟩
    · rw [hipv6, familyAdmissible_iff hT hread hvalid6, hfamily6]
      exact ⟨h6, hplain6⟩

end Parsed

end Admissible

/-! ## Three profiles -/

/-- A table reads its texts as documented when its subnets have one slash and say their length. -/
theorem readsTexts_ofTable {addresses : List (List Char × QHostAddress)}
    {subnets : List (List Char × QHostAddress × ℤ)}
    (hnil : (HostAddressText.ofTable addresses subnets).hostAddress [] = .null)
    (hcolon : ∀ e ∈ addresses, e.2.protocol = .ipv4Protocol → ':' ∉ e.1)
    (hsubnets : ∀ e ∈ subnets, (e.1.splitOn '/').length = 2 ∧
      ∀ rest ∈ (e.1.splitOn '/')[1]?, ∀ n ∈ readUInt rest, e.2.2 = n) :
    ReadsTexts (.ofTable addresses subnets) where
  hostAddress_nil := hnil
  colon_notMem s hs := by
    have hmem : (s, (HostAddressText.ofTable addresses subnets).hostAddress s) ∈ addresses :=
      HostAddressText.mem_of_hostAddress rfl (by rw [hs]; decide)
    exact hcolon _ hmem hs
  behind_slash host rest hhost hnonneg := by
    simp only [HostAddressText.ofTable] at hnonneg ⊢
    cases hfind : subnets.find? (·.1 = host ++ '/' :: rest) with
    | none =>
      rw [hfind] at hnonneg
      exact absurd hnonneg (by decide)
    | some e =>
      obtain ⟨hlength, hread⟩ := hsubnets e (List.mem_of_find?_eq_some hfind)
      have htext : e.1 = host ++ '/' :: rest := by simpa using List.find?_some hfind
      rw [htext, List.splitOn_append_cons_self_of_not_mem hhost] at hlength hread
      have hrest : '/' ∉ rest := by
        rcases splitOn_slash rest with ⟨hslash, -, -⟩ | ⟨host', rest', -, -, hsplit, -⟩
        · exact hslash
        · have hne := List.length_pos_of_ne_nil (List.splitOn_ne_nil '/' rest')
          rw [hsplit, List.length_cons, List.length_cons] at hlength
          omega
      refine ⟨hrest, fun n hn _ => hread rest ?_ n hn⟩
      rw [List.splitOn_eq_singleton hrest]
      rfl

/-- The addresses of the profiles. -/
def profileText : HostAddressText :=
  .ofTable
    [("10.0.0.2".toList, .ipv4 0x0a000002#32), ("10.0.0.0".toList, .ipv4 0x0a000000#32),
      ("1.1.1.1".toList, .ipv4 0x01010101#32), ("192.0.2.1".toList, .ipv4 0xc0000201#32),
      ("0.0.0.0".toList, .ipv4 0#32),
      ("fd00::2".toList, .ipv6 0xfd000000000000000000000000000002#128 [])]
    [("10.0.0.2/32".toList, .ipv4 0x0a000002#32, 32),
      ("10.0.0.0/32".toList, .ipv4 0x0a000000#32, 32),
      ("10.0.0.2/255.255.255.0".toList, .ipv4 0x0a000000#32, 24),
      ("10.0.0.0/24".toList, .ipv4 0x0a000000#32, 24),
      ("1.1.1.1/32".toList, .ipv4 0x01010101#32, 32),
      ("192.0.2.1/32".toList, .ipv4 0xc0000201#32, 32),
      ("0.0.0.0/32".toList, .ipv4 0#32, 32), ("0.0.0.0/0".toList, .ipv4 0#32, 0),
      ("fd00::2/128".toList, .ipv6 0xfd000000000000000000000000000002#128 [], 128)]

theorem lawful_profileText : profileText.Lawful := by
  refine HostAddressText.lawful_ofTable ?_ ?_
  · decide
  · decide

theorem readsTexts_profileText : ReadsTexts profileText := by
  refine readsTexts_ofTable ?_ ?_ ?_
  · decide
  · decide
  · decide

/-- A profile with the given lines in its interface section. -/
def profileContent (lines : List String) : List Char :=
  ['\n'].intercalate ((["[Interface]", "PrivateKey = a"] ++ lines ++ ["[Peer]", "PublicKey = b",
    "Endpoint = 192.0.2.1:51820", "AllowedIPs = 0.0.0.0/0"]).map String.toList)

def profileConfig (ipv4Address ipv6Address dnsServer : QString) : InterfaceConfig :=
  { hopType := .singleHop
    privateKey := .text "a".toList
    deviceIpv4Address := ipv4Address
    deviceIpv6Address := ipv6Address
    dnsServer
    serverPublicKey := .text "b".toList
    serverIpv4AddrIn := .text "192.0.2.1".toList
    serverPort := 51820
    allowedIPAddressRanges := [⟨.ipv4 0#32, 0⟩] }

def dualConfig : InterfaceConfig :=
  profileConfig (.text "10.0.0.2/32".toList) (.text "fd00::2/128".toList) (.text "1.1.1.1".toList)

theorem parse_dual : parse profileText
    (profileContent ["Address = 10.0.0.2/32, fd00::2/128", "DNS = 1.1.1.1"]) = .ok dualConfig := by
  decide +kernel

/-- An IPv6 tunnel with an IPv4 DNS server. -/
def ipv6OnlyConfig : InterfaceConfig :=
  profileConfig .null (.text "fd00::2/128".toList) (.text "1.1.1.1".toList)

theorem parse_ipv6Only : parse profileText
    (profileContent ["Address = fd00::2/128", "DNS = 1.1.1.1"]) = .ok ipv6OnlyConfig := by
  decide +kernel

/-- An address with a mask. -/
def maskConfig : InterfaceConfig :=
  profileConfig (.text "10.0.0.2/255.255.255.0".toList) .null .null

theorem parse_mask : parse profileText
    (profileContent ["Address = 10.0.0.2/255.255.255.0"]) = .ok maskConfig := by
  decide +kernel

def desktop : Host := { applicationName := "wg-desktop".toList, tunnelUuid := "uuid".toList }

/-- The controller after `initialize` with a profile. -/
def started (c : InterfaceConfig) : State :=
  applyInterfaceConfig profileText c (genericSettings desktop {})

theorem initializeController_started (c : InterfaceConfig) :
    initializeController profileText desktop (.activeProfile (some c)) = some (started c) := rfl

/-- The dual profile after the two others. -/
theorem activate_isolated_dual :
    (activate profileText .little dualConfig ([maskConfig, dualConfig, ipv6OnlyConfig].foldl
        (fun s c => (activate profileText .little c s).2) (started ipv6OnlyConfig))).1 =
      (activate profileText .little dualConfig (started dualConfig)).1 :=
  activate_isolated (initializeController_started ipv6OnlyConfig)
    (initializeController_started dualConfig) _ _

theorem fits_dual : Fits profileText dualConfig := by
  refine ⟨fun _ => rfl, fun h => absurd h (by decide), ?_, ?_⟩
  · have hvalid :
        isValidAddressWithPrefix profileText dualConfig.deviceIpv4Address.chars = true := by
      decide
    exact (@sentPrefixLength_eq_iff _ lawful_profileText readsTexts_profileText 32 _ hvalid).mp
      (by decide)
  · have hvalid :
        isValidAddressWithPrefix profileText dualConfig.deviceIpv6Address.chars = true := by
      decide
    exact (@sentPrefixLength_eq_iff _ lawful_profileText readsTexts_profileText 128 _ hvalid).mp
      (by decide)

/-- With an address of each family the settings are admissible. -/
theorem activate_admissible_dual : Admissible profileText .little dualConfig
    (activate profileText .little dualConfig (started dualConfig)).1 :=
  (activate_admissible_iff lawful_profileText readsTexts_profileText parse_dual _).mpr fits_dual

/-- The DNS server goes to the disabled family, and the mask becomes a prefix of length 0. -/
theorem activate_not_admissible :
    (profileText.Lawful ∧ ReadsTexts profileText) ∧
      (∃ content, parse profileText content = .ok ipv6OnlyConfig ∧
        ¬ Admissible profileText .little ipv6OnlyConfig
          (activate profileText .little ipv6OnlyConfig (started ipv6OnlyConfig)).1) ∧
      ∃ content, parse profileText content = .ok maskConfig ∧
        ¬ Admissible profileText .little maskConfig
          (activate profileText .little maskConfig (started maskConfig)).1 := by
  refine ⟨⟨lawful_profileText, readsTexts_profileText⟩, ⟨_, parse_ipv6Only, fun h => ?_⟩,
    ⟨_, parse_mask, fun h => ?_⟩⟩
  · have hdisabled : Disabled (sentFamily .little 32 .null
        (dnsServers profileText ipv6OnlyConfig).1) := h.ipv4
    exact absurd ((disabled_sentFamily_iff rfl).mp hdisabled) (by decide)
  · have hvalid :
        isValidAddressWithPrefix profileText maskConfig.deviceIpv4Address.chars = true := by
      decide
    have hmanual : Manual profileText 32 maskConfig.deviceIpv4Address.chars
        (sentFamily .little 32 maskConfig.deviceIpv4Address
          (dnsServers profileText maskConfig).1) := h.ipv4
    have hplain := (manual_sentFamily_iff lawful_profileText readsTexts_profileText (by decide)
      hvalid).mp hmanual
    have hsame := (@sentPrefixLength_eq_iff _ lawful_profileText readsTexts_profileText 32 _
      hvalid).mpr hplain
    exact absurd hsame (by decide)

/-- Both notations of the dual profile, for a controller that has not been initialised. -/
theorem applied_prefix_dual :
    (∀ v, dualConfig.deviceIpv4Address = .text v →
      (AddressAgrees profileText 32 v (applyInterfaceConfig profileText dualConfig {}).ipv4config ↔
        PlainPrefix profileText v)) ∧
    ∀ v, dualConfig.deviceIpv6Address = .text v →
      (AddressAgrees profileText 128 v (applyInterfaceConfig profileText dualConfig {}).ipv6config ↔
        PlainPrefix profileText v) :=
  applied_prefix_iff lawful_profileText readsTexts_profileText parse_dual {}

/-- The mask 255.255.255.0 becomes the prefix length 0. -/
theorem mask_not_agrees :
    (profileText.Lawful ∧ ReadsTexts profileText) ∧
      ∃ content v, parse profileText content = .ok maskConfig ∧
        maskConfig.deviceIpv4Address = .text v ∧
        ¬ AddressAgrees profileText 32 v
          (applyInterfaceConfig profileText maskConfig {}).ipv4config := by
  refine ⟨⟨lawful_profileText, readsTexts_profileText⟩, _, _, parse_mask, rfl, ?_⟩
  have hvalid : isValidAddressWithPrefix profileText "10.0.0.2/255.255.255.0".toList = true := by
    decide
  intro h
  have hplain := (addressAgrees_familyConfig_iff lawful_profileText readsTexts_profileText
    (by decide) hvalid).mp h
  exact absurd ((@sentPrefixLength_eq_iff _ lawful_profileText readsTexts_profileText 32 _
    hvalid).mpr hplain) (by decide)

end WgDesktop.NetmgrSettings
