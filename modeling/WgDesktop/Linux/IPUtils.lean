import WgDesktop.Daemon.Interface
import WgDesktop.Linux.Import
import WgDesktop.Linux.NetmgrSettings

/-!
# `IPUtilsLinux`

The addresses that the daemon gives to the interface,
`src/platforms/linux/daemon/iputilslinux.cpp`. Both methods write an address to a buffer with
`inet_pton`, whose result they do not look at, and pass the buffer on.

`configured_imported_iff` follows an imported file to the interface and to the resolvers: the daemon
configures what the file says exactly when it has an address of each family and a DNS server.
-/

namespace WgDesktop.IPUtilsLinux

open Runs WireGuardConfig

/-! ## Addresses of the interface -/

/-- `inet_pton` of the C library, for the two families. Without a value it leaves its buffer as it
was. -/
structure InetPton where
  ipv4 : List Char → Option (BitVec 32)
  ipv6 : List Char → Option (BitVec 128)

/-- An address on the interface. -/
inductive InterfaceAddress where
  | ipv4 (address : BitVec 32)
  | ipv6 (address : BitVec 128)
  deriving DecidableEq, Repr

/-- The answer of the kernel to `SIOCSIFADDR`. With `EEXIST` the interface has the address
already. -/
inductive Answer where
  | added
  | eexist
  | failed
  deriving DecidableEq, Repr

/-- What one call of `addInterfaceIPs` meets: the outcome of each system call, and what the buffers
on the stack happen to hold. -/
structure System where
  socket4 : Bool
  setAddress4 : Bool
  socket6 : Bool
  ifindex : Bool
  setAddress6 : Answer
  buffer4 : BitVec 32
  buffer6 : BitVec 128

section Methods

variable (T : HostAddressText) (pton : InetPton) (sys : System)

/-- The text of the address that is set. -/
def deviceAddr (address : QString) : List Char := T.toString (T.parseSubnet address.chars).1

/-- The result, and the addresses that the interface got. -/
def addIP4AddressToDevice (config : InterfaceConfig) : Bool × List InterfaceAddress :=
  let sinAddr := (pton.ipv4 (deviceAddr T config.deviceIpv4Address)).getD sys.buffer4
  if !sys.socket4 then (false, [])
  else if !sys.setAddress4 then (false, [])
  else (true, [.ipv4 sinAddr])

def addIP6AddressToDevice (config : InterfaceConfig) : Bool × List InterfaceAddress :=
  let addr := (pton.ipv6 (deviceAddr T config.deviceIpv6Address)).getD sys.buffer6
  if !sys.socket6 then (false, [])
  else if !sys.ifindex then (false, [])
  else if sys.setAddress6 = .failed then (false, [])
  else (true, [.ipv6 addr])

def addInterfaceIPs (config : InterfaceConfig) : Bool × List InterfaceAddress :=
  let first := addIP4AddressToDevice T pton sys config
  if first.1 then
    let second := addIP6AddressToDevice T pton sys config
    (second.1, first.2 ++ second.2)
  else first

/-- No call fails. -/
def System.Willing : Prop :=
  sys.socket4 = true ∧ sys.setAddress4 = true ∧ sys.socket6 = true ∧ sys.ifindex = true ∧
    sys.setAddress6 ≠ .failed

/-- The address that each method sets. -/
def setAddresses (config : InterfaceConfig) : List InterfaceAddress :=
  [.ipv4 ((pton.ipv4 (deviceAddr T config.deviceIpv4Address)).getD sys.buffer4),
    .ipv6 ((pton.ipv6 (deviceAddr T config.deviceIpv6Address)).getD sys.buffer6)]

variable {T pton sys} {config : InterfaceConfig}

theorem addIP4AddressToDevice_fst :
    (addIP4AddressToDevice T pton sys config).1 = true ↔
      sys.socket4 = true ∧ sys.setAddress4 = true := by
  unfold addIP4AddressToDevice
  dsimp only
  split_ifs with hsocket hset <;> simp_all

theorem addIP6AddressToDevice_fst :
    (addIP6AddressToDevice T pton sys config).1 = true ↔
      sys.socket6 = true ∧ sys.ifindex = true ∧ sys.setAddress6 ≠ .failed := by
  unfold addIP6AddressToDevice
  dsimp only
  split_ifs with hsocket hindex hset <;> simp_all

theorem addInterfaceIPs_of_willing (h : sys.Willing) :
    addInterfaceIPs T pton sys config = (true, setAddresses T pton sys config) := by
  obtain ⟨hsocket4, hset4, hsocket6, hindex, hset6⟩ := h
  simp [addInterfaceIPs, addIP4AddressToDevice, addIP6AddressToDevice, setAddresses, hsocket4,
    hset4, hsocket6, hindex, hset6]

/-- The methods succeed when no call fails, and whatever happens they set nothing else. -/
theorem addInterfaceIPs_fst : (addInterfaceIPs T pton sys config).1 = true ↔ sys.Willing := by
  refine ⟨fun h => ?_, fun h => by rw [addInterfaceIPs_of_willing h]⟩
  unfold addInterfaceIPs at h
  dsimp only at h
  split_ifs at h with hfirst
  · obtain ⟨hsocket4, hset4⟩ := addIP4AddressToDevice_fst.mp hfirst
    exact ⟨hsocket4, hset4, addIP6AddressToDevice_fst.mp h⟩
  · exact absurd h hfirst

theorem addInterfaceIPs_snd :
    (addInterfaceIPs T pton sys config).2 ⊆ setAddresses T pton sys config := by
  unfold addInterfaceIPs addIP4AddressToDevice addIP6AddressToDevice setAddresses
  dsimp only
  split_ifs <;> simp

end Methods

/-! ## What the configuration says -/

section Configured

variable (T : HostAddressText) (pton : InetPton)

/-- The device addresses of a configuration, as the import reads them. -/
def deviceAddresses (c : InterfaceConfig) : List InterfaceAddress :=
  (match T.hostAddress (hostPart c.deviceIpv4Address.chars) with
    | .ipv4 address => [.ipv4 address]
    | _ => []) ++
  match T.hostAddress (hostPart c.deviceIpv6Address.chars) with
    | .ipv6 address _ => [.ipv6 address]
    | _ => []

/-- The daemon, given `c'`, configures what `c` says: no other addresses, all of them when no system
call fails, and no other resolvers than its DNS server. -/
structure Configured (c c' : InterfaceConfig) : Prop where
  only : ∀ sys, ∀ a ∈ (addInterfaceIPs T pton sys c').2, a ∈ deviceAddresses T c
  all : ∀ sys : System, sys.Willing → (addInterfaceIPs T pton sys c').1 = true ∧
    ∀ a ∈ deviceAddresses T c, a ∈ (addInterfaceIPs T pton sys c').2
  resolvers : ∀ (B : Daemon.Backend) s, B.addressText = T → B.succeeds s.calls = true →
    ∀ r ∈ (exec (Daemon.maybeUpdateResolvers B c') s).2.resolvers,
      r ≠ .null ∧ r = T.hostAddress c.dnsServer.chars

/-- The condition: an address of each family, which is the one that `parseSubnet` reads (it has no
bits behind its prefix) and has no scope id, and a DNS server that is an address. -/
structure Complete (c : InterfaceConfig) : Prop where
  ipv4 : ∃ a, T.hostAddress (hostPart c.deviceIpv4Address.chars) = .ipv4 a ∧
    (T.parseSubnet c.deviceIpv4Address.chars).1 = .ipv4 a
  ipv6 : ∃ a scopeId, T.hostAddress (hostPart c.deviceIpv6Address.chars) = .ipv6 a scopeId ∧
    (T.parseSubnet c.deviceIpv6Address.chars).1 = .ipv6 a []
  dns : T.hostAddress c.dnsServer.chars ≠ .null

/-- What Qt and the C library document: the empty text is no address and no subnet, and `inet_pton`
takes the texts of the addresses of its family that have no scope id. -/
structure Converts : Prop where
  hostAddress_nil : T.hostAddress [] = .null
  parseSubnet_nil : (T.parseSubnet []).1 = .null
  ipv4 : ∀ s, pton.ipv4 (T.toString (T.parseSubnet s).1) =
    match (T.parseSubnet s).1 with
    | .ipv4 a => some a
    | _ => none
  ipv6 : ∀ s, pton.ipv6 (T.toString (T.parseSubnet s).1) =
    match (T.parseSubnet s).1 with
    | .ipv6 a [] => some a
    | _ => none

variable {T pton} {c c' : InterfaceConfig}

theorem ipv4_mem_deviceAddresses {a : BitVec 32} : .ipv4 a ∈ deviceAddresses T c ↔
    T.hostAddress (hostPart c.deviceIpv4Address.chars) = .ipv4 a := by
  unfold deviceAddresses
  cases T.hostAddress (hostPart c.deviceIpv4Address.chars) <;>
    cases T.hostAddress (hostPart c.deviceIpv6Address.chars) <;> simp [eq_comm]

theorem ipv6_mem_deviceAddresses {a : BitVec 128} : .ipv6 a ∈ deviceAddresses T c ↔
    ∃ scopeId, T.hostAddress (hostPart c.deviceIpv6Address.chars) = .ipv6 a scopeId := by
  unfold deviceAddresses
  cases T.hostAddress (hostPart c.deviceIpv4Address.chars) <;>
    cases T.hostAddress (hostPart c.deviceIpv6Address.chars) <;> simp [eq_comm]

/-- A system on which every call succeeds. -/
def willingSystem (buffer4 : BitVec 32) (buffer6 : BitVec 128) : System :=
  { socket4 := true, setAddress4 := true, socket6 := true, ifindex := true, setAddress6 := .added,
    buffer4, buffer6 }

theorem willing_willingSystem (buffer4 : BitVec 32) (buffer6 : BitVec 128) :
    (willingSystem buffer4 buffer6).Willing :=
  ⟨rfl, rfl, rfl, rfl, Answer.noConfusion⟩

/-- What the daemon has of an imported configuration. -/
structure Arrived (c c' : InterfaceConfig) : Prop where
  hopType : c'.hopType = .singleHop
  deviceIpv4Address : c'.deviceIpv4Address.chars = c.deviceIpv4Address.chars
  deviceIpv6Address : c'.deviceIpv6Address.chars = c.deviceIpv6Address.chars
  dnsServer : c'.dnsServer.chars = c.dnsServer.chars
  serverIpv4Gateway : c'.serverIpv4Gateway.chars = []
  serverIpv6Gateway : c'.serverIpv6Gateway.chars = []

/-- A conversion that may leave its buffer as it was gives the only right value, whatever the buffer
holds, exactly when it gives that value itself. -/
theorem forall_getD_iff {α : Type} {P : α → Prop} (hP : ∀ a b, P a → P b → a = b) {x y : α}
    (hne : x ≠ y) (result : Option α) :
    (∀ buffer, P (result.getD buffer)) ↔ ∃ a, result = some a ∧ P a := by
  cases result with
  | none =>
    refine iff_of_false (fun h => hne (hP x y (h x) (h y))) ?_
    rintro ⟨a, ha, -⟩
    cases ha
  | some a => exact ⟨fun h => ⟨a, rfl, h a⟩, fun ⟨b, hb, hPb⟩ buffer => by rwa [hb]⟩

theorem ipv4_deviceAddr_eq_some_iff (hpton : Converts T pton) (hc : Arrived c c') {a : BitVec 32} :
    pton.ipv4 (deviceAddr T c'.deviceIpv4Address) = some a ↔
      (T.parseSubnet c.deviceIpv4Address.chars).1 = .ipv4 a := by
  rw [deviceAddr, hc.deviceIpv4Address, hpton.ipv4]
  cases (T.parseSubnet c.deviceIpv4Address.chars).1 <;> simp

theorem ipv6_deviceAddr_eq_some_iff (hpton : Converts T pton) (hc : Arrived c c')
    {a : BitVec 128} :
    pton.ipv6 (deviceAddr T c'.deviceIpv6Address) = some a ↔
      (T.parseSubnet c.deviceIpv6Address.chars).1 = .ipv6 a [] := by
  rw [deviceAddr, hc.deviceIpv6Address, hpton.ipv6]
  cases (T.parseSubnet c.deviceIpv6Address.chars).1 with
  | null => simp
  | ipv4 b => simp
  | ipv6 b scopeId => cases scopeId <;> simp

/-- The two buffers are independent of each other. -/
theorem forall_setAddresses_subset_iff {config : InterfaceConfig}
    {addresses : List InterfaceAddress} :
    (∀ sys, setAddresses T pton sys config ⊆ addresses) ↔
      (∀ buffer, .ipv4 ((pton.ipv4 (deviceAddr T config.deviceIpv4Address)).getD buffer) ∈
        addresses) ∧
      ∀ buffer, .ipv6 ((pton.ipv6 (deviceAddr T config.deviceIpv6Address)).getD buffer) ∈
        addresses := by
  simp only [setAddresses, List.cons_subset, List.nil_subset, and_true]
  constructor
  · intro h
    exact ⟨fun buffer => (h (willingSystem buffer 0)).1,
      fun buffer => (h (willingSystem 0 buffer)).2⟩
  · rintro ⟨hfirst, hsecond⟩ sys
    exact ⟨hfirst sys.buffer4, hsecond sys.buffer6⟩

/-- Whatever the buffers hold, the two addresses that are set are the configuration's own. -/
theorem setAddresses_subset_iff (hpton : Converts T pton) (hc : Arrived c c') :
    (∀ sys, setAddresses T pton sys c' ⊆ deviceAddresses T c) ↔
      (∃ a, T.hostAddress (hostPart c.deviceIpv4Address.chars) = .ipv4 a ∧
        (T.parseSubnet c.deviceIpv4Address.chars).1 = .ipv4 a) ∧
      ∃ a scopeId, T.hostAddress (hostPart c.deviceIpv6Address.chars) = .ipv6 a scopeId ∧
        (T.parseSubnet c.deviceIpv6Address.chars).1 = .ipv6 a [] := by
  -- a configuration has at most one address of each family
  have honly4 : ∀ a b, InterfaceAddress.ipv4 a ∈ deviceAddresses T c →
      .ipv4 b ∈ deviceAddresses T c → a = b := by
    intro a b ha hb
    rw [ipv4_mem_deviceAddresses] at ha hb
    exact QHostAddress.ipv4.inj (ha.symm.trans hb)
  have honly6 : ∀ a b, InterfaceAddress.ipv6 a ∈ deviceAddresses T c →
      .ipv6 b ∈ deviceAddresses T c → a = b := by
    intro a b ha hb
    rw [ipv6_mem_deviceAddresses] at ha hb
    obtain ⟨scopeId, ha⟩ := ha
    obtain ⟨scopeId', hb⟩ := hb
    exact (QHostAddress.ipv6.inj (ha.symm.trans hb)).1
  rw [forall_setAddresses_subset_iff, forall_getD_iff honly4 (show (0 : BitVec 32) ≠ 1 by decide),
    forall_getD_iff honly6 (show (0 : BitVec 128) ≠ 1 by decide)]
  simp only [ipv4_deviceAddr_eq_some_iff hpton hc, ipv6_deviceAddr_eq_some_iff hpton hc,
    ipv4_mem_deviceAddresses, ipv6_mem_deviceAddresses]
  refine and_congr (exists_congr fun a => and_comm) (exists_congr fun a => ?_)
  rw [and_comm, exists_and_right]

/-- All addresses of a configuration are set when those that are set are its own. -/
theorem subset_setAddresses (hpton : Converts T pton) (hc : Arrived c c')
    (hcomplete : Complete T c) (sys : System) :
    deviceAddresses T c ⊆ setAddresses T pton sys c' := by
  obtain ⟨a, hhost4, hsubnet4⟩ := hcomplete.ipv4
  obtain ⟨b, scopeId, hhost6, hsubnet6⟩ := hcomplete.ipv6
  have hread4 : pton.ipv4 (deviceAddr T c'.deviceIpv4Address) = some a := by
    rw [deviceAddr, hc.deviceIpv4Address, hpton.ipv4, hsubnet4]
  have hread6 : pton.ipv6 (deviceAddr T c'.deviceIpv6Address) = some b := by
    rw [deviceAddr, hc.deviceIpv6Address, hpton.ipv6, hsubnet6]
  rw [deviceAddresses, hhost4, hhost6, setAddresses, hread4, hread6]
  simp

/-! ## Resolvers -/

theorem resolvers_maybeUpdateResolvers {B : Daemon.Backend} {s : Daemon.State}
    (hhop : c.hopType = .singleHop) (hcall : B.succeeds s.calls = true) :
    (exec (Daemon.maybeUpdateResolvers B c) s).2.resolvers = Daemon.resolversOf B c := by
  rw [Daemon.maybeUpdateResolvers, if_pos (Or.inr hhop), Daemon.exec_call, if_pos hcall]

/-- The resolvers of an imported configuration are its own exactly when it names one. -/
theorem resolversOf_iff (hpton : Converts T pton) (hc : Arrived c c') {B : Daemon.Backend}
    (hB : B.addressText = T) :
    (∀ r ∈ Daemon.resolversOf B c', r ≠ .null ∧ r = T.hostAddress c.dnsServer.chars) ↔
      T.hostAddress c.dnsServer.chars ≠ .null := by
  rw [Daemon.resolversOf, hB, hc.dnsServer, hc.serverIpv6Gateway, hpton.hostAddress_nil]
  by_cases hempty : c.dnsServer.chars = []
  · have hgateway : (c'.dnsServer == c'.serverIpv4Gateway) = true := by
      rw [QString.beq_iff, hc.dnsServer, hc.serverIpv4Gateway, hempty]
    rw [hgateway, hempty, hpton.hostAddress_nil]
    simp
  · have hother : (c'.dnsServer == c'.serverIpv4Gateway) = false := by
      rw [← Bool.not_eq_true, QString.beq_iff, hc.dnsServer, hc.serverIpv4Gateway]
      exact hempty
    rw [hother]
    simp

/-! ## From the file to the interface -/

theorem configured_iff (hpton : Converts T pton) (hc : Arrived c c') :
    Configured T pton c c' ↔ Complete T c := by
  constructor
  · rintro ⟨honly, -, hresolvers⟩
    have hset : ∀ sys, setAddresses T pton sys c' ⊆ deviceAddresses T c := by
      intro sys a ha
      refine honly (willingSystem sys.buffer4 sys.buffer6) a ?_
      rw [addInterfaceIPs_of_willing (willing_willingSystem _ _)]
      exact ha
    obtain ⟨h4, h6⟩ := (setAddresses_subset_iff hpton hc).mp hset
    let B : Daemon.Backend := { addressText := T, hasIpUtils := true, succeeds := fun _ => true }
    have hB : B.addressText = T := rfl
    refine ⟨h4, h6, (resolversOf_iff hpton hc hB).mp fun r hr => ?_⟩
    refine hresolvers B {} hB rfl r ?_
    rw [resolvers_maybeUpdateResolvers hc.hopType rfl]
    exact hr
  · intro hcomplete
    have hset := (setAddresses_subset_iff hpton hc).mpr ⟨hcomplete.ipv4, hcomplete.ipv6⟩
    refine ⟨fun sys a ha => hset sys (addInterfaceIPs_snd ha), fun sys hwilling => ?_,
      fun B s hB hcall r hr => ?_⟩
    · rw [addInterfaceIPs_of_willing hwilling]
      exact ⟨rfl, fun a ha => subset_setAddresses hpton hc hcomplete sys ha⟩
    · rw [resolvers_maybeUpdateResolvers hc.hopType hcall] at hr
      exact (resolversOf_iff hpton hc hB).mpr hcomplete.dns r hr

theorem arrived_of_parse (hT : T.Lawful) (hback : WireguardUtils.Rereads T) (S : Daemon.PrefixSort)
    {content : List Char} (h : parse T content = .ok c) :
    ∃ c', Daemon.parseConfig T S (c.toJson T) = .ok c' ∧ Arrived c c' := by
  have hc := imported_of_parse h
  have hsingle : c.hopType = .singleHop := by rw [hc.defaults]
  have hgateway4 : c.serverIpv4Gateway = .null := by rw [hc.defaults]
  have hgateway6 : c.serverIpv6Gateway = .null := by rw [hc.defaults]
  refine ⟨_, Daemon.parseConfig_toJson S c (WireguardUtils.sendable_of_parse hT hback h), ?_⟩
  simp only [hsingle, hgateway4, hgateway6, reduceCtorEq, if_false, QString.chars_null]
  exact ⟨rfl, rfl, rfl, rfl, rfl, rfl⟩

/-- **The daemon configures what the file says** exactly when the file has a plain address of each
family and a DNS server. -/
theorem configured_imported_iff (hT : T.Lawful) (hback : WireguardUtils.Rereads T)
    (hpton : Converts T pton) (S : Daemon.PrefixSort) {content : List Char}
    (h : parse T content = .ok c) :
    ∃ c', Daemon.parseConfig T S (c.toJson T) = .ok c' ∧
      (Configured T pton c c' ↔ Complete T c) := by
  obtain ⟨c', hc', harrived⟩ := arrived_of_parse hT hback S h
  exact ⟨c', hc', configured_iff hpton harrived⟩

end Configured

/-! ## Two files -/

section Files

open NetmgrSettings

/-- `inet_pton` for the addresses that Qt reads. -/
def readingPton (T : HostAddressText) : InetPton where
  ipv4 s := match T.hostAddress s with
    | .ipv4 a => some a
    | _ => none
  ipv6 s := match T.hostAddress s with
    | .ipv6 a [] => some a
    | _ => none

theorem converts_readingPton {T : HostAddressText} (hnil : T.hostAddress [] = .null)
    (hsubnet : (T.parseSubnet []).1 = .null)
    (hback : ∀ s, T.hostAddress (T.toString (T.parseSubnet s).1) = (T.parseSubnet s).1) :
    Converts T (readingPton T) := by
  refine ⟨hnil, hsubnet, fun s => ?_, fun s => ?_⟩
  · rw [← hback s]
    simp only [readingPton, hback]
  · rw [← hback s]
    simp only [readingPton, hback]

theorem hostAddress_toString_ofTable {addresses : List (List Char × QHostAddress)}
    {subnets : List (List Char × QHostAddress × ℤ)}
    (h : ∀ a ∈ QHostAddress.null :: subnets.map (·.2.1),
      (HostAddressText.ofTable addresses subnets).hostAddress
        ((HostAddressText.ofTable addresses subnets).toString a) = a) (s : List Char) :
    (HostAddressText.ofTable addresses subnets).hostAddress
      ((HostAddressText.ofTable addresses subnets).toString
        ((HostAddressText.ofTable addresses subnets).parseSubnet s).1) =
      ((HostAddressText.ofTable addresses subnets).parseSubnet s).1 := by
  refine h _ ?_
  cases hfind : subnets.find? (·.1 = s) with
  | none => simp [HostAddressText.ofTable, hfind]
  | some e =>
    refine List.mem_cons_of_mem _ (List.mem_map.mpr ⟨e, List.mem_of_find?_eq_some hfind, ?_⟩)
    simp [HostAddressText.ofTable, hfind]

theorem rereads_profileText : WireguardUtils.Rereads profileText := by
  refine WireguardUtils.rereads_ofTable ?_
  decide

theorem converts_profileText : Converts profileText (readingPton profileText) := by
  refine converts_readingPton (by decide) (by decide) (hostAddress_toString_ofTable ?_)
  decide

theorem complete_dual : Complete profileText dualConfig := by
  refine ⟨⟨0x0a000002#32, ?_, ?_⟩, ⟨0xfd000000000000000000000000000002#128, [], ?_, ?_⟩, ?_⟩
  all_goals decide

/-- A file with addresses of both families and a DNS server is configured as it says. -/
theorem configured_dual :
    ∃ c', Daemon.parseConfig profileText .insertion (dualConfig.toJson profileText) = .ok c' ∧
      Configured profileText (readingPton profileText) dualConfig c' := by
  obtain ⟨c', hc', hiff⟩ := configured_imported_iff lawful_profileText rereads_profileText
    converts_profileText .insertion parse_dual
  exact ⟨c', hc', hiff.mpr complete_dual⟩

/-- An IPv4 address and nothing else. -/
def ipv4OnlyConfig : InterfaceConfig := profileConfig (.text "10.0.0.2/32".toList) .null .null

theorem parse_ipv4Only : parse profileText (profileContent ["Address = 10.0.0.2/32"]) =
    .ok ipv4OnlyConfig := by
  decide +kernel

/-- Without an IPv6 address the interface gets what the buffer holds, and without a DNS server the
resolvers are two null addresses. -/
theorem ipv4Only_not_configured :
    (profileText.Lawful ∧ WireguardUtils.Rereads profileText ∧
      Converts profileText (readingPton profileText)) ∧
    ∃ c', Daemon.parseConfig profileText .insertion (ipv4OnlyConfig.toJson profileText) = .ok c' ∧
      (∃ content, parse profileText content = .ok ipv4OnlyConfig) ∧
      .ipv6 7#128 ∈
        (addInterfaceIPs profileText (readingPton profileText) (willingSystem 0 7) c').2 ∧
      .ipv6 7#128 ∉ deviceAddresses profileText ipv4OnlyConfig ∧
      ¬ Configured profileText (readingPton profileText) ipv4OnlyConfig c' := by
  obtain ⟨c', hc', harrived⟩ := arrived_of_parse lawful_profileText rereads_profileText .insertion
    parse_ipv4Only
  have haddr : deviceAddr profileText c'.deviceIpv6Address = [] := by
    rw [deviceAddr, harrived.deviceIpv6Address]
    decide
  have hnone : (readingPton profileText).ipv6 [] = none := by decide
  refine ⟨⟨lawful_profileText, rereads_profileText, converts_profileText⟩, c', hc',
    ⟨_, parse_ipv4Only⟩, ?_, by decide, fun h => ?_⟩
  · rw [addInterfaceIPs_of_willing (willing_willingSystem _ _), setAddresses, haddr, hnone]
    simp [willingSystem]
  · exact ((configured_iff converts_profileText harrived).mp h).dns (by decide)

end Files

end WgDesktop.IPUtilsLinux
