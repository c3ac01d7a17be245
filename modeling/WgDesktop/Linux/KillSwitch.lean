import WgDesktop.Linux.Firewall

/-!
# The kill switch

Which packets leave a machine whose firewall is up. `Permitted` says it without registers, offsets
and masks; `output_accepts_iff` shows that the output chain accepts exactly these packets, after any
later history of marking and clearing servers. `hook_blocks_dns_iff` says which DNS packets outside
of the tunnel are held back.
-/

namespace WgDesktop.KillSwitch

open Bytes Nft GoNet Netfilter LinuxFirewall BitPrefix PiNat Runs

/-! ## What a packet is -/

/-- The destination address. -/
def destination (p : Packet) : QHostAddress :=
  match p.header with
  | .ipv4 h => .ipv4 h.daddr
  | .ipv6 h => .ipv6 h.daddr []

/-- The source address. -/
def source (p : Packet) : QHostAddress :=
  match p.header with
  | .ipv4 h => .ipv4 h.saddr
  | .ipv6 h => .ipv6 h.saddr []

/-- The address that a rule looks at. -/
def address : AddrType → Packet → QHostAddress
  | .saddr => source
  | .daddr => destination

/-- The two bytes at an offset, as a word in network order. -/
def wordAt (bs : List Byte) (offset : ℕ) : Option (BitVec 16) :=
  match bs.drop offset with
  | a :: b :: _ => some (a ++ b)
  | _ => none

def sourcePort (p : Packet) : Option (BitVec 16) := p.transport.bind fun bs => wordAt bs 0

def destinationPort (p : Packet) : Option (BitVec 16) := p.transport.bind fun bs => wordAt bs 2

def icmpType (p : Packet) : Option Byte := p.transport.bind fun bs => bs[0]?

def icmpCode (p : Packet) : Option Byte := p.transport.bind fun bs => bs[1]?

def broadcast : QHostAddress := .ipv4 0xffffffff#32

/-- The neighbour discovery messages that may be sent, with their destinations. -/
def ndpMessages : List (Byte × IPAddress) :=
  [(133#8, routerSolicitation), (135#8, solicitedNode), (135#8, linkLocal), (136#8, linkLocal)]

/-- The packets that may leave while the firewall is up. -/
inductive Permitted (vpn : IfName) (fwmark : BitVec 32) (endpoints : QHostAddress → Prop)
    (lan : List IPAddress) (p : Packet) : Prop where
  | loopback (dev : Interface) (hdev : p.oif = some dev) (htype : dev.type = arphrdLoopback)
  | vpn (dev : Interface) (hdev : p.oif = some dev) (hname : dev.name = vpn)
  | endpoint (hudp : p.l4proto = some ipprotoUdp) (hdst : endpoints (destination p))
  | marked (hmark : p.mark = fwmark)
  | lan (range : IPAddress) (hrange : range ∈ lan) (hdst : range.contains (destination p) = true)
  | dhcpRequest (hudp : p.l4proto = some ipprotoUdp) (hsrc : sourcePort p = some dhcpv4ClientPort)
      (hdst : destination p = broadcast) (hport : destinationPort p = some dhcpv4ServerPort)
  | dhcpReply (hudp : p.l4proto = some ipprotoUdp) (hsrc : sourcePort p = some dhcpv4ServerPort)
      (hport : destinationPort p = some dhcpv4ClientPort)
  | ndp (type : Byte) (range : IPAddress) (hmem : (type, range) ∈ ndpMessages)
      (hdst : range.contains (destination p) = true) (hproto : p.l4proto = some ipprotoIcmpv6)
      (htype : icmpType p = some type) (hcode : icmpCode p = some 0#8)

/-! ## Reading packets -/

theorem toBytes_append (a b : Byte) : toBytes (a ++ b : BitVec 16) = [a, b] := by
  change [(a ++ b).extractLsb' 8 8, (a ++ b).extractLsb' 0 8] = [a, b]
  congr 1
  · rw [BitVec.extractLsb'_append_eq_left]
  · rw [BitVec.extractLsb'_append_eq_right]

theorem slice_two_iff {bs : List Byte} {offset : ℕ} {x : BitVec 16} :
    slice bs offset 2 = some (toBytes x) ↔ wordAt bs offset = some x := by
  have hlen : offset + 2 ≤ bs.length ↔ 2 ≤ (bs.drop offset).length := by
    rw [List.length_drop]
    omega
  unfold slice wordAt
  simp only [hlen]
  rcases bs.drop offset with - | ⟨a, - | ⟨b, t⟩⟩
  · simp
  · simp
  · simp [← toBytes_append, toBytes_inj (w := 16) ⟨2, rfl⟩]

theorem slice_one_iff {bs : List Byte} {offset : ℕ} {b : Byte} :
    slice bs offset 1 = some [b] ↔ bs[offset]? = some b := by
  unfold slice
  by_cases h : offset < bs.length
  · rw [if_pos (by omega), List.take_one_drop_eq_of_lt_length h, List.getElem?_eq_getElem h]
    simp
  · rw [if_neg (by omega), List.getElem?_eq_none (by omega)]
    simp

theorem loadPayload_daddr4 {p : Packet} {h : Ipv4Header} (hp : p.header = .ipv4 h) :
    p.loadPayload .networkHeader 16 4 = some (toBytes h.daddr) := by
  have hsplit : p.headerBytes ++ p.body =
      h.bytes.take 16 ++ (toBytes h.daddr ++ (h.options ++ p.body)) := by
    simp only [Packet.headerBytes, hp]
    rfl
  rw [Packet.loadPayload, hsplit]
  exact slice_append (h.bytes.take 16) (toBytes h.daddr) _

theorem loadPayload_daddr6 {p : Packet} {h : Ipv6Header} (hp : p.header = .ipv6 h) :
    p.loadPayload .networkHeader 24 16 = some (toBytes h.daddr) := by
  have hsplit : p.headerBytes ++ p.body =
      h.bytes.take 24 ++ (toBytes h.daddr ++ (h.extensions ++ p.body)) := by
    simp only [Packet.headerBytes, hp]
    rfl
  rw [Packet.loadPayload, hsplit]
  exact slice_append (h.bytes.take 24) (toBytes h.daddr) _

theorem loadPayload_saddr4 {p : Packet} {h : Ipv4Header} (hp : p.header = .ipv4 h) :
    p.loadPayload .networkHeader 12 4 = some (toBytes h.saddr) := by
  have hsplit : p.headerBytes ++ p.body =
      h.bytes.take 12 ++ (toBytes h.saddr ++ (toBytes h.daddr ++ h.options ++ p.body)) := by
    simp only [Packet.headerBytes, hp]
    rfl
  rw [Packet.loadPayload, hsplit]
  exact slice_append (h.bytes.take 12) (toBytes h.saddr) _

theorem loadPayload_saddr6 {p : Packet} {h : Ipv6Header} (hp : p.header = .ipv6 h) :
    p.loadPayload .networkHeader 8 16 = some (toBytes h.saddr) := by
  have hsplit : p.headerBytes ++ p.body =
      h.bytes.take 8 ++ (toBytes h.saddr ++ (toBytes h.daddr ++ h.extensions ++ p.body)) := by
    simp only [Packet.headerBytes, hp]
    rfl
  rw [Packet.loadPayload, hsplit]
  exact slice_append (h.bytes.take 8) (toBytes h.saddr) _

/-- Where the addresses are in the header. -/
def addressOffset4 : AddrType → ℕ
  | .saddr => 12
  | .daddr => 16

def addressOffset6 : AddrType → ℕ
  | .saddr => 8
  | .daddr => 24

theorem exists_address4 {p : Packet} {h : Ipv4Header} (hp : p.header = .ipv4 h) (t : AddrType) :
    ∃ a, address t p = .ipv4 a ∧
      p.loadPayload .networkHeader (addressOffset4 t) 4 = some (toBytes a) := by
  cases t with
  | saddr => exact ⟨h.saddr, by simp [address, source, hp], loadPayload_saddr4 hp⟩
  | daddr => exact ⟨h.daddr, by simp [address, destination, hp], loadPayload_daddr4 hp⟩

theorem exists_address6 {p : Packet} {h : Ipv6Header} (hp : p.header = .ipv6 h) (t : AddrType) :
    ∃ a, address t p = .ipv6 a [] ∧
      p.loadPayload .networkHeader (addressOffset6 t) 16 = some (toBytes a) := by
  cases t with
  | saddr => exact ⟨h.saddr, by simp [address, source, hp], loadPayload_saddr6 hp⟩
  | daddr => exact ⟨h.daddr, by simp [address, destination, hp], loadPayload_daddr6 hp⟩

theorem loadPayload_transport {p : Packet} {offset : ℕ} {x : BitVec 16} :
    p.loadPayload .transportHeader offset 2 = some (toBytes x) ↔
      (p.transport.bind fun bs => wordAt bs offset) = some x := by
  rw [Packet.loadPayload]
  cases p.transport with
  | none => simp
  | some bs => exact slice_two_iff

theorem loadPayload_transport_byte {p : Packet} {offset : ℕ} {b : Byte} :
    p.loadPayload .transportHeader offset 1 = some [b] ↔
      (p.transport.bind fun bs => bs[offset]?) = some b := by
  rw [Packet.loadPayload]
  cases p.transport with
  | none => simp
  | some bs => exact slice_one_iff

theorem loadMeta_l4proto {e : Endian} {p : Packet} {b : Byte} :
    p.loadMeta e .l4proto = some [b] ↔ p.l4proto = some b := by
  simp [Packet.loadMeta]

theorem loadMeta_mark {e : Endian} {p : Packet} {mark : BitVec 32} :
    p.loadMeta e .mark = some (e.bytes mark) ↔ p.mark = mark := by
  simp [Packet.loadMeta, e.bytes_inj (w := 32) ⟨4, rfl⟩]

theorem loadMeta_oiftype {e : Endian} {p : Packet} {type : BitVec 16} :
    p.loadMeta e .oiftype = some (e.bytes type) ↔ ∃ dev, p.oif = some dev ∧ dev.type = type := by
  simp [Packet.loadMeta, e.bytes_inj (w := 16) ⟨2, rfl⟩]

theorem nftIfname_eq_padName (n : List Byte) : nftIfname n = padName n := by
  have hzero : [0#8] ++ List.replicate 16 0#8 = List.replicate 17 0#8 := rfl
  rw [nftIfname, padName, List.append_assoc, hzero, List.take_append, List.take_append,
    List.take_replicate, List.take_replicate]
  congr 2
  omega

theorem loadMeta_oifname {e : Endian} {p : Packet} {dev : Interface} {vpn : IfName}
    (hdev : p.oif = some dev) :
    p.loadMeta e .oifname = some (nftIfname vpn.bytes) ↔ dev.name = vpn := by
  simp [Packet.loadMeta, hdev, nftIfname_eq_padName, padName_inj]

/-! ## What the rules decide -/

section Rules

variable {env : Env} {es : List Expr} {P : Packet → Prop} {v : Verdict}

/-- A masked destination equals a network exactly when the network's prefix covers it. -/
theorem masked_eq_iff {w l n : ℕ} (hw : w = 8 * l) {x a : BitVec w} (ha : HostZero n a.getMsbD) :
    List.zipWith (· ^^^ ·) (List.zipWith (· &&& ·) (toBytes x) (cidrMask l n))
      (List.replicate l 0#8) = toBytes a ↔ x.getMsbD ∈ cylinder a.getMsbD n := by
  subst hw
  have hlen : (toBytes (x &&& prefixMask (8 * l) n)).length ≤ l := by simp
  rw [cidrMask_eq_toBytes, ← toBytes_and, zipWith_xor_zero _ _ hlen,
    toBytes_inj (Dvd.intro l rfl), and_prefixMask_eq_iff ha]

theorem loadMeta_nfproto_ipv4 {e : Endian} {p : Packet} :
    p.loadMeta e .nfproto = some [nfprotoIpv4] ↔ ∃ h, p.header = .ipv4 h := by
  cases hp : p.header <;> simp [Packet.loadMeta, hp, Header.nfproto, nfprotoIpv4]

theorem loadMeta_nfproto_ipv6 {e : Endian} {p : Packet} :
    p.loadMeta e .nfproto = some [nfprotoIpv6] ↔ ∃ h, p.header = .ipv6 h := by
  cases hp : p.header <;> simp [Packet.loadMeta, hp, Header.nfproto, nfprotoIpv6]

theorem loadMeta_protocol_ipv4 {e : Endian} {p : Packet} :
    p.loadMeta e .protocol = some (toBytes ethPIp) ↔ ∃ h, p.header = .ipv4 h := by
  cases hp : p.header <;>
    simp [Packet.loadMeta, hp, Header.protocol, ethPIp, toBytes_inj (w := 16) ⟨2, rfl⟩]

theorem loadMeta_protocol_ipv6 {e : Endian} {p : Packet} :
    p.loadMeta e .protocol = some (toBytes ethPIpv6) ↔ ∃ h, p.header = .ipv6 h := by
  cases hp : p.header <;>
    simp [Packet.loadMeta, hp, Header.protocol, ethPIpv6, toBytes_inj (w := 16) ⟨2, rfl⟩]

theorem destination_of_ipv4 {p : Packet} {h : Ipv4Header} (hp : p.header = .ipv4 h) :
    destination p = .ipv4 h.daddr := by
  rw [destination, hp]

theorem destination_of_ipv6 {p : Packet} {h : Ipv6Header} (hp : p.header = .ipv6 h) :
    destination p = .ipv6 h.daddr [] := by
  rw [destination, hp]

/-- The networks of the rules: canonical, and no IPv4 address in disguise. -/
def Plain (r : IPAddress) : Prop :=
  r.Canonical ∧ (r.address.protocol = .ipv6Protocol → to4 (ipNet r).ip = none)

instance (r : IPAddress) : Decidable (Plain r) := inferInstanceAs (Decidable (_ ∧ (_ → _)))

theorem decides_ipv4Net {a : BitVec 32} {n : ℤ} (hzero : HostZero n.toNat a.getMsbD)
    (t : AddrType) (h : Decides env es P v) :
    Decides env ((buildIpNetExpr (ipNet ⟨.ipv4 a, n⟩) t).dropLast ++ es)
      (fun p => IPAddress.Covers ⟨.ipv4 a, n⟩ (address t p) ∧ P p) v := by
  have hbuild : (buildIpNetExpr (ipNet ⟨.ipv4 a, n⟩) t).dropLast =
      [.loadMeta .nfproto 1, .cmp .eq 1 [nfprotoIpv4],
        .payload 1 .networkHeader (addressOffset4 t) 4,
        .bitwise 1 1 4 (cidrMask 4 n.toNat) (List.replicate 4 0#8), .cmp .eq 1 (toBytes a)] := by
    cases t <;> rfl
  rw [hbuild]
  have hrule : Decides env ([.loadMeta .nfproto 1, .cmp .eq 1 [nfprotoIpv4],
      .payload 1 .networkHeader (addressOffset4 t) 4,
      .bitwise 1 1 4 (cidrMask 4 n.toNat) (List.replicate 4 0#8), .cmp .eq 1 (toBytes a)] ++ es)
      _ v := (h.masked (length_cidrMask 4 _) rfl rfl).loadMeta rfl
  refine hrule.congr fun p => ?_
  rw [loadMeta_nfproto_ipv4]
  cases hp : p.header with
  | ipv4 hdr =>
    obtain ⟨x, haddress, hload⟩ := exists_address4 hp t
    rw [hload, haddress, Option.map_some, Option.some_inj, masked_eq_iff (by rfl) hzero]
    simp [IPAddress.Covers, QHostAddress.protocol, QHostAddress.bit]
  | ipv6 hdr =>
    obtain ⟨x, haddress, -⟩ := exists_address6 hp t
    rw [haddress]
    simp [IPAddress.Covers, QHostAddress.protocol]

/-- The address part of a rule for IPv6, unless the address is an IPv4 address in disguise. -/
theorem decides_ipv6Net {a : BitVec 128} {scope : List Char} {n : ℤ}
    (hzero : HostZero n.toNat a.getMsbD) (hto4 : to4 (toBytes a) = none) (t : AddrType)
    (h : Decides env es P v) :
    Decides env ((buildIpNetExpr (ipNet ⟨.ipv6 a scope, n⟩) t).dropLast ++ es)
      (fun p => IPAddress.Covers ⟨.ipv6 a scope, n⟩ (address t p) ∧ P p) v := by
  have hbuild : (buildIpNetExpr (ipNet ⟨.ipv6 a scope, n⟩) t).dropLast =
      [.loadMeta .nfproto 1, .cmp .eq 1 [nfprotoIpv6],
        .payload 1 .networkHeader (addressOffset6 t) 16,
        .bitwise 1 1 16 (cidrMask 16 n.toNat) (List.replicate 16 0#8),
        .cmp .eq 1 (toBytes a)] := by
    cases t <;>
    · simp only [buildIpNetExpr, ipNet, hto4]
      rfl
  rw [hbuild]
  have hrule : Decides env ([.loadMeta .nfproto 1, .cmp .eq 1 [nfprotoIpv6],
      .payload 1 .networkHeader (addressOffset6 t) 16,
      .bitwise 1 1 16 (cidrMask 16 n.toNat) (List.replicate 16 0#8), .cmp .eq 1 (toBytes a)] ++
        es) _ v := (h.masked (length_cidrMask 16 _) rfl rfl).loadMeta rfl
  refine hrule.congr fun p => ?_
  rw [loadMeta_nfproto_ipv6]
  cases hp : p.header with
  | ipv4 hdr =>
    obtain ⟨x, haddress, -⟩ := exists_address4 hp t
    rw [haddress]
    simp [IPAddress.Covers, QHostAddress.protocol]
  | ipv6 hdr =>
    obtain ⟨x, haddress, hload⟩ := exists_address6 hp t
    rw [hload, haddress, Option.map_some, Option.some_inj, masked_eq_iff (by rfl) hzero]
    simp [IPAddress.Covers, QHostAddress.protocol, QHostAddress.bit]

/-- The address part of a rule matches the packets with an address in its prefix. -/
theorem decides_ipNet {r : IPAddress} (hplain : Plain r) (t : AddrType) (h : Decides env es P v) :
    Decides env ((buildIpNetExpr (ipNet r) t).dropLast ++ es)
      (fun p => r.contains (address t p) = true ∧ P p) v := by
  obtain ⟨hr, hmapped⟩ := hplain
  obtain ⟨a, n⟩ := r
  have hcovers := fun p => IPAddress.contains_iff hr.toValid (address t p)
  simp only [hcovers]
  cases a with
  | null => exact absurd rfl hr.protocol
  | ipv4 a => exact decides_ipv4Net hr.hostZero t h
  | ipv6 a scope => exact decides_ipv6Net hr.hostZero (hmapped rfl) t h

theorem decides_allowPrefix {r : IPAddress} (hplain : Plain r) (t : AddrType) :
    Decides env (buildIpNetExpr (ipNet r) t) (fun p => r.contains (address t p) = true)
      .accept := by
  have hend : Decides env [.verdict .accept] (fun _ => True) .accept := .verdict .accept
  exact (decides_ipNet hplain t hend).congr fun p => iff_of_eq (and_true _)

/-- A neighbour discovery rule matches one type of message to its prefix. -/
theorem decides_ndpRule {r : IPAddress} (hplain : Plain r) (type : Byte) :
    Decides env (ndpRule (ipNet r) type)
      (fun p => r.contains (destination p) = true ∧ p.l4proto = some ipprotoIcmpv6 ∧
        icmpType p = some type ∧ icmpCode p = some 0#8) .accept := by
  have hicmp : Decides env (icmpv6Exprs type) _ .accept :=
    .loadMeta rfl (.payload rfl (.payload rfl (.verdict .accept)))
  refine (decides_ipNet hplain .daddr hicmp).congr fun p => ?_
  rw [loadMeta_l4proto, loadPayload_transport_byte, loadPayload_transport_byte, and_true]
  rfl

theorem decides_dhcpRequest :
    Decides env dhcpRequestRule (fun p => p.l4proto = some ipprotoUdp ∧
      sourcePort p = some dhcpv4ClientPort ∧ destination p = broadcast ∧
      destinationPort p = some dhcpv4ServerPort) .accept := by
  have hrule : Decides env dhcpRequestRule _ .accept :=
    .loadMeta rfl (.payload rfl (.loadMeta rfl (.payload rfl
      (.loadMeta rfl (.payload rfl (.verdict .accept))))))
  refine hrule.congr fun p => ?_
  have hbroadcast : [0xff#8, 0xff#8, 0xff#8, 0xff#8] = toBytes 0xffffffff#32 := by decide
  rw [loadMeta_l4proto, loadPayload_transport, loadMeta_nfproto_ipv4, loadPayload_transport,
    and_true]
  cases hp : p.header with
  | ipv4 h =>
    rw [loadPayload_daddr4 hp, destination_of_ipv4 hp, hbroadcast, Option.some_inj,
      toBytes_inj ⟨4, rfl⟩]
    simp [broadcast, sourcePort, destinationPort]
    tauto
  | ipv6 h =>
    rw [destination_of_ipv6 hp]
    simp [broadcast]

theorem decides_udpPorts (sport dport : BitVec 16) :
    Decides env (udpPortsRule sport dport) (fun p => p.l4proto = some ipprotoUdp ∧
      sourcePort p = some sport ∧ destinationPort p = some dport) .accept := by
  have hrule : Decides env (udpPortsRule sport dport) _ .accept :=
    .loadMeta rfl (.payload rfl (.loadMeta rfl (.payload rfl (.verdict .accept))))
  refine hrule.congr fun p => ?_
  rw [loadMeta_l4proto, loadPayload_transport, loadPayload_transport, and_true]
  exact ⟨fun ⟨hudp, hsrc, _, hdst⟩ => ⟨hudp, hsrc, hdst⟩,
    fun ⟨hudp, hsrc, hdst⟩ => ⟨hudp, hsrc, hudp, hdst⟩⟩

theorem decides_dnsReject (proto : Byte) (type : RejectType) :
    Decides env (dnsRejectRule proto type) (fun p => p.l4proto = some proto ∧
      destinationPort p = some dnsPort) (.reject type) := by
  have hrule : Decides env (dnsRejectRule proto type) _ (.reject type) :=
    .loadMeta rfl (.payload rfl (.verdict (.reject type)))
  refine hrule.congr fun p => ?_
  rw [loadMeta_l4proto, loadPayload_transport, and_true]
  rfl

theorem decides_meta {key : MetaKey} {data : List Byte} (hlen : data.length = key.size) :
    Decides env [.loadMeta key 1, .cmp .eq 1 data, .verdict .accept]
      (fun p => p.loadMeta env.endian key = some data) .accept := by
  have hrule : Decides env [.loadMeta key 1, .cmp .eq 1 data, .verdict .accept] _ .accept :=
    .loadMeta hlen (.verdict .accept)
  exact hrule.congr fun p => iff_of_eq (and_true _)

theorem decides_loopback (e : Endian) (he : env.endian = e) :
    Decides env [.loadMeta .oiftype 1, .cmp .eq 1 (e.bytes arphrdLoopback), .verdict .accept]
      (fun p => ∃ dev, p.oif = some dev ∧ dev.type = arphrdLoopback) .accept := by
  subst he
  exact (decides_meta (Endian.length_bytes _ _)).congr fun p => loadMeta_oiftype

theorem length_nftIfname (name : List Byte) : (nftIfname name).length = 16 := by
  rw [nftIfname_eq_padName, length_padName]

theorem decides_oifname (name : List Byte) :
    Decides env [.loadMeta .oifname 1, .cmp .eq 1 (nftIfname name), .verdict .accept]
      (fun p => p.loadMeta env.endian .oifname = some (nftIfname name)) .accept :=
  decides_meta (length_nftIfname name)

theorem decides_mark (e : Endian) (he : env.endian = e) (fwmark : BitVec 32) :
    Decides env [.loadMeta .mark 1, .cmp .eq 1 (e.bytes fwmark), .verdict .accept]
      (fun p => p.mark = fwmark) .accept := by
  subst he
  exact (decides_meta (Endian.length_bytes _ _)).congr fun p => loadMeta_mark

theorem decides_addrset {ns : NamedSet} (hset : env.sets addrset = some ns)
    (hkey : ns.keyLength = 4) (t : AddrType) :
    Decides env [.loadMeta .protocol 1, .cmp .eq 1 (toBytes ethPIp),
        .loadMeta .l4proto 1, .cmp .eq 1 [ipprotoUdp],
        .payload 1 .networkHeader (addressOffset4 t) 4, .lookup 1 addrset, .verdict .accept]
      (fun p => p.l4proto = some ipprotoUdp ∧
        ∃ a, address t p = .ipv4 a ∧ toBytes a ∈ ns.elements) .accept := by
  have hrule : Decides env [.loadMeta .protocol 1, .cmp .eq 1 (toBytes ethPIp),
      .loadMeta .l4proto 1, .cmp .eq 1 [ipprotoUdp],
      .payload 1 .networkHeader (addressOffset4 t) 4, .lookup 1 addrset, .verdict .accept] _
      .accept := .loadMeta rfl (.loadMeta rfl (.lookup hset hkey (.verdict .accept)))
  refine hrule.congr fun p => ?_
  rw [and_true, loadMeta_l4proto, loadMeta_protocol_ipv4]
  cases hp : p.header with
  | ipv4 h =>
    obtain ⟨a, haddress, hload⟩ := exists_address4 hp t
    simp [haddress, hload]
  | ipv6 h =>
    obtain ⟨a, haddress, -⟩ := exists_address6 hp t
    simp [haddress]

theorem decides_addrset6 {ns : NamedSet} (hset : env.sets addrset6 = some ns)
    (hkey : ns.keyLength = 16) (t : AddrType) :
    Decides env [.loadMeta .protocol 1, .cmp .eq 1 (toBytes ethPIpv6),
        .loadMeta .l4proto 1, .cmp .eq 1 [ipprotoUdp],
        .payload 1 .networkHeader (addressOffset6 t) 16, .lookup 1 addrset6, .verdict .accept]
      (fun p => p.l4proto = some ipprotoUdp ∧
        ∃ a, address t p = .ipv6 a [] ∧ toBytes a ∈ ns.elements) .accept := by
  have hrule : Decides env [.loadMeta .protocol 1, .cmp .eq 1 (toBytes ethPIpv6),
      .loadMeta .l4proto 1, .cmp .eq 1 [ipprotoUdp],
      .payload 1 .networkHeader (addressOffset6 t) 16, .lookup 1 addrset6, .verdict .accept] _
      .accept := .loadMeta rfl (.loadMeta rfl (.lookup hset hkey (.verdict .accept)))
  refine hrule.congr fun p => ?_
  rw [and_true, loadMeta_l4proto, loadMeta_protocol_ipv6]
  cases hp : p.header with
  | ipv4 h =>
    obtain ⟨a, haddress, -⟩ := exists_address4 hp t
    simp [haddress]
  | ipv6 h =>
    obtain ⟨a, haddress, hload⟩ := exists_address6 hp t
    simp [haddress, hload]

theorem decides_endpoint4 {ns : NamedSet} (hset : env.sets addrset = some ns)
    (hkey : ns.keyLength = 4) :
    Decides env [.loadMeta .protocol 1, .cmp .eq 1 (toBytes ethPIp),
        .loadMeta .l4proto 1, .cmp .eq 1 [ipprotoUdp],
        .payload 1 .networkHeader 16 4, .lookup 1 addrset, .verdict .accept]
      (fun p => p.l4proto = some ipprotoUdp ∧
        ∃ h, p.header = .ipv4 h ∧ toBytes h.daddr ∈ ns.elements) .accept := by
  refine (decides_addrset hset hkey .daddr).congr fun p => ?_
  cases hp : p.header with
  | ipv4 h => simp [address, destination_of_ipv4 hp]
  | ipv6 h => simp [address, destination_of_ipv6 hp]

theorem decides_endpoint6 {ns : NamedSet} (hset : env.sets addrset6 = some ns)
    (hkey : ns.keyLength = 16) :
    Decides env [.loadMeta .protocol 1, .cmp .eq 1 (toBytes ethPIpv6),
        .loadMeta .l4proto 1, .cmp .eq 1 [ipprotoUdp],
        .payload 1 .networkHeader 24 16, .lookup 1 addrset6, .verdict .accept]
      (fun p => p.l4proto = some ipprotoUdp ∧
        ∃ h, p.header = .ipv6 h ∧ toBytes h.daddr ∈ ns.elements) .accept := by
  refine (decides_addrset6 hset hkey .daddr).congr fun p => ?_
  cases hp : p.header with
  | ipv4 h => simp [address, destination_of_ipv4 hp]
  | ipv6 h => simp [address, destination_of_ipv6 hp]

end Rules

/-! ## The output chain -/

/-- The rules of the output chain that accept, in their order. -/
def acceptRules (e : Endian) (lan : List IPAddress) (ifname : List Byte) (fwmark : BitVec 32) :
    List (List Expr) :=
  [[.loadMeta .oiftype 1, .cmp .eq 1 (e.bytes arphrdLoopback), .verdict .accept],
   [.loadMeta .oifname 1, .cmp .eq 1 (nftIfname ifname), .verdict .accept],
   [.loadMeta .protocol 1, .cmp .eq 1 (toBytes ethPIp),
    .loadMeta .l4proto 1, .cmp .eq 1 [ipprotoUdp],
    .payload 1 .networkHeader 16 4, .lookup 1 addrset, .verdict .accept],
   [.loadMeta .protocol 1, .cmp .eq 1 (toBytes ethPIpv6),
    .loadMeta .l4proto 1, .cmp .eq 1 [ipprotoUdp],
    .payload 1 .networkHeader 24 16, .lookup 1 addrset6, .verdict .accept],
   [.loadMeta .mark 1, .cmp .eq 1 (e.bytes fwmark), .verdict .accept]] ++
  lan.map (fun r => buildIpNetExpr (ipNet r) .daddr) ++
  [dhcpRequestRule, udpPortsRule dhcpv4ServerPort dhcpv4ClientPort] ++
  ndpMessages.map (fun m => ndpRule (ipNet m.2) m.1)

/-- The rules of the output chain that reject. -/
def rejectRules : List (List Expr) :=
  [dnsRejectRule ipprotoUdp (.icmpxUnreach icmpxPortUnreach), dnsRejectRule ipprotoTcp .tcpRst]

/-- What the networks of the local network add to a chain. -/
theorem of_allowPrefixRules (lan : List IPAddress) (name : String) :
    Additions.of (lan.flatMap fun r => allowPrefixRules (ipNet r)) name =
      if name = output then lan.map fun r => buildIpNetExpr (ipNet r) .daddr
      else if name = input then lan.map fun r => buildIpNetExpr (ipNet r) .saddr
      else [] := by
  induction lan with
  | nil => simp [Additions.of]
  | cons r lan ih =>
    rw [List.flatMap_cons, Additions.of_append, ih]
    split_ifs with hout hin
    · subst hout
      simp [Additions.of, allowPrefixRules, input, output]
    · subst hin
      simp [Additions.of, allowPrefixRules, input, output]
    · simp [Additions.of, allowPrefixRules, Ne.symm hout, Ne.symm hin]

theorem upRules_of_output (e : Endian) (lan : List IPAddress) (ifname : List Byte)
    (fwmark : BitVec 32) (ipv6addr : List Char) :
    (upRules e lan ifname fwmark ipv6addr).of output =
      acceptRules e lan ifname fwmark ++ rejectRules := by
  have hmark : (nftApplyFwMark e fwmark).of output = [] := by
    simp [Additions.of, nftApplyFwMark, conntrack, preroute, output]
  have hisolate : (isolateIpv6Rules e ifname ipv6addr).of output = [] := by
    simp [Additions.of, isolateIpv6Rules, preroute, output]
  simp only [upRules, Additions.of_append, of_allowPrefixRules, hmark, hisolate]
  simp [Additions.of, nftRestrictTraffic, allowDHCPRules, ndpRules, linkLocalNdpRules,
    blockDNSRules, input, output, acceptRules, rejectRules, ndpMessages]

/-- What the accepting rules match, one by one. -/
def acceptedBy (env : Env) (vpn : IfName) (fwmark : BitVec 32) (ns ns6 : NamedSet)
    (lan : List IPAddress) : List (Packet → Prop) :=
  [fun p => ∃ dev, p.oif = some dev ∧ dev.type = arphrdLoopback,
   fun p => p.loadMeta env.endian .oifname = some (nftIfname vpn.bytes),
   fun p => p.l4proto = some ipprotoUdp ∧ ∃ h, p.header = .ipv4 h ∧ toBytes h.daddr ∈ ns.elements,
   fun p => p.l4proto = some ipprotoUdp ∧ ∃ h, p.header = .ipv6 h ∧ toBytes h.daddr ∈ ns6.elements,
   fun p => p.mark = fwmark] ++
  lan.map (fun r p => r.contains (destination p) = true) ++
  [fun p => p.l4proto = some ipprotoUdp ∧ sourcePort p = some dhcpv4ClientPort ∧
    destination p = broadcast ∧ destinationPort p = some dhcpv4ServerPort,
   fun p => p.l4proto = some ipprotoUdp ∧ sourcePort p = some dhcpv4ServerPort ∧
    destinationPort p = some dhcpv4ClientPort] ++
  ndpMessages.map (fun m p => m.2.contains (destination p) = true ∧
    p.l4proto = some ipprotoIcmpv6 ∧ icmpType p = some m.1 ∧ icmpCode p = some 0#8)

section Chain

variable {env : Env} {vpn : IfName} {fwmark : BitVec 32} {ns ns6 : NamedSet}
  {lan : List IPAddress}

theorem plain_ndp : ∀ m ∈ ndpMessages, Plain m.2 := by decide +kernel

theorem plain_lan {T : HostAddressText} (hT : IPAddress.ReadsLan T) :
    ∀ r ∈ IPAddress.lanAddressRanges T, Plain r := by
  have hplain : ∀ e ∈ IPAddress.lanNetworks, Plain e.2.2 := by decide +kernel
  rw [IPAddress.lanAddressRanges_eq hT]
  intro r hr
  obtain ⟨e, he, rfl⟩ := List.mem_map.mp hr
  exact hplain e he

theorem decides_acceptRules (hset : env.sets addrset = some ns) (hkey : ns.keyLength = 4)
    (hset6 : env.sets addrset6 = some ns6) (hkey6 : ns6.keyLength = 16)
    (hlan : ∀ r ∈ lan, Plain r) :
    List.Forall₂ (fun es P => Decides env es P .accept)
      (acceptRules env.endian lan vpn.bytes fwmark) (acceptedBy env vpn fwmark ns ns6 lan) := by
  unfold acceptRules acceptedBy
  refine List.rel_append (List.rel_append (List.rel_append ?_ ?_) ?_) ?_
  · exact .cons (decides_loopback _ rfl) (.cons (decides_oifname _)
      (.cons (decides_endpoint4 hset hkey) (.cons (decides_endpoint6 hset6 hkey6)
        (.cons (decides_mark _ rfl fwmark) .nil))))
  · rw [List.forall₂_map_left_iff, List.forall₂_map_right_iff, List.forall₂_same]
    exact fun r hr => decides_allowPrefix (hlan r hr) .daddr
  · exact .cons decides_dhcpRequest (.cons (decides_udpPorts _ _) .nil)
  · rw [List.forall₂_map_left_iff, List.forall₂_map_right_iff, List.forall₂_same]
    exact fun m hm => decides_ndpRule (plain_ndp m hm) m.1

theorem endpoints_destination {s : State} {tb : Table} (htb : s.ruleset table = some tb)
    (hset : tb.sets addrset = some ns) (hset6 : tb.sets addrset6 = some ns6) (p : Packet) :
    endpoints s (destination p) ↔ (∃ h, p.header = .ipv4 h ∧ toBytes h.daddr ∈ ns.elements) ∨
      ∃ h, p.header = .ipv6 h ∧ toBytes h.daddr ∈ ns6.elements := by
  cases hp : p.header with
  | ipv4 h => simp [destination_of_ipv4 hp, endpoints, htb, Table.elements, hset]
  | ipv6 h => simp [destination_of_ipv6 hp, endpoints, htb, Table.elements, hset6]

theorem permitted_iff {p : Packet} {dev : Interface} (hdev : p.oif = some dev) {s : State}
    {tb : Table} (htb : s.ruleset table = some tb) (hset : tb.sets addrset = some ns)
    (hset6 : tb.sets addrset6 = some ns6) :
    (∃ P ∈ acceptedBy env vpn fwmark ns ns6 lan, P p) ↔
      Permitted vpn fwmark (endpoints s) lan p := by
  have hendpoints := endpoints_destination htb hset hset6 p
  simp only [acceptedBy, List.mem_append, List.mem_cons, List.not_mem_nil, or_false, List.mem_map,
    or_and_right, exists_or, exists_eq_left, exists_exists_and_eq_and, loadMeta_oifname hdev]
  constructor
  · rintro ((((⟨dev, hdev, htype⟩ | hname | ⟨hudp, hdst⟩ | ⟨hudp, hdst⟩ | hmark) | ⟨r, hr, hdst⟩) |
      ⟨hudp, hsrc, hdst, hport⟩ | ⟨hudp, hsrc, hport⟩) | ⟨m, hm, hdst, hproto, htype, hcode⟩)
    · exact .loopback dev hdev htype
    · exact .vpn dev hdev hname
    · exact .endpoint hudp (hendpoints.mpr (.inl hdst))
    · exact .endpoint hudp (hendpoints.mpr (.inr hdst))
    · exact .marked hmark
    · exact .lan r hr hdst
    · exact .dhcpRequest hudp hsrc hdst hport
    · exact .dhcpReply hudp hsrc hport
    · exact .ndp m.1 m.2 hm hdst hproto htype hcode
  · rintro (⟨dev', hdev', htype⟩ | ⟨dev', hdev', hname⟩ | ⟨hudp, hdst⟩ | ⟨hmark⟩ | ⟨r, hr, hdst⟩ |
      ⟨hudp, hsrc, hdst, hport⟩ | ⟨hudp, hsrc, hport⟩ |
      ⟨type, range, hmem, hdst, hproto, htype, hcode⟩)
    · exact .inl (.inl (.inl (.inl ⟨dev', hdev', htype⟩)))
    · obtain rfl : dev = dev' := Option.some.inj (hdev.symm.trans hdev')
      exact .inl (.inl (.inl (.inr (.inl hname))))
    · rcases hendpoints.mp hdst with hdst | hdst
      · exact .inl (.inl (.inl (.inr (.inr (.inl ⟨hudp, hdst⟩)))))
      · exact .inl (.inl (.inl (.inr (.inr (.inr (.inl ⟨hudp, hdst⟩))))))
    · exact .inl (.inl (.inl (.inr (.inr (.inr (.inr hmark))))))
    · exact .inl (.inl (.inr ⟨r, hr, hdst⟩))
    · exact .inl (.inr (.inl ⟨hudp, hsrc, hdst, hport⟩))
    · exact .inl (.inr (.inr ⟨hudp, hsrc, hport⟩))
    · exact .inr ⟨(type, range), hmem, hdst, hproto, htype, hcode⟩

theorem eval_accept_iff {c : Chain} (hpolicy : c.policy = .drop)
    (hexprs : c.exprs = acceptRules env.endian lan vpn.bytes fwmark ++ rejectRules)
    (hset : env.sets addrset = some ns) (hkey : ns.keyLength = 4)
    (hset6 : env.sets addrset6 = some ns6) (hkey6 : ns6.keyLength = 16)
    (hlan : ∀ r ∈ lan, Plain r) (p : Packet) :
    (c.eval env p).2 = .accept ↔ ∃ P ∈ acceptedBy env vpn fwmark ns ns6 lan, P p := by
  have hrules : List.Forall₂ (fun es P => Decides env es P .accept)
      (acceptRules env.endian lan vpn.bytes fwmark) (acceptedBy env vpn fwmark ns ns6 lan) :=
    decides_acceptRules hset hkey hset6 hkey6 hlan
  obtain ⟨hpos, hneg⟩ := evalRules_of_decides hrules rejectRules p
  unfold Chain.eval
  rw [hexprs]
  by_cases h : ∃ P ∈ acceptedBy env vpn fwmark ns ns6 lan, P p
  · rw [hpos h]
    exact iff_of_true rfl h
  · rw [hneg fun P hP hp => h ⟨P, hP, hp⟩]
    refine iff_of_false ?_ h
    have hreject : ∀ es ∈ rejectRules, ∃ P v, v ≠ Verdict.accept ∧ Decides env es P v := by
      intro es hes
      rcases List.mem_pair.mp hes with rfl | rfl
      · exact ⟨_, _, by simp, decides_dnsReject _ _⟩
      · exact ⟨_, _, by simp, decides_dnsReject _ _⟩
    have hne := evalRules_ne_accept hreject p
    cases hv : (evalRules env rejectRules p).2 with
    | none => simp [hv, hpolicy]
    | some v =>
      rw [hv] at hne
      simpa [hv] using hne

end Chain

/-! ## The installed chain -/

/-- The machine that the rules of our table run on. -/
def machine (K : Kernel) (s : State) : Env :=
  ⟨K.endian, fun name => (s.ruleset table).bind fun tb => tb.sets name⟩

/-- The installed chain of that name. -/
def installedChain (s : State) (name : String) : Option Chain :=
  (s.ruleset table).bind fun tb => tb.chains.find? fun c => c.name = name

section Running

variable {K : Kernel} {T : HostAddressText} {rules : Additions} {s s₁ : State}

/-- The chains after `up`: the two that packets cross before the output chain, and that one. -/
theorem chains_of_running (h : Running rules s) :
    ∃ tb mark track out, s.ruleset table = some tb ∧
      tb.hookChains .output = [mark, track, out] ∧ installedChain s output = some out ∧
      (mark.exprs = rules.of cgroupMark ∧ mark.policy = .accept) ∧
      (track.exprs = rules.of conntrack ∧ track.policy = .accept) ∧
      out.exprs = rules.of output ∧ out.policy = .drop := by
  obtain ⟨sets, ⟨-, tb, htb, hgrown, -⟩, -⟩ := h
  simp only [Netfilter.chains, List.forall₂_cons_left_iff, List.forall₂_nil_left_iff] at hgrown
  obtain ⟨c₁, _, h₁, ⟨c₂, _, h₂, ⟨c₃, _, h₃, ⟨c₄, _, h₄, ⟨c₅, _, h₅, ⟨c₆, _, h₆, rfl, rfl⟩, rfl⟩,
    rfl⟩, rfl⟩, rfl⟩, hchains⟩ := hgrown
  refine ⟨tb, c₁, c₃, c₆, htb, ?_, ?_, ⟨h₁.exprs, h₁.policy⟩, ⟨h₃.exprs, h₃.policy⟩, h₆.exprs,
    h₆.policy⟩
  · simp [Table.hookChains, hchains, h₁.hook, h₂.hook, h₃.hook, h₄.hook, h₅.hook, h₆.hook,
      h₁.priority, h₃.priority, h₆.priority]
  · simp [installedChain, htb, hchains, h₁.name, h₂.name, h₃.name, h₄.name, h₅.name, h₆.name,
      cgroupMark, cgroupNat, conntrack, preroute, input, output]

/-- A chain with the output rules of `up` accepts the permitted packets. -/
theorem accept_iff_permitted (hT : IPAddress.ReadsLan T) {ifname : List Byte} {addr : List Char}
    {fwmark : BitVec 32} {vpn : IfName} (hvpn : ifname = vpn.bytes)
    (h : Running (upRules K.endian (IPAddress.lanAddressRanges T) ifname fwmark addr) s)
    {c : Chain}
    (hexprs : c.exprs =
      (upRules K.endian (IPAddress.lanAddressRanges T) ifname fwmark addr).of output)
    (hpolicy : c.policy = .drop) {p : Packet} {dev : Interface} (hdev : p.oif = some dev) :
    (c.eval (machine K s) p).2 = .accept ↔
      Permitted vpn fwmark (endpoints s) (IPAddress.lanAddressRanges T) p := by
  obtain ⟨-, ⟨-, tb, htb, -, rfl⟩, hset, hset6⟩ := h
  obtain ⟨ns, hns, hkey⟩ := Option.map_eq_some_iff.mp hset
  obtain ⟨ns6, hns6, hkey6⟩ := Option.map_eq_some_iff.mp hset6
  have hsets : (machine K s).sets addrset = some ns := by simp [machine, htb, hns]
  have hsets6 : (machine K s).sets addrset6 = some ns6 := by simp [machine, htb, hns6]
  have hrules : c.exprs = acceptRules (machine K s).endian (IPAddress.lanAddressRanges T)
      vpn.bytes fwmark ++ rejectRules := by
    rw [hexprs, upRules_of_output, hvpn]
    rfl
  exact (eval_accept_iff hpolicy hrules hsets hkey hsets6 hkey6 (plain_lan hT) p).trans
    (permitted_iff hdev htb hns hns6)

/-- **The kill switch.** Once `up` has returned true, and after any later history of marking and
clearing servers, the installed output chain accepts a packet exactly when it is permitted; every
other packet is dropped or rejected. -/
theorem output_accepts_iff (hT : IPAddress.ReadsLan T) (hs : Fresh s) {ifname addr : List Char}
    {fwmark : BitVec 32} {vpn : IfName} (hvpn : toLocal8Bit ifname = vpn.bytes)
    (hup : exec (up K T ifname fwmark addr) s = (.ok true, s₁)) (calls : List InboundCall)
    {p : Packet} {dev : Interface} (hdev : p.oif = some dev) :
    let s₂ := calls.foldl (inboundStep K) s₁
    ∃ c, installedChain s₂ output = some c ∧
      ((c.eval (machine K s₂) p).2 = .accept ↔
        Permitted vpn fwmark (endpoints s₂) (IPAddress.lanAddressRanges T) p) ∧
      (¬Permitted vpn fwmark (endpoints s₂) (IPAddress.lanAddressRanges T) p →
        (c.eval (machine K s₂) p).2 = .drop ∨
          ∃ type, (c.eval (machine K s₂) p).2 = .reject type) := by
  intro s₂
  have hrunning := running_inbound (K := K) (running_of_up hT hs hup) calls
  obtain ⟨-, -, -, c, -, -, hc, -, -, hexprs, hpolicy⟩ := chains_of_running hrunning
  have haccept := accept_iff_permitted hT hvpn hrunning hexprs hpolicy hdev
  refine ⟨c, hc, haccept, fun hnot => ?_⟩
  cases hv : (c.eval (machine K s₂) p).2 with
  | accept => exact absurd (haccept.mp hv) hnot
  | drop => exact .inl rfl
  | reject type => exact .inr ⟨type, rfl⟩

/-! ## The output hook -/

/-- The connection's mark does not matter to what is permitted. -/
theorem Permitted.withCtMark {vpn : IfName} {fwmark : BitVec 32} {E : QHostAddress → Prop}
    {lan : List IPAddress} {p : Packet} (h : Permitted vpn fwmark E lan p) (mark : BitVec 32) :
    Permitted vpn fwmark E lan { p with ctMark := mark } := by
  cases h with
  | loopback dev hdev htype => exact .loopback dev hdev htype
  | vpn dev hdev hname => exact .vpn dev hdev hname
  | endpoint hudp hdst => exact .endpoint hudp hdst
  | marked hmark => exact .marked hmark
  | lan range hrange hdst => exact .lan range hrange hdst
  | dhcpRequest hudp hsrc hdst hport => exact .dhcpRequest hudp hsrc hdst hport
  | dhcpReply hudp hsrc hport => exact .dhcpReply hudp hsrc hport
  | ndp type range hmem hdst hproto htype hcode =>
    exact .ndp type range hmem hdst hproto htype hcode

theorem permitted_withCtMark_iff {vpn : IfName} {fwmark : BitVec 32} {E : QHostAddress → Prop}
    {lan : List IPAddress} {p : Packet} (mark : BitVec 32) :
    Permitted vpn fwmark E lan { p with ctMark := mark } ↔ Permitted vpn fwmark E lan p :=
  ⟨fun h => h.withCtMark p.ctMark, fun h => h.withCtMark mark⟩

/-- The conntrack chain may mark the connection, and decides nothing. -/
theorem evalRules_conntrack (env : Env) (fwmark : BitVec 32) (p : Packet) :
    ∃ mark, evalRules env [[.loadMeta .mark 1, .cmp .eq 1 (env.endian.bytes fwmark),
      .immediate 1 (env.endian.bytes ctmarkExcluded), .setCtMark 1]] p =
        ({ p with ctMark := mark }, none) := by
  have hlen : (env.endian.bytes p.mark).length = (env.endian.bytes fwmark).length := by simp
  have hload : ∀ m : Machine, m.packet = p →
      Expr.eval env m (.loadMeta .mark 1) = m.load 1 (some (env.endian.bytes p.mark)) := by
    rintro m rfl
    rfl
  rw [evalRules, run_load (hload _ rfl), run_cmp_store hlen]
  by_cases h : env.endian.bytes p.mark = env.endian.bytes fwmark
  · rw [if_pos h]
    exact ⟨_, rfl⟩
  · rw [if_neg h]
    exact ⟨p.ctMark, rfl⟩

theorem upRules_of_cgroupMark (e : Endian) (lan : List IPAddress) (ifname : List Byte)
    (fwmark : BitVec 32) (ipv6addr : List Char) :
    (upRules e lan ifname fwmark ipv6addr).of cgroupMark = [] := by
  simp only [upRules, Additions.of_append, of_allowPrefixRules]
  simp [Additions.of, nftApplyFwMark, nftRestrictTraffic, isolateIpv6Rules, allowDHCPRules,
    ndpRules, linkLocalNdpRules, blockDNSRules, input, output, conntrack, preroute, cgroupMark]

theorem upRules_of_conntrack (e : Endian) (lan : List IPAddress) (ifname : List Byte)
    (fwmark : BitVec 32) (ipv6addr : List Char) :
    (upRules e lan ifname fwmark ipv6addr).of conntrack =
      [[.loadMeta .mark 1, .cmp .eq 1 (e.bytes fwmark),
        .immediate 1 (e.bytes ctmarkExcluded), .setCtMark 1]] := by
  simp only [upRules, Additions.of_append, of_allowPrefixRules]
  simp [Additions.of, nftApplyFwMark, nftRestrictTraffic, isolateIpv6Rules, allowDHCPRules,
    ndpRules, linkLocalNdpRules, blockDNSRules, input, output, conntrack, preroute]

/-- **The output hook.** The chains before the output chain let every packet through, so the hook
as a whole accepts the permitted packets. -/
theorem hook_accepts_iff (hT : IPAddress.ReadsLan T) (hs : Fresh s) {ifname addr : List Char}
    {fwmark : BitVec 32} {vpn : IfName} (hvpn : toLocal8Bit ifname = vpn.bytes)
    (hup : exec (up K T ifname fwmark addr) s = (.ok true, s₁)) (calls : List InboundCall)
    {p : Packet} {dev : Interface} (hdev : p.oif = some dev) :
    let s₂ := calls.foldl (inboundStep K) s₁
    ∃ tb, s₂.ruleset table = some tb ∧
      ((Nft.traverse (machine K s₂) (tb.hookChains .output) p).2 = .accept ↔
        Permitted vpn fwmark (endpoints s₂) (IPAddress.lanAddressRanges T) p) := by
  intro s₂
  have hrunning := running_inbound (K := K) (running_of_up hT hs hup) calls
  obtain ⟨tb, mark, track, out, htb, hhook, -, ⟨hmark, hmark'⟩, ⟨htrack, htrack'⟩, hout, hout'⟩ :=
    chains_of_running hrunning
  rw [upRules_of_cgroupMark] at hmark
  rw [upRules_of_conntrack] at htrack
  obtain ⟨m, hm⟩ := evalRules_conntrack (machine K s₂) fwmark p
  have heval₁ : mark.eval (machine K s₂) p = (p, .accept) := by
    rw [Chain.eval, hmark, hmark']
    rfl
  have heval₂ : track.eval (machine K s₂) p = ({ p with ctMark := m }, .accept) := by
    rw [Chain.eval, htrack, htrack', show K.endian = (machine K s₂).endian from rfl, hm]
    rfl
  have hdev' : ({ p with ctMark := m } : Packet).oif = some dev := hdev
  have haccept := accept_iff_permitted hT hvpn hrunning hout hout' hdev'
  refine ⟨tb, htb, ?_⟩
  rw [← permitted_withCtMark_iff m, ← haccept, hhook]
  simp only [Nft.traverse, heval₁, heval₂]
  rcases out.eval (machine K s₂) { p with ctMark := m } with ⟨p', v⟩
  cases v with
  | accept => rfl
  | drop => rfl
  | reject type => rfl

/-! ### An instance -/

def moz0 : IfName := ⟨toLocal8Bit "moz0".toList, by decide, by decide⟩

def eth0 : Interface := ⟨⟨toLocal8Bit "eth0".toList, by decide, by decide⟩, 1#16⟩

/-- A TCP segment to 10.0.0.1 by another interface. -/
def lanSegment : Packet where
  iif := none
  oif := some eth0
  mark := 0#32
  ctMark := 0#32
  saddrType := 2#32
  header := .ipv4 ⟨0x45#8, 0#8, 40#16, 0#16, 0#16, 64#8, ipprotoTcp, 0#16, 0x0a000002#32,
    0x0a000001#32, []⟩
  body := List.replicate 20 0#8

theorem output_accepts_lanSegment :
    ∃ s₁, exec (up willing lanText "moz0".toList 0xca6c#32 "fd00::2/128".toList) quiet =
        (.ok true, s₁) ∧
      let s₂ := [InboundCall.mark "192.0.2.1".toList].foldl (inboundStep willing) s₁
      ∃ c, installedChain s₂ output = some c ∧
        (c.eval (machine willing s₂) lanSegment).2 = .accept := by
  have hvpn : toLocal8Bit "moz0".toList = moz0.bytes := rfl
  have hdev : lanSegment.oif = some eth0 := rfl
  obtain ⟨s₁, hup⟩ := exists_up_quiet
  obtain ⟨c, hc, haccept, -⟩ := output_accepts_iff readsLan_lanText fresh_quiet hvpn hup
    [InboundCall.mark "192.0.2.1".toList] hdev
  refine ⟨s₁, hup, c, hc, haccept.mpr (.lan ⟨.ipv4 0x0a000000#32, 8⟩ ?_ ?_)⟩
  · rw [IPAddress.lanAddressRanges_eq readsLan_lanText]
    exact List.mem_map.mpr ⟨_, List.mem_cons_self, rfl⟩
  · decide

/-! ## DNS -/

/-- A packet to a DNS server outside of the tunnel: no other rule than the ones for local networks
has a reason to let it out. -/
structure StrayDns (vpn : IfName) (fwmark : BitVec 32) (endpoints : QHostAddress → Prop)
    (p : Packet) : Prop where
  proto : p.l4proto = some ipprotoUdp ∨ p.l4proto = some ipprotoTcp
  port : destinationPort p = some dnsPort
  notLoopback : ∀ dev, p.oif = some dev → dev.type ≠ arphrdLoopback
  notVpn : ∀ dev, p.oif = some dev → dev.name ≠ vpn
  unmarked : p.mark ≠ fwmark
  elsewhere : ¬endpoints (destination p)

/-- Such a packet is permitted when it goes to a local network, and for no other reason. -/
theorem StrayDns.permitted_iff {vpn : IfName} {fwmark : BitVec 32} {E : QHostAddress → Prop}
    {lan : List IPAddress} {p : Packet} (h : StrayDns vpn fwmark E p) :
    Permitted vpn fwmark E lan p ↔ ∃ range ∈ lan, range.contains (destination p) = true := by
  constructor
  · intro hp
    cases hp with
    | loopback dev hdev htype => exact absurd htype (h.notLoopback dev hdev)
    | vpn dev hdev hname => exact absurd hname (h.notVpn dev hdev)
    | endpoint hudp hdst => exact absurd hdst h.elsewhere
    | marked hmark => exact absurd hmark h.unmarked
    | lan range hrange hdst => exact ⟨range, hrange, hdst⟩
    | dhcpRequest hudp hsrc hdst hport =>
      rw [h.port] at hport
      exact absurd hport (by decide)
    | dhcpReply hudp hsrc hport =>
      rw [h.port] at hport
      exact absurd hport (by decide)
    | ndp type range hmem hdst hproto htype hcode =>
      rcases h.proto with hp | hp
      · rw [hp] at hproto
        exact absurd hproto (by decide)
      · rw [hp] at hproto
        exact absurd hproto (by decide)
  · rintro ⟨range, hrange, hdst⟩
    exact .lan range hrange hdst

/-- **DNS outside of the tunnel.** The rules that accept the local networks come before the rules
that reject DNS, so the output hook holds a stray DNS packet back exactly when it does not go to one
of these networks. -/
theorem hook_blocks_dns_iff (hT : IPAddress.ReadsLan T) (hs : Fresh s) {ifname addr : List Char}
    {fwmark : BitVec 32} {vpn : IfName} (hvpn : toLocal8Bit ifname = vpn.bytes)
    (hup : exec (up K T ifname fwmark addr) s = (.ok true, s₁)) (calls : List InboundCall)
    {p : Packet} {dev : Interface} (hdev : p.oif = some dev)
    (hdns : StrayDns vpn fwmark (endpoints (calls.foldl (inboundStep K) s₁)) p) :
    let s₂ := calls.foldl (inboundStep K) s₁
    ∃ tb, s₂.ruleset table = some tb ∧
      ((Nft.traverse (machine K s₂) (tb.hookChains .output) p).2 ≠ .accept ↔
        ∀ range ∈ IPAddress.lanAddressRanges T, range.contains (destination p) = false) := by
  intro s₂
  obtain ⟨tb, htb, haccept⟩ := hook_accepts_iff hT hs hvpn hup calls hdev
  refine ⟨tb, htb, ?_⟩
  rw [ne_eq, haccept, hdns.permitted_iff]
  push Not
  simp only [ne_eq, Bool.not_eq_true]

/-- A DNS query over UDP by another interface. -/
def dnsQuery (server : BitVec 32) : Packet where
  iif := none
  oif := some eth0
  mark := 0#32
  ctMark := 0#32
  saddrType := 2#32
  header := .ipv4 ⟨0x45#8, 0#8, 40#16, 0#16, 0#16, 64#8, ipprotoUdp, 0#16, 0x0a000002#32,
    server, []⟩
  body := [0x9c#8, 0x40#8, 0#8, 53#8] ++ List.replicate 16 0#8

theorem strayDns_dnsQuery {E : QHostAddress → Prop} {server : BitVec 32}
    (hserver : ¬E (.ipv4 server)) : StrayDns moz0 0xca6c#32 E (dnsQuery server) where
  proto := .inl rfl
  port := by
    have htransport : (dnsQuery server).transport = some (dnsQuery server).body := by
      simp [Packet.transport, Packet.l4proto, Packet.fragmentOffset, dnsQuery]
    rw [destinationPort, htransport]
    rfl
  notLoopback := by
    rintro dev ⟨⟩
    decide
  notVpn := by
    rintro dev ⟨⟩
    decide
  unmarked := by simp [dnsQuery]
  elsewhere := hserver

/-- A query to a public server is held back. -/
theorem hook_blocks_dnsQuery :
    ∃ s₁, exec (up willing lanText "moz0".toList 0xca6c#32 "fd00::2/128".toList) quiet =
        (.ok true, s₁) ∧
      ∃ tb, s₁.ruleset table = some tb ∧
        (Nft.traverse (machine willing s₁) (tb.hookChains .output) (dnsQuery 0x08080808#32)).2 ≠
          .accept := by
  have hvpn : toLocal8Bit "moz0".toList = moz0.bytes := rfl
  have hdev : (dnsQuery 0x08080808#32).oif = some eth0 := rfl
  obtain ⟨s₁, hup⟩ := exists_up_quiet
  have hdns : StrayDns moz0 0xca6c#32 (endpoints s₁) (dnsQuery 0x08080808#32) :=
    strayDns_dnsQuery (not_endpoints_of_up readsLan_lanText fresh_quiet hup _)
  obtain ⟨tb, htb, hblocks⟩ :=
    hook_blocks_dns_iff readsLan_lanText fresh_quiet hvpn hup [] hdev hdns
  refine ⟨s₁, hup, tb, htb, hblocks.mpr ?_⟩
  rw [IPAddress.lanAddressRanges_eq readsLan_lanText]
  decide +kernel

/-- A query to a server in the local network leaves. -/
theorem hook_accepts_lan_dnsQuery :
    ∃ s₁, exec (up willing lanText "moz0".toList 0xca6c#32 "fd00::2/128".toList) quiet =
        (.ok true, s₁) ∧
      StrayDns moz0 0xca6c#32 (endpoints s₁) (dnsQuery 0x0a000001#32) ∧
      ∃ tb, s₁.ruleset table = some tb ∧
        (Nft.traverse (machine willing s₁) (tb.hookChains .output) (dnsQuery 0x0a000001#32)).2 =
          .accept := by
  have hvpn : toLocal8Bit "moz0".toList = moz0.bytes := rfl
  have hdev : (dnsQuery 0x0a000001#32).oif = some eth0 := rfl
  obtain ⟨s₁, hup⟩ := exists_up_quiet
  have hdns : StrayDns moz0 0xca6c#32 (endpoints s₁) (dnsQuery 0x0a000001#32) :=
    strayDns_dnsQuery (not_endpoints_of_up readsLan_lanText fresh_quiet hup _)
  obtain ⟨tb, htb, haccept⟩ := hook_accepts_iff readsLan_lanText fresh_quiet hvpn hup [] hdev
  refine ⟨s₁, hup, hdns, tb, htb, haccept.mpr (hdns.permitted_iff.mpr ?_)⟩
  rw [IPAddress.lanAddressRanges_eq readsLan_lanText]
  exact ⟨⟨.ipv4 0x0a000000#32, 8⟩, List.mem_map.mpr ⟨_, List.mem_cons_self, rfl⟩, by decide⟩

end Running

end WgDesktop.KillSwitch
