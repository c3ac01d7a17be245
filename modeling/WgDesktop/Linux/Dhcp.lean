import WgDesktop.Linux.KillSwitch

/-!
# DHCP through the firewall

`NetfilterAllowDHCP` lets the requests of a client out, and is meant to let the replies of a server
in. The second of its input rules has the ports of the first, so no reply is accepted for its ports:
`dhcp_reply_accepted_iff` lists the other reasons for which one still is.
-/

namespace WgDesktop.KillSwitch

open Bytes Nft GoNet Netfilter LinuxFirewall Runs

/-! ## The exchange -/

/-- A client asks for a lease. -/
structure DhcpRequest (p : Packet) : Prop where
  udp : p.l4proto = some ipprotoUdp
  sourcePort : sourcePort p = some dhcpv4ClientPort
  destination : destination p = broadcast
  destinationPort : destinationPort p = some dhcpv4ServerPort

/-- The server at this address answers, to the client or to everyone. -/
structure DhcpReply (client server : QHostAddress) (p : Packet) : Prop where
  udp : p.l4proto = some ipprotoUdp
  source : source p = server
  sourcePort : sourcePort p = some dhcpv4ServerPort
  destination : destination p = client ∨ destination p = broadcast
  destinationPort : destinationPort p = some dhcpv4ClientPort

/-- The packets that are let in for where they come from. -/
inductive LetIn (vpn : IfName) (fwmark : BitVec 32) (endpoints : QHostAddress → Prop)
    (lan : List IPAddress) (p : Packet) : Prop where
  | loopback (dev : Interface) (hdev : p.iif = some dev) (htype : dev.type = arphrdLoopback)
  | vpn (dev : Interface) (hdev : p.iif = some dev) (hname : dev.name = vpn)
  | endpoint (hudp : p.l4proto = some ipprotoUdp) (hsrc : endpoints (source p))
  | marked (hmark : p.mark = fwmark)
  | lan (range : IPAddress) (hrange : range ∈ lan) (hsrc : range.contains (source p) = true)

/-! ## The input chain -/

/-- The neighbour discovery messages that may come in. -/
def ndpReplies : List Byte := [134#8, 135#8, 136#8, 137#8]

/-- The rules of the input chain, in their order. -/
def inputRules (e : Endian) (lan : List IPAddress) (ifname : List Byte) (fwmark : BitVec 32) :
    List (List Expr) :=
  [[.loadMeta .iiftype 1, .cmp .eq 1 (e.bytes arphrdLoopback), .verdict .accept],
   [.loadMeta .iifname 1, .cmp .eq 1 (nftIfname ifname), .verdict .accept],
   [.loadMeta .protocol 1, .cmp .eq 1 (toBytes ethPIp),
    .loadMeta .l4proto 1, .cmp .eq 1 [ipprotoUdp],
    .payload 1 .networkHeader 12 4, .lookup 1 addrset, .verdict .accept],
   [.loadMeta .protocol 1, .cmp .eq 1 (toBytes ethPIpv6),
    .loadMeta .l4proto 1, .cmp .eq 1 [ipprotoUdp],
    .payload 1 .networkHeader 8 16, .lookup 1 addrset6, .verdict .accept],
   [.loadMeta .mark 1, .cmp .eq 1 (e.bytes fwmark), .verdict .accept]] ++
  lan.map (fun r => buildIpNetExpr (ipNet r) .saddr) ++
  [dhcpRequestRule, udpPortsRule dhcpv4ClientPort dhcpv4ServerPort] ++
  ndpReplies.map fun type => ndpRule (ipNet linkLocal) type

theorem upRules_of_input (e : Endian) (lan : List IPAddress) (ifname : List Byte)
    (fwmark : BitVec 32) (ipv6addr : List Char) :
    (upRules e lan ifname fwmark ipv6addr).of input = inputRules e lan ifname fwmark := by
  have hmark : (nftApplyFwMark e fwmark).of input = [] := by
    simp [Additions.of, nftApplyFwMark, conntrack, preroute, input]
  have hisolate : (isolateIpv6Rules e ifname ipv6addr).of input = [] := by
    simp [Additions.of, isolateIpv6Rules, preroute, input]
  simp only [upRules, Additions.of_append, of_allowPrefixRules, hmark, hisolate]
  simp [Additions.of, nftRestrictTraffic, allowDHCPRules, ndpRules, linkLocalNdpRules,
    blockDNSRules, input, output, inputRules, ndpReplies]

/-- What the rules match, one by one. -/
def letInBy (env : Env) (vpn : IfName) (fwmark : BitVec 32) (ns ns6 : NamedSet)
    (lan : List IPAddress) : List (Packet → Prop) :=
  [fun p => p.loadMeta env.endian .iiftype = some (env.endian.bytes arphrdLoopback),
   fun p => p.loadMeta env.endian .iifname = some (nftIfname vpn.bytes),
   fun p => p.l4proto = some ipprotoUdp ∧ ∃ a, source p = .ipv4 a ∧ toBytes a ∈ ns.elements,
   fun p => p.l4proto = some ipprotoUdp ∧ ∃ a, source p = .ipv6 a [] ∧ toBytes a ∈ ns6.elements,
   fun p => p.mark = fwmark] ++
  lan.map (fun r p => r.contains (source p) = true) ++
  [fun p => p.l4proto = some ipprotoUdp ∧ sourcePort p = some dhcpv4ClientPort ∧
    destination p = broadcast ∧ destinationPort p = some dhcpv4ServerPort,
   fun p => p.l4proto = some ipprotoUdp ∧ sourcePort p = some dhcpv4ClientPort ∧
    destinationPort p = some dhcpv4ServerPort] ++
  ndpReplies.map fun type p => linkLocal.contains (destination p) = true ∧
    p.l4proto = some ipprotoIcmpv6 ∧ icmpType p = some type ∧ icmpCode p = some 0#8

section Chain

variable {env : Env} {vpn : IfName} {fwmark : BitVec 32} {ns ns6 : NamedSet}
  {lan : List IPAddress}

theorem decides_inputRules (hset : env.sets addrset = some ns) (hkey : ns.keyLength = 4)
    (hset6 : env.sets addrset6 = some ns6) (hkey6 : ns6.keyLength = 16)
    (hlan : ∀ r ∈ lan, Plain r) :
    List.Forall₂ (fun es P => Decides env es P .accept)
      (inputRules env.endian lan vpn.bytes fwmark) (letInBy env vpn fwmark ns ns6 lan) := by
  have hndp : Plain linkLocal := by decide +kernel
  unfold inputRules letInBy
  refine List.rel_append (List.rel_append (List.rel_append ?_ ?_) ?_) ?_
  · exact .cons (decides_meta (Endian.length_bytes _ _)) (.cons (decides_meta (length_nftIfname _))
      (.cons (decides_addrset hset hkey .saddr) (.cons (decides_addrset6 hset6 hkey6 .saddr)
        (.cons (decides_mark _ rfl fwmark) .nil))))
  · rw [List.forall₂_map_left_iff, List.forall₂_map_right_iff, List.forall₂_same]
    exact fun r hr => decides_allowPrefix (hlan r hr) .saddr
  · exact .cons decides_dhcpRequest (.cons (decides_udpPorts _ _) .nil)
  · rw [List.forall₂_map_left_iff, List.forall₂_map_right_iff, List.forall₂_same]
    exact fun type _ => decides_ndpRule hndp type

theorem loadMeta_iiftype {e : Endian} {p : Packet} {type : BitVec 16} :
    p.loadMeta e .iiftype = some (e.bytes type) ↔ ∃ dev, p.iif = some dev ∧ dev.type = type := by
  simp [Packet.loadMeta, e.bytes_inj (w := 16) ⟨2, rfl⟩]

theorem loadMeta_iifname {e : Endian} {p : Packet} {dev : Interface} {vpn : IfName}
    (hdev : p.iif = some dev) :
    p.loadMeta e .iifname = some (nftIfname vpn.bytes) ↔ dev.name = vpn := by
  simp [Packet.loadMeta, hdev, nftIfname_eq_padName, padName_inj]

theorem endpoints_source {s : State} {tb : Table} (htb : s.ruleset table = some tb)
    (hset : tb.sets addrset = some ns) (hset6 : tb.sets addrset6 = some ns6) (p : Packet) :
    endpoints s (source p) ↔ (∃ a, source p = .ipv4 a ∧ toBytes a ∈ ns.elements) ∨
      ∃ a, source p = .ipv6 a [] ∧ toBytes a ∈ ns6.elements := by
  cases hp : p.header with
  | ipv4 h => simp [source, hp, endpoints, htb, Table.elements, hset]
  | ipv6 h => simp [source, hp, endpoints, htb, Table.elements, hset6]

/-- A reply is matched by none of the rules but those for where it comes from. -/
theorem letInBy_reply_iff {client server : QHostAddress} {p : Packet} {dev : Interface}
    (hdev : p.iif = some dev) (hp : DhcpReply client server p) {s : State} {tb : Table}
    (htb : s.ruleset table = some tb) (hset : tb.sets addrset = some ns)
    (hset6 : tb.sets addrset6 = some ns6) :
    (∃ P ∈ letInBy env vpn fwmark ns ns6 lan, P p) ↔ LetIn vpn fwmark (endpoints s) lan p := by
  have hendpoints := endpoints_source htb hset hset6 p
  have hports : sourcePort p ≠ some dhcpv4ClientPort := by
    rw [hp.sourcePort]
    decide
  have hproto : p.l4proto ≠ some ipprotoIcmpv6 := by
    rw [hp.udp]
    decide
  simp only [letInBy, List.mem_append, List.mem_cons, List.not_mem_nil, or_false, List.mem_map,
    or_and_right, exists_or, exists_eq_left, exists_exists_and_eq_and, loadMeta_iifname hdev,
    loadMeta_iiftype]
  constructor
  · rintro ((((⟨dev', hdev', htype⟩ | hname | ⟨hudp, hsrc⟩ | ⟨hudp, hsrc⟩ | hmark) |
      ⟨r, hr, hsrc⟩) | ⟨-, hport, -⟩ | ⟨-, hport, -⟩) | ⟨type, -, -, hicmp, -⟩)
    · exact .loopback dev' hdev' htype
    · exact .vpn dev hdev hname
    · exact .endpoint hudp (hendpoints.mpr (.inl hsrc))
    · exact .endpoint hudp (hendpoints.mpr (.inr hsrc))
    · exact .marked hmark
    · exact .lan r hr hsrc
    · exact absurd hport hports
    · exact absurd hport hports
    · exact absurd hicmp hproto
  · rintro (⟨dev', hdev', htype⟩ | ⟨dev', hdev', hname⟩ | ⟨hudp, hsrc⟩ | ⟨hmark⟩ | ⟨r, hr, hsrc⟩)
    · exact .inl (.inl (.inl (.inl ⟨dev', hdev', htype⟩)))
    · obtain rfl : dev = dev' := Option.some.inj (hdev.symm.trans hdev')
      exact .inl (.inl (.inl (.inr (.inl hname))))
    · rcases hendpoints.mp hsrc with hsrc | hsrc
      · exact .inl (.inl (.inl (.inr (.inr (.inl ⟨hudp, hsrc⟩)))))
      · exact .inl (.inl (.inl (.inr (.inr (.inr (.inl ⟨hudp, hsrc⟩))))))
    · exact .inl (.inl (.inl (.inr (.inr (.inr (.inr hmark))))))
    · exact .inl (.inl (.inr ⟨r, hr, hsrc⟩))

end Chain

/-! ## Both ways -/

section Running

variable {K : Kernel} {T : HostAddressText} {rules : Additions} {s s₁ : State}

theorem input_of_running (h : Running rules s) :
    ∃ c, installedChain s input = some c ∧ c.exprs = rules.of input ∧ c.policy = .drop := by
  obtain ⟨sets, ⟨-, tb, htb, hgrown, -⟩, -⟩ := h
  simp only [Netfilter.chains, List.forall₂_cons_left_iff, List.forall₂_nil_left_iff] at hgrown
  obtain ⟨c₁, _, h₁, ⟨c₂, _, h₂, ⟨c₃, _, h₃, ⟨c₄, _, h₄, ⟨c₅, _, h₅, ⟨c₆, _, h₆, rfl, rfl⟩, rfl⟩,
    rfl⟩, rfl⟩, rfl⟩, hchains⟩ := hgrown
  refine ⟨c₅, ?_, h₅.exprs, h₅.policy⟩
  simp [installedChain, htb, hchains, h₁.name, h₂.name, h₃.name, h₄.name, h₅.name, cgroupMark,
    cgroupNat, conntrack, preroute, input]

/-- A running firewall lets a DHCP reply in for where it comes from, and not for its ports. -/
theorem reply_accepted_iff (hT : IPAddress.ReadsLan T) {ifname : List Byte} {addr : List Char}
    {fwmark : BitVec 32} {vpn : IfName} (hvpn : ifname = vpn.bytes)
    (h : Running (upRules K.endian (IPAddress.lanAddressRanges T) ifname fwmark addr) s)
    {client server : QHostAddress} {p : Packet} {dev : Interface} (hdev : p.iif = some dev)
    (hp : DhcpReply client server p) :
    ∃ c, installedChain s input = some c ∧ ((c.eval (machine K s) p).2 = .accept ↔
      LetIn vpn fwmark (endpoints s) (IPAddress.lanAddressRanges T) p) := by
  obtain ⟨c, hc, hexprs, hpolicy⟩ := input_of_running h
  obtain ⟨-, ⟨-, tb, htb, -, rfl⟩, hset, hset6⟩ := h
  obtain ⟨ns, hns, hkey⟩ := Option.map_eq_some_iff.mp hset
  obtain ⟨ns6, hns6, hkey6⟩ := Option.map_eq_some_iff.mp hset6
  have hsets : (machine K s).sets addrset = some ns := by simp [machine, htb, hns]
  have hsets6 : (machine K s).sets addrset6 = some ns6 := by simp [machine, htb, hns6]
  have hrules := @decides_inputRules (machine K s) vpn fwmark _ _ _ hsets hkey hsets6 hkey6
    (plain_lan hT)
  obtain ⟨hpos, hneg⟩ := evalRules_of_decides hrules [] p
  refine ⟨c, hc, ?_⟩
  rw [← @letInBy_reply_iff (machine K s) _ _ _ _ _ _ _ _ _ hdev hp _ _ htb hns hns6]
  unfold Chain.eval
  rw [hexprs, upRules_of_input, hvpn, ← List.append_nil (inputRules _ _ _ _)]
  by_cases hin : ∃ P ∈ letInBy (machine K s) vpn fwmark ns ns6 (IPAddress.lanAddressRanges T), P p
  · rw [show K.endian = (machine K s).endian from rfl, hpos hin]
    exact iff_of_true rfl hin
  · rw [show K.endian = (machine K s).endian from rfl, hneg fun P hP hPp => hin ⟨P, hP, hPp⟩]
    refine iff_of_false ?_ hin
    simp [evalRules, hpolicy]

/-- **DHCP both ways.** Once `up` has returned true, and after any later history of marking and
clearing servers, a request for a lease leaves; a reply of a server is accepted exactly when it is
let in for where it comes from. -/
theorem dhcp_reply_accepted_iff (hT : IPAddress.ReadsLan T) (hs : Fresh s) {ifname addr : List Char}
    {fwmark : BitVec 32} {vpn : IfName} (hvpn : toLocal8Bit ifname = vpn.bytes)
    (hup : exec (up K T ifname fwmark addr) s = (.ok true, s₁)) (calls : List InboundCall)
    {request reply : Packet} {outDev dev : Interface} (hout : request.oif = some outDev)
    (hrequest : DhcpRequest request) (hdev : reply.iif = some dev) {server : QHostAddress}
    (hreply : DhcpReply (source request) server reply) :
    let s₂ := calls.foldl (inboundStep K) s₁
    ∃ out inn, installedChain s₂ output = some out ∧ installedChain s₂ input = some inn ∧
      (out.eval (machine K s₂) request).2 = .accept ∧
      ((inn.eval (machine K s₂) reply).2 = .accept ↔
        LetIn vpn fwmark (endpoints s₂) (IPAddress.lanAddressRanges T) reply) := by
  intro s₂
  have hrunning := running_inbound (K := K) (running_of_up hT hs hup) calls
  obtain ⟨-, -, -, out, -, -, hchain, -, -, hexprs, hpolicy⟩ := chains_of_running hrunning
  obtain ⟨inn, hin, haccept⟩ := reply_accepted_iff hT hvpn hrunning hdev hreply
  have hpermitted := accept_iff_permitted hT hvpn hrunning hexprs hpolicy hout
  exact ⟨out, inn, hchain, hin, hpermitted.mpr (.dhcpRequest hrequest.udp hrequest.sourcePort
    hrequest.destination hrequest.destinationPort), haccept⟩

/-! ### An instance -/

/-- A UDP packet with these addresses, ports and devices. -/
def udpPacket (iif oif : Option Interface) (saddr daddr : BitVec 32) (sport dport : BitVec 16) :
    Packet where
  iif := iif
  oif := oif
  mark := 0#32
  ctMark := 0#32
  saddrType := 2#32
  header := .ipv4 ⟨0x45#8, 0#8, 40#16, 0#16, 0#16, 64#8, ipprotoUdp, 0#16, saddr, daddr, []⟩
  body := toBytes sport ++ toBytes dport ++ List.replicate 16 0#8

def leaseRequest : Packet :=
  udpPacket none (some eth0) 0#32 0xffffffff#32 dhcpv4ClientPort dhcpv4ServerPort

def leaseReply (server : BitVec 32) : Packet :=
  udpPacket (some eth0) none server 0xffffffff#32 dhcpv4ServerPort dhcpv4ClientPort

theorem transport_udpPacket (iif oif : Option Interface) (saddr daddr : BitVec 32)
    (sport dport : BitVec 16) : (udpPacket iif oif saddr daddr sport dport).transport =
      some (toBytes sport ++ toBytes dport ++ List.replicate 16 0#8) := by
  simp [Packet.transport, Packet.l4proto, Packet.fragmentOffset, udpPacket]

theorem dhcpRequest_leaseRequest : DhcpRequest leaseRequest where
  udp := rfl
  sourcePort := by
    rw [sourcePort, leaseRequest, transport_udpPacket]
    decide
  destination := rfl
  destinationPort := by
    rw [destinationPort, leaseRequest, transport_udpPacket]
    decide

theorem dhcpReply_leaseReply (client : QHostAddress) (server : BitVec 32) :
    DhcpReply client (.ipv4 server) (leaseReply server) where
  udp := rfl
  source := rfl
  sourcePort := by
    rw [sourcePort, leaseReply, transport_udpPacket]
    decide
  destination := .inr rfl
  destinationPort := by
    rw [destinationPort, leaseReply, transport_udpPacket]
    decide

/-- The lease of a server in the local network comes in. -/
theorem lan_lease_accepted :
    ∃ s₁, exec (up willing lanText "moz0".toList 0xca6c#32 "fd00::2/128".toList) quiet =
        (.ok true, s₁) ∧
      ∃ inn, installedChain s₁ input = some inn ∧
        (inn.eval (machine willing s₁) (leaseReply 0x0a000001#32)).2 = .accept := by
  have hvpn : toLocal8Bit "moz0".toList = moz0.bytes := rfl
  obtain ⟨s₁, hup⟩ := exists_up_quiet
  obtain ⟨-, inn, -, hin, -, haccept⟩ := dhcp_reply_accepted_iff readsLan_lanText fresh_quiet hvpn
    hup [] (show leaseRequest.oif = some eth0 from rfl) dhcpRequest_leaseRequest
    (show (leaseReply 0x0a000001#32).iif = some eth0 from rfl)
    (dhcpReply_leaseReply _ 0x0a000001#32)
  refine ⟨s₁, hup, inn, hin, haccept.mpr (.lan ⟨.ipv4 0x0a000000#32, 8⟩ ?_ ?_)⟩
  · rw [IPAddress.lanAddressRanges_eq readsLan_lanText]
    exact List.mem_map.mpr ⟨_, List.mem_cons_self, rfl⟩
  · decide

/-- The request to a server at 203.0.113.1 leaves, and its reply is dropped. -/
theorem public_lease_dropped :
    ∃ s₁, exec (up willing lanText "moz0".toList 0xca6c#32 "fd00::2/128".toList) quiet =
        (.ok true, s₁) ∧
      DhcpRequest leaseRequest ∧
      DhcpReply (source leaseRequest) (.ipv4 0xcb007101#32) (leaseReply 0xcb007101#32) ∧
      ∃ out inn, installedChain s₁ output = some out ∧ installedChain s₁ input = some inn ∧
        (out.eval (machine willing s₁) leaseRequest).2 = .accept ∧
        (inn.eval (machine willing s₁) (leaseReply 0xcb007101#32)).2 ≠ .accept := by
  have hvpn : toLocal8Bit "moz0".toList = moz0.bytes := rfl
  obtain ⟨s₁, hup⟩ := exists_up_quiet
  have hrunning := running_of_up readsLan_lanText fresh_quiet hup
  have hrequest := dhcpRequest_leaseRequest
  obtain ⟨-, -, -, out, -, -, hchain, -, -, hexprs, hpolicy⟩ := chains_of_running hrunning
  obtain ⟨inn, hin, haccept⟩ := reply_accepted_iff readsLan_lanText hvpn hrunning
    (show (leaseReply 0xcb007101#32).iif = some eth0 from rfl)
    (dhcpReply_leaseReply (source leaseRequest) 0xcb007101#32)
  have hpermitted := accept_iff_permitted readsLan_lanText hvpn hrunning hexprs hpolicy
    (show leaseRequest.oif = some eth0 from rfl)
  refine ⟨s₁, hup, hrequest, dhcpReply_leaseReply _ _, out, inn, hchain, hin,
    hpermitted.mpr (.dhcpRequest hrequest.udp hrequest.sourcePort hrequest.destination
      hrequest.destinationPort), fun haccepted => ?_⟩
  cases haccept.mp haccepted with
  | loopback dev hdev htype =>
    obtain rfl : eth0 = dev := Option.some.inj hdev
    exact absurd htype (by decide)
  | vpn dev hdev hname =>
    obtain rfl : eth0 = dev := Option.some.inj hdev
    exact absurd hname (by decide)
  | endpoint hudp hsrc => exact not_endpoints_of_up readsLan_lanText fresh_quiet hup _ hsrc
  | marked hmark => exact absurd hmark (by decide)
  | lan range hrange hsrc =>
    rw [IPAddress.lanAddressRanges_eq readsLan_lanText] at hrange
    revert hsrc
    revert range
    decide +kernel

end Running

end WgDesktop.KillSwitch
