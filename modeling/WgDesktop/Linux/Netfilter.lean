import WgDesktop.Lib.Ruleset
import WgDesktop.Lib.Runs
import WgDesktop.Linux.GoNet

/-!
# The netfilter bindings

`linux/netfilter/netfilter.go`: the rules that the exported functions assemble, register by
register, and the netlink queue that `nftCommit` sends. The kernel's answers are not ours: it may
refuse any batch, and a batch it takes changes the ruleset as `Ruleset.apply` says.
-/

namespace WgDesktop.Netfilter

open Bytes Nft GoNet

/-! ## The connection -/

/-- The machine and the kernel's decisions, by number of the request. -/
structure Kernel where
  endian : Endian
  lists : ℕ → Bool
  admits : ℕ → Ruleset → List Message → Bool

/-- `mozvpn_ctx` with the messages its connection holds back, the kernel's ruleset and the number
of requests made so far, and `LinuxFirewall::m_isUp`. -/
structure State where
  fwmark : BitVec 32
  pending : List Message
  ruleset : Ruleset
  requests : ℕ
  isUp : Bool

/-- `log.Panic`. -/
inductive Panic where
  | invalidFwmark
  deriving DecidableEq, Repr

abbrev NetfilterM := ExceptT Panic (StateM State)

def queue (msgs : List Message) : NetfilterM Unit :=
  modify fun s => { s with pending := s.pending ++ msgs }

/-- The kernel's answer to the queue as one batch; there is nothing to ask when it is empty. -/
def flush (K : Kernel) (s : State) : Option Ruleset :=
  if s.pending = [] then some s.ruleset
  else if K.admits s.requests s.ruleset s.pending then s.ruleset.applyAll s.pending
  else none

/-- `Flush` empties the queue whatever the answer. -/
def nftCommit (K : Kernel) : NetfilterM ℤ := do
  let s ← get
  modify fun s =>
    { s with
      pending := []
      ruleset := (flush K s).getD s.ruleset
      requests := s.requests + 1 }
  return if (flush K s).isSome then 0 else -1

/-! ## Tables -/

def table : TableName := ⟨.inet, "mozvpn-inet"⟩
def cgroupMark : String := "mozvpn-cgroup-mark"
def cgroupNat : String := "mozvpn-cgroup-nat"
def conntrack : String := "mozvpn-conntrack"
def preroute : String := "mozvpn-preroute"
def input : String := "mozvpn-input"
def output : String := "mozvpn-output"
def addrset : String := "mozvpn-addrset"
def addrset6 : String := "mozvpn-addrset6"

/-- The chains as they are created, with the kernel's default policy where none is given. -/
def chains : List Chain :=
  [⟨cgroupMark, .output, -300, .accept, []⟩,
   ⟨cgroupNat, .postrouting, 100, .accept, []⟩,
   ⟨conntrack, .output, -200 + 1, .accept, []⟩,
   ⟨preroute, .prerouting, -150, .accept, []⟩,
   ⟨input, .input, 0, .drop, []⟩,
   ⟨output, .output, 0, .drop, []⟩]

def netfilterCreateTables (K : Kernel) : NetfilterM ℤ := do
  queue [.newTable table]
  queue (chains.map (.newChain table))
  queue [.newSet table addrset 4]
  queue [.newSet table addrset6 16]
  nftCommit K

/-- Deletes the tables of that name, in whichever family they are. -/
def netfilterRemoveTables (K : Kernel) : NetfilterM ℤ := do
  let s ← get
  modify fun s => { s with requests := s.requests + 1 }
  if K.lists s.requests then
    let tables := TableFamily.all.map fun f => (⟨f, table.name⟩ : TableName)
    queue ((tables.filter fun t => (s.ruleset t).isSome).map .delTable)
    nftCommit K
  else return -1

/-! ## Rules -/

/-- `AddRule`, for each of a list of rules. -/
def addRules (rules : Additions) : NetfilterM Unit := queue (rules.messages table)

def nftIfname (n : List Byte) : List Byte := (n ++ [0#8] ++ List.replicate 16 0#8).take 16

def ctmarkExcluded : BitVec 32 := 0x9e4c#32

/-- `IPPROTO_UDP`, `IPPROTO_TCP`, `IPPROTO_ICMPV6`. -/
def ipprotoUdp : Byte := 17#8
def ipprotoTcp : Byte := 6#8
def ipprotoIcmpv6 : Byte := 58#8

/-- `NFPROTO_IPV4`, `NFPROTO_IPV6`. -/
def nfprotoIpv4 : Byte := 2#8
def nfprotoIpv6 : Byte := 10#8

/-- `ETH_P_IP`, `ETH_P_IPV6`. -/
def ethPIp : BitVec 16 := 0x0800#16
def ethPIpv6 : BitVec 16 := 0x86dd#16

def arphrdLoopback : BitVec 16 := 772#16
def rtnLocal : BitVec 32 := 2#32

/-- Excluded connections are marked on the way out; packets from the servers and of excluded
connections on the way in. -/
def nftApplyFwMark (e : Endian) (fwmark : BitVec 32) : Additions :=
  [(conntrack,
    [.loadMeta .mark 1, .cmp .eq 1 (e.bytes fwmark),
     .immediate 1 (e.bytes ctmarkExcluded), .setCtMark 1]),
   (preroute,
    [.loadMeta .nfproto 1, .cmp .eq 1 [nfprotoIpv4],
     .loadMeta .l4proto 1, .cmp .eq 1 [ipprotoUdp],
     .payload 1 .networkHeader 12 4, .lookup 1 addrset,
     .immediate 1 (e.bytes fwmark), .setMark 1]),
   (preroute,
    [.loadMeta .nfproto 1, .cmp .eq 1 [nfprotoIpv6],
     .loadMeta .l4proto 1, .cmp .eq 1 [ipprotoUdp],
     .payload 1 .networkHeader 8 16, .lookup 1 addrset6,
     .immediate 1 (e.bytes fwmark), .setMark 1]),
   (preroute,
    [.loadCtMark 1, .cmp .eq 1 (e.bytes ctmarkExcluded),
     .immediate 1 (e.bytes fwmark), .setMark 1])]

/-- Loopback, the VPN interface, the VPN servers and marked packets pass, both ways. -/
def nftRestrictTraffic (e : Endian) (fwmark : BitVec 32) (ifname : List Byte) : Additions :=
  [(input,
    [.loadMeta .iiftype 1, .cmp .eq 1 (e.bytes arphrdLoopback), .verdict .accept]),
   (input,
    [.loadMeta .iifname 1, .cmp .eq 1 (nftIfname ifname), .verdict .accept]),
   (input,
    [.loadMeta .protocol 1, .cmp .eq 1 (toBytes ethPIp),
     .loadMeta .l4proto 1, .cmp .eq 1 [ipprotoUdp],
     .payload 1 .networkHeader 12 4, .lookup 1 addrset, .verdict .accept]),
   (input,
    [.loadMeta .protocol 1, .cmp .eq 1 (toBytes ethPIpv6),
     .loadMeta .l4proto 1, .cmp .eq 1 [ipprotoUdp],
     .payload 1 .networkHeader 8 16, .lookup 1 addrset6, .verdict .accept]),
   (input,
    [.loadMeta .mark 1, .cmp .eq 1 (e.bytes fwmark), .verdict .accept]),
   (output,
    [.loadMeta .oiftype 1, .cmp .eq 1 (e.bytes arphrdLoopback), .verdict .accept]),
   (output,
    [.loadMeta .oifname 1, .cmp .eq 1 (nftIfname ifname), .verdict .accept]),
   (output,
    [.loadMeta .protocol 1, .cmp .eq 1 (toBytes ethPIp),
     .loadMeta .l4proto 1, .cmp .eq 1 [ipprotoUdp],
     .payload 1 .networkHeader 16 4, .lookup 1 addrset, .verdict .accept]),
   (output,
    [.loadMeta .protocol 1, .cmp .eq 1 (toBytes ethPIpv6),
     .loadMeta .l4proto 1, .cmp .eq 1 [ipprotoUdp],
     .payload 1 .networkHeader 24 16, .lookup 1 addrset6, .verdict .accept]),
   (output,
    [.loadMeta .mark 1, .cmp .eq 1 (e.bytes fwmark), .verdict .accept])]

/-- `SADDR`, `DADDR`. -/
inductive AddrType where
  | saddr
  | daddr
  deriving DecidableEq, Repr

def buildIpNetExpr (ipnet : IPNet) (addrtype : AddrType) : List Expr :=
  let ipsize := ipnet.ip.length
  let (offset, iptype, ip) :=
    match to4 ipnet.ip with
    | some ip4 => (match addrtype with | .saddr => 12 | .daddr => 16, [nfprotoIpv4], ip4)
    | none =>
      (match addrtype with | .saddr => 8 | .daddr => 24, [nfprotoIpv6], (to16 ipnet.ip).getD [])
  [.loadMeta .nfproto 1, .cmp .eq 1 iptype,
   .payload 1 .networkHeader offset ipsize,
   .bitwise 1 1 ipsize ipnet.mask (List.replicate ipsize 0#8),
   .cmp .eq 1 ip, .verdict .accept]

def isolateIpv6Rules (e : Endian) (ifname : List Byte) (ipv6addr : List Char) : Additions :=
  [(preroute,
    [.loadMeta .nfproto 1, .cmp .eq 1 [nfprotoIpv6],
     .loadMeta .iifname 1, .cmp .neq 1 (nftIfname ifname),
     .loadSaddrType 1, .cmp .neq 1 (e.bytes rtnLocal),
     .payload 1 .networkHeader 24 16, .cmp .eq 1 (((parseIP ipv6addr).bind to16).getD []),
     .verdict .drop])]

def allowPrefixRules (ipnet : IPNet) : Additions :=
  [(output, buildIpNetExpr ipnet .daddr), (input, buildIpNetExpr ipnet .saddr)]

/-- The ICMPv6 part of a neighbour discovery rule. -/
def icmpv6Exprs (type : Byte) : List Expr :=
  [.loadMeta .l4proto 1, .cmp .eq 1 [ipprotoIcmpv6],
   .payload 1 .transportHeader 0 1, .cmp .eq 1 [type],
   .payload 1 .transportHeader 1 1, .cmp .eq 1 [0#8],
   .verdict .accept]

/-- A neighbour discovery rule: the address part without its verdict, then the ICMPv6 part. -/
def ndpRule (ipnet : IPNet) (type : Byte) : List Expr :=
  (buildIpNetExpr ipnet .daddr).dropLast ++ icmpv6Exprs type

def routerSolicitationOutDstAddr : List Char := "ff02::2/128".toList
def solicitedNodeMulticast : List Char := "ff02::1:ff00:0/104".toList
def ipv6LinkLocal : List Char := "fe80::/10".toList

def linkLocalNdpRules (ipnet : IPNet) : Additions :=
  [(output, ndpRule ipnet 135#8), (output, ndpRule ipnet 136#8),
   (input, ndpRule ipnet 134#8), (input, ndpRule ipnet 135#8), (input, ndpRule ipnet 136#8),
   (input, ndpRule ipnet 137#8)]

def dhcpv4ServerPort : BitVec 16 := 67#16
def dhcpv4ClientPort : BitVec 16 := 68#16
def dnsPort : BitVec 16 := 53#16

/-- `udp sport 68 ip daddr 255.255.255.255 udp dport 67 accept`. -/
def dhcpRequestRule : List Expr :=
  [.loadMeta .l4proto 1, .cmp .eq 1 [ipprotoUdp],
   .payload 1 .transportHeader 0 2, .cmp .eq 1 (toBytes dhcpv4ClientPort),
   .loadMeta .nfproto 1, .cmp .eq 1 [nfprotoIpv4],
   .payload 1 .networkHeader 16 4, .cmp .eq 1 [0xff#8, 0xff#8, 0xff#8, 0xff#8],
   .loadMeta .l4proto 1, .cmp .eq 1 [ipprotoUdp],
   .payload 1 .transportHeader 2 2, .cmp .eq 1 (toBytes dhcpv4ServerPort),
   .verdict .accept]

/-- `udp sport .. udp dport .. accept`. -/
def udpPortsRule (sport dport : BitVec 16) : List Expr :=
  [.loadMeta .l4proto 1, .cmp .eq 1 [ipprotoUdp],
   .payload 1 .transportHeader 0 2, .cmp .eq 1 (toBytes sport),
   .loadMeta .l4proto 1, .cmp .eq 1 [ipprotoUdp],
   .payload 1 .transportHeader 2 2, .cmp .eq 1 (toBytes dport),
   .verdict .accept]

def allowDHCPRules : Additions :=
  [(output, dhcpRequestRule), (output, udpPortsRule dhcpv4ServerPort dhcpv4ClientPort),
   (input, dhcpRequestRule), (input, udpPortsRule dhcpv4ClientPort dhcpv4ServerPort)]

/-- `.. dport 53 reject`. -/
def dnsRejectRule (proto : Byte) (type : RejectType) : List Expr :=
  [.loadMeta .l4proto 1, .cmp .eq 1 [proto],
   .payload 1 .transportHeader 2 2, .cmp .eq 1 (toBytes dnsPort),
   .verdict (.reject type)]

/-- `NFT_REJECT_ICMPX_PORT_UNREACH`. -/
def icmpxPortUnreach : Byte := 1#8

def blockDNSRules : Additions :=
  [(output, dnsRejectRule ipprotoUdp (.icmpxUnreach icmpxPortUnreach)),
   (output, dnsRejectRule ipprotoTcp .tcpRst)]

/-! ## The exported functions -/

def netfilterApplyFwMark (K : Kernel) (fwmark : BitVec 32) : NetfilterM ℤ := do
  modify fun s => { s with fwmark := fwmark }
  if fwmark = 0#32 then throw .invalidFwmark
  addRules (nftApplyFwMark K.endian fwmark)
  nftCommit K

def netfilterRestrictTraffic (K : Kernel) (ifname : List Byte) : NetfilterM ℤ := do
  let s ← get
  addRules (nftRestrictTraffic K.endian s.fwmark ifname)
  nftCommit K

def netfilterIsolateIpv6 (K : Kernel) (ifname : List Byte) (ipv6addr : List Char) :
    NetfilterM ℤ := do
  addRules (isolateIpv6Rules K.endian ifname ipv6addr)
  nftCommit K

def netfilterAllowPrefix (K : Kernel) (cidr : List Char) : NetfilterM ℤ := do
  match parseCIDR cidr with
  | none => return -1
  | some ipnet =>
    addRules (allowPrefixRules ipnet)
    nftCommit K

/-- The rules are queued here and sent by the next commit. -/
def netfilterAllowNDP : NetfilterM ℤ := do
  match parseCIDR routerSolicitationOutDstAddr with
  | none => return -1
  | some ipnet =>
    addRules [(output, ndpRule ipnet 133#8)]
    match parseCIDR solicitedNodeMulticast with
    | none => return -1
    | some ipnet =>
      addRules [(output, ndpRule ipnet 135#8)]
      match parseCIDR ipv6LinkLocal with
      | none => return -1
      | some ipnet =>
        addRules (linkLocalNdpRules ipnet)
        return 0

def netfilterAllowDHCP (K : Kernel) : NetfilterM ℤ := do
  addRules allowDHCPRules
  nftCommit K

def netfilterBlockDNS (K : Kernel) : NetfilterM ℤ := do
  addRules blockDNSRules
  nftCommit K

/-- The set of an address's family and the address as a key of it. -/
def addressKey (ip : List Byte) : String × List Byte :=
  match to4 ip with
  | some ip4 => (addrset, ip4)
  | none => (addrset6, (to16 ip).getD [])

def netfilterMarkInbound (K : Kernel) (ipaddr : List Char) : NetfilterM ℤ := do
  match parseIP ipaddr with
  | none => return -1
  | some ip =>
    queue [.newSetElem table (addressKey ip).1 (addressKey ip).2]
    nftCommit K

def netfilterClearInbound (K : Kernel) (ipaddr : List Char) : NetfilterM ℤ := do
  match parseIP ipaddr with
  | none => return -1
  | some ip =>
    queue [.delSetElem table (addressKey ip).1 (addressKey ip).2]
    nftCommit K

end WgDesktop.Netfilter
