import WgDesktop.Lib.Attributes
import WgDesktop.Net.IPAddress

/-!
# Messages to the routing tables

`rtmSendRule`, `rtmSendRoute` and `rtmIncludePeer` of
`src/platforms/linux/daemon/wireguardutilslinux.cpp`, byte by byte: a buffer of zeros with two
headers, to which `nlmsg_append_attr` adds attributes as long as there is room. `decode` reads a
message as the kernel does. `decode_rtmSendRoute` and its like say that nothing was lost.
-/

namespace WgDesktop.RouteMessages

open Bytes Attributes

/-! ## Constants -/

def afInet : BitVec 32 := 2

def afInet6 : BitVec 32 := 10

def nlmFRequest : BitVec 32 := 1

def nlmFAck : BitVec 32 := 4

def rtaDst : BitVec 32 := 1

def rtaOif : BitVec 32 := 4

def rtaTable : BitVec 32 := 15

def fraDst : BitVec 32 := 1

def fraFwmark : BitVec 32 := 10

def fraTable : BitVec 32 := 15

def rtTableUnspec : Byte := 0

def rtprotBoot : Byte := 3

def rtScopeUniverse : Byte := 0

def rtnUnicast : BitVec 32 := 1

def frActToTbl : Byte := 1

def fibRuleInvert : BitVec 32 := 2

def wgFirewallMark : BitVec 32 := 0xca6c

def wgRouteTable : BitVec 32 := 0xca6c

/-! ## Headers -/

structure Nlmsghdr where
  len : BitVec 32
  type : BitVec 16
  flags : BitVec 16
  seq : BitVec 32
  pid : BitVec 32
  deriving DecidableEq, Repr

/-- `rtmsg`, and `fib_rule_hdr`, which has the same layout: there `protocol` and `scope` are
reserved, and `type` is the action. -/
structure Rtmsg where
  family : Byte := 0
  dstLen : Byte := 0
  srcLen : Byte := 0
  tos : Byte := 0
  table : Byte := 0
  protocol : Byte := 0
  scope : Byte := 0
  type : Byte := 0
  flags : BitVec 32 := 0
  deriving DecidableEq, Repr

section Buffer

variable (E : Endian)

def Nlmsghdr.bytes (h : Nlmsghdr) : List Byte :=
  E.bytes h.len ++ (E.bytes h.type ++ (E.bytes h.flags ++ (E.bytes h.seq ++ E.bytes h.pid)))

def Rtmsg.bytes (m : Rtmsg) : List Byte :=
  [m.family, m.dstLen, m.srcLen, m.tos, m.table, m.protocol, m.scope, m.type] ++ E.bytes m.flags

/-- `sizeof` of either header behind the first. -/
def rtmsgSize : ℕ := 12

def nlmsgLength (n : ℕ) : ℕ := 16 + n

def nlmsgSpace (n : ℕ) : ℕ := align (nlmsgLength n)

/-- A buffer of zeros with the headers written to it. -/
def buffer (size : ℕ) (nlmsg : Nlmsghdr) (rtm : Rtmsg) : List Byte :=
  nlmsg.bytes E ++ (rtm.bytes E ++ List.replicate (size - nlmsgLength rtmsgSize) 0)

def nlmsgAppendAttr (buf : List Byte) (maxlen : ℕ) (attrtype : BitVec 32) (attrdata : List Byte) :
    List Byte :=
  let start := align (E.word (buf.take 4) : BitVec 32).toNat
  let newlen := start + rtaSpace attrdata.length
  if newlen ≤ maxlen then
    let buf := overwrite buf (start + 2) (E.bytes (attrtype.setWidth 16))
    let buf := overwrite buf start (E.bytes (BitVec.ofNat 16 (rtaLength attrdata.length)))
    let buf := overwrite buf (start + 4) attrdata
    overwrite buf 0 (E.bytes (BitVec.ofNat 32 newlen))
  else buf

def nlmsgAppendAttr32 (buf : List Byte) (maxlen : ℕ) (attrtype value : BitVec 32) : List Byte :=
  nlmsgAppendAttr E buf maxlen attrtype (E.bytes value)

/-! ## What the kernel reads -/

def Nlmsghdr.read (bs : List Byte) : Option (Nlmsghdr × List Byte) := do
  let (len, bs) ← E.read 32 bs
  let (type, bs) ← E.read 16 bs
  let (flags, bs) ← E.read 16 bs
  let (seq, bs) ← E.read 32 bs
  let (pid, bs) ← E.read 32 bs
  return ({ len, type, flags, seq, pid }, bs)

def Rtmsg.read (bs : List Byte) : Option (Rtmsg × List Byte) :=
  match bs with
  | family :: dstLen :: srcLen :: tos :: table :: protocol :: scope :: type :: bs => do
    let (flags, bs) ← E.read 32 bs
    return ({ family, dstLen, srcLen, tos, table, protocol, scope, type, flags }, bs)
  | _ => none

structure Message where
  nlmsg : Nlmsghdr
  rtm : Rtmsg
  attrs : List Attr
  deriving DecidableEq, Repr

/-- The two headers, and the attributes up to the length in the first header. -/
def decode (bs : List Byte) : Option Message := do
  let (nlmsg, rest) ← Nlmsghdr.read E bs
  let (rtm, rest) ← Rtmsg.read E rest
  if nlmsgLength rtmsgSize ≤ nlmsg.len.toNat ∧ nlmsg.len.toNat ≤ bs.length then
    let attrs ← walk E (rest.take (nlmsg.len.toNat - nlmsgLength rtmsgSize))
    return { nlmsg, rtm, attrs }
  else none

end Buffer

/-! ## The senders -/

/-- What the class calls: the machine it runs on, the process, the interface, the conversions of
addresses to text and back, and the socket, which tells how much it took. -/
structure System where
  endian : Endian
  getpid : BitVec 32
  ifindex : BitVec 32
  toString : QHostAddress → List Char
  inetPton4 : List Char → Option (BitVec 32)
  inetPton6 : List Char → Option (BitVec 128)
  sendto : List Byte → ℤ

/-- `wg_allowedip`: `ip` is the union of the addresses. -/
structure WgAllowedip where
  family : BitVec 16
  ip : List Byte
  cidr : Byte

/-- What a sender did: the bytes it passed to `sendto`, what it returned, and `m_nlseq`. -/
structure Outcome where
  sent : Option (List Byte)
  ok : Bool
  nlseq : BitVec 32
  deriving DecidableEq, Repr

section Senders

variable (sys : System)

def buildAllowedIp (dest : IPAddress) : Option WgAllowedip :=
  let addrString := sys.toString dest.address
  match dest.address.protocol with
  | .ipv4Protocol =>
    (sys.inetPton4 addrString).map fun ip4 =>
      { family := afInet.setWidth 16, ip := toBytes ip4, cidr := BitVec.ofInt 8 dest.prefixLength }
  | .ipv6Protocol =>
    (sys.inetPton6 addrString).map fun ip6 =>
      { family := afInet6.setWidth 16, ip := toBytes ip6, cidr := BitVec.ofInt 8 dest.prefixLength }
  | .unknownNetworkLayerProtocol => none

/-- The header that each sender begins with. -/
def newHeader (nlseq action flags : BitVec 32) : Nlmsghdr :=
  { len := BitVec.ofNat 32 (nlmsgLength rtmsgSize), type := action.setWidth 16,
    flags := flags.setWidth 16, seq := nlseq, pid := sys.getpid }

/-- The end of each sender. -/
def send (buf : List Byte) (nlseq : BitVec 32) : Outcome :=
  let len := (sys.endian.word (buf.take 4) : BitVec 32).toNat
  { sent := some (buf.take len), ok := sys.sendto (buf.take len) = len, nlseq }

def rtmSendRule (nlseq action flags addrfamily : BitVec 32) : Outcome :=
  let size := nlmsgSpace (rtmsgSize + 2 * rtaSpace 4)
  let nlmsg := newHeader sys nlseq action flags
  let rule : Rtmsg :=
    { family := addrfamily.setWidth 8, table := rtTableUnspec, type := frActToTbl,
      flags := fibRuleInvert }
  let buf := buffer sys.endian size nlmsg rule
  let buf := nlmsgAppendAttr32 sys.endian buf size fraFwmark wgFirewallMark
  let buf := nlmsgAppendAttr32 sys.endian buf size fraTable wgRouteTable
  send sys buf (nlseq + 1)

def rtmSendRoute (nlseq action : BitVec 32) (dest : IPAddress) (type flags : BitVec 32) : Outcome :=
  let size := nlmsgSpace (rtmsgSize + 2 * rtaSpace 4 + rtaSpace 16)
  match buildAllowedIp sys dest with
  | none => { sent := none, ok := false, nlseq }
  | some ip =>
    let nlmsg := newHeader sys nlseq action (flags ||| nlmFRequest ||| nlmFAck)
    let rtm : Rtmsg :=
      { family := ip.family.setWidth 8, dstLen := ip.cidr, type := type.setWidth 8,
        table := rtTableUnspec, protocol := rtprotBoot, scope := rtScopeUniverse }
    let buf := buffer sys.endian size nlmsg rtm
    let buf := nlmsgAppendAttr32 sys.endian buf size rtaTable wgRouteTable
    let buf :=
      if rtm.family.setWidth 32 = afInet6 then
        nlmsgAppendAttr sys.endian buf size rtaDst (ip.ip.take 16)
      else nlmsgAppendAttr sys.endian buf size rtaDst (ip.ip.take 4)
    let buf :=
      if type = rtnUnicast then nlmsgAppendAttr32 sys.endian buf size rtaOif sys.ifindex else buf
    send sys buf (nlseq + 1)

def rtmIncludePeer (nlseq action : BitVec 32) (dest : IPAddress) (flags : BitVec 32) : Outcome :=
  let size := nlmsgSpace (rtmsgSize + rtaSpace 16 + 2 * rtaSpace 4)
  let nlmsg := newHeader sys nlseq action (flags ||| nlmFRequest ||| nlmFAck)
  let rule : Rtmsg :=
    { table := rtTableUnspec, type := frActToTbl, flags := 0,
      dstLen := BitVec.ofInt 8 dest.prefixLength }
  let buf := buffer sys.endian size nlmsg rule
  let buf := nlmsgAppendAttr32 sys.endian buf size fraFwmark wgFirewallMark
  let buf := nlmsgAppendAttr32 sys.endian buf size fraTable wgRouteTable
  match dest.address with
  | .ipv6 dst _ =>
    let buf := nlmsgAppendAttr sys.endian buf size fraDst (toBytes dst)
    -- `rule->family`, the first byte behind the header of the message
    send sys (overwrite buf 16 [afInet6.setWidth 8]) (nlseq + 1)
  | .ipv4 dst =>
    let htonl : BitVec 32 := sys.endian.word (toBytes dst)
    let buf := nlmsgAppendAttr32 sys.endian buf size fraDst htonl
    send sys (overwrite buf 16 [afInet.setWidth 8]) (nlseq + 1)
  | .null => { sent := none, ok := false, nlseq := nlseq + 1 }

end Senders

/-! ## Buffers and messages -/

section Layout

variable (E : Endian)

/-- The length of a message with these attributes. -/
def messageLength (attrs : List Attr) : ℕ :=
  nlmsgLength rtmsgSize + (attrs.flatMap (Attr.bytes E)).length

/-- The header with the length of the message. -/
def Nlmsghdr.withLen (nlmsg : Nlmsghdr) (attrs : List Attr) : Nlmsghdr :=
  { nlmsg with len := BitVec.ofNat 32 (messageLength E attrs) }

/-- A message as it is stored. -/
def stored (nlmsg : Nlmsghdr) (rtm : Rtmsg) (attrs : List Attr) : List Byte :=
  (nlmsg.withLen E attrs).bytes E ++ (rtm.bytes E ++ attrs.flatMap (Attr.bytes E))

/-- A buffer with a message at its front and zeros behind. -/
def layout (size : ℕ) (nlmsg : Nlmsghdr) (rtm : Rtmsg) (attrs : List Attr) : List Byte :=
  stored E nlmsg rtm attrs ++ List.replicate (size - messageLength E attrs) 0

variable {E} {size : ℕ} {nlmsg : Nlmsghdr} {rtm : Rtmsg} {attrs : List Attr}

theorem length_bytes_nlmsghdr (h : Nlmsghdr) : (h.bytes E).length = 16 := by
  simp only [Nlmsghdr.bytes, List.length_append, Endian.length_bytes]

theorem length_bytes_rtmsg (m : Rtmsg) : (m.bytes E).length = rtmsgSize := by
  simp only [Rtmsg.bytes, List.length_append, Endian.length_bytes, List.length_cons,
    List.length_nil, rtmsgSize]

theorem length_stored : (stored E nlmsg rtm attrs).length = messageLength E attrs := by
  rw [stored, List.length_append, List.length_append, length_bytes_nlmsghdr, length_bytes_rtmsg,
    messageLength, nlmsgLength, Nat.add_assoc]

theorem buffer_eq (h : nlmsg.len = BitVec.ofNat 32 (nlmsgLength rtmsgSize)) :
    buffer E size nlmsg rtm = layout E size nlmsg rtm [] := by
  have hwith : nlmsg.withLen E [] = nlmsg := by
    rw [Nlmsghdr.withLen, messageLength, List.flatMap_nil, List.length_nil, Nat.add_zero, ← h]
  rw [buffer, layout, stored, hwith, List.flatMap_nil, List.append_nil, List.append_assoc]
  rfl

/-- What is behind the length of the message. -/
def behindLen (E : Endian) (nlmsg : Nlmsghdr) (rtm : Rtmsg) (attrs : List Attr) : List Byte :=
  E.bytes nlmsg.type ++ (E.bytes nlmsg.flags ++ (E.bytes nlmsg.seq ++ (E.bytes nlmsg.pid ++
    (rtm.bytes E ++ attrs.flatMap (Attr.bytes E)))))

theorem stored_eq : stored E nlmsg rtm attrs =
    E.bytes (BitVec.ofNat 32 (messageLength E attrs)) ++ behindLen E nlmsg rtm attrs := by
  simp only [stored, Nlmsghdr.bytes, Nlmsghdr.withLen, behindLen, List.append_assoc]

theorem behindLen_concat (a : Attr) :
    behindLen E nlmsg rtm (attrs ++ [a]) = behindLen E nlmsg rtm attrs ++ a.bytes E := by
  simp only [behindLen, List.flatMap_append, List.flatMap_singleton, List.append_assoc]

theorem word_take_layout (h : messageLength E attrs < 2 ^ 32) :
    (E.word ((layout E size nlmsg rtm attrs).take 4) : BitVec 32).toNat =
      messageLength E attrs := by
  have hlen : (E.bytes (nlmsg.withLen E attrs).len).length = 4 := Endian.length_bytes E _
  have htake : (layout E size nlmsg rtm attrs).take 4 = E.bytes (nlmsg.withLen E attrs).len := by
    rw [layout, stored, Nlmsghdr.bytes, ← hlen]
    simp only [List.append_assoc, List.take_left]
  rw [htake, Endian.word_bytes E (by decide), Nlmsghdr.withLen, BitVec.toNat_ofNat,
    Nat.mod_eq_of_lt h]

theorem messageLength_concat (a : Attr) :
    messageLength E (attrs ++ [a]) = messageLength E attrs + rtaSpace a.data.length := by
  rw [messageLength, messageLength, List.flatMap_append, List.flatMap_singleton,
    List.length_append, Attr.length_bytes, Nat.add_assoc]

theorem align_messageLength : align (messageLength E attrs) = messageLength E attrs := by
  apply align_of_dvd
  have hdvd := four_dvd_length_flatMap (e := E) attrs
  rw [messageLength, nlmsgLength, rtmsgSize]
  omega

theorem overwrite_zeros (a : Attr) (n : ℕ) :
    overwrite (overwrite (overwrite (List.replicate (rtaSpace a.data.length + n) 0) 2
      (E.bytes a.type)) 0 (E.bytes (BitVec.ofNat 16 (rtaLength a.data.length)))) 4 a.data =
      a.bytes E ++ List.replicate n 0 := by
  have hpad := le_align a.data.length
  have hspace := rtaSpace_eq a.data.length
  have hzeros : List.replicate (rtaSpace a.data.length + n) (0 : Byte) =
      List.replicate 2 0 ++ (List.replicate 2 0 ++ (List.replicate a.data.length 0 ++
        (List.replicate (align a.data.length - a.data.length) 0 ++ List.replicate n 0))) := by
    rw [← List.replicate_add, ← List.replicate_add, ← List.replicate_add, ← List.replicate_add]
    congr 1
    omega
  have htype : (List.replicate 2 (0 : Byte)).length = (E.bytes a.type).length := by
    rw [List.length_replicate, Endian.length_bytes]
  have hlen : (List.replicate 2 (0 : Byte)).length =
      (E.bytes (BitVec.ofNat 16 (rtaLength a.data.length))).length := by
    rw [List.length_replicate, Endian.length_bytes]
  have hfront : (E.bytes (BitVec.ofNat 16 (rtaLength a.data.length)) ++ E.bytes a.type).length =
      4 := by
    rw [List.length_append, Endian.length_bytes, Endian.length_bytes]
  rw [hzeros, overwrite_append List.length_replicate htype, overwrite_zero hlen,
    ← List.append_assoc (E.bytes _), overwrite_append hfront List.length_replicate, Attr.bytes]
  simp only [List.append_assoc]

/-- An attribute for which there is room comes behind the ones before it, and no byte of these
changes. -/
theorem nlmsgAppendAttr_layout (attrtype : BitVec 32) (attrdata : List Byte)
    (hsize : size < 2 ^ 32) (hfit : messageLength E attrs + rtaSpace attrdata.length ≤ size) :
    nlmsgAppendAttr E (layout E size nlmsg rtm attrs) size attrtype attrdata =
      layout E size nlmsg rtm (attrs ++ [{ type := attrtype.setWidth 16, data := attrdata }]) := by
  have hstart : align (E.word ((layout E size nlmsg rtm attrs).take 4) : BitVec 32).toNat =
      messageLength E attrs := by
    rw [word_take_layout (by omega), align_messageLength]
  obtain ⟨n, rfl⟩ := Nat.exists_eq_add_of_le hfit
  have hzeros : messageLength E attrs + rtaSpace attrdata.length + n - messageLength E attrs =
      rtaSpace attrdata.length + n := by omega
  have hrest : messageLength E attrs + rtaSpace attrdata.length + n -
      (messageLength E attrs + rtaSpace attrdata.length) = n := Nat.add_sub_cancel_left _ n
  have hlen : (E.bytes (BitVec.ofNat 32 (messageLength E attrs))).length =
      (E.bytes (BitVec.ofNat 32 (messageLength E attrs + rtaSpace attrdata.length))).length := by
    rw [Endian.length_bytes, Endian.length_bytes]
  have hwrite := overwrite_zeros (E := E) { type := attrtype.setWidth 16, data := attrdata } n
  have hbehind : ∀ zeros offset bs,
      overwrite (stored E nlmsg rtm attrs ++ zeros) (messageLength E attrs + offset) bs =
        stored E nlmsg rtm attrs ++ overwrite zeros offset bs :=
    overwrite_append_right length_stored
  have hnext : ∀ zeros bs,
      overwrite (stored E nlmsg rtm attrs ++ zeros) (messageLength E attrs) bs =
        stored E nlmsg rtm attrs ++ overwrite zeros 0 bs := fun zeros bs => hbehind zeros 0 bs
  rw [nlmsgAppendAttr, hstart]
  simp only
  rw [if_pos hfit, layout, hzeros, hbehind, hnext, hbehind, hwrite, stored_eq, List.append_assoc,
    overwrite_zero hlen, layout, messageLength_concat, hrest, stored_eq, messageLength_concat,
    behindLen_concat]
  simp only [List.append_assoc]

theorem read_bytes_nlmsghdr (h : Nlmsghdr) (rest : List Byte) :
    Nlmsghdr.read E (h.bytes E ++ rest) = some (h, rest) := by
  rw [Nlmsghdr.read, Nlmsghdr.bytes]
  simp only [List.append_assoc, Endian.read_append E (w := 32) (by decide),
    Endian.read_append E (w := 16) (by decide), Option.bind_eq_bind, Option.bind_some]
  rfl

theorem read_bytes_rtmsg (m : Rtmsg) (rest : List Byte) :
    Rtmsg.read E (m.bytes E ++ rest) = some (m, rest) := by
  rw [Rtmsg.bytes, List.append_assoc]
  simp only [List.cons_append, List.nil_append, Rtmsg.read,
    Endian.read_append E (w := 32) (by decide), Option.bind_eq_bind, Option.bind_some]
  rfl

theorem decode_stored (hlen : messageLength E attrs < 2 ^ 32)
    (hattrs : ∀ a ∈ attrs, rtaLength a.data.length < 2 ^ 16) :
    decode E (stored E nlmsg rtm attrs) =
      some { nlmsg := nlmsg.withLen E attrs, rtm, attrs } := by
  have htoNat : (nlmsg.withLen E attrs).len.toNat = messageLength E attrs := by
    rw [Nlmsghdr.withLen, BitVec.toNat_ofNat, Nat.mod_eq_of_lt hlen]
  have hrest : messageLength E attrs - nlmsgLength rtmsgSize =
      (attrs.flatMap (Attr.bytes E)).length := Nat.add_sub_cancel_left _ _
  have hle : nlmsgLength rtmsgSize ≤ messageLength E attrs := Nat.le_add_right _ _
  rw [decode, length_stored, stored, read_bytes_nlmsghdr]
  simp only [Option.bind_eq_bind, Option.bind_some, read_bytes_rtmsg, htoNat, hrest,
    List.take_length, walk_flatMap hattrs]
  rw [if_pos ⟨hle, le_rfl⟩]
  rfl

theorem send_layout (sys : System) (nlseq : BitVec 32)
    (hlen : messageLength sys.endian attrs < 2 ^ 32) :
    send sys (layout sys.endian size nlmsg rtm attrs) nlseq =
      { sent := some (stored sys.endian nlmsg rtm attrs),
        ok := sys.sendto (stored sys.endian nlmsg rtm attrs) = messageLength sys.endian attrs,
        nlseq } := by
  rw [send, word_take_layout hlen, layout, ← length_stored, List.take_left]

end Layout

/-! ## What is sent -/

section Sent

/-- The bytes of an address in network order. -/
def addressBytes : QHostAddress → List Byte
  | .null => []
  | .ipv4 a => toBytes a
  | .ipv6 a _ => toBytes a

/-- `AF_INET` or `AF_INET6`. -/
def addressFamily : QHostAddress → Byte
  | .null => 0
  | .ipv4 _ => afInet.setWidth 8
  | .ipv6 _ _ => afInet6.setWidth 8

/-- The text of an address is converted back. A text with a scope id may be refused. -/
structure Lawful (sys : System) : Prop where
  inetPton4 : ∀ a, sys.inetPton4 (sys.toString (.ipv4 a)) = some a
  inetPton6 : ∀ a, sys.inetPton6 (sys.toString (.ipv6 a [])) = some a
  inetPton6_scopeId : ∀ a scopeId b, sys.inetPton6 (sys.toString (.ipv6 a scopeId)) = some b → b = a

/-- One message was sent, which is read as these headers and attributes. Its length is all that was
sent, and the sender reports whether the socket took as much. -/
def Carries (sys : System) (outcome : Outcome) (nlseq action flags : BitVec 32) (rtm : Rtmsg)
    (attrs : List Attr) : Prop :=
  ∃ bs len, len.toNat = bs.length ∧
    outcome = { sent := some bs, ok := sys.sendto bs = bs.length, nlseq := nlseq + 1 } ∧
    decode sys.endian bs =
      some { nlmsg := { newHeader sys nlseq action flags with len }, rtm, attrs }

variable {sys : System}

/-- A buffer of `size` bytes with a message of `n` bytes that has these headers and attributes. -/
structure Holds (E : Endian) (size : ℕ) (buf : List Byte) (nlmsg : Nlmsghdr) (rtm : Rtmsg)
    (attrs : List Attr) (n : ℕ) : Prop where
  eq : buf = layout E size nlmsg rtm attrs
  length : messageLength E attrs = n
  le : n ≤ size
  small : ∀ a ∈ attrs, rtaLength a.data.length < 2 ^ 16

section Holds

variable {E : Endian} {size n : ℕ} {buf : List Byte} {nlmsg : Nlmsghdr} {rtm : Rtmsg}
  {attrs : List Attr}

theorem holds_buffer (sys : System) (nlseq action flags : BitVec 32) (rtm : Rtmsg)
    (hsize : 28 ≤ size) :
    Holds E size (buffer E size (newHeader sys nlseq action flags) rtm)
      (newHeader sys nlseq action flags) rtm [] 28 where
  eq := buffer_eq rfl
  length := rfl
  le := hsize
  small := List.forall_mem_nil _

theorem Holds.append (h : Holds E size buf nlmsg rtm attrs n) (hsize : size < 2 ^ 16) {k : ℕ}
    (attrtype : BitVec 32) {attrdata : List Byte} (hk : rtaSpace attrdata.length = k)
    (hfit : n + k ≤ size) :
    Holds E size (nlmsgAppendAttr E buf size attrtype attrdata) nlmsg rtm
      (attrs ++ [{ type := attrtype.setWidth 16, data := attrdata }]) (n + k) where
  eq := by
    rw [h.eq]
    exact nlmsgAppendAttr_layout attrtype attrdata (by omega) (by rw [h.length, hk]; exact hfit)
  length := by rw [messageLength_concat, h.length, hk]
  le := hfit
  small := by
    have hle := le_align (rtaLength attrdata.length)
    rw [rtaSpace] at hk
    intro a ha
    rcases List.mem_append.mp ha with ha | ha
    · exact h.small a ha
    · obtain rfl := List.mem_singleton.mp ha
      show rtaLength attrdata.length < 2 ^ 16
      omega

/-- The attribute that `nlmsg_append_attr32` adds. -/
def attr32 (E : Endian) (attrtype value : BitVec 32) : Attr :=
  { type := attrtype.setWidth 16, data := E.bytes value }

theorem Holds.append32 (h : Holds E size buf nlmsg rtm attrs n) (hsize : size < 2 ^ 16)
    (attrtype value : BitVec 32) (hfit : n + 8 ≤ size) :
    Holds E size (nlmsgAppendAttr32 E buf size attrtype value) nlmsg rtm
      (attrs ++ [attr32 E attrtype value]) (n + 8) := by
  have hlen : rtaSpace (E.bytes value).length = 8 := by
    rw [Endian.length_bytes]
    rfl
  exact h.append hsize attrtype hlen hfit

theorem Holds.append_address {w space : ℕ} (h : Holds E size buf nlmsg rtm attrs n)
    (hsize : size < 2 ^ 16) (attrtype : BitVec 32) (dst : BitVec w)
    (hspace : rtaSpace (w / 8) = space) (hfit : n + space ≤ size) :
    Holds E size (nlmsgAppendAttr E buf size attrtype ((toBytes dst).take (w / 8))) nlmsg rtm
      (attrs ++ [{ type := attrtype.setWidth 16, data := toBytes dst }]) (n + space) := by
  have hlen : rtaSpace (toBytes dst).length = space := by
    rw [length_toBytes, hspace]
  rw [List.take_of_length_le (length_toBytes dst).le]
  exact h.append hsize attrtype hlen hfit

theorem Holds.overwrite_family (h : Holds E size buf nlmsg rtm attrs n) (family : Byte) :
    Holds E size (overwrite buf 16 [family]) nlmsg { rtm with family } attrs n where
  eq := by
    rw [h.eq, layout, stored, List.append_assoc, List.append_assoc, layout, stored,
      List.append_assoc, List.append_assoc, Rtmsg.bytes, Rtmsg.bytes]
    exact @overwrite_append 16 _ [rtm.family] [family] _ (length_bytes_nlmsghdr _) rfl
  length := h.length
  le := h.le
  small := h.small

theorem Holds.carries {sys : System} {nlseq action flags : BitVec 32}
    (h : Holds sys.endian size buf (newHeader sys nlseq action flags) rtm attrs n)
    (hsize : size < 2 ^ 16) :
    Carries sys (send sys buf (nlseq + 1)) nlseq action flags rtm attrs := by
  have hle := h.le
  have hlen : messageLength sys.endian attrs < 2 ^ 32 := by
    rw [h.length]
    omega
  rw [h.eq, send_layout sys _ hlen]
  refine ⟨_, _, ?_, ?_, decode_stored hlen h.small⟩
  · rw [length_stored, BitVec.toNat_ofNat, Nat.mod_eq_of_lt hlen]
  · rw [length_stored]

end Holds

theorem carries_rtmSendRule (nlseq action flags addrfamily : BitVec 32) :
    Carries sys (rtmSendRule sys nlseq action flags addrfamily) nlseq action flags
      { family := addrfamily.setWidth 8, type := frActToTbl, flags := fibRuleInvert }
      [attr32 sys.endian fraFwmark wgFirewallMark, attr32 sys.endian fraTable wgRouteTable] := by
  have hsize : nlmsgSpace (rtmsgSize + 2 * rtaSpace 4) = 44 := rfl
  have hsmall : 44 < 2 ^ 16 := by decide
  rw [rtmSendRule, hsize]
  have hempty : Holds sys.endian 44 _ _ _ [] 28 := holds_buffer sys nlseq action flags
    { family := addrfamily.setWidth 8, type := frActToTbl, flags := fibRuleInvert } (by decide)
  have hmark := hempty.append32 hsmall fraFwmark wgFirewallMark (by decide)
  have htable := hmark.append32 hsmall fraTable wgRouteTable (by decide)
  exact htable.carries hsmall

theorem attr32_htonl (E : Endian) (attrtype a : BitVec 32) :
    attr32 E attrtype (E.word (toBytes a)) =
      { type := attrtype.setWidth 16, data := toBytes a } := by
  rw [attr32, Endian.bytes_word E (by decide) (length_toBytes a)]

theorem carries_rtmIncludePeer_of_ne {dest : IPAddress} (hdest : dest.address ≠ .null)
    (nlseq action flags : BitVec 32) :
    Carries sys (rtmIncludePeer sys nlseq action dest flags) nlseq action
      (flags ||| nlmFRequest ||| nlmFAck)
      { family := addressFamily dest.address, dstLen := BitVec.ofInt 8 dest.prefixLength,
        type := frActToTbl }
      [attr32 sys.endian fraFwmark wgFirewallMark, attr32 sys.endian fraTable wgRouteTable,
        { type := fraDst.setWidth 16, data := addressBytes dest.address }] := by
  have hsize : nlmsgSpace (rtmsgSize + rtaSpace 16 + 2 * rtaSpace 4) = 64 := rfl
  have hsmall : 64 < 2 ^ 16 := by decide
  obtain ⟨address, prefixLength⟩ := dest
  rw [rtmIncludePeer, hsize]
  have hempty : Holds sys.endian 64 _ _ _ [] 28 :=
    holds_buffer sys nlseq action (flags ||| nlmFRequest ||| nlmFAck)
      { dstLen := BitVec.ofInt 8 prefixLength, type := frActToTbl } (by decide)
  have hmark := hempty.append32 hsmall fraFwmark wgFirewallMark (by decide)
  have htable := hmark.append32 hsmall fraTable wgRouteTable (by decide)
  cases address with
  | null => exact absurd rfl hdest
  | ipv4 dst =>
    have hdst := htable.append32 hsmall fraDst (sys.endian.word (toBytes dst)) (by decide)
    rw [attr32_htonl] at hdst
    exact (hdst.overwrite_family (afInet.setWidth 8)).carries hsmall
  | ipv6 dst scopeId =>
    have hlen : rtaSpace (toBytes dst).length = 20 := by
      rw [length_toBytes]
      rfl
    have hdst := htable.append hsmall fraDst hlen (by decide)
    exact (hdst.overwrite_family (afInet6.setWidth 8)).carries hsmall

theorem carries_rtmIncludePeer {dest : IPAddress} (hdest : dest.Valid)
    (nlseq action flags : BitVec 32) :
    Carries sys (rtmIncludePeer sys nlseq action dest flags) nlseq action
      (flags ||| nlmFRequest ||| nlmFAck)
      { family := addressFamily dest.address, dstLen := BitVec.ofInt 8 dest.prefixLength,
        type := frActToTbl }
      [attr32 sys.endian fraFwmark wgFirewallMark, attr32 sys.endian fraTable wgRouteTable,
        { type := fraDst.setWidth 16, data := addressBytes dest.address }] := by
  refine carries_rtmIncludePeer_of_ne ?_ nlseq action flags
  intro hnull
  exact hdest.protocol (by rw [hnull]; rfl)

/-- What the conversion makes of a prefix, if it takes the text of its address. -/
theorem buildAllowedIp_eq (hlaw : Lawful sys) {dest : IPAddress} {ip : WgAllowedip}
    (h : buildAllowedIp sys dest = some ip) :
    ip = { family := (addressFamily dest.address).setWidth 16, ip := addressBytes dest.address,
           cidr := BitVec.ofInt 8 dest.prefixLength } := by
  obtain ⟨address, prefixLength⟩ := dest
  cases address with
  | null => cases h
  | ipv4 a =>
    obtain ⟨b, hb, rfl⟩ := Option.map_eq_some_iff.mp h
    obtain rfl : a = b := Option.some.inj ((hlaw.inetPton4 a).symm.trans hb)
    rfl
  | ipv6 a scopeId =>
    obtain ⟨b, hb, rfl⟩ := Option.map_eq_some_iff.mp h
    obtain rfl : b = a := hlaw.inetPton6_scopeId a scopeId b hb
    rfl

/-- The addresses that are not bound to an interface. -/
def Scopeless : QHostAddress → Prop
  | .ipv6 _ scopeId => scopeId = []
  | _ => True

theorem exists_buildAllowedIp (hlaw : Lawful sys) {dest : IPAddress} (hdest : dest.Valid)
    (hscope : Scopeless dest.address) : ∃ ip, buildAllowedIp sys dest = some ip := by
  obtain ⟨address, prefixLength⟩ := dest
  cases address with
  | null => exact absurd rfl hdest.protocol
  | ipv4 a => exact ⟨_, Option.map_eq_some_iff.mpr ⟨a, hlaw.inetPton4 a, rfl⟩⟩
  | ipv6 a scopeId =>
    obtain rfl : scopeId = [] := hscope
    exact ⟨_, Option.map_eq_some_iff.mpr ⟨a, hlaw.inetPton6 a, rfl⟩⟩

/-- The attributes of a route: the table, the destination and, for a route to a host or network,
the interface. -/
def routeAttrs (sys : System) (dest : QHostAddress) (type : BitVec 32) : List Attr :=
  [attr32 sys.endian rtaTable wgRouteTable,
    { type := rtaDst.setWidth 16, data := addressBytes dest }] ++
    if type = rtnUnicast then [attr32 sys.endian rtaOif sys.ifindex] else []

theorem Holds.carries_route {size n : ℕ} {buf : List Byte} {rtm : Rtmsg} {dest : QHostAddress}
    {nlseq action flags : BitVec 32}
    (h : Holds sys.endian size buf (newHeader sys nlseq action flags) rtm
      [attr32 sys.endian rtaTable wgRouteTable,
        { type := rtaDst.setWidth 16, data := addressBytes dest }] n)
    (hsize : size < 2 ^ 16) (hfit : n + 8 ≤ size) (type : BitVec 32) :
    Carries sys
      (send sys
        (if type = rtnUnicast then nlmsgAppendAttr32 sys.endian buf size rtaOif sys.ifindex
          else buf) (nlseq + 1))
      nlseq action flags rtm (routeAttrs sys dest type) := by
  rw [routeAttrs]
  split
  · exact (h.append32 hsize rtaOif sys.ifindex hfit).carries hsize
  · exact h.carries hsize

theorem carries_rtmSendRoute (hlaw : Lawful sys) {dest : IPAddress} {ip : WgAllowedip}
    (hip : buildAllowedIp sys dest = some ip)
    (nlseq action type flags : BitVec 32) :
    Carries sys (rtmSendRoute sys nlseq action dest type flags) nlseq action
      (flags ||| nlmFRequest ||| nlmFAck)
      { family := addressFamily dest.address, dstLen := BitVec.ofInt 8 dest.prefixLength,
        protocol := rtprotBoot, type := type.setWidth 8 }
      (routeAttrs sys dest.address type) := by
  have hsize : nlmsgSpace (rtmsgSize + 2 * rtaSpace 4 + rtaSpace 16) = 64 := rfl
  have hsmall : 64 < 2 ^ 16 := by decide
  rw [rtmSendRoute, hip, hsize]
  obtain rfl := buildAllowedIp_eq hlaw hip
  obtain ⟨address, prefixLength⟩ := dest
  have hempty : Holds sys.endian 64 _ _ _ [] 28 :=
    holds_buffer sys nlseq action (flags ||| nlmFRequest ||| nlmFAck)
      { family := addressFamily address, dstLen := BitVec.ofInt 8 prefixLength,
        type := type.setWidth 8, protocol := rtprotBoot } (by decide)
  have htable := hempty.append32 hsmall rtaTable wgRouteTable (by decide)
  cases address with
  | null => cases hip
  | ipv4 dst =>
    have hdst := htable.append_address hsmall rtaDst dst rfl (by decide)
    exact hdst.carries_route hsmall (by decide) type
  | ipv6 dst scopeId =>
    have hdst := htable.append_address hsmall rtaDst dst rfl (by decide)
    exact hdst.carries_route hsmall (by decide) type

theorem toNat_ofInt_prefixLength {dest : IPAddress} (hdest : dest.Valid) :
    ((BitVec.ofInt 8 dest.prefixLength).toNat : ℤ) = dest.prefixLength :=
  hdest.toNat_ofInt

theorem exists_of_sent {dest : IPAddress} {nlseq action type flags : BitVec 32}
    (h : (rtmSendRoute sys nlseq action dest type flags).sent ≠ none) :
    ∃ ip, buildAllowedIp sys dest = some ip := by
  refine Option.ne_none_iff_exists'.mp fun hnone => h ?_
  rw [rtmSendRoute, hnone]

theorem beq_of_addressBytes {a b : QHostAddress} (hfamily : addressFamily a = addressFamily b)
    (hbytes : addressBytes a = addressBytes b) : (a == b) = true := by
  cases a with
  | null =>
    cases b with
    | null => rfl
    | _ => simp [addressFamily, afInet, afInet6] at hfamily
  | ipv4 a =>
    cases b with
    | ipv4 b =>
      obtain rfl := toBytes_injective (by decide) hbytes
      exact beq_self_eq_true a
    | _ => simp [addressFamily, afInet, afInet6] at hfamily
  | ipv6 a scopeId =>
    cases b with
    | ipv6 b scopeId' =>
      obtain rfl := toBytes_injective (by decide) hbytes
      exact beq_self_eq_true a
    | _ => simp [addressFamily, afInet, afInet6] at hfamily

theorem rtmSendRoute_injective (hlaw : Lawful sys) {dest dest' : IPAddress} (hdest : dest.Valid)
    (hdest' : dest'.Valid) {nlseq action type flags : BitVec 32} {bs : List Byte}
    (h : (rtmSendRoute sys nlseq action dest type flags).sent = some bs)
    (h' : (rtmSendRoute sys nlseq action dest' type flags).sent = some bs) :
    (dest.address == dest'.address) = true ∧ dest.prefixLength = dest'.prefixLength := by
  obtain ⟨ip, hip⟩ := exists_of_sent (h ▸ Option.some_ne_none bs)
  obtain ⟨ip', hip'⟩ := exists_of_sent (h' ▸ Option.some_ne_none bs)
  obtain ⟨cs, len, -, hsent, hdecode⟩ := carries_rtmSendRoute hlaw hip nlseq action type flags
  obtain ⟨cs', len', -, hsent', hdecode'⟩ :=
    carries_rtmSendRoute hlaw hip' nlseq action type flags
  rw [hsent] at h
  rw [hsent'] at h'
  obtain rfl : cs = bs := Option.some.inj h
  obtain rfl : cs' = cs := Option.some.inj h'
  have hmessage := Option.some.inj (hdecode.symm.trans hdecode')
  have hrtm := congrArg Message.rtm hmessage
  have hattrs := congrArg Message.attrs hmessage
  have hlength : BitVec.ofInt 8 dest.prefixLength = BitVec.ofInt 8 dest'.prefixLength :=
    congrArg Rtmsg.dstLen hrtm
  have hfamily : addressFamily dest.address = addressFamily dest'.address :=
    congrArg Rtmsg.family hrtm
  have hbytes : addressBytes dest.address = addressBytes dest'.address :=
    congrArg Attr.data (List.cons.inj (List.cons.inj hattrs).2).1
  constructor
  · exact beq_of_addressBytes hfamily hbytes
  · rw [← toNat_ofInt_prefixLength hdest, ← toNat_ofInt_prefixLength hdest', hlength]

/-- What the three senders send for a prefix: all attributes, in their order, behind headers with
the family and the length of the prefix. `rtmSendRoute` sends nothing only for an address whose text
has a scope id. -/
theorem messages_wellFormed (hlaw : Lawful sys) {dest : IPAddress} (hdest : dest.Valid)
    (nlseq action type flags addrfamily : BitVec 32) :
    ∃ dstLen : Byte, (dstLen.toNat : ℤ) = dest.prefixLength ∧
      ((Scopeless dest.address ∨ (rtmSendRoute sys nlseq action dest type flags).sent ≠ none) →
        Carries sys (rtmSendRoute sys nlseq action dest type flags) nlseq action
          (flags ||| nlmFRequest ||| nlmFAck)
          { family := addressFamily dest.address, dstLen, protocol := rtprotBoot,
            type := type.setWidth 8 }
          (routeAttrs sys dest.address type)) ∧
      Carries sys (rtmIncludePeer sys nlseq action dest flags) nlseq action
        (flags ||| nlmFRequest ||| nlmFAck)
        { family := addressFamily dest.address, dstLen, type := frActToTbl }
        [attr32 sys.endian fraFwmark wgFirewallMark, attr32 sys.endian fraTable wgRouteTable,
          { type := fraDst.setWidth 16, data := addressBytes dest.address }] ∧
      Carries sys (rtmSendRule sys nlseq action flags addrfamily) nlseq action flags
        { family := addrfamily.setWidth 8, type := frActToTbl, flags := fibRuleInvert }
        [attr32 sys.endian fraFwmark wgFirewallMark, attr32 sys.endian fraTable wgRouteTable] := by
  refine ⟨BitVec.ofInt 8 dest.prefixLength, toNat_ofInt_prefixLength hdest, fun h => ?_,
    carries_rtmIncludePeer hdest nlseq action flags,
    carries_rtmSendRule nlseq action flags addrfamily⟩
  obtain ⟨ip, hip⟩ : ∃ ip, buildAllowedIp sys dest = some ip := by
    rcases h with hscope | hsent
    · exact exists_buildAllowedIp hlaw hdest hscope
    · exact exists_of_sent hsent
  exact carries_rtmSendRoute hlaw hip nlseq action type flags

end Sent

/-! ## A host -/

/-- The numbers of the bytes, with `sep` between them. -/
def joined (sep : Char) (bs : List Byte) : List Char :=
  [sep].intercalate (bs.map fun b => Nat.toDigits 10 b.toNat)

def parsed (w : ℕ) (sep : Char) (s : List Char) : Option (BitVec w) :=
  ((s.splitOn sep).mapM Text.ofDigits).map fun ns => Endian.big.word (ns.map (BitVec.ofNat 8))

theorem not_mem_joined {sep c : Char} (hc : c ≠ sep) (hdigit : c.isDigit = false) (bs : List Byte) :
    c ∉ joined sep bs := by
  rw [joined]
  induction bs with
  | nil => exact List.not_mem_nil
  | cons b bs ih =>
    have hb : c ∉ Nat.toDigits 10 b.toNat := fun hmem =>
      Bool.false_ne_true (hdigit.symm.trans (Text.isDigit_of_mem_toDigits hmem))
    cases bs with
    | nil => rwa [List.map_singleton, List.intercalate_singleton]
    | cons b' bs =>
      rw [List.map_cons, List.map_cons] at *
      rw [List.intercalate_cons_cons]
      simp [hb, hc, ih]

theorem parsed_joined {w : ℕ} (hw : 8 ∣ w) (hpos : 0 < w) {sep : Char} (hsep : sep.isDigit = false)
    (a : BitVec w) : parsed w sep (joined sep (toBytes a)) = some a := by
  have hsplit : (joined sep (toBytes a)).splitOn sep =
      (toBytes a).map fun b => Nat.toDigits 10 b.toNat := by
    refine List.splitOn_intercalate sep (fun l hl hmem => ?_) ?_
    · obtain ⟨b, -, rfl⟩ := List.mem_map.mp hl
      exact Bool.false_ne_true (hsep.symm.trans (Text.isDigit_of_mem_toDigits hmem))
    · intro hnil
      have hlen := congrArg List.length hnil
      rw [List.length_map, length_toBytes, List.length_nil] at hlen
      omega
  have hnumbers : ∀ bs : List Byte,
      (bs.map fun b => Nat.toDigits 10 b.toNat).mapM Text.ofDigits =
        some (bs.map BitVec.toNat) := by
    intro bs
    induction bs with
    | nil => rfl
    | cons b bs ih =>
      rw [List.map_cons, List.mapM_cons, Text.ofDigits_toDigits, ih]
      rfl
  have hback : ((toBytes a).map BitVec.toNat).map (BitVec.ofNat 8) = toBytes a := by
    rw [List.map_map]
    exact List.map_id'' (fun b => by simp) _
  rw [parsed, hsplit, hnumbers, Option.map_some, hback]
  exact congrArg some (Endian.word_bytes .big hw a)

/-- What is behind the bytes in the text of an address with a scope id. -/
def scopeSuffix : List Char → List Char
  | [] => []
  | scopeId => '%' :: scopeId

def parsed6 (s : List Char) : Option (BitVec 128) :=
  if '%' ∈ s then none else parsed 128 ':' s

theorem parsed6_joined (a : BitVec 128) (scopeId : List Char) :
    parsed6 (joined ':' (toBytes a) ++ scopeSuffix scopeId) =
      if scopeId = [] then some a else none := by
  have hscope : '%' ∉ joined ':' (toBytes a) := not_mem_joined (by decide) rfl _
  cases scopeId with
  | nil =>
    rw [scopeSuffix, List.append_nil, parsed6, if_neg hscope, if_pos rfl]
    exact parsed_joined (by decide) (by decide) rfl a
  | cons c scopeId =>
    rw [parsed6, if_pos, if_neg (List.cons_ne_nil c scopeId)]
    exact List.mem_append_right _ List.mem_cons_self

/-- A host whose socket takes every message. -/
def host : System where
  endian := .little
  getpid := 4242
  ifindex := 7
  toString
    | .null => []
    | .ipv4 a => joined '.' (toBytes a)
    | .ipv6 a scopeId => joined ':' (toBytes a) ++ scopeSuffix scopeId
  inetPton4 := parsed 32 '.'
  inetPton6 := parsed6
  sendto bs := bs.length

theorem lawful_host : Lawful host where
  inetPton4 a := parsed_joined (by decide) (by decide) rfl a
  inetPton6 a := (parsed6_joined a []).trans (if_pos rfl)
  inetPton6_scopeId a scopeId b h := by
    have hparsed := (parsed6_joined a scopeId).symm.trans h
    split at hparsed
    · exact (Option.some.inj hparsed).symm
    · cases hparsed

/-- The network 10.0.0.0/8. -/
def private10 : IPAddress := { address := .ipv4 0x0a000000, prefixLength := 8 }

theorem messages_wellFormed_private10 :
    ∃ dstLen : Byte, (dstLen.toNat : ℤ) = private10.prefixLength ∧
      Carries host (rtmSendRoute host 1 24 private10 rtnUnicast 0) 1 24 (0 ||| 1 ||| 4)
        { family := 2, dstLen, protocol := rtprotBoot, type := 1 }
        (routeAttrs host private10.address rtnUnicast) := by
  have hvalid : private10.Valid := ⟨by decide, by decide, by decide⟩
  obtain ⟨dstLen, hlen, hroute, -⟩ :=
    messages_wellFormed lawful_host hvalid 1 24 rtnUnicast 0 afInet
  exact ⟨dstLen, hlen, hroute (.inl trivial)⟩

end WgDesktop.RouteMessages
