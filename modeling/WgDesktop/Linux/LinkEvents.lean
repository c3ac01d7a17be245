import WgDesktop.Lib.Runs
import WgDesktop.Linux.RouteMessages

/-!
# Local networks and link events

The netlink socket of `src/platforms/linux/daemon/wireguardutilslinux.cpp`, both ways. Routes that
take the local networks out of the tunnel are not removed with the interface, so they are kept in
`m_routesExcluded` until `nlsockReady` finds that the interface is gone.

`nlsockReady_messages` says what a datagram does: its messages are handled one after the other, and
nothing that an earlier datagram has left in the buffer matters. `Inv` holds along every run: a route
out of the tunnel that was asked for leads to a range in `m_routesExcluded`. By it no such route is
left when the interface is gone, `asked_run`.
-/

namespace WgDesktop.LinkEvents

open Bytes Attributes RouteMessages

/-! ## Constants -/

def nlmsgDone : BitVec 16 := 3

def rtmNewlink : BitVec 16 := 16

def rtmDellink : BitVec 16 := 17

def rtmNewroute : BitVec 32 := 24

def rtmDelroute : BitVec 32 := 25

def rtmNewrule : BitVec 32 := 32

def rtmDelrule : BitVec 32 := 33

def rtnThrow : BitVec 32 := 9

def nlmFReplace : BitVec 32 := 0x100

def nlmFCreate : BitVec 32 := 0x400

/-! ## The members of the class -/

/-- The members that the functions below use, and the messages that the socket has taken. -/
structure State where
  nlseq : BitVec 32 := 0
  recvbuf : List Byte
  ifindex : BitVec 32 := 0
  ifflags : BitVec 32 := 0
  routesExcluded : List IPAddress := []
  sent : List (List Byte) := []

section Members

variable (sys : System)

/-- The end of a sender. -/
def State.transmit (s : State) (outcome : Outcome) : State :=
  { s with
    nlseq := outcome.nlseq
    sent := s.sent ++ if outcome.ok then outcome.sent.toList else [] }

/-- The class as the senders see it. -/
def State.system (s : State) : System := { sys with ifindex := s.ifindex }

def sendRoute (s : State) (action : BitVec 32) (dest : IPAddress) (type flags : BitVec 32) :
    Bool × State :=
  let outcome := rtmSendRoute (s.system sys) s.nlseq action dest type flags
  (outcome.ok, s.transmit outcome)

def sendRule (s : State) (action flags addrfamily : BitVec 32) : Bool × State :=
  let outcome := rtmSendRule (s.system sys) s.nlseq action flags addrfamily
  (outcome.ok, s.transmit outcome)

def includePeer (action flags : BitVec 32) (s : State) (dest : IPAddress) : State :=
  s.transmit (rtmIncludePeer (s.system sys) s.nlseq action dest flags)

def updateRoutePrefix (s : State) (range : IPAddress) : Bool × State :=
  sendRoute sys s rtmNewroute range rtnUnicast (nlmFCreate ||| nlmFReplace)

def deleteRoutePrefix (s : State) (range : IPAddress) : Bool × State :=
  sendRoute sys s rtmDelroute range rtnUnicast 0

def excludeLocalNetworks (s : State) (lanAddressRanges : List IPAddress) : State :=
  lanAddressRanges.foldl
    (fun s range =>
      (sendRoute sys { s with routesExcluded := s.routesExcluded ++ [range] } rtmNewroute range
        rtnThrow (nlmFCreate ||| nlmFReplace)).2) s

/-- `addInterface` from the rules on. `firewallUp` tells whether the firewall was configured, and
`index` is what `if_nametoindex` returns. -/
def addInterface (s : State) (firewallUp : Bool) (index : BitVec 32) : Bool × State :=
  let flags := nlmFRequest ||| nlmFCreate ||| nlmFReplace ||| nlmFAck
  match sendRule sys s rtmNewrule flags afInet with
  | (false, s) => (false, s)
  | (true, s) =>
    match sendRule sys s rtmNewrule flags afInet6 with
    | (false, s) => (false, s)
    | (true, s) =>
      if firewallUp then (index ≠ 0, { s with ifindex := index }) else (false, s)

/-- The rules that `deleteInterface` clears. -/
def deleteInterface (s : State) : Bool × State :=
  match sendRule sys s rtmDelrule (nlmFRequest ||| nlmFAck) afInet with
  | (false, s) => (false, s)
  | (true, s) => sendRule sys s rtmDelrule (nlmFRequest ||| nlmFAck) afInet6

/-! ### The socket -/

/-- `ifinfomsg`: the index and flags behind the header of a message. -/
def ifinfo (payload : List Byte) : Option (BitVec 32 × BitVec 32) := do
  let (index, rest) ← sys.endian.read 32 (payload.drop 4)
  let (flags, _) ← sys.endian.read 32 rest
  return (index, flags)

def nlsockHandleNewlink (s : State) (payload : List Byte) : State :=
  match ifinfo sys payload with
  | none => s
  | some (index, flags) => if index ≠ s.ifindex then s else { s with ifflags := flags }

def nlsockHandleDellink (s : State) (payload : List Byte) : State :=
  match ifinfo sys payload with
  | none => s
  | some (index, _) =>
    if index ≠ s.ifindex then s
    else
      { s.routesExcluded.foldl (fun s range => (sendRoute sys s rtmDelroute range rtnThrow 0).2) s
        with routesExcluded := [], ifindex := 0, ifflags := 0 }

/-- What a message does that does not end the loop. Padding is skipped, and an error or a message of
another type only logged. -/
def handle (s : State) (type : BitVec 16) (payload : List Byte) : State :=
  if type = rtmNewlink then nlsockHandleNewlink sys s payload
  else if type = rtmDellink then nlsockHandleDellink sys s payload
  else s

/-- The loop of `nlsockReady` at `nlmsg`, with the buffer from there on and the length that is left
of the datagram. -/
def nlsockLoop (s : State) (nlmsg : List Byte) (len : ℕ) : State :=
  match Nlmsghdr.read sys.endian nlmsg with
  | none => s
  | some (header, payload) =>
    if _h : 16 ≤ len ∧ 16 ≤ header.len.toNat ∧ header.len.toNat ≤ len then
      if header.type = nlmsgDone then s
      else
        nlsockLoop (handle sys s header.type payload) (nlmsg.drop (align header.len.toNat))
          (len - align header.len.toNat)
    else s
termination_by len
decreasing_by
  have hle := le_align header.len.toNat
  omega

/-- `datagram` is what `recv` has written over the front of the buffer, if anything. -/
def nlsockReady (s : State) (datagram : List Byte) : State :=
  if datagram = [] then s
  else
    let s := { s with recvbuf := datagram ++ s.recvbuf.drop datagram.length }
    nlsockLoop sys s s.recvbuf datagram.length

end Members

/-! ## Datagrams -/

/-- A message with what is behind its header. -/
structure Msg where
  header : Nlmsghdr
  payload : List Byte

/-- A message as the kernel writes it, with padding behind. -/
def Msg.bytes (E : Endian) (m : Msg) : List Byte :=
  m.header.bytes E ++ (m.payload ++ List.replicate (align m.payload.length - m.payload.length) 0)

/-- The header has the length, and a message about a link has an `ifinfomsg`. -/
structure Msg.Whole (m : Msg) : Prop where
  len_eq : m.header.len.toNat = 16 + m.payload.length
  ifinfo : m.header.type = rtmNewlink ∨ m.header.type = rtmDellink → 12 ≤ m.payload.length

section Datagrams

variable {sys : System}

variable (sys) in
/-- The messages up to the one that ends the datagram. -/
def runMsgs (s : State) : List Msg → State
  | [] => s
  | m :: msgs =>
    if m.header.type = nlmsgDone then s
    else runMsgs (handle sys s m.header.type m.payload) msgs

theorem Msg.length_bytes (E : Endian) {m : Msg} (h : m.Whole) :
    (m.bytes E).length = align m.header.len.toNat := by
  have hle := le_align m.payload.length
  rw [Msg.bytes, List.length_append, length_bytes_nlmsghdr, List.length_append,
    List.length_replicate, h.len_eq]
  simp only [align] at hle ⊢
  omega

theorem read_of_le (E : Endian) {w : ℕ} {bs : List Byte} (h : w / 8 ≤ bs.length)
    (rest : List Byte) :
    E.read w (bs ++ rest) = some (E.word (bs.take (w / 8)), bs.drop (w / 8) ++ rest) := by
  rw [Endian.read, if_pos (by rw [List.length_append]; omega), List.take_append_of_le_length h,
    List.drop_append_of_le_length h]

theorem ifinfo_append {payload : List Byte} (h : 12 ≤ payload.length) (rest : List Byte) :
    ifinfo sys (payload ++ rest) = ifinfo sys payload := by
  have hread : ∀ behind, ifinfo sys (payload ++ behind) =
      some (sys.endian.word ((payload.drop 4).take 4),
        sys.endian.word (((payload.drop 4).drop 4).take 4)) := by
    intro behind
    have hindex : 32 / 8 ≤ (payload.drop 4).length := by
      rw [List.length_drop]
      omega
    have hflags : 32 / 8 ≤ ((payload.drop 4).drop 4).length := by
      rw [List.length_drop, List.length_drop]
      omega
    rw [ifinfo, List.drop_append_of_le_length (by omega)]
    simp only [read_of_le sys.endian hindex, read_of_le sys.endian hflags, Option.bind_eq_bind,
      Option.bind_some]
    rfl
  rw [hread rest, ← hread [], List.append_nil]

theorem handle_append (s : State) {m : Msg} (h : m.Whole) (rest : List Byte) :
    handle sys s m.header.type (m.payload ++ rest) = handle sys s m.header.type m.payload := by
  rw [handle, handle]
  split_ifs with hnew hdel
  · rw [nlsockHandleNewlink, nlsockHandleNewlink, ifinfo_append (h.ifinfo (.inl hnew))]
  · rw [nlsockHandleDellink, nlsockHandleDellink, ifinfo_append (h.ifinfo (.inr hdel))]
  · rfl

theorem nlsockLoop_msgs (s : State) {msgs : List Msg} (h : ∀ m ∈ msgs, m.Whole)
    (behind : List Byte) :
    nlsockLoop sys s (msgs.flatMap (Msg.bytes sys.endian) ++ behind)
      (msgs.flatMap (Msg.bytes sys.endian)).length = runMsgs sys s msgs := by
  induction msgs generalizing s with
  | nil =>
    rw [nlsockLoop, runMsgs]
    split
    · rfl
    · rw [dif_neg]
      simp
  | cons m msgs ih =>
    rw [List.forall_mem_cons] at h
    have hlen := Msg.length_bytes sys.endian h.1
    have hle := le_align m.header.len.toNat
    have hread : Nlmsghdr.read sys.endian
        ((m :: msgs).flatMap (Msg.bytes sys.endian) ++ behind) =
          some (m.header, m.payload ++
            (List.replicate (align m.payload.length - m.payload.length) 0 ++
              (msgs.flatMap (Msg.bytes sys.endian) ++ behind))) := by
      rw [List.flatMap_cons, Msg.bytes]
      simp only [List.append_assoc]
      exact read_bytes_nlmsghdr m.header _
    have hok : 16 ≤ ((m :: msgs).flatMap (Msg.bytes sys.endian)).length ∧
        16 ≤ m.header.len.toNat ∧
        m.header.len.toNat ≤ ((m :: msgs).flatMap (Msg.bytes sys.endian)).length := by
      rw [List.flatMap_cons, List.length_append, hlen, h.1.len_eq] at *
      omega
    rw [nlsockLoop, hread, runMsgs]
    simp only
    rw [dif_pos hok, handle_append s h.1]
    split_ifs with hdone
    · rfl
    · rw [← ih _ h.2, List.flatMap_cons, List.append_assoc, ← hlen, List.drop_left,
        List.length_append, Nat.add_sub_cancel_left]

theorem Msg.bytes_ne_nil (E : Endian) (m : Msg) : m.bytes E ≠ [] := by
  refine List.ne_nil_of_length_pos ?_
  rw [Msg.bytes, List.length_append, length_bytes_nlmsghdr]
  omega

/-- **A datagram.** Its messages are handled in order, whatever an earlier one has left. -/
theorem nlsockReady_messages (s : State) {msgs : List Msg} (h : ∀ m ∈ msgs, m.Whole) :
    nlsockReady sys s (msgs.flatMap (Msg.bytes sys.endian)) =
      runMsgs sys
        { s with
          recvbuf := msgs.flatMap (Msg.bytes sys.endian) ++
            s.recvbuf.drop (msgs.flatMap (Msg.bytes sys.endian)).length } msgs := by
  rw [nlsockReady]
  split_ifs with hempty
  · obtain rfl : msgs = [] := by
      cases msgs with
      | nil => rfl
      | cons m msgs =>
        exact absurd (List.append_eq_nil_iff.mp hempty).1 (m.bytes_ne_nil sys.endian)
    rfl
  · exact nlsockLoop_msgs _ h _

/-- The kernel tells that interface 7 is gone, and ends the datagram. -/
def gone7 : List Msg :=
  [{ header := { len := 32, type := rtmDellink, flags := 0, seq := 0, pid := 0 }
     payload := [0, 0, 0, 0, 7, 0, 0, 0, 0, 0, 0, 0, 0, 0, 0, 0] },
    { header := { len := 16, type := nlmsgDone, flags := 0, seq := 0, pid := 0 }
      payload := [] }]

theorem nlsockReady_messages_gone7 :
    (nlsockReady host { recvbuf := List.replicate 64 1, ifindex := 7, ifflags := 1 }
      (gone7.flatMap (Msg.bytes .little))).ifindex = 0 := by
  have hwhole : ∀ m ∈ gone7, m.Whole := by
    intro m hm
    simp only [gone7, List.mem_cons, List.not_mem_nil, or_false] at hm
    rcases hm with rfl | rfl
    · exact ⟨by decide, fun _ => by decide⟩
    · exact ⟨by decide, fun h => by revert h; decide⟩
  have hready := @nlsockReady_messages host
    { recvbuf := List.replicate 64 1, ifindex := 7, ifflags := 1 } gone7 hwhole
  exact (congrArg State.ifindex hready).trans (by decide +kernel)

end Datagrams

/-! ## Routes out of the tunnel -/

/-- What tells the routes of a table apart. -/
structure Destination where
  family : Byte
  dstLen : Byte
  dst : Option (List Byte)
  deriving DecidableEq, Repr

/-- The destination that a message is about. -/
def destination (m : Message) : Destination :=
  { family := m.rtm.family
    dstLen := m.rtm.dstLen
    dst := (m.attrs.find? (·.type = rtaDst.setWidth 16)).map Attr.data }

/-- The routes out of the tunnel that were asked for, after one more message. -/
def ask (E : Endian) (routes : List Destination) (bs : List Byte) : List Destination :=
  match decode E bs with
  | none => routes
  | some m =>
    if m.rtm.type = rtnThrow.setWidth 8 then
      if m.nlmsg.type = rtmNewroute.setWidth 16 then destination m :: routes
      else if m.nlmsg.type = rtmDelroute.setWidth 16 then routes.filter (· ≠ destination m)
      else routes
    else routes

/-- The routes out of the tunnel that the class asked for and did not ask to remove. -/
def State.asked (E : Endian) (s : State) : List Destination := s.sent.foldl (ask E) []

/-- The destination of the messages about a range. -/
def destinationOf (range : IPAddress) : Destination :=
  { family := addressFamily range.address
    dstLen := BitVec.ofInt 8 range.prefixLength
    dst := some (addressBytes range.address) }

section Excluded

variable {sys : System}

variable (sys) in
/-- A message about the range can be sent. -/
def Sendable (range : IPAddress) : Prop := ∃ ip, buildAllowedIp sys range = some ip

variable (sys) in
/-- Every route out of the tunnel is known to lead to an excluded range. -/
def Inv (s : State) : Prop :=
  ∀ d ∈ s.asked sys.endian, ∃ range ∈ s.routesExcluded, Sendable sys range ∧ destinationOf range = d

theorem lawful_system (hlaw : Lawful sys) (s : State) : Lawful (s.system sys) :=
  ⟨hlaw.inetPton4, hlaw.inetPton6, hlaw.inetPton6_scopeId⟩

@[simp] theorem routesExcluded_transmit (s : State) (outcome : Outcome) :
    (s.transmit outcome).routesExcluded = s.routesExcluded := rfl

@[simp] theorem ifindex_transmit (s : State) (outcome : Outcome) :
    (s.transmit outcome).ifindex = s.ifindex := rfl

theorem asked_transmit {s : State} {outcome : Outcome} {nlseq action flags : BitVec 32}
    {rtm : Rtmsg} {attrs : List Attr}
    (h : Carries (s.system sys) outcome nlseq action flags rtm attrs) :
    ∃ bs m, decode sys.endian bs = some m ∧ m.nlmsg.type = action.setWidth 16 ∧ m.rtm = rtm ∧
      m.attrs = attrs ∧
      (s.transmit outcome).asked sys.endian =
        if sys.sendto bs = bs.length then ask sys.endian (s.asked sys.endian) bs
        else s.asked sys.endian := by
  obtain ⟨bs, len, -, rfl, hdecode⟩ := h
  refine ⟨bs, _, hdecode, rfl, rfl, rfl, ?_⟩
  have hsendto : (s.system sys).sendto bs = sys.sendto bs := rfl
  by_cases hok : sys.sendto bs = bs.length
  · simp [State.asked, State.transmit, hsendto, hok]
  · simp [State.asked, State.transmit, hsendto, hok]

theorem asked_transmit_none {s : State} {outcome : Outcome} (h : outcome.sent = none) :
    (s.transmit outcome).asked sys.endian = s.asked sys.endian := by
  simp [State.asked, State.transmit, h]

theorem asked_transmit_other {s : State} {outcome : Outcome} {nlseq action flags : BitVec 32}
    {rtm : Rtmsg} {attrs : List Attr}
    (h : Carries (s.system sys) outcome nlseq action flags rtm attrs)
    (htype : rtm.type ≠ rtnThrow.setWidth 8) :
    (s.transmit outcome).asked sys.endian = s.asked sys.endian := by
  obtain ⟨bs, m, hdecode, -, rfl, -, hasked⟩ := asked_transmit h
  rw [hasked, ask, hdecode]
  simp only
  rw [if_neg htype, ite_self]

/-! ### The senders -/

theorem destination_of_route {dest : IPAddress} {type : BitVec 32} {m : Message} {protocol : Byte}
    (hrtm : m.rtm =
      { family := addressFamily dest.address, dstLen := BitVec.ofInt 8 dest.prefixLength,
        protocol := protocol, type := type.setWidth 8 })
    (hattrs : m.attrs = routeAttrs sys dest.address type) : destination m = destinationOf dest := by
  rw [destination, hrtm, hattrs]
  rfl

theorem asked_sendRoute_of_not_sendable {s : State} {dest : IPAddress} (h : ¬ Sendable sys dest)
    (action type flags : BitVec 32) :
    (sendRoute sys s action dest type flags).2.asked sys.endian = s.asked sys.endian := by
  have hnone : buildAllowedIp (s.system sys) dest = none :=
    Option.eq_none_iff_forall_ne_some.mpr fun ip hip => h ⟨ip, hip⟩
  refine asked_transmit_none ?_
  rw [rtmSendRoute, hnone]

theorem asked_sendRoute_other (hlaw : Lawful sys) (s : State) (action : BitVec 32)
    (dest : IPAddress) {type : BitVec 32} (flags : BitVec 32)
    (htype : type.setWidth 8 ≠ rtnThrow.setWidth 8) :
    (sendRoute sys s action dest type flags).2.asked sys.endian = s.asked sys.endian := by
  by_cases hdest : Sendable sys dest
  · obtain ⟨ip, hip⟩ := hdest
    exact asked_transmit_other
      (carries_rtmSendRoute (lawful_system hlaw s) hip s.nlseq action type flags) htype
  · exact asked_sendRoute_of_not_sendable hdest action type flags

theorem asked_sendRoute_add (hlaw : Lawful sys) (s : State) (dest : IPAddress) (flags : BitVec 32)
    {d : Destination}
    (hd : d ∈ (sendRoute sys s rtmNewroute dest rtnThrow flags).2.asked sys.endian) :
    d ∈ s.asked sys.endian ∨ Sendable sys dest ∧ destinationOf dest = d := by
  by_cases hdest : Sendable sys dest
  · obtain ⟨ip, hip⟩ := hdest
    obtain ⟨bs, m, hdecode, htype, hrtm, hattrs, hasked⟩ := asked_transmit
      (carries_rtmSendRoute (lawful_system hlaw s) hip s.nlseq rtmNewroute rtnThrow flags)
    have hthrow : m.rtm.type = rtnThrow.setWidth 8 := by rw [hrtm]
    rw [sendRoute, hasked, ask, hdecode] at hd
    simp only [hthrow, htype, if_true, destination_of_route hrtm hattrs] at hd
    split_ifs at hd with hok
    · rcases List.mem_cons.mp hd with rfl | hd
      · exact .inr ⟨⟨ip, hip⟩, rfl⟩
      · exact .inl hd
    · exact .inl hd
  · rw [asked_sendRoute_of_not_sendable hdest] at hd
    exact .inl hd

variable (sys) in
/-- The socket takes every request to remove a route. -/
def TakesRemovals : Prop :=
  ∀ bs m, decode sys.endian bs = some m → m.nlmsg.type = rtmDelroute.setWidth 16 →
    sys.sendto bs = bs.length

/-- No route out of the tunnel to a range whose removal was asked for. -/
theorem asked_sendRoute_remove (hlaw : Lawful sys) (hsend : TakesRemovals sys) (s : State)
    (dest : IPAddress) (flags : BitVec 32) {d : Destination}
    (hd : d ∈ (sendRoute sys s rtmDelroute dest rtnThrow flags).2.asked sys.endian) :
    d ∈ s.asked sys.endian ∧ (Sendable sys dest → destinationOf dest ≠ d) := by
  by_cases hdest : Sendable sys dest
  · obtain ⟨ip, hip⟩ := hdest
    obtain ⟨bs, m, hdecode, htype, hrtm, hattrs, hasked⟩ := asked_transmit
      (carries_rtmSendRoute (lawful_system hlaw s) hip s.nlseq rtmDelroute rtnThrow flags)
    have hthrow : m.rtm.type = rtnThrow.setWidth 8 := by rw [hrtm]
    have hnew : ¬ rtmDelroute.setWidth 16 = rtmNewroute.setWidth 16 := by decide
    rw [sendRoute, hasked, if_pos (hsend bs m hdecode htype), ask, hdecode] at hd
    simp only [hthrow, htype, hnew, if_true, if_false, destination_of_route hrtm hattrs] at hd
    obtain ⟨hmem, hne⟩ := List.mem_filter.mp hd
    exact ⟨hmem, fun _ h => of_decide_eq_true hne h.symm⟩
  · rw [asked_sendRoute_of_not_sendable hdest] at hd
    exact ⟨hd, fun h => absurd h hdest⟩

theorem asked_sendRule (s : State) (action flags addrfamily : BitVec 32) :
    (sendRule sys s action flags addrfamily).2.asked sys.endian = s.asked sys.endian :=
  have htype : frActToTbl ≠ rtnThrow.setWidth 8 := by decide
  asked_transmit_other (carries_rtmSendRule s.nlseq action flags addrfamily) htype

theorem asked_includePeer (s : State) (action flags : BitVec 32) (dest : IPAddress) :
    (includePeer sys action flags s dest).asked sys.endian = s.asked sys.endian := by
  by_cases hnull : dest.address = .null
  · refine asked_transmit_none ?_
    rw [rtmIncludePeer, hnull]
  · have htype : frActToTbl ≠ rtnThrow.setWidth 8 := by decide
    exact asked_transmit_other (carries_rtmIncludePeer_of_ne hnull s.nlseq action flags) htype

/-! ### The steps -/

theorem Inv.of_eq {s s' : State} (h : Inv sys s)
    (hasked : s'.asked sys.endian = s.asked sys.endian)
    (hexcluded : s'.routesExcluded = s.routesExcluded) : Inv sys s' := by
  rw [Inv, hasked, hexcluded]
  exact h

theorem Inv.sendRule {s : State} (h : Inv sys s) (action flags addrfamily : BitVec 32) :
    Inv sys (sendRule sys s action flags addrfamily).2 :=
  h.of_eq (asked_sendRule s action flags addrfamily) rfl

theorem Inv.includePeers {s : State} (h : Inv sys s) (action flags : BitVec 32)
    (ranges : List IPAddress) : Inv sys (ranges.foldl (includePeer sys action flags) s) :=
  Runs.foldl_invariant
    (fun s range hs => hs.of_eq (asked_includePeer s action flags range) rfl) h ranges

theorem Inv.addInterface {s : State} (h : Inv sys s) (firewallUp : Bool) (index : BitVec 32) :
    Inv sys (addInterface sys s firewallUp index).2 := by
  rw [LinkEvents.addInterface]
  have hfirst := h.sendRule rtmNewrule (nlmFRequest ||| nlmFCreate ||| nlmFReplace ||| nlmFAck)
    afInet
  generalize LinkEvents.sendRule sys s _ _ afInet = first at hfirst
  obtain ⟨ok, s⟩ := first
  cases ok with
  | false => exact hfirst
  | true =>
    have hsecond := hfirst.sendRule rtmNewrule
      (nlmFRequest ||| nlmFCreate ||| nlmFReplace ||| nlmFAck) afInet6
    simp only at hsecond ⊢
    generalize LinkEvents.sendRule sys s _ _ afInet6 = second at hsecond
    obtain ⟨ok, s⟩ := second
    cases ok with
    | false => exact hsecond
    | true =>
      simp only
      split_ifs
      · exact hsecond.of_eq rfl rfl
      · exact hsecond

theorem Inv.deleteInterface {s : State} (h : Inv sys s) :
    Inv sys (deleteInterface sys s).2 := by
  rw [LinkEvents.deleteInterface]
  have hfirst := h.sendRule rtmDelrule (nlmFRequest ||| nlmFAck) afInet
  generalize LinkEvents.sendRule sys s _ _ afInet = first at hfirst
  obtain ⟨ok, s⟩ := first
  cases ok with
  | false => exact hfirst
  | true => exact hfirst.sendRule rtmDelrule (nlmFRequest ||| nlmFAck) afInet6

theorem Inv.excludeLocalNetworks (hlaw : Lawful sys) {s : State} (h : Inv sys s)
    (lanAddressRanges : List IPAddress) : Inv sys (excludeLocalNetworks sys s lanAddressRanges) := by
  refine Runs.foldl_invariant (fun s range hs d hd => ?_) h lanAddressRanges
  rcases asked_sendRoute_add hlaw _ range _ hd with hd | ⟨hsendable, hdest⟩
  · obtain ⟨range', hmem, hrange'⟩ := hs d hd
    exact ⟨range', List.mem_append_left _ hmem, hrange'⟩
  · exact ⟨range, List.mem_append_right _ (List.mem_singleton_self range), hsendable, hdest⟩

theorem asked_removeAll (hlaw : Lawful sys) (hsend : TakesRemovals sys) (ranges : List IPAddress)
    (s : State) {d : Destination}
    (hd : d ∈ (ranges.foldl
      (fun s range => (sendRoute sys s rtmDelroute range rtnThrow 0).2) s).asked sys.endian) :
    d ∈ s.asked sys.endian ∧ ∀ range ∈ ranges, Sendable sys range → destinationOf range ≠ d := by
  induction ranges generalizing s with
  | nil => exact ⟨hd, List.forall_mem_nil _⟩
  | cons range ranges ih =>
    obtain ⟨hfirst, hrest⟩ := ih _ hd
    obtain ⟨hmem, hne⟩ := asked_sendRoute_remove hlaw hsend s range 0 hfirst
    exact ⟨hmem, List.forall_mem_cons.mpr ⟨hne, hrest⟩⟩

theorem asked_nlsockHandleDellink (hlaw : Lawful sys) (hsend : TakesRemovals sys) {s : State}
    (h : Inv sys s) {payload : List Byte} {flags : BitVec 32}
    (hinfo : ifinfo sys payload = some (s.ifindex, flags)) :
    (nlsockHandleDellink sys s payload).asked sys.endian = [] := by
  rw [nlsockHandleDellink, hinfo]
  simp only [ne_eq, not_true_eq_false, if_false]
  refine List.eq_nil_iff_forall_not_mem.mpr fun d hd => ?_
  obtain ⟨hmem, hne⟩ := asked_removeAll hlaw hsend s.routesExcluded s hd
  obtain ⟨range, hrange, hsendable, hdest⟩ := h d hmem
  exact hne range hrange hsendable hdest

theorem Inv.handle (hlaw : Lawful sys) (hsend : TakesRemovals sys) {s : State} (h : Inv sys s)
    (type : BitVec 16) (payload : List Byte) : Inv sys (handle sys s type payload) := by
  rw [LinkEvents.handle]
  split_ifs
  · rw [nlsockHandleNewlink]
    split
    · exact h
    · split_ifs
      · exact h
      · exact h.of_eq rfl rfl
  · rcases hinfo : ifinfo sys payload with _ | ⟨index, flags⟩
    · rw [nlsockHandleDellink, hinfo]
      exact h
    · by_cases hindex : index = s.ifindex
      · subst hindex
        intro d hd
        rw [asked_nlsockHandleDellink hlaw hsend h hinfo] at hd
        cases hd
      · rw [nlsockHandleDellink, hinfo]
        simp only [ne_eq, hindex, not_false_eq_true, if_true]
        exact h
  · exact h

theorem Inv.nlsockLoop (hlaw : Lawful sys) (hsend : TakesRemovals sys) {s : State} (h : Inv sys s)
    (nlmsg : List Byte) (len : ℕ) : Inv sys (nlsockLoop sys s nlmsg len) := by
  fun_induction LinkEvents.nlsockLoop sys s nlmsg len with
  | case1 => exact h
  | case2 => exact h
  | case3 s nlmsg len header payload _ _ _ ih => exact ih (h.handle hlaw hsend header.type payload)
  | case4 => exact h

/-! ### Runs -/

/-- What is called, and a datagram that arrives. A peer at the entry of a connection over two
servers has ranges of its own. -/
inductive Event where
  | addInterface (firewallUp : Bool) (index : BitVec 32)
  | deleteInterface
  | updatePeer (ranges : List IPAddress)
  | deletePeer (ranges : List IPAddress)
  | updateRoutePrefix (range : IPAddress)
  | deleteRoutePrefix (range : IPAddress)
  | excludeLocalNetworks (lanAddressRanges : List IPAddress)
  | nlsockReady (datagram : List Byte)

variable (sys) in
def step (s : State) : Event → State
  | .addInterface firewallUp index => (addInterface sys s firewallUp index).2
  | .deleteInterface => (deleteInterface sys s).2
  | .updatePeer ranges => ranges.foldl (includePeer sys rtmNewrule (nlmFCreate ||| nlmFReplace)) s
  | .deletePeer ranges => ranges.foldl (includePeer sys rtmDelrule 0) s
  | .updateRoutePrefix range => (updateRoutePrefix sys s range).2
  | .deleteRoutePrefix range => (deleteRoutePrefix sys s range).2
  | .excludeLocalNetworks lanAddressRanges => excludeLocalNetworks sys s lanAddressRanges
  | .nlsockReady datagram => nlsockReady sys s datagram

theorem Inv.step (hlaw : Lawful sys) (hsend : TakesRemovals sys) {s : State} (h : Inv sys s)
    (event : Event) : Inv sys (step sys s event) := by
  cases event with
  | addInterface firewallUp index => exact h.addInterface firewallUp index
  | deleteInterface => exact h.deleteInterface
  | updatePeer ranges => exact h.includePeers _ _ ranges
  | deletePeer ranges => exact h.includePeers _ _ ranges
  | updateRoutePrefix range =>
    exact h.of_eq (asked_sendRoute_other hlaw s rtmNewroute range _ (by decide)) rfl
  | deleteRoutePrefix range =>
    exact h.of_eq (asked_sendRoute_other hlaw s rtmDelroute range _ (by decide)) rfl
  | excludeLocalNetworks lanAddressRanges => exact h.excludeLocalNetworks hlaw lanAddressRanges
  | nlsockReady datagram =>
    show Inv sys (nlsockReady sys s datagram)
    rw [nlsockReady]
    split_ifs
    · exact h
    · have hbuf : Inv sys { s with recvbuf := datagram ++ s.recvbuf.drop datagram.length } :=
        h.of_eq rfl rfl
      exact hbuf.nlsockLoop hlaw hsend _ _

theorem inv_run (hlaw : Lawful sys) (hsend : TakesRemovals sys) (recvbuf : List Byte)
    (events : List Event) : Inv sys (events.foldl (step sys) { recvbuf }) := by
  refine Runs.foldl_invariant (fun s event h => h.step hlaw hsend event) ?_ events
  intro d hd
  cases hd

/-- **No route is left.** In every run, the routes out of the tunnel that were not asked back lead
to the ranges in `m_routesExcluded`, and the message that the interface is gone leaves none. -/
theorem asked_run (hlaw : Lawful sys) (hsend : TakesRemovals sys) (recvbuf : List Byte)
    (events : List Event) :
    let s := events.foldl (step sys) { recvbuf }
    (∀ d ∈ s.asked sys.endian, ∃ range ∈ s.routesExcluded, destinationOf range = d) ∧
      ∀ payload flags, ifinfo sys payload = some (s.ifindex, flags) →
        (nlsockHandleDellink sys s payload).asked sys.endian = [] := by
  have hinv := inv_run hlaw hsend recvbuf events
  refine ⟨fun d hd => ?_, fun payload flags hinfo => ?_⟩
  · obtain ⟨range, hmem, -, hdest⟩ := hinv d hd
    exact ⟨range, hmem, hdest⟩
  · exact asked_nlsockHandleDellink hlaw hsend hinv hinfo

/-- A host excludes 10.0.0.0/8 behind interface 7. -/
theorem asked_run_private10 :
    let s := [Event.addInterface true 7, .excludeLocalNetworks [private10]].foldl (step host)
      { recvbuf := [] }
    s.asked .little = [destinationOf private10] ∧
      (nlsockHandleDellink host s [0, 0, 0, 0, 7, 0, 0, 0, 1, 0, 0, 0]).asked .little = [] := by
  have hsend : TakesRemovals host := fun _ _ _ _ => rfl
  have hgone := (asked_run lawful_host hsend []
    [.addInterface true 7, .excludeLocalNetworks [private10]]).2
    [0, 0, 0, 0, 7, 0, 0, 0, 1, 0, 0, 0] 1
  exact ⟨by decide +kernel, hgone (by decide +kernel)⟩

end Excluded

end WgDesktop.LinkEvents
