import WgDesktop.Socks5.ProxyConnection
import WgDesktop.Socks5.Reading

/-!
# SOCKS5 as a proxy protocol

What `Socks5Connection` does besides reading its handshake: the answers of the resolver and the
signals of the destination's socket. `reads_socks5` says which stream it has read a request from,
and what it does with the bytes behind it: it leaves them alone, unless they come to the length of
another address before the destination is connected.
-/

namespace WgDesktop.Socks5Connection

open Bytes

def proxyState : Socks5State → ProxyState
  | .closed => .closed
  | .proxy => .proxy
  | .resolve => .resolve
  | _ => .handshake

/-- The bytes of a `ServerResponsePacket` for an established connection. The port is stored as it
is. -/
def successResponse (clientPort : BitVec 16) : List Byte :=
  [0x05, Socks5Reply.success.toByte, 0x00, 0x01, 0x00, 0x00, 0x00, 0x00] ++
    Endian.little.bytes clientPort

def onHostnameResolved (net : Network) (resolved : QHostAddress) (c : Socks5Connection) :
    Socks5Connection :=
  -- there may be several answers
  if c.connects ≠ [] then c
  else { c with destAddress := resolved }.configureOutSocket net c.destPort

def onHostnameNotFound (c : Socks5Connection) : Socks5Connection :=
  c.setError .errorHostUnreachable "Failed to Resolve DNS Query"

/-- `clientPort` is the port of the client's socket, and `destError` the error text of a
destination's. -/
def protocol (net : Network) (clientPort : BitVec 16) (destError : String) :
    ProxyProtocol Socks5Connection where
  state c := proxyState c.state
  available := available
  setAvailable bytes c := { c with available := bytes }
  opened c := c.connects.length
  asked c := !c.resolves.isEmpty
  handshakeRead := handshakeRead net
  onConnected c := { c with sent := c.sent ++ successResponse clientPort, state := .proxy }
  onError c := c.setError .errorGeneral destError
  onHostnameResolved := onHostnameResolved net
  onHostnameNotFound := onHostnameNotFound
  close := close

/-! ## Requests -/

/-- The length of an address of a type, with its port. -/
def addressLength (atype : Byte) (address : List Byte) : Option ℕ :=
  if atype = 0x03 then some (nameLength address) else (ipFormat atype).map fun format => format.1 + 2

/-- What comes behind a request, if it is complete. -/
def payload (stream : List Byte) : Option (List Byte) :=
  (addressBytes stream).bind fun (atype, address) =>
    (addressLength atype address).bind fun length =>
      if length ≤ address.length then some (address.drop length) else none

/-- Nothing is read but the request: a host name is read when it is complete, and when a connection
was begun, what waits on the socket is shorter than another address. -/
def Clean (c : Socks5Connection) : Prop :=
  let r := c.readToAddress
  r.state = .clientConnectionAddress →
    if r.connects = [] then
      r.addressType = 0x03 → r.available = [] ∨ nameLength r.available ≤ r.available.length
    else ∀ length ∈ addressLength r.addressType r.available, r.available.length < length

instance : DecidablePred Clean := fun c =>
  inferInstanceAs (Decidable (c.readToAddress.state = .clientConnectionAddress →
    if c.readToAddress.connects = [] then
      c.readToAddress.addressType = 0x03 → c.readToAddress.available = [] ∨
        nameLength c.readToAddress.available ≤ c.readToAddress.available.length
    else ∀ length ∈ addressLength c.readToAddress.addressType c.readToAddress.available,
      c.readToAddress.available.length < length))

/-- It has opened nothing yet, and is where the stream leads to. -/
structure Before (stream : List Byte) (c : Socks5Connection) : Prop where
  state : c.state.isHandshake = true
  connects : c.connects = []
  resolves : c.resolves = []
  read : c.readToAddress = (initial.feed stream).readToAddress

/-- It waits for the destination that an IP address led to. -/
structure Begun (c : Socks5Connection) : Prop where
  state : c.state = .clientConnectionAddress
  connects : c.connects.length = 1
  resolves : c.resolves = []
  format : ∃ format, ipFormat c.addressType = some format

variable (net : Network) {c : Socks5Connection} {stream : List Byte}

theorem addressBytes_append {atype : Byte} {address : List Byte}
    (h : addressBytes stream = some (atype, address)) (chunk : List Byte) :
    addressBytes (stream ++ chunk) = some (atype, address ++ chunk) := by
  obtain ⟨authNumber, rest, rfl, hoffer, hrest⟩ := addressBytes_eq_some_iff.mp h
  have hlen : authNumber.toNat ≤ rest.length := by
    by_contra hlong
    rw [List.drop_eq_nil_of_le (by omega)] at hrest
    cases hrest
  refine addressBytes_eq_some_iff.mpr ⟨authNumber, rest ++ chunk, rfl, ?_, ?_⟩
  · rw [List.take_append_of_le_length hlen]
    exact hoffer
  · rw [List.drop_append_of_le_length hlen, hrest]
    rfl

theorem addressLength_append {atype : Byte} {address : List Byte} {length : ℕ}
    (h : addressLength atype address = some length) (hle : length ≤ address.length)
    (chunk : List Byte) : addressLength atype (address ++ chunk) = some length := by
  unfold addressLength at h ⊢
  split_ifs at h ⊢ with hname
  · have hne : address ≠ [] := by
      rintro rfl
      obtain rfl := Option.some.inj h
      simp [nameLength] at hle
    rw [nameLength_append hne]
    exact h
  · exact h

theorem payload_eq_some_iff {p : List Byte} :
    payload stream = some p ↔ ∃ atype address length, addressBytes stream = some (atype, address) ∧
      addressLength atype address = some length ∧ length ≤ address.length ∧
      address.drop length = p := by
  unfold payload
  constructor
  · intro h
    obtain ⟨⟨atype, address⟩, hbytes, h⟩ := Option.bind_eq_some_iff.mp h
    obtain ⟨length, hlength, h⟩ := Option.bind_eq_some_iff.mp h
    split_ifs at h with hle
    exact ⟨atype, address, length, hbytes, hlength, hle, Option.some.inj h⟩
  · rintro ⟨atype, address, length, hbytes, hlength, hle, rfl⟩
    rw [hbytes, Option.bind_some]
    dsimp only
    rw [hlength, Option.bind_some, if_pos hle]

theorem payload_append {p : List Byte} (h : payload stream = some p) (chunk : List Byte) :
    payload (stream ++ chunk) = some (p ++ chunk) := by
  obtain ⟨atype, address, length, hbytes, hlength, hle, rfl⟩ := payload_eq_some_iff.mp h
  refine payload_eq_some_iff.mpr ⟨atype, address ++ chunk, length, addressBytes_append hbytes chunk,
    addressLength_append hlength hle chunk, ?_, List.drop_append_of_le_length hle⟩
  rw [List.length_append]
  omega

theorem payload_eq_none_of_lt {atype : Byte} {address : List Byte} {length : ℕ}
    (hbytes : addressBytes stream = some (atype, address))
    (hlength : addressLength atype address = some length) (hlt : address.length < length) :
    payload stream = none := by
  rw [Option.eq_none_iff_forall_ne_some]
  intro p hp
  obtain ⟨atype', address', length', hbytes', hlength', hle, -⟩ := payload_eq_some_iff.mp hp
  obtain ⟨rfl, rfl⟩ := Prod.mk.inj (Option.some.inj (hbytes.symm.trans hbytes'))
  obtain rfl := Option.some.inj (hlength.symm.trans hlength')
  omega

theorem payload_eq_none_of_addressBytes (h : addressBytes stream = none) : payload stream = none := by
  unfold payload
  rw [h, Option.bind_none]

/-! ## What is read -/

theorem proxyState_of_isHandshake {state : Socks5State} (h : state.isHandshake = true) :
    proxyState state = .handshake := by
  cases state with
  | closed => cases h
  | proxy => cases h
  | resolve => cases h
  | clientGreeting => rfl
  | authenticationMethods => rfl
  | clientConnectionRequest => rfl
  | clientConnectionAddress => rfl

theorem feed_nil (c : Socks5Connection) : c.feed [] = c := by
  unfold feed
  rw [List.append_nil]
  exact ite_self c

theorem readToAddress_readToAddress (c : Socks5Connection) :
    c.readToAddress.readToAddress = c.readToAddress := by
  have h := readToAddress_feed c []
  rwa [feed_nil, feed_nil] at h

theorem before_initial (first : List Byte) : Before first { initial with available := first } :=
  ⟨rfl, rfl, rfl, rfl⟩

theorem Before.ne_closed (h : Before stream c) : c.state ≠ .closed := by
  intro hclosed
  have hstate := h.state
  rw [hclosed] at hstate
  cases hstate

theorem Before.arrive (h : Before stream c) (chunk : List Byte) :
    Before (stream ++ chunk) { c with available := c.available ++ chunk } := by
  have hfeed := feed_of_ne_closed h.ne_closed chunk
  refine ⟨h.state, h.connects, h.resolves, ?_⟩
  rw [← hfeed, ← readToAddress_feed, h.read, ← initial_feed_append]

theorem Before.readToAddress (h : Before stream c) : Keeps c (initial.feed stream).readToAddress := by
  rw [← h.read]
  exact keeps_readToAddress c

/-- A stream that leads to an end before the address is no request, whatever follows. -/
theorem addressBytes_eq_none_of_closed (h : (initial.feed stream).readToAddress.state = .closed)
    (chunk : List Byte) : addressBytes (stream ++ chunk) = none := by
  rcases readToAddress_initial (stream ++ chunk) with
    ⟨authNumber, atype, address, -, hat⟩ | ⟨hnone, -⟩
  · rw [initial_feed_append, feed_of_closed h, readToAddress_of_closed h] at hat
    rw [hat] at h
    cases h
  · exact hnone

theorem read_early (h : Before stream c) (hnone : addressBytes stream = none)
    (hearly : (initial.feed stream).readToAddress.Early) :
    (Before stream (c.handshakeRead net) ∧ payload stream = none) ∨
      ((c.handshakeRead net).state = .closed ∧ (c.handshakeRead net).connects = [] ∧
        ∀ chunk, payload (stream ++ chunk) = none) := by
  have hkeeps := h.readToAddress
  have hread : c.handshakeRead net = (initial.feed stream).readToAddress := by
    unfold handshakeRead
    dsimp only
    rw [h.read, if_neg hearly.1]
  rw [hread]
  rcases hkeeps.state h.state with hclosed | hopen
  · refine .inr ⟨hclosed, hkeeps.connects.trans h.connects, fun chunk => ?_⟩
    exact payload_eq_none_of_addressBytes (addressBytes_eq_none_of_closed hclosed chunk)
  · refine .inl ⟨⟨hopen, hkeeps.connects.trans h.connects, hkeeps.resolves.trans h.resolves, ?_⟩,
      payload_eq_none_of_addressBytes hnone⟩
    exact readToAddress_readToAddress _

section Address

variable {authNumber atype : Byte} {address : List Byte}
  (h : Before stream c) (hbytes : addressBytes stream = some (atype, address))
  (hat : (initial.feed stream).readToAddress = atAddress authNumber atype address)

include h hat

theorem handshakeRead_at_address :
    c.handshakeRead net = (atAddress authNumber atype address).readAddress net := by
  unfold handshakeRead
  dsimp only
  rw [h.read, hat]
  exact if_pos rfl

theorem before_at_address : Before stream (atAddress authNumber atype address) := by
  have hkeeps := h.readToAddress
  rw [hat] at hkeeps
  refine ⟨rfl, hkeeps.connects.trans h.connects, hkeeps.resolves.trans h.resolves, ?_⟩
  rw [← hat]
  exact readToAddress_readToAddress _

include hbytes

theorem read_ip {size : ℕ} {ip : List Byte → QHostAddress}
    (hformat : ipFormat atype = some (size, ip)) :
    (Before stream (c.handshakeRead net) ∧ payload stream = none) ∨
      ((c.handshakeRead net).state = .closed ∧ (c.handshakeRead net).connects = [] ∧
        ∃ address, net.socketError address ≠ none) ∨
      (payload stream = some (c.handshakeRead net).available ∧ Begun (c.handshakeRead net)) := by
  have hlength : addressLength atype address = some (size + 2) := by
    have hname : atype ≠ 0x03 := by
      rintro rfl
      cases hformat
    unfold addressLength
    rw [if_neg hname, hformat]
    rfl
  have hbefore := before_at_address h hat
  rw [handshakeRead_at_address net h hat,
    readAddress_of_ipFormat (c := atAddress authNumber atype address) hformat]
  by_cases hlen : size + 2 ≤ address.length
  · rcases @readIpAddress_of_le net (atAddress authNumber atype address) size ip hlen with
      ⟨-, hstate, htype, havailable, connection, hconnects⟩ | ⟨herror, hclosed, hconnects⟩
    · refine .inr (.inr ⟨?_, hstate, ?_, ?_, (size, ip), ?_⟩)
      · rw [havailable]
        exact payload_eq_some_iff.mpr ⟨atype, address, size + 2, hbytes, hlength, hlen, rfl⟩
      · rw [hconnects, hbefore.connects]
        rfl
      · rw [readIpAddress_eq hlen, resolves_configureOutSocket]
        exact hbefore.resolves
      · rw [htype]
        exact hformat
    · exact .inr (.inl ⟨hclosed, hconnects.trans hbefore.connects,
        ⟨_, Option.isSome_iff_ne_none.mp herror⟩⟩)
  · left
    have hwait : (atAddress authNumber atype address).readIpAddress net size ip =
        atAddress authNumber atype address := by
      rcases @readIpAddress_feed net (atAddress authNumber atype address) (by simp [atAddress])
          size ip with ⟨hwait, -⟩ | ⟨hlong, -⟩
      · exact hwait
      · exact absurd hlong hlen
    rw [hwait]
    exact ⟨hbefore, payload_eq_none_of_lt hbytes hlength (by omega)⟩

/-- A stream that has come to a host name: it is there whole, or not at all. -/
theorem read_name (hname : atype = 0x03)
    (hclean : address = [] ∨ nameLength address ≤ address.length) :
    (Before stream (c.handshakeRead net) ∧ payload stream = none) ∨
      (payload stream = some (c.handshakeRead net).available ∧
        (c.handshakeRead net).state = .resolve ∧ (c.handshakeRead net).connects = [] ∧
        (c.handshakeRead net).resolves ≠ []) := by
  subst hname
  have hbefore := before_at_address h hat
  have hlength : addressLength 0x03 address = some (nameLength address) := if_pos rfl
  rw [handshakeRead_at_address net h hat,
    readAddress_of_name (c := atAddress authNumber 0x03 address) rfl]
  cases haddress : address with
  | nil =>
    left
    rw [haddress] at hbefore hbytes hlength
    exact ⟨hbefore, payload_eq_none_of_lt hbytes hlength (by simp [nameLength])⟩
  | cons length rest =>
    right
    have hle : nameLength (length :: rest) ≤ (length :: rest).length := by
      rw [haddress] at hclean
      exact hclean.resolve_left (by simp)
    have hle' : length.toNat + 2 ≤ rest.length := by
      simp only [nameLength, List.length_cons, List.headD_cons] at hle
      omega
    have hread := @readDomainName_eq net (atAddress authNumber 0x03 []) length rest hle'
    have hstart : { atAddress authNumber 0x03 [] with available := length :: rest } =
        atAddress authNumber 0x03 (length :: rest) := rfl
    rw [hstart] at hread
    rw [hread]
    refine ⟨?_, rfl, rfl, by simp⟩
    rw [haddress] at hbytes hlength
    refine payload_eq_some_iff.mpr ⟨0x03, _, _, hbytes, hlength, hle, ?_⟩
    have hdrop : nameLength (length :: rest) = (length.toNat + 2) + 1 := by
      simp only [nameLength, List.headD_cons]
      omega
    rw [hdrop, List.drop_succ_cons]

theorem read_other (hformat : ipFormat atype = none) (hname : atype ≠ 0x03) :
    (c.handshakeRead net).state = .closed ∧ (c.handshakeRead net).connects = [] ∧
      ∀ chunk, payload (stream ++ chunk) = none := by
  have hbefore := before_at_address h hat
  rw [handshakeRead_at_address net h hat,
    readAddress_of_other (c := atAddress authNumber atype address) hformat hname]
  refine ⟨rfl, rfl, fun chunk => ?_⟩
  rw [Option.eq_none_iff_forall_ne_some]
  intro p hp
  obtain ⟨atype', address', length, hbytes', hlength, -⟩ := payload_eq_some_iff.mp hp
  obtain ⟨rfl, -⟩ :=
    Prod.mk.inj (Option.some.inj ((addressBytes_append hbytes chunk).symm.trans hbytes'))
  unfold addressLength at hlength
  rw [if_neg hname, hformat] at hlength
  cases hlength

end Address

/-- **What a connection has read of a stream.** -/
theorem read_before (h : Before stream c) (hclean : Clean c) :
    (Before stream (c.handshakeRead net) ∧ payload stream = none) ∨
      ((c.handshakeRead net).state = .closed ∧ (c.handshakeRead net).connects = [] ∧
        ((∀ address, net.socketError address = none) → ∀ chunk, payload (stream ++ chunk) = none)) ∨
      (payload stream = some (c.handshakeRead net).available ∧
        (Begun (c.handshakeRead net) ∨ (c.handshakeRead net).state = .resolve ∧
          (c.handshakeRead net).connects = [] ∧ (c.handshakeRead net).resolves ≠ [])) := by
  rcases readToAddress_initial stream with ⟨authNumber, atype, address, hbytes, hat⟩ | ⟨hnone, hearly⟩
  · cases hformat : ipFormat atype with
    | some format =>
      rcases @read_ip net c stream authNumber atype address h hbytes hat format.1 format.2 hformat with
        hwait | ⟨hclosed, hconnects, failed, herror⟩ | ⟨hpayload, hbegun⟩
      · exact .inl hwait
      · exact .inr (.inl ⟨hclosed, hconnects, fun hsockets => absurd (hsockets failed) herror⟩)
      · exact .inr (.inr ⟨hpayload, .inl hbegun⟩)
    | none =>
      by_cases hname : atype = 0x03
      · have hwhole : address = [] ∨ nameLength address ≤ address.length := by
          unfold Clean at hclean
          dsimp only at hclean
          rw [h.read, hat] at hclean
          have hat' := hclean rfl
          rw [if_pos (before_at_address h hat).connects] at hat'
          exact hat' hname
        rcases read_name net h hbytes hat hname hwhole with hwait | ⟨hpayload, hresolve⟩
        · exact .inl hwait
        · exact .inr (.inr ⟨hpayload, .inr hresolve⟩)
      · obtain ⟨hclosed, hconnects, hrejected⟩ := read_other net h hbytes hat hformat hname
        exact .inr (.inl ⟨hclosed, hconnects, fun _ => hrejected⟩)
  · rcases read_early net h hnone hearly with hwait | ⟨hclosed, hconnects, hrejected⟩
    · exact .inl hwait
    · exact .inr (.inl ⟨hclosed, hconnects, fun _ => hrejected⟩)

/-- While a destination is being connected, bytes that are no other address wait. -/
theorem Begun.handshakeRead (h : Begun c) (hclean : Clean c) : c.handshakeRead net = c := by
  obtain ⟨format, hformat⟩ := h.format
  have hself : c.readToAddress = c := readToAddress_eq_self (by simp [stages, h.state])
  have hne : c.connects ≠ [] := List.ne_nil_of_length_eq_add_one h.connects
  have hlength : addressLength c.addressType c.available = some (format.1 + 2) := by
    have hname : c.addressType ≠ 0x03 := by
      intro hname
      rw [hname] at hformat
      cases hformat
    unfold addressLength
    rw [if_neg hname, hformat]
    rfl
  have hshort : c.available.length < format.1 + 2 := by
    unfold Clean at hclean
    dsimp only at hclean
    rw [hself] at hclean
    have hclean' := hclean h.state
    rw [if_neg hne] at hclean'
    exact hclean' _ hlength
  rw [handshakeRead_of_address h.state, readAddress_of_ipFormat hformat]
  have hopen : c.state ≠ .closed := by simp [h.state]
  rcases @readIpAddress_feed net c hopen format.1 format.2 with ⟨hwait, -⟩ | ⟨hlong, -⟩
  · exact hwait
  · omega

theorem Begun.setAvailable (h : Begun c) (bytes : List Byte) : Begun { c with available := bytes } :=
  ⟨h.state, h.connects, h.resolves, h.format⟩

theorem proxyState_eq_resolve {state : Socks5State} (h : proxyState state = .resolve) :
    state = .resolve := by
  cases state with
  | resolve => rfl
  | closed => cases h
  | proxy => cases h
  | clientGreeting => cases h
  | authenticationMethods => cases h
  | clientConnectionRequest => cases h
  | clientConnectionAddress => cases h

theorem onHostnameResolved_of_resolve (address : QHostAddress) (hconnects : c.connects = [])
    (hstate : c.state = .resolve) :
    ((c.onHostnameResolved net address).state = .resolve ∧
      (c.onHostnameResolved net address).connects.length = 1 ∧
      (c.onHostnameResolved net address).available = c.available) ∨
    ((c.onHostnameResolved net address).state = .closed ∧
      (c.onHostnameResolved net address).connects = [] ∧ net.socketError address ≠ none) := by
  unfold onHostnameResolved
  rw [if_neg (not_not.mpr hconnects)]
  unfold configureOutSocket
  dsimp only
  cases hsocket : net.socketError address with
  | none => exact .inl ⟨hstate, by simp [hconnects], rfl⟩
  | some error => exact .inr ⟨rfl, (keeps_setError _ _ _).connects.trans hconnects, by simp⟩

theorem reads_socks5 (clientPort : BitVec 16) (destError : String) :
    ProxyConnection.Reads (protocol net clientPort destError) payload Before Begun Clean
      (∀ address, net.socketError address = none) where
  socket := ⟨fun _ _ => rfl, fun _ _ => rfl, fun _ _ => rfl, fun _ _ => rfl⟩
  payload_append chunk h := payload_append h chunk
  early_state h := ⟨proxyState_of_isHandshake h.state, by simp [protocol, h.connects],
    by simp [protocol, h.resolves]⟩
  early_arrive chunk h := h.arrive chunk
  begun_state h :=
    ⟨by simp [protocol, h.state, proxyState], h.connects, by simp [protocol, h.resolves]⟩
  begun_arrive bytes h := h.setAvailable bytes
  begun_read h hclean := h.handshakeRead net hclean
  early_read h hclean := by
    rcases read_before net h hclean with hwait | ⟨hclosed, hconnects, hrejected⟩ |
      ⟨hpayload, hbegun | ⟨hresolve, hconnects, hresolves⟩⟩
    · exact .inl hwait
    · exact .inr (.inl ⟨by simp [protocol, hclosed, proxyState], by simp [protocol, hconnects],
        hrejected⟩)
    · exact .inr (.inr ⟨hpayload, .inl hbegun⟩)
    · exact .inr (.inr ⟨hpayload, .inr ⟨by simp [protocol, hresolve, proxyState],
        by simp [protocol, hconnects], by simpa [protocol] using hresolves⟩⟩)
  connected _ := ⟨rfl, rfl, rfl⟩
  resolved_again address hopened := if_pos fun hnil => hopened (by simp [protocol, hnil])
  resolved address hopened hstate := by
    rcases onHostnameResolved_of_resolve net address (List.length_eq_zero_iff.mp hopened)
        (proxyState_eq_resolve hstate) with ⟨hstate', hlen, havailable⟩ | ⟨hclosed, hnil, herror⟩
    · exact .inl ⟨congrArg proxyState hstate', hlen, havailable⟩
    · exact .inr ⟨congrArg proxyState hclosed, congrArg List.length hnil,
        fun hsockets => herror (hsockets address)⟩
  ends_close _ := ⟨rfl, rfl⟩
  ends_error c := ⟨rfl, congrArg List.length (keeps_setError c _ _).connects⟩
  ends_notFound c := ⟨rfl, congrArg List.length (keeps_setError c _ _).connects⟩

end WgDesktop.Socks5Connection
