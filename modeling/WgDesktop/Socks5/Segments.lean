import WgDesktop.Lib.Runs
import WgDesktop.Socks5.Reading

/-!
# Segmentation of the SOCKS5 handshake

How the result of a handshake depends on the way the client's bytes are cut into arrivals. Cuts
before the address do not matter. A cut inside a host name does, since the name is read with what is
there; so does one behind an IP address, since the next arrival is read as an address again.
-/

namespace WgDesktop.Socks5Connection

open Bytes Runs

variable {net : Network} {c : Socks5Connection}

/-! ## One more arrival -/

theorem addressType_feed (c : Socks5Connection) (chunk : List Byte) :
    (c.feed chunk).addressType = c.addressType := by
  unfold feed
  split_ifs <;> rfl

theorem handshakeRead_of_not_isHandshake (h : c.state.isHandshake = false) :
    c.handshakeRead net = c := by
  unfold handshakeRead
  have hself : c.readToAddress = c := by
    refine readToAddress_eq_self ?_
    cases hstate : c.state <;> simp_all [stages, Socks5State.isHandshake]
  rw [hself]
  refine if_neg fun haddress => ?_
  rw [haddress] at h
  simp [Socks5State.isHandshake] at h

theorem arrive_eq (c : Socks5Connection) (chunk : List Byte) :
    c.arrive net chunk = (c.feed chunk).handshakeRead net := by
  unfold arrive
  dsimp only
  cases h : (c.feed chunk).state.isHandshake with
  | true => rfl
  | false => exact (handshakeRead_of_not_isHandshake h).symm

/-- A connection that is closed, or waits for the resolver, reads nothing. -/
theorem arrive_of_not_isHandshake (h : c.state.isHandshake = false) (chunk : List Byte) :
    c.arrive net chunk = c.feed chunk := by
  rw [arrive_eq]
  exact handshakeRead_of_not_isHandshake (by rw [state_feed]; exact h)

/-- The next chunk neither completes a host name that has begun, nor brings the bytes behind a
complete IP address, whose socket could be made, to the length of another one. -/
def CleanAt (net : Network) (atype : Byte) (address chunk : List Byte) : Prop :=
  (atype = 0x03 → address = [] ∨ nameLength address ≤ address.length ∨
    (address ++ chunk).length < nameLength address) ∧
  ∀ size ip, ipFormat atype = some (size, ip) → address.length < size + 2 ∨
    (address ++ chunk).length < 2 * (size + 2) ∨
    (net.socketError (ip (address.take size))).isSome

/-- The address has been handed on. -/
def Final (c : Socks5Connection) : Prop :=
  c.state = .resolve ∨ c.state = .clientConnectionAddress ∧ c.connects ≠ []

/-- The connection was given up, or another one was opened. -/
def Spoiled (c : Socks5Connection) : Prop := c.state = .closed ∨ 2 ≤ c.connects.length

theorem available_feed (hopen : c.state ≠ .closed) (chunk : List Byte) :
    (c.feed chunk).available = c.available ++ chunk := by
  rw [feed_of_ne_closed hopen]

theorem connects_feed (c : Socks5Connection) (chunk : List Byte) :
    (c.feed chunk).connects = c.connects := by
  unfold feed
  split_ifs <;> rfl

/-- At an address that is not complete, the next arrival reads it again. -/
theorem arrive_of_address (hstate : c.state = .clientConnectionAddress) (chunk : List Byte) :
    c.arrive net chunk = (c.feed chunk).readAddress net := by
  rw [arrive_eq]
  exact handshakeRead_of_address (by rw [state_feed, hstate])

section IpAddress

variable {size : ℕ} {ip : List Byte → QHostAddress} {chunk : List Byte}
  (hstate : c.state = .clientConnectionAddress) (hformat : ipFormat c.addressType = some (size, ip))

include hformat in
theorem readAddress_feed_of_ipFormat (chunk : List Byte) :
    (c.feed chunk).readAddress net = (c.feed chunk).readIpAddress net size ip :=
  readAddress_of_ipFormat (by rw [addressType_feed]; exact hformat)

include hstate hformat in
/-- Behind a complete IP address, the next arrival is read as another one. -/
theorem arrive_readIpAddress (hlen : size + 2 ≤ c.available.length)
    (hsocket : net.socketError (ip (c.available.take size)) = none) :
    (c.readIpAddress net size ip).arrive net chunk =
        ((c.readIpAddress net size ip).feed chunk).readIpAddress net size ip ∧
      ((c.readIpAddress net size ip).feed chunk).state = .clientConnectionAddress ∧
      ((c.readIpAddress net size ip).feed chunk).available.length + (size + 2) =
        (c.available ++ chunk).length ∧
      1 ≤ ((c.readIpAddress net size ip).feed chunk).connects.length := by
  rcases @readIpAddress_of_le net c size ip hlen with
    ⟨-, hstate', htype, havailable, connection, hconnects⟩ | ⟨hsome, -, -⟩
  · have hopen : (c.readIpAddress net size ip).state ≠ .closed := by simp [hstate', hstate]
    refine ⟨?_, ?_, ?_, ?_⟩
    · rw [arrive_of_address (by rw [hstate', hstate]),
        readAddress_feed_of_ipFormat (by rw [htype]; exact hformat)]
    · rw [state_feed, hstate', hstate]
    · rw [available_feed hopen, havailable, List.length_append, List.length_append,
        List.length_drop]
      omega
    · rw [connects_feed, hconnects]
      simp
  · rw [hsocket] at hsome
    simp at hsome

include hstate hformat in
theorem arrive_ip_of_clean (hclean : c.available.length < size + 2 ∨
    (c.available ++ chunk).length < 2 * (size + 2) ∨
    (net.socketError (ip (c.available.take size))).isSome) :
    (c.readAddress net).arrive net chunk = (c.feed chunk).readAddress net := by
  have hopen : c.state ≠ .closed := by simp [hstate]
  rw [readAddress_of_ipFormat hformat, readAddress_feed_of_ipFormat hformat]
  rcases readIpAddress_feed hopen size ip with ⟨hread, -⟩ | ⟨hlen, hread⟩
  · rw [hread, arrive_of_address hstate, readAddress_feed_of_ipFormat hformat]
  · rw [hread]
    cases hsocket : net.socketError (ip (c.available.take size)) with
    | none =>
      obtain ⟨hagain, hstate', havailable, -⟩ :=
        @arrive_readIpAddress net c size ip chunk hstate hformat hlen hsocket
      rw [hagain]
      have hopen' : ((c.readIpAddress net size ip).feed chunk).state ≠ .closed := by
        rw [hstate']
        simp
      rcases readIpAddress_feed hopen' size ip with ⟨hwait, -⟩ | ⟨hlen', -⟩
      · exact hwait
      · rcases hclean with h | h | h
        · omega
        · omega
        · rw [hsocket] at h
          simp at h
    | some error =>
      rcases @readIpAddress_of_le net c size ip hlen with ⟨hnone, -⟩ | ⟨-, hclosed, -⟩
      · rw [hsocket] at hnone
        simp at hnone
      · exact arrive_of_not_isHandshake (by rw [hclosed]; rfl) chunk

include hstate hformat in
theorem arrive_ip_of_not_clean (hlen : size + 2 ≤ c.available.length)
    (hmore : 2 * (size + 2) ≤ (c.available ++ chunk).length)
    (hsocket : net.socketError (ip (c.available.take size)) = none) :
    Final ((c.feed chunk).readAddress net) ∧ Spoiled ((c.readAddress net).arrive net chunk) := by
  have hopen : c.state ≠ .closed := by simp [hstate]
  obtain ⟨hagain, hstate', havailable, hconnects⟩ :=
    @arrive_readIpAddress net c size ip chunk hstate hformat hlen hsocket
  rw [readAddress_of_ipFormat hformat, readAddress_feed_of_ipFormat hformat, hagain]
  refine ⟨?_, ?_⟩
  · rcases readIpAddress_feed hopen size ip with ⟨-, hshort⟩ | ⟨-, hread⟩
    · omega
    · rw [hread]
      refine .inr ⟨hstate', fun hnil => ?_⟩
      rw [hnil] at hconnects
      simp at hconnects
  · have hlen' : size + 2 ≤ ((c.readIpAddress net size ip).feed chunk).available.length := by omega
    rcases @readIpAddress_of_le net _ size ip hlen' with
      ⟨-, -, -, -, connection, h⟩ | ⟨-, hclosed, -⟩
    · right
      rw [h, List.length_append, List.length_singleton]
      omega
    · exact .inl hclosed

end IpAddress

section DomainName

variable {chunk : List Byte} (hstate : c.state = .clientConnectionAddress)
  (hname : c.addressType = 0x03)

include hname in
theorem readAddress_feed_of_name (chunk : List Byte) :
    (c.feed chunk).readAddress net = (c.feed chunk).readDomainName net :=
  readAddress_of_name (by rw [addressType_feed]; exact hname)

include hstate hname in
theorem arrive_name_of_clean (hclean : c.available = [] ∨
    nameLength c.available ≤ c.available.length ∨
    (c.available ++ chunk).length < nameLength c.available) :
    (c.readAddress net).arrive net chunk = (c.feed chunk).readAddress net := by
  have hopen : c.state ≠ .closed := by simp [hstate]
  rw [readAddress_of_name hname]
  rcases @readDomainName_cases net c hopen with ⟨-, hread⟩ | ⟨hne, hlen, hread⟩ |
    ⟨-, -, hresolve, -, hread⟩
  · rw [hread]
    exact arrive_of_address hstate chunk
  · -- the error of an incomplete name, with the chunk and without it
    have hshort : (c.available ++ chunk).length < nameLength c.available := by
      rcases hclean with h | h | h
      · exact absurd h hne
      · omega
      · exact h
    rw [hread, readAddress_feed_of_name hname, arrive_of_not_isHandshake rfl, feed_setError]
    rcases @readDomainName_cases net (c.feed chunk) (by simp [hopen]) with
      ⟨hnil, -⟩ | ⟨-, -, hread'⟩ | ⟨-, hlen', -⟩
    · rw [available_feed hopen] at hnil
      exact absurd (List.append_eq_nil_iff.1 hnil).1 hne
    · rw [hread', setError_feed]
    · rw [available_feed hopen, nameLength_append hne] at hlen'
      omega
  · rw [readAddress_feed_of_name hname, hread chunk]
    exact arrive_of_not_isHandshake (by rw [hresolve]; rfl) chunk

include hstate hname in
theorem arrive_name_of_not_clean (hne : c.available ≠ [])
    (hshort : c.available.length < nameLength c.available)
    (hlong : nameLength c.available ≤ (c.available ++ chunk).length) :
    Final ((c.feed chunk).readAddress net) ∧ Spoiled ((c.readAddress net).arrive net chunk) := by
  have hopen : c.state ≠ .closed := by simp [hstate]
  rw [readAddress_of_name hname, readAddress_feed_of_name hname]
  refine ⟨?_, ?_⟩
  · rcases @readDomainName_cases net (c.feed chunk) (by simp [hopen]) with
      ⟨hnil, -⟩ | ⟨-, hlen, -⟩ | ⟨-, -, hresolve, -⟩
    · rw [available_feed hopen] at hnil
      exact absurd (List.append_eq_nil_iff.1 hnil).1 hne
    · rw [available_feed hopen, nameLength_append hne] at hlen
      omega
    · exact .inl hresolve
  · rcases @readDomainName_cases net c hopen with ⟨hnil, -⟩ | ⟨-, -, hread⟩ | ⟨-, hlen, -⟩
    · exact absurd hnil hne
    · rw [hread, arrive_of_not_isHandshake rfl]
      exact .inl rfl
    · omega

end DomainName

/-- Before a clean cut and behind it the address is read as without the cut. -/
theorem arrive_readAddress_of_clean (hstate : c.state = .clientConnectionAddress)
    {chunk : List Byte} (hclean : CleanAt net c.addressType c.available chunk) :
    (c.readAddress net).arrive net chunk = (c.feed chunk).readAddress net := by
  cases hformat : ipFormat c.addressType with
  | some format => exact arrive_ip_of_clean hstate hformat (hclean.2 _ _ hformat)
  | none =>
    by_cases hname : c.addressType = 0x03
    · exact arrive_name_of_clean hstate hname (hclean.1 hname)
    · rw [readAddress_of_other hformat hname,
        readAddress_of_other (by rw [addressType_feed]; exact hformat)
          (by rw [addressType_feed]; exact hname), setError_feed, arrive_of_not_isHandshake rfl,
        feed_setError]

/-- At any other cut the connection is given up or opened twice, where the whole is read to its
end. -/
theorem arrive_readAddress_of_not_clean (hstate : c.state = .clientConnectionAddress)
    {chunk : List Byte} (hclean : ¬ CleanAt net c.addressType c.available chunk) :
    Final ((c.feed chunk).readAddress net) ∧ Spoiled ((c.readAddress net).arrive net chunk) := by
  by_cases hname : c.addressType = 0x03 → c.available = [] ∨
      nameLength c.available ≤ c.available.length ∨
      (c.available ++ chunk).length < nameLength c.available
  · obtain ⟨size, ip, hformat, hcut⟩ : ∃ size ip, ipFormat c.addressType = some (size, ip) ∧
        ¬ (c.available.length < size + 2 ∨ (c.available ++ chunk).length < 2 * (size + 2) ∨
          (net.socketError (ip (c.available.take size))).isSome) := by
      by_contra hall
      exact hclean ⟨hname, fun size ip hformat => by
        by_contra hcut
        exact hall ⟨size, ip, hformat, hcut⟩⟩
    simp only [not_or, not_lt, Option.not_isSome_iff_eq_none] at hcut
    exact arrive_ip_of_not_clean hstate hformat hcut.1 hcut.2.1 hcut.2.2
  · simp only [Classical.not_imp, not_or, not_le, not_lt] at hname
    exact arrive_name_of_not_clean hstate hname.1 hname.2.1 hname.2.2.1 hname.2.2.2

/-- An address that was handed on is handed on also when more bytes follow. -/
theorem readAddress_feed_of_final (hstate : c.state = .clientConnectionAddress)
    (hconnects : c.connects = []) (hfinal : Final (c.readAddress net)) (chunk : List Byte) :
    (c.feed chunk).readAddress net = (c.readAddress net).feed chunk := by
  have hopen : c.state ≠ .closed := by simp [hstate]
  have hself : ¬ Final c := by simp [Final, hstate, hconnects]
  cases hformat : ipFormat c.addressType with
  | some format =>
    obtain ⟨size, ip⟩ := format
    rw [readAddress_of_ipFormat hformat] at hfinal ⊢
    rw [readAddress_feed_of_ipFormat hformat]
    rcases @readIpAddress_feed net c hopen size ip with ⟨hread, -⟩ | ⟨-, hread⟩
    · rw [hread] at hfinal
      exact absurd hfinal hself
    · exact hread chunk
  | none =>
    by_cases hname : c.addressType = 0x03
    · rw [readAddress_of_name hname] at hfinal ⊢
      rw [readAddress_feed_of_name hname]
      rcases @readDomainName_cases net c hopen with ⟨-, hread⟩ | ⟨-, -, hread⟩ | ⟨-, -, -, -, hread⟩
      · rw [hread] at hfinal
        exact absurd hfinal hself
      · rw [hread] at hfinal
        simp [Final] at hfinal
      · exact hread chunk
    · rw [readAddress_of_other hformat hname] at hfinal
      simp [Final] at hfinal

theorem connects_readAddress (hopen : c.state ≠ .closed) :
    (c.readAddress net).connects = c.connects ∨
      ∃ connection, (c.readAddress net).connects = c.connects ++ [connection] := by
  cases hformat : ipFormat c.addressType with
  | some format =>
    obtain ⟨size, ip⟩ := format
    rw [readAddress_of_ipFormat hformat]
    rcases @readIpAddress_feed net c hopen size ip with ⟨hread, -⟩ | ⟨hlen, -⟩
    · exact .inl (by rw [hread])
    · rcases @readIpAddress_of_le net c size ip hlen with ⟨-, -, -, -, connection, h⟩ | ⟨-, -, h⟩
      · exact .inr ⟨connection, h⟩
      · exact .inl h
  | none =>
    left
    by_cases hname : c.addressType = 0x03
    · rw [readAddress_of_name hname]
      rcases @readDomainName_cases net c hopen with ⟨-, hread⟩ | ⟨-, -, hread⟩ | ⟨-, -, -, hread, -⟩
      · rw [hread]
      · rw [hread, (keeps_setError c _ _).connects]
      · exact hread
    · rw [readAddress_of_other hformat hname, (keeps_setError c _ _).connects]

/-- An address is handed on once. -/
theorem not_spoiled_of_final (hstate : c.state = .clientConnectionAddress)
    (hconnects : c.connects = []) (hfinal : Final (c.readAddress net)) :
    ¬ Spoiled (c.readAddress net) := by
  rintro (hclosed | htwo)
  · rcases hfinal with h | ⟨h, -⟩
    · rw [hclosed] at h
      simp at h
    · rw [hclosed] at h
      simp at h
  · rcases @connects_readAddress net c (by simp [hstate]) with h | ⟨connection, h⟩
    · simp [h, hconnects] at htwo
    · simp [h, hconnects] at htwo

/-- A connection that was given up or opened twice stays so. -/
theorem Spoiled.arrive (h : Spoiled c) (chunk : List Byte) : Spoiled (c.arrive net chunk) := by
  rcases h with hclosed | htwo
  · rw [arrive_of_not_isHandshake (by rw [hclosed]; rfl), feed_of_closed hclosed]
    exact .inl hclosed
  · right
    rw [arrive_eq, handshakeRead]
    have hconnects : (c.feed chunk).readToAddress.connects = c.connects := by
      rw [(keeps_readToAddress _).connects, connects_feed]
    split_ifs with haddress
    · rcases @connects_readAddress net (c.feed chunk).readToAddress (by simp [haddress]) with
        h | ⟨connection, h⟩
      · rw [h, hconnects]
        exact htwo
      · rw [h, hconnects, List.length_append]
        omega
    · rw [hconnects]
      exact htwo

/-! ## Runs -/

/-- The connection after a stream that arrives at once. -/
def whole (net : Network) (stream : List Byte) : Socks5Connection := initial.arrive net stream

/-- The connection after a stream that arrives in chunks. -/
def run (net : Network) (chunks : List (List Byte)) : Socks5Connection :=
  chunks.foldl (arrive net) initial

/-- What the client and the network see of a connection: its state, the replies, and what was
resolved or connected to. -/
def outcome (c : Socks5Connection) :
    Socks5State × List Byte × List (List Char) × List (QHostAddress × BitVec 16) × QHostAddress ×
      List Char × BitVec 16 :=
  (c.state, c.sent, c.resolves, c.connects, c.destAddress, c.destHostname, c.destPort)

/-- The cut behind `stream`, before `chunk`, falls where it does not matter. -/
def CleanCut (net : Network) (stream chunk : List Byte) : Prop :=
  ∀ atype address, addressBytes stream = some (atype, address) → CleanAt net atype address chunk

section Runs

variable {stream chunk : List Byte}

theorem whole_eq (net : Network) (stream : List Byte) :
    whole net stream = (initial.feed stream).handshakeRead net := arrive_eq _ _

theorem whole_of_address {atype : Byte} {address : List Byte}
    (h : addressBytes stream = some (atype, address)) :
    ∃ authNumber, whole net stream = (atAddress authNumber atype address).readAddress net ∧
      ∀ chunk, whole net (stream ++ chunk) =
        ((atAddress authNumber atype address).feed chunk).readAddress net := by
  rcases readToAddress_initial stream with
    ⟨authNumber, atype', address', hbytes, hread⟩ | ⟨hnone, -⟩
  · obtain ⟨rfl, rfl⟩ := Prod.mk.inj (Option.some.inj (h.symm.trans hbytes))
    refine ⟨authNumber, ?_, fun chunk => ?_⟩
    · rw [whole_eq, handshakeRead, hread]
      exact if_pos rfl
    · rw [whole_eq, handshakeRead, initial_feed_append, hread,
        readToAddress_eq_self (by simp [stages, atAddress])]
      exact if_pos rfl
  · rw [hnone] at h
    simp at h

/-- A stream that has not is read on from the stage it is in. -/
theorem whole_of_early (h : addressBytes stream = none) :
    ¬ Final (whole net stream) ∧
      ∀ chunk, (whole net stream).arrive net chunk = whole net (stream ++ chunk) := by
  rcases readToAddress_initial stream with ⟨authNumber, atype, address, hbytes, -⟩ | ⟨-, hearly⟩
  · rw [h] at hbytes
    simp at hbytes
  · have hwhole : whole net stream = (initial.feed stream).readToAddress := by
      rw [whole_eq, handshakeRead]
      exact if_neg hearly.1
    rw [hwhole]
    refine ⟨fun hfinal => ?_, fun chunk => ?_⟩
    · rcases hfinal with h | ⟨h, -⟩
      · exact hearly.2 h
      · exact hearly.1 h
    · rw [arrive_eq, whole_eq, handshakeRead, handshakeRead, initial_feed_append]

theorem arrive_whole (h : CleanCut net stream chunk) :
    (whole net stream).arrive net chunk = whole net (stream ++ chunk) := by
  cases hbytes : addressBytes stream with
  | none => exact (whole_of_early hbytes).2 chunk
  | some p =>
    obtain ⟨authNumber, hwhole, happend⟩ := @whole_of_address net stream p.1 p.2 hbytes
    rw [hwhole, happend]
    exact arrive_readAddress_of_clean rfl (h p.1 p.2 hbytes)

theorem broken_of_not_cleanCut (h : ¬ CleanCut net stream chunk) :
    Final (whole net (stream ++ chunk)) ∧ Spoiled ((whole net stream).arrive net chunk) := by
  obtain ⟨atype, address, hbytes, hcut⟩ : ∃ atype address,
      addressBytes stream = some (atype, address) ∧ ¬ CleanAt net atype address chunk := by
    by_contra hall
    refine h fun atype address hbytes => ?_
    by_contra hcut
    exact hall ⟨atype, address, hbytes, hcut⟩
  obtain ⟨authNumber, hwhole, happend⟩ := @whole_of_address net stream atype address hbytes
  rw [hwhole, happend]
  exact arrive_readAddress_of_not_clean rfl hcut

theorem Final.append (h : Final (whole net stream)) (chunk : List Byte) :
    Final (whole net (stream ++ chunk)) := by
  cases hbytes : addressBytes stream with
  | none => exact absurd h (whole_of_early hbytes).1
  | some p =>
    obtain ⟨authNumber, hwhole, happend⟩ := @whole_of_address net stream p.1 p.2 hbytes
    rw [hwhole] at h
    rw [happend, readAddress_feed_of_final rfl rfl h]
    unfold Final
    rw [state_feed, connects_feed]
    exact h

theorem not_spoiled_whole (h : Final (whole net stream)) : ¬ Spoiled (whole net stream) := by
  cases hbytes : addressBytes stream with
  | none => exact absurd h (whole_of_early hbytes).1
  | some p =>
    obtain ⟨authNumber, hwhole, -⟩ := @whole_of_address net stream p.1 p.2 hbytes
    rw [hwhole] at h ⊢
    exact not_spoiled_of_final rfl rfl h

/-- A cut that matters shows in the outcome. -/
theorem outcome_ne (hfinal : Final (whole net stream)) (h : Spoiled c) :
    c.outcome ≠ (whole net stream).outcome := by
  intro heq
  have hstate : c.state = (whole net stream).state := congrArg (·.1) heq
  have hconnects : c.connects = (whole net stream).connects := congrArg (·.2.2.2.1) heq
  refine not_spoiled_whole hfinal ?_
  unfold Spoiled at h ⊢
  rwa [hstate, hconnects] at h

/-- The bytes so far and the connection, chunk by chunk. -/
def arriveBoth (net : Network) (p : List Byte × Socks5Connection) (chunk : List Byte) :
    List Byte × Socks5Connection := (p.1 ++ chunk, p.2.arrive net chunk)

theorem foldl_arriveBoth (net : Network) (chunks : List (List Byte))
    (p : List Byte × Socks5Connection) :
    chunks.foldl (arriveBoth net) p = (p.1 ++ chunks.flatten, chunks.foldl (arrive net) p.2) := by
  induction chunks generalizing p with
  | nil => simp
  | cons chunk rest ih =>
    rw [List.foldl_cons, ih, List.foldl_cons, arriveBoth, List.flatten_cons, List.append_assoc]

theorem guarded_arriveBoth_iff (net : Network) (chunks : List (List Byte)) :
    Guarded (arriveBoth net) (fun p chunk => CleanCut net p.1 chunk) ([], initial) chunks ↔
      Guarded (· ++ ·) (CleanCut net) [] chunks :=
  guarded_hom Prod.fst (fun _ _ => rfl) ([], initial) chunks

/-- If every cut is clean, the connection is that of the whole stream. -/
theorem foldl_arrive_whole {chunks : List (List Byte)}
    (h : Guarded (· ++ ·) (CleanCut net) stream chunks) :
    chunks.foldl (arrive net) (whole net stream) = whole net (stream ++ chunks.flatten) := by
  induction chunks generalizing stream with
  | nil => simp
  | cons chunk rest ih =>
    rw [List.foldl_cons, arrive_whole h.1, ih h.2, List.flatten_cons, List.append_assoc]

/-- **The exact condition.** A handshake that arrives in chunks has the outcome of the whole stream
if and only if every cut is clean. -/
theorem outcome_run_iff (net : Network) (chunks : List (List Byte)) :
    (run net chunks).outcome = (whole net chunks.flatten).outcome ↔
      Guarded (· ++ ·) (CleanCut net) [] chunks := by
  refine ⟨fun heq => ?_, fun h => congrArg outcome (foldl_arrive_whole h)⟩
  have hexact := @guarded_iff _ _ (arriveBoth net) (fun p chunk => CleanCut net p.1 chunk)
    (fun p => p.2 = whole net p.1) (fun p => ¬ (Final (whole net p.1) ∧ Spoiled p.2))
    (fun p chunk hp hcut => show p.2.arrive net chunk = whole net (p.1 ++ chunk) by
      rw [hp, arrive_whole hcut])
    (fun p hp hbroken => not_spoiled_whole hbroken.1 (hp ▸ hbroken.2))
    (fun p chunk hp hcut hkept => hkept (by
      have hbroken := broken_of_not_cleanCut hcut
      rw [← hp] at hbroken
      exact hbroken))
    (fun p chunk hkept hbroken => hkept ⟨hbroken.1.append chunk, hbroken.2.arrive chunk⟩)
    ([], initial) rfl chunks
  rw [← guarded_arriveBoth_iff, ← hexact, foldl_arriveBoth]
  intro hbroken
  exact outcome_ne hbroken.1 hbroken.2 heq

end Runs

/-- A network that makes every socket. -/
def openNetwork : Network where
  fromUtf8 bytes := bytes.map fun b => Char.ofNat b.toNat
  socketError _ := none
  errorString := "Unknown error"

/-- A request for `a.b`, port 443, that is cut behind the length of the name is answered with an
error; the same bytes at once are resolved. -/
theorem not_forall_outcome_run :
    ¬ ∀ (net : Network) (chunks : List (List Byte)),
      (run net chunks).outcome = (whole net chunks.flatten).outcome := by
  intro h
  have hstate := congrArg Prod.fst (h openNetwork
    [[0x05, 0x01, 0x00], [0x05, 0x01, 0x00, 0x03, 0x03], [0x61, 0x2e, 0x62, 0x01, 0xbb]])
  exact absurd hstate (by decide)

end WgDesktop.Socks5Connection
