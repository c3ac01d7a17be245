import Mathlib
import WgDesktop.Client.LocalSocketController
import WgDesktop.Daemon.Handshakes

/-!
# The status of the daemon

`Daemon::getStatus` writes the status of its first connection as JSON; `parseCommand` of the client
reads the first one itself and hands the others to `ControllerStatus`. `roundTrip_iff` says when
what is read is what the daemon has: the time of the handshake is written in the format of
`QDateTime::toString()` and read in another one.
-/

namespace WgDesktop

open LocalSocketController (Decoder parseCommand firstStatus readyCommand emit)

/-! ## Dates as texts -/

/-- Qt's texts of a date, in the local time: `QDateTime::toString()` and `QDateTime::fromString(…)`
in the format `Qt::TextDate`, and the latter in `Qt::ISODate`. A date is given in milliseconds. -/
structure DateTimeText where
  toString : ℤ → List Char
  fromString : List Char → Option ℤ
  fromIsoDate : List Char → Option ℤ

/-- What Qt documents: a text date begins with the name of the day and is written without
milliseconds, an ISO date does not begin with a letter, and an empty text is no date. -/
structure DateTimeText.Lawful (D : DateTimeText) : Prop where
  toString_head : ∀ t, ∃ c rest, D.toString t = c :: rest ∧ c.isAlpha = true
  fromString_nil : D.fromString [] = none
  fromString_toString_dvd : ∀ t t', D.fromString (D.toString t) = some t' → 1000 ∣ t'
  fromIsoDate_nil : D.fromIsoDate [] = none
  fromIsoDate_cons : ∀ c rest t, D.fromIsoDate (c :: rest) = some t → c.isAlpha = false

/-! ## Writing -/

namespace Daemon

/-- `WireguardUtils::PeerStatus`. -/
structure PeerTransfer extends PeerStatus where
  txBytes : ℤ
  rxBytes : ℤ

/-- `QDateTime::toString()`: an invalid date has an empty text. -/
def dateText (D : DateTimeText) : Option ℤ → List Char
  | none => []
  | some t => D.toString t

/-- The status without a connection. -/
def statusOff (version : List Char) (features : List (List Char)) : Json.Object :=
  let json := Json.Object.insert [] "version" (.str version)
  json.insert "features" (.arr (features.map .str))

/-- The status of a connection, and of its peer. -/
def statusOn (D : DateTimeText) (version : List Char) (features : List (List Char))
    (connection : ConnectionState) (status : PeerTransfer) : Json.Object :=
  let json := (statusOff version features).insert "connected" (.bool true)
  let json := json.insert "serverIpv4Gateway" (.str connection.config.serverIpv4Gateway.chars)
  let json := json.insert "deviceIpv4Address" (.str connection.config.deviceIpv4Address.chars)
  let json := json.insert "date" (.str (dateText D connection.date))
  let json := json.insert "txBytes" (.num status.txBytes)
  json.insert "rxBytes" (.num status.rxBytes)

/-- `Daemon::getStatus`, with the answer of `getPeerStatus`. -/
def getStatus (D : DateTimeText) (version : List Char) (features : List (List Char))
    (peers : List PeerTransfer) (s : State) : Json.Object :=
  let json := statusOff version features
  match connectionList s with
  | [] => json.insert "connected" (.bool false)
  | connection :: _ =>
    if !s.interfaceExists then json.insert "connected" (.bool false)
    else
      match peers.find? fun status => status.pubkey == connection.config.serverPublicKey with
      | none => json.insert "connected" (.bool false)
      | some status => statusOn D version features connection status

/-- The reply to the command `status`. -/
def statusReply (D : DateTimeText) (version : List Char) (features : List (List Char))
    (peers : List PeerTransfer) (s : State) : Json.Object :=
  (getStatus D version features peers s).insert "type" (.str "status".toList)

/-- The connection is live: there is an interface, it is the first connection, and its peer is one
of the interface's. -/
structure Live (s : State) (peers : List PeerTransfer) (connection : ConnectionState) : Prop where
  interfaceExists : s.interfaceExists = true
  first : (connectionList s).head? = some connection
  peer : ∃ status ∈ peers, (status.pubkey == connection.config.serverPublicKey) = true

/-- The device address that is set on the interface: the text may have a prefix length. -/
def ConnectionState.deviceAddress (T : HostAddressText) (connection : ConnectionState) :
    QHostAddress :=
  (IPAddress.ofString T connection.config.deviceIpv4Address.chars).address

end Daemon

/-! ## Reading -/

structure ControllerStatus where
  connected : Bool := false
  timestamp : Option ℤ := none
  ipv4Address : QHostAddress := .null
  ipv6Address : QHostAddress := .null
  ipv4Gateway : QHostAddress := .null
  ipv6Gateway : QHostAddress := .null
  rxBytes : ℕ := 0
  txBytes : ℕ := 0

/-- `ControllerStatus(const QJsonObject&)`. -/
def ControllerStatus.ofObject (T : HostAddressText) (D : DateTimeText) (obj : Json.Object) :
    ControllerStatus :=
  let connected := match obj.value "connected" with
    | .bool b => b
    | _ => false
  { connected
    timestamp := if connected then D.fromIsoDate (obj.value "date").text else none
    ipv4Address := T.hostAddress (obj.value "deviceIpv4Address").text
    ipv6Address := T.hostAddress (obj.value "deviceIpv6Address").text
    ipv4Gateway := T.hostAddress (obj.value "serverIpv4Gateway").text
    ipv6Gateway := T.hostAddress (obj.value "serverIpv6Gateway").text
    rxBytes := ((obj.value "rxBytes").toInteger % 2 ^ 64).toNat
    txBytes := ((obj.value "txBytes").toInteger % 2 ^ 64).toNat }

/-- What `parseCommand` calls of Qt. -/
def clientDecoder (fromJson : List Bytes.Byte → Option Json.Object) (D : DateTimeText) : Decoder :=
  { fromJson, isDate := fun s => (D.fromString s).isSome }

namespace Daemon

section RoundTrip

variable (T : HostAddressText) (D : DateTimeText)

/-- The signal of the client says what the daemon has: `initialized` has no address. -/
def Yields (connection : ConnectionState) : LocalSocketController.Signal → Prop
  | .initialized connected date => connected = true ∧ D.fromString date = connection.date
  | .statusUpdated obj =>
    let status := ControllerStatus.ofObject T D obj
    status.connected = true ∧ status.ipv4Address = connection.deviceAddress T ∧
      status.timestamp = connection.date
  | _ => False

/-- The client emits one signal for the command, and that says what the daemon has. -/
def RoundTrip (fromJson : List Bytes.Byte → Option Json.Object) (command : List Bytes.Byte)
    (connection : ConnectionState) (client : LocalSocketController.State) : Prop :=
  ∃ signal, (parseCommand (clientDecoder fromJson D) client command).signals =
      client.signals ++ [signal] ∧ Yields T D connection signal

/-- The condition. The first status is read right when there was a handshake, at a whole second that
can be told by its local time; each later one when there was no handshake yet, and the device
address is written without a prefix length or not readable either way. -/
def Kept (connection : ConnectionState) : LocalSocketController.DaemonState → Prop
  | .unknown => False
  | .initializing =>
    ∃ t, connection.date = some t ∧ 1000 ∣ t ∧ D.fromString (D.toString t) = some t
  | .ready =>
    connection.date = none ∧
      ('/' ∈ connection.config.deviceIpv4Address.chars →
        T.hostAddress connection.config.deviceIpv4Address.chars =
          (T.parseSubnet connection.config.deviceIpv4Address.chars).1)

end RoundTrip

/-! ## The reply -/

section Reply

variable {D : DateTimeText} {version : List Char} {features : List (List Char)}
  {peers : List PeerTransfer} {s : State} {connection : ConnectionState}

theorem Live.getStatus_eq (h : Live s peers connection) :
    ∃ status, getStatus D version features peers s =
      statusOn D version features connection status := by
  obtain ⟨rest, hlist⟩ : ∃ rest, connectionList s = connection :: rest :=
    List.head?_eq_some_iff.mp h.first
  obtain ⟨status, hfind⟩ := Option.isSome_iff_exists.mp (List.find?_isSome.mpr h.peer)
  refine ⟨status, ?_⟩
  rw [getStatus, hlist]
  dsimp only
  rw [h.interfaceExists, Bool.not_true, if_neg Bool.false_ne_true, hfind]

theorem Live.statusReply_value (h : Live s peers connection) :
    let obj := statusReply D version features peers s
    obj.value "type" = .str "status".toList ∧ obj.value "connected" = .bool true ∧
      obj.value "date" = .str (dateText D connection.date) ∧
      obj.value "deviceIpv4Address" = .str connection.config.deviceIpv4Address.chars := by
  obtain ⟨status, hstatus⟩ := @Live.getStatus_eq D version features _ _ _ h
  simp only [statusReply, hstatus, statusOn, Json.Object.value_insert]
  refine ⟨if_pos trivial, ?_, ?_, ?_⟩ <;> simp

end Reply

/-! ## The client -/

section Client

variable {decoder : Decoder} {command : List Bytes.Byte} {obj : Json.Object}

theorem signals_firstStatus (client : LocalSocketController.State) {date : List Char}
    (hconnected : obj.value "connected" = .bool true) (hdate : obj.value "date" = .str date) :
    (firstStatus decoder client obj).signals =
      client.signals ++ if decoder.isDate date then [.initialized true date] else [] := by
  rw [firstStatus, hconnected]
  dsimp only
  rw [hdate]
  dsimp only
  split
  · rfl
  · exact (List.append_nil client.signals).symm

theorem signals_parseCommand (client : LocalSocketController.State) {date : List Char}
    (hread : decoder.fromJson command = some obj)
    (htype : obj.value "type" = .str "status".toList)
    (hconnected : obj.value "connected" = .bool true) (hdate : obj.value "date" = .str date) :
    (parseCommand decoder client command).signals =
      client.signals ++ match client.daemonState with
        | .unknown => []
        | .initializing => if decoder.isDate date then [.initialized true date] else []
        | .ready => [.statusUpdated obj] := by
  rw [parseCommand, hread]
  dsimp only
  rw [htype]
  dsimp only
  rw [if_pos rfl]
  cases hstate : client.daemonState with
  | unknown => simp
  | initializing =>
    rw [if_pos ⟨rfl, rfl⟩, signals_firstStatus _ hconnected hdate]
  | ready =>
    rw [if_neg (by simp), if_neg (by simp), readyCommand, if_pos rfl]
    rfl

end Client

/-! ## What is read -/

section RoundTrip

variable {T : HostAddressText} {D : DateTimeText} {connection : ConnectionState}

theorem ofString_address (T : HostAddressText) (s : List Char) :
    (IPAddress.ofString T s).address =
      if '/' ∈ s then (T.parseSubnet s).1 else T.hostAddress s := by
  unfold IPAddress.ofString
  dsimp only
  split <;> split_ifs <;> rfl

theorem fromIsoDate_dateText (hD : D.Lawful) (date : Option ℤ) :
    D.fromIsoDate (dateText D date) = none := by
  cases date with
  | none => exact hD.fromIsoDate_nil
  | some t =>
    obtain ⟨c, rest, htext, halpha⟩ := hD.toString_head t
    rw [dateText, htext]
    cases hread : D.fromIsoDate (c :: rest) with
    | none => rfl
    | some t' => rw [hD.fromIsoDate_cons c rest t' hread] at halpha; cases halpha

/-- The address in a status is that of the device when it needs no prefix length to be read. -/
theorem hostAddress_eq_deviceAddress_iff :
    T.hostAddress connection.config.deviceIpv4Address.chars = connection.deviceAddress T ↔
      ('/' ∈ connection.config.deviceIpv4Address.chars →
        T.hostAddress connection.config.deviceIpv4Address.chars =
          (T.parseSubnet connection.config.deviceIpv4Address.chars).1) := by
  rw [ConnectionState.deviceAddress, ofString_address]
  split_ifs with hslash
  · exact ⟨fun h _ => h, fun h => h hslash⟩
  · exact ⟨fun _ h => absurd h hslash, fun _ => rfl⟩

theorem yields_statusUpdated_iff (hD : D.Lawful) {obj : Json.Object}
    (hconnected : obj.value "connected" = .bool true)
    (hdate : obj.value "date" = .str (dateText D connection.date))
    (haddress : obj.value "deviceIpv4Address" =
      .str connection.config.deviceIpv4Address.chars) :
    Yields T D connection (.statusUpdated obj) ↔ Kept T D connection .ready := by
  simp only [Yields, ControllerStatus.ofObject, hconnected, hdate, haddress, Json.text, if_true,
    fromIsoDate_dateText hD, hostAddress_eq_deviceAddress_iff, Kept]
  constructor
  · rintro ⟨-, hkept, htime⟩
    exact ⟨htime.symm, hkept⟩
  · rintro ⟨htime, hkept⟩
    exact ⟨trivial, hkept, htime.symm⟩

theorem yields_initialized_iff (hD : D.Lawful) :
    ((D.fromString (dateText D connection.date)).isSome = true ∧
        Yields T D connection (.initialized true (dateText D connection.date))) ↔
      Kept T D connection .initializing := by
  cases hdate : connection.date with
  | none =>
    refine iff_of_false ?_ ?_
    · rintro ⟨hsome, -⟩
      rw [dateText, hD.fromString_nil] at hsome
      cases hsome
    · rintro ⟨t, ht, -⟩
      rw [hdate] at ht
      cases ht
  | some t =>
    simp only [Yields, Kept, hdate, dateText]
    constructor
    · rintro ⟨-, -, hread⟩
      exact ⟨t, rfl, hD.fromString_toString_dvd t t hread, hread⟩
    · rintro ⟨t', ht, -, hread⟩
      obtain rfl : t = t' := Option.some.inj ht
      exact ⟨by rw [hread]; rfl, trivial, hread⟩

theorem roundTrip_iff_exists {fromJson : List Bytes.Byte → Option Json.Object}
    {command : List Bytes.Byte} {client : LocalSocketController.State}
    {signals : List LocalSocketController.Signal}
    (hsignals : (parseCommand (clientDecoder fromJson D) client command).signals =
      client.signals ++ signals) :
    RoundTrip T D fromJson command connection client ↔
      ∃ signal, signals = [signal] ∧ Yields T D connection signal := by
  unfold RoundTrip
  simp only [hsignals, List.append_cancel_left_eq]

section Status

variable {fromJson : List Bytes.Byte → Option Json.Object} {command : List Bytes.Byte}
  {version : List Char} {features : List (List Char)} {peers : List PeerTransfer} {s : State}
  {client : LocalSocketController.State}

theorem roundTrip_unknown (h : Live s peers connection)
    (hread : fromJson command = some (statusReply D version features peers s))
    (hclient : client.daemonState = .unknown) :
    ¬RoundTrip T D fromJson command connection client := by
  obtain ⟨htype, hconnected, hdate, -⟩ := @Live.statusReply_value D version features _ _ _ h
  have hsignals := @signals_parseCommand (clientDecoder fromJson D) command _ client _ hread htype
    hconnected hdate
  rw [hclient] at hsignals
  rw [roundTrip_iff_exists hsignals]
  rintro ⟨signal, hnil, -⟩
  cases hnil

theorem roundTrip_initializing (hD : D.Lawful) (h : Live s peers connection)
    (hread : fromJson command = some (statusReply D version features peers s))
    (hclient : client.daemonState = .initializing) :
    RoundTrip T D fromJson command connection client ↔ Kept T D connection .initializing := by
  obtain ⟨htype, hconnected, hdate, -⟩ := @Live.statusReply_value D version features _ _ _ h
  have hsignals := @signals_parseCommand (clientDecoder fromJson D) command _ client _ hread htype
    hconnected hdate
  rw [hclient] at hsignals
  rw [roundTrip_iff_exists hsignals, ← yields_initialized_iff hD]
  dsimp only
  by_cases hsome : (clientDecoder fromJson D).isDate (dateText D connection.date) = true
  · rw [if_pos hsome]
    constructor
    · rintro ⟨signal, heq, hyields⟩
      obtain rfl := List.singleton_inj.mp heq
      exact ⟨hsome, hyields⟩
    · rintro ⟨-, hyields⟩
      exact ⟨_, rfl, hyields⟩
  · rw [if_neg hsome]
    refine iff_of_false ?_ fun hyes => hsome hyes.1
    rintro ⟨signal, hnil, -⟩
    cases hnil

theorem roundTrip_ready (hD : D.Lawful) (h : Live s peers connection)
    (hread : fromJson command = some (statusReply D version features peers s))
    (hclient : client.daemonState = .ready) :
    RoundTrip T D fromJson command connection client ↔ Kept T D connection .ready := by
  obtain ⟨htype, hconnected, hdate, haddress⟩ := @Live.statusReply_value D version features _ _ _ h
  have hsignals := @signals_parseCommand (clientDecoder fromJson D) command _ client _ hread htype
    hconnected hdate
  rw [hclient] at hsignals
  rw [roundTrip_iff_exists hsignals, ← yields_statusUpdated_iff hD hconnected hdate haddress]
  constructor
  · rintro ⟨signal, heq, hyields⟩
    obtain rfl := List.singleton_inj.mp heq
    exact hyields
  · intro hyields
    exact ⟨_, rfl, hyields⟩

end Status

/-- **The round trip.** The client reads in the status of a live connection what the daemon has, in
the cases of `Kept` only. -/
theorem roundTrip_iff (T : HostAddressText) {D : DateTimeText} (hD : D.Lawful)
    {fromJson : List Bytes.Byte → Option Json.Object} {command : List Bytes.Byte}
    {version : List Char} {features : List (List Char)} {peers : List PeerTransfer} {s : State}
    {connection : ConnectionState} (h : Live s peers connection)
    (hread : fromJson command = some (statusReply D version features peers s))
    (client : LocalSocketController.State) :
    RoundTrip T D fromJson command connection client ↔
      Kept T D connection client.daemonState := by
  cases hclient : client.daemonState with
  | unknown => exact iff_of_false (roundTrip_unknown h hread hclient) id
  | initializing => exact roundTrip_initializing hD h hread hclient
  | ready => exact roundTrip_ready hD h hread hclient

/-- No later status is read right for a device with an IPv4 address and its prefix length. -/
theorem not_kept_ready_of_prefix
    (hT : ∀ s, '/' ∈ s → (T.hostAddress s).protocol ≠ .ipv4Protocol)
    (hslash : '/' ∈ connection.config.deviceIpv4Address.chars)
    (hipv4 : (T.parseSubnet connection.config.deviceIpv4Address.chars).1.protocol =
      .ipv4Protocol) :
    ¬Kept T D connection .ready := by
  rintro ⟨-, haddress⟩
  rw [← haddress hslash] at hipv4
  exact hT _ hslash hipv4

end RoundTrip

/-! ## A connection -/

/-- The texts of the dates in one second of the time zone UTC; other dates are not looked at. -/
def utcDates : DateTimeText where
  toString _ := "Tue Nov 14 22:13:20 2023".toList
  fromString s := if s = "Tue Nov 14 22:13:20 2023".toList then some 1700000000000 else none
  fromIsoDate _ := none

theorem utcDates_lawful : utcDates.Lawful where
  toString_head _ := ⟨'T', _, rfl, rfl⟩
  fromString_nil := rfl
  fromString_toString_dvd t t' h := by
    unfold utcDates at h
    dsimp only at h
    rw [if_pos rfl] at h
    obtain rfl := Option.some.inj h
    decide
  fromIsoDate_nil := rfl
  fromIsoDate_cons c rest t h := by cases h

/-- The texts of one device address. -/
def deviceTexts : HostAddressText :=
  .ofTable [("10.64.0.2".toList, .ipv4 0x0A400002#32)]
    [("10.64.0.2/32".toList, .ipv4 0x0A400002#32, 32)]

/-- The daemon with one connection. -/
def connected (address : String) (date : Option ℤ) : ConnectionState :=
  { config :=
      { hopType := .singleHop
        deviceIpv4Address := .text address.toList
        serverPublicKey := .text ['k'] }
    date }

def connectedState (connection : ConnectionState) : State :=
  { connections := fun hop => if hop = .singleHop then some connection else none
    interfaceExists := true }

/-- The peer of the connection. -/
def connectedPeers : List PeerTransfer :=
  [{ pubkey := .text ['k'], handshake := 1700000000123, txBytes := 148, rxBytes := 92 }]

theorem live_connected (address : String) (date : Option ℤ) :
    Live (connectedState (connected address date)) connectedPeers (connected address date) :=
  ⟨rfl, rfl, _, List.mem_singleton.mpr rfl, by simp [connected]⟩

/-- The reply for such a connection. -/
def connectedReply (address : String) (date : Option ℤ) : Json.Object :=
  statusReply utcDates [] [] connectedPeers (connectedState (connected address date))

/-- Before the handshake, and with an address that has no prefix length, all is well. -/
theorem roundTrip_connected :
    RoundTrip deviceTexts utcDates (fun _ => some (connectedReply "10.64.0.2" none)) []
      (connected "10.64.0.2" none) { daemonState := .ready } :=
  (roundTrip_iff deviceTexts utcDates_lawful (live_connected "10.64.0.2" none) rfl
    { daemonState := .ready }).mpr ⟨rfl, by decide⟩

/-- The time is not read in a later status, nor the address with its prefix length; the first status
has lost the milliseconds. -/
theorem not_roundTrip_connected :
    let connection := connected "10.64.0.2/32" (some 1700000000123)
    let reply := connectedReply "10.64.0.2/32" (some 1700000000123)
    let status := ControllerStatus.ofObject deviceTexts utcDates reply
    status.connected = true ∧ status.timestamp = none ∧ status.ipv4Address = .null ∧
      connection.deviceAddress deviceTexts = .ipv4 0x0A400002#32 ∧
      utcDates.fromString (reply.value "date").text = some 1700000000000 ∧
      ¬RoundTrip deviceTexts utcDates (fun _ => some reply) [] connection
        { daemonState := .ready } ∧
      ¬RoundTrip deviceTexts utcDates (fun _ => some reply) [] connection
        { daemonState := .initializing } := by
  have hlive := live_connected "10.64.0.2/32" (some 1700000000123)
  refine ⟨by decide +kernel, rfl, by decide +kernel, by decide +kernel, by decide +kernel, ?_, ?_⟩
  · rw [roundTrip_ready utcDates_lawful hlive rfl rfl]
    rintro ⟨hdate, -⟩
    cases hdate
  · rw [roundTrip_initializing utcDates_lawful hlive rfl rfl]
    rintro ⟨t, hdate, hdvd, -⟩
    obtain rfl : 1700000000123 = t := Option.some.inj hdate
    exact absurd hdvd (by decide)

end Daemon

end WgDesktop
