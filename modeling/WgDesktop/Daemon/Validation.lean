import WgDesktop.Daemon.Config

/-!
# What `parseConfig` lets through

The daemon checks the type of each field of a configuration that it is sent. Two fields then go
into narrower places: a number becomes an `int` port, and an address with a number becomes an
`IPAddress`, whose constructor asserts that they fit. Neither is checked, so
`parseConfig_validated_iff` is a condition on the object that was sent.
-/

namespace WgDesktop

open Runs

namespace Daemon

variable {T : HostAddressText} {S : PrefixSort} {obj : Json.Object} {c : InterfaceConfig}

/-- The assertions of the `IPAddress` constructor hold, and the port is the number that was sent. -/
structure Validated (obj : Json.Object) (c : InterfaceConfig) : Prop where
  ranges : ∀ i ∈ c.allowedIPAddressRanges, i.Valid
  port_eq : obj.value "serverPort" = .num c.serverPort
  port_nonneg : 0 ≤ c.serverPort
  port_le : c.serverPort ≤ 65535

/-- A whole number that is a port. -/
def PlainPort (v : Json) : Prop := ∃ n : ℤ, v = .num n ∧ 0 ≤ n ∧ n ≤ 65535

/-- An entry with the text of an address and a prefix length of its family. -/
structure PlainRange (T : HostAddressText) (entry : Json) : Prop where
  address : ∃ a, T.hostAddress (QString.ofJson (entry.toObject.value "address")).chars = a ∧
    a.protocol ≠ .unknownNetworkLayerProtocol ∧
    (entry.toObject.value "range").toInt.toNat ≤ a.width
  nonneg : 0 ≤ (entry.toObject.value "range").toInt

/-- An entry becomes an address that meets the assertions exactly when it is plain. -/
theorem valid_iff_of_parseRange {entry : Json} {i : IPAddress}
    (h : parseRange T entry = .ok i) : i.Valid ↔ PlainRange T entry := by
  unfold parseRange at h
  split at h
  · rename_i ipObj
    split at h
    · rename_i address haddress
      split_ifs at h
      obtain rfl := Except.ok.inj h
      have htext : (QString.ofJson (Json.Object.value ipObj "address")).chars = address := by
        rw [haddress]
        rfl
      constructor
      · rintro ⟨hproto, hnonneg, hle⟩
        exact ⟨⟨_, by rw [Json.toObject, htext], hproto, hle⟩, hnonneg⟩
      · rintro ⟨⟨a, ha, hproto, hle⟩, hnonneg⟩
        rw [Json.toObject, htext] at ha
        subst ha
        exact ⟨hproto, hnonneg, hle⟩
    · cases h
  · cases h

theorem valid_iff_of_parseRanges {ranges : List IPAddress}
    (h : parseRanges T S obj = .ok ranges) :
    (∀ i ∈ ranges, i.Valid) ↔
      ∀ entry ∈ (obj.value "allowedIPAddressRanges").toArray, PlainRange T entry := by
  unfold parseRanges at h
  split_ifs at h
  split at h
  · rename_i array harray
    obtain ⟨parsed, hparsed, hsort⟩ := bind_eq_ok.mp h
    obtain rfl := Except.ok.inj hsort
    rw [harray, Json.toArray,
      forall_mem_iff_of_mapM hparsed fun entry i hi => valid_iff_of_parseRange hi]
    exact forall_congr' fun i => by rw [(S.perm parsed).mem_iff]
  · cases h

/-- A port that was read is the number that was sent, without its fraction. -/
theorem port_iff_of_getInt {port : ℤ} (h : getInt obj "serverPort" = .ok port) :
    (obj.value "serverPort" = .num port ∧ 0 ≤ port ∧ port ≤ 65535) ↔
      PlainPort (obj.value "serverPort") := by
  unfold getInt at h
  split_ifs at h
  split at h
  · rename_i q hq
    obtain rfl := Except.ok.inj h
    constructor
    · rintro ⟨heq, h0, hle⟩
      exact ⟨_, heq, h0, hle⟩
    · rintro ⟨n, hn, h0, hle⟩
      obtain rfl : q = n := by rw [hq] at hn; exact Json.num.inj hn
      rw [Rat.num_intCast, Rat.den_intCast, Nat.cast_one, Int.tdiv_one]
      exact ⟨hq, h0, hle⟩
  · cases h

theorem fields_of_parseConfig (h : parseConfig T S obj = .ok c) :
    getInt obj "serverPort" = .ok c.serverPort ∧
      parseRanges T S obj = .ok c.allowedIPAddressRanges := by
  unfold parseConfig at h
  obtain ⟨privateKey, -, h⟩ := bind_eq_ok.mp h
  obtain ⟨serverPublicKey, -, h⟩ := bind_eq_ok.mp h
  obtain ⟨serverPort, hport, h⟩ := bind_eq_ok.mp h
  dsimp only at h
  split at h
  · cases h
  split at h
  · cases h
  obtain ⟨dnsServer, -, h⟩ := bind_eq_ok.mp h
  obtain ⟨hopType, -, h⟩ := bind_eq_ok.mp h
  obtain ⟨ranges, hranges, h⟩ := bind_eq_ok.mp h
  obtain ⟨vpnDisabledApps, -, h⟩ := bind_eq_ok.mp h
  obtain rfl := Except.ok.inj h
  exact ⟨hport, hranges⟩

/-- **Validation.** What is accepted is in range exactly when the object that was sent is. -/
theorem parseConfig_validated_iff (h : parseConfig T S obj = .ok c) :
    Validated obj c ↔ PlainPort (obj.value "serverPort") ∧
      ∀ entry ∈ (obj.value "allowedIPAddressRanges").toArray, PlainRange T entry := by
  obtain ⟨hport, hranges⟩ := fields_of_parseConfig h
  rw [← port_iff_of_getInt hport, ← valid_iff_of_parseRanges hranges]
  constructor
  · rintro ⟨hvalid, heq, h0, hle⟩
    exact ⟨⟨heq, h0, hle⟩, hvalid⟩
  · rintro ⟨⟨heq, h0, hle⟩, hvalid⟩
    exact ⟨hvalid, heq, h0, hle⟩

/-! ## Requests -/

/-- A request for one IPv4 range. -/
def request (port range : ℚ) : Json.Object :=
  [("allowedIPAddressRanges", .arr [.obj [("address", .str "0.0.0.0".toList),
      ("isIpv6", .bool false), ("range", .num range)]]),
    ("deviceIpv4Address", .str "10.0.0.2/32".toList), ("privateKey", .str "a".toList),
    ("serverIpv4AddrIn", .str "192.0.2.1".toList), ("serverPort", .num port),
    ("serverPublicKey", .str "b".toList)]

/-- The configuration that it asks for. -/
def requested (port range : ℚ) : InterfaceConfig :=
  { hopType := .singleHop
    privateKey := .text "a".toList
    deviceIpv4Address := .text "10.0.0.2/32".toList
    serverPublicKey := .text "b".toList
    serverIpv4AddrIn := .text "192.0.2.1".toList
    serverPort := port.num.tdiv port.den
    allowedIPAddressRanges := [⟨.ipv4 0#32, (Json.num range).toInt⟩] }

theorem parseConfig_request (port range : ℚ) :
    parseConfig defaultRouteText .insertion (request port range) = .ok (requested port range) := by
  rfl

theorem parseConfig_validated_plain :
    Validated (request 51820 0) (requested 51820 0) ↔
      PlainPort ((request 51820 0).value "serverPort") ∧
        ∀ entry ∈ ((request 51820 0).value "allowedIPAddressRanges").toArray,
          PlainRange defaultRouteText entry :=
  parseConfig_validated_iff (parseConfig_request 51820 0)

/-- A prefix length of 33, a port above 65535 and a port with a fraction are accepted. -/
theorem accepted_not_validated :
    ¬ Validated (request 51820 33) (requested 51820 33) ∧
      ¬ Validated (request 70000 0) (requested 70000 0) ∧
      ¬ Validated (request (3 / 2) 0) (requested (3 / 2) 0) ∧
      ∀ port range, parseConfig defaultRouteText .insertion (request port range) =
        .ok (requested port range) := by
  refine ⟨fun h => ?_, fun h => ?_, fun h => ?_, parseConfig_request⟩
  · have hrange : (Json.num 33).toInt = 33 := by decide
    exact absurd (h.ranges _ (List.mem_singleton_self _)).le_width (by rw [hrange]; decide)
  · exact absurd h.port_le (by decide)
  · -- no integer is three halves
    have heq : (3 / 2 : ℚ) = (requested (3 / 2) 0).serverPort := Json.num.inj h.port_eq
    have htwice : (3 : ℚ) = 2 * (requested (3 / 2) 0).serverPort := by rw [← heq]; norm_num
    have hint : (3 : ℤ) = 2 * (requested (3 / 2) 0).serverPort := by exact_mod_cast htwice
    omega

end Daemon

end WgDesktop
