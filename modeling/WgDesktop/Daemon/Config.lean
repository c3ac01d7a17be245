import Mathlib.Data.List.Sort
import WgDesktop.Lib.Json
import WgDesktop.Lib.Runs
import WgDesktop.Profile.InterfaceConfig

/-!
# Configurations between client and daemon

The client sends a configuration as JSON (`InterfaceConfig::toJson` in
`src/utils/interfaceconfig.cpp`) and the daemon reads it (`Daemon::parseConfig` in
`src/daemon/daemon.cpp`). `toJson` writes null strings as empty ones, and reading gives a string
that is empty but not null; `parseConfig_toJson_iff` says when no field on whose absence the daemon
relies is affected.
-/

namespace WgDesktop

open Runs

/-! ## Strings and hop types -/

/-- `QJsonValue(const QString&)`: the null string becomes the empty string. -/
def QString.toJson (s : QString) : Json := .str s.chars

/-- `QJsonValue::toString`: null for a value that is no string. -/
def QString.ofJson (v : Json) : QString := (v.toString?.map QString.text).getD .null

@[simp] theorem QString.ofJson_toJson (s : QString) : ofJson s.toJson = .text s.chars := rfl

@[simp] theorem QString.ofJson_undefined : ofJson .undefined = .null := rfl

namespace HopType

def valueToKey : HopType → String
  | singleHop => "SingleHop"
  | multiHopEntry => "MultiHopEntry"
  | multiHopExit => "MultiHopExit"

/-- `QMetaEnum::keyToValue`; a key may be qualified by its class. -/
def keyToValue (key : List Char) : Option HopType :=
  [singleHop, multiHopEntry, multiHopExit].find? fun h =>
    key = h.valueToKey.toList || key = ("InterfaceConfig::" ++ h.valueToKey).toList

theorem keyToValue_valueToKey (h : HopType) : keyToValue h.valueToKey.toList = some h := by
  cases h with
  | singleHop => decide
  | multiHopEntry => decide
  | multiHopExit => decide

end HopType

/-! ## The client's side -/

namespace InterfaceConfig

/-- One entry of `allowedIPAddressRanges`. -/
def rangeToJson (T : HostAddressText) (i : IPAddress) : Json :=
  .obj (((Json.Object.insert [] "address" (.str (T.toString i.address))).insert
    "range" (.num i.prefixLength)).insert "isIpv6" (.bool (i.address.protocol = .ipv6Protocol)))

/-- The fields that `toJson` writes for the hop that leaves the tunnel. -/
def gatewaysToJson (c : InterfaceConfig) (json : Json.Object) : Json.Object :=
  if c.hopType = .multiHopExit ∨ c.hopType = .singleHop then
    ((json.insert "serverIpv4Gateway" c.serverIpv4Gateway.toJson).insert
      "serverIpv6Gateway" c.serverIpv6Gateway.toJson).insert "dnsServer" c.dnsServer.toJson
  else json

def toJson (T : HostAddressText) (c : InterfaceConfig) : Json.Object :=
  let json := Json.Object.insert [] "hopType" (.str c.hopType.valueToKey.toList)
  let json := json.insert "privateKey" c.privateKey.toJson
  let json := json.insert "deviceIpv4Address" c.deviceIpv4Address.toJson
  let json := json.insert "deviceIpv6Address" c.deviceIpv6Address.toJson
  let json := json.insert "serverPublicKey" c.serverPublicKey.toJson
  let json := json.insert "serverIpv4AddrIn" c.serverIpv4AddrIn.toJson
  let json := json.insert "serverIpv6AddrIn" c.serverIpv6AddrIn.toJson
  let json := json.insert "serverPort" (.num c.serverPort)
  let json := c.gatewaysToJson json
  let json := json.insert "allowedIPAddressRanges"
    (.arr (c.allowedIPAddressRanges.map (rangeToJson T)))
  json.insert "vpnDisabledApps" (.arr (c.vpnDisabledApps.map Json.str))

/-- The fields of the last hop do not hide the others. -/
theorem other_gatewaysToJson {c : InterfaceConfig} {json : Json.Object} {name : String}
    (h4 : name ≠ "serverIpv4Gateway") (h6 : name ≠ "serverIpv6Gateway")
    (hdns : name ≠ "dnsServer") :
    (c.gatewaysToJson json).value name = json.value name ∧
      (c.gatewaysToJson json).contains name = json.contains name := by
  unfold gatewaysToJson
  split_ifs
  · simp [h4, h6, hdns]
  · exact ⟨rfl, rfl⟩

end InterfaceConfig

/-! ## The daemon's side -/

namespace Daemon

open InterfaceConfig

/-- The reasons for which `parseConfig` rejects an object, each with what is logged. -/
inductive ConfigError where
  | missing (name : String)
  | wrongType (name type : String)
  | noDeviceAddresses
  | noServerAddresses
  | invalidHopType (value : List Char)
  | invalidRange (message : String)
  | invalidList (name : String)
  deriving DecidableEq, Repr

/-- `std::sort` by decreasing prefix length: some order of the prefixes in which none is shorter
than a later one. It need not be stable. -/
structure PrefixSort where
  sort : List IPAddress → List IPAddress
  perm : ∀ l, (sort l).Perm l
  sorted : ∀ l, (sort l).Pairwise fun a b => b.prefixLength ≤ a.prefixLength

/-- `GETVALUE(name, where, String)`. -/
def getString (obj : Json.Object) (name : String) : Except ConfigError QString :=
  if !obj.contains name then .error (.missing name)
  else
    match obj.value name with
    | .str s => .ok (.text s)
    | _ => .error (.wrongType name "String")

/-- `GETVALUE(name, where, Double)` into an `int`, which drops the fraction. -/
def getInt (obj : Json.Object) (name : String) : Except ConfigError ℤ :=
  if !obj.contains name then .error (.missing name)
  else
    match obj.value name with
    | .num n => .ok (n.num.tdiv n.den)
    | _ => .error (.wrongType name "Double")

def parseStringList (obj : Json.Object) (name : String) :
    Except ConfigError (List (List Char)) :=
  if obj.contains name then
    match obj.value name with
    | .arr values =>
      values.mapM fun i =>
        match i with
        | .str s => .ok s
        | _ => .error (.invalidList name)
    | _ => .error (.wrongType name "Array")
  else .ok []

def parseDnsServer (obj : Json.Object) : Except ConfigError QString :=
  if !obj.contains "dnsServer" then .ok .null
  else
    match obj.value "dnsServer" with
    | .str s => .ok (.text s)
    | _ => .error (.wrongType "dnsServer" "String")

def parseHopType (obj : Json.Object) : Except ConfigError HopType :=
  if !obj.contains "hopType" then .ok .singleHop
  else
    match obj.value "hopType" with
    | .str s =>
      match HopType.keyToValue s with
      | some hopType => .ok hopType
      | none => .error (.invalidHopType s)
    | _ => .error (.wrongType "hopType" "String")

section Parse

variable (T : HostAddressText)

/-- One entry of `allowedIPAddressRanges`. -/
def parseRange (i : Json) : Except ConfigError IPAddress :=
  match i with
  | .obj ipObj =>
    match Json.Object.value ipObj "address" with
    | .str address =>
      if !(Json.Object.value ipObj "range").isDouble then
        .error (.invalidRange "object must have a numberic range")
      else if !(Json.Object.value ipObj "isIpv6").isBool then
        .error (.invalidRange "object must have a boolean isIpv6")
      else .ok ⟨T.hostAddress address, (Json.Object.value ipObj "range").toInt⟩
    | _ => .error (.invalidRange "objects must have a string address")
  | _ => .error (.invalidRange "must contain only objects")

def parseRanges (S : PrefixSort) (obj : Json.Object) : Except ConfigError (List IPAddress) :=
  if !obj.contains "allowedIPAddressRanges" then .error (.missing "allowedIPAddressRanges")
  else
    match obj.value "allowedIPAddressRanges" with
    | .arr array => do .ok (S.sort (← array.mapM (parseRange T)))
    | _ => .error (.wrongType "allowedIPAddressRanges" "Array")

def parseConfig (S : PrefixSort) (obj : Json.Object) : Except ConfigError InterfaceConfig := do
  let privateKey ← getString obj "privateKey"
  let serverPublicKey ← getString obj "serverPublicKey"
  let serverPort ← getInt obj "serverPort"
  let deviceIpv4Address := QString.ofJson (obj.value "deviceIpv4Address")
  let deviceIpv6Address := QString.ofJson (obj.value "deviceIpv6Address")
  if deviceIpv4Address.isNull && deviceIpv6Address.isNull then throw .noDeviceAddresses
  let serverIpv4AddrIn := QString.ofJson (obj.value "serverIpv4AddrIn")
  let serverIpv6AddrIn := QString.ofJson (obj.value "serverIpv6AddrIn")
  if serverIpv4AddrIn.isNull && serverIpv6AddrIn.isNull then throw .noServerAddresses
  let serverIpv4Gateway := QString.ofJson (obj.value "serverIpv4Gateway")
  let serverIpv6Gateway := QString.ofJson (obj.value "serverIpv6Gateway")
  let dnsServer ← parseDnsServer obj
  let hopType ← parseHopType obj
  let allowedIPAddressRanges ← parseRanges T S obj
  let vpnDisabledApps ← parseStringList obj "vpnDisabledApps"
  .ok { hopType, privateKey, deviceIpv4Address, deviceIpv6Address, serverIpv4Gateway,
        serverIpv6Gateway, serverPublicKey, serverIpv4AddrIn, serverIpv6AddrIn, dnsServer,
        serverPort, allowedIPAddressRanges, vpnDisabledApps }

/-! ## The round trip -/

variable {T}

theorem mapM_map_of_ok {α β ε : Type} {f : β → Except ε α} {g : α → β} {as : List α}
    (h : ∀ a ∈ as, f (g a) = .ok a) : (as.map g).mapM f = .ok as := by
  induction as with
  | nil => rfl
  | cons a as ih =>
    rw [List.map_cons, List.mapM_cons, h a (by simp), ih fun a' ha' => h a' (by simp [ha'])]
    rfl

/-- The prefixes that the client sends: in range, with addresses whose text Qt reads back. -/
structure Sendable (T : HostAddressText) (i : IPAddress) : Prop extends i.Valid where
  hostAddress_toString : T.hostAddress (T.toString i.address) = i.address

theorem parseRange_rangeToJson {i : IPAddress} (h : Sendable T i) :
    parseRange T (InterfaceConfig.rangeToJson T i) = .ok i := by
  have h0 := h.nonneg
  have hle := h.le_width
  have hwidth := i.address.width_le
  have hrange : Json.toInt (.num i.prefixLength) = i.prefixLength := by
    simp only [Json.toInt, Rat.den_intCast, Rat.num_intCast, true_and]
    rw [if_pos (by omega)]
  simp [parseRange, InterfaceConfig.rangeToJson, Json.isDouble, Json.isBool, hrange,
    h.hostAddress_toString]

theorem parseRanges_arr (S : PrefixSort) {ranges : List IPAddress}
    (h : ∀ i ∈ ranges, Sendable T i) {obj : Json.Object}
    (hc : obj.contains "allowedIPAddressRanges" = true)
    (hv : obj.value "allowedIPAddressRanges" =
      .arr (ranges.map (InterfaceConfig.rangeToJson T))) :
    parseRanges T S obj = .ok (S.sort ranges) := by
  have hmap := mapM_map_of_ok fun i hi => parseRange_rangeToJson (h i hi)
  simp [parseRanges, hc, hv, hmap, bind, Except.bind]

theorem parseStringList_arr {name : String} {list : List (List Char)} {obj : Json.Object}
    (hc : obj.contains name = true) (hv : obj.value name = .arr (list.map Json.str)) :
    parseStringList obj name = .ok list := by
  simp only [parseStringList, hc, hv, if_true]
  exact mapM_map_of_ok fun s _ => rfl

/-- **What arrives.** Every string arrives present, and the fields that only the last hop has are
left out for an entry hop. -/
theorem parseConfig_toJson (S : PrefixSort) (c : InterfaceConfig)
    (hranges : ∀ i ∈ c.allowedIPAddressRanges, Sendable T i) :
    parseConfig T S (c.toJson T) = .ok
      { hopType := c.hopType
        privateKey := .text c.privateKey.chars
        deviceIpv4Address := .text c.deviceIpv4Address.chars
        deviceIpv6Address := .text c.deviceIpv6Address.chars
        serverIpv4Gateway :=
          if c.hopType = .multiHopEntry then .null else .text c.serverIpv4Gateway.chars
        serverIpv6Gateway :=
          if c.hopType = .multiHopEntry then .null else .text c.serverIpv6Gateway.chars
        serverPublicKey := .text c.serverPublicKey.chars
        serverIpv4AddrIn := .text c.serverIpv4AddrIn.chars
        serverIpv6AddrIn := .text c.serverIpv6AddrIn.chars
        dnsServer := if c.hopType = .multiHopEntry then .null else .text c.dnsServer.chars
        serverPort := c.serverPort
        allowedIPAddressRanges := S.sort c.allowedIPAddressRanges
        vpnDisabledApps := c.vpnDisabledApps } := by
  have hpk : getString (c.toJson T) "privateKey" = .ok (.text c.privateKey.chars) := by
    simp [getString, toJson, other_gatewaysToJson, QString.toJson]
  have hspk : getString (c.toJson T) "serverPublicKey" = .ok (.text c.serverPublicKey.chars) := by
    simp [getString, toJson, other_gatewaysToJson, QString.toJson]
  have hport : getInt (c.toJson T) "serverPort" = .ok c.serverPort := by
    simp [getInt, toJson, other_gatewaysToJson]
  have hd4 : QString.ofJson ((c.toJson T).value "deviceIpv4Address") =
      .text c.deviceIpv4Address.chars := by
    simp [toJson, other_gatewaysToJson]
  have hd6 : QString.ofJson ((c.toJson T).value "deviceIpv6Address") =
      .text c.deviceIpv6Address.chars := by
    simp [toJson, other_gatewaysToJson]
  have hs4 : QString.ofJson ((c.toJson T).value "serverIpv4AddrIn") =
      .text c.serverIpv4AddrIn.chars := by
    simp [toJson, other_gatewaysToJson]
  have hs6 : QString.ofJson ((c.toJson T).value "serverIpv6AddrIn") =
      .text c.serverIpv6AddrIn.chars := by
    simp [toJson, other_gatewaysToJson]
  have hg4 : QString.ofJson ((c.toJson T).value "serverIpv4Gateway") =
      if c.hopType = .multiHopEntry then .null else .text c.serverIpv4Gateway.chars := by
    cases hhop : c.hopType <;> simp [toJson, gatewaysToJson, hhop]
  have hg6 : QString.ofJson ((c.toJson T).value "serverIpv6Gateway") =
      if c.hopType = .multiHopEntry then .null else .text c.serverIpv6Gateway.chars := by
    cases hhop : c.hopType <;> simp [toJson, gatewaysToJson, hhop]
  have hdns : parseDnsServer (c.toJson T) =
      .ok (if c.hopType = .multiHopEntry then .null else .text c.dnsServer.chars) := by
    cases hhop : c.hopType <;>
      simp [parseDnsServer, toJson, gatewaysToJson, hhop, QString.toJson]
  have hhop : parseHopType (c.toJson T) = .ok c.hopType := by
    simp [parseHopType, toJson, other_gatewaysToJson, HopType.keyToValue_valueToKey]
  have hsort : parseRanges T S (c.toJson T) = .ok (S.sort c.allowedIPAddressRanges) :=
    parseRanges_arr S hranges (by simp [toJson]) (by simp [toJson])
  have happs : parseStringList (c.toJson T) "vpnDisabledApps" = .ok c.vpnDisabledApps :=
    parseStringList_arr (by simp [toJson]) (by simp [toJson])
  simp only [parseConfig, hpk, hspk, hport, hd4, hd6, hs4, hs6, hg4, hg6, hdns, hhop, hsort, happs]
  rfl

/-! ## Absent endpoints -/

/-- The configurations compare equal field by field, up to the order of the ranges and the fields
that are not sent. -/
structure Agrees (c c' : InterfaceConfig) : Prop where
  hopType : c'.hopType = c.hopType
  privateKey : c'.privateKey.chars = c.privateKey.chars
  deviceIpv4Address : c'.deviceIpv4Address.chars = c.deviceIpv4Address.chars
  deviceIpv6Address : c'.deviceIpv6Address.chars = c.deviceIpv6Address.chars
  serverPublicKey : c'.serverPublicKey.chars = c.serverPublicKey.chars
  serverIpv4AddrIn : c'.serverIpv4AddrIn.chars = c.serverIpv4AddrIn.chars
  serverIpv6AddrIn : c'.serverIpv6AddrIn.chars = c.serverIpv6AddrIn.chars
  serverPort : c'.serverPort = c.serverPort
  gateways : c.hopType ≠ .multiHopEntry →
    c'.serverIpv4Gateway.chars = c.serverIpv4Gateway.chars ∧
      c'.serverIpv6Gateway.chars = c.serverIpv6Gateway.chars ∧
      c'.dnsServer.chars = c.dnsServer.chars
  ranges_perm : c'.allowedIPAddressRanges.Perm c.allowedIPAddressRanges
  ranges_sorted : c'.allowedIPAddressRanges.Pairwise fun a b => b.prefixLength ≤ a.prefixLength
  vpnDisabledApps : c'.vpnDisabledApps = c.vpnDisabledApps

/-- **Wire format.** A configuration arrives equal and with its endpoint fields as absent or
present as they were exactly when both endpoint fields are present. -/
theorem parseConfig_toJson_iff (S : PrefixSort) (c : InterfaceConfig)
    (hranges : ∀ i ∈ c.allowedIPAddressRanges, Sendable T i) :
    (∃ c', parseConfig T S (c.toJson T) = .ok c' ∧ Agrees c c' ∧
      c'.serverIpv4AddrIn.isNull = c.serverIpv4AddrIn.isNull ∧
      c'.serverIpv6AddrIn.isNull = c.serverIpv6AddrIn.isNull) ↔
    c.serverIpv4AddrIn ≠ .null ∧ c.serverIpv6AddrIn ≠ .null := by
  rw [parseConfig_toJson S c hranges]
  have hnull : ∀ s : QString, false = s.isNull ↔ s ≠ .null := by
    intro s
    cases s <;> simp
  constructor
  · rintro ⟨c', hc', -, h4, h6⟩
    rw [Except.ok.injEq] at hc'
    subst hc'
    exact ⟨(hnull _).mp h4, (hnull _).mp h6⟩
  · rintro ⟨h4, h6⟩
    refine ⟨_, rfl, ?_, (hnull _).mpr h4, (hnull _).mpr h6⟩
    refine ⟨rfl, rfl, rfl, rfl, rfl, rfl, rfl, rfl, fun hhop => ?_, S.perm _, S.sorted _, rfl⟩
    simp [hhop]

end Parse

/-- Insertion sort is one such order. -/
def PrefixSort.insertion : PrefixSort where
  sort := List.insertionSort fun a b => b.prefixLength ≤ a.prefixLength
  perm l := List.perm_insertionSort _ l
  sorted l := by
    have : Std.Total fun a b : IPAddress => b.prefixLength ≤ a.prefixLength :=
      ⟨fun a b => le_total b.prefixLength a.prefixLength⟩
    have : IsTrans IPAddress fun a b => b.prefixLength ≤ a.prefixLength :=
      ⟨fun _ _ _ hab hbc => le_trans hbc hab⟩
    exact List.pairwise_insertionSort _ l

def defaultRouteText : HostAddressText :=
  .ofTable [("0.0.0.0".toList, .ipv4 0#32), ("::".toList, .ipv6 0#128 [])] []

/-- A server with the given endpoint addresses. -/
def serverAt (serverIpv4AddrIn serverIpv6AddrIn : QString) : InterfaceConfig :=
  { hopType := .singleHop
    privateKey := .text "a".toList
    deviceIpv4Address := .text "10.0.0.2/32".toList
    serverPublicKey := .text "b".toList
    serverIpv4AddrIn
    serverIpv6AddrIn
    serverPort := 51820
    allowedIPAddressRanges := [⟨.ipv4 0#32, 0⟩, ⟨.ipv6 0#128 [], 0⟩] }

theorem sendable_serverAt (s4 s6 : QString) :
    ∀ i ∈ (serverAt s4 s6).allowedIPAddressRanges, Sendable defaultRouteText i := by
  intro i hi
  simp only [serverAt, List.mem_cons, List.not_mem_nil, or_false] at hi
  rcases hi with rfl | rfl
  · exact ⟨⟨by decide, by decide, by decide⟩, by decide⟩
  · exact ⟨⟨by decide, by decide, by decide⟩, by decide⟩

/-- With both addresses the configuration arrives as it was sent. -/
theorem parseConfig_toJson_both :
    ∃ c', parseConfig defaultRouteText .insertion
        ((serverAt (.text "192.0.2.1".toList) (.text "2001:db8::1".toList)).toJson
          defaultRouteText) = .ok c' ∧
      Agrees (serverAt (.text "192.0.2.1".toList) (.text "2001:db8::1".toList)) c' ∧
      c'.serverIpv4AddrIn.isNull = false ∧ c'.serverIpv6AddrIn.isNull = false :=
  (parseConfig_toJson_iff .insertion _ (sendable_serverAt _ _)).mpr ⟨by decide, by decide⟩

/-- An absent IPv4 endpoint arrives as a present, empty one. -/
theorem absent_endpoint_arrives_present :
    (∀ i ∈ (serverAt .null (.text "2001:db8::1".toList)).allowedIPAddressRanges,
      Sendable defaultRouteText i) ∧
    ¬ ∃ c', parseConfig defaultRouteText .insertion
        ((serverAt .null (.text "2001:db8::1".toList)).toJson defaultRouteText) = .ok c' ∧
      Agrees (serverAt .null (.text "2001:db8::1".toList)) c' ∧
      c'.serverIpv4AddrIn.isNull = true ∧ c'.serverIpv6AddrIn.isNull = false := by
  refine ⟨sendable_serverAt _ _, ?_⟩
  rintro ⟨c', hc', -, h4, -⟩
  rw [parseConfig_toJson _ _ (sendable_serverAt _ _), Except.ok.injEq] at hc'
  subst hc'
  cases h4

end Daemon

end WgDesktop
