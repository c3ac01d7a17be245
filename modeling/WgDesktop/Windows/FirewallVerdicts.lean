import WgDesktop.Lib.Verdicts
import WgDesktop.Windows.Firewall

/-!
# Verdicts of the Windows firewall

Which connections the filters of `WindowsFirewall` block. The engine tries heavier filters first, in
any order within a weight; `Policy.blocked_iff` and `Policy.permitted_iff` say what the filters of a
policy block, and let through, in every such order, and `verdicts_run` says so of every run.
-/

namespace WgDesktop.WindowsFirewall

open Bytes Verdicts

/-! ## Connections -/

/-- An outbound or inbound connection, as the engine sees it in the layer of its direction and
family. -/
structure Connection where
  inbound : Bool
  protocol : BitVec 8
  localPort : BitVec 16
  remotePort : BitVec 16
  remoteAddress : QHostAddress
  interfaceIndex : BitVec 32
  appId : List Byte
  known : remoteAddress.protocol ≠ .unknownNetworkLayerProtocol

namespace Connection

def layer (c : Connection) : Layer :=
  if isIPv4 c.remoteAddress then if c.inbound then .aleAuthRecvAcceptV4 else .aleAuthConnectV4
  else if c.inbound then .aleAuthRecvAcceptV6 else .aleAuthConnectV6

def value (c : Connection) : FieldKey → Value
  | .aleAppId => .byteBlob c.appId
  | .interfaceIndex => .uint32 c.interfaceIndex
  | .ipProtocol => .uint8 c.protocol
  | .ipLocalPort => .uint16 c.localPort
  | .ipRemotePort => .uint16 c.remotePort
  | .ipRemoteAddress => importAddress c.remoteAddress
  | .l2Flags => .uint32 0

end Connection

/-- The order of addresses; byte arrays are compared from the first byte on. -/
def Value.le : Value → Value → Bool
  | .uint32 a, .uint32 b => a.toNat ≤ b.toNat
  | .byteArray16 a, .byteArray16 b => a.toNat ≤ b.toNat
  | _, _ => false

def Match.holds (v : Value) : Match → Bool
  | .equal value => v = value
  | .range valueLow valueHigh => valueLow.le v && v.le valueHigh

@[simp] theorem Match.holds_equal {v value : Value} :
    (Match.equal value).holds v = true ↔ v = value :=
  decide_eq_true_iff

@[simp] theorem Match.holds_range {v valueLow valueHigh : Value} :
    (Match.range valueLow valueHigh).holds v = true ↔
      valueLow.le v = true ∧ v.le valueHigh = true :=
  Bool.and_eq_true_iff

/-- Each field is compared, and of several conditions on one field one has to hold. -/
def conditionsHold (conditions : List Condition) (c : Connection) : Bool :=
  conditions.all fun cond => conditions.any fun cond' =>
    cond'.fieldKey = cond.fieldKey && cond'.conditionValue.holds (c.value cond'.fieldKey)

def Filter.applies (f : Filter) (c : Connection) : Bool :=
  f.layerKey = c.layer && conditionsHold f.filterCondition c

def Filter.blocks (f : Filter) : Bool := f.action = .block

/-! ### What the filters decide -/

/-- One of the filters applies, with this action and weight. -/
def Decides (fs : List Filter) (c : Connection) (action : Action) (weight : ℕ) : Prop :=
  ∃ f ∈ fs, f.applies c = true ∧ f.action = action ∧ f.weight = weight

section Decides

variable {fs gs : List Filter} {c : Connection} {action action' : Action} {weight weight' : ℕ}

theorem decides_append :
    Decides (fs ++ gs) c action weight ↔ Decides fs c action weight ∨ Decides gs c action weight := by
  simp [Decides, or_and_right, exists_or]

theorem decides_flatMap {α : Type} {l : List α} {g : α → List Filter} :
    Decides (l.flatMap g) c action weight ↔ ∃ x ∈ l, Decides (g x) c action weight := by
  simp only [Decides, List.mem_flatMap]
  constructor
  · rintro ⟨f, ⟨x, hx, hf⟩, h⟩
    exact ⟨x, hx, f, hf, h⟩
  · rintro ⟨x, hx, f, hf, h⟩
    exact ⟨f, ⟨x, hx, hf⟩, h⟩

theorem decides_inLayers {layers : List Layer} {conditions : List Condition} {clear : Bool} :
    Decides (inLayers layers conditions action' weight' clear) c action weight ↔
      action = action' ∧ weight = weight' ∧ c.layer ∈ layers ∧
        conditionsHold conditions c = true := by
  simp only [Decides, inLayers, List.mem_map, Filter.applies, Bool.and_eq_true, decide_eq_true_eq]
  constructor
  · rintro ⟨f, ⟨layer, hlayer, rfl⟩, ⟨hl, hc⟩, rfl, rfl⟩
    exact ⟨rfl, rfl, hl ▸ hlayer, hc⟩
  · rintro ⟨rfl, rfl, hl, hc⟩
    exact ⟨_, ⟨c.layer, hl, rfl⟩, ⟨rfl, hc⟩, rfl, rfl⟩

theorem layer_mem_aleLayers (c : Connection) (isV4 : Bool) :
    c.layer ∈ aleLayers isV4 ↔ isIPv4 c.remoteAddress = isV4 := by
  rw [Connection.layer]
  cases isIPv4 c.remoteAddress <;> cases isV4 <;> cases c.inbound <;> simp [aleLayers]

theorem layer_mem_all (c : Connection) : c.layer ∈ aleLayers true ++ aleLayers false := by
  rw [List.mem_append, layer_mem_aleLayers, layer_mem_aleLayers]
  cases isIPv4 c.remoteAddress <;> simp

theorem decides_appFilters {appId : List Byte} :
    Decides (appFilters appId weight') c action weight ↔
      action = .permit ∧ weight = weight' ∧ c.appId = appId := by
  rw [appFilters, decides_inLayers, and_iff_right (layer_mem_all c)]
  simp [conditionsHold, Connection.value]

theorem decides_adapterFilters {networkAdapter : BitVec 32} :
    Decides (adapterFilters networkAdapter weight') c action weight ↔
      action = .permit ∧ weight = weight' ∧ c.interfaceIndex = networkAdapter := by
  rw [adapterFilters, decides_inLayers, and_iff_right (layer_mem_all c)]
  simp [conditionsHold, Connection.value]

theorem decides_hyperVFilters : ¬ Decides (hyperVFilters weight') c action weight := by
  rw [hyperVFilters, decides_inLayers]
  rintro ⟨-, -, h, -⟩
  have hall := layer_mem_all c
  simp only [aleLayers] at hall
  simp only [List.mem_cons, List.not_mem_nil, or_false] at h
  rcases h with h | h <;> rw [h] at hall <;> simp at hall

/-- The protocols whose port the firewall looks at. -/
def Connection.UdpOrTcp (c : Connection) : Prop :=
  c.protocol = ipprotoUdp ∨ c.protocol = ipprotoTcp

theorem decides_portFilters {port : BitVec 16} :
    Decides (portFilters port weight') c action weight ↔
      action = .block ∧ weight = weight' ∧ c.UdpOrTcp ∧ c.remotePort = port := by
  have hlayer : c.layer ∈ [Layer.aleAuthConnectV6, .aleAuthConnectV4, .aleAuthRecvAcceptV4,
      .aleAuthRecvAcceptV6] := by
    have h := layer_mem_all c
    simp only [aleLayers] at h
    simp at h ⊢
    tauto
  rw [portFilters, decides_inLayers, and_iff_right hlayer]
  simp [conditionsHold, Connection.value, Connection.UdpOrTcp]

theorem decides_hostFilters {targetIP : QHostAddress} {port : BitVec 16} :
    Decides (hostFilters targetIP port weight') c action weight ↔
      action = .permit ∧ weight = weight' ∧ c.UdpOrTcp ∧ c.remotePort = port ∧
        importAddress c.remoteAddress = importAddress targetIP := by
  have hlayer (h : importAddress c.remoteAddress = importAddress targetIP) :
      c.layer ∈ aleLayers (isIPv4 targetIP) := by
    rw [layer_mem_aleLayers]
    revert h
    cases c.remoteAddress <;> cases targetIP <;> simp [importAddress, isIPv4, QHostAddress.protocol]
  rw [hostFilters, decides_inLayers]
  by_cases h : importAddress c.remoteAddress = importAddress targetIP
  · simp [conditionsHold, Connection.value, Connection.UdpOrTcp, h, hlayer h]
  · simp [conditionsHold, Connection.value, h]

/-- DHCP; outbound over IPv4 only as broadcast. -/
def Connection.Dhcp (c : Connection) : Prop :=
  c.protocol = ipprotoUdp ∧ c.localPort = 68 ∧ c.remotePort = 67 ∧
    (isIPv4 c.remoteAddress = true → c.inbound = false →
      c.remoteAddress = .ipv4 0xffffffff)

theorem decides_dhcpFilters :
    Decides (dhcpFilters weight') c action weight ↔
      action = .permit ∧ weight = weight' ∧ c.Dhcp := by
  rw [dhcpFilters, decides_append, decides_inLayers, decides_inLayers, Connection.Dhcp]
  have hvalue : importAddress c.remoteAddress = .uint32 0xffffffff#32 ↔
      c.remoteAddress = .ipv4 0xffffffff#32 := by
    cases c.remoteAddress <;> simp [importAddress]
  by_cases hv4 : isIPv4 c.remoteAddress = true <;> by_cases hin : c.inbound = true <;>
    simp [dhcpConditions, conditionsHold, Connection.value, Connection.layer, hv4, hin, hvalue]

theorem decides_rangeFilters {range : IPAddress} (h : range.Canonical) :
    Decides (rangeFilters action' range weight') c action weight ↔
      action = action' ∧ weight = weight' ∧ range.Covers c.remoteAddress := by
  rw [rangeFilters, decides_inLayers, layer_mem_aleLayers, IPAddress.covers_iff_word h]
  have hproto := h.protocol
  have hbroad := range.protocol_broadcastAddress
  have hknown := c.known
  refine and_congr_right fun _ => and_congr_right fun _ => ?_
  simp only [conditionsHold, List.all_cons, List.all_nil, List.any_cons, List.any_nil, decide_true,
    Bool.true_and, Bool.or_false, Bool.and_true, Match.holds_range, Connection.value]
  generalize c.remoteAddress = remote at hknown ⊢
  generalize range.broadcastAddress = broad at hbroad ⊢
  generalize range.address = address at hproto hbroad ⊢
  cases address with
  | null => exact absurd rfl hproto
  | ipv4 a =>
    cases broad with
    | ipv4 b => cases remote <;> simp [isIPv4, importAddress, QHostAddress.protocol, Value.le,
        QHostAddress.word]
    | _ => cases hbroad
  | ipv6 a s =>
    cases broad with
    | ipv6 b t =>
      cases remote with
      | null => exact absurd rfl hknown
      | _ => simp [isIPv4, importAddress, QHostAddress.protocol, Value.le, QHostAddress.word,
          QHostAddress.toIPv6Address]
    | _ => cases hbroad

end Decides

/-! ## Verdicts of a policy -/

namespace Policy

/-- The peers whose filters are in force. -/
def enforced (P : Policy) : List InterfaceConfig := P.peers ++ P.lost

/-- The connection is one of the program's own. -/
def OwnApp (P : Policy) (c : Connection) : Prop := ∃ i ∈ P.interfaces, c.appId = i.appId

/-- It goes over the VPN, or over a loopback interface. -/
def ViaAdapter (P : Policy) (c : Connection) : Prop :=
  ∃ i ∈ P.interfaces, c.interfaceIndex = i.vpnAdapterIndex ∨ (c.interfaceIndex, true) ∈ i.interfaces

def Dhcp (P : Policy) (c : Connection) : Prop := P.interfaces ≠ [] ∧ c.Dhcp

/-- It asks for a name, whomever. -/
def DnsPort (P : Policy) (c : Connection) : Prop :=
  P.interfaces ≠ [] ∧ c.UdpOrTcp ∧ c.remotePort = 53

/-- It asks a DNS server of a peer. -/
def DnsServer (T : HostAddressText) (P : Policy) (c : Connection) : Prop :=
  ∃ config ∈ P.enforced, ∃ server ∈ dnsServers T config, c.UdpOrTcp ∧ c.remotePort = 53 ∧
    importAddress c.remoteAddress = importAddress server

def Lan (P : Policy) (c : Connection) : Prop := ∃ range ∈ P.lan, range.Covers c.remoteAddress

/-- The remote address is one that a peer is to be reached through. -/
def Covered (P : Policy) (c : Connection) : Prop :=
  ∃ config ∈ P.enforced, ∃ range ∈ config.allowedIPAddressRanges, range.Covers c.remoteAddress

/-- What is blocked for sure: what belongs to a peer and is not excepted, and questions for names
that do not go over the VPN nor to a DNS server of a peer, also within the local networks. -/
def Blocks (T : HostAddressText) (P : Policy) (c : Connection) : Prop :=
  (P.DnsPort c ∨ P.Covered c ∧ ¬ P.Lan c) ∧
    ¬ P.OwnApp c ∧ ¬ P.DnsServer T c ∧ ¬ P.ViaAdapter c ∧ ¬ P.Dhcp c

/-- What is let through for sure. A question for a name that goes over the VPN, but not to a DNS
server of a peer, is neither. -/
def Permits (T : HostAddressText) (P : Policy) (c : Connection) : Prop :=
  P.OwnApp c ∨ P.DnsServer T c ∨
    ¬ P.DnsPort c ∧ (P.ViaAdapter c ∨ P.Dhcp c ∨ P.Lan c ∨ ¬ P.Covered c)

/-- The networks are networks. -/
structure Canonical (P : Policy) : Prop where
  lan : ∀ range ∈ P.lan, range.Canonical
  peers : ∀ config ∈ P.enforced, ∀ range ∈ config.allowedIPAddressRanges, range.Canonical

section Verdicts

variable {T : HostAddressText} {P : Policy} {c : Connection} {fs : List Filter} {action : Action}
  {weight : ℕ}

theorem decides_interfaceFilters {i : Interface} :
    Decides (interfaceFilters i.vpnAdapterIndex i.appId i.interfaces) c action weight ↔
      action = .permit ∧ weight = maxWeight ∧ c.appId = i.appId ∨
      action = .permit ∧ weight = medWeight ∧
        (c.interfaceIndex = i.vpnAdapterIndex ∨ (c.interfaceIndex, true) ∈ i.interfaces) ∨
      action = .permit ∧ weight = medWeight ∧ c.Dhcp ∨
      action = .block ∧ weight = medWeight ∧ c.UdpOrTcp ∧ c.remotePort = 53 := by
  have hloopback : (∃ interface ∈ i.interfaces.filter (·.2), action = .permit ∧
      weight = medWeight ∧ c.interfaceIndex = interface.1) ↔
      action = .permit ∧ weight = medWeight ∧ (c.interfaceIndex, true) ∈ i.interfaces := by
    constructor
    · rintro ⟨⟨index, isLoopback⟩, hmem, ha, hw, hindex⟩
      rw [List.mem_filter] at hmem
      obtain ⟨hmem, rfl⟩ := hmem
      exact ⟨ha, hw, hindex ▸ hmem⟩
    · rintro ⟨ha, hw, hmem⟩
      exact ⟨_, List.mem_filter.mpr ⟨hmem, rfl⟩, ha, hw, rfl⟩
  simp only [interfaceFilters, decides_append, decides_flatMap, decides_adapterFilters,
    decides_dhcpFilters, decides_hyperVFilters, decides_appFilters, decides_portFilters, hloopback,
    false_or, and_or_left]
  refine iff_of_eq ?_
  ac_rfl

theorem decides_peerFilters {config : InterfaceConfig}
    (h : ∀ range ∈ config.allowedIPAddressRanges, range.Canonical) :
    Decides (peerFilters T config) c action weight ↔
      action = .permit ∧ weight = highWeight ∧
        (∃ server ∈ dnsServers T config, c.UdpOrTcp ∧ c.remotePort = 53 ∧
          importAddress c.remoteAddress = importAddress server) ∨
      action = .block ∧ weight = lowWeight ∧
        ∃ range ∈ config.allowedIPAddressRanges, range.Covers c.remoteAddress := by
  rw [peerFilters, decides_append, decides_flatMap, decides_flatMap, or_comm]
  refine or_congr ?_ ?_
  · simp only [decides_hostFilters]
    exact ⟨fun ⟨server, hs, ha, hw, h⟩ => ⟨ha, hw, server, hs, h⟩,
      fun ⟨ha, hw, server, hs, h⟩ => ⟨server, hs, ha, hw, h⟩⟩
  · constructor
    · rintro ⟨range, hr, hd⟩
      obtain ⟨ha, hw, hc⟩ := (decides_rangeFilters (h range hr)).mp hd
      exact ⟨ha, hw, range, hr, hc⟩
    · rintro ⟨ha, hw, range, hr, hc⟩
      exact ⟨range, hr, (decides_rangeFilters (h range hr)).mpr ⟨ha, hw, hc⟩⟩

theorem decides_lanFilters (h : ∀ range ∈ P.lan, range.Canonical) :
    Decides (lanFilters P.lan) c action weight ↔
      action = .permit ∧ weight = lowWeight + 1 ∧ P.Lan c := by
  rw [lanFilters, decides_flatMap]
  constructor
  · rintro ⟨range, hr, hd⟩
    obtain ⟨ha, hw, hc⟩ := (decides_rangeFilters (h range hr)).mp hd
    exact ⟨ha, hw, range, hr, hc⟩
  · rintro ⟨ha, hw, range, hr, hc⟩
    exact ⟨range, hr, (decides_rangeFilters (h range hr)).mpr ⟨ha, hw, hc⟩⟩

theorem has_iff_mem {f : Filter} :
    (∃ o, P.Has T o f) ↔
      f ∈ (P.interfaces.flatMap fun i =>
          interfaceFilters i.vpnAdapterIndex i.appId i.interfaces) ++
        (lanFilters P.lan ++ P.enforced.flatMap (peerFilters T)) := by
  simp only [List.mem_append, List.mem_flatMap, enforced]
  constructor
  · rintro ⟨o, ⟨-, h⟩ | ⟨-, h⟩ | ⟨config, hc, -, h⟩ | ⟨-, config, hc, h⟩⟩
    · exact .inl h
    · exact .inr (.inl h)
    · exact .inr (.inr ⟨config, .inl hc, h⟩)
    · exact .inr (.inr ⟨config, .inr hc, h⟩)
  · rintro (h | h | ⟨config, hc | hc, h⟩)
    · exact ⟨.active, .inl ⟨rfl, h⟩⟩
    · exact ⟨.active, .inr (.inl ⟨rfl, h⟩)⟩
    · exact ⟨_, .inr (.inr (.inl ⟨config, hc, rfl, h⟩))⟩
    · exact ⟨.lost, .inr (.inr (.inr ⟨rfl, config, hc, h⟩))⟩

/-- What the filters of a policy decide, from the heaviest to the lightest. -/
theorem decides_iff (hcanon : P.Canonical) (hfs : ∀ f, f ∈ fs ↔ ∃ o, P.Has T o f) :
    Decides fs c action weight ↔
      action = .permit ∧ weight = maxWeight ∧ P.OwnApp c ∨
      action = .permit ∧ weight = highWeight ∧ P.DnsServer T c ∨
      action = .permit ∧ weight = medWeight ∧ (P.ViaAdapter c ∨ P.Dhcp c) ∨
      action = .block ∧ weight = medWeight ∧ P.DnsPort c ∨
      action = .permit ∧ weight = lowWeight + 1 ∧ P.Lan c ∨
      action = .block ∧ weight = lowWeight ∧ P.Covered c := by
  have hone : Decides fs c action weight ↔
      (∃ i ∈ P.interfaces,
        Decides (interfaceFilters i.vpnAdapterIndex i.appId i.interfaces) c action weight) ∨
      Decides (lanFilters P.lan) c action weight ∨
      ∃ config ∈ P.enforced, Decides (peerFilters T config) c action weight := by
    rw [← decides_flatMap, ← decides_flatMap, ← decides_append, ← decides_append]
    simp only [Decides, hfs, has_iff_mem]
  rw [hone, decides_lanFilters hcanon.lan]
  simp only [decides_interfaceFilters]
  constructor
  · rintro (⟨i, hi, ⟨ha, hw, h⟩ | ⟨ha, hw, h⟩ | ⟨ha, hw, h⟩ | ⟨ha, hw, h⟩⟩ | h | ⟨config, hc, hd⟩)
    · exact .inl ⟨ha, hw, i, hi, h⟩
    · exact .inr (.inr (.inl ⟨ha, hw, .inl ⟨i, hi, h⟩⟩))
    · exact .inr (.inr (.inl ⟨ha, hw, .inr ⟨List.ne_nil_of_mem hi, h⟩⟩))
    · exact .inr (.inr (.inr (.inl ⟨ha, hw, List.ne_nil_of_mem hi, h⟩)))
    · exact .inr (.inr (.inr (.inr (.inl h))))
    · rcases (decides_peerFilters (hcanon.peers config hc)).mp hd with ⟨ha, hw, h⟩ | ⟨ha, hw, h⟩
      · exact .inr (.inl ⟨ha, hw, config, hc, h⟩)
      · exact .inr (.inr (.inr (.inr (.inr ⟨ha, hw, config, hc, h⟩))))
  · rintro (⟨ha, hw, i, hi, h⟩ | ⟨ha, hw, config, hc, h⟩ | ⟨ha, hw, ⟨i, hi, h⟩ | ⟨hne, h⟩⟩ |
      ⟨ha, hw, hne, h⟩ | h | ⟨ha, hw, config, hc, h⟩)
    · exact .inl ⟨i, hi, .inl ⟨ha, hw, h⟩⟩
    · exact .inr (.inr ⟨config, hc,
        (decides_peerFilters (hcanon.peers config hc)).mpr (.inl ⟨ha, hw, h⟩)⟩)
    · exact .inl ⟨i, hi, .inr (.inl ⟨ha, hw, h⟩)⟩
    · obtain ⟨i, hi⟩ := List.exists_mem_of_ne_nil _ hne
      exact .inl ⟨i, hi, .inr (.inr (.inl ⟨ha, hw, h⟩))⟩
    · obtain ⟨i, hi⟩ := List.exists_mem_of_ne_nil _ hne
      exact .inl ⟨i, hi, .inr (.inr (.inr ⟨ha, hw, h⟩))⟩
    · exact .inr (.inl h)
    · exact .inr (.inr ⟨config, hc,
        (decides_peerFilters (hcanon.peers config hc)).mpr (.inr ⟨ha, hw, h⟩)⟩)

theorem blocked_iff_decides :
    Blocked Filter.weight Filter.applies Filter.blocks fs c ↔
      ∃ weight, Decides fs c .block weight ∧
        ∀ weight', Decides fs c .permit weight' → weight' < weight := by
  have hpermit (f : Filter) : f.blocks = false ↔ f.action = .permit := by
    rw [Filter.blocks]
    cases f.action <;> simp
  rw [Verdicts.blocked_iff]
  constructor
  · rintro ⟨f, hf, happlies, hblock, hall⟩
    refine ⟨f.weight, ⟨f, hf, happlies, of_decide_eq_true hblock, rfl⟩, ?_⟩
    rintro _ ⟨g, hg, hgapplies, haction, rfl⟩
    exact hall g hg hgapplies ((hpermit g).mpr haction)
  · rintro ⟨_, ⟨f, hf, happlies, haction, rfl⟩, hall⟩
    exact ⟨f, hf, happlies, decide_eq_true haction, fun g hg hgapplies hblocks =>
      hall _ ⟨g, hg, hgapplies, (hpermit g).mp hblocks, rfl⟩⟩

theorem permitted_iff_decides :
    Permitted Filter.weight Filter.applies Filter.blocks fs c ↔
      ∀ weight, Decides fs c .block weight →
        ∃ weight', Decides fs c .permit weight' ∧ weight < weight' := by
  have hpermit (f : Filter) : f.blocks = false ↔ f.action = .permit := by
    rw [Filter.blocks]
    cases f.action <;> simp
  rw [Verdicts.permitted_iff]
  constructor
  · rintro h _ ⟨f, hf, happlies, haction, rfl⟩
    obtain ⟨g, hg, hgapplies, hblocks, hlt⟩ := h f hf happlies (decide_eq_true haction)
    exact ⟨_, ⟨g, hg, hgapplies, (hpermit g).mp hblocks, rfl⟩, hlt⟩
  · intro h f hf happlies hblock
    obtain ⟨_, ⟨g, hg, hgapplies, haction, rfl⟩, hlt⟩ :=
      h f.weight ⟨f, hf, happlies, of_decide_eq_true hblock, rfl⟩
    exact ⟨g, hg, hgapplies, (hpermit g).mpr haction, hlt⟩

theorem blocked_iff (hcanon : P.Canonical) (hfs : ∀ f, f ∈ fs ↔ ∃ o, P.Has T o f) :
    Blocked Filter.weight Filter.applies Filter.blocks fs c ↔ P.Blocks T c := by
  rw [blocked_iff_decides]
  simp only [decides_iff hcanon hfs, reduceCtorEq, false_and, true_and, false_or, or_false,
    maxWeight, highWeight, medWeight, lowWeight, Blocks]
  constructor
  · rintro ⟨weight, hblock, hall⟩
    have hle : weight ≤ 7 := by rcases hblock with ⟨rfl, -⟩ | ⟨rfl, -⟩ <;> omega
    refine ⟨?_, fun h => ?_, fun h => ?_, fun h => ?_, fun h => ?_⟩
    · rcases hblock with ⟨-, h⟩ | ⟨rfl, h⟩
      · exact .inl h
      · exact .inr ⟨h, fun hlan => absurd (hall _ (.inr (.inr (.inr ⟨rfl, hlan⟩)))) (by omega)⟩
    · exact absurd (hall _ (.inl ⟨rfl, h⟩)) (by omega)
    · exact absurd (hall _ (.inr (.inl ⟨rfl, h⟩))) (by omega)
    · exact absurd (hall _ (.inr (.inr (.inl ⟨rfl, .inl h⟩)))) (by omega)
    · exact absurd (hall _ (.inr (.inr (.inl ⟨rfl, .inr h⟩)))) (by omega)
  · rintro ⟨h, happ, hdns, hvia, hdhcp⟩
    rcases h with h | ⟨h, hlan⟩
    · refine ⟨7, .inl ⟨rfl, h⟩, ?_⟩
      rintro _ (⟨-, h⟩ | ⟨-, h⟩ | ⟨-, h | h⟩ | ⟨rfl, -⟩)
      · exact absurd h happ
      · exact absurd h hdns
      · exact absurd h hvia
      · exact absurd h hdhcp
      · omega
    · refine ⟨0, .inr ⟨rfl, h⟩, ?_⟩
      rintro _ (⟨-, h⟩ | ⟨-, h⟩ | ⟨-, h | h⟩ | ⟨-, h⟩)
      · exact absurd h happ
      · exact absurd h hdns
      · exact absurd h hvia
      · exact absurd h hdhcp
      · exact absurd h hlan

theorem permitted_iff (hcanon : P.Canonical) (hfs : ∀ f, f ∈ fs ↔ ∃ o, P.Has T o f) :
    Permitted Filter.weight Filter.applies Filter.blocks fs c ↔ P.Permits T c := by
  rw [permitted_iff_decides]
  simp only [decides_iff hcanon hfs, reduceCtorEq, false_and, true_and, false_or, or_false,
    maxWeight, highWeight, medWeight, lowWeight, Permits]
  constructor
  · intro h
    by_cases hdns : P.DnsPort c
    · obtain ⟨_, (⟨rfl, h⟩ | ⟨rfl, h⟩ | ⟨rfl, -⟩ | ⟨rfl, -⟩), hlt⟩ := h 7 (.inl ⟨rfl, hdns⟩)
      · exact .inl h
      · exact .inr (.inl h)
      · omega
      · omega
    · by_cases hcovered : P.Covered c
      · obtain ⟨_, (⟨-, h⟩ | ⟨-, h⟩ | ⟨-, h | h⟩ | ⟨-, h⟩), -⟩ := h 0 (.inr ⟨rfl, hcovered⟩)
        · exact .inl h
        · exact .inr (.inl h)
        · exact .inr (.inr ⟨hdns, .inl h⟩)
        · exact .inr (.inr ⟨hdns, .inr (.inl h)⟩)
        · exact .inr (.inr ⟨hdns, .inr (.inr (.inl h))⟩)
      · exact .inr (.inr ⟨hdns, .inr (.inr (.inr hcovered))⟩)
  · rintro h weight (⟨rfl, hdns⟩ | ⟨rfl, hcovered⟩)
    · rcases h with h | h | ⟨hnot, -⟩
      · exact ⟨15, .inl ⟨rfl, h⟩, by omega⟩
      · exact ⟨13, .inr (.inl ⟨rfl, h⟩), by omega⟩
      · exact absurd hdns hnot
    · rcases h with h | h | ⟨-, h | h | h | h⟩
      · exact ⟨15, .inl ⟨rfl, h⟩, by omega⟩
      · exact ⟨13, .inr (.inl ⟨rfl, h⟩), by omega⟩
      · exact ⟨7, .inr (.inr (.inl ⟨rfl, .inl h⟩)), by omega⟩
      · exact ⟨7, .inr (.inr (.inl ⟨rfl, .inr h⟩)), by omega⟩
      · exact ⟨_, .inr (.inr (.inr ⟨rfl, h⟩)), by omega⟩
      · exact absurd hcovered h

end Verdicts

/-! ### Policies along a run -/

/-- The networks of a call are networks. -/
def OpCanonical : Op → Prop
  | .enableLanBypass ranges => ∀ range ∈ ranges, range.Canonical
  | .enablePeerTraffic config => ∀ range ∈ config.allowedIPAddressRanges, range.Canonical
  | _ => True

theorem Step.canonical {op : Op} {ok : Bool} {P P' : Policy} (h : Step op ok P P')
    (hP : P.Canonical) (hop : OpCanonical op) : P'.Canonical := by
  cases h with
  | done =>
    cases op with
    | enableInterface => exact ⟨hP.lan, hP.peers⟩
    | enableLanBypass ranges =>
      refine ⟨fun range hr => ?_, hP.peers⟩
      rcases List.mem_append.mp hr with hr | hr
      · exact hP.lan range hr
      · exact hop range hr
    | enablePeerTraffic config =>
      refine ⟨hP.lan, fun config' hc => ?_⟩
      simp only [enforced, Policy.done, List.mem_append, List.mem_singleton] at hc
      rcases hc with (hc | rfl) | hc
      · exact hP.peers config' (List.mem_append_left _ hc)
      · exact hop
      · exact hP.peers config' (List.mem_append_right _ hc)
    | disablePeerTraffic pubkey =>
      refine ⟨hP.lan, fun config hc => hP.peers config ?_⟩
      rcases List.mem_append.mp hc with hc | hc
      · exact List.mem_append_left _ (mem_withoutKey.mp hc).1
      · exact List.mem_append_right _ hc
    | disableKillSwitch =>
      exact ⟨by simp [Policy.done, clear],
        fun config hc => hP.peers config (List.mem_append_right _ hc)⟩
  | unchanged => exact hP
  | cleared =>
    exact ⟨by simp [clear], fun config hc => hP.peers config (List.mem_append_right _ hc)⟩
  | lost pubkey =>
    refine ⟨hP.lan, fun config hc => hP.peers config ?_⟩
    simp only [enforced, List.mem_append, mem_withoutKey, mem_ofKey] at hc ⊢
    tauto

theorem Run.canonical {ops : List Op} {oks : List Bool} {P P' : Policy} (h : Run ops oks P P')
    (hP : P.Canonical) (hops : ∀ op ∈ ops, OpCanonical op) : P'.Canonical := by
  induction h with
  | nil => exact hP
  | cons hstep _ ih =>
    rw [List.forall_mem_cons] at hops
    exact ih (hstep.canonical hP hops.1) hops.2

theorem Run.lost_eq_nil {ops : List Op} {oks : List Bool} {P P' : Policy} (h : Run ops oks P P')
    (hP : P.lost = [])
    (hops : ∀ e ∈ ops.zip oks, ∀ pubkey, e.1 = .disablePeerTraffic pubkey → e.2 = true) :
    P'.lost = [] := by
  induction h with
  | nil => exact hP
  | cons hstep _ ih =>
    rw [List.zip_cons_cons, List.forall_mem_cons] at hops
    refine ih ?_ hops.2
    cases hstep with
    | done =>
      rename_i op _ _ _ _ _
      cases op <;> exact hP
    | unchanged => exact hP
    | cleared => exact hP
    | lost pubkey => exact absurd (hops.1 pubkey rfl) Bool.false_ne_true

end Policy

/-! ## Runs -/

section Runs

variable {sys : System} {T : HostAddressText}

/-- **Verdicts.** Behind every run there is a policy that the calls, by what they returned, have
built, and the filters of the engine block and let through what it says. -/
theorem verdicts_run (hdelete : ∀ n, sys.deletes n = true) {ops : List Op}
    (hops : ∀ op ∈ ops, Policy.OpCanonical op) :
    ∃ P, Policy.Run ops (run sys T ops {}).1 {} P ∧ ∀ c,
      (Blocked Filter.weight Filter.applies Filter.blocks
        ((run sys T ops {}).2.filters.map (·.2)) c ↔ P.Blocks T c) ∧
      (Permitted Filter.weight Filter.applies Filter.blocks
        ((run sys T ops {}).2.filters.map (·.2)) c ↔ P.Permits T c) := by
  obtain ⟨P, hrun, hidle⟩ := refines_run hdelete idle_empty ops
  have hcanon : P.Canonical := hrun.canonical ⟨by simp, by simp [Policy.enforced]⟩ hops
  have hfs (f : Filter) :
      f ∈ (run sys T ops {}).2.filters.map (·.2) ↔ ∃ o, P.Has T o f := by
    rw [State.mem_filters_iff]
    exact exists_congr fun o => hidle.holds o f
  exact ⟨P, hrun, fun c => ⟨Policy.blocked_iff hcanon hfs, Policy.permitted_iff hcanon hfs⟩⟩

/-- An engine that does what it is asked for. -/
def obliging : System where
  succeeds _ := true
  deletes _ := true

/-- A peer for 10.0.0.0/8. -/
def peer10 : InterfaceConfig where
  hopType := .singleHop
  serverPublicKey := .text "key".toList
  allowedIPAddressRanges := [⟨.ipv4 0x0a000000#32, 8⟩]

def enabling10 : List Op := [.enableInterface 7 (some [1]) [(1, true)], .enablePeerTraffic peer10]

theorem verdicts_run_enabling10 :
    ∃ P, Policy.Run enabling10 (run obliging (.ofTable [] []) enabling10 {}).1 {} P ∧ ∀ c,
      (Blocked Filter.weight Filter.applies Filter.blocks
        ((run obliging (.ofTable [] []) enabling10 {}).2.filters.map (·.2)) c ↔
          P.Blocks (.ofTable [] []) c) ∧
      (Permitted Filter.weight Filter.applies Filter.blocks
        ((run obliging (.ofTable [] []) enabling10 {}).2.filters.map (·.2)) c ↔
          P.Permits (.ofTable [] []) c) := by
  refine verdicts_run (fun _ => rfl) fun op hop => ?_
  simp only [enabling10, List.mem_cons, List.not_mem_nil, or_false] at hop
  rcases hop with rfl | rfl
  · trivial
  · exact fun range hr => List.mem_singleton.mp hr ▸ by decide

/-- **Nothing is left.** The kill switch that was taken down leaves no filter, whatever failed and
was rolled back before, if every peer that was to be disabled was. -/
theorem filters_eq_nil_run (hdelete : ∀ n, sys.deletes n = true) {ops : List Op}
    (hops : ∀ e ∈ ops.zip (run sys T ops {}).1, ∀ pubkey,
      e.1 = .disablePeerTraffic pubkey → e.2 = true)
    (hdisable : (disableKillSwitch sys (run sys T ops {}).2).1 = true) :
    (disableKillSwitch sys (run sys T ops {}).2).2.filters = [] := by
  obtain ⟨P, hrun, hidle⟩ := refines_run hdelete idle_empty ops
  have hlost := hrun.lost_eq_nil rfl hops
  rcases disableKillSwitch_spec hdelete hidle with ⟨-, h⟩ | ⟨hfalse, -⟩
  · rw [List.eq_nil_iff_forall_not_mem]
    rintro ⟨id, f⟩ hmem
    obtain ⟨o, ho⟩ := (State.mem_filters_iff _ f).mp (List.mem_map.mpr ⟨_, hmem, rfl⟩)
    obtain ⟨-, h | h | ⟨config, -, hc, -⟩ | ⟨-, config, hc, -⟩⟩ := (h.holds o f).mp ho
    · cases h.1
    · cases h.1
    · exact ownerOf_ne_lost _ hc.symm
    · rw [hlost] at hc
      cases hc
  · rw [hfalse] at hdisable
    cases hdisable

theorem filters_eq_nil_run_enabling10 :
    (disableKillSwitch obliging (run obliging (.ofTable [] []) enabling10 {}).2).2.filters = [] :=
  filters_eq_nil_run (fun _ => rfl)
    (fun e he pubkey hop => by
      have hmem := (List.of_mem_zip he).1
      rw [hop] at hmem
      simp [enabling10] at hmem)
    (by decide +kernel)

end Runs

end WgDesktop.WindowsFirewall
