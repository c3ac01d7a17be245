import WgDesktop.Lib.Bytes
import WgDesktop.Net.Masks
import WgDesktop.Profile.InterfaceConfig

/-!
# `WindowsFirewall`

`src/platforms/windows/daemon/windowsfirewall.cpp`, over an engine whose calls may fail at any time.
Filters are added in a transaction and their ids are kept, for the filters of a peer by its public
key; a call that fails rolls its filters back but not the ids.

`refines_run` says that along every run the filters of the engine are those of a `Policy`: of the
interfaces, local networks and peers that were enabled and not disabled since.
-/

namespace WgDesktop.WindowsFirewall

open Bytes

/-! ## Filters -/

inductive Layer where
  | aleAuthConnectV4
  | aleAuthConnectV6
  | aleAuthRecvAcceptV4
  | aleAuthRecvAcceptV6
  | outboundMacFrameNative
  | inboundMacFrameNative
  deriving DecidableEq, Repr

inductive FieldKey where
  | aleAppId
  | interfaceIndex
  | ipProtocol
  | ipLocalPort
  | ipRemotePort
  | ipRemoteAddress
  | l2Flags
  deriving DecidableEq, Repr

/-- `FWP_VALUE0`. -/
inductive Value where
  | uint8 (v : BitVec 8)
  | uint16 (v : BitVec 16)
  | uint32 (v : BitVec 32)
  | byteArray16 (v : BitVec 128)
  | byteBlob (v : List Byte)
  deriving DecidableEq, Repr

/-- `FWP_MATCH_EQUAL` and `FWP_MATCH_RANGE`, with what they compare to. -/
inductive Match where
  | equal (value : Value)
  | range (valueLow valueHigh : Value)
  deriving DecidableEq, Repr

/-- `FWPM_FILTER_CONDITION0`. -/
structure Condition where
  fieldKey : FieldKey
  conditionValue : Match
  deriving DecidableEq, Repr

inductive Action where
  | block
  | permit
  deriving DecidableEq, Repr

/-- `FWPM_FILTER0`, without the texts for display. All are in the baseline sublayer. -/
structure Filter where
  layerKey : Layer
  filterCondition : List Condition
  action : Action
  weight : ℕ
  clearActionRight : Bool := false
  deriving DecidableEq, Repr

def lowWeight : ℕ := 0

def medWeight : ℕ := 7

def highWeight : ℕ := 13

def maxWeight : ℕ := 15

def ipprotoTcp : BitVec 8 := 6

def ipprotoUdp : BitVec 8 := 17

/-- `FWP_CONDITION_L2_IS_VM2VM`. -/
def l2IsVm2vm : BitVec 32 := 0x10

def importAddress (addr : QHostAddress) : Value :=
  match addr with
  | .ipv4 a => .uint32 a
  | _ => .byteArray16 addr.toIPv6Address

/-! ## The filters that the members of the class add -/

def isIPv4 (addr : QHostAddress) : Bool := addr.protocol = .ipv4Protocol

/-- The layers of outbound and inbound traffic of a family. -/
def aleLayers (isV4 : Bool) : List Layer :=
  if isV4 then [.aleAuthConnectV4, .aleAuthRecvAcceptV4]
  else [.aleAuthConnectV6, .aleAuthRecvAcceptV6]

/-- A permit or block of the same conditions in several layers. -/
def inLayers (layers : List Layer) (filterCondition : List Condition) (action : Action)
    (weight : ℕ) (clearActionRight : Bool) : List Filter :=
  layers.map fun layerKey => { layerKey, filterCondition, action, weight, clearActionRight }

/-- The filters of `allowTrafficForAppOnAll`. -/
def appFilters (appId : List Byte) (weight : ℕ) : List Filter :=
  inLayers (aleLayers true ++ aleLayers false) [⟨.aleAppId, .equal (.byteBlob appId)⟩] .permit weight
    true

/-- The filters of `allowTrafficOfAdapter`. -/
def adapterFilters (networkAdapter : BitVec 32) (weight : ℕ) : List Filter :=
  inLayers (aleLayers true ++ aleLayers false)
    [⟨.interfaceIndex, .equal (.uint32 networkAdapter)⟩] .permit weight false

/-- The filters of `allowTrafficTo` and `blockTrafficTo` on a network. -/
def rangeFilters (action : Action) (addr : IPAddress) (weight : ℕ) : List Filter :=
  inLayers (aleLayers (isIPv4 addr.address))
    [⟨.ipRemoteAddress,
      .range (importAddress addr.address) (importAddress addr.broadcastAddress)⟩] action weight false

/-- The filters of `allowTrafficTo` on a host and port. TCP is written to the wider member of the
union, of which the engine reads the low byte. -/
def hostFilters (targetIP : QHostAddress) (port : BitVec 16) (weight : ℕ) : List Filter :=
  inLayers (aleLayers (isIPv4 targetIP))
    [⟨.ipProtocol, .equal (.uint8 ipprotoUdp)⟩, ⟨.ipProtocol, .equal (.uint8 ipprotoTcp)⟩,
      ⟨.ipRemotePort, .equal (.uint16 port)⟩,
      ⟨.ipRemoteAddress, .equal (importAddress targetIP)⟩] .permit weight true

/-- The conditions that the filters of `allowDHCPTraffic` share, also those for IPv6. -/
def dhcpConditions : List Condition :=
  [⟨.ipProtocol, .equal (.uint8 ipprotoUdp)⟩, ⟨.ipLocalPort, .equal (.uint16 68)⟩,
    ⟨.ipRemotePort, .equal (.uint16 67)⟩]

/-- The filters of `allowDHCPTraffic`. -/
def dhcpFilters (weight : ℕ) : List Filter :=
  inLayers [.aleAuthConnectV4]
      (dhcpConditions ++ [⟨.ipRemoteAddress, .equal (.uint32 0xffffffff)⟩]) .permit weight false ++
    inLayers [.aleAuthRecvAcceptV4, .aleAuthConnectV6, .aleAuthRecvAcceptV6] dhcpConditions .permit
      weight false

/-- The filters of `allowHyperVTraffic`. -/
def hyperVFilters (weight : ℕ) : List Filter :=
  inLayers [.outboundMacFrameNative, .inboundMacFrameNative]
    [⟨.l2Flags, .equal (.uint32 l2IsVm2vm)⟩] .permit weight false

/-- The filters of `blockTrafficOnPort`. -/
def portFilters (port : BitVec 16) (weight : ℕ) : List Filter :=
  inLayers [.aleAuthConnectV6, .aleAuthConnectV4, .aleAuthRecvAcceptV4, .aleAuthRecvAcceptV6]
    [⟨.ipProtocol, .equal (.uint8 ipprotoUdp)⟩, ⟨.ipProtocol, .equal (.uint8 ipprotoTcp)⟩,
      ⟨.ipRemotePort, .equal (.uint16 port)⟩] .block weight false

/-! ## The engine -/

/-- Whether the engine does what the `n`th call asks for. -/
structure System where
  succeeds : ℕ → Bool
  deletes : ℕ → Bool

/-- The filters of the session with their ids, those a running transaction began with, and the
members of the class. -/
structure State where
  filters : List (ℕ × Filter) := []
  transaction : Option (List (ℕ × Filter)) := none
  nextId : ℕ := 0
  calls : ℕ := 0
  activeRules : List ℕ := []
  peerRules : List (List Char × ℕ) := []
  deriving DecidableEq, Repr

/-- A call, which returns whether it has succeeded. -/
abbrev Call := State → Bool × State

/-- `if (!a) return false;` in front of `b`. -/
def Call.andThen (a b : Call) : Call := fun s =>
  match a s with
  | (true, s) => b s
  | (false, s) => (false, s)

section Calls

variable (sys : System) (T : HostAddressText)

def transactionBegin : Call := fun s =>
  let ok := sys.succeeds s.calls && s.transaction.isNone
  (ok, { s with
    calls := s.calls + 1
    transaction := if ok then some s.filters else s.transaction })

def transactionCommit : Call := fun s =>
  let ok := sys.succeeds s.calls && s.transaction.isSome
  (ok, { s with
    calls := s.calls + 1
    transaction := if ok then none else s.transaction })

def transactionAbort (s : State) : State :=
  { s with filters := s.transaction.getD s.filters, transaction := none }

def filterDeleteById (s : State) (id : ℕ) : State :=
  { s with
    calls := s.calls + 1
    filters := if sys.deletes s.calls then s.filters.filter (·.1 ≠ id) else s.filters }

/-- A filter that was added, and where its id is kept. -/
def State.add (peer : List Char) (s : State) (filter : Filter) : State :=
  { s with
    nextId := s.nextId + 1
    filters := s.filters ++ [(s.nextId, filter)]
    activeRules := if peer = [] then s.activeRules ++ [s.nextId] else s.activeRules
    peerRules := if peer = [] then s.peerRules else (peer, s.nextId) :: s.peerRules }

def enableFilter (peer : List Char) (filter : Filter) : Call := fun s =>
  (sys.succeeds s.calls,
    { if sys.succeeds s.calls then s.add peer filter else s with calls := s.calls + 1 })

def enableFilters (peer : List Char) : List Filter → Call
  | [] => fun s => (true, s)
  | filter :: filters => (enableFilter sys peer filter).andThen (enableFilters peer filters)

def allowTrafficOfAdapter (networkAdapter : BitVec 32) (weight : ℕ) : Call :=
  enableFilters sys [] (adapterFilters networkAdapter weight)

/-- The id of the program's file may not be had. -/
def allowTrafficForAppOnAll (appId : Option (List Byte)) (weight : ℕ) : Call :=
  match appId with
  | some appId => enableFilters sys [] (appFilters appId weight)
  | none => fun s => (false, s)

def allowLoopbackTraffic (weight : ℕ) : List (BitVec 32 × Bool) → Call
  | [] => fun s => (true, s)
  | (index, isLoopback) :: interfaces =>
    if isLoopback then
      (allowTrafficOfAdapter sys index weight).andThen (allowLoopbackTraffic weight interfaces)
    else allowLoopbackTraffic weight interfaces

def blockTrafficTo (peer : List Char) (weight : ℕ) : List IPAddress → Call
  | [] => fun s => (true, s)
  | range :: ranges =>
    (enableFilters sys peer (rangeFilters .block range weight)).andThen
      (blockTrafficTo peer weight ranges)

/-- The ids of all rules are given up only when the transaction was committed. -/
def disableKillSwitch : Call := fun s =>
  match transactionBegin sys s with
  | (false, s) => (false, transactionAbort s)
  | (true, s) =>
    let s := (s.peerRules.map (·.2)).foldl (filterDeleteById sys) s
    let s := s.activeRules.foldl (filterDeleteById sys) s
    match transactionCommit sys s with
    | (false, s) => (false, transactionAbort s)
    | (true, s) => (true, { s with peerRules := [], activeRules := [] })

/-- The calls of `enableInterface` within the transaction. -/
def interfaceCalls (vpnAdapterIndex : BitVec 32) (appId : Option (List Byte))
    (interfaces : List (BitVec 32 × Bool)) : Call :=
  (allowTrafficOfAdapter sys vpnAdapterIndex medWeight).andThen <|
  (enableFilters sys [] (dhcpFilters medWeight)).andThen <|
  (enableFilters sys [] (hyperVFilters medWeight)).andThen <|
  (allowTrafficForAppOnAll sys appId maxWeight).andThen <|
  (enableFilters sys [] (portFilters 53 medWeight)).andThen <|
  allowLoopbackTraffic sys medWeight interfaces

/-- `appId` is the id of the running program's file, `interfaces` are those of the machine with
whether they are loopback. -/
def enableInterface (vpnAdapterIndex : BitVec 32) (appId : Option (List Byte))
    (interfaces : List (BitVec 32 × Bool)) : Call := fun s =>
  match transactionBegin sys s with
  | (false, s) => (false, (disableKillSwitch sys s).2)
  | (true, s) =>
    match (interfaceCalls sys vpnAdapterIndex appId interfaces).andThen (transactionCommit sys) s with
    | (true, s) => (true, s)
    | (false, s) => (false, transactionAbort s)

/-- `enableLanBypass` and `enablePeerTraffic` around their calls: what fails takes the kill switch
down. -/
def enabling (calls : Call) : Call := fun s =>
  match transactionBegin sys s with
  | (false, s) => (false, (disableKillSwitch sys s).2)
  | (true, s) =>
    match calls.andThen (transactionCommit sys) s with
    | (true, s) => (true, s)
    | (false, s) => (false, (disableKillSwitch sys (transactionAbort s)).2)

def allowTrafficToRanges : List IPAddress → Call
  | [] => fun s => (true, s)
  | range :: ranges =>
    (enableFilters sys [] (rangeFilters .permit range (lowWeight + 1))).andThen
      (allowTrafficToRanges ranges)

def enableLanBypass (ranges : List IPAddress) : Call :=
  enabling sys (allowTrafficToRanges sys ranges)

/-- The DNS servers of a peer. -/
def dnsServers (config : InterfaceConfig) : List QHostAddress :=
  if config.dnsServer.isEmpty then []
  else
    T.hostAddress config.dnsServer.chars ::
      if config.dnsServer == config.serverIpv4Gateway then
        [T.hostAddress config.serverIpv6Gateway.chars]
      else []

def enablePeerTraffic (config : InterfaceConfig) : Call :=
  enabling sys <|
    (blockTrafficTo sys config.serverPublicKey.chars lowWeight
      config.allowedIPAddressRanges).andThen <|
    enableFilters sys config.serverPublicKey.chars
      ((dnsServers T config).flatMap (hostFilters · 53 highWeight))

/-- The ids are given up before the transaction is committed. -/
def disablePeerTraffic (pubkey : List Char) : Call := fun s =>
  match transactionBegin sys s with
  | (false, s) => (false, transactionAbort s)
  | (true, s) =>
    let ids := (s.peerRules.filter (·.1 = pubkey)).map (·.2)
    let s := ids.foldl
      (fun s id =>
        let s := filterDeleteById sys s id
        { s with peerRules := s.peerRules.filter (· ≠ (pubkey, id)) }) s
    match transactionCommit sys s with
    | (true, s) => (true, s)
    | (false, s) => (false, transactionAbort s)

end Calls

/-! ## Who holds a filter -/

/-- The list that the id of a filter is kept in, if it is kept. -/
inductive Owner where
  | active
  | peer (pubkey : List Char)
  | lost
  deriving DecidableEq, Repr

def ownerOf (peer : List Char) : Owner := if peer = [] then .active else .peer peer

@[simp] theorem ownerOf_ne_lost (peer : List Char) : ownerOf peer ≠ .lost := by
  rw [ownerOf]
  split <;> simp

theorem ownerOf_eq_peer_iff {peer pubkey : List Char} :
    ownerOf peer = .peer pubkey ↔ peer = pubkey ∧ pubkey ≠ [] := by
  rw [ownerOf]
  split
  · simp_all [eq_comm]
  · simp only [Owner.peer.injEq]
    exact ⟨fun h => ⟨h, h ▸ ‹_›⟩, And.left⟩

namespace State

def Recorded (s : State) (id : ℕ) : Owner → Prop
  | .active => id ∈ s.activeRules
  | .peer pubkey => (pubkey, id) ∈ s.peerRules
  | .lost => id ∉ s.activeRules ∧ ∀ pubkey, (pubkey, id) ∉ s.peerRules

/-- The filter is in the engine, under an id that `o` keeps. -/
def Holds (s : State) (o : Owner) (f : Filter) : Prop := ∃ id, (id, f) ∈ s.filters ∧ s.Recorded id o

/-- Ids are given out once, and kept in one place. -/
structure Inv (s : State) : Prop where
  filters_lt : ∀ e ∈ s.filters, e.1 < s.nextId
  recorded_lt : ∀ id o, s.Recorded id o → o ≠ .lost → id < s.nextId
  unique : ∀ id o o', s.Recorded id o → s.Recorded id o' → o = o'
  not_recorded : ∀ id, ¬ s.Recorded id (.peer [])

theorem exists_recorded (s : State) (id : ℕ) : ∃ o, s.Recorded id o := by
  by_cases hactive : id ∈ s.activeRules
  · exact ⟨.active, hactive⟩
  · by_cases hpeer : ∃ pubkey, (pubkey, id) ∈ s.peerRules
    · obtain ⟨pubkey, hpeer⟩ := hpeer
      exact ⟨.peer pubkey, hpeer⟩
    · exact ⟨.lost, hactive, fun pubkey h => hpeer ⟨pubkey, h⟩⟩

theorem mem_filters_iff (s : State) (f : Filter) :
    f ∈ s.filters.map (·.2) ↔ ∃ o, s.Holds o f := by
  constructor
  · intro h
    obtain ⟨⟨id, f⟩, hmem, rfl⟩ := List.mem_map.mp h
    obtain ⟨o, ho⟩ := s.exists_recorded id
    exact ⟨o, id, hmem, ho⟩
  · rintro ⟨o, id, hmem, -⟩
    exact List.mem_map.mpr ⟨_, hmem, rfl⟩

/-! ### Adding filters -/

section Add

variable {s : State} {peer : List Char}

theorem recorded_add (f : Filter) {id : ℕ} (hne : id ≠ s.nextId) (o : Owner) :
    (s.add peer f).Recorded id o ↔ s.Recorded id o := by
  cases o <;> by_cases hp : peer = [] <;> simp [Recorded, State.add, hp, hne]

theorem recorded_add_self (h : s.Inv) (f : Filter) (o : Owner) :
    (s.add peer f).Recorded s.nextId o ↔ o = ownerOf peer := by
  have hactive : s.nextId ∉ s.activeRules := fun hmem =>
    lt_irrefl _ (h.recorded_lt s.nextId .active hmem (by simp))
  have hpeer (pubkey : List Char) : (pubkey, s.nextId) ∉ s.peerRules := fun hmem =>
    lt_irrefl _ (h.recorded_lt s.nextId (.peer pubkey) hmem (by simp))
  cases o <;> by_cases hp : peer = [] <;>
    simp [Recorded, State.add, ownerOf, hp, hactive, hpeer, eq_comm]

variable (peer) in
theorem Inv.add (h : s.Inv) (f : Filter) : (s.add peer f).Inv where
  filters_lt e he := by
    rcases List.mem_append.mp he with he | he
    · exact Nat.lt_succ_of_lt (h.filters_lt e he)
    · rw [List.mem_singleton.mp he]
      exact Nat.lt_succ_self _
  recorded_lt id o hrec ho := by
    by_cases hid : id = s.nextId
    · rw [hid]
      exact Nat.lt_succ_self _
    · exact Nat.lt_succ_of_lt (h.recorded_lt id o ((recorded_add f hid o).mp hrec) ho)
  unique id o o' hrec hrec' := by
    by_cases hid : id = s.nextId
    · subst hid
      exact ((recorded_add_self h f o).mp hrec).trans ((recorded_add_self h f o').mp hrec').symm
    · exact h.unique id o o' ((recorded_add f hid o).mp hrec) ((recorded_add f hid o').mp hrec')
  not_recorded id hrec := by
    by_cases hid : id = s.nextId
    · subst hid
      have howner := (recorded_add_self h f _).mp hrec
      by_cases hp : peer = [] <;> simp [ownerOf, hp, eq_comm] at howner
    · exact h.not_recorded id ((recorded_add f hid _).mp hrec)

theorem holds_add (h : s.Inv) (f g : Filter) (o : Owner) :
    (s.add peer f).Holds o g ↔ s.Holds o g ∨ o = ownerOf peer ∧ g = f := by
  constructor
  · rintro ⟨id, hmem, hrec⟩
    rcases List.mem_append.mp hmem with hmem | hmem
    · exact .inl ⟨id, hmem, (recorded_add f (h.filters_lt _ hmem).ne o).mp hrec⟩
    · obtain ⟨rfl, rfl⟩ := Prod.mk.inj (List.mem_singleton.mp hmem)
      exact .inr ⟨(recorded_add_self h g o).mp hrec, rfl⟩
  · rintro (⟨id, hmem, hrec⟩ | ⟨ho, rfl⟩)
    · exact ⟨id, List.mem_append_left _ hmem, (recorded_add f (h.filters_lt _ hmem).ne o).mpr hrec⟩
    · exact ⟨s.nextId, List.mem_append_right _ (List.mem_singleton.mpr rfl),
        (recorded_add_self h g o).mpr ho⟩

def adds (peer : List Char) (s : State) (fs : List Filter) : State := fs.foldl (State.add peer) s

theorem adds_append (fs gs : List Filter) : s.adds peer (fs ++ gs) = (s.adds peer fs).adds peer gs :=
  List.foldl_append

theorem adds_calls (n : ℕ) (fs : List Filter) :
    ({ s with calls := n } : State).adds peer fs = { s.adds peer fs with calls := n } := by
  induction fs generalizing s with
  | nil => rfl
  | cons f fs ih => exact @ih (s.add peer f)

variable (peer) in
theorem adds_spec (h : s.Inv) (fs : List Filter) :
    (s.adds peer fs).Inv ∧ (s.adds peer fs).transaction = s.transaction ∧
      s.nextId ≤ (s.adds peer fs).nextId ∧
      (∀ id < s.nextId, ∀ o, (s.adds peer fs).Recorded id o ↔ s.Recorded id o) ∧
      ∀ o g, (s.adds peer fs).Holds o g ↔ s.Holds o g ∨ o = ownerOf peer ∧ g ∈ fs := by
  induction fs generalizing s with
  | nil => exact ⟨h, rfl, le_rfl, fun _ _ _ => Iff.rfl, by simp [adds]⟩
  | cons f fs ih =>
    obtain ⟨hinv, htrans, hle, hrec, hholds⟩ := ih (h.add peer f)
    refine ⟨hinv, htrans, (Nat.le_succ _).trans hle, fun id hid o => ?_, fun o g => ?_⟩
    · exact (hrec id (Nat.lt_succ_of_lt hid) o).trans (recorded_add f hid.ne o)
    · refine (hholds o g).trans ?_
      rw [holds_add h, List.mem_cons]
      tauto

end Add

/-! ### Between transactions -/

/-- No transaction is running, and the filters are those of `H`. -/
structure Idle (s : State) (H : Owner → Filter → Prop) : Prop where
  inv : s.Inv
  transaction : s.transaction = none
  holds : ∀ o f, s.Holds o f ↔ H o f

section Idle

variable {s : State} {peer : List Char} {H : Owner → Filter → Prop}

/-- The number of calls does not matter, nor what a transaction began with once it is over. -/
theorem Idle.calls (h : s.Idle H) (n : ℕ) :
    ({ s with calls := n, transaction := none } : State).Idle H :=
  ⟨⟨h.inv.filters_lt, h.inv.recorded_lt, h.inv.unique, h.inv.not_recorded⟩, rfl, h.holds⟩

theorem Idle.adds (h : s.Idle H) (fs : List Filter) (n : ℕ) (transaction : Option _) :
    ({ ({ s with transaction } : State).adds peer fs with calls := n, transaction := none } :
      State).Idle fun o f => H o f ∨ o = ownerOf peer ∧ f ∈ fs := by
  have hinv : ({ s with transaction } : State).Inv :=
    ⟨h.inv.filters_lt, h.inv.recorded_lt, h.inv.unique, h.inv.not_recorded⟩
  obtain ⟨hadds, -, -, -, hholds⟩ := adds_spec peer hinv fs
  exact ⟨⟨hadds.filters_lt, hadds.recorded_lt, hadds.unique, hadds.not_recorded⟩, rfl,
    fun o f => (hholds o f).trans (or_congr_left (h.holds o f))⟩

/-- Filters that were added and rolled back: their ids are still kept. -/
theorem Idle.adds_abort (h : s.Idle H) (fs : List Filter) (n : ℕ) :
    (transactionAbort { ({ s with transaction := some s.filters } : State).adds peer fs with
      calls := n }).Idle H := by
  have hinv : ({ s with transaction := some s.filters } : State).Inv :=
    ⟨h.inv.filters_lt, h.inv.recorded_lt, h.inv.unique, h.inv.not_recorded⟩
  obtain ⟨hadds, htrans, hle, hrec, -⟩ := adds_spec peer hinv fs
  have hfilters : (transactionAbort
      { ({ s with transaction := some s.filters } : State).adds peer fs with calls := n }).filters =
        s.filters := by
    rw [transactionAbort]
    exact congrArg (Option.getD · _) htrans
  refine ⟨⟨fun e he => ?_, hadds.recorded_lt, hadds.unique, hadds.not_recorded⟩, rfl,
    fun o f => ?_⟩
  · rw [hfilters] at he
    exact (h.inv.filters_lt e he).trans_le hle
  · rw [← h.holds o f]
    refine exists_congr fun id => ?_
    rw [hfilters]
    exact and_congr_right fun hmem => hrec id (h.inv.filters_lt _ hmem) o

end Idle

/-! ### Giving up ids -/

theorem recorded_lost_iff {s : State} {id : ℕ} :
    s.Recorded id .lost ↔ ∀ o, o ≠ .lost → ¬ s.Recorded id o := by
  constructor
  · rintro ⟨hactive, hpeer⟩ o ho
    cases o with
    | active => exact hactive
    | peer pubkey => exact hpeer pubkey
    | lost => exact absurd rfl ho
  · intro h
    exact ⟨h .active (by simp), fun pubkey => h (.peer pubkey) (by simp)⟩

/-- The ids of the owners `K` are given up. -/
structure Forgets (K : Owner → Prop) (s s' : State) : Prop where
  not_lost : ¬ K .lost
  nextId : s'.nextId = s.nextId
  recorded : ∀ id o, o ≠ .lost → (s'.Recorded id o ↔ ¬ K o ∧ s.Recorded id o)

section Forgets

variable {K : Owner → Prop} {s s' : State}

theorem Forgets.inv (h : Forgets K s s') (hinv : s.Inv) (hsub : ∀ e ∈ s'.filters, e ∈ s.filters) :
    s'.Inv where
  filters_lt e he := h.nextId ▸ hinv.filters_lt e (hsub e he)
  recorded_lt id o hrec ho := h.nextId ▸ hinv.recorded_lt id o ((h.recorded id o ho).mp hrec).2 ho
  unique id o o' hrec hrec' := by
    by_cases ho : o = .lost
    · subst ho
      by_contra hne
      exact recorded_lost_iff.mp hrec o' (Ne.symm hne) hrec'
    · by_cases ho' : o' = .lost
      · subst ho'
        exact absurd hrec (recorded_lost_iff.mp hrec' o ho)
      · exact hinv.unique id o o' ((h.recorded id o ho).mp hrec).2
          ((h.recorded id o' ho').mp hrec').2
  not_recorded id hrec :=
    hinv.not_recorded id ((h.recorded id (.peer []) (by simp)).mp hrec).2

theorem Forgets.holds_of_removed (h : Forgets K s s') (hinv : s.Inv)
    (hfilters : ∀ e, e ∈ s'.filters ↔ e ∈ s.filters ∧ ∀ o, K o → ¬ s.Recorded e.1 o) (o : Owner)
    (f : Filter) : s'.Holds o f ↔ ¬ K o ∧ s.Holds o f := by
  have hrec (id : ℕ) (hid : ∀ o, K o → ¬ s.Recorded id o) :
      s'.Recorded id o ↔ ¬ K o ∧ s.Recorded id o := by
    by_cases ho : o = .lost
    · subst ho
      rw [recorded_lost_iff, recorded_lost_iff, and_iff_right h.not_lost]
      refine forall₂_congr fun o ho => not_congr ((h.recorded id o ho).trans ?_)
      exact and_iff_right_of_imp fun hrec hK => hid o hK hrec
    · exact h.recorded id o ho
  constructor
  · rintro ⟨id, hmem, hrec'⟩
    obtain ⟨hmem, hid⟩ := (hfilters _).mp hmem
    obtain ⟨hK, hold⟩ := (hrec id hid).mp hrec'
    exact ⟨hK, id, hmem, hold⟩
  · rintro ⟨hK, id, hmem, hold⟩
    have hid (o' : Owner) (hK' : K o') (hrec' : s.Recorded id o') : False :=
      hK (hinv.unique id o o' hold hrec' ▸ hK')
    exact ⟨id, (hfilters _).mpr ⟨hmem, hid⟩, (hrec id hid).mpr ⟨hK, hold⟩⟩

theorem Forgets.holds_of_kept (h : Forgets K s s') (hinv : s.Inv)
    (hfilters : s'.filters = s.filters) (o : Owner) (f : Filter) : s'.Holds o f ↔
      o ≠ .lost ∧ ¬ K o ∧ s.Holds o f ∨
        o = .lost ∧ (s.Holds .lost f ∨ ∃ o', K o' ∧ s.Holds o' f) := by
  by_cases ho : o = .lost
  · subst ho
    simp only [Holds, hfilters, ne_eq, not_true_eq_false, false_and, true_and, false_or]
    constructor
    · rintro ⟨id, hmem, hrec⟩
      obtain ⟨o', ho'⟩ := s.exists_recorded id
      by_cases hlost : o' = .lost
      · exact .inl ⟨id, hmem, hlost ▸ ho'⟩
      · refine .inr ⟨o', ?_, id, hmem, ho'⟩
        by_contra hK
        exact recorded_lost_iff.mp hrec o' hlost ((h.recorded id o' hlost).mpr ⟨hK, ho'⟩)
    · rintro (⟨id, hmem, hrec⟩ | ⟨o', hK, id, hmem, hrec⟩)
      · exact ⟨id, hmem, recorded_lost_iff.mpr fun o ho hrec' =>
          recorded_lost_iff.mp hrec o ho ((h.recorded id o ho).mp hrec').2⟩
      · refine ⟨id, hmem, recorded_lost_iff.mpr fun o ho hrec' => ?_⟩
        obtain ⟨hnot, hold⟩ := (h.recorded id o ho).mp hrec'
        exact hnot (hinv.unique id o o' hold hrec ▸ hK)
  · simp only [Holds, hfilters, ne_eq, ho, not_false_eq_true, true_and, false_and, or_false]
    constructor
    · rintro ⟨id, hmem, hrec⟩
      exact ⟨((h.recorded id o ho).mp hrec).1, id, hmem, ((h.recorded id o ho).mp hrec).2⟩
    · rintro ⟨hK, id, hmem, hrec⟩
      exact ⟨id, hmem, (h.recorded id o ho).mpr ⟨hK, hrec⟩⟩

end Forgets

end State

/-! ## The calls -/

/-- A sequence of calls that adds some of the filters, and all of them when it succeeds. -/
def Adding (calls : Call) (peer : List Char) (fs : List Filter) : Prop :=
  ∀ s, ∃ added n, (calls s).2 = { s.adds peer added with calls := n } ∧
    ((calls s).1 = true → added = fs)

section Adding

variable {sys : System} {peer : List Char} {a b : Call} {fs gs : List Filter}

theorem Adding.nil : Adding (fun s => (true, s)) peer [] := fun s => ⟨[], s.calls, rfl, fun _ => rfl⟩

theorem Adding.enableFilter (f : Filter) : Adding (enableFilter sys peer f) peer [f] := by
  intro s
  by_cases hok : sys.succeeds s.calls
  · exact ⟨[f], s.calls + 1, by simp [WindowsFirewall.enableFilter, hok, State.adds], fun _ => rfl⟩
  · exact ⟨[], s.calls + 1, by simp [WindowsFirewall.enableFilter, hok, State.adds],
      fun h => absurd h hok⟩

theorem Adding.andThen (ha : Adding a peer fs) (hb : Adding b peer gs) :
    Adding (a.andThen b) peer (fs ++ gs) := by
  intro s
  obtain ⟨added, n, hstate, hall⟩ := ha s
  rcases hresult : a s with ⟨ok, s'⟩
  rw [hresult] at hstate hall
  cases ok with
  | false =>
    refine ⟨added, n, ?_, ?_⟩ <;> simp only [Call.andThen, hresult]
    · exact hstate
    · exact fun h => absurd h Bool.false_ne_true
  | true =>
    obtain rfl : s' = { s.adds peer added with calls := n } := hstate
    obtain ⟨added', n', hstate', hall'⟩ := hb { s.adds peer added with calls := n }
    refine ⟨added ++ added', n', ?_, ?_⟩ <;> simp only [Call.andThen, hresult]
    · rw [hstate', State.adds_calls, State.adds_append]
    · intro h
      rw [hall rfl, hall' h]

theorem Adding.enableFilters (fs : List Filter) : Adding (enableFilters sys peer fs) peer fs := by
  induction fs with
  | nil => exact Adding.nil
  | cons f fs ih => exact (Adding.enableFilter f).andThen ih

end Adding

/-! ## What the members of the class do -/

section Members

variable {sys : System} {T : HostAddressText} {s : State} {H : Owner → Filter → Prop}

theorem transactionBegin_true (h : s.transaction = none) (hok : sys.succeeds s.calls = true) :
    transactionBegin sys s =
      (true, { s with calls := s.calls + 1, transaction := some s.filters }) := by
  simp [transactionBegin, hok, h]

theorem transactionBegin_false (h : s.transaction = none) (hok : ¬ sys.succeeds s.calls = true) :
    transactionBegin sys s = (false, { s with calls := s.calls + 1, transaction := none }) := by
  simp [transactionBegin, hok, h]

theorem transactionCommit_true (h : s.transaction.isSome = true)
    (hok : sys.succeeds s.calls = true) :
    transactionCommit sys s = (true, { s with calls := s.calls + 1, transaction := none }) := by
  simp [transactionCommit, hok, h]

theorem transactionCommit_false (hok : ¬ sys.succeeds s.calls = true) :
    transactionCommit sys s = (false, { s with calls := s.calls + 1 }) := by
  simp [transactionCommit, hok]

theorem foldl_filterDeleteById (hdelete : ∀ n, sys.deletes n = true) (ids : List ℕ) (s : State) :
    ids.foldl (filterDeleteById sys) s =
      { s with
        filters := s.filters.filter fun e => e.1 ∉ ids
        calls := s.calls + ids.length } := by
  induction ids generalizing s with
  | nil => simp
  | cons id ids ih =>
    rw [List.foldl_cons, ih]
    simp [filterDeleteById, hdelete, Nat.add_assoc, Nat.add_comm 1, Bool.and_comm]

/-- What is left of the filters without those that are kept in a list. -/
def cleared (H : Owner → Filter → Prop) : Owner → Filter → Prop := fun o f => o = .lost ∧ H .lost f

theorem disableKillSwitch_spec (hdelete : ∀ n, sys.deletes n = true) (h : s.Idle H) :
    (disableKillSwitch sys s).1 = true ∧ (disableKillSwitch sys s).2.Idle (cleared H) ∨
      (disableKillSwitch sys s).1 = false ∧ (disableKillSwitch sys s).2.Idle H := by
  by_cases hbegin : sys.succeeds s.calls = true
  · simp only [disableKillSwitch, transactionBegin_true h.transaction hbegin,
      foldl_filterDeleteById hdelete]
    by_cases hcommit : sys.succeeds
        (s.calls + 1 + (s.peerRules.map (·.2)).length + s.activeRules.length) = true
    · left
      rw [transactionCommit_true rfl hcommit]
      refine ⟨rfl, ?_⟩
      have hforgets : State.Forgets (· ≠ .lost) s { s with
          filters := (s.filters.filter fun e => e.1 ∉ s.peerRules.map (·.2)).filter
            fun e => e.1 ∉ s.activeRules
          transaction := none, activeRules := [], peerRules := [],
          calls := s.calls + 1 + (s.peerRules.map (·.2)).length + s.activeRules.length + 1 } := by
        refine ⟨by simp, rfl, fun id o ho => ?_⟩
        cases o <;> simp [State.Recorded] at ho ⊢
      have hfilters (e : ℕ × Filter) :
          e ∈ (s.filters.filter fun e => e.1 ∉ s.peerRules.map (·.2)).filter
              (fun e => e.1 ∉ s.activeRules) ↔
            e ∈ s.filters ∧ ∀ o, o ≠ .lost → ¬ s.Recorded e.1 o := by
        rw [← State.recorded_lost_iff]
        simp [State.Recorded, and_comm]
      refine ⟨hforgets.inv h.inv fun e he => ((hfilters e).mp he).1, rfl, fun o f => ?_⟩
      rw [hforgets.holds_of_removed h.inv hfilters, h.holds, cleared, not_not]
      exact and_congr_right fun ho => by rw [ho]
    · right
      rw [transactionCommit_false hcommit]
      exact ⟨rfl, h.calls _⟩
  · right
    simp only [disableKillSwitch, transactionBegin_false h.transaction hbegin, transactionAbort,
      Option.getD_none]
    exact ⟨trivial, h.calls _⟩

theorem foldl_disablePeerTraffic (hdelete : ∀ n, sys.deletes n = true) (pubkey : List Char)
    (ids : List ℕ) (s : State) :
    ids.foldl (fun s id =>
        let s := filterDeleteById sys s id
        { s with peerRules := s.peerRules.filter (· ≠ (pubkey, id)) }) s =
      { s with
        filters := s.filters.filter fun e => e.1 ∉ ids
        calls := s.calls + ids.length
        peerRules := s.peerRules.filter fun e => e ∉ ids.map (pubkey, ·) } := by
  induction ids generalizing s with
  | nil => simp
  | cons id ids ih =>
    rw [List.foldl_cons, ih]
    simp [filterDeleteById, hdelete, Nat.add_assoc, Nat.add_comm 1, Bool.and_comm]

/-- What was kept for a peer is kept nowhere. -/
def losing (pubkey : List Char) (H : Owner → Filter → Prop) : Owner → Filter → Prop := fun o f =>
  o ≠ .lost ∧ o ≠ .peer pubkey ∧ H o f ∨ o = .lost ∧ (H .lost f ∨ H (.peer pubkey) f)

theorem disablePeerTraffic_spec (hdelete : ∀ n, sys.deletes n = true) (h : s.Idle H)
    (pubkey : List Char) :
    (disablePeerTraffic sys pubkey s).1 = true ∧
        (disablePeerTraffic sys pubkey s).2.Idle (fun o f => o ≠ .peer pubkey ∧ H o f) ∨
      (disablePeerTraffic sys pubkey s).1 = false ∧
        ((disablePeerTraffic sys pubkey s).2.Idle H ∨
          (disablePeerTraffic sys pubkey s).2.Idle (losing pubkey H)) := by
  by_cases hbegin : sys.succeeds s.calls = true
  · simp only [disablePeerTraffic, transactionBegin_true h.transaction hbegin]
    rw [foldl_disablePeerTraffic hdelete]
    set ids := (s.peerRules.filter (·.1 = pubkey)).map (·.2) with hids
    have hmem (id : ℕ) : id ∈ ids ↔ (pubkey, id) ∈ s.peerRules := by
      simp [hids]
    have hforgets (t : State) (hnext : t.nextId = s.nextId)
        (hactive : t.activeRules = s.activeRules)
        (hpeers : t.peerRules = s.peerRules.filter fun e => e ∉ ids.map (pubkey, ·)) :
        State.Forgets (· = .peer pubkey) s t := by
      refine ⟨by simp, hnext, fun id o ho => ?_⟩
      cases o with
      | active => simp [State.Recorded, hactive]
      | lost => exact absurd rfl ho
      | peer k =>
        by_cases hk : k = pubkey
        · subst hk
          simp [State.Recorded, hpeers, hmem]
        · simp [State.Recorded, hpeers, hk, Ne.symm hk]
    by_cases hcommit : sys.succeeds (s.calls + 1 + ids.length) = true
    · left
      rw [transactionCommit_true rfl hcommit]
      refine ⟨rfl, ?_⟩
      have hfilters (e : ℕ × Filter) : e ∈ s.filters.filter (fun e => e.1 ∉ ids) ↔
          e ∈ s.filters ∧ ∀ o, o = .peer pubkey → ¬ s.Recorded e.1 o := by
        simp [State.Recorded, hmem]
      have hf := hforgets { s with
        filters := s.filters.filter fun e => e.1 ∉ ids
        transaction := none
        calls := s.calls + 1 + ids.length + 1
        peerRules := s.peerRules.filter fun e => e ∉ ids.map (pubkey, ·) } rfl rfl rfl
      exact ⟨hf.inv h.inv fun e he => ((hfilters e).mp he).1, rfl, fun o f =>
        (hf.holds_of_removed h.inv hfilters o f).trans (and_congr_right' (h.holds o f))⟩
    · right
      rw [transactionCommit_false hcommit]
      refine ⟨rfl, .inr ?_⟩
      have hf := hforgets (transactionAbort { s with
        filters := s.filters.filter fun e => e.1 ∉ ids
        transaction := some s.filters
        calls := s.calls + 1 + ids.length + 1
        peerRules := s.peerRules.filter fun e => e ∉ ids.map (pubkey, ·) }) rfl rfl rfl
      refine ⟨hf.inv h.inv fun e he => he, rfl, fun o f => ?_⟩
      rw [hf.holds_of_kept h.inv rfl, losing, h.holds, h.holds]
      simp only [exists_eq_left, h.holds]
  · right
    simp only [disablePeerTraffic, transactionBegin_false h.transaction hbegin, transactionAbort,
      Option.getD_none]
    exact ⟨trivial, .inl (h.calls _)⟩

/-- What `enableInterface` adds. -/
def interfaceFilters (vpnAdapterIndex : BitVec 32) (appId : List Byte)
    (interfaces : List (BitVec 32 × Bool)) : List Filter :=
  adapterFilters vpnAdapterIndex medWeight ++ (dhcpFilters medWeight ++ (hyperVFilters medWeight ++
    (appFilters appId maxWeight ++ (portFilters 53 medWeight ++
      (interfaces.filter (·.2)).flatMap fun interface => adapterFilters interface.1 medWeight))))

/-- What `enableLanBypass` adds. -/
def lanFilters (ranges : List IPAddress) : List Filter :=
  ranges.flatMap fun range => rangeFilters .permit range (lowWeight + 1)

variable (T) in
/-- What `enablePeerTraffic` adds. -/
def peerFilters (config : InterfaceConfig) : List Filter :=
  (config.allowedIPAddressRanges.flatMap fun range => rangeFilters .block range lowWeight) ++
    (dnsServers T config).flatMap fun server => hostFilters server 53 highWeight

theorem adding_allowLoopbackTraffic (interfaces : List (BitVec 32 × Bool)) :
    Adding (allowLoopbackTraffic sys medWeight interfaces) []
      ((interfaces.filter (·.2)).flatMap fun interface => adapterFilters interface.1 medWeight) := by
  induction interfaces with
  | nil => exact Adding.nil
  | cons interface interfaces ih =>
    obtain ⟨index, isLoopback⟩ := interface
    cases isLoopback with
    | false => exact ih
    | true => exact (Adding.enableFilters _).andThen ih

theorem adding_allowTrafficForAppOnAll (appId : Option (List Byte)) :
    Adding (allowTrafficForAppOnAll sys appId maxWeight) []
      (appFilters (appId.getD []) maxWeight) := by
  cases appId with
  | some appId => exact Adding.enableFilters _
  | none => exact fun s => ⟨[], s.calls, rfl, fun h => absurd h Bool.false_ne_true⟩

theorem adding_interfaceCalls (vpnAdapterIndex : BitVec 32) (appId : Option (List Byte))
    (interfaces : List (BitVec 32 × Bool)) :
    Adding (interfaceCalls sys vpnAdapterIndex appId interfaces) []
      (interfaceFilters vpnAdapterIndex (appId.getD []) interfaces) :=
  (Adding.enableFilters _).andThen <| (Adding.enableFilters _).andThen <|
    (Adding.enableFilters _).andThen <| (adding_allowTrafficForAppOnAll appId).andThen <|
      (Adding.enableFilters _).andThen <| adding_allowLoopbackTraffic interfaces

theorem adding_allowTrafficToRanges (ranges : List IPAddress) :
    Adding (allowTrafficToRanges sys ranges) [] (lanFilters ranges) := by
  induction ranges with
  | nil => exact Adding.nil
  | cons range ranges ih => exact (Adding.enableFilters _).andThen ih

theorem adding_blockTrafficTo (peer : List Char) (ranges : List IPAddress) :
    Adding (blockTrafficTo sys peer lowWeight ranges) peer
      (ranges.flatMap fun range => rangeFilters .block range lowWeight) := by
  induction ranges with
  | nil => exact Adding.nil
  | cons range ranges ih => exact (Adding.enableFilters _).andThen ih

theorem Adding.commit {calls : Call} {peer : List Char} {fs : List Filter}
    (hcalls : Adding calls peer fs) (sys : System) (h : s.Idle H) (n : ℕ) :
    (∃ s', calls.andThen (transactionCommit sys)
        { s with calls := n, transaction := some s.filters } = (true, s') ∧
        s'.Idle fun o f => H o f ∨ o = ownerOf peer ∧ f ∈ fs) ∨
      ∃ s', calls.andThen (transactionCommit sys)
        { s with calls := n, transaction := some s.filters } = (false, s') ∧
        (transactionAbort s').Idle H := by
  obtain ⟨added, m, hstate, hall⟩ := hcalls { s with calls := n, transaction := some s.filters }
  rw [State.adds_calls (s := { s with transaction := some s.filters })] at hstate
  have htrans := (State.adds_spec peer (s := { s with transaction := some s.filters })
    ⟨h.inv.filters_lt, h.inv.recorded_lt, h.inv.unique, h.inv.not_recorded⟩ added).2.1
  rcases hresult : calls { s with calls := n, transaction := some s.filters } with ⟨ok, s'⟩
  rw [hresult] at hstate hall
  obtain rfl : s' = { ({ s with transaction := some s.filters } : State).adds peer added with
    calls := m } := hstate
  cases ok with
  | false =>
    right
    simp only [Call.andThen, hresult]
    exact ⟨_, rfl, h.adds_abort added m⟩
  | true =>
    obtain rfl := hall rfl
    simp only [Call.andThen, hresult]
    by_cases hok : sys.succeeds m = true
    · left
      rw [transactionCommit_true (by simp [htrans]) hok]
      exact ⟨_, rfl, h.adds added (m + 1) _⟩
    · right
      rw [transactionCommit_false hok]
      exact ⟨_, rfl, h.adds_abort added (m + 1)⟩

theorem enableInterface_spec (hdelete : ∀ n, sys.deletes n = true) (h : s.Idle H)
    (vpnAdapterIndex : BitVec 32) (appId : Option (List Byte))
    (interfaces : List (BitVec 32 × Bool)) :
    (enableInterface sys vpnAdapterIndex appId interfaces s).1 = true ∧
        (enableInterface sys vpnAdapterIndex appId interfaces s).2.Idle (fun o f => H o f ∨
          o = .active ∧ f ∈ interfaceFilters vpnAdapterIndex (appId.getD []) interfaces) ∨
      (enableInterface sys vpnAdapterIndex appId interfaces s).1 = false ∧
        ((enableInterface sys vpnAdapterIndex appId interfaces s).2.Idle H ∨
          (enableInterface sys vpnAdapterIndex appId interfaces s).2.Idle (cleared H)) := by
  by_cases hbegin : sys.succeeds s.calls = true
  · simp only [enableInterface, transactionBegin_true h.transaction hbegin]
    have hcalls := @adding_interfaceCalls sys vpnAdapterIndex appId interfaces
    rcases hcalls.commit sys h (s.calls + 1) with ⟨s', hr, hidle⟩ | ⟨s', hr, hidle⟩
    · simp only [hr]
      exact .inl ⟨trivial, hidle⟩
    · simp only [hr]
      exact .inr ⟨trivial, .inl hidle⟩
  · simp only [enableInterface, transactionBegin_false h.transaction hbegin]
    rcases disableKillSwitch_spec hdelete (h.calls (s.calls + 1)) with ⟨-, hidle⟩ | ⟨-, hidle⟩
    · exact .inr ⟨trivial, .inr hidle⟩
    · exact .inr ⟨trivial, .inl hidle⟩

theorem Adding.enabling {calls : Call} {peer : List Char} {fs : List Filter}
    (hcalls : Adding calls peer fs) (hdelete : ∀ n, sys.deletes n = true) (h : s.Idle H) :
    (enabling sys calls s).1 = true ∧
        (enabling sys calls s).2.Idle (fun o f => H o f ∨ o = ownerOf peer ∧ f ∈ fs) ∨
      (enabling sys calls s).1 = false ∧
        ((enabling sys calls s).2.Idle H ∨ (enabling sys calls s).2.Idle (cleared H)) := by
  by_cases hbegin : sys.succeeds s.calls = true
  · simp only [WindowsFirewall.enabling, transactionBegin_true h.transaction hbegin]
    rcases hcalls.commit sys h (s.calls + 1) with ⟨s', hr, hidle⟩ | ⟨s', hr, hidle⟩
    · simp only [hr]
      exact .inl ⟨trivial, hidle⟩
    · simp only [hr]
      rcases disableKillSwitch_spec hdelete hidle with ⟨-, hidle⟩ | ⟨-, hidle⟩
      · exact .inr ⟨trivial, .inr hidle⟩
      · exact .inr ⟨trivial, .inl hidle⟩
  · simp only [WindowsFirewall.enabling, transactionBegin_false h.transaction hbegin]
    rcases disableKillSwitch_spec hdelete (h.calls (s.calls + 1)) with ⟨-, hidle⟩ | ⟨-, hidle⟩
    · exact .inr ⟨trivial, .inr hidle⟩
    · exact .inr ⟨trivial, .inl hidle⟩

theorem adding_peerCalls (config : InterfaceConfig) :
    Adding ((blockTrafficTo sys config.serverPublicKey.chars lowWeight
        config.allowedIPAddressRanges).andThen <|
      enableFilters sys config.serverPublicKey.chars
        ((dnsServers T config).flatMap (hostFilters · 53 highWeight)))
      config.serverPublicKey.chars (peerFilters T config) :=
  (adding_blockTrafficTo _ _).andThen (Adding.enableFilters _)

end Members

/-! ## Policies -/

/-- A call of the public interface. `appId` is the id of the program's file if it can be had. -/
inductive Op where
  | enableInterface (vpnAdapterIndex : BitVec 32) (appId : Option (List Byte))
      (interfaces : List (BitVec 32 × Bool))
  | enableLanBypass (ranges : List IPAddress)
  | enablePeerTraffic (config : InterfaceConfig)
  | disablePeerTraffic (pubkey : List Char)
  | disableKillSwitch

section Runs

variable (sys : System) (T : HostAddressText)

def Op.call : Op → Call
  | .enableInterface vpnAdapterIndex appId interfaces =>
    WindowsFirewall.enableInterface sys vpnAdapterIndex appId interfaces
  | .enableLanBypass ranges => WindowsFirewall.enableLanBypass sys ranges
  | .enablePeerTraffic config => WindowsFirewall.enablePeerTraffic sys T config
  | .disablePeerTraffic pubkey => WindowsFirewall.disablePeerTraffic sys pubkey
  | .disableKillSwitch => WindowsFirewall.disableKillSwitch sys

/-- What the calls return, one after the other, and the state behind them. -/
def run : List Op → State → List Bool × State
  | [], s => ([], s)
  | op :: ops, s =>
    let (ok, s) := op.call sys T s
    let (oks, s) := run ops s
    (ok :: oks, s)

end Runs

/-- An interface of the VPN, the program it belongs to, and the machine's interfaces. -/
structure Interface where
  vpnAdapterIndex : BitVec 32
  appId : List Byte
  interfaces : List (BitVec 32 × Bool)
  deriving DecidableEq, Repr

/-- What is enabled. `lost` are peers whose filters stay although they were disabled. -/
structure Policy where
  interfaces : List Interface := []
  lan : List IPAddress := []
  peers : List InterfaceConfig := []
  lost : List InterfaceConfig := []
  deriving DecidableEq, Repr

namespace Policy

/-- The filters of a policy, by the owner of their ids. -/
def Has (T : HostAddressText) (P : Policy) (o : Owner) (f : Filter) : Prop :=
  o = .active ∧ (∃ i ∈ P.interfaces, f ∈ interfaceFilters i.vpnAdapterIndex i.appId i.interfaces) ∨
  o = .active ∧ f ∈ lanFilters P.lan ∨
  (∃ c ∈ P.peers, o = ownerOf c.serverPublicKey.chars ∧ f ∈ peerFilters T c) ∨
  o = .lost ∧ ∃ c ∈ P.lost, f ∈ peerFilters T c

/-- The peers that `disablePeerTraffic` finds; a peer without a key is not among them. -/
def ofKey (pubkey : List Char) (P : Policy) : List InterfaceConfig :=
  P.peers.filter fun c => c.serverPublicKey.chars = pubkey ∧ pubkey ≠ []

def withoutKey (pubkey : List Char) (P : Policy) : List InterfaceConfig :=
  P.peers.filter fun c => ¬ (c.serverPublicKey.chars = pubkey ∧ pubkey ≠ [])

def clear (P : Policy) : Policy := { lost := P.lost }

/-- The policy behind a call that succeeds. -/
def done (P : Policy) : Op → Policy
  | .enableInterface vpnAdapterIndex appId interfaces =>
    { P with interfaces := P.interfaces ++ [⟨vpnAdapterIndex, appId.getD [], interfaces⟩] }
  | .enableLanBypass ranges => { P with lan := P.lan ++ ranges }
  | .enablePeerTraffic config => { P with peers := P.peers ++ [config] }
  | .disablePeerTraffic pubkey => { P with peers := P.withoutKey pubkey }
  | .disableKillSwitch => P.clear

/-- A call that fails leaves the policy as it was, or gives it up; a peer that could not be disabled
may be left without anyone to disable it. -/
inductive Step : Op → Bool → Policy → Policy → Prop
  | done (op : Op) (P : Policy) : Step op true P (P.done op)
  | unchanged (op : Op) (P : Policy) : Step op false P P
  | cleared (op : Op) (P : Policy) (h : ∀ pubkey, op ≠ .disablePeerTraffic pubkey) :
    Step op false P P.clear
  | lost (pubkey : List Char) (P : Policy) :
    Step (.disablePeerTraffic pubkey) false P
      { P with peers := P.withoutKey pubkey, lost := P.lost ++ P.ofKey pubkey }

inductive Run : List Op → List Bool → Policy → Policy → Prop
  | nil (P : Policy) : Run [] [] P P
  | cons {op : Op} {ok : Bool} {ops : List Op} {oks : List Bool} {P P' P'' : Policy} :
    Step op ok P P' → Run ops oks P' P'' → Run (op :: ops) (ok :: oks) P P''

section Has

variable {T : HostAddressText} {P : Policy} {o : Owner} {f : Filter}

theorem has_clear : P.clear.Has T o f ↔ cleared (P.Has T) o f := by
  simp only [Has, clear, cleared, lanFilters, List.flatMap_nil, List.not_mem_nil, false_and,
    exists_false, and_false, false_or, true_and, reduceCtorEq]
  refine and_congr_right fun _ => ⟨.inr, ?_⟩
  rintro (⟨c, -, hc, -⟩ | h)
  · exact absurd hc.symm (ownerOf_ne_lost _)
  · exact h

theorem has_enableInterface (vpnAdapterIndex : BitVec 32) (appId : Option (List Byte))
    (interfaces : List (BitVec 32 × Bool)) :
    (P.done (.enableInterface vpnAdapterIndex appId interfaces)).Has T o f ↔ P.Has T o f ∨
      o = .active ∧ f ∈ interfaceFilters vpnAdapterIndex (appId.getD []) interfaces := by
  simp only [Has, done, List.mem_append, List.mem_singleton, or_and_right, and_or_left, exists_or,
    exists_eq_left]
  refine iff_of_eq ?_
  ac_rfl

theorem has_enableLanBypass (ranges : List IPAddress) :
    (P.done (.enableLanBypass ranges)).Has T o f ↔ P.Has T o f ∨
      o = .active ∧ f ∈ lanFilters ranges := by
  simp only [Has, done, lanFilters, List.flatMap_append, List.mem_append, and_or_left]
  refine iff_of_eq ?_
  ac_rfl

theorem has_enablePeerTraffic (config : InterfaceConfig) :
    (P.done (.enablePeerTraffic config)).Has T o f ↔ P.Has T o f ∨
      o = ownerOf config.serverPublicKey.chars ∧ f ∈ peerFilters T config := by
  simp only [Has, done, List.mem_append, List.mem_singleton, or_and_right, exists_or,
    exists_eq_left]
  refine iff_of_eq ?_
  ac_rfl

theorem mem_withoutKey {pubkey : List Char} {c : InterfaceConfig} :
    c ∈ P.withoutKey pubkey ↔ c ∈ P.peers ∧ ownerOf c.serverPublicKey.chars ≠ .peer pubkey := by
  rw [withoutKey, List.mem_filter, decide_eq_true_eq]
  exact and_congr_right' (not_congr ownerOf_eq_peer_iff.symm)

theorem mem_ofKey {pubkey : List Char} {c : InterfaceConfig} :
    c ∈ P.ofKey pubkey ↔ c ∈ P.peers ∧ ownerOf c.serverPublicKey.chars = .peer pubkey := by
  rw [ofKey, List.mem_filter, decide_eq_true_eq]
  exact and_congr_right' ownerOf_eq_peer_iff.symm

theorem has_disablePeerTraffic (pubkey : List Char) :
    (P.done (.disablePeerTraffic pubkey)).Has T o f ↔ o ≠ .peer pubkey ∧ P.Has T o f := by
  simp only [Has, done, mem_withoutKey]
  constructor
  · rintro (⟨rfl, h⟩ | ⟨rfl, h⟩ | ⟨c, ⟨hc, hne⟩, rfl, hf⟩ | ⟨rfl, h⟩)
    · exact ⟨by simp, .inl ⟨rfl, h⟩⟩
    · exact ⟨by simp, .inr (.inl ⟨rfl, h⟩)⟩
    · exact ⟨hne, .inr (.inr (.inl ⟨c, hc, rfl, hf⟩))⟩
    · exact ⟨by simp, .inr (.inr (.inr ⟨rfl, h⟩))⟩
  · rintro ⟨hne, h | h | ⟨c, hc, rfl, hf⟩ | h⟩
    · exact .inl h
    · exact .inr (.inl h)
    · exact .inr (.inr (.inl ⟨c, ⟨hc, hne⟩, rfl, hf⟩))
    · exact .inr (.inr (.inr h))

theorem has_lost (pubkey : List Char) :
    ({ P with peers := P.withoutKey pubkey, lost := P.lost ++ P.ofKey pubkey } : Policy).Has T o f ↔
      losing pubkey (P.Has T) o f := by
  simp only [Has, losing, mem_withoutKey, mem_ofKey, List.mem_append, or_and_right, exists_or]
  constructor
  · rintro (⟨rfl, h⟩ | ⟨rfl, h⟩ | ⟨c, ⟨hc, hne⟩, rfl, hf⟩ | ⟨rfl, ⟨c, h, hf⟩ | ⟨c, ⟨h, hkey⟩, hf⟩⟩)
    · exact .inl ⟨by simp, by simp, .inl ⟨rfl, h⟩⟩
    · exact .inl ⟨by simp, by simp, .inr (.inl ⟨rfl, h⟩)⟩
    · exact .inl ⟨by simp, hne, .inr (.inr (.inl ⟨c, hc, rfl, hf⟩))⟩
    · exact .inr ⟨rfl, .inl (.inr (.inr (.inr ⟨trivial, c, h, hf⟩)))⟩
    · exact .inr ⟨rfl, .inr (.inr (.inr (.inl ⟨c, h, hkey.symm, hf⟩)))⟩
  · rintro (⟨hlost, hne, h | h | ⟨c, hc, rfl, hf⟩ | h⟩ | ⟨rfl, h | h⟩)
    · exact .inl h
    · exact .inr (.inl h)
    · exact .inr (.inr (.inl ⟨c, ⟨hc, hne⟩, rfl, hf⟩))
    · exact absurd h.1 hlost
    · rcases h with h | h | ⟨c, -, hc, -⟩ | ⟨-, c, hc, hf⟩
      · cases h.1
      · cases h.1
      · exact absurd hc.symm (ownerOf_ne_lost _)
      · exact .inr (.inr (.inr ⟨rfl, .inl ⟨c, hc, hf⟩⟩))
    · rcases h with h | h | ⟨c, hc, hkey, hf⟩ | h
      · cases h.1
      · cases h.1
      · exact .inr (.inr (.inr ⟨rfl, .inr ⟨c, ⟨hc, hkey.symm⟩, hf⟩⟩))
      · cases h.1

end Has

end Policy

/-! ## The refinement -/

section Refinement

variable {sys : System} {T : HostAddressText} {s : State} {P : Policy}

theorem State.Idle.congr {H H' : Owner → Filter → Prop} (h : s.Idle H)
    (hH : ∀ o f, H' o f ↔ H o f) : s.Idle H' :=
  ⟨h.inv, h.transaction, fun o f => (h.holds o f).trans (hH o f).symm⟩

/-- **One call.** The engine holds the filters of the policy that the call leaves. -/
theorem refines_step (hdelete : ∀ n, sys.deletes n = true) (h : s.Idle (P.Has T)) (op : Op) :
    ∃ P', Policy.Step op (op.call sys T s).1 P P' ∧ (op.call sys T s).2.Idle (P'.Has T) := by
  have unchanged {ok : Bool} {s' : State} (hok : ok = false) (h : s'.Idle (P.Has T)) :
      ∃ P', Policy.Step op ok P P' ∧ s'.Idle (P'.Has T) :=
    ⟨P, hok ▸ .unchanged op P, h⟩
  have cleared {ok : Bool} {s' : State} (hop : ∀ pubkey, op ≠ .disablePeerTraffic pubkey)
      (hok : ok = false) (h : s'.Idle (cleared (P.Has T))) :
      ∃ P', Policy.Step op ok P P' ∧ s'.Idle (P'.Has T) :=
    ⟨P.clear, hok ▸ .cleared op P hop, h.congr fun _ _ => Policy.has_clear⟩
  have done {ok : Bool} {s' : State} (hok : ok = true) (h : s'.Idle ((P.done op).Has T)) :
      ∃ P', Policy.Step op ok P P' ∧ s'.Idle (P'.Has T) :=
    ⟨P.done op, hok ▸ .done op P, h⟩
  cases op with
  | enableInterface vpnAdapterIndex appId interfaces =>
    rcases enableInterface_spec hdelete h vpnAdapterIndex appId interfaces with
      ⟨hok, h'⟩ | ⟨hok, h' | h'⟩
    · exact done hok (h'.congr fun _ _ => Policy.has_enableInterface ..)
    · exact unchanged hok h'
    · exact cleared (by simp) hok h'
  | enableLanBypass ranges =>
    rcases (@adding_allowTrafficToRanges sys ranges).enabling hdelete h with
      ⟨hok, h'⟩ | ⟨hok, h' | h'⟩
    · exact done hok (h'.congr fun _ _ => Policy.has_enableLanBypass ranges)
    · exact unchanged hok h'
    · exact cleared (by simp) hok h'
  | enablePeerTraffic config =>
    rcases (@adding_peerCalls sys T config).enabling hdelete h with ⟨hok, h'⟩ | ⟨hok, h' | h'⟩
    · exact done hok (h'.congr fun _ _ => Policy.has_enablePeerTraffic config)
    · exact unchanged hok h'
    · exact cleared (by simp) hok h'
  | disablePeerTraffic pubkey =>
    rcases disablePeerTraffic_spec hdelete h pubkey with ⟨hok, h'⟩ | ⟨hok, h' | h'⟩
    · exact done hok (h'.congr fun _ _ => Policy.has_disablePeerTraffic pubkey)
    · exact unchanged hok h'
    · exact ⟨_, hok ▸ .lost pubkey P, h'.congr fun _ _ => Policy.has_lost pubkey⟩
  | disableKillSwitch =>
    rcases disableKillSwitch_spec hdelete h with ⟨hok, h'⟩ | ⟨hok, h'⟩
    · exact done hok (h'.congr fun _ _ => Policy.has_clear)
    · exact unchanged hok h'

/-- **A run.** -/
theorem refines_run (hdelete : ∀ n, sys.deletes n = true) (h : s.Idle (P.Has T)) (ops : List Op) :
    ∃ P', Policy.Run ops (run sys T ops s).1 P P' ∧ (run sys T ops s).2.Idle (P'.Has T) := by
  induction ops generalizing s P with
  | nil => exact ⟨P, .nil P, h⟩
  | cons op ops ih =>
    obtain ⟨P', hstep, h'⟩ := refines_step hdelete h op
    obtain ⟨P'', hrun, h''⟩ := ih h'
    exact ⟨P'', .cons hstep hrun, h''⟩

theorem idle_empty : ({} : State).Idle (Policy.Has T {}) where
  inv :=
    { filters_lt := by simp
      recorded_lt := fun id o h ho => by cases o <;> simp [State.Recorded] at h ho
      unique := fun id o o' h h' => by cases o <;> cases o' <;> simp [State.Recorded] at h h' ⊢
      not_recorded := by simp [State.Recorded] }
  transaction := rfl
  holds o f := by simp [State.Holds, Policy.Has, lanFilters]

end Refinement

end WgDesktop.WindowsFirewall
