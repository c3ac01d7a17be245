import WgDesktop.Lib.Runs
import WgDesktop.Linux.Wireguard

/-!
# The meaning of `WG_CMD_SET_DEVICE`

What the documentation in `src/3rdparty/wireguard-tools/src/uapi/linux/linux/wireguard.h` says that
the kernel does with a message: the settings that are there replace the old ones, a flag removes the
peers or the allowed IPs that there were, and what is listed is added.

`wgSetDevice_eq`: whatever the size of the buffer, the messages of `wg_set_device` do what one
message with the whole device would do.
-/

namespace WgDesktop.WireguardUapi

open Bytes Attributes Mnl Batches Wireguard Runs

variable (e : Endian)

/-! ## Reading a message -/

/-- The data of the attribute of a type; the last one counts. -/
def attrOf (attrs : List Attr) (type : BitVec 16) : Option (List Byte) :=
  attrs.foldl (fun found a => if mnlAttrGetType a = type then some a.data else found) none

structure AllowedipRequest where
  family : BitVec 16
  ip : List Byte
  cidr : BitVec 8
  deriving DecidableEq, Repr

structure PeerRequest where
  publicKey : List Byte
  flags : BitVec 32
  presharedKey : Option (List Byte)
  endpoint : Option (List Byte)
  persistentKeepaliveInterval : Option (BitVec 16)
  allowedips : List AllowedipRequest
  deriving DecidableEq, Repr

structure Request where
  ifname : List Byte
  flags : BitVec 32
  privateKey : Option (List Byte)
  listenPort : Option (BitVec 16)
  fwmark : Option (BitVec 32)
  peers : List PeerRequest
  deriving DecidableEq, Repr

/-- An IPv4 or an IPv6 network. -/
def AllowedipRequest.Valid (r : AllowedipRequest) : Prop :=
  r.family = afInet ∧ r.ip.length = 4 ∧ r.cidr.toNat ≤ 32 ∨
    r.family = afInet6 ∧ r.ip.length = 16 ∧ r.cidr.toNat ≤ 128

instance (r : AllowedipRequest) : Decidable r.Valid := inferInstanceAs (Decidable (_ ∨ _))

def readAllowedip (attrs : List Attr) : Option AllowedipRequest := do
  let family ← attrOf attrs WgallowedipAttribute.family.type
  let ip ← attrOf attrs WgallowedipAttribute.ipaddr.type
  let cidr ← attrOf attrs WgallowedipAttribute.cidrMask.type
  let r : AllowedipRequest := { family := e.word family, ip, cidr := e.word cidr }
  if r.Valid then some r else none

/-- The contents of the nests in a nest. -/
def nested (data : Option (List Byte)) : List (List Attr) :=
  (attrForEach e (data.getD [])).map fun a => attrForEach e a.data

def readPeer (attrs : List Attr) : Option PeerRequest := do
  let publicKey ← attrOf attrs WgpeerAttribute.publicKey.type
  let allowedips ←
    (nested e (attrOf attrs WgpeerAttribute.allowedips.type)).mapM (readAllowedip e)
  some {
    publicKey
    flags := ((attrOf attrs WgpeerAttribute.flags.type).map e.word).getD 0
    presharedKey := attrOf attrs WgpeerAttribute.presharedKey.type
    endpoint := attrOf attrs WgpeerAttribute.endpoint.type
    persistentKeepaliveInterval :=
      (attrOf attrs WgpeerAttribute.persistentKeepaliveInterval.type).map e.word
    allowedips }

/-- The request that the attributes behind the two headers are. -/
def readRequest (msg : List Byte) : Option Request := do
  let attrs := attrForEach e (msg.drop 20)
  let ifname ← attrOf attrs WgdeviceAttribute.ifname.type
  let peers ← (nested e (attrOf attrs WgdeviceAttribute.peers.type)).mapM (readPeer e)
  some {
    ifname := ifname.takeWhile (· ≠ 0)
    flags := ((attrOf attrs WgdeviceAttribute.flags.type).map e.word).getD 0
    privateKey := attrOf attrs WgdeviceAttribute.privateKey.type
    listenPort := (attrOf attrs WgdeviceAttribute.listenPort.type).map e.word
    fwmark := (attrOf attrs WgdeviceAttribute.fwmark.type).map e.word
    peers }

/-! ## What the kernel does with it -/

/-- The addresses of a family with the same first bits. -/
abbrev Network := BitVec 16 × List Bool

def AllowedipRequest.network (r : AllowedipRequest) : Network :=
  (r.family, (r.ip.flatMap fun b => (List.range 8).map b.getMsbD).take r.cidr.toNat)

structure PeerConf where
  presharedKey : List Byte
  endpoint : Option (List Byte)
  persistentKeepaliveInterval : BitVec 16
  deriving DecidableEq, Repr

/-- A device of the kernel; each network is one peer's at most. -/
structure Device where
  privateKey : List Byte
  listenPort : BitVec 16
  fwmark : BitVec 32
  peers : List Byte → Option PeerConf
  owner : Network → Option (List Byte)

def PeerConf.new : PeerConf where
  presharedKey := List.replicate 32 0
  endpoint := none
  persistentKeepaliveInterval := 0

/-- The peer has no networks any more. -/
def disown (owner : Network → Option (List Byte)) (key : List Byte) : Network → Option (List Byte) :=
  fun net => if owner net = some key then none else owner net

def own (key : List Byte) (owner : Network → Option (List Byte)) (ips : List AllowedipRequest) :
    Network → Option (List Byte) :=
  ips.foldl (fun owner r => Function.update owner r.network (some key)) owner

def setPeer (d : Device) (r : PeerRequest) : Device :=
  if r.flags &&& wgpeerFRemoveMe ≠ 0 then
    { d with
      peers := Function.update d.peers r.publicKey none
      owner := disown d.owner r.publicKey }
  else
    let conf := (d.peers r.publicKey).getD PeerConf.new
    let owner :=
      if r.flags &&& wgpeerFReplaceAllowedips ≠ 0 then disown d.owner r.publicKey else d.owner
    { d with
      peers := Function.update d.peers r.publicKey (some {
        presharedKey := r.presharedKey.getD conf.presharedKey
        endpoint := r.endpoint.or conf.endpoint
        persistentKeepaliveInterval :=
          r.persistentKeepaliveInterval.getD conf.persistentKeepaliveInterval })
      owner := own r.publicKey owner r.allowedips }

def setSettings (d : Device) (r : Request) : Device where
  privateKey := r.privateKey.getD d.privateKey
  listenPort := r.listenPort.getD d.listenPort
  fwmark := r.fwmark.getD d.fwmark
  peers := if r.flags &&& wgdeviceFReplacePeers ≠ 0 then fun _ => none else d.peers
  owner := if r.flags &&& wgdeviceFReplacePeers ≠ 0 then fun _ => none else d.owner

def setDevice (d : Device) (r : Request) : Device := r.peers.foldl setPeer (setSettings d r)

inductive Errno where
  | einval
  | enodev
  deriving DecidableEq, Repr

/-- The devices by their names. -/
abbrev Kernel := List Byte → Option Device

def receive (kernel : Kernel) (msg : List Byte) : Except Errno Kernel :=
  match readRequest e msg with
  | none => .error .einval
  | some r =>
    match kernel r.ifname with
    | none => .error .enodev
    | some d => .ok (Function.update kernel r.ifname (some (setDevice d r)))

/-! ## The whole request -/

def allowedipRequest (allowedip : WgAllowedip) : AllowedipRequest where
  family := allowedip.family
  ip := if allowedip.family = afInet then allowedip.ip.1.take 4 else allowedip.ip.1
  cidr := allowedip.cidr

/-- What a job asks for; when it is resumed, only its networks. -/
def jobRequest (job : Job WgPeer WgAllowedip) : PeerRequest where
  publicKey := job.head.publicKey.1
  flags := (if job.head.removeMe then wgpeerFRemoveMe else 0) |||
    if !job.resumed && job.head.replaceAllowedips then wgpeerFReplaceAllowedips else 0
  presharedKey :=
    if !job.resumed && job.head.hasPresharedKey then some job.head.presharedKey.1 else none
  endpoint :=
    if job.resumed then none
    else if saFamily e job.head.endpoint.1 = afInet then some (job.head.endpoint.1.take 16)
    else if saFamily e job.head.endpoint.1 = afInet6 then some job.head.endpoint.1 else none
  persistentKeepaliveInterval :=
    if !job.resumed && job.head.hasPersistentKeepaliveInterval then
      some job.head.persistentKeepaliveInterval else none
  allowedips := job.loads.map allowedipRequest

/-- A message about the device; only the first has its settings. -/
def batchRequest (dev : WgDevice) (first : Bool) (batch : List (Job WgPeer WgAllowedip)) :
    Request where
  ifname := dev.name.chars
  flags := if first && dev.replacePeers then wgdeviceFReplacePeers else 0
  privateKey := if first && dev.hasPrivateKey then some dev.privateKey.1 else none
  listenPort := if first && dev.hasListenPort then some dev.listenPort else none
  fwmark := if first && dev.hasFwmark then some dev.fwmark else none
  peers := batch.map (jobRequest e)

/-- What `wg_set_device` is called for. -/
def deviceRequest (dev : WgDevice) : Request :=
  batchRequest e dev true (dev.peers.map (peerJob · []))

/-- The allowed IPs are networks, as `parse_allowedips` asks of those that it reads. -/
def AllowedipsValid (dev : WgDevice) : Prop :=
  ∀ peer ∈ dev.peers, ∀ allowedip ∈ peer.allowedips,
    allowedip.family = afInet ∧ allowedip.cidr.toNat ≤ 32 ∨
      allowedip.family = afInet6 ∧ allowedip.cidr.toNat ≤ 128

/-! ## What is read is what was written -/

variable {e}

section Reading

variable {attrs : List Attr}

@[simp] theorem attrOf_append (attrs rest : List Attr) (type : BitVec 16) :
    attrOf (attrs ++ rest) type = (attrOf rest type).or (attrOf attrs type) := by
  rw [attrOf, List.foldl_append, ← attrOf]
  generalize attrOf attrs type = found
  induction rest generalizing found with
  | nil => rfl
  | cons a rest ih =>
    rw [attrOf, List.foldl_cons, List.foldl_cons, ih]
    by_cases htype : mnlAttrGetType a = type
    · rw [if_pos htype, if_pos htype, ih (some a.data), Option.or_assoc, Option.some_or]
    · rw [if_neg htype, if_neg htype, ih none, Option.or_none]

@[simp] theorem attrOf_nil (type : BitVec 16) : attrOf [] type = none := rfl

@[simp] theorem attrOf_cons (a : Attr) (rest : List Attr) (type : BitVec 16) :
    attrOf (a :: rest) type =
      (attrOf rest type).or (if mnlAttrGetType a = type then some a.data else none) :=
  attrOf_append [a] rest type

@[simp] theorem attrOf_ite {p : Prop} [Decidable p] (attrs rest : List Attr) (type : BitVec 16) :
    attrOf (if p then attrs else rest) type = if p then attrOf attrs type else attrOf rest type :=
  apply_ite (attrOf · type) p attrs rest

end Reading

section Requests

variable {job : Job WgPeer WgAllowedip} {dev : WgDevice}

theorem allowedipRequest_valid {allowedip : WgAllowedip}
    (h : allowedip.family = afInet ∧ allowedip.cidr.toNat ≤ 32 ∨
      allowedip.family = afInet6 ∧ allowedip.cidr.toNat ≤ 128) :
    (allowedipRequest allowedip).Valid := by
  have hlen := allowedip.ip.2
  rcases h with ⟨hfamily, hcidr⟩ | ⟨hfamily, hcidr⟩
  · refine .inl ⟨hfamily, ?_, hcidr⟩
    simp only [allowedipRequest, hfamily, if_true, List.length_take, hlen]
    rfl
  · refine .inr ⟨hfamily, ?_, hcidr⟩
    simp only [allowedipRequest, hfamily, show afInet6 ≠ afInet by decide, if_false, hlen]

theorem readAllowedip_allowedipAttrs {allowedip : WgAllowedip}
    (h : (allowedipRequest allowedip).Valid) :
    readAllowedip e (allowedipAttrs e allowedip) = some (allowedipRequest allowedip) := by
  have hfamily : attrOf (allowedipAttrs e allowedip) WgallowedipAttribute.family.type =
      some (e.bytes allowedip.family) := by
    simp [allowedipAttrs]
  have hip : attrOf (allowedipAttrs e allowedip) WgallowedipAttribute.ipaddr.type =
      some (allowedipRequest allowedip).ip := by
    rcases h with ⟨hfamily, -⟩ | ⟨hfamily, -⟩ <;>
    · have hfamily : allowedip.family = _ := hfamily
      simp [allowedipAttrs, allowedipRequest, hfamily, afInet, afInet6]
  have hcidr : attrOf (allowedipAttrs e allowedip) WgallowedipAttribute.cidrMask.type =
      some (e.bytes allowedip.cidr) := by
    simp [allowedipAttrs]
  have hfamily' : (e.word (e.bytes allowedip.family) : BitVec 16) = allowedip.family :=
    Endian.word_bytes e (by decide) _
  have hcidr' : (e.word (e.bytes allowedip.cidr) : BitVec 8) = allowedip.cidr :=
    Endian.word_bytes e (by decide) _
  simp only [readAllowedip, hfamily, hip, hcidr, Option.bind_eq_bind, Option.bind_some, hfamily',
    hcidr']
  exact if_pos h

/-- The contents of a peer's nest. -/
def jobContents (e : Endian) (job : Job WgPeer WgAllowedip) (nested : Bool) : List Attr :=
  peerAttrs e job.head (!job.resumed) ++
    if nested then
      [nest e WgpeerAttribute.allowedips.type (job.loads.map (allowedipAttr e))] else []

theorem nested_allowedips {inner : Bool} (hinner : inner = false → job.loads = [])
    (hlen : ((jobAttr e job inner).bytes e).length < 2 ^ 16) :
    nested e (attrOf (jobContents e job inner) WgpeerAttribute.allowedips.type) =
      job.loads.map (allowedipAttrs e) := by
  cases inner with
  | false => simp [jobContents, peerAttrs, hinner rfl, nested, attrForEach]
  | true =>
    have hle := @length_bytes_le_of_mem e
      (nest e WgpeerAttribute.allowedips.type (job.loads.map (allowedipAttr e)))
      (jobContents e job true) (by simp [jobContents])
    have hmem : ∀ a ∈ job.loads, ((allowedipAttr e a).bytes e).length < 2 ^ 16 := fun a _ =>
      Nat.lt_of_le_of_lt (length_allowedipAttr_le a) (by norm_num)
    have hattr : attrOf (jobContents e job true) WgpeerAttribute.allowedips.type =
        some (nest e WgpeerAttribute.allowedips.type (job.loads.map (allowedipAttr e))).data := by
      simp [jobContents, peerAttrs]
    rw [jobAttr, length_bytes_nest] at hlen
    rw [nested, hattr, Option.getD_some, attrForEach_nest (by rw [jobContents] at hle; omega),
      List.map_map]
    exact List.map_congr_left fun a ha => attrForEach_nest (hmem a ha)

section Fields

variable (nested : Bool)

theorem attrOf_publicKey : attrOf (jobContents e job nested) WgpeerAttribute.publicKey.type =
    some (jobRequest e job).publicKey := by
  simp [jobContents, peerAttrs, jobRequest]

theorem attrOf_flags :
    ((attrOf (jobContents e job nested) WgpeerAttribute.flags.type).map e.word).getD 0 =
      (jobRequest e job).flags := by
  have hword : ∀ x : BitVec 32, (e.word (e.bytes x) : BitVec 32) = x :=
    Endian.word_bytes e (by decide)
  simp only [jobContents, peerAttrs, jobRequest]
  generalize ((if job.head.removeMe then wgpeerFRemoveMe else 0) |||
    if !job.resumed && job.head.replaceAllowedips then wgpeerFReplaceAllowedips else 0) = flags
  by_cases hflags : flags = 0#32
  · simp [hflags]
  · simp [hflags, hword]

theorem attrOf_presharedKey :
    attrOf (jobContents e job nested) WgpeerAttribute.presharedKey.type =
      (jobRequest e job).presharedKey := by
  simp only [jobContents, jobRequest]
  cases job.resumed <;> simp [peerAttrs]

theorem attrOf_endpoint :
    attrOf (jobContents e job nested) WgpeerAttribute.endpoint.type =
      (jobRequest e job).endpoint := by
  simp only [jobContents, jobRequest]
  cases job.resumed <;> simp [peerAttrs]

theorem attrOf_persistentKeepaliveInterval :
    (attrOf (jobContents e job nested) WgpeerAttribute.persistentKeepaliveInterval.type).map
      e.word = (jobRequest e job).persistentKeepaliveInterval := by
  have hword := @Endian.word_bytes 16 e (by decide) job.head.persistentKeepaliveInterval
  simp only [jobContents, jobRequest]
  cases job.resumed <;> cases hkeepalive : job.head.hasPersistentKeepaliveInterval <;>
    simp [peerAttrs, hkeepalive, hword]

end Fields

theorem readPeer_jobContents {inner : Bool} (hinner : inner = false → job.loads = [])
    (hlen : ((jobAttr e job inner).bytes e).length < 2 ^ 16)
    (hvalid : ∀ allowedip ∈ job.loads, (allowedipRequest allowedip).Valid) :
    readPeer e (jobContents e job inner) = some (jobRequest e job) := by
  have hallowedips : (job.loads.map (allowedipAttrs e)).mapM (readAllowedip e) =
      some (jobRequest e job).allowedips := by
    rw [mapM_eq_some, jobRequest, List.map_map, List.map_map]
    exact List.map_congr_left fun a ha => readAllowedip_allowedipAttrs (hvalid a ha)
  simp only [readPeer, attrOf_publicKey, attrOf_flags, attrOf_presharedKey, attrOf_endpoint,
    attrOf_persistentKeepaliveInterval, nested_allowedips hinner hlen, hallowedips,
    Option.bind_eq_bind, Option.bind_some]

section Settings

variable (first : Bool) (peers : List Attr)

/-- The attributes of a message. -/
def msgAttrs (e : Endian) (dev : WgDevice) (first : Bool) (peers : List Attr) : List Attr :=
  deviceAttrs e dev first ++
    if dev.peers.isEmpty then [] else [nest e WgdeviceAttribute.peers.type peers]

theorem attrOf_ifname : attrOf (msgAttrs e dev first peers) WgdeviceAttribute.ifname.type =
    some (dev.name.chars ++ [0]) := by
  simp [msgAttrs, deviceAttrs]

theorem attrOf_deviceFlags (batch : List (Job WgPeer WgAllowedip)) :
    ((attrOf (msgAttrs e dev first peers) WgdeviceAttribute.flags.type).map e.word).getD 0 =
      (batchRequest e dev first batch).flags := by
  have hword := @Endian.word_bytes 32 e (by decide) wgdeviceFReplacePeers
  have hne : wgdeviceFReplacePeers ≠ 0#32 := by decide
  cases first <;> cases hreplace : dev.replacePeers <;>
    simp [msgAttrs, deviceAttrs, batchRequest, hreplace, hword, hne]

theorem attrOf_privateKey (batch : List (Job WgPeer WgAllowedip)) :
    attrOf (msgAttrs e dev first peers) WgdeviceAttribute.privateKey.type =
      (batchRequest e dev first batch).privateKey := by
  cases first <;> simp [msgAttrs, deviceAttrs, batchRequest]

theorem attrOf_listenPort (batch : List (Job WgPeer WgAllowedip)) :
    (attrOf (msgAttrs e dev first peers) WgdeviceAttribute.listenPort.type).map e.word =
      (batchRequest e dev first batch).listenPort := by
  have hword := @Endian.word_bytes 16 e (by decide) dev.listenPort
  cases first <;> cases hport : dev.hasListenPort <;>
    simp [msgAttrs, deviceAttrs, batchRequest, hport, hword]

theorem attrOf_fwmark (batch : List (Job WgPeer WgAllowedip)) :
    (attrOf (msgAttrs e dev first peers) WgdeviceAttribute.fwmark.type).map e.word =
      (batchRequest e dev first batch).fwmark := by
  have hword := @Endian.word_bytes 32 e (by decide) dev.fwmark
  cases first <;> cases hfwmark : dev.hasFwmark <;>
    simp [msgAttrs, deviceAttrs, batchRequest, hfwmark, hword]

end Settings

theorem mapM_readPeer {batch : List (Job WgPeer WgAllowedip)} {attrs : List Attr}
    (h : List.Forall₂ (Written e) batch attrs) (hlen : (attrs.flatMap (Attr.bytes e)).length < 2 ^ 16)
    (hvalid : ∀ job ∈ batch, ∀ allowedip ∈ job.loads, (allowedipRequest allowedip).Valid) :
    (attrs.map fun a => attrForEach e a.data).mapM (readPeer e) =
      some (batch.map (jobRequest e)) := by
  rw [mapM_eq_some, List.map_map, List.map_map]
  induction h with
  | nil => rfl
  | @cons job a batch attrs ha h ih =>
    obtain ⟨inner, rfl, hinner⟩ := ha
    rw [List.flatMap_cons, List.length_append] at hlen
    rw [List.forall_mem_cons] at hvalid
    have hread : attrForEach e (jobAttr e job inner).data = jobContents e job inner :=
      attrForEach_nest (by rw [jobAttr] at hlen; omega)
    have hpeer := @readPeer_jobContents e job inner hinner (by omega) hvalid.1
    rw [← hread] at hpeer
    rw [List.map_cons, List.map_cons, ih (by omega) hvalid.2]
    exact congrArg (· :: _) hpeer

/-- **Reading a message.** It asks for its batch. -/
theorem readRequest_says {first : Bool} {nlh msg : List Byte}
    {batch : List (Job WgPeer WgAllowedip)} (h : Says e dev first nlh batch msg)
    (hnlh : nlh.length = 20) (hlen : msg.length < 2 ^ 16)
    (hvalid : ∀ job ∈ batch, ∀ allowedip ∈ job.loads, (allowedipRequest allowedip).Valid) :
    readRequest e (withNlmsgLen e msg) = some (batchRequest e dev first batch) := by
  obtain ⟨attrs, hattrs, hnone, rfl⟩ := h
  rw [← msgAttrs] at hlen ⊢
  rw [List.length_append] at hlen
  have hread : attrForEach e ((msgAttrs e dev first attrs).flatMap (Attr.bytes e)) =
      msgAttrs e dev first attrs := attrForEach_flatMap (by omega)
  have hname : (dev.name.chars ++ [0]).takeWhile (· ≠ 0) = dev.name.chars := by
    rw [List.takeWhile_append_of_pos fun b hb => by
      simpa using fun h0 : b = 0 => dev.name.noNul (h0 ▸ hb)]
    simp
  have hpeers : (nested e (attrOf (msgAttrs e dev first attrs) WgdeviceAttribute.peers.type)).mapM
      (readPeer e) = some (batch.map (jobRequest e)) := by
    by_cases hempty : dev.peers = []
    · obtain rfl := hnone hempty
      simp [msgAttrs, hempty, deviceAttrs, nested, attrForEach]
    · have hattr : attrOf (msgAttrs e dev first attrs) WgdeviceAttribute.peers.type =
          some (nest e WgdeviceAttribute.peers.type attrs).data := by
        simp [msgAttrs, hempty, deviceAttrs]
      have hmem : nest e WgdeviceAttribute.peers.type attrs ∈ msgAttrs e dev first attrs := by
        simp [msgAttrs, hempty]
      have hle := @length_bytes_le_of_mem e _ _ hmem
      rw [length_bytes_nest] at hle
      have hnest : attrForEach e (nest e WgdeviceAttribute.peers.type attrs).data = attrs :=
        attrForEach_nest (by rw [length_bytes_nest]; omega)
      rw [nested, hattr, Option.getD_some, hnest]
      exact mapM_readPeer hattrs (by omega) hvalid
  rw [readRequest, drop_withNlmsgLen _ (by decide), ← hnlh, List.drop_left, hread]
  simp only [attrOf_ifname, attrOf_deviceFlags first attrs batch, attrOf_privateKey first attrs batch,
    attrOf_listenPort first attrs batch, attrOf_fwmark first attrs batch, hpeers, hname,
    Option.bind_eq_bind, Option.bind_some]
  rfl

end Requests

/-! ## What the messages do -/

section Meaning

variable {dev : WgDevice} {d : Device} {kernel : Kernel}

theorem disown_disown (owner : Network → Option (List Byte)) (key : List Byte) :
    disown (disown owner key) key = disown owner key := by
  funext net
  by_cases h : owner net = some key <;> simp [disown, h]

theorem own_own (key : List Byte) (owner : Network → Option (List Byte))
    (l₁ l₂ : List AllowedipRequest) : own key (own key owner l₁) l₂ = own key owner (l₁ ++ l₂) :=
  (List.foldl_append).symm

theorem setPeer_setPeer (d : Device) (peer : WgPeer) (resumed : Bool) (l₁ l₂ : List WgAllowedip) :
    setPeer (setPeer d (jobRequest e ⟨peer, resumed, l₁⟩)) (jobRequest e ⟨peer, true, l₂⟩) =
      setPeer d (jobRequest e ⟨peer, resumed, l₁ ++ l₂⟩) := by
  cases hremove : peer.removeMe with
  | true =>
    have hflags : ∀ resumed loads,
        (jobRequest e ⟨peer, resumed, loads⟩).flags &&& wgpeerFRemoveMe ≠ 0 := by
      intro resumed loads
      simp only [jobRequest, hremove, if_true]
      split_ifs <;> decide
    simp only [setPeer, if_pos (hflags _ _)]
    simp only [jobRequest, Function.update_idem, disown_disown]
  | false =>
    have hflags : ∀ resumed loads,
        ¬ (jobRequest e ⟨peer, resumed, loads⟩).flags &&& wgpeerFRemoveMe ≠ 0 := by
      intro resumed loads
      simp only [jobRequest, hremove, Bool.false_eq_true, if_false]
      split_ifs <;> decide
    have hkeep : (jobRequest e ⟨peer, true, l₂⟩).flags &&& wgpeerFReplaceAllowedips = 0 := by
      simp [jobRequest, hremove]
    simp only [setPeer, if_neg (hflags _ _), hkeep, ne_eq, not_true_eq_false, if_false]
    simp only [jobRequest, Function.update_self, Option.getD_some, Bool.not_true, Bool.false_and,
      Bool.false_eq_true, if_false, if_true, Option.getD_none, Option.none_or, Function.update_idem,
      own_own, List.map_append]

theorem setDevice_batchRequest_false (d : Device) (batch : List (Job WgPeer WgAllowedip)) :
    setDevice d (batchRequest e dev false batch) =
      batch.foldl (fun d job => setPeer d (jobRequest e job)) d := by
  simp [setDevice, setSettings, batchRequest, List.foldl_map]

theorem setDevice_batchRequest_true (d : Device) (batch : List (Job WgPeer WgAllowedip)) :
    setDevice d (batchRequest e dev true batch) =
      batch.foldl (fun d job => setPeer d (jobRequest e job))
        (setSettings d (deviceRequest e dev)) := by
  rw [setDevice, batchRequest, List.foldl_map]
  rfl

theorem receive_says {first : Bool} {nlh msg : List Byte} {batch : List (Job WgPeer WgAllowedip)}
    (h : Says e dev first nlh batch msg) (hnlh : nlh.length = 20) (hlen : msg.length < 2 ^ 16)
    (hvalid : ∀ job ∈ batch, ∀ allowedip ∈ job.loads, (allowedipRequest allowedip).Valid)
    (hdev : kernel dev.name.chars = some d) :
    receive e kernel (withNlmsgLen e msg) = .ok (Function.update kernel dev.name.chars
      (some (setDevice d (batchRequest e dev first batch)))) := by
  have hname : (batchRequest e dev first batch).ifname = dev.name.chars := rfl
  simp only [receive, readRequest_says h hnlh hlen hvalid, hname, hdev]

variable {prepare : ℕ → List Byte}

theorem foldlM_receive (hprepare : ∀ n, (prepare n).length = 20) {n : ℕ}
    {batches : List (List (Job WgPeer WgAllowedip))} {msgs : List (List Byte)}
    (h : Say e dev prepare false n batches msgs) (hlen : ∀ msg ∈ msgs, msg.length < 2 ^ 16)
    (hvalid : ∀ batch ∈ batches, ∀ job ∈ batch, ∀ allowedip ∈ job.loads,
      (allowedipRequest allowedip).Valid) (hdev : kernel dev.name.chars = some d) :
    msgs.foldlM (fun kernel msg => receive e kernel (withNlmsgLen e msg)) kernel =
      .ok (Function.update kernel dev.name.chars
        (some (batches.flatten.foldl (fun d job => setPeer d (jobRequest e job)) d))) := by
  generalize hfirst : false = first at h
  induction h generalizing kernel d with
  | nil first n =>
    rw [List.flatten_nil, List.foldl_nil, Function.update_eq_self_iff.mpr hdev.symm]
    rfl
  | @cons first n batch msg batches msgs htold _ ih =>
    subst hfirst
    rw [List.forall_mem_cons] at hlen hvalid
    rw [List.foldlM_cons, receive_says htold (hprepare n) hlen.1 hvalid.1 hdev]
    show List.foldlM _ _ msgs = _
    rw [ih hlen.2 hvalid.2 (Function.update_self ..) rfl, Function.update_idem, List.flatten_cons,
      List.foldl_append, setDevice_batchRequest_false]

/-- **Splitting.** Whatever the size of the buffer, the kernel ends with the device that one message
with everything in it would make. -/
theorem wgSetDevice_eq {pagesize : ℕ} (hpagesize : 272 ≤ pagesize) (id : BitVec 16)
    (time : ℕ → BitVec 32) (hvalid : AllowedipsValid dev) (hdev : kernel dev.name.chars = some d)
    {fuel : ℕ} (hfuel : weight (dev.peers.map (peerJob · [])) < fuel) :
    wgSetDevice e pagesize id time (receive e) fuel kernel dev =
      some (.ok (Function.update kernel dev.name.chars
        (some (setDevice d (deviceRequest e dev))))) := by
  have hloads : ∀ job ∈ dev.peers.map (peerJob · []), ∀ allowedip ∈ job.loads,
      (allowedipRequest allowedip).Valid := by
    intro job hjob allowedip hallowedip
    obtain ⟨peer, hpeer, rfl⟩ := List.mem_map.mp hjob
    exact allowedipRequest_valid (hvalid peer hpeer allowedip hallowedip)
  obtain ⟨batches, msgs, hmsgs, hcovers, hsay, hfits, -⟩ := @setDeviceMsgs_spec e _ dev
    (fun n => mnlgMsgPrepare e id 5 (time n) 1 1) (le_mnlIdealSocketBufferSize hpagesize)
    (fun n => length_mnlgMsgPrepare ..) fuel 0 [] [] (fun h => absurd rfl h) (fun _ => rfl)
    (by rwa [remaining_nil])
  rw [remaining_nil] at hcovers
  have hlen : ∀ msg ∈ msgs, msg.length < 2 ^ 16 := fun msg hmsg =>
    Nat.lt_of_le_of_lt ((hfits msg hmsg).trans (mnlIdealSocketBufferSize_le pagesize))
      (by norm_num)
  have hbatches := hcovers.forall_loads hloads
  have hne := setDeviceMsgs_ne_nil hmsgs
  rw [wgSetDevice, hmsgs, Option.map_some]
  refine congrArg some ?_
  cases hsay with
  | nil => exact absurd rfl hne
  | @cons _ _ batch msg batches msgs htold hrest =>
    rw [List.forall_mem_cons] at hlen hbatches
    rw [List.foldlM_cons, receive_says htold (length_mnlgMsgPrepare ..) hlen.1 hbatches.1 hdev]
    show List.foldlM _ _ msgs = _
    rw [foldlM_receive (fun n => length_mnlgMsgPrepare ..) hrest hlen.2 hbatches.2
      (Function.update_self ..), Function.update_idem, List.isEmpty_nil, setDevice_batchRequest_true,
      ← List.foldl_append, ← List.flatten_cons,
      hcovers.foldl_flatten fun d peer resumed l₁ l₂ => setPeer_setPeer d peer resumed l₁ l₂,
      deviceRequest, setDevice_batchRequest_true]
    rfl

theorem allowedipsValid_tenHosts : AllowedipsValid tenHosts := by
  intro peer hpeer allowedip hallowedip
  obtain rfl := List.mem_singleton.mp hpeer
  obtain ⟨n, -, rfl⟩ := List.mem_map.mp hallowedip
  exact .inl ⟨rfl, Nat.le_refl 32⟩

/-- The hosts that are set with two messages, on a device without peers. -/
theorem wgSetDevice_eq_tenHosts :
    let d : Device := ⟨[], 0, 0, fun _ => none, fun _ => none⟩
    wgSetDevice .little 272 21 (fun _ => 0) (receive .little) 12 (fun _ => some d) tenHosts =
      some (.ok (Function.update (fun _ => some d) tenHosts.name.chars
        (some (setDevice d (deviceRequest .little tenHosts))))) := by
  intro d
  exact @wgSetDevice_eq .little tenHosts d (fun _ => some d) 272 (by decide) 21 (fun _ => 0)
    allowedipsValid_tenHosts rfl 12 (by decide)

end Meaning

end WgDesktop.WireguardUapi
