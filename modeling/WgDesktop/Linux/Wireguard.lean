import WgDesktop.Lib.Batches
import WgDesktop.Linux.Mnl

/-!
# `wg_set_device`

`wg_set_device` of `src/3rdparty/wireguard-tools/contrib/embeddable-wg-library/wireguard.c`: a
device with its peers and their allowed IPs is written as netlink messages no longer than the socket
buffer. What does not fit into a message is taken up again in the next one, in the middle of a
peer's allowed IPs if need be, and then without what the earlier message said of the peer.

`setDeviceMsg_spec` says what a message holds: the peers are jobs whose allowed IPs are their loads,
and each message is a cut of the jobs that are left. `setDeviceMsgs_spec` follows for the loop, which
comes to an end because each message gets something done.
-/

namespace WgDesktop.Wireguard

open Bytes Attributes Mnl Batches

/-! ## The data -/

/-- The bytes of a C object of a fixed size. -/
abbrev Block (n : ℕ) := { bs : List Byte // bs.length = n }

inductive WgdeviceAttribute where
  | unspec
  | ifindex
  | ifname
  | privateKey
  | publicKey
  | flags
  | listenPort
  | fwmark
  | peers
  deriving DecidableEq, Repr

def WgdeviceAttribute.type : WgdeviceAttribute → BitVec 16
  | .unspec => 0
  | .ifindex => 1
  | .ifname => 2
  | .privateKey => 3
  | .publicKey => 4
  | .flags => 5
  | .listenPort => 6
  | .fwmark => 7
  | .peers => 8

inductive WgpeerAttribute where
  | unspec
  | publicKey
  | presharedKey
  | flags
  | endpoint
  | persistentKeepaliveInterval
  | lastHandshakeTime
  | rxBytes
  | txBytes
  | allowedips
  | protocolVersion
  deriving DecidableEq, Repr

def WgpeerAttribute.type : WgpeerAttribute → BitVec 16
  | .unspec => 0
  | .publicKey => 1
  | .presharedKey => 2
  | .flags => 3
  | .endpoint => 4
  | .persistentKeepaliveInterval => 5
  | .lastHandshakeTime => 6
  | .rxBytes => 7
  | .txBytes => 8
  | .allowedips => 9
  | .protocolVersion => 10

inductive WgallowedipAttribute where
  | unspec
  | family
  | ipaddr
  | cidrMask
  deriving DecidableEq, Repr

def WgallowedipAttribute.type : WgallowedipAttribute → BitVec 16
  | .unspec => 0
  | .family => 1
  | .ipaddr => 2
  | .cidrMask => 3

@[simp] theorem WgdeviceAttribute.type_inj {a b : WgdeviceAttribute} :
    a.type = b.type ↔ a = b := by
  cases a <;> cases b <;> decide

@[simp] theorem WgpeerAttribute.type_inj {a b : WgpeerAttribute} : a.type = b.type ↔ a = b := by
  cases a <;> cases b <;> decide

@[simp] theorem WgallowedipAttribute.type_inj {a b : WgallowedipAttribute} :
    a.type = b.type ↔ a = b := by
  cases a <;> cases b <;> decide

@[simp] theorem mnlAttrGetType_device (a : WgdeviceAttribute) (data : List Byte) :
    mnlAttrGetType { type := a.type, data } = a.type := by
  show a.type &&& nlaTypeMask = a.type
  cases a <;> decide

@[simp] theorem mnlAttrGetType_peer (a : WgpeerAttribute) (data : List Byte) :
    mnlAttrGetType { type := a.type, data } = a.type := by
  show a.type &&& nlaTypeMask = a.type
  cases a <;> decide

@[simp] theorem mnlAttrGetType_allowedip (a : WgallowedipAttribute) (data : List Byte) :
    mnlAttrGetType { type := a.type, data } = a.type := by
  show a.type &&& nlaTypeMask = a.type
  cases a <;> decide

def afInet : BitVec 16 := 2

def afInet6 : BitVec 16 := 10

/-- `wg_allowedip`; an `ip4` is the first bytes of the union. -/
structure WgAllowedip where
  family : BitVec 16
  ip : Block 16
  cidr : BitVec 8
  deriving DecidableEq

/-- `wg_peer`; an `addr4` is the first bytes of the endpoint, and its family is in front. -/
structure WgPeer where
  removeMe : Bool
  replaceAllowedips : Bool
  hasPublicKey : Bool
  hasPresharedKey : Bool
  hasPersistentKeepaliveInterval : Bool
  publicKey : Block 32
  presharedKey : Block 32
  endpoint : Block 28
  lastHandshakeTime : Block 16
  rxBytes : BitVec 64
  txBytes : BitVec 64
  persistentKeepaliveInterval : BitVec 16
  allowedips : List WgAllowedip
  deriving DecidableEq

/-- The text of a `char[IFNAMSIZ]`. -/
structure Ifname where
  chars : List Byte
  length_lt : chars.length < 16
  noNul : 0 ∉ chars
  deriving DecidableEq

structure WgDevice where
  name : Ifname
  ifindex : BitVec 32
  replacePeers : Bool
  hasPrivateKey : Bool
  hasPublicKey : Bool
  hasListenPort : Bool
  hasFwmark : Bool
  publicKey : Block 32
  privateKey : Block 32
  fwmark : BitVec 32
  listenPort : BitVec 16
  peers : List WgPeer
  deriving DecidableEq

/-! ## The objects as `calloc` returns them -/

def Block.zero (n : ℕ) : Block n := ⟨List.replicate n 0, List.length_replicate⟩

def WgAllowedip.zero : WgAllowedip := { family := 0, ip := Block.zero 16, cidr := 0 }

def WgPeer.zero : WgPeer where
  removeMe := false
  replaceAllowedips := false
  hasPublicKey := false
  hasPresharedKey := false
  hasPersistentKeepaliveInterval := false
  publicKey := Block.zero 32
  presharedKey := Block.zero 32
  endpoint := Block.zero 28
  lastHandshakeTime := Block.zero 16
  rxBytes := 0
  txBytes := 0
  persistentKeepaliveInterval := 0
  allowedips := []

def WgDevice.zero : WgDevice where
  name := ⟨[], by decide, List.not_mem_nil⟩
  ifindex := 0
  replacePeers := false
  hasPrivateKey := false
  hasPublicKey := false
  hasListenPort := false
  hasFwmark := false
  publicKey := Block.zero 32
  privateKey := Block.zero 32
  fwmark := 0
  listenPort := 0
  peers := []

variable (e : Endian)

@[simp] theorem mnlAttrGetType_nest_peers (attrs : List Attr) :
    mnlAttrGetType (nest e WgdeviceAttribute.peers.type attrs) =
      WgdeviceAttribute.peers.type := by
  show (nlaFNested ||| WgdeviceAttribute.peers.type) &&& nlaTypeMask = _
  decide

@[simp] theorem mnlAttrGetType_nest_allowedips (attrs : List Attr) :
    mnlAttrGetType (nest e WgpeerAttribute.allowedips.type attrs) =
      WgpeerAttribute.allowedips.type := by
  show (nlaFNested ||| WgpeerAttribute.allowedips.type) &&& nlaTypeMask = _
  decide

/-- `endpoint.addr.sa_family`. -/
def saFamily (endpoint : List Byte) : BitVec 16 := e.word (endpoint.take 2)

/-! ## Writing -/

def wgdeviceFReplacePeers : BitVec 32 := 1

def wgpeerFRemoveMe : BitVec 32 := 1

def wgpeerFReplaceAllowedips : BitVec 32 := 2

/-- What is put in front of the peers; `first` in the first message. -/
def deviceAttrs (dev : WgDevice) (first : Bool) : List Attr :=
  let flags := if dev.replacePeers then wgdeviceFReplacePeers else 0
  { type := WgdeviceAttribute.ifname.type, data := dev.name.chars ++ [0] } ::
    if first then
      (if dev.hasPrivateKey then
        [{ type := WgdeviceAttribute.privateKey.type, data := dev.privateKey.1 }] else []) ++
      (if dev.hasListenPort then
        [{ type := WgdeviceAttribute.listenPort.type, data := e.bytes dev.listenPort }] else []) ++
      (if dev.hasFwmark then
        [{ type := WgdeviceAttribute.fwmark.type, data := e.bytes dev.fwmark }] else []) ++
      (if flags ≠ 0 then
        [{ type := WgdeviceAttribute.flags.type, data := e.bytes flags }] else [])
    else []

/-- What is put of a peer in front of its allowed IPs; `first` unless it is resumed. -/
def peerAttrs (peer : WgPeer) (first : Bool) : List Attr :=
  let flags := (if peer.removeMe then wgpeerFRemoveMe else 0) |||
    if first && peer.replaceAllowedips then wgpeerFReplaceAllowedips else 0
  { type := WgpeerAttribute.publicKey.type, data := peer.publicKey.1 } ::
    (if first then
      (if peer.hasPresharedKey then
        [{ type := WgpeerAttribute.presharedKey.type, data := peer.presharedKey.1 }] else []) ++
      (if saFamily e peer.endpoint.1 = afInet then
        [{ type := WgpeerAttribute.endpoint.type, data := peer.endpoint.1.take 16 }]
      else if saFamily e peer.endpoint.1 = afInet6 then
        [{ type := WgpeerAttribute.endpoint.type, data := peer.endpoint.1 }] else []) ++
      (if peer.hasPersistentKeepaliveInterval then
        [{ type := WgpeerAttribute.persistentKeepaliveInterval.type
           data := e.bytes peer.persistentKeepaliveInterval }] else [])
    else []) ++
    if flags ≠ 0 then [{ type := WgpeerAttribute.flags.type, data := e.bytes flags }] else []

def allowedipAttrs (allowedip : WgAllowedip) : List Attr :=
  { type := WgallowedipAttribute.family.type, data := e.bytes allowedip.family } ::
    (if allowedip.family = afInet then
      [{ type := WgallowedipAttribute.ipaddr.type, data := allowedip.ip.1.take 4 }]
    else if allowedip.family = afInet6 then
      [{ type := WgallowedipAttribute.ipaddr.type, data := allowedip.ip.1 }] else []) ++
    [{ type := WgallowedipAttribute.cidrMask.type, data := e.bytes allowedip.cidr }]

/-- The loop over the allowed IPs. When one does not fit: `allowedip_nest` and those from it on. -/
def putAllowedips (size : ℕ) :
    List Byte → List WgAllowedip → List Byte × Option (Option ℕ × List WgAllowedip)
  | nlh, [] => (nlh, none)
  | nlh, allowedip :: next =>
    match mnlAttrNestStartCheck e nlh size 0 with
    | none => (nlh, some (none, allowedip :: next))
    | some (nlh, allowedipNest) =>
      match putsCheck e size nlh (allowedipAttrs e allowedip) with
      | .error nlh => (nlh, some (some allowedipNest, allowedip :: next))
      | .ok nlh => putAllowedips size (mnlAttrNestEnd e nlh allowedipNest) next

/-- The labels `toobig_peers` and `toobig_allowedips`, with the nests that are open then. -/
inductive Toobig where
  | peers (peerNest : Option ℕ)
  | allowedips (peerNest : ℕ) (allowedipsNest allowedipNest : Option ℕ)
  deriving DecidableEq, Repr

/-- The body of the loop over the peers, with `allowedip` before and after. -/
def putPeer (size : ℕ) (nlh : List Byte) (peer : WgPeer) (allowedip : List WgAllowedip) :
    List Byte × Option Toobig × List WgAllowedip :=
  match mnlAttrNestStartCheck e nlh size 0 with
  | none => (nlh, some (.peers none), allowedip)
  | some (nlh, peerNest) =>
    match putsCheck e size nlh (peerAttrs e peer allowedip.isEmpty) with
    | .error nlh => (nlh, some (.peers (some peerNest)), allowedip)
    | .ok nlh =>
      if peer.allowedips.isEmpty then (mnlAttrNestEnd e nlh peerNest, none, allowedip)
      else
        let allowedip := if allowedip.isEmpty then peer.allowedips else allowedip
        match mnlAttrNestStartCheck e nlh size WgpeerAttribute.allowedips.type with
        | none => (nlh, some (.allowedips peerNest none none), allowedip)
        | some (nlh, allowedipsNest) =>
          match putAllowedips e size nlh allowedip with
          | (nlh, some (allowedipNest, allowedip)) =>
            (nlh, some (.allowedips peerNest (some allowedipsNest) allowedipNest), allowedip)
          | (nlh, none) =>
            (mnlAttrNestEnd e (mnlAttrNestEnd e nlh allowedipsNest) peerNest, none, [])

/-- The loop over the peers, with `peer` and `allowedip` when it is left. -/
def putPeers (size : ℕ) : List Byte → List WgPeer → List WgAllowedip →
    List Byte × Option Toobig × List WgPeer × List WgAllowedip
  | nlh, [], allowedip => (nlh, none, [], allowedip)
  | nlh, peer :: next, allowedip =>
    match putPeer e size nlh peer allowedip with
    | (nlh, some toobig, allowedip) => (nlh, some toobig, peer :: next, allowedip)
    | (nlh, none, allowedip) => putPeers size nlh next allowedip

def cancelNest (nlh : List Byte) (start : Option ℕ) : List Byte :=
  match start with
  | some start => mnlAttrNestCancel nlh start
  | none => nlh

def endNest (nlh : List Byte) (start : Option ℕ) : List Byte :=
  match start with
  | some start => mnlAttrNestEnd e nlh start
  | none => nlh

/-- What is done at the labels, but for the end of `peers_nest`. -/
def closePeer (nlh : List Byte) : Option Toobig → List Byte
  | none => nlh
  | some (.peers peerNest) => cancelNest nlh peerNest
  | some (.allowedips peerNest allowedipsNest allowedipNest) =>
    mnlAttrNestEnd e (endNest e (cancelNest nlh allowedipNest) allowedipsNest) peerNest

/-- One message from `again` to `send`, where `nlh` is what `mnlg_msg_prepare` returns, with `peer`
and `allowedip` before and after. -/
def setDeviceMsg (size : ℕ) (dev : WgDevice) (nlh : List Byte) (peer : List WgPeer)
    (allowedip : List WgAllowedip) : List Byte × List WgPeer × List WgAllowedip :=
  let nlh := (deviceAttrs e dev peer.isEmpty).foldl (mnlAttrPut e) nlh
  if dev.peers.isEmpty then (nlh, peer, allowedip)
  else
    let (nlh, peersNest) := mnlAttrNestStart e nlh WgdeviceAttribute.peers.type
    let (nlh, toobig, peer, allowedip) :=
      putPeers e size nlh (if peer.isEmpty then dev.peers else peer) allowedip
    (mnlAttrNestEnd e (closePeer e nlh toobig) peersNest, peer, allowedip)

/-- The messages of the loop, each begun by `prepare`, as long as the fuel lasts. -/
def setDeviceMsgs (size : ℕ) (dev : WgDevice) (prepare : ℕ → List Byte) :
    ℕ → ℕ → List WgPeer → List WgAllowedip → Option (List (List Byte))
  | 0, _, _, _ => none
  | fuel + 1, n, peer, allowedip =>
    let (nlh, peer, allowedip) := setDeviceMsg e size dev (prepare n) peer allowedip
    if peer.isEmpty then some [nlh]
    else (setDeviceMsgs size dev prepare fuel (n + 1) peer allowedip).map (nlh :: ·)

/-- `wg_set_device`, where `send` is `mnlg_socket_send` and `mnlg_socket_recv_run`: the first message
that is not acknowledged ends the loop. `id` is that of the netlink family, and `time n` the time at
message `n`. -/
def wgSetDevice {σ ε : Type} (pagesize : ℕ) (id : BitVec 16) (time : ℕ → BitVec 32)
    (send : σ → List Byte → Except ε σ) (fuel : ℕ) (s : σ) (dev : WgDevice) :
    Option (Except ε σ) :=
  (setDeviceMsgs e (mnlIdealSocketBufferSize pagesize) dev
    (fun n => mnlgMsgPrepare e id 5 (time n) 1 1) fuel 0 [] []).map
    fun msgs => msgs.foldlM (fun s msg => send s (withNlmsgLen e msg)) s

/-! ## What a message holds -/

variable {e}

/-- What is to be done of a peer, from `allowedip` on. -/
def peerJob (peer : WgPeer) (allowedip : List WgAllowedip) : Job WgPeer WgAllowedip where
  head := peer
  resumed := !allowedip.isEmpty
  loads := if allowedip.isEmpty then peer.allowedips else allowedip

def allowedipAttr (e : Endian) (allowedip : WgAllowedip) : Attr :=
  nest e 0 (allowedipAttrs e allowedip)

/-- The nest of a peer in a message; `open` when there is a nest for its allowed IPs. -/
def jobAttr (e : Endian) (job : Job WgPeer WgAllowedip) (nested : Bool) : Attr :=
  nest e 0 (peerAttrs e job.head (!job.resumed) ++
    if nested then
      [nest e WgpeerAttribute.allowedips.type (job.loads.map (allowedipAttr e))] else [])

/-- The attribute says what the job says. -/
def Written (e : Endian) (job : Job WgPeer WgAllowedip) (a : Attr) : Prop :=
  ∃ nested, a = jobAttr e job nested ∧ (nested = false → job.loads = [])

/-- What is left to do of the peers from `peer` on. -/
def pending : List WgPeer → List WgAllowedip → List (Job WgPeer WgAllowedip)
  | [], _ => []
  | peer :: next, allowedip => peerJob peer allowedip :: next.map fun peer => peerJob peer []

/-- An allowed IP to go on with is one of the first peer. -/
def Resumable (peer : List WgPeer) (allowedip : List WgAllowedip) : Prop :=
  allowedip ≠ [] → ∃ p ∈ peer.head?, p.allowedips ≠ []

section Messages

variable {size : ℕ} {nlh : List Byte}

theorem length_allowedipAttr_le (allowedip : WgAllowedip) :
    ((allowedipAttr e allowedip).bytes e).length ≤ 40 := by
  have hip := allowedip.ip.2
  rw [allowedipAttr, length_bytes_nest, allowedipAttrs]
  simp only [List.flatMap_cons, List.flatMap_append, List.length_append, List.flatMap_nil,
    List.length_nil, length_bytes_eq, Endian.length_bytes]
  split_ifs <;>
    simp only [List.flatMap_cons, List.flatMap_nil, List.length_append, List.length_nil,
      length_bytes_eq, List.length_take, hip, align] <;> omega

theorem length_peerAttrs_le (peer : WgPeer) (first : Bool) :
    ((peerAttrs e peer first).flatMap (Attr.bytes e)).length ≤ 120 := by
  have hpublic := peer.publicKey.2
  have hpreshared := peer.presharedKey.2
  have hendpoint := peer.endpoint.2
  rw [peerAttrs]
  simp only [List.flatMap_cons, List.flatMap_append, List.length_append, length_bytes_eq]
  split_ifs <;>
    simp only [List.flatMap_cons, List.flatMap_nil, List.flatMap_append, List.length_append,
      List.length_nil, length_bytes_eq, Endian.length_bytes, List.length_take, hpublic, hpreshared,
      hendpoint, align] <;> omega

theorem length_deviceAttrs_le (dev : WgDevice) (first : Bool) :
    ((deviceAttrs e dev first).flatMap (Attr.bytes e)).length ≤ 80 := by
  have hname := dev.name.length_lt
  have hkey := dev.privateKey.2
  rw [deviceAttrs]
  simp only [List.flatMap_cons, List.length_append, length_bytes_eq]
  split_ifs <;>
    simp only [List.flatMap_cons, List.flatMap_nil, List.flatMap_append, List.length_append,
      List.length_nil, length_bytes_eq, Endian.length_bytes, List.length_cons, hkey, align] <;>
    omega

/-- The nests of allowed IPs. -/
def allowedipsBytes (e : Endian) (ips : List WgAllowedip) : List Byte :=
  (ips.map (allowedipAttr e)).flatMap (Attr.bytes e)

theorem allowedipsBytes_cons (allowedip : WgAllowedip) (ips : List WgAllowedip) :
    allowedipsBytes e (allowedip :: ips) =
      (allowedipAttr e allowedip).bytes e ++ allowedipsBytes e ips := by
  rw [allowedipsBytes, List.map_cons, List.flatMap_cons, allowedipsBytes]

theorem mnlAttrNestStartCheck_of_le (type : BitVec 16) (h : nlh.length + 4 ≤ size) :
    mnlAttrNestStartCheck e nlh size type = some (mnlAttrNestStart e nlh type) := by
  rw [mnlAttrNestStartCheck, if_neg (by omega)]

theorem mnlAttrNestStartCheck_of_lt (type : BitVec 16) (h : size < nlh.length + 4) :
    mnlAttrNestStartCheck e nlh size type = none := by
  rw [mnlAttrNestStartCheck, if_pos h]

theorem length_nestStart (type : BitVec 16) :
    (mnlAttrNestStart e nlh type).1.length = nlh.length + 4 := by
  simp [mnlAttrNestStart]

/-- What one allowed IP does to the message: it is all there, or, once its nest is cancelled,
nothing of it. -/
theorem putAllowedips_cons (allowedip : WgAllowedip) (next : List WgAllowedip) :
    (nlh ++ (allowedipAttr e allowedip).bytes e).length ≤ size ∧
        putAllowedips e size nlh (allowedip :: next) =
          putAllowedips e size (nlh ++ (allowedipAttr e allowedip).bytes e) next ∨
      size < nlh.length + 40 ∧ ∃ msg start,
        putAllowedips e size nlh (allowedip :: next) = (msg, some (start, allowedip :: next)) ∧
          cancelNest msg start = nlh := by
  have hle := @length_allowedipAttr_le e allowedip
  have hlen := @length_bytes_nest e 0 (allowedipAttrs e allowedip)
  rw [← allowedipAttr] at hlen
  have hstartlen := @length_nestStart e nlh 0
  by_cases hnest : size < nlh.length + 4
  · refine .inr ⟨by omega, nlh, none, ?_, rfl⟩
    simp only [putAllowedips, mnlAttrNestStartCheck_of_lt 0 hnest]
  · have hstart := @mnlAttrNestStartCheck_of_le e size nlh 0 (by omega)
    by_cases hfits : nlh.length + ((allowedipAttr e allowedip).bytes e).length ≤ size
    · have hputs := @putsCheck_of_le e size (allowedipAttrs e allowedip)
        (mnlAttrNestStart e nlh 0).1 (by omega)
      refine .inl ⟨by rwa [List.length_append], ?_⟩
      conv_lhs => rw [putAllowedips, hstart]
      simp only [hputs, mnlAttrNestEnd_nestStart, allowedipAttr]
    · obtain ⟨written, hputs⟩ := @putsCheck_of_lt e size (allowedipAttrs e allowedip)
        (mnlAttrNestStart e nlh 0).1 (by omega) (by omega)
      refine .inr ⟨by omega, (mnlAttrNestStart e nlh 0).1 ++ written,
        some (mnlAttrNestStart e nlh 0).2, ?_, ?_⟩
      · simp only [putAllowedips, hstart, hputs]
      · simp only [mnlAttrNestStart, cancelNest, List.append_assoc]
        exact mnlAttrNestCancel_append nlh _

/-- The loop over the allowed IPs puts all of them, or those up to one that does not fit. -/
theorem putAllowedips_spec (hnlh : nlh.length ≤ size) (ips : List WgAllowedip) :
    (nlh ++ allowedipsBytes e ips).length ≤ size ∧
        putAllowedips e size nlh ips = (nlh ++ allowedipsBytes e ips, none) ∨
      ∃ l₁ l₂ msg start, ips = l₁ ++ l₂ ∧ l₂ ≠ [] ∧
        putAllowedips e size nlh ips = (msg, some (start, l₂)) ∧
          cancelNest msg start = nlh ++ allowedipsBytes e l₁ ∧
            (nlh ++ allowedipsBytes e l₁).length ≤ size ∧ (l₁ = [] → size < nlh.length + 40) := by
  induction ips generalizing nlh with
  | nil =>
    exact .inl ⟨by simpa [allowedipsBytes] using hnlh, by simp [putAllowedips, allowedipsBytes]⟩
  | cons allowedip ips ih =>
    rcases @putAllowedips_cons e size nlh allowedip ips with
      ⟨hle, hput⟩ | ⟨hlt, msg, start, hput, hcancel⟩
    · rw [hput, allowedipsBytes_cons, ← List.append_assoc]
      refine (ih hle).imp id ?_
      rintro ⟨l₁, l₂, msg, start, rfl, hne, heq, hcancel, hlen, -⟩
      refine ⟨allowedip :: l₁, l₂, msg, start, rfl, hne, heq, ?_, ?_, by simp⟩
      · rw [hcancel, allowedipsBytes_cons, List.append_assoc]
      · rwa [allowedipsBytes_cons, ← List.append_assoc]
    · refine .inr ⟨[], allowedip :: ips, msg, start, rfl, by simp, hput, ?_, ?_, fun _ => hlt⟩
      · simpa [allowedipsBytes] using hcancel
      · simpa [allowedipsBytes] using hnlh

/-- The message with a peer's nest begun, up to its allowed IPs. -/
def peerHead (e : Endian) (nlh : List Byte) (peer : WgPeer) (first : Bool) : List Byte :=
  (mnlAttrNestStart e nlh 0).1 ++ (peerAttrs e peer first).flatMap (Attr.bytes e)

theorem length_peerHead_le (peer : WgPeer) (first : Bool) :
    (peerHead e nlh peer first).length ≤ nlh.length + 124 := by
  have hattrs := @length_peerAttrs_le e peer first
  rw [peerHead, List.length_append, length_nestStart]
  omega

theorem nestEnd_peerHead (job : Job WgPeer WgAllowedip) :
    mnlAttrNestEnd e (peerHead e nlh job.head (!job.resumed)) nlh.length =
      nlh ++ (jobAttr e job false).bytes e := by
  rw [jobAttr, if_neg (by simp), List.append_nil, ← mnlAttrNestEnd_nestStart]
  rfl

/-- The nest of the allowed IPs and that of the peer, ended one after the other. -/
theorem nestEnd_nestEnd_peerHead (job : Job WgPeer WgAllowedip) :
    let msg := peerHead e nlh job.head (!job.resumed)
    mnlAttrNestEnd e (mnlAttrNestEnd e
      ((mnlAttrNestStart e msg WgpeerAttribute.allowedips.type).1 ++ allowedipsBytes e job.loads)
        msg.length) nlh.length = nlh ++ (jobAttr e job true).bytes e := by
  dsimp only
  have hips := @mnlAttrNestEnd_nestStart e (peerHead e nlh job.head (!job.resumed))
    WgpeerAttribute.allowedips.type (job.loads.map (allowedipAttr e))
  have hpeer := @mnlAttrNestEnd_nestStart e nlh 0 (peerAttrs e job.head (!job.resumed) ++
    [nest e WgpeerAttribute.allowedips.type (job.loads.map (allowedipAttr e))])
  rw [List.flatMap_append, List.flatMap_singleton, ← List.append_assoc] at hpeer
  exact (congrArg (mnlAttrNestEnd e · nlh.length) hips).trans hpeer

theorem length_append_jobAttr (job : Job WgPeer WgAllowedip) (nested : Bool) :
    (nlh ++ (jobAttr e job nested).bytes e).length =
      (peerHead e nlh job.head (!job.resumed)).length +
        if nested then 4 + (allowedipsBytes e job.loads).length else 0 := by
  rw [peerHead, jobAttr, List.length_append, List.length_append, length_bytes_nest,
    List.flatMap_append, List.length_append, length_nestStart]
  cases nested with
  | false => simp only [Bool.false_eq_true, if_false, List.flatMap_nil, List.length_nil]; omega
  | true =>
    simp only [if_true, List.flatMap_singleton, length_bytes_nest, allowedipsBytes]
    omega

/-- A peer whose nest does not fit up to its allowed IPs is left out. -/
theorem putPeer_of_lt (peer : WgPeer) (allowedip : List WgAllowedip)
    (h : size < (peerHead e nlh peer allowedip.isEmpty).length) :
    ∃ msg toobig, putPeer e size nlh peer allowedip = (msg, some toobig, allowedip) ∧
      closePeer e msg (some toobig) = nlh := by
  by_cases hnest : size < nlh.length + 4
  · refine ⟨nlh, .peers none, ?_, rfl⟩
    simp only [putPeer, mnlAttrNestStartCheck_of_lt 0 hnest]
  · have hstart := @mnlAttrNestStartCheck_of_le e size nlh 0 (by omega)
    rw [peerHead, List.length_append] at h
    obtain ⟨written, hputs⟩ := @putsCheck_of_lt e size (peerAttrs e peer allowedip.isEmpty)
      (mnlAttrNestStart e nlh 0).1 (by rw [length_nestStart]; omega) h
    refine ⟨(mnlAttrNestStart e nlh 0).1 ++ written, .peers (some nlh.length), ?_, ?_⟩
    · simp only [putPeer, hstart, hputs]
      rfl
    · simp only [mnlAttrNestStart, closePeer, cancelNest, List.append_assoc]
      exact mnlAttrNestCancel_append nlh _

theorem putPeer_of_le (peer : WgPeer) (allowedip : List WgAllowedip)
    (h : (peerHead e nlh peer allowedip.isEmpty).length ≤ size) :
    putPeer e size nlh peer allowedip =
      let msg := peerHead e nlh peer allowedip.isEmpty
      if peer.allowedips.isEmpty then (mnlAttrNestEnd e msg nlh.length, none, allowedip)
      else
        match mnlAttrNestStartCheck e msg size WgpeerAttribute.allowedips.type with
        | none => (msg, some (.allowedips nlh.length none none), (peerJob peer allowedip).loads)
        | some (nlh', allowedipsNest) =>
          match putAllowedips e size nlh' (peerJob peer allowedip).loads with
          | (nlh', some (allowedipNest, allowedip)) =>
            (nlh', some (.allowedips nlh.length (some allowedipsNest) allowedipNest), allowedip)
          | (nlh', none) =>
            (mnlAttrNestEnd e (mnlAttrNestEnd e nlh' allowedipsNest) nlh.length, none, []) := by
  rw [peerHead, List.length_append, length_nestStart] at h
  have hstart := @mnlAttrNestStartCheck_of_le e size nlh 0 (by omega)
  have hputs := @putsCheck_of_le e size (peerAttrs e peer allowedip.isEmpty)
    (mnlAttrNestStart e nlh 0).1 (by rw [length_nestStart]; exact h)
  simp only [putPeer, hstart, hputs]
  rfl

/-- What one turn of the loop over the peers does: the peer is there with all of its allowed IPs; or
its nest is cancelled; or it is there with some of them. -/
theorem putPeer_spec (peer : WgPeer) {allowedip : List WgAllowedip}
    (hres : allowedip ≠ [] → peer.allowedips ≠ []) :
    (∃ a, Written e (peerJob peer allowedip) a ∧ (nlh ++ a.bytes e).length ≤ size ∧
        putPeer e size nlh peer allowedip = (nlh ++ a.bytes e, none, [])) ∨
      (∃ msg toobig, putPeer e size nlh peer allowedip = (msg, some toobig, allowedip) ∧
        closePeer e msg (some toobig) = nlh ∧ size < nlh.length + 168) ∨
      ∃ l₁ l₂ a msg toobig, (peerJob peer allowedip).loads = l₁ ++ l₂ ∧ l₂ ≠ [] ∧
        Written e { peerJob peer allowedip with loads := l₁ } a ∧
          (nlh ++ a.bytes e).length ≤ size ∧
            putPeer e size nlh peer allowedip = (msg, some toobig, l₂) ∧
              closePeer e msg (some toobig) = nlh ++ a.bytes e ∧
                (l₁ = [] → size < nlh.length + 168) := by
  have hhead := @length_peerHead_le e nlh peer allowedip.isEmpty
  have hfirst : (!(peerJob peer allowedip).resumed) = allowedip.isEmpty := Bool.not_not _
  by_cases hfits : size < (peerHead e nlh peer allowedip.isEmpty).length
  · obtain ⟨msg, toobig, hput, hclose⟩ := putPeer_of_lt peer allowedip hfits
    exact .inr (.inl ⟨msg, toobig, hput, hclose, by omega⟩)
  rw [putPeer_of_le peer allowedip (by omega)]
  dsimp only
  by_cases hips : peer.allowedips = []
  · obtain rfl : allowedip = [] := by
      by_contra hne
      exact hres hne hips
    refine .inl ⟨jobAttr e (peerJob peer []) false, ⟨false, rfl, fun _ => hips⟩, ?_, ?_⟩
    · rw [length_append_jobAttr, hfirst]
      exact Nat.le_of_not_lt hfits
    · rw [if_pos (List.isEmpty_iff.mpr hips), ← nestEnd_peerHead, hfirst]
      rfl
  rw [if_neg (by simpa using hips)]
  have hloads : (peerJob peer allowedip).loads ≠ [] := by
    rw [peerJob]
    split_ifs with hempty
    · exact hips
    · exact fun h => hempty (List.isEmpty_iff.mpr h)
  by_cases hroom : size < (peerHead e nlh peer allowedip.isEmpty).length + 4
  · -- not even the nest for the allowed IPs fits
    refine .inr (.inr ⟨[], (peerJob peer allowedip).loads,
      jobAttr e { peerJob peer allowedip with loads := [] } false, _, _, rfl, hloads,
      ⟨false, rfl, fun _ => rfl⟩, ?_, by rw [mnlAttrNestStartCheck_of_lt _ hroom], ?_,
      fun _ => by omega⟩)
    · rw [length_append_jobAttr, hfirst]
      exact Nat.le_of_not_lt hfits
    · rw [← nestEnd_peerHead, hfirst]
      rfl
  rw [mnlAttrNestStartCheck_of_le _ (by omega)]
  have hstartlen := @length_nestStart e (peerHead e nlh peer allowedip.isEmpty)
    WgpeerAttribute.allowedips.type
  dsimp only
  rcases @putAllowedips_spec e size (mnlAttrNestStart e (peerHead e nlh peer allowedip.isEmpty)
      WgpeerAttribute.allowedips.type).1 (by omega) (peerJob peer allowedip).loads with
    ⟨hle, hput⟩ | ⟨l₁, l₂, msg, start, hsplit, hne, hput, hcancel, hle, hprogress⟩
  · rw [List.length_append] at hle
    rw [hput]
    refine .inl ⟨jobAttr e (peerJob peer allowedip) true, ⟨true, rfl, by simp⟩, ?_, ?_⟩
    · rw [length_append_jobAttr, hfirst, if_pos rfl]
      show (peerHead e nlh peer allowedip.isEmpty).length +
        (4 + (allowedipsBytes e (peerJob peer allowedip).loads).length) ≤ size
      omega
    · rw [← nestEnd_nestEnd_peerHead, hfirst]
      rfl
  · rw [List.length_append] at hle
    rw [hput]
    refine .inr (.inr ⟨l₁, l₂, jobAttr e { peerJob peer allowedip with loads := l₁ } true, msg, _,
      hsplit, hne, ⟨true, rfl, by simp⟩, ?_, rfl, ?_, fun h => ?_⟩)
    · rw [length_append_jobAttr, hfirst, if_pos rfl]
      show (peerHead e nlh peer allowedip.isEmpty).length +
        (4 + (allowedipsBytes e l₁).length) ≤ size
      omega
    · rw [← nestEnd_nestEnd_peerHead, hfirst, closePeer, hcancel]
      rfl
    · have hlt := hprogress h
      omega

theorem pending_cons (peer : WgPeer) (next : List WgPeer) (allowedip : List WgAllowedip) :
    pending (peer :: next) allowedip = peerJob peer allowedip :: pending next [] := by
  cases next with
  | nil => rfl
  | cons => rfl

theorem putPeers_spec (hnlh : nlh.length ≤ size) (peer : List WgPeer)
    {allowedip : List WgAllowedip} (hres : Resumable peer allowedip) :
    ∃ batch attrs msg toobig peer' allowedip',
      putPeers e size nlh peer allowedip = (msg, toobig, peer', allowedip') ∧
        Cut (pending peer allowedip) batch (pending peer' allowedip') ∧
          List.Forall₂ (Written e) batch attrs ∧ Resumable peer' allowedip' ∧
            closePeer e msg toobig = nlh ++ attrs.flatMap (Attr.bytes e) ∧
              (nlh ++ attrs.flatMap (Attr.bytes e)).length ≤ size ∧
                (nlh.length + 168 ≤ size → peer ≠ [] →
                  weight (pending peer' allowedip') < weight (pending peer allowedip)) := by
  induction peer generalizing nlh allowedip with
  | nil =>
    exact ⟨[], [], nlh, none, [], allowedip, rfl, .between [] _, .nil, hres,
      (List.append_nil nlh).symm, by simpa using hnlh, fun _ h => absurd rfl h⟩
  | cons peer next ih =>
    have hips : allowedip ≠ [] → peer.allowedips ≠ [] := fun h => by simpa using hres h
    rcases @putPeer_spec e size nlh peer allowedip hips with
      ⟨a, ha, hle, hput⟩ | ⟨msg, toobig, hput, hclose, hlt⟩ |
        ⟨l₁, l₂, a, msg, toobig, hloads, hne, ha, hle, hput, hclose, hlt⟩
    · obtain ⟨batch, attrs, msg, toobig, peer', allowedip', hputs, hcut, hattrs, hres', hclose, hlen,
        -⟩ := @ih (nlh ++ a.bytes e) hle [] (fun h => absurd rfl h)
      refine ⟨peerJob peer allowedip :: batch, a :: attrs, msg, toobig, peer', allowedip', ?_, ?_,
        .cons ha hattrs, hres', ?_, ?_, fun _ _ => ?_⟩
      · simp only [putPeers, hput, hputs]
      · rw [pending_cons]
        exact hcut.cons _
      · rw [hclose, List.flatMap_cons, List.append_assoc]
      · rwa [List.flatMap_cons, ← List.append_assoc]
      · have hle := hcut.weight_le
        rw [pending_cons, weight_cons]
        omega
    · refine ⟨[], [], msg, some toobig, peer :: next, allowedip, ?_, .between [] _, .nil, hres, ?_,
        by simpa using hnlh, fun h => by omega⟩
      · simp only [putPeers, hput]
      · rw [hclose, List.flatMap_nil, List.append_nil]
    · have hrest : pending (peer :: next) l₂ = ⟨peer, true, l₂⟩ :: pending next [] := by
        rw [pending_cons, peerJob]
        simp [hne]
      have hjobs : pending (peer :: next) allowedip =
          [] ++ ⟨peer, (peerJob peer allowedip).resumed, l₁ ++ l₂⟩ :: pending next [] := by
        rw [pending_cons, ← hloads]
        rfl
      refine ⟨[{ peerJob peer allowedip with loads := l₁ }], [a], msg, some toobig, peer :: next, l₂,
        ?_, ?_, .cons ha .nil, fun _ => ?_, ?_, ?_, fun hsize _ => ?_⟩
      · simp only [putPeers, hput]
      · rw [hjobs, hrest]
        exact .within [] _ _ l₁ l₂ _
      · refine ⟨peer, rfl, fun h => hne ?_⟩
        by_cases hallowedip : allowedip = []
        · subst hallowedip
          exact (List.append_eq_nil_iff.mp (hloads.symm.trans h)).2
        · exact absurd h (hips hallowedip)
      · rw [hclose, List.flatMap_singleton]
      · rwa [List.flatMap_singleton]
      · have hl₁ : l₁ ≠ [] := fun h => by have := hlt h; omega
        have hpos := List.length_pos_of_ne_nil hl₁
        rw [hjobs, hrest, List.nil_append]
        simp only [weight_cons, List.length_append]
        omega

theorem foldl_mnlAttrPut (attrs : List Attr) (nlh : List Byte) :
    attrs.foldl (mnlAttrPut e) nlh = nlh ++ attrs.flatMap (Attr.bytes e) := by
  induction attrs generalizing nlh with
  | nil => exact (List.append_nil nlh).symm
  | cons a attrs ih =>
    rw [List.foldl_cons, ih, mnlAttrPut, List.flatMap_cons, List.append_assoc]

/-- The message says the batch; `first` says whether it also says the device's settings. -/
def Says (e : Endian) (dev : WgDevice) (first : Bool) (nlh : List Byte)
    (batch : List (Job WgPeer WgAllowedip)) (msg : List Byte) : Prop :=
  ∃ attrs, List.Forall₂ (Written e) batch attrs ∧ (dev.peers = [] → batch = []) ∧
    msg = nlh ++ (deviceAttrs e dev first ++ if dev.peers.isEmpty then [] else
      [nest e WgdeviceAttribute.peers.type attrs]).flatMap (Attr.bytes e)

/-- What is left to do for the device when the next message is begun. -/
def remaining (dev : WgDevice) (peer : List WgPeer) (allowedip : List WgAllowedip) :
    List (Job WgPeer WgAllowedip) :=
  pending (if peer.isEmpty then dev.peers else peer) allowedip

variable {dev : WgDevice} {peer : List WgPeer} {allowedip : List WgAllowedip}

/-- **One message.** It says a batch of what is left and fits, and it gets something done. -/
theorem setDeviceMsg_spec (hsize : 272 ≤ size) (hnlh : nlh.length = 20)
    (hres : Resumable peer allowedip) (hpeer : dev.peers = [] → peer = []) :
    ∃ batch msg peer' allowedip',
      setDeviceMsg e size dev nlh peer allowedip = (msg, peer', allowedip') ∧
        Cut (remaining dev peer allowedip) batch (pending peer' allowedip') ∧
          Says e dev peer.isEmpty nlh batch msg ∧ msg.length ≤ size ∧ Resumable peer' allowedip' ∧
            (dev.peers = [] → peer' = []) ∧
              (dev.peers ≠ [] →
                weight (pending peer' allowedip') < weight (remaining dev peer allowedip)) := by
  have hattrs := @length_deviceAttrs_le e dev peer.isEmpty
  rw [setDeviceMsg, foldl_mnlAttrPut]
  by_cases hpeers : dev.peers = []
  · obtain rfl := hpeer hpeers
    refine ⟨[], _, [], allowedip, if_pos (List.isEmpty_iff.mpr hpeers), ?_,
      ⟨[], .nil, fun _ => rfl, ?_⟩, ?_, hres,
      fun _ => rfl, fun h => absurd hpeers h⟩
    · rw [remaining, hpeers]
      exact .between [] _
    · rw [if_pos (List.isEmpty_iff.mpr hpeers), List.append_nil]
    · rw [List.length_append]
      omega
  set start := nlh ++ (deviceAttrs e dev peer.isEmpty).flatMap (Attr.bytes e) with hstart
  have hstartlen : start.length ≤ 100 := by
    rw [hstart, List.length_append]
    omega
  have hnest := @length_nestStart e start WgdeviceAttribute.peers.type
  have hres' : Resumable (if peer.isEmpty then dev.peers else peer) allowedip := by
    by_cases hempty : peer = []
    · subst hempty
      exact fun h => by simpa using hres h
    · rwa [if_neg (by simpa using hempty)]
  obtain ⟨batch, attrs, msg, toobig, peer', allowedip', hput, hcut, hwritten, hnext, hclose, hlen,
    hless⟩ := @putPeers_spec e size (mnlAttrNestStart e start WgdeviceAttribute.peers.type).1
      (by omega) _ _ hres'
  have hmsg : mnlAttrNestEnd e (closePeer e msg toobig) start.length =
      start ++ (nest e WgdeviceAttribute.peers.type attrs).bytes e := by
    rw [hclose]
    exact mnlAttrNestEnd_nestStart start _ attrs
  refine ⟨batch, mnlAttrNestEnd e (closePeer e msg toobig) start.length, peer', allowedip', ?_,
    hcut, ⟨attrs, hwritten, fun h => absurd h hpeers, ?_⟩, ?_, hnext, fun h => absurd h hpeers,
    fun _ => ?_⟩
  · simp only [List.isEmpty_iff, hpeers, if_false] at hput ⊢
    rw [hput]
    rfl
  · rw [hmsg, if_neg (by simpa using hpeers), List.flatMap_append, List.flatMap_singleton,
      ← List.append_assoc]
  · rw [List.length_append] at hlen
    rw [hmsg, List.length_append, length_bytes_nest]
    omega
  · refine hless (by omega) ?_
    by_cases hempty : peer = []
    · rwa [hempty, List.isEmpty_nil, if_pos rfl]
    · rwa [if_neg (by simpa using hempty)]

end Messages

/-! ## The loop -/

/-- The messages say the batches one by one, and the device's settings come only in the first. -/
inductive Say (e : Endian) (dev : WgDevice) (prepare : ℕ → List Byte) :
    Bool → ℕ → List (List (Job WgPeer WgAllowedip)) → List (List Byte) → Prop where
  | nil (first : Bool) (n : ℕ) : Say e dev prepare first n [] []
  | cons {first : Bool} {n : ℕ} {batch : List (Job WgPeer WgAllowedip)} {msg : List Byte}
      {batches : List (List (Job WgPeer WgAllowedip))} {msgs : List (List Byte)}
      (htold : Says e dev first (prepare n) batch msg)
      (hrest : Say e dev prepare false (n + 1) batches msgs) :
      Say e dev prepare first n (batch :: batches) (msg :: msgs)

section Loop

variable {size : ℕ} {dev : WgDevice} {prepare : ℕ → List Byte}

theorem setDeviceMsgs_ne_nil {fuel n : ℕ} {peer : List WgPeer} {allowedip : List WgAllowedip}
    {msgs : List (List Byte)}
    (h : setDeviceMsgs e size dev prepare fuel n peer allowedip = some msgs) : msgs ≠ [] := by
  rintro rfl
  cases fuel with
  | zero => cases h
  | succ fuel =>
    rw [setDeviceMsgs] at h
    dsimp only at h
    split_ifs at h with hdone
    · simp at h
    · simp at h

/-- **The loop.** With enough fuel it comes to an end; its messages fit, and what they say, one
after the other, is all there is to say. -/
theorem setDeviceMsgs_spec (hsize : 272 ≤ size) (hprepare : ∀ n, (prepare n).length = 20)
    {fuel : ℕ} (n : ℕ) {peer : List WgPeer} {allowedip : List WgAllowedip}
    (hres : Resumable peer allowedip) (hpeer : dev.peers = [] → peer = [])
    (hfuel : weight (remaining dev peer allowedip) < fuel) :
    ∃ batches msgs, setDeviceMsgs e size dev prepare fuel n peer allowedip = some msgs ∧
      Covers (remaining dev peer allowedip) batches ∧
        Say e dev prepare peer.isEmpty n batches msgs ∧
          (∀ msg ∈ msgs, msg.length ≤ size) ∧
            msgs.length ≤ weight (remaining dev peer allowedip) + 1 := by
  induction fuel generalizing n peer allowedip with
  | zero => omega
  | succ fuel ih =>
    obtain ⟨batch, msg, peer', allowedip', hmsg, hcut, htold, hlen, hres', hpeer', hless⟩ :=
      setDeviceMsg_spec hsize (hprepare n) hres hpeer
    by_cases hdone : peer' = []
    · subst hdone
      refine ⟨[batch], [msg], ?_, .cons hcut .nil, .cons htold (.nil _ _), by simpa using hlen, ?_⟩
      · simp only [setDeviceMsgs, hmsg]
        rfl
      · simp
    · have hrem : remaining dev peer' allowedip' = pending peer' allowedip' := by
        rw [remaining, if_neg (by simpa using hdone)]
      have hlt := hless fun h => hdone (hpeer' h)
      obtain ⟨batches, msgs, hmsgs, hcovers, hsay, hfits, hcount⟩ :=
        ih (n + 1) hres' hpeer' (by rw [hrem]; omega)
      rw [hrem] at hcovers hcount
      rw [show peer'.isEmpty = false by simpa using hdone] at hsay
      refine ⟨batch :: batches, msg :: msgs, ?_, .cons hcut hcovers, .cons htold hsay, ?_, ?_⟩
      · simp only [setDeviceMsgs, hmsg, hmsgs, List.isEmpty_iff, hdone, if_false, Option.map_some]
      · exact List.forall_mem_cons.mpr ⟨hlen, hfits⟩
      · rw [List.length_cons]
        omega

theorem remaining_nil (dev : WgDevice) : remaining dev [] [] = dev.peers.map (peerJob · []) := by
  rw [remaining, List.isEmpty_nil, if_pos rfl]
  cases dev.peers <;> rfl

theorem le_mnlIdealSocketBufferSize {pagesize : ℕ} (h : 272 ≤ pagesize) :
    272 ≤ mnlIdealSocketBufferSize pagesize := by
  rw [mnlIdealSocketBufferSize]
  split_ifs <;> omega

/-- **The buffer.** On every device the loop comes to an end, and no message is longer than the
buffer that it is written to, though half of the puts do not check. -/
theorem setDeviceMsgs_length_le {pagesize : ℕ} (hpagesize : 272 ≤ pagesize) (id : BitVec 16)
    (time : ℕ → BitVec 32) (dev : WgDevice) {fuel : ℕ}
    (hfuel : weight (dev.peers.map (peerJob · [])) < fuel) :
    ∃ msgs, setDeviceMsgs e (mnlIdealSocketBufferSize pagesize) dev
        (fun n => mnlgMsgPrepare e id 5 (time n) 1 1) fuel 0 [] [] = some msgs ∧
      (∀ msg ∈ msgs, msg.length ≤ mnlIdealSocketBufferSize pagesize) ∧
        msgs.length ≤ weight (dev.peers.map (peerJob · [])) + 1 := by
  rw [← remaining_nil] at hfuel ⊢
  obtain ⟨batches, msgs, hmsgs, -, -, hfits, hcount⟩ := @setDeviceMsgs_spec e _ dev
    (fun n => mnlgMsgPrepare e id 5 (time n) 1 1) (le_mnlIdealSocketBufferSize hpagesize)
    (fun n => length_mnlgMsgPrepare ..) fuel 0 [] [] (fun h => absurd rfl h) (fun _ => rfl) hfuel
  exact ⟨msgs, hmsgs, hfits, hcount⟩

/-- `10.0.0.n/32`. -/
def tenNet (n : BitVec 8) : WgAllowedip where
  family := afInet
  ip := ⟨[10, 0, 0, n] ++ List.replicate 12 0, rfl⟩
  cidr := 32

/-- A device with a peer of ten hosts, six of which fit into a buffer of 272 bytes. -/
def tenHosts : WgDevice :=
  { WgDevice.zero with
    replacePeers := true
    peers := [{ WgPeer.zero with
      replaceAllowedips := true
      allowedips := [0, 1, 2, 3, 4, 5, 6, 7, 8, 9].map tenNet }] }

theorem setDeviceMsgs_length_le_tenHosts :
    (setDeviceMsgs .little 272 tenHosts (fun _ => mnlgMsgPrepare .little 21 5 0 1 1) 12 0 [] []).map
        (fun msgs => msgs.map List.length) = some [260, 188] ∧
      ∃ msgs, setDeviceMsgs .little 272 tenHosts (fun _ => mnlgMsgPrepare .little 21 5 0 1 1) 12 0
          [] [] = some msgs ∧
        (∀ msg ∈ msgs, msg.length ≤ 272) ∧ msgs.length ≤ 12 :=
  ⟨by decide +kernel,
    @setDeviceMsgs_length_le .little 272 (by decide) 21 (fun _ => 0) tenHosts 12 (by decide)⟩

end Loop

end WgDesktop.Wireguard
