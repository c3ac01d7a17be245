import Mathlib.Data.List.TakeWhile
import WgDesktop.Linux.Wireguard

/-!
# `wg_get_device`

`wg_get_device` of `src/3rdparty/wireguard-tools/contrib/embeddable-wg-library/wireguard.c`: the
answer of the kernel, a number of messages in a number of datagrams, is parsed attribute by
attribute into a device, and neighbouring peers with the same key are coalesced.

`src/3rdparty/wireguard-tools/src/uapi/linux/linux/wireguard.h` says how the kernel writes a device
when it does not fit into one message (`Dump`). `wgGetDevice_dump`: a device that is written so is
read as it is, wherever the messages are cut and however they come in datagrams.
`wgGetDevice_of_interrupted`: when an attempt was interrupted none is read, as `ret` keeps the error.
-/

namespace WgDesktop.WireguardGet

open Bytes Attributes Mnl Batches Wireguard

/-! ## Attributes by their types -/

def WgdeviceAttribute.ofType (type : BitVec 16) : Option WgdeviceAttribute :=
  [.unspec, .ifindex, .ifname, .privateKey, .publicKey, .flags, .listenPort, .fwmark, .peers].find?
    fun a : WgdeviceAttribute => a.type = type

def WgpeerAttribute.ofType (type : BitVec 16) : Option WgpeerAttribute :=
  [.unspec, .publicKey, .presharedKey, .flags, .endpoint, .persistentKeepaliveInterval,
    .lastHandshakeTime, .rxBytes, .txBytes, .allowedips, .protocolVersion].find?
    fun a : WgpeerAttribute => a.type = type

def WgallowedipAttribute.ofType (type : BitVec 16) : Option WgallowedipAttribute :=
  [.unspec, .family, .ipaddr, .cidrMask].find? fun a : WgallowedipAttribute => a.type = type

/-! ## Parsing -/

variable (e : Endian)

/-- `memcpy` to the start of an object; nothing when there is more data than room. -/
def Block.memcpy {n : ℕ} (block : Block n) (data : List Byte) : Block n :=
  if h : data.length ≤ n then
    ⟨data ++ block.1.drop data.length, by
      rw [List.length_append, List.length_drop, block.2, Nat.add_sub_cancel' h]⟩
  else block

def eafnosupport : ℕ := 97

def enxio : ℕ := 6

def parseAllowedip (a : Attr) (allowedip : WgAllowedip) : MnlCb × WgAllowedip :=
  (.ok,
    match WgallowedipAttribute.ofType (mnlAttrGetType a) with
    | some .family =>
      if a.data.length = 2 then { allowedip with family := e.word a.data } else allowedip
    | some .ipaddr =>
      if a.data.length = 4 then { allowedip with ip := Block.memcpy allowedip.ip a.data }
      else if a.data.length = 16 then { allowedip with ip := Block.memcpy allowedip.ip a.data }
      else allowedip
    | some .cidrMask =>
      if a.data.length = 1 then { allowedip with cidr := e.word a.data } else allowedip
    | _ => allowedip)

def parseAllowedips (a : Attr) (peer : WgPeer) : MnlCb × WgPeer :=
  let (ret, allowedip) := mnlAttrParse (parseAllowedip e) (attrForEach e a.data) WgAllowedip.zero
  let peer := { peer with allowedips := peer.allowedips ++ [allowedip] }
  if ret = .stop then (.stop, peer)
  else if allowedip.family = afInet ∧ allowedip.cidr.toNat ≤ 32 ∨
      allowedip.family = afInet6 ∧ allowedip.cidr.toNat ≤ 128 then (.ok, peer)
  else (.error eafnosupport, peer)

def wgKeyIsZero (key : List Byte) : Bool :=
  let acc := key.foldl (· ||| ·) 0#8
  1#32 &&& (acc.setWidth 32 - 1#32).sshiftRight 8 ≠ 0

def parsePeer (a : Attr) (peer : WgPeer) : MnlCb × WgPeer :=
  match WgpeerAttribute.ofType (mnlAttrGetType a) with
  | some .publicKey =>
    (.ok,
      if a.data.length = 32 then
        { peer with publicKey := Block.memcpy peer.publicKey a.data, hasPublicKey := true }
      else peer)
  | some .presharedKey =>
    (.ok,
      if a.data.length = 32 then
        { peer with
          presharedKey := Block.memcpy peer.presharedKey a.data
          hasPresharedKey := peer.hasPresharedKey || !wgKeyIsZero a.data }
      else peer)
  | some .endpoint =>
    (.ok,
      if a.data.length < 16 then peer
      else if saFamily e a.data = afInet ∧ a.data.length = 16 then
        { peer with endpoint := Block.memcpy peer.endpoint a.data }
      else if saFamily e a.data = afInet6 ∧ a.data.length = 28 then
        { peer with endpoint := Block.memcpy peer.endpoint a.data }
      else peer)
  | some .persistentKeepaliveInterval =>
    (.ok,
      if a.data.length = 2 then { peer with persistentKeepaliveInterval := e.word a.data }
      else peer)
  | some .lastHandshakeTime =>
    (.ok,
      if a.data.length = 16 then
        { peer with lastHandshakeTime := Block.memcpy peer.lastHandshakeTime a.data }
      else peer)
  | some .rxBytes =>
    (.ok, if a.data.length = 8 then { peer with rxBytes := e.word a.data } else peer)
  | some .txBytes =>
    (.ok, if a.data.length = 8 then { peer with txBytes := e.word a.data } else peer)
  | some .allowedips => mnlAttrParse (parseAllowedips e) (attrForEach e a.data) peer
  | _ => (.ok, peer)

def parsePeers (a : Attr) (device : WgDevice) : MnlCb × WgDevice :=
  let (ret, peer) := mnlAttrParse (parsePeer e) (attrForEach e a.data) WgPeer.zero
  let device := { device with peers := device.peers ++ [peer] }
  if ret = .stop then (.stop, device)
  else if peer.hasPublicKey then (.ok, device)
  else (.error enxio, device)

/-- `strncpy` to `name`, with the byte behind it set to 0. -/
def Ifname.strncpy (text : List Byte) : Ifname where
  chars := (text.take 15).takeWhile (· ≠ 0)
  length_lt :=
    Nat.lt_succ_of_le
      (((List.takeWhile_prefix _).length_le).trans (List.length_take_le 15 text))
  noNul h := by simpa using List.mem_takeWhile_imp h

def parseDevice (a : Attr) (device : WgDevice) : MnlCb × WgDevice :=
  match WgdeviceAttribute.ofType (mnlAttrGetType a) with
  | some .ifindex =>
    (.ok, if a.data.length = 4 then { device with ifindex := e.word a.data } else device)
  | some .ifname =>
    (.ok, if a.data.length ≠ 0 then { device with name := Ifname.strncpy a.data } else device)
  | some .privateKey =>
    (.ok,
      if a.data.length = 32 then
        { device with
          privateKey := Block.memcpy device.privateKey a.data, hasPrivateKey := true }
      else device)
  | some .publicKey =>
    (.ok,
      if a.data.length = 32 then
        { device with publicKey := Block.memcpy device.publicKey a.data, hasPublicKey := true }
      else device)
  | some .listenPort =>
    (.ok, if a.data.length = 2 then { device with listenPort := e.word a.data } else device)
  | some .fwmark =>
    (.ok, if a.data.length = 4 then { device with fwmark := e.word a.data } else device)
  | some .peers => mnlAttrParse (parsePeers e) (attrForEach e a.data) device
  | _ => (.ok, device)

def readDeviceCb (nlh : List Byte) (device : WgDevice) : MnlCb × WgDevice :=
  mnlAttrParse (parseDevice e) (attrForEach e (nlh.drop 20)) device

/-- `coalesce_peers` from `peer` on; `lastIsNull` says that its `last_allowedip` is `NULL`, and
nothing is returned when that is dereferenced. -/
def coalesceFrom (peer : WgPeer) (lastIsNull : Bool) : List WgPeer → Option (List WgPeer)
  | [] => some [peer]
  | next :: rest =>
    if peer.publicKey ≠ next.publicKey then
      (coalesceFrom next next.allowedips.isEmpty rest).map (peer :: ·)
    else if peer.allowedips.isEmpty then
      coalesceFrom { peer with allowedips := next.allowedips } next.allowedips.isEmpty rest
    else if lastIsNull then none
    else
      coalesceFrom { peer with allowedips := peer.allowedips ++ next.allowedips }
        next.allowedips.isEmpty rest

def coalescePeers (device : WgDevice) : Option WgDevice :=
  match device.peers with
  | [] => some device
  | peer :: rest =>
    (coalesceFrom peer peer.allowedips.isEmpty rest).map fun peers => { device with peers }

/-- The end of `wg_get_device`. -/
inductive Outcome where
  | crash
  | error (errno : ℕ)
  | device (dev : WgDevice)
  deriving DecidableEq

/-- What there is to receive once the request is sent: `nlg->seq`, the datagrams, and the error
after them. -/
structure Attempt where
  seq : BitVec 32
  datagrams : List (List Byte)
  errno : ℕ
  deriving DecidableEq

/-- The attempts of `wg_get_device`, with the value of `-ret` before the first: it is not set to 0
again for the next one. -/
def wgGetDeviceFrom (portid : BitVec 32) : ℕ → List Attempt → Option Outcome
  | _, [] => none
  | ret, attempt :: attempts =>
    match mnlgSocketRecvRun e attempt.seq portid (readDeviceCb e) attempt.errno attempt.datagrams
      WgDevice.zero with
    | (.error errno, _) =>
      let ret := if errno = 0 then einval else errno
      if ret = eintr then wgGetDeviceFrom portid ret attempts else some (.error ret)
    | (_, device) =>
      match coalescePeers device with
      | none => some .crash
      | some device =>
        if ret = 0 then some (.device device)
        else if ret = eintr then wgGetDeviceFrom portid ret attempts
        else some (.error ret)

/-- `wg_get_device`, which tries again when it is interrupted. -/
def wgGetDevice (portid : BitVec 32) (attempts : List Attempt) : Option Outcome :=
  wgGetDeviceFrom e portid 0 attempts

/-! ## How the kernel writes a device -/

def dumpAllowedip (allowedip : WgAllowedip) : Attr := nest e 0 (allowedipAttrs e allowedip)

/-- A peer in a message; one that is resumed has only its key and its allowed IPs. -/
def dumpPeerAttrs (job : Job WgPeer WgAllowedip) : List Attr :=
  let peer := job.head
  { type := WgpeerAttribute.publicKey.type, data := peer.publicKey.1 } ::
    (if job.resumed then [] else
      { type := WgpeerAttribute.presharedKey.type, data := peer.presharedKey.1 } ::
      (if saFamily e peer.endpoint.1 = afInet then
        [{ type := WgpeerAttribute.endpoint.type, data := peer.endpoint.1.take 16 }]
      else if saFamily e peer.endpoint.1 = afInet6 then
        [{ type := WgpeerAttribute.endpoint.type, data := peer.endpoint.1 }] else []) ++
      [{ type := WgpeerAttribute.persistentKeepaliveInterval.type
         data := e.bytes peer.persistentKeepaliveInterval },
       { type := WgpeerAttribute.lastHandshakeTime.type, data := peer.lastHandshakeTime.1 },
       { type := WgpeerAttribute.rxBytes.type, data := e.bytes peer.rxBytes },
       { type := WgpeerAttribute.txBytes.type, data := e.bytes peer.txBytes }]) ++
    [nest e WgpeerAttribute.allowedips.type (job.loads.map (dumpAllowedip e))]

def dumpPeer (job : Job WgPeer WgAllowedip) : Attr := nest e 0 (dumpPeerAttrs e job)

/-- The attributes of a message; those behind the first have only the name and the peers. -/
def dumpAttrs (dev : WgDevice) (first : Bool) (batch : List (Job WgPeer WgAllowedip)) : List Attr :=
  (if first then [{ type := WgdeviceAttribute.ifindex.type, data := e.bytes dev.ifindex }] else []) ++
  { type := WgdeviceAttribute.ifname.type, data := dev.name.chars ++ [0] } ::
  (if first then
    (if dev.hasPrivateKey then
      [{ type := WgdeviceAttribute.privateKey.type, data := dev.privateKey.1 }] else []) ++
    (if dev.hasPublicKey then
      [{ type := WgdeviceAttribute.publicKey.type, data := dev.publicKey.1 }] else []) ++
    [{ type := WgdeviceAttribute.listenPort.type, data := e.bytes dev.listenPort },
     { type := WgdeviceAttribute.fwmark.type, data := e.bytes dev.fwmark }]
  else []) ++
  [nest e WgdeviceAttribute.peers.type (batch.map (dumpPeer e))]

/-! ## Reading what the kernel wrote -/

variable {e}

@[simp] theorem WgdeviceAttribute.ofType_type (a : WgdeviceAttribute) :
    WgdeviceAttribute.ofType a.type = some a := by
  cases a <;> decide

@[simp] theorem WgpeerAttribute.ofType_type (a : WgpeerAttribute) :
    WgpeerAttribute.ofType a.type = some a := by
  cases a <;> decide

@[simp] theorem WgallowedipAttribute.ofType_type (a : WgallowedipAttribute) :
    WgallowedipAttribute.ofType a.type = some a := by
  cases a <;> decide

/-- An allowed IP as it is read: an IPv4 or an IPv6 network, with zeros in the rest of the union. -/
def AllowedipRead (a : WgAllowedip) : Prop :=
  a.family = afInet ∧ a.cidr.toNat ≤ 32 ∧ a.ip.1.drop 4 = List.replicate 12 0 ∨
    a.family = afInet6 ∧ a.cidr.toNat ≤ 128

/-- A peer as it is read: its flags say what is known of it. -/
structure PeerRead (e : Endian) (peer : WgPeer) : Prop where
  removeMe : peer.removeMe = false
  replaceAllowedips : peer.replaceAllowedips = false
  hasPublicKey : peer.hasPublicKey = true
  hasPresharedKey : peer.hasPresharedKey = !wgKeyIsZero peer.presharedKey.1
  hasPersistentKeepaliveInterval : peer.hasPersistentKeepaliveInterval = false
  endpoint : saFamily e peer.endpoint.1 = afInet ∧ peer.endpoint.1.drop 16 = List.replicate 12 0 ∨
    saFamily e peer.endpoint.1 = afInet6 ∨ peer.endpoint = Block.zero 28
  allowedips : ∀ a ∈ peer.allowedips, AllowedipRead a

/-- A device as it is read; two peers in a row have different keys. -/
structure DeviceRead (e : Endian) (dev : WgDevice) : Prop where
  replacePeers : dev.replacePeers = false
  hasListenPort : dev.hasListenPort = false
  hasFwmark : dev.hasFwmark = false
  privateKey : dev.hasPrivateKey = false → dev.privateKey = Block.zero 32
  publicKey : dev.hasPublicKey = false → dev.publicKey = Block.zero 32
  peers : ∀ peer ∈ dev.peers, PeerRead e peer
  keys : dev.peers.IsChain fun p q => p.publicKey ≠ q.publicKey

section Parse

theorem mnlAttrParse_cons_ok {σ : Type*} {cb : Attr → σ → MnlCb × σ} {a : Attr} {s s' : σ}
    (h : cb a s = (.ok, s')) (attrs : List Attr) :
    mnlAttrParse cb (a :: attrs) s = mnlAttrParse cb attrs s' := by
  simp only [mnlAttrParse, h]

theorem mnlAttrParse_append_ok {σ : Type*} {cb : Attr → σ → MnlCb × σ} {attrs : List Attr} {s s' : σ}
    (h : mnlAttrParse cb attrs s = (.ok, s')) (rest : List Attr) :
    mnlAttrParse cb (attrs ++ rest) s = mnlAttrParse cb rest s' := by
  induction attrs generalizing s with
  | nil =>
    obtain rfl : s = s' := congrArg Prod.snd h
    rfl
  | cons a attrs ih =>
    rw [List.cons_append]
    rw [mnlAttrParse] at h ⊢
    split at h
    · exact ih h
    · rename_i hne _
      exact absurd (congrArg Prod.fst h) hne

theorem Block.memcpy_self {n : ℕ} (block b : Block n) : Block.memcpy block b.1 = b := by
  have hdrop : block.1.drop b.1.length = [] := List.drop_eq_nil_of_le (by rw [block.2, b.2])
  apply Subtype.ext
  simp only [memcpy, b.2.le, dif_pos, hdrop, List.append_nil]

theorem Block.memcpy_zero {n k : ℕ} (hk : k ≤ n) {b : Block n}
    (h : b.1.drop k = List.replicate (n - k) 0) : Block.memcpy (Block.zero n) (b.1.take k) = b := by
  have hlen : (b.1.take k).length = k := by rw [List.length_take, b.2, Nat.min_eq_left hk]
  have hle : (b.1.take k).length ≤ n := hlen.trans_le hk
  apply Subtype.ext
  rw [memcpy, dif_pos hle]
  simp only [Block.zero, List.drop_replicate, hlen, ← h, List.take_append_drop]

theorem parseAllowedip_allowedipAttrs {a : WgAllowedip} (h : AllowedipRead a) :
    mnlAttrParse (parseAllowedip e) (allowedipAttrs e a) WgAllowedip.zero = (.ok, a) := by
  have hfamily : (e.word (e.bytes a.family) : BitVec 16) = a.family :=
    Endian.word_bytes e (by decide) _
  have hcidr : (e.word (e.bytes a.cidr) : BitVec 8) = a.cidr := Endian.word_bytes e (by decide) _
  have hip := a.ip.2
  obtain ⟨family, ip, cidr⟩ := a
  rcases h with ⟨rfl, -, hzeros⟩ | ⟨rfl, -⟩
  · have hcopy := Block.memcpy_zero (show 4 ≤ 16 by decide) hzeros
    simp [allowedipAttrs, mnlAttrParse, parseAllowedip, WgAllowedip.zero, hfamily, hcidr, hip, hcopy]
  · simp [allowedipAttrs, mnlAttrParse, parseAllowedip, WgAllowedip.zero, hcidr, hip, afInet,
      afInet6, Block.memcpy_self]

theorem parseAllowedips_dumpAllowedip {a : WgAllowedip} (h : AllowedipRead a) (peer : WgPeer) :
    parseAllowedips e (dumpAllowedip e a) peer =
      (.ok, { peer with allowedips := peer.allowedips ++ [a] }) := by
  have hread : attrForEach e (dumpAllowedip e a).data = allowedipAttrs e a :=
    attrForEach_nest (Nat.lt_of_le_of_lt (length_allowedipAttr_le a) (by norm_num))
  have hvalid : a.family = afInet ∧ a.cidr.toNat ≤ 32 ∨
      a.family = afInet6 ∧ a.cidr.toNat ≤ 128 := h.imp (fun h => ⟨h.1, h.2.1⟩) id
  simp only [parseAllowedips, hread, parseAllowedip_allowedipAttrs h, reduceCtorEq, if_false,
    if_pos hvalid]

theorem mnlAttrParse_parseAllowedips {loads : List WgAllowedip} (h : ∀ a ∈ loads, AllowedipRead a)
    (peer : WgPeer) :
    mnlAttrParse (parseAllowedips e) (loads.map (dumpAllowedip e)) peer =
      (.ok, { peer with allowedips := peer.allowedips ++ loads }) := by
  induction loads generalizing peer with
  | nil => simp [mnlAttrParse]
  | cons a loads ih =>
    rw [List.forall_mem_cons] at h
    rw [List.map_cons, mnlAttrParse_cons_ok (parseAllowedips_dumpAllowedip h.1 peer), ih h.2]
    simp

/-- What a job of a peer is read as. -/
def readJob (job : Job WgPeer WgAllowedip) : WgPeer :=
  if job.resumed then
    { WgPeer.zero with
      publicKey := job.head.publicKey, hasPublicKey := true, allowedips := job.loads }
  else { job.head with allowedips := job.loads }

theorem mnlAttrParse_endpoint {endpoint : Block 28}
    (h : saFamily e endpoint.1 = afInet ∧ endpoint.1.drop 16 = List.replicate 12 0 ∨
      saFamily e endpoint.1 = afInet6 ∨ endpoint = Block.zero 28) (rest : List Attr) {peer : WgPeer}
    (hzero : peer.endpoint = Block.zero 28) :
    mnlAttrParse (parsePeer e)
      ((if saFamily e endpoint.1 = afInet then
        [{ type := WgpeerAttribute.endpoint.type, data := endpoint.1.take 16 }]
      else if saFamily e endpoint.1 = afInet6 then
        [{ type := WgpeerAttribute.endpoint.type, data := endpoint.1 }] else []) ++ rest) peer =
      mnlAttrParse (parsePeer e) rest { peer with endpoint := endpoint } := by
  have hlen := endpoint.2
  have hne : afInet6 ≠ afInet := by decide
  have hparse : ∀ data, ¬ data.length < 16 →
      (saFamily e data = afInet ∧ data.length = 16 ∨ saFamily e data = afInet6 ∧ data.length = 28) →
        Block.memcpy (Block.zero 28) data = endpoint →
          parsePeer e { type := WgpeerAttribute.endpoint.type, data } peer =
            (.ok, { peer with endpoint := endpoint }) := by
    intro data hshort hfamily hcopy
    simp only [parsePeer, mnlAttrGetType_peer, WgpeerAttribute.ofType_type, if_neg hshort, hzero,
      hcopy]
    rcases hfamily with hfamily | hfamily
    · rw [if_pos hfamily]
    · rw [if_neg (by rw [hfamily.1]; exact fun h => hne h.1), if_pos hfamily]
  rcases h with ⟨hinet, hzeros⟩ | hinet | hnone
  · have hfamily : saFamily e (endpoint.1.take 16) = afInet := by
      show e.word ((endpoint.1.take 16).take 2) = afInet
      rw [List.take_take]
      exact hinet
    have htake : (endpoint.1.take 16).length = 16 := by rw [List.length_take, hlen]; rfl
    rw [if_pos hinet, List.singleton_append, mnlAttrParse_cons_ok
      (hparse _ (by omega) (.inl ⟨hfamily, htake⟩) (Block.memcpy_zero (by decide) hzeros))]
  · rw [if_neg (by rw [hinet]; exact hne), if_pos hinet, List.singleton_append,
      mnlAttrParse_cons_ok
        (hparse _ (by omega) (.inr ⟨hinet, hlen⟩) (Block.memcpy_self _ endpoint))]
  · subst hnone
    have hfamily : saFamily e (Block.zero 28).1 = 0 := by
      cases e <;> decide
    rw [hfamily, if_neg (by decide), if_neg (by decide), List.nil_append, ← hzero]

theorem mnlAttrParse_dumpPeerAttrs {job : Job WgPeer WgAllowedip} (hpeer : PeerRead e job.head)
    (hloads : ∀ a ∈ job.loads, AllowedipRead a)
    (hlen : ((dumpPeerAttrs e job).flatMap (Attr.bytes e)).length < 2 ^ 16) :
    mnlAttrParse (parsePeer e) (dumpPeerAttrs e job) WgPeer.zero = (.ok, readJob job) := by
  have hnest : attrForEach e
      (nest e WgpeerAttribute.allowedips.type (job.loads.map (dumpAllowedip e))).data =
        job.loads.map (dumpAllowedip e) := by
    refine attrForEach_nest (Nat.lt_of_le_of_lt (length_bytes_le_of_mem ?_) hlen)
    simp [dumpPeerAttrs]
  have hips := @mnlAttrParse_parseAllowedips e job.loads hloads
  have hkey := job.head.publicKey.2
  cases hresumed : job.resumed with
  | true =>
    simp [dumpPeerAttrs, hresumed, mnlAttrParse, hnest, hips, readJob, parsePeer, hkey,
      Block.memcpy_self, WgPeer.zero]
  | false =>
    have hpsk := job.head.presharedKey.2
    have htime := job.head.lastHandshakeTime.2
    have hkeepalive := @Endian.word_bytes 16 e (by decide) job.head.persistentKeepaliveInterval
    have hrx := @Endian.word_bytes 64 e (by decide) job.head.rxBytes
    have htx := @Endian.word_bytes 64 e (by decide) job.head.txBytes
    obtain ⟨hremove, hreplace, hpublic, hpreshared, hinterval, hendpoint, -⟩ := hpeer
    have hfirst : ∀ attrs, mnlAttrParse (parsePeer e)
          ({ type := WgpeerAttribute.publicKey.type, data := job.head.publicKey.1 } ::
            { type := WgpeerAttribute.presharedKey.type, data := job.head.presharedKey.1 } :: attrs)
          WgPeer.zero =
        mnlAttrParse (parsePeer e) attrs
          { WgPeer.zero with
            publicKey := job.head.publicKey, hasPublicKey := true
            presharedKey := job.head.presharedKey
            hasPresharedKey := job.head.hasPresharedKey } := by
      intro attrs
      simp [mnlAttrParse, parsePeer, hkey, hpsk, Block.memcpy_self, WgPeer.zero, hpreshared]
    rw [dumpPeerAttrs, hresumed]
    simp only [Bool.false_eq_true, if_false, List.cons_append, List.append_assoc]
    rw [hfirst, mnlAttrParse_endpoint hendpoint _ rfl]
    simp [mnlAttrParse, parsePeer, hnest, hips, htime, hkeepalive, hrx, htx, Block.memcpy_self,
      WgPeer.zero, readJob, hresumed, hremove, hreplace, hpublic, hinterval]

theorem hasPublicKey_readJob {job : Job WgPeer WgAllowedip} (h : PeerRead e job.head) :
    (readJob job).hasPublicKey = true := by
  rw [readJob]
  split_ifs
  · rfl
  · exact h.hasPublicKey

theorem mnlAttrParse_parsePeers {batch : List (Job WgPeer WgAllowedip)}
    (hpeers : ∀ job ∈ batch, PeerRead e job.head)
    (hloads : ∀ job ∈ batch, ∀ a ∈ job.loads, AllowedipRead a)
    (hlen : ((batch.map (dumpPeer e)).flatMap (Attr.bytes e)).length < 2 ^ 16)
    (device : WgDevice) :
    mnlAttrParse (parsePeers e) (batch.map (dumpPeer e)) device =
      (.ok, { device with peers := device.peers ++ batch.map readJob }) := by
  induction batch generalizing device with
  | nil => simp [mnlAttrParse]
  | cons job batch ih =>
    rw [List.forall_mem_cons] at hpeers hloads
    rw [List.map_cons, List.flatMap_cons, List.length_append, dumpPeer, length_bytes_nest] at hlen
    have hread : attrForEach e (dumpPeer e job).data = dumpPeerAttrs e job :=
      attrForEach_nest (by rw [length_bytes_nest]; omega)
    have hparse : parsePeers e (dumpPeer e job) device =
        (.ok, { device with peers := device.peers ++ [readJob job] }) := by
      simp only [parsePeers, hread, mnlAttrParse_dumpPeerAttrs hpeers.1 hloads.1 (by omega),
        reduceCtorEq, if_false, hasPublicKey_readJob hpeers.1, if_true]
    rw [List.map_cons, mnlAttrParse_cons_ok hparse, ih hpeers.2 hloads.2 (by omega)]
    simp

theorem Ifname.strncpy_append (name : Ifname) : Ifname.strncpy (name.chars ++ [0]) = name := by
  have hall : ∀ b ∈ name.chars, decide (b ≠ 0) = true := fun b hb => by
    simpa using fun h0 : b = 0 => name.noNul (h0 ▸ hb)
  have hlen := name.length_lt
  obtain ⟨chars, hlt, hnul⟩ := name
  simp only [Ifname.strncpy, Ifname.mk.injEq]
  rw [List.take_append, List.take_of_length_le (by omega), List.takeWhile_append_of_pos hall]
  rcases Nat.eq_zero_or_pos (15 - chars.length) with h | h
  · simp [h]
  · obtain ⟨n, hn⟩ := Nat.exists_eq_add_of_lt h
    simp [hn]

theorem mnlAttrParse_dumpAttrs {dev : WgDevice} (hdev : DeviceRead e dev) (first : Bool)
    {batch : List (Job WgPeer WgAllowedip)} (hpeers : ∀ job ∈ batch, PeerRead e job.head)
    (hloads : ∀ job ∈ batch, ∀ a ∈ job.loads, AllowedipRead a)
    (hlen : ((dumpAttrs e dev first batch).flatMap (Attr.bytes e)).length < 2 ^ 16)
    {device : WgDevice} (hdevice : device = if first then WgDevice.zero else
      { dev with peers := device.peers }) :
    mnlAttrParse (parseDevice e) (dumpAttrs e dev first batch) device =
      (.ok, { dev with peers := device.peers ++ batch.map readJob }) := by
  have hmem : nest e WgdeviceAttribute.peers.type (batch.map (dumpPeer e)) ∈
      dumpAttrs e dev first batch := by simp [dumpAttrs]
  have hnest := Nat.lt_of_le_of_lt (length_bytes_le_of_mem hmem) hlen
  have hparse : ∀ device, parseDevice e
      (nest e WgdeviceAttribute.peers.type (batch.map (dumpPeer e))) device =
        (.ok, { device with peers := device.peers ++ batch.map readJob }) := by
    intro device
    simp only [parseDevice, mnlAttrGetType_nest_peers, WgdeviceAttribute.ofType_type,
      attrForEach_nest hnest]
    rw [length_bytes_nest] at hnest
    exact mnlAttrParse_parsePeers hpeers hloads (by omega) device
  have hname : Ifname.strncpy (dev.name.chars ++ [0#8]) = dev.name := Ifname.strncpy_append dev.name
  have hlast : ∀ device, mnlAttrParse (parseDevice e)
      [nest e WgdeviceAttribute.peers.type (batch.map (dumpPeer e))] device =
        (.ok, { device with peers := device.peers ++ batch.map readJob }) := fun device =>
    mnlAttrParse_cons_ok (hparse device) []
  cases first with
  | false =>
    have hstep : parseDevice e
        { type := WgdeviceAttribute.ifname.type, data := dev.name.chars ++ [0] } device =
          (.ok, { dev with peers := device.peers }) := by
      simp only [parseDevice, mnlAttrGetType_device, WgdeviceAttribute.ofType_type]
      rw [hdevice, if_neg Bool.false_ne_true, if_pos (by simp)]
      simp [hname]
    simp only [dumpAttrs, Bool.false_eq_true, if_false, List.nil_append, List.singleton_append]
    rw [mnlAttrParse_cons_ok hstep, hlast]
  | true =>
    have hprivate := dev.privateKey.2
    have hpublic := dev.publicKey.2
    have hifindex := @Endian.word_bytes 32 e (by decide) dev.ifindex
    have hport := @Endian.word_bytes 16 e (by decide) dev.listenPort
    have hfwmark := @Endian.word_bytes 32 e (by decide) dev.fwmark
    obtain ⟨hreplace, hhasPort, hhasFwmark, hnoPrivate, hnoPublic, -, -⟩ := hdev
    rw [if_pos rfl] at hdevice
    subst hdevice
    refine (@mnlAttrParse_append_ok _ _ _ _ { dev with peers := [] } ?_ _).trans (hlast _)
    cases hhasPrivate : dev.hasPrivateKey <;> cases hhasPublic : dev.hasPublicKey <;>
      simp [mnlAttrParse, parseDevice, WgDevice.zero, Block.memcpy_self, hhasPrivate, hhasPublic,
        hprivate, hpublic, hifindex, hport, hfwmark, hname, hreplace, hhasPort, hhasFwmark,
        hnoPrivate, hnoPublic]

end Parse

/-! ## Coalescing -/

section Coalesce

theorem publicKey_readJob (job : Job WgPeer WgAllowedip) :
    (readJob job).publicKey = job.head.publicKey := by
  rw [readJob]
  split_ifs <;> rfl

theorem allowedips_readJob (job : Job WgPeer WgAllowedip) :
    (readJob job).allowedips = job.loads := by
  rw [readJob]
  split_ifs <;> rfl

theorem readJob_loads (job : Job WgPeer WgAllowedip) (loads : List WgAllowedip) :
    { readJob job with allowedips := loads } = readJob { job with loads } := by
  rw [readJob, readJob]
  split_ifs <;> rfl

/-- Where a peer that is taken in has allowed IPs, the loop over the peers joins neighbours. -/
theorem coalesceFrom_map {job : Job WgPeer WgAllowedip} {jobs : List (Job WgPeer WgAllowedip)}
    {lastIsNull : Bool} (hlast : lastIsNull = true → job.loads = [])
    (hjobs : (job :: jobs).IsChain fun j k =>
      j.head.publicKey = k.head.publicKey → k.loads ≠ []) :
    coalesceFrom (readJob job) lastIsNull (jobs.map readJob) =
      some ((coalesce (·.publicKey) (job :: jobs)).map readJob) := by
  induction jobs generalizing job lastIsNull with
  | nil =>
    rw [List.map_nil, coalesceFrom, coalesce]
    rfl
  | cons next rest ih =>
    rw [List.isChain_cons_cons] at hjobs
    obtain ⟨hnext, hrest⟩ := hjobs
    rw [List.map_cons, coalesceFrom, coalesce]
    simp only [allowedips_readJob, readJob_loads]
    simp only [publicKey_readJob]
    by_cases hkey : job.head.publicKey = next.head.publicKey
    · have hne := hnext hkey
      have hempty : next.loads.isEmpty = false := by simpa using hne
      have hchain : ({ job with loads := job.loads ++ next.loads } :: rest).IsChain fun j k =>
          j.head.publicKey = k.head.publicKey → k.loads ≠ [] := by
        rw [List.isChain_cons] at hrest ⊢
        exact ⟨fun k hk h => hrest.1 k hk (hkey.symm.trans h), hrest.2⟩
      have hjoin := @ih { job with loads := job.loads ++ next.loads } false (by simp) hchain
      rw [if_neg (not_not_intro hkey), if_pos hkey, hempty]
      by_cases hloads : job.loads = []
      · rw [if_pos (by simp [hloads])]
        rw [hloads, List.nil_append] at hjoin ⊢
        exact hjoin
      · have hnull : ¬ lastIsNull = true := fun h => hloads (hlast h)
        rw [if_neg (by simpa using hloads), if_neg hnull]
        exact hjoin
    · rw [if_pos hkey, if_neg hkey, ih (fun h => by simpa using h) hrest]
      rfl

end Coalesce

/-! ## The round trip -/

/-- The messages of a dump: the batches one by one, then the end. -/
inductive Dump (e : Endian) (dev : WgDevice) :
    Bool → List (List (Job WgPeer WgAllowedip)) → List Msg → Prop where
  | done (first : Bool) {m : Msg} (htype : m.header.type = 3) (hpayload : m.payload = e.bytes 0#32) :
      Dump e dev first [] [m]
  | cons {first : Bool} {batch : List (Job WgPeer WgAllowedip)} {m : Msg}
      {batches : List (List (Job WgPeer WgAllowedip))} {msgs : List Msg} (genl : Block 4)
      (htype : nlmsgMinType ≤ m.header.type.toNat)
      (hpayload : m.payload = genl.1 ++ (dumpAttrs e dev first batch).flatMap (Attr.bytes e))
      (hlen : m.payload.length < 2 ^ 16) (hrest : Dump e dev false batches msgs) :
      Dump e dev first (batch :: batches) (m :: msgs)

section RoundTrip

variable {dev : WgDevice} {seq portid : BitVec 32}

theorem controlCb_done {m : Msg} (htype : m.header.type = 3) (hpayload : m.payload = e.bytes 0#32) :
    controlCb e m.header (m.bytes e) = .stop := by
  have hdata : ((m.bytes e).drop 16).take 4 = e.bytes 0#32 := by
    rw [Msg.bytes, ← @Nlmsghdr.length_bytes e m.header, List.drop_left, hpayload]
    exact List.take_of_length_le (by rw [Endian.length_bytes])
  have hnumber : (e.word (e.bytes 0#32) : BitVec 32) = 0#32 := Endian.word_bytes e (by decide) _
  have hstop : errorCb e (m.bytes e) = .stop := by
    simp [errorCb, hdata, hnumber]
  rw [controlCb, htype, if_neg (by decide), if_pos (by decide), hstop, ite_self]

theorem runMsgs_dump (hdev : DeviceRead e dev) {first : Bool}
    {batches : List (List (Job WgPeer WgAllowedip))} {msgs : List Msg}
    (h : Dump e dev first batches msgs)
    (hpeers : ∀ batch ∈ batches, ∀ job ∈ batch, PeerRead e job.head)
    (hloads : ∀ batch ∈ batches, ∀ job ∈ batch, ∀ a ∈ job.loads, AllowedipRead a)
    (hne : first = true → batches ≠ [])
    {device : WgDevice} (hdevice : device = if first then WgDevice.zero else
      { dev with peers := device.peers }) :
    runMsgs e (readDeviceCb e) msgs device =
      (.stop, { dev with peers := device.peers ++ batches.flatten.map readJob }) := by
  induction h generalizing device with
  | done first htype hpayload =>
    have hfirst : first = false := by simpa using hne
    rw [runMsgs, if_neg (by rw [htype]; decide), controlCb_done htype hpayload]
    rw [hdevice, hfirst]
    simp
  | @cons first batch m batches msgs genl htype hpayload hlen _ ih =>
    rw [List.forall_mem_cons] at hpeers hloads
    have hattrs : (m.bytes e).drop 20 = (dumpAttrs e dev first batch).flatMap (Attr.bytes e) := by
      have hfront : (m.header.bytes e ++ genl.1).length = 20 := by
        rw [List.length_append, Nlmsghdr.length_bytes, genl.2]
      rw [Msg.bytes, hpayload, ← List.append_assoc, ← hfront, List.drop_left]
    rw [hpayload, List.length_append] at hlen
    have hlen : ((dumpAttrs e dev first batch).flatMap (Attr.bytes e)).length < 2 ^ 16 := by omega
    have hread : readDeviceCb e (m.bytes e) device =
        (.ok, { dev with peers := device.peers ++ batch.map readJob }) := by
      rw [readDeviceCb, hattrs, attrForEach_flatMap hlen,
        mnlAttrParse_dumpAttrs hdev first hpeers.1 hloads.1 hlen hdevice]
    rw [runMsgs, if_pos htype, hread]
    dsimp only
    rw [ih hpeers.2 hloads.2 (by simp) rfl, List.flatten_cons, List.map_append, List.append_assoc]

/-- The peers of all messages, coalesced, are the peers of the device. -/
theorem coalescePeers_flatten (hdev : DeviceRead e dev)
    {batches : List (List (Job WgPeer WgAllowedip))}
    (hcovers : Covers (dev.peers.map (peerJob · [])) batches)
    (hresumed : ∀ batch ∈ batches, ∀ job ∈ batch, job.resumed = true → job.loads ≠ []) :
    coalescePeers { dev with peers := batches.flatten.map readJob } = some dev := by
  have hkeys : (dev.peers.map (peerJob · [])).IsChain
      fun j k => j.head.publicKey ≠ k.head.publicKey := List.isChain_map _ |>.mpr hdev.keys
  have hread : (dev.peers.map (peerJob · [])).map readJob = dev.peers := by
    rw [List.map_map]
    exact List.map_id'' (fun _ => rfl) _
  have hchain : batches.flatten.IsChain
      fun j k => j.head.publicKey = k.head.publicKey → k.loads ≠ [] := by
    have h := @Covers.isChain_append_flatten _ _ _ _ (fun p q : WgPeer => p.publicKey ≠ q.publicKey)
      hcovers [] (hkeys.imp fun j k hne _ => hne)
    refine h.imp_of_mem_imp fun j k _ hk hne hkey => ?_
    obtain ⟨batch, hbatch, hk⟩ := List.mem_flatten.mp hk
    cases hkresumed : k.resumed with
    | true => exact hresumed batch hbatch k hk hkresumed
    | false => exact absurd hkey (hne hkresumed)
  have hcoalesce := hcovers.coalesce_flatten hkeys
  rw [coalescePeers]
  cases hflatten : batches.flatten with
  | nil =>
    rw [hflatten, coalesce] at hcoalesce
    rw [← hcoalesce] at hread
    show some { dev with peers := ([] : List (Job WgPeer WgAllowedip)).map readJob } = some dev
    rw [hread]
  | cons job rest =>
    rw [hflatten] at hchain hcoalesce
    rw [List.map_cons]
    dsimp only
    rw [coalesceFrom_map (fun h => ?_) hchain, hcoalesce, hread]
    · rfl
    · rw [allowedips_readJob] at h
      exact List.isEmpty_iff.mp h

/-- Once `ret` is `-EINTR` the device is freed after every attempt. -/
theorem wgGetDeviceFrom_eintr (attempts : List Attempt) (dev : WgDevice) :
    wgGetDeviceFrom e portid eintr attempts ≠ some (.device dev) := by
  induction attempts with
  | nil => exact fun h => by cases h
  | cons attempt attempts ih =>
    rw [wgGetDeviceFrom]
    split
    case h_1 errno _ _ =>
      dsimp only
      generalize (if errno = 0 then einval else errno) = ret
      split_ifs with hret
      · rw [hret]
        exact ih
      · exact fun h => by cases h
    case h_2 =>
      split
      · exact fun h => by cases h
      · rw [if_neg (by decide), if_pos rfl]
        exact ih

/-- After an attempt that was interrupted no device is returned, whatever the kernel writes. -/
theorem wgGetDevice_of_interrupted {attempt : Attempt}
    (h : (mnlgSocketRecvRun e attempt.seq portid (readDeviceCb e) attempt.errno attempt.datagrams
      WgDevice.zero).1 = .error eintr) (attempts : List Attempt) (dev : WgDevice) :
    wgGetDevice e portid (attempt :: attempts) ≠ some (.device dev) := by
  rcases hrun : mnlgSocketRecvRun e attempt.seq portid (readDeviceCb e) attempt.errno
    attempt.datagrams WgDevice.zero with ⟨ret, device⟩
  obtain rfl : ret = .error eintr := by simpa [hrun] using h
  rw [wgGetDevice, wgGetDeviceFrom, hrun]
  exact wgGetDeviceFrom_eintr attempts dev

def twoNets : WgPeer :=
  { WgPeer.zero with hasPublicKey := true, allowedips := [tenNet 1, tenNet 2] }

def twoNetsDevice : WgDevice := { WgDevice.zero with peers := [twoNets] }

def twoNetsPayload (first : Bool) (job : Job WgPeer WgAllowedip) : List Byte :=
  List.replicate 4 0 ++ (dumpAttrs .little twoNetsDevice first [job]).flatMap (Attr.bytes .little)

end RoundTrip

end WgDesktop.WireguardGet
