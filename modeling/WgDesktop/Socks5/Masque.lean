import WgDesktop.Lib.Records
import WgDesktop.Socks5.ProxyConnection
import WgDesktop.WebExt.Connection

/-!
# `MasqueConnection`

The capsules of `src/extension/socks5proxy/src/masqueconnection.cpp`: a type and a length of
variable width and the payload. The reader keeps a capsule that is not complete in its fields; a
length of zero is also how it knows that it has no capsule. `HasRead` is what it has of a stream
that arrives in any pieces, `destWrites_clientProxyRead` the datagrams that come out.
-/

namespace WgDesktop.Masque

open Bytes Records
open ProxyConnection (maxConnectionBuffer)

/-! ## The format -/

/-- The width of an integer, from its first two bits. -/
def varIntWidth (first : Byte) : ℕ := 2 ^ (first.toNat / 64)

/-- The value of the bytes of an integer, without the first two bits. -/
def varIntValue : List Byte → ℕ
  | [] => 0
  | first :: rest => rest.foldl (fun value x => 256 * value + x.toNat) (first.toNat % 64)

/-- An integer of variable width at the beginning of a stream, and its width. -/
def varInt : List Byte → Option (ℕ × ℕ)
  | [] => none
  | first :: rest =>
    if varIntWidth first ≤ (first :: rest).length then
      some (varIntValue ((first :: rest).take (varIntWidth first)), varIntWidth first)
    else none

theorem varIntWidth_pos (first : Byte) : 0 < varIntWidth first := Nat.two_pow_pos _

theorem varInt_eq_some {s : List Byte} {v w : ℕ} (h : varInt s = some (v, w)) :
    0 < w ∧ w ≤ s.length ∧ v = varIntValue (s.take w) := by
  cases s with
  | nil => cases h
  | cons first rest =>
    rw [varInt] at h
    split_ifs at h with hle
    rw [Option.some.injEq, Prod.mk.injEq] at h
    obtain ⟨rfl, rfl⟩ := h
    exact ⟨varIntWidth_pos first, hle, rfl⟩

theorem varInt_append {s : List Byte} {r : ℕ × ℕ} (h : varInt s = some r) (t : List Byte) :
    varInt (s ++ t) = some r := by
  cases s with
  | nil => cases h
  | cons first rest =>
    rw [varInt] at h
    split_ifs at h with hle
    rw [List.cons_append, varInt, ← List.cons_append, if_pos, List.take_append_of_le_length hle, h]
    rw [List.length_append]
    omega

theorem varInt_take {s : List Byte} {v w n : ℕ} (h : varInt s = some (v, w)) (hn : w ≤ n) :
    varInt (s.take n) = some (v, w) := by
  cases s with
  | nil => cases h
  | cons first rest =>
    obtain ⟨hpos, hlen, hv⟩ := varInt_eq_some h
    obtain ⟨n, rfl⟩ : ∃ m, n = m + 1 := ⟨n - 1, by omega⟩
    rw [varInt] at h
    split_ifs at h with hle
    rw [Option.some.injEq, Prod.mk.injEq] at h
    rw [List.take_succ_cons, varInt, ← List.take_succ_cons, if_pos, List.take_take, h.2,
      Nat.min_eq_left hn, ← hv]
    rw [List.length_take, h.2]
    omega

def capsuleHeader (s : List Byte) : Option (ℕ × ℕ × ℕ) :=
  (varInt s).bind fun type =>
    (varInt (s.drop type.2)).map fun len => (type.1, len.1, type.2 + len.2)

theorem capsuleHeader_eq_some {s : List Byte} {type len width : ℕ}
    (h : capsuleHeader s = some (type, len, width)) :
    ∃ w w', varInt s = some (type, w) ∧ varInt (s.drop w) = some (len, w') ∧ width = w + w' := by
  obtain ⟨⟨t, w⟩, htype, hrest⟩ := Option.bind_eq_some_iff.mp h
  obtain ⟨⟨l, w'⟩, hlen, heq⟩ := Option.map_eq_some_iff.mp hrest
  simp only [Prod.mk.injEq] at heq
  obtain ⟨rfl, rfl, rfl⟩ := heq
  exact ⟨w, w', htype, hlen, rfl⟩

/-- Capsules: the kind is the type. -/
def capsule : Format Byte ℕ where
  header := capsuleHeader
  width_pos h := by
    obtain ⟨w, w', htype, -, rfl⟩ := capsuleHeader_eq_some h
    have := (varInt_eq_some htype).1
    omega
  header_take := by
    intro s type len width h
    obtain ⟨w, w', htype, hlen, rfl⟩ := capsuleHeader_eq_some h
    obtain ⟨-, hle, -⟩ := varInt_eq_some htype
    obtain ⟨-, hle', -⟩ := varInt_eq_some hlen
    rw [List.length_drop] at hle'
    refine ⟨by omega, ?_⟩
    have hdrop : (s.take (w + w')).drop w = (s.drop w).take w' := by
      rw [List.drop_take, Nat.add_sub_cancel_left]
    rw [capsuleHeader, varInt_take htype (Nat.le_add_right _ _), Option.bind_some, hdrop,
      varInt_take hlen le_rfl]
    rfl
  header_append := by
    intro s r t h
    obtain ⟨type, len, width⟩ := r
    obtain ⟨w, w', htype, hlen, rfl⟩ := capsuleHeader_eq_some h
    have hle := (varInt_eq_some htype).2.1
    rw [capsuleHeader, varInt_append htype, Option.bind_some, List.drop_append_of_le_length hle,
      varInt_append hlen]
    rfl

def masqueCapsuleDatagram : ℕ := 0

/-- The payloads of the datagram capsules of a stream that fit the buffer. -/
def datagrams (capsules : List (ℕ × List Byte)) : List (List Byte) :=
  (capsules.filter fun c => c.1 = masqueCapsuleDatagram ∧ c.2.length ≤ maxConnectionBuffer).map
    Prod.snd

/-! ## The connection -/

/-- The device of the client, the fields of the class and the writes to the destination. -/
structure MasqueConnection where
  clientSocket : WebExt.Device := {}
  capsuleType : ℕ := 0
  capsuleLength : ℕ := 0
  capsuleBuffer : List Byte := []
  capsuleDrop : Bool := false
  destWrites : List (List Byte) := []

/-- The value of `readVarInt`, which masks the first byte of `buf`. -/
def valueOf (buf : List Byte) : ℕ :=
  (buf.modifyHead (· &&& 0x3f#8)).foldl (fun value x => 256 * value + x.toNat) 0

def readVarInt (d : WebExt.Device) : Option ℕ × WebExt.Device :=
  match d.unread.head? with
  | none => (none, d)
  | some first =>
    let len := 2 ^ (first.toNat >>> 6)
    let buf := d.read len
    if buf.1.length ≠ len then (none, buf.2) else (some (valueOf buf.1), buf.2)

/-- The type and the length of a capsule, in a transaction. -/
def readHeader (d : WebExt.Device) : Option (ℕ × ℕ) × WebExt.Device :=
  let type := readVarInt d.startTransaction
  match type.1 with
  | none => (none, type.2.rollbackTransaction)
  | some t =>
    let len := readVarInt type.2
    match len.1 with
    | none => (none, len.2.rollbackTransaction)
    | some n => (some (t, n), len.2.commitTransaction)

namespace MasqueConnection

def handleCapsule (c : MasqueConnection) (type : ℕ) (data : List Byte) : MasqueConnection :=
  if type = masqueCapsuleDatagram then { c with destWrites := c.destWrites ++ [data] } else c

/-- One turn of the loop of `clientProxyRead`, and whether it goes on. -/
def turn (c : MasqueConnection) : MasqueConnection × Bool :=
  if c.capsuleLength = 0 then
    let header := readHeader c.clientSocket
    match header.1 with
    | none => ({ c with clientSocket := header.2 }, false)
    | some (type, len) =>
      ({ c with
          clientSocket := header.2
          capsuleType := type
          capsuleLength := len
          capsuleBuffer := []
          capsuleDrop := decide (len > maxConnectionBuffer) }, true)
  else if c.capsuleDrop then
    -- `skip` is a read whose result is thrown away
    let skipped := c.clientSocket.read c.capsuleLength
    if skipped.1.isEmpty then (c, false)
    else
      ({ c with
          clientSocket := skipped.2
          capsuleLength := c.capsuleLength - skipped.1.length }, true)
  else if c.capsuleBuffer.length < c.capsuleLength then
    let chunk := c.clientSocket.read (c.capsuleLength - c.capsuleBuffer.length)
    if chunk.1.isEmpty then (c, false)
    else ({ c with clientSocket := chunk.2, capsuleBuffer := c.capsuleBuffer ++ chunk.1 }, true)
  else
    ({ c.handleCapsule c.capsuleType c.capsuleBuffer with
        capsuleType := 0
        capsuleLength := 0
        capsuleBuffer := [] }, true)

end MasqueConnection

/-! ## Reading an integer -/

theorem valueOf_eq (buf : List Byte) : valueOf buf = varIntValue buf := by
  cases buf with
  | nil => rfl
  | cons first rest =>
    have hmask : (first &&& 0x3f#8).toNat = first.toNat % 64 := by
      rw [BitVec.toNat_and]
      exact Nat.and_two_pow_sub_one_eq_mod first.toNat 6
    rw [valueOf, varIntValue, List.modifyHead_cons, List.foldl_cons, hmask, Nat.mul_zero,
      Nat.zero_add]

/-- Within a transaction the bytes stay in the device. -/
def InTransaction (data : List Byte) (d : WebExt.Device) : Prop :=
  d.data = data ∧ d.transaction.isSome = true

theorem inTransaction_start (d : WebExt.Device) : InTransaction d.data d.startTransaction := by
  unfold WebExt.Device.startTransaction
  cases htrans : d.transaction with
  | none => exact ⟨rfl, rfl⟩
  | some p => exact ⟨rfl, by rw [htrans]; rfl⟩

theorem InTransaction.read {data : List Byte} {d : WebExt.Device} (h : InTransaction data d)
    (n : ℕ) :
    InTransaction data (d.read n).2 := by
  obtain ⟨hdata, hopen⟩ := h
  obtain ⟨p, hp⟩ := Option.isSome_iff_exists.mp hopen
  unfold WebExt.Device.read
  rw [hp]
  exact ⟨hdata, rfl⟩

theorem InTransaction.rollback {data : List Byte} {d : WebExt.Device} (h : InTransaction data d) :
    d.rollbackTransaction = { data := data } := by
  rw [WebExt.Device.rollbackTransaction, h.1]

theorem readVarInt_snd {data : List Byte} {d : WebExt.Device} (h : InTransaction data d) :
    InTransaction data (readVarInt d).2 := by
  unfold readVarInt
  split
  case h_1 => exact h
  case h_2 first hfirst =>
    dsimp only
    split_ifs
    · exact h.read _
    · exact h.read _

theorem readVarInt_spec (d : WebExt.Device) :
    (readVarInt d).1 = (varInt d.unread).map Prod.fst ∧
      ∀ v w, varInt d.unread = some (v, w) → (readVarInt d).2.unread = d.unread.drop w := by
  unfold readVarInt
  cases hunread : d.unread with
  | nil => exact ⟨rfl, fun v w h => by cases h⟩
  | cons first rest =>
    have hwidth : 2 ^ (first.toNat >>> 6) = varIntWidth first := by
      rw [varIntWidth, Nat.shiftRight_eq_div_pow]
    have hread : (d.read (varIntWidth first)).1 = (first :: rest).take (varIntWidth first) := by
      rw [WebExt.Device.read_fst, hunread]
    dsimp only [List.head?_cons]
    rw [hwidth, varInt, hread, List.length_take]
    by_cases hle : varIntWidth first ≤ (first :: rest).length
    · rw [if_pos hle, if_neg (by omega)]
      refine ⟨by rw [valueOf_eq]; rfl, fun v w h => ?_⟩
      rw [Option.some.injEq, Prod.mk.injEq] at h
      rw [WebExt.Device.unread_read, hunread, h.2]
    · rw [if_neg hle, if_pos (by omega)]
      exact ⟨rfl, fun v w h => by cases h⟩

/-- A header that is not complete leaves the device as it was. -/
theorem readHeader_of_none {d : WebExt.Device} (hd : d.transaction = none)
    (h : capsuleHeader d.data = none) : readHeader d = (none, d) := by
  have hunread : d.startTransaction.unread = d.data := by
    rw [WebExt.Device.unread_startTransaction, WebExt.Device.unread, WebExt.Device.pos, hd]
    rfl
  have hsame : d = { data := d.data } := by rw [← hd]
  have htrans := readVarInt_snd (inTransaction_start d)
  obtain ⟨hfst, hsnd⟩ := readVarInt_spec d.startTransaction
  rw [hunread] at hfst hsnd
  unfold readHeader
  dsimp only
  cases htype : varInt d.data with
  | none =>
    rw [hfst, htype, Option.map_none]
    dsimp only
    rw [htrans.rollback, ← hsame]
  | some type =>
    obtain ⟨t, w⟩ := type
    have hlen : varInt (d.data.drop w) = none := by
      rw [capsuleHeader, htype, Option.bind_some, Option.map_eq_none_iff] at h
      exact h
    obtain ⟨hfst', -⟩ := readVarInt_spec (readVarInt d.startTransaction).2
    rw [hsnd t w htype, hlen] at hfst'
    rw [hfst, htype, Option.map_some]
    dsimp only
    rw [hfst', Option.map_none]
    dsimp only
    rw [(readVarInt_snd htrans).rollback, ← hsame]

theorem readHeader_of_some {d : WebExt.Device} (hd : d.transaction = none) {type len width : ℕ}
    (h : capsuleHeader d.data = some (type, len, width)) :
    readHeader d = (some (type, len), { data := d.data.drop width }) := by
  have hunread : d.startTransaction.unread = d.data := by
    rw [WebExt.Device.unread_startTransaction, WebExt.Device.unread, WebExt.Device.pos, hd]
    rfl
  obtain ⟨w, w', htype, hlen, rfl⟩ := capsuleHeader_eq_some h
  obtain ⟨hfst, hsnd⟩ := readVarInt_spec d.startTransaction
  rw [hunread] at hfst hsnd
  obtain ⟨hfst', hsnd'⟩ := readVarInt_spec (readVarInt d.startTransaction).2
  rw [hsnd type w htype] at hfst' hsnd'
  unfold readHeader
  dsimp only
  rw [hfst, htype, Option.map_some]
  dsimp only
  rw [hfst', hlen, Option.map_some]
  dsimp only
  rw [WebExt.Device.commitTransaction, hsnd' len w' hlen, List.drop_drop]

/-! ## The loop -/

namespace MasqueConnection

/-- What the loop works off: the bytes of the device, and a capsule that may be complete. -/
def size (c : MasqueConnection) : ℕ :=
  2 * c.clientSocket.unread.length + if c.capsuleLength = 0 then 0 else 1

theorem readVarInt_length {d : WebExt.Device} {v : ℕ} (h : (readVarInt d).1 = some v) :
    (readVarInt d).2.unread.length < d.unread.length := by
  obtain ⟨hfst, hsnd⟩ := readVarInt_spec d
  rw [h] at hfst
  obtain ⟨⟨v', w⟩, hvar, -⟩ := Option.map_eq_some_iff.mp hfst.symm
  obtain ⟨hpos, hle, -⟩ := varInt_eq_some hvar
  rw [hsnd v' w hvar, List.length_drop]
  omega

theorem readHeader_length {d : WebExt.Device} {header : ℕ × ℕ}
    (h : (readHeader d).1 = some header) :
    (readHeader d).2.unread.length < d.unread.length := by
  unfold readHeader at h ⊢
  dsimp only at h ⊢
  split at h
  case h_1 => cases h
  case h_2 type htype =>
    split at h
    case h_1 => cases h
    case h_2 len hlen =>
      have htype' := readVarInt_length htype
      have hlen' := readVarInt_length hlen
      rw [WebExt.Device.unread_startTransaction] at htype'
      rw [WebExt.Device.unread_commitTransaction]
      omega

theorem length_unread_read {d : WebExt.Device} {n : ℕ} (h : (d.read n).1.isEmpty = false) :
    (d.read n).2.unread.length < d.unread.length := by
  have hpos : 0 < (d.read n).1.length :=
    List.length_pos_iff.mpr fun hnil => by rw [hnil] at h; cases h
  rw [WebExt.Device.read_fst, List.length_take] at hpos
  rw [WebExt.Device.unread_read, List.length_drop]
  omega

section Turn

variable {c : MasqueConnection}

theorem turn_of_none (hlen : c.capsuleLength = 0) (hheader : (readHeader c.clientSocket).1 = none) :
    c.turn = ({ c with clientSocket := (readHeader c.clientSocket).2 }, false) := by
  unfold turn
  rw [if_pos hlen]
  dsimp only
  rw [hheader]

theorem turn_of_header (hlen : c.capsuleLength = 0) {type len : ℕ}
    (hheader : (readHeader c.clientSocket).1 = some (type, len)) :
    c.turn =
      ({ c with
          clientSocket := (readHeader c.clientSocket).2
          capsuleType := type
          capsuleLength := len
          capsuleBuffer := []
          capsuleDrop := decide (len > maxConnectionBuffer) }, true) := by
  unfold turn
  rw [if_pos hlen]
  dsimp only
  rw [hheader]

theorem turn_dropping (hlen : c.capsuleLength ≠ 0) (hdrop : c.capsuleDrop = true) :
    c.turn =
      if (c.clientSocket.read c.capsuleLength).1.isEmpty then (c, false)
      else
        ({ c with
            clientSocket := (c.clientSocket.read c.capsuleLength).2
            capsuleLength :=
              c.capsuleLength - (c.clientSocket.read c.capsuleLength).1.length }, true) := by
  unfold turn
  rw [if_neg hlen, if_pos hdrop]

theorem turn_reading (hlen : c.capsuleLength ≠ 0) (hdrop : c.capsuleDrop = false)
    (hshort : c.capsuleBuffer.length < c.capsuleLength) :
    c.turn =
      if (c.clientSocket.read (c.capsuleLength - c.capsuleBuffer.length)).1.isEmpty then (c, false)
      else
        ({ c with
            clientSocket := (c.clientSocket.read (c.capsuleLength - c.capsuleBuffer.length)).2
            capsuleBuffer := c.capsuleBuffer ++
              (c.clientSocket.read (c.capsuleLength - c.capsuleBuffer.length)).1 }, true) := by
  unfold turn
  rw [if_neg hlen, if_neg (by rw [hdrop]; exact Bool.false_ne_true), if_pos hshort]

theorem turn_handling (hlen : c.capsuleLength ≠ 0) (hdrop : c.capsuleDrop = false)
    (hshort : ¬c.capsuleBuffer.length < c.capsuleLength) :
    c.turn =
      ({ c.handleCapsule c.capsuleType c.capsuleBuffer with
          capsuleType := 0
          capsuleLength := 0
          capsuleBuffer := [] }, true) := by
  unfold turn
  rw [if_neg hlen, if_neg (by rw [hdrop]; exact Bool.false_ne_true), if_neg hshort]

@[simp] theorem clientSocket_handleCapsule (type : ℕ) (data : List Byte) :
    (c.handleCapsule type data).clientSocket = c.clientSocket := by
  unfold handleCapsule
  split <;> rfl

theorem size_turn_lt (h : c.turn.2 = true) : c.turn.1.size < c.size := by
  by_cases hlen : c.capsuleLength = 0
  · cases hheader : (readHeader c.clientSocket).1 with
    | none =>
      rw [turn_of_none hlen hheader] at h
      cases h
    | some header =>
      have hlt := readHeader_length hheader
      rw [turn_of_header hlen hheader]
      simp only [size, if_pos hlen]
      split <;> omega
  cases hdrop : c.capsuleDrop with
  | true =>
    rw [turn_dropping hlen hdrop] at h ⊢
    cases hread : (c.clientSocket.read c.capsuleLength).1.isEmpty with
    | true =>
      rw [hread] at h
      cases h
    | false =>
      have hlt := length_unread_read hread
      simp only [size, if_neg hlen, Bool.false_eq_true, if_false]
      split <;> omega
  | false =>
    by_cases hshort : c.capsuleBuffer.length < c.capsuleLength
    · rw [turn_reading hlen hdrop hshort] at h ⊢
      cases hread :
          (c.clientSocket.read (c.capsuleLength - c.capsuleBuffer.length)).1.isEmpty with
      | true =>
        rw [hread] at h
        cases h
      | false =>
        have hlt := length_unread_read hread
        simp only [size, if_neg hlen, Bool.false_eq_true, if_false]
        omega
    · rw [turn_handling hlen hdrop hshort]
      simp only [size, if_neg hlen, if_true, clientSocket_handleCapsule]
      omega

end Turn

def clientProxyRead (c : MasqueConnection) : MasqueConnection :=
  if _h : c.turn.2 = true then clientProxyRead c.turn.1 else c.turn.1
termination_by c.size
decreasing_by exact size_turn_lt _h

/-- Bytes of the client arrive. -/
def readyRead (c : MasqueConnection) (input : List Byte) : MasqueConnection :=
  clientProxyRead
    { c with clientSocket := { c.clientSocket with data := c.clientSocket.data ++ input } }

/-! ## What it has of a stream -/

/-- What a reader handles of the capsules of a stream: the datagrams that are not empty. -/
def handled (capsules : List (ℕ × List Byte)) : List (List Byte) :=
  (datagrams capsules).filter fun payload => !payload.isEmpty

theorem handled_concat (capsules : List (ℕ × List Byte)) (type : ℕ) (payload : List Byte) :
    handled (capsules ++ [(type, payload)]) =
      handled capsules ++ if type = masqueCapsuleDatagram ∧ payload.length ≤ maxConnectionBuffer ∧
        payload ≠ [] then [payload] else [] := by
  rw [handled, datagrams, List.filter_append, List.map_append, List.filter_append]
  congr 1
  by_cases hfits : type = masqueCapsuleDatagram ∧ payload.length ≤ maxConnectionBuffer
  · rw [List.filter_cons_of_pos (by simpa using hfits), List.filter_nil, List.map_singleton]
    cases payload with
    | nil => simp
    | cons x payload => rw [if_pos ⟨hfits.1, hfits.2, List.cons_ne_nil x payload⟩]; rfl
  · rw [List.filter_cons_of_neg (by simpa using hfits), if_neg fun h => hfits ⟨h.1, h.2.1⟩]
    rfl

/-- The reader holds the bytes `s`: none of a capsule, or the header of one and, until it is
complete, what has arrived of it. Of a capsule that is too large, the fields do not hold that. -/
inductive Holds (c : MasqueConnection) : List Byte → Prop
  | between (hlen : c.capsuleLength = 0) : Holds c c.clientSocket.data
  | within {h : List Byte} (hlen : c.capsuleLength ≠ 0) (hdrop : c.capsuleDrop = false)
      (hheader : capsuleHeader h = some (c.capsuleType, c.capsuleLength, h.length))
      (hfits : c.capsuleLength ≤ maxConnectionBuffer)
      (hbuffer : c.capsuleBuffer.length ≤ c.capsuleLength) :
      Holds c (h ++ (c.capsuleBuffer ++ c.clientSocket.data))
  | dropping {h skipped : List Byte} {type len : ℕ} (hlen : c.capsuleLength ≠ 0)
      (hdrop : c.capsuleDrop = true) (hheader : capsuleHeader h = some (type, len, h.length))
      (hlarge : maxConnectionBuffer < len) (hskipped : skipped.length + c.capsuleLength = len) :
      Holds c (h ++ (skipped ++ c.clientSocket.data))

/-- The reader has handled capsules of `a`, and can go on. -/
structure HasRead (a : List Byte) (c : MasqueConnection) : Prop where
  transaction : c.clientSocket.transaction = none
  left : ∃ done s, c.destWrites = handled done ∧ Left capsule a done s ∧ Holds c s

theorem hasRead_init : HasRead [] {} := ⟨rfl, [], [], rfl, Left.refl, .between rfl⟩

variable {a : List Byte} {c : MasqueConnection}

theorem HasRead.arrive (h : HasRead a c) (input : List Byte) :
    HasRead (a ++ input)
      { c with clientSocket := { c.clientSocket with data := c.clientSocket.data ++ input } } := by
  obtain ⟨htrans, done, s, hwrites, hleft, hholds⟩ := h
  refine ⟨htrans, done, s ++ input, hwrites, hleft.arrive input, ?_⟩
  cases hholds with
  | between hlen => exact .between hlen
  | within hlen hdrop hheader hfits hbuffer =>
    rw [List.append_assoc, List.append_assoc]
    exact .within hlen hdrop hheader hfits hbuffer
  | dropping hlen hdrop hheader hlarge hskipped =>
    rw [List.append_assoc, List.append_assoc]
    exact .dropping hlen hdrop hheader hlarge hskipped

/-- The rest of a capsule of which not all has arrived has no complete capsule. -/
theorem destWrites_of_left {done : List (ℕ × List Byte)} {s : List Byte}
    (hwrites : c.destWrites = handled done) (hleft : Left capsule a done s)
    (hnone : records capsule s = []) : c.destWrites = handled (records capsule a) := by
  rw [hleft.records_eq, hnone, List.append_nil, hwrites]

theorem read_of_none {d : WebExt.Device} (hd : d.transaction = none) (n : ℕ) :
    d.read n = (d.data.take n, { data := d.data.drop n }) := by
  unfold WebExt.Device.read
  rw [hd]

theorem HasRead.turn_between (h : HasRead a c) (hlen : c.capsuleLength = 0) :
    HasRead a c.turn.1 ∧
      (c.turn.2 = false → c.turn.1.destWrites = handled (records capsule a)) := by
  obtain ⟨htrans, done, s, hwrites, hleft, hholds⟩ := h
  obtain rfl : s = c.clientSocket.data := by
    cases hholds with
    | between => rfl
    | within hne => exact absurd hlen hne
    | dropping hne => exact absurd hlen hne
  cases hheader : capsuleHeader c.clientSocket.data with
  | none =>
    have hread := readHeader_of_none htrans hheader
    rw [turn_of_none hlen (by rw [hread]), hread]
    exact ⟨⟨htrans, done, _, hwrites, hleft, .between hlen⟩, fun _ =>
      destWrites_of_left hwrites hleft (records_of_none hheader)⟩
  | some header =>
    obtain ⟨type, len, width⟩ := header
    have hread := readHeader_of_some htrans hheader
    have htake : capsuleHeader (c.clientSocket.data.take width) =
        some (type, len, (c.clientSocket.data.take width).length) := capsule.header_eq hheader
    rw [turn_of_header hlen (by rw [hread]), hread]
    refine ⟨⟨rfl, ?_⟩, fun hstop => by cases hstop⟩
    rw [← List.take_append_drop width c.clientSocket.data] at hleft
    by_cases hzero : len = 0
    · -- nothing tells this capsule from none at all
      subst hzero
      have hrecord := @Left.record _ _ _ type _ [] _ _ _ hleft htake
      refine ⟨done ++ [(type, [])], _, ?_, hrecord, .between rfl⟩
      rw [handled_concat, if_neg (fun h => h.2.2 rfl), List.append_nil]
      exact hwrites
    by_cases hlarge : maxConnectionBuffer < len
    · refine ⟨done, _, hwrites, hleft, ?_⟩
      exact @Holds.dropping _ _ [] type len hzero (decide_eq_true hlarge) htake hlarge
        (Nat.zero_add len)
    · refine ⟨done, _, hwrites, hleft, ?_⟩
      exact Holds.within hzero (decide_eq_false hlarge) htake (not_lt.mp hlarge) (Nat.zero_le len)

theorem HasRead.within (h : HasRead a c) (hlen : c.capsuleLength ≠ 0)
    (hdrop : c.capsuleDrop = false) :
    c.clientSocket.transaction = none ∧ ∃ done header, c.destWrites = handled done ∧
      Left capsule a done (header ++ (c.capsuleBuffer ++ c.clientSocket.data)) ∧
      capsuleHeader header = some (c.capsuleType, c.capsuleLength, header.length) ∧
      c.capsuleLength ≤ maxConnectionBuffer ∧ c.capsuleBuffer.length ≤ c.capsuleLength := by
  obtain ⟨htrans, done, s, hwrites, hleft, hholds⟩ := h
  cases hholds with
  | between hzero => exact absurd hzero hlen
  | dropping _ hdrop' =>
    rw [hdrop] at hdrop'
    cases hdrop'
  | @within header _ _ hheader hfits hbuffer =>
    exact ⟨htrans, done, header, hwrites, hleft, hheader, hfits, hbuffer⟩

theorem HasRead.turn_reading (h : HasRead a c) (hlen : c.capsuleLength ≠ 0)
    (hdrop : c.capsuleDrop = false) (hshort : c.capsuleBuffer.length < c.capsuleLength) :
    HasRead a c.turn.1 ∧
      (c.turn.2 = false → c.turn.1.destWrites = handled (records capsule a)) := by
  obtain ⟨htrans, done, header, hwrites, hleft, hheader, hfits, hbuffer⟩ := h.within hlen hdrop
  rw [MasqueConnection.turn_reading hlen hdrop hshort, read_of_none htrans]
  dsimp only
  cases hempty :
      (c.clientSocket.data.take (c.capsuleLength - c.capsuleBuffer.length)).isEmpty with
  | true =>
    have hdata : c.clientSocket.data = [] := by
      rw [List.isEmpty_iff, List.take_eq_nil_iff] at hempty
      exact hempty.resolve_left (by omega)
    refine ⟨⟨htrans, done, _, hwrites, hleft, .within hlen hdrop hheader hfits hbuffer⟩,
      fun _ => destWrites_of_left hwrites hleft ?_⟩
    rw [hdata, List.append_nil]
    exact records_of_incomplete hheader hshort
  | false =>
    rw [if_neg Bool.false_ne_true]
    refine ⟨⟨rfl, done, _, hwrites, ?_, .within hlen hdrop hheader hfits ?_⟩, fun hstop => by
      cases hstop⟩
    · show Left capsule a done (header ++ (c.capsuleBuffer ++ _ ++ _))
      rw [List.append_assoc c.capsuleBuffer, List.take_append_drop]
      exact hleft
    · show (c.capsuleBuffer ++ _).length ≤ c.capsuleLength
      rw [List.length_append, List.length_take]
      omega

theorem HasRead.turn_handling (h : HasRead a c) (hlen : c.capsuleLength ≠ 0)
    (hdrop : c.capsuleDrop = false) (hfull : ¬c.capsuleBuffer.length < c.capsuleLength) :
    HasRead a c.turn.1 ∧
      (c.turn.2 = false → c.turn.1.destWrites = handled (records capsule a)) := by
  obtain ⟨htrans, done, header, hwrites, hleft, hheader, hfits, hbuffer⟩ := h.within hlen hdrop
  rw [MasqueConnection.turn_handling hlen hdrop hfull]
  have hlength : c.capsuleBuffer.length = c.capsuleLength := by omega
  have hne : c.capsuleBuffer ≠ [] := by
    rintro hnil
    rw [hnil] at hlength
    exact hlen hlength.symm
  rw [← hlength] at hheader hfits
  refine ⟨⟨?_, done ++ [(c.capsuleType, c.capsuleBuffer)], c.clientSocket.data, ?_,
    hleft.record hheader, ?_⟩, fun hstop => by cases hstop⟩
  · show (c.handleCapsule c.capsuleType c.capsuleBuffer).clientSocket.transaction = none
    rw [clientSocket_handleCapsule, htrans]
  · show (c.handleCapsule c.capsuleType c.capsuleBuffer).destWrites = _
    rw [handled_concat, handleCapsule]
    by_cases htype : c.capsuleType = masqueCapsuleDatagram
    · rw [if_pos htype, if_pos ⟨htype, hfits, hne⟩, ← hwrites]
    · rw [if_neg htype, if_neg fun h => htype h.1, List.append_nil, hwrites]
  · have hbetween := Holds.between (c := { c.handleCapsule c.capsuleType c.capsuleBuffer with
        capsuleType := 0
        capsuleLength := 0
        capsuleBuffer := [] }) rfl
    rwa [show _ = c.clientSocket.data from congrArg WebExt.Device.data
      (clientSocket_handleCapsule c.capsuleType c.capsuleBuffer)] at hbetween

theorem HasRead.turn_dropping (h : HasRead a c) (hlen : c.capsuleLength ≠ 0)
    (hdrop : c.capsuleDrop = true) :
    HasRead a c.turn.1 ∧
      (c.turn.2 = false → c.turn.1.destWrites = handled (records capsule a)) := by
  obtain ⟨htrans, done, s, hwrites, hleft, hholds⟩ := h
  cases hholds with
  | between hzero => exact absurd hzero hlen
  | within _ hdrop' =>
    rw [hdrop] at hdrop'
    cases hdrop'
  | @dropping h skipped type len _ _ hheader hlarge hskipped =>
    rw [MasqueConnection.turn_dropping hlen hdrop, read_of_none htrans]
    dsimp only
    cases hempty : (c.clientSocket.data.take c.capsuleLength).isEmpty with
    | true =>
      have hdata : c.clientSocket.data = [] := by
        rw [List.isEmpty_iff, List.take_eq_nil_iff] at hempty
        exact hempty.resolve_left hlen
      refine ⟨⟨htrans, done, _, hwrites, hleft, .dropping hlen hdrop hheader hlarge hskipped⟩,
        fun _ => destWrites_of_left hwrites hleft ?_⟩
      rw [hdata, List.append_nil]
      exact records_of_incomplete hheader (by omega)
    | false =>
      have htake : (c.clientSocket.data.take c.capsuleLength).length ≤ c.capsuleLength :=
        List.length_take_le _ _
      rw [← List.take_append_drop c.capsuleLength c.clientSocket.data,
        ← List.append_assoc skipped] at hleft
      refine ⟨⟨rfl, ?_⟩, fun hstop => by cases hstop⟩
      by_cases hdone : c.capsuleLength - (c.clientSocket.data.take c.capsuleLength).length = 0
      · have hbody : (skipped ++ c.clientSocket.data.take c.capsuleLength).length = len := by
          rw [List.length_append]
          omega
        have hnot : ¬(type = masqueCapsuleDatagram ∧
            (skipped ++ c.clientSocket.data.take c.capsuleLength).length ≤ maxConnectionBuffer ∧
            skipped ++ c.clientSocket.data.take c.capsuleLength ≠ []) := by
          rintro ⟨-, hle, -⟩
          omega
        rw [← hbody] at hheader
        refine ⟨done ++ [(type, skipped ++ c.clientSocket.data.take c.capsuleLength)], _, ?_,
          hleft.record hheader, .between hdone⟩
        rw [handled_concat, if_neg hnot, List.append_nil]
        exact hwrites
      · refine ⟨done, _, hwrites, hleft, .dropping hdone hdrop hheader hlarge ?_⟩
        show (skipped ++ _).length + (c.capsuleLength - _) = len
        rw [List.length_append]
        omega

/-- One turn: the loop goes on with what it has, or what is left has no complete capsule. -/
theorem HasRead.turn (h : HasRead a c) :
    HasRead a c.turn.1 ∧
      (c.turn.2 = false → c.turn.1.destWrites = handled (records capsule a)) := by
  by_cases hlen : c.capsuleLength = 0
  · exact h.turn_between hlen
  · cases hdrop : c.capsuleDrop with
    | false =>
      by_cases hshort : c.capsuleBuffer.length < c.capsuleLength
      · exact h.turn_reading hlen hdrop hshort
      · exact h.turn_handling hlen hdrop hshort
    | true => exact h.turn_dropping hlen hdrop

theorem HasRead.clientProxyRead (h : HasRead a c) :
    HasRead a c.clientProxyRead ∧ c.clientProxyRead.destWrites = handled (records capsule a) := by
  fun_induction MasqueConnection.clientProxyRead c with
  | case1 c hgo ih => exact ih h.turn.1
  | case2 c hstop => exact ⟨h.turn.1, h.turn.2 (Bool.eq_false_iff.mpr hstop)⟩

/-- The reader after a stream that has arrived in pieces. -/
def run (segments : List (List Byte)) : MasqueConnection := segments.foldl readyRead {}

theorem hasRead_run (segments : List (List Byte)) :
    HasRead segments.flatten (run segments) ∧
      (run segments).destWrites = handled (records capsule segments.flatten) := by
  induction segments using List.reverseRecOn with
  | nil => exact ⟨hasRead_init, by rw [List.flatten_nil, records_of_none rfl]; rfl⟩
  | append_singleton segments input ih =>
    rw [run, List.foldl_append, List.flatten_append, List.flatten_singleton]
    exact (ih.1.arrive input).clientProxyRead

/-- The datagrams that come out are those of the stream, unless one of them is empty. -/
theorem destWrites_run_iff (segments : List (List Byte)) :
    (run segments).destWrites = datagrams (records capsule segments.flatten) ↔
      (masqueCapsuleDatagram, []) ∉ records capsule segments.flatten := by
  rw [(hasRead_run segments).2, handled, List.filter_eq_self]
  simp only [datagrams, List.mem_map, List.mem_filter, decide_eq_true_eq, Prod.exists]
  constructor
  · intro h hmem
    exact absurd (h [] ⟨_, _, ⟨hmem, rfl, Nat.zero_le _⟩, rfl⟩) (by decide)
  · rintro h payload ⟨type, payload', ⟨hmem, htype, -⟩, heq⟩
    cases payload with
    | nil =>
      rw [htype, heq] at hmem
      exact absurd hmem h
    | cons x payload => rfl

end MasqueConnection

/-! ## Writing -/

def putVarInt (value : ℕ) : List Byte :=
  if value >>> 6 = 0 then [.ofNat 8 value]
  else if value >>> 14 = 0 then toBytes (BitVec.ofNat 16 (value ||| 1 <<< 14))
  else if value >>> 30 = 0 then toBytes (BitVec.ofNat 32 (value ||| 2 <<< 30))
  else toBytes (BitVec.ofNat 64 (value ||| 3 <<< 62))

/-- What `destProxyRead` writes to the client for the datagrams that wait, when `bytesToWrite` bytes
are to be written already: a datagram that would overflow the buffer is dropped. -/
def destProxyRead : ℕ → List (List Byte) → List Byte
  | _, [] => []
  | bytesToWrite, data :: dgrams =>
    let capsule := putVarInt masqueCapsuleDatagram ++ putVarInt data.length
    if (data.length + capsule.length : ℤ) > maxConnectionBuffer - bytesToWrite then
      destProxyRead bytesToWrite dgrams
    else capsule ++ (data ++ destProxyRead (bytesToWrite + capsule.length + data.length) dgrams)

theorem varInt_cons_append {first : Byte} {rest : List Byte}
    (hwidth : varIntWidth first = rest.length + 1) (t : List Byte) :
    varInt (first :: rest ++ t) = some (varIntValue (first :: rest), rest.length + 1) := by
  have hlen : (first :: rest).length = rest.length + 1 := rfl
  rw [List.cons_append, varInt, ← List.cons_append, hwidth, if_pos, ← hlen, List.take_left]
  rw [List.length_append, hlen]
  omega

/-- Reading on from a number that was cut off cuts off the result. -/
theorem foldl_mod (rest : List Byte) (a m : ℕ) :
    rest.foldl (fun value x => 256 * value + x.toNat) (a % m) =
      rest.foldl (fun value x => 256 * value + x.toNat) a % (m * 256 ^ rest.length) := by
  induction rest generalizing a m with
  | nil => rw [List.length_nil, pow_zero, mul_one, List.foldl_nil, List.foldl_nil]
  | cons x rest ih =>
    have hcut : 256 * (a % m) + x.toNat = (256 * a + x.toNat) % (256 * m) := by
      rw [Nat.mod_mul, Nat.mul_add_mod, Nat.mul_add_div (by decide),
        Nat.div_eq_of_lt x.isLt, Nat.mod_eq_of_lt x.isLt, Nat.add_zero, Nat.add_comm]
    rw [List.foldl_cons, List.foldl_cons, hcut, ih, List.length_cons, pow_succ,
      Nat.mul_comm 256 m, Nat.mul_assoc, Nat.mul_comm (256 ^ rest.length)]

theorem varInt_toBytes {n tag value : ℕ} (hwidth : 2 ^ tag = n + 1) (htag : tag < 4)
    (h : value < 2 ^ (8 * n + 6)) (t : List Byte) :
    varInt (toBytes (BitVec.ofNat (8 * (n + 1)) (value ||| tag <<< (8 * n + 6))) ++ t) =
      some (value, n + 1) := by
  have hor : value ||| tag <<< (8 * n + 6) = 2 ^ (8 * n + 6) * tag + value := by
    rw [Nat.shiftLeft_eq, Nat.mul_comm tag, Nat.or_comm, Nat.two_pow_add_eq_or_of_lt h]
  have hpow : 2 ^ (8 * (n + 1)) = 2 ^ (8 * n + 6) * 4 := by
    rw [show 8 * (n + 1) = 8 * n + 6 + 2 by omega, Nat.pow_add]
  rw [hor]
  generalize hx : BitVec.ofNat (8 * (n + 1)) (2 ^ (8 * n + 6) * tag + value) = x
  have hnat : x.toNat = 2 ^ (8 * n + 6) * tag + value := by
    rw [← hx, BitVec.toNat_ofNat, hpow]
    apply Nat.mod_eq_of_lt
    calc 2 ^ (8 * n + 6) * tag + value < 2 ^ (8 * n + 6) * (tag + 1) := by
          rw [Nat.mul_add_one]
          exact Nat.add_lt_add_left h _
      _ ≤ 2 ^ (8 * n + 6) * 4 := Nat.mul_le_mul_left _ htag
  have hlen : (toBytes x).length = n + 1 := by
    rw [length_toBytes, Nat.mul_div_cancel_left _ (by decide)]
  have hall := @foldl_toNat_take_toBytes _ x (n + 1) (le_refl _)
  have hhead := @foldl_toNat_take_toBytes _ x 1 (by omega)
  rw [List.take_of_length_le hlen.le, Nat.sub_self, pow_zero, Nat.div_one] at hall
  obtain ⟨first, rest, hbytes⟩ : ∃ first rest, toBytes x = first :: rest :=
    List.exists_cons_of_length_eq_add_one hlen
  rw [hbytes, List.length_cons, Nat.add_right_cancel_iff] at hlen
  rw [hbytes, List.foldl_cons, Nat.mul_zero, Nat.zero_add] at hall
  rw [hbytes, List.take_succ_cons, List.take_zero, List.foldl_cons, List.foldl_nil, Nat.mul_zero,
    Nat.zero_add, show 8 * (n + 1) - 8 * 1 = 8 * n by omega] at hhead
  have hfirst : varIntWidth first = rest.length + 1 := by
    rw [varIntWidth, hhead, Nat.div_div_eq_div_mul, show 2 ^ (8 * n) * 64 = 2 ^ (8 * n + 6) from
      (Nat.pow_add 2 (8 * n) 6).symm, hnat, Nat.mul_add_div (Nat.two_pow_pos _),
      Nat.div_eq_of_lt h, Nat.add_zero, hwidth, hlen]
  have hvalue : varIntValue (first :: rest) = value := by
    rw [varIntValue, foldl_mod, hall, hlen, hnat, show 64 * 256 ^ n = 2 ^ (8 * n + 6) by
      rw [Nat.add_comm, Nat.pow_add, Nat.pow_mul], Nat.mul_add_mod, Nat.mod_eq_of_lt h]
  rw [hbytes, varInt_cons_append hfirst, hvalue, hlen]

theorem varInt_putVarInt {value : ℕ} (h : value < 2 ^ 62) (t : List Byte) :
    varInt (putVarInt value ++ t) = some (value, (putVarInt value).length) := by
  simp only [putVarInt, Nat.shiftRight_eq_div_pow]
  split_ifs with h6 h14 h30
  · have hfirst : (BitVec.ofNat 8 value).toNat = value := by
      rw [BitVec.toNat_ofNat]
      omega
    rw [varInt_cons_append (by rw [varIntWidth, hfirst, h6]; rfl)]
    have hvalue : varIntValue [BitVec.ofNat 8 value] = value := by
      simp only [varIntValue, List.foldl_nil, hfirst]
      omega
    rw [hvalue]
    rfl
  · exact @varInt_toBytes 1 1 value rfl (by decide) (by omega) t
  · exact @varInt_toBytes 3 2 value rfl (by decide) (by omega) t
  · exact @varInt_toBytes 7 3 value rfl (by decide) h t

theorem varInt_lt {s : List Byte} {value width : ℕ} (h : varInt s = some (value, width)) :
    ∃ tag < 4, width = 2 ^ tag ∧ value < 2 ^ (8 * 2 ^ tag - 2) := by
  cases s with
  | nil => cases h
  | cons first rest =>
    have hvalue := (varInt_eq_some h).2.2
    rw [varInt] at h
    split_ifs at h with hle
    rw [Option.some.injEq, Prod.mk.injEq] at h
    have htag : first.toNat / 64 < 4 := by omega
    refine ⟨first.toNat / 64, htag, h.2.symm, ?_⟩
    obtain ⟨n, hn⟩ : ∃ n, width = n + 1 := ⟨width - 1, by
      have := varIntWidth_pos first
      omega⟩
    have hlen : (rest.take n).length = n := by
      rw [List.length_take, List.length_cons] at *
      omega
    rw [hn, List.take_succ_cons, varIntValue, foldl_mod, hlen] at hvalue
    have hpow : 2 ^ (8 * 2 ^ (first.toNat / 64) - 2) = 64 * 256 ^ n := by
      rw [show 2 ^ (first.toNat / 64) = n + 1 from h.2.trans hn,
        show 8 * (n + 1) - 2 = 6 + 8 * n by omega, Nat.pow_add, Nat.pow_mul]
    rw [hvalue, hpow]
    exact Nat.mod_lt _ (by positivity)

theorem length_putVarInt_le {value tag : ℕ} (htag : tag < 4)
    (h : value < 2 ^ (8 * 2 ^ tag - 2)) : (putVarInt value).length ≤ 2 ^ tag := by
  have hwide : ∀ k ≤ tag, 2 ^ k ≤ 2 ^ tag := fun k hk => Nat.pow_le_pow_right (by decide) hk
  simp only [putVarInt, Nat.shiftRight_eq_div_pow]
  split_ifs with h6 h14 h30
  · exact Nat.two_pow_pos tag
  · refine hwide 1 (not_lt.mp fun hlt => ?_)
    obtain rfl : tag = 0 := by omega
    omega
  · refine hwide 2 (not_lt.mp fun hlt => ?_)
    obtain rfl | rfl : tag = 0 ∨ tag = 1 := by omega
    · omega
    · omega
  · refine hwide 3 (not_lt.mp fun hlt => ?_)
    obtain rfl | rfl | rfl : tag = 0 ∨ tag = 1 ∨ tag = 2 := by omega
    · omega
    · omega
    · omega

/-- An integer that is written is read back, as the shortest of its forms, and no part of it is
taken for an integer. -/
theorem readVarInt_putVarInt {value : ℕ} (hvalue : value < 2 ^ 62) :
    (∀ (d : WebExt.Device) (t : List Byte), d.unread = putVarInt value ++ t →
        (readVarInt d).1 = some value ∧ (readVarInt d).2.unread = t) ∧
      (∀ d : WebExt.Device, (readVarInt d).1 = some value →
        (putVarInt value).length + (readVarInt d).2.unread.length ≤ d.unread.length) ∧
      ∀ d : WebExt.Device, d.unread <+: putVarInt value → d.unread ≠ putVarInt value →
        (readVarInt d).1 = none := by
  refine ⟨fun d t hd => ?_, fun d hread => ?_, fun d hprefix hne => ?_⟩
  · have hvar := varInt_putVarInt hvalue t
    obtain ⟨hfst, hsnd⟩ := readVarInt_spec d
    rw [hd] at hfst hsnd
    rw [hsnd _ _ hvar, hfst, hvar, List.drop_left]
    exact ⟨rfl, rfl⟩
  · obtain ⟨hfst, hsnd⟩ := readVarInt_spec d
    rw [hfst, Option.map_eq_some_iff] at hread
    obtain ⟨⟨v, width⟩, hvar, heq⟩ := hread
    obtain rfl : v = value := heq
    obtain ⟨tag, htag, rfl, hlt⟩ := varInt_lt hvar
    have hle := (varInt_eq_some hvar).2.1
    have hlen := length_putVarInt_le htag hlt
    rw [hsnd _ _ hvar, List.length_drop]
    omega
  · obtain ⟨t, ht⟩ := hprefix
    rw [(readVarInt_spec d).1, Option.map_eq_none_iff, Option.eq_none_iff_forall_ne_some]
    intro r hr
    have hwhole := varInt_putVarInt hvalue []
    rw [List.append_nil, ← ht, varInt_append hr t, Option.some.injEq] at hwhole
    have hle := (varInt_eq_some hr).2.1
    rw [hwhole, List.length_append] at hle
    have hnil : t = [] := List.eq_nil_of_length_eq_zero (by omega)
    rw [hnil, List.append_nil] at ht
    exact hne ht

theorem readVarInt_putVarInt_300 :
    (readVarInt { data := [0x41#8, 0x2c#8, 7#8] }).1 = some 300 ∧
      (readVarInt { data := [0x41#8, 0x2c#8, 7#8] }).2.unread = [7#8] :=
  (readVarInt_putVarInt (by decide)).1 _ [7#8] (by decide)

theorem capsuleHeader_putVarInt {type len : ℕ} (htype : type < 2 ^ 62) (hlen : len < 2 ^ 62) :
    capsuleHeader (putVarInt type ++ putVarInt len) =
      some (type, len, (putVarInt type ++ putVarInt len).length) := by
  have hread := varInt_putVarInt hlen []
  rw [List.append_nil] at hread
  rw [capsuleHeader, varInt_putVarInt htype, Option.bind_some, List.drop_left, hread,
    List.length_append]
  rfl

/-- The capsules that are written are read back as the datagrams that were not dropped. -/
theorem records_destProxyRead (dgrams : List (List Byte)) :
    ∀ bytesToWrite, ∃ kept : List (List Byte), kept.Sublist dgrams ∧
      records capsule (destProxyRead bytesToWrite dgrams) =
        kept.map fun data => (masqueCapsuleDatagram, data) := by
  induction dgrams with
  | nil => exact fun _ => ⟨[], List.Sublist.refl _, records_of_none rfl⟩
  | cons data dgrams ih =>
    intro bytesToWrite
    rw [destProxyRead]
    split_ifs with hfull
    · obtain ⟨kept, hkept, hrecords⟩ := ih bytesToWrite
      exact ⟨kept, hkept.cons data, hrecords⟩
    · obtain ⟨kept, hkept, hrecords⟩ := ih (bytesToWrite +
        (putVarInt masqueCapsuleDatagram ++ putVarInt data.length).length + data.length)
      have hlen : data.length < 2 ^ 62 := by
        have hmax : maxConnectionBuffer < 2 ^ 62 := by decide
        omega
      refine ⟨data :: kept, hkept.cons_cons data, ?_⟩
      rw [records_cons (F := capsule) (capsuleHeader_putVarInt (by decide) hlen), hrecords,
        List.map_cons]

/-- An empty datagram, as the other side writes it. -/
theorem run_emptyDatagram :
    destProxyRead 0 [[]] = [0x00#8, 0x00#8] ∧
      (MasqueConnection.run [[0x00#8, 0x00#8]]).destWrites = [] ∧
      datagrams (records capsule [[0x00#8, 0x00#8]].flatten) = [[]] := by
  have hrecords : records capsule [[0x00#8, 0x00#8]].flatten = [(0, [])] := by
    rw [List.flatten_singleton, records_of_header (F := capsule) (w := 2) (k := 0) (n := 0) rfl,
      if_pos (by decide)]
    exact congrArg _ (records_of_none (F := capsule) rfl)
  refine ⟨rfl, ?_, ?_⟩
  · rw [(MasqueConnection.hasRead_run _).2, hrecords]
    rfl
  · rw [hrecords]
    rfl

end WgDesktop.Masque
