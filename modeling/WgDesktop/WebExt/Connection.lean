import WgDesktop.Lib.Bytes
import WgDesktop.Lib.Frames
import WgDesktop.Lib.Json

/-!
# `WebExtension::Connection` and `WebExtReader`

The two readers of the web extension's protocol, from `src/webextension/connection.cpp` and
`src/webextension/webextreader.cpp`. A message is a length of four bytes in the machine's order and
its bytes. The server's reader is a state machine with a buffer, the bridge's one reads a device in
transactions; `HasRead.readData` and `HasRead.readyRead` say that both find the frames of the stream
however it arrives, and `Socket.Wrote` that the server writes one frame after another.
-/

namespace WgDesktop.WebExt

open Bytes Frames

def maxMsgSize : ℕ := 1024 * 1024

/-- A `uint32_t` in the order of the machine. -/
def uint32 (E : Endian) : Header Byte where
  width := 4
  bound := 2 ^ 32
  encode n := E.bytes (BitVec.ofNat 32 n)
  decode bytes := (E.word bytes : BitVec 32).toNat
  width_pos := by decide
  length_encode n := Endian.length_bytes E _
  decode_encode n hn := by
    rw [Endian.word_bytes E (by decide), BitVec.toNat_ofNat, Nat.mod_eq_of_lt hn]

/-! ## Writing -/

/-- The server's end of a connection: how much of each write it accepts, and what it has accepted.
`written` are the messages that were written whole. -/
structure Socket where
  accepts : ℕ → ℕ
  writes : ℕ := 0
  closed : Bool := false
  output : List Byte := []
  written : List (List Byte) := []

namespace Socket

def close (s : Socket) : Socket := { s with closed := true }

def write (s : Socket) (data : List Byte) : ℤ × Socket :=
  if s.closed then (-1, s)
  else
    let len := min (s.accepts s.writes) data.length
    (len, { s with writes := s.writes + 1, output := s.output ++ data.take len })

/-- `Connection::writeData`; the length of `data` is cast to a `uint32_t`. -/
def writeData (E : Endian) (s : Socket) (data : List Byte) : Socket :=
  let body := data.take (data.length % 2 ^ 32)
  let header := s.write ((uint32 E).encode data.length)
  if header.1 ≠ 4 then header.2.close
  else
    let rest := header.2.write body
    if rest.1 ≠ body.length then rest.2.close
    else { rest.2 with written := rest.2.written ++ [body] }

/-- The message as it is written. -/
def bodyOf (data : List Byte) : List Byte := data.take (data.length % 2 ^ 32)

variable {E : Endian} {s : Socket}

theorem length_bodyOf (data : List Byte) : (bodyOf data).length = data.length % 2 ^ 32 := by
  have := Nat.mod_le data.length (2 ^ 32)
  rw [bodyOf, List.length_take]
  omega

theorem encode_length (E : Endian) (data : List Byte) :
    (uint32 E).encode data.length = (uint32 E).encode (bodyOf data).length := by
  have hmod : BitVec.ofNat 32 data.length = BitVec.ofNat 32 (bodyOf data).length := by
    apply BitVec.eq_of_toNat_eq
    rw [BitVec.toNat_ofNat, BitVec.toNat_ofNat, length_bodyOf, Nat.mod_mod]
  exact congrArg (fun x => E.bytes x) hmod

/-- A write to an open socket: some of the data, all of it when the result says so. -/
theorem write_spec (hopen : s.closed = false) (data : List Byte) :
    ∃ piece, piece <+: data ∧ (s.write data).1 = piece.length ∧
      (s.write data).2.output = s.output ++ piece ∧ (s.write data).2.closed = false ∧
      (s.write data).2.written = s.written := by
  unfold write
  rw [hopen, if_neg (by simp)]
  refine ⟨data.take (min (s.accepts s.writes) data.length), List.take_prefix _ _, ?_, rfl, rfl, rfl⟩
  rw [List.length_take, Nat.min_assoc, Nat.min_self]

theorem eq_of_length_eq {piece data : List Byte} (hpre : piece <+: data)
    (hlen : (piece.length : ℤ) = data.length) : piece = data :=
  hpre.eq_of_length (by omega)

theorem length_lt {piece data : List Byte} (hpre : piece <+: data)
    (hlen : (piece.length : ℤ) ≠ data.length) : piece.length < data.length := by
  have := hpre.length_le
  omega

/-- **A frame is written, or a piece of one and the socket is closed.** -/
theorem writeData_spec (hopen : s.closed = false) (data : List Byte) :
    (((s.writeData E data).output = s.output ++ (uint32 E).frame (bodyOf data) ∧
        (s.writeData E data).written = s.written ++ [bodyOf data] ∧
        (s.writeData E data).closed = false) ∨
      ∃ piece, piece <+: (uint32 E).frame (bodyOf data) ∧
        piece.length < ((uint32 E).frame (bodyOf data)).length ∧
        (s.writeData E data).output = s.output ++ piece ∧
        (s.writeData E data).written = s.written ∧ (s.writeData E data).closed = true) := by
  obtain ⟨header, hpre, hlen, hout, hopen', hwritten⟩ :=
    write_spec hopen ((uint32 E).encode data.length)
  have hwidth : ((uint32 E).encode data.length).length = 4 := (uint32 E).length_encode _
  unfold writeData
  dsimp only
  rw [hlen]
  by_cases hheader : (header.length : ℤ) = 4
  · rw [if_neg (not_not.mpr hheader)]
    have hfull : header = (uint32 E).encode data.length :=
      eq_of_length_eq hpre (by rw [hwidth]; exact hheader)
    obtain ⟨body, hpre', hlen', hout', hopen'', hwritten'⟩ := write_spec hopen' (bodyOf data)
    rw [← bodyOf, hlen']
    by_cases hbody : (body.length : ℤ) = (bodyOf data).length
    · rw [if_neg (not_not.mpr hbody)]
      left
      refine ⟨?_, by dsimp only; rw [hwritten', hwritten], hopen''⟩
      dsimp only
      rw [hout', hout, eq_of_length_eq hpre' hbody, hfull, encode_length, Header.frame,
        List.append_assoc]
    · rw [if_pos hbody]
      right
      refine ⟨header ++ body, ?_, ?_, ?_, hwritten'.trans hwritten, rfl⟩
      · rw [hfull, encode_length, Header.frame]
        exact (List.prefix_append_right_inj _).mpr hpre'
      · rw [hfull, encode_length, Header.frame, List.length_append, List.length_append]
        have := length_lt hpre' hbody
        omega
      · rw [close, hout', hout, List.append_assoc]
  · rw [if_pos hheader]
    right
    rw [encode_length] at hpre
    refine ⟨header, hpre.trans (List.prefix_append _ _), ?_, hout, hwritten, rfl⟩
    have hle := hpre.length_le
    rw [← encode_length, hwidth] at hle
    rw [Header.frame, List.length_append, ← encode_length, hwidth]
    omega

theorem writeData_of_closed (hclosed : s.closed = true) (data : List Byte) :
    s.writeData E data = s := by
  unfold writeData write
  rw [hclosed, if_pos rfl]
  cases s
  simp_all [close]

/-- The output is the messages that were written, and a piece of a frame once it is closed. -/
structure Wrote (E : Endian) (s : Socket) : Prop where
  output : ∃ piece, s.output = (uint32 E).stream s.written ++ piece ∧
    frames (uint32 E) (fun _ => true) piece = [] ∧ (s.closed = false → piece = [])
  fits : ∀ body ∈ s.written, Fits (uint32 E) (fun _ => true) body

theorem Wrote.writeData (h : Wrote E s) (data : List Byte) : Wrote E (s.writeData E data) := by
  have hfit : (bodyOf data).length < 2 ^ 32 := by
    rw [length_bodyOf]
    exact Nat.mod_lt _ (by decide)
  cases hclosed : s.closed with
  | true =>
    rw [writeData_of_closed hclosed]
    exact h
  | false =>
    obtain ⟨piece, hout, -, hnil⟩ := h.output
    rw [hnil hclosed, List.append_nil] at hout
    rcases writeData_spec (E := E) hclosed data with ⟨hout', hwritten, -⟩ |
      ⟨piece, hpre, hlt, hout', hwritten, hclosed'⟩
    · refine ⟨⟨[], ?_, frames_nil, fun _ => rfl⟩, ?_⟩
      · rw [hout', hout, hwritten, stream_concat, List.append_nil]
      · rw [hwritten]
        intro body hbody
        rcases List.mem_append.mp hbody with hbody | hbody
        · exact h.fits body hbody
        · rw [List.mem_singleton.mp hbody]
          exact ⟨hfit, rfl⟩
    · refine ⟨⟨piece, ?_, frames_of_piece hfit hpre hlt, ?_⟩, ?_⟩
      · rw [hout', hout, hwritten]
      · rw [hclosed']
        simp
      · rw [hwritten]
        exact h.fits

theorem Wrote.close (h : Wrote E s) : Wrote E s.close := by
  obtain ⟨piece, hout, hframes, -⟩ := h.output
  exact ⟨⟨piece, hout, hframes, by simp [Socket.close]⟩, h.fits⟩

theorem Wrote.frames_output (h : Wrote E s) :
    frames (uint32 E) (fun _ => true) s.output = s.written := by
  obtain ⟨piece, hout, hframes, -⟩ := h.output
  rw [hout, frames_stream h.fits, hframes, List.append_nil]

/-- A socket some writes later. -/
structure Grows (E : Endian) (s s' : Socket) : Prop where
  wrote : Wrote E s → Wrote E s'
  output : s.output <+: s'.output

theorem Grows.refl (s : Socket) : Grows E s s := ⟨id, List.prefix_rfl⟩

theorem Grows.trans {s s' s'' : Socket} (h : Grows E s s') (h' : Grows E s' s'') :
    Grows E s s'' :=
  ⟨fun hs => h'.wrote (h.wrote hs), h.output.trans h'.output⟩

theorem grows_close (s : Socket) : Grows E s s.close := ⟨Wrote.close, List.prefix_rfl⟩

theorem grows_writeData (s : Socket) (data : List Byte) : Grows E s (s.writeData E data) := by
  refine ⟨fun h => h.writeData data, ?_⟩
  cases hclosed : s.closed with
  | true => rw [writeData_of_closed hclosed]
  | false =>
    rcases writeData_spec (E := E) hclosed data with ⟨hout, -, -⟩ | ⟨piece, -, -, hout, -, -⟩
    · rw [hout]
      exact List.prefix_append _ _
    · rw [hout]
      exact List.prefix_append _ _

theorem grows_foldl (datas : List (List Byte)) (s : Socket) :
    Grows E s (datas.foldl (writeData E) s) := by
  induction datas generalizing s with
  | nil => exact Grows.refl s
  | cons data datas ih => exact (grows_writeData s data).trans (ih _)

end Socket

/-! ## `Connection` -/

inductive ReadState where
  | readingLength
  | readingBody
  deriving DecidableEq, Repr

/-- What the adapter writes on the connection while it handles the messages, one after another, and
what the socket accepts. -/
structure Script where
  replies : ℕ → List (List Byte)
  accepts : ℕ → ℕ

/-- The fields of the class, the messages it has processed and those it has emitted. -/
structure Connection where
  socket : Socket
  replies : ℕ → List (List Byte)
  state : ReadState := .readingLength
  buffer : List Byte := []
  messageLength : ℕ := 0
  processed : List (List Byte) := []
  messages : List Json.Object := []

namespace Connection

def ofScript (script : Script) : Connection :=
  { socket := { accepts := script.accepts }, replies := script.replies }

/-- `QJsonDocument(obj).toJson(QJsonDocument::Compact)` of the answer. -/
def invalidRequest : List Byte :=
  "\x7b\"t\":\"invalidRequest\"\x7d".toList.map fun c => BitVec.ofNat 8 c.toNat

/-- `D` is `QJsonDocument::fromJson` for an object. -/
def processMessage (D : List Byte → Option Json.Object) (E : Endian) (c : Connection)
    (message : List Byte) : Connection :=
  match D message with
  | none =>
    { c with
      socket := c.socket.writeData E invalidRequest
      processed := c.processed ++ [message] }
  | some obj =>
    { c with
      socket := (c.replies c.processed.length).foldl (Socket.writeData E) c.socket
      processed := c.processed ++ [message]
      messages := c.messages ++ [obj] }

/-- The case `ReadingLength`, and whether it goes on to the next one. -/
def readLength (E : Endian) (c : Connection) : Connection × Bool :=
  if c.buffer.length < 4 then (c, false)
  else
    let length := (uint32 E).decode (c.buffer.take 4)
    let c := { c with buffer := c.buffer.drop 4, messageLength := length }
    if length = 0 ∨ maxMsgSize < length then ({ c with socket := c.socket.close }, false)
    else ({ c with state := .readingBody }, true)

/-- The end of the case `ReadingBody`. -/
def readBody (D : List Byte → Option Json.Object) (E : Endian) (c : Connection) : Connection :=
  { processMessage D E { c with buffer := c.buffer.drop c.messageLength }
      (c.buffer.take c.messageLength) with
    messageLength := 0
    state := .readingLength }

/-- The `switch` up to the body. -/
def readHeader (E : Endian) (c : Connection) : Connection × Bool :=
  match c.state with
  | .readingLength => c.readLength E
  | .readingBody => (c, true)

variable {D : List Byte → Option Json.Object} {E : Endian} {c : Connection}

@[simp] theorem buffer_processMessage (message : List Byte) :
    (processMessage D E c message).buffer = c.buffer := by
  unfold processMessage
  split
  · rfl
  · rfl

@[simp] theorem processed_processMessage (message : List Byte) :
    (processMessage D E c message).processed = c.processed ++ [message] := by
  unfold processMessage
  split
  · rfl
  · rfl

/-- What the loop consumes: bytes, and the state between a length and its body. -/
def size (c : Connection) : ℕ :=
  2 * c.buffer.length + if c.state = .readingBody then 1 else 0

theorem size_readBody_lt (h : (readHeader E c).2 = true) :
    (readBody D E (readHeader E c).1).size < c.size := by
  unfold readHeader readLength at h ⊢
  cases hstate : c.state with
  | readingBody =>
    simp only [size, readBody, buffer_processMessage, List.length_drop, hstate, reduceCtorEq,
      if_true, if_false]
    omega
  | readingLength =>
    simp only [hstate] at h
    split_ifs at h with hshort hbad
    simp only [hshort, hbad, if_false, size, readBody, buffer_processMessage, List.length_drop,
      hstate, reduceCtorEq]
    omega

/-- The loop of `readData`. -/
def drain (D : List Byte → Option Json.Object) (E : Endian) (c : Connection) : Connection :=
  if _h : (readHeader E c).2 = false then (readHeader E c).1
  else if (readHeader E c).1.buffer.length < (readHeader E c).1.messageLength then
    (readHeader E c).1
  else drain D E (readBody D E (readHeader E c).1)
termination_by c.size
decreasing_by exact size_readBody_lt (by simpa using _h)

/-- A closed connection is not read. -/
def readData (D : List Byte → Option Json.Object) (E : Endian) (c : Connection)
    (input : List Byte) : Connection :=
  if c.socket.closed then c else drain D E { c with buffer := c.buffer ++ input }

theorem grows_processMessage (message : List Byte) :
    c.socket.Grows E (processMessage D E c message).socket := by
  unfold processMessage
  split
  · exact Socket.grows_writeData _ _
  · exact Socket.grows_foldl _ _

theorem grows_readHeader : c.socket.Grows E (readHeader E c).1.socket := by
  unfold readHeader readLength
  dsimp only
  split
  · split_ifs
    · exact Socket.Grows.refl _
    · exact Socket.grows_close _
    · exact Socket.Grows.refl _
  · exact Socket.Grows.refl _

theorem grows_drain (c : Connection) : c.socket.Grows E (drain D E c).socket := by
  fun_induction drain D E c with
  | case1 c _ => exact grows_readHeader
  | case2 c _ _ => exact grows_readHeader
  | case3 c _ _ ih =>
    have hbody := grows_processMessage (D := D) (E := E)
      (c := { (readHeader E c).1 with
        buffer := (readHeader E c).1.buffer.drop (readHeader E c).1.messageLength })
      ((readHeader E c).1.buffer.take (readHeader E c).1.messageLength)
    exact grows_readHeader.trans (hbody.trans ih)

theorem grows_readData (input : List Byte) : c.socket.Grows E (readData D E c input).socket := by
  unfold readData
  split_ifs
  · exact Socket.Grows.refl _
  · exact grows_drain { c with buffer := c.buffer ++ input }

/-! ### What it has read -/

/-- The lengths that the server takes. -/
def takes (length : ℕ) : Bool := length ≠ 0 && length ≤ maxMsgSize

/-- The connection holds the bytes `s` that are left of its stream. -/
def Holds (E : Endian) (c : Connection) (s : List Byte) : Prop :=
  match c.state with
  | .readingLength => s = c.buffer
  | .readingBody => ∃ h, h.length = 4 ∧ (uint32 E).decode h = c.messageLength ∧
      takes c.messageLength = true ∧ s = h ++ c.buffer

variable {a s : List Byte}

/-- A length is read and goes on to its body, or nothing complete is left. -/
theorem readHeader_spec (h : Holds E c s) :
    (readHeader E c).1.processed = c.processed ∧
      if (readHeader E c).2 then
        (readHeader E c).1.state = .readingBody ∧ Holds E (readHeader E c).1 s
      else frames (uint32 E) takes s = [] ∧
        ((readHeader E c).1.socket.closed = true ∨ (readHeader E c).1 = c) := by
  unfold readHeader
  cases hstate : c.state with
  | readingBody => exact ⟨rfl, hstate, h⟩
  | readingLength =>
    rw [Holds, hstate] at h
    subst h
    unfold readLength
    by_cases hshort : c.buffer.length < 4
    · rw [if_pos hshort]
      exact ⟨rfl, frames_of_short hshort, .inr rfl⟩
    · have hwidth : (c.buffer.take 4).length = 4 := by
        rw [List.length_take]
        omega
      have hbuffer : c.buffer = c.buffer.take 4 ++ c.buffer.drop 4 :=
        (List.take_append_drop 4 c.buffer).symm
      rw [if_neg hshort]
      dsimp only
      by_cases hbad : (uint32 E).decode (c.buffer.take 4) = 0 ∨
          maxMsgSize < (uint32 E).decode (c.buffer.take 4)
      · rw [if_pos hbad]
        refine ⟨rfl, ?_, .inl rfl⟩
        have hnot : takes ((uint32 E).decode (c.buffer.take 4)) = false := by
          rcases hbad with h0 | hlt
          · simp [takes, h0]
          · simp [takes, hlt]
        rw [hbuffer]
        exact frames_of_not_ok hwidth hnot
      · rw [if_neg hbad]
        rw [not_or, not_lt] at hbad
        refine ⟨rfl, rfl, c.buffer.take 4, hwidth, rfl, ?_, hbuffer⟩
        simp [takes, hbad.1, hbad.2]

theorem Holds.readBody (h : Holds E c s) (hstate : c.state = .readingBody)
    (hleft : Left (uint32 E) takes a c.processed s)
    (hlen : ¬c.buffer.length < c.messageLength) :
    ∃ t, Holds E (readBody D E c) t ∧
      Left (uint32 E) takes a (readBody D E c).processed t := by
  rw [Holds, hstate] at h
  obtain ⟨header, hwidth, hdecode, htakes, rfl⟩ := h
  have hbody : (c.buffer.take c.messageLength).length = c.messageLength := by
    rw [List.length_take]
    omega
  refine ⟨c.buffer.drop c.messageLength, ?_, ?_⟩
  · unfold Connection.readBody
    simp [Holds]
  · rw [← List.take_append_drop c.messageLength c.buffer] at hleft
    have := hleft.frame hwidth (hdecode.trans hbody.symm) (by rw [hbody]; exact htakes)
    unfold Connection.readBody
    simpa using this

/-- **The loop.** All complete messages are processed, and what is left is held unless a length
was not taken. -/
theorem drain_spec (h : Holds E c s) (hleft : Left (uint32 E) takes a c.processed s) :
    frames (uint32 E) takes a = (drain D E c).processed ∧
      ((drain D E c).socket.closed = true ∨ ∃ t, Holds E (drain D E c) t ∧
        Left (uint32 E) takes a (drain D E c).processed t) := by
  fun_induction drain D E c generalizing s with
  | case1 c hstop =>
    obtain ⟨hprocessed, hcase⟩ := readHeader_spec h
    rw [hstop] at hcase
    obtain ⟨hnil, hclosed | hsame⟩ := hcase
    · refine ⟨?_, .inl hclosed⟩
      rw [hleft.frames_eq, hnil, List.append_nil, hprocessed]
    · refine ⟨?_, .inr ⟨s, ?_⟩⟩
      · rw [hleft.frames_eq, hnil, List.append_nil, hprocessed]
      · rw [hsame]
        exact ⟨h, hleft⟩
  | case2 c hgo hshort =>
    obtain ⟨hprocessed, hcase⟩ := readHeader_spec h
    rw [if_pos (by simpa using hgo)] at hcase
    obtain ⟨hstate, hholds⟩ := hcase
    rw [← hprocessed] at hleft
    refine ⟨?_, .inr ⟨s, hholds, hleft⟩⟩
    have hbytes := hholds
    rw [Holds, hstate] at hbytes
    obtain ⟨header, hwidth, hdecode, -, rfl⟩ := hbytes
    rw [hleft.frames_eq, frames_of_incomplete hwidth (by rw [hdecode]; exact hshort),
      List.append_nil]
  | case3 c hgo hlong ih =>
    obtain ⟨hprocessed, hcase⟩ := readHeader_spec h
    rw [if_pos (by simpa using hgo)] at hcase
    obtain ⟨hstate, hholds⟩ := hcase
    rw [← hprocessed] at hleft
    obtain ⟨t, hholds', hleft'⟩ := hholds.readBody (D := D) hstate hleft hlong
    exact ih hholds' hleft'

/-- The connection has processed the frames of the bytes `a` that it has read, and can go on. -/
structure HasRead (E : Endian) (a : List Byte) (c : Connection) : Prop where
  processed : c.processed = frames (uint32 E) takes a
  left : c.socket.closed = false →
    ∃ s, Holds E c s ∧ Left (uint32 E) takes a c.processed s

theorem hasRead_ofScript (script : Script) : HasRead E [] (ofScript script) :=
  ⟨frames_nil.symm, fun _ => ⟨[], rfl, Left.refl⟩⟩

theorem HasRead.readData (h : HasRead E a c) (hopen : c.socket.closed = false)
    (input : List Byte) : HasRead E (a ++ input) (readData D E c input) := by
  obtain ⟨s, hholds, hleft⟩ := h.left hopen
  have hholds' : Holds E { c with buffer := c.buffer ++ input } (s ++ input) := by
    unfold Holds at hholds ⊢
    cases hstate : c.state with
    | readingLength =>
      rw [hstate] at hholds
      subst hholds
      rfl
    | readingBody =>
      rw [hstate] at hholds
      obtain ⟨header, hwidth, hdecode, htakes, rfl⟩ := hholds
      exact ⟨header, hwidth, hdecode, htakes, List.append_assoc _ _ _⟩
  obtain ⟨hframes, hrest⟩ := drain_spec (D := D) hholds' (hleft.arrive input)
  rw [Connection.readData, hopen, if_neg (by simp)]
  refine ⟨hframes.symm, fun hclosed => ?_⟩
  rcases hrest with hclosed' | hheld
  · rw [hclosed] at hclosed'
    contradiction
  · exact hheld

end Connection

/-! ## `WebExtReader` -/

/-- A sequential `QIODevice`: the bytes that were not read, or read in the transaction that is
open, and the position of that. -/
structure Device where
  data : List Byte := []
  transaction : Option ℕ := none

namespace Device

def pos (d : Device) : ℕ := d.transaction.getD 0

def unread (d : Device) : List Byte := d.data.drop d.pos

def atEnd (d : Device) : Bool := d.unread.isEmpty

/-- A transaction that is open already goes on. -/
def startTransaction (d : Device) : Device :=
  match d.transaction with
  | none => { d with transaction := some 0 }
  | some _ => d

def rollbackTransaction (d : Device) : Device := { d with transaction := none }

def commitTransaction (d : Device) : Device := { data := d.unread, transaction := none }

def read (d : Device) (n : ℕ) : List Byte × Device :=
  match d.transaction with
  | none => (d.data.take n, { d with data := d.data.drop n })
  | some p => (d.unread.take n, { d with transaction := some (p + (d.unread.take n).length) })

theorem unread_startTransaction (d : Device) : d.startTransaction.unread = d.unread := by
  unfold startTransaction unread pos
  cases hd : d.transaction with
  | none => rfl
  | some p => simp only [hd]

theorem read_fst (d : Device) (n : ℕ) : (d.read n).1 = d.unread.take n := by
  unfold read unread pos
  cases d.transaction with
  | none => rfl
  | some p => rfl

theorem unread_read (d : Device) (n : ℕ) : (d.read n).2.unread = d.unread.drop n := by
  unfold read unread pos
  cases d.transaction with
  | none => simp
  | some p =>
    simp only [Option.getD_some, ← List.drop_drop, List.length_take, List.length_drop]
    by_cases hn : n ≤ d.data.length - p
    · rw [Nat.min_eq_left hn]
    · rw [List.drop_eq_nil_of_le (by rw [List.length_drop]; omega),
        List.drop_eq_nil_of_le (by rw [List.length_drop]; omega)]

/-- A read in a transaction leaves the bytes in the device. -/
theorem read_startTransaction (d : Device) (n : ℕ) :
    d.startTransaction.read n =
      (d.unread.take n, ⟨d.data, some (d.pos + (d.unread.take n).length)⟩) := by
  unfold startTransaction read unread pos
  cases hd : d.transaction with
  | none => simp
  | some p => simp only [hd, Option.getD_some]

@[simp] theorem unread_commitTransaction (d : Device) : d.commitTransaction.unread = d.unread := rfl

end Device

/-- The fields of the class, its device and the messages that it has emitted. -/
structure Reader where
  device : Device := {}
  buffer : List Byte := []
  length : ℕ := 0
  emitted : List (List Byte) := []

namespace Reader

/-- The second half of the loop, and whether it goes on. -/
def readBody (r : Reader) : Reader × Bool :=
  let got := r.device.read (r.length - r.buffer.length)
  let r := { r with device := got.2, buffer := r.buffer ++ got.1 }
  if r.buffer.length < r.length then (r, false)
  else ({ r with emitted := r.emitted ++ [r.buffer], buffer := [], length := 0 }, true)

/-- The first half, between two messages: a length of zero leaves its transaction open. -/
def readLength (E : Endian) (r : Reader) : Reader × Bool :=
  let got := r.device.startTransaction.read 4
  if got.1.length < 4 then ({ r with device := got.2.rollbackTransaction }, false)
  else if (uint32 E).decode got.1 = 0 then ({ r with device := got.2 }, true)
  else
    { r with device := got.2.commitTransaction, length := (uint32 E).decode got.1 }.readBody

/-- One turn of the loop. -/
def turn (E : Endian) (r : Reader) : Reader × Bool :=
  if r.length = 0 then r.readLength E else r.readBody

def size (r : Reader) : ℕ := 2 * r.device.unread.length + if r.length = 0 then 0 else 1

theorem size_readBody_lt {r : Reader} (h : r.readBody.2 = true) :
    r.readBody.1.size < 2 * r.device.unread.length + 1 := by
  unfold readBody at h ⊢
  dsimp only at h ⊢
  split_ifs at h ⊢ with hshort
  simp only [size, if_true, Device.unread_read, List.length_drop]
  omega

theorem size_turn_lt {E : Endian} {r : Reader} (h : (r.turn E).2 = true) :
    (r.turn E).1.size < r.size := by
  unfold turn at h ⊢
  split_ifs at h ⊢ with hlen
  · unfold readLength at h ⊢
    dsimp only at h ⊢
    have hgot := Device.read_fst r.device.startTransaction 4
    have hunread := Device.unread_read r.device.startTransaction 4
    rw [Device.unread_startTransaction] at hgot hunread
    split_ifs at h ⊢ with hshort hzero
    · simp only [size, hlen, if_true, hunread, List.length_drop]
      rw [hgot, List.length_take] at hshort
      omega
    · have hlt := size_readBody_lt h
      simp only [Device.unread_commitTransaction, hunread, List.length_drop] at hlt
      rw [hgot, List.length_take] at hshort
      simp only [size, hlen, if_true]
      simp only [size] at hlt
      omega
  · have hlt := size_readBody_lt h
    simpa only [size, hlen, if_false] using hlt

/-- The loop of `readyRead`. -/
def loop (E : Endian) (r : Reader) : Reader :=
  if r.device.atEnd then r
  else if _h : (r.turn E).2 = true then loop E (r.turn E).1
  else (r.turn E).1
termination_by r.size
decreasing_by exact size_turn_lt _h

/-- `readyRead`, after more bytes have arrived in the device. -/
def readyRead (E : Endian) (r : Reader) (input : List Byte) : Reader :=
  loop E { r with device := { r.device with data := r.device.data ++ input } }

/-! ### What it has emitted -/

/-- The frames that are not empty. -/
def nonEmpty (bodies : List (List Byte)) : List (List Byte) := bodies.filter fun b => !b.isEmpty

/-- All lengths are taken. -/
abbrev takes (_ : ℕ) : Bool := true

/-- The reader holds the bytes `s` that are left of its stream. Between two messages the open
transaction has passed empty frames only. -/
def Holds (E : Endian) (r : Reader) (s : List Byte) : Prop :=
  if r.length = 0 then
    r.buffer = [] ∧ s = r.device.data ∧ r.device.pos ≤ r.device.data.length ∧
      ∃ k, Left (uint32 E) takes s (List.replicate k []) r.device.unread
  else
    r.device.transaction = none ∧ r.buffer.length < r.length ∧
      ∃ h, h.length = 4 ∧ (uint32 E).decode h = r.length ∧ s = h ++ (r.buffer ++ r.device.data)

/-- The reader has emitted messages of `a`, and can go on. -/
def HasRead (E : Endian) (a : List Byte) (r : Reader) : Prop :=
  ∃ done s, r.emitted = nonEmpty done ∧ Left (uint32 E) takes a done s ∧ Holds E r s

/-- The reader has emitted all complete messages of `a`. -/
def Emitted (E : Endian) (a : List Byte) (r : Reader) : Prop :=
  r.emitted = nonEmpty (frames (uint32 E) takes a)

variable {E : Endian} {r : Reader} {a s : List Byte} {done : List (List Byte)}

theorem nonEmpty_replicate (k : ℕ) : nonEmpty (List.replicate k []) = [] := by
  rw [nonEmpty, List.filter_eq_nil_iff]
  intro b hb
  rw [List.eq_of_mem_replicate hb]
  simp

theorem nonEmpty_append (as bs : List (List Byte)) :
    nonEmpty (as ++ bs) = nonEmpty as ++ nonEmpty bs := List.filter_append as bs

theorem emitted_of_left (hemitted : r.emitted = nonEmpty done)
    (hleft : Left (uint32 E) takes a done s)
    (hnone : nonEmpty (frames (uint32 E) takes s) = []) : Emitted E a r := by
  rw [Emitted, hleft.frames_eq, nonEmpty_append, hnone, List.append_nil, hemitted]

theorem hasRead_init : HasRead E [] {} :=
  ⟨[], [], rfl, Left.refl, rfl, rfl, Nat.le_refl _, 0, Left.refl⟩

theorem HasRead.arrive (h : HasRead E a r) (input : List Byte) :
    HasRead E (a ++ input)
      { r with device := { r.device with data := r.device.data ++ input } } := by
  obtain ⟨done, s, hemitted, hleft, hholds⟩ := h
  refine ⟨done, s ++ input, hemitted, hleft.arrive input, ?_⟩
  unfold Holds at hholds ⊢
  dsimp only
  split_ifs at hholds ⊢ with hlen
  · obtain ⟨hbuffer, rfl, hpos, k, hskip⟩ := hholds
    refine ⟨hbuffer, rfl, ?_, k, ?_⟩
    · rw [List.length_append]
      exact Nat.le_add_right_of_le hpos
    · have hunread : (r.device.data ++ input).drop r.device.pos = r.device.unread ++ input :=
        List.drop_append_of_le_length hpos
      unfold Device.unread at hunread ⊢
      change Left _ _ _ _ ((r.device.data ++ input).drop r.device.pos)
      rw [hunread]
      exact hskip.arrive input
  · obtain ⟨hnone, hlt, header, hwidth, hdecode, rfl⟩ := hholds
    refine ⟨hnone, hlt, header, hwidth, hdecode, ?_⟩
    simp only [List.append_assoc]

/-- A body: its next bytes are taken, and the message is emitted when it is complete. -/
theorem HasRead.readBody (h : HasRead E a r) (hlen : r.length ≠ 0) :
    HasRead E a r.readBody.1 ∧ (r.readBody.2 = false → Emitted E a r.readBody.1) := by
  obtain ⟨done, s, hemitted, hleft, hholds⟩ := h
  rw [Holds, if_neg hlen] at hholds
  obtain ⟨hnone, hlt, header, hwidth, hdecode, rfl⟩ := hholds
  set n := r.length - r.buffer.length with hn
  have hread : r.device.read n = (r.device.data.take n, { data := r.device.data.drop n }) := by
    unfold Device.read
    rw [hnone]
  have hsplit : header ++ (r.buffer ++ r.device.data) =
      header ++ ((r.buffer ++ r.device.data.take n) ++ r.device.data.drop n) := by
    rw [List.append_assoc, List.take_append_drop]
  unfold Reader.readBody
  rw [← hn, hread]
  dsimp only
  have hbody : (r.buffer ++ r.device.data.take n).length =
      r.buffer.length + min n r.device.data.length := by
    rw [List.length_append, List.length_take]
  split_ifs with hshort
  · have hdrop : r.device.data.drop n = [] := List.drop_eq_nil_of_le (by omega)
    refine ⟨⟨done, _, hemitted, hleft, ?_⟩, fun _ => ?_⟩
    · rw [Holds, if_neg hlen]
      exact ⟨rfl, hshort, header, hwidth, hdecode, hsplit⟩
    · refine emitted_of_left hemitted hleft ?_
      rw [hsplit, hdrop, List.append_nil,
        frames_of_incomplete hwidth (by rw [hdecode]; exact hshort)]
      rfl
  · have hfull : (r.buffer ++ r.device.data.take n).length = r.length := by omega
    have hne : (r.buffer ++ r.device.data.take n).isEmpty = false := by
      rw [List.isEmpty_eq_false_iff, ← List.length_pos_iff]
      omega
    refine ⟨⟨done ++ [r.buffer ++ r.device.data.take n], r.device.data.drop n, ?_, ?_, ?_⟩, by simp⟩
    · rw [nonEmpty_append, hemitted]
      simp only [nonEmpty, List.filter_cons, hne, Bool.not_false, if_true, List.filter_nil]
    · rw [hsplit] at hleft
      exact hleft.frame hwidth (hdecode.trans hfull.symm) rfl
    · rw [Holds, if_pos rfl]
      exact ⟨rfl, rfl, Nat.zero_le _, 0, fun _ => rfl⟩

/-- A length: it is not complete and stays in the device, or it is the one of an empty frame, or its
body is read. -/
theorem HasRead.readLength (h : HasRead E a r) (hlen : r.length = 0) :
    HasRead E a (r.readLength E).1 ∧
      ((r.readLength E).2 = false → Emitted E a (r.readLength E).1) := by
  obtain ⟨done, s, hemitted, hleft, hholds⟩ := h
  rw [Holds, if_pos hlen] at hholds
  obtain ⟨hbuffer, rfl, hpos, k, hskip⟩ := hholds
  have hunread : r.device.unread.length = r.device.data.length - r.device.pos := by
    rw [Device.unread, List.length_drop]
  have hdrop := Device.unread_read r.device.startTransaction 4
  unfold Reader.readLength
  rw [Device.read_startTransaction] at hdrop ⊢
  rw [Device.unread_startTransaction] at hdrop
  dsimp only at hdrop ⊢
  have hgot : (r.device.unread.take 4).length = min 4 r.device.unread.length :=
    List.length_take
  split_ifs with hshort hzero
  · refine ⟨⟨done, r.device.data, hemitted, hleft, ?_⟩, fun _ => ?_⟩
    · rw [Holds, if_pos hlen]
      exact ⟨hbuffer, rfl, Nat.zero_le _, 0, fun _ => rfl⟩
    · refine emitted_of_left hemitted hleft ?_
      have hnil : frames (uint32 E) takes r.device.unread = [] := by
        refine frames_of_short ?_
        change r.device.unread.length < 4
        omega
      rw [hskip.frames_eq, hnil, List.append_nil, nonEmpty_replicate]
  · refine ⟨⟨done, r.device.data, hemitted, hleft, ?_⟩, by simp⟩
    rw [Holds, if_pos hlen]
    have hwidth : (r.device.unread.take 4).length = 4 := by omega
    refine ⟨hbuffer, rfl, ?_, k + 1, ?_⟩
    · change r.device.pos + (r.device.unread.take 4).length ≤ r.device.data.length
      omega
    · rw [hdrop, List.replicate_succ']
      rw [← List.take_append_drop 4 r.device.unread] at hskip
      have hframe : Left (uint32 E) takes r.device.data (List.replicate k [])
          (r.device.unread.take 4 ++ ([] ++ r.device.unread.drop 4)) := hskip
      exact hframe.frame hwidth hzero rfl
  · have hwidth : (r.device.unread.take 4).length = 4 := by omega
    refine HasRead.readBody ?_ hzero
    refine ⟨done ++ List.replicate k [], r.device.unread, ?_, hleft.trans hskip, ?_⟩
    · rw [nonEmpty_append, nonEmpty_replicate, List.append_nil]
      exact hemitted
    · rw [Holds, if_neg hzero]
      refine ⟨rfl, ?_, r.device.unread.take 4, hwidth, rfl, ?_⟩
      · rw [hbuffer]
        exact Nat.pos_of_ne_zero hzero
      · change _ = _ ++ (r.buffer ++ Device.unread _)
        rw [hdrop, hbuffer, List.nil_append, List.take_append_drop]

theorem HasRead.turn (h : HasRead E a r) :
    HasRead E a (r.turn E).1 ∧ ((r.turn E).2 = false → Emitted E a (r.turn E).1) := by
  unfold Reader.turn
  split_ifs with hlen
  · exact h.readLength hlen
  · exact h.readBody hlen

theorem HasRead.atEnd (h : HasRead E a r) (hend : r.device.atEnd = true) : Emitted E a r := by
  obtain ⟨done, s, hemitted, hleft, hholds⟩ := h
  have hnil : r.device.unread = [] := List.isEmpty_iff.mp hend
  refine emitted_of_left hemitted hleft ?_
  unfold Holds at hholds
  split_ifs at hholds with hlen
  · obtain ⟨-, rfl, -, k, hskip⟩ := hholds
    rw [hskip.frames_eq, hnil, frames_nil, List.append_nil, nonEmpty_replicate]
  · obtain ⟨hnone, hlt, header, hwidth, hdecode, rfl⟩ := hholds
    have hdata : r.device.data = [] := by
      rw [Device.unread, Device.pos, hnone] at hnil
      exact hnil
    rw [hdata, List.append_nil, frames_of_incomplete hwidth (by rw [hdecode]; exact hlt)]
    rfl

theorem HasRead.loop (h : HasRead E a r) : HasRead E a (r.loop E) ∧ Emitted E a (r.loop E) := by
  fun_induction Reader.loop E r with
  | case1 r hend => exact ⟨h, h.atEnd hend⟩
  | case2 r _ _ ih => exact ih h.turn.1
  | case3 r _ hstop => exact ⟨h.turn.1, h.turn.2 (by simpa using hstop)⟩

/-- **The reader emits the frames that are not empty**, however they arrive. -/
theorem HasRead.readyRead (h : HasRead E a r) (input : List Byte) :
    HasRead E (a ++ input) (r.readyRead E input) ∧ Emitted E (a ++ input) (r.readyRead E input) :=
  (h.arrive input).loop

end Reader

end WgDesktop.WebExt
