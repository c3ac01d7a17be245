import WgDesktop.Lib.Runs
import WgDesktop.WebExt.Connection

/-!
# `WebExtBridge`

The browser's end of the web extension's protocol, from `src/webextension/webextbridge.cpp`, and the
connections it makes to the server one after another. Each connection has a new `Connection` on the
server's side and a new `WebExtReader` on this side, but the bytes that the socket has not accepted
stay in `m_buffer` when a connection is lost and go out first on the next one. `framing` is what
holds as long as that does not happen.
-/

namespace WgDesktop.WebExt

open Bytes Frames Runs

inductive LocalSocketState where
  | unconnected
  | connecting
  | connected
  | closing
  deriving DecidableEq, Repr

inductive Signal where
  | connected
  | disconnected
  | messageReceived (message : List Byte)

/-- The fields of the class and what it has emitted. -/
structure Bridge where
  socket : LocalSocketState := .unconnected
  reader : Option Reader := none
  buffer : List Byte := []
  retryTimer : Bool := true
  signals : List Signal := []

/-- A connection: what `m_buffer` held when it was opened, the messages that `sendMessage` took on
it, the bytes on their way to the server and those it has read, the server's object, how much of its
output has arrived and the messages that the bridge has emitted. -/
structure Link where
  carried : List Byte
  sent : List (List Byte) := []
  wire : List Byte := []
  read : List Byte := []
  server : Connection
  arrived : ℕ := 0
  received : List (List Byte) := []

/-- The bridge and its connections, the last one first. The server may still read an old one. -/
structure State where
  bridge : Bridge := {}
  links : List Link := []

namespace Bridge

def emit (b : Bridge) (signal : Signal) : Bridge := { b with signals := b.signals ++ [signal] }

/-- The handler of the signal, with the new state of the socket. -/
def stateChanged (b : Bridge) (state : LocalSocketState) : Bridge :=
  let b := { b with socket := state }
  let b :=
    if state = .connected then emit { b with reader := some {} } .connected
    else if b.reader.isSome then emit { b with reader := none } .disconnected
    else b
  if state = .unconnected then { b with retryTimer := true } else b

/-- `m_retryTimer` fires. -/
def retryConnection (b : Bridge) : Bridge :=
  let b := { b with retryTimer := false }
  let b := if b.socket ≠ .unconnected then b.stateChanged .unconnected else b
  b.stateChanged .connecting

end Bridge

/-- A write of the buffer, of which the socket accepts that many bytes; none unless it is
connected. -/
def tryPushData (s : State) (accepted : ℕ) : State :=
  if s.bridge.buffer = [] ∨ s.bridge.socket ≠ .connected then s
  else
    { s with
      bridge := { s.bridge with buffer := s.bridge.buffer.drop accepted }
      links := s.links.modifyHead fun l =>
        { l with wire := l.wire ++ s.bridge.buffer.take accepted } }

def sendMessage (E : Endian) (s : State) (message : List Byte) (accepted : ℕ) : State :=
  if s.bridge.socket ≠ .connected then s
  else
    tryPushData
      { s with
        bridge := { s.bridge with
          buffer := s.bridge.buffer ++ (uint32 E).encode message.length ++ message }
        links := s.links.modifyHead fun l => { l with sent := l.sent ++ [message] } }
      accepted

/-- More of the server's output arrives at the bridge. -/
def readyRead (E : Endian) (s : State) (n : ℕ) : State :=
  match s.bridge.reader, s.links with
  | some r, l :: ls =>
    let r' := r.readyRead E ((l.server.socket.output.drop l.arrived).take n)
    { bridge := { s.bridge with
        reader := some r'
        signals := s.bridge.signals ++
          (r'.emitted.drop r.emitted.length).map .messageReceived }
      links := { l with
        arrived := min (l.arrived + n) l.server.socket.output.length
        received := r'.emitted } :: ls }
  | _, _ => s

/-- The server reads some of the bytes on their way. -/
def serverReadyRead (D : List Byte → Option Json.Object) (E : Endian) (n : ℕ) (l : Link) : Link :=
  if l.server.socket.closed then l
  else
    { l with
      wire := l.wire.drop n
      read := l.read ++ l.wire.take n
      server := l.server.readData D E (l.wire.take n) }

/-- What happens: the timer, the changes of the bridge's socket, calls of `sendMessage`,
`bytesWritten` and `readyRead` of the bridge's socket; and on the server's side of a connection,
reads, messages of the adapter and the end. -/
inductive Event where
  | timeout
  | connected (script : Script)
  | closing
  | unconnected
  | sendMessage (message : List Byte) (accepted : ℕ)
  | bytesWritten (accepted : ℕ)
  | readyRead (n : ℕ)
  | serverReadyRead (i n : ℕ)
  | serverWrite (i : ℕ) (data : List Byte)
  | serverClose (i : ℕ)

def step (D : List Byte → Option Json.Object) (E : Endian) (s : State) : Event → State
  | .timeout =>
    if s.bridge.retryTimer then { s with bridge := s.bridge.retryConnection } else s
  | .connected script =>
    if s.bridge.socket = .connecting then
      { bridge := s.bridge.stateChanged .connected
        links := { carried := s.bridge.buffer, server := .ofScript script } :: s.links }
    else s
  | .closing =>
    if s.bridge.socket = .connected then { s with bridge := s.bridge.stateChanged .closing }
    else s
  | .unconnected =>
    if s.bridge.socket = .unconnected then s
    else { s with bridge := s.bridge.stateChanged .unconnected }
  | .sendMessage message accepted => WebExt.sendMessage E s message accepted
  | .bytesWritten accepted => tryPushData s accepted
  | .readyRead n => WebExt.readyRead E s n
  | .serverReadyRead i n => { s with links := s.links.modify i (WebExt.serverReadyRead D E n) }
  | .serverWrite i data =>
    { s with links := s.links.modify i fun l =>
        { l with server := { l.server with socket := l.server.socket.writeData E data } } }
  | .serverClose i =>
    { s with links := s.links.modify i fun l =>
        { l with server := { l.server with socket := l.server.socket.close } } }

/-! ## What a connection does -/

/-- The messages that the server takes. -/
def Sized (message : List Byte) : Prop := 0 < message.length ∧ message.length ≤ maxMsgSize

theorem Sized.fits {E : Endian} {message : List Byte} (h : Sized message) :
    Fits (uint32 E) Connection.takes message := by
  obtain ⟨hpos, hle⟩ := h
  constructor
  · change message.length < 2 ^ 32
    rw [maxMsgSize] at hle
    omega
  · simp [Connection.takes, hpos.ne', hle]

/-- The bytes that have arrived at the bridge. -/
def Link.arrivedBytes (l : Link) : List Byte := l.server.socket.output.take l.arrived

/-- What holds of each connection. If it was opened with bytes in the buffer, nothing was sent. -/
structure Link.Inv (E : Endian) (l : Link) : Prop where
  hasRead : l.server.HasRead E l.read
  wrote : l.server.socket.Wrote E
  arrived : l.arrived ≤ l.server.socket.output.length
  received : l.received = Reader.nonEmpty (frames (uint32 E) Reader.takes l.arrivedBytes)
  sized : ∀ message ∈ l.sent, Sized message
  own : l.read ++ l.wire <+: (uint32 E).stream l.sent
  carried : l.carried ≠ [] → l.read ++ l.wire = []

/-- What holds of the connection that is open. -/
structure Link.Open (E : Endian) (b : Bridge) (l : Link) : Prop where
  reader : ∃ r, b.reader = some r ∧ r.HasRead E l.arrivedBytes ∧ r.emitted = l.received
  buffer : l.carried = [] → (uint32 E).stream l.sent = l.read ++ l.wire ++ b.buffer

/-- A step of the server on a connection. -/
structure ServerStep (E : Endian) (l l' : Link) : Prop where
  carried : l'.carried = l.carried
  sent : l'.sent = l.sent
  arrived : l'.arrived = l.arrived
  received : l'.received = l.received
  bytes : l'.read ++ l'.wire = l.read ++ l.wire
  hasRead : l.server.HasRead E l.read → l'.server.HasRead E l'.read
  grows : l.server.socket.Grows E l'.server.socket

section Steps

variable {D : List Byte → Option Json.Object} {E : Endian} {l l' : Link} {b : Bridge}

theorem ServerStep.arrivedBytes (h : ServerStep E l l')
    (harrived : l.arrived ≤ l.server.socket.output.length) :
    l'.arrivedBytes = l.arrivedBytes := by
  obtain ⟨t, ht⟩ := h.grows.output
  unfold Link.arrivedBytes
  rw [h.arrived, ← ht, List.take_append_of_le_length harrived]

theorem ServerStep.inv (h : ServerStep E l l') (hl : l.Inv E) : l'.Inv E := by
  have hbytes := h.arrivedBytes hl.arrived
  refine ⟨h.hasRead hl.hasRead, h.grows.wrote hl.wrote, ?_, ?_, ?_, ?_, ?_⟩
  · rw [h.arrived]
    exact hl.arrived.trans h.grows.output.length_le
  · rw [h.received, hbytes]
    exact hl.received
  · rw [h.sent]
    exact hl.sized
  · rw [h.bytes, h.sent]
    exact hl.own
  · rw [h.bytes, h.carried]
    exact hl.carried

theorem ServerStep.open (h : ServerStep E l l') (hl : l.Inv E) (hopen : l.Open E b) :
    l'.Open E b := by
  obtain ⟨r, hr, hread, hemitted⟩ := hopen.reader
  refine ⟨⟨r, hr, ?_, hemitted.trans h.received.symm⟩, ?_⟩
  · rw [h.arrivedBytes hl.arrived]
    exact hread
  · rw [h.carried, h.sent, h.bytes]
    exact hopen.buffer

theorem serverStep_readyRead (n : ℕ) : ServerStep E l (serverReadyRead D E n l) := by
  unfold serverReadyRead
  cases hclosed : l.server.socket.closed with
  | true => exact ⟨rfl, rfl, rfl, rfl, rfl, id, Socket.Grows.refl _⟩
  | false =>
    refine ⟨rfl, rfl, rfl, rfl, ?_, ?_, Connection.grows_readData _⟩
    · simp [List.append_assoc]
    · intro hread
      exact hread.readData hclosed _

theorem serverStep_socket {socket : Socket} (h : l.server.socket.Grows E socket)
    (hclosed : l.server.socket.closed = true → socket.closed = true) :
    ServerStep E l { l with server := { l.server with socket := socket } } := by
  refine ⟨rfl, rfl, rfl, rfl, rfl, fun hread => ⟨hread.processed, fun hopen => ?_⟩, h⟩
  refine hread.left ?_
  by_contra hne
  rw [hclosed (by simpa using hne)] at hopen
  contradiction

theorem serverStep_write (data : List Byte) :
    ServerStep E l
      { l with server := { l.server with socket := l.server.socket.writeData E data } } := by
  refine serverStep_socket (Socket.grows_writeData _ _) fun hclosed => ?_
  rw [Socket.writeData_of_closed hclosed]
  exact hclosed

theorem serverStep_close :
    ServerStep E l { l with server := { l.server with socket := l.server.socket.close } } :=
  serverStep_socket (Socket.grows_close _) fun _ => rfl

end Steps

/-! ## Runs -/

/-- Nothing goes out on a connection that was opened with bytes of an earlier one in the buffer. -/
def NoStale (s : State) (accepted : ℕ) : Prop :=
  s.bridge.socket = .connected → 0 < accepted → ∀ l ∈ s.links.head?, l.carried = []

/-- The messages are of a size that the server takes, and nothing stale goes out. -/
def Clean (s : State) : Event → Prop
  | .sendMessage message accepted => Sized message ∧ NoStale s accepted
  | .bytesWritten accepted => NoStale s accepted
  | _ => True

structure Inv (E : Endian) (s : State) : Prop where
  links : ∀ l ∈ s.links, l.Inv E
  down : s.bridge.socket ≠ .connected → s.bridge.reader = none
  up : s.bridge.socket = .connected → ∃ l ls, s.links = l :: ls ∧ l.Open E s.bridge

section Runs

variable {D : List Byte → Option Json.Object} {E : Endian} {s : State}

theorem inv_init : Inv E {} := ⟨by simp, fun _ => rfl, by simp⟩

theorem stateChanged_of_ne {b : Bridge} {state : LocalSocketState} (hne : state ≠ .connected) :
    (b.stateChanged state).reader = none ∧ (b.stateChanged state).socket = state := by
  unfold Bridge.stateChanged
  dsimp only
  rw [if_neg hne]
  by_cases hsome : b.reader.isSome = true
  · rw [if_pos hsome]
    split_ifs
    · exact ⟨rfl, rfl⟩
    · exact ⟨rfl, rfl⟩
  · have hreader : b.reader = none := by simpa using hsome
    rw [if_neg hsome]
    split_ifs
    · exact ⟨hreader, rfl⟩
    · exact ⟨hreader, rfl⟩

theorem Inv.stateChanged (h : Inv E s) {b : Bridge} {state : LocalSocketState}
    (hne : state ≠ .connected) : Inv E { s with bridge := b.stateChanged state } := by
  obtain ⟨hreader, hsocket⟩ := stateChanged_of_ne (b := b) hne
  refine ⟨h.links, fun _ => hreader, fun hconnected => ?_⟩
  rw [hsocket] at hconnected
  exact absurd hconnected hne

theorem Link.inv_new (carried : List Byte) (script : Script) :
    Link.Inv E { carried := carried, server := .ofScript script } where
  hasRead := Connection.hasRead_ofScript script
  wrote := ⟨⟨[], rfl, frames_nil, fun _ => rfl⟩, by simp [Connection.ofScript]⟩
  arrived := Nat.zero_le _
  received := by simp [Link.arrivedBytes, Reader.nonEmpty]
  sized := by simp
  own := List.nil_prefix
  carried := fun _ => rfl

theorem Inv.connected (h : Inv E s) (script : Script) :
    Inv E
      { bridge := s.bridge.stateChanged .connected
        links := { carried := s.bridge.buffer, server := .ofScript script } :: s.links } := by
  refine ⟨?_, fun hne => absurd rfl hne, fun _ => ⟨_, _, rfl, ⟨{}, rfl, ?_, rfl⟩, ?_⟩⟩
  · intro l hl
    rcases List.mem_cons.mp hl with rfl | hl
    · exact Link.inv_new _ _
    · exact h.links l hl
  · simp only [Link.arrivedBytes, List.take_zero]
    exact Reader.hasRead_init
  · intro hnil
    exact hnil.symm

theorem Inv.tryPushData (h : Inv E s) {accepted : ℕ} (hstale : NoStale s accepted) :
    Inv E (tryPushData s accepted) := by
  unfold WebExt.tryPushData
  split_ifs with hnone
  · exact h
  · have hconnected : s.bridge.socket = .connected := by
      by_contra hne
      exact hnone (.inr hne)
    obtain ⟨l, ls, hlinks, hopen⟩ := h.up hconnected
    have hl := h.links l (by simp [hlinks])
    have hbytes : l.carried = [] ∨ s.bridge.buffer.take accepted = [] := by
      by_cases hpos : 0 < accepted
      · exact .inl (hstale hconnected hpos l (by simp [hlinks]))
      · right
        rw [show accepted = 0 by omega, List.take_zero]
    have hsplit : l.read ++ (l.wire ++ s.bridge.buffer.take accepted) ++
        s.bridge.buffer.drop accepted = l.read ++ l.wire ++ s.bridge.buffer := by
      rw [List.append_assoc, List.append_assoc, List.take_append_drop, List.append_assoc]
    rw [hlinks, List.modifyHead_cons]
    refine ⟨?_, h.down, fun _ => ⟨_, _, rfl, hopen.reader, ?_⟩⟩
    · intro l' hl'
      rcases List.mem_cons.mp hl' with rfl | hl'
      · refine ⟨hl.hasRead, hl.wrote, hl.arrived, hl.received, hl.sized, ?_, ?_⟩
        · rcases hbytes with hnil | hnil
          · rw [hopen.buffer hnil, ← hsplit]
            exact List.prefix_append _ _
          · dsimp only
            rw [hnil, List.append_nil]
            exact hl.own
        · intro hne
          dsimp only
          rw [hbytes.resolve_left hne, List.append_nil]
          exact hl.carried hne
      · exact h.links l' (by simp [hlinks, hl'])
    · intro hnil
      exact (hopen.buffer hnil).trans hsplit.symm

theorem Inv.sendMessage (h : Inv E s) {message : List Byte} {accepted : ℕ}
    (hsized : Sized message) (hstale : NoStale s accepted) :
    Inv E (sendMessage E s message accepted) := by
  unfold WebExt.sendMessage
  split_ifs with hconnected
  · exact h
  · rw [not_not] at hconnected
    obtain ⟨l, ls, hlinks, hopen⟩ := h.up hconnected
    have hl := h.links l (by simp [hlinks])
    have hstream := stream_concat (H := uint32 E) l.sent message
    refine Inv.tryPushData ?_ ?_
    · rw [hlinks, List.modifyHead_cons]
      refine ⟨?_, h.down, fun _ => ⟨_, _, rfl, hopen.reader, ?_⟩⟩
      · intro l' hl'
        rcases List.mem_cons.mp hl' with rfl | hl'
        · refine ⟨hl.hasRead, hl.wrote, hl.arrived, hl.received, ?_, ?_, hl.carried⟩
          · intro m hm
            rcases List.mem_append.mp hm with hm | hm
            · exact hl.sized m hm
            · rw [List.mem_singleton.mp hm]
              exact hsized
          · dsimp only
            rw [hstream]
            exact hl.own.trans (List.prefix_append _ _)
        · exact h.links l' (by simp [hlinks, hl'])
      · intro hnil
        dsimp only
        rw [hstream, hopen.buffer hnil, Header.frame]
        simp only [List.append_assoc]
    · intro _ hpos l' hl'
      rw [hlinks, List.modifyHead_cons] at hl'
      obtain rfl : _ = l' := by simpa using hl'
      exact hstale hconnected hpos l (by simp [hlinks])

theorem Inv.readyRead (h : Inv E s) (n : ℕ) : Inv E (readyRead E s n) := by
  unfold WebExt.readyRead
  split
  · rename_i r l ls hreader hlinks
    have hconnected : s.bridge.socket = .connected := by
      by_contra hne
      rw [h.down hne] at hreader
      contradiction
    obtain ⟨l', ls', hlinks', hopen⟩ := h.up hconnected
    obtain ⟨rfl, rfl⟩ : l = l' ∧ ls = ls' := by simpa [hlinks] using hlinks'
    obtain ⟨r', hr', hread, hemitted⟩ := hopen.reader
    obtain rfl : r = r' := by simpa [hreader] using hr'
    have hl := h.links l (by simp [hlinks])
    set input := (l.server.socket.output.drop l.arrived).take n
    obtain ⟨hread', hall⟩ := hread.readyRead input
    have hbytes : l.arrivedBytes ++ input =
        l.server.socket.output.take (min (l.arrived + n) l.server.socket.output.length) := by
      rw [Link.arrivedBytes, ← List.take_add]
      exact List.take_eq_take_min
    rw [hbytes] at hread' hall
    refine ⟨?_, fun hne => absurd hconnected hne,
      fun _ => ⟨_, _, rfl, ⟨_, rfl, hread', rfl⟩, hopen.buffer⟩⟩
    intro l' hl'
    rcases List.mem_cons.mp hl' with rfl | hl'
    · exact ⟨hl.hasRead, hl.wrote, Nat.min_le_right _ _, hall, hl.sized, hl.own, hl.carried⟩
    · exact h.links l' (by simp [hlinks, hl'])
  · exact h

theorem Inv.modify (h : Inv E s) {f : Link → Link} (hf : ∀ l, ServerStep E l (f l)) (i : ℕ) :
    Inv E { s with links := s.links.modify i f } := by
  refine ⟨?_, h.down, fun hconnected => ?_⟩
  · intro l hl
    obtain ⟨j, hj⟩ := List.mem_iff_getElem?.mp hl
    rw [List.getElem?_modify] at hj
    obtain ⟨l', hl', rfl⟩ := Option.map_eq_some_iff.mp hj
    have hinv := h.links l' (List.mem_of_getElem? hl')
    split_ifs
    · exact (hf l').inv hinv
    · exact hinv
  · obtain ⟨l, ls, hlinks, hopen⟩ := h.up hconnected
    have hl := h.links l (by simp [hlinks])
    cases i with
    | zero => exact ⟨f l, ls, by simp [hlinks], (hf l).open hl hopen⟩
    | succ i => exact ⟨l, ls.modify i f, by simp [hlinks], hopen⟩

theorem Inv.step (h : Inv E s) (e : Event) (hclean : Clean s e) : Inv E (step D E s e) := by
  cases e with
  | timeout =>
    rw [WebExt.step]
    split_ifs
    · have hne : LocalSocketState.connecting ≠ .connected := by decide
      exact h.stateChanged hne
    · exact h
  | connected script =>
    rw [WebExt.step]
    split_ifs
    · exact h.connected script
    · exact h
  | closing =>
    rw [WebExt.step]
    split_ifs
    · exact h.stateChanged (by decide)
    · exact h
  | unconnected =>
    rw [WebExt.step]
    split_ifs
    · exact h
    · exact h.stateChanged (by decide)
  | sendMessage message accepted => exact h.sendMessage hclean.1 hclean.2
  | bytesWritten accepted => exact h.tryPushData hclean
  | readyRead n => exact h.readyRead n
  | serverReadyRead i n => exact h.modify (fun _ => serverStep_readyRead n) i
  | serverWrite i data => exact h.modify (fun _ => serverStep_write data) i
  | serverClose i => exact h.modify (fun _ => serverStep_close) i

end Runs

/-- What the two ends make of a connection. The bytes on it are those of the messages that were sent
on it. The server has processed messages from the first one on, all that it has read whole; and the
bridge has emitted the messages of the server that are not empty, all that have arrived whole. -/
structure Framed (E : Endian) (l : Link) : Prop where
  own : l.read ++ l.wire <+: (uint32 E).stream l.sent
  processed : l.server.processed <+: l.sent
  whole : ∀ k, (uint32 E).stream (l.sent.take k) <+: l.read →
    l.sent.take k <+: l.server.processed
  received : l.received <+: Reader.nonEmpty l.server.socket.written
  receivedWhole : ∀ k, ((uint32 E).stream (l.server.socket.written.take k)).length ≤ l.arrived →
    Reader.nonEmpty (l.server.socket.written.take k) <+: l.received

theorem Link.Inv.framed {E : Endian} {l : Link} (h : l.Inv E) : Framed E l := by
  have hfits : ∀ message ∈ l.sent, Fits (uint32 E) Connection.takes message :=
    fun message hm => (h.sized message hm).fits
  have hsent : frames (uint32 E) Connection.takes ((uint32 E).stream l.sent) = l.sent := by
    have := frames_stream hfits []
    rwa [List.append_nil, frames_nil, List.append_nil] at this
  refine ⟨h.own, ?_, ?_, ?_, ?_⟩
  · have hread : l.read <+: (uint32 E).stream l.sent := (List.prefix_append _ _).trans h.own
    rw [h.hasRead.processed]
    conv_rhs => rw [← hsent]
    exact frames_mono hread
  · intro k hk
    rw [h.hasRead.processed]
    exact take_mono_frames hfits hk
  · rw [h.received, ← h.wrote.frames_output]
    exact (frames_mono (List.take_prefix _ _)).filter _
  · intro k hk
    rw [h.received]
    refine List.IsPrefix.filter _ (take_mono_frames h.wrote.fits ?_)
    obtain ⟨piece, hout, -, -⟩ := h.wrote.output
    refine List.prefix_take_iff.mpr ⟨?_, hk⟩
    rw [hout]
    exact (stream_take_mono _ k).trans (List.prefix_append _ _)

/-- **Framing.** In every run in which no bytes that were left in the buffer go out on a later
connection, every connection is framed, whatever the sockets accept and however the bytes arrive;
and while a connection lasts, none of the bytes sent on it are lost. -/
theorem framing (D : List Byte → Option Json.Object) (E : Endian) (events : List Event)
    (h : Guarded (step D E) Clean {} events) :
    let s := events.foldl (step D E) {}
    (∀ l ∈ s.links, Framed E l) ∧
      (s.bridge.socket = .connected → ∀ l ∈ s.links.head?, l.carried = [] →
        (uint32 E).stream l.sent = l.read ++ l.wire ++ s.bridge.buffer) := by
  intro s
  have hinv : Inv E s := by
    have := h.invariant (fun s e hs hclean => hs.step (D := D) e hclean) inv_init events.length
    rwa [List.take_length] at this
  refine ⟨fun l hl => (hinv.links l hl).framed, fun hconnected l hl hnil => ?_⟩
  obtain ⟨l', ls, hlinks, hopen⟩ := hinv.up hconnected
  obtain rfl : l' = l := by simpa [hlinks] using hl
  exact hopen.buffer hnil

/-! ### Bytes of an earlier connection -/

/-- A server that answers nothing and takes what it gets. -/
def quiet : Script := ⟨fun _ => [], fun n => n + 4⟩

/-- A message on each of two connections; the socket accepts the given number of bytes of the
first. -/
def twoConnections (accepted : ℕ) : List Event :=
  [.timeout, .connected quiet, .sendMessage [65#8] accepted, .unconnected,
    .timeout, .connected quiet, .sendMessage [66#8] 10, .serverReadyRead 0 10]

theorem framing_twoConnections :
    let s := (twoConnections 5).foldl (step (fun _ => none) .little) {}
    (∀ l ∈ s.links, Framed .little l) ∧
      (s.bridge.socket = .connected → ∀ l ∈ s.links.head?, l.carried = [] →
        (uint32 .little).stream l.sent = l.read ++ l.wire ++ s.bridge.buffer) := by
  refine framing (fun _ => none) .little (twoConnections 5) ?_
  refine ⟨trivial, trivial, ⟨⟨by decide, by decide⟩, ?_⟩, trivial, trivial, trivial,
    ⟨⟨by decide, by decide⟩, ?_⟩, trivial, trivial⟩
  · intro _ _ l hl
    obtain rfl := Option.mem_some.mp hl
    rfl
  · intro _ _ l hl
    obtain rfl := Option.mem_some.mp hl
    decide

/-- The message of the first connection is processed on the second one. -/
theorem stale_message_processed :
    ∃ l ∈ ((twoConnections 0).foldl (step (fun _ => none) .little) {}).links,
      l.sent = [[66#8]] ∧ l.server.processed = [[65#8], [66#8]] := by
  refine ⟨_, List.mem_cons_self, rfl, ?_⟩
  have hread := (Connection.hasRead_ofScript (E := .little) quiet).readData
    (D := fun _ => none) rfl ((uint32 .little).stream [[65#8], [66#8]])
  have hfits : ∀ body ∈ [[65#8], [66#8]], Fits (uint32 .little) Connection.takes body := by
    intro body hbody
    have hlen : body.length = 1 := by
      simp only [List.mem_cons, List.not_mem_nil, or_false] at hbody
      rcases hbody with rfl | rfl
      · rfl
      · rfl
    refine Sized.fits ⟨by omega, ?_⟩
    rw [hlen]
    decide
  have hprocessed := hread.processed
  rw [List.nil_append, ← List.append_nil ((uint32 .little).stream _), frames_stream hfits,
    frames_nil] at hprocessed
  exact hprocessed

end WgDesktop.WebExt
