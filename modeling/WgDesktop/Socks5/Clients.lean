import WgDesktop.Lib.Bytes
import WgDesktop.Lib.Runs

/-!
# The clients of the proxy server

`Socks5` of the proxy extension: it takes the connections that its server has pending, finds out by
the first bytes which protocol a client speaks, and counts the client from then on. `accounts_iff`
says what its counter is, and when `MAX_CLIENTS` limits the sockets that are open.
-/

namespace WgDesktop

open Bytes Runs

def maxClients : ℕ := 1024

/-- The timer of a socket that destroys it if the protocol stays unknown. -/
inductive SelfDestructTimer where
  | absent
  | stopped
  | running
  deriving DecidableEq, Repr

/-- The `ProxyConnection` of a socket: one that is closed has asked for its deletion. -/
inductive ClientConnection where
  | absent
  | opened
  | closed
  deriving DecidableEq, Repr

/-- A socket from the queue of the server: the bytes that can be read, whether it is connected,
whether `readyRead` is connected to `tryCreateProxy`, its children, and whether its deletion was
asked for. -/
structure AcceptedSocket where
  bytes : List Byte
  isOpen : Bool := true
  waiting : Bool := false
  timer : SelfDestructTimer := .running
  con : ClientConnection := .absent
  deleteLater : Bool := false
  deriving DecidableEq, Repr

/-- The sockets that exist, latest first, and `m_clientCount`. -/
structure Socks5 where
  clientCount : BitVec 16 := 0#16
  sockets : List AcceptedSocket := []
  deriving DecidableEq, Repr

def Socks5Connection.isProxyType : List Byte → Bool
  | version :: _ :: _ => version == 0x05 || version == 0x04
  | _ => false

namespace AcceptedSocket

/-- The timer is started again, if there is one: `discardSocket`. -/
def discardSocket (socket : AcceptedSocket) : AcceptedSocket :=
  { socket with timer := if socket.timer = .absent then .absent else .running }

/-- `setState(Closed)` of the connection, if there is one. -/
def closeConnection (socket : AcceptedSocket) : AcceptedSocket :=
  { socket with con := if socket.con = .opened then .closed else socket.con }

def disconnected (socket : AcceptedSocket) : AcceptedSocket :=
  { socket.closeConnection.discardSocket with isOpen := false }

def timeout (socket : AcceptedSocket) : AcceptedSocket :=
  if socket.timer = .running then { socket with timer := .stopped, deleteLater := true } else socket

/-- The timer is deleted once the protocol is known. -/
def timerDeleted (socket : AcceptedSocket) : AcceptedSocket :=
  if socket.con = .absent then socket else { socket with timer := .absent }

/-- The socket has a `ProxyConnection`. -/
def counted (socket : AcceptedSocket) : Bool := socket.con ≠ .absent

/-- One that waits has no connection yet, and a connection is open on an open socket only. -/
structure Valid (socket : AcceptedSocket) : Prop where
  waiting : socket.waiting = true → socket.con = .absent
  opened : socket.con = .opened → socket.isOpen = true

end AcceptedSocket

namespace Socks5

section Server

-- whether the bytes begin with the request line of an `HttpConnection` or a `MasqueConnection`
variable (isHttp : List Byte → Bool)

/-- `tryCreateProxy`, with the counter. -/
def tryCreateProxy (clientCount : BitVec 16) (socket : AcceptedSocket) :
    BitVec 16 × AcceptedSocket :=
  if isHttp socket.bytes || Socks5Connection.isProxyType socket.bytes then
    (clientCount + 1, { socket with waiting := false, timer := .stopped, con := .opened })
  else if socket.bytes.length > 4096 then
    (clientCount, { socket with waiting := false, deleteLater := true })
  else (clientCount, { socket with waiting := true })

/-- One pass of the loop of `newConnection`. -/
def accept (s : Socks5) (bytes : List Byte) : Socks5 :=
  let r := tryCreateProxy isHttp s.clientCount { bytes }
  { clientCount := r.1, sockets := r.2 :: s.sockets }

/-- `newConnection`, with the bytes that can be read from each pending connection. -/
def newConnection (s : Socks5) : List (List Byte) → Socks5
  | [] => s
  | bytes :: pending =>
    if s.clientCount.toNat < maxClients then newConnection (accept isHttp s bytes) pending else s

/-- Bytes arrive on a socket. -/
def readyRead (s : Socks5) (i : ℕ) (bytes : List Byte) : Socks5 :=
  match s.sockets[i]? with
  | none => s
  | some socket =>
    let socket' := { socket with bytes := socket.bytes ++ bytes }
    if !socket.isOpen then s
    else if socket.waiting then
      let r := tryCreateProxy isHttp s.clientCount socket'
      { clientCount := r.1, sockets := s.sockets.set i r.2 }
    else { s with sockets := s.sockets.set i socket' }

/-- What happens on a socket that the counter does not notice. -/
def onSocket (s : Socks5) (i : ℕ) (f : AcceptedSocket → AcceptedSocket) : Socks5 :=
  match s.sockets[i]? with
  | none => s
  | some socket => { s with sockets := s.sockets.set i (f socket) }

def clientDismissed (s : Socks5) : Socks5 := { s with clientCount := s.clientCount - 1 }

/-- A connection that is closed is deleted. -/
def connectionDeleted (s : Socks5) (i : ℕ) : Socks5 :=
  match s.sockets[i]? with
  | none => s
  | some socket =>
    if socket.con = .closed then
      { s with sockets := s.sockets.set i { socket with con := .absent } }.clientDismissed
    else s

/-- A socket is deleted when that was asked for, and its connection with it. -/
def socketDeleted (s : Socks5) (i : ℕ) : Socks5 :=
  match s.sockets[i]? with
  | none => s
  | some socket =>
    if socket.deleteLater then
      let s' := { s with sockets := s.sockets.eraseIdx i }
      if socket.counted then s'.clientDismissed else s'
    else s

/-- What may happen: the server has connections pending, and on a socket that exists bytes arrive,
its timer fires or is deleted, its connection closes, it is disconnected, or what has asked for its
deletion is deleted. -/
inductive Event where
  | newConnection (pending : List (List Byte))
  | readyRead (i : ℕ) (bytes : List Byte)
  | timeout (i : ℕ)
  | timerDeleted (i : ℕ)
  | closed (i : ℕ)
  | disconnected (i : ℕ)
  | connectionDeleted (i : ℕ)
  | socketDeleted (i : ℕ)

def step (s : Socks5) : Event → Socks5
  | .newConnection pending => newConnection isHttp s pending
  | .readyRead i bytes => readyRead isHttp s i bytes
  | .timeout i => s.onSocket i AcceptedSocket.timeout
  | .timerDeleted i => s.onSocket i AcceptedSocket.timerDeleted
  | .closed i => s.onSocket i AcceptedSocket.closeConnection
  | .disconnected i => s.onSocket i AcceptedSocket.disconnected
  | .connectionDeleted i => s.connectionDeleted i
  | .socketDeleted i => s.socketDeleted i

def run (events : List Event) : Socks5 := events.foldl (step isHttp) {}

end Server

/-! ## Counting -/

/-- The sockets that are connected. -/
def openSockets (s : Socks5) : ℕ := s.sockets.countP AcceptedSocket.isOpen

/-- The `ProxyConnection` objects that exist. -/
def connections (s : Socks5) : ℕ := s.sockets.countP AcceptedSocket.counted

/-- The sockets that are connected and whose protocol is not known, or will not be. -/
def detecting (s : Socks5) : ℕ :=
  s.sockets.countP fun socket => socket.isOpen && !socket.counted

/-- The connections whose socket was disconnected, which are counted until they are deleted. -/
def lingering (s : Socks5) : ℕ :=
  s.sockets.countP fun socket => socket.counted && !socket.isOpen

/-- The sockets that are connected or have a `ProxyConnection`. -/
def held (s : Socks5) : ℕ :=
  s.sockets.countP fun socket => socket.isOpen || socket.counted

/-- All clients are gone: no socket is connected, and what was closed is deleted. -/
def Gone (s : Socks5) : Prop := ∀ socket ∈ s.sockets, socket.isOpen = false ∧ socket.con ≠ .closed

/-- The counter is the number of connections, as far as 16 bits go. -/
structure Accounted (s : Socks5) : Prop where
  clientCount : s.clientCount = BitVec.ofNat 16 s.connections
  valid : ∀ socket ∈ s.sockets, socket.Valid

section Counting

variable {isHttp : List Byte → Bool} {s : Socks5} {socket : AcceptedSocket}

theorem accounted_init : Accounted {} := ⟨rfl, fun _ h => absurd h List.not_mem_nil⟩

/-- What becomes of a socket whose protocol is looked at, and what that does to the counter. -/
theorem tryCreateProxy_spec (clientCount : BitVec 16) (socket : AcceptedSocket)
    (hopen : socket.isOpen = true) (hcon : socket.con = .absent) :
    let r := tryCreateProxy isHttp clientCount socket
    r.2.isOpen = true ∧ r.2.Valid ∧
      r.1 = if r.2.counted then clientCount + 1 else clientCount := by
  unfold tryCreateProxy
  split_ifs
  · exact ⟨hopen, ⟨fun h => absurd h Bool.false_ne_true, fun _ => hopen⟩, rfl⟩
  · exact ⟨hopen, ⟨fun _ => hcon, fun _ => hopen⟩, by simp [AcceptedSocket.counted, hcon]⟩
  · exact ⟨hopen, ⟨fun _ => hcon, fun _ => hopen⟩, by simp [AcceptedSocket.counted, hcon]⟩

theorem ofNat_add_ite (n : ℕ) (b : Bool) :
    (if b then BitVec.ofNat 16 n + 1 else BitVec.ofNat 16 n) =
      BitVec.ofNat 16 (n + if b then 1 else 0) := by
  cases b with
  | false => rfl
  | true => exact (BitVec.ofNat_add n 1).symm

theorem accounted_accept (h : Accounted s) (bytes : List Byte) :
    Accounted (accept isHttp s bytes) ∧
      (accept isHttp s bytes).openSockets = s.openSockets + 1 := by
  obtain ⟨hopen, hvalid, hcount⟩ :=
    @tryCreateProxy_spec isHttp s.clientCount { bytes } rfl rfl
  refine ⟨⟨?_, fun socket hsocket => ?_⟩, ?_⟩
  · show (tryCreateProxy isHttp s.clientCount { bytes }).1 =
      BitVec.ofNat 16 (List.countP _ (_ :: _))
    rw [hcount, List.countP_cons, h.clientCount, ofNat_add_ite]
    rfl
  · rcases List.mem_cons.mp hsocket with rfl | hsocket
    · exact hvalid
    · exact h.valid socket hsocket
  · show List.countP _ (_ :: _) = _
    rw [List.countP_cons, if_pos hopen]
    rfl

/-! ## One socket -/

theorem countP_set_add {α : Type*} {p : α → Bool} {l : List α} {i : ℕ} {a b : α}
    (h : l[i]? = some a) :
    (l.set i b).countP p + (if p a then 1 else 0) = l.countP p + (if p b then 1 else 0) := by
  obtain ⟨hi, rfl⟩ := List.getElem?_eq_some_iff.mp h
  have hle := @List.boole_getElem_le_countP _ p l i hi
  rw [List.countP_set hi]
  omega

theorem countP_eraseIdx_add {α : Type*} {p : α → Bool} {l : List α} {i : ℕ} {a : α}
    (h : l[i]? = some a) :
    (l.eraseIdx i).countP p + (if p a then 1 else 0) = l.countP p := by
  obtain ⟨hi, rfl⟩ := List.getElem?_eq_some_iff.mp h
  rw [← (List.getElem_cons_eraseIdx_perm hi).countP_eq p, List.countP_cons]

theorem accounted_set (h : Accounted s) {i : ℕ} (hi : s.sockets[i]? = some socket)
    {socket' : AcceptedSocket} (hvalid : socket'.Valid) {clientCount : BitVec 16}
    (hcount : clientCount + (if socket.counted then 1#16 else 0#16) =
      s.clientCount + if socket'.counted then 1#16 else 0#16) :
    Accounted ⟨clientCount, s.sockets.set i socket'⟩ := by
  refine ⟨?_, fun other hother => ?_⟩
  · have hset := @countP_set_add _ AcceptedSocket.counted _ _ _ socket' hi
    rw [h.clientCount] at hcount
    show clientCount = BitVec.ofNat 16 (List.countP _ _)
    unfold connections at hcount
    split_ifs at hcount hset <;> bv_omega
  · rcases List.mem_or_eq_of_mem_set hother with hother | rfl
    · exact h.valid other hother
    · exact hvalid

theorem countP_set_le {α : Type*} {p : α → Bool} {l : List α} {i : ℕ} {a b : α}
    (h : l[i]? = some a) (hp : p b = true → p a = true) :
    (l.set i b).countP p ≤ l.countP p := by
  have hset := @countP_set_add _ p _ _ _ b h
  by_cases hb : p b = true
  · rw [if_pos hb, if_pos (hp hb)] at hset
    omega
  · rw [if_neg hb] at hset
    omega

/-- No more sockets are open than before, and no more are open or counted. -/
def Within (s s' : Socks5) : Prop := s'.openSockets ≤ s.openSockets ∧ s'.held ≤ s.held

theorem Within.refl (s : Socks5) : Within s s := ⟨le_refl _, le_refl _⟩

/-- A socket that is not connected again, nor counted if it was not connected. -/
theorem within_set {i : ℕ} (hi : s.sockets[i]? = some socket) {socket' : AcceptedSocket}
    (hopen : socket'.isOpen = true → socket.isOpen = true)
    (hcounted : socket'.counted = true → socket.counted = true ∨ socket.isOpen = true)
    (clientCount : BitVec 16) : Within s ⟨clientCount, s.sockets.set i socket'⟩ := by
  refine ⟨countP_set_le hi hopen, countP_set_le hi fun hheld => ?_⟩
  rw [Bool.or_eq_true] at hheld ⊢
  rcases hheld with hopen' | hcounted'
  · exact Or.inl (hopen hopen')
  · exact (hcounted hcounted').symm

/-- What a handler does that neither the counter nor the limit notices. -/
def Unnoticed (f : AcceptedSocket → AcceptedSocket) : Prop :=
  ∀ socket : AcceptedSocket, socket.Valid →
    (f socket).Valid ∧ (f socket).counted = socket.counted ∧
      ((f socket).isOpen = true → socket.isOpen = true)

theorem unnoticed_timeout : Unnoticed AcceptedSocket.timeout := by
  intro socket hvalid
  unfold AcceptedSocket.timeout
  split
  · exact ⟨⟨hvalid.waiting, hvalid.opened⟩, rfl, id⟩
  · exact ⟨hvalid, rfl, id⟩

theorem unnoticed_timerDeleted : Unnoticed AcceptedSocket.timerDeleted := by
  intro socket hvalid
  unfold AcceptedSocket.timerDeleted
  split
  · exact ⟨hvalid, rfl, id⟩
  · exact ⟨⟨hvalid.waiting, hvalid.opened⟩, rfl, id⟩

theorem unnoticed_closeConnection : Unnoticed AcceptedSocket.closeConnection := by
  intro socket hvalid
  unfold AcceptedSocket.closeConnection
  by_cases hcon : socket.con = .opened
  · rw [if_pos hcon]
    refine ⟨⟨fun hwaiting => ?_, fun h => by cases h⟩, ?_, id⟩
    · rw [hvalid.waiting hwaiting] at hcon
      cases hcon
    · simp [AcceptedSocket.counted, hcon]
  · rw [if_neg hcon]
    exact ⟨hvalid, rfl, id⟩

theorem unnoticed_disconnected : Unnoticed AcceptedSocket.disconnected := by
  intro socket hvalid
  obtain ⟨hclosed, hcounted, -⟩ := unnoticed_closeConnection socket hvalid
  refine ⟨⟨hclosed.waiting, fun hcon => ?_⟩, hcounted, fun h => absurd h Bool.false_ne_true⟩
  have hne : socket.closeConnection.con ≠ .opened := by
    unfold AcceptedSocket.closeConnection
    dsimp only
    split
    · exact fun h => by cases h
    · assumption
  exact absurd hcon hne

theorem accounted_onSocket {f : AcceptedSocket → AcceptedSocket} (hf : Unnoticed f)
    (h : Accounted s) (i : ℕ) :
    Accounted (s.onSocket i f) ∧ Within s (s.onSocket i f) := by
  unfold onSocket
  split
  case h_1 => exact ⟨h, .refl s⟩
  case h_2 socket hi =>
    obtain ⟨hvalid, hcounted, hopen⟩ := hf socket (h.valid socket (List.mem_of_getElem? hi))
    exact ⟨accounted_set h hi hvalid (by rw [hcounted]),
      within_set hi hopen (fun h => Or.inl (hcounted ▸ h)) _⟩

theorem accounted_readyRead (h : Accounted s) (i : ℕ) (bytes : List Byte) :
    Accounted (readyRead isHttp s i bytes) ∧ Within s (readyRead isHttp s i bytes) := by
  unfold readyRead
  split
  case h_1 => exact ⟨h, .refl s⟩
  case h_2 socket hi =>
    have hvalid := h.valid socket (List.mem_of_getElem? hi)
    split
    case isTrue => exact ⟨h, .refl s⟩
    case isFalse hnot =>
      have hopen : socket.isOpen = true := by simpa using hnot
      split
      case isTrue hwaiting =>
        have hcon := hvalid.waiting hwaiting
        obtain ⟨-, hvalid', hcount⟩ := @tryCreateProxy_spec isHttp s.clientCount
          { socket with bytes := socket.bytes ++ bytes } hopen hcon
        refine ⟨accounted_set h hi hvalid' ?_,
          within_set hi (fun _ => hopen) (fun _ => Or.inr hopen) _⟩
        have hzero : socket.counted = false := by simp [AcceptedSocket.counted, hcon]
        rw [hcount, hzero, if_neg Bool.false_ne_true, BitVec.add_zero]
        split
        · rfl
        · exact (BitVec.add_zero _).symm
      case isFalse =>
        constructor
        · exact @accounted_set s socket h i hi { socket with bytes := socket.bytes ++ bytes }
            ⟨hvalid.waiting, hvalid.opened⟩ s.clientCount rfl
        · exact within_set hi (fun _ => hopen) (fun _ => Or.inr hopen) s.clientCount

theorem accounted_connectionDeleted (h : Accounted s) (i : ℕ) :
    Accounted (s.connectionDeleted i) ∧ Within s (s.connectionDeleted i) := by
  unfold connectionDeleted
  split
  case h_1 => exact ⟨h, .refl s⟩
  case h_2 socket hi =>
    split
    case isTrue hcon =>
      refine ⟨accounted_set h hi ⟨fun _ => rfl, fun h => by cases h⟩ ?_, ?_⟩
      · rw [if_pos (by simp [AcceptedSocket.counted, hcon])]
        show s.clientCount - 1#16 + 1#16 = s.clientCount + 0#16
        rw [BitVec.add_zero, BitVec.sub_add_cancel]
      · exact @within_set s socket i hi { socket with con := .absent } id
          (fun h => absurd h Bool.false_ne_true) _
    case isFalse => exact ⟨h, .refl s⟩

theorem accounted_socketDeleted (h : Accounted s) (i : ℕ) :
    Accounted (s.socketDeleted i) ∧ Within s (s.socketDeleted i) := by
  unfold socketDeleted
  split
  case h_1 => exact ⟨h, .refl s⟩
  case h_2 socket hi =>
    have hcount := @countP_eraseIdx_add _ AcceptedSocket.counted _ _ _ hi
    have hvalid : ∀ other ∈ s.sockets.eraseIdx i, other.Valid := fun other hother =>
      h.valid other (List.mem_of_mem_eraseIdx hother)
    have hclientCount := h.clientCount
    unfold connections at hclientCount
    have hle : ∀ p : AcceptedSocket → Bool,
        List.countP p (s.sockets.eraseIdx i) ≤ List.countP p s.sockets := fun p =>
      (List.eraseIdx_sublist s.sockets i).countP_le
    split
    case isFalse => exact ⟨h, .refl s⟩
    case isTrue =>
      dsimp only
      split
      case isTrue hcounted =>
        refine ⟨⟨?_, hvalid⟩, hle _, hle _⟩
        rw [if_pos hcounted] at hcount
        show s.clientCount - 1 = BitVec.ofNat 16 (List.countP _ (s.sockets.eraseIdx i))
        rw [hclientCount, ← hcount, BitVec.ofNat_add]
        exact BitVec.add_sub_cancel _ _
      case isFalse hcounted =>
        refine ⟨⟨?_, hvalid⟩, hle _, hle _⟩
        rw [if_neg hcounted] at hcount
        show s.clientCount = BitVec.ofNat 16 (List.countP _ (s.sockets.eraseIdx i))
        rw [hclientCount, ← hcount]
        rfl

/-! ## What is held -/

theorem countP_or {α : Type*} (p q : α → Bool) (l : List α) :
    l.countP (fun a => p a || q a) = l.countP p + l.countP fun a => q a && !p a := by
  induction l with
  | nil => rfl
  | cons a l ih =>
    rw [List.countP_cons, List.countP_cons, List.countP_cons, ih]
    cases p a <;> cases q a <;> simp <;> omega

theorem openSockets_add_lingering (s : Socks5) : s.openSockets + s.lingering = s.held :=
  (countP_or AcceptedSocket.isOpen AcceptedSocket.counted s.sockets).symm

theorem connections_add_detecting (s : Socks5) : s.connections + s.detecting = s.held := by
  have hor := countP_or AcceptedSocket.counted AcceptedSocket.isOpen s.sockets
  simp only [Bool.or_comm] at hor
  exact hor.symm

theorem detecting_le (s : Socks5) : s.detecting ≤ s.openSockets :=
  List.countP_mono_left fun _ _ h => (Bool.and_eq_true_iff.mp h).1

/-- Neither the open sockets nor those that are held are too many for the counter. -/
structure Bounded (s : Socks5) : Prop extends Accounted s where
  openSockets_le : s.openSockets ≤ maxClients
  held_le : s.held ≤ 2 * maxClients

theorem Accounted.toNat_clientCount (h : Accounted s) (hle : s.held ≤ 2 * maxClients) :
    s.clientCount.toNat = s.connections := by
  have hheld := connections_add_detecting s
  rw [maxClients] at hle
  rw [h.clientCount, BitVec.toNat_ofNat]
  exact Nat.mod_eq_of_lt (by omega)

theorem Bounded.of_within {s' : Socks5} (h : Bounded s) (hs' : Accounted s') (hle : Within s s') :
    Bounded s' :=
  ⟨hs', hle.1.trans h.openSockets_le, hle.2.trans h.held_le⟩

/-! ## The loop -/

/-- The protocol is known by these bytes. -/
def known (isHttp : List Byte → Bool) (bytes : List Byte) : Bool :=
  isHttp bytes || Socks5Connection.isProxyType bytes

/-- A connection of the queue is taken if fewer than `maxClients` are counted, those included that
came before it and whose protocol was known at once. Then there has to be room for it: so many are
counted, in detection or came before it, but for those that linger. -/
def Room (isHttp : List Byte → Bool) (s : Socks5) (pending : List (List Byte)) : Prop :=
  ∀ j < pending.length,
    s.clientCount.toNat + (pending.take j).countP (known isHttp) < maxClients →
      s.clientCount.toNat + s.detecting + j < maxClients + s.lingering

theorem accept_spec (s : Socks5) (bytes : List Byte) :
    (accept isHttp s bytes).clientCount =
        s.clientCount + (if known isHttp bytes then 1#16 else 0#16) ∧
      (accept isHttp s bytes).detecting =
        s.detecting + (if known isHttp bytes then 0 else 1) ∧
      (accept isHttp s bytes).lingering = s.lingering ∧
      (accept isHttp s bytes).held = s.held + 1 := by
  unfold accept detecting lingering held tryCreateProxy known
  split_ifs <;> simp [AcceptedSocket.counted]

theorem room_cons_iff (bytes : List Byte) (pending : List (List Byte))
    (hcount : s.clientCount.toNat < maxClients) :
    Room isHttp s (bytes :: pending) ↔
      s.clientCount.toNat + s.detecting < maxClients + s.lingering ∧
        Room isHttp (accept isHttp s bytes) pending := by
  obtain ⟨hclient, hdetecting, hlingering, -⟩ := @accept_spec isHttp s bytes
  have hnat : (accept isHttp s bytes).clientCount.toNat =
      s.clientCount.toNat + if known isHttp bytes then 1 else 0 := by
    rw [maxClients] at hcount
    rw [hclient]
    split <;> bv_omega
  -- of the connections of the queue, the first one and those behind it
  have hsplit : Room isHttp s (bytes :: pending) ↔
      (s.clientCount.toNat + 0 < maxClients →
          s.clientCount.toNat + s.detecting + 0 < maxClients + s.lingering) ∧
        ∀ j < pending.length,
          s.clientCount.toNat + ((bytes :: pending).take (j + 1)).countP (known isHttp) <
              maxClients →
            s.clientCount.toNat + s.detecting + (j + 1) < maxClients + s.lingering := by
    constructor
    · exact fun h => ⟨h 0 (Nat.zero_lt_succ _), fun j hj => h (j + 1) (Nat.succ_lt_succ hj)⟩
    · rintro ⟨hzero, hsucc⟩ j hj
      cases j with
      | zero => exact hzero
      | succ j => exact hsucc j (Nat.lt_of_succ_lt_succ hj)
  rw [hsplit]
  refine and_congr ⟨fun h => h hcount, fun h _ => h⟩ (forall₂_congr fun j hj => ?_)
  rw [List.take_succ_cons, List.countP_cons, hnat, hdetecting, hlingering]
  split <;> constructor <;> intro h hlt
  all_goals
    have hroom := h (by omega)
    omega

theorem accounted_newConnection (pending : List (List Byte)) (h : Accounted s) :
    Accounted (newConnection isHttp s pending) ∧
      s.openSockets ≤ (newConnection isHttp s pending).openSockets := by
  induction pending generalizing s with
  | nil => exact ⟨h, le_refl _⟩
  | cons bytes pending ih =>
    rw [newConnection]
    split
    · obtain ⟨haccept, hopen⟩ := @accounted_accept isHttp _ h bytes
      obtain ⟨hrest, hle⟩ := ih haccept
      exact ⟨hrest, by omega⟩
    · exact ⟨h, le_refl _⟩

theorem openSockets_newConnection_le_iff (pending : List (List Byte)) (h : Bounded s) :
    ((newConnection isHttp s pending).openSockets ≤ maxClients ↔ Room isHttp s pending) ∧
      (Room isHttp s pending → Bounded (newConnection isHttp s pending)) := by
  induction pending generalizing s with
  | nil => exact ⟨iff_of_true h.openSockets_le fun j hj => absurd hj (Nat.not_lt_zero j), fun _ => h⟩
  | cons bytes pending ih =>
    have hheld := openSockets_add_lingering s
    have hconnections := connections_add_detecting s
    rw [newConnection]
    by_cases hcount : s.clientCount.toNat < maxClients
    · obtain ⟨haccept, hopen⟩ := @accounted_accept isHttp _ h.toAccounted bytes
      obtain ⟨-, -, -, hmore⟩ := @accept_spec isHttp s bytes
      rw [if_pos hcount, room_cons_iff bytes pending hcount]
      rw [h.toNat_clientCount h.held_le] at hcount ⊢
      by_cases hroom : s.openSockets < maxClients
      · have hdetecting := detecting_le s
        have hbounded : Bounded (accept isHttp s bytes) := ⟨haccept, by omega, by omega⟩
        obtain ⟨hiff, hrest⟩ := ih hbounded
        refine ⟨?_, fun h => hrest h.2⟩
        rw [hiff]
        exact ⟨fun h => ⟨by omega, h⟩, And.right⟩
      · obtain ⟨-, hgrow⟩ := @accounted_newConnection isHttp _ pending haccept
        have hfull : ¬s.connections + s.detecting < maxClients + s.lingering := by omega
        exact ⟨iff_of_false (by omega) fun h => hfull h.1, fun h => absurd h.1 hfull⟩
    · rw [if_neg hcount]
      exact ⟨iff_of_true h.openSockets_le fun j _ hlt => absurd (by omega) hcount, fun _ => h⟩

/-! ## Every run -/

/-- The condition on one event. -/
def guard (isHttp : List Byte → Bool) (s : Socks5) : Event → Prop
  | .newConnection pending => Room isHttp s pending
  | _ => True

theorem accounted_step (h : Accounted s) (e : Event) : Accounted (step isHttp s e) := by
  cases e with
  | newConnection pending => exact (accounted_newConnection pending h).1
  | readyRead i bytes => exact (accounted_readyRead h i bytes).1
  | timeout i => exact (accounted_onSocket unnoticed_timeout h i).1
  | timerDeleted i => exact (accounted_onSocket unnoticed_timerDeleted h i).1
  | closed i => exact (accounted_onSocket unnoticed_closeConnection h i).1
  | disconnected i => exact (accounted_onSocket unnoticed_disconnected h i).1
  | connectionDeleted i => exact (accounted_connectionDeleted h i).1
  | socketDeleted i => exact (accounted_socketDeleted h i).1

/-- A step keeps the limit just when it meets the condition. -/
theorem openSockets_step_le_iff (h : Bounded s) (e : Event) :
    ((step isHttp s e).openSockets ≤ maxClients ↔ guard isHttp s e) ∧
      (guard isHttp s e → Bounded (step isHttp s e)) := by
  have hwithin : ∀ s', Accounted s' ∧ Within s s' →
      (s'.openSockets ≤ maxClients ↔ True) ∧ (True → Bounded s') := fun s' hs' =>
    ⟨iff_of_true (hs'.2.1.trans h.openSockets_le) trivial, fun _ => h.of_within hs'.1 hs'.2⟩
  cases e with
  | newConnection pending => exact openSockets_newConnection_le_iff pending h
  | readyRead i bytes => exact hwithin _ (accounted_readyRead h.toAccounted i bytes)
  | timeout i => exact hwithin _ (accounted_onSocket unnoticed_timeout h.toAccounted i)
  | timerDeleted i => exact hwithin _ (accounted_onSocket unnoticed_timerDeleted h.toAccounted i)
  | closed i => exact hwithin _ (accounted_onSocket unnoticed_closeConnection h.toAccounted i)
  | disconnected i => exact hwithin _ (accounted_onSocket unnoticed_disconnected h.toAccounted i)
  | connectionDeleted i => exact hwithin _ (accounted_connectionDeleted h.toAccounted i)
  | socketDeleted i => exact hwithin _ (accounted_socketDeleted h.toAccounted i)

theorem clientCount_of_gone (h : Accounted s) (hgone : s.Gone) : s.clientCount = 0#16 := by
  have hzero : s.connections = 0 := by
    refine List.countP_eq_zero.mpr fun socket hsocket hcounted => ?_
    obtain ⟨hclosed, hcon⟩ := hgone socket hsocket
    have hopened : socket.con ≠ .opened := fun hcon => by
      rw [(h.valid socket hsocket).opened hcon] at hclosed
      cases hclosed
    cases hsome : socket.con with
    | absent => simp [AcceptedSocket.counted, hsome] at hcounted
    | opened => exact hopened hsome
    | closed => exact hcon hsome
  rw [h.clientCount, hzero]

end Counting

/-- In every run the counter is zero when all clients are gone; the open sockets stay within the
limit when there is room for each connection that is taken from the queue. -/
theorem accounts_iff (isHttp : List Byte → Bool) (events : List Event) :
    ((run isHttp events).Gone → (run isHttp events).clientCount = 0#16) ∧
      ((∀ n, ((events.take n).foldl (step isHttp) {}).openSockets ≤ maxClients) ↔
        Guarded (step isHttp) (guard isHttp) {} events) := by
  constructor
  · apply clientCount_of_gone
    exact @foldl_invariant _ _ (step isHttp) Accounted (fun s e h => accounted_step h e) _
      accounted_init events
  · exact @forall_take_iff_guarded _ _ (step isHttp) (guard isHttp) Bounded
      (fun s => s.openSockets ≤ maxClients)
      (fun s e h hguard => (openSockets_step_le_iff h e).2 hguard)
      (fun s h => h.openSockets_le)
      (fun s e h hguard hle => hguard ((openSockets_step_le_iff h e).1.mp hle))
      _ ⟨accounted_init, Nat.zero_le _, Nat.zero_le _⟩ events

/-- A client that says nothing connects, then as many as the limit allows; then the first one asks
for SOCKS version 5. -/
def silentClient : List Event :=
  [.newConnection ([] :: List.replicate maxClients [0x05, 0x01, 0x00]),
    .readyRead maxClients [0x05, 0x01, 0x00]]

/-- One client more than the limit is open, and counted. -/
theorem silentClient_exceeds :
    (run (fun _ => false) silentClient).openSockets = maxClients + 1 ∧
      (run (fun _ => false) silentClient).clientCount.toNat = maxClients + 1 ∧
      ¬∀ n, ((silentClient.take n).foldl (step fun _ => false) {}).openSockets ≤ maxClients := by
  have hopen : (run (fun _ => false) silentClient).openSockets = maxClients + 1 := by
    decide +kernel
  refine ⟨hopen, by decide +kernel, fun h => ?_⟩
  have hle : (run (fun _ => false) silentClient).openSockets ≤ maxClients := h 2
  omega

end Socks5

end WgDesktop
