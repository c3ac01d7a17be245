import WgDesktop.Lib.Bytes
import WgDesktop.Lib.Runs
import WgDesktop.Net.HostAddress

/-!
# Proxy connections

`ProxyConnection` of the proxy extension: a protocol reads its handshake from the client socket and
opens a connection to the destination, and once that is established the client's bytes are copied to
it. The protocols are given by `ProxyProtocol`.

`transparent_run` says what the destination receives when no bytes behind the request are read as a
handshake and no write is short: what the client has sent behind its request, in order, by one
connection.
-/

namespace WgDesktop

open Bytes Runs

/-- `ProxyState`, with one state for those of a protocol's handshake. -/
inductive ProxyState where
  | closed
  | proxy
  | resolve
  | handshake
  deriving DecidableEq, Repr

/-- A protocol on top of `ProxyConnection`: the state, the bytes that wait on the client socket, the
number of destination sockets opened, whether the resolver was asked, and what it does when bytes
arrive, when a destination is connected or fails, and when the resolver answers. -/
structure ProxyProtocol (C : Type) where
  state : C → ProxyState
  available : C → List Byte
  setAvailable : List Byte → C → C
  opened : C → ℕ
  asked : C → Bool
  handshakeRead : C → C
  onConnected : C → C
  onError : C → C
  onHostnameResolved : QHostAddress → C → C
  onHostnameNotFound : C → C
  close : C → C

/-- A destination socket: whether it is connected, the bytes to write, and those that the
destination has received. -/
structure DestSocket where
  connected : Bool := false
  bytesToWrite : List Byte := []
  received : List Byte := []
  deriving DecidableEq

/-- A connection with its destination sockets, the last of which is `m_destSocket`, and the number
of calls of `clientReadyRead` that are queued: at first the one from the constructor. -/
structure ProxyConnection (C : Type) where
  conn : C
  dests : List DestSocket := []
  queued : ℕ := 1

namespace ProxyConnection

def maxConnectionBuffer : ℕ := 16 * 1024

/-- How many bytes `proxy` reads at once. -/
def room (source target : List Byte) : ℕ := min source.length (maxConnectionBuffer - target.length)

/-- The bytes that wait on the source, and those to be written by the target, after the loop of
`proxy`, with the numbers of bytes that the writes would take. A write that fails takes none, and
when nothing more is said a write takes all. -/
def proxy (source target : List Byte) (writes : List ℕ) : List Byte × List Byte :=
  let n := room source target
  if n = 0 then (source, target)
  else
    let data := source.take n
    match writes with
    | [] => proxy (source.drop n) (target ++ data) []
    | sent :: writes =>
      -- "Truncated write"
      if sent < data.length then (source.drop n, target ++ data.take sent)
      else proxy (source.drop n) (target ++ data) writes
termination_by source.length
decreasing_by
  all_goals
    have hle : room source target ≤ source.length := Nat.min_le_left _ _
    rw [List.length_drop]
    omega

/-- The write takes the bytes that are read. -/
def WritesAll (source target : List Byte) (writes : List ℕ) : Prop :=
  ∀ sent ∈ writes.head?, room source target ≤ sent

section Methods

variable {C : Type} (P : ProxyProtocol C)

def clientProxyRead (writes : List ℕ) (s : ProxyConnection C) : ProxyConnection C :=
  match s.dests.getLast? with
  | none => s
  | some d =>
    let r := proxy (P.available s.conn) d.bytesToWrite writes
    { s with
      conn := P.setAvailable r.1 s.conn
      dests := s.dests.dropLast ++ [{ d with bytesToWrite := r.2 }] }

/-- The sockets that were opened. -/
def openSockets (s : ProxyConnection C) : ProxyConnection C :=
  { s with dests := s.dests ++ List.replicate (P.opened s.conn - s.dests.length) {} }

def clientReadyRead (writes : List ℕ) (s : ProxyConnection C) : ProxyConnection C :=
  let s :=
    if P.state s.conn = .handshake then openSockets P { s with conn := P.handshakeRead s.conn }
    else s
  if P.state s.conn = .proxy then clientProxyRead P writes s else s

/-- What may happen: bytes of the client arrive, a queued call is made, the resolver answers, a
destination is connected, has written bytes, disconnects or fails, or the client disconnects. -/
inductive Event where
  | arrive (chunk : List Byte)
  | call
  | resolved (address : QHostAddress)
  | notFound
  | connected (dest : ℕ)
  | written (dest count : ℕ)
  | destClosed (dest : ℕ)
  | destFailed (dest : ℕ)
  | clientClosed

/-- The handler of the signal `connected`. -/
def onConnected (writes : List ℕ) (s : ProxyConnection C) (dest : ℕ) (d : DestSocket) :
    ProxyConnection C :=
  let s' :=
    { s with
      conn := P.onConnected s.conn
      dests := s.dests.set dest { d with connected := true } }
  if P.state s.conn = .proxy then s' else clientReadyRead P writes s'

/-- The socket has written some of its bytes. -/
def onWritten (s : ProxyConnection C) (dest : ℕ) (d : DestSocket) (count : ℕ) : ProxyConnection C :=
  let d' :=
    { d with
      bytesToWrite := d.bytesToWrite.drop count
      received := d.received ++ d.bytesToWrite.take count }
  { s with dests := s.dests.set dest d', queued := s.queued + 1 }

/-- One event, with the numbers of bytes that the writes to the destination would take. A connection
that is closed is deleted. -/
def step (s : ProxyConnection C) (e : Event × List ℕ) : ProxyConnection C :=
  if P.state s.conn = .closed then s
  else
    match e.1 with
    | .arrive chunk =>
      clientReadyRead P e.2 { s with conn := P.setAvailable (P.available s.conn ++ chunk) s.conn }
    | .call => if s.queued = 0 then s else clientReadyRead P e.2 { s with queued := s.queued - 1 }
    | .resolved address =>
      if P.asked s.conn then openSockets P { s with conn := P.onHostnameResolved address s.conn }
      else s
    | .notFound => if P.asked s.conn then { s with conn := P.onHostnameNotFound s.conn } else s
    | .connected dest =>
      match s.dests[dest]? with
      | some d => if d.connected then s else onConnected P e.2 s dest d
      | none => s
    | .written dest count =>
      match s.dests[dest]? with
      | some d =>
        if d.connected && !(d.bytesToWrite.take count).isEmpty then onWritten s dest d count else s
      | none => s
    | .destClosed dest => if dest < s.dests.length then { s with conn := P.close s.conn } else s
    | .destFailed dest => if dest < s.dests.length then { s with conn := P.onError s.conn } else s
    | .clientClosed => { s with conn := P.close s.conn }

end Methods

/-! ## Copying -/

section Copying

variable {source target : List Byte} {writes : List ℕ}

theorem proxy_of_full (writes : List ℕ) (h : room source target = 0) :
    proxy source target writes = (source, target) := by
  rw [proxy]
  exact if_pos h

theorem proxy_copied (source target : List Byte) (writes : List ℕ) :
    proxy (source.drop (room source target)) (target ++ source.take (room source target)) writes =
      (source.drop (room source target), target ++ source.take (room source target)) := by
  apply proxy_of_full
  unfold room
  rw [List.length_drop, List.length_append, List.length_take]
  omega

theorem proxy_of_writesAll (h : WritesAll source target writes) :
    proxy source target writes =
      (source.drop (room source target), target ++ source.take (room source target)) := by
  by_cases hroom : room source target = 0
  · rw [proxy_of_full writes hroom, hroom, List.drop_zero, List.take_zero, List.append_nil]
  · rw [proxy, if_neg hroom]
    cases writes with
    | nil => exact proxy_copied source target []
    | cons sent writes =>
      have hsent : room source target ≤ sent := h sent rfl
      have hnot : ¬sent < (source.take (room source target)).length := by
        rw [List.length_take]
        omega
      exact (if_neg hnot).trans (proxy_copied source target writes)

/-- A short write loses bytes. -/
theorem length_proxy_of_short (h : ¬WritesAll source target writes) :
    (proxy source target writes).1.length + (proxy source target writes).2.length <
      source.length + target.length := by
  cases writes with
  | nil => exact absurd (fun sent hsent => by cases hsent) h
  | cons sent writes =>
    have hsent : sent < room source target := by
      by_contra hle
      refine h fun sent' hsent' => ?_
      obtain rfl : sent = sent' := Option.some.inj hsent'
      omega
    have hroom : ¬room source target = 0 := Nat.ne_of_gt (Nat.zero_lt_of_lt hsent)
    have hle : room source target ≤ source.length := Nat.min_le_left _ _
    have hlength : (source.take (room source target)).length = room source target := by
      rw [List.length_take]
      omega
    have hproxy : proxy source target (sent :: writes) =
        (source.drop (room source target),
          target ++ (source.take (room source target)).take sent) := by
      rw [proxy, if_neg hroom]
      exact if_pos (hlength.symm ▸ hsent)
    rw [hproxy, List.length_drop, List.length_append, List.length_take, hlength]
    omega

/-- What is left after a copy: nothing waits, or the target is full. -/
theorem drop_room_eq_nil_or (source target : List Byte) :
    source.drop (room source target) = [] ∨
      maxConnectionBuffer ≤ (target ++ source.take (room source target)).length := by
  by_cases hall : source.length ≤ room source target
  · exact .inl (List.drop_eq_nil_of_le hall)
  · refine .inr ?_
    rw [List.length_append, List.length_take]
    unfold room at hall ⊢
    omega

end Copying

/-! ## Protocols -/

section Protocols

variable {C : Type}

/-- The bytes on the client socket are a part of the connection like any other. -/
structure ClientSocket (P : ProxyProtocol C) : Prop where
  available : ∀ bytes c, P.available (P.setAvailable bytes c) = bytes
  state : ∀ bytes c, P.state (P.setAvailable bytes c) = P.state c
  opened : ∀ bytes c, P.opened (P.setAvailable bytes c) = P.opened c
  asked : ∀ bytes c, P.asked (P.setAvailable bytes c) = P.asked c

/-- A handler that ends the connection. -/
def Ends (P : ProxyProtocol C) (handler : C → C) : Prop :=
  ∀ c, P.state (handler c) = .closed ∧ P.opened (handler c) = P.opened c

/-- What a protocol has read of a stream: `payload` is what comes behind the request, if that is
complete and valid. A connection is `Early` when it has opened nothing yet, and `Begun` when it
waits for the destination in a state of its handshake. `Clean` is the condition under which it reads
only the handshake, and `sockets` says that sockets can be made. -/
structure Reads (P : ProxyProtocol C) (payload : List Byte → Option (List Byte))
    (Early : List Byte → C → Prop) (Begun Clean : C → Prop) (sockets : Prop) : Prop where
  socket : ClientSocket P
  payload_append : ∀ {a p} b, payload a = some p → payload (a ++ b) = some (p ++ b)
  early_state : ∀ {a c}, Early a c → P.state c = .handshake ∧ P.opened c = 0 ∧ P.asked c = false
  early_arrive : ∀ {a c} b, Early a c → Early (a ++ b) (P.setAvailable (P.available c ++ b) c)
  begun_state : ∀ {c}, Begun c → P.state c = .handshake ∧ P.opened c = 1 ∧ P.asked c = false
  begun_arrive : ∀ {c} bytes, Begun c → Begun (P.setAvailable bytes c)
  begun_read : ∀ {c}, Begun c → Clean c → P.handshakeRead c = c
  early_read : ∀ {a c}, Early a c → Clean c →
    (Early a (P.handshakeRead c) ∧ payload a = none) ∨
    (P.state (P.handshakeRead c) = .closed ∧ P.opened (P.handshakeRead c) = 0 ∧
      (sockets → ∀ b, payload (a ++ b) = none)) ∨
    (payload a = some (P.available (P.handshakeRead c)) ∧
      (Begun (P.handshakeRead c) ∨ P.state (P.handshakeRead c) = .resolve ∧
        P.opened (P.handshakeRead c) = 0 ∧ P.asked (P.handshakeRead c) = true))
  connected : ∀ c, P.state (P.onConnected c) = .proxy ∧ P.opened (P.onConnected c) = P.opened c ∧
    P.available (P.onConnected c) = P.available c
  resolved_again : ∀ {c} address, P.opened c ≠ 0 → P.onHostnameResolved address c = c
  resolved : ∀ {c} address, P.opened c = 0 → P.state c = .resolve →
    (P.state (P.onHostnameResolved address c) = .resolve ∧
      P.opened (P.onHostnameResolved address c) = 1 ∧
      P.available (P.onHostnameResolved address c) = P.available c) ∨
    (P.state (P.onHostnameResolved address c) = .closed ∧
      P.opened (P.onHostnameResolved address c) = 0 ∧ ¬sockets)
  ends_close : Ends P P.close
  ends_error : Ends P P.onError
  ends_notFound : Ends P P.onHostnameNotFound

/-! ## The invariant -/

variable {P : ProxyProtocol C} {payload : List Byte → Option (List Byte)}
  {Early : List Byte → C → Prop} {Begun Clean : C → Prop} {sockets quiet : Prop}
  {a : List Byte} {s : ProxyConnection C}

/-- The stages of a connection whose client has sent `a`: the handshake, a name that is resolved, a
socket that is being connected, the copying of the bytes, and the end. When it is `quiet`, nothing
but the request itself ends a connection. -/
inductive Inv (P : ProxyProtocol C) (payload : List Byte → Option (List Byte))
    (Early : List Byte → C → Prop) (Begun : C → Prop) (quiet : Prop) (a : List Byte)
    (s : ProxyConnection C) : Prop
  | early (dests : s.dests = []) (early : Early a s.conn) (read : s.queued ≠ 0 ∨ payload a = none)
  | resolving (dests : s.dests = []) (state : P.state s.conn = .resolve)
      (opened : P.opened s.conn = 0) (asked : P.asked s.conn = true)
      (waits : payload a = some (P.available s.conn))
  | connecting (dests : s.dests = [{}]) (opened : P.opened s.conn = 1)
      (state : Begun s.conn ∨ P.state s.conn = .resolve)
      (waits : payload a = some (P.available s.conn))
  | copying (d : DestSocket) (dests : s.dests = [d]) (connected : d.connected = true)
      (state : P.state s.conn = .proxy) (opened : P.opened s.conn = 1)
      (kept : payload a = some (d.received ++ d.bytesToWrite ++ P.available s.conn))
      (flows : P.available s.conn = [] ∨ s.queued ≠ 0 ∨
        maxConnectionBuffer ≤ d.bytesToWrite.length)
  | closed (state : P.state s.conn = .closed) (single : s.dests.length ≤ 1)
      (ordered : ∀ d ∈ s.dests, ∃ p, payload a = some p ∧ d.received ++ d.bytesToWrite <+: p)
      (cause : quiet → ∀ b, payload (a ++ b) = none)

/-- **What a proxy should do**: one connection to the destination at most, which receives what comes
behind the request and in this order; nothing is taken from the rest of it, and nothing waits for
ever. -/
structure Transparent (P : ProxyProtocol C) (payload : List Byte → Option (List Byte)) (quiet : Prop)
    (a : List Byte) (s : ProxyConnection C) : Prop where
  single : s.dests.length ≤ 1
  ordered : ∀ d ∈ s.dests, ∃ p, payload a = some p ∧ d.received ++ d.bytesToWrite <+: p
  kept : P.state s.conn ≠ .closed → ∀ d ∈ s.dests,
    payload a = some (d.received ++ d.bytesToWrite ++ P.available s.conn)
  started : P.state s.conn ≠ .closed → s.queued = 0 → payload a ≠ none →
    s.dests ≠ [] ∨ P.asked s.conn = true
  delivered : P.state s.conn ≠ .closed → s.queued = 0 → ∀ d ∈ s.dests, d.connected = true →
    d.bytesToWrite = [] → payload a = some d.received
  closed : quiet → P.state s.conn = .closed → ∀ b, payload (a ++ b) = none

theorem Inv.transparent (h : Inv P payload Early Begun quiet a s)
    (hreads : Reads P payload Early Begun Clean sockets) : Transparent P payload quiet a s := by
  cases h with
  | early hdests hearly hread =>
    obtain ⟨hstate, -, -⟩ := hreads.early_state hearly
    refine ⟨by simp [hdests], by simp [hdests], by simp [hdests], fun _ hqueued hp => ?_,
      by simp [hdests], fun _ hclosed => by simp [hstate] at hclosed⟩
    rcases hread with hread | hread
    · exact absurd hqueued hread
    · exact absurd hread hp
  | resolving hdests hstate hopened hasked hwaits =>
    exact ⟨by simp [hdests], by simp [hdests], by simp [hdests], fun _ _ _ => .inr hasked,
      by simp [hdests], fun _ hclosed => by simp [hstate] at hclosed⟩
  | connecting hdests hopened hstate hwaits =>
    have hopen : P.state s.conn ≠ .closed := by
      rcases hstate with hbegun | hstate
      · simp [(hreads.begun_state hbegun).1]
      · simp [hstate]
    refine ⟨by simp [hdests], ?_, ?_, by simp [hdests], by simp [hdests],
      fun _ hclosed => absurd hclosed hopen⟩
    · simp [hdests, hwaits]
    · simp [hdests, hwaits]
  | copying d hdests hconnected hstate hopened hkept hflows =>
    refine ⟨by simp [hdests], ?_, ?_, by simp [hdests], ?_,
      fun _ hclosed => by simp [hstate] at hclosed⟩
    · rw [hdests, List.forall_mem_singleton]
      exact ⟨_, hkept, List.prefix_append _ _⟩
    · rw [hdests, List.forall_mem_singleton]
      exact fun _ => hkept
    · rw [hdests, List.forall_mem_singleton]
      intro _ hqueued _ hempty
      have hall : P.available s.conn = [] := by
        rcases hflows with hall | hqueued' | hfull
        · exact hall
        · exact absurd hqueued hqueued'
        · rw [hempty] at hfull
          exact absurd hfull (by decide)
      simpa [hempty, hall] using hkept
  | closed hstate hsingle hordered hcause =>
    exact ⟨hsingle, hordered, fun hopen => absurd hstate hopen, fun hopen => absurd hstate hopen,
      fun hopen => absurd hstate hopen, fun hquiet _ => hcause hquiet⟩

/-! ## Steps -/

/-- The bytes of the client in an event. -/
def Event.bytes : Event → List Byte
  | .arrive chunk => chunk
  | _ => []

/-- The events that end a connection. -/
def Event.Fails : Event → Prop
  | .notFound | .destClosed _ | .destFailed _ | .clientClosed => True
  | _ => False

/-- The destination's socket takes what is copied of these bytes. -/
def Takes (s : ProxyConnection C) (source : List Byte) (writes : List ℕ) : Prop :=
  ∀ d ∈ s.dests.getLast?, WritesAll source d.bytesToWrite writes

/-- The handshake is read only when it reads nothing but the request, and writes take what they are
given. -/
def Guard (P : ProxyProtocol C) (Clean : C → Prop) (s : ProxyConnection C) :
    Event × List ℕ → Prop
  | (.arrive chunk, writes) =>
    (P.state s.conn = .handshake →
        Clean (P.setAvailable (P.available s.conn ++ chunk) s.conn)) ∧
      (P.state s.conn = .proxy → s.Takes (P.available s.conn ++ chunk) writes)
  | (.call, writes) => s.queued ≠ 0 →
    (P.state s.conn = .handshake → Clean s.conn) ∧
      (P.state s.conn = .proxy → s.Takes (P.available s.conn) writes)
  | (.connected _, writes) => P.state s.conn ≠ .proxy → s.Takes (P.available s.conn) writes
  | _ => True

variable (hreads : Reads P payload Early Begun Clean sockets)

include hreads

theorem inv_clientReadyRead_early (s : ProxyConnection C) (hquiet : quiet → sockets)
    (hdests : s.dests = []) (hearly : Early a s.conn) (hclean : Clean s.conn) {writes : List ℕ} :
    Inv P payload Early Begun quiet a (clientReadyRead P writes s) := by
  obtain ⟨hstate, -, -⟩ := hreads.early_state hearly
  unfold clientReadyRead
  dsimp only
  rw [if_pos hstate]
  rcases hreads.early_read hearly hclean with
    ⟨hearly', hnone⟩ | ⟨hclosed, hopened, hrejected⟩ | ⟨hpayload, hbegun | ⟨hresolve, hopened, hasked⟩⟩
  · obtain ⟨hstate', hopened, -⟩ := hreads.early_state hearly'
    rw [if_neg (by simp [openSockets, hstate'])]
    exact .early (by simp [openSockets, hopened, hdests]) hearly' (.inr hnone)
  · rw [if_neg (by simp [openSockets, hclosed])]
    have hdests' : s.dests ++ List.replicate (P.opened (P.handshakeRead s.conn) - s.dests.length)
        ({} : DestSocket) = [] := by simp [hopened, hdests]
    exact .closed hclosed (by simp [openSockets, hdests']) (by simp [openSockets, hdests'])
      fun hq => hrejected (hquiet hq)
  · obtain ⟨hstate', hopened, -⟩ := hreads.begun_state hbegun
    rw [if_neg (by simp [openSockets, hstate'])]
    exact .connecting (by simp [openSockets, hopened, hdests]) hopened (.inl hbegun) hpayload
  · rw [if_neg (by simp [openSockets, hresolve])]
    exact .resolving (by simp [openSockets, hopened, hdests]) hresolve hopened hasked hpayload

theorem clientReadyRead_begun (s : ProxyConnection C) (hdests : s.dests = [{}])
    (hbegun : Begun s.conn)
    (hclean : Clean s.conn) (writes : List ℕ) : clientReadyRead P writes s = s := by
  obtain ⟨hstate, hopened, -⟩ := hreads.begun_state hbegun
  have hsame : openSockets P s = s := by
    unfold openSockets
    rw [hopened, hdests, List.length_singleton, Nat.sub_self, List.replicate_zero, List.append_nil,
      ← hdests]
  unfold clientReadyRead
  dsimp only
  rw [if_pos hstate, hreads.begun_read hbegun hclean, hsame, if_neg (by simp [hstate])]

omit hreads in
theorem clientReadyRead_resolve (s : ProxyConnection C) (hstate : P.state s.conn = .resolve)
    (writes : List ℕ) : clientReadyRead P writes s = s := by
  have hread : P.state s.conn ≠ .handshake := by simp [hstate]
  unfold clientReadyRead
  dsimp only
  rw [if_neg hread, if_neg (by simp [hstate])]

theorem inv_clientReadyRead_proxy (s : ProxyConnection C) {d : DestSocket}
    (hdests : s.dests = [d]) (hconnected : d.connected = true) (hstate : P.state s.conn = .proxy)
    (hopened : P.opened s.conn = 1)
    (hkept : payload a = some (d.received ++ d.bytesToWrite ++ P.available s.conn))
    {writes : List ℕ} (hwrites : WritesAll (P.available s.conn) d.bytesToWrite writes) :
    Inv P payload Early Begun quiet a (clientReadyRead P writes s) := by
  have hread : P.state s.conn ≠ .handshake := by simp [hstate]
  unfold clientReadyRead clientProxyRead
  dsimp only
  rw [if_neg hread, if_pos hstate, hdests, List.getLast?_singleton]
  dsimp only
  rw [proxy_of_writesAll hwrites]
  generalize hn : room (P.available s.conn) d.bytesToWrite = n
  have hdone := drop_room_eq_nil_or (P.available s.conn) d.bytesToWrite
  rw [hn] at hdone
  refine .copying { d with bytesToWrite := d.bytesToWrite ++ (P.available s.conn).take n } rfl
    hconnected ?_ ?_ ?_ ?_
  · rw [hreads.socket.state, hstate]
  · rw [hreads.socket.opened, hopened]
  · rw [hkept, hreads.socket.available]
    simp
  · rw [hreads.socket.available]
    rcases hdone with hall | hfull
    · exact .inl hall
    · exact .inr (.inr hfull)

/-- A handler that ends the connection leaves the destination with what it has. -/
theorem Inv.ends (h : Inv P payload Early Begun quiet a s) {handler : C → C} (hends : Ends P handler)
    (hquiet : ¬quiet) : Inv P payload Early Begun quiet a { s with conn := handler s.conn } := by
  have htransparent := h.transparent hreads
  exact .closed (hends s.conn).1 htransparent.single htransparent.ordered fun hq => absurd hq hquiet

/-! ### Events -/

omit hreads in
theorem Inv.ite_closed {s' : ProxyConnection C} (h : Inv P payload Early Begun quiet a s)
    (hopen : P.state s.conn ≠ .closed → Inv P payload Early Begun quiet a s') :
    Inv P payload Early Begun quiet a (if P.state s.conn = .closed then s else s') := by
  split_ifs with hclosed
  · exact h
  · exact hopen hclosed

theorem Inv.arrive (h : Inv P payload Early Begun quiet a s) (hquiet : quiet → sockets)
    (chunk : List Byte) (writes : List ℕ) (hguard : Guard P Clean s (.arrive chunk, writes)) :
    Inv P payload Early Begun quiet (a ++ chunk) (step P s (.arrive chunk, writes)) := by
  have hmore : ∀ p, payload a = some p → payload (a ++ chunk) = some (p ++ chunk) := fun p hp =>
    hreads.payload_append chunk hp
  have havailable := hreads.socket.available (P.available s.conn ++ chunk) s.conn
  have hstate' := hreads.socket.state (P.available s.conn ++ chunk) s.conn
  have hopened' := hreads.socket.opened (P.available s.conn ++ chunk) s.conn
  have hasked' := hreads.socket.asked (P.available s.conn ++ chunk) s.conn
  unfold step
  cases h with
  | early hdests hearly hread =>
    have hstate := (hreads.early_state hearly).1
    rw [if_neg (by simp [hstate])]
    exact inv_clientReadyRead_early hreads
      { s with conn := P.setAvailable (P.available s.conn ++ chunk) s.conn } hquiet hdests
      (hreads.early_arrive chunk hearly) (hguard.1 hstate)
  | resolving hdests hstate hopened hasked hwaits =>
    rw [if_neg (by simp [hstate])]
    dsimp only
    rw [clientReadyRead_resolve _ (hstate'.trans hstate)]
    exact .resolving hdests (hstate'.trans hstate) (hopened'.trans hopened) (hasked'.trans hasked)
      (by rw [havailable]; exact hmore _ hwaits)
  | connecting hdests hopened hstate hwaits =>
    have hwaits' : payload (a ++ chunk) =
        some (P.available (P.setAvailable (P.available s.conn ++ chunk) s.conn)) := by
      rw [havailable]
      exact hmore _ hwaits
    rcases hstate with hbegun | hstate
    · have hstate := (hreads.begun_state hbegun).1
      have hbegun' := hreads.begun_arrive (P.available s.conn ++ chunk) hbegun
      rw [if_neg (by simp [hstate])]
      dsimp only
      rw [clientReadyRead_begun hreads
        { s with conn := P.setAvailable (P.available s.conn ++ chunk) s.conn } hdests hbegun'
        (hguard.1 hstate)]
      exact .connecting hdests (hopened'.trans hopened) (.inl hbegun') hwaits'
    · rw [if_neg (by simp [hstate])]
      dsimp only
      rw [clientReadyRead_resolve _ (hstate'.trans hstate)]
      exact .connecting hdests (hopened'.trans hopened) (.inr (hstate'.trans hstate)) hwaits'
  | copying d hdests hconnected hstate hopened hkept hflows =>
    rw [if_neg (by simp [hstate])]
    have htakes : WritesAll (P.available (P.setAvailable (P.available s.conn ++ chunk) s.conn))
        d.bytesToWrite writes := by
      rw [havailable]
      exact hguard.2 hstate d (by rw [hdests]; rfl)
    refine inv_clientReadyRead_proxy hreads
      { s with conn := P.setAvailable (P.available s.conn ++ chunk) s.conn } hdests
      hconnected (hstate'.trans hstate) (hopened'.trans hopened) ?_ htakes
    rw [havailable, hmore _ hkept]
    simp
  | closed hstate hsingle hordered hcause =>
    rw [if_pos hstate]
    refine .closed hstate hsingle (fun d hd => ?_) fun hq b => ?_
    · obtain ⟨p, hp, hprefix⟩ := hordered d hd
      exact ⟨_, hmore p hp, hprefix.trans (List.prefix_append _ _)⟩
    · rw [List.append_assoc]
      exact hcause hq (chunk ++ b)

theorem Inv.call (h : Inv P payload Early Begun quiet a s) (hquiet : quiet → sockets)
    (writes : List ℕ) (hguard : Guard P Clean s (.call, writes)) :
    Inv P payload Early Begun quiet a (step P s (.call, writes)) := by
  refine h.ite_closed fun hclosed => ?_
  dsimp only
  by_cases hqueued : s.queued = 0
  · rw [if_pos hqueued]
    exact h
  rw [if_neg hqueued]
  cases h with
  | early hdests hearly hread =>
    exact inv_clientReadyRead_early hreads { s with queued := s.queued - 1 } hquiet hdests hearly
      ((hguard hqueued).1 (hreads.early_state hearly).1)
  | resolving hdests hstate hopened hasked hwaits =>
    rw [clientReadyRead_resolve { s with queued := s.queued - 1 } hstate]
    exact .resolving hdests hstate hopened hasked hwaits
  | connecting hdests hopened hstate hwaits =>
    have hread : clientReadyRead P writes { s with queued := s.queued - 1 } =
        { s with queued := s.queued - 1 } := by
      rcases hstate with hbegun | hstate
      · exact clientReadyRead_begun hreads { s with queued := s.queued - 1 } hdests hbegun
          ((hguard hqueued).1 (hreads.begun_state hbegun).1) writes
      · exact clientReadyRead_resolve { s with queued := s.queued - 1 } hstate writes
    rw [hread]
    exact .connecting hdests hopened hstate hwaits
  | copying d hdests hconnected hstate hopened hkept hflows =>
    exact inv_clientReadyRead_proxy hreads { s with queued := s.queued - 1 } hdests hconnected
      hstate hopened hkept
      ((hguard hqueued).2 hstate d (by rw [hdests]; rfl))
  | closed hstate hsingle hordered hcause => exact absurd hstate hclosed

theorem Inv.resolved (h : Inv P payload Early Begun quiet a s) (hquiet : quiet → sockets)
    (address : QHostAddress) (writes : List ℕ) :
    Inv P payload Early Begun quiet a (step P s (.resolved address, writes)) := by
  have hagain : P.opened s.conn = 1 → s.dests.length = 1 →
      openSockets P { s with conn := P.onHostnameResolved address s.conn } = s := by
    intro hopened hlen
    rw [hreads.resolved_again address (by omega)]
    unfold openSockets
    dsimp only
    rw [hopened, hlen, Nat.sub_self, List.replicate_zero, List.append_nil]
  refine h.ite_closed fun hclosed => ?_
  dsimp only
  by_cases hasked : P.asked s.conn = true
  swap
  · rw [if_neg hasked]
    exact h
  rw [if_pos hasked]
  have hsame := h
  cases h with
  | early hdests hearly hread =>
    have hno := (hreads.early_state hearly).2.2
    rw [hno] at hasked
    cases hasked
  | resolving hdests hstate hopened _ hwaits =>
    rcases hreads.resolved address hopened hstate with
      ⟨hstate', hopened', havailable⟩ | ⟨hclosed', hopened', hsockets⟩
    · exact .connecting (by simp [openSockets, hopened', hdests]) hopened' (.inr hstate')
        (by rw [← havailable] at hwaits; exact hwaits)
    · have hdests' : s.dests ++ List.replicate
          (P.opened (P.onHostnameResolved address s.conn) - s.dests.length) ({} : DestSocket) = [] := by
        simp [hopened', hdests]
      exact .closed hclosed' (by simp [openSockets, hdests']) (by simp [openSockets, hdests'])
        fun hq => absurd (hquiet hq) hsockets
  | connecting hdests hopened hstate hwaits =>
    rw [hagain hopened (by simp [hdests])]
    exact hsame
  | copying d hdests hconnected hstate hopened hkept hflows =>
    rw [hagain hopened (by simp [hdests])]
    exact hsame
  | closed hstate hsingle hordered hcause => exact absurd hstate hclosed

omit hreads in
theorem getElem?_singleton_eq_some {d d' : DestSocket} {dest : ℕ} (hdests : s.dests = [d])
    (h : s.dests[dest]? = some d') : dest = 0 ∧ d' = d := by
  rw [hdests] at h
  cases dest with
  | zero => exact ⟨rfl, (Option.some.inj h).symm⟩
  | succ n => simp at h

theorem Inv.connected (h : Inv P payload Early Begun quiet a s) (dest : ℕ) (writes : List ℕ)
    (hguard : Guard P Clean s (.connected dest, writes)) :
    Inv P payload Early Begun quiet a (step P s (.connected dest, writes)) := by
  refine h.ite_closed fun hclosed => ?_
  dsimp only
  cases hdest : s.dests[dest]? with
  | none => exact h
  | some d =>
    dsimp only
    by_cases hconnected : d.connected = true
    · rw [if_pos hconnected]
      exact h
    rw [if_neg hconnected]
    cases h with
    | early hdests hearly hread => simp [hdests] at hdest
    | resolving hdests hstate hopened hasked hwaits => simp [hdests] at hdest
    | connecting hdests hopened hstate hwaits =>
      obtain ⟨rfl, rfl⟩ := getElem?_singleton_eq_some hdests hdest
      obtain ⟨hstate', hopened', havailable⟩ := hreads.connected s.conn
      have hproxy : P.state s.conn ≠ .proxy := by
        rcases hstate with hbegun | hstate
        · simp [(hreads.begun_state hbegun).1]
        · simp [hstate]
      unfold onConnected
      dsimp only
      rw [if_neg hproxy, hdests]
      refine inv_clientReadyRead_proxy hreads
        { s with conn := P.onConnected s.conn, dests := [{ connected := true }] } rfl rfl hstate'
        (hopened'.trans hopened) ?_ ?_
      · rw [havailable]
        exact hwaits
      · rw [havailable]
        exact hguard hproxy {} (by rw [hdests]; rfl)
    | copying d' hdests hconnected' hstate hopened hkept hflows =>
      obtain ⟨-, rfl⟩ := getElem?_singleton_eq_some hdests hdest
      exact absurd hconnected' hconnected
    | closed hstate hsingle hordered hcause => exact absurd hstate hclosed

omit hreads in
theorem Inv.written (h : Inv P payload Early Begun quiet a s) (dest count : ℕ) (writes : List ℕ) :
    Inv P payload Early Begun quiet a (step P s (.written dest count, writes)) := by
  refine h.ite_closed fun hclosed => ?_
  dsimp only
  cases hdest : s.dests[dest]? with
  | none => exact h
  | some d =>
    dsimp only
    by_cases hwritten : (d.connected && !(d.bytesToWrite.take count).isEmpty) = true
    swap
    · rw [if_neg hwritten]
      exact h
    rw [if_pos hwritten]
    have hconnected := (Bool.and_eq_true_iff.mp hwritten).1
    cases h with
    | early hdests hearly hread => simp [hdests] at hdest
    | resolving hdests hstate hopened hasked hwaits => simp [hdests] at hdest
    | connecting hdests hopened hstate hwaits =>
      obtain ⟨-, rfl⟩ := getElem?_singleton_eq_some hdests hdest
      cases hconnected
    | copying d' hdests hconnected' hstate hopened hkept hflows =>
      obtain ⟨rfl, rfl⟩ := getElem?_singleton_eq_some hdests hdest
      unfold onWritten
      dsimp only
      rw [hdests]
      refine .copying _ rfl hconnected hstate hopened ?_ (.inr (.inl (Nat.succ_ne_zero _)))
      rw [hkept]
      dsimp only
      rw [List.append_assoc d.received (d.bytesToWrite.take count), List.take_append_drop]
    | closed hstate hsingle hordered hcause => exact absurd hstate hclosed

theorem Inv.ite_ends (h : Inv P payload Early Begun quiet a s) {handler : C → C}
    (hends : Ends P handler) (hquiet : ¬quiet) (p : Prop) [Decidable p] :
    Inv P payload Early Begun quiet a (if p then { s with conn := handler s.conn } else s) := by
  split_ifs
  · exact h.ends hreads hends hquiet
  · exact h

/-- **One step.** -/
theorem inv_step (h : Inv P payload Early Begun quiet a s) {e : Event × List ℕ}
    (hguard : Guard P Clean s e) (hquiet : quiet → sockets ∧ ¬e.1.Fails) :
    Inv P payload Early Begun quiet (a ++ e.1.bytes) (step P s e) := by
  obtain ⟨e, writes⟩ := e
  have hsockets : quiet → sockets := fun hq => (hquiet hq).1
  have hfails : e.Fails → ¬quiet := fun hfails hq => (hquiet hq).2 hfails
  -- the other events bring no bytes
  have hnil : ∀ {s'}, Inv P payload Early Begun quiet a s' →
      Inv P payload Early Begun quiet (a ++ []) s' := by
    intro s' h'
    rwa [List.append_nil]
  cases e with
  | arrive chunk => exact h.arrive hreads hsockets chunk writes hguard
  | call => exact hnil (h.call hreads hsockets writes hguard)
  | resolved address => exact hnil (h.resolved hreads hsockets address writes)
  | notFound =>
    exact hnil (h.ite_closed fun _ => h.ite_ends hreads hreads.ends_notFound (hfails trivial) _)
  | connected dest => exact hnil (h.connected hreads dest writes hguard)
  | written dest count => exact hnil (h.written dest count writes)
  | destClosed dest =>
    exact hnil (h.ite_closed fun _ => h.ite_ends hreads hreads.ends_close (hfails trivial) _)
  | destFailed dest =>
    exact hnil (h.ite_closed fun _ => h.ite_ends hreads hreads.ends_error (hfails trivial) _)
  | clientClosed =>
    exact hnil (h.ite_closed fun _ => h.ends hreads hreads.ends_close (hfails trivial))

omit hreads

/-! ## Runs -/

/-- What the client has sent in a run. -/
def sent (first : List Byte) (events : List (Event × List ℕ)) : List Byte :=
  first ++ events.flatMap (·.1.bytes)

/-- A connection is made when some bytes of the client are there. -/
def start (P : ProxyProtocol C) (initial : C) (first : List Byte) : ProxyConnection C where
  conn := P.setAvailable first initial

include hreads in
/-- **Runs.** As long as the handshake reads nothing but the request and no write is short, the
connection is transparent; and it is closed only when something fails or the stream is no
request. -/
theorem transparent_run {initial : C} (hinitial : ∀ first, Early first (P.setAvailable first initial))
    (first : List Byte) (events : List (Event × List ℕ))
    (hguard : Guarded (step P) (Guard P Clean) (start P initial first) events) :
    Transparent P payload (sockets ∧ ∀ e ∈ events, ¬e.1.Fails) (sent first events)
      (events.foldl (step P) (start P initial first)) := by
  have hrun : ∀ (events : List (Event × List ℕ)) (a : List Byte) (s : ProxyConnection C)
      (quiet : Prop), Guarded (step P) (Guard P Clean) s events →
      Inv P payload Early Begun quiet a s → (quiet → sockets ∧ ∀ e ∈ events, ¬e.1.Fails) →
      Inv P payload Early Begun quiet (a ++ events.flatMap (·.1.bytes))
        (events.foldl (step P) s) := by
    intro events
    induction events with
    | nil =>
      intro a s quiet _ h _
      rw [List.flatMap_nil, List.append_nil]
      exact h
    | cons e events ih =>
      intro a s quiet hguard h hquiet
      have hstep := inv_step hreads h hguard.1 fun hq =>
        ⟨(hquiet hq).1, (hquiet hq).2 e List.mem_cons_self⟩
      rw [List.flatMap_cons, ← List.append_assoc]
      exact ih _ _ _ hguard.2 hstep fun hq =>
        ⟨(hquiet hq).1, fun e' he' => (hquiet hq).2 e' (List.mem_cons_of_mem _ he')⟩
  have hstart : Inv P payload Early Begun (sockets ∧ ∀ e ∈ events, ¬e.1.Fails) first
      (start P initial first) := .early rfl (hinitial first) (.inl Nat.one_ne_zero)
  exact (hrun events first _ _ hguard hstart id).transparent hreads

end Protocols

end ProxyConnection

end WgDesktop
