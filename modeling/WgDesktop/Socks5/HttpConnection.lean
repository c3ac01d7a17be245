import WgDesktop.Lib.Lines
import WgDesktop.Lib.Text
import WgDesktop.Socks5.Connection
import WgDesktop.Socks5.ProxyConnection

/-!
# HTTP CONNECT

`HttpRequest`, `HttpConnectionBase` and `HttpConnection` of the proxy extension. A request is read
line by line up to an empty line, and `CONNECT` opens a connection to the host and port it names.
`reads_http` says which stream it has read a request from, and what it does with the bytes behind
it: until the destination is connected they are taken as more headers, line by line.
-/

namespace WgDesktop

open Bytes Text

/-! ## Requests -/

structure HttpRequest where
  method : List Char := []
  uri : List Char := []
  verMajor : ℤ := -1
  verMinor : ℤ := -1
  deriving DecidableEq

namespace HttpRequest

/-- `\s` of a regular expression. -/
def isSpace (c : Char) : Bool := c = ' ' || (0x09 ≤ c.toNat && c.toNat ≤ 0x0d)

/-- `QChar::digitValue` for the digits of a version. -/
def digitValue (c : Char) : ℤ := if c.isDigit then (c.toNat : ℤ) - 48 else -1

/-- The match of `HTTP/([0-9].[0-9])`. The version is read by code units, of which the middle
character may have two. -/
def version (s : List Char) : Option (ℤ × ℤ) :=
  if !"HTTP/".toList.isPrefixOf s then none
  else
    match s.drop 5 with
    | major :: dot :: minor :: _ =>
      if major.isDigit && minor.isDigit && dot ≠ '\n' then
        some (digitValue major, if dot.toNat < 0x10000 then digitValue minor else -1)
      else none
    | _ => none

/-- The match of `^([A-Z-]+)\s([^\s]+)*\sHTTP/([0-9].[0-9])`. No part of it can match in two
ways. -/
def ofLine (line : List Char) : HttpRequest :=
  let isMethod := fun c : Char => c.isUpper || c = '-'
  let method := line.takeWhile isMethod
  match line.dropWhile isMethod with
  | [] => {}
  | c :: rest =>
    if method = [] ∨ !isSpace c then {}
    else
      let uri := rest.takeWhile (!isSpace ·)
      match version ((rest.dropWhile (!isSpace ·)).drop 1) with
      | some (verMajor, verMinor) => { method, uri, verMajor, verMinor }
      | none => {}

def isValid (r : HttpRequest) : Bool :=
  r.method ≠ [] && r.uri ≠ [] && 0 < r.verMajor && 0 ≤ r.verMinor

/-- `addHeader`, which refuses lines without a name or without a value. -/
def addHeader (line : List Char) : Bool :=
  match line.idxOf? ':' with
  | none => false
  | some sep => !(sep = 0 || line.length ≤ sep + 1)

/-- The name of the method that handles a request. -/
def handler (method : List Char) : List Char :=
  let step := fun (upper, name) (c : Char) =>
    if !c.isAlpha then (true, name)
    else if upper then (false, name ++ [c.toUpper])
    else (false, name ++ [c.toLower])
  (method.foldl step (true, "onHttp".toList)).2

end HttpRequest

/-! ## Connections -/

/-- What the connection asks the system, and the conversions of Qt. -/
structure HttpNetwork extends Network where
  fromPercentEncoding : List Char → List Char
  setAddress : List Char → Option QHostAddress

structure HttpConnection where
  state : ProxyState := .handshake
  request : HttpRequest := {}
  available : List Byte := []
  sent : List Byte := []
  destAddress : QHostAddress := .null
  destHostname : List Char := []
  destPort : BitVec 16 := 0
  resolves : List (List Char) := []
  connects : List (QHostAddress × BitVec 16) := []
  errorString : String := ""
  /-- A method of a null pointer was called. -/
  crashed : Bool := false

namespace HttpConnection

/-- `QByteArray::trimmed`. -/
def trimmedBytes (bytes : List Byte) : List Byte :=
  Lines.trim (fun b => b = 0x20 || (0x09 ≤ b && b ≤ 0x0d)) bytes

/-- A line with its end, and what comes behind it, if one has arrived. -/
def readLine : List Byte → Option (List Byte × List Byte)
  | [] => none
  | b :: bytes =>
    if b = 0x0a then some ([b], bytes)
    else (readLine bytes).map fun (line, rest) => (b :: line, rest)

/-- The bytes of a text in ASCII. -/
def ascii (text : String) : List Byte := text.toList.map fun c => BitVec.ofNat 8 c.toNat

/-- `sendResponse` without headers. -/
def sendResponse (c : HttpConnection) (code : ℕ) (message : String) : HttpConnection :=
  { c with
    sent := c.sent ++ ascii ("HTTP/1.1 " ++ toString code ++ " " ++ message ++ "\r\n\r\n") }

def close (c : HttpConnection) : HttpConnection := { c with state := .closed, available := [] }

def setError (c : HttpConnection) (code : ℕ) (message : String) : HttpConnection :=
  let c := if c.state ≠ .proxy then c.sendResponse code message else c
  { c with errorString := message }.close

/-- `QString::toUInt`: white space around it is ignored, a plus sign is allowed, and the value
has to fit. -/
def toUInt (s : List Char) : ℕ :=
  let digits :=
    match trimmed s with
    | '+' :: t => t
    | t => t
  ((ofDigits digits).filter (· < 2 ^ 32)).getD 0

section Methods

variable (net : HttpNetwork)

def onHostnameResolved (resolved : QHostAddress) (c : HttpConnection) : HttpConnection :=
  -- there may be several answers
  if c.connects ≠ [] then c
  else
    match net.socketError resolved with
    | none =>
      { c with destAddress := resolved, connects := c.connects ++ [(resolved, c.destPort)] }
    | some error =>
      -- the missing socket is used all the same
      { c with destAddress := resolved, errorString := error, crashed := true }.close

def onHttpConnect (c : HttpConnection) : HttpConnection :=
  match c.request.uri.splitOn ':' with
  | [host, port] =>
    let dest := net.fromPercentEncoding host
    let c := { c with destPort := BitVec.ofNat 16 (toUInt port) }
    match net.setAddress dest with
    | some address => c.onHostnameResolved net address
    | none => { c with destHostname := dest, state := .resolve, resolves := c.resolves ++ [dest] }
  | _ => c.setError 400 "Bad Request"

/-- The empty line behind the headers. Of the methods that requests may name there is one. -/
def invokeMethod (c : HttpConnection) : HttpConnection :=
  if HttpRequest.handler c.request.method = "onHttpConnect".toList then c.onHttpConnect net
  else c.setError 405 "Method Not Allowed"

/-- The loop of `handshakeRead`, with a bound on the number of lines. -/
def handshakeReadWith : ℕ → HttpConnection → HttpConnection
  | 0, c => c
  | fuel + 1, c =>
    match readLine c.available with
    | none => c
    | some (bytes, rest) =>
      let c := { c with available := rest }
      let line := net.fromUtf8 (trimmedBytes bytes)
      if !c.request.isValid then
        let c := { c with request := .ofLine line }
        if !c.request.isValid then c.setError 400 "Bad Request" else handshakeReadWith fuel c
      else if line ≠ [] then
        if !HttpRequest.addHeader line then c.setError 400 "Bad Request"
        else handshakeReadWith fuel c
      else c.invokeMethod net

/-- Every line has a byte. -/
def handshakeRead (c : HttpConnection) : HttpConnection :=
  handshakeReadWith net c.available.length c

def protocol : ProxyProtocol HttpConnection where
  state := state
  available := available
  setAvailable bytes c := { c with available := bytes }
  opened c := c.connects.length
  asked c := !c.resolves.isEmpty
  handshakeRead := handshakeRead net
  onConnected c := { c.sendResponse 200 "OK" with state := .proxy }
  onError c := c.setError 502 "Bad Gateway"
  onHostnameResolved := onHostnameResolved net
  onHostnameNotFound c := c.setError 404 "Not Found"
  close := close

end Methods

/-! ## Streams -/

/-- The request is one to connect to a host and a port. -/
def Connects (r : HttpRequest) : Prop :=
  HttpRequest.handler r.method = "onHttpConnect".toList ∧ (r.uri.splitOn ':').length = 2

instance (r : HttpRequest) : Decidable (Connects r) := inferInstanceAs (Decidable (_ ∧ _))

theorem length_of_readLine {stream bytes rest : List Byte}
    (h : readLine stream = some (bytes, rest)) : rest.length < stream.length := by
  induction stream generalizing bytes with
  | nil => cases h
  | cons b stream ih =>
    unfold readLine at h
    split_ifs at h with hnl
    · obtain ⟨-, rfl⟩ := Prod.mk.inj (Option.some.inj h)
      exact Nat.lt_succ_self _
    · obtain ⟨⟨line, rest'⟩, hline, heq⟩ := Option.map_eq_some_iff.mp h
      obtain ⟨-, rfl⟩ := Prod.mk.inj heq
      exact (ih hline).trans (Nat.lt_succ_self _)

theorem readLine_append {stream bytes rest : List Byte} (h : readLine stream = some (bytes, rest))
    (chunk : List Byte) : readLine (stream ++ chunk) = some (bytes, rest ++ chunk) := by
  induction stream generalizing bytes with
  | nil => cases h
  | cons b stream ih =>
    unfold readLine at h
    rw [List.cons_append, readLine]
    split_ifs at h ⊢ with hnl
    · obtain ⟨rfl, rfl⟩ := Prod.mk.inj (Option.some.inj h)
      rfl
    · obtain ⟨⟨line, rest'⟩, hline, heq⟩ := Option.map_eq_some_iff.mp h
      obtain ⟨rfl, rfl⟩ := Prod.mk.inj heq
      rw [ih hline]
      rfl

section Streams

variable (net : HttpNetwork)

/-- What comes behind a request, if it is complete. `request` is its first line, once it was
read. -/
def payloadFrom (request : HttpRequest) (stream : List Byte) : Option (List Byte) :=
  match hline : readLine stream with
  | none => none
  | some (bytes, rest) =>
    have _hlength := length_of_readLine hline
    let line := net.fromUtf8 (trimmedBytes bytes)
    if !request.isValid then
      if (HttpRequest.ofLine line).isValid then payloadFrom (.ofLine line) rest else none
    else if line ≠ [] then if HttpRequest.addHeader line then payloadFrom request rest else none
    else if Connects request then some rest else none
termination_by stream.length

def payload (stream : List Byte) : Option (List Byte) := payloadFrom net {} stream

variable {net} {request : HttpRequest} {stream bytes rest p : List Byte}

theorem payloadFrom_of_none (h : readLine stream = none) : payloadFrom net request stream = none := by
  unfold payloadFrom
  split
  · rfl
  · rename_i hline
    rw [h] at hline
    cases hline

theorem payloadFrom_of_line (h : readLine stream = some (bytes, rest)) :
    payloadFrom net request stream =
      if !request.isValid then
        if (HttpRequest.ofLine (net.fromUtf8 (trimmedBytes bytes))).isValid then
          payloadFrom net (.ofLine (net.fromUtf8 (trimmedBytes bytes))) rest
        else none
      else if net.fromUtf8 (trimmedBytes bytes) ≠ [] then
        if HttpRequest.addHeader (net.fromUtf8 (trimmedBytes bytes)) then payloadFrom net request rest
        else none
      else if Connects request then some rest else none := by
  rw [payloadFrom]
  split
  · rename_i hline
    rw [h] at hline
    cases hline
  · rename_i bytes' rest' hline
    rw [h] at hline
    obtain ⟨rfl, rfl⟩ := Prod.mk.inj (Option.some.inj hline)
    rfl

theorem payloadFrom_of_request (h : readLine stream = some (bytes, rest))
    (hvalid : request.isValid = false) {line : List Char}
    (hline : net.fromUtf8 (trimmedBytes bytes) = line) :
    payloadFrom net request stream =
      if (HttpRequest.ofLine line).isValid then payloadFrom net (.ofLine line) rest else none := by
  rw [payloadFrom_of_line h, hline, if_pos (by simp [hvalid])]

theorem payloadFrom_of_header (h : readLine stream = some (bytes, rest))
    (hvalid : request.isValid = true) {line : List Char}
    (hline : net.fromUtf8 (trimmedBytes bytes) = line) :
    payloadFrom net request stream =
      if line ≠ [] then if HttpRequest.addHeader line then payloadFrom net request rest else none
      else if Connects request then some rest else none := by
  rw [payloadFrom_of_line h, hline, if_neg (by simp [hvalid])]

theorem payloadFrom_append (h : payloadFrom net request stream = some p) (chunk : List Byte) :
    payloadFrom net request (stream ++ chunk) = some (p ++ chunk) := by
  induction hn : stream.length using Nat.strong_induction_on generalizing request stream with
  | _ n ih =>
    cases hline : readLine stream with
    | none =>
      rw [payloadFrom_of_none hline] at h
      cases h
    | some r =>
      obtain ⟨bytes, rest⟩ := r
      have hlt : rest.length < n := hn ▸ length_of_readLine hline
      rw [payloadFrom_of_line hline] at h
      rw [payloadFrom_of_line (readLine_append hline chunk)]
      split_ifs at h ⊢
      · exact ih _ hlt h rfl
      · exact ih _ hlt h rfl
      · rw [Option.some.inj h]

/-! ## What is read -/

/-- It has opened nothing yet. -/
structure Fresh (c : HttpConnection) : Prop where
  state : c.state = .handshake
  connects : c.connects = []
  resolves : c.resolves = []

/-- It goes on with the stream where it stands. -/
structure Before (net : HttpNetwork) (stream : List Byte) (c : HttpConnection) : Prop extends
    Fresh c where
  read : ∀ chunk, payloadFrom net c.request (c.available ++ chunk) = payload net (stream ++ chunk)

/-- It waits for the destination that an address led to. -/
structure Begun (c : HttpConnection) : Prop where
  state : c.state = .handshake
  connects : c.connects.length = 1
  resolves : c.resolves = []

/-- Nothing is read but the request: when a connection was begun, no line waits on the socket. -/
def Clean (c : HttpConnection) : Prop := c.connects ≠ [] → readLine c.available = none

instance : DecidablePred Clean := fun c =>
  inferInstanceAs (Decidable (c.connects ≠ [] → readLine c.available = none))

/-- What a connection has made of a stream: it waits for more, has refused it or has no socket, or
has asked for the destination and left the rest alone. -/
inductive Outcome (net : HttpNetwork) (stream : List Byte) (c : HttpConnection) : Prop
  | waiting (before : Before net stream c) (none : payload net stream = none)
  | refused (state : c.state = .closed) (connects : c.connects = [])
      (cause : (∀ address, net.socketError address = none) →
        ∀ chunk, payload net (stream ++ chunk) = none)
  | begun (payload : payload net stream = some c.available) (begun : Begun c)
  | resolving (payload : payload net stream = some c.available) (state : c.state = .resolve)
      (connects : c.connects = []) (resolves : c.resolves ≠ [])

variable {c : HttpConnection}

theorem connects_setError (c : HttpConnection) (code : ℕ) (message : String) :
    (c.setError code message).connects = c.connects := by
  unfold setError sendResponse close
  dsimp only
  split_ifs
  · rfl
  · rfl

theorem Fresh.refuse (h : Fresh c)
    (hnone : ∀ chunk, payload net (stream ++ chunk) = none) (code : ℕ) (message : String) :
    Outcome net stream (c.setError code message) :=
  .refused rfl ((connects_setError c code message).trans h.connects) fun _ => hnone

/-- An address that was named, or that a name stands for, is connected to, if there is a socket. -/
theorem onHostnameResolved_of_nil (address : QHostAddress) (hconnects : c.connects = []) :
    ((c.onHostnameResolved net address).state = c.state ∧
      (c.onHostnameResolved net address).connects.length = 1 ∧
      (c.onHostnameResolved net address).available = c.available ∧
      (c.onHostnameResolved net address).resolves = c.resolves) ∨
    ((c.onHostnameResolved net address).state = .closed ∧
      (c.onHostnameResolved net address).connects = [] ∧ net.socketError address ≠ none) := by
  unfold onHostnameResolved
  rw [if_neg (not_not.mpr hconnects)]
  cases hsocket : net.socketError address with
  | none => exact .inl ⟨rfl, by simp [hconnects], rfl, rfl⟩
  | some error => exact .inr ⟨rfl, hconnects, by simp⟩

theorem Fresh.outcome_onHttpConnect (h : Fresh c)
    (hpayload : payload net stream = some c.available) {host port : List Char}
    (huri : c.request.uri.splitOn ':' = [host, port]) :
    Outcome net stream (c.onHttpConnect net) := by
  unfold onHttpConnect
  rw [huri]
  dsimp only
  cases haddress : net.setAddress (net.fromPercentEncoding host) with
  | none => exact .resolving hpayload rfl h.connects (by simp)
  | some address =>
    dsimp only
    have hopened := @onHostnameResolved_of_nil net
      { c with destPort := BitVec.ofNat 16 (toUInt port) } address h.connects
    rcases hopened with ⟨hstate, hlen, havailable, hresolves⟩ | ⟨hclosed, hnil, herror⟩
    · exact .begun (by rw [havailable]; exact hpayload)
        ⟨hstate.trans h.state, hlen, hresolves.trans h.resolves⟩
    · exact .refused hclosed hnil fun hsockets => absurd (hsockets address) herror

theorem Fresh.outcome_invokeMethod (h : Fresh c)
    (hpayload : ∀ chunk, payload net (stream ++ chunk) =
      if Connects c.request then some (c.available ++ chunk) else none) :
    Outcome net stream (c.invokeMethod net) := by
  unfold invokeMethod
  by_cases hconnects : Connects c.request
  · obtain ⟨hhandler, hlen⟩ := hconnects
    obtain ⟨host, port, huri⟩ := List.length_eq_two.mp hlen
    rw [if_pos hhandler]
    refine h.outcome_onHttpConnect ?_ huri
    have hnow := hpayload []
    rwa [if_pos ⟨hhandler, hlen⟩, List.append_nil, List.append_nil] at hnow
  · have hnone : ∀ chunk, payload net (stream ++ chunk) = none := by
      intro chunk
      rw [hpayload, if_neg hconnects]
    split_ifs with hhandler
    · unfold onHttpConnect
      split
      · rename_i host port huri
        exact absurd ⟨hhandler, by rw [huri]; rfl⟩ hconnects
      · exact h.refuse hnone _ _
    · exact h.refuse hnone _ _

theorem Before.next (h : Before net stream c) {request' : HttpRequest} {rest : List Byte}
    (hread : ∀ chunk, payloadFrom net c.request (c.available ++ chunk) =
      payloadFrom net request' (rest ++ chunk)) :
    Before net stream { c with available := rest, request := request' } :=
  ⟨⟨h.state, h.connects, h.resolves⟩, fun chunk => (hread chunk).symm.trans (h.read chunk)⟩

theorem Before.outcome_of_none (h : Before net stream c) (hline : readLine c.available = none) :
    Outcome net stream c := by
  refine .waiting h ?_
  have hread := h.read []
  rw [List.append_nil, List.append_nil, payloadFrom_of_none hline] at hread
  exact hread.symm

theorem Before.outcome_with (fuel : ℕ) (h : Before net stream c) (hfuel : c.available.length ≤ fuel) :
    Outcome net stream (handshakeReadWith net fuel c) := by
  induction fuel generalizing c with
  | zero =>
    have hnil : c.available = [] := List.length_eq_zero_iff.mp (Nat.le_zero.mp hfuel)
    exact h.outcome_of_none (by rw [hnil]; rfl)
  | succ fuel ih =>
    cases hline : readLine c.available with
    | none =>
      rw [handshakeReadWith, hline]
      exact h.outcome_of_none hline
    | some r =>
      obtain ⟨bytes, rest⟩ := r
      have hlt := length_of_readLine hline
      have hlength : rest.length ≤ fuel := by omega
      have hread : ∀ chunk, payload net (stream ++ chunk) =
          payloadFrom net c.request (c.available ++ chunk) := fun chunk => (h.read chunk).symm
      have hfresh : ∀ request, Fresh { c with available := rest, request := request } := fun _ =>
        ⟨h.state, h.connects, h.resolves⟩
      rw [handshakeReadWith, hline]
      dsimp only
      obtain ⟨line, htext⟩ : ∃ line, net.fromUtf8 (trimmedBytes bytes) = line := ⟨_, rfl⟩
      rw [htext]
      cases hvalid : c.request.isValid with
      | true =>
        have hstep := fun chunk =>
          payloadFrom_of_header (readLine_append hline chunk) hvalid htext
        rw [Bool.not_true, if_neg Bool.false_ne_true]
        by_cases hempty : line ≠ []
        · simp only [if_pos hempty] at hstep ⊢
          cases hheader : HttpRequest.addHeader line with
          | true =>
            simp only [hheader, if_true] at hstep
            exact ih (h.next hstep) hlength
          | false =>
            simp only [hheader, Bool.false_eq_true, if_false] at hstep
            exact (hfresh c.request).refuse (fun chunk => (hread chunk).trans (hstep chunk)) _ _
        · simp only [if_neg hempty] at hstep ⊢
          exact (hfresh c.request).outcome_invokeMethod fun chunk => (hread chunk).trans (hstep chunk)
      | false =>
        have hstep := fun chunk =>
          payloadFrom_of_request (readLine_append hline chunk) hvalid htext
        rw [Bool.not_false, if_pos rfl]
        cases hrequest : (HttpRequest.ofLine line).isValid with
        | true =>
          simp only [hrequest, if_true] at hstep
          exact ih (h.next hstep) hlength
        | false =>
          simp only [hrequest, Bool.false_eq_true, if_false] at hstep
          exact (hfresh _).refuse (fun chunk => (hread chunk).trans (hstep chunk)) _ _

/-- **What a connection makes of a stream.** -/
theorem Before.outcome (h : Before net stream c) : Outcome net stream (c.handshakeRead net) :=
  h.outcome_with _ le_rfl

theorem before_initial (first : List Byte) : Before net first { available := first } :=
  ⟨⟨rfl, rfl, rfl⟩, fun _ => rfl⟩

theorem Before.arrive (h : Before net stream c) (chunk : List Byte) :
    Before net (stream ++ chunk) { c with available := c.available ++ chunk } := by
  refine ⟨⟨h.state, h.connects, h.resolves⟩, fun more => ?_⟩
  dsimp only
  rw [List.append_assoc, List.append_assoc]
  exact h.read (chunk ++ more)

theorem Begun.handshakeRead (h : Begun c) (hclean : Clean c) : c.handshakeRead net = c := by
  have hne : c.connects ≠ [] := List.ne_nil_of_length_eq_add_one h.connects
  unfold HttpConnection.handshakeRead
  cases c.available.length with
  | zero => rfl
  | succ fuel => rw [handshakeReadWith, hclean hne]

theorem ends_setError (code : ℕ) (message : String) :
    ProxyConnection.Ends (protocol net) fun c => c.setError code message := fun c =>
  ⟨rfl, congrArg List.length (connects_setError c code message)⟩

theorem reads_http : ProxyConnection.Reads (protocol net) (payload net) (Before net) Begun Clean
    (∀ address, net.socketError address = none) where
  socket := ⟨fun _ _ => rfl, fun _ _ => rfl, fun _ _ => rfl, fun _ _ => rfl⟩
  payload_append chunk h := payloadFrom_append h chunk
  early_state h := ⟨h.state, by simp [protocol, h.connects], by simp [protocol, h.resolves]⟩
  early_arrive chunk h := h.arrive chunk
  begun_state h := ⟨h.state, h.connects, by simp [protocol, h.resolves]⟩
  begun_arrive _ h := ⟨h.state, h.connects, h.resolves⟩
  begun_read h hclean := h.handshakeRead hclean
  early_read h _ := by
    cases h.outcome with
    | waiting hbefore hnone => exact .inl ⟨hbefore, hnone⟩
    | refused hclosed hconnects hcause =>
      exact .inr (.inl ⟨hclosed, congrArg List.length hconnects, hcause⟩)
    | begun hpayload hbegun => exact .inr (.inr ⟨hpayload, .inl hbegun⟩)
    | resolving hpayload hstate hconnects hresolves =>
      exact .inr (.inr ⟨hpayload, .inr ⟨hstate, congrArg List.length hconnects,
        by simpa [protocol] using hresolves⟩⟩)
  connected _ := ⟨rfl, rfl, rfl⟩
  resolved_again address hopened := if_pos fun hnil => hopened (by simp [protocol, hnil])
  resolved address hopened hstate := by
    rcases onHostnameResolved_of_nil address (List.length_eq_zero_iff.mp hopened) with
      ⟨hstate', hlen, havailable, -⟩ | ⟨hclosed, hnil, herror⟩
    · exact .inl ⟨hstate'.trans hstate, hlen, havailable⟩
    · exact .inr ⟨hclosed, congrArg List.length hnil, fun hsockets => herror (hsockets address)⟩
  ends_close _ := ⟨rfl, rfl⟩
  ends_error := ends_setError 502 "Bad Gateway"
  ends_notFound := ends_setError 404 "Not Found"

end Streams

end HttpConnection

end WgDesktop
