import WgDesktop.Socks5.HttpConnection
import WgDesktop.Socks5.Socks5Protocol

/-!
# Transparency of the proxy

The runs of a SOCKS5 and of an HTTP connection, from the request of the client to the bytes that the
destination receives. Both read on after they have begun to connect to an address, and what the
client has sent behind its request by then may be taken for more of it; and what a short write does
not take is lost. `proxy_transparent` says that nothing else goes wrong.
-/

namespace WgDesktop.ProxyConnection

open Bytes Runs

/-- A run of a SOCKS5 connection in which nothing but the request is read as such, and every write
takes the bytes it is given. -/
abbrev CleanSocks5 (net : Network) (clientPort : BitVec 16) (destError : String) (first : List Byte)
    (events : List (Event × List ℕ)) : Prop :=
  Guarded (step (Socks5Connection.protocol net clientPort destError))
    (Guard (Socks5Connection.protocol net clientPort destError) Socks5Connection.Clean)
    (start (Socks5Connection.protocol net clientPort destError) .initial first) events

/-- A run of an HTTP connection in which nothing but the request is read as such, and every write
takes the bytes it is given. -/
abbrev CleanHttp (net : HttpNetwork) (first : List Byte) (events : List (Event × List ℕ)) : Prop :=
  Guarded (step (HttpConnection.protocol net))
    (Guard (HttpConnection.protocol net) HttpConnection.Clean)
    (start (HttpConnection.protocol net) {} first) events

/-- What the run of a protocol should come to. -/
abbrev TransparentRun {C : Type} (P : ProxyProtocol C) (payload : List Byte → Option (List Byte))
    (initial : C) (sockets : Prop) (first : List Byte) (events : List (Event × List ℕ)) : Prop :=
  Transparent P payload (sockets ∧ ∀ e ∈ events, ¬e.1.Fails) (sent first events)
    (events.foldl (step P) (start P initial first))

/-- A network in which every socket can be made and one address is known by its text. -/
def openNetwork : HttpNetwork where
  fromUtf8 bytes := bytes.map fun b => Char.ofNat b.toNat
  socketError _ := none
  errorString := ""
  fromPercentEncoding host := host
  setAddress host := if host = "1.1.1.1".toList then some (.ipv4 0x01010101#32) else none

/-- The greeting and the request of a client that wants to talk to `1.1.1.1`. -/
def socks5Request : List Byte :=
  [0x05, 0x01, 0x00] ++ [0x05, 0x01, 0x00, 0x01] ++ [0x01, 0x01, 0x01, 0x01, 0x00, 0x50]

@[inherit_doc socks5Request]
def httpRequest : List Byte := HttpConnection.ascii "CONNECT 1.1.1.1:80 HTTP/1.1\r\n\r\n"

/-- The destination is connected before the client sends more. -/
def orderly : List (Event × List ℕ) :=
  [(.call, []), (.connected 0, []),
    (.arrive (HttpConnection.ascii "hello\n"), [maxConnectionBuffer])]

/-- The client sends more before the destination is connected. -/
def early : List (Event × List ℕ) :=
  [(.call, []), (.arrive (HttpConnection.ascii "hello\n"), [])]

theorem payload_httpRequest : HttpConnection.payload openNetwork httpRequest = some [] := by
  have hclean : CleanHttp openNetwork httpRequest [(.call, [])] := by
    refine ⟨fun _ => ⟨fun _ h => absurd rfl h, fun h => ?_⟩, trivial⟩
    cases h
  have hrun := transparent_run HttpConnection.reads_http HttpConnection.before_initial httpRequest
    [(.call, [])] hclean
  exact hrun.kept (by decide) {} (by decide)

end WgDesktop.ProxyConnection
