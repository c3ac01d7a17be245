import WgDesktop.Lib.Bytes
import WgDesktop.Net.HostAddress

/-!
# The SOCKS5 handshake

`Socks5Connection` of the proxy extension, from the client's greeting to the request it makes to the
resolver or to the destination. `handshakeRead` is called for every arrival of client bytes; its
four stages follow each other by fall-through, and each one waits until its bytes are there.

The client socket takes every write while it is open, and a read returns what it has, up to the
length asked for. What happens after the destination connects is not part of the handshake.
-/

namespace WgDesktop

open Bytes

/-- `ProxyState` and `Socks5State`. -/
inductive Socks5State where
  | closed
  | proxy
  | resolve
  | clientGreeting
  | authenticationMethods
  | clientConnectionRequest
  | clientConnectionAddress
  deriving DecidableEq, Repr

/-- `m_state >= Handshake`. -/
def Socks5State.isHandshake : Socks5State → Bool
  | closed | proxy | resolve => false
  | _ => true

/-- `Socks5Replies`. -/
inductive Socks5Reply where
  | success
  | errorGeneral
  | connectionNotAllowed
  | errorNetworkUnreachable
  | errorHostUnreachable
  | errorConnectionRefused
  | errorTTLExpired
  | errorCommandNotSupported
  | errorAddressNotSupported
  deriving DecidableEq, Repr

def Socks5Reply.toByte : Socks5Reply → Byte
  | success => 0
  | errorGeneral => 1
  | connectionNotAllowed => 2
  | errorNetworkUnreachable => 3
  | errorHostUnreachable => 4
  | errorConnectionRefused => 5
  | errorTTLExpired => 6
  | errorCommandNotSupported => 7
  | errorAddressNotSupported => 8

/-- What the connection asks the system: the text of UTF-8 bytes, the error of a new socket for an
address if there is one, and the error text of a client socket that has none. -/
structure Network where
  fromUtf8 : List Byte → List Char
  socketError : QHostAddress → Option String
  errorString : String

structure Socks5Connection where
  state : Socks5State
  authNumber : Byte
  addressType : Byte
  /-- The bytes that wait on the client socket. -/
  available : List Byte
  /-- The bytes written to the client socket. -/
  sent : List Byte
  destAddress : QHostAddress
  destHostname : List Char
  destPort : BitVec 16
  /-- The names handed to the resolver. -/
  resolves : List (List Char)
  /-- The addresses and ports of the connections opened. -/
  connects : List (QHostAddress × BitVec 16)
  errorString : String

namespace Socks5Connection

/-- A new connection. -/
def initial : Socks5Connection :=
  ⟨.clientGreeting, 0, 0, [], [], .null, [], 0, [], [], ""⟩

def authNotRequired : Byte := 0x00
def authNoAcceptableMethods : Byte := 0xff

/-- The bytes of a `ServerResponsePacket` that reports an error. -/
def serverResponse (reply : Socks5Reply) : List Byte :=
  [0x05, reply.toByte, 0x00, 0x01, 0x00, 0x00, 0x00, 0x00, 0x00, 0x00]

/-- `setState(Closed)`: the client socket is closed, and its bytes are gone. -/
def close (c : Socks5Connection) : Socks5Connection := { c with state := .closed, available := [] }

/-- Reports an error and closes. Between greeting and request there is no response. -/
def setError (c : Socks5Connection) (reason : Socks5Reply) (errorString : String) :
    Socks5Connection :=
  let c := match c.state with
    | .clientGreeting | .clientConnectionRequest | .clientConnectionAddress =>
      { c with sent := c.sent ++ serverResponse reason }
    | _ => c
  { c with errorString := errorString }.close

/-- The next `size` bytes and those behind them, if they have arrived. -/
def readPacket (c : Socks5Connection) (size : ℕ) : Option (List Byte × List Byte) :=
  if c.available.length < size then none
  else some (c.available.take size, c.available.drop size)

/-- Goes on with the next `size` bytes, or waits for them. -/
def withPacket (c : Socks5Connection) (size : ℕ)
    (next : Socks5Connection → List Byte → Socks5Connection) : Socks5Connection :=
  match c.readPacket size with
  | none => c
  | some (packet, rest) => next { c with available := rest } packet

def onGreeting (c : Socks5Connection) (packet : List Byte) : Socks5Connection :=
  let version := packet.getD 0 0
  if version ≠ 0x05 then
    c.setError .errorGeneral ("SOCKS version " ++ toString version.toNat ++ " not supported")
  else { c with authNumber := packet.getD 1 0, state := .authenticationMethods }

/-- `case ClientGreeting`. -/
def readGreeting (c : Socks5Connection) : Socks5Connection := c.withPacket 2 onGreeting

def onMethods (c : Socks5Connection) (methods : List Byte) : Socks5Connection :=
  if !methods.contains authNotRequired then
    { c with sent := c.sent ++ [0x05, authNoAcceptableMethods]
             errorString := "No authentication method was acceptable" }.close
  else { c with sent := c.sent ++ [0x05, authNotRequired], state := .clientConnectionRequest }

/-- `case AuthenticationMethods`. -/
def readMethods (c : Socks5Connection) : Socks5Connection :=
  c.withPacket c.authNumber.toNat onMethods

def onRequest (c : Socks5Connection) (packet : List Byte) : Socks5Connection :=
  if packet.getD 0 0 ≠ 0x05 ∨ packet.getD 2 0 ≠ 0x00 then
    c.setError .errorGeneral "Malformed connection request"
  else if packet.getD 1 0 ≠ 0x01 then
    c.setError .errorCommandNotSupported "Command not supported"
  else { c with addressType := packet.getD 3 0, state := .clientConnectionAddress }

/-- `case ClientConnectionRequest`. -/
def readRequest (c : Socks5Connection) : Socks5Connection := c.withPacket 4 onRequest

section Address

variable (net : Network)

/-- Opens the connection to the destination. The state stays what it is until it is established. -/
def configureOutSocket (c : Socks5Connection) (port : BitVec 16) : Socks5Connection :=
  match net.socketError c.destAddress with
  | some error => { c with errorString := error }.setError .errorGeneral error
  | none => { c with connects := c.connects ++ [(c.destAddress, port)] }

/-- The branches for an address of `size` bytes and a port in network order. -/
def readIpAddress (c : Socks5Connection) (size : ℕ) (address : List Byte → QHostAddress) :
    Socks5Connection :=
  c.withPacket (size + 2) fun c packet =>
    { c with destAddress := address (packet.take size) }.configureOutSocket net
      (Endian.big.word (packet.drop size))

/-- The branch for a host name: a length byte, the name and the port, each read at once. -/
def readDomainName (c : Socks5Connection) : Socks5Connection :=
  match c.available with
  | [] => c
  | length :: rest =>
    let name := rest.take length.toNat
    let rest := rest.drop length.toNat
    if name.length ≠ length.toNat then c.setError .errorGeneral net.errorString
    else
      let port := rest.take 2
      let rest := rest.drop 2
      if port.length ≠ 2 then c.setError .errorGeneral net.errorString
      else
        { c with available := rest
                 destHostname := net.fromUtf8 name
                 destPort := Endian.big.word port
                 state := .resolve
                 resolves := c.resolves ++ [net.fromUtf8 name] }

/-- `case ClientConnectionAddress`. -/
def readAddress (c : Socks5Connection) : Socks5Connection :=
  if c.addressType = 0x01 then c.readIpAddress net 4 fun bs => .ipv4 (Endian.big.word bs)
  else if c.addressType = 0x03 then c.readDomainName net
  else if c.addressType = 0x04 then c.readIpAddress net 16 fun bs => .ipv6 (Endian.big.word bs) []
  else c.setError .errorAddressNotSupported "Address type not supported"

/-- The stages before the address, each falling through to the next. -/
def readToAddress (c : Socks5Connection) : Socks5Connection :=
  let c := if c.state = .clientGreeting then c.readGreeting else c
  let c := if c.state = .authenticationMethods then c.readMethods else c
  if c.state = .clientConnectionRequest then c.readRequest else c

def handshakeRead (c : Socks5Connection) : Socks5Connection :=
  let c := c.readToAddress
  if c.state = .clientConnectionAddress then c.readAddress net else c

/-- The socket takes bytes until it is closed. -/
def feed (c : Socks5Connection) (chunk : List Byte) : Socks5Connection :=
  if c.state = .closed then c else { c with available := c.available ++ chunk }

/-- A chunk arrives, and `clientReadyRead` is called. -/
def arrive (c : Socks5Connection) (chunk : List Byte) : Socks5Connection :=
  let c := c.feed chunk
  if c.state.isHandshake then c.handshakeRead net else c

end Address

end Socks5Connection

end WgDesktop
