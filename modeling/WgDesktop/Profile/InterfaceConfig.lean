import WgDesktop.Net.IPAddress

/-!
# `InterfaceConfig`

The configuration of one tunnel, from `src/utils/interfaceconfig.cpp`, and its text form
`toWgConf`.
-/

namespace WgDesktop

open Text

/-- A `QString`. The null string is empty, but `isNull` tells it from the empty string. -/
inductive QString where
  | null
  | text (chars : List Char)
  deriving DecidableEq, Repr

namespace QString

def chars : QString → List Char
  | null => []
  | text s => s

def isNull : QString → Bool
  | null => true
  | text _ => false

def isEmpty (s : QString) : Bool := s.chars.isEmpty

/-- `operator==`: the null and the empty string compare equal. -/
def beq (s t : QString) : Bool := s.chars == t.chars

instance : BEq QString := ⟨beq⟩

@[simp] theorem chars_null : null.chars = [] := rfl
@[simp] theorem chars_text (s : List Char) : (text s).chars = s := rfl
@[simp] theorem isNull_null : null.isNull = true := rfl
@[simp] theorem isNull_text (s : List Char) : (text s).isNull = false := rfl

@[simp] theorem beq_iff {s t : QString} : (s == t) = true ↔ s.chars = t.chars := by
  change (s.chars == t.chars) = true ↔ _
  rw [beq_iff_eq]

end QString

inductive HopType where
  | singleHop
  | multiHopEntry
  | multiHopExit
  deriving DecidableEq, Repr

structure InterfaceConfig where
  hopType : HopType
  privateKey : QString := .null
  deviceIpv4Address : QString := .null
  deviceIpv6Address : QString := .null
  serverIpv4Gateway : QString := .null
  serverIpv6Gateway : QString := .null
  serverPublicKey : QString := .null
  serverIpv4AddrIn : QString := .null
  serverIpv6AddrIn : QString := .null
  dnsServer : QString := .null
  entryCity : QString := .null
  exitCity : QString := .null
  serverPort : ℤ := 0
  allowedIPAddressRanges : List IPAddress := []
  vpnDisabledApps : List (List Char) := []
  deriving DecidableEq, Repr

namespace InterfaceConfig

/-- The lines `"# " << line` of a peer comment. -/
def commentLines (peerComment : List Char) : List Char :=
  if peerComment = [] then []
  else (peerComment.splitOn '\n').flatMap fun line => "# ".toList ++ line ++ ['\n']

/-- The `Endpoint` line: the IPv4 address or host name if there is one, else the IPv6 address. -/
def endpointLine (c : InterfaceConfig) : List Char :=
  if !c.serverIpv4AddrIn.isNull then
    "Endpoint = ".toList ++ c.serverIpv4AddrIn.chars ++ ':' :: decimal c.serverPort ++ ['\n']
  else if !c.serverIpv6AddrIn.isNull then
    "Endpoint = [".toList ++ c.serverIpv6AddrIn.chars ++ "]:".toList ++ decimal c.serverPort ++
      ['\n']
  else []

/-- The `DNS` line. -/
def dnsLine (c : InterfaceConfig) : List Char :=
  if c.dnsServer.isNull then []
  else
    let dnsServers :=
      if c.dnsServer == c.serverIpv4Gateway then [c.dnsServer.chars, c.serverIpv6Gateway.chars]
      else [c.dnsServer.chars]
    "DNS = ".toList ++ ", ".toList.intercalate dnsServers ++ ['\n']

/-- The device addresses that are present. -/
def addresses (c : InterfaceConfig) : List (List Char) :=
  (if !c.deviceIpv4Address.isNull then [c.deviceIpv4Address.chars] else []) ++
    (if !c.deviceIpv6Address.isNull then [c.deviceIpv6Address.chars] else [])

/-- The fields `toWgConf` refuses to write when they contain a line break. -/
def validated (c : InterfaceConfig) : List QString :=
  [c.privateKey, c.deviceIpv4Address, c.deviceIpv6Address, c.serverIpv4Gateway,
    c.serverIpv6Gateway, c.serverPublicKey, c.serverIpv4AddrIn, c.serverIpv6AddrIn]

/-- `toWgConf(extra, peerComment)`, with `extra` in key order. -/
def toWgConf (T : HostAddressText) (c : InterfaceConfig)
    (extra : List (List Char × List Char)) (peerComment : List Char) : List Char :=
  if c.validated.any fun s => s.chars.contains '\n' then []
  else if c.addresses.isEmpty then []
  else
    "[Interface]\n".toList ++
    ("PrivateKey = ".toList ++ c.privateKey.chars ++ ['\n']) ++
    ("Address = ".toList ++ ", ".toList.intercalate c.addresses ++ ['\n']) ++
    c.dnsLine ++
    extra.flatMap (fun e => e.1 ++ " = ".toList ++ e.2 ++ ['\n']) ++
    "\n[Peer]\n".toList ++
    commentLines peerComment ++
    ("PublicKey = ".toList ++ c.serverPublicKey.chars ++ ['\n']) ++
    c.endpointLine ++
    ("AllowedIPs = ".toList ++
      ", ".toList.intercalate (c.allowedIPAddressRanges.map (IPAddress.toString T)) ++ ['\n'])

end InterfaceConfig

end WgDesktop
