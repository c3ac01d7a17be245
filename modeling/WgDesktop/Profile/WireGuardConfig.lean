import WgDesktop.Profile.InterfaceConfig

/-!
# The import parser

`WireGuardConfig::parse` from `src/utils/wireguardconfig.cpp`. A text is read line by line; a line
is blank, a section header or a setting (`readLine`), and a setting changes the configuration
according to the current section and its key (`applySetting`).
-/

namespace WgDesktop

open Text

namespace WireGuardConfig

/-! ## Errors -/

/-- The ways `parse` fails. -/
inductive ParseError where
  | invalidLine (number : ℕ)
  | emptyValue (key : List Char)
  | invalidAddress (value : List Char)
  | endpointFormat
  | endpointHostAndPort
  | endpointPort (portValue : List Char)
  | invalidAllowedIPs (value : List Char)
  | privateKeyRequired
  | addressRequired
  | publicKeyRequired
  | endpointRequired
  | endpointPortRequired
  | allowedIPsRequired
  deriving DecidableEq, Repr

/-- The text the caller gets. -/
def ParseError.message : ParseError → List Char
  | invalidLine number => "Invalid WireGuard line ".toList ++ decimal number
  | emptyValue key => "Empty WireGuard value for ".toList ++ key
  | invalidAddress value => "Invalid Address value: ".toList ++ value
  | endpointFormat => "Endpoint IPv6 address must use [address]:port format".toList
  | endpointHostAndPort => "Endpoint must include host and port".toList
  | endpointPort portValue => "Invalid Endpoint port: ".toList ++ portValue
  | invalidAllowedIPs value => "Invalid AllowedIPs value: ".toList ++ value
  | privateKeyRequired => "Interface PrivateKey is required".toList
  | addressRequired => "Interface Address is required".toList
  | publicKeyRequired => "Peer PublicKey is required".toList
  | endpointRequired => "Peer Endpoint is required".toList
  | endpointPortRequired => "Peer Endpoint port is required".toList
  | allowedIPsRequired => "Peer AllowedIPs is required".toList

/-! ## Strings -/

/-- Qt's lower case. Of the characters outside ASCII only the Kelvin sign has a lower case letter
in ASCII, so the others cannot make a key or a section name match. -/
def toLowerChar (c : Char) : Char := if c = '\u212a' then 'k' else c.toLower

def toLower (s : List Char) : List Char := s.map toLowerChar

/-- `QString::toInt`: white space around it is ignored, a sign is allowed, and the value has to fit
an `int`. -/
def toInt (s : List Char) : Option ℤ :=
  let value : Option ℤ :=
    match trimmed s with
    | '-' :: t => (ofDigits t).map fun n => -(n : ℤ)
    | '+' :: t => (ofDigits t).map fun n => (n : ℤ)
    | t => (ofDigits t).map fun n => (n : ℤ)
  value.filter fun n => -2147483648 ≤ n && n ≤ 2147483647

/-- The line up to its first comment character, trimmed. -/
def stripComment (line : List Char) : List Char :=
  let commentIndex :=
    match line.idxOf? '#', line.idxOf? ';' with
    | some hashIndex, some semicolonIndex => some (min hashIndex semicolonIndex)
    | some hashIndex, none => some hashIndex
    | none, some semicolonIndex => some semicolonIndex
    | none, none => none
  match commentIndex with
  | some i => trimmed (line.take i)
  | none => trimmed line

/-- The non-empty trimmed items between commas. -/
def splitCsv (value : List Char) : List (List Char) :=
  ((value.splitOn ',').map trimmed).filter fun item => !item.isEmpty

/-! ## Values -/

variable (T : HostAddressText)

def isValidAddressWithPrefix (value : List Char) : Bool :=
  if '/' ∉ value then (T.hostAddress value).protocol ≠ .unknownNetworkLayerProtocol
  else
    let subnet := T.parseSubnet value
    subnet.1.protocol ≠ .unknownNetworkLayerProtocol && 0 ≤ subnet.2

theorem isValidAddressWithPrefix_iff {T : HostAddressText} {value : List Char} :
    isValidAddressWithPrefix T value = true ↔
      (if '/' ∈ value then T.parseSubnet value else (T.hostAddress value, 999999)).1.protocol ≠
        .unknownNetworkLayerProtocol ∧
      0 ≤ (if '/' ∈ value then T.parseSubnet value else (T.hostAddress value, 999999)).2 := by
  unfold isValidAddressWithPrefix
  by_cases hslash : '/' ∈ value
  · simp [hslash]
  · simp [hslash]

/-- `value.section('/', 0, 0)`. -/
def hostPart (value : List Char) : List Char := value.takeWhile (· ≠ '/')

def appendAddress (parsed : InterfaceConfig) (value : List Char) :
    Except ParseError InterfaceConfig :=
  if !isValidAddressWithPrefix T value then .error (.invalidAddress value)
  else
    match (T.hostAddress (hostPart value)).protocol with
    | .ipv4Protocol => .ok { parsed with deviceIpv4Address := .text value }
    | .ipv6Protocol => .ok { parsed with deviceIpv6Address := .text value }
    | .unknownNetworkLayerProtocol => .error (.invalidAddress value)

/-- The host and the port text of an endpoint. -/
def splitEndpoint (value : List Char) : Except ParseError (List Char × List Char) :=
  if value.head? = some '[' then
    match value.idxOf? ']' with
    | none => .error .endpointFormat
    | some closeBracket =>
      if (value.drop (closeBracket + 1)).take 1 ≠ [':'] then .error .endpointFormat
      else .ok ((value.drop 1).take (closeBracket - 1), value.drop (closeBracket + 2))
  else
    match value.reverse.idxOf? ':' with
    | none => .error .endpointHostAndPort
    | some fromEnd =>
      -- `value.lastIndexOf(':')`
      let separator := value.length - 1 - fromEnd
      if separator = 0 ∨ separator = value.length - 1 then .error .endpointHostAndPort
      else if ':' ∈ value.take separator then .error .endpointFormat
      else .ok (value.take separator, value.drop (separator + 1))

/-- The host and the port of an endpoint. -/
def readEndpoint (value : List Char) : Except ParseError (List Char × ℤ) := do
  let (host, portValue) ← splitEndpoint value
  match toInt portValue with
  | none => .error (.endpointPort portValue)
  | some parsedPort =>
    if parsedPort ≤ 0 ∨ parsedPort > 65535 then .error (.endpointPort portValue)
    else .ok (host, parsedPort)

/-- `parseEndpoint`: the host goes to the IPv6 field if it is an IPv6 address and to the IPv4 field
otherwise. -/
def parseEndpoint (parsed : InterfaceConfig) (value : List Char) :
    Except ParseError InterfaceConfig := do
  let (host, port) ← readEndpoint value
  if (T.hostAddress host).protocol = .ipv6Protocol then
    .ok { parsed with serverIpv6AddrIn := .text host, serverPort := port }
  else .ok { parsed with serverIpv4AddrIn := .text host, serverPort := port }

def appendAllowedIp (parsed : InterfaceConfig) (value : List Char) :
    Except ParseError InterfaceConfig :=
  if !isValidAddressWithPrefix T value then .error (.invalidAllowedIPs value)
  else .ok { parsed with
    allowedIPAddressRanges := parsed.allowedIPAddressRanges ++ [IPAddress.ofString T value] }

/-! ## Lines -/

/-- The effect of `key = value` in a section. -/
def applySetting (section_ key value : List Char) (parsed : InterfaceConfig) :
    Except ParseError InterfaceConfig :=
  if section_ = "interface".toList then
    if key = "privatekey".toList then .ok { parsed with privateKey := .text value }
    else if key = "address".toList then (splitCsv value).foldlM (appendAddress T) parsed
    else if key = "dns".toList then
      match splitCsv value with
      | [] => .ok parsed
      | first :: _ => .ok { parsed with dnsServer := .text first }
    else .ok parsed
  else if section_ = "peer".toList then
    if key = "publickey".toList then .ok { parsed with serverPublicKey := .text value }
    else if key = "endpoint".toList then parseEndpoint T parsed value
    else if key = "allowedips".toList then (splitCsv value).foldlM (appendAllowedIp T) parsed
    else .ok parsed
  else .ok parsed

/-- What a line says. -/
inductive Line where
  | blank
  | header (name : List Char)
  | setting (key value : List Char)
  deriving DecidableEq, Repr

/-- Line `index` (from zero) of the text. -/
def readLine (index : ℕ) (raw : List Char) : Except ParseError Line :=
  let line := stripComment raw
  if line = [] then .ok .blank
  else if line.head? = some '[' ∧ line.getLast? = some ']' then
    .ok (.header (toLower (trimmed ((line.drop 1).take (line.length - 2)))))
  else
    match line.idxOf? '=' with
    | none => .error (.invalidLine (index + 1))
    | some 0 => .error (.invalidLine (index + 1))
    | some separator =>
      let key := toLower (trimmed (line.take separator))
      let value := trimmed (line.drop (separator + 1))
      if value = [] then .error (.emptyValue key) else .ok (.setting key value)

/-- The loop of `parse`, from line `index` in section `section_`. -/
def parseLines : ℕ → List Char → InterfaceConfig → List (List Char) →
    Except ParseError InterfaceConfig
  | _, _, parsed, [] => .ok parsed
  | index, section_, parsed, raw :: lines => do
    match ← readLine index raw with
    | .blank => parseLines (index + 1) section_ parsed lines
    | .header name => parseLines (index + 1) name parsed lines
    | .setting key value =>
      let parsed ← applySetting T section_ key value parsed
      parseLines (index + 1) section_ parsed lines

/-- The checks after the last line. -/
def checkRequired (parsed : InterfaceConfig) : Except ParseError InterfaceConfig :=
  if parsed.privateKey.isEmpty then .error .privateKeyRequired
  else if parsed.deviceIpv4Address.isEmpty && parsed.deviceIpv6Address.isEmpty then
    .error .addressRequired
  else if parsed.serverPublicKey.isEmpty then .error .publicKeyRequired
  else if parsed.serverIpv4AddrIn.isEmpty && parsed.serverIpv6AddrIn.isEmpty then
    .error .endpointRequired
  else if parsed.serverPort = 0 then .error .endpointPortRequired
  else if parsed.allowedIPAddressRanges.isEmpty then .error .allowedIPsRequired
  else .ok parsed

/-- `WireGuardConfig::parse`: the configuration on success, the error otherwise. -/
def parse (content : List Char) : Except ParseError InterfaceConfig := do
  let parsed ← parseLines T 0 [] { hopType := .singleHop } (content.splitOn '\n')
  checkRequired parsed

end WireGuardConfig

end WgDesktop
