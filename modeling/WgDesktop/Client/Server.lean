import WgDesktop.Profile.InterfaceConfig

/-!
# Servers

The servers the client connects to, from `src/utils/models/server.cpp` and
`src/models/serverdata.cpp`, and the DNS servers and address ranges that go with a connection,
from `src/dnshelper.cpp` and `src/controller_p.cpp`. What `QRandomGenerator` draws is a parameter.
-/

namespace WgDesktop

structure Server where
  hostname : QString := .null
  ipv4AddrIn : QString := .null
  ipv4Gateway : QString := .null
  ipv6AddrIn : QString := .null
  ipv6Gateway : QString := .null
  portRanges : List (ℕ × ℕ) := []
  publicKey : QString := .null
  socksName : QString := .null
  weight : ℕ := 0
  multihopPort : ℕ := 0
  countryCode : QString := .null
  cityName : QString := .null
  deriving DecidableEq, Repr

namespace Server

def initialized (s : Server) : Bool := !s.hostname.isEmpty

/-- The loop of `weightChooser`: the first server whose weight reaches what is left of the draw. -/
def weightLoop : List Server → ℕ → Option Server
  | [], _ => none
  | server :: servers, r =>
    if server.weight ≥ r then some server else weightLoop servers (r - server.weight)

/-- `weightChooser`, for a drawn 32-bit value. -/
def weightChooser (servers : List Server) (drawn : ℕ) : Server :=
  if servers.isEmpty then {}
  else
    let weightSum := (servers.map weight).sum % 2 ^ 32
    (weightLoop servers (drawn % ((weightSum + 1) % 2 ^ 32))).getD {}

/-- The loop of `choosePort`: the port the draw falls on when the ranges are laid end to end. -/
def portLoop : List (ℕ × ℕ) → ℕ → ℕ
  | [], _ => 0
  | range :: ranges, r =>
    let last := (range.2 + 2 ^ 32 - range.1) % 2 ^ 32
    if r ≤ last then (r + range.1) % 2 ^ 32
    else portLoop ranges ((r + 2 ^ 32 - (last + 1) % 2 ^ 32) % 2 ^ 32)

/-- `choosePort`, for a drawn 32-bit value. -/
def choosePort (s : Server) (drawn : ℕ) : ℕ :=
  if s.portRanges.isEmpty then 0
  else
    let length := (s.portRanges.map fun range => range.2 + 2 ^ 32 - range.1 + 1).sum % 2 ^ 32
    portLoop s.portRanges (drawn % length)

end Server

/-- `ServerData`: the chosen location and the keys of the servers picked in it. -/
structure ServerData where
  exitCountryCode : QString := .null
  exitCityName : QString := .null
  entryCountryCode : QString := .null
  entryCityName : QString := .null
  exitServerPublicKey : QString := .null
  entryServerPublicKey : QString := .null
  deriving DecidableEq, Repr

namespace ServerData

def multihop (d : ServerData) : Bool := !d.entryCountryCode.isEmpty && !d.entryCityName.isEmpty

/-- `exitServers`, over `getServerList`: the servers of a city that are not cooling down. -/
def exitServers (getServerList : QString → QString → List Server) (d : ServerData) :
    List Server :=
  getServerList d.exitCountryCode d.exitCityName

def entryServers (getServerList : QString → QString → List Server) (d : ServerData) :
    List Server :=
  if !d.multihop then d.exitServers getServerList
  else getServerList d.entryCountryCode d.entryCityName

end ServerData

/-! ## DNS servers -/

/-- The DNS types of `dnsData`; `unset` is the empty type of a default value. -/
inductive DnsType where
  | unset
  | default
  | custom
  | blockAds
  | blockTrackers
  | blockAdsAndTrackers
  | blockMalware
  | blockMalwareAndAds
  | blockMalwareAndTrackers
  | blockMalwareAndAdsAndTrackers
  deriving DecidableEq, Repr

structure DnsData where
  ipAddress : QString := .null
  dnsType : DnsType := .unset
  deriving DecidableEq, Repr

/-- `SettingsHolder::DNSProviderFlags` and the user's own DNS server. -/
structure DnsSettings where
  dnsProviderFlags : ℤ := 0
  userDNS : QString := .null
  deriving DecidableEq, Repr

namespace DnsHelper

/-- `validateUserDNS`: an IPv4 address. -/
def validateUserDNS (T : HostAddressText) (dns : QString) : Bool :=
  let address := T.hostAddress dns.chars
  !address.isNull && address.protocol != .ipv6Protocol

/-- `getDNSDetails`: the gateway, the user's own server, or a blocking resolver. -/
def getDNSDetails (T : HostAddressText) (settings : DnsSettings) (fallback : QString) : DnsData :=
  if settings.dnsProviderFlags = 0x00 then ⟨fallback, .default⟩
  else if settings.dnsProviderFlags = 0x01 then
    if settings.userDNS.isEmpty || !validateUserDNS T settings.userDNS then ⟨fallback, .default⟩
    else ⟨settings.userDNS, .custom⟩
  else if settings.dnsProviderFlags = 0x02 then ⟨.text "100.64.0.1".toList, .blockAds⟩
  else if settings.dnsProviderFlags = 0x04 then ⟨.text "100.64.0.2".toList, .blockTrackers⟩
  else if settings.dnsProviderFlags = 0x06 then ⟨.text "100.64.0.3".toList, .blockAdsAndTrackers⟩
  else if settings.dnsProviderFlags = 0x08 then ⟨.text "100.64.0.4".toList, .blockMalware⟩
  else if settings.dnsProviderFlags = 0x0a then ⟨.text "100.64.0.5".toList, .blockMalwareAndAds⟩
  else if settings.dnsProviderFlags = 0x0c then
    ⟨.text "100.64.0.6".toList, .blockMalwareAndTrackers⟩
  else if settings.dnsProviderFlags = 0x0e then
    ⟨.text "100.64.0.7".toList, .blockMalwareAndAdsAndTrackers⟩
  else {}

def getDNS (T : HostAddressText) (settings : DnsSettings) (fallback : QString) : QString :=
  (getDNSDetails T settings fallback).ipAddress

end DnsHelper

/-! ## Address ranges of a connection -/

/-- `QHostAddress::isLoopback`: 127.0.0.0/8, also as mapped into IPv6, or `::1`. -/
def QHostAddress.isLoopback : QHostAddress → Bool
  | null => false
  | ipv4 a => a >>> 24 == 0x7f#32
  | ipv6 a _ => a == 1#128 || a >>> 24 == 0xffff7f#128

namespace AddressRanges

/-- `MULLVAD_PROXY_RANGE` with its length. -/
def mullvadProxyRange (T : HostAddressText) : IPAddress := ⟨T.hostAddress "10.124.0.0".toList, 20⟩

def rfc1918Contains (T : HostAddressText) (ip : QHostAddress) : Bool :=
  (IPAddress.rfc1918Ipv4 T).any fun addr => addr.contains ip

def rfc4193Contains (T : HostAddressText) (ip : QHostAddress) : Bool :=
  (IPAddress.rfc4193Ipv6 T).any fun addr => addr.contains ip

/-- `Controller::getAllowedIPAddressRanges`: everything. -/
def getAllowedIPAddressRanges (T : HostAddressText) (exitServer : Server) : List IPAddress :=
  [IPAddress.ofString T "0.0.0.0/0".toList, IPAddress.ofString T "::0/0".toList,
    ⟨T.hostAddress exitServer.ipv4Gateway.chars, 32⟩] ++
  (if !exitServer.ipv6Gateway.isEmpty then [⟨T.hostAddress exitServer.ipv6Gateway.chars, 128⟩]
    else []) ++
  [mullvadProxyRange T]

/-- `getExtensionProxyAddressRanges`: the proxies the browser extension talks to, and the DNS server
when it is reached through the tunnel. -/
def getExtensionProxyAddressRanges (T : HostAddressText) (settings : DnsSettings)
    (exitServer : Server) : List IPAddress :=
  let ranges := [⟨T.hostAddress exitServer.ipv4Gateway.chars, 32⟩, mullvadProxyRange T] ++
    (if !exitServer.ipv6Gateway.isEmpty then
      [⟨T.hostAddress exitServer.ipv6Gateway.chars, 128⟩] else [])
  let dns := DnsHelper.getDNSDetails T settings exitServer.ipv4Gateway
  let addr := T.hostAddress dns.ipAddress.chars
  if dns.dnsType = .default then ranges
  else if dns.dnsType ≠ .custom then ranges ++ [⟨addr, 32⟩]
  else if !rfc1918Contains T addr && !rfc4193Contains T addr && !addr.isLoopback then
    ranges ++ [⟨addr, 32⟩]
  else ranges

end AddressRanges

end WgDesktop
