import WgDesktop.Lib.Text
import WgDesktop.Net.HostAddress

/-!
# `NetmgrUtils`

The predicates of `src/platforms/linux/netmgrutils.h` that `NetmgrController` decides with: whether
the device has received anything since it was activated, whether the peer takes the default route,
and whether the main routing table of `/proc/net/route` still wins over the tunnel.
-/

namespace WgDesktop.NetmgrUtils

open Text

def hasNewHandshakeTraffic (baselineRxBytes currentRxBytes : ℕ) : Bool :=
  decide (currentRxBytes > baselineRxBytes)

def hasIpv4DefaultRoute (allowedIpRanges : List (List Char)) : Bool :=
  allowedIpRanges.contains "0.0.0.0/0".toList

/-! ## The main routing table -/

/-- `QString::simplified`: no white space at the ends, and one space for each stretch inside. -/
def simplified (s : List Char) : List Char :=
  [' '].intercalate ((s.splitOnP isSpace).filter (· ≠ []))

/-- The value of a hexadecimal digit. -/
def hexDigit (c : Char) : Option ℕ :=
  if c.isDigit then some (c.toNat - 48)
  else if 'a' ≤ c ∧ c ≤ 'f' then some (c.toNat - 87)
  else if 'A' ≤ c ∧ c ≤ 'F' then some (c.toNat - 55)
  else none

/-- `QString::toUInt` in base 16: white space around it is ignored, a plus sign and `0x` are
allowed, and the value has to fit. -/
def toUInt16 (s : List Char) : Option (BitVec 32) :=
  let s := trimmed s
  let s := if s.head? = some '+' then s.tail else s
  let s := if s.take 2 = ['0', 'x'] ∨ s.take 2 = ['0', 'X'] then s.drop 2 else s
  match s.mapM hexDigit with
  | none => none
  | some digits =>
    let value := digits.foldl (fun n d => 16 * n + d) 0
    if s ≠ [] ∧ value < 2 ^ 32 then some (BitVec.ofNat 32 value) else none

/-- `routeHexToIpv4`: the kernel prints the address as a little-endian word. -/
def routeHexToIpv4 (value : List Char) : BitVec 32 :=
  match toUInt16 value with
  | none => 0
  | some raw =>
    ((raw &&& 0x000000ff#32) <<< 24) ||| ((raw &&& 0x0000ff00#32) <<< 8) |||
      ((raw &&& 0x00ff0000#32) >>> 8) ||| ((raw &&& 0xff000000#32) >>> 24)

/-- `bitCount`: the bits are shifted out of the value until it is zero. -/
def bitCount (value : BitVec 32) : ℕ :=
  ((List.range 32).map fun i => ((value >>> i) &&& 1#32).toNat).sum

/-- The best match so far: `bestPrefixLength`, which starts at -1, and `bestInterface`. -/
structure Best where
  prefixLength : ℤ := -1
  interface : List Char := []

/-- One line of the table: the header and short lines are skipped, and so is a route that does not
contain the probe or is no longer than the best one. -/
def scanLine (probeIpv4 : BitVec 32) (best : Best) (line : List Char) : Best :=
  if "Iface".toList.isPrefixOf line then best
  else
    match (simplified line).splitOn ' ' with
    | iface :: dest :: _ :: _ :: _ :: _ :: _ :: netmask :: _ =>
      let destination := routeHexToIpv4 dest
      let mask := routeHexToIpv4 netmask
      if probeIpv4 &&& mask ≠ destination &&& mask then best
      else if (bitCount mask : ℤ) > best.prefixLength then ⟨bitCount mask, iface⟩
      else best
    | _ => best

def mainRouteBlocksInterface (T : HostAddressText)
    (routeTable probeAddress interfaceName : List Char) : Bool :=
  match T.hostAddress probeAddress with
  | .ipv4 probeIpv4 =>
    let lines := (routeTable.splitOn '\n').filter (· ≠ [])
    let best := lines.foldl (scanLine probeIpv4) {}
    decide (best.prefixLength > 0) && decide (best.interface ≠ interfaceName)
  | _ => false

end WgDesktop.NetmgrUtils
