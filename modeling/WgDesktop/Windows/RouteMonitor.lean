import Mathlib.Data.List.MinMax
import WgDesktop.Lib.Bytes
import WgDesktop.Lib.Forwarding
import WgDesktop.Net.IPAddress

/-!
# `WindowsRouteMonitor`

`src/platforms/windows/daemon/windowsroutemonitor.cpp`, over the table of routes of the system, with
calls that may fail. For a network that is excluded from the tunnel the monitor keeps a route to where
its packets would go without the tunnel, and with `m_defaultRouteCapture` it keeps a copy of every
other route that leads into the tunnel.

`chooseRoute_eq` says which route the loop of `updateExclusionRoute` ends with.
-/

namespace WgDesktop.WindowsRouteMonitor

open Bytes BitPrefix PiNat

/-! ## The table of the system -/

def afUnspec : BitVec 16 := 0

def afInet : BitVec 16 := 2

def afInet6 : BitVec 16 := 23

def mibIpprotoNetmgmt : BitVec 32 := 3

def exclusionRouteMetric : BitVec 32 := 0x5e72

def ulongMax : BitVec 32 := 0xffffffff

/-- `SOCKADDR_INET`: the family, and the bytes behind it, which are only copied and compared. -/
structure SockaddrInet where
  siFamily : BitVec 16
  data : List Byte
  deriving DecidableEq, Repr

/-- An address of which nothing but the family is set. -/
def SockaddrInet.ofFamily (siFamily : BitVec 16) : SockaddrInet :=
  { siFamily, data := List.replicate 26 0 }

/-- `IP_ADDRESS_PREFIX`: `addr` are the bytes of `sin_addr` or `sin6_addr`. -/
structure IpAddressPrefix where
  siFamily : BitVec 16
  addr : List Byte
  prefixLength : Byte
  deriving DecidableEq, Repr

/-- An address of its family with a prefix that is no longer than the address. -/
def IpAddressPrefix.Valid (p : IpAddressPrefix) : Prop :=
  p.siFamily = afInet ∧ p.addr.length = 4 ∧ p.prefixLength.toNat ≤ 32 ∨
    p.siFamily = afInet6 ∧ p.addr.length = 16 ∧ p.prefixLength.toNat ≤ 128

/-- `MIB_IPFORWARD_ROW2`. -/
structure Row where
  interfaceLuid : BitVec 64
  destinationPrefix : IpAddressPrefix
  nextHop : SockaddrInet
  metric : BitVec 32
  protocol : BitVec 32
  age : ℕ := 0
  deriving DecidableEq, Repr

/-- `MIB_IPINTERFACE_ROW`. -/
structure InterfaceRow where
  family : BitVec 16
  interfaceLuid : BitVec 64
  connected : Bool
  metric : BitVec 32
  deriving DecidableEq, Repr

/-- The tunnel, whether the `n`th call succeeds and whether it can delete, and Qt's classification of
addresses. -/
structure System where
  luid : BitVec 64
  succeeds : ℕ → Bool
  deletes : ℕ → Bool
  isLoopback : QHostAddress → Bool
  isBroadcast : QHostAddress → Bool
  isLinkLocal : QHostAddress → Bool
  isMulticast : QHostAddress → Bool

/-- The table of routes and the interfaces of the system, and the members of the class. -/
structure State where
  table : List Row
  interfaces : List InterfaceRow
  calls : ℕ := 0
  exclusionRoutes : List (IPAddress × Row) := []
  clonedRoutes : List (IPAddress × Row) := []
  interfaceMetricsIpv4 : List (BitVec 64 × BitVec 32) := []
  interfaceMetricsIpv6 : List (BitVec 64 × BitVec 32) := []
  defaultRouteCapture : Bool := false

/-- The fields by which the system tells routes apart. -/
def Row.same (r r' : Row) : Bool :=
  r.interfaceLuid = r'.interfaceLuid ∧ r.destinationPrefix = r'.destinationPrefix ∧
    r.nextHop = r'.nextHop

section Calls

variable (sys : System)

def getIpForwardTable2 (family : BitVec 16) (s : State) : Option (List Row) × State :=
  (if sys.succeeds s.calls then
      some (s.table.filter fun r =>
        family = afUnspec ∨ r.destinationPrefix.siFamily = family)
    else none,
    { s with calls := s.calls + 1 })

/-- There are no two routes that are the same. -/
def createIpForwardEntry2 (row : Row) (s : State) : Bool × State :=
  let ok := sys.succeeds s.calls && !s.table.any row.same
  (ok, { s with calls := s.calls + 1, table := if ok then s.table ++ [row] else s.table })

/-- The result is only logged. -/
def deleteIpForwardEntry2 (row : Row) (s : State) : State :=
  { s with
    calls := s.calls + 1
    table := if sys.deletes s.calls then s.table.filter (!row.same ·) else s.table }

/-! ## The members of the class -/

/-- Whether `updateInterfaceMetrics` writes the row to the metrics of a family. -/
def InterfaceRow.isValidFor (row : InterfaceRow) (family : BitVec 16) : Bool :=
  row.interfaceLuid ≠ sys.luid ∧ row.connected ∧ row.family = family

/-- The metrics of a family, the last row of an interface first. -/
def interfaceMetrics (rows : List InterfaceRow) (family : BitVec 16) :
    List (BitVec 64 × BitVec 32) :=
  ((rows.filter (InterfaceRow.isValidFor sys · family)).map fun row =>
    (row.interfaceLuid, row.metric)).reverse

def updateInterfaceMetrics (family : BitVec 16) (s : State) : State :=
  let ok := sys.succeeds s.calls
  { s with
    calls := s.calls + 1
    interfaceMetricsIpv4 :=
      if ok ∧ (family = afInet ∨ family = afUnspec) then interfaceMetrics sys s.interfaces afInet
      else s.interfaceMetricsIpv4
    interfaceMetricsIpv6 :=
      if ok ∧ (family = afInet6 ∨ family = afUnspec) then interfaceMetrics sys s.interfaces afInet6
      else s.interfaceMetricsIpv6 }

end Calls

/-- `memcmp`: the difference of the first bytes that differ. -/
def memcmp : List Byte → List Byte → ℤ
  | a :: as, b :: bs => if a = b then memcmp as bs else a.toNat - b.toNat
  | _, _ => 0

def prefixcmp (a b : List Byte) (bits : ℕ) : ℤ :=
  let bytes := bits / 8
  let diff := memcmp (a.take bytes) (b.take bytes)
  if 0 < bytes ∧ diff ≠ 0 then diff
  else if bits % 8 ≠ 0 then
    (a.getD bytes 0 >>> (8 - bits % 8)).toNat - (b.getD bytes 0 >>> (8 - bits % 8)).toNat
  else 0

def routeContainsDest (route dest : IpAddressPrefix) : Bool :=
  if route.siFamily ≠ dest.siFamily then false
  else if dest.prefixLength < route.prefixLength then false
  else if route.siFamily = afInet then
    prefixcmp route.addr dest.addr route.prefixLength.toNat = 0
  else if route.siFamily = afInet6 then
    prefixcmp route.addr dest.addr route.prefixLength.toNat = 0
  else false

def prefixToAddress (dest : IpAddressPrefix) : QHostAddress :=
  if dest.siFamily = afInet6 then .ipv6 (Endian.big.word dest.addr) []
  else if dest.siFamily = afInet then .ipv4 (Endian.big.word dest.addr)
  else .null

section Members

variable (sys : System)

/-- `routeMetric` for a destination of the family. No metric stands for `continue`. -/
def routeMetric (s : State) (family : BitVec 16) (row : Row) : Option (BitVec 32) :=
  let metrics :=
    if family = afInet6 then s.interfaceMetricsIpv6
    else if family = afInet then s.interfaceMetricsIpv4
    else []
  (metrics.lookup row.interfaceLuid).map fun metric =>
    let routeMetric := row.metric + metric
    if routeMetric < row.metric then ulongMax else routeMetric

/-- The variables of the loop of `updateExclusionRoute`. -/
structure Choice where
  nexthop : SockaddrInet
  bestLuid : BitVec 64 := 0
  bestMatch : ℤ := -1
  bestMetric : BitVec 32 := ulongMax
  deriving DecidableEq, Repr

/-- The body of the loop. -/
def consider (s : State) (data : Row) (choice : Choice) (row : Row) : Choice :=
  if row.interfaceLuid = sys.luid then choice
  else if row.destinationPrefix.prefixLength.toNat < choice.bestMatch then choice
  else if row.protocol = data.protocol ∧ row.metric = data.metric then choice
  else if !routeContainsDest row.destinationPrefix data.destinationPrefix then choice
  else
    match routeMetric s data.destinationPrefix.siFamily row with
    | none => choice
    | some metric =>
      if row.destinationPrefix.prefixLength.toNat = choice.bestMatch ∧ choice.bestMetric ≤ metric
      then choice
      else
        { nexthop := row.nextHop
          bestMatch := row.destinationPrefix.prefixLength.toNat
          bestMetric := metric
          bestLuid :=
            if row.destinationPrefix.prefixLength = data.destinationPrefix.prefixLength then 0
            else row.interfaceLuid }

def chooseRoute (s : State) (data : Row) (table : List Row) : Choice :=
  table.foldl (consider sys s data)
    { nexthop := .ofFamily data.destinationPrefix.siFamily }

/-- `data` is changed in place, and so it is returned. -/
def updateExclusionRoute (data : Row) (table : List Row) (s : State) : Row × State :=
  let choice := chooseRoute sys s data table
  if data.interfaceLuid = choice.bestLuid ∧ choice.nexthop = data.nextHop then (data, s)
  else
    let s := if data.interfaceLuid ≠ 0 then deleteIpForwardEntry2 sys data s else s
    let data := { data with interfaceLuid := choice.bestLuid, nextHop := choice.nexthop }
    (data, if data.interfaceLuid ≠ 0 then (createIpForwardEntry2 sys data s).2 else s)

def isRouteExcluded (s : State) (dest : IpAddressPrefix) : Bool :=
  s.exclusionRoutes.any fun e => routeContainsDest e.2.destinationPrefix dest

/-- Addresses for which the monitor makes no routes. -/
def isNonRouteable (address : QHostAddress) : Bool :=
  sys.isLoopback address || sys.isBroadcast address || sys.isLinkLocal address ||
    sys.isMulticast address

/-- The key of a captured route. -/
def Row.key (row : Row) : IPAddress :=
  { address := prefixToAddress row.destinationPrefix
    prefixLength := row.destinationPrefix.prefixLength.toNat }

/-- The row passes the tests in front of the capture. -/
def isCapturable (s : State) (row : Row) : Bool :=
  row.interfaceLuid ≠ sys.luid ∧ row.destinationPrefix.prefixLength ≠ 0 ∧
    ¬ (row.protocol = mibIpprotoNetmgmt ∧ row.metric = exclusionRouteMetric) ∧
    !isRouteExcluded s row.destinationPrefix ∧
    !isNonRouteable sys (prefixToAddress row.destinationPrefix)

/-- The copy of a route that leads into the tunnel. -/
def Row.clone (row : Row) : Row where
  interfaceLuid := sys.luid
  destinationPrefix := row.destinationPrefix
  nextHop := .ofFamily row.destinationPrefix.siFamily
  metric := 0
  protocol := mibIpprotoNetmgmt

/-- The body of the loop of `updateCapturedRoutes` over the table. -/
def captureRow (s : State) (row : Row) : State :=
  if !isCapturable sys s row then s
  else if s.clonedRoutes.any (·.1 == row.key) then
    { s with
      clonedRoutes := s.clonedRoutes.map fun e =>
        if e.1 == row.key then (e.1, { e.2 with age := e.2.age + 1 }) else e }
  else
    match createIpForwardEntry2 sys (row.clone sys) s with
    | (false, s) => s
    | (true, s) =>
      { s with clonedRoutes := (row.key, { row.clone sys with age := 1 }) :: s.clonedRoutes }

/-- The entry was found in the table, or its family was not looked at. -/
def isInUse (family : BitVec 16) (data : Row) : Bool :=
  0 < data.age ∨ family ≠ afUnspec ∧ data.destinationPrefix.siFamily ≠ family

/-- The loop of `updateCapturedRoutes` over the captured routes, with those it has kept. -/
def sweep (family : BitVec 16) (s : State) (entry : IPAddress × Row) : State :=
  if isInUse family entry.2 then
    { s with clonedRoutes := s.clonedRoutes ++ [(entry.1, { entry.2 with age := 0 })] }
  else deleteIpForwardEntry2 sys entry.2 s

def updateCapturedRoutes (family : BitVec 16) (table : List Row) (s : State) : State :=
  if !s.defaultRouteCapture then s
  else
    let s := table.foldl (captureRow sys) s
    s.clonedRoutes.foldl (sweep sys family) { s with clonedRoutes := [] }

/-- The overload without a table, which uses the table only if it was not read. Then the pointer is
not initialised, and what happens has no meaning. -/
def fetchCapturedRoutes (family : BitVec 16) (s : State) : State :=
  if !s.defaultRouteCapture then s else (getIpForwardTable2 sys family s).2

/-- `IP_ADDRESS_PREFIX` of a prefix. -/
def IpAddressPrefix.ofIPAddress (range : IPAddress) : IpAddressPrefix :=
  match range.address with
  | .ipv6 a _ =>
    { siFamily := afInet6, addr := toBytes a, prefixLength := BitVec.ofInt 8 range.prefixLength }
  | .ipv4 a =>
    { siFamily := afInet, addr := toBytes a, prefixLength := BitVec.ofInt 8 range.prefixLength }
  | .null =>
    { siFamily := afInet, addr := toBytes (0 : BitVec 32),
      prefixLength := BitVec.ofInt 8 range.prefixLength }

/-- The row that `addExclusionRoute` begins with. -/
def exclusionRow (range : IPAddress) : Row where
  interfaceLuid := 0
  destinationPrefix := .ofIPAddress range
  nextHop := .ofFamily (IpAddressPrefix.ofIPAddress range).siFamily
  metric := exclusionRouteMetric
  protocol := mibIpprotoNetmgmt

def addExclusionRoute (range : IPAddress) (s : State) : Bool × State :=
  if isNonRouteable sys range.address then (true, s)
  else if s.exclusionRoutes.any (·.1 == range) then (false, s)
  else
    let family := (IpAddressPrefix.ofIPAddress range).siFamily
    match getIpForwardTable2 sys family s with
    | (none, s) => (false, s)
    | (some table, s) =>
      let s := updateInterfaceMetrics sys family s
      let s := updateCapturedRoutes sys family table s
      match updateExclusionRoute sys (exclusionRow range) table s with
      | (data, s) => (true, { s with exclusionRoutes := (range, data) :: s.exclusionRoutes })

def deleteExclusionRoute (range : IPAddress) (s : State) : Bool × State :=
  match s.exclusionRoutes.find? (·.1 == range) with
  | none => (true, s)
  | some (_, data) =>
    let s := { s with exclusionRoutes := s.exclusionRoutes.filter fun e => !(e.1 == range) }
    let s := deleteIpForwardEntry2 sys data s
    (true, fetchCapturedRoutes sys data.destinationPrefix.siFamily s)

/-- `flushRouteTable`, up to the last line. -/
def deleteAll (entries : List (IPAddress × Row)) (s : State) : State :=
  entries.foldl (fun s e => deleteIpForwardEntry2 sys e.2 s) s

def flushExclusionRoutes (s : State) : State :=
  { deleteAll sys s.exclusionRoutes s with exclusionRoutes := [] }

def flushClonedRoutes (s : State) : State :=
  { deleteAll sys s.clonedRoutes s with clonedRoutes := [] }

def setDetaultRouteCapture (enable : Bool) (s : State) : State :=
  let s := { s with defaultRouteCapture := enable }
  if !enable then flushClonedRoutes sys s else s

/-- The loop of `routeChanged`. -/
def updateExclusionRoutes (table : List Row) :
    List (IPAddress × Row) → State → List (IPAddress × Row) × State
  | [], s => ([], s)
  | (range, data) :: entries, s =>
    match updateExclusionRoute sys data table s with
    | (data, s) =>
      match updateExclusionRoutes table entries s with
      | (entries, s) => ((range, data) :: entries, s)

def routeChanged (s : State) : State :=
  match getIpForwardTable2 sys afUnspec s with
  | (none, s) => s
  | (some table, s) =>
    let s := updateInterfaceMetrics sys afUnspec s
    let s := updateCapturedRoutes sys afUnspec table s
    match updateExclusionRoutes sys table s.exclusionRoutes s with
    | (exclusionRoutes, s) => { s with exclusionRoutes }

/-- The destructor. -/
def destroy (s : State) : State := flushClonedRoutes sys (flushExclusionRoutes sys s)

end Members

/-! ## Networks -/

section Networks

/-- The bits of an address, the first byte first. -/
def addrBit (addr : List Byte) (i : ℕ) : Bool := (addr.getD (i / 8) 0).getMsbD (i % 8)

theorem memcmp_eq_zero_iff {a b : List Byte} (h : a.length = b.length) :
    memcmp a b = 0 ↔ a = b := by
  induction a generalizing b with
  | nil =>
    obtain rfl : b = [] := List.eq_nil_of_length_eq_zero h.symm
    exact ⟨fun _ => rfl, fun _ => rfl⟩
  | cons x a ih =>
    cases b with
    | nil => cases h
    | cons y b =>
      rw [memcmp, List.cons.injEq]
      split_ifs with hxy
      · rw [ih (Nat.succ.inj h)]
        exact ⟨fun hab => ⟨hxy, hab⟩, fun hab => hab.2⟩
      · have hne : x.toNat ≠ y.toNat := fun heq => hxy (BitVec.eq_of_toNat_eq heq)
        constructor
        · intro hsub
          omega
        · exact fun hab => absurd hab.1 hxy

theorem take_eq_take_iff {a b : List Byte} (h : a.length = b.length) {k : ℕ} (hk : k ≤ a.length) :
    a.take k = b.take k ↔ addrBit b ∈ cylinder (addrBit a) (8 * k) := by
  constructor
  · intro htake i hi
    have hget : ∀ c : List Byte, c.getD (i / 8) 0 = (c.take k).getD (i / 8) 0 := by
      intro c
      rw [List.getD_eq_getElem?_getD, List.getD_eq_getElem?_getD, List.getElem?_take_of_lt (by omega)]
    rw [addrBit, addrBit, hget a, hget b, htake]
  · intro hbits
    refine List.ext_getElem (by simp [h]) fun j hj hj' => ?_
    rw [List.length_take] at hj hj'
    apply BitVec.eq_of_getMsbD_eq
    intro i hi
    have hbit := hbits (8 * j + i) (by omega)
    rw [addrBit, addrBit, show (8 * j + i) / 8 = j by omega, show (8 * j + i) % 8 = i by omega,
      List.getD_eq_getElem?_getD, List.getD_eq_getElem?_getD,
      List.getElem?_eq_getElem (by omega), List.getElem?_eq_getElem (by omega)] at hbit
    rw [List.getElem_take, List.getElem_take]
    exact hbit.symm

/-- The comparison finds no difference when the prefixes are equal. -/
theorem prefixcmp_eq_zero_iff {a b : List Byte} (h : a.length = b.length) {n : ℕ}
    (hn : n ≤ 8 * a.length) : prefixcmp a b n = 0 ↔ addrBit b ∈ cylinder (addrBit a) n := by
  have hbytes : memcmp (a.take (n / 8)) (b.take (n / 8)) = 0 ↔
      addrBit b ∈ cylinder (addrBit a) (8 * (n / 8)) := by
    rw [memcmp_eq_zero_iff (by simp [h]), take_eq_take_iff h (by omega)]
  have hsplit := mem_cylinder_add (x := addrBit a) (y := addrBit b) (m := 8 * (n / 8)) (n := n % 8)
  rw [Nat.div_add_mod] at hsplit
  rw [hsplit, ← hbytes, prefixcmp]
  by_cases hfirst : memcmp (a.take (n / 8)) (b.take (n / 8)) = 0
  · simp only [hfirst, ne_eq, not_true_eq_false, and_false, if_false, true_and]
    have hbit : ∀ c : List Byte, ∀ j < 8,
        addrBit c (8 * (n / 8) + j) = (c.getD (n / 8) 0).getMsbD j := by
      intro c j hj
      rw [addrBit, show (8 * (n / 8) + j) / 8 = n / 8 by omega,
        show (8 * (n / 8) + j) % 8 = j by omega]
    have hmem : (fun j => addrBit b (8 * (n / 8) + j)) ∈
          cylinder (fun j => addrBit a (8 * (n / 8) + j)) (n % 8) ↔
        (b.getD (n / 8) 0).getMsbD ∈ cylinder (a.getD (n / 8) 0).getMsbD (n % 8) := by
      refine forall₂_congr fun j hj => ?_
      simp only [hbit a j (by omega), hbit b j (by omega)]
    rw [hmem, ← xor_shift_eq_zero_iff (by omega), BitVec.ushiftRight_xor_distrib,
      BitVec.xor_eq_zero_iff]
    split_ifs with hrest
    · simp [hrest, BitVec.ushiftRight_eq_zero]
    · rw [sub_eq_zero, Nat.cast_inj, BitVec.toNat_inj]
  · have hpos : 0 < n / 8 := by
      refine Nat.pos_of_ne_zero fun h0 => hfirst ?_
      rw [h0]
      rfl
    simp [hfirst, hpos]

/-- The networks of the table: an address is its family and its bits. -/
def networks : Forwarding.Prefixes (BitVec 16 × (ℕ → Bool)) IpAddressPrefix where
  net p := {a | a.1 = p.siFamily ∧ a.2 ∈ cylinder (addrBit p.addr) p.prefixLength.toNat}
  length p := p.prefixLength.toNat
  subset_of_common _ _ _ hp hq hle _ hb :=
    ⟨hb.1.trans (hq.1.symm.trans hp.1),
      mem_cylinder_trans (mem_of_common hle hp.2 hq.2) (cylinder_anti _ hle hb.2)⟩

theorem contains_iff {p q : IpAddressPrefix} : networks.Contains p q ↔
    p.prefixLength ≤ q.prefixLength ∧ p.siFamily = q.siFamily ∧
      addrBit q.addr ∈ cylinder (addrBit p.addr) p.prefixLength.toNat := by
  refine and_congr_right fun hle => ⟨fun h => ?_, fun h a ha => ?_⟩
  · have hself := @h (q.siFamily, addrBit q.addr) ⟨rfl, self_mem_cylinder _ _⟩
    exact ⟨hself.1.symm, hself.2⟩
  · exact ⟨ha.1.trans h.1.symm, mem_cylinder_trans h.2 (cylinder_anti _ hle ha.2)⟩

theorem IpAddressPrefix.Valid.length_eq {p q : IpAddressPrefix} (hp : p.Valid) (hq : q.Valid)
    (h : p.siFamily = q.siFamily) : p.addr.length = q.addr.length := by
  have hne : afInet ≠ afInet6 := by decide
  rcases hp with ⟨hp, hlen, -⟩ | ⟨hp, hlen, -⟩ <;> rcases hq with ⟨hq, hlen', -⟩ | ⟨hq, hlen', -⟩
  · rw [hlen, hlen']
  · exact absurd (hp.symm.trans (h.trans hq)) hne
  · exact absurd (hq.symm.trans (h.symm.trans hp)) hne
  · rw [hlen, hlen']

theorem IpAddressPrefix.Valid.length_le {p : IpAddressPrefix} (hp : p.Valid) :
    p.prefixLength.toNat ≤ 8 * p.addr.length := by
  rcases hp with ⟨-, hlen, hle⟩ | ⟨-, hlen, hle⟩ <;> omega

theorem routeContainsDest_iff {p q : IpAddressPrefix} (hp : p.Valid) (hq : q.Valid) :
    routeContainsDest p q = true ↔ networks.Contains p q := by
  rw [contains_iff, routeContainsDest]
  by_cases hfamily : p.siFamily = q.siFamily
  · have hcmp := prefixcmp_eq_zero_iff (hp.length_eq hq hfamily) hp.length_le
    by_cases hlen : q.prefixLength < p.prefixLength
    · rw [if_neg (not_not_intro hfamily), if_pos hlen]
      simp [BitVec.not_le.mpr hlen]
    · rw [if_neg (not_not_intro hfamily), if_neg hlen, ← hcmp]
      have hfamilies : p.siFamily = afInet ∨ p.siFamily = afInet6 := hp.imp And.left And.left
      rcases hfamilies with h4 | h6
      · rw [if_pos h4]
        simp [hfamily, BitVec.not_lt.mp hlen]
      · rw [if_neg (by rw [h6]; decide), if_pos h6]
        simp [hfamily, BitVec.not_lt.mp hlen]
  · rw [if_pos hfamily]
    simp [hfamily]

theorem prefixLength_le_of_contains {p q : IpAddressPrefix} (h : routeContainsDest p q = true) :
    p.prefixLength ≤ q.prefixLength := by
  rw [routeContainsDest] at h
  by_contra hlt
  rw [if_pos (BitVec.not_le.mp hlt), ite_self] at h
  cases h

theorem routeContainsDest_self {p : IpAddressPrefix} (hp : p.Valid) :
    routeContainsDest p p = true :=
  (routeContainsDest_iff hp hp).mpr ⟨le_rfl, subset_rfl⟩

end Networks

/-! ## The choice of a route -/

section Choice

variable (sys : System) (s : State) (data : Row)

/-- The rows that the loop does not pass over for what is in them. -/
def isCandidate (row : Row) : Bool :=
  row.interfaceLuid ≠ sys.luid ∧ ¬ (row.protocol = data.protocol ∧ row.metric = data.metric) ∧
    routeContainsDest row.destinationPrefix data.destinationPrefix ∧
    (routeMetric s data.destinationPrefix.siFamily row).isSome

/-- The metric of a row, if there is one. -/
def metricOf (row : Row) : BitVec 32 :=
  (routeMetric s data.destinationPrefix.siFamily row).getD ulongMax

/-- Longer prefixes come first, and then lower metrics. -/
def rank (row : Row) : ℕ ×ₗ ℕᵒᵈ :=
  toLex (row.destinationPrefix.prefixLength.toNat, OrderDual.toDual (metricOf s data row).toNat)

/-- The variables of the loop when this row is the best one so far. -/
def Choice.ofRow : Option Row → Choice
  | none => { nexthop := .ofFamily data.destinationPrefix.siFamily }
  | some row =>
    { nexthop := row.nextHop
      bestMatch := row.destinationPrefix.prefixLength.toNat
      bestMetric := metricOf s data row
      bestLuid :=
        if row.destinationPrefix.prefixLength = data.destinationPrefix.prefixLength then 0
        else row.interfaceLuid }

variable {sys s data} {row best : Row}

theorem consider_of_not_candidate (choice : Choice) (h : isCandidate sys s data row = false) :
    consider sys s data choice row = choice := by
  simp only [isCandidate, decide_eq_false_iff_not] at h
  rw [consider]
  by_cases htunnel : row.interfaceLuid = sys.luid
  · rw [if_pos htunnel]
  · by_cases hown : row.protocol = data.protocol ∧ row.metric = data.metric
    · simp only [hown, and_self, if_true, ite_self]
    · by_cases hcontains : routeContainsDest row.destinationPrefix data.destinationPrefix = true
      · have hnone : routeMetric s data.destinationPrefix.siFamily row = none :=
          Option.not_isSome_iff_eq_none.mp fun hsome => h ⟨htunnel, hown, hcontains, hsome⟩
        simp only [hnone, ite_self]
      · simp only [hcontains, Bool.not_false, if_true, ite_self]

/-- A row that is passed over for the best one so far has no higher rank. -/
theorem not_rank_lt_iff :
    ¬ rank s data best < rank s data row ↔
      row.destinationPrefix.prefixLength.toNat < best.destinationPrefix.prefixLength.toNat ∨
        row.destinationPrefix.prefixLength.toNat = best.destinationPrefix.prefixLength.toNat ∧
          metricOf s data best ≤ metricOf s data row := by
  rw [not_lt, rank, rank, Prod.Lex.toLex_le_toLex, OrderDual.toDual_le_toDual, BitVec.le_def]

theorem consider_of_candidate (h : isCandidate sys s data row = true) (o : Option Row) :
    consider sys s data (.ofRow s data o) row =
      .ofRow s data
        (match o with
          | none => some row
          | some best => if rank s data best < rank s data row then some row else some best) := by
  simp only [isCandidate, decide_eq_true_eq] at h
  obtain ⟨htunnel, hown, hcontains, hmetric⟩ := h
  obtain ⟨metric, hmetric⟩ := Option.isSome_iff_exists.mp hmetric
  have hof : metricOf s data row = metric := by
    rw [metricOf, hmetric]
    rfl
  cases o with
  | none =>
    have hlong : ¬ ((row.destinationPrefix.prefixLength.toNat : ℤ) < -1) := by omega
    have hne : ¬ ((row.destinationPrefix.prefixLength.toNat : ℤ) = -1) := by omega
    simp only [consider, Choice.ofRow, htunnel, hown, hcontains, hmetric, hlong, hne, if_false,
      Bool.not_true, Bool.false_eq_true, false_and, hof]
  | some best =>
    by_cases hlt : rank s data best < rank s data row
    · have hkeep := mt not_rank_lt_iff.mpr (not_not_intro hlt)
      rw [not_or] at hkeep
      simp only [hlt, if_true]
      rw [consider, if_neg htunnel, if_neg (by simpa [Choice.ofRow] using hkeep.1), if_neg hown,
        if_neg (by simp [hcontains])]
      simp only [hmetric]
      rw [if_neg (by simpa [Choice.ofRow, hof] using hkeep.2), Choice.ofRow, hof]
    · have hkeep := not_rank_lt_iff.mp hlt
      simp only [hlt, if_false]
      rw [consider, if_neg htunnel]
      rcases hkeep with hshort | ⟨heq, hle⟩
      · rw [if_pos (by simpa [Choice.ofRow] using hshort)]
      · rw [if_neg (by simp [Choice.ofRow, heq]), if_neg hown, if_neg (by simp [hcontains])]
        simp only [hmetric]
        rw [if_pos (by simpa [Choice.ofRow, heq, hof] using hle)]

/-- **The loop.** Of the rows that may be used, it ends with the first of the highest rank. -/
theorem chooseRoute_eq (table : List Row) :
    chooseRoute sys s data table =
      .ofRow s data ((table.filter (isCandidate sys s data)).argmax (rank s data)) := by
  induction table using List.reverseRecOn with
  | nil => rfl
  | append_singleton table row ih =>
    rw [chooseRoute] at ih ⊢
    rw [List.foldl_append, List.foldl_cons, List.foldl_nil, ih, List.filter_append]
    cases h : isCandidate sys s data row with
    | false => rw [consider_of_not_candidate _ h, List.filter_cons_of_neg (by simp [h]),
        List.filter_nil, List.append_nil]
    | true =>
      rw [consider_of_candidate h, List.filter_cons_of_pos h, List.filter_nil, List.argmax_concat]
      cases (table.filter (isCandidate sys s data)).argmax (rank s data) <;> rfl

end Choice

end WgDesktop.WindowsRouteMonitor
