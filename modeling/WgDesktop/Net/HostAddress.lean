import WgDesktop.Lib.BitPrefix
import WgDesktop.Lib.Text

/-!
# Host addresses

`QHostAddress` as the sources use it: no address, an IPv4 word, or sixteen IPv6 bytes with an
optional scope id. Its conversions from and to text are Qt's; `HostAddressText` names the three
that the sources call, and the results that need them state what they rely on.
-/

namespace WgDesktop

open BitPrefix

inductive NetworkLayerProtocol where
  | unknownNetworkLayerProtocol
  | ipv4Protocol
  | ipv6Protocol
  deriving DecidableEq, Repr

/-- Qt's host address. -/
inductive QHostAddress where
  | null
  | ipv4 (address : BitVec 32)
  | ipv6 (address : BitVec 128) (scopeId : List Char)
  deriving DecidableEq, Repr

namespace QHostAddress

def protocol : QHostAddress → NetworkLayerProtocol
  | null => .unknownNetworkLayerProtocol
  | ipv4 _ => .ipv4Protocol
  | ipv6 _ _ => .ipv6Protocol

def isNull : QHostAddress → Bool
  | null => true
  | _ => false

/-- The sixteen address bytes, as one word in network order. -/
def toIPv6Address : QHostAddress → BitVec 128
  | ipv6 a _ => a
  | _ => 0

/-- `operator==`: the scope id is not compared. -/
def beq : QHostAddress → QHostAddress → Bool
  | null, null => true
  | ipv4 a, ipv4 b => a == b
  | ipv6 a _, ipv6 b _ => a == b
  | _, _ => false

instance : BEq QHostAddress := ⟨beq⟩

/-- The number of address bits of the protocol. -/
def width : QHostAddress → ℕ
  | null => 0
  | ipv4 _ => 32
  | ipv6 _ _ => 128

/-- The address bits, most significant first. -/
def bit : QHostAddress → ℕ → Bool
  | null => fun _ => false
  | ipv4 a => a.getMsbD
  | ipv6 a _ => a.getMsbD

theorem width_of_protocol {a b : QHostAddress} (h : a.protocol = b.protocol) :
    a.width = b.width := by
  cases a <;> cases b <;> simp_all [protocol, width]

theorem width_le (a : QHostAddress) : a.width ≤ 128 := by cases a <;> simp [width]

/-- Two addresses compare equal when they have one protocol and the same bits. -/
theorem beq_iff {a b : QHostAddress} :
    (a == b) = true ↔ a.protocol = b.protocol ∧ a.bit = b.bit := by
  change beq a b = true ↔ _
  cases a with
  | null => cases b <;> simp [beq, protocol, bit]
  | ipv4 x =>
    cases b with
    | ipv4 y => simp [beq, protocol, bit, getMsbD_injective.eq_iff]
    | _ => simp [beq, protocol]
  | ipv6 x s =>
    cases b with
    | ipv6 y t => simp [beq, protocol, bit, getMsbD_injective.eq_iff]
    | _ => simp [beq, protocol]

end QHostAddress

/-- Qt's text conversions: `QHostAddress(const QString&)`, which is null when the text is no
address, `QHostAddress::parseSubnet`, which is `(null, -1)` when it is no subnet, and
`QHostAddress::toString`. -/
structure HostAddressText where
  hostAddress : List Char → QHostAddress
  parseSubnet : List Char → QHostAddress × ℤ
  toString : QHostAddress → List Char

namespace HostAddressText

variable (T : HostAddressText)

/-- The text `s` is a subnet, or an address taken as a subnet of its own. -/
def Reads (s : List Char) (address : QHostAddress) (prefixLength : ℤ) : Prop :=
  address.protocol ≠ .unknownNetworkLayerProtocol ∧ 0 ≤ prefixLength ∧
    if '/' ∈ s then T.parseSubnet s = (address, prefixLength)
    else T.hostAddress s = address ∧ prefixLength = address.width

/-- What Qt documents about these conversions: IPv6 addresses contain a colon, a prefix is no
longer than its address, and the text of an address that was read is made of hexadecimal digits,
separators and the scope id of the text it was read from, and is read as the same address. -/
structure Lawful : Prop where
  colon_mem : ∀ s, (T.hostAddress s).protocol = .ipv6Protocol → ':' ∈ s
  prefixLength_le : ∀ s a n, T.Reads s a n → n ≤ a.width
  parseSubnet_toString : ∀ s a n, T.Reads s a n →
    T.parseSubnet (T.toString a ++ '/' :: Text.decimal n) = (a, n)
  head_toString : ∀ s a n, T.Reads s a n →
    ∃ c ∈ "0123456789abcdef:".toList, (T.toString a).head? = some c
  mem_toString : ∀ s a n, T.Reads s a n → ∀ c ∈ T.toString a,
    c ∈ s ∨ c ∈ "0123456789abcdef:.% ".toList

/-! ## Tables -/

/-- The conversions restricted to the addresses and subnets of a table. -/
def ofTable (addresses : List (List Char × QHostAddress))
    (subnets : List (List Char × QHostAddress × ℤ)) : HostAddressText where
  hostAddress s := ((addresses.find? (·.1 = s)).map (·.2)).getD .null
  parseSubnet s := ((subnets.find? (·.1 = s)).map (·.2)).getD (.null, -1)
  toString a := ((addresses.find? (·.2 = a)).map (·.1)).getD []

/-- The texts of a table with what they are read as. -/
def tableReadings (addresses : List (List Char × QHostAddress))
    (subnets : List (List Char × QHostAddress × ℤ)) : List (List Char × QHostAddress × ℤ) :=
  subnets ++ addresses.map fun e => (e.1, e.2, (e.2.width : ℤ))

section Table

variable {addresses : List (List Char × QHostAddress)}
  {subnets : List (List Char × QHostAddress × ℤ)}

theorem mem_of_hostAddress {s : List Char} {a : QHostAddress}
    (h : (ofTable addresses subnets).hostAddress s = a)
    (ha : a.protocol ≠ .unknownNetworkLayerProtocol) : (s, a) ∈ addresses := by
  simp only [ofTable] at h
  cases hfind : addresses.find? (·.1 = s) with
  | none =>
    rw [hfind] at h
    subst h
    exact absurd rfl ha
  | some e =>
    rw [hfind] at h
    obtain rfl : e.2 = a := h
    obtain rfl : e.1 = s := by simpa using List.find?_some hfind
    exact List.mem_of_find?_eq_some hfind

theorem mem_tableReadings {s : List Char} {a : QHostAddress} {n : ℤ}
    (h : (ofTable addresses subnets).Reads s a n) :
    (s, a, n) ∈ tableReadings addresses subnets := by
  obtain ⟨hproto, h0, h⟩ := h
  rw [tableReadings, List.mem_append]
  split_ifs at h
  · simp only [ofTable] at h
    cases hfind : subnets.find? (·.1 = s) with
    | none =>
      rw [hfind] at h
      obtain ⟨rfl, -⟩ := Prod.mk.inj h
      exact absurd rfl hproto
    | some e =>
      rw [hfind] at h
      obtain rfl : e.1 = s := by simpa using List.find?_some hfind
      have he : e.2 = (a, n) := h
      rw [← he]
      exact Or.inl (List.mem_of_find?_eq_some hfind)
  · obtain ⟨h, rfl⟩ := h
    exact Or.inr (List.mem_map.mpr ⟨(s, a), mem_of_hostAddress h hproto, rfl⟩)

theorem lawful_ofTable
    (hcolon : ∀ e ∈ addresses, e.2.protocol = .ipv6Protocol → ':' ∈ e.1)
    (h : ∀ e ∈ tableReadings addresses subnets, e.2.2 ≤ e.2.1.width ∧
      (ofTable addresses subnets).parseSubnet
        ((ofTable addresses subnets).toString e.2.1 ++ '/' :: Text.decimal e.2.2) = e.2 ∧
      (((ofTable addresses subnets).toString e.2.1).head?.any
        fun c => "0123456789abcdef:".toList.contains c) = true ∧
      (((ofTable addresses subnets).toString e.2.1).all
        fun c => e.1.contains c || "0123456789abcdef:.% ".toList.contains c) = true) :
    (ofTable addresses subnets).Lawful where
  colon_mem s hs := hcolon (s, _) (mem_of_hostAddress rfl (by rw [hs]; decide)) hs
  prefixLength_le s a n hr := (h _ (mem_tableReadings hr)).1
  parseSubnet_toString s a n hr := (h _ (mem_tableReadings hr)).2.1
  head_toString s a n hr := by
    have hany := (h _ (mem_tableReadings hr)).2.2.1
    rw [Option.any_eq_true] at hany
    obtain ⟨c, hc, hmem⟩ := hany
    exact ⟨c, List.contains_iff_mem.mp hmem, hc⟩
  mem_toString s a n hr c hc := by
    have hall := List.all_eq_true.mp (h _ (mem_tableReadings hr)).2.2.2 c hc
    rwa [Bool.or_eq_true, List.contains_iff_mem, List.contains_iff_mem] at hall

end Table

end HostAddressText

end WgDesktop
