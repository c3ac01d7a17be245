import WgDesktop.Lib.AddressText
import WgDesktop.Lib.Text
import WgDesktop.Net.HostAddress

/-!
# DNS servers on the bus

`DnsResolver` of `src/platforms/linux/dbustypes.h`, written to the bus and read back. The reader
shifts the bytes of an IPv4 address as signed characters, and it passes the bytes of an IPv6 address
to a conversion that takes a text. `read_write_iff` says which addresses it gets right.
-/

namespace WgDesktop.DnsResolver

open Bytes AddressText

/-! ## Writing and reading -/

/-- The structure on the bus. -/
structure Argument where
  family : ℤ
  data : List Byte
  deriving DecidableEq, Repr

def afInet : ℤ := 2

def afInet6 : ℤ := 10

/-- `QHostAddress::toIPv4Address`, zero for an address that is not of IPv4. -/
def toIPv4Address : QHostAddress → BitVec 32
  | .ipv4 a => a
  | _ => 0

/-- `operator<<`. -/
def write (ip : QHostAddress) : Argument :=
  if ip.protocol = .ipv6Protocol then
    { family := afInet6, data := toBytes ip.toIPv6Address }
  else
    let addrv4 := toIPv4Address ip
    { family := afInet
      data := [((addrv4 >>> 24) &&& 0xff).setWidth 8, ((addrv4 >>> 16) &&& 0xff).setWidth 8,
        ((addrv4 >>> 8) &&& 0xff).setWidth 8, ((addrv4 >>> 0) &&& 0xff).setWidth 8] }

/-- A signed character as an `int`, shifted to the left. -/
def shifted (c : Byte) (k : ℕ) : BitVec 32 := c.signExtend 32 <<< k

section Read

variable (T : HostAddressText) (fromUtf8 : List Byte → List Char)

/-- `operator>>` into `ip`. The pointer to the data becomes a text that ends at the first NUL. -/
def read (ip : QHostAddress) (args : Argument) : QHostAddress :=
  if args.family = afInet6 then T.hostAddress (fromUtf8 (args.data.takeWhile (· ≠ 0)))
  else
    match args.data with
    | c₀ :: c₁ :: c₂ :: c₃ :: _ =>
      .ipv4 (0#32 ||| shifted c₀ 24 ||| shifted c₁ 16 ||| shifted c₂ 8 ||| shifted c₃ 0)
    | _ => ip

/-- A text up to the scope id, without its white space. -/
def addressPart (s : List Char) : List Char :=
  (s.filter fun c => !Text.isSpace c).takeWhile (· ≠ '%')

/-- What the reader relies on: a character takes a byte at least, and what is read as an address of
IPv6 is a text of it. -/
structure Lawful : Prop where
  length_fromUtf8 : ∀ bs, (fromUtf8 bs).length ≤ bs.length
  denotes : ∀ s a scopeId, T.hostAddress s = .ipv6 a scopeId → Denotes (addressPart s) (toBytes a)

end Read

/-! ## Addresses of IPv4 -/

/-- Byte `i` of an address, in network order. -/
def byte (a : BitVec 32) (i : ℕ) : Byte := a.extractLsb' (24 - 8 * i) 8

/-- The addresses that are read back: where the top bit of a byte is set, only bytes of ones are in
front of it. -/
def Legible : QHostAddress → Prop
  | .ipv4 a => ∀ i < 4, (byte a i).msb = true → ∀ j < i, byte a j = 0xff
  | _ => False

instance : DecidablePred Legible
  | .null => isFalse id
  | .ipv4 a =>
    inferInstanceAs (Decidable (∀ i < 4, (byte a i).msb = true → ∀ j < i, byte a j = 0xff))
  | .ipv6 _ _ => isFalse id

section IPv4

variable {a : BitVec 32} {i j k : ℕ}

theorem getLsbD_byte (a : BitVec 32) (hi : i < 8) :
    (byte a j).getLsbD i = a.getLsbD (24 - 8 * j + i) := by
  rw [byte, BitVec.getLsbD_extractLsb', decide_eq_true hi, Bool.true_and]

theorem byte_eq_ones : byte a j = 0xff ↔ ∀ i < 8, a.getLsbD (24 - 8 * j + i) = true := by
  have hones : (0xff : Byte) = BitVec.allOnes 8 := rfl
  rw [hones]
  constructor
  · intro h i hi
    rw [← getLsbD_byte a hi, h, BitVec.getLsbD_allOnes, decide_eq_true hi]
  · intro h
    apply BitVec.eq_of_getLsbD_eq
    intro i hi
    rw [getLsbD_byte a hi, h i hi, BitVec.getLsbD_allOnes, decide_eq_true hi]

theorem setWidth_ushiftRight (a : BitVec 32) (k : ℕ) :
    ((a >>> k) &&& 0xff).setWidth 8 = a.extractLsb' k 8 := by
  have hones : (0xff : BitVec 32) = (BitVec.allOnes 8).setWidth 32 := rfl
  rw [hones]
  apply BitVec.eq_of_getLsbD_eq
  intro i hi
  have h32 : i < 32 := by omega
  rw [BitVec.getLsbD_setWidth, BitVec.getLsbD_and, BitVec.getLsbD_ushiftRight,
    BitVec.getLsbD_setWidth, BitVec.getLsbD_allOnes, BitVec.getLsbD_extractLsb']
  simp only [hi, h32, decide_true, Bool.true_and, Bool.and_true]

/-- The bits of a shifted character: its own, and its top bit in all places above. -/
theorem getLsbD_shifted (c : Byte) (hi : i < 32) :
    (shifted c k).getLsbD i =
      (decide (k ≤ i) && if i < k + 8 then c.getLsbD (i - k) else c.msb) := by
  have h32 : i - k < 32 := by omega
  have h8 : i - k < 8 ↔ i < k + 8 ∨ i < k := by omega
  rw [shifted, BitVec.getLsbD_shiftLeft, BitVec.getLsbD_signExtend, decide_eq_true hi,
    decide_eq_true h32]
  by_cases hk : k ≤ i
  · have hlt : ¬ i < k := by omega
    simp [hk, h8, hlt]
  · simp [hk, Nat.lt_of_not_le hk]

/-- What is read of the bytes of an address. -/
def decoded (a : BitVec 32) : BitVec 32 :=
  0#32 ||| shifted (byte a 0) 24 ||| shifted (byte a 1) 16 ||| shifted (byte a 2) 8 |||
    shifted (byte a 3) 0

theorem getLsbD_decoded_iff :
    (decoded a).getLsbD i = true ↔
      ∃ j < 4, (shifted (byte a j) (24 - 8 * j)).getLsbD i = true := by
  rw [decoded, BitVec.getLsbD_or, BitVec.getLsbD_or, BitVec.getLsbD_or, BitVec.getLsbD_or,
    BitVec.getLsbD_zero, Bool.false_or, Bool.or_eq_true, Bool.or_eq_true, Bool.or_eq_true]
  constructor
  · rintro (((h | h) | h) | h)
    · exact ⟨0, by decide, h⟩
    · exact ⟨1, by decide, h⟩
    · exact ⟨2, by decide, h⟩
    · exact ⟨3, by decide, h⟩
  · rintro ⟨j, hj, h⟩
    obtain rfl | rfl | rfl | rfl : j = 0 ∨ j = 1 ∨ j = 2 ∨ j = 3 := by omega
    all_goals simp only [Nat.reduceMul, Nat.reduceSub] at h
    · exact .inl (.inl (.inl h))
    · exact .inl (.inl (.inr h))
    · exact .inl (.inr h)
    · exact .inr h

/-- The top bit of a byte spills over all bits above the byte. -/
theorem getLsbD_decoded (hi : i < 32) :
    (decoded a).getLsbD i = true ↔
      a.getLsbD i = true ∨ ∃ j < 4, (byte a j).msb = true ∧ 32 - 8 * j ≤ i := by
  rw [getLsbD_decoded_iff]
  constructor
  · rintro ⟨j, hj, h⟩
    rw [getLsbD_shifted _ hi, Bool.and_eq_true, decide_eq_true_eq] at h
    obtain ⟨hle, hbit⟩ := h
    split at hbit
    case isTrue hown =>
      rw [getLsbD_byte a (by omega), Nat.add_sub_cancel' hle] at hbit
      exact .inl hbit
    case isFalse hup => exact .inr ⟨j, hj, hbit, by omega⟩
  · rintro (hbit | ⟨j, hj, hmsb, hle⟩)
    · refine ⟨(31 - i) / 8, by omega, ?_⟩
      rw [getLsbD_shifted _ hi, if_pos (by omega), getLsbD_byte a (by omega),
        Nat.add_sub_cancel' (by omega), hbit, decide_eq_true (by omega), Bool.true_and]
    · refine ⟨j, hj, ?_⟩
      rw [getLsbD_shifted _ hi, if_neg (by omega), hmsb, decide_eq_true (by omega), Bool.true_and]

theorem decoded_eq_self_iff : decoded a = a ↔ Legible (.ipv4 a) := by
  constructor
  · intro h j hj hmsb l hl
    refine byte_eq_ones.mpr fun i hi => ?_
    have hbit : 24 - 8 * l + i < 32 := by omega
    rw [← h]
    exact (getLsbD_decoded hbit).mpr (.inr ⟨j, hj, hmsb, by omega⟩)
  · intro h
    apply BitVec.eq_of_getLsbD_eq
    intro i hi
    rw [Bool.eq_iff_iff, getLsbD_decoded hi]
    constructor
    · rintro (hbit | ⟨j, hj, hmsb, hle⟩)
      · exact hbit
      · have hones := byte_eq_ones.mp (h j hj hmsb ((31 - i) / 8) (by omega))
          (i - (24 - 8 * ((31 - i) / 8))) (by omega)
        rwa [Nat.add_sub_cancel' (by omega)] at hones
    · exact .inl

end IPv4

/-! ## The round trip -/

section RoundTrip

variable {T : HostAddressText} {fromUtf8 : List Byte → List Char}

theorem read_write_ipv4 (ip : QHostAddress) (a : BitVec 32) :
    read T fromUtf8 ip (write (.ipv4 a)) = .ipv4 (decoded a) := by
  have hwrite : write (.ipv4 a) =
      { family := afInet, data := [byte a 0, byte a 1, byte a 2, byte a 3] } := by
    rw [write, if_neg NetworkLayerProtocol.noConfusion]
    simp only [toIPv4Address, setWidth_ushiftRight]
    rfl
  rw [hwrite]
  rfl

theorem length_addressPart_le (s : List Char) : (addressPart s).length ≤ s.length :=
  ((List.takeWhile_sublist _).trans List.filter_sublist).length_le

/-- The bytes in front of the first NUL are not zero. So the text that they make up is too short for
an address with all of them. -/
theorem read_write_ipv6 (hlaw : Lawful T fromUtf8) (ip : QHostAddress) (a : BitVec 128)
    (scopeId scopeId' : List Char) :
    read T fromUtf8 ip (write (.ipv6 a scopeId)) ≠ .ipv6 a scopeId' := by
  intro h
  have hcount := (hlaw.denotes _ _ _ h).countP_lt
  have hnonzero : ((toBytes a).takeWhile (· ≠ 0)).length ≤ (toBytes a).countP (· ≠ 0) := by
    rw [← List.countP_eq_length.mpr fun b hb => List.mem_takeWhile_imp hb]
    exact (List.takeWhile_sublist _).countP_le
  have hchars := hlaw.length_fromUtf8 ((toBytes a).takeWhile (· ≠ 0))
  have hpart := length_addressPart_le (fromUtf8 ((toBytes a).takeWhile (· ≠ 0)))
  exact absurd hcount (Nat.not_lt.mpr (hpart.trans (hchars.trans hnonzero)))

/-- Of the addresses of either family those are read back that are legible. -/
theorem read_write_iff (hlaw : Lawful T fromUtf8) {a : QHostAddress} (ha : a ≠ .null)
    (ip : QHostAddress) : (read T fromUtf8 ip (write a) == a) = true ↔ Legible a := by
  cases a with
  | null => exact absurd rfl ha
  | ipv4 a =>
    rw [read_write_ipv4, ← decoded_eq_self_iff]
    show (decoded a == a) = true ↔ decoded a = a
    exact beq_iff_eq
  | ipv6 a scopeId =>
    refine iff_of_false (fun h => ?_) id
    cases hread : read T fromUtf8 ip (write (.ipv6 a scopeId)) with
    | null =>
      rw [hread] at h
      cases h
    | ipv4 b =>
      rw [hread] at h
      cases h
    | ipv6 b scopeId' =>
      rw [hread] at h
      have hsame : (b == a) = true := h
      obtain rfl := eq_of_beq hsame
      exact read_write_ipv6 hlaw ip b scopeId scopeId' hread

end RoundTrip

/-! ## Two servers -/

/-- The conversion of text at the address of the host itself. -/
def loopback : HostAddressText := .ofTable [("::1".toList, .ipv6 1 [])] []

/-- Characters of ASCII, and the mark for bytes that are none. -/
def ascii (bytes : List Byte) : List Char :=
  bytes.map fun b => if b.toNat < 128 then Char.ofNat b.toNat else '\uFFFD'

theorem denotes_loopback : Denotes "::1".toList (toBytes 1#128) := by
  have hone : Numeral 16 ['1'] 1 :=
    ⟨[], ['1'], [1], rfl, by simp, by simp, .cons ⟨by decide, .inl rfl⟩ .nil, rfl⟩
  have hside : Side true ['1'] (toBytes 1#16) := .inr (.field ⟨1, hone, by decide, rfl⟩)
  exact Denotes.zeros 6 (.inl ⟨rfl, rfl⟩) hside (by decide)

theorem lawful_loopback : Lawful loopback ascii where
  length_fromUtf8 bs := (List.length_map _).le
  denotes s a scopeId h := by
    have hmem := HostAddressText.mem_of_hostAddress h NetworkLayerProtocol.noConfusion
    rw [List.mem_singleton, Prod.mk.injEq, QHostAddress.ipv6.injEq] at hmem
    obtain ⟨rfl, rfl, rfl⟩ := hmem
    exact denotes_loopback

theorem read_write_iff_public :
    (read loopback ascii .null (write (.ipv4 0x08080808)) == .ipv4 0x08080808) = true ↔
      Legible (.ipv4 0x08080808) :=
  read_write_iff lawful_loopback (by decide) .null

/-- A server in a private network, and one of IPv6. -/
theorem read_write_private :
    read loopback ascii .null (write (.ipv4 0xc0a80101)) = .ipv4 0xffa80101 ∧
      (read loopback ascii .null (write (.ipv4 0xc0a80101)) == .ipv4 0xc0a80101) = false ∧
      read loopback ascii .null (write (.ipv6 0x20010db8000000000000000000000001 [])) = .null := by
  decide

end WgDesktop.DnsResolver
