import WgDesktop.Lib.PlaceMarkers
import WgDesktop.Lib.Text
import WgDesktop.Net.HostAddress

/-!
# `IPAddress`

An address with a prefix length, from `src/utils/ipaddress.cpp`. IPv6 prefixes are handled byte by
byte there, and so they are here; `contains_iff`, `overlaps_iff`, `subnetOf_iff` and `subnets_eq`
then say what each operation does to the set of covered addresses, for both families at once.
-/

namespace WgDesktop

open BitPrefix PiNat PlaceMarkers

/-- `IPAddress`: `m_address` and `m_prefixLength`. -/
structure IPAddress where
  address : QHostAddress
  prefixLength : ℤ
  deriving DecidableEq, Repr

/-! ## Bytes of an IPv6 address -/

/-- Byte `i` of a `Q_IPV6ADDR`. -/
def byteAt (a : BitVec 128) (i : ℕ) : BitVec 8 := a.extractLsb' (8 * (15 - i)) 8

/-- `a[i] |= v`. -/
def orByte (a : BitVec 128) (i : ℕ) (v : BitVec 8) : BitVec 128 :=
  a ||| (v.setWidth 128 <<< (8 * (15 - i)))

/-- `memcmp(&a, &b, n) == 0`. -/
def memcmpEq (a b : BitVec 128) (n : ℕ) : Bool :=
  (List.range n).all fun i => byteAt a i == byteAt b i

theorem getMsbD_byteAt (a : BitVec 128) {i j : ℕ} (hi : i < 16) (hj : j < 8) :
    (byteAt a i).getMsbD j = a.getMsbD (8 * i + j) := by
  have hlt : 8 * i + j < 128 := by omega
  have h8 : 8 - 1 - j < 8 := by omega
  simp only [byteAt, BitVec.getMsbD, hlt, hj, decide_true, Bool.true_and,
    BitVec.getLsbD_extractLsb', h8]
  rw [show 8 * (15 - i) + (8 - 1 - j) = 128 - 1 - (8 * i + j) by omega]

theorem getMsbD_orByte (a : BitVec 128) (v : BitVec 8) {i k : ℕ} (hi : i < 16) (hk : k < 128) :
    (orByte a i v).getMsbD k = (a.getMsbD k || (decide (k / 8 = i) && v.getMsbD (k % 8))) := by
  rw [orByte, BitVec.getMsbD_or]
  congr 1
  simp only [BitVec.getMsbD, hk, decide_true, Bool.true_and, BitVec.getLsbD_shiftLeft,
    BitVec.getLsbD_setWidth]
  by_cases h : k / 8 = i
  · have h8 : k % 8 < 8 := Nat.mod_lt _ (by omega)
    have hlow : ¬ 128 - 1 - k < 8 * (15 - i) := by omega
    have hsub : 128 - 1 - k - 8 * (15 - i) = 8 - 1 - k % 8 := by omega
    have hin : 128 - 1 - k < 128 := by omega
    have hin' : 8 - 1 - k % 8 < 128 := by omega
    simp [h, h8, hlow, hsub, hin, hin']
  · simp only [h, decide_false, Bool.false_and]
    by_cases hlow : 128 - 1 - k < 8 * (15 - i)
    · simp [hlow]
    · rw [BitVec.getLsbD_of_ge v _ (by omega)]
      simp

theorem byteAt_eq_iff (a b : BitVec 128) {i : ℕ} (hi : i < 16) :
    byteAt a i = byteAt b i ↔ ∀ j < 8, b.getMsbD (8 * i + j) = a.getMsbD (8 * i + j) := by
  constructor
  · intro h j hj
    rw [← getMsbD_byteAt a hi hj, ← getMsbD_byteAt b hi hj, h]
  · intro h
    apply BitVec.eq_of_getMsbD_eq
    intro j hj
    rw [getMsbD_byteAt a hi hj, getMsbD_byteAt b hi hj, h j hj]

theorem memcmpEq_iff (a b : BitVec 128) {n : ℕ} (hn : n ≤ 16) :
    memcmpEq a b n = true ↔ b.getMsbD ∈ cylinder a.getMsbD (8 * n) := by
  simp only [memcmpEq, List.all_eq_true, List.mem_range, beq_iff_eq]
  constructor
  · intro h i hi
    have := (byteAt_eq_iff a b (by omega)).mp (h (i / 8) (by omega)) (i % 8) (by omega)
    rwa [show 8 * (i / 8) + i % 8 = i by omega] at this
  · intro h i hi
    exact (byteAt_eq_iff a b (by omega)).mpr fun j hj => h (8 * i + j) (by omega)

/-- Setting the top host bit of one byte is setting the top host bit of the address. -/
theorem orByte_eq_setBit (a : BitVec 128) {n : ℕ} (hn : n < 128) :
    orByte a (n / 8) (0x80#8 >>> (n % 8)) = setBit a n := by
  have h80 : (0x80#8) = BitVec.intMin 8 := by decide
  apply BitVec.eq_of_getMsbD_eq
  intro k hk
  rw [getMsbD_orByte _ _ (by omega) hk, getMsbD_setBit hn, h80, BitVec.getMsbD_ushiftRight,
    BitVec.getMsbD_intMin]
  congr 1
  have h8 : k % 8 < 8 := Nat.mod_lt _ (by omega)
  by_cases h : k = n
  · subst h
    simp [h8]
  · by_cases hq : k / 8 = n / 8
    · have hne : ¬ k % 8 < n % 8 → k % 8 - n % 8 ≠ 0 := by omega
      by_cases hlt : k % 8 < n % 8
      · simp [h, hlt]
      · simp [h, hne hlt]
    · simp [h, hq]

/-! ## The operations -/

namespace IPAddress

/-- `IPAddress(const QString& ip)`: the prefix of a single address is as long as the address. -/
def ofString (T : HostAddressText) (ip : List Char) : IPAddress :=
  let p := if '/' ∈ ip then T.parseSubnet ip else (T.hostAddress ip, 999999)
  match p.1.protocol with
  | .ipv4Protocol => ⟨p.1, if p.2 ≥ 32 then 32 else p.2⟩
  | .ipv6Protocol => ⟨p.1, if p.2 ≥ 128 then 128 else p.2⟩
  | .unknownNetworkLayerProtocol => ⟨p.1, p.2⟩

/-- `toString`. The text of an address with a scope id may have a place marker. -/
def toString (T : HostAddressText) (p : IPAddress) : List Char :=
  arg (arg "%1/%2".toList (T.toString p.address)) (Text.decimal p.prefixLength)

def contains (p : IPAddress) (address : QHostAddress) : Bool :=
  if address.protocol ≠ p.address.protocol then false
  else if p.prefixLength = 0 then true
  else
    let n := p.prefixLength.toNat
    match p.address, address with
    | .ipv6 a _, .ipv6 b _ =>
      let bytes := n / 8
      if bytes > 0 && !memcmpEq a b bytes then false
      else if n % 8 ≠ 0 then (byteAt a bytes ^^^ byteAt b bytes) >>> (8 - n % 8) == 0#8
      else true
    | .ipv4 a, .ipv4 b =>
      let diff := a ^^^ b
      if p.prefixLength < 32 then diff >>> (32 - n) == 0#32 else diff == 0#32
    | _, _ => false

def overlaps (p other : IPAddress) : Bool :=
  if p.prefixLength < other.prefixLength then p.contains other.address
  else other.contains p.address

/-- `operator==`. -/
def beq (p other : IPAddress) : Bool :=
  p.address == other.address && p.prefixLength == other.prefixLength

instance : BEq IPAddress := ⟨beq⟩

def subnetOf (p other : IPAddress) : Bool :=
  if other.address.protocol ≠ p.address.protocol then false
  else if p.prefixLength < other.prefixLength then false
  else other.contains p.address

/-- The two halves of a prefix; a single address has no halves and is returned alone. -/
def subnets (p : IPAddress) : List IPAddress :=
  let n := p.prefixLength.toNat
  match p.address with
  | .ipv4 a =>
    if p.prefixLength ≥ 32 then [p]
    else [⟨.ipv4 a, p.prefixLength + 1⟩,
      ⟨.ipv4 (a ||| (0x80000000#32 >>> n)), p.prefixLength + 1⟩]
  | address =>
    if p.prefixLength ≥ 128 then [p]
    else
      let raw := address.toIPv6Address
      [⟨.ipv6 raw [], p.prefixLength + 1⟩,
        ⟨.ipv6 (orByte raw (n / 8) (0x80#8 >>> (n % 8))) [], p.prefixLength + 1⟩]

/-! ## The addresses of a prefix -/

/-- The constructors' assertions: an address of some family and a prefix length in range. -/
structure Valid (p : IPAddress) : Prop where
  protocol : p.address.protocol ≠ .unknownNetworkLayerProtocol
  nonneg : 0 ≤ p.prefixLength
  le_width : p.prefixLength.toNat ≤ p.address.width

theorem Valid.toNat_ofInt {p : IPAddress} (hp : p.Valid) :
    ((BitVec.ofInt 8 p.prefixLength).toNat : ℤ) = p.prefixLength := by
  have hnonneg := hp.nonneg
  have hle := hp.le_width
  have hwidth := p.address.width_le
  rw [BitVec.toNat_ofInt, Int.toNat_of_nonneg (Int.emod_nonneg _ (by decide))]
  exact Int.emod_eq_of_lt hnonneg (by omega)

/-- A valid prefix with zero host bits, as `QHostAddress::parseSubnet` produces it. -/
structure Canonical (p : IPAddress) : Prop extends Valid p where
  hostZero : HostZero p.prefixLength.toNat p.address.bit

theorem bit_of_width_le {a : QHostAddress} {i : ℕ} (h : a.width ≤ i) : a.bit i = false := by
  cases a with
  | null => rfl
  | ipv4 a => exact getMsbD_of_ge h
  | ipv6 a s => exact getMsbD_of_ge h

theorem canonical_iff (p : IPAddress) :
    p.Canonical ↔ (p.address.protocol ≠ .unknownNetworkLayerProtocol ∧ 0 ≤ p.prefixLength ∧
      p.prefixLength.toNat ≤ p.address.width) ∧
      ∀ i < p.address.width, p.prefixLength.toNat ≤ i → p.address.bit i = false := by
  constructor
  · intro h
    exact ⟨⟨h.protocol, h.nonneg, h.le_width⟩, fun i _ hi => h.hostZero i hi⟩
  · rintro ⟨⟨hproto, h0, hle⟩, hzero⟩
    refine ⟨⟨hproto, h0, hle⟩, fun i hi => ?_⟩
    by_cases hw : i < p.address.width
    · exact hzero i hw hi
    · exact bit_of_width_le (by omega)

instance (p : IPAddress) : Decidable p.Canonical := decidable_of_iff' _ (canonical_iff p)

/-- `address` lies in the prefix `p`. -/
def Covers (p : IPAddress) (address : QHostAddress) : Prop :=
  address.protocol = p.address.protocol ∧
    address.bit ∈ cylinder p.address.bit p.prefixLength.toNat

theorem covers_self (p : IPAddress) : p.Covers p.address := ⟨rfl, self_mem_cylinder _ _⟩

theorem contains_ipv4_iff {a b : BitVec 32} {n : ℤ} (hn : n.toNat ≤ 32) :
    (if n < 32 then (a ^^^ b) >>> (32 - n.toNat) == 0#32 else (a ^^^ b) == 0#32) = true ↔
      b.getMsbD ∈ cylinder a.getMsbD n.toNat := by
  rw [← xor_shift_eq_zero_iff hn]
  by_cases hlt : n < 32
  · simp [hlt]
  · have h32 : n.toNat = 32 := by omega
    simp [hlt, h32]

theorem contains_ipv6_iff {a b : BitVec 128} {n : ℕ} (hn : n ≤ 128) :
    (if n / 8 > 0 && !memcmpEq a b (n / 8) then false
      else if n % 8 ≠ 0 then (byteAt a (n / 8) ^^^ byteAt b (n / 8)) >>> (8 - n % 8) == 0#8
      else true) = true ↔ b.getMsbD ∈ cylinder a.getMsbD n := by
  have hmem := memcmpEq_iff a b (n := n / 8) (by omega)
  have hhead : (n / 8 > 0 && !memcmpEq a b (n / 8)) = !memcmpEq a b (n / 8) := by
    by_cases h0 : n / 8 = 0
    · have h : memcmpEq a b (n / 8) = true := by rw [h0]; rfl
      simp [h]
    · simp [Nat.pos_of_ne_zero h0]
  rw [hhead]
  have hsplit := mem_cylinder_add (x := a.getMsbD) (y := b.getMsbD) (m := 8 * (n / 8)) (n := n % 8)
  rw [Nat.div_add_mod] at hsplit
  rw [hsplit, ← hmem]
  by_cases hm : memcmpEq a b (n / 8) = true
  · simp only [hm, Bool.not_true, if_false, Bool.false_eq_true, true_and]
    by_cases hr : n % 8 = 0
    · simp [hr]
    · rw [if_pos hr, beq_iff_eq, xor_shift_eq_zero_iff (by omega)]
      have hbits : ∀ (c : BitVec 128), ∀ j < n % 8,
          (byteAt c (n / 8)).getMsbD j = c.getMsbD (8 * (n / 8) + j) :=
        fun c j hj => getMsbD_byteAt c (by omega) (by omega)
      constructor
      · intro h j hj
        exact (hbits b j hj).symm.trans ((h j hj).trans (hbits a j hj))
      · intro h j hj
        exact (hbits b j hj).trans ((h j hj).trans (hbits a j hj).symm)
  · simp [hm]

theorem contains_iff {p : IPAddress} (hp : p.Valid) (address : QHostAddress) :
    p.contains address = true ↔ p.Covers address := by
  obtain ⟨pa, n⟩ := p
  obtain ⟨hproto, h0, hw⟩ := hp
  unfold contains Covers
  by_cases hfam : address.protocol = pa.protocol
  · simp only [hfam, ne_eq, not_true_eq_false, if_false, true_and]
    by_cases hz : n = 0
    · simp [hz]
    · rw [if_neg hz]
      cases pa with
      | null => exact absurd rfl hproto
      | ipv4 a =>
        cases address with
        | ipv4 b => exact contains_ipv4_iff hw
        | _ => simp [QHostAddress.protocol] at hfam
      | ipv6 a s =>
        cases address with
        | ipv6 b t => exact contains_ipv6_iff hw
        | _ => simp [QHostAddress.protocol] at hfam
  · simp [hfam]

theorem Covers.protocol_eq {p q : IPAddress} {a : QHostAddress} (hp : p.Covers a)
    (hq : q.Covers a) : p.address.protocol = q.address.protocol := hp.1.symm.trans hq.1

/-- The shorter of two prefixes with a common address covers the start of the other. -/
theorem Covers.of_common {p q : IPAddress} {a : QHostAddress}
    (hle : p.prefixLength.toNat ≤ q.prefixLength.toNat) (hp : p.Covers a) (hq : q.Covers a) :
    p.Covers q.address :=
  ⟨(hp.protocol_eq hq).symm, mem_of_common hle hp.2 hq.2⟩

theorem Covers.of_start {p q : IPAddress} {a : QHostAddress}
    (hle : p.prefixLength.toNat ≤ q.prefixLength.toNat) (hp : p.Covers q.address)
    (hq : q.Covers a) : p.Covers a :=
  ⟨hq.1.trans hp.1, mem_cylinder_trans hp.2 (cylinder_anti _ hle hq.2)⟩

theorem overlaps_iff {p q : IPAddress} (hp : p.Valid) (hq : q.Valid) :
    p.overlaps q = true ↔ ∃ a, p.Covers a ∧ q.Covers a := by
  have hp0 := hp.nonneg
  have hq0 := hq.nonneg
  unfold overlaps
  by_cases hlt : p.prefixLength < q.prefixLength
  · rw [if_pos hlt, contains_iff hp]
    constructor
    · intro h
      exact ⟨q.address, h, q.covers_self⟩
    · rintro ⟨a, hpa, hqa⟩
      exact hpa.of_common (by omega) hqa
  · rw [if_neg hlt, contains_iff hq]
    constructor
    · intro h
      exact ⟨p.address, p.covers_self, h⟩
    · rintro ⟨a, hpa, hqa⟩
      exact hqa.of_common (by omega) hpa

theorem subnetOf_iff {p q : IPAddress} (hp : p.Valid) (hq : q.Valid) :
    p.subnetOf q = true ↔ q.prefixLength.toNat ≤ p.prefixLength.toNat ∧ q.Covers p.address := by
  have hp0 := hp.nonneg
  have hq0 := hq.nonneg
  unfold subnetOf
  by_cases hfam : q.address.protocol = p.address.protocol
  · by_cases hlt : p.prefixLength < q.prefixLength
    · simp only [hfam, hlt, ne_eq, not_true_eq_false, if_false, if_true, Bool.false_eq_true,
        false_iff, not_and]
      omega
    · simp only [hfam, hlt, ne_eq, not_true_eq_false, if_false, contains_iff hq]
      exact ⟨fun h => ⟨by omega, h⟩, fun h => h.2⟩
  · simp only [hfam, ne_eq, not_false_eq_true, if_true, Bool.false_eq_true, false_iff, not_and]
    intro _ h
    exact hfam h.1.symm

theorem covers_congr {p q : IPAddress} (h : (p == q) = true) (a : QHostAddress) :
    p.Covers a ↔ q.Covers a := by
  change (p.address == q.address && p.prefixLength == q.prefixLength) = true at h
  rw [Bool.and_eq_true, QHostAddress.beq_iff, beq_iff_eq] at h
  unfold Covers
  rw [h.1.1, h.1.2, h.2]

/-- Canonical prefixes compare equal when one covers the start of the other at equal length. -/
theorem beq_iff {p q : IPAddress} (hp : p.Canonical) (hq : q.Canonical) :
    (p == q) = true ↔ p.prefixLength.toNat = q.prefixLength.toNat ∧ q.Covers p.address := by
  have hp0 := hp.nonneg
  have hq0 := hq.nonneg
  change (p.address == q.address && p.prefixLength == q.prefixLength) = true ↔ _
  rw [Bool.and_eq_true, QHostAddress.beq_iff, beq_iff_eq]
  constructor
  · rintro ⟨⟨hfam, hbit⟩, hlen⟩
    exact ⟨by rw [hlen], hfam, by rw [hbit]; exact self_mem_cylinder _ _⟩
  · rintro ⟨hlen, hfam, hbit⟩
    have hp' := hp.hostZero
    rw [hlen] at hp'
    exact ⟨⟨hfam, hq.hostZero.eq_of_mem hp' hbit⟩, by omega⟩

/-- What `operator==` compares. -/
def key (p : IPAddress) : NetworkLayerProtocol × (ℕ → Bool) × ℤ :=
  (p.address.protocol, p.address.bit, p.prefixLength)

theorem beq_iff_key {p q : IPAddress} : (p == q) = true ↔ p.key = q.key := by
  change (p.address == q.address && p.prefixLength == q.prefixLength) = true ↔ _
  rw [Bool.and_eq_true, QHostAddress.beq_iff, beq_iff_eq, key, key, Prod.mk.injEq, Prod.mk.injEq,
    and_assoc]

/-! ## Halving a prefix -/

/-- What `subnets` returns for a prefix that is no single address. -/
structure Halves (p l r : IPAddress) : Prop where
  left : l.Canonical
  right : r.Canonical
  left_length : l.prefixLength = p.prefixLength + 1
  right_length : r.prefixLength = p.prefixLength + 1
  covers : ∀ a, p.Covers a ↔ l.Covers a ∨ r.Covers a
  disjoint : ∀ a, ¬ (l.Covers a ∧ r.Covers a)

theorem halves_of_bits {p : IPAddress} (hp : p.Canonical)
    (hlt : p.prefixLength.toNat < p.address.width) {a b : QHostAddress}
    (ha : a.protocol = p.address.protocol) (hb : b.protocol = p.address.protocol)
    (hab : a.bit = p.address.bit) (hmem : b.bit ∈ cylinder p.address.bit p.prefixLength.toNat)
    (hne : b.bit p.prefixLength.toNat ≠ p.address.bit p.prefixLength.toNat)
    (hzero : HostZero (p.prefixLength.toNat + 1) b.bit) :
    Halves p ⟨a, p.prefixLength + 1⟩ ⟨b, p.prefixLength + 1⟩ := by
  have h0 := hp.nonneg
  have hlen : (p.prefixLength + 1).toNat = p.prefixLength.toNat + 1 := by omega
  have hproto := hp.protocol
  refine ⟨⟨⟨?_, by show 0 ≤ p.prefixLength + 1; omega, ?_⟩, ?_⟩,
    ⟨⟨?_, by show 0 ≤ p.prefixLength + 1; omega, ?_⟩, ?_⟩, rfl, rfl, ?_, ?_⟩
  · rw [ha]; exact hproto
  · show (p.prefixLength + 1).toNat ≤ a.width
    rw [hlen, QHostAddress.width_of_protocol ha]; exact hlt
  · show HostZero (p.prefixLength + 1).toNat a.bit
    rw [hlen, hab]; exact hp.hostZero.mono (Nat.le_succ _)
  · rw [hb]; exact hproto
  · show (p.prefixLength + 1).toNat ≤ b.width
    rw [hlen, QHostAddress.width_of_protocol hb]; exact hlt
  · show HostZero (p.prefixLength + 1).toNat b.bit
    rw [hlen]; exact hzero
  · intro c
    show _ ∧ _ ↔ (_ ∧ c.bit ∈ cylinder a.bit (p.prefixLength + 1).toNat) ∨
      (_ ∧ c.bit ∈ cylinder b.bit (p.prefixLength + 1).toNat)
    rw [hlen, ha, hb, hab, mem_cylinder_halves hmem hne, and_or_left]
  · rintro c ⟨hl, hr⟩
    have hl' : c.bit ∈ cylinder a.bit (p.prefixLength + 1).toNat := hl.2
    have hr' : c.bit ∈ cylinder b.bit (p.prefixLength + 1).toNat := hr.2
    rw [hlen] at hl' hr'
    rw [hab] at hl'
    exact not_mem_both_halves hne ⟨hl', hr'⟩

theorem subnets_eq {p : IPAddress} (hp : p.Canonical)
    (hlt : p.prefixLength.toNat < p.address.width) :
    ∃ l r, p.subnets = [l, r] ∧ Halves p l r := by
  obtain ⟨pa, n⟩ := p
  have h0 : 0 ≤ n := hp.nonneg
  have hzero : HostZero n.toNat pa.bit := hp.hostZero
  cases pa with
  | null => exact absurd rfl hp.protocol
  | ipv4 a =>
    have hn : n.toNat < 32 := hlt
    have hset : a ||| (0x80000000#32 >>> n.toNat) = setBit a n.toNat := by
      rw [setBit, show BitVec.intMin 32 = 0x80000000#32 by decide]
    refine ⟨⟨.ipv4 a, n + 1⟩, ⟨.ipv4 (setBit a n.toNat), n + 1⟩, ?_, ?_⟩
    · simp only [subnets, hset]
      rw [if_neg (by omega)]
    · exact halves_of_bits hp hlt rfl rfl rfl (setBit_mem_cylinder hn) (setBit_ne hn hzero)
        (hostZero_setBit hn hzero)
  | ipv6 a s =>
    have hn : n.toNat < 128 := hlt
    refine ⟨⟨.ipv6 a [], n + 1⟩, ⟨.ipv6 (setBit a n.toNat) [], n + 1⟩, ?_, ?_⟩
    · simp only [subnets, QHostAddress.toIPv6Address, orByte_eq_setBit a hn]
      rw [if_neg (by omega)]
    · exact halves_of_bits hp hlt rfl rfl rfl (setBit_mem_cylinder hn) (setBit_ne hn hzero)
        (hostZero_setBit hn hzero)

/-! ## The text of a prefix -/

section Text

variable {T : HostAddressText} {p : IPAddress}

/-- The text of the address has no place marker that `toString` takes for one of its own, as the
scope ids that begin with such a number are. -/
def NoMarker (T : HostAddressText) (p : IPAddress) : Prop :=
  ∀ m ∈ markers (T.toString p.address), 2 < m

theorem arg_address (s : List Char) : arg "%1/%2".toList s = s ++ "/%2".toList := by
  have hmin : (markers "%1/%2".toList).min? = some 1 := by decide
  rw [arg, hmin]
  rfl

theorem toString_eq (h : p.NoMarker T) :
    p.toString T = T.toString p.address ++ '/' :: Text.decimal p.prefixLength := by
  have hends : Ends "/%2".toList := fun c hc => by
    obtain rfl : '/' = c := Option.some.inj hc
    decide
  have hmin : (markers "/%2".toList).min? = some 2 := by decide
  have hlength : ∀ n, arg "/%2".toList n = '/' :: n := fun n => by
    rw [arg, hmin]
    exact congrArg ('/' :: ·) (List.append_nil n)
  rw [toString, arg_address, arg_append hends hmin h, hlength]

/-- Texts in which every address has the scope id 1. -/
def scopeOneText : HostAddressText where
  hostAddress _ := .null
  parseSubnet _ := (.null, -1)
  toString _ := "fe80::1%1".toList

/-- The scope id is taken for a place marker. -/
example : toString scopeOneText ⟨.ipv6 1#128 ['1'], 128⟩ = "fe80::1128/%2".toList := by decide

theorem mem_toString {c : Char} (h : c ∈ p.toString T) :
    c ∈ T.toString p.address ∨ c ∈ "/%2".toList ∨ c ∈ Text.decimal p.prefixLength := by
  rw [toString, arg_address] at h
  rcases mem_of_mem_arg h with h | h
  · exact (List.mem_append.mp h).imp_right Or.inl
  · exact Or.inr (Or.inr h)

end Text

/-! ## The local ranges of the RFCs -/

def rfc1918Ipv4 (T : HostAddressText) : List IPAddress :=
  [ofString T "10.0.0.0/8".toList, ofString T "172.16.0.0/12".toList,
   ofString T "192.168.0.0/16".toList]

def rfc4193Ipv6 (T : HostAddressText) : List IPAddress := [ofString T "fc00::/7".toList]

def rfc4291Ipv6LinkLocalAddressBlock (T : HostAddressText) : IPAddress :=
  ofString T "fe80::/10".toList

def rfc4291Ipv6MulticastAddressBlock (T : HostAddressText) : IPAddress :=
  ofString T "ff00::/8".toList

def rfc1112Ipv4MulticastAddressBlock (T : HostAddressText) : IPAddress :=
  ofString T "224.0.0.0/4".toList

def lanAddressRanges (T : HostAddressText) : List IPAddress :=
  rfc1918Ipv4 T ++ rfc4193Ipv6 T ++ [rfc4291Ipv6LinkLocalAddressBlock T] ++
    [rfc1112Ipv4MulticastAddressBlock T] ++ [rfc4291Ipv6MulticastAddressBlock T]

/-- The networks of the local ranges with their usual texts. -/
def lanNetworks : List (String × String × IPAddress) :=
  [("10.0.0.0", "10.0.0.0/8", ⟨.ipv4 0x0a000000#32, 8⟩),
   ("172.16.0.0", "172.16.0.0/12", ⟨.ipv4 0xac100000#32, 12⟩),
   ("192.168.0.0", "192.168.0.0/16", ⟨.ipv4 0xc0a80000#32, 16⟩),
   ("fc00::", "fc00::/7", ⟨.ipv6 0xfc000000000000000000000000000000#128 [], 7⟩),
   ("fe80::", "fe80::/10", ⟨.ipv6 0xfe800000000000000000000000000000#128 [], 10⟩),
   ("224.0.0.0", "224.0.0.0/4", ⟨.ipv4 0xe0000000#32, 4⟩),
   ("ff00::", "ff00::/8", ⟨.ipv6 0xff000000000000000000000000000000#128 [], 8⟩)]

/-- Qt reads the texts of the local ranges as the networks they denote, and writes the addresses
of these networks in their usual form. -/
def ReadsLan (T : HostAddressText) : Prop :=
  ∀ e ∈ lanNetworks, T.parseSubnet e.2.1.toList = (e.2.2.address, e.2.2.prefixLength) ∧
    T.toString e.2.2.address = e.1.toList

theorem canonical_of_mem_lanNetworks : ∀ e ∈ lanNetworks, e.2.2.Canonical := by
  decide

theorem ofString_eq_min {T : HostAddressText} {s : List Char} {a : QHostAddress} {n : ℤ}
    (h : (if '/' ∈ s then T.parseSubnet s else (T.hostAddress s, 999999)) = (a, n))
    (ha : a.protocol ≠ .unknownNetworkLayerProtocol) : ofString T s = ⟨a, min n a.width⟩ := by
  unfold ofString
  rw [h]
  cases a with
  | null => exact absurd rfl ha
  | ipv4 a =>
    simp only [QHostAddress.protocol, QHostAddress.width, mk.injEq, true_and]
    split_ifs <;> omega
  | ipv6 a scope =>
    simp only [QHostAddress.protocol, QHostAddress.width, mk.injEq, true_and]
    split_ifs <;> omega

theorem ofString_of_parseSubnet {T : HostAddressText} {s : List Char} {p : IPAddress}
    (hp : p.Valid) (hs : '/' ∈ s) (h : T.parseSubnet s = (p.address, p.prefixLength)) :
    ofString T s = p := by
  have hw := hp.le_width
  rw [ofString_eq_min (by rw [if_pos hs, h]) hp.protocol, min_eq_left (by omega)]

theorem lanAddressRanges_eq {T : HostAddressText} (hT : ReadsLan T) :
    lanAddressRanges T = lanNetworks.map fun e => e.2.2 := by
  have hslash : ∀ e ∈ lanNetworks, '/' ∈ e.2.1.toList := by decide
  change (lanNetworks.map fun e => ofString T e.2.1.toList) = _
  apply List.map_congr_left
  intro e he
  exact ofString_of_parseSubnet (canonical_of_mem_lanNetworks e he).toValid (hslash e he)
    (hT e he).1

theorem toString_of_mem_lanNetworks {T : HostAddressText} (hT : ReadsLan T)
    {e : String × String × IPAddress} (he : e ∈ lanNetworks) :
    e.2.2.toString T = e.2.1.toList := by
  have htext : ∀ e ∈ lanNetworks,
      e.1.toList ++ '/' :: Text.decimal e.2.2.prefixLength = e.2.1.toList := by decide
  have hmarkers : ∀ e ∈ lanNetworks, markers e.1.toList = [] := by decide
  have hplain : e.2.2.NoMarker T := by
    rw [NoMarker, (hT e he).2, hmarkers e he]
    exact fun m hm => absurd hm List.not_mem_nil
  rw [toString_eq hplain, (hT e he).2, htext e he]

end IPAddress

end WgDesktop
