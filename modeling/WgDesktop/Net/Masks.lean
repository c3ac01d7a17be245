import WgDesktop.Net.IPAddress

/-!
# Masks and predicates of a prefix

`netmask`, `hostmask` and `broadcastAddress` from `src/utils/ipaddress.cpp`. For IPv4 they shift a
word, for IPv6 they fill sixteen bytes and part of one; in both families they set the bits in front
of the prefix length or those behind it. `predicates_spec` says what they and the predicates mean for
the set of covered addresses.
-/

namespace WgDesktop

open BitPrefix PiNat

/-! ## Writing bytes -/

/-- `a[i] = v`. -/
def setByte (a : BitVec 128) (i : ℕ) (v : BitVec 8) : BitVec 128 :=
  orByte (a &&& ~~~((0xff#8).setWidth 128 <<< (8 * (15 - i)))) i v

/-- `memset(&a[offset], 0xff, count)`. -/
def memsetFF (a : BitVec 128) (offset count : ℕ) : BitVec 128 :=
  (List.range' offset count).foldl (fun a i => setByte a i 0xff#8) a

theorem getMsbD_setByte (a : BitVec 128) (v : BitVec 8) {i k : ℕ} (hi : i < 16) (hk : k < 128) :
    (setByte a i v).getMsbD k = if k / 8 = i then v.getMsbD (k % 8) else a.getMsbD k := by
  have hmask : ((0xff#8).setWidth 128 <<< (8 * (15 - i))).getMsbD k = decide (k / 8 = i) := by
    have hff : orByte 0#128 i 0xff#8 = (0xff#8).setWidth 128 <<< (8 * (15 - i)) := by
      rw [orByte, BitVec.zero_or]
    have h8 : k % 8 < 8 := Nat.mod_lt _ (by norm_num)
    rw [← hff, getMsbD_orByte _ _ hi hk, show 0xff#8 = BitVec.allOnes 8 by decide,
      BitVec.getMsbD_allOnes]
    simp [h8]
  rw [setByte, getMsbD_orByte _ _ hi hk, BitVec.getMsbD_and, BitVec.getMsbD_not, hmask]
  by_cases h : k / 8 = i
  · simp [h, hk]
  · simp [h, hk]

theorem getMsbD_memsetFF (a : BitVec 128) (offset count : ℕ) {k : ℕ} (h : offset + count ≤ 16)
    (hk : k < 128) :
    (memsetFF a offset count).getMsbD k =
      (a.getMsbD k || decide (offset ≤ k / 8 ∧ k / 8 < offset + count)) := by
  induction count generalizing a offset with
  | zero => simp [memsetFF]
  | succ count ih =>
    have h8 : k % 8 < 8 := Nat.mod_lt _ (by norm_num)
    have htail := ih (setByte a offset 0xff#8) (offset + 1) (by omega)
    rw [memsetFF, List.range'_succ, List.foldl_cons]
    rw [memsetFF] at htail
    rw [htail, getMsbD_setByte _ _ (by omega) hk, show 0xff#8 = BitVec.allOnes 8 by decide,
      BitVec.getMsbD_allOnes]
    by_cases hcur : k / 8 = offset
    · simp [hcur, h8]
    · have hiff : (offset + 1 ≤ k / 8 ∧ k / 8 < offset + 1 + count) ↔
          (offset ≤ k / 8 ∧ k / 8 < offset + (count + 1)) := by omega
      rw [if_neg hcur, decide_eq_decide.mpr hiff]

namespace IPAddress

/-! ## The masks -/

def netmask (p : IPAddress) : QHostAddress :=
  let n := p.prefixLength.toNat
  match p.address with
  | .ipv6 _ _ =>
    let rawNetmask := memsetFF 0#128 0 (n / 8)
    .ipv6 (if n % 8 ≠ 0 then setByte rawNetmask (n / 8) (0xff#8 ^^^ (0xff#8 >>> (n % 8)))
      else rawNetmask) []
  | .ipv4 _ =>
    .ipv4 (if p.prefixLength < 32 then 0xffffffff#32 ^^^ (0xffffffff#32 >>> n) else 0xffffffff#32)
  | .null => .null

def hostmask (p : IPAddress) : QHostAddress :=
  let n := p.prefixLength.toNat
  match p.address with
  | .ipv6 _ _ =>
    let offset := (n + 7) / 8
    let rawHostmask := memsetFF 0#128 offset (16 - offset)
    .ipv6 (if n % 8 ≠ 0 then setByte rawHostmask (n / 8) (0xff#8 >>> (n % 8)) else rawHostmask) []
  | .ipv4 _ => .ipv4 (if p.prefixLength < 32 then 0xffffffff#32 >>> n else 0#32)
  | .null => .null

def broadcastAddress (p : IPAddress) : QHostAddress :=
  let n := p.prefixLength.toNat
  match p.address with
  | .ipv6 a _ =>
    let offset := (n + 7) / 8
    let rawAddress := memsetFF a offset (16 - offset)
    .ipv6 (if n % 8 ≠ 0 then orByte rawAddress (n / 8) (0xff#8 >>> (n % 8)) else rawAddress) []
  | .ipv4 a => .ipv4 (if p.prefixLength < 32 then a ||| (0xffffffff#32 >>> n) else a)
  | .null => .null

/-! ## Their bits -/

theorem getMsbD_ones_shift {w n k : ℕ} (hk : k < w) :
    (BitVec.allOnes w >>> n).getMsbD k = decide (n ≤ k) := by
  rw [BitVec.getMsbD_ushiftRight, BitVec.getMsbD_allOnes]
  by_cases h : k < n
  · simp [h]
  · simp [h, hk, show k - n < w by omega]
    omega

section Bits

variable {p : IPAddress}

theorem bit_broadcastAddress (hp : p.Valid) {k : ℕ} (hk : k < p.address.width) :
    p.broadcastAddress.bit k = (p.address.bit k || decide (p.prefixLength.toNat ≤ k)) := by
  obtain ⟨pa, n⟩ := p
  obtain ⟨hproto, h0, hw⟩ := hp
  cases pa with
  | null => exact absurd rfl hproto
  | ipv4 a =>
    have hk32 : k < 32 := hk
    simp only [broadcastAddress, QHostAddress.bit]
    split_ifs with hlt
    · rw [BitVec.getMsbD_or, show 0xffffffff#32 = BitVec.allOnes 32 by decide,
        getMsbD_ones_shift hk32]
    · have hnot : ¬ n.toNat ≤ k := by omega
      simp [hnot]
  | ipv6 a s =>
    have hk128 : k < 128 := hk
    have hn128 : n.toNat ≤ 128 := hw
    have h8 : k % 8 < 8 := Nat.mod_lt _ (by norm_num)
    have hfill := getMsbD_memsetFF a ((n.toNat + 7) / 8) (16 - (n.toNat + 7) / 8) (by omega) hk128
    simp only [broadcastAddress, QHostAddress.bit]
    split_ifs with hpart
    · rw [getMsbD_orByte _ _ (by omega) hk128, hfill, show 0xff#8 = BitVec.allOnes 8 by decide,
        getMsbD_ones_shift h8, Bool.or_assoc, ← Bool.decide_and, ← Bool.decide_or]
      congr 2
      exact propext (by omega)
    · rw [hfill]
      congr 2
      exact propext (by omega)

theorem bit_hostmask (hp : p.Valid) {k : ℕ} (hk : k < p.address.width) :
    p.hostmask.bit k = decide (p.prefixLength.toNat ≤ k) := by
  obtain ⟨pa, n⟩ := p
  obtain ⟨hproto, h0, hw⟩ := hp
  cases pa with
  | null => exact absurd rfl hproto
  | ipv4 a =>
    have hk32 : k < 32 := hk
    simp only [hostmask, QHostAddress.bit]
    split_ifs with hlt
    · rw [show 0xffffffff#32 = BitVec.allOnes 32 by decide, getMsbD_ones_shift hk32]
    · have hnot : ¬ n.toNat ≤ k := by omega
      simp [hnot]
  | ipv6 a s =>
    have hk128 : k < 128 := hk
    have hn128 : n.toNat ≤ 128 := hw
    have h8 : k % 8 < 8 := Nat.mod_lt _ (by norm_num)
    have hfill := getMsbD_memsetFF 0#128 ((n.toNat + 7) / 8) (16 - (n.toNat + 7) / 8) (by omega)
      hk128
    rw [BitVec.getMsbD_zero, Bool.false_or] at hfill
    simp only [hostmask, QHostAddress.bit]
    split_ifs with hpart
    · rw [getMsbD_setByte _ _ (by omega) hk128, hfill, show 0xff#8 = BitVec.allOnes 8 by decide,
        getMsbD_ones_shift h8]
      split_ifs with hbyte
      · exact decide_eq_decide.mpr (by omega)
      · exact decide_eq_decide.mpr (by omega)
    · rw [hfill]
      exact decide_eq_decide.mpr (by omega)

theorem bit_netmask (hp : p.Valid) {k : ℕ} (hk : k < p.address.width) :
    p.netmask.bit k = decide (k < p.prefixLength.toNat) := by
  obtain ⟨pa, n⟩ := p
  obtain ⟨hproto, h0, hw⟩ := hp
  cases pa with
  | null => exact absurd rfl hproto
  | ipv4 a =>
    have hk32 : k < 32 := hk
    simp only [netmask, QHostAddress.bit]
    split_ifs with hlt
    · rw [BitVec.getMsbD_xor, show 0xffffffff#32 = BitVec.allOnes 32 by decide,
        getMsbD_ones_shift hk32, BitVec.getMsbD_allOnes]
      by_cases h : n.toNat ≤ k
      · have hout : ¬ k < n.toNat := by omega
        rw [decide_eq_true h, decide_eq_true hk32, decide_eq_false hout]
        rfl
      · have hin : k < n.toNat := by omega
        rw [decide_eq_false h, decide_eq_true hk32, decide_eq_true hin]
        rfl
    · have hin : k < n.toNat := by omega
      rw [show 0xffffffff#32 = BitVec.allOnes 32 by decide, BitVec.getMsbD_allOnes]
      simp [hk32, hin]
  | ipv6 a s =>
    have hk128 : k < 128 := hk
    have hn128 : n.toNat ≤ 128 := hw
    have h8 : k % 8 < 8 := Nat.mod_lt _ (by norm_num)
    have hfill := getMsbD_memsetFF 0#128 0 (n.toNat / 8) (by omega) hk128
    rw [BitVec.getMsbD_zero, Bool.false_or] at hfill
    simp only [netmask, QHostAddress.bit]
    split_ifs with hpart
    · rw [getMsbD_setByte _ _ (by omega) hk128, hfill, BitVec.getMsbD_xor,
        show 0xff#8 = BitVec.allOnes 8 by decide, getMsbD_ones_shift h8, BitVec.getMsbD_allOnes]
      split_ifs with hbyte
      · by_cases h : n.toNat % 8 ≤ k % 8
        · have hout : ¬ k < n.toNat := by omega
          simp [h, h8, hout]
        · have hin : k < n.toNat := by omega
          simp [h, h8, hin]
      · exact decide_eq_decide.mpr (by omega)
    · rw [hfill]
      exact decide_eq_decide.mpr (by omega)

theorem protocol_broadcastAddress (p : IPAddress) :
    p.broadcastAddress.protocol = p.address.protocol := by
  obtain ⟨pa, n⟩ := p
  cases pa <;> rfl

theorem protocol_netmask (p : IPAddress) : p.netmask.protocol = p.address.protocol := by
  obtain ⟨pa, n⟩ := p
  cases pa <;> rfl

theorem protocol_hostmask (p : IPAddress) : p.hostmask.protocol = p.address.protocol := by
  obtain ⟨pa, n⟩ := p
  cases pa <;> rfl

end Bits

end IPAddress

/-! ## Order and single bits of addresses -/

namespace QHostAddress

/-- The address as a number. -/
def word : QHostAddress → ℕ
  | null => 0
  | ipv4 a => a.toNat
  | ipv6 a _ => a.toNat

theorem word_le_of_bit {a b : QHostAddress} (hfam : a.protocol = b.protocol)
    (h : ∀ i < a.width, a.bit i = true → b.bit i = true) : a.word ≤ b.word := by
  cases a with
  | null => exact Nat.zero_le _
  | ipv4 x =>
    cases b with
    | ipv4 y => exact toNat_le_of_getMsbD h
    | _ => cases hfam
  | ipv6 x s =>
    cases b with
    | ipv6 y t => exact toNat_le_of_getMsbD h
    | _ => cases hfam

theorem exists_flip {a : QHostAddress} {n : ℕ} (hn : n < a.width) :
    ∃ b : QHostAddress, b.protocol = a.protocol ∧ (∀ i, i ≠ n → b.bit i = a.bit i) ∧
      b.bit n ≠ a.bit n := by
  cases a with
  | null => exact absurd hn (Nat.not_lt_zero n)
  | ipv4 x =>
    have hw : n < 32 := hn
    exact ⟨.ipv4 (flipBit x n), rfl, fun i hi => by simp [bit, getMsbD_flipBit hw, hi],
      by simp [bit, getMsbD_flipBit hw]⟩
  | ipv6 x s =>
    have hw : n < 128 := hn
    exact ⟨.ipv6 (flipBit x n) s, rfl, fun i hi => by simp [bit, getMsbD_flipBit hw, hi],
      by simp [bit, getMsbD_flipBit hw]⟩

theorem mem_cylinder_iff {a b : QHostAddress} {n : ℕ} (hproto : b.protocol = a.protocol)
    (hn : n ≤ a.width) :
    b.bit ∈ cylinder a.bit n ↔ b.word / 2 ^ (a.width - n) = a.word / 2 ^ (a.width - n) := by
  cases a with
  | null =>
    cases b with
    | null => exact ⟨fun _ => rfl, fun _ => self_mem_cylinder _ _⟩
    | _ => cases hproto
  | ipv4 x =>
    cases b with
    | ipv4 y => exact mem_cylinder_iff_div hn
    | _ => cases hproto
  | ipv6 x s =>
    cases b with
    | ipv6 y t => exact mem_cylinder_iff_div hn
    | _ => cases hproto

end QHostAddress

namespace IPAddress

/-! ## What the predicates mean -/

section Predicates

variable {p q : IPAddress}

theorem subnetOf_iff_subset (hp : p.Valid) (hq : q.Valid) :
    p.subnetOf q = true ↔ ∀ a, p.Covers a → q.Covers a := by
  rw [subnetOf_iff hp hq]
  constructor
  · rintro ⟨hle, hin⟩ a ha
    exact hin.of_start hle ha
  · intro h
    have hin : q.Covers p.address := h _ p.covers_self
    refine ⟨?_, hin⟩
    by_contra hlt
    -- an address of `p` that leaves `q` right behind the prefix of `p`
    have hwidth := hq.le_width
    rw [← QHostAddress.width_of_protocol hin.1] at hwidth
    obtain ⟨b, hfam, hsame, hdiff⟩ :=
      QHostAddress.exists_flip (a := p.address) (n := p.prefixLength.toNat) (by omega)
    have hb : q.Covers b := h b ⟨hfam, fun i hi => hsame i (by omega)⟩
    exact hdiff ((hb.2 _ (by omega)).trans (hin.2 _ (by omega)).symm)

theorem covers_broadcastAddress (hp : p.Valid) : p.Covers p.broadcastAddress := by
  refine ⟨p.protocol_broadcastAddress, fun i hi => ?_⟩
  have hle := hp.le_width
  have hnot : ¬ p.prefixLength.toNat ≤ i := by omega
  rw [bit_broadcastAddress hp (by omega), decide_eq_false hnot, Bool.or_false]

theorem word_le_broadcastAddress (hp : p.Valid) {a : QHostAddress} (ha : p.Covers a) :
    a.word ≤ p.broadcastAddress.word := by
  refine QHostAddress.word_le_of_bit (ha.1.trans p.protocol_broadcastAddress.symm)
    fun i hi hbit => ?_
  rw [QHostAddress.width_of_protocol ha.1] at hi
  rw [bit_broadcastAddress hp hi, Bool.or_eq_true, decide_eq_true_eq]
  by_cases hlt : i < p.prefixLength.toNat
  · exact Or.inl ((ha.2 i hlt).symm.trans hbit)
  · exact Or.inr (by omega)

/-- A network is the addresses from its own to its broadcast address. -/
theorem covers_iff_word (hp : p.Canonical) (a : QHostAddress) :
    p.Covers a ↔ a.protocol = p.address.protocol ∧ p.address.word ≤ a.word ∧
      a.word ≤ p.broadcastAddress.word := by
  constructor
  · intro ha
    refine ⟨ha.1, QHostAddress.word_le_of_bit ha.1.symm fun i _ hbit => ?_,
      word_le_broadcastAddress hp.toValid ha⟩
    by_cases hi : i < p.prefixLength.toNat
    · rw [ha.2 i hi, hbit]
    · rw [hp.hostZero i (not_lt.mp hi)] at hbit
      cases hbit
  · rintro ⟨hproto, hlow, hhigh⟩
    refine ⟨hproto, (QHostAddress.mem_cylinder_iff hproto hp.le_width).mpr ?_⟩
    have hbroad := covers_broadcastAddress hp.toValid
    have hend := (QHostAddress.mem_cylinder_iff hbroad.1 hp.le_width).mp hbroad.2
    have hle := Nat.div_le_div_right (c := 2 ^ (p.address.width - p.prefixLength.toNat)) hlow
    have hge := Nat.div_le_div_right (c := 2 ^ (p.address.width - p.prefixLength.toNat)) hhigh
    omega

/-- The predicates and masks mean what their names say about the sets of covered addresses. -/
structure PredicatesSpec (p q : IPAddress) : Prop where
  contains : ∀ a, p.contains a = true ↔ a.protocol = p.address.protocol ∧
    ∀ i < p.prefixLength.toNat, a.bit i = p.address.bit i
  overlaps_comm : p.overlaps q = q.overlaps p
  overlaps : p.overlaps q = true ↔ ∃ a, p.contains a = true ∧ q.contains a = true
  subnetOf : p.subnetOf q = true ↔ ∀ a, p.contains a = true → q.contains a = true
  broadcastAddress_mem : p.contains p.broadcastAddress = true
  broadcastAddress_greatest : ∀ a, p.contains a = true → a.word ≤ p.broadcastAddress.word
  protocol_masks : p.netmask.protocol = p.address.protocol ∧
    p.hostmask.protocol = p.address.protocol
  masks_complement : ∀ i < p.address.width, p.hostmask.bit i = !p.netmask.bit i

/-- **Predicates.** Any two valid prefixes meet it, whatever their families and lengths. -/
theorem predicates_spec (hp : p.Valid) (hq : q.Valid) : PredicatesSpec p q where
  contains a := contains_iff hp a
  overlaps_comm := by
    rw [Bool.eq_iff_iff, overlaps_iff hp hq, overlaps_iff hq hp]
    exact exists_congr fun a => And.comm
  overlaps := by simp only [overlaps_iff hp hq, contains_iff hp, contains_iff hq]
  subnetOf := by simp only [subnetOf_iff_subset hp hq, contains_iff hp, contains_iff hq]
  broadcastAddress_mem := (contains_iff hp _).mpr (covers_broadcastAddress hp)
  broadcastAddress_greatest a ha := word_le_broadcastAddress hp ((contains_iff hp a).mp ha)
  protocol_masks := ⟨p.protocol_netmask, p.protocol_hostmask⟩
  masks_complement i hi := by
    rw [bit_hostmask hp hi, bit_netmask hp hi, ← decide_not]
    exact decide_eq_decide.mpr not_lt.symm

/-- An address that is no network, and the default route of the other family. -/
theorem predicates_spec_mixed : PredicatesSpec ⟨.ipv4 0x0a010203#32, 31⟩ ⟨.ipv6 0#128 [], 0⟩ :=
  predicates_spec ⟨by decide, by decide, by decide⟩ ⟨by decide, by decide, by decide⟩

end Predicates

end IPAddress

end WgDesktop
