import Mathlib.Tactic.IntervalCases
import WgDesktop.Linux.WireguardUtils
import WgDesktop.Linux.Wireguard

/-!
# Keys as text

`wg_key_to_base64` and `wg_key_from_base64` of
`src/3rdparty/wireguard-tools/contrib/embeddable-wg-library/wireguard.c`, in the arithmetic on `int`
that makes them run in constant time. A text is accepted exactly when it is the text of a key
(`wgKeyFromBase64_eq_zero_iff`); what the callers get that do not look at the error is
`WireguardUtils.wgKeyFromBase64` (`wgKeyFromBase64_snd`).
-/

namespace WgDesktop.WireguardKeys

open Bytes Wireguard

/-! ## The functions -/

/-- A `uint8_t` in an expression. -/
abbrev int (x : Byte) : BitVec 32 := x.setWidth 32

/-- A `char` in an expression; whether `char` is signed depends on the machine. -/
def charInt (signed : Bool) (c : Byte) : BitVec 32 := if signed then c.signExtend 32 else int c

/-- The value of a digit of `input` as it is written. -/
def encodeDigit (input : Byte) : Byte :=
  (int input + 65#32
    + ((25#32 - int input).sshiftRight 8 &&& 6#32)
    - ((51#32 - int input).sshiftRight 8 &&& 75#32)
    - ((61#32 - int input).sshiftRight 8 &&& 15#32)
    + ((62#32 - int input).sshiftRight 8 &&& 3#32)).setWidth 8

def encodeBase64 (src₀ src₁ src₂ : Byte) : List Byte :=
  [(int src₀).sshiftRight 2 &&& 63#32,
    (int src₀ <<< 4 ||| (int src₁).sshiftRight 4) &&& 63#32,
    (int src₁ <<< 2 ||| (int src₂).sshiftRight 6) &&& 63#32,
    int src₂ &&& 63#32].map fun input => encodeDigit (input.setWidth 8)

def toGroups : ℕ → List Byte → List Byte
  | 0, [a, b] => encodeBase64 a b 0
  | n + 1, a :: b :: c :: rest => encodeBase64 a b c ++ toGroups n rest
  | _, _ => []

def wgKeyToBase64 (key : Block 32) : List Byte := ((toGroups 10 key.1).set 43 61 ++ [0])

/-- The summand of a character in `decode_base64`: its value, and -1 for one that is no digit. -/
def decodeDigit (signed : Bool) (c : Byte) : BitVec 32 :=
  let src := charInt signed c
  BitVec.allOnes 32
    + (((64#32 - src) &&& (src - 91#32)).sshiftRight 8 &&& (src - 64#32))
    + (((96#32 - src) &&& (src - 123#32)).sshiftRight 8 &&& (src - 70#32))
    + (((47#32 - src) &&& (src - 58#32)).sshiftRight 8 &&& (src + 5#32))
    + (((42#32 - src) &&& (src - 44#32)).sshiftRight 8 &&& 63#32)
    + (((46#32 - src) &&& (src - 48#32)).sshiftRight 8 &&& 64#32)

def decodeBase64 (signed : Bool) (a b c d : Byte) : BitVec 32 :=
  (decodeDigit signed a <<< 18) ||| (decodeDigit signed b <<< 12) |||
    (decodeDigit signed c <<< 6) ||| decodeDigit signed d

/-- The groups of `wg_key_from_base64`: the bytes of the key, and `ret`. -/
def fromGroups (signed : Bool) : ℕ → List Byte → Byte → List Byte × Byte
  | 0, a :: b :: c :: _, ret =>
    let val := decodeBase64 signed a b c 65
    ([(val.sshiftRight 16).setWidth 8, (val.sshiftRight 8).setWidth 8],
      ret ||| (val >>> 31 ||| (val &&& 0xff#32)).setWidth 8)
  | n + 1, a :: b :: c :: d :: rest, ret =>
    let val := decodeBase64 signed a b c d
    let (key, ret) := fromGroups signed n rest (ret ||| (val >>> 31).setWidth 8)
    ((val.sshiftRight 16).setWidth 8 :: (val.sshiftRight 8).setWidth 8 :: val.setWidth 8 :: key,
      ret)
  | _, _, ret => ([], ret)

def einval : BitVec 32 := 22

/-- `wg_key_from_base64`: what it returns, and the key, which was `key` before. -/
def wgKeyFromBase64 (signed : Bool) (key : List Byte) (base64 : List Byte) :
    BitVec 32 × List Byte :=
  let base64 := base64.takeWhile (· ≠ 0)
  if base64.length ≠ 44 ∨ base64[43]? ≠ some 61 then (-einval, key)
  else
    let (key, ret) := fromGroups signed 10 base64 0
    (-(einval &&& ~~~((int ret - 1#32).sshiftRight 8)), key)

/-! ## Digits -/

def digit (x : BitVec 6) : Byte := encodeDigit (x.setWidth 8)

theorem decodeDigit_digit (signed : Bool) (x : BitVec 6) :
    decodeDigit signed (digit x) = x.setWidth 32 := by
  revert signed x
  decide +kernel

theorem digit_or (signed : Bool) (c : Byte) :
    decodeDigit signed c = BitVec.allOnes 32 ∨ ∃ x, c = digit x := by
  have h : ∀ signed c, decodeDigit signed c = BitVec.allOnes 32 ∨
      c = digit ((decodeDigit signed c).setWidth 6) := by
    decide +kernel
  exact (h signed c).imp id fun h => ⟨_, h⟩

theorem decodeDigit_eq (signed : Bool) (c : Byte) :
    decodeDigit signed c = WireguardUtils.base64Value c := by
  revert signed c
  decide +kernel

/-! ## Groups -/

/-- The characters of the 24 bits of a group. -/
def digits (x : BitVec 24) : List Byte :=
  [digit (x.extractLsb' 18 6), digit (x.extractLsb' 12 6), digit (x.extractLsb' 6 6),
    digit (x.extractLsb' 0 6)]

theorem exists_group (a b c : Byte) :
    ∃ x : BitVec 24, a = x.extractLsb' 16 8 ∧ b = x.extractLsb' 8 8 ∧ c = x.extractLsb' 0 8 := by
  refine ⟨(a ++ b ++ c : BitVec 24), ?_, ?_, ?_⟩ <;>
    (apply BitVec.eq_of_getLsbD_eq; intro i hi) <;>
    interval_cases i <;>
    simp only [BitVec.getLsbD_append, BitVec.getLsbD_extractLsb'] <;>
    simp

theorem encodeBase64_group (x : BitVec 24) :
    encodeBase64 (x.extractLsb' 16 8) (x.extractLsb' 8 8) (x.extractLsb' 0 8) = digits x := by
  simp only [encodeBase64, List.map_cons, List.map_nil, digits, digit, List.cons.injEq, and_true]
  refine ⟨congrArg _ ?_, congrArg _ ?_, congrArg _ ?_, congrArg _ ?_⟩ <;>
    (apply BitVec.eq_of_getLsbD_eq; intro i hi) <;>
    interval_cases i <;>
    simp only [BitVec.getLsbD_setWidth, BitVec.getLsbD_and, BitVec.getLsbD_or,
      BitVec.getLsbD_shiftLeft, BitVec.getLsbD_sshiftRight, BitVec.getLsbD_extractLsb'] <;>
    simp

theorem decodeBase64_digit (signed : Bool) (x₀ x₁ x₂ x₃ : BitVec 6) :
    ∃ x : BitVec 24, decodeBase64 signed (digit x₀) (digit x₁) (digit x₂) (digit x₃) =
      x.setWidth 32 ∧ digits x = [digit x₀, digit x₁, digit x₂, digit x₃] := by
  refine ⟨(x₀ ++ x₁ ++ x₂ ++ x₃ : BitVec 24), ?_, ?_⟩
  · simp only [decodeBase64, decodeDigit_digit]
    apply BitVec.eq_of_getLsbD_eq
    intro i hi
    interval_cases i <;>
      simp only [BitVec.getLsbD_setWidth, BitVec.getLsbD_append, BitVec.getLsbD_or,
        BitVec.getLsbD_shiftLeft] <;>
      simp
  · simp only [digits, List.cons.injEq, and_true]
    refine ⟨congrArg _ ?_, congrArg _ ?_, congrArg _ ?_, congrArg _ ?_⟩ <;>
      (apply BitVec.eq_of_getLsbD_eq; intro i hi) <;>
      interval_cases i <;>
      simp only [BitVec.getLsbD_append, BitVec.getLsbD_extractLsb'] <;>
      simp

theorem digit_injective : Function.Injective digit := by
  intro x y h
  have hv := congrArg (decodeDigit false) h
  rw [decodeDigit_digit, decodeDigit_digit] at hv
  simpa using congrArg (BitVec.setWidth 6) hv

theorem getLsbD_of_extractLsb'_eq {x y : BitVec 24} {o w i : ℕ}
    (h : x.extractLsb' o w = y.extractLsb' o w) (ho : o ≤ i) (hi : i - o < w) :
    x.getLsbD i = y.getLsbD i := by
  have hb := congrArg (BitVec.getLsbD · (i - o)) h
  simpa [BitVec.getLsbD_extractLsb', hi, Nat.add_sub_cancel' ho] using hb

theorem sextets_injective (x y : BitVec 24)
    (h : x.extractLsb' 18 6 = y.extractLsb' 18 6 ∧ x.extractLsb' 12 6 = y.extractLsb' 12 6 ∧
      x.extractLsb' 6 6 = y.extractLsb' 6 6 ∧ x.extractLsb' 0 6 = y.extractLsb' 0 6) : x = y := by
  apply BitVec.eq_of_getLsbD_eq
  intro i hi
  obtain ⟨h₃, h₂, h₁, h₀⟩ := h
  rcases (by omega : 18 ≤ i ∨ 12 ≤ i ∧ i - 12 < 6 ∨ 6 ≤ i ∧ i - 6 < 6 ∨ i < 6) with h | h | h | h
  · exact getLsbD_of_extractLsb'_eq h₃ h (by omega)
  · exact getLsbD_of_extractLsb'_eq h₂ h.1 h.2
  · exact getLsbD_of_extractLsb'_eq h₁ h.1 h.2
  · exact getLsbD_of_extractLsb'_eq h₀ (Nat.zero_le _) (by omega)

theorem bytes_injective (x y : BitVec 24)
    (h : x.extractLsb' 16 8 = y.extractLsb' 16 8 ∧ x.extractLsb' 8 8 = y.extractLsb' 8 8 ∧
      x.extractLsb' 0 8 = y.extractLsb' 0 8) : x = y := by
  apply BitVec.eq_of_getLsbD_eq
  intro i hi
  obtain ⟨h₂, h₁, h₀⟩ := h
  rcases (by omega : 16 ≤ i ∨ 8 ≤ i ∧ i - 8 < 8 ∨ i < 8) with h | h | h
  · exact getLsbD_of_extractLsb'_eq h₂ h (by omega)
  · exact getLsbD_of_extractLsb'_eq h₁ h.1 h.2
  · exact getLsbD_of_extractLsb'_eq h₀ (Nat.zero_le _) (by omega)

theorem digits_injective : Function.Injective digits := by
  intro x y h
  simp only [digits, List.cons.injEq, and_true] at h
  exact sextets_injective x y ⟨digit_injective h.1, digit_injective h.2.1, digit_injective h.2.2.1,
    digit_injective h.2.2.2⟩

/-- Bit 31 of a group is clear exactly when its characters are digits; it is then the 24 bits. -/
theorem decodeBase64_msb_iff (signed : Bool) (a b c d : Byte) :
    (decodeBase64 signed a b c d).msb = false ↔
      ∃ x : BitVec 24, digits x = [a, b, c, d] ∧ decodeBase64 signed a b c d = x.setWidth 32 := by
  constructor
  · intro h
    have bits : (decodeBase64 signed a b c d).msb =
        ((decodeDigit signed a).getLsbD 13 || (decodeDigit signed b).getLsbD 19 ||
          (decodeDigit signed c).getLsbD 25 || (decodeDigit signed d).getLsbD 31) := by
      simp [decodeBase64, BitVec.msb_eq_getLsbD_last]
    rw [bits] at h
    simp only [Bool.or_eq_false_iff] at h
    obtain ⟨⟨⟨ha, hb⟩, hc⟩, hd⟩ := h
    have of_bit {x : Byte} {i : ℕ} (hi : i < 32) (h : (decodeDigit signed x).getLsbD i = false) :
        ∃ y, x = digit y := by
      rcases digit_or signed x with hx | hx
      · rw [hx, BitVec.getLsbD_allOnes, decide_eq_true hi] at h
        contradiction
      · exact hx
    obtain ⟨x₀, rfl⟩ := of_bit (by omega) ha
    obtain ⟨x₁, rfl⟩ := of_bit (by omega) hb
    obtain ⟨x₂, rfl⟩ := of_bit (by omega) hc
    obtain ⟨x₃, rfl⟩ := of_bit (by omega) hd
    obtain ⟨x, hx, hd⟩ := decodeBase64_digit signed x₀ x₁ x₂ x₃
    exact ⟨x, hd, hx⟩
  · rintro ⟨x, -, hx⟩
    rw [hx, BitVec.msb_setWidth, BitVec.getLsbD_of_ge _ _ (by omega), Bool.and_false]

theorem decodeBase64_digits (signed : Bool) {x : BitVec 24} {a b c d : Byte}
    (h : digits x = [a, b, c, d]) : decodeBase64 signed a b c d = x.setWidth 32 := by
  have hd : (decodeBase64 signed a b c d).msb = false := by
    simp only [digits, List.cons.injEq, and_true] at h
    obtain ⟨rfl, rfl, rfl, rfl⟩ := h
    obtain ⟨y, hy, hd⟩ := decodeBase64_digit signed (x.extractLsb' 18 6) (x.extractLsb' 12 6)
      (x.extractLsb' 6 6) (x.extractLsb' 0 6)
    exact (decodeBase64_msb_iff ..).2 ⟨y, hd, hy⟩
  obtain ⟨y, hy, he⟩ := (decodeBase64_msb_iff ..).1 hd
  rw [he, digits_injective (hy.trans h.symm)]

theorem bytes_group (x : BitVec 24) :
    (((x.setWidth 32).sshiftRight 16 : BitVec 32).setWidth 8 = x.extractLsb' 16 8) ∧
    (((x.setWidth 32).sshiftRight 8 : BitVec 32).setWidth 8 = x.extractLsb' 8 8) ∧
    ((x.setWidth 32 : BitVec 32).setWidth 8 = x.extractLsb' 0 8) := by
  refine ⟨?_, ?_, ?_⟩ <;>
    (apply BitVec.eq_of_getLsbD_eq; intro i hi) <;>
    interval_cases i <;>
    simp [BitVec.getElem_sshiftRight]

theorem sign_eq_zero_iff (val : BitVec 32) :
    ((val >>> 31).setWidth 8 : Byte) = 0#8 ↔ val.msb = false := by
  rw [BitVec.msb_eq_false_iff_two_mul_lt, ← BitVec.toNat_inj]
  simp only [BitVec.toNat_setWidth, BitVec.toNat_ushiftRight, Nat.shiftRight_eq_div_pow,
    BitVec.toNat_ofNat]
  omega

/-! ## The loops -/

theorem digit_padding {x : BitVec 24} (h : 0#8 = x.extractLsb' 0 8) :
    digit (x.extractLsb' 0 6) = 65#8 := by
  have hz : x.extractLsb' 0 6 = 0 := by
    apply BitVec.eq_of_getLsbD_eq
    intro i hi
    have hb := congrArg (BitVec.getLsbD · i) h.symm
    simpa [BitVec.getLsbD_extractLsb', hi, (by omega : i < 8)] using hb
  rw [hz]
  decide

theorem digits_padded (x : BitVec 24) (a b c d : Byte) (h : 0#8 = x.extractLsb' 0 8) :
    [a, b, c, d].set 3 61#8 = (digits x).set 3 61#8 ↔ digits x = [a, b, c, 65#8] := by
  simp only [digits, digit_padding h, List.set_cons_succ, List.set_cons_zero, List.cons.injEq,
    and_true, eq_comm]

theorem fromGroups_zero (signed : Bool) (a b c d ret : Byte) :
    fromGroups signed 0 [a, b, c, d] ret =
      ([((decodeBase64 signed a b c 65#8).sshiftRight 16).setWidth 8,
        ((decodeBase64 signed a b c 65#8).sshiftRight 8).setWidth 8],
      ret ||| ((decodeBase64 signed a b c 65#8 >>> 31).setWidth 8 |||
        (decodeBase64 signed a b c 65#8).setWidth 8)) := by
  have low (val : BitVec 32) : ((val &&& 0xff#32).setWidth 8 : Byte) = val.setWidth 8 := by
    apply BitVec.eq_of_getLsbD_eq
    intro i hi
    interval_cases i <;> simp
  simp only [fromGroups, BitVec.setWidth_or, low]
  rfl

/-- The last group, whose third byte would be the padding's. -/
theorem fromGroups_zero_iff (signed : Bool) (a b c d k₀ k₁ ret : Byte) :
    fromGroups signed 0 [a, b, c, d] ret = ([k₀, k₁], 0#8) ↔
      ret = 0#8 ∧ [a, b, c, d].set 3 61#8 = (toGroups 0 [k₀, k₁]).set 3 61#8 := by
  obtain ⟨x, rfl, rfl, hlow⟩ := exists_group k₀ k₁ 0#8
  have htext : toGroups 0 [x.extractLsb' 16 8, x.extractLsb' 8 8] = digits x := by
    rw [← encodeBase64_group, ← hlow]
    rfl
  rw [fromGroups_zero, htext, digits_padded _ _ _ _ _ hlow]
  simp only [Prod.mk.injEq, List.cons.injEq, and_true, BitVec.or_eq_zero_iff]
  constructor
  · rintro ⟨⟨h₀, h₁⟩, hret, hsign, h₂⟩
    obtain ⟨y, hy, hval⟩ := (decodeBase64_msb_iff ..).1 ((sign_eq_zero_iff _).1 hsign)
    obtain ⟨b₀, b₁, b₂⟩ := bytes_group y
    have hxy : y = x :=
      bytes_injective _ _ ⟨b₀.symm.trans (hval ▸ h₀), b₁.symm.trans (hval ▸ h₁),
        (b₂.symm.trans (hval ▸ h₂)).trans hlow⟩
    exact ⟨hret, hxy ▸ hy⟩
  · rintro ⟨hret, hx⟩
    obtain ⟨b₀, b₁, b₂⟩ := bytes_group x
    have hval := decodeBase64_digits signed hx
    rw [sign_eq_zero_iff, hval, b₀, b₁, b₂]
    exact ⟨⟨rfl, rfl⟩, hret, hval ▸ (decodeBase64_msb_iff ..).2 ⟨x, hx, hval⟩, hlow.symm⟩

theorem fromGroups_succ (signed : Bool) (n : ℕ) (a b c d ret : Byte) (rest : List Byte) :
    fromGroups signed (n + 1) (a :: b :: c :: d :: rest) ret =
      let val := decodeBase64 signed a b c d
      let result := fromGroups signed n rest (ret ||| (val >>> 31).setWidth 8)
      ((val.sshiftRight 16).setWidth 8 :: (val.sshiftRight 8).setWidth 8 :: val.setWidth 8 ::
        result.1, result.2) := rfl

/-- The bytes of the groups are those of a key, and no character was amiss, exactly when the
characters before the padding are the key's. -/
theorem fromGroups_iff (signed : Bool) (n : ℕ) {base64 key : List Byte} (ret : Byte)
    (hb : base64.length = 4 * n + 4) (hk : key.length = 3 * n + 2) :
    fromGroups signed n base64 ret = (key, 0#8) ↔
      ret = 0#8 ∧ base64.set (4 * n + 3) 61#8 = (toGroups n key).set (4 * n + 3) 61#8 := by
  induction n generalizing base64 key ret with
  | zero =>
    obtain ⟨a, b, c, d, rfl⟩ : ∃ a b c d, base64 = [a, b, c, d] := List.length_eq_four.1 hb
    obtain ⟨k₀, k₁, rfl⟩ : ∃ k₀ k₁, key = [k₀, k₁] := List.length_eq_two.1 hk
    exact fromGroups_zero_iff signed a b c d k₀ k₁ ret
  | succ n ih =>
    match base64, key, hb, hk with
    | a :: b :: c :: d :: rest, k₀ :: k₁ :: k₂ :: key, hb, hk =>
      have hb' : rest.length = 4 * n + 4 := by
        simp only [List.length_cons] at hb
        omega
      have hk' : key.length = 3 * n + 2 := by
        simp only [List.length_cons] at hk
        omega
      obtain ⟨x, rfl, rfl, rfl⟩ := exists_group k₀ k₁ k₂
      obtain ⟨b₀, b₁, b₂⟩ := bytes_group x
      have htext : toGroups (n + 1)
          (x.extractLsb' 16 8 :: x.extractLsb' 8 8 :: x.extractLsb' 0 8 :: key) =
            digits x ++ toGroups n key := by
        rw [← encodeBase64_group]
        rfl
      have hset : (a :: b :: c :: d :: rest).set (4 * (n + 1) + 3) 61#8 =
            (digits x ++ toGroups n key).set (4 * (n + 1) + 3) 61#8 ↔
          [a, b, c, d] = digits x ∧
            rest.set (4 * n + 3) 61#8 = (toGroups n key).set (4 * n + 3) 61#8 := by
        rw [(by omega : 4 * (n + 1) + 3 = (4 * n + 3) + 1 + 1 + 1 + 1)]
        simp only [digits, List.cons_append, List.nil_append, List.set_cons_succ, List.cons.injEq,
          and_true, and_assoc]
      rw [fromGroups_succ, htext, hset]
      simp only [Prod.mk.injEq, List.cons.injEq]
      constructor
      · rintro ⟨⟨h₀, h₁, h₂, hkey⟩, hret⟩
        obtain ⟨hor, hrest⟩ := (ih _ hb' hk').1 (Prod.ext hkey hret)
        obtain ⟨hret, hsign⟩ := BitVec.or_eq_zero_iff.1 hor
        obtain ⟨y, hy, hval⟩ := (decodeBase64_msb_iff ..).1 ((sign_eq_zero_iff _).1 hsign)
        obtain ⟨c₀, c₁, c₂⟩ := bytes_group y
        have hxy : y = x :=
          bytes_injective _ _ ⟨c₀.symm.trans (hval ▸ h₀), c₁.symm.trans (hval ▸ h₁),
            c₂.symm.trans (hval ▸ h₂)⟩
        exact ⟨hret, (hxy ▸ hy).symm, hrest⟩
      · rintro ⟨hret, hx, hrest⟩
        have hval := decodeBase64_digits signed hx.symm
        have hsign : ((decodeBase64 signed a b c d >>> 31).setWidth 8 : Byte) = 0#8 :=
          (sign_eq_zero_iff _).2 ((decodeBase64_msb_iff ..).2 ⟨x, hx.symm, hval⟩)
        have hkey := (ih (ret ||| (decodeBase64 signed a b c d >>> 31).setWidth 8) hb' hk').2
          ⟨BitVec.or_eq_zero_iff.2 ⟨hret, hsign⟩, hrest⟩
        rw [hval] at hkey ⊢
        rw [b₀, b₁, b₂, hkey]
        exact ⟨⟨rfl, rfl, rfl, rfl⟩, rfl⟩

theorem digit_ne_zero (x : BitVec 6) : digit x ≠ 0 := by
  revert x
  decide

theorem length_toGroups (n : ℕ) {key : List Byte} (hk : key.length = 3 * n + 2) :
    (toGroups n key).length = 4 * n + 4 := by
  induction n generalizing key with
  | zero =>
    obtain ⟨k₀, k₁, rfl⟩ : ∃ k₀ k₁, key = [k₀, k₁] := List.length_eq_two.1 hk
    rfl
  | succ n ih =>
    match key, hk with
    | k₀ :: k₁ :: k₂ :: key, hk =>
      have hk' : key.length = 3 * n + 2 := by
        simp only [List.length_cons] at hk
        omega
      rw [toGroups, List.length_append, ih hk']
      simp only [encodeBase64, List.length_map, List.length_cons, List.length_nil]
      omega

theorem encodeBase64_ne_zero {a b c x : Byte} (h : x ∈ encodeBase64 a b c) : x ≠ 0 := by
  obtain ⟨y, rfl, rfl, rfl⟩ := exists_group a b c
  rw [encodeBase64_group] at h
  simp only [digits, List.mem_cons, List.not_mem_nil, or_false] at h
  rcases h with rfl | rfl | rfl | rfl <;> exact digit_ne_zero _

theorem toGroups_ne_zero (n : ℕ) {key : List Byte} {x : Byte} (h : x ∈ toGroups n key) :
    x ≠ 0 := by
  fun_induction toGroups n key with
  | case1 a b => exact encodeBase64_ne_zero h
  | case2 n a b c rest ih =>
    rcases List.mem_append.1 h with h | h
    · exact encodeBase64_ne_zero h
    · exact ih h
  | case3 => exact absurd h List.not_mem_nil

/-! ## The functions -/

theorem takeWhile_wgKeyToBase64 (key : Block 32) :
    (wgKeyToBase64 key).takeWhile (· ≠ 0) = (toGroups 10 key.1).set 43 61 := by
  rw [wgKeyToBase64, List.takeWhile_append_of_pos]
  · simp
  · intro x hx
    rcases List.mem_or_eq_of_mem_set hx with hx | rfl
    · exact decide_eq_true (toGroups_ne_zero 10 hx)
    · decide

theorem errno_eq_zero_iff (ret : Byte) :
    -(einval &&& ~~~((int ret - 1#32).sshiftRight 8)) = 0#32 ↔ ret = 0#8 := by
  revert ret
  decide +kernel

/-- A text is accepted as a key exactly when it is the text of that key. -/
theorem wgKeyFromBase64_eq_zero_iff (signed : Bool) (before base64 : List Byte) (key : Block 32) :
    wgKeyFromBase64 signed before base64 = (0, key.1) ↔
      base64.takeWhile (· ≠ 0) = (wgKeyToBase64 key).takeWhile (· ≠ 0) := by
  rw [takeWhile_wgKeyToBase64, wgKeyFromBase64]
  generalize base64.takeWhile (· ≠ 0) = text
  have hlen : ((toGroups 10 key.1).set 43 61#8).length = 44 := by
    rw [List.length_set, length_toGroups 10 key.2]
  have hpad : ((toGroups 10 key.1).set 43 61#8)[43]? = some 61#8 := by
    rw [List.getElem?_set_self]
    rw [length_toGroups 10 key.2]
    decide
  by_cases hbad : text.length ≠ 44 ∨ text[43]? ≠ some 61
  · simp only [if_pos hbad]
    constructor
    · intro h
      exact absurd (congrArg Prod.fst h) (by simp [einval])
    · rintro rfl
      exact (hbad.elim (· hlen) (· hpad)).elim
  · simp only [if_neg hbad]
    push Not at hbad
    obtain ⟨htext, hpadding⟩ := hbad
    have hset : text.set 43 61#8 = text := by
      apply List.ext_getElem?
      intro i
      rw [List.getElem?_set]
      split_ifs with h h'
      · rw [← h, hpadding]
        rfl
      · omega
      · rfl
    have hgroups := fromGroups_iff signed 10 0#8 htext key.2
    simp only [hset, true_and, Nat.reduceMul, Nat.reduceAdd] at hgroups
    rw [Prod.mk.injEq]
    refine Iff.trans ?_ hgroups
    refine (and_congr_left' (errno_eq_zero_iff _)).trans (and_comm.trans ?_)
    exact (@Prod.ext_iff _ _ (fromGroups signed 10 text 0#8) (key.1, 0#8)).symm

theorem fst_fromGroups (signed : Bool) (n : ℕ) {base64 : List Byte} (ret : Byte)
    (hb : base64.length = 4 * n + 4) :
    (fromGroups signed n base64 ret).1 = WireguardUtils.decodeGroups base64 := by
  have bytes (val : BitVec 32) : (val.sshiftRight 16).setWidth 8 = val.extractLsb' 16 8 ∧
      (val.sshiftRight 8).setWidth 8 = val.extractLsb' 8 8 ∧
      val.setWidth 8 = val.extractLsb' 0 8 := by
    refine ⟨?_, ?_, ?_⟩ <;>
      (apply BitVec.eq_of_getLsbD_eq; intro i hi) <;>
      interval_cases i <;>
      simp [BitVec.getElem_sshiftRight]
  have decode (a b c d : Byte) : decodeBase64 signed a b c d =
      WireguardUtils.decodeBase64 a b c d := by
    simp only [decodeBase64, WireguardUtils.decodeBase64, decodeDigit_eq]
  induction n generalizing base64 ret with
  | zero =>
    obtain ⟨a, b, c, d, rfl⟩ : ∃ a b c d, base64 = [a, b, c, d] := List.length_eq_four.1 hb
    rw [fromGroups_zero, WireguardUtils.decodeGroups, decode, (bytes _).1, (bytes _).2.1]
  | succ n ih =>
    match base64, hb with
    | a :: b :: c :: d :: e :: rest, hb =>
      have hb' : (e :: rest).length = 4 * n + 4 := by
        simp only [List.length_cons] at hb ⊢
        omega
      simp only [fromGroups_succ, WireguardUtils.decodeGroups, ih _ hb', decode, (bytes _).1,
        (bytes _).2.1, (bytes _).2.2]

theorem getLast?_eq {text : List Byte} (h : text.length = 44) :
    text.getLast? = text[43]? := by
  rw [List.getLast?_eq_getElem?, h]

theorem wgKeyFromBase64_snd (signed : Bool) (base64 : List Byte) :
    (wgKeyFromBase64 signed (Block.zero 32).1 base64).2 =
      WireguardUtils.wgKeyFromBase64 base64 := by
  rw [wgKeyFromBase64, WireguardUtils.wgKeyFromBase64]
  change (if (base64.takeWhile (· ≠ 0#8)).length ≠ 44 ∨
    (base64.takeWhile (· ≠ 0#8))[43]? ≠ some 61#8 then _ else _ : BitVec 32 × List Byte).2 = _
  generalize base64.takeWhile (· ≠ 0#8) = text
  by_cases h : text.length = 44 ∧ text.getLast? = some 61#8
  · have hgood : ¬(text.length ≠ 44 ∨ text[43]? ≠ some 61#8) := by
      rw [← getLast?_eq h.1]
      tauto
    rw [if_pos h, if_neg hgood]
    exact fst_fromGroups signed 10 0 h.1
  · have hbad : text.length ≠ 44 ∨ text[43]? ≠ some 61#8 := by
      by_contra hgood
      push Not at hgood
      exact h ⟨hgood.1, (getLast?_eq hgood.1).trans hgood.2⟩
    rw [if_neg h, if_pos hbad]
    rfl

end WgDesktop.WireguardKeys
