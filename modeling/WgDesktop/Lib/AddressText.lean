import WgDesktop.Lib.Bytes
import Mathlib.Data.Nat.Digits.Lemmas

/-!
# Texts of IPv6 addresses

Fields of up to four hexadecimal digits between colons, with `::` for a run of zeros and four octets
between dots for the last two fields. Readers differ in what they take in front of the digits of a
field, so a sign or a radix may stand there.

A text has more characters than its address has bytes that are not zero (`countP_lt_length`).
-/

namespace AddressText

open Bytes

/-- The digit `d`, in small or capital letters. -/
def IsDigit (b : ℕ) (c : Char) (d : ℕ) : Prop :=
  d < b ∧ (c = Nat.digitChar d ∨ c = (Nat.digitChar d).toUpper)

/-- `g` are the digits of `n` in base `b`, maybe with a sign or a radix in front. -/
def Numeral (b : ℕ) (g : List Char) (n : ℕ) : Prop :=
  ∃ lead digits ds, g = lead ++ digits ∧ (∀ c ∈ lead, c ∈ "+0xXbB".toList) ∧ digits ≠ [] ∧
    List.Forall₂ (IsDigit b) digits.reverse ds ∧ n = Nat.ofDigits b ds

/-- A field: two bytes. -/
def Field (g : List Char) (bs : List Byte) : Prop :=
  ∃ n, Numeral 16 g n ∧ g.length ≤ 4 ∧ bs = toBytes (BitVec.ofNat 16 n)

/-- One of the octets between dots. -/
def Octet (g : List Char) (b : Byte) : Prop := ∃ base ≤ 16, Numeral base g b.toNat

def Octets (s : List Char) (bs : List Byte) : Prop :=
  ∃ g₀ g₁ g₂ g₃ b₀ b₁ b₂ b₃, s = g₀ ++ '.' :: g₁ ++ '.' :: g₂ ++ '.' :: g₃ ∧
    bs = [b₀, b₁, b₂, b₃] ∧ Octet g₀ b₀ ∧ Octet g₁ b₁ ∧ Octet g₂ b₂ ∧ Octet g₃ b₃

/-- Fields between colons; `atEnd` tells whether octets may be the last of them. -/
inductive Fields (atEnd : Bool) : List Char → List Byte → Prop
  | field {g : List Char} {bs : List Byte} : Field g bs → Fields atEnd g bs
  | octets {s : List Char} {bs : List Byte} : atEnd = true → Octets s bs → Fields atEnd s bs
  | cons {g s : List Char} {bs cs : List Byte} :
    Field g bs → Fields atEnd s cs → Fields atEnd (g ++ ':' :: s) (bs ++ cs)

/-- One side of `::`. -/
def Side (atEnd : Bool) (s : List Char) (bs : List Byte) : Prop :=
  s = [] ∧ bs = [] ∨ Fields atEnd s bs

/-- `s` is a text of the address with the bytes `bs`. -/
inductive Denotes : List Char → List Byte → Prop
  | full {s : List Char} {bs : List Byte} : Fields true s bs → bs.length = 16 → Denotes s bs
  | zeros {s t : List Char} {bs cs : List Byte} (n : ℕ) : Side false s bs → Side true t cs →
    (bs ++ List.replicate (2 * (n + 1)) 0 ++ cs).length = 16 →
    Denotes (s ++ "::".toList ++ t) (bs ++ List.replicate (2 * (n + 1)) 0 ++ cs)

/-! ## Bytes that are not zero -/

section Count

variable {s g : List Char} {bs : List Byte}

theorem Numeral.length_pos {b n : ℕ} (h : Numeral b g n) : 0 < g.length := by
  obtain ⟨lead, digits, ds, rfl, -, hne, -⟩ := h
  have hpos := List.length_pos_iff.mpr hne
  rw [List.length_append]
  omega

theorem Numeral.lt {b n : ℕ} (hb : 1 < b) (h : Numeral b g n) : n < b ^ g.length := by
  obtain ⟨lead, digits, ds, rfl, -, -, hds, rfl⟩ := h
  have hdigit : ∀ d ∈ ds, d < b := by
    intro d hd
    obtain ⟨i, hi, rfl⟩ := List.getElem_of_mem hd
    exact (hds.get (by rw [hds.length_eq]; exact hi) hi).1
  have hlength : ds.length ≤ (lead ++ digits).length := by
    rw [← hds.length_eq, List.length_reverse, List.length_append]
    omega
  calc Nat.ofDigits b ds < b ^ ds.length := Nat.ofDigits_lt_base_pow_length hb hdigit
    _ ≤ b ^ (lead ++ digits).length := Nat.pow_le_pow_right (by omega) hlength

theorem Field.countP_le (h : Field g bs) : bs.length = 2 ∧ bs.countP (· ≠ 0) ≤ g.length := by
  obtain ⟨n, hn, hlength, rfl⟩ := h
  have hpos := hn.length_pos
  have hcount := List.countP_le_length (p := fun b : Byte => decide (b ≠ 0))
    (l := toBytes (BitVec.ofNat 16 n))
  rw [length_toBytes] at hcount ⊢
  refine ⟨rfl, ?_⟩
  rcases Nat.lt_or_ge 2 g.length with h2 | h2
  · omega
  · have hlt : n < 256 := (hn.lt (by decide)).trans_le (Nat.pow_le_pow_right (by decide) h2)
    have hhigh : (BitVec.ofNat 16 n).extractLsb' 8 8 = 0 := by
      apply BitVec.eq_of_toNat_eq
      rw [BitVec.extractLsb'_toNat, BitVec.toNat_ofNat, Nat.shiftRight_eq_div_pow,
        Nat.div_eq_of_lt (by omega)]
      rfl
    have hbytes : toBytes (BitVec.ofNat 16 n) = [0, (BitVec.ofNat 16 n).extractLsb' 0 8] := by
      rw [← hhigh]
      rfl
    have htail := List.countP_le_length (p := fun b : Byte => decide (b ≠ 0))
      (l := [(BitVec.ofNat 16 n).extractLsb' 0 8])
    rw [hbytes, List.countP_cons_of_neg (by decide)]
    exact htail.trans hpos

theorem Octets.countP_le (h : Octets s bs) : bs.length = 4 ∧ bs.countP (· ≠ 0) ≤ s.length := by
  obtain ⟨g₀, g₁, g₂, g₃, b₀, b₁, b₂, b₃, rfl, rfl, ⟨_, _, h₀⟩, ⟨_, _, h₁⟩, ⟨_, _, h₂⟩, _, _,
    h₃⟩ := h
  have hcount := List.countP_le_length (p := fun b : Byte => decide (b ≠ 0))
    (l := [b₀, b₁, b₂, b₃])
  have hpos := h₀.length_pos
  refine ⟨rfl, hcount.trans ?_⟩
  simp only [List.length_append, List.length_cons, List.length_nil]
  omega

/-- More than four bytes are in more than one field, with a colon between them. -/
theorem Fields.countP_le {atEnd : Bool} (h : Fields atEnd s bs) :
    bs.countP (· ≠ 0) ≤ s.length ∧ (4 < bs.length → bs.countP (· ≠ 0) < s.length) := by
  induction h with
  | field h =>
    obtain ⟨hlength, hcount⟩ := h.countP_le
    exact ⟨hcount, fun h4 => by omega⟩
  | octets _ h =>
    obtain ⟨hlength, hcount⟩ := h.countP_le
    exact ⟨hcount, fun h4 => by omega⟩
  | cons h _ ih =>
    have hcount := h.countP_le.2
    rw [List.countP_append, List.length_append, List.length_cons]
    omega

theorem Side.countP_le {atEnd : Bool} (h : Side atEnd s bs) :
    bs.countP (· ≠ 0) ≤ s.length := by
  rcases h with ⟨rfl, rfl⟩ | h
  · exact Nat.le_refl 0
  · exact h.countP_le.1

/-- A text has a character for each byte that is not zero, and a colon. -/
theorem Denotes.countP_lt (h : Denotes s bs) : bs.countP (· ≠ 0) < s.length := by
  cases h with
  | full h hlength => exact h.countP_le.2 (by omega)
  | zeros n hs ht hlength =>
    have hleft := hs.countP_le
    have hright := ht.countP_le
    have hzero : (List.replicate (2 * (n + 1)) (0 : Byte)).countP (· ≠ 0) = 0 := by
      rw [List.countP_replicate]
      rfl
    have hcolons : "::".toList.length = 2 := rfl
    rw [List.countP_append, List.countP_append, hzero, List.length_append, List.length_append,
      hcolons]
    omega

end Count

end AddressText
