import WgDesktop.Lib.Bytes

/-!
# HKDF

Key derivation as RFC 5869 defines it, over any keyed hash: `extract` condenses the input to a key,
and `expand` cuts the output from the blocks `T(1) | T(2) | ...`. A shorter output is the beginning
of a longer one (`expand_isPrefix`).
-/

open Bytes

/-- A keyed hash. -/
structure Hmac where
  hashLen : ℕ
  hash (key text : List Byte) : List Byte
  hashLen_pos : 0 < hashLen
  length_hash (key text : List Byte) : (hash key text).length = hashLen

namespace Hmac

attribute [simp] length_hash

variable (H : Hmac)

/-- A salt that is not provided is a string of zeros. -/
def extract (salt : Option (List Byte)) (ikm : List Byte) : List Byte :=
  H.hash (salt.getD (List.replicate H.hashLen 0)) ikm

/-- `T(i)`, where `T(0)` is empty. -/
def block (prk info : List Byte) : ℕ → List Byte
  | 0 => []
  | i + 1 => H.hash prk (block prk info i ++ info ++ [BitVec.ofNat 8 (i + 1)])

/-- `T(1) | ... | T(n)`. -/
def blocks (prk info : List Byte) (n : ℕ) : List Byte :=
  (List.range n).flatMap fun i => H.block prk info (i + 1)

/-- The first `l` bytes of as many blocks as that takes. -/
def expand (prk info : List Byte) (l : ℕ) : List Byte :=
  (H.blocks prk info ((l + H.hashLen - 1) / H.hashLen)).take l

variable {H} {prk info : List Byte}

theorem blocks_succ (n : ℕ) :
    H.blocks prk info (n + 1) = H.blocks prk info n ++ H.block prk info (n + 1) := by
  rw [blocks, List.range_succ, List.flatMap_append, List.flatMap_singleton]
  rfl

@[simp] theorem length_block (i : ℕ) : (H.block prk info (i + 1)).length = H.hashLen :=
  H.length_hash _ _

@[simp] theorem length_blocks (n : ℕ) : (H.blocks prk info n).length = n * H.hashLen := by
  induction n with
  | zero => rw [Nat.zero_mul]; rfl
  | succ n ih => rw [blocks_succ, List.length_append, ih, length_block, Nat.add_one_mul]

theorem blocks_isPrefix {n m : ℕ} (h : n ≤ m) : H.blocks prk info n <+: H.blocks prk info m := by
  induction m, h using Nat.le_induction with
  | base => exact List.prefix_refl _
  | succ m _ ih => exact blocks_succ (H := H) m ▸ ih.trans (List.prefix_append _ _)

/-- It does not matter how many blocks there are, if there are enough. -/
theorem take_blocks {l n : ℕ} (h : l ≤ n * H.hashLen) :
    (H.blocks prk info n).take l = H.expand prk info l := by
  have hn : (l + H.hashLen - 1) / H.hashLen ≤ n := by
    rw [Nat.div_le_iff_le_mul_add_pred H.hashLen_pos, Nat.mul_comm]
    omega
  have hl : l ≤ (l + H.hashLen - 1) / H.hashLen * H.hashLen := by
    have hlt := Nat.lt_div_mul_add H.hashLen_pos (a := l + H.hashLen - 1)
    have hpos := H.hashLen_pos
    omega
  obtain ⟨rest, hrest⟩ := @blocks_isPrefix H prk info _ _ hn
  rw [expand, ← hrest, List.take_append_of_le_length (by rwa [length_blocks])]

theorem expand_isPrefix {l l' : ℕ} (h : l ≤ l') : H.expand prk info l <+: H.expand prk info l' := by
  have henough : l' ≤ l' * H.hashLen := Nat.le_mul_of_pos_right l' H.hashLen_pos
  rw [← take_blocks henough, ← take_blocks (h.trans henough)]
  exact List.take_prefix_take_left h

end Hmac
