import WgDesktop.Lib.KeyDerivation

/-!
# `HKDF`

The key derivation of `src/utils/hkdf.cpp`, over the hash that `QMessageAuthenticationCode`
computes. The loop keeps the previous block, a counter of one byte and all blocks so far; up to the
255 blocks that the counter can number, it computes what RFC 5869 says (`result_eq`).
-/

namespace WgDesktop

open Bytes

/-- `m_hmac`: the key and the data that was added. -/
structure HKDF (H : Hmac) where
  key : List Byte
  data : List Byte

namespace HKDF

variable {H : Hmac}

/-- The constructor; `salt` may be empty. -/
def new (H : Hmac) (salt : List Byte) : HKDF H :=
  if salt.length = 0 then ⟨List.replicate H.hashLen 0, []⟩ else ⟨salt, []⟩

def addData (h : HKDF H) (data : List Byte) : HKDF H := { h with data := h.data ++ data }

/-- The loop of `result`, with its variables `counter`, `block` and `result`. -/
def resultLoop (H : Hmac) (privkey info : List Byte) (length : ℤ) (counter : Byte)
    (block result : List Byte) : List Byte :=
  if result.length < length then
    let block := H.hash privkey (block ++ info ++ [counter])
    resultLoop H privkey info length (counter + 1) block (result ++ block)
  else result
termination_by (length - result.length).toNat
decreasing_by
  have hpos := H.hashLen_pos
  rw [List.length_append, H.length_hash]
  omega

def result (h : HKDF H) (length : ℤ) (info : List Byte) : List Byte :=
  (resultLoop H (H.hash h.key h.data) info length 1 [] []).take length.toNat

theorem key_foldl_addData (h : HKDF H) (chunks : List (List Byte)) :
    (chunks.foldl addData h).key = h.key ∧
      (chunks.foldl addData h).data = h.data ++ chunks.flatten := by
  induction chunks generalizing h with
  | nil => exact ⟨rfl, (List.append_nil _).symm⟩
  | cons chunk chunks ih =>
    rw [List.foldl_cons, List.flatten_cons, ← List.append_assoc]
    exact ih (h.addData chunk)

/-- The salt as RFC 5869 has it: an empty one is not provided. -/
def providedSalt (salt : List Byte) : Option (List Byte) := if salt = [] then none else some salt

theorem hash_foldl_addData (salt : List Byte) (chunks : List (List Byte)) :
    H.hash (chunks.foldl addData (new H salt)).key (chunks.foldl addData (new H salt)).data =
      H.extract (providedSalt salt) chunks.flatten := by
  rw [(key_foldl_addData _ _).1, (key_foldl_addData _ _).2]
  cases salt with
  | nil => rfl
  | cons b salt => rfl

/-- The loop behind `n` blocks, as long as the counter has not come round: it adds the blocks that
are missing. -/
theorem resultLoop_blocks {privkey info : List Byte} {length : ℤ} (n : ℕ) (hn : n ≤ 255)
    (hlength : length ≤ 255 * H.hashLen) :
    ∃ m, n ≤ m ∧ length ≤ m * H.hashLen ∧
      resultLoop H privkey info length (BitVec.ofNat 8 (n + 1)) (H.block privkey info n)
        (H.blocks privkey info n) = H.blocks privkey info m := by
  rw [resultLoop, Hmac.length_blocks]
  by_cases hlt : ((n * H.hashLen : ℕ) : ℤ) < length
  · have hnext : n + 1 ≤ 255 := by
      by_contra hfull
      rw [show n = 255 by omega] at hlt
      omega
    have hcounter : BitVec.ofNat 8 (n + 1) + 1 = BitVec.ofNat 8 (n + 1 + 1) :=
      (BitVec.ofNat_add _ _).symm
    obtain ⟨m, hle, henough, heq⟩ := resultLoop_blocks (n + 1) hnext hlength
    rw [if_pos hlt, hcounter]
    exact ⟨m, by omega, henough, by rw [← heq, Hmac.blocks_succ]; rfl⟩
  · exact ⟨n, le_refl n, by push_cast at hlt; omega, if_neg hlt⟩
termination_by 255 - n

/-- **RFC 5869.** The result is the output that is defined there, and a shorter one is the
beginning of a longer one. -/
theorem result_eq (salt : List Byte) (chunks : List (List Byte)) (info : List Byte) (length : ℤ)
    (hlength : length ≤ 255 * H.hashLen) :
    (chunks.foldl addData (new H salt)).result length info =
        H.expand (H.extract (providedSalt salt) chunks.flatten) info length.toNat ∧
      ∀ shorter ≤ length, (chunks.foldl addData (new H salt)).result shorter info <+:
        (chunks.foldl addData (new H salt)).result length info := by
  have heq : ∀ l ≤ length, (chunks.foldl addData (new H salt)).result l info =
      H.expand (H.extract (providedSalt salt) chunks.flatten) info l.toNat := by
    intro l hl
    obtain ⟨m, -, henough, hloop⟩ := @resultLoop_blocks H
      (H.extract (providedSalt salt) chunks.flatten) info l 0 (by decide) (by omega)
    have hstart : resultLoop H (H.extract (providedSalt salt) chunks.flatten) info l 1 [] [] =
        H.blocks (H.extract (providedSalt salt) chunks.flatten) info m := hloop
    have htoNat : l.toNat ≤ m * H.hashLen := by
      rw [Int.toNat_le]
      exact_mod_cast henough
    rw [result, hash_foldl_addData, hstart, Hmac.take_blocks htoNat]
  refine ⟨heq length le_rfl, fun shorter hle => ?_⟩
  rw [heq shorter hle, heq length le_rfl]
  exact Hmac.expand_isPrefix (by omega)

/-- A keyed hash of two bytes: the lengths of key and text. -/
def lengths : Hmac where
  hashLen := 2
  hash key text := [BitVec.ofNat 8 key.length, BitVec.ofNat 8 text.length]
  hashLen_pos := by decide
  length_hash _ _ := rfl

theorem result_eq_lengths :
    ([[1#8], [2#8, 3#8]].foldl addData (new lengths [])).result 5 [7#8] =
        lengths.expand (lengths.extract none [1#8, 2#8, 3#8]) [7#8] 5 ∧
      ([[1#8], [2#8, 3#8]].foldl addData (new lengths [])).result 3 [7#8] <+:
        ([[1#8], [2#8, 3#8]].foldl addData (new lengths [])).result 5 [7#8] :=
  ⟨(result_eq [] [[1#8], [2#8, 3#8]] [7#8] 5 (by decide)).1,
    (result_eq [] [[1#8], [2#8, 3#8]] [7#8] 5 (by decide)).2 3 (by decide)⟩

end HKDF

end WgDesktop
