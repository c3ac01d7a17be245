import WgDesktop.Lib.Bytes

/-!
# Authenticated encryption

An authenticated cipher with associated data: what `encrypt` makes under a key, a nonce and
associated data, `decrypt` opens under the same three. `ofStream` builds one from a keystream and a
function that authenticates the ciphertext.
-/

open Bytes

/-- An authenticated cipher whose tags have `macSize` bytes. -/
structure Aead (macSize : ℕ) where
  /-- The ciphertext and its tag. -/
  encrypt (key nonce aad plaintext : List Byte) : List Byte × List Byte
  /-- The plaintext, if the tag is right. -/
  decrypt (key nonce aad ciphertext mac : List Byte) : Option (List Byte)
  decrypt_encrypt (key nonce aad plaintext : List Byte) :
    decrypt key nonce aad (encrypt key nonce aad plaintext).1 (encrypt key nonce aad plaintext).2 =
      some plaintext
  length_ciphertext (key nonce aad plaintext : List Byte) :
    (encrypt key nonce aad plaintext).1.length = plaintext.length
  length_mac (key nonce aad plaintext : List Byte) :
    (encrypt key nonce aad plaintext).2.length = macSize

namespace Aead

attribute [simp] decrypt_encrypt length_ciphertext length_mac

theorem zipWith_xor_xor {text stream : List Byte} (h : text.length ≤ stream.length) :
    (List.zipWith (· ^^^ ·) (List.zipWith (· ^^^ ·) text stream) stream) = text := by
  apply List.ext_getElem
  · simp [h]
  · intro i h₁ h₂
    simp only [List.getElem_zipWith]
    rw [BitVec.xor_assoc, BitVec.xor_self, BitVec.xor_zero]

/-- The cipher that adds a keystream to the text and authenticates the ciphertext with `mac`. -/
def ofStream {macSize : ℕ} (keystream : List Byte → List Byte → ℕ → List Byte)
    (mac : List Byte → List Byte → List Byte → List Byte → List Byte)
    (hstream : ∀ key nonce n, n ≤ (keystream key nonce n).length)
    (hmac : ∀ key nonce aad ciphertext, (mac key nonce aad ciphertext).length = macSize) :
    Aead macSize where
  encrypt key nonce aad plaintext :=
    let ciphertext := List.zipWith (· ^^^ ·) plaintext (keystream key nonce plaintext.length)
    (ciphertext, mac key nonce aad ciphertext)
  decrypt key nonce aad ciphertext tag :=
    if tag = mac key nonce aad ciphertext then
      some (List.zipWith (· ^^^ ·) ciphertext (keystream key nonce ciphertext.length))
    else none
  decrypt_encrypt key nonce aad plaintext := by
    have hlen := hstream key nonce plaintext.length
    simp [Nat.min_eq_left hlen, zipWith_xor_xor hlen]
  length_ciphertext key nonce aad plaintext := by
    simp [hstream key nonce plaintext.length]
  length_mac key nonce aad plaintext := hmac _ _ _ _

end Aead
