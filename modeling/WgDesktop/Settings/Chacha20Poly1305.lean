import WgDesktop.Lib.Aead

/-!
# The settings cipher

`Chacha20Poly1305` of `utils/chacha20poly1305.cpp` over the vendored `hacl-star` sources: ChaCha20
on sixteen 32-bit words, and Poly1305 over the padded associated data and ciphertext. The sources
keep the Poly1305 accumulator in five 26-bit limbs; here it is a natural number below
`2 ^ 130 - 5`.
-/

namespace WgDesktop.Chacha20Poly1305

open Bytes

/-! ## ChaCha20 -/

/-- The sixteen words of a block. -/
abbrev Block := List (BitVec 32)

/-- `chacha20_constants`. -/
def constants : Block := [0x61707865#32, 0x3320646e#32, 0x79622d32#32, 0x6b206574#32]

/-- Word `i` of the block. -/
def wordAt (st : Block) (i : ℕ) : BitVec 32 := st.getD i 0

/-- Adds word `b` into word `a` and turns word `d` by `s` bits. -/
def line (st : Block) (a b d s : ℕ) : Block :=
  let sta := wordAt st a + wordAt st b
  let std := wordAt st d ^^^ sta
  (st.set a sta).set d (std.rotateLeft s)

def quarterRound (st : Block) (a b c d : ℕ) : Block :=
  line (line (line (line st a b d 16) c d b 12) a b d 8) c d b 7

example : quarterRound [0x11111111#32, 0x01020304#32, 0x9b8d6f43#32, 0x01234567#32] 0 1 2 3 =
    [0xea2a92f4#32, 0xcb1cf8ce#32, 0x4581472e#32, 0x5881c4bb#32] := by decide

/-- `double_round`: four column rounds, then four diagonal ones. -/
def doubleRound (st : Block) : Block :=
  [(0, 4, 8, 12), (1, 5, 9, 13), (2, 6, 10, 14), (3, 7, 11, 15),
    (0, 5, 10, 15), (1, 6, 11, 12), (2, 7, 8, 13), (3, 4, 9, 14)].foldl
    (fun st (a, b, c, d) => quarterRound st a b c d) st

def rounds (st : Block) : Block := doubleRound^[10] st

/-- `chacha20_core`: the block of keystream `ctr` blocks behind the context. -/
def core (ctx : Block) (ctr : ℕ) : Block :=
  let start := ctx.set 12 (wordAt ctx 12 + BitVec.ofNat 32 ctr)
  let k := List.zipWith (· + ·) (rounds start) ctx
  k.set 12 (wordAt k 12 + BitVec.ofNat 32 ctr)

/-- `load32_le`, over consecutive words. -/
def load32 (bs : List Byte) (words : ℕ) : Block :=
  (List.range words).map fun i => Endian.little.word ((bs.drop (4 * i)).take 4)

/-- `chacha20_init`. -/
def initContext (key nonce : List Byte) (ctr : ℕ) : Block :=
  constants ++ load32 key 8 ++ [BitVec.ofNat 32 ctr] ++ load32 nonce 3

/-- The bytes `chacha20_encrypt_block` adds to a block of text. -/
def blockBytes (ctx : Block) (incr : ℕ) : List Byte :=
  (List.range 16).flatMap fun i => Endian.little.bytes (wordAt (core ctx incr) i)

/-- The keystream `chacha20_update` adds to `len` bytes of text: whole blocks, the last one cut. -/
def keystream (key nonce : List Byte) (ctr len : ℕ) : List Byte :=
  ((List.range ((len + 63) / 64)).flatMap (blockBytes (initContext key nonce ctr))).take len

theorem length_blockBytes (ctx : Block) (incr : ℕ) : (blockBytes ctx incr).length = 64 := by
  simp [blockBytes, List.length_flatMap]

theorem length_keystream (key nonce : List Byte) (ctr len : ℕ) :
    (keystream key nonce ctr len).length = len := by
  have hsum : ((List.range ((len + 63) / 64)).map
      fun i => (blockBytes (initContext key nonce ctr) i).length).sum = 64 * ((len + 63) / 64) := by
    simp [length_blockBytes, Nat.mul_comm]
  rw [keystream, List.length_take, List.length_flatMap, hsum]
  omega

/-! ## Poly1305 -/

/-- The number of a little-endian byte string. -/
def leNat (bs : List Byte) : ℕ := bs.foldr (fun b acc => b.toNat + 256 * acc) 0

/-- The modulus. -/
def prime : ℕ := 2 ^ 130 - 5

/-- The multiplier: the first key half with the bits `poly1305_init` clears. -/
def clamp (key : List Byte) : ℕ := leNat (key.take 16) &&& 0x0ffffffc0ffffffc0ffffffc0fffffff

/-- `poly1305_update1`: one block of sixteen bytes, with a bit above them. -/
def update1 (r acc : ℕ) (block : List Byte) : ℕ := (acc + leNat block + 2 ^ 128) * r % prime

/-- `poly1305_padded_32`: the text in blocks of sixteen, the last one filled with zeros. -/
def padded (r acc : ℕ) (text : List Byte) : ℕ :=
  (List.range ((text.length + 15) / 16)).foldl
    (fun acc i => update1 r acc ((text.drop (16 * i)).take 16)) acc

/-- `poly1305_do_32`: the tag of the associated data, the ciphertext and their lengths. -/
def polyDo (key aad ciphertext : List Byte) : List Byte :=
  let r := clamp key
  let lengths := Endian.little.bytes (BitVec.ofNat 64 aad.length) ++
    Endian.little.bytes (BitVec.ofNat 64 ciphertext.length)
  let acc := update1 r (padded r (padded r 0 aad) ciphertext) lengths
  Endian.little.bytes (BitVec.ofNat 128 (acc + leNat ((key.drop 16).take 16)))

/-- The tag under the one-time key, the first block of the keystream. -/
def mac (key nonce aad ciphertext : List Byte) : List Byte :=
  polyDo (keystream key nonce 0 64) aad ciphertext

theorem length_mac (key nonce aad ciphertext : List Byte) :
    (mac key nonce aad ciphertext).length = 16 := by
  simp [mac, polyDo]

/-- `encrypt` and `decrypt`. -/
def cipher : Aead 16 :=
  Aead.ofStream (fun key nonce => keystream key nonce 1) mac
    (fun key nonce n => (length_keystream key nonce 1 n).ge) length_mac

end WgDesktop.Chacha20Poly1305
