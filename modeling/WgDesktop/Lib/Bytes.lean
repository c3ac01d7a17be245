import WgDesktop.Lib.BitPrefix

/-!
# Bytes of machine words

A word of `w` bits as `w / 8` bytes, most significant byte first. Masking acts byte by byte, and a
masked word equals a network exactly when the masked bits agree.
-/

namespace Bytes

open BitPrefix PiNat

abbrev Byte := BitVec 8

/-- The bytes of a word in network order. -/
def toBytes {w : ℕ} (x : BitVec w) : List Byte :=
  (List.range (w / 8)).map fun i => x.extractLsb' (w - 8 * (i + 1)) 8

/-- The order in which a machine stores the bytes of a word. -/
inductive Endian where
  | little
  | big
  deriving DecidableEq, Repr

/-- The bytes of a word as the machine stores it. -/
def Endian.bytes {w : ℕ} : Endian → BitVec w → List Byte
  | .little, x => (toBytes x).reverse
  | .big, x => toBytes x

/-- The word whose stored bytes are `bs`. -/
def Endian.word {w : ℕ} : Endian → List Byte → BitVec w
  | .little, bs => bs.foldr (fun b acc => acc <<< 8 ||| b.setWidth w) 0
  | .big, bs => bs.foldl (fun acc b => acc <<< 8 ||| b.setWidth w) 0

section Words

variable {w : ℕ} {x y : BitVec w}

@[simp] theorem length_toBytes (x : BitVec w) : (toBytes x).length = w / 8 := by
  simp [toBytes]

theorem getElem_toBytes (x : BitVec w) {i : ℕ} (hi : i < (toBytes x).length) :
    (toBytes x)[i] = x.extractLsb' (w - 8 * (i + 1)) 8 := by
  simp [toBytes]

/-- Bit `j` of byte `i` is bit `8 * i + j` of the word. -/
theorem getMsbD_getElem_toBytes (x : BitVec w) {i j : ℕ} (hi : i < (toBytes x).length)
    (hj : j < 8) : ((toBytes x)[i]).getMsbD j = x.getMsbD (8 * i + j) := by
  have hlen : i < w / 8 := by simpa using hi
  have hlt : 8 * i + j < w := by omega
  have h8 : 8 - 1 - j < 8 := by omega
  rw [getElem_toBytes]
  simp only [BitVec.getMsbD, hlt, hj, decide_true, Bool.true_and, BitVec.getLsbD_extractLsb', h8]
  rw [show w - 8 * (i + 1) + (8 - 1 - j) = w - 1 - (8 * i + j) by omega]

theorem toBytes_injective (hw : 8 ∣ w) :
    Function.Injective (toBytes : BitVec w → List Byte) := by
  intro x y h
  apply BitVec.eq_of_getMsbD_eq
  intro k hk
  have hx : k / 8 < (toBytes x).length := by rw [length_toBytes]; omega
  have hy : k / 8 < (toBytes y).length := by rw [length_toBytes]; omega
  have hk8 : 8 * (k / 8) + k % 8 = k := by omega
  rw [← hk8, ← getMsbD_getElem_toBytes x hx (by omega), ← getMsbD_getElem_toBytes y hy (by omega)]
  simp only [h]

theorem toBytes_inj (hw : 8 ∣ w) : toBytes x = toBytes y ↔ x = y :=
  (toBytes_injective hw).eq_iff

@[simp] theorem Endian.length_bytes (e : Endian) (x : BitVec w) : (e.bytes x).length = w / 8 := by
  cases e <;> simp [Endian.bytes]

theorem Endian.bytes_inj (e : Endian) (hw : 8 ∣ w) : e.bytes x = e.bytes y ↔ x = y := by
  cases e <;> simp [Endian.bytes, toBytes_inj hw]

/-- The first `k` bytes of a word, read back, are its upper `8 * k` bits. -/
theorem foldl_take_toBytes (x : BitVec w) {k : ℕ} (hk : 8 * k ≤ w) :
    ((toBytes x).take k).foldl (fun (acc : BitVec w) b => acc <<< 8 ||| b.setWidth w) 0 =
      x >>> (w - 8 * k) := by
  induction k with
  | zero =>
    apply BitVec.eq_of_getLsbD_eq
    intro i hi
    simp
  | succ k ih =>
    have hlen : k < (toBytes x).length := by
      rw [length_toBytes]
      omega
    rw [List.take_add_one, List.getElem?_eq_getElem hlen, List.foldl_append, ih (by omega),
      getElem_toBytes]
    apply BitVec.eq_of_getLsbD_eq
    intro i hi
    simp only [Option.toList_some, List.foldl_cons, List.foldl_nil, BitVec.getLsbD_or,
      BitVec.getLsbD_shiftLeft, BitVec.getLsbD_ushiftRight, BitVec.getLsbD_setWidth,
      BitVec.getLsbD_extractLsb']
    by_cases h8 : i < 8
    · simp [h8, hi]
    · have hshift : w - 8 * k + (i - 8) = w - 8 * (k + 1) + i := by omega
      simp [h8, hi, hshift]

theorem foldl_toNat_take_toBytes (x : BitVec w) {k : ℕ} (hk : 8 * k ≤ w) :
    ((toBytes x).take k).foldl (fun v b => 256 * v + b.toNat) 0 = x.toNat / 2 ^ (w - 8 * k) := by
  induction k with
  | zero =>
    rw [List.take_zero, List.foldl_nil]
    exact (Nat.div_eq_of_lt x.isLt).symm
  | succ k ih =>
    have hlen : k < (toBytes x).length := by
      rw [length_toBytes]
      omega
    have hsplit : 2 ^ (w - 8 * k) = 2 ^ (w - 8 * (k + 1)) * 256 := by
      rw [show w - 8 * k = w - 8 * (k + 1) + 8 by omega, Nat.pow_add]
    rw [List.take_add_one, List.getElem?_eq_getElem hlen, List.foldl_append, ih (by omega),
      getElem_toBytes, hsplit, ← Nat.div_div_eq_div_mul]
    simp only [Option.toList_some, List.foldl_cons, List.foldl_nil, BitVec.extractLsb'_toNat,
      Nat.shiftRight_eq_div_pow]
    omega

@[simp] theorem Endian.word_bytes (e : Endian) (hw : 8 ∣ w) (x : BitVec w) :
    e.word (e.bytes x) = x := by
  have hall : (toBytes x).foldl (fun (acc : BitVec w) b => acc <<< 8 ||| b.setWidth w) 0 = x := by
    have h := foldl_take_toBytes x (k := w / 8) (by omega)
    rwa [List.take_of_length_le (by simp), Nat.mul_div_cancel' hw, Nat.sub_self,
      BitVec.ushiftRight_zero] at h
  cases e with
  | little => rw [bytes, word, List.foldr_reverse, hall]
  | big => rw [bytes, word, hall]

theorem getLsbD_foldl (bs : List Byte) {j : ℕ} (hj : j < w) :
    (bs.foldl (fun (acc : BitVec w) b => acc <<< 8 ||| b.setWidth w) 0).getLsbD j =
      (bs.reverse.getD (j / 8) 0).getLsbD (j % 8) := by
  induction bs using List.reverseRecOn generalizing j with
  | nil => simp
  | append_singleton bs b ih =>
    rw [List.foldl_append, List.foldl_cons, List.foldl_nil, List.reverse_append,
      List.reverse_singleton, List.singleton_append, BitVec.getLsbD_or, BitVec.getLsbD_shiftLeft,
      BitVec.getLsbD_setWidth]
    rcases Nat.lt_or_ge j 8 with h8 | h8
    · simp [h8, hj, Nat.div_eq_of_lt h8, Nat.mod_eq_of_lt h8]
    · have hdiv : j / 8 = (j - 8) / 8 + 1 := by omega
      have hmod : j % 8 = (j - 8) % 8 := by omega
      have hout : b.getLsbD j = false := BitVec.getLsbD_of_ge b j h8
      rw [ih (by omega), hdiv, hmod, List.getD_cons_succ, hout]
      simp [hj, Nat.not_lt.mpr h8]

theorem toBytes_foldl (hw : 8 ∣ w) {bs : List Byte} (h : bs.length = w / 8) :
    toBytes (bs.foldl (fun (acc : BitVec w) b => acc <<< 8 ||| b.setWidth w) 0) = bs := by
  apply List.ext_getElem (by rw [length_toBytes, h])
  intro i h₁ h₂
  apply BitVec.eq_of_getLsbD_eq
  intro j hj
  have hbit : w - 8 * (i + 1) + j < w := by omega
  have hdiv : (w - 8 * (i + 1) + j) / 8 = bs.length - 1 - i := by omega
  have hmod : (w - 8 * (i + 1) + j) % 8 = j := by omega
  rw [getElem_toBytes, BitVec.getLsbD_extractLsb', getLsbD_foldl bs hbit, hdiv, hmod,
    List.getD_eq_getElem?_getD, List.getElem?_reverse (by omega),
    show bs.length - 1 - (bs.length - 1 - i) = i by omega, List.getElem?_eq_getElem h₂]
  simp [hj]

@[simp] theorem Endian.bytes_word (e : Endian) (hw : 8 ∣ w) {bs : List Byte}
    (h : bs.length = w / 8) : e.bytes (e.word bs : BitVec w) = bs := by
  cases e with
  | little =>
    rw [bytes, word, ← List.foldl_reverse, toBytes_foldl hw (by rwa [List.length_reverse]),
      List.reverse_reverse]
  | big => rw [bytes, word, toBytes_foldl hw h]

/-- The word at the front of the bytes, and the bytes behind it. -/
def Endian.read (e : Endian) (w : ℕ) (bs : List Byte) : Option (BitVec w × List Byte) :=
  if w / 8 ≤ bs.length then some (e.word (bs.take (w / 8)), bs.drop (w / 8)) else none

theorem Endian.read_append (e : Endian) (hw : 8 ∣ w) (x : BitVec w) (rest : List Byte) :
    e.read w (e.bytes x ++ rest) = some (x, rest) := by
  have hlen := e.length_bytes x
  rw [read, if_pos (by rw [List.length_append]; omega), ← hlen, List.take_left, List.drop_left,
    word_bytes e hw]

theorem toBytes_and (x y : BitVec w) :
    toBytes (x &&& y) = List.zipWith (· &&& ·) (toBytes x) (toBytes y) := by
  apply List.ext_getElem (by simp)
  intro i h₁ h₂
  simp [getElem_toBytes, BitVec.extractLsb'_and]

theorem zipWith_xor_zero (bs : List Byte) (n : ℕ) (hn : bs.length ≤ n) :
    List.zipWith (· ^^^ ·) bs (List.replicate n 0#8) = bs := by
  apply List.ext_getElem (by simp [hn])
  intro i h₁ h₂
  simp

end Words

/-! ## Buffers -/

/-- The buffer with `bs` written over what was at `offset`. -/
def overwrite (buf : List Byte) (offset : ℕ) (bs : List Byte) : List Byte :=
  buf.take offset ++ bs ++ buf.drop (offset + bs.length)

/-- Nothing in front of the offset changes. -/
theorem overwrite_append_right {n : ℕ} {front : List Byte} (h : front.length = n)
    (buf : List Byte) (offset : ℕ) (bs : List Byte) :
    overwrite (front ++ buf) (n + offset) bs = front ++ overwrite buf offset bs := by
  rw [overwrite, overwrite, ← h, List.take_append, List.take_of_length_le (by omega),
    Nat.add_sub_cancel_left, Nat.add_assoc, ← List.drop_drop, List.drop_left, List.append_assoc,
    List.append_assoc, List.append_assoc]

theorem overwrite_append {offset : ℕ} {front old new rest : List Byte} (h : front.length = offset)
    (hlen : old.length = new.length) :
    overwrite (front ++ (old ++ rest)) offset new = front ++ (new ++ rest) := by
  rw [overwrite, ← h, List.take_left, ← List.drop_drop, List.drop_left, ← hlen, List.drop_left,
    List.append_assoc]

theorem overwrite_zero {old new rest : List Byte} (h : old.length = new.length) :
    overwrite (old ++ rest) 0 new = new ++ rest :=
  @overwrite_append 0 [] old new rest rfl h

/-! ## Network masks -/

section Masks

variable {w n : ℕ} {x y : BitVec w}

/-- The word whose first `n` bits are set. -/
def prefixMask (w n : ℕ) : BitVec w := ~~~(BitVec.allOnes w >>> n)

theorem getMsbD_prefixMask {i : ℕ} (hi : i < w) :
    (prefixMask w n).getMsbD i = decide (i < n) := by
  have hsub : i - n < w := by omega
  simp [prefixMask, BitVec.getMsbD_ushiftRight, hi, hsub]

/-- A masked word equals a network exactly when the bits under the mask agree. -/
theorem and_prefixMask_eq_iff (hy : HostZero n y.getMsbD) :
    x &&& prefixMask w n = y ↔ x.getMsbD ∈ cylinder y.getMsbD n := by
  constructor
  · rintro rfl i hi
    by_cases hw : i < w
    · rw [BitVec.getMsbD_and, getMsbD_prefixMask hw, decide_eq_true hi, Bool.and_true]
    · rw [getMsbD_of_ge (by omega), getMsbD_of_ge (by omega)]
  · intro h
    apply BitVec.eq_of_getMsbD_eq
    intro i hi
    rw [BitVec.getMsbD_and, getMsbD_prefixMask hi]
    by_cases hn : i < n
    · rw [decide_eq_true hn, Bool.and_true, h i hn]
    · rw [decide_eq_false hn, Bool.and_false, hy i (by omega)]

end Masks

end Bytes
