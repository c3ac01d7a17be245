import Mathlib.Data.Nat.Digits.Lemmas
import WgDesktop.Lib.Bytes

/-!
# Distinguished encoding

The distinguished encoding of numbers and sequences: every value has one encoding, with the shortest
length and the shortest two's complement contents. A strict reader takes nothing else:
`readIntegerPair_sequence` is its round trip, and `integerContents_value` says which byte strings
are the contents of the number they denote.
-/

namespace Der

open Bytes

/-! ## Numbers as bytes -/

/-- The number that bytes denote, most significant first. -/
def value (bs : List Byte) : ℕ := Nat.ofDigits 256 (bs.map BitVec.toNat).reverse

/-- The shortest bytes that denote a number; zero has none. -/
def magnitude (n : ℕ) : List Byte := ((Nat.digits 256 n).map (BitVec.ofNat 8)).reverse

@[simp] theorem value_nil : value [] = 0 := rfl

theorem value_cons (b : Byte) (bs : List Byte) :
    value (b :: bs) = value bs + 256 ^ bs.length * b.toNat := by
  simp [value, Nat.ofDigits_append]

@[simp] theorem value_zero_cons (bs : List Byte) : value (0#8 :: bs) = value bs := by
  simp [value_cons]

@[simp] theorem value_magnitude (n : ℕ) : value (magnitude n) = n := by
  have hmap : ((Nat.digits 256 n).map (BitVec.ofNat 8)).map BitVec.toNat = Nat.digits 256 n := by
    rw [List.map_map, List.map_congr_left (g := id), List.map_id]
    intro d hd
    have hlt : d < 256 := Nat.digits_lt_base (by norm_num) hd
    simpa using hlt
  rw [value, magnitude, List.map_reverse, List.reverse_reverse, hmap, Nat.ofDigits_digits]

theorem magnitude_value_of_head {b : Byte} {bs : List Byte} (hb : b ≠ 0#8) :
    magnitude (value (b :: bs)) = b :: bs := by
  have hdigits : Nat.digits 256 (value (b :: bs)) = ((b :: bs).map BitVec.toNat).reverse := by
    refine Nat.digits_ofDigits 256 (by norm_num) _ ?_ ?_
    · intro d hd
      obtain ⟨c, -, rfl⟩ := List.mem_map.mp (List.mem_reverse.mp hd)
      exact c.isLt
    · intro _
      simpa using fun h => hb (BitVec.eq_of_toNat_eq (by simpa using h))
  have hmap : ((b :: bs).map BitVec.toNat).map (BitVec.ofNat 8) = b :: bs := by
    rw [List.map_map, List.map_congr_left (g := id), List.map_id]
    intro c _
    simp
  rw [magnitude, hdigits, ← List.map_reverse, List.reverse_reverse, hmap]

theorem magnitude_value (bs : List Byte) :
    magnitude (value bs) = bs.dropWhile (· = 0#8) := by
  induction bs with
  | nil => simp [magnitude]
  | cons b bs ih =>
    by_cases hb : b = 0#8
    · rw [hb, value_zero_cons, ih]
      simp
    · rw [magnitude_value_of_head hb]
      simp [hb]

theorem magnitude_ne_nil {n : ℕ} (h : n ≠ 0) : magnitude n ≠ [] := by
  simpa [magnitude, Nat.digits_eq_nil_iff_eq_zero] using h

theorem head?_magnitude_ne (n : ℕ) : (magnitude n).head? ≠ some 0#8 := by
  intro hzero
  obtain ⟨bs, hbs⟩ : ∃ bs, magnitude n = 0#8 :: bs := by
    cases hm : magnitude n with
    | nil => simp [hm] at hzero
    | cons b bs =>
      obtain rfl : b = 0#8 := by simpa [hm] using hzero
      exact ⟨bs, rfl⟩
  have hdrop := magnitude_value (magnitude n)
  rw [value_magnitude, hbs, List.dropWhile_cons_of_pos (by simp)] at hdrop
  have hlen : (0#8 :: bs).length ≤ bs.length := by
    rw [hdrop]
    exact (List.dropWhile_suffix _).length_le
  simp at hlen

theorem length_magnitude_le {n k : ℕ} (h : n < 256 ^ k) : (magnitude n).length ≤ k := by
  simpa [magnitude] using (Nat.digits_length_le_iff (by norm_num : 1 < 256) n).mpr h

/-! ## Contents of an integer -/

/-- The contents of a number: a zero byte in front where the leading bit is set, and for zero. -/
def contents : List Byte → List Byte
  | [] => [0#8]
  | b :: bs => if b.msb then 0#8 :: b :: bs else b :: bs

theorem contents_cons (b : Byte) (bs : List Byte) :
    contents (b :: bs) = if b.msb then 0#8 :: b :: bs else b :: bs := rfl

def integerContents (n : ℕ) : List Byte := contents (magnitude n)

/-- Two's complement. -/
def signed (bs : List Byte) : ℤ :=
  if bs.head?.any (·.msb) then value bs - 256 ^ bs.length else value bs

/-- Contents have a byte, and no more than they need: the first nine bits differ. -/
def Minimal : List Byte → Prop
  | [] => False
  | [_] => True
  | b :: c :: _ => ¬ (b = 0#8 ∧ c.msb = false) ∧ ¬ (b = 0xff#8 ∧ c.msb = true)

instance : DecidablePred Minimal := fun bs =>
  match bs with
  | [] => inferInstanceAs (Decidable False)
  | [_] => inferInstanceAs (Decidable True)
  | b :: c :: _ =>
    inferInstanceAs (Decidable (¬ (b = 0#8 ∧ c.msb = false) ∧ ¬ (b = 0xff#8 ∧ c.msb = true)))

/-- A strict reader of the contents. -/
def readInteger (bs : List Byte) : Option ℤ := if Minimal bs then some (signed bs) else none

theorem minimal_contents {bs : List Byte} (h : bs.head? ≠ some 0#8) : Minimal (contents bs) := by
  cases bs with
  | nil => trivial
  | cons b bs =>
    have hb : b ≠ 0#8 := fun hb => h (by simp [hb])
    rw [contents_cons]
    by_cases hmsb : b.msb = true
    · rw [if_pos hmsb]
      exact ⟨by simp [hmsb], fun hzero => absurd hzero.1 (by decide)⟩
    · rw [if_neg hmsb]
      cases bs with
      | nil => trivial
      | cons c bs =>
        refine ⟨fun hzero => hb hzero.1, fun hff => hmsb ?_⟩
        rw [hff.1]
        decide

theorem signed_contents (bs : List Byte) : signed (contents bs) = value bs := by
  cases bs with
  | nil => rfl
  | cons b bs =>
    rw [contents_cons]
    split_ifs with hmsb
    · simp [signed]
    · simp [signed, hmsb]

/-- **Integers.** What is written for a number is read as that number. -/
@[simp] theorem readInteger_integerContents (n : ℕ) :
    readInteger (integerContents n) = some (n : ℤ) := by
  have hminimal : Minimal (integerContents n) := minimal_contents (head?_magnitude_ne n)
  rw [readInteger, if_pos hminimal, integerContents, signed_contents, value_magnitude]

/-- The bytes of a positive number with a zero byte in front where their leading bit is set are its
contents unless they start with nine zero bits. -/
theorem integerContents_value {bs : List Byte} (hpos : 0 < value bs) :
    integerContents (value bs) = contents bs ↔
      ¬ ∃ c rest, bs = 0#8 :: c :: rest ∧ c.msb = false := by
  cases bs with
  | nil => simp at hpos
  | cons b bs =>
    by_cases hb : b = 0#8
    · subst hb
      rw [value_zero_cons] at hpos ⊢
      have hcontents : contents (0#8 :: bs) = 0#8 :: bs := by simp [contents]
      rw [hcontents, integerContents, magnitude_value]
      cases bs with
      | nil => simp at hpos
      | cons c bs =>
        by_cases hmsb : c.msb = true
        · have hc : c ≠ 0#8 := by
            rintro rfl
            simp at hmsb
          simp [hc, contents, hmsb]
        · -- a zero byte in front would be lost, or be put before a set bit that is not there
          have hne : contents ((c :: bs).dropWhile (· = 0#8)) ≠ 0#8 :: c :: bs := by
            intro heq
            cases hdrop : (c :: bs).dropWhile (· = 0#8) with
            | nil => simp [hdrop, contents] at heq
            | cons d ds =>
              have hd : d ≠ 0#8 := by
                have := List.head?_dropWhile_not (p := (· = 0#8)) (l := c :: bs)
                rw [hdrop] at this
                simpa using this
              rw [hdrop, contents_cons] at heq
              split_ifs at heq with hset
              · obtain ⟨rfl, -⟩ : d = c ∧ ds = bs := by simpa using heq
                exact hmsb hset
              · exact hd (by simpa using congrArg List.head? heq)
          simp only [hne, false_iff, not_not]
          exact ⟨c, bs, rfl, by simpa using hmsb⟩
    · rw [integerContents, magnitude_value_of_head hb]
      simp [hb]

/-! ## Lengths -/

/-- The length of contents, in its shortest form. -/
def encodeLength (n : ℕ) : List Byte :=
  if n < 128 then [BitVec.ofNat 8 n]
  else BitVec.ofNat 8 (128 + (magnitude n).length) :: magnitude n

/-- A strict reader of lengths, with the bytes behind. -/
def readLength : List Byte → Option (ℕ × List Byte)
  | [] => none
  | b :: rest =>
    if b.toNat < 128 then some (b.toNat, rest)
    else
      let k := b.toNat - 128
      let bs := rest.take k
      if k = 0 ∨ k = 127 ∨ rest.length < k then none
      else if bs.head? = some 0#8 ∨ value bs < 128 then none
      else some (value bs, rest.drop k)

/-- The lengths that have an encoding. -/
def maxLength : ℕ := 256 ^ 126

theorem readLength_encodeLength {n : ℕ} (h : n < maxLength) (rest : List Byte) :
    readLength (encodeLength n ++ rest) = some (n, rest) := by
  unfold encodeLength
  by_cases hshort : n < 128
  · have hn : n % 256 = n := Nat.mod_eq_of_lt (by omega)
    simp [hshort, readLength, hn]
  · have hlen : (magnitude n).length ≤ 126 := length_magnitude_le h
    have hne : 0 < (magnitude n).length := List.length_pos_iff.mpr (magnitude_ne_nil (by omega))
    have hk : (BitVec.ofNat 8 (128 + (magnitude n).length)).toNat = 128 + (magnitude n).length := by
      rw [BitVec.toNat_ofNat]
      exact Nat.mod_eq_of_lt (by omega)
    rw [if_neg hshort, List.cons_append, readLength, hk, if_neg (by omega)]
    have htake : (magnitude n ++ rest).take (128 + (magnitude n).length - 128) = magnitude n := by
      rw [Nat.add_sub_cancel_left, List.take_left]
    have hdrop : (magnitude n ++ rest).drop (128 + (magnitude n).length - 128) = rest := by
      rw [Nat.add_sub_cancel_left, List.drop_left]
    dsimp only
    rw [htake, hdrop, value_magnitude, if_neg (by rw [List.length_append]; omega),
      if_neg (by rw [not_or]; exact ⟨head?_magnitude_ne n, by omega⟩)]

/-! ## Elements -/

/-- Tag, length and contents. -/
def element (tag : Byte) (content : List Byte) : List Byte :=
  tag :: (encodeLength content.length ++ content)

/-- A strict reader of the first element: its tag, its contents and what is behind it. -/
def readElement : List Byte → Option (Byte × List Byte × List Byte)
  | [] => none
  | tag :: rest =>
    (readLength rest).bind fun (n, rest) =>
      if n ≤ rest.length then some (tag, rest.take n, rest.drop n) else none

@[simp] theorem readElement_element {content : List Byte} (h : content.length < maxLength)
    (tag : Byte) (rest : List Byte) :
    readElement (element tag content ++ rest) = some (tag, content, rest) := by
  rw [element, List.cons_append, List.append_assoc, readElement, readLength_encodeLength h,
    Option.bind_some]
  simp

theorem element_append_inj {c c' rest rest' : List Byte} {tag tag' : Byte}
    (hc : c.length < maxLength) (hc' : c'.length < maxLength)
    (h : element tag c ++ rest = element tag' c' ++ rest') :
    tag = tag' ∧ c = c' ∧ rest = rest' := by
  have hread := congrArg readElement h
  rw [readElement_element hc, readElement_element hc'] at hread
  simpa using hread

theorem length_element_le {content : List Byte} (h : content.length < maxLength) (tag : Byte) :
    (element tag content).length ≤ content.length + 128 := by
  have hlen : (magnitude content.length).length ≤ 126 := length_magnitude_le h
  rw [element, List.length_cons, List.length_append, encodeLength]
  split_ifs
  · simp
    omega
  · simp
    omega

theorem length_contents_le (bs : List Byte) : (contents bs).length ≤ bs.length + 1 := by
  cases bs with
  | nil => simp [contents]
  | cons b bs =>
    rw [contents_cons]
    split_ifs <;> simp

theorem length_integerContents_value_le (bs : List Byte) :
    (integerContents (value bs)).length ≤ bs.length + 1 := by
  rw [integerContents, magnitude_value]
  exact (length_contents_le _).trans (Nat.succ_le_succ (List.dropWhile_suffix _).length_le)

def integerTag : Byte := 0x02#8

def sequenceTag : Byte := 0x30#8

/-- INTEGER. -/
def integer (n : ℕ) : List Byte := element integerTag (integerContents n)

/-- SEQUENCE. -/
def sequence (items : List (List Byte)) : List Byte := element sequenceTag items.flatten

theorem sequence_pair_inj {a b a' b' : List Byte} {tag : Byte}
    (ha : a.length < maxLength) (hb : b.length < maxLength) (ha' : a'.length < maxLength)
    (hb' : b'.length < maxLength)
    (h : [element tag a, element tag b].flatten.length < maxLength)
    (h' : [element tag a', element tag b'].flatten.length < maxLength) :
    sequence [element tag a, element tag b] = sequence [element tag a', element tag b'] ↔
      a = a' ∧ b = b' := by
  constructor
  · intro heq
    have hflat := congrArg (· ++ []) heq
    obtain ⟨-, hflat, -⟩ := element_append_inj h h' hflat
    simp only [List.flatten_cons, List.flatten_nil] at hflat
    obtain ⟨-, haa, hrest⟩ := element_append_inj ha ha' hflat
    obtain ⟨-, hbb, -⟩ := element_append_inj hb hb' hrest
    exact ⟨haa, hbb⟩
  · rintro ⟨rfl, rfl⟩
    rfl

/-- A strict reader of an integer in front of other bytes. -/
def readIntegerElement (bs : List Byte) : Option (ℤ × List Byte) :=
  (readElement bs).bind fun (tag, content, rest) =>
    if tag = integerTag then (readInteger content).map fun n => (n, rest) else none

/-- A strict reader of a sequence of two integers, and nothing behind it. -/
def readIntegerPair (bs : List Byte) : Option (ℤ × ℤ) :=
  (readElement bs).bind fun (tag, content, rest) =>
    if tag = sequenceTag ∧ rest = [] then
      (readIntegerElement content).bind fun (a, content) =>
        (readIntegerElement content).bind fun (b, content) =>
          if content = [] then some (a, b) else none
    else none

theorem readIntegerElement_integer {n : ℕ} (h : (integerContents n).length < maxLength)
    (rest : List Byte) : readIntegerElement (integer n ++ rest) = some ((n : ℤ), rest) := by
  simp [readIntegerElement, integer, h]

/-- **Round trip.** A strict reader gets the two integers of a sequence back. -/
theorem readIntegerPair_sequence {m n : ℕ} (hm : (integerContents m).length < maxLength)
    (hn : (integerContents n).length < maxLength)
    (h : [integer m, integer n].flatten.length < maxLength) :
    readIntegerPair (sequence [integer m, integer n]) = some ((m : ℤ), (n : ℤ)) := by
  have hseq : readElement (sequence [integer m, integer n]) =
      some (sequenceTag, [integer m, integer n].flatten, []) := by
    have := readElement_element h sequenceTag []
    rwa [List.append_nil] at this
  have hflat : [integer m, integer n].flatten = integer m ++ (integer n ++ []) := by simp
  rw [readIntegerPair, hseq, Option.bind_some]
  dsimp only
  rw [if_pos ⟨rfl, rfl⟩, hflat, readIntegerElement_integer hm, Option.bind_some]
  dsimp only
  rw [readIntegerElement_integer hn, Option.bind_some, if_pos rfl]

end Der
