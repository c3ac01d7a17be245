import WgDesktop.Lib.Bytes

/-!
# Attributes

The end of a netlink message is a sequence of attributes: a length and a type of sixteen bits, the
data, and zeros up to a multiple of four bytes. `walk` goes from one to the next by their lengths,
as a receiver does, and finds the attributes that were written (`walk_flatMap`).
-/

namespace Attributes

open Bytes

/-- The next multiple of four. -/
def align (n : ℕ) : ℕ := (n + 3) / 4 * 4

structure Attr where
  type : BitVec 16
  data : List Byte
  deriving DecidableEq, Repr

/-- The length that is stored in front of `n` bytes of data. -/
def rtaLength (n : ℕ) : ℕ := 4 + n

/-- What an attribute of `n` bytes takes up. -/
def rtaSpace (n : ℕ) : ℕ := align (rtaLength n)

variable (e : Endian)

def Attr.bytes (a : Attr) : List Byte :=
  e.bytes (BitVec.ofNat 16 (rtaLength a.data.length)) ++
    (e.bytes a.type ++ (a.data ++ List.replicate (align a.data.length - a.data.length) 0))

/-- The attributes that fill `bytes`, or nothing when one of them is cut off. -/
def walk (bytes : List Byte) : Option (List Attr) :=
  match bytes with
  | [] => some []
  | l₀ :: l₁ :: t₀ :: t₁ :: rest =>
    let len := (e.word [l₀, l₁] : BitVec 16).toNat
    if 4 ≤ len ∧ len ≤ rest.length + 4 then
      (walk (rest.drop (align len - 4))).map fun attrs =>
        { type := e.word [t₀, t₁], data := rest.take (len - 4) } :: attrs
    else none
  | _ => none
termination_by bytes.length
decreasing_by
  rw [List.length_drop]
  simp only [List.length_cons]
  omega

theorem rtaSpace_eq (n : ℕ) : rtaSpace n = 4 + align n := by
  rw [rtaSpace, rtaLength, align, align]
  omega

theorem le_align (n : ℕ) : n ≤ align n := by
  rw [align]
  omega

theorem align_of_dvd {n : ℕ} (h : 4 ∣ n) : align n = n := by
  rw [align]
  omega

variable {e}

theorem Attr.length_bytes (a : Attr) : (a.bytes e).length = rtaSpace a.data.length := by
  have hle := le_align a.data.length
  rw [bytes, rtaSpace_eq]
  simp only [List.length_append, Endian.length_bytes, List.length_replicate]
  omega

theorem four_dvd_length_flatMap (attrs : List Attr) :
    4 ∣ (attrs.flatMap (Attr.bytes e)).length := by
  induction attrs with
  | nil => exact Nat.dvd_zero 4
  | cons a attrs ih =>
    rw [List.flatMap_cons, List.length_append, Attr.length_bytes]
    exact Nat.dvd_add (Nat.dvd_mul_left 4 _) ih

theorem walk_append {a : Attr} (h : rtaLength a.data.length < 2 ^ 16) (rest : List Byte) :
    walk e (a.bytes e ++ rest) = (walk e rest).map (a :: ·) := by
  obtain ⟨l₀, l₁, hl⟩ := List.length_eq_two.mp
    (Endian.length_bytes e (BitVec.ofNat 16 (rtaLength a.data.length)))
  obtain ⟨t₀, t₁, ht⟩ := List.length_eq_two.mp (Endian.length_bytes e a.type)
  have hlen : (e.word [l₀, l₁] : BitVec 16).toNat = rtaLength a.data.length := by
    rw [← hl, Endian.word_bytes e (by decide), BitVec.toNat_ofNat, Nat.mod_eq_of_lt h]
  have htype : (e.word [t₀, t₁] : BitVec 16) = a.type := by
    rw [← ht, Endian.word_bytes e (by decide)]
  have hpad := le_align a.data.length
  have hnext : align (rtaLength a.data.length) - 4 =
      (a.data ++ List.replicate (align a.data.length - a.data.length) 0).length := by
    have hspace := rtaSpace_eq a.data.length
    rw [rtaSpace] at hspace
    rw [hspace, List.length_append, List.length_replicate]
    omega
  have hdata : rtaLength a.data.length - 4 = a.data.length := Nat.add_sub_cancel_left 4 _
  have hfits : 4 ≤ rtaLength a.data.length ∧ rtaLength a.data.length ≤
      (a.data ++ List.replicate (align a.data.length - a.data.length) 0 ++ rest).length + 4 := by
    rw [rtaLength]
    simp only [List.length_append]
    omega
  rw [Attr.bytes, hl, ht]
  simp only [List.cons_append, List.nil_append]
  rw [walk]
  simp only [hlen, htype]
  rw [if_pos hfits, hnext, List.drop_left, hdata, List.append_assoc, List.take_left]

theorem walk_flatMap {attrs : List Attr} (h : ∀ a ∈ attrs, rtaLength a.data.length < 2 ^ 16) :
    walk e (attrs.flatMap (Attr.bytes e)) = some attrs := by
  induction attrs with
  | nil => rw [List.flatMap_nil, walk]
  | cons a attrs ih =>
    rw [List.forall_mem_cons] at h
    rw [List.flatMap_cons, walk_append h.1, ih h.2, Option.map_some]

end Attributes
