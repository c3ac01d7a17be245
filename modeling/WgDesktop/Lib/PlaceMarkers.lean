import Mathlib.Data.List.Infix
import Mathlib.Order.Basic
import WgDesktop.Lib.Replace

/-!
# Place markers

`QString::arg` of Qt: the place markers with the lowest number are replaced, wherever they are. A
text that was put in for one marker may have markers of its own, and `arg_append` says when they
leave the next call alone.
-/

namespace PlaceMarkers

open Replace

/-- The number of a place marker that has its first digit at the place `length`, and where it
ends. -/
def markerNumber (length : ℕ) : List Char → Option (ℕ × ℕ)
  | a :: b :: _ =>
    if a.isDigit then
      if b.isDigit then some (10 * (a.toNat - '0'.toNat) + (b.toNat - '0'.toNat), length + 1)
      else some (a.toNat - '0'.toNat, length)
    else none
  | [a] => if a.isDigit then some (a.toNat - '0'.toNat, length) else none
  | [] => none

/-- The place marker at the beginning of a text: its number and its length. -/
def marker : List Char → Option (ℕ × ℕ)
  | c :: s =>
    if c = '%' then if s.head? = some 'L' then markerNumber 3 s.tail else markerNumber 2 s
    else none
  | [] => none

/-- The numbers of the place markers. -/
def markers (s : List Char) : List ℕ := s.tails.filterMap fun t => (marker t).map Prod.fst

def arg (s a : List Char) : List Char :=
  match (markers s).min? with
  | some lowest =>
    replaceAll (fun t => ((marker t).filter (·.1 = lowest)).map Prod.snd) a s
  | none => s

/-! ## Markers of a part -/

section Parts

variable {s t : List Char}

theorem marker_of_ne {c : Char} (h : c ≠ '%') (s : List Char) : marker (c :: s) = none :=
  if_neg h

theorem markers_cons (c : Char) (s : List Char) :
    markers (c :: s) = ((marker (c :: s)).map Prod.fst).toList ++ markers s := by
  rw [markers, List.tails, List.filterMap_cons]
  cases (marker (c :: s)).map Prod.fst with
  | none => rfl
  | some n => rfl

theorem markers_of_not_mem (h : '%' ∉ s) : markers s = [] := by
  induction s with
  | nil => rfl
  | cons c s ih =>
    rw [List.mem_cons, not_or] at h
    rw [markers_cons, marker_of_ne (Ne.symm h.1), ih h.2]
    rfl

theorem mem_markers_of_suffix {b : List Char} {m : ℕ × ℕ} (hsuffix : b <:+ s)
    (h : marker b = some m) : m.1 ∈ markers s :=
  List.mem_filterMap.mpr ⟨b, (List.mem_tails _ _).mpr hsuffix, by rw [h]; rfl⟩

/-- The text does not go on a place marker. -/
def Ends (t : List Char) : Prop := ∀ c ∈ t.head?, c.isDigit = false ∧ c ≠ 'L'

theorem markerNumber_append (ht : Ends t) (length : ℕ) (s : List Char) :
    markerNumber length (s ++ t) = markerNumber length s := by
  match s, t with
  | [], [] => rfl
  | [], [c] => exact if_neg (by simp [(ht c rfl).1])
  | [], c :: _ :: _ => exact if_neg (by simp [(ht c rfl).1])
  | [a], [] => rfl
  | [a], c :: _ =>
    show (if a.isDigit then if c.isDigit then _ else _ else none) = _
    rw [(ht c rfl).1]
    rfl
  | _ :: _ :: _, _ => rfl

theorem marker_append (ht : Ends t) (hs : s ≠ []) : marker (s ++ t) = marker s := by
  obtain ⟨c, s, rfl⟩ := List.exists_cons_of_ne_nil hs
  rw [List.cons_append, marker, marker]
  cases s with
  | nil =>
    have hhead : t.head? ≠ some 'L' := fun h => (ht 'L' h).2 rfl
    rw [List.nil_append, if_neg hhead]
    exact if_congr Iff.rfl (markerNumber_append ht 2 []) rfl
  | cons d s =>
    rw [List.cons_append, List.head?_cons, List.head?_cons, List.tail_cons, List.tail_cons,
      markerNumber_append ht 3 s, ← List.cons_append, markerNumber_append ht 2 (d :: s)]

theorem markers_append (ht : Ends t) (s : List Char) :
    markers (s ++ t) = markers s ++ markers t := by
  induction s with
  | nil => rfl
  | cons c s ih =>
    have hmarker := marker_append ht (List.cons_ne_nil c s)
    rw [List.cons_append] at hmarker ⊢
    rw [markers_cons, markers_cons, hmarker, ih, List.append_assoc]

end Parts

/-! ## Replacing -/

section Arg

variable {s t : List Char} {k : ℕ}

/-- **A part that is kept.** Markers with greater numbers are not replaced. -/
theorem arg_append (ht : Ends t) (hmin : (markers t).min? = some k)
    (hs : ∀ m ∈ markers s, k < m) (a : List Char) : arg (s ++ t) a = s ++ arg t a := by
  have hall : (markers (s ++ t)).min? = some k := by
    rw [List.min?_eq_some_iff] at hmin ⊢
    rw [markers_append ht]
    refine ⟨List.mem_append_right _ hmin.1, fun m hm => ?_⟩
    rcases List.mem_append.mp hm with hm | hm
    · exact (hs m hm).le
    · exact hmin.2 m hm
  rw [arg, hall, arg, hmin]
  refine replaceAll_append t fun b hb hsuffix => ?_
  rw [marker_append ht hb]
  cases hmarker : marker b with
  | none => rfl
  | some m =>
    have hne : m.1 ≠ k := (hs m.1 (mem_markers_of_suffix hsuffix hmarker)).ne'
    simp [hne]

theorem mem_of_mem_arg {a : List Char} {c : Char} (h : c ∈ arg s a) : c ∈ s ∨ c ∈ a := by
  rw [arg] at h
  split at h
  · exact mem_of_mem_replaceAll h
  · exact Or.inl h

end Arg

end PlaceMarkers
