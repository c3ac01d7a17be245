import Mathlib.Data.List.Basic

/-!
# Records with headers of any width

A stream of records: a header, which gives the kind and the length of the body, and the body.
`records` is what a reader finds in a stream up to a record that is not complete. `Left a done s`
says that a reader that has seen `a` has the records `done` and `s` is left of it, whatever comes.
-/

namespace Records

/-- How a header is read: the kind, the length of the body and the width of the header. -/
structure Format (α κ : Type*) where
  header : List α → Option (κ × ℕ × ℕ)
  width_pos : ∀ {s k n w}, header s = some (k, n, w) → 0 < w
  header_take : ∀ {s k n w}, header s = some (k, n, w) →
    w ≤ s.length ∧ header (s.take w) = some (k, n, w)
  header_append : ∀ {s r} (t : List α), header s = some r → header (s ++ t) = some r

variable {α κ : Type*} (F : Format α κ)

/-- The complete records in front of a stream. -/
def records (s : List α) : List (κ × List α) :=
  match _h : F.header s with
  | none => []
  | some (k, n, w) =>
    if w + n ≤ s.length then (k, (s.drop w).take n) :: records (s.drop (w + n)) else []
termination_by s.length
decreasing_by
  have := F.width_pos _h
  rw [List.length_drop]
  omega

variable {F} {k : κ} {n : ℕ} {h body s : List α}

theorem records_of_none (hnone : F.header s = none) : records F s = [] := by
  rw [records]
  split
  case h_1 => rfl
  case h_2 heq =>
    rw [hnone] at heq
    cases heq

theorem records_of_header {w : ℕ} (hs : F.header s = some (k, n, w)) :
    records F s =
      if w + n ≤ s.length then (k, (s.drop w).take n) :: records F (s.drop (w + n)) else [] := by
  rw [records]
  split
  case h_1 heq =>
    rw [hs] at heq
    cases heq
  case h_2 k' n' w' heq =>
    rw [hs, Option.some.injEq, Prod.mk.injEq, Prod.mk.injEq] at heq
    obtain ⟨rfl, rfl, rfl⟩ := heq
    rfl

theorem records_cons (hh : F.header h = some (k, body.length, h.length)) (s : List α) :
    records F (h ++ (body ++ s)) = (k, body) :: records F s := by
  have hle : h.length + body.length ≤ (h ++ (body ++ s)).length := by
    rw [List.length_append, List.length_append]
    omega
  rw [records_of_header (F.header_append _ hh), if_pos hle, List.drop_left, List.take_left,
    ← List.drop_drop, List.drop_left, List.drop_left]

theorem records_of_incomplete (hh : F.header h = some (k, n, h.length)) (hlt : s.length < n) :
    records F (h ++ s) = [] := by
  rw [records_of_header (F.header_append _ hh), if_neg]
  rw [List.length_append]
  omega

theorem Format.header_eq {w : ℕ} (hs : F.header s = some (k, n, w)) :
    F.header (s.take w) = some (k, n, (s.take w).length) := by
  obtain ⟨hle, htake⟩ := F.header_take hs
  rw [htake, List.length_take, Nat.min_eq_left hle]

/-! ## What is left of a stream -/

/-- A reader of `a` has found `done`, and `s` is left of it. -/
def Left (F : Format α κ) (a : List α) (done : List (κ × List α)) (s : List α) : Prop :=
  ∀ t, records F (a ++ t) = done ++ records F (s ++ t)

variable {a : List α} {done : List (κ × List α)}

theorem Left.refl : Left F [] [] [] := fun _ => rfl

theorem Left.arrive (hleft : Left F a done s) (input : List α) :
    Left F (a ++ input) done (s ++ input) := by
  intro t
  rw [List.append_assoc, List.append_assoc]
  exact hleft (input ++ t)

theorem Left.record (hleft : Left F a done (h ++ (body ++ s)))
    (hh : F.header h = some (k, body.length, h.length)) : Left F a (done ++ [(k, body)]) s := by
  intro t
  rw [hleft t, List.append_assoc, List.append_assoc, records_cons hh, List.append_assoc,
    List.singleton_append]

theorem Left.records_eq (hleft : Left F a done s) : records F a = done ++ records F s := by
  have hnil := hleft []
  rwa [List.append_nil, List.append_nil] at hnil

end Records
