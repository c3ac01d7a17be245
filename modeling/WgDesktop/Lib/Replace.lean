import Mathlib.Data.List.Basic

/-!
# Replacing every match

A text in which every match of a pattern is replaced, from left to right and without overlaps. The
pattern says how long the match at the beginning of a text is, if there is one.
-/

namespace Replace

variable {α : Type*} {pattern : List α → Option ℕ} {after : List α}

/-- Replaces the matches after the first `skip` elements. -/
def replaceFrom (pattern : List α → Option ℕ) (after : List α) : ℕ → List α → List α
  | _, [] => []
  | skip + 1, _ :: s => replaceFrom pattern after skip s
  | 0, a :: s =>
    match pattern (a :: s) with
    | some length => after ++ replaceFrom pattern after (length - 1) s
    | none => a :: replaceFrom pattern after 0 s

def replaceAll (pattern : List α → Option ℕ) (after s : List α) : List α :=
  replaceFrom pattern after 0 s

theorem replaceFrom_append (m s : List α) :
    replaceFrom pattern after m.length (m ++ s) = replaceAll pattern after s := by
  induction m with
  | nil => rfl
  | cons a m ih => exact ih

theorem replaceAll_match {a : α} {m s : List α}
    (h : pattern (a :: m ++ s) = some (m.length + 1)) :
    replaceAll pattern after (a :: m ++ s) = after ++ replaceAll pattern after s := by
  rw [List.cons_append] at h ⊢
  rw [replaceAll, replaceFrom, h]
  exact congrArg (after ++ ·) (replaceFrom_append m s)

theorem replaceAll_append {s : List α} (t : List α)
    (h : ∀ b, b ≠ [] → b <:+ s → pattern (b ++ t) = none) :
    replaceAll pattern after (s ++ t) = s ++ replaceAll pattern after t := by
  induction s with
  | nil => rfl
  | cons a s ih =>
    have hhead := h (a :: s) (List.cons_ne_nil a s) (List.suffix_refl _)
    rw [List.cons_append] at hhead
    rw [List.cons_append, replaceAll, replaceFrom, hhead]
    exact congrArg (a :: ·) (ih fun b hb hsuffix => h b hb (hsuffix.trans (List.suffix_cons a s)))

theorem mem_of_mem_replaceFrom {a : α} {skip : ℕ} {s : List α}
    (h : a ∈ replaceFrom pattern after skip s) : a ∈ s ∨ a ∈ after := by
  fun_induction replaceFrom pattern after skip s with
  | case1 => exact Or.inl h
  | case2 skip b s ih => exact (ih h).imp_left (List.mem_cons_of_mem b)
  | case3 b s length _ ih =>
    rcases List.mem_append.mp h with h | h
    · exact Or.inr h
    · exact (ih h).imp_left (List.mem_cons_of_mem b)
  | case4 b s _ ih =>
    rcases List.mem_cons.mp h with rfl | h
    · exact Or.inl List.mem_cons_self
    · exact (ih h).imp_left (List.mem_cons_of_mem b)

theorem mem_of_mem_replaceAll {a : α} {s : List α} (h : a ∈ replaceAll pattern after s) :
    a ∈ s ∨ a ∈ after :=
  mem_of_mem_replaceFrom h

end Replace
