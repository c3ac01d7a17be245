import Mathlib.Data.List.Basic

/-!
# Tails that start at a line

What is left of a text when its beginning is cut off at the end of a line. `isTail_append_iff` lets
text be added at the end, `IsTail.trans` lets it be cut again, and `isTail_filter_iff` says when a
tail from which items were left out is still one.
-/

namespace LineTails

variable {α : Type*} (nl : α)

/-- Nothing, or something that ends a line. -/
def EndsLine (l : List α) : Prop := l = [] ∨ l.getLast? = some nl

def IsTail (t l : List α) : Prop := ∃ p, l = p ++ t ∧ EndsLine nl p

variable {nl} {t l p q : List α}

theorem EndsLine.append (hp : EndsLine nl p) (hq : EndsLine nl q) : EndsLine nl (p ++ q) := by
  rcases hq with rfl | hq
  · rwa [List.append_nil]
  · exact .inr (by rw [List.getLast?_append, hq, Option.some_or])

theorem IsTail.refl (l : List α) : IsTail nl l l := ⟨[], rfl, .inl rfl⟩

theorem IsTail.trans (h : IsTail nl t l) {m : List α} (hl : IsTail nl l m) : IsTail nl t m := by
  obtain ⟨p, rfl, hp⟩ := h
  obtain ⟨q, rfl, hq⟩ := hl
  exact ⟨q ++ p, (List.append_assoc q p t).symm, hq.append hp⟩

theorem isTail_append_iff (m : List α) : IsTail nl (t ++ m) (l ++ m) ↔ IsTail nl t l := by
  constructor
  · rintro ⟨p, hp, hends⟩
    rw [← List.append_assoc] at hp
    exact ⟨p, List.append_cancel_right hp, hends⟩
  · rintro ⟨p, rfl, hends⟩
    exact ⟨p, List.append_assoc p t m, hends⟩

theorem isTail_nil_iff : IsTail nl [] l ↔ EndsLine nl l := by
  constructor
  · rintro ⟨p, rfl, hp⟩
    rwa [List.append_nil]
  · exact fun h => ⟨l, (List.append_nil l).symm, h⟩

/-- A tail stays one without some of its items just when there are none of them: otherwise it starts
behind one of them. -/
theorem isTail_filter_iff (keep : α → Bool) (hnl : keep nl = true) :
    IsTail nl (t.filter keep) (p ++ t) ↔ EndsLine nl p ∧ ∀ a ∈ t, keep a = true := by
  constructor
  · rintro ⟨q, hq, hends⟩
    obtain ⟨x, rfl⟩ : ∃ x, q = p ++ x := by
      refine List.prefix_of_prefix_length_le (List.prefix_append p t) ⟨_, hq.symm⟩ ?_ |>.imp
        fun x hx => hx.symm
      have hlength := congrArg List.length hq
      rw [List.length_append, List.length_append] at hlength
      have := List.length_filter_le keep t
      omega
    rw [List.append_assoc] at hq
    have ht : t = x ++ t.filter keep := List.append_cancel_left hq
    have hx : x.filter keep = [] := by
      have hfilter := congrArg (List.filter keep) ht
      simp only [List.filter_append, List.filter_filter, Bool.and_self] at hfilter
      exact List.self_eq_append_left.mp hfilter
    cases hlast : x.getLast? with
    | none =>
      rw [List.getLast?_eq_none_iff] at hlast
      rw [hlast, List.nil_append] at ht
      rw [hlast, List.append_nil] at hends
      exact ⟨hends, List.filter_eq_self.mp ht.symm⟩
    | some a =>
      have hgone := List.filter_eq_nil_iff.mp hx a (List.mem_of_getLast? hlast)
      rcases hends with hnil | hends
      · rw [(List.append_eq_nil_iff.mp hnil).2] at hlast
        cases hlast
      · rw [List.getLast?_append, hlast, Option.some_or, Option.some.injEq] at hends
        exact absurd hnl (hends ▸ hgone)
  · rintro ⟨hends, hall⟩
    rw [List.filter_eq_self.mpr hall]
    exact ⟨p, rfl, hends⟩

/-- A text that ends a line has the end of one in each of its parts up to the end. -/
theorem mem_drop_of_getLast? {n : ℕ} (hn : n < l.length) (h : l.getLast? = some nl) :
    nl ∈ l.drop n := by
  have hdrop : (l.drop n).getLast? = some nl := by
    rw [List.getLast?_drop, if_neg (Nat.not_le.mpr hn), h]
  exact List.mem_of_getLast? hdrop

/-! ## Behind the first line -/

variable [DecidableEq α]

/-- What follows the first line. -/
def afterLine (nl : α) : List α → List α
  | [] => []
  | a :: l => if a = nl then l else afterLine nl l

theorem afterLine_of_notMem (h : nl ∉ l) : afterLine nl l = [] := by
  induction l with
  | nil => rfl
  | cons a l ih =>
    rw [List.mem_cons, not_or] at h
    rw [afterLine, if_neg (Ne.symm h.1), ih h.2]

theorem length_afterLine_le (l : List α) : (afterLine nl l).length ≤ l.length := by
  induction l with
  | nil => exact Nat.le_refl 0
  | cons a l ih =>
    rw [afterLine, List.length_cons]
    split <;> omega

theorem exists_afterLine (h : nl ∈ l) : ∃ p, l = p ++ afterLine nl l ∧ p.getLast? = some nl := by
  induction l with
  | nil => cases h
  | cons a l ih =>
    rw [afterLine]
    split
    · next ha => exact ⟨[nl], by rw [ha]; rfl, rfl⟩
    · next ha =>
      obtain ⟨p, hp, hlast⟩ := ih ((List.mem_cons.mp h).resolve_left (Ne.symm ha))
      refine ⟨a :: p, by rw [List.cons_append, ← hp], ?_⟩
      rw [List.getLast?_cons, hlast]
      rfl

/-- The text from somewhere on, from the next line on: it starts a line if there is an end of a line
to find. -/
theorem exists_afterLine_drop {n : ℕ} (h : nl ∈ l.drop n) :
    ∃ p, l = p ++ afterLine nl (l.drop n) ∧ p.getLast? = some nl := by
  obtain ⟨p, hp, hlast⟩ := exists_afterLine h
  refine ⟨l.take n ++ p, ?_, ?_⟩
  · rw [List.append_assoc, ← hp, List.take_append_drop]
  · rw [List.getLast?_append, hlast, Option.some_or]

end LineTails
