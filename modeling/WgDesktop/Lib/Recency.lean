import Mathlib.Data.List.Induction

/-!
# Most recently used

A history of uses, oldest first, and the list of what was used, most recent first and each element
once (`lastUses`). `Latest` says what a list of the `n` most recently used elements is;
`touch_take` is how such a list is kept up to date without the history.
-/

namespace Recency

variable {α : Type*}

/-- The last use of `a` is later than the last use of `b`. -/
def UsedAfter (uses : List α) (a b : α) : Prop :=
  ∃ before after, uses = before ++ a :: after ∧ b ∈ before ∧ b ∉ a :: after

theorem UsedAfter.concat {uses : List α} {a b c : α} (h : UsedAfter uses a b) (hc : b ≠ c) :
    UsedAfter (uses ++ [c]) a b := by
  obtain ⟨before, after, rfl, hbefore, hafter⟩ := h
  refine ⟨before, after ++ [c], by simp, hbefore, ?_⟩
  rw [← List.cons_append, List.mem_append, List.mem_singleton]
  exact not_or.mpr ⟨hafter, hc⟩

variable [DecidableEq α]

/-- What was used, most recent first. -/
def lastUses (uses : List α) : List α := uses.foldl (fun l a => a :: l.erase a) []

theorem lastUses_concat (uses : List α) (a : α) :
    lastUses (uses ++ [a]) = a :: (lastUses uses).erase a := by
  rw [lastUses, List.foldl_append]
  rfl

theorem mem_lastUses {uses : List α} {a : α} : a ∈ lastUses uses ↔ a ∈ uses := by
  induction uses using List.reverseRecOn with
  | nil => rfl
  | append_singleton uses b ih =>
    rw [lastUses_concat, List.mem_cons, List.mem_append, List.mem_singleton]
    by_cases h : a = b
    · simp [h]
    · simp [h, List.mem_erase_of_ne h, ih]

theorem nodup_lastUses (uses : List α) : (lastUses uses).Nodup := by
  induction uses using List.reverseRecOn with
  | nil => exact List.nodup_nil
  | append_singleton uses a ih =>
    rw [lastUses_concat]
    exact List.nodup_cons.mpr ⟨ih.not_mem_erase, ih.erase a⟩

theorem pairwise_lastUses (uses : List α) : (lastUses uses).Pairwise (UsedAfter uses) := by
  induction uses using List.reverseRecOn with
  | nil => exact List.Pairwise.nil
  | append_singleton uses a ih =>
    rw [lastUses_concat, List.pairwise_cons]
    have hne : ∀ b ∈ (lastUses uses).erase a, b ≠ a := by
      rintro b hb rfl
      exact (nodup_lastUses uses).not_mem_erase hb
    constructor
    · intro b hb
      refine ⟨uses, [], rfl, mem_lastUses.mp (List.mem_of_mem_erase hb), ?_⟩
      simpa using hne b hb
    · have herase := ih.sublist (List.erase_sublist (a := a))
      exact herase.imp_of_mem fun _ hy hafter => hafter.concat (hne _ hy)

/-! ## Lists of bounded length -/

/-- The at most `n` elements that were used last, in the order of their last uses. -/
structure Latest (n : ℕ) (uses l : List α) : Prop where
  nodup : l.Nodup
  length_le : l.length ≤ n
  order : l.Pairwise (UsedAfter uses)
  mem : ∀ a ∈ l, a ∈ uses
  complete : ∀ a ∈ uses, a ∈ l ∨ (l.length = n ∧ ∀ b ∈ l, UsedAfter uses b a)

theorem latest_take (n : ℕ) (uses : List α) : Latest n uses ((lastUses uses).take n) where
  nodup := (nodup_lastUses uses).sublist (List.take_sublist _ _)
  length_le := List.length_take_le _ _
  order := (pairwise_lastUses uses).sublist (List.take_sublist _ _)
  mem _ ha := mem_lastUses.mp (List.mem_of_mem_take ha)
  complete := by
    intro a ha
    have hmem := mem_lastUses.mpr ha
    have hpairwise := pairwise_lastUses uses
    rw [← List.take_append_drop n (lastUses uses)] at hmem hpairwise
    rcases List.mem_append.mp hmem with htake | hdrop
    · exact Or.inl htake
    · refine Or.inr ⟨?_, fun b hb => (List.pairwise_append.mp hpairwise).2.2 b hb a hdrop⟩
      have hpos := List.length_pos_of_mem hdrop
      rw [List.length_drop] at hpos
      rw [List.length_take]
      omega

/-- One more use of a list of at most `n + 1` elements. -/
def touch (n : ℕ) (l : List α) (a : α) : List α := a :: (l.erase a).take n

theorem take_erase (n : ℕ) (l : List α) (a : α) :
    (l.erase a).take n = ((l.take (n + 1)).erase a).take n := by
  induction l generalizing n with
  | nil => simp
  | cons x l ih =>
    by_cases h : x = a
    · simp [h, List.take_take]
    · rw [List.take_succ_cons, List.erase_cons_tail (by simpa using h),
        List.erase_cons_tail (by simpa using h)]
      cases n with
      | zero => rfl
      | succ n => rw [List.take_succ_cons, List.take_succ_cons, ih]

/-- Each use keeps the list that of the last uses. -/
theorem touch_take (n : ℕ) (uses : List α) (a : α) :
    touch n ((lastUses uses).take (n + 1)) a = (lastUses (uses ++ [a])).take (n + 1) := by
  rw [lastUses_concat, List.take_succ_cons, take_erase]
  rfl

end Recency
