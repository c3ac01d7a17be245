import Mathlib.Data.List.DropRight
import Mathlib.Data.List.Basic

/-!
# Lines

A stream cut at a separator into lines and an unfinished rest, and the commands in it: its lines
without the blanks around them, unless nothing is left. The cut does not depend on how the stream
arrives (`lines_append`, `rest_append`). `commands_append_iff` says when something in front of a
stream leaves its commands alone.
-/

namespace Lines

variable {α : Type*} [DecidableEq α] (sep : α)

/-! ## Cutting -/

/-- The finished lines, and what comes after the last separator. -/
def cut : List α → List (List α) × List α
  | [] => ([], [])
  | a :: s =>
    if a = sep then ([] :: (cut s).1, (cut s).2)
    else
      match cut s with
      | ([], rest) => ([], a :: rest)
      | (l :: ls, rest) => ((a :: l) :: ls, rest)

def lines (s : List α) : List (List α) := (cut sep s).1

def rest (s : List α) : List α := (cut sep s).2

variable {sep}

theorem cut_of_not_mem {s : List α} (h : sep ∉ s) : cut sep s = ([], s) := by
  induction s with
  | nil => rfl
  | cons a s ih =>
    have ha : a ≠ sep := fun heq => h (by simp [heq])
    rw [cut, if_neg ha, ih fun hs => h (by simp [hs])]

theorem cut_line {l : List α} (h : sep ∉ l) (s : List α) :
    cut sep (l ++ sep :: s) = (l :: (cut sep s).1, (cut sep s).2) := by
  induction l with
  | nil => rw [List.nil_append, cut, if_pos rfl]
  | cons a l ih =>
    have ha : a ≠ sep := fun heq => h (by simp [heq])
    rw [List.cons_append, cut, if_neg ha, ih fun hl => h (by simp [hl])]

theorem eq_rest_or_line (sep : α) (s : List α) :
    sep ∉ s ∨ ∃ l t, sep ∉ l ∧ s = l ++ sep :: t := by
  by_cases h : sep ∈ s
  · obtain ⟨l, t, rfl, hl⟩ := List.eq_append_cons_of_mem h
    exact .inr ⟨l, t, hl, rfl⟩
  · exact .inl h

/-- The line up to the first separator. -/
theorem line_of_idxOf? {s : List α} {pos : ℕ} (h : s.idxOf? sep = some pos) :
    sep ∉ s.take pos ∧ s = s.take pos ++ sep :: s.drop (pos + 1) := by
  obtain ⟨hlt, hget, hfirst⟩ := List.idxOf?_eq_some_iff.mp h
  constructor
  · intro hmem
    obtain ⟨j, hj, hjget⟩ := List.mem_take_iff_getElem.mp hmem
    exact hfirst j (by omega) hjget
  · rw [← hget, List.getElem_cons_drop, List.take_append_drop]

theorem sep_not_mem_rest (s : List α) : sep ∉ rest sep s := by
  induction hn : s.length using Nat.strong_induction_on generalizing s with
  | _ n ih =>
    obtain h | ⟨l, t, hl, rfl⟩ := eq_rest_or_line sep s
    · rwa [rest, cut_of_not_mem h]
    · rw [rest, cut_line hl]
      exact ih t.length (by simp [← hn]; omega) t rfl

/-- **Arrivals.** The rest of what has arrived is cut together with what comes next. -/
theorem cut_append (s t : List α) :
    cut sep (s ++ t) = (lines sep s ++ lines sep (rest sep s ++ t), rest sep (rest sep s ++ t)) := by
  induction hn : s.length using Nat.strong_induction_on generalizing s with
  | _ n ih =>
    obtain h | ⟨l, s', hl, rfl⟩ := eq_rest_or_line sep s
    · rw [lines, rest, cut_of_not_mem h]
      rfl
    · have hlt : s'.length < n := by simp [← hn]; omega
      rw [List.append_assoc, List.cons_append, cut_line hl, ih s'.length hlt s' rfl]
      simp only [lines, rest, cut_line hl, List.cons_append]

theorem lines_append (s t : List α) :
    lines sep (s ++ t) = lines sep s ++ lines sep (rest sep s ++ t) :=
  congrArg Prod.fst (cut_append s t)

theorem rest_append (s t : List α) : rest sep (s ++ t) = rest sep (rest sep s ++ t) := by
  rw [rest, cut_append]

theorem rest_line {l : List α} (h : sep ∉ l) (s : List α) :
    rest sep (l ++ sep :: s) = rest sep s := by
  rw [rest, cut_line h, rest]

/-! ## Blanks -/

section Blank

variable (space : α → Bool)

/-- Without the blanks at the two ends. -/
def trim (s : List α) : List α := (s.dropWhile space).rdropWhile space

def Blank (s : List α) : Prop := ∀ a ∈ s, space a = true

variable {space}

omit [DecidableEq α] in
theorem dropWhile_of_not_blank {f : List α} (h : ¬Blank space f) :
    ∃ a t, space a = false ∧ f.dropWhile space = a :: t := by
  cases hdrop : f.dropWhile space with
  | nil => exact absurd (List.dropWhile_eq_nil_iff.mp hdrop) h
  | cons a t =>
    refine ⟨a, t, ?_, rfl⟩
    have hhead := List.head_dropWhile_not space (l := f) (by rw [hdrop]; simp)
    simpa [hdrop] using hhead

omit [DecidableEq α] in
theorem dropWhile_append_of_not_blank {f : List α} (h : ¬Blank space f) (s : List α) :
    (f ++ s).dropWhile space = f.dropWhile space ++ s := by
  obtain ⟨a, t, -, hdrop⟩ := dropWhile_of_not_blank h
  rw [List.dropWhile_append, hdrop]
  rfl

omit [DecidableEq α] in
theorem rdropWhile_append_of_not_blank {s : List α} (h : ¬Blank space s) (f : List α) :
    (f ++ s).rdropWhile space = f ++ s.rdropWhile space := by
  have hrev : ¬Blank space s.reverse := fun hb => h fun a ha => hb a (by simp [ha])
  rw [List.rdropWhile, List.rdropWhile, List.reverse_append, dropWhile_append_of_not_blank hrev,
    List.reverse_append, List.reverse_reverse]

omit [DecidableEq α] in
theorem trim_append_of_blank {f : List α} (h : Blank space f) (s : List α) :
    trim space (f ++ s) = trim space s := by
  rw [trim, List.dropWhile_append_of_pos h, trim]

omit [DecidableEq α] in
theorem trim_eq_nil_iff {s : List α} : trim space s = [] ↔ Blank space s := by
  rw [trim, List.rdropWhile_eq_nil_iff]
  constructor
  · intro h
    by_contra hs
    obtain ⟨a, t, ha, hdrop⟩ := dropWhile_of_not_blank hs
    have := h a (by rw [hdrop]; simp)
    simp [ha] at this
  · intro h a ha
    exact h a ((List.dropWhile_sublist space).subset ha)

omit [DecidableEq α] in
/-- Something in front that is not blank is seen. -/
theorem trim_append_ne {f : List α} (h : ¬Blank space f) (s : List α) :
    trim space (f ++ s) ≠ trim space s := by
  have hfs : ¬Blank space (f ++ s) := fun hb => h fun a ha => hb a (List.mem_append_left _ ha)
  intro heq
  by_cases hs : Blank space s
  · rw [trim_eq_nil_iff.mpr hs, trim_eq_nil_iff] at heq
    exact hfs heq
  · obtain ⟨a, t, -, hdrop⟩ := dropWhile_of_not_blank h
    have hlen := congrArg List.length heq
    have hs' : ¬Blank space (s.dropWhile space) := fun hb => hs (trim_eq_nil_iff.mp (by
      rw [trim, List.rdropWhile_eq_nil_iff]
      exact hb))
    -- the trimmed stream lies at the end of the other one
    have hle : (trim space s).length ≤ (s.rdropWhile space).length := by
      conv_rhs => rw [← List.takeWhile_append_dropWhile (p := space) (l := s)]
      rw [rdropWhile_append_of_not_blank hs', trim, List.length_append]
      omega
    rw [trim, dropWhile_append_of_not_blank h, rdropWhile_append_of_not_blank hs, hdrop,
      List.length_append, List.length_cons] at hlen
    omega

end Blank

/-! ## Commands -/

section Commands

variable (sep) (space : α → Bool)

/-- The lines without the blanks around them, unless nothing is left. -/
def commands (s : List α) : List (List α) :=
  ((lines sep s).map (trim space)).filter (· ≠ [])

variable {sep space}

theorem commands_append (s t : List α) :
    commands sep space (s ++ t) = commands sep space s ++ commands sep space (rest sep s ++ t) := by
  rw [commands, lines_append, List.map_append, List.filter_append, commands, commands]

theorem commands_of_not_mem {s : List α} (h : sep ∉ s) : commands sep space s = [] := by
  rw [commands, lines, cut_of_not_mem h]
  rfl

theorem commands_line {l : List α} (h : sep ∉ l) (s : List α) :
    commands sep space (l ++ sep :: s) =
      (if trim space l = [] then [] else [trim space l]) ++ commands sep space s := by
  rw [commands, lines, cut_line h, List.map_cons, List.filter_cons]
  by_cases hl : trim space l = []
  · simp [hl, commands, lines]
  · simp [hl, commands, lines]

/-- **Something in front.** An unfinished line in front of a stream leaves its commands alone
exactly when it is blank, or when no line of the stream is finished. -/
theorem commands_append_iff {f : List α} (hf : sep ∉ f) (s : List α) :
    commands sep space (f ++ s) = commands sep space s ↔ Blank space f ∨ sep ∉ s := by
  obtain h | ⟨l, t, hl, rfl⟩ := eq_rest_or_line sep s
  · have hfs : sep ∉ f ++ s := by simp [hf, h]
    rw [commands_of_not_mem hfs, commands_of_not_mem h]
    exact iff_of_true rfl (.inr h)
  · have hfl : sep ∉ f ++ l := by simp [hf, hl]
    rw [← List.append_assoc, commands_line hfl, commands_line hl, List.append_cancel_right_eq]
    constructor
    · intro heq
      refine .inl (by_contra fun hblank => ?_)
      have hne := trim_append_ne hblank l
      have hfl' : trim space (f ++ l) ≠ [] := fun hnil =>
        hblank fun a ha => trim_eq_nil_iff.mp hnil a (List.mem_append_left _ ha)
      rw [if_neg hfl'] at heq
      by_cases hnil : trim space l = []
      · simp [hnil] at heq
      · rw [if_neg hnil] at heq
        exact hne (List.singleton_inj.mp heq)
    · rintro (hblank | hnot)
      · rw [trim_append_of_blank hblank]
      · simp at hnot

end Commands

end Lines
