import Mathlib.Data.List.DropRight
import Mathlib.Data.Nat.Digits.Defs

/-!
# Text

Character lists with the operations a line-oriented format needs: white space and trimming,
decimal numbers, and splitting at a separator. `Solid` text is not empty and neither begins nor
ends with white space; trimming produces it (`trimmed_nil_or_solid`) and leaves it alone
(`Solid.trimmed_eq`).
-/

namespace Text

/-! ## White space -/

/-- Unicode white space. -/
def isSpace (c : Char) : Bool :=
  let n := c.toNat
  n == 0x20 || (0x09 ≤ n && n ≤ 0x0d) || n == 0x85 || n == 0xa0 || n == 0x1680 ||
    (0x2000 ≤ n && n ≤ 0x200a) || n == 0x2028 || n == 0x2029 || n == 0x202f || n == 0x205f ||
    n == 0x3000

@[simp] theorem isSpace_space : isSpace ' ' = true := rfl

/-- Text without the white space at its two ends. -/
def trimmed (s : List Char) : List Char := (s.dropWhile isSpace).rdropWhile isSpace

/-- Text that neither is empty nor has white space at an end. -/
def Solid (s : List Char) : Prop :=
  (∃ a, s.head? = some a ∧ isSpace a = false) ∧ ∃ b, s.getLast? = some b ∧ isSpace b = false

theorem Solid.ne_nil {s : List Char} (h : Solid s) : s ≠ [] := by
  rintro rfl
  obtain ⟨⟨a, ha, -⟩, -⟩ := h
  simp at ha

/-- Solid text at both ends makes solid text, whatever is between. -/
theorem Solid.append {s t : List Char} (hs : Solid s) (ht : Solid t) (m : List Char) :
    Solid (s ++ (m ++ t)) := by
  obtain ⟨⟨a, ha, ha'⟩, -⟩ := hs
  obtain ⟨-, b, hb, hb'⟩ := ht
  refine ⟨⟨a, ?_, ha'⟩, b, ?_, hb'⟩
  · rw [List.head?_append, ha, Option.some_or]
  · rw [List.getLast?_append, List.getLast?_append, hb, Option.some_or, Option.some_or]

theorem mem_of_mem_trimmed {s : List Char} {c : Char} (h : c ∈ trimmed s) : c ∈ s :=
  (List.dropWhile_sublist isSpace).subset ((List.rdropWhile_prefix isSpace _).subset h)

theorem dropWhile_of_head {s : List Char} {a : Char} (ha : s.head? = some a)
    (hsp : isSpace a = false) : s.dropWhile isSpace = s := by
  cases s with
  | nil => rfl
  | cons c s =>
    obtain rfl : c = a := by simpa using ha
    simp [hsp]

theorem rdropWhile_of_last {s : List Char} {b : Char} (hb : s.getLast? = some b)
    (hsp : isSpace b = false) : s.rdropWhile isSpace = s := by
  rw [List.rdropWhile, dropWhile_of_head (by simpa using hb) hsp, List.reverse_reverse]

theorem Solid.trimmed_eq {s : List Char} (h : Solid s) : trimmed s = s := by
  obtain ⟨⟨a, ha, ha'⟩, b, hb, hb'⟩ := h
  rw [trimmed, dropWhile_of_head ha ha', rdropWhile_of_last hb hb']

theorem trimmed_append_of_space {w : List Char} (hw : ∀ c ∈ w, isSpace c = true) (s : List Char) :
    trimmed (w ++ s) = trimmed s := by
  rw [trimmed, trimmed, List.dropWhile_append_of_pos hw]

theorem Solid.trimmed_append {s w : List Char} (h : Solid s) (hw : ∀ c ∈ w, isSpace c = true) :
    trimmed (s ++ w) = s := by
  have heq := h.trimmed_eq
  obtain ⟨⟨a, ha, ha'⟩, -⟩ := h
  rw [trimmed, dropWhile_of_head ha ha'] at heq
  rw [trimmed, dropWhile_of_head (by rw [List.head?_append, ha, Option.some_or]) ha',
    List.rdropWhile, List.reverse_append, List.dropWhile_append_of_pos (by simpa using hw)]
  exact heq

theorem trimmed_nil_or_solid (s : List Char) : trimmed s = [] ∨ Solid (trimmed s) := by
  by_cases h : trimmed s = []
  · exact Or.inl h
  refine Or.inr ⟨?_, _, List.getLast?_eq_some_getLast h, ?_⟩
  · obtain ⟨t, ht⟩ := List.rdropWhile_prefix isSpace (s.dropWhile isSpace)
    have hne : s.dropWhile isSpace ≠ [] := by
      rw [← ht]
      exact fun h' => h (List.append_eq_nil_iff.mp h').1
    have hhead := List.head_dropWhile_not isSpace hne
    refine ⟨(s.dropWhile isSpace).head hne, ?_, hhead⟩
    rw [← List.head?_eq_some_head hne, ← ht, List.head?_append, trimmed] at *
    cases hc : (s.dropWhile isSpace).rdropWhile isSpace with
    | nil => exact absurd hc h
    | cons c cs => simp
  · exact Bool.eq_false_iff.mpr (List.rdropWhile_last_not isSpace _ h)

theorem solid_trimmed {s : List Char} (h : trimmed s ≠ []) : Solid (trimmed s) :=
  (trimmed_nil_or_solid s).resolve_left h

theorem trimmed_eq_nil_iff {s : List Char} : trimmed s = [] ↔ ∀ c ∈ s, isSpace c = true := by
  rw [trimmed, List.rdropWhile_eq_nil_iff]
  constructor
  · intro h c hc
    rw [← List.takeWhile_append_dropWhile (p := isSpace) (l := s), List.mem_append] at hc
    rcases hc with hc | hc
    · exact List.mem_takeWhile_imp hc
    · exact h c hc
  · exact fun h c hc => h c ((List.dropWhile_sublist isSpace).subset hc)

theorem rdropWhile_append_of_space {w : List Char} (hw : ∀ c ∈ w, isSpace c = true)
    (s : List Char) : (s ++ w).rdropWhile isSpace = s.rdropWhile isSpace := by
  rw [List.rdropWhile, List.rdropWhile, List.reverse_append,
    List.dropWhile_append_of_pos (by simpa using hw)]

theorem exists_trimmed (s : List Char) : ∃ w w', (∀ c ∈ w, isSpace c = true) ∧
    (∀ c ∈ w', isSpace c = true) ∧ s = w ++ trimmed s ++ w' := by
  refine ⟨s.takeWhile isSpace, (s.dropWhile isSpace).rtakeWhile isSpace,
    fun c hc => List.mem_takeWhile_imp hc, fun c hc => List.mem_rtakeWhile_imp hc, ?_⟩
  rw [trimmed, List.append_assoc, List.rdropWhile_append_rtakeWhile,
    List.takeWhile_append_dropWhile]

theorem trimmed_append_right {w : List Char} (hw : ∀ c ∈ w, isSpace c = true) (s : List Char) :
    trimmed (s ++ w) = trimmed s := by
  rcases trimmed_nil_or_solid s with hnil | hsolid
  · rw [hnil, trimmed_eq_nil_iff]
    intro c hc
    rcases List.mem_append.mp hc with hc | hc
    · exact trimmed_eq_nil_iff.mp hnil c hc
    · exact hw c hc
  · obtain ⟨w₁, w₂, h₁, h₂, heq⟩ := exists_trimmed s
    have hright : ∀ c ∈ w₂ ++ w, isSpace c = true := fun c hc =>
      (List.mem_append.mp hc).elim (h₂ c) (hw c)
    calc trimmed (s ++ w) = trimmed (w₁ ++ (trimmed s ++ (w₂ ++ w))) := by
          rw [← List.append_assoc (trimmed s), ← List.append_assoc w₁,
            ← List.append_assoc w₁ (trimmed s), ← heq]
      _ = trimmed s := by rw [trimmed_append_of_space h₁, hsolid.trimmed_append hright]

theorem trimmed_dropWhile (s : List Char) : trimmed (s.dropWhile isSpace) = trimmed s := by
  conv_rhs => rw [← List.takeWhile_append_dropWhile (p := isSpace) (l := s),
    trimmed_append_of_space fun c hc => List.mem_takeWhile_imp hc]

theorem trimmed_rdropWhile (s : List Char) : trimmed (s.rdropWhile isSpace) = trimmed s := by
  conv_rhs => rw [← List.rdropWhile_append_rtakeWhile (p := isSpace) (l := s),
    trimmed_append_right fun c hc => List.mem_rtakeWhile_imp hc]

theorem head?_trimmed (s : List Char) : (trimmed s).head? = (s.dropWhile isSpace).head? := by
  rcases trimmed_nil_or_solid s with hnil | hsolid
  · rw [hnil, List.dropWhile_eq_nil_iff.mpr (trimmed_eq_nil_iff.mp hnil)]
  · obtain ⟨w, w', hw, -, heq⟩ := exists_trimmed s
    obtain ⟨⟨a, ha, ha'⟩, -⟩ := hsolid
    have hhead : (trimmed s ++ w').head? = some a := by rw [List.head?_append, ha, Option.some_or]
    conv_rhs => rw [heq, List.append_assoc, List.dropWhile_append_of_pos hw,
      dropWhile_of_head hhead ha', hhead]
    exact ha

theorem getLast?_trimmed (s : List Char) :
    (trimmed s).getLast? = (s.rdropWhile isSpace).getLast? := by
  rcases trimmed_nil_or_solid s with hnil | hsolid
  · rw [hnil, List.rdropWhile_eq_nil_iff.mpr (trimmed_eq_nil_iff.mp hnil)]
  · obtain ⟨w, w', -, hw', heq⟩ := exists_trimmed s
    obtain ⟨-, b, hb, hb'⟩ := hsolid
    have hlast : (w ++ trimmed s).getLast? = some b := by
      rw [List.getLast?_append, hb, Option.some_or]
    conv_rhs => rw [heq, rdropWhile_append_of_space hw', rdropWhile_of_last hlast hb', hlast]
    exact hb

/-- Around a character that is no white space, the two parts are trimmed on their outer side. -/
theorem trimmed_append_cons {c : Char} (hc : isSpace c = false) (s t : List Char) :
    trimmed (s ++ c :: t) = s.dropWhile isSpace ++ c :: t.rdropWhile isSpace := by
  have hleft : (s ++ c :: t).dropWhile isSpace = s.dropWhile isSpace ++ c :: t := by
    rw [List.dropWhile_append]
    cases s.dropWhile isSpace <;> simp [hc]
  have hright : ∀ u : List Char, (u ++ c :: t).rdropWhile isSpace =
      u ++ c :: t.rdropWhile isSpace := by
    intro u
    have hrev : (u ++ c :: t).reverse = t.reverse ++ c :: u.reverse := by simp
    rw [List.rdropWhile, hrev, List.dropWhile_append, List.rdropWhile]
    cases t.reverse.dropWhile isSpace <;> simp [hc]
  rw [trimmed, hleft, hright]

/-! ## Numbers -/

/-- The decimal digits of an integer, with a minus sign when it is negative. -/
def decimal (n : ℤ) : List Char :=
  if n < 0 then '-' :: Nat.toDigits 10 n.natAbs else Nat.toDigits 10 n.natAbs

/-- The value of a non-empty string of digits. -/
def ofDigits (s : List Char) : Option ℕ :=
  if s ≠ [] ∧ s.all Char.isDigit then some (Nat.ofDigitChars 10 s 0) else none

theorem decimal_natCast (n : ℕ) : decimal n = Nat.toDigits 10 n := by
  simp [decimal]

theorem isDigit_of_mem_toDigits {n : ℕ} {c : Char} (h : c ∈ Nat.toDigits 10 n) :
    c.isDigit = true := Nat.isDigit_of_mem_toDigits (by norm_num) (by norm_num) h

theorem ofDigits_toDigits (n : ℕ) : ofDigits (Nat.toDigits 10 n) = some n := by
  have hall : (Nat.toDigits 10 n).all Char.isDigit = true :=
    List.all_eq_true.mpr fun c hc => isDigit_of_mem_toDigits hc
  rw [ofDigits, if_pos ⟨Nat.toDigits_ne_nil, hall⟩, Nat.ofDigitChars_ten_toDigits]

theorem not_isSpace_of_isDigit {c : Char} (h : c.isDigit = true) : isSpace c = false := by
  have hrange : 48 ≤ c.toNat ∧ c.toNat ≤ 57 := by
    simp only [Char.isDigit, Bool.and_eq_true, decide_eq_true_eq] at h
    exact ⟨h.1, h.2⟩
  simp only [isSpace, Bool.or_eq_false_iff, Bool.and_eq_false_iff, beq_eq_false_iff_ne,
    decide_eq_false_iff_not]
  omega

theorem not_isSpace_of_isAlpha {c : Char} (h : c.isAlpha = true) : isSpace c = false := by
  have hrange : (65 ≤ c.toNat ∧ c.toNat ≤ 90) ∨ (97 ≤ c.toNat ∧ c.toNat ≤ 122) := by
    delta Char.isAlpha Char.isUpper Char.isLower at h
    simp only [Bool.or_eq_true, Bool.and_eq_true, decide_eq_true_eq] at h
    exact h
  simp only [isSpace, Bool.or_eq_false_iff, Bool.and_eq_false_iff, beq_eq_false_iff_ne,
    decide_eq_false_iff_not]
  omega

theorem solid_toDigits (n : ℕ) : Solid (Nat.toDigits 10 n) := by
  have hne : Nat.toDigits 10 n ≠ [] := Nat.toDigits_ne_nil
  refine ⟨⟨_, List.head?_eq_some_head hne, ?_⟩, _, List.getLast?_eq_some_getLast hne, ?_⟩
  · exact not_isSpace_of_isDigit (isDigit_of_mem_toDigits (List.head_mem hne))
  · exact not_isSpace_of_isDigit (isDigit_of_mem_toDigits (List.getLast_mem hne))

/-! ## Lines and items -/

/-- A text that ends each of its lines with a separator has these lines and an empty last one. -/
theorem splitOn_flatMap_append {ls : List (List Char)} {c : Char} (h : ∀ l ∈ ls, c ∉ l) :
    (ls.flatMap (· ++ [c])).splitOn c = ls ++ [[]] := by
  induction ls with
  | nil => rfl
  | cons l ls ih =>
    have htail := ih fun l' hl' => h l' (by simp [hl'])
    rw [List.flatMap_cons, List.append_assoc, List.singleton_append,
      List.splitOn_append_cons_self_of_not_mem (h l (by simp)), htail, List.cons_append]

/-- The parts of a split do not contain what separates them. -/
theorem not_of_mem_splitOnP {α : Type*} {p : α → Bool} {s l : List α} (h : l ∈ s.splitOnP p) {c : α}
    (hc : c ∈ l) : p c = false := by
  induction s generalizing l with
  | nil =>
    obtain rfl : l = [] := by simpa using h
    cases hc
  | cons a s ih =>
    obtain ⟨x, xs, hx⟩ := List.exists_cons_of_ne_nil (List.splitOnP_ne_nil p s)
    rw [List.splitOnP_cons_eq_if_modifyHead] at h
    rw [hx] at h ih
    by_cases ha : p a = true
    · rw [if_pos ha] at h
      rcases List.mem_cons.mp h with rfl | h
      · cases hc
      · exact ih h hc
    · rw [if_neg ha, List.modifyHead_cons] at h
      rcases List.mem_cons.mp h with rfl | h
      · rcases List.mem_cons.mp hc with rfl | hc
        · exact Bool.eq_false_iff.mpr ha
        · exact ih List.mem_cons_self hc
      · exact ih (List.mem_cons_of_mem _ h) hc

/-- The parts of a split are made of the text's characters, without the separator. -/
theorem mem_splitOn {s l : List Char} {c : Char} (h : l ∈ s.splitOn c) : c ∉ l ∧ l ⊆ s := by
  induction s generalizing l with
  | nil =>
    obtain rfl : l = [] := by simpa using h
    simp
  | cons a s ih =>
    rw [List.splitOn, List.splitOnP_cons_eq_if_modifyHead] at h
    change ∀ {l}, l ∈ s.splitOnP (· == c) → _ at ih
    by_cases ha : a = c
    · simp only [ha, beq_self_eq_true, if_true, List.mem_cons] at h
      rcases h with rfl | h
      · simp
      · exact ⟨(ih h).1, List.subset_cons_of_subset _ (ih h).2⟩
    · obtain ⟨x, xs, hx⟩ := List.exists_cons_of_ne_nil (List.splitOnP_ne_nil (· == c) s)
      simp only [beq_iff_eq, ha, if_false, hx, List.modifyHead_cons, List.mem_cons] at h
      rw [hx] at ih
      rcases h with rfl | h
      · obtain ⟨hc, hsub⟩ := ih (l := x) (by simp)
        refine ⟨?_, List.cons_subset_cons _ hsub⟩
        simp only [List.mem_cons, not_or]
        exact ⟨fun h' => ha h'.symm, hc⟩
      · obtain ⟨hc, hsub⟩ := ih (l := l) (by simp [h])
        exact ⟨hc, List.subset_cons_of_subset _ hsub⟩

theorem isPrefixOf_append_cons {w : List Char} {c : Char} (h : c ∉ w) (s t : List Char) :
    w.isPrefixOf (s ++ c :: t) = w.isPrefixOf s := by
  induction w generalizing s with
  | nil => simp
  | cons a w ih =>
    simp only [List.mem_cons, not_or] at h
    cases s with
    | nil =>
      have hne : (a == c) = false := beq_eq_false_iff_ne.mpr fun h' => h.1 h'.symm
      rw [List.nil_append, List.isPrefixOf_cons_cons, hne, Bool.false_and]
      rfl
    | cons b s => simp only [List.cons_append, List.isPrefixOf_cons_cons, ih h.2]

theorem idxOf?_append_cons {s : List Char} {c : Char} (h : c ∉ s) (t : List Char) :
    (s ++ c :: t).idxOf? c = some s.length := by
  induction s with
  | nil => simp [List.idxOf?_cons]
  | cons a s ih =>
    simp only [List.mem_cons, not_or] at h
    have hne : (a == c) = false := beq_eq_false_iff_ne.mpr fun h' => h.1 h'.symm
    rw [List.cons_append, List.idxOf?_cons, hne, ih h.2]
    simp

theorem exists_of_idxOf?_eq_some {s : List Char} {c : Char} {i : ℕ} (h : s.idxOf? c = some i) :
    ∃ a b, s = a ++ c :: b ∧ c ∉ a ∧ a.length = i := by
  have hmem : c ∈ s := by
    by_contra hc
    rw [List.idxOf?_eq_none_iff.mpr hc] at h
    cases h
  obtain ⟨a, b, rfl, ha⟩ := List.eq_append_cons_of_mem hmem
  rw [idxOf?_append_cons ha, Option.some.injEq] at h
  exact ⟨a, b, rfl, ha, h⟩

/-! ## The last separator -/

/-- The place of the last `c`. -/
def lastIdx? (c : Char) (s : List Char) : Option ℕ :=
  (s.reverse.idxOf? c).map fun i => s.length - 1 - i

/-- What comes after the last `c`: all of it when there is none. -/
def afterLast (c : Char) (s : List Char) : List Char := s.rtakeWhile (· ≠ c)

theorem lastIdx?_eq_none {s : List Char} {c : Char} (h : c ∉ s) : lastIdx? c s = none := by
  have hnone : s.reverse.idxOf? c = none :=
    List.idxOf?_eq_none_iff.mpr fun hc => h (List.mem_reverse.mp hc)
  rw [lastIdx?, hnone, Option.map_none]

theorem lastIdx?_append_cons {t : List Char} {c : Char} (h : c ∉ t) (s : List Char) :
    lastIdx? c (s ++ c :: t) = some s.length := by
  have hrev : (s ++ c :: t).reverse = t.reverse ++ c :: s.reverse := by simp
  rw [lastIdx?, hrev, idxOf?_append_cons (fun hc => h (List.mem_reverse.mp hc)), Option.map_some,
    Option.some.injEq]
  simp only [List.length_append, List.length_cons, List.length_reverse]
  omega

theorem exists_append_cons_of_mem {s : List Char} {c : Char} (h : c ∈ s) :
    ∃ a b, s = a ++ c :: b ∧ c ∉ b := by
  obtain ⟨a, b, hab, ha⟩ := List.eq_append_cons_of_mem (List.mem_reverse.mpr h)
  refine ⟨b.reverse, a.reverse, ?_, fun hc => ha (List.mem_reverse.mp hc)⟩
  rw [← List.reverse_reverse s, hab]
  simp

theorem afterLast_of_not_mem {s : List Char} {c : Char} (h : c ∉ s) : afterLast c s = s := by
  refine List.rtakeWhile_eq_self_iff.mpr fun a ha => ?_
  exact decide_eq_true fun hac => h (hac ▸ ha)

theorem afterLast_append_cons {t : List Char} {c : Char} (h : c ∉ t) (s : List Char) :
    afterLast c (s ++ c :: t) = t := by
  have hrev : (s ++ c :: t).reverse = t.reverse ++ c :: s.reverse := by simp
  rw [afterLast, List.rtakeWhile, hrev, List.takeWhile_append_of_pos]
  · rw [List.takeWhile_cons_of_neg (by simp), List.append_nil, List.reverse_reverse]
  · intro a ha
    exact decide_eq_true fun hac => h (hac ▸ List.mem_reverse.mp ha)

theorem not_mem_afterLast (c : Char) (s : List Char) : c ∉ afterLast c s := by
  intro hc
  simpa using List.mem_rtakeWhile_imp hc

theorem afterLast_eq_self_iff {s : List Char} {c : Char} : afterLast c s = s ↔ c ∉ s :=
  ⟨fun h => h ▸ not_mem_afterLast c s, afterLast_of_not_mem⟩

theorem getLast?_splitOn (c : Char) (s : List Char) :
    (s.splitOn c).getLast? = some (afterLast c s) := by
  by_cases hc : c ∈ s
  · obtain ⟨a, b, rfl, hb⟩ := exists_append_cons_of_mem hc
    rw [List.splitOn_append_cons_self, List.splitOn_eq_singleton hb, List.getLast?_concat,
      afterLast_append_cons hb]
  · rw [List.splitOn_eq_singleton hc, afterLast_of_not_mem hc, List.getLast?_singleton]

end Text
