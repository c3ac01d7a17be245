import Mathlib.Data.List.Induction
import Mathlib.Data.List.Sort

/-!
# The best of a ranking

A list in the order of decreasing rank, ties in the order of the list (`byRank`). Such a list is
determined by its ties (`eq_of_filter_eq`), so inserting one element after the other behind its ties
is one way to build it, and `foldl_insertRanked_take` keeps no more than the first `k` of it on the
way.
-/

namespace Ranking

variable {α β : Type*} [LinearOrder β] {rank : α → β}

/-- In the order of decreasing rank. -/
def Ranked (rank : α → β) (l : List α) : Prop := l.Pairwise fun a b => rank b ≤ rank a

/-- The list by decreasing rank, ties in the order of the list. -/
def byRank (rank : α → β) (l : List α) : List α := l.mergeSort fun a b => decide (rank b ≤ rank a)

theorem byRank_perm (rank : α → β) (l : List α) : (byRank rank l).Perm l :=
  List.mergeSort_perm l _

theorem ranked_byRank (rank : α → β) (l : List α) : Ranked rank (byRank rank l) := by
  have hsorted := @List.pairwise_mergeSort _ (fun a b => decide (rank b ≤ rank a)) ?_ ?_ l
  · exact hsorted.imp fun h => of_decide_eq_true h
  · intro a b c hab hbc
    exact decide_eq_true ((of_decide_eq_true hbc).trans (of_decide_eq_true hab))
  · intro a b
    simpa using le_total (rank b) (rank a)

theorem filter_byRank (rank : α → β) (r : β) (l : List α) :
    (byRank rank l).filter (rank · = r) = l.filter (rank · = r) := by
  have hties : (l.filter (rank · = r)).Sublist (byRank rank l) := by
    refine List.sublist_mergeSort ?_ ?_ ?_ List.filter_sublist
    · intro a b c hab hbc
      exact decide_eq_true ((of_decide_eq_true hbc).trans (of_decide_eq_true hab))
    · intro a b
      simpa using le_total (rank b) (rank a)
    · refine List.pairwise_of_forall_mem_list fun a ha b hb => ?_
      rw [List.mem_filter, decide_eq_true_eq] at ha hb
      exact decide_eq_true (hb.2.trans ha.2.symm).le
  have hfilter := hties.filter (rank · = r)
  rw [List.filter_filter] at hfilter
  simp only [Bool.and_self] at hfilter
  exact (hfilter.eq_of_length ((byRank_perm rank l).filter _).length_eq.symm).symm

/-- The first element of a ranked list is the first one of its rank, and no rank is higher. -/
theorem Ranked.le_head {a : α} {l : List α} (h : Ranked rank (a :: l)) {b : α} (hb : b ∈ a :: l) :
    rank b ≤ rank a := by
  cases List.mem_cons.mp hb with
  | inl heq => exact heq ▸ le_rfl
  | inr hmem => exact List.rel_of_pairwise_cons h hmem

/-- A ranked list is determined by its ties. -/
theorem eq_of_filter_eq {l l' : List α} (h : Ranked rank l) (h' : Ranked rank l')
    (hties : ∀ r, l.filter (rank · = r) = l'.filter (rank · = r)) : l = l' := by
  have hmem : ∀ x, x ∈ l ↔ x ∈ l' := by
    intro x
    have hx := congrArg (x ∈ ·) (hties (rank x))
    simpa using hx
  induction l generalizing l' with
  | nil =>
    cases l' with
    | nil => rfl
    | cons b l' => exact absurd ((hmem b).mpr List.mem_cons_self) List.not_mem_nil
  | cons a l ih =>
    cases l' with
    | nil => exact absurd ((hmem a).mp List.mem_cons_self) List.not_mem_nil
    | cons b l' =>
      have hrank : rank a = rank b :=
        le_antisymm (h'.le_head ((hmem a).mp List.mem_cons_self))
          (h.le_head ((hmem b).mpr List.mem_cons_self))
      have hhead := hties (rank b)
      rw [List.filter_cons_of_pos (by simpa using hrank),
        List.filter_cons_of_pos (by simp)] at hhead
      obtain ⟨rfl, -⟩ := List.cons.inj hhead
      have htail : ∀ r, l.filter (rank · = r) = l'.filter (rank · = r) := by
        intro r
        have hr := hties r
        by_cases har : rank a = r
        · rw [List.filter_cons_of_pos (by simpa using har),
            List.filter_cons_of_pos (by simpa using har)] at hr
          exact (List.cons.inj hr).2
        · rwa [List.filter_cons_of_neg (by simpa using har),
            List.filter_cons_of_neg (by simpa using har)] at hr
      refine congrArg (a :: ·) (ih h.of_cons h'.of_cons htail fun x => ?_)
      have hx := congrArg (x ∈ ·) (htail (rank x))
      simpa using hx

/-! ## Inserting behind the ties -/

/-- Insert before the first element of lower rank. -/
def insertRanked (rank : α → β) (a : α) (l : List α) : List α :=
  l.orderedInsert (fun x y => rank y < rank x) a

@[simp] theorem insertRanked_nil (a : α) : insertRanked rank a [] = [a] := rfl

theorem insertRanked_cons (a b : α) (l : List α) :
    insertRanked rank a (b :: l) =
      if rank b < rank a then a :: b :: l else b :: insertRanked rank a l :=
  List.orderedInsert_cons _ a b l

theorem Ranked.insertRanked {l : List α} (h : Ranked rank l) (a : α) :
    Ranked rank (insertRanked rank a l) := by
  induction l with
  | nil => exact List.pairwise_singleton _ a
  | cons b l ih =>
    rw [insertRanked_cons]
    split
    case isTrue hlt =>
      refine List.pairwise_cons.mpr ⟨fun x hx => ?_, h⟩
      exact (h.le_head hx).trans hlt.le
    case isFalse hlt =>
      refine List.pairwise_cons.mpr ⟨fun x hx => ?_, ih h.of_cons⟩
      cases (List.mem_orderedInsert _).mp hx with
      | inl heq => exact heq ▸ not_lt.mp hlt
      | inr hmem => exact List.rel_of_pairwise_cons h hmem

theorem filter_insertRanked {l : List α} (h : Ranked rank l) (a : α) (r : β) :
    (insertRanked rank a l).filter (rank · = r) =
      l.filter (rank · = r) ++ [a].filter (rank · = r) := by
  induction l with
  | nil => simp
  | cons b l ih =>
    rw [insertRanked_cons]
    split
    case isTrue hlt =>
      rw [← List.singleton_append, List.filter_append]
      by_cases har : rank a = r
      · have hnil : (b :: l).filter (rank · = r) = [] := by
          refine List.filter_eq_nil_iff.mpr fun x hx => ?_
          have hx := (h.le_head hx).trans_lt hlt
          simpa [← har] using hx.ne
        rw [hnil, List.append_nil, List.nil_append]
      · rw [List.filter_cons_of_neg (by simpa using har), List.filter_nil, List.nil_append,
          List.append_nil]
    case isFalse hlt =>
      rw [List.filter_cons, List.filter_cons, ih h.of_cons]
      split <;> rfl

theorem foldl_insertRanked (l : List α) :
    l.foldl (fun sorted a => insertRanked rank a sorted) [] = byRank rank l := by
  have hfold : Ranked rank (l.foldl (fun sorted a => insertRanked rank a sorted) []) ∧
      ∀ r, (l.foldl (fun sorted a => insertRanked rank a sorted) []).filter (rank · = r) =
        l.filter (rank · = r) := by
    induction l using List.reverseRecOn with
    | nil => exact ⟨List.Pairwise.nil, fun r => rfl⟩
    | append_singleton l a ih =>
      rw [List.foldl_append]
      refine ⟨ih.1.insertRanked a, fun r => ?_⟩
      rw [List.filter_append, ← ih.2 r]
      exact filter_insertRanked ih.1 a r
  refine eq_of_filter_eq hfold.1 (ranked_byRank rank l) fun r => ?_
  rw [hfold.2 r, filter_byRank]

/-! ## Keeping the first ones -/

theorem take_insertRanked_take (k : ℕ) (a : α) (l : List α) :
    (insertRanked rank a (l.take k)).take k = (insertRanked rank a l).take k := by
  induction l generalizing k with
  | nil => rw [List.take_nil]
  | cons b l ih =>
    cases k with
    | zero => rfl
    | succ k =>
      rw [List.take_succ_cons, insertRanked_cons, insertRanked_cons]
      split
      · rw [← List.take_succ_cons, List.take_succ_cons, List.take_take, List.take_succ_cons]
        congr 2
        omega
      · rw [List.take_succ_cons, List.take_succ_cons, ih]

/-- Of each list only the first `k` have to be kept. -/
theorem foldl_insertRanked_take (k : ℕ) (l : List α) :
    l.foldl (fun best a => (insertRanked rank a best).take k) [] = (byRank rank l).take k := by
  rw [← foldl_insertRanked]
  induction l using List.reverseRecOn with
  | nil => exact List.take_nil.symm
  | append_singleton l a ih =>
    rw [List.foldl_append, List.foldl_append, ih]
    exact take_insertRanked_take k a _

theorem le_head_byRank {l : List α} {a : α} (h : a ∈ (byRank rank l).head?) {b : α} (hb : b ∈ l) :
    rank b ≤ rank a := by
  obtain ⟨rest, hrest⟩ := List.head?_eq_some_iff.mp h
  have hranked := ranked_byRank rank l
  rw [hrest] at hranked
  exact hranked.le_head (hrest ▸ (byRank_perm rank l).mem_iff.mpr hb)

end Ranking
