import Mathlib.Algebra.Ring.Nat
import Mathlib.Data.List.Chain

/-!
# Batches

A list of jobs, each a head with a list of loads, is handed on in batches. A batch may end within a
job, whose other loads then come in the next batch, in a job that is marked as resumed.

A receiver that takes the batches one after another does what the jobs do (`Covers.foldl_flatten`),
and one that joins neighbours with the same key has the jobs back (`Covers.coalesce_flatten`).
-/

namespace Batches

variable {α β : Type*}

structure Job (α β : Type*) where
  head : α
  resumed : Bool
  loads : List β
  deriving DecidableEq, Repr

/-- `Cut jobs batch rest`: the batch takes jobs from the front and leaves the rest. -/
inductive Cut : List (Job α β) → List (Job α β) → List (Job α β) → Prop where
  | between (batch rest : List (Job α β)) : Cut (batch ++ rest) batch rest
  | within (batch : List (Job α β)) (head : α) (resumed : Bool) (l₁ l₂ : List β)
      (rest : List (Job α β)) :
      Cut (batch ++ ⟨head, resumed, l₁ ++ l₂⟩ :: rest) (batch ++ [⟨head, resumed, l₁⟩])
        (⟨head, true, l₂⟩ :: rest)

/-- The batches hand on the jobs and nothing else. -/
inductive Covers : List (Job α β) → List (List (Job α β)) → Prop where
  | nil : Covers [] []
  | cons {jobs batch rest : List (Job α β)} {batches : List (List (Job α β))}
      (hcut : Cut jobs batch rest) (hrest : Covers rest batches) : Covers jobs (batch :: batches)

/-- What there is to do: each job and each of its loads counts. -/
def weight (jobs : List (Job α β)) : ℕ := (jobs.map fun j => j.loads.length + 1).sum

variable {jobs batch rest : List (Job α β)} {batches : List (List (Job α β))}

theorem Cut.cons (j : Job α β) (h : Cut jobs batch rest) : Cut (j :: jobs) (j :: batch) rest := by
  cases h with
  | between => exact .between (j :: batch) rest
  | within batch head resumed l₁ l₂ rest => exact .within (j :: batch) head resumed l₁ l₂ rest

theorem weight_cons (j : Job α β) (jobs : List (Job α β)) :
    weight (j :: jobs) = j.loads.length + 1 + weight jobs := by
  rw [weight, List.map_cons, List.sum_cons, weight]

theorem weight_append (jobs rest : List (Job α β)) :
    weight (jobs ++ rest) = weight jobs + weight rest := by
  rw [weight, List.map_append, List.sum_append, weight, weight]

theorem Cut.weight_le (h : Cut jobs batch rest) : weight rest ≤ weight jobs := by
  cases h with
  | between =>
    rw [weight_append]
    omega
  | within batch head resumed l₁ l₂ rest =>
    simp only [weight_append, weight_cons, List.length_append]
    omega

/-- What holds of the loads of the jobs holds of those of a batch and of the rest. -/
theorem Cut.forall_loads {P : β → Prop} (h : Cut jobs batch rest)
    (hP : ∀ j ∈ jobs, ∀ l ∈ j.loads, P l) :
    (∀ j ∈ batch, ∀ l ∈ j.loads, P l) ∧ ∀ j ∈ rest, ∀ l ∈ j.loads, P l := by
  cases h with
  | between => exact List.forall_mem_append.mp hP
  | within batch head resumed l₁ l₂ rest =>
    obtain ⟨hbatch, hrest⟩ := List.forall_mem_append.mp hP
    obtain ⟨hcut, hrest⟩ := List.forall_mem_cons.mp hrest
    obtain ⟨h₁, h₂⟩ := List.forall_mem_append.mp hcut
    exact ⟨List.forall_mem_append.mpr ⟨hbatch, List.forall_mem_singleton.mpr h₁⟩,
      List.forall_mem_cons.mpr ⟨h₂, hrest⟩⟩

theorem Covers.forall_loads {P : β → Prop} (h : Covers jobs batches)
    (hP : ∀ j ∈ jobs, ∀ l ∈ j.loads, P l) : ∀ batch ∈ batches, ∀ j ∈ batch, ∀ l ∈ j.loads, P l := by
  induction h with
  | nil => simp
  | cons hcut _ ih =>
    obtain ⟨hbatch, hrest⟩ := hcut.forall_loads hP
    exact List.forall_mem_cons.mpr ⟨hbatch, ih hrest⟩

theorem Covers.forall_head {P : α → Prop} (h : Covers jobs batches) (hP : ∀ j ∈ jobs, P j.head) :
    ∀ batch ∈ batches, ∀ j ∈ batch, P j.head := by
  induction h with
  | nil => simp
  | cons hcut _ ih =>
    cases hcut with
    | between =>
      obtain ⟨hbatch, hrest⟩ := List.forall_mem_append.mp hP
      exact List.forall_mem_cons.mpr ⟨hbatch, ih hrest⟩
    | within batch head resumed l₁ l₂ rest =>
      obtain ⟨hbatch, hrest⟩ := List.forall_mem_append.mp hP
      obtain ⟨hhead, hrest⟩ := List.forall_mem_cons.mp hrest
      exact List.forall_mem_cons.mpr
        ⟨List.forall_mem_append.mpr ⟨hbatch, List.forall_mem_singleton.mpr hhead⟩,
          ih (List.forall_mem_cons.mpr ⟨hhead, hrest⟩)⟩

/-- What each job that is not resumed has to do with the one in front of it stays so. -/
theorem Covers.isChain_append_flatten {R : α → α → Prop} (h : Covers jobs batches)
    (front : List (Job α β))
    (hchain : (front ++ jobs).IsChain fun j k => k.resumed = false → R j.head k.head) :
    (front ++ batches.flatten).IsChain fun j k => k.resumed = false → R j.head k.head := by
  induction h generalizing front with
  | nil => exact hchain
  | cons hcut _ ih =>
    rw [List.flatten_cons, ← List.append_assoc]
    apply ih
    cases hcut with
    | between => rwa [List.append_assoc]
    | within batch head resumed l₁ l₂ rest =>
      rw [← List.append_assoc, List.isChain_append, List.isChain_cons] at hchain
      obtain ⟨hfront, ⟨hhead, hrest⟩, hlink⟩ := hchain
      simp only [← List.append_assoc]
      rw [List.append_assoc, List.singleton_append, List.isChain_append, List.isChain_cons,
        List.isChain_cons]
      refine ⟨hfront, ⟨?_, ⟨hhead, hrest⟩⟩, ?_⟩
      · rintro k hk hresumed
        obtain rfl := Option.mem_some.mp hk
        cases hresumed
      · rintro j hj k hk
        obtain rfl := Option.mem_some.mp hk
        exact hlink j hj ⟨head, resumed, l₁ ++ l₂⟩ rfl

/-! ## Taking the batches one after another -/

section Fold

variable {σ : Type*} {run : σ → Job α β → σ}

/-- **The fold rule.** Where a job may be done in two parts, the batches do what the jobs do. -/
theorem Covers.foldl_flatten
    (hrun : ∀ s head resumed l₁ l₂, run (run s ⟨head, resumed, l₁⟩) ⟨head, true, l₂⟩ =
      run s ⟨head, resumed, l₁ ++ l₂⟩)
    (h : Covers jobs batches) (s : σ) : batches.flatten.foldl run s = jobs.foldl run s := by
  induction h generalizing s with
  | nil => rfl
  | cons hcut _ ih =>
    rw [List.flatten_cons, List.foldl_append, ih, ← List.foldl_append]
    cases hcut with
    | between => rfl
    | within batch head resumed l₁ l₂ rest =>
      simp only [List.foldl_append, List.foldl_cons, List.foldl_nil, hrun]

end Fold

/-! ## Joining neighbours -/

section Coalesce

variable {κ : Type*} [DecidableEq κ] (key : α → κ)

/-- Each job takes in the loads of the jobs with its key that follow it at once. -/
def coalesce : List (Job α β) → List (Job α β)
  | [] => []
  | [j] => [j]
  | j :: k :: rest =>
    if key j.head = key k.head then coalesce ({ j with loads := j.loads ++ k.loads } :: rest)
    else j :: coalesce (k :: rest)
termination_by jobs => jobs.length

variable {key}

/-- Two neighbours with the same key may be joined beforehand, wherever they stand. -/
theorem coalesce_append (front : List (Job α β)) {j k : Job α β} (h : key j.head = key k.head)
    (rest : List (Job α β)) :
    coalesce key (front ++ j :: k :: rest) =
      coalesce key (front ++ { j with loads := j.loads ++ k.loads } :: rest) := by
  induction hn : front.length generalizing front j with
  | zero =>
    obtain rfl := List.eq_nil_of_length_eq_zero hn
    rw [List.nil_append, List.nil_append, coalesce, if_pos h]
  | succ n ih =>
    match front, hn with
    | [x], _ =>
      simp only [List.singleton_append]
      by_cases hx : key x.head = key j.head
      · rw [coalesce, if_pos hx]
        conv_rhs => rw [coalesce, if_pos hx]
        rw [coalesce, if_pos (show key x.head = key k.head from hx.trans h)]
        simp only [List.append_assoc]
      · rw [coalesce, if_neg hx]
        conv_rhs => rw [coalesce, if_neg hx]
        rw [coalesce, if_pos h]
    | x :: y :: front, hn =>
      have hlen : front.length + 1 = n := by simpa using hn
      simp only [List.cons_append]
      by_cases hx : key x.head = key y.head
      · rw [coalesce, if_pos hx]
        conv_rhs => rw [coalesce, if_pos hx]
        exact ih (_ :: front) h (by simpa using hlen)
      · rw [coalesce, if_neg hx]
        conv_rhs => rw [coalesce, if_neg hx]
        exact congrArg (x :: ·) (ih (y :: front) h (by simpa using hlen))

/-- Jobs of which no two neighbours have the same key stay as they are. -/
theorem coalesce_of_isChain (h : jobs.IsChain fun j k => key j.head ≠ key k.head) :
    coalesce key jobs = jobs := by
  induction h with
  | nil => rw [coalesce]
  | singleton j => rw [coalesce]
  | cons_cons hne _ ih => rw [coalesce, if_neg hne, ih]

theorem Covers.coalesce_append_flatten (h : Covers jobs batches) (front : List (Job α β)) :
    coalesce key (front ++ batches.flatten) = coalesce key (front ++ jobs) := by
  induction h generalizing front with
  | nil => rfl
  | cons hcut _ ih =>
    rw [List.flatten_cons, ← List.append_assoc, ih]
    cases hcut with
    | between => rw [List.append_assoc]
    | within batch head resumed l₁ l₂ rest =>
      have hjoin := @coalesce_append α β κ _ key (front ++ batch) ⟨head, resumed, l₁⟩
        ⟨head, true, l₂⟩ rfl rest
      simpa only [List.append_assoc, List.singleton_append] using hjoin

/-- **The round trip.** Joining the neighbours with the same key undoes the batches. -/
theorem Covers.coalesce_flatten (hkeys : jobs.IsChain fun j k => key j.head ≠ key k.head)
    (h : Covers jobs batches) : coalesce key batches.flatten = jobs := by
  rw [← coalesce_of_isChain hkeys]
  exact h.coalesce_append_flatten []

end Coalesce

end Batches
