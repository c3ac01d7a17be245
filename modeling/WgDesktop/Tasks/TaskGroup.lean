import Mathlib.Data.List.Nodup
import WgDesktop.Lib.Storage
import WgDesktop.Tasks.TaskScheduler

/-!
# `TaskGroup`

A task that runs a list of subtasks, from `src/utils/taskgroup.cpp`. `run` goes through the slots of
`m_tasks` while the handlers of subtasks that complete in the meantime remove them from it, and
checks at its end whether all of them are done; so does each handler.

`group_correct_iff` says for which patterns of completion every subtask is run once and `completed`
is emitted once, after the last subtask.
-/

namespace WgDesktop.TaskGroup

open Storage TaskScheduler
open scoped List

variable {α : Type} [DecidableEq α]

/-! ## Running subtasks -/

/-- What happens: a subtask is run, a subtask completes, the group emits `completed`. -/
inductive Entry (α : Type) where
  | ran (t : α)
  | finished (t : α)
  | completed
  deriving DecidableEq, Repr

/-- `m_tasks`, the subtasks whose `completed` is connected, once for each connection, and the
history. -/
structure State (α : Type) where
  tasks : Buffer α
  connected : List α := []
  log : List (Entry α) := []
  deriving DecidableEq, Repr

def maybeComplete (s : State α) : State α :=
  if s.tasks.size = 0 then { s with log := s.log ++ [.completed] } else s

/-- The handler for `completed` of a subtask. -/
def onCompleted (s : State α) (t : α) : State α :=
  maybeComplete { s with tasks := s.tasks.removeOne t }

/-- A subtask emits `completed`, which it does once and after it was run. -/
def subtaskCompleted (s : State α) (t : α) : State α :=
  if t ∈ s.connected ∧ .finished t ∉ s.log then
    (s.connected.filter (· = t)).foldl onCompleted { s with log := s.log ++ [.finished t] }
  else s

/-- One turn of the loop of `run`: the subtask in the slot is connected and run, and the subtasks in
`inside` complete before its `run` returns. -/
def turn (inside : α → List α) (s : State α) (slot : ℕ) : State α :=
  match s.tasks.slots[slot]? with
  | none => s
  | some t =>
    (inside t).foldl subtaskCompleted
      { s with connected := s.connected ++ [t], log := s.log ++ [.ran t] }

/-- The loop goes from the first slot to the end that the list had at the start. -/
def run (inside : α → List α) (s : State α) : State α :=
  maybeComplete ((List.range' s.tasks.start s.tasks.size).foldl (turn inside) s)

/-! ## Patterns -/

/-- When the subtasks complete: inside of the `run` of a subtask, where only those can complete that
have been run, or later. -/
structure Pattern (tasks : List α) where
  inside : α → List α
  later : List α
  nodup : tasks.Nodup
  once : tasks.flatMap inside ++ later ~ tasks
  started : ∀ k t, tasks[k]? = some t → ∀ u ∈ inside t, u ∈ tasks.take (k + 1)

/-- The whole life of a group. -/
def execute {tasks : List α} (P : Pattern tasks) : State α :=
  P.later.foldl subtaskCompleted (run P.inside { tasks := .ofList tasks })

/-- Every subtask is run once, and `completed` is emitted once, after all of them have completed. -/
structure Correct (tasks : List α) (log : List (Entry α)) : Prop where
  ran : ∀ t ∈ tasks, log.count (.ran t) = 1
  completed : ∃ before, log = before ++ [.completed] ∧ .completed ∉ before ∧
    ∀ t ∈ tasks, .finished t ∈ before

/-! ## Completions that do no harm -/

section Intact

variable {tasks : List α} {k : ℕ} {done : List α} {s : State α} {u : α}

/-- The state when the first `k` subtasks have been run and `done` have completed: the list holds
the others, the slots that `run` has not come to are as they were, and the group has not emitted. -/
structure Intact (tasks : List α) (k : ℕ) (done : List α) (s : State α) : Prop where
  fits : s.tasks.Fits
  length : s.tasks.slots.length = tasks.length
  list : s.tasks.toList = tasks.filter (· ∉ done)
  unread : s.tasks.slots.drop k = tasks.drop k
  connected : s.connected = tasks.take k
  finished : ∀ t, .finished t ∈ s.log ↔ t ∈ done
  ran : ∀ t, s.log.count (.ran t) = (tasks.take k).count t
  waiting : .completed ∉ s.log

theorem intact_init : Intact tasks 0 [] { tasks := .ofList tasks } where
  fits := Buffer.fits_ofList tasks
  length := rfl
  list := by simp [Buffer.toList_ofList]
  unread := rfl
  connected := rfl
  finished := by simp
  ran := by simp
  waiting := by simp

theorem filter_erase (hnodup : tasks.Nodup) :
    (tasks.filter (· ∉ done)).erase u = tasks.filter (· ∉ done ++ [u]) := by
  rw [(hnodup.filter _).erase_eq_filter, List.filter_filter]
  apply List.filter_congr
  intro t _
  rw [Bool.eq_iff_iff]
  simp [and_comm]

theorem subtaskCompleted_eq (h : Intact tasks k done s) (hnodup : tasks.Nodup)
    (hu : u ∈ tasks.take k) (hd : u ∉ done) :
    subtaskCompleted s u = onCompleted { s with log := s.log ++ [.finished u] } u := by
  have hone : s.connected.filter (· = u) = [u] := by
    have hcount : (tasks.take k).count u = 1 :=
      List.count_eq_one_of_mem (hnodup.sublist (List.take_sublist _ _)) hu
    rw [h.connected, List.filter_eq, hcount]
    rfl
  rw [subtaskCompleted, if_pos ⟨h.connected ▸ hu, fun hlog => hd ((h.finished u).mp hlog)⟩, hone]
  rfl

theorem toList_onCompleted (h : Intact tasks k done s) (hnodup : tasks.Nodup) :
    (s.tasks.removeOne u).toList = tasks.filter (· ∉ done ++ [u]) := by
  rw [Buffer.toList_removeOne h.fits, h.list, filter_erase hnodup]

/-- A completion that leaves other subtasks, and the slots that are still to be read. -/
theorem Intact.complete (h : Intact tasks k done s) (hnodup : tasks.Nodup)
    (hu : u ∈ tasks.take k) (hd : u ∉ done) (hleft : ∃ t ∈ tasks, t ∉ done ++ [u])
    (hslots : (s.tasks.removeOne u).slots.drop k = s.tasks.slots.drop k) :
    Intact tasks k (done ++ [u]) (subtaskCompleted s u) ∧
      (subtaskCompleted s u).tasks = s.tasks.removeOne u := by
  have hfits : (s.tasks.removeOne u).Fits := h.fits.removeOne u
  have hlist := toList_onCompleted (u := u) h hnodup
  have hsize : (s.tasks.removeOne u).size ≠ 0 := by
    obtain ⟨t, ht, hnot⟩ := hleft
    rw [← hfits.length_toList, hlist]
    intro hzero
    rw [List.length_eq_zero_iff, List.filter_eq_nil_iff] at hzero
    exact hzero t ht (by simpa using hnot)
  have heq : subtaskCompleted s u =
      { s with tasks := s.tasks.removeOne u, log := s.log ++ [.finished u] } := by
    rw [subtaskCompleted_eq h hnodup hu hd, onCompleted, maybeComplete, if_neg hsize]
  rw [heq]
  refine ⟨⟨hfits, ?_, hlist, hslots.trans h.unread, h.connected, ?_, ?_, ?_⟩, rfl⟩
  · exact (Buffer.length_slots_removeOne h.fits u).trans h.length
  · intro t
    simp [h.finished t]
  · intro t
    simp [h.ran t]
  · simp [h.waiting]

theorem Intact.complete_last (h : Intact tasks k done s) (hnodup : tasks.Nodup)
    (hu : u ∈ tasks.take k) (hd : u ∉ done) (hall : ∀ t ∈ tasks, t ∈ done ++ [u]) :
    (subtaskCompleted s u).tasks.size = 0 ∧
      (subtaskCompleted s u).log = s.log ++ [.finished u] ++ [.completed] := by
  have hfits : (s.tasks.removeOne u).Fits := h.fits.removeOne u
  have hsize : (s.tasks.removeOne u).size = 0 := by
    rw [← hfits.length_toList, toList_onCompleted h hnodup, List.length_eq_zero_iff,
      List.filter_eq_nil_iff]
    intro t ht
    simpa [or_iff_not_imp_left] using hall t ht
  rw [subtaskCompleted_eq h hnodup hu hd, onCompleted, maybeComplete, if_pos hsize]
  exact ⟨hsize, rfl⟩

theorem Intact.begin_turn (h : Intact tasks k done s) {t : α} (ht : tasks[k]? = some t) :
    s.tasks.slots[k]? = some t ∧
      Intact tasks (k + 1) done
        { s with connected := s.connected ++ [t], log := s.log ++ [.ran t] } := by
  have hslot : s.tasks.slots[k]? = some t := by
    rw [← Nat.add_zero k, ← List.getElem?_drop, h.unread, List.getElem?_drop, Nat.add_zero, ht]
  have htake : tasks.take (k + 1) = tasks.take k ++ [t] := by
    rw [List.take_add_one, ht, Option.toList_some]
  refine ⟨hslot, h.fits, h.length, h.list, ?_, ?_, ?_, ?_, ?_⟩
  · rw [← List.drop_drop, h.unread, List.drop_drop]
  · rw [h.connected, htake]
  · intro t'
    simp [h.finished t']
  · intro t'
    rw [htake]
    simp [h.ran t', List.count_append, List.count_cons]
  · simp [h.waiting]

theorem Intact.foldl_complete (h : Intact tasks k done s) (hnodup : tasks.Nodup)
    (hk : tasks.length ≤ k + 1) {l : List α} (hl : ∀ u ∈ l, u ∈ tasks.take k)
    (honce : (done ++ l).Nodup) (hleft : ∃ t ∈ tasks, t ∉ done ++ l) :
    Intact tasks k (done ++ l) (l.foldl subtaskCompleted s) := by
  induction l generalizing done s with
  | nil => simpa using h
  | cons u l ih =>
    obtain ⟨t, ht, hnot⟩ := hleft
    have hd : u ∉ done := fun hmem =>
      List.disjoint_of_nodup_append honce hmem List.mem_cons_self
    have hleft' : ∃ t ∈ tasks, t ∉ done ++ [u] := by
      refine ⟨t, ht, fun hmem => hnot ?_⟩
      rw [List.append_cons]
      exact List.mem_append_left _ hmem
    have hslots := Buffer.drop_slots_removeOne (a := u) h.fits (h.length ▸ hk)
    have hnext := (h.complete hnodup (hl u (by simp)) hd hleft' hslots).1
    rw [List.foldl_cons, List.append_cons]
    rw [List.append_cons] at honce hnot
    exact ih hnext (fun v hv => hl v (by simp [hv])) honce ⟨t, ht, hnot⟩

/-! ## Completions from the front -/

/-- So far the subtasks completed in the order of the list, and no slot was touched. -/
structure Front (tasks : List α) (k : ℕ) (done : List α) (s : State α) : Prop
    extends Intact tasks k done s where
  buffer : s.tasks = ⟨tasks, done.length, tasks.length - done.length⟩
  inOrder : done <+: tasks

theorem front_init : Front tasks 0 [] { tasks := .ofList tasks } :=
  ⟨intact_init, rfl, List.nil_prefix⟩

theorem Front.toList (h : Front tasks k done s) : s.tasks.toList = tasks.drop done.length := by
  rw [h.buffer, Buffer.toList]
  exact List.take_of_length_le (by simp)

omit [DecidableEq α] in
/-- A subtask that `run` has not come to is not among the ones it has run. -/
theorem not_mem_of_unread (hnodup : tasks.Nodup) {t : α} (ht : tasks[k]? = some t) :
    t ∉ tasks.take k := by
  intro hmem
  obtain ⟨j, hj⟩ := List.mem_iff_getElem?.mp hmem
  rw [List.getElem?_take] at hj
  split_ifs at hj with hlt
  have hlt' := (List.getElem?_eq_some_iff.mp hj).1
  have := (List.getElem?_inj hlt' hnodup).mp (hj.trans ht.symm)
  omega

theorem Front.complete (h : Front tasks k done s) (hnodup : tasks.Nodup) (hk : k < tasks.length)
    (hu : u ∈ tasks.take k) (hd : u ∉ done) (hdone : ∀ t ∈ done, t ∈ tasks.take k)
    (hfront : done ++ [u] <+: tasks) : Front tasks k (done ++ [u]) (subtaskCompleted s u) := by
  have hunread : tasks[k] ∉ tasks.take k := not_mem_of_unread hnodup (List.getElem?_eq_getElem hk)
  have hleft : tasks[k] ∉ done ++ [u] := by
    intro hmem
    rcases List.mem_append.mp hmem with hmem | hmem
    · exact hunread (hdone _ hmem)
    · exact hunread (List.mem_singleton.mp hmem ▸ hu)
  obtain ⟨rest, hrest⟩ := hfront
  have hlist : s.tasks.toList = u :: rest := by
    rw [h.toList, ← hrest, List.append_assoc, List.drop_left, List.singleton_append]
  have hne : rest ≠ [] := by
    rintro rfl
    rw [List.append_nil] at hrest
    exact hleft (hrest ▸ List.getElem_mem hk)
  have hremove := Buffer.removeOne_of_head h.fits hlist hne
  obtain ⟨hnext, hbuffer⟩ := h.toIntact.complete hnodup hu hd
    ⟨_, List.getElem_mem hk, hleft⟩ (by rw [hremove])
  refine ⟨hnext, ?_, rest, hrest⟩
  rw [hbuffer, hremove, h.buffer, List.length_append, List.length_singleton]
  simp only [Buffer.mk.injEq, true_and]
  omega

end Intact

/-! ## Skipped subtasks -/

section Skipped

variable {tasks : List α} {k : ℕ} {done : List α} {s : State α} {u x : α}

/-- `run` has not run the subtask `x`, and does not find it in any slot from `k` on. -/
structure Skipped (k : ℕ) (x : α) (s : State α) : Prop where
  fits : s.tasks.Fits
  unread : x ∉ s.tasks.slots.drop k
  ran : .ran x ∉ s.log

omit [DecidableEq α] in
theorem Skipped.maybeComplete (h : Skipped k x s) : Skipped k x (maybeComplete s) := by
  unfold TaskGroup.maybeComplete
  split_ifs
  · exact ⟨h.fits, h.unread, by simp [h.ran]⟩
  · exact h

theorem Skipped.onCompleted (h : Skipped k x s) (u : α) : Skipped k x (onCompleted s u) := by
  have hs : Skipped k x { s with tasks := s.tasks.removeOne u } :=
    ⟨h.fits.removeOne u, fun hmem => h.unread (Buffer.mem_drop_removeOne h.fits hmem), h.ran⟩
  exact hs.maybeComplete

theorem Skipped.subtaskCompleted (h : Skipped k x s) (u : α) :
    Skipped k x (subtaskCompleted s u) := by
  unfold TaskGroup.subtaskCompleted
  split_ifs
  · have hs : Skipped k x { s with log := s.log ++ [.finished u] } :=
      ⟨h.fits, h.unread, by simp [h.ran]⟩
    exact Runs.foldl_invariant (fun _ t ht => ht.onCompleted t) hs _
  · exact h

theorem Skipped.foldl_subtaskCompleted (h : Skipped k x s) (l : List α) :
    Skipped k x (l.foldl TaskGroup.subtaskCompleted s) :=
  Runs.foldl_invariant (fun _ t ht => ht.subtaskCompleted t) h l

theorem Skipped.turn (h : Skipped k x s) (inside : α → List α) {j : ℕ} (hj : k ≤ j) :
    Skipped k x (turn inside s j) := by
  unfold TaskGroup.turn
  cases ht : s.tasks.slots[j]? with
  | none => exact h
  | some t =>
    have hne : t ≠ x := by
      rintro rfl
      refine h.unread (List.mem_iff_getElem?.mpr ⟨j - k, ?_⟩)
      rw [List.getElem?_drop, show k + (j - k) = j by omega, ht]
    have hs : Skipped k x { s with connected := s.connected ++ [t], log := s.log ++ [.ran t] } :=
      ⟨h.fits, h.unread, by simp [h.ran, hne.symm]⟩
    exact hs.foldl_subtaskCompleted _

/-- **Skipping.** When a subtask completes that is not the first of the list, and two more are to be
run, the next one is skipped. -/
theorem Front.skips (h : Front tasks k done s) (hnodup : tasks.Nodup)
    (hk : k + 1 < tasks.length) (hu : u ∈ tasks.take k) (hd : u ∉ done)
    (hfront : ¬done ++ [u] <+: tasks) :
    ∃ x ∈ tasks, Skipped k x (subtaskCompleted s u) := by
  have hx : tasks[k]? = some tasks[k] := List.getElem?_eq_getElem _
  refine ⟨tasks[k], List.getElem_mem _, ?_⟩
  obtain ⟨p, hp⟩ := List.mem_iff_getElem?.mp hu
  rw [List.getElem?_take] at hp
  split_ifs at hp with hpk
  obtain ⟨rest, hrest⟩ := h.inOrder
  have hdone : done.length ≤ p := by
    by_contra hlt
    rw [← hrest, List.getElem?_append_left (by omega)] at hp
    exact hd (List.mem_of_getElem? hp)
  have hindex : s.tasks.toList[p - done.length]? = some u := by
    rw [h.toList, List.getElem?_drop, show done.length + (p - done.length) = p by omega, hp]
  have hhead : s.tasks.toList.head? ≠ some u := by
    intro hhead
    apply hfront
    rw [h.toList, ← hrest, List.drop_left] at hhead
    obtain ⟨rest', rfl⟩ := List.head?_eq_some_iff.mp hhead
    exact ⟨rest', by rw [← List.append_cons, hrest]⟩
  have hstart : s.tasks.start = done.length := by rw [h.buffer]
  have hend : s.tasks.start + s.tasks.size = s.tasks.slots.length := by
    have hle := List.IsPrefix.length_le ⟨rest, hrest⟩
    rw [h.buffer]
    dsimp only
    omega
  have hskip : Skipped k tasks[k]
      { s with tasks := s.tasks.removeOne u, log := s.log ++ [.finished u] } := by
    refine ⟨h.fits.removeOne u, fun hmem => ?_, ?_⟩
    · have hmem := Buffer.mem_drop_removeOne_of_shift h.fits hend hindex hhead (by omega)
        (h.length ▸ hk) hmem
      rw [← List.drop_drop, h.unread, List.drop_drop] at hmem
      obtain ⟨j, hj⟩ := List.mem_iff_getElem?.mp hmem
      rw [List.getElem?_drop] at hj
      have hlt := (List.getElem?_eq_some_iff.mp hj).1
      have := (List.getElem?_inj hlt hnodup).mp (hj.trans hx.symm)
      omega
    · have hran := h.ran tasks[k]
      rw [List.count_eq_zero_of_not_mem (not_mem_of_unread hnodup hx), List.count_eq_zero] at hran
      simp [hran]
  rw [subtaskCompleted_eq h.toIntact hnodup hu hd, onCompleted]
  exact hskip.maybeComplete

/-- The completions inside of one `run`, while at least two subtasks are still to be run. -/
theorem Front.foldl_complete (h : Front tasks k done s) (hnodup : tasks.Nodup)
    (hk : k + 1 < tasks.length) (hdone : ∀ t ∈ done, t ∈ tasks.take k) {l : List α}
    (hl : ∀ u ∈ l, u ∈ tasks.take k) (honce : (done ++ l).Nodup) :
    Front tasks k (done ++ l) (l.foldl subtaskCompleted s) ∨
      ¬done ++ l <+: tasks ∧ ∃ x ∈ tasks, Skipped k x (l.foldl subtaskCompleted s) := by
  induction l generalizing done s with
  | nil => exact .inl (by simpa using h)
  | cons u l ih =>
    have hd : u ∉ done := fun hmem =>
      List.disjoint_of_nodup_append honce hmem List.mem_cons_self
    rw [List.foldl_cons, List.append_cons]
    rw [List.append_cons] at honce
    by_cases hfront : done ++ [u] <+: tasks
    · have hnext := h.complete hnodup (by omega) (hl u (by simp)) hd hdone hfront
      refine ih hnext (fun t ht => ?_) (fun v hv => hl v (by simp [hv])) honce
      rcases List.mem_append.mp ht with ht | ht
      · exact hdone t ht
      · exact List.mem_singleton.mp ht ▸ hl u (by simp)
    · obtain ⟨x, hx, hskip⟩ := h.skips hnodup hk (hl u (by simp)) hd hfront
      exact .inr ⟨fun hpre => hfront ((List.prefix_append _ _).trans hpre), x, hx,
        hskip.foldl_subtaskCompleted l⟩

end Skipped

/-! ## Whole runs -/

section Runs

variable {tasks : List α} (P : Pattern tasks)

/-- The completions inside of the first `k` calls of `run`. -/
def Pattern.doneAfter (k : ℕ) : List α := (tasks.take k).flatMap P.inside

/-- The state after the first `k` turns. -/
def afterTurns (k : ℕ) : State α :=
  (List.range k).foldl (turn P.inside) { tasks := .ofList tasks }

omit [DecidableEq α] in
theorem Pattern.doneAfter_succ {k : ℕ} {t : α} (ht : tasks[k]? = some t) :
    P.doneAfter (k + 1) = P.doneAfter k ++ P.inside t := by
  simp [doneAfter, List.take_add_one, ht]

omit [DecidableEq α] in
theorem Pattern.doneAfter_length : P.doneAfter tasks.length = tasks.flatMap P.inside := by
  simp [doneAfter]

omit [DecidableEq α] in
theorem Pattern.mem_take_of_done {k : ℕ} {u : α} (hu : u ∈ P.doneAfter k) : u ∈ tasks.take k := by
  obtain ⟨t, ht, hu⟩ := List.mem_flatMap.mp hu
  obtain ⟨j, hj⟩ := List.mem_iff_getElem?.mp ht
  rw [List.getElem?_take] at hj
  split_ifs at hj with hjk
  exact List.take_subset_take_left _ (by omega) (P.started j t hj u hu)

omit [DecidableEq α] in
theorem Pattern.doneAfter_initial (k : ℕ) : P.doneAfter k <+: tasks.flatMap P.inside := by
  refine ⟨(tasks.drop k).flatMap P.inside, ?_⟩
  rw [doneAfter, ← List.flatMap_append, List.take_append_drop]

omit [DecidableEq α] in
theorem Pattern.nodup_all : (tasks.flatMap P.inside ++ P.later).Nodup :=
  P.once.nodup_iff.mpr P.nodup

omit [DecidableEq α] in
theorem Pattern.nodup_done (k : ℕ) : (P.doneAfter k).Nodup :=
  (List.nodup_append.mp P.nodup_all).1.sublist (P.doneAfter_initial k).sublist

theorem afterTurns_succ (k : ℕ) : afterTurns P (k + 1) = turn P.inside (afterTurns P k) k := by
  simp [afterTurns, List.range_succ]

theorem execute_eq :
    execute P = P.later.foldl subtaskCompleted (maybeComplete (afterTurns P tasks.length)) := by
  rw [execute, run, afterTurns, List.range_eq_range']
  rfl

theorem Intact.turn_eq {k : ℕ} {done : List α} {s : State α} (h : Intact tasks k done s) {t : α}
    (ht : tasks[k]? = some t) :
    turn P.inside s k = (P.inside t).foldl subtaskCompleted
      { s with connected := s.connected ++ [t], log := s.log ++ [.ran t] } := by
  rw [turn, (h.begin_turn ht).1]

omit [DecidableEq α] in
theorem Skipped.mono {j k : ℕ} {x : α} {s : State α} (h : Skipped j x s) (hjk : j ≤ k) :
    Skipped k x s :=
  ⟨h.fits, fun hmem => h.unread ((List.drop_sublist_drop_left _ hjk).subset hmem), h.ran⟩

theorem front_or_skipped {k : ℕ} (hk : k + 1 < tasks.length ∨ k = 0) :
    Front tasks k (P.doneAfter k) (afterTurns P k) ∨
      ¬P.doneAfter k <+: tasks ∧ ∃ x ∈ tasks, Skipped k x (afterTurns P k) := by
  induction k with
  | zero => exact .inl front_init
  | succ k ih =>
    have hlt : k < tasks.length := by omega
    have ht : tasks[k]? = some tasks[k] := List.getElem?_eq_getElem hlt
    have hdone := P.doneAfter_succ ht
    rw [afterTurns_succ, hdone]
    obtain h | ⟨hpre, x, hx, hskip⟩ := ih (by omega)
    · have hbegin : Front tasks (k + 1) (P.doneAfter k)
          { afterTurns P k with
            connected := (afterTurns P k).connected ++ [tasks[k]]
            log := (afterTurns P k).log ++ [.ran tasks[k]] } :=
        ⟨(h.toIntact.begin_turn ht).2, h.buffer, h.inOrder⟩
      rw [h.toIntact.turn_eq P ht]
      refine hbegin.foldl_complete P.nodup (by omega) (fun t hmem => ?_) (P.started k _ ht) ?_
      · exact List.take_subset_take_left _ (by omega) (P.mem_take_of_done hmem)
      · exact hdone ▸ P.nodup_done (k + 1)
    · refine .inr ⟨fun h => hpre ((List.prefix_append _ _).trans h), x, hx, ?_⟩
      exact (hskip.turn P.inside (Nat.le_refl k)).mono (by omega)

theorem intact_of_front {k : ℕ} (hfront : P.doneAfter (tasks.length - 2) <+: tasks)
    (hk : tasks.length ≤ k + 2) (hlt : k < tasks.length) :
    Intact tasks k (P.doneAfter k) (afterTurns P k) := by
  have hstart : Intact tasks (tasks.length - 2) (P.doneAfter (tasks.length - 2))
      (afterTurns P (tasks.length - 2)) := by
    obtain h | ⟨hnot, -⟩ := front_or_skipped P (k := tasks.length - 2) (by omega)
    · exact h.toIntact
    · exact absurd hfront hnot
  obtain rfl | ⟨hne, rfl⟩ : k = tasks.length - 2 ∨ 2 ≤ tasks.length ∧ k = tasks.length - 2 + 1 := by
    omega
  · exact hstart
  · have hlt' : tasks.length - 2 < tasks.length := by omega
    have ht : tasks[tasks.length - 2]? = some tasks[tasks.length - 2] :=
      List.getElem?_eq_getElem hlt'
    have hdone := P.doneAfter_succ ht
    have hnext := hdone ▸ P.nodup_done (tasks.length - 2 + 1)
    have hleft : tasks[tasks.length - 2 + 1] ∉ P.doneAfter (tasks.length - 2 + 1) := fun hmem =>
      not_mem_of_unread P.nodup (List.getElem?_eq_getElem hlt) (P.mem_take_of_done hmem)
    rw [afterTurns_succ, hstart.turn_eq P ht, hdone]
    exact (hstart.begin_turn ht).2.foldl_complete P.nodup (by omega) (P.started _ _ ht) hnext
      ⟨_, List.getElem_mem hlt, hdone ▸ hleft⟩

/-- The last subtask has been run, and the completions inside of its `run` are to come. -/
theorem intact_last {m : ℕ} (hm : tasks.length = m + 1)
    (hfront : P.doneAfter (tasks.length - 2) <+: tasks) :
    ∃ t s, tasks[m]? = some t ∧ Intact tasks (m + 1) (P.doneAfter m) s ∧
      afterTurns P (m + 1) = (P.inside t).foldl subtaskCompleted s := by
  have ht : tasks[m]? = some tasks[m] := List.getElem?_eq_getElem _
  have h := intact_of_front P (k := m) hfront (by omega) (by omega)
  refine ⟨_, _, ht, (h.begin_turn ht).2, ?_⟩
  rw [afterTurns_succ, h.turn_eq P ht]

omit [DecidableEq α] in
theorem Pattern.mem_of_later {u : α} (hu : u ∈ P.later) :
    u ∈ tasks ∧ u ∉ tasks.flatMap P.inside :=
  ⟨P.once.mem_iff.mp (List.mem_append_right _ hu), fun hmem =>
    List.disjoint_of_nodup_append P.nodup_all hmem hu⟩

/-- The group is correct when a subtask is left after `run` and no slot was touched too early. -/
theorem correct_of_front (hlater : P.later ≠ [])
    (hfront : P.doneAfter (tasks.length - 2) <+: tasks) : Correct tasks (execute P).log := by
  obtain ⟨l, u, hl⟩ := (List.eq_nil_or_concat' P.later).resolve_left hlater
  have hu := P.mem_of_later (u := u) (by simp [hl])
  obtain ⟨m, hm⟩ : ∃ m, tasks.length = m + 1 :=
    Nat.exists_eq_succ_of_ne_zero (Nat.ne_of_gt (List.length_pos_of_mem hu.1))
  have htake : tasks.take (m + 1) = tasks := by rw [← hm, List.take_length]
  obtain ⟨t, s, ht, hs, hturns⟩ := intact_last P hm hfront
  have hdone : P.doneAfter m ++ P.inside t = tasks.flatMap P.inside := by
    rw [← P.doneAfter_succ ht, ← hm, P.doneAfter_length]
  have hall := P.nodup_all
  rw [hl, ← List.append_assoc] at hall
  have hrun : Intact tasks (m + 1) (tasks.flatMap P.inside) (afterTurns P (m + 1)) := by
    rw [hturns, ← hdone]
    exact hs.foldl_complete P.nodup (by omega) (P.started m t ht)
      (hdone ▸ (List.nodup_append.mp P.nodup_all).1) ⟨u, hu.1, hdone ▸ hu.2⟩
  have hsize : (afterTurns P (m + 1)).tasks.size ≠ 0 := by
    rw [← hrun.fits.length_toList, hrun.list]
    have hmem : u ∈ tasks.filter (· ∉ tasks.flatMap P.inside) := by
      rw [List.mem_filter, decide_eq_true_iff]
      exact hu
    exact Nat.ne_of_gt (List.length_pos_of_mem hmem)
  have hrest : Intact tasks (m + 1) (tasks.flatMap P.inside ++ l)
      (l.foldl subtaskCompleted (afterTurns P (m + 1))) := by
    refine hrun.foldl_complete P.nodup (by omega) (fun v hv => ?_)
      (List.nodup_append.mp hall).1 ⟨u, hu.1, ?_⟩
    · rw [htake]
      exact (P.mem_of_later (by simp [hl, hv])).1
    · exact fun hmem => List.disjoint_of_nodup_append hall hmem (by simp)
  have hlast : u ∈ tasks.take (m + 1) := by
    rw [htake]
    exact hu.1
  have hfinished : ∀ v ∈ tasks, v ∈ tasks.flatMap P.inside ++ l ++ [u] := by
    intro v hv
    rw [List.append_assoc, ← hl]
    exact P.once.mem_iff.mpr hv
  obtain ⟨-, hlog⟩ := hrest.complete_last P.nodup hlast
    (fun hmem => List.disjoint_of_nodup_append hall hmem (by simp)) hfinished
  rw [execute_eq, hm, maybeComplete, if_neg hsize, hl, List.foldl_append, List.foldl_cons,
    List.foldl_nil, hlog]
  refine ⟨fun v hv => ?_, _, rfl, ?_, fun v hv => ?_⟩
  · have hcount : tasks.count v = 1 := List.count_eq_one_of_mem P.nodup hv
    have hran := hrest.ran v
    rw [htake, hcount] at hran
    rw [List.append_assoc, List.count_append, hran]
    rfl
  · simp [hrest.waiting]
  · have hv' := hfinished v hv
    rw [List.mem_append, List.mem_singleton] at hv'
    rcases hv' with hv' | rfl
    · exact List.mem_append_left _ ((hrest.finished v).mpr hv')
    · simp

/-- When all subtasks complete inside of `run`, the last handler emits `completed`, and `run` emits
it again. -/
theorem not_correct_of_all_inside (hne : tasks ≠ []) (hlater : P.later = [])
    (hfront : P.doneAfter (tasks.length - 2) <+: tasks) : ¬Correct tasks (execute P).log := by
  obtain ⟨m, hm⟩ : ∃ m, tasks.length = m + 1 :=
    Nat.exists_eq_succ_of_ne_zero (Nat.ne_of_gt (List.length_pos_iff.mpr hne))
  obtain ⟨t, s, ht, hs, hturns⟩ := intact_last P hm hfront
  have hdone : P.doneAfter m ++ P.inside t = tasks.flatMap P.inside := by
    rw [← P.doneAfter_succ ht, ← hm, P.doneAfter_length]
  have honce : tasks.flatMap P.inside ~ tasks := by simpa [hlater] using P.once
  -- the last subtask completes inside of its own `run`
  have hinside : P.inside t ≠ [] := by
    intro hnil
    rw [hnil, List.append_nil] at hdone
    refine not_mem_of_unread P.nodup ht (P.mem_take_of_done ?_)
    rw [hdone]
    exact honce.mem_iff.mpr (List.mem_of_getElem? ht)
  obtain ⟨l, u, hl⟩ := (List.eq_nil_or_concat' _).resolve_left hinside
  have hnodup : (P.doneAfter m ++ l ++ [u]).Nodup := by
    rw [List.append_assoc, ← hl, hdone]
    exact honce.nodup_iff.mpr P.nodup
  have hfinished : ∀ v ∈ tasks, v ∈ P.doneAfter m ++ l ++ [u] := by
    intro v hv
    rw [List.append_assoc, ← hl, hdone]
    exact honce.mem_iff.mpr hv
  have hstarted := P.started m t ht
  rw [hl] at hstarted
  have hu := hstarted u (by simp)
  have hnot : u ∉ P.doneAfter m ++ l := fun hmem =>
    List.disjoint_of_nodup_append hnodup hmem (by simp)
  have hrest : Intact tasks (m + 1) (P.doneAfter m ++ l) (l.foldl subtaskCompleted s) :=
    hs.foldl_complete P.nodup (by omega) (fun v hv => hstarted v (by simp [hv]))
      (List.nodup_append.mp hnodup).1 ⟨u, List.mem_of_mem_take hu, hnot⟩
  obtain ⟨hsize, hlog⟩ := hrest.complete_last P.nodup hu hnot hfinished
  rintro ⟨-, before, hbefore, hcompleted, -⟩
  rw [execute_eq, hlater, List.foldl_nil, hm, hturns, hl, List.foldl_append, List.foldl_cons,
    List.foldl_nil, maybeComplete, if_pos hsize, hlog] at hbefore
  obtain ⟨rfl, -⟩ := List.append_inj' hbefore rfl
  exact hcompleted (by simp)

theorem not_correct_of_skipped (hfront : ¬P.doneAfter (tasks.length - 2) <+: tasks) :
    ¬Correct tasks (execute P).log := by
  intro hcorrect
  obtain h | ⟨-, x, hx, hskip⟩ := front_or_skipped P (k := tasks.length - 2) (by omega)
  · exact hfront h.inOrder
  · have hturns : ∀ d, Skipped (tasks.length - 2) x (afterTurns P (tasks.length - 2 + d)) := by
      intro d
      induction d with
      | zero => exact hskip
      | succ d ih =>
        rw [← Nat.add_assoc, afterTurns_succ]
        exact ih.turn P.inside (by omega)
    have hlast := hturns (tasks.length - (tasks.length - 2))
    rw [show tasks.length - 2 + (tasks.length - (tasks.length - 2)) = tasks.length by omega] at hlast
    have hend := hlast.maybeComplete.foldl_subtaskCompleted P.later
    rw [← execute_eq] at hend
    have hran := hcorrect.ran x hx
    rw [List.count_eq_zero_of_not_mem hend.ran] at hran
    omega

/-- **Task groups.** Every subtask is run once and `completed` is emitted once, after the last of
them, exactly when the group is empty, or a subtask completes after `run` and the subtasks that
complete before the last but one is run do so in the order of the list. -/
theorem group_correct_iff :
    Correct tasks (execute P).log ↔ tasks = [] ∨
      P.later ≠ [] ∧ (tasks.take (tasks.length - 2)).flatMap P.inside <+: tasks := by
  constructor
  · intro h
    by_contra hnot
    rw [not_or, not_and_or, not_not] at hnot
    obtain ⟨hne, hnot⟩ := hnot
    by_cases hfront : P.doneAfter (tasks.length - 2) <+: tasks
    · exact not_correct_of_all_inside P hne (hnot.resolve_right fun h => h hfront) hfront h
    · exact not_correct_of_skipped P hfront h
  · rintro (rfl | ⟨hlater, hfront⟩)
    · have hlater : P.later = [] := List.nil_perm.mp P.once.symm
      rw [execute, hlater]
      exact ⟨by simp, [], rfl, by simp, by simp⟩
    · exact correct_of_front P hlater hfront

end Runs

/-! ### Two groups -/

/-- A group of one subtask that completes at once. -/
def atOnce : Pattern [0] where
  inside _ := [0]
  later := []
  nodup := by decide
  once := by decide
  started k t ht u hu := by
    obtain rfl : k = 0 := by
      have hlt := (List.getElem?_eq_some_iff.mp ht).1
      simpa using hlt
    simpa using hu

/-- A group of four subtasks of which the second completes at once. -/
def secondAtOnce : Pattern [0, 1, 2, 3] where
  inside t := if t = 1 then [1] else []
  later := [0, 2, 3]
  nodup := by decide
  once := by decide
  started k t ht u hu := by
    split_ifs at hu with h
    · subst h
      obtain rfl : k = 1 := (List.getElem?_inj (i := k) (j := 1)
        (List.getElem?_eq_some_iff.mp ht).1 (by decide)).mp (ht.trans rfl)
      simp_all
    · simp at hu

/-- The first group emits `completed` twice; in the second one a subtask is never run, the next one
is run twice, and `completed` is never emitted. -/
theorem groups_not_correct :
    (execute atOnce).log = [.ran 0, .finished 0, .completed, .completed] ∧
    ¬Correct [0] (execute atOnce).log ∧
    (execute secondAtOnce).log.count (.ran 2) = 0 ∧
    (execute secondAtOnce).log.count (.ran 3) = 2 ∧
    .completed ∉ (execute secondAtOnce).log ∧
    ¬Correct [0, 1, 2, 3] (execute secondAtOnce).log := by
  have hlog : (execute atOnce).log = [.ran 0, .finished 0, .completed, .completed] := by decide
  have hran : (execute secondAtOnce).log.count (.ran 2) = 0 := by decide
  refine ⟨hlog, ?_, hran, by decide, by decide, fun h => ?_⟩
  · exact not_correct_of_all_inside atOnce (by decide) rfl (by decide)
  · have := h.ran 2 (by decide)
    omega

/-! ## The policy of a group -/

/-- `TaskGroup::deletePolicy`, from the policies of the subtasks. -/
def deletePolicy (subtasks : List DeletePolicy) : DeletePolicy :=
  if .nonDeletable ∈ subtasks then .nonDeletable
  else if subtasks.count .reschedulable = subtasks.length then .reschedulable
  else if subtasks.count .reschedulable = 0 then .deletable
  else .nonDeletable

theorem deletePolicy_eq_deletable_iff {subtasks : List DeletePolicy} :
    deletePolicy subtasks = .deletable ↔ subtasks ≠ [] ∧ ∀ p ∈ subtasks, p = .deletable := by
  unfold deletePolicy
  split_ifs with hnon hall hzero
  · refine iff_of_false (by decide) fun h => ?_
    exact absurd (h.2 _ hnon) (by decide)
  · refine iff_of_false (by decide) fun h => ?_
    obtain ⟨p, hp⟩ := List.exists_mem_of_ne_nil _ h.1
    rw [List.count_eq_length] at hall
    exact absurd ((hall p hp).trans (h.2 p hp)) (by decide)
  · refine iff_of_true rfl ⟨?_, fun p hp => ?_⟩
    · rintro rfl
      exact hall rfl
    · cases p with
      | deletable => rfl
      | nonDeletable => exact absurd hp hnon
      | reschedulable => exact absurd hp (List.count_eq_zero.mp hzero)
  · refine iff_of_false (by decide) fun h => hzero (List.count_eq_zero.mpr fun hmem => ?_)
    exact absurd (h.2 _ hmem) (by decide)

/-- `deleteTasks` keeps a group with a subtask that is not deletable. -/
theorem group_mem_held {s : TaskScheduler.State α} {policy : α → DeletePolicy} {group : α}
    (hgroup : group ∈ held s) {subtasks : List DeletePolicy}
    (hpolicy : policy group = deletePolicy subtasks) {p : DeletePolicy} (hp : p ∈ subtasks)
    (hkept : p ≠ .deletable) : group ∈ held (step s (.deleteTasks policy)) := by
  refine mem_held_deleteTasks hgroup fun hdel => hkept ?_
  rw [hpolicy, deletePolicy_eq_deletable_iff] at hdel
  exact hdel.2 p hp

end WgDesktop.TaskGroup
