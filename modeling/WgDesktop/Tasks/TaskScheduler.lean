import Mathlib.Data.Int.Notation
import Mathlib.Data.List.Perm.Basic
import WgDesktop.Lib.Nested
import WgDesktop.Lib.Runs

/-!
# `TaskScheduler`

The queue of tasks from `src/utils/taskscheduler.cpp`. One task runs at a time; `deleteTasks` drops
the deletable tasks and takes the reschedulable ones out of the queue until a zero-delay timer puts
them at its end. Every function calls `run()` last, so what a task calls while it starts comes after
all that the scheduler does itself (`Nested`).

`scheduler_run` says what holds along every run: one task at a time, started in the order of the
queue. `forceDelete_purges_iff` says when a forced deletion is complete: exactly when no timer holds
a task.
-/

namespace WgDesktop.TaskScheduler

open Runs
open scoped List

inductive DeletePolicy where
  | deletable
  | nonDeletable
  | reschedulable
  deriving DecidableEq, Repr

/-- The scheduler's fields, the timers that are pending, each with the task that it schedules, and
the history. -/
structure State (α : Type) where
  running : Option α := none
  tasks : List α := []
  paused : ℤ := 0
  timers : List α := []
  /-- The tasks given to `scheduleTask`. -/
  scheduled : List α := []
  /-- The tasks given to `scheduleTaskNow`, which runs them at once. -/
  immediate : List α := []
  /-- The tasks put in the queue, by `scheduleTask` or by a timer. -/
  entered : List α := []
  /-- The tasks of the queue on which `run` was called. -/
  started : List α := []
  /-- The tasks that completed or were cancelled after that. -/
  ended : List α := []
  /-- The tasks deleted in the queue. -/
  dropped : List α := []
  /-- The tasks for which a timer was set. -/
  rescheduled : List α := []
  deriving DecidableEq, Repr

variable {α : Type}

/-! ## The functions -/

/-- Takes the first task and runs it; what the task does in `run` follows. -/
def maybeRunTask (s : State α) : State α :=
  if s.running.isSome then s
  else
    match s.tasks with
    | [] => s
    | t :: tasks =>
      if s.paused > 0 then s
      else { s with running := some t, tasks := tasks, started := s.started ++ [t] }

def scheduleTaskInternal (s : State α) (t : α) : State α :=
  maybeRunTask { s with tasks := s.tasks ++ [t], entered := s.entered ++ [t] }

/-- The slot for `completed` of the running task `t`. -/
def taskCompleted (s : State α) (t : α) : State α :=
  maybeRunTask { s with running := none, ended := s.ended ++ [t] }

/-- One turn of the loop of `deleteTasksInternal`: a task that stays is put back. -/
def visit (forced : Bool) (policy : α → DeletePolicy) (s : State α) (t : α) : State α :=
  if forced then { s with dropped := s.dropped ++ [t] }
  else
    match policy t with
    | .deletable => { s with dropped := s.dropped ++ [t] }
    | .nonDeletable => { s with tasks := s.tasks ++ [t] }
    | .reschedulable =>
      { s with timers := s.timers ++ [t], rescheduled := s.rescheduled ++ [t] }

/-- The running task is cancelled and disconnected. -/
def cancelRunning (forced : Bool) (policy : α → DeletePolicy) (s : State α) : State α :=
  match s.running with
  | none => s
  | some t =>
    if forced ∨ policy t = .deletable then { s with running := none, ended := s.ended ++ [t] }
    else s

def deleteTasksInternal (forced : Bool) (policy : α → DeletePolicy) (s : State α) : State α :=
  let s := s.tasks.foldl (visit forced policy) { s with tasks := [] }
  maybeRunTask (cancelRunning forced policy s)

theorem foldl_visit_forced (policy : α → DeletePolicy) (ts : List α) (s : State α) :
    ts.foldl (visit true policy) s = { s with dropped := s.dropped ++ ts } := by
  induction ts generalizing s with
  | nil => simp
  | cons t ts ih => rw [List.foldl_cons, ih]; simp [visit]

theorem foldl_visit (policy : α → DeletePolicy) (ts : List α) (s : State α) :
    ts.foldl (visit false policy) s =
      { s with
        tasks := s.tasks ++ ts.filter (policy · = .nonDeletable)
        timers := s.timers ++ ts.filter (policy · = .reschedulable)
        dropped := s.dropped ++ ts.filter (policy · = .deletable)
        rescheduled := s.rescheduled ++ ts.filter (policy · = .reschedulable) } := by
  induction ts generalizing s with
  | nil => simp
  | cons t ts ih =>
    rw [List.foldl_cons, ih]
    cases h : policy t with
    | deletable => simp [visit, h]
    | nonDeletable => simp [visit, h]
    | reschedulable => simp [visit, h]

section Frame

variable (forced : Bool) (policy : α → DeletePolicy) (s : State α)

/-- Cancelling changes the running task and what has ended, nothing else. -/
theorem cancelRunning_eq :
    cancelRunning forced policy s =
      { s with
        running := (cancelRunning forced policy s).running
        ended := (cancelRunning forced policy s).ended } := by
  unfold cancelRunning
  cases s.running with
  | none => simp
  | some t =>
    by_cases h : forced ∨ policy t = .deletable
    · simp [h]
    · simp [h]

@[simp] theorem tasks_cancelRunning : (cancelRunning forced policy s).tasks = s.tasks := by
  rw [cancelRunning_eq]

@[simp] theorem timers_cancelRunning : (cancelRunning forced policy s).timers = s.timers := by
  rw [cancelRunning_eq]

end Frame

/-- Either nothing happens, or no task was running and the first of the queue starts. -/
theorem maybeRunTask_cases (s : State α) :
    maybeRunTask s = s ∧ (s.running ≠ none ∨ s.tasks = [] ∨ s.paused > 0) ∨
      ∃ t tasks, s.running = none ∧ s.tasks = t :: tasks ∧ s.paused ≤ 0 ∧
        maybeRunTask s =
          { s with running := some t, tasks := tasks, started := s.started ++ [t] } := by
  unfold maybeRunTask
  cases hrun : s.running with
  | some r => exact .inl (by simp)
  | none =>
    cases htasks : s.tasks with
    | nil => exact .inl (by simp)
    | cons t tasks =>
      by_cases hpaused : s.paused > 0
      · exact .inl (by simp [hpaused])
      · exact .inr ⟨t, tasks, rfl, rfl, by omega, by simp [hpaused]⟩

/-! ## Events -/

/-- What happens to the scheduler. The policies are those at the time of the call (that of a task
group changes while it runs), and any of the pending timers may be the next to fire. -/
inductive Event (α : Type) where
  | scheduleTask (t : α)
  | scheduleTaskNow (t : α)
  | deleteTasks (policy : α → DeletePolicy)
  | forceDeleteTasks
  | completed (t : α)
  | timeout (i : ℕ)
  | pause
  | resume

section Events

variable [DecidableEq α]

def step (s : State α) : Event α → State α
  | .scheduleTask t => scheduleTaskInternal { s with scheduled := s.scheduled ++ [t] } t
  | .scheduleTaskNow t => { s with immediate := s.immediate ++ [t] }
  | .deleteTasks policy => deleteTasksInternal false policy s
  | .forceDeleteTasks => deleteTasksInternal true (fun _ => .deletable) s
  -- only the running task is connected
  | .completed t => if s.running = some t then taskCompleted s t else s
  | .timeout i =>
    match s.timers[i]? with
    | none => s
    | some t => scheduleTaskInternal { s with timers := s.timers.eraseIdx i } t
  | .pause => { s with paused := s.paused + 1 }
  | .resume => maybeRunTask { s with paused := s.paused - 1 }

/-- Whether `run` is called at the end of the event. -/
def callsRun (s : State α) : Event α → Bool
  | .scheduleTaskNow _ => true
  | e => (step s e).started.length ≠ s.started.length

/-! ## The invariant -/

/-- What the fields and the history have to do with each other: the queue comes after what was
started from it, one task was running at a time, every task is somewhere, and only timers change the
order. -/
structure Inv (s : State α) : Prop where
  order : s.started ++ s.tasks <+ s.entered
  one : s.started = s.ended ++ s.running.toList
  conserved : s.scheduled ~ s.started ++ s.tasks ++ s.timers ++ s.dropped
  direct : s.entered.filter (· ∉ s.rescheduled) = s.scheduled.filter (· ∉ s.rescheduled)
  timed : ∀ t ∈ s.timers, t ∈ s.rescheduled

theorem inv_init : Inv ({} : State α) := by
  constructor
  all_goals simp

theorem Inv.maybeRunTask {s : State α} (h : Inv s) : Inv (maybeRunTask s) := by
  obtain ⟨heq, -⟩ | ⟨t, tasks, hrun, htasks, -, heq⟩ := maybeRunTask_cases s
  · rw [heq]
    exact h
  · obtain ⟨horder, hone, hconserved, hdirect, htimed⟩ := h
    rw [hrun] at hone
    rw [htasks] at horder hconserved
    rw [heq]
    refine ⟨?_, ?_, ?_, hdirect, htimed⟩
    · simpa using horder
    · simpa using hone
    · simpa using hconserved

theorem Inv.schedule {s : State α} (h : Inv s) (t : α) :
    Inv { s with
      scheduled := s.scheduled ++ [t]
      tasks := s.tasks ++ [t]
      entered := s.entered ++ [t] } := by
  obtain ⟨horder, hone, hconserved, hdirect, htimed⟩ := h
  refine ⟨?_, hone, ?_, ?_, htimed⟩
  · rw [← List.append_assoc]
    exact horder.append (List.Sublist.refl [t])
  · rw [List.perm_iff_count] at hconserved ⊢
    intro a
    have ha := hconserved a
    simp only [List.count_append] at ha ⊢
    omega
  · simp only [List.filter_append, hdirect]

theorem Inv.timeout {s : State α} (h : Inv s) {i : ℕ} {t : α} (hi : s.timers[i]? = some t) :
    Inv { s with
      timers := s.timers.eraseIdx i
      tasks := s.tasks ++ [t]
      entered := s.entered ++ [t] } := by
  obtain ⟨horder, hone, hconserved, hdirect, htimed⟩ := h
  obtain ⟨hlt, rfl⟩ := List.getElem?_eq_some_iff.mp hi
  have hperm : s.timers[i] :: s.timers.eraseIdx i ~ s.timers := List.getElem_cons_eraseIdx_perm hlt
  have hmem : s.timers[i] ∈ s.rescheduled := htimed _ (List.getElem_mem hlt)
  refine ⟨?_, hone, ?_, ?_, fun a ha => htimed a (List.mem_of_mem_eraseIdx ha)⟩
  · rw [← List.append_assoc]
    exact horder.append (List.Sublist.refl _)
  · rw [List.perm_iff_count] at hconserved hperm ⊢
    intro a
    have ha := hconserved a
    have ha' := hperm a
    simp only [List.count_append, List.count_cons, List.count_nil] at ha ha' ⊢
    omega
  · rw [List.filter_append, hdirect]
    simp [hmem]

theorem Inv.finish {s : State α} (h : Inv s) {t : α} (hrun : s.running = some t) :
    Inv { s with running := none, ended := s.ended ++ [t] } := by
  obtain ⟨horder, hone, hconserved, hdirect, htimed⟩ := h
  refine ⟨horder, ?_, hconserved, hdirect, htimed⟩
  rw [hone, hrun]
  simp

theorem count_policies (policy : α → DeletePolicy) (ts : List α) (a : α) :
    (ts.filter (policy · = .nonDeletable)).count a +
      (ts.filter (policy · = .reschedulable)).count a +
      (ts.filter (policy · = .deletable)).count a = ts.count a := by
  induction ts with
  | nil => simp
  | cons t ts ih =>
    cases h : policy t with
    | deletable => simp [h, List.count_cons]; omega
    | nonDeletable => simp [h, List.count_cons]; omega
    | reschedulable => simp [h, List.count_cons]; omega

theorem Inv.visit {s : State α} (h : Inv s) (policy : α → DeletePolicy) :
    Inv (s.tasks.foldl (visit false policy) { s with tasks := [] }) := by
  obtain ⟨horder, hone, hconserved, hdirect, htimed⟩ := h
  rw [foldl_visit]
  refine ⟨?_, hone, ?_, ?_, ?_⟩
  · have hsub : s.started ++ s.tasks.filter (policy · = .nonDeletable) <+ s.started ++ s.tasks :=
      (List.Sublist.refl _).append List.filter_sublist
    exact hsub.trans horder
  · rw [List.perm_iff_count] at hconserved ⊢
    intro a
    have ha := hconserved a
    have hcount := count_policies policy s.tasks a
    simp only [List.count_append, List.nil_append] at ha ⊢
    omega
  · -- a task that is rescheduled now counts in neither list any more
    have hfilter : ∀ l : List α,
        l.filter (· ∉ s.rescheduled ++ s.tasks.filter (policy · = .reschedulable)) =
          (l.filter (· ∉ s.rescheduled)).filter
            (· ∉ s.tasks.filter (policy · = .reschedulable)) := by
      intro l
      rw [List.filter_filter]
      congr 1
      funext a
      simp [Bool.and_comm]
    rw [hfilter, hfilter, hdirect]
  · intro t ht
    rcases List.mem_append.mp ht with ht | ht
    · exact List.mem_append_left _ (htimed t ht)
    · exact List.mem_append_right _ ht

theorem Inv.visit_forced {s : State α} (h : Inv s) (policy : α → DeletePolicy) :
    Inv (s.tasks.foldl (TaskScheduler.visit true policy) { s with tasks := [] }) := by
  obtain ⟨horder, hone, hconserved, hdirect, htimed⟩ := h
  rw [foldl_visit_forced]
  refine ⟨?_, hone, ?_, hdirect, htimed⟩
  · rw [List.append_nil]
    exact (List.sublist_append_left _ _).trans horder
  · rw [List.perm_iff_count] at hconserved ⊢
    intro a
    have ha := hconserved a
    simp only [List.count_append, List.append_nil] at ha ⊢
    omega

theorem Inv.cancelRunning {s : State α} (h : Inv s) (forced : Bool) (policy : α → DeletePolicy) :
    Inv (cancelRunning forced policy s) := by
  unfold TaskScheduler.cancelRunning
  cases hrun : s.running with
  | none => exact h
  | some t =>
    by_cases hcancel : forced ∨ policy t = .deletable
    · simp only [hcancel, if_true]
      exact h.finish hrun
    · simp only [hcancel, if_false]
      exact h

/-- **One event.** -/
theorem Inv.step {s : State α} (h : Inv s) (e : Event α) : Inv (step s e) := by
  cases e with
  | scheduleTask t => exact (h.schedule t).maybeRunTask
  | scheduleTaskNow t => exact ⟨h.order, h.one, h.conserved, h.direct, h.timed⟩
  | deleteTasks policy => exact ((h.visit policy).cancelRunning false policy).maybeRunTask
  | forceDeleteTasks => exact ((h.visit_forced _).cancelRunning true _).maybeRunTask
  | completed t =>
    rw [TaskScheduler.step]
    by_cases hrun : s.running = some t
    · rw [if_pos hrun]
      exact (h.finish hrun).maybeRunTask
    · rw [if_neg hrun]
      exact h
  | timeout i =>
    rw [TaskScheduler.step]
    cases hi : s.timers[i]? with
    | none => exact h
    | some t => exact (h.timeout hi).maybeRunTask
  | pause => exact ⟨h.order, h.one, h.conserved, h.direct, h.timed⟩
  | resume =>
    have hs : Inv { s with paused := s.paused - 1 } :=
      ⟨h.order, h.one, h.conserved, h.direct, h.timed⟩
    exact hs.maybeRunTask

/-! ## Runs -/

theorem inv_foldl (events : List (Event α)) : Inv (events.foldl TaskScheduler.step {}) :=
  foldl_invariant (fun _ e hs => hs.step e) inv_init events

/-- The tasks that the scheduler has not given up. -/
def held (s : State α) : List α := s.running.toList ++ s.tasks ++ s.timers

omit [DecidableEq α] in
theorem mem_held_maybeRunTask {s : State α} {t : α} :
    t ∈ held (maybeRunTask s) ↔ t ∈ held s := by
  obtain ⟨heq, -⟩ | ⟨u, tasks, hrun, htasks, -, heq⟩ := maybeRunTask_cases s
  · rw [heq]
  · rw [heq]
    simp [held, hrun, htasks]

/-- `deleteTasks` gives up deletable tasks only. -/
theorem mem_held_deleteTasks {s : State α} {policy : α → DeletePolicy} {t : α} (ht : t ∈ held s)
    (hpolicy : policy t ≠ .deletable) : t ∈ held (step s (.deleteTasks policy)) := by
  simp only [step, deleteTasksInternal, mem_held_maybeRunTask, foldl_visit]
  simp only [held, tasks_cancelRunning, timers_cancelRunning, List.mem_append, Option.mem_toList,
    List.mem_filter, decide_eq_true_eq, List.nil_append] at ht ⊢
  rcases ht with (ht | ht) | ht
  · simp [cancelRunning, ht, hpolicy]
  · -- in the queue it stays, or goes to a timer
    cases h : policy t with
    | deletable => exact absurd h hpolicy
    | nonDeletable => exact .inl (.inr ⟨ht, rfl⟩)
    | reschedulable => exact .inr (.inr ⟨ht, rfl⟩)
  · exact .inr (.inl ht)

/-- **The scheduler.** At every point of every run, with any calls made from inside the tasks that
are started: the tasks started from the queue are the ones that ended, in that order, and the one
that is running, if any; they were started in the order in which they entered the queue, those that
were never rescheduled in the order in which they were scheduled; no task was started more often
than it was handed over; and `deleteTasks` keeps every task that is not deletable. -/
theorem scheduler_run (calls : List (Nested.Call (Event α))) (n : ℕ) :
    let events := Nested.traceAll step callsRun {} calls
    let s := (events.take n).foldl step ({} : State α)
    Nested.performAll step callsRun {} calls = events.foldl step {} ∧
      s.started = s.ended ++ s.running.toList ∧
      s.started <+ s.entered ∧
      s.started.filter (· ∉ s.rescheduled) <+ s.scheduled ∧
      (∀ t, (s.started ++ s.immediate).count t ≤ (s.scheduled ++ s.immediate).count t) ∧
      ∀ policy, ∀ t ∈ held s, policy t ≠ .deletable →
        t ∈ held (step s (.deleteTasks policy)) := by
  intro events s
  have h : Inv s := inv_foldl _
  have hstarted : s.started <+ s.entered := (List.sublist_append_left _ _).trans h.order
  refine ⟨Nested.performAll_eq_foldl _ _, h.one, hstarted, ?_, fun t => ?_,
    fun policy t ht hp => mem_held_deleteTasks ht hp⟩
  · have hfilter : s.started.filter (· ∉ s.rescheduled) <+
        s.scheduled.filter (· ∉ s.rescheduled) := by
      rw [← h.direct]
      exact hstarted.filter _
    exact hfilter.trans List.filter_sublist
  · have hcount := List.perm_iff_count.mp h.conserved t
    simp only [List.count_append] at hcount ⊢
    omega

/-! ### A rescheduled task -/

/-- Task 1 is reschedulable, the others have to stay. -/
def mixedPolicy (t : ℕ) : DeletePolicy := if t = 1 then .reschedulable else .nonDeletable

/-- A reschedulable task lets the tasks behind it pass. -/
theorem rescheduled_starts_last :
    let s := [Event.scheduleTask 0, .scheduleTask 1, .scheduleTask 2, .deleteTasks mixedPolicy,
      .completed 0, .timeout 0, .completed 2].foldl step ({} : State ℕ)
    s.scheduled = [0, 1, 2] ∧ s.started = [0, 2, 1] ∧ ¬s.started <+ s.scheduled := by
  decide

/-! ## Forced deletion -/

/-- The tasks that an event hands over to the scheduler. -/
def Event.handsOver : Event α → List α
  | .scheduleTask t => [t]
  | .scheduleTaskNow t => [t]
  | _ => []

/-- The tasks on which `run` was called between two states of a run. -/
def startedSince (s s' : State α) : List α :=
  s'.started.drop s.started.length ++ s'.immediate.drop s.immediate.length

/-- Since the state `s₀` no task of `old` was started, and none is waiting to be. -/
structure Purged (s₀ : State α) (old : List α) (s : State α) : Prop where
  started : ∃ new, s.started = s₀.started ++ new ∧ ∀ t ∈ new, t ∉ old
  immediate : ∃ new, s.immediate = s₀.immediate ++ new ∧ ∀ t ∈ new, t ∉ old
  tasks : ∀ t ∈ s.tasks, t ∉ old
  timers : ∀ t ∈ s.timers, t ∉ old

section Purge

variable {s₀ s : State α} {old : List α}

omit [DecidableEq α] in
theorem Purged.not_mem_startedSince (h : Purged s₀ old s) : ∀ t ∈ startedSince s₀ s, t ∉ old := by
  obtain ⟨⟨new, hnew, hold⟩, ⟨new', hnew', hold'⟩, -, -⟩ := h
  intro t ht
  rw [startedSince, hnew, hnew', List.drop_left, List.drop_left, List.mem_append] at ht
  rcases ht with ht | ht
  · exact hold t ht
  · exact hold' t ht

omit [DecidableEq α] in
theorem Purged.maybeRunTask (h : Purged s₀ old s) : Purged s₀ old (maybeRunTask s) := by
  obtain ⟨heq, -⟩ | ⟨t, tasks, -, htasks, -, heq⟩ := maybeRunTask_cases s
  · rw [heq]
    exact h
  · obtain ⟨⟨new, hnew, hold⟩, himmediate, hq, htimers⟩ := h
    rw [htasks] at hq
    rw [heq]
    refine ⟨⟨new ++ [t], ?_, ?_⟩, himmediate, fun a ha => hq a (by simp [ha]), htimers⟩
    · rw [← List.append_assoc, ← hnew]
    · intro a ha
      rcases List.mem_append.mp ha with ha | ha
      · exact hold a ha
      · exact hq a (by simp_all)

omit [DecidableEq α] in
theorem Purged.cancelRunning (h : Purged s₀ old s) (forced : Bool) (policy : α → DeletePolicy) :
    Purged s₀ old (cancelRunning forced policy s) := by
  rw [cancelRunning_eq]
  exact ⟨h.started, h.immediate, h.tasks, h.timers⟩

theorem Purged.step (h : Purged s₀ old s) {e : Event α} (he : ∀ t ∈ e.handsOver, t ∉ old) :
    Purged s₀ old (step s e) := by
  obtain ⟨hstarted, himmediate, htasks, htimers⟩ := h
  have happend : ∀ t, t ∉ old → ∀ a ∈ s.tasks ++ [t], a ∉ old := by
    intro t ht a ha
    rcases List.mem_append.mp ha with ha | ha
    · exact htasks a ha
    · rwa [List.mem_singleton.mp ha]
  cases e with
  | scheduleTask t =>
    have hs : Purged s₀ old { s with
        scheduled := s.scheduled ++ [t], tasks := s.tasks ++ [t], entered := s.entered ++ [t] } :=
      ⟨hstarted, himmediate, happend t (he t (by simp [Event.handsOver])), htimers⟩
    exact hs.maybeRunTask
  | scheduleTaskNow t =>
    obtain ⟨new, hnew, hold⟩ := himmediate
    refine ⟨hstarted, ⟨new ++ [t], by simp [TaskScheduler.step, hnew], fun a ha => ?_⟩, htasks,
      htimers⟩
    rcases List.mem_append.mp ha with ha | ha
    · exact hold a ha
    · rw [List.mem_singleton.mp ha]
      exact he t (by simp [Event.handsOver])
  | deleteTasks policy =>
    rw [TaskScheduler.step, deleteTasksInternal, foldl_visit]
    refine Purged.maybeRunTask (Purged.cancelRunning ?_ false policy)
    refine ⟨hstarted, himmediate, fun t ht => ?_, fun t ht => ?_⟩
    · rw [List.nil_append] at ht
      exact htasks t (List.mem_of_mem_filter ht)
    · rcases List.mem_append.mp ht with ht | ht
      · exact htimers t ht
      · exact htasks t (List.mem_of_mem_filter ht)
  | forceDeleteTasks =>
    rw [TaskScheduler.step, deleteTasksInternal, foldl_visit_forced]
    refine Purged.maybeRunTask (Purged.cancelRunning ?_ true _)
    exact ⟨hstarted, himmediate, by simp, htimers⟩
  | completed t =>
    rw [TaskScheduler.step]
    by_cases hrun : s.running = some t
    · rw [if_pos hrun]
      have hs : Purged s₀ old { s with running := none, ended := s.ended ++ [t] } :=
        ⟨hstarted, himmediate, htasks, htimers⟩
      exact hs.maybeRunTask
    · rw [if_neg hrun]
      exact ⟨hstarted, himmediate, htasks, htimers⟩
  | timeout i =>
    rw [TaskScheduler.step]
    cases hi : s.timers[i]? with
    | none => exact ⟨hstarted, himmediate, htasks, htimers⟩
    | some t =>
      have ht : t ∉ old := htimers t (List.mem_of_getElem? hi)
      have hs : Purged s₀ old { s with
          timers := s.timers.eraseIdx i, tasks := s.tasks ++ [t], entered := s.entered ++ [t] } :=
        ⟨hstarted, himmediate, happend t ht,
          fun a ha => htimers a (List.mem_of_mem_eraseIdx ha)⟩
      exact hs.maybeRunTask
  | pause => exact ⟨hstarted, himmediate, htasks, htimers⟩
  | resume =>
    have hs : Purged s₀ old { s with paused := s.paused - 1 } :=
      ⟨hstarted, himmediate, htasks, htimers⟩
    exact hs.maybeRunTask

theorem Purged.foldl (h : Purged s₀ old s) {events : List (Event α)}
    (he : ∀ t ∈ events.flatMap Event.handsOver, t ∉ old) :
    Purged s₀ old (events.foldl TaskScheduler.step s) := by
  induction events generalizing s with
  | nil => exact h
  | cons e events ih =>
    rw [List.flatMap_cons] at he
    exact ih (h.step fun t ht => he t (List.mem_append_left _ ht)) fun t ht =>
      he t (List.mem_append_right _ ht)

/-- A forced deletion leaves an idle scheduler; it does not look at the timers. -/
theorem step_forceDeleteTasks (s : State α) :
    let s' := step s .forceDeleteTasks
    s'.running = none ∧ s'.tasks = [] ∧ s'.timers = s.timers ∧ s'.started = s.started ∧
      s'.immediate = s.immediate := by
  have hidle : ∀ s : State α, s.tasks = [] → maybeRunTask s = s := by
    intro s hs
    obtain ⟨heq, -⟩ | ⟨t, tasks, -, htasks, -, -⟩ := maybeRunTask_cases s
    · exact heq
    · simp [hs] at htasks
  have heq : step s .forceDeleteTasks =
      cancelRunning true (fun _ => .deletable)
        { s with tasks := [], dropped := s.dropped ++ s.tasks } := by
    rw [step, deleteTasksInternal, foldl_visit_forced, hidle _ (tasks_cancelRunning ..)]
  rw [heq]
  refine ⟨?_, tasks_cancelRunning .., timers_cancelRunning .., ?_, ?_⟩
  · unfold TaskScheduler.cancelRunning
    cases s.running with
    | none => rfl
    | some t => simp
  · rw [cancelRunning_eq]
  · rw [cancelRunning_eq]

/-- An idle scheduler that is resumed often enough is not paused any more. -/
theorem foldl_resume (hrun : s.running = none) (htasks : s.tasks = []) (n : ℕ) :
    (List.replicate n Event.resume).foldl step s = { s with paused := s.paused - n } := by
  induction n generalizing s with
  | zero => simp
  | succ n ih =>
    have hstep : step s .resume = { s with paused := s.paused - 1 } := by
      simp [step, TaskScheduler.maybeRunTask, hrun, htasks]
    rw [List.replicate_succ, List.foldl_cons, hstep, ih (by exact hrun) (by exact htasks)]
    simp only [State.mk.injEq, true_and, and_true]
    omega

theorem started_timeout {t : α} {ts : List α} (hrun : s.running = none) (htasks : s.tasks = [])
    (hpaused : s.paused ≤ 0) (htimers : s.timers = t :: ts) :
    (step s (.timeout 0)).started = s.started ++ [t] := by
  have hnot : ¬s.paused > 0 := by omega
  simp [step, htimers, scheduleTaskInternal, TaskScheduler.maybeRunTask, hrun, htasks, hnot]

/-- **Forced deletion.** Whatever happened before, no task scheduled before a forced deletion is
started after it, in any run that hands over new tasks only, exactly when no timer holds a task at
that moment. -/
theorem forceDelete_purges_iff (before : List (Nested.Call (Event α))) :
    let s := Nested.performAll step callsRun {} before
    let s' := step s .forceDeleteTasks
    (∀ after : List (Nested.Call (Event α)),
      (∀ t ∈ (Nested.traceAll step callsRun s' after).flatMap Event.handsOver, t ∉ s.scheduled) →
      ∀ t ∈ s.scheduled, t ∉ startedSince s (Nested.performAll step callsRun s' after)) ↔
      s.timers = [] := by
  intro s s'
  have hinv : Inv s := by
    rw [show s = _ from Nested.performAll_eq_foldl _ _]
    exact inv_foldl _
  obtain ⟨hrun, htasks, htimers, hstarted, himmediate⟩ :
      s'.running = none ∧ s'.tasks = [] ∧ s'.timers = s.timers ∧ s'.started = s.started ∧
        s'.immediate = s.immediate := step_forceDeleteTasks s
  constructor
  · intro h
    by_contra hne
    obtain ⟨t, ts, hts⟩ := List.exists_cons_of_ne_nil hne
    have hold : t ∈ s.scheduled := by
      rw [hinv.conserved.mem_iff]
      simp [hts]
    -- the timer fires once the scheduler is not paused
    have hpaused : s'.paused - s'.paused.toNat ≤ 0 := by omega
    have hfires : (step { s' with paused := s'.paused - s'.paused.toNat } (.timeout 0)).started =
        s.started ++ [t] := by
      rw [← hstarted]
      exact started_timeout hrun htasks hpaused (htimers.trans hts)
    have hafter :=
      h ((List.replicate s'.paused.toNat Event.resume ++ [Event.timeout 0]).map (.mk · []))
    rw [Nested.performAll_eq_foldl, Nested.traceAll_flat, List.foldl_append,
      foldl_resume hrun htasks, List.foldl_cons, List.foldl_nil, startedSince, hfires] at hafter
    exact hafter (by simp [Event.handsOver]) t hold (by simp)
  · intro h
    have hpurged : Purged s s.scheduled s' :=
      ⟨⟨[], by simp [hstarted], by simp⟩, ⟨[], by simp [himmediate], by simp⟩, by simp [htasks],
        by simp [htimers, h]⟩
    intro after hfresh t ht
    rw [Nested.performAll_eq_foldl]
    exact fun hmem => (hpurged.foldl hfresh).not_mem_startedSince t hmem ht

end Purge

/-- Task 1 waits in a timer while everything is deleted, and is started all the same. -/
theorem rescheduled_survives_purge :
    let s := [Event.scheduleTask 0, .scheduleTask 1, .deleteTasks mixedPolicy].foldl step
      ({} : State ℕ)
    s.scheduled = [0, 1] ∧
      startedSince s ([Event.timeout 0].foldl step (step s .forceDeleteTasks)) = [1] := by
  decide

end Events

end WgDesktop.TaskScheduler
