import Mathlib.Data.List.Basic

/-!
# Runs

Computations that may fail, and runs of a step function. `foldlM_invariant` carries a property
through a loop that stops at the first error, `PreservesOnFailure` through a stateful computation
whose checks come before its writes; `Guarded.invariant` carries one through every state of a run
whose steps all meet a condition, and `guarded_iff` shows when that condition is exact.
-/

namespace Runs

/-! ## Loops that may fail -/

section Except

variable {ε : Type*} {α β : Type}

theorem bind_eq_ok {x : Except ε α} {f : α → Except ε β} {b : β} :
    (x >>= f) = .ok b ↔ ∃ a, x = .ok a ∧ f a = .ok b := by
  cases x with
  | error e => simp [bind, Except.bind]
  | ok a => simp [bind, Except.bind]

theorem mapM_eq_some {α β : Type*} {f : α → Option β} {as : List α} {bs : List β} :
    as.mapM f = some bs ↔ as.map f = bs.map some := by
  induction as generalizing bs with
  | nil => cases bs <;> simp
  | cons a as ih =>
    rw [List.mapM_cons]
    cases bs with
    | nil => cases f a <;> cases as.mapM f <;> simp
    | cons b bs =>
      rw [List.map_cons, List.map_cons, List.cons.injEq, ← ih]
      cases f a <;> cases as.mapM f <;> simp

theorem map_eq_map_of_some {α β γ : Type*} {f : α → Option β} {as : List α} {bs : List β}
    (h : as.map f = bs.map some) {g : α → γ} {g' : β → γ}
    (hg : ∀ a b, f a = some b → g' b = g a) : bs.map g' = as.map g := by
  induction as generalizing bs with
  | nil => simpa using h.symm
  | cons a as ih =>
    cases bs with
    | nil => simp at h
    | cons b bs =>
      rw [List.map_cons, List.map_cons, List.cons.injEq] at h
      rw [List.map_cons, List.map_cons, hg a b h.1, ih h.2]

/-- What each result says about its own argument, all of them say about all arguments. -/
theorem forall_mem_iff_of_mapM {f : α → Except ε β} {P : β → Prop} {Q : α → Prop} {as : List α}
    {bs : List β} (h : as.mapM f = .ok bs) (hf : ∀ a b, f a = .ok b → (P b ↔ Q a)) :
    (∀ a ∈ as, Q a) ↔ ∀ b ∈ bs, P b := by
  induction as generalizing bs with
  | nil =>
    obtain rfl : [] = bs := by simpa [pure, Except.pure] using h
    simp
  | cons a as ih =>
    rw [List.mapM_cons, bind_eq_ok] at h
    obtain ⟨b, hb, h⟩ := h
    obtain ⟨bs', hbs, h⟩ := bind_eq_ok.mp h
    obtain rfl : b :: bs' = bs := by simpa [pure, Except.pure] using h
    rw [List.forall_mem_cons, List.forall_mem_cons, hf a b hb, ih hbs]

theorem foldlM_invariant {f : β → α → Except ε β} {P : β → Prop} {as : List α}
    (hstep : ∀ a ∈ as, ∀ b b', P b → f b a = .ok b' → P b') {b b' : β} (hb : P b)
    (h : as.foldlM f b = .ok b') : P b' := by
  induction as generalizing b with
  | nil =>
    obtain rfl : b = b' := by simpa [pure, Except.pure] using h
    exact hb
  | cons a as ih =>
    rw [List.foldlM_cons, bind_eq_ok] at h
    obtain ⟨mid, hmid, hrest⟩ := h
    exact ih (fun a' ha' => hstep a' (by simp [ha'])) (hstep a (by simp) b mid hb hmid) hrest

end Except

/-! ## Stateful computations that may fail -/

section Stateful

variable {σ ε α β : Type}

/-- The result of a computation and the state it leaves, also when it fails. -/
def exec (m : ExceptT ε (StateM σ) α) (s : σ) : Except ε α × σ := m.run.run s

@[simp] theorem exec_pure (a : α) (s : σ) : exec (pure a : ExceptT ε (StateM σ) α) s = (.ok a, s) :=
  rfl

@[simp] theorem exec_throw (e : ε) (s : σ) :
    exec (throw e : ExceptT ε (StateM σ) α) s = (.error e, s) := rfl

@[simp] theorem exec_get (s : σ) : exec (get : ExceptT ε (StateM σ) σ) s = (.ok s, s) := rfl

@[simp] theorem exec_modify (f : σ → σ) (s : σ) :
    exec (modify f : ExceptT ε (StateM σ) PUnit) s = (.ok ⟨⟩, f s) := rfl

/-- Sequencing: the rest runs from the state the first part leaves, unless that failed. -/
theorem exec_bind (m : ExceptT ε (StateM σ) α) (f : α → ExceptT ε (StateM σ) β) (s : σ) :
    exec (m >>= f) s =
      match exec m s with
      | (.ok a, s') => exec (f a) s'
      | (.error e, s') => (.error e, s') := by
  show StateT.run (ExceptT.run (m >>= f)) s = _
  rw [ExceptT.run_bind, StateT.run_bind]
  unfold exec
  generalize (m.run.run s : Except ε α × σ) = r
  obtain ⟨r, s'⟩ := r
  cases r with
  | error e => rfl
  | ok a => rfl

theorem exec_bind_ok {m : ExceptT ε (StateM σ) α} {f : α → ExceptT ε (StateM σ) β} {s s' : σ}
    {a : α} (h : exec m s = (.ok a, s')) : exec (m >>= f) s = exec (f a) s' := by
  rw [exec_bind, h]

/-- Handling a failure: the handler runs from the state the failure left. -/
theorem exec_tryCatch (m : ExceptT ε (StateM σ) α) (f : ε → ExceptT ε (StateM σ) α) (s : σ) :
    exec (tryCatch m f) s =
      match exec m s with
      | (.ok a, s') => (.ok a, s')
      | (.error e, s') => exec (f e) s' := by
  show StateT.run (ExceptT.run (ExceptT.tryCatch m f)) s = _
  rw [ExceptT.tryCatch, ExceptT.run_mk, StateT.run_bind]
  rcases hr : exec m s with ⟨r, s'⟩
  rw [show StateT.run m s = (r, s') from hr]
  cases r with
  | error e => rfl
  | ok a => rfl

end Stateful

/-! ## What a computation leaves alone -/

section Preserves

variable {σ ε α β : Type} {P : σ → Prop} {m : ExceptT ε (StateM σ) α}

/-- The computation preserves the property, also when it fails. -/
def Preserves (P : σ → Prop) (m : ExceptT ε (StateM σ) α) : Prop := ∀ s, P s → P (exec m s).2

theorem preserves_pure (a : α) : Preserves P (pure a : ExceptT ε (StateM σ) α) := fun _ hs => hs

theorem preserves_throw (e : ε) : Preserves P (throw e : ExceptT ε (StateM σ) α) := fun _ hs => hs

theorem Preserves.bind {f : α → ExceptT ε (StateM σ) β} (hm : Preserves P m)
    (hf : ∀ a, Preserves P (f a)) : Preserves P (m >>= f) := by
  intro s hs
  have hfirst := hm s hs
  rw [exec_bind]
  generalize exec m s = r at hfirst
  obtain ⟨result, s'⟩ := r
  cases result with
  | error e => exact hfirst
  | ok a => exact hf a s' hfirst

theorem Preserves.tryCatch {handler : ε → ExceptT ε (StateM σ) α} (hm : Preserves P m)
    (hhandler : ∀ e, Preserves P (handler e)) : Preserves P (tryCatch m handler) := by
  intro s hs
  have hfirst := hm s hs
  rw [exec_tryCatch]
  generalize exec m s = r at hfirst
  obtain ⟨result, s'⟩ := r
  cases result with
  | error e => exact hhandler e s' hfirst
  | ok a => exact hfirst

theorem preserves_modify {f : σ → σ} (h : ∀ s, P s → P (f s)) :
    Preserves P (modify f : ExceptT ε (StateM σ) PUnit) := h

theorem preserves_forM {f : β → ExceptT ε (StateM σ) PUnit} (h : ∀ b, Preserves P (f b))
    (bs : List β) : Preserves P (bs.forM f) := by
  induction bs with
  | nil => exact preserves_pure _
  | cons b bs ih => exact (h b).bind fun _ => ih

/-- A failure preserves the property. -/
def PreservesOnFailure (P : σ → Prop) (m : ExceptT ε (StateM σ) α) : Prop :=
  ∀ s, P s → ∀ e, (exec m s).1 = .error e → P (exec m s).2

/-- The computation never fails. -/
def NeverFails (m : ExceptT ε (StateM σ) α) : Prop := ∀ s, ∃ a, (exec m s).1 = .ok a

theorem preservesOnFailure_throw (e : ε) :
    PreservesOnFailure P (throw e : ExceptT ε (StateM σ) α) := fun _ hs _ _ => hs

/-- Checks come first: what preserves the property may stand before what preserves it in failing. -/
theorem Preserves.bind_onFailure {f : α → ExceptT ε (StateM σ) β} (hm : Preserves P m)
    (hf : ∀ a, PreservesOnFailure P (f a)) : PreservesOnFailure P (m >>= f) := by
  intro s hs e he
  have hfirst := hm s hs
  rw [exec_bind] at he ⊢
  generalize exec m s = r at hfirst he
  obtain ⟨result, s'⟩ := r
  cases result with
  | error e' => exact hfirst
  | ok a => exact hf a s' hfirst e he

theorem neverFails_pure (a : α) : NeverFails (pure a : ExceptT ε (StateM σ) α) :=
  fun _ => ⟨a, rfl⟩

theorem neverFails_modify (f : σ → σ) : NeverFails (modify f : ExceptT ε (StateM σ) PUnit) :=
  fun _ => ⟨⟨⟩, rfl⟩

theorem NeverFails.bind {f : α → ExceptT ε (StateM σ) β} (hm : NeverFails m)
    (hf : ∀ a, NeverFails (f a)) : NeverFails (m >>= f) := by
  intro s
  obtain ⟨a, ha⟩ := hm s
  rw [exec_bind]
  generalize exec m s = r at ha
  obtain ⟨result, s'⟩ := r
  obtain rfl : result = .ok a := ha
  exact hf a s'

theorem neverFails_forM {f : β → ExceptT ε (StateM σ) PUnit} (h : ∀ b, NeverFails (f b))
    (bs : List β) : NeverFails (bs.forM f) := by
  induction bs with
  | nil => exact neverFails_pure _
  | cons b bs ih => exact (h b).bind fun _ => ih

/-- Writes come last: what never fails has no failure to preserve anything in. -/
theorem NeverFails.preservesOnFailure (hm : NeverFails m) : PreservesOnFailure P m := by
  intro s _ e he
  obtain ⟨a, ha⟩ := hm s
  rw [ha] at he
  cases he

end Preserves

/-! ## Runs of a step function -/

section Steps

variable {σ α : Type*} {step : σ → α → σ}

/-- Every step of the run from `s` meets the condition in the state it starts from. -/
def Guarded (step : σ → α → σ) (guard : σ → α → Prop) : σ → List α → Prop
  | _, [] => True
  | s, a :: as => guard s a ∧ Guarded step guard (step s a) as

/-- A guarded run meets the condition at each of its steps. -/
theorem Guarded.getElem? {guard : σ → α → Prop} {s : σ} {as : List α}
    (h : Guarded step guard s as) {n : ℕ} {a : α} (ha : as[n]? = some a) :
    guard ((as.take n).foldl step s) a := by
  induction as generalizing s n with
  | nil => simp at ha
  | cons b as ih =>
    cases n with
    | zero =>
      obtain rfl : b = a := by simpa using ha
      exact h.1
    | succ n => exact ih h.2 (by simpa using ha)

/-- **The run rule.** A property that holds at the start and that every step meeting the condition
preserves holds in every state of a guarded run. -/
theorem Guarded.invariant {guard : σ → α → Prop} {Inv : σ → Prop}
    (hstep : ∀ s a, Inv s → guard s a → Inv (step s a)) {s : σ} {as : List α} (hs : Inv s)
    (h : Guarded step guard s as) (n : ℕ) : Inv ((as.take n).foldl step s) := by
  induction as generalizing s n with
  | nil => simpa using hs
  | cons a as ih =>
    cases n with
    | zero => exact hs
    | succ n => exact ih (hstep s a hs h.1) h.2 n

theorem foldl_invariant {Inv : σ → Prop} (hstep : ∀ s a, Inv s → Inv (step s a)) {s : σ}
    (hs : Inv s) (as : List α) : Inv (as.foldl step s) := by
  induction as generalizing s with
  | nil => exact hs
  | cons a as ih => exact ih (hstep s a hs)

/-- A condition that does not look at the state. -/
theorem guarded_const {p : α → Prop} (s : σ) (as : List α) :
    Guarded step (fun _ a => p a) s as ↔ ∀ a ∈ as, p a := by
  induction as generalizing s with
  | nil => simp [Guarded]
  | cons a as ih => rw [Guarded, ih, List.forall_mem_cons]

/-- The condition may be checked on a part of the state that runs by itself. -/
theorem guarded_hom {τ : Type*} {step' : τ → α → τ} {guard : τ → α → Prop} (f : σ → τ)
    (hf : ∀ s a, f (step s a) = step' (f s) a) (s : σ) (as : List α) :
    Guarded step (fun s a => guard (f s) a) s as ↔ Guarded step' guard (f s) as := by
  induction as generalizing s with
  | nil => exact Iff.rfl
  | cons a as ih => exact and_congr Iff.rfl (by rw [ih, hf])

/-- **The exact condition.** Where a step outside the condition breaks a property for good, the runs
that keep the property are the guarded ones. -/
theorem guarded_iff {guard : σ → α → Prop} {Inv P : σ → Prop}
    (hstep : ∀ s a, Inv s → guard s a → Inv (step s a)) (hkeep : ∀ s, Inv s → P s)
    (hbreak : ∀ s a, Inv s → ¬ guard s a → ¬ P (step s a)) (hback : ∀ s a, P (step s a) → P s)
    {s : σ} (hs : Inv s) (as : List α) : P (as.foldl step s) ↔ Guarded step guard s as := by
  induction as generalizing s with
  | nil => exact ⟨fun _ => trivial, fun _ => hkeep s hs⟩
  | cons a as ih =>
    by_cases hg : guard s a
    · rw [List.foldl_cons, ih (hstep s a hs hg)]
      exact ⟨fun h => ⟨hg, h⟩, fun h => h.2⟩
    · have hlost : ¬ P (as.foldl step (step s a)) :=
        @foldl_invariant σ α step (fun s => ¬ P s) (fun s a h hP => h (hback s a hP)) _
          (hbreak s a hs hg) as
      exact ⟨fun h => absurd h hlost, fun h => absurd h.1 hg⟩

/-- The exact condition, for a property of single states: where a step outside the condition ends in
a state without the property, the runs all of whose states have it are the guarded ones. -/
theorem forall_take_iff_guarded {guard : σ → α → Prop} {Inv P : σ → Prop}
    (hstep : ∀ s a, Inv s → guard s a → Inv (step s a)) (hkeep : ∀ s, Inv s → P s)
    (hbreak : ∀ s a, Inv s → ¬ guard s a → ¬ P (step s a)) {s : σ} (hs : Inv s) (as : List α) :
    (∀ n, P ((as.take n).foldl step s)) ↔ Guarded step guard s as := by
  refine ⟨fun h => ?_, fun h n => hkeep _ (h.invariant hstep hs n)⟩
  induction as generalizing s with
  | nil => trivial
  | cons a as ih =>
    have hg : guard s a := by
      by_contra hg
      exact hbreak s a hs hg (h 1)
    exact ⟨hg, ih (hstep s a hs hg) fun n => h (n + 1)⟩

/-- The exact condition, for a property of single states together with one of single steps: where
the steps of the run have both just when they meet the condition. -/
theorem forall_steps_iff_guarded {guard : σ → α → Prop} {P : σ → Prop} {R : σ → α → Prop}
    {as : List α} (hstep : ∀ s, ∀ a ∈ as, P s → (P (step s a) ∧ R s a ↔ guard s a)) {s : σ}
    (hs : P s) :
    ((∀ n, P ((as.take n).foldl step s)) ∧
        ∀ n a, as[n]? = some a → R ((as.take n).foldl step s) a) ↔ Guarded step guard s as := by
  induction as generalizing s with
  | nil =>
    have hall : ∀ n, P ((([] : List α).take n).foldl step s) := fun n => by simpa using hs
    exact ⟨fun _ => trivial, fun _ => ⟨hall, fun n a h => by simp at h⟩⟩
  | cons a as ih =>
    have hfirst := hstep s a List.mem_cons_self hs
    have hrest : ∀ s, ∀ b ∈ as, P s → (P (step s b) ∧ R s b ↔ guard s b) := fun s b hb =>
      hstep s b (List.mem_cons_of_mem a hb)
    constructor
    · rintro ⟨hall, hsteps⟩
      refine ⟨hfirst.mp ⟨hall 1, hsteps 0 a rfl⟩, (ih hrest (hall 1)).mp ⟨?_, ?_⟩⟩
      · exact fun n => hall (n + 1)
      · exact fun n b hb => hsteps (n + 1) b hb
    · rintro ⟨hg, h⟩
      obtain ⟨hnext, hr⟩ := hfirst.mpr hg
      obtain ⟨hall, hsteps⟩ := (ih hrest hnext).mpr h
      refine ⟨fun n => ?_, fun n b hb => ?_⟩
      · cases n with
        | zero => exact hs
        | succ n => exact hall n
      · cases n with
        | zero =>
          obtain rfl : a = b := by simpa using hb
          exact hr
        | succ n => exact hsteps n b (by simpa using hb)

/-- The exact condition, where the steps of the run keep the property just when they meet it. -/
theorem forall_take_iff_guarded_of_iff {guard : σ → α → Prop} {P : σ → Prop} {as : List α}
    (hstep : ∀ s, ∀ a ∈ as, P s → (P (step s a) ↔ guard s a)) {s : σ} (hs : P s) :
    (∀ n, P ((as.take n).foldl step s)) ↔ Guarded step guard s as := by
  have hsteps : ∀ s, ∀ a ∈ as, P s → (P (step s a) ∧ True ↔ guard s a) := fun s a ha h => by
    rw [and_true, hstep s a ha h]
  rw [← forall_steps_iff_guarded hsteps hs]
  exact ⟨fun h => ⟨h, fun _ _ _ => trivial⟩, fun h => h.1⟩

end Steps

/-! ## Logs -/

section Logs

open scoped List

variable {α : Type*} {l log : List α} {a b : α}

theorem concat_sublist_concat :
    l ++ [a] <+ log ++ [b] ↔ l ++ [a] <+ log ∨ a = b ∧ l <+ log := by
  have h : (l ++ [a]).reverse <+ (log ++ [b]).reverse ↔
      (l ++ [a]).reverse <+ log.reverse ∨ a = b ∧ l.reverse <+ log.reverse := by
    simp only [List.reverse_append, List.reverse_singleton, List.singleton_append]
    exact List.cons_sublist_cons'
  simpa only [List.reverse_sublist] using h

end Logs

end Runs
