import Mathlib.Data.List.Chain
import WgDesktop.Lib.Runs

/-!
# The screens

`Navigator` of `src/frontend/navigator.cpp`: which screens may be shown, the current one and the
history behind it. A request is answered by a screen or not at all (`requestScreen_trail`), and a
screen that is loaded is put behind the history. `requestPreviousScreen` takes two entries away
before it asks for the older one; `history_iff` says when that leaves a history.
-/

namespace WgDesktop

open Runs

inductive LoadPolicy where
  | loadPersistently
  | loadTemporarily
  deriving DecidableEq, Repr

inductive LoadingFlags where
  | noFlags
  | forceReload
  | forceReloadAll
  deriving DecidableEq, Repr

/-- The data of a screen. `priorityGetter` is what the function of that name returns, given the
requested screen or a null pointer, and `redirect` what it leaves behind the pointer. -/
structure ScreenData where
  screen : ℤ
  loadPolicy : LoadPolicy := .loadTemporarily
  qmlComponentUrl : String
  requiredState : List ℕ := []
  priorityGetter : Option ℤ → ℤ := fun _ => 0
  redirect : ℤ → ℤ := id

namespace ScreenData

/-- The condition of `computeScreen`. -/
def admissible (screen : ScreenData) (state : ℕ) (requestedScreen : Option ℤ) : Bool :=
  if screen.priorityGetter requestedScreen < 0 then false
  else if screen.requiredState ≠ [] ∧ state ∉ screen.requiredState then false
  else true

end ScreenData

/-- What a call finds: the screens, the state of the application, and whether there are
reloaders. -/
structure NavigatorEnv where
  screens : List ScreenData
  state : ℕ := 0
  reloaders : Bool := false

namespace NavigatorEnv

/-- The loop of `computeScreens`, with what is behind the pointer at its end. -/
def computeLoop (state : ℕ) : List ScreenData → Option ℤ → List ScreenData × Option ℤ
  | [], requestedScreen => ([], requestedScreen)
  | screen :: screens, requestedScreen =>
    let rest := computeLoop state screens (requestedScreen.map screen.redirect)
    if screen.admissible state requestedScreen then (screen :: rest.1, rest.2) else rest

def computeScreens (env : NavigatorEnv) (requestedScreen : Option ℤ) :
    List ScreenData × Option ℤ :=
  computeLoop env.state env.screens requestedScreen

/-- The first of the screens with the top priority. -/
def topPriorityScreen (env : NavigatorEnv) : Option ScreenData :=
  (env.computeScreens none).1.foldl (fun top screen =>
    match top with
    | none => some screen
    | some top =>
      if top.priorityGetter none < screen.priorityGetter none then some screen else some top) none

/-- The screen that is shown for a request, if one can be. -/
def findScreen (env : NavigatorEnv) (requestedScreen : ℤ) : Option ScreenData :=
  let screens := env.computeScreens (some requestedScreen)
  screens.1.find? fun screen => some screen.screen = screens.2

end NavigatorEnv

structure Navigator where
  currentScreen : ℤ := -1
  currentLoadPolicy : LoadPolicy := .loadTemporarily
  currentLoadingFlags : LoadingFlags := .noFlags
  currentLoadUrl : String := ""
  screenHistory : List ℤ := []
  deriving DecidableEq, Repr

namespace Navigator

variable (env : NavigatorEnv)

/-- The flags that reloaders ask for. -/
def reloadFlags (loadingFlags : LoadingFlags) : LoadingFlags :=
  if env.reloaders ∧ loadingFlags = .noFlags then .forceReload else loadingFlags

def loadScreen (s : Navigator) (screen : ScreenData) (loadingFlags : LoadingFlags) : Navigator :=
  if screen.screen = s.currentScreen then s
  else
    let s := if s.screenHistory = [] ∨ screen.screen ≠ s.currentScreen then
        { s with
          screenHistory := s.screenHistory ++ [screen.screen]
          currentScreen := screen.screen }
      else s
    { s with
      currentLoadPolicy := screen.loadPolicy
      currentLoadUrl := screen.qmlComponentUrl
      currentLoadingFlags := reloadFlags env loadingFlags }

/-- Without a screen that may be shown, the assertions fail. -/
def computeComponent (s : Navigator) : Navigator :=
  match env.topPriorityScreen with
  | none => s
  | some screen => loadScreen env s screen .forceReloadAll

def requestScreen (s : Navigator) (requestedScreen : ℤ) (loadingFlags : LoadingFlags) :
    Navigator :=
  match env.findScreen requestedScreen with
  | none => s
  | some screen =>
    if screen.qmlComponentUrl = s.currentLoadUrl ∧ reloadFlags env loadingFlags = .noFlags then s
    else loadScreen env s screen (reloadFlags env loadingFlags)

def requestPreviousScreen (s : Navigator) : Navigator :=
  if s.screenHistory.length ≤ 1 then s
  else
    let rest := s.screenHistory.dropLast
    requestScreen env { s with screenHistory := rest.dropLast } (rest.getLast?.getD 0) .noFlags

/-- The calls, each with what it finds. -/
inductive Call where
  | computeComponent (env : NavigatorEnv)
  | requestScreen (env : NavigatorEnv) (requestedScreen : ℤ) (loadingFlags : LoadingFlags)
  | requestPreviousScreen (env : NavigatorEnv)

def step (s : Navigator) : Call → Navigator
  | .computeComponent env => s.computeComponent env
  | .requestScreen env requestedScreen loadingFlags =>
    s.requestScreen env requestedScreen loadingFlags
  | .requestPreviousScreen env => s.requestPreviousScreen env

/-! ## What is required -/

/-- The history ends in the current screen, and no screen follows itself. -/
structure Trail (s : Navigator) : Prop where
  last : s.screenHistory.getLast? = some s.currentScreen
  ne : s.screenHistory.IsChain (· ≠ ·)

/-- The entry that `requestPreviousScreen` asks for. -/
def previous? (s : Navigator) : Option ℤ := s.screenHistory.dropLast.getLast?

/-- A call to go back to a screen that cannot be shown changes nothing. -/
def KeepsTrail (s : Navigator) : Call → Prop
  | .requestPreviousScreen env => ∀ target, s.previous? = some target →
      env.findScreen target = none →
        (s.requestPreviousScreen env).screenHistory = s.screenHistory ∧
          (s.requestPreviousScreen env).currentScreen = s.currentScreen
  | _ => True

/-- Once a history is there, it ends in the current screen at all times, and no call to go back
loses it. -/
structure KeepsHistory (s : Navigator) (calls : List Call) : Prop where
  trail : ∀ k n, k ≤ n → ((calls.take k).foldl step s).screenHistory ≠ [] →
    Trail ((calls.take n).foldl step s)
  keeps : ∀ n c, calls[n]? = some c → KeepsTrail ((calls.take n).foldl step s) c

/-- The request is for what is shown already. -/
def IsShown (s : Navigator) (screen : ScreenData) : Prop :=
  screen.screen = s.currentScreen ∨
    screen.qmlComponentUrl = s.currentLoadUrl ∧ env.reloaders = false

/-- There is a screen to go back to, and the history before it does not end in it; if that is the
screen that is shown, the history before it does end in the current one. -/
def guard (s : Navigator) : Call → Prop
  | .requestPreviousScreen env => ∀ target, s.previous? = some target →
      ∃ screen, env.findScreen target = some screen ∧
        (IsShown env s screen →
          s.screenHistory.dropLast.dropLast.getLast? = some s.currentScreen) ∧
        (¬IsShown env s screen →
          s.screenHistory.dropLast.dropLast.getLast? ≠ some screen.screen)
  | _ => True

/-! ## Requests -/

variable {env} {s : Navigator} {screen : ScreenData}

/-- A screen that is loaded is put behind the history, unless it is the current one. -/
theorem loadScreen_of_ne (h : screen.screen ≠ s.currentScreen) (loadingFlags : LoadingFlags) :
    (loadScreen env s screen loadingFlags).screenHistory = s.screenHistory ++ [screen.screen] ∧
      (loadScreen env s screen loadingFlags).currentScreen = screen.screen := by
  simp [loadScreen, h]

theorem loadScreen_of_eq (h : screen.screen = s.currentScreen) (loadingFlags : LoadingFlags) :
    loadScreen env s screen loadingFlags = s := if_pos h

/-- A request changes neither history nor current screen, or puts another screen behind the
history. -/
inductive Answered (s s' : Navigator) : Prop where
  | same (history : s'.screenHistory = s.screenHistory)
      (current : s'.currentScreen = s.currentScreen)
  | pushed (screen : ScreenData) (ne : screen.screen ≠ s.currentScreen)
      (history : s'.screenHistory = s.screenHistory ++ [screen.screen])
      (current : s'.currentScreen = screen.screen)

theorem loadScreen_answered (s : Navigator) (screen : ScreenData) (loadingFlags : LoadingFlags) :
    Answered s (loadScreen env s screen loadingFlags) := by
  by_cases h : screen.screen = s.currentScreen
  · rw [loadScreen_of_eq h]
    exact .same rfl rfl
  · obtain ⟨hhistory, hcurrent⟩ := @loadScreen_of_ne env _ _ h loadingFlags
    exact .pushed screen h hhistory hcurrent

theorem computeComponent_answered (s : Navigator) : Answered s (s.computeComponent env) := by
  rw [computeComponent]
  split
  · exact .same rfl rfl
  · exact loadScreen_answered s _ _

theorem requestScreen_answered (s : Navigator) (requestedScreen : ℤ)
    (loadingFlags : LoadingFlags) :
    Answered s (s.requestScreen env requestedScreen loadingFlags) := by
  rw [requestScreen]
  split
  · exact .same rfl rfl
  · split
    · exact .same rfl rfl
    · exact loadScreen_answered s _ _

/-- A request that no screen answers changes nothing. -/
theorem requestScreen_of_none {requestedScreen : ℤ}
    (h : env.findScreen requestedScreen = none) (loadingFlags : LoadingFlags) :
    s.requestScreen env requestedScreen loadingFlags = s := by
  rw [requestScreen, h]

theorem reloadFlags_noFlags : reloadFlags env .noFlags = .noFlags ↔ env.reloaders = false := by
  cases h : env.reloaders <;> simp [reloadFlags, h]

theorem requestScreen_of_isShown {requestedScreen : ℤ}
    (h : env.findScreen requestedScreen = some screen) (hshown : IsShown env s screen) :
    s.requestScreen env requestedScreen .noFlags = s := by
  rw [requestScreen, h]
  dsimp only
  split
  · rfl
  · next hurl =>
    rw [reloadFlags_noFlags] at hurl
    exact loadScreen_of_eq (hshown.resolve_right hurl) _

theorem requestScreen_of_not_isShown {requestedScreen : ℤ}
    (h : env.findScreen requestedScreen = some screen) (hshown : ¬IsShown env s screen) :
    (s.requestScreen env requestedScreen .noFlags).screenHistory =
        s.screenHistory ++ [screen.screen] ∧
      (s.requestScreen env requestedScreen .noFlags).currentScreen = screen.screen := by
  obtain ⟨hne, hurl⟩ := not_or.mp hshown
  rw [← reloadFlags_noFlags] at hurl
  rw [requestScreen, h]
  dsimp only
  rw [if_neg hurl]
  exact loadScreen_of_ne hne _

/-! ## One call -/

variable {s' : Navigator}

/-- What a request leaves of a history that ends in the current screen does so too. -/
theorem Answered.trail (h : Answered s s') (ht : Trail s) : Trail s' := by
  cases h with
  | same hhistory hcurrent =>
    exact ⟨by rw [hhistory, hcurrent, ht.last], by rw [hhistory]; exact ht.ne⟩
  | pushed screen hne hhistory hcurrent =>
    refine ⟨by rw [hhistory, hcurrent, List.getLast?_concat], ?_⟩
    rw [hhistory, List.isChain_append]
    refine ⟨ht.ne, .singleton _, fun a ha b hb => ?_⟩
    rw [ht.last, Option.mem_some_iff] at ha
    rw [List.head?_cons, Option.mem_some_iff] at hb
    rw [← ha, ← hb]
    exact hne.symm

theorem requestScreen_trail (ht : Trail s) (requestedScreen : ℤ) (loadingFlags : LoadingFlags) :
    Trail (s.requestScreen env requestedScreen loadingFlags) :=
  (requestScreen_answered s requestedScreen loadingFlags).trail ht

theorem previous?_eq_none : s.previous? = none ↔ s.screenHistory.length ≤ 1 := by
  rw [previous?, List.getLast?_eq_none_iff, ← List.length_eq_zero_iff, List.length_dropLast]
  omega

theorem requestPreviousScreen_of_none (h : s.previous? = none) :
    s.requestPreviousScreen env = s := if_pos (previous?_eq_none.mp h)

theorem requestPreviousScreen_of_some {target : ℤ} (h : s.previous? = some target) :
    s.requestPreviousScreen env =
      requestScreen env { s with screenHistory := s.screenHistory.dropLast.dropLast } target
        .noFlags := by
  have hlength : ¬s.screenHistory.length ≤ 1 := by
    rw [← previous?_eq_none, h]
    simp
  have htarget : s.screenHistory.dropLast.getLast? = some target := h
  rw [requestPreviousScreen, if_neg hlength]
  dsimp only
  rw [htarget, Option.getD_some]

theorem Trail.ne_dropLast (ht : Trail s) :
    s.screenHistory.dropLast.dropLast.IsChain (· ≠ ·) :=
  ht.ne.dropLast.dropLast

theorem dropLast_dropLast_ne {target : ℤ} (h : s.previous? = some target) :
    s.screenHistory.dropLast.dropLast ≠ s.screenHistory := by
  intro heq
  have hlength := congrArg List.length heq
  have hlong : ¬s.screenHistory.length ≤ 1 := by
    rw [← previous?_eq_none, h]
    simp
  rw [List.length_dropLast, List.length_dropLast] at hlength
  omega

/-- Going back to what is shown: the history that is left has to end in it. -/
theorem requestPreviousScreen_isShown {target : ℤ} (ht : Trail s)
    (h : s.previous? = some target) (hfind : env.findScreen target = some screen)
    (hshown : IsShown env s screen) :
    Trail (s.requestPreviousScreen env) ↔
      s.screenHistory.dropLast.dropLast.getLast? = some s.currentScreen := by
  have hsame := @requestScreen_of_isShown env
    { s with screenHistory := s.screenHistory.dropLast.dropLast } screen target hfind hshown
  rw [requestPreviousScreen_of_some h, hsame]
  exact ⟨fun h => h.last, fun h => ⟨h, ht.ne_dropLast⟩⟩

/-- Going back to another screen: the history that is left must not end in it already. -/
theorem requestPreviousScreen_not_isShown {target : ℤ} (ht : Trail s)
    (h : s.previous? = some target) (hfind : env.findScreen target = some screen)
    (hshown : ¬IsShown env s screen) :
    Trail (s.requestPreviousScreen env) ↔
      s.screenHistory.dropLast.dropLast.getLast? ≠ some screen.screen := by
  rw [requestPreviousScreen_of_some h]
  obtain ⟨hhistory, hcurrent⟩ := @requestScreen_of_not_isShown env
    { s with screenHistory := s.screenHistory.dropLast.dropLast } screen target hfind hshown
  constructor
  · intro hnext heq
    have hne := hnext.ne
    rw [hhistory, List.isChain_append] at hne
    exact hne.2.2 screen.screen heq screen.screen rfl rfl
  · intro hne
    refine ⟨by rw [hhistory, hcurrent, List.getLast?_concat], ?_⟩
    rw [hhistory, List.isChain_append]
    refine ⟨ht.ne_dropLast, .singleton _, fun a ha b hb => ?_⟩
    rw [List.head?_cons, Option.mem_some_iff] at hb
    rintro rfl
    exact hne (by rw [hb]; exact ha)

/-- From a history that ends in the current screen, one call leaves such a history and is no lost
way back just when there is a screen to go back to. -/
theorem step_iff (ht : Trail s) (c : Call) : Trail (step s c) ∧ KeepsTrail s c ↔ guard s c := by
  cases c with
  | computeComponent env =>
    exact iff_of_true ⟨(computeComponent_answered s).trail ht, trivial⟩ trivial
  | requestScreen env requestedScreen loadingFlags =>
    exact iff_of_true ⟨requestScreen_trail ht _ _, trivial⟩ trivial
  | requestPreviousScreen env =>
    show Trail (s.requestPreviousScreen env) ∧ _ ↔ _
    cases h : s.previous? with
    | none =>
      rw [requestPreviousScreen_of_none h]
      simp [KeepsTrail, guard, h, ht]
    | some target =>
      cases hfind : env.findScreen target with
      | none =>
        have hlost : ¬KeepsTrail s (.requestPreviousScreen env) := by
          intro hkeep
          have hhistory := (hkeep target h hfind).1
          rw [requestPreviousScreen_of_some h, requestScreen_of_none hfind] at hhistory
          exact dropLast_dropLast_ne h hhistory
        simp [guard, h, hfind, hlost]
      | some screen =>
        by_cases hshown : IsShown env s screen
        · rw [requestPreviousScreen_isShown ht h hfind hshown]
          simp [KeepsTrail, guard, h, hfind, hshown]
        · rw [requestPreviousScreen_not_isShown ht h hfind hshown]
          simp [KeepsTrail, guard, h, hfind, hshown]

/-! ## Every run -/

/-- No screen was loaded yet. -/
structure Fresh (s : Navigator) : Prop where
  history : s.screenHistory = []
  current : s.currentScreen = -1

theorem Answered.of_fresh (h : Answered s s') (hs : Fresh s) : Fresh s' ∨ Trail s' := by
  cases h with
  | same hhistory hcurrent => exact .inl ⟨hhistory.trans hs.history, hcurrent.trans hs.current⟩
  | pushed screen hne hhistory hcurrent =>
    rw [hs.history, List.nil_append] at hhistory
    exact .inr ⟨by rw [hhistory, hcurrent, List.getLast?_singleton],
      by rw [hhistory]; exact .singleton _⟩

theorem previous?_of_fresh (hs : Fresh s) : s.previous? = none := by
  rw [previous?_eq_none, hs.history]
  exact Nat.zero_le 1

theorem step_of_fresh (hs : Fresh s) (c : Call) : Fresh (step s c) ∨ Trail (step s c) := by
  cases c with
  | computeComponent env => exact (computeComponent_answered s).of_fresh hs
  | requestScreen env requestedScreen loadingFlags =>
    exact (requestScreen_answered s requestedScreen loadingFlags).of_fresh hs
  | requestPreviousScreen env =>
    rw [step, requestPreviousScreen_of_none (previous?_of_fresh hs)]
    exact .inl hs

theorem guard_of_fresh (hs : Fresh s) (c : Call) : guard s c := by
  cases c with
  | requestPreviousScreen env =>
    intro target htarget
    rw [previous?_of_fresh hs] at htarget
    cases htarget
  | _ => trivial

theorem keepsTrail_of_fresh (hs : Fresh s) (c : Call) : KeepsTrail s c := by
  cases c with
  | requestPreviousScreen env =>
    intro target htarget
    rw [previous?_of_fresh hs] at htarget
    cases htarget
  | _ => trivial

theorem Trail.screenHistory_ne (ht : Trail s) : s.screenHistory ≠ [] := by
  intro h
  have hlast := ht.last
  rw [h] at hlast
  cases hlast

theorem keepsHistory_iff_of_trail (ht : Trail s) (calls : List Call) :
    KeepsHistory s calls ↔ Guarded step guard s calls := by
  have hstep : ∀ s, ∀ c ∈ calls, Trail s → (Trail (step s c) ∧ KeepsTrail s c ↔ guard s c) :=
    fun _ c _ hs => step_iff hs c
  rw [← forall_steps_iff_guarded hstep ht]
  constructor
  · rintro ⟨htrail, hkeeps⟩
    exact ⟨fun n => htrail 0 n (Nat.zero_le n) ht.screenHistory_ne, hkeeps⟩
  · rintro ⟨htrail, hkeeps⟩
    exact ⟨fun _ n _ _ => htrail n, hkeeps⟩

theorem keepsHistory_cons_of_fresh (hs : Fresh s) (c : Call) (calls : List Call) :
    KeepsHistory s (c :: calls) ↔ KeepsHistory (step s c) calls := by
  constructor
  · rintro ⟨htrail, hkeeps⟩
    exact ⟨fun k n hkn hk => htrail (k + 1) (n + 1) (Nat.succ_le_succ hkn) hk,
      fun n c' hc' => hkeeps (n + 1) c' hc'⟩
  · rintro ⟨htrail, hkeeps⟩
    refine ⟨fun k n hkn hk => ?_, fun n c' hc' => ?_⟩
    · cases k with
      | zero => exact absurd hs.history hk
      | succ k =>
        cases n with
        | zero => exact absurd hkn (Nat.not_succ_le_zero k)
        | succ n => exact htrail k n (Nat.le_of_succ_le_succ hkn) hk
    · cases n with
      | zero => exact keepsTrail_of_fresh hs c'
      | succ n => exact hkeeps n c' hc'

theorem keepsHistory_iff (hs : Fresh s) (calls : List Call) :
    KeepsHistory s calls ↔ Guarded step guard s calls := by
  induction calls generalizing s with
  | nil =>
    refine iff_of_true ⟨fun k n _ hk => ?_, fun n c hc => ?_⟩ trivial
    · exact absurd (by simpa using hs.history) hk
    · simp at hc
  | cons c calls ih =>
    rw [keepsHistory_cons_of_fresh hs, Guarded, and_iff_right (guard_of_fresh hs c)]
    rcases step_of_fresh hs c with hfresh | htrail
    · exact ih hfresh
    · exact keepsHistory_iff_of_trail htrail calls

/-- The history is kept all along just when each way back leads to a screen: it then ends in the
current screen from the first screen on, and a call to go back to what cannot be shown changes
nothing. -/
theorem history_iff (calls : List Call) :
    KeepsHistory {} calls ↔ Guarded step guard {} calls :=
  keepsHistory_iff ⟨rfl, rfl⟩ calls

/-- The screens of the home and of the settings, the first of which is there when the application
is in the state 1. -/
def homeAndSettings : List ScreenData :=
  [{ screen := 1, qmlComponentUrl := "home", requiredState := [1] },
    { screen := 2, qmlComponentUrl := "settings" }]

/-- From the settings, back to the home in a state that does not show it: nothing is shown, and the
history is gone. -/
theorem history_lost :
    ¬KeepsHistory {} [.computeComponent { screens := homeAndSettings, state := 1 },
      .requestScreen { screens := homeAndSettings, state := 1 } 2 .noFlags,
      .requestPreviousScreen { screens := homeAndSettings, state := 0 }] := by
  intro h
  have hlast := (h.trail 1 3 (by decide) (by decide)).last
  revert hlast
  decide

end Navigator

end WgDesktop
