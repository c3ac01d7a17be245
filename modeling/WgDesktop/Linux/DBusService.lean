import Mathlib.Data.List.AList
import WgDesktop.Daemon.Interface
import WgDesktop.Linux.Cgroups

/-!
# Split tunnelling

The Linux daemon excludes applications from the VPN by their control groups:
`src/platforms/linux/daemon/apptracker.cpp` follows the groups that are running, and
`src/platforms/linux/daemon/dbusservice.cpp` keeps the applications to be excluded, the groups that
are excluded, and the rules in the firewall. What becomes of a request for a rule is not looked at:
`split_tunnel` says that the three agree whatever happens, as long as each of these requests is taken
and the paths of the groups fit into a rule.
-/

namespace WgDesktop.DBusService

open Netfilter Runs

/-! ## The state -/

/-- A `QHash`. -/
abbrev Hash (K V : Type) [DecidableEq K] := AList fun _ : K => V

inductive AppState where
  | active
  | excluded
  deriving DecidableEq, Repr

/-- Where `WireguardUtilsLinux::addInterface` fails: at the device; behind it, with no tables yet;
in `LinuxFirewall::up` with the tables, which its clean-up removes or not; at the device's index. -/
inductive AddFailure where
  | device
  | setup
  | firewall (removed : Bool)
  | index
  deriving DecidableEq, Repr

/-- Where `WireguardUtilsLinux::deleteInterface` fails: in `LinuxFirewall::down`, or behind it. -/
inductive DeleteFailure where
  | firewall
  | device
  deriving DecidableEq, Repr

/-- What the service is built on: the backend of the daemon, how far its failing calls come, Polkit's
answers and those of the kernel to the requests for control groups. -/
structure Env where
  backend : Daemon.Backend
  addInterfaceFails : ℕ → AddFailure
  deleteInterfaceFails : ℕ → DeleteFailure
  authorizes : ℕ → Bool
  kernel : Answers

/-- The fields of `DBusService` and the groups of its `AppTracker`, with the daemon it is and the
part of the firewall for control groups. `checks` counts the questions to Polkit. -/
structure State where
  daemon : Daemon.State := {}
  cgroups : Cgroups := {}
  checks : ℕ := 0
  runningCgroups : Hash CgroupPath (List Char) := ∅
  excludedApps : Hash (List Char) AppState := ∅
  excludedCgroups : Hash CgroupPath AppState := ∅

def desktopFileId (path : List Char) : List Char :=
  if '/' ∉ path then path
  else
    let dir := "/applications/".toList
    -- the last position at which the directory is found
    let found := (List.range (path.length + 1)).filter fun i => dir.isPrefixOf (path.drop i)
    let start :=
      match found.getLast? with
      | some i => i + dir.length
      | none => path.length - (path.reverse.takeWhile (· ≠ '/')).length
    (path.drop start).map fun c => if c = '/' then '-' else c

/-! ## Applications -/

def findByDesktopFileId (s : State) (id : List Char) : List CgroupPath :=
  (s.runningCgroups.entries.filter fun e => e.2 = id).map (·.1)

section Methods

variable (env : Env)

def excludeCgroup (s : State) (cgroup : CgroupPath) : State :=
  { s with cgroups := s.cgroups.netfilterMarkCgroupV2 env.kernel cgroup }

def resetCgroup (s : State) (cgroup : CgroupPath) : State :=
  { s with cgroups := s.cgroups.netfilterResetCgroupV2 env.kernel cgroup }

def resetAllCgroups (s : State) : State :=
  { s with cgroups := s.cgroups.netfilterResetAllCgroupsV2 env.kernel }

/-- `m_excludedCgroups[cgroup] = state`, and the rules of an excluded group. -/
def applyState (s : State) (cgroup : CgroupPath) (state : AppState) : State :=
  let s := { s with excludedCgroups := s.excludedCgroups.insert cgroup state }
  if state = .excluded then excludeCgroup env s cgroup else s

def appLaunched (s : State) (cgroup : CgroupPath) (id : List Char) : State :=
  let state := (s.excludedApps.lookup id).getD .active
  if state = .active then s else applyState env s cgroup state

def appTerminated (s : State) (cgroup : CgroupPath) : State :=
  if cgroup ∈ s.excludedCgroups then
    resetCgroup env { s with excludedCgroups := s.excludedCgroups.erase cgroup } cgroup
  else s

/-- The loop of `setAppState` for an application that is not active. -/
def setCgroup (state : AppState) (s : State) (cgroup : CgroupPath) : State :=
  let s := if cgroup ∈ s.excludedCgroups then resetCgroup env s cgroup else s
  applyState env s cgroup state

def setAppState (s : State) (id : List Char) (state : AppState) : State :=
  if state = .active then
    (findByDesktopFileId s id).foldl (resetCgroup env)
      { s with excludedApps := s.excludedApps.erase id }
  else
    (findByDesktopFileId s id).foldl (setCgroup env state)
      { s with excludedApps := s.excludedApps.insert id state }

def clearAppStates (s : State) : State :=
  { resetAllCgroups env s with excludedCgroups := ∅, excludedApps := ∅ }

/-! ## The tracker -/

/-- The first loop of `cgroupsChanged`, over the groups in a directory, with the running ones that
were not found so far. `find` is `findDesktopFileId`. -/
def addScopes (find : CgroupPath → List Char) :
    List CgroupPath → List CgroupPath → State → List CgroupPath × State
  | [], old, s => (old, s)
  | path :: paths, old, s =>
    if path ∈ old then addScopes find paths (old.filter (· ≠ path)) s
    else
      addScopes find paths old
        (appLaunched env
          { s with runningCgroups := s.runningCgroups.insert path (find path) } path (find path))

/-- The second loop: what is gone from the directory. -/
def removeScope (s : State) (path : CgroupPath) : State :=
  appTerminated env { s with runningCgroups := s.runningCgroups.erase path } path

/-- `here` tells which paths are in the directory. -/
def cgroupsChanged (here : CgroupPath → Bool) (scopes : List CgroupPath)
    (find : CgroupPath → List Char) (s : State) : State :=
  let r := addScopes env find scopes s.runningCgroups.keys s
  (r.1.filter here).foldl (removeScope env) r.2

/-! ## Activation -/

def isCallerAuthorized (s : State) : Bool × State :=
  (env.authorizes s.checks, { s with checks := s.checks + 1 })

/-- The device is there although `addInterface` has failed. -/
def AddFailure.leavesDevice : AddFailure → Bool
  | .device => false
  | .setup | .firewall _ | .index => true

/-- What it has done to the firewall. -/
def AddFailure.cgroups : AddFailure → Cgroups → Cgroups
  | .device, c | .setup, c => c
  | .firewall removed, c => if removed then c.up.down else c.up
  | .index, c => c.up

@[inherit_doc AddFailure.cgroups]
def DeleteFailure.cgroups : DeleteFailure → Cgroups → Cgroups
  | .firewall, c => c
  | .device, c => c.down

/-- `Daemon::activate` for a hop that is not connected. It calls `addInterface` first if there is no
interface, and there is one behind this call unless it fails. -/
def bringUp (config : InterfaceConfig) (s : State) : Bool × State :=
  let r := exec (Daemon.guardFailure (Daemon.bringUp env.backend config)) s.daemon
  if s.daemon.interfaceExists then (r.1.isOk, { s with daemon := r.2 })
  else if r.2.interfaceExists then (r.1.isOk, { s with daemon := r.2, cgroups := s.cgroups.up })
  else
    let failure := env.addInterfaceFails s.daemon.calls
    (r.1.isOk,
      { s with
        daemon := { r.2 with interfaceExists := failure.leavesDevice }
        cgroups := failure.cgroups s.cgroups })

/-- `Daemon::activate` for one whose server is switched. -/
def switch (current config : InterfaceConfig) (s : State) : Bool × State :=
  let r := exec (Daemon.guardFailure (Daemon.switch env.backend current config)) s.daemon
  (r.1.isOk, { s with daemon := r.2 })

/-- `Daemon::deactivate`, which fails if `deleteInterface` does. -/
def daemonDeactivate (emitSignals : Bool) (s : State) : Bool × State :=
  let r := exec (Daemon.deactivate env.backend emitSignals) s.daemon
  let cgroups :=
    if r.1.isOk then s.cgroups.down else (env.deleteInterfaceFails s.daemon.calls).cgroups s.cgroups
  (r.1.isOk, { s with daemon := r.2, cgroups := cgroups })

def deactivate (emitSignals : Bool) (s : State) : Bool × State :=
  let r := isCallerAuthorized env s
  if !r.1 then (false, r.2) else daemonDeactivate env emitSignals (clearAppStates env r.2)

/-- The scope guard of `Daemon::activate`. -/
def failActivation (s : State) : State :=
  { s with daemon := { s.daemon with signals := s.daemon.signals ++ [.activationFailure] } }

def loadApps (config : InterfaceConfig) (s : State) : State :=
  config.vpnDisabledApps.foldl (fun s app => setAppState env s (desktopFileId app) .excluded)
    (clearAppStates env s)

/-- `Daemon::activate`. The `deactivate` and `activate` it calls for a connection that cannot be
switched are the service's own; `activate` is the latter. -/
def daemonActivate (activate : State → Bool × State) (config : InterfaceConfig) (s : State) :
    Bool × State :=
  match s.daemon.connections config.hopType with
  | none => bringUp env config s
  | some current =>
    if Daemon.supportServerSwitching current.config config then
      switch env current.config config s
    else
      let r := deactivate env false s
      if !r.1 then (false, failActivation r.2)
      else
        let r := activate r.2
        if r.1 then r else (false, failActivation r.2)

/-- `activate`, with a bound on its calls of itself. -/
def activateWith : ℕ → InterfaceConfig → State → Bool × State
  | 0, _, s => (false, s)
  | fuel + 1, config, s =>
    let r := isCallerAuthorized env s
    if !r.1 then (false, r.2)
    else
      let r := daemonActivate env (activateWith fuel config) config r.2
      if !r.1 then (false, r.2) else (true, loadApps env config r.2)

/-- `activate` calls itself only after `deactivate`, when no hop is connected. -/
def activate (config : InterfaceConfig) (s : State) : Bool × State := activateWith env 2 config s

end Methods

section Bound

variable {env : Env} {s : State}

theorem connections_deactivate {emitSignals : Bool} (h : (deactivate env emitSignals s).1 = true)
    (hop : HopType) : (deactivate env emitSignals s).2.daemon.connections hop = none := by
  unfold deactivate at h ⊢
  dsimp only at h ⊢
  split_ifs at h ⊢ with hdenied
  exact (Daemon.deactivated_deactivate emitSignals _).connections hop

theorem activateWith_of_none {config : InterfaceConfig}
    (h : s.daemon.connections config.hopType = none) (fuel : ℕ) :
    activateWith env (fuel + 1) config s = activateWith env 1 config s := by
  have hauth : (isCallerAuthorized env s).2.daemon.connections config.hopType = none := h
  unfold activateWith daemonActivate
  dsimp only
  rw [hauth]

/-- **The bound is never reached.** -/
theorem activateWith_eq (fuel : ℕ) (config : InterfaceConfig) (s : State) :
    activateWith env (fuel + 2) config s = activate env config s := by
  have hinner : ∀ s, daemonActivate env (activateWith env (fuel + 1) config) config s =
      daemonActivate env (activateWith env 1 config) config s := by
    intro s
    unfold daemonActivate
    cases s.daemon.connections config.hopType with
    | none => rfl
    | some current =>
      dsimp only
      by_cases hok : (deactivate env false s).1 = true
      · rw [activateWith_of_none (connections_deactivate hok _)]
      · rw [Bool.not_eq_true] at hok
        simp only [hok, Bool.not_false, if_true]
  unfold activate
  rw [activateWith, activateWith]
  simp only [hinner]

end Bound

/-! ## The condition -/

section Condition

variable (env : Env)

/-- The group can be excluded: its path fits, and the kernel takes the next request. -/
def Excludable (s : State) (cgroup : CgroupPath) : Prop :=
  cgroup.bytes.length < 512 ∧ s.cgroups.Takes env.kernel

/-- So it is where `setAppState` excludes it, behind the reset of a group that is excluded. -/
def SetsCgroup (s : State) (cgroup : CgroupPath) : Prop :=
  Excludable env (if cgroup ∈ s.excludedCgroups then resetCgroup env s cgroup else s) cgroup

/-- And for all groups of an application. -/
def SetsApp (s : State) (id : List Char) : Prop :=
  Guarded (setCgroup env .excluded) (SetsCgroup env)
    { s with excludedApps := s.excludedApps.insert id .excluded } (findByDesktopFileId s id)

/-- The rules from before are cleared, and the groups of all applications can be excluded. -/
def Loads (config : InterfaceConfig) (s : State) : Prop :=
  s.cgroups.Flushes env.kernel ∧
    Guarded (fun s app => setAppState env s (desktopFileId app) .excluded)
      (fun s app => SetsApp env s (desktopFileId app)) (clearAppStates env s) config.vpnDisabledApps

/-- The rules are cleared, unless the caller may not ask for it. -/
def Clears (s : State) : Prop :=
  env.authorizes s.checks = true → s.cgroups.Flushes env.kernel

/-- The groups that appear can be excluded if their applications are. -/
def Launches (find : CgroupPath → List Char) : List CgroupPath → List CgroupPath → State → Prop
  | [], _, _ => True
  | path :: paths, old, s =>
    if path ∈ old then Launches find paths (old.filter (· ≠ path)) s
    else
      (find path ∈ s.excludedApps → Excludable env s path) ∧
        Launches find paths old
          (appLaunched env
            { s with runningCgroups := s.runningCgroups.insert path (find path) } path (find path))

/-- The rules of a group that is gone can be deleted. -/
def Removes (s : State) (path : CgroupPath) : Prop :=
  path ∈ s.excludedCgroups → s.cgroups.TakesReset env.kernel

/-- What `activate` asks of the kernel is taken: in the `deactivate` and `activate` that it calls for
a connection that cannot be switched, and when the applications are loaded. -/
def Activates : ℕ → InterfaceConfig → State → Prop
  | 0, _, _ => True
  | fuel + 1, config, s => env.authorizes s.checks = true →
    let s := (isCallerAuthorized env s).2
    let r := daemonActivate env (activateWith env fuel config) config s
    (∀ current, s.daemon.connections config.hopType = some current →
        Daemon.supportServerSwitching current.config config = false →
          Clears env s ∧
            ((deactivate env false s).1 = true →
              Activates fuel config (deactivate env false s).2)) ∧
      (r.1 = true → Loads env config r.2)

end Condition

/-! ## The invariant -/

/-- The rules are those of the excluded groups, whose paths are short and which are the running
groups of the applications to be excluded; there is an interface when an application is to be
excluded, and when something is connected. -/
structure Inv (s : State) : Prop where
  short : ∀ path ∈ s.excludedCgroups, path.bytes.length < 512
  rules : s.cgroups.For (· ∈ s.excludedCgroups)
  sound : s.cgroups.Sound
  tracked : ∀ path, path ∈ s.excludedCgroups ↔
    ∃ id, s.runningCgroups.lookup path = some id ∧ id ∈ s.excludedApps
  apps : ∀ id state, s.excludedApps.lookup id = some state → state = .excluded
  interface : ∀ id ∈ s.excludedApps, s.daemon.interfaceExists = true
  up : Daemon.Up s.daemon

section Steps

variable {env : Env} {s s' : State} {cgroup : CgroupPath}

theorem inv_init : Inv {} where
  short := by simp
  rules := ⟨lists_nil (by simp), lists_nil (by simp)⟩
  sound := ⟨by simp, by simp⟩
  tracked := by simp
  apps := by simp
  interface := by simp
  up := by simp [Daemon.Up]

/-! ### Rules and groups -/

/-- The rules are those of the excluded groups. -/
structure Synced (s : State) : Prop where
  rules : s.cgroups.For (· ∈ s.excludedCgroups)
  sound : s.cgroups.Sound
  short : ∀ path ∈ s.excludedCgroups, path.bytes.length < 512

/-- Only the excluded groups and their rules differ. -/
structure Same (s s' : State) : Prop where
  daemon : s'.daemon = s.daemon
  runningCgroups : s'.runningCgroups = s.runningCgroups
  excludedApps : s'.excludedApps = s.excludedApps

theorem Same.trans {s s' s'' : State} (h : Same s s') (h' : Same s' s'') : Same s s'' :=
  ⟨h'.daemon.trans h.daemon, h'.runningCgroups.trans h.runningCgroups,
    h'.excludedApps.trans h.excludedApps⟩

theorem mem_findByDesktopFileId (s : State) (id : List Char) (path : CgroupPath) :
    path ∈ findByDesktopFileId s id ↔ s.runningCgroups.lookup path = some id := by
  rw [findByDesktopFileId, List.mem_map, ← Option.mem_def, AList.mem_lookup_iff]
  constructor
  · rintro ⟨⟨p, i⟩, hmem, rfl⟩
    obtain ⟨hentry, hid⟩ := List.mem_filter.mp hmem
    have hi : i = id := by simpa using hid
    exact hi ▸ hentry
  · intro hentry
    exact ⟨⟨path, id⟩, List.mem_filter.mpr ⟨hentry, by simp⟩, rfl⟩

theorem same_applyState (s : State) (cgroup : CgroupPath) (state : AppState) :
    Same s (applyState env s cgroup state) := by
  unfold applyState excludeCgroup
  dsimp only
  split_ifs
  · exact ⟨rfl, rfl, rfl⟩
  · exact ⟨rfl, rfl, rfl⟩

theorem mem_applyState (s : State) (cgroup : CgroupPath) (state : AppState) (path : CgroupPath) :
    path ∈ (applyState env s cgroup state).excludedCgroups ↔
      path = cgroup ∨ path ∈ s.excludedCgroups := by
  have hkeys : (applyState env s cgroup state).excludedCgroups =
      s.excludedCgroups.insert cgroup state := by
    unfold applyState excludeCgroup
    dsimp only
    split_ifs
    · rfl
    · rfl
  rw [hkeys, AList.mem_insert]

theorem runningCgroups_appLaunched (s : State) (cgroup : CgroupPath) (id : List Char) :
    (appLaunched env s cgroup id).runningCgroups = s.runningCgroups := by
  unfold appLaunched
  dsimp only
  split_ifs
  · rfl
  · exact (same_applyState s cgroup _).runningCgroups

/-- A group is excluded, with the rules as they are behind the request. -/
theorem synced_applyState
    (hrules : (s.cgroups.netfilterMarkCgroupV2 env.kernel cgroup).For
      fun path => path = cgroup ∨ path ∈ s.excludedCgroups)
    (hsound : s.cgroups.Sound) (hshort : ∀ path ∈ s.excludedCgroups, path.bytes.length < 512)
    (hcgroup : cgroup.bytes.length < 512) : Synced (applyState env s cgroup .excluded) := by
  refine ⟨?_, ?_, ?_⟩
  · rw [applyState, if_pos rfl]
    exact hrules.congr fun path => by rw [excludeCgroup, AList.mem_insert]
  · rw [applyState, if_pos rfl]
    exact hsound.markCgroup cgroup
  · intro path hpath
    rw [mem_applyState] at hpath
    rcases hpath with rfl | hpath
    · exact hcgroup
    · exact hshort path hpath

theorem setCgroup_spec (h : Synced s) (hsets : SetsCgroup env s cgroup) :
    Synced (setCgroup env .excluded s cgroup) ∧ Same s (setCgroup env .excluded s cgroup) ∧
      ∀ path, path ∈ (setCgroup env .excluded s cgroup).excludedCgroups ↔
        path = cgroup ∨ path ∈ s.excludedCgroups := by
  obtain ⟨hcgroup, htakes⟩ := hsets
  unfold setCgroup
  dsimp only
  split_ifs at htakes ⊢ with hmem
  · have hsame : Same s (resetCgroup env s cgroup) := ⟨rfl, rfl, rfl⟩
    refine ⟨?_, hsame.trans (same_applyState _ _ _), mem_applyState _ _ _⟩
    -- whatever came of the reset, the group has its rules again
    exact synced_applyState (s := resetCgroup env s cgroup) (h.rules.remark h.sound cgroup htakes)
      (h.sound.resetCgroup cgroup) h.short hcgroup
  · exact ⟨synced_applyState (h.rules.markCgroup h.sound htakes cgroup) h.sound h.short hcgroup,
      same_applyState _ _ _, mem_applyState _ _ _⟩

theorem foldl_setCgroup (cgroups : List CgroupPath)
    (hsets : Guarded (setCgroup env .excluded) (SetsCgroup env) s cgroups) (h : Synced s) :
    Synced (cgroups.foldl (setCgroup env .excluded) s) ∧
      Same s (cgroups.foldl (setCgroup env .excluded) s) ∧
      ∀ path, path ∈ (cgroups.foldl (setCgroup env .excluded) s).excludedCgroups ↔
        path ∈ cgroups ∨ path ∈ s.excludedCgroups := by
  induction cgroups generalizing s with
  | nil => exact ⟨h, ⟨rfl, rfl, rfl⟩, fun path => by simp⟩
  | cons cgroup cgroups ih =>
    obtain ⟨hsynced, hsame, hmem⟩ := setCgroup_spec h hsets.1
    obtain ⟨hsynced', hsame', hmem'⟩ := ih hsets.2 hsynced
    rw [List.foldl_cons]
    refine ⟨hsynced', hsame.trans hsame', fun path => ?_⟩
    rw [hmem', hmem, List.mem_cons]
    tauto

/-- Behind changes of the groups and their rules, while there is an interface. -/
theorem Synced.inv (h : Synced s') (hsame : Same s s')
    (htracked : ∀ path, path ∈ s'.excludedCgroups ↔
      ∃ id, s.runningCgroups.lookup path = some id ∧ id ∈ s.excludedApps)
    (happs : ∀ id state, s.excludedApps.lookup id = some state → state = .excluded)
    (hexists : s.daemon.interfaceExists = true) (hup : Daemon.Up s.daemon) : Inv s' where
  short := h.short
  rules := h.rules
  sound := h.sound
  tracked := by
    rw [hsame.runningCgroups, hsame.excludedApps]
    exact htracked
  apps := by
    rw [hsame.excludedApps]
    exact happs
  interface := by
    intro _ _
    rw [hsame.daemon]
    exact hexists
  up := by
    rw [hsame.daemon]
    exact hup

theorem Inv.setAppState (h : Inv s) (hexists : s.daemon.interfaceExists = true) (id : List Char)
    (hsets : SetsApp env s id) :
    Inv (setAppState env s id .excluded) ∧
      (DBusService.setAppState env s id .excluded).daemon = s.daemon := by
  unfold DBusService.setAppState
  rw [if_neg (by decide)]
  have hsynced : Synced { s with excludedApps := s.excludedApps.insert id .excluded } :=
    ⟨h.rules, h.sound, h.short⟩
  obtain ⟨hsynced', hsame, hmem⟩ := foldl_setCgroup _ hsets hsynced
  refine ⟨hsynced'.inv hsame (fun path => ?_) (fun id' state hlookup => ?_) hexists h.up,
    hsame.daemon⟩
  · rw [hmem, mem_findByDesktopFileId, h.tracked]
    simp only [AList.mem_insert]
    constructor
    · rintro (hid | ⟨id', hid', happ⟩)
      · exact ⟨id, hid, .inl rfl⟩
      · exact ⟨id', hid', .inr happ⟩
    · rintro ⟨id', hid', rfl | happ⟩
      · exact .inl hid'
      · exact .inr ⟨id', hid', happ⟩
  · by_cases hid : id' = id
    · subst hid
      rw [AList.lookup_insert] at hlookup
      exact (Option.some.inj hlookup).symm
    · rw [AList.lookup_insert_ne hid] at hlookup
      exact h.apps id' state hlookup

theorem Inv.clearAppStates (h : Inv s) (hflushes : s.cgroups.Flushes env.kernel) :
    Inv (clearAppStates env s) where
  short := by simp [DBusService.clearAppStates]
  rules := (Cgroups.for_resetAll hflushes).congr fun path => by simp [DBusService.clearAppStates]
  sound := h.sound.resetAll
  tracked := by simp [DBusService.clearAppStates]
  apps := by simp [DBusService.clearAppStates]
  interface := by simp [DBusService.clearAppStates]
  up := h.up

/-! ### Launches and terminations -/

theorem Inv.tracked_insert (h : Inv s) {path : CgroupPath} (hnew : path ∉ s.runningCgroups)
    (id : List Char) (p : CgroupPath) :
    (∃ id', (s.runningCgroups.insert path id).lookup p = some id' ∧ id' ∈ s.excludedApps) ↔
      (p = path ∧ id ∈ s.excludedApps) ∨ p ∈ s.excludedCgroups := by
  rw [h.tracked]
  by_cases hp : p = path
  · subst hp
    rw [AList.lookup_insert, AList.lookup_eq_none.mpr hnew]
    simp
  · rw [AList.lookup_insert_ne hp]
    simp [hp]

theorem Inv.launch (h : Inv s) {path : CgroupPath} (hnew : path ∉ s.runningCgroups) (id : List Char)
    (hexcludable : id ∈ s.excludedApps → Excludable env s path) :
    Inv (appLaunched env { s with runningCgroups := s.runningCgroups.insert path id } path id) := by
  have htracked := h.tracked_insert hnew id
  unfold appLaunched
  dsimp only
  cases happ : s.excludedApps.lookup id with
  | none =>
    have hout : id ∉ s.excludedApps := AList.lookup_eq_none.mp happ
    rw [Option.getD_none, if_pos rfl]
    refine { h with tracked := fun p => ?_ }
    rw [htracked]
    simp [hout]
  | some state =>
    obtain rfl := h.apps id state happ
    have hin : id ∈ s.excludedApps := AList.lookup_isSome.mp (by rw [happ]; rfl)
    obtain ⟨hcgroup, htakes⟩ := hexcludable hin
    have hexists := h.interface id hin
    rw [Option.getD_some, if_neg (by decide)]
    have hsynced : Synced (applyState env
        { s with runningCgroups := s.runningCgroups.insert path id } path .excluded) :=
      synced_applyState (s := { s with runningCgroups := s.runningCgroups.insert path id })
        (h.rules.markCgroup h.sound htakes path) h.sound h.short hcgroup
    refine hsynced.inv (same_applyState _ path .excluded) (fun p => ?_) h.apps hexists h.up
    rw [mem_applyState, htracked]
    simp [hin]

theorem Inv.removeScope (h : Inv s) (path : CgroupPath) (hremoves : Removes env s path) :
    Inv (removeScope env s path) := by
  have hkeys : ∀ p, (p ≠ path ∧ p ∈ s.excludedCgroups) ↔
      ∃ id, (s.runningCgroups.erase path).lookup p = some id ∧ id ∈ s.excludedApps := by
    intro p
    by_cases hp : p = path
    · subst hp
      rw [AList.lookup_erase]
      simp
    · rw [AList.lookup_erase_ne hp, ← h.tracked]
      exact and_iff_right hp
  unfold DBusService.removeScope appTerminated
  dsimp only
  split_ifs with hmem
  · have hrules := h.rules.resetCgroup (hremoves hmem) (h.short path hmem) h.short
    have hshort : ∀ p ∈ s.excludedCgroups.erase path, p.bytes.length < 512 :=
      fun p hp => h.short p (AList.mem_erase.mp hp).2
    exact
      { short := hshort
        rules := hrules.congr fun p => by
          change _ ↔ p ∈ s.excludedCgroups.erase path
          rw [AList.mem_erase]
        sound := h.sound.resetCgroup path
        tracked := fun p => by
          change p ∈ s.excludedCgroups.erase path ↔ _
          rw [AList.mem_erase]
          exact hkeys p
        apps := h.apps
        interface := h.interface
        up := h.up }
  · refine { h with tracked := fun p => ?_ }
    rw [← hkeys]
    have hne : p ∈ s.excludedCgroups → p ≠ path := by
      rintro hp rfl
      exact hmem hp
    exact ⟨fun hp => ⟨hne hp, hp⟩, And.right⟩

/-- The first loop of `cgroupsChanged`: a path that is still to come is running only if it was
running before. -/
theorem Inv.addScopes (find : CgroupPath → List Char) {scopes old : List CgroupPath} (h : Inv s)
    (hnodup : scopes.Nodup) (hold : ∀ path ∈ scopes, path ∈ s.runningCgroups → path ∈ old)
    (hlaunches : Launches env find scopes old s) : Inv (addScopes env find scopes old s).2 := by
  induction scopes generalizing old s with
  | nil => exact h
  | cons path scopes ih =>
    obtain ⟨hout, hnodup'⟩ := List.nodup_cons.mp hnodup
    have hne : ∀ p ∈ scopes, p ≠ path := by
      rintro p hp rfl
      exact hout hp
    unfold DBusService.addScopes
    unfold Launches at hlaunches
    split_ifs at hlaunches ⊢ with hmem
    · refine ih h hnodup' (fun p hp hrunning => ?_) hlaunches
      have hpold := hold p (List.mem_cons_of_mem _ hp) hrunning
      exact List.mem_filter.mpr ⟨hpold, by simpa using hne p hp⟩
    · have hnew : path ∉ s.runningCgroups := fun hrunning =>
        hmem (hold path List.mem_cons_self hrunning)
      refine ih (h.launch hnew _ hlaunches.1) hnodup' (fun p hp hrunning => ?_) hlaunches.2
      have hinsert : p ∈ s.runningCgroups.insert path (find path) := by
        rwa [runningCgroups_appLaunched] at hrunning
      rcases (AList.mem_insert s.runningCgroups).mp hinsert with heq | hrunning
      · exact absurd heq (hne p hp)
      · exact hold p (List.mem_cons_of_mem _ hp) hrunning

theorem Inv.cgroupsChanged (h : Inv s) (here : CgroupPath → Bool) {scopes : List CgroupPath}
    (hnodup : scopes.Nodup) (find : CgroupPath → List Char)
    (hlaunches : Launches env find scopes s.runningCgroups.keys s)
    (hremoves : Guarded (DBusService.removeScope env) (Removes env)
      (DBusService.addScopes env find scopes s.runningCgroups.keys s).2
      ((DBusService.addScopes env find scopes s.runningCgroups.keys s).1.filter here)) :
    Inv (cgroupsChanged env here scopes find s) := by
  have hadd := h.addScopes find hnodup
    (fun path _ (hrunning : path ∈ s.runningCgroups.keys) => hrunning) hlaunches
  unfold DBusService.cgroupsChanged
  dsimp only
  have hrun := hremoves.invariant (fun s path (hs : Inv s) => hs.removeScope path) hadd
  simpa only [List.take_length] using hrun
    ((DBusService.addScopes env find scopes s.runningCgroups.keys s).1.filter here).length

/-! ### Activation and deactivation -/

/-- What an activation results in. -/
def Activated (r : Bool × State) : Prop :=
  Inv r.2 ∧ (r.1 = true → r.2.daemon.interfaceExists = true)

theorem Inv.not_mem_excludedCgroups (h : Inv s) (hnone : s.daemon.interfaceExists = false)
    (path : CgroupPath) : path ∉ s.excludedCgroups := by
  intro hpath
  obtain ⟨id, -, happ⟩ := (h.tracked path).mp hpath
  rw [h.interface id happ] at hnone
  cases hnone

theorem AddFailure.spec (failure : AddFailure) {c : Cgroups} {keys : CgroupPath → Prop}
    (hrules : c.For keys) (hsound : c.Sound) (hkeys : ∀ path, ¬keys path) :
    (failure.cgroups c).For keys ∧ (failure.cgroups c).Sound := by
  cases failure with
  | device => exact ⟨hrules, hsound⟩
  | setup => exact ⟨hrules, hsound⟩
  | firewall removed =>
    cases removed with
    | false => exact ⟨hrules.up, Cgroups.sound_up c⟩
    | true => exact ⟨Cgroups.for_down _ hkeys, Cgroups.sound_down _⟩
  | index => exact ⟨hrules.up, Cgroups.sound_up c⟩

theorem Inv.bringUp (h : Inv s) (config : InterfaceConfig) : Activated (bringUp env config s) := by
  have hm := (Daemon.activated_bringUp (B := env.backend) config s.daemon).guardFailure
  unfold DBusService.bringUp
  dsimp only
  generalize exec (Daemon.guardFailure (Daemon.bringUp env.backend config)) s.daemon = r at hm
  have hup := hm.up h.up
  split_ifs with hbefore hafter
  · exact ⟨{ h with interface := fun _ _ => hm.keeps hbefore, up := hup }, hm.success⟩
  · refine ⟨?_, hm.success⟩
    exact
      { h with
        rules := h.rules.up
        sound := Cgroups.sound_up _
        interface := fun _ _ => hafter
        up := hup }
  · rw [Bool.not_eq_true] at hbefore hafter
    have hnone := h.not_mem_excludedCgroups hbefore
    obtain ⟨hrules, hsound⟩ :=
      (env.addInterfaceFails s.daemon.calls).spec h.rules h.sound hnone
    refine ⟨?_, fun hok => ?_⟩
    · exact
        { h with
          rules := hrules
          sound := hsound
          interface := fun id happ => by
            rw [h.interface id happ] at hbefore
            cases hbefore
          up := fun hop hne => by
            rw [hup hop hne] at hafter
            cases hafter }
    · rw [hm.success hok] at hafter
      cases hafter

theorem Inv.switch (h : Inv s) (current config : InterfaceConfig)
    (hexists : s.daemon.interfaceExists = true) : Activated (switch env current config s) := by
  have hm := (Daemon.activated_switch (B := env.backend) current config hexists).guardFailure
  unfold DBusService.switch
  dsimp only
  generalize exec (Daemon.guardFailure (Daemon.switch env.backend current config)) s.daemon = r at hm
  exact ⟨{ h with interface := fun _ _ => hm.keeps hexists, up := hm.up h.up }, hm.success⟩

theorem Inv.daemonDeactivate (h : Inv s) (hnone : ∀ id, id ∉ s.excludedApps) (emitSignals : Bool) :
    Inv (daemonDeactivate env emitSignals s).2 := by
  have hm := Daemon.deactivated_deactivate (B := env.backend) emitSignals s.daemon
  have hkeys : ∀ path, path ∉ s.excludedCgroups := by
    intro path hpath
    obtain ⟨id, -, happ⟩ := (h.tracked path).mp hpath
    exact hnone id happ
  have hdown : s.cgroups.down.For (· ∈ s.excludedCgroups) ∧ s.cgroups.down.Sound :=
    ⟨Cgroups.for_down _ hkeys, Cgroups.sound_down _⟩
  have hcgroups : ∀ ok failure,
      (if ok = true then s.cgroups.down else DeleteFailure.cgroups failure s.cgroups).For
          (· ∈ s.excludedCgroups) ∧
        (if ok = true then s.cgroups.down else DeleteFailure.cgroups failure s.cgroups).Sound := by
    intro ok failure
    split_ifs
    · exact hdown
    · cases failure with
      | firewall => exact ⟨h.rules, h.sound⟩
      | device => exact hdown
  unfold DBusService.daemonDeactivate
  dsimp only
  generalize exec (Daemon.deactivate env.backend emitSignals) s.daemon = r at hm
  obtain ⟨hrules, hsound⟩ := hcgroups r.1.isOk (env.deleteInterfaceFails s.daemon.calls)
  exact
    { h with
      rules := hrules
      sound := hsound
      interface := fun id happ => absurd happ (hnone id)
      up := fun hop hne => absurd (hm.connections hop) hne }

theorem Inv.isCallerAuthorized (h : Inv s) (env : Env) : Inv (isCallerAuthorized env s).2 :=
  { h with }

theorem Inv.deactivate (h : Inv s) (emitSignals : Bool) (hclears : Clears env s) :
    Inv (deactivate env emitSignals s).2 := by
  unfold DBusService.deactivate
  dsimp only
  split_ifs with hdenied
  · exact h.isCallerAuthorized env
  · have hauth : env.authorizes s.checks = true := by
      simpa [DBusService.isCallerAuthorized] using hdenied
    have hclear : Inv (DBusService.clearAppStates env (DBusService.isCallerAuthorized env s).2) :=
      (h.isCallerAuthorized env).clearAppStates (hclears hauth)
    exact hclear.daemonDeactivate (by simp [DBusService.clearAppStates]) emitSignals

theorem Inv.loadApps (h : Inv s) (hexists : s.daemon.interfaceExists = true)
    (config : InterfaceConfig) (hloads : Loads env config s) :
    Activated (true, loadApps env config s) := by
  obtain ⟨hflushes, hsets⟩ := hloads
  have hclear : Inv (DBusService.clearAppStates env s) ∧
      (DBusService.clearAppStates env s).daemon.interfaceExists = true :=
    ⟨h.clearAppStates hflushes, hexists⟩
  unfold DBusService.loadApps
  generalize DBusService.clearAppStates env s = s' at hclear hsets
  have hstep : ∀ (s : State) (app : List Char),
      Inv s ∧ s.daemon.interfaceExists = true → SetsApp env s (desktopFileId app) →
        Inv (DBusService.setAppState env s (desktopFileId app) .excluded) ∧
          (DBusService.setAppState env s (desktopFileId app) .excluded).daemon.interfaceExists =
            true := by
    rintro s app ⟨hs, hexists⟩ happ
    obtain ⟨hinv, hdaemon⟩ := hs.setAppState hexists (desktopFileId app) happ
    exact ⟨hinv, by rw [hdaemon]; exact hexists⟩
  have hrun := hsets.invariant hstep hclear config.vpnDisabledApps.length
  rw [List.take_length] at hrun
  exact ⟨hrun.1, fun _ => hrun.2⟩

theorem Inv.failActivation (h : Inv s) : Inv (failActivation s) := { h with up := h.up }

theorem Inv.daemonActivate {activate : State → Bool × State} (config : InterfaceConfig) (h : Inv s)
    (hrestart : ∀ current, s.daemon.connections config.hopType = some current →
      Daemon.supportServerSwitching current.config config = false →
        Clears env s ∧ ((DBusService.deactivate env false s).1 = true →
          Inv (DBusService.deactivate env false s).2 →
            Activated (activate (DBusService.deactivate env false s).2))) :
    Activated (daemonActivate env activate config s) := by
  unfold DBusService.daemonActivate
  cases hcurrent : s.daemon.connections config.hopType with
  | none => exact h.bringUp config
  | some current =>
    have hexists : s.daemon.interfaceExists = true :=
      h.up config.hopType (by rw [hcurrent]; simp)
    dsimp only
    by_cases hswitch : Daemon.supportServerSwitching current.config config = true
    · rw [if_pos hswitch]
      exact h.switch current.config config hexists
    rw [if_neg hswitch]
    obtain ⟨hclears, hagain⟩ := hrestart current hcurrent (by simpa using hswitch)
    have hdeactivate := h.deactivate false hclears
    split_ifs with hfail hok
    · exact ⟨hdeactivate.failActivation, by simp⟩
    · exact hagain (by simpa using hfail) hdeactivate
    · exact ⟨(hagain (by simpa using hfail) hdeactivate).1.failActivation, by simp⟩

theorem activated_activateWith (config : InterfaceConfig) (fuel : ℕ) (s : State) (h : Inv s)
    (hactivates : Activates env fuel config s) : Activated (activateWith env fuel config s) := by
  induction fuel generalizing s with
  | zero => exact ⟨h, by simp [activateWith]⟩
  | succ fuel ih =>
    have hdaemon : env.authorizes s.checks = true → Activated
        (daemonActivate env (activateWith env fuel config) config (isCallerAuthorized env s).2) :=
      fun hauth => (h.isCallerAuthorized env).daemonActivate config fun current hcurrent hswitch =>
        ((hactivates hauth).1 current hcurrent hswitch).imp_right fun hagain hok hinv =>
          ih _ hinv (hagain hok)
    unfold activateWith
    dsimp only
    split_ifs with hdenied hfail
    · exact ⟨h.isCallerAuthorized env, by simp⟩
    · have hauth : env.authorizes s.checks = true := by simpa [isCallerAuthorized] using hdenied
      exact ⟨(hdaemon hauth).1, by simp⟩
    · have hauth : env.authorizes s.checks = true := by simpa [isCallerAuthorized] using hdenied
      have hok := by simpa using hfail
      exact (hdaemon hauth).1.loadApps ((hdaemon hauth).2 hok) config ((hactivates hauth).2 hok)

end Steps

/-! ## Runs -/

/-- What happens to the service: the groups in a directory change, or a method is called. The
entries of a directory are distinct. -/
inductive Event where
  | cgroupsChanged (here : CgroupPath → Bool) (scopes : {l : List CgroupPath // l.Nodup})
      (find : CgroupPath → List Char)
  | activate (config : InterfaceConfig)
  | deactivate (emitSignals : Bool)

def step (env : Env) (s : State) : Event → State
  | .cgroupsChanged here scopes find => cgroupsChanged env here scopes.1 find s
  | .activate config => (activate env config s).2
  | .deactivate emitSignals => (deactivate env emitSignals s).2

/-- What the event asks of the kernel is taken: to exclude a group, whose path must fit into a rule,
to delete the rules of one that is gone, and to clear the rules if there are any. -/
def guard (env : Env) (s : State) : Event → Prop
  | .cgroupsChanged here scopes find =>
    Launches env find scopes.1 s.runningCgroups.keys s ∧
      Guarded (removeScope env) (Removes env)
        (addScopes env find scopes.1 s.runningCgroups.keys s).2
        ((addScopes env find scopes.1 s.runningCgroups.keys s).1.filter here)
  | .activate config => Activates env 2 config s
  | .deactivate _ => Clears env s

/-- The groups excluded in the firewall are those the service has as excluded, and these are the
running groups of the applications to be excluded. -/
structure Agrees (s : State) : Prop where
  firewall : ∀ path, s.cgroups.Excludes path ↔ path ∈ s.excludedCgroups
  tracked : ∀ path, path ∈ s.excludedCgroups ↔
    ∃ id, s.runningCgroups.lookup path = some id ∧ id ∈ s.excludedApps

theorem Inv.agrees {s : State} (h : Inv s) : Agrees s :=
  ⟨h.rules.excludes_iff h.short, h.tracked⟩

theorem inv_step {env : Env} {s : State} (h : Inv s) (e : Event) (hguard : guard env s e) :
    Inv (step env s e) := by
  cases e with
  | cgroupsChanged here scopes find => exact h.cgroupsChanged here scopes.2 find hguard.1 hguard.2
  | activate config => exact (activated_activateWith config 2 s h hguard).1
  | deactivate emitSignals => exact h.deactivate emitSignals hguard

/-- `deactivate` forgets the groups, unless the caller may not call it. -/
theorem excludedCgroups_deactivate {env : Env} {s : State} (emitSignals : Bool)
    (hauth : env.authorizes s.checks = true) :
    (deactivate env emitSignals s).2.excludedCgroups = ∅ := by
  unfold deactivate isCallerAuthorized
  dsimp only
  rw [hauth]
  rfl

/-- A kernel that takes everything. -/
def lenient : Env where
  backend := { addressText := .ofTable [] [], hasIpUtils := true, succeeds := fun _ => true }
  addInterfaceFails := fun _ => .device
  deleteInterfaceFails := fun _ => .firewall
  authorizes := fun _ => true
  kernel := { lists := fun _ => true, admits := fun _ => true }

/-- An activation that excludes one application. -/
def excludeA : Event := .activate { hopType := .singleHop, vpnDisabledApps := ["a.desktop".toList] }

/-- A group of this application appears. -/
def launchA (path : CgroupPath) : Event :=
  .cgroupsChanged (fun _ => true) ⟨[path], List.nodup_singleton path⟩ fun _ => "a.desktop".toList

/-- The group `/a.scope`. -/
def scopeA : CgroupPath := ⟨[47#8, 97#8, 46#8, 115#8, 99#8, 111#8, 112#8, 101#8], by decide⟩

/-- The group runs before the application is excluded, and is there until the end. -/
def scopeARun : List Event := [launchA scopeA, excludeA, .deactivate true]

theorem scopeARun_guarded : Guarded (step lenient) (guard lenient) {} scopeARun := by
  refine ⟨⟨⟨fun h => absurd h (by decide), trivial⟩, trivial⟩,
    fun _ => ⟨fun current hcurrent => ?_, ?_⟩, fun _ => Or.inl ⟨by decide, rfl⟩, trivial⟩
  · cases hcurrent
  · exact fun _ => ⟨Or.inl ⟨by decide, rfl⟩, ⟨⟨by decide, by decide, rfl⟩, trivial⟩, trivial⟩

/-- A request for a rule that the kernel refuses, the second one of a run. -/
def refusing : Env := { lenient with kernel := { lists := fun _ => true, admits := (· ≠ 1) } }

/-- The first `addInterface` fails in the firewall, and leaves the device. -/
def halfInterface : Env :=
  { lenient with
    backend := { lenient.backend with succeeds := (· ≠ 0) }
    addInterfaceFails := fun _ => .firewall true }

/-- A group below two others, with names of 200 bytes. -/
def longScope : CgroupPath where
  bytes := (List.replicate 3 (47#8 :: List.replicate 200 97#8)).flatten ++
    [46#8, 115#8, 99#8, 111#8, 112#8, 101#8]
  noNul := by simp [-List.reduceReplicate]

theorem not_agrees {s : State} (path : CgroupPath) (hkeys : path ∈ s.excludedCgroups)
    (hmark : path.bytes ∉ s.cgroups.mark.map pathOf) : ¬Agrees s :=
  fun h => hmark ((h.firewall path).mpr hkeys).1

theorem notMem_map_pathOf_of_long {path : CgroupPath} (hlong : 512 ≤ path.bytes.length) :
    path.bytes ∉ [nftXtCgroupMatch path.bytes].map pathOf := by
  intro hmem
  rw [List.map_singleton, List.mem_singleton, pathOf_nftXtCgroupMatch_of_long hlong] at hmem
  have hlen := congrArg List.length hmem
  rw [List.length_take] at hlen
  omega

end WgDesktop.DBusService
