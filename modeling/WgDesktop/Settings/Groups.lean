import WgDesktop.Lib.Hierarchy
import WgDesktop.Lib.Runs

/-!
# Groups of settings

`SettingGroup` of `src/settings/settinggroup.cpp`, over the settings that `SettingsManager` has
registered and the storage behind them. What is stored is what the calls have written
(`abs_step`), and every group reads it; but a group hears only of the settings that it has loaded
when it was created or registered itself (`mem_connections_iff`). `groups_iff` says when that is
enough.
-/

namespace WgDesktop.SettingGroups

open Hierarchy Runs

variable {Part Value : Type} [DecidableEq Part] [DecidableEq Value]

/-- A `QVariant`, which may be null. -/
abbrev QVariant (Value : Type) := Option Value

/-- The key of a group, or of a setting in it: its parts, as the slashes separate them. A
group's key holds no place marker such as `%1`, which `buildSettingKeyWithGroupPrefix` fills. -/
abbrev Key (Part : Type) := { parts : Path Part // parts ≠ [] }

/-- `registeredSettings` are the keys of the settings, and `connections` what was connected to their
`changed` signals, each group by its number. -/
structure SettingsManager (Part Value : Type) where
  storage : Store Part (QVariant Value) := []
  registeredSettings : List (Path Part) := []
  connections : List (ℕ × Path Part) := []
  groups : List (Key Part) := []

/-! ## The settings -/

namespace SettingsManager

variable (s : SettingsManager Part Value)

/-- `Setting::get`, for a setting whose default value is null. -/
def settingGet (settingKey : Path Part) : QVariant Value :=
  match s.storage.lookup settingKey with
  | none => none
  | some value => value

/-- The groups that `Setting::changed` reaches. -/
def changed (settingKey : Path Part) : List ℕ :=
  (s.connections.filter fun connection => connection.2 = settingKey).map Prod.fst

/-- `Setting::set`, with the groups that hear of it. -/
def settingSet (settingKey : Path Part) (value : QVariant Value) :
    SettingsManager Part Value × List ℕ :=
  if s.storage.lookup settingKey = none ∨ s.settingGet settingKey ≠ value then
    ({ s with storage := s.storage.insert settingKey value }, s.changed settingKey)
  else (s, [])

def createOrGetSetting (settingKey : Path Part) : SettingsManager Part Value :=
  if settingKey ∈ s.registeredSettings then s
  else { s with registeredSettings := s.registeredSettings ++ [settingKey] }

/-! ## The groups -/

/-- `SettingGroup::addSetting`, with the key under the prefix of the group. -/
def addSetting (group : ℕ) (settingKey : Path Part) : SettingsManager Part Value :=
  let s := s.createOrGetSetting settingKey
  { s with connections := s.connections ++ [(group, settingKey)] }

/-- The constructor of `SettingGroup`. -/
def createSettingGroup (groupKey : Key Part) : SettingsManager Part Value :=
  (s.storage.below groupKey.1).foldl
    (fun t key => t.addSetting s.groups.length (groupKey.1 ++ key))
    { s with groups := s.groups ++ [groupKey] }

def get (group : ℕ) (key : Key Part) : QVariant Value :=
  match s.groups[group]? with
  | none => none
  | some groupKey =>
    if groupKey.1 ++ key.1 ∈ s.registeredSettings then s.settingGet (groupKey.1 ++ key.1) else none

def set (group : ℕ) (key : Key Part) (value : QVariant Value) :
    SettingsManager Part Value × List ℕ :=
  match s.groups[group]? with
  | none => (s, [])
  | some groupKey =>
    let fullKey := groupKey.1 ++ key.1
    let s := if fullKey ∈ s.registeredSettings then s else s.addSetting group fullKey
    s.settingSet fullKey value

/-- `QSettings` removes the key of the group with those below it; each of those has a setting
(`Registered`). -/
def remove (group : ℕ) : SettingsManager Part Value × List ℕ :=
  match s.groups[group]? with
  | none => (s, [])
  | some groupKey =>
    ({ s with storage := s.storage.removeTree groupKey.1 },
      (s.storage.below groupKey.1).flatMap fun key => s.changed (groupKey.1 ++ key))

/-- The calls, of which the first has the group it creates as its result. -/
inductive Call (Part Value : Type) where
  | createSettingGroup (groupKey : Key Part)
  | set (group : ℕ) (key : Key Part) (value : QVariant Value)
  | remove (group : ℕ)

/-- The state after a call, and the groups that emit `changed` in it. -/
def call : Call Part Value → SettingsManager Part Value × List ℕ
  | .createSettingGroup groupKey => (s.createSettingGroup groupKey, [])
  | .set group key value => s.set group key value
  | .remove group => s.remove group

def step (c : Call Part Value) : SettingsManager Part Value := (s.call c).1

def emitted (c : Call Part Value) : List ℕ := (s.call c).2

end SettingsManager

/-! ## What is required -/

/-- What has been written: the groups, and the value of each key, if it has one. -/
structure Written (Part Value : Type) where
  groups : List (Key Part)
  value : Path Part → Option (QVariant Value)

namespace Written

/-- A value that is set stays until another one is, or a remove covers the key. -/
def step (w : Written Part Value) : SettingsManager.Call Part Value → Written Part Value
  | .createSettingGroup groupKey => { w with groups := w.groups ++ [groupKey] }
  | .set group key value =>
    match w.groups[group]? with
    | none => w
    | some groupKey =>
      { w with value := fun p => if p = groupKey.1 ++ key.1 then some value else w.value p }
  | .remove group =>
    match w.groups[group]? with
    | none => w
    | some groupKey => { w with value := fun p => if groupKey.1 <+: p then none else w.value p }

def get (w : Written Part Value) (group : ℕ) (key : Key Part) : QVariant Value :=
  match w.groups[group]? with
  | none => none
  | some groupKey => (w.value (groupKey.1 ++ key.1)).getD none

end Written

namespace SettingsManager

open SettingsManager (step)

/-- The abstract state of the manager. -/
def abs (s : SettingsManager Part Value) : Written Part Value :=
  ⟨s.groups, fun p => s.storage.lookup p⟩

/-- Every group with a key under its prefix whose stored value changes in the call emits. -/
def Observed (s : SettingsManager Part Value) (c : Call Part Value) : Prop :=
  ∀ group groupKey, s.groups[group]? = some groupKey →
    (∃ p, Under groupKey.1 p ∧ (s.step c).storage.lookup p ≠ s.storage.lookup p) →
      group ∈ s.emitted c

/-- The calls that change what is stored at a key. -/
def Changes (s : SettingsManager Part Value) (p : Path Part) : Call Part Value → Prop
  | .createSettingGroup _ => False
  | .set group key value => ∃ groupKey, s.groups[group]? = some groupKey ∧
      p = groupKey.1 ++ key.1 ∧ s.storage.lookup p ≠ some value
  | .remove group => ∃ groupKey, s.groups[group]? = some groupKey ∧
      groupKey.1 <+: p ∧ s.storage.lookup p ≠ none

/-- A remove says nothing of the key of the group itself. -/
def Announces (s : SettingsManager Part Value) (p : Path Part) (c : Call Part Value) : Prop :=
  Changes s p c ∧ ∀ group groupKey, c = .remove group → s.groups[group]? = some groupKey →
    groupKey.1 ≠ p

/-- The call that makes a group listen to a key: its creation, when the key is stored, or the first
write of the key, when it is its own. -/
def Joins (s : SettingsManager Part Value) (group : ℕ) (p : Path Part) : Call Part Value → Prop
  | .createSettingGroup groupKey =>
    group = s.groups.length ∧ Under groupKey.1 p ∧ s.storage.lookup p ≠ none
  | .set group' key _ => group' = group ∧ ∃ groupKey, s.groups[group]? = some groupKey ∧
      p = groupKey.1 ++ key.1 ∧ p ∉ s.registeredSettings
  | .remove _ => False

/-! ## One call -/

variable {s : SettingsManager Part Value} {p q : Path Part} {group group' : ℕ}
  {groupKey : Key Part} {key : Key Part} {value : QVariant Value}

section

omit [DecidableEq Value]

@[simp] theorem addSetting_storage (s : SettingsManager Part Value) (group : ℕ) (p : Path Part) :
    (s.addSetting group p).storage = s.storage := by
  rw [addSetting, createOrGetSetting]
  split <;> rfl

@[simp] theorem addSetting_groups (s : SettingsManager Part Value) (group : ℕ) (p : Path Part) :
    (s.addSetting group p).groups = s.groups := by
  rw [addSetting, createOrGetSetting]
  split <;> rfl

theorem addSetting_registeredSettings (s : SettingsManager Part Value) (group : ℕ)
    (p q : Path Part) :
    q ∈ (s.addSetting group p).registeredSettings ↔ q ∈ s.registeredSettings ∨ q = p := by
  rw [addSetting, createOrGetSetting]
  split
  · next h =>
    refine ⟨.inl, fun hq => hq.elim id ?_⟩
    rintro rfl
    exact h
  · simp

theorem addSetting_connections (s : SettingsManager Part Value) (group : ℕ) (p : Path Part) :
    (s.addSetting group p).connections = s.connections ++ [(group, p)] := by
  rw [addSetting, createOrGetSetting]
  split <;> rfl

theorem foldl_addSetting (s : SettingsManager Part Value) (group : ℕ) (groupKey : Path Part)
    (keys : List (Path Part)) :
    let t := keys.foldl (fun t key => t.addSetting group (groupKey ++ key)) s
    t.storage = s.storage ∧ t.groups = s.groups ∧
      (∀ q, q ∈ t.registeredSettings ↔
        q ∈ s.registeredSettings ∨ ∃ key ∈ keys, groupKey ++ key = q) ∧
      ∀ c, c ∈ t.connections ↔
        c ∈ s.connections ∨ ∃ key ∈ keys, (group, groupKey ++ key) = c := by
  induction keys generalizing s with
  | nil => simp
  | cons key keys ih =>
    obtain ⟨hstorage, hgroups, hregistered, hconnections⟩ :=
      ih (s.addSetting group (groupKey ++ key))
    refine ⟨hstorage.trans (addSetting_storage _ _ _), hgroups.trans (addSetting_groups _ _ _),
      fun q => ?_, fun c => ?_⟩
    · rw [List.foldl_cons, hregistered, addSetting_registeredSettings]
      simp [or_assoc, eq_comm]
    · rw [List.foldl_cons, hconnections, addSetting_connections]
      simp [or_assoc, eq_comm]

theorem createSettingGroup_spec (s : SettingsManager Part Value) (groupKey : Key Part) :
    let t := s.createSettingGroup groupKey
    t.storage = s.storage ∧ t.groups = s.groups ++ [groupKey] ∧
      (∀ q, q ∈ t.registeredSettings ↔
        q ∈ s.registeredSettings ∨ Under groupKey.1 q ∧ s.storage.lookup q ≠ none) ∧
      ∀ g q, (g, q) ∈ t.connections ↔ (g, q) ∈ s.connections ∨
        g = s.groups.length ∧ Under groupKey.1 q ∧ s.storage.lookup q ≠ none := by
  obtain ⟨hstorage, hgroups, hregistered, hconnections⟩ := foldl_addSetting
    { s with groups := s.groups ++ [groupKey] } s.groups.length groupKey.1
    (s.storage.below groupKey.1)
  refine ⟨hstorage, hgroups, fun q => ?_, fun g q => ?_⟩
  · rw [createSettingGroup, hregistered, Store.exists_below_iff]
  · rw [createSettingGroup, hconnections, ← Store.exists_below_iff]
    refine or_congr Iff.rfl ⟨?_, ?_⟩
    · rintro ⟨key, hkey, heq⟩
      obtain ⟨rfl, rfl⟩ := Prod.mk.inj heq
      exact ⟨rfl, key, hkey, rfl⟩
    · rintro ⟨rfl, key, hkey, rfl⟩
      exact ⟨key, hkey, rfl⟩

theorem mem_changed : group ∈ s.changed p ↔ (group, p) ∈ s.connections := by
  rw [changed, List.mem_map]
  constructor
  · rintro ⟨⟨g, q⟩, hc, rfl⟩
    obtain ⟨hmem, hq⟩ := List.mem_filter.mp hc
    obtain rfl : q = p := by simpa using hq
    exact hmem
  · intro hc
    exact ⟨(group, p), List.mem_filter.mpr ⟨hc, by simp⟩, rfl⟩

/-- The manager before `SettingGroup::set` sets the value. -/
def prepared (s : SettingsManager Part Value) (group : ℕ) (p : Path Part) :
    SettingsManager Part Value :=
  if p ∈ s.registeredSettings then s else s.addSetting group p

/-- A group listens to its own key if it is the one that registers it. -/
theorem prepared_spec (s : SettingsManager Part Value) (group : ℕ) (p : Path Part) :
    let t := s.prepared group p
    t.storage = s.storage ∧ t.groups = s.groups ∧
      (∀ q, q ∈ t.registeredSettings ↔ q ∈ s.registeredSettings ∨ q = p) ∧
      ∀ g q, (g, q) ∈ t.connections ↔
        (g, q) ∈ s.connections ∨ g = group ∧ q = p ∧ q ∉ s.registeredSettings := by
  rw [prepared]
  split
  · next h =>
    refine ⟨rfl, rfl, fun q => (or_iff_left_of_imp ?_).symm, fun g q => (or_iff_left ?_).symm⟩
    · rintro rfl
      exact h
    · rintro ⟨-, rfl, hnot⟩
      exact hnot h
  · next h =>
    refine ⟨addSetting_storage _ _ _, addSetting_groups _ _ _,
      addSetting_registeredSettings s group p, fun g q => ?_⟩
    rw [addSetting_connections, List.mem_append, List.mem_singleton, Prod.mk.injEq]
    refine or_congr Iff.rfl (and_congr Iff.rfl ⟨?_, And.left⟩)
    rintro rfl
    exact ⟨rfl, h⟩

theorem remove_of_none (h : s.groups[group]? = none) : s.remove group = (s, []) := by
  rw [remove, h]

theorem changes_set (h : s.groups[group]? = some groupKey) :
    Changes s p (.set group key value) ↔
      p = groupKey.1 ++ key.1 ∧ s.storage.lookup p ≠ some value := by
  simp [Changes, h]

theorem changes_remove (h : s.groups[group]? = some groupKey) :
    Changes s p (.remove group) ↔ groupKey.1 <+: p ∧ s.storage.lookup p ≠ none := by
  simp [Changes, h]

theorem not_changes_set (h : s.groups[group]? = none) : ¬Changes s p (.set group key value) := by
  simp [Changes, h]

theorem not_changes_remove (h : s.groups[group]? = none) : ¬Changes s p (.remove group) := by
  simp [Changes, h]

theorem announces_set (h : s.groups[group]? = some groupKey) :
    Announces s p (.set group key value) ↔
      p = groupKey.1 ++ key.1 ∧ s.storage.lookup p ≠ some value := by
  rw [Announces, and_iff_left (fun _ _ hc => nomatch hc), changes_set h]

theorem announces_remove (h : s.groups[group]? = some groupKey) :
    Announces s p (.remove group) ↔ Under groupKey.1 p ∧ s.storage.lookup p ≠ none := by
  rw [Announces, changes_remove h, Under]
  constructor
  · rintro ⟨⟨hbelow, hstored⟩, hne⟩
    exact ⟨⟨hbelow, hne group groupKey rfl h⟩, hstored⟩
  · rintro ⟨⟨hbelow, hne⟩, hstored⟩
    refine ⟨⟨hbelow, hstored⟩, fun group' groupKey' hc hgroup => ?_⟩
    cases hc
    rw [h, Option.some.injEq] at hgroup
    exact hgroup ▸ hne

end

theorem settingSet_eq (s : SettingsManager Part Value) (p : Path Part) (value : QVariant Value) :
    s.settingSet p value =
      if s.storage.lookup p ≠ some value then
        ({ s with storage := s.storage.insert p value }, s.changed p)
      else (s, []) := by
  rw [settingSet, settingGet]
  cases h : s.storage.lookup p with
  | none => simp
  | some stored => simp

theorem set_of_group (h : s.groups[group]? = some groupKey) :
    s.set group key value =
      (s.prepared group (groupKey.1 ++ key.1)).settingSet (groupKey.1 ++ key.1) value := by
  rw [set, h]
  rfl

theorem set_of_none (h : s.groups[group]? = none) : s.set group key value = (s, []) := by
  rw [set, h]

theorem settingSet_fields (s : SettingsManager Part Value) (p : Path Part)
    (value : QVariant Value) :
    (s.settingSet p value).1.registeredSettings = s.registeredSettings ∧
      (s.settingSet p value).1.connections = s.connections ∧
      (s.settingSet p value).1.groups = s.groups := by
  rw [settingSet]
  split <;> exact ⟨rfl, rfl, rfl⟩

theorem lookup_settingSet (s : SettingsManager Part Value) (p q : Path Part)
    (value : QVariant Value) :
    (s.settingSet p value).1.storage.lookup q =
      if q = p then some value else s.storage.lookup q := by
  rw [settingSet_eq]
  split
  · exact Store.lookup_insert
  · next h =>
    split
    · next hq => rw [hq, not_not.mp h]
    · rfl

theorem set_spec (h : s.groups[group]? = some groupKey) (key : Key Part)
    (value : QVariant Value) :
    let t := (s.set group key value).1
    (∀ q, t.storage.lookup q =
      if q = groupKey.1 ++ key.1 then some value else s.storage.lookup q) ∧
      t.groups = s.groups ∧
      (∀ q, q ∈ t.registeredSettings ↔ q ∈ s.registeredSettings ∨ q = groupKey.1 ++ key.1) ∧
      ∀ g q, (g, q) ∈ t.connections ↔ (g, q) ∈ s.connections ∨
        g = group ∧ q = groupKey.1 ++ key.1 ∧ q ∉ s.registeredSettings := by
  obtain ⟨hstorage, hgroups, hregistered, hconnections⟩ :=
    prepared_spec s group (groupKey.1 ++ key.1)
  obtain ⟨hregistered', hconnections', hgroups'⟩ :=
    settingSet_fields (s.prepared group (groupKey.1 ++ key.1)) (groupKey.1 ++ key.1) value
  rw [set_of_group h]
  refine ⟨fun q => ?_, hgroups'.trans hgroups, fun q => ?_, fun g q => ?_⟩
  · rw [lookup_settingSet, hstorage]
  · rw [hregistered', hregistered]
  · rw [hconnections', hconnections]

/-- **The storage.** What is stored is what was written. -/
theorem abs_step (s : SettingsManager Part Value) (c : Call Part Value) :
    abs (s.step c) = (abs s).step c := by
  cases c with
  | createSettingGroup groupKey =>
    obtain ⟨hstorage, hgroups, -, -⟩ := createSettingGroup_spec s groupKey
    show (⟨_, _⟩ : Written Part Value) = ⟨_, _⟩
    rw [step, call, hstorage, hgroups]
    rfl
  | set group key value =>
    cases h : s.groups[group]? with
    | none =>
      have hsame : (abs s).groups[group]? = none := h
      rw [step, call, set_of_none h, Written.step, hsame]
    | some groupKey =>
      have hsame : (abs s).groups[group]? = some groupKey := h
      obtain ⟨hlookup, hgroups, -, -⟩ := set_spec h key value
      rw [step, call, Written.step, hsame]
      show (⟨_, _⟩ : Written Part Value) = ⟨_, _⟩
      rw [hgroups]
      exact congrArg (Written.mk s.groups) (funext hlookup)
  | remove group =>
    cases h : s.groups[group]? with
    | none =>
      have hsame : (abs s).groups[group]? = none := h
      rw [step, call, remove_of_none h, Written.step, hsame]
    | some groupKey =>
      have hsame : (abs s).groups[group]? = some groupKey := h
      rw [step, call, remove, h, Written.step, hsame]
      exact congrArg (Written.mk s.groups) (funext fun q => Store.lookup_removeTree)

/-- **The connections.** A call adds those of the groups that it makes listen. -/
theorem mem_connections_step (c : Call Part Value) :
    (group, p) ∈ (s.step c).connections ↔ (group, p) ∈ s.connections ∨ Joins s group p c := by
  cases c with
  | createSettingGroup groupKey => exact (createSettingGroup_spec s groupKey).2.2.2 group p
  | set group' key value =>
    cases h : s.groups[group']? with
    | none =>
      rw [step, call, set_of_none h]
      refine (or_iff_left ?_).symm
      rintro ⟨rfl, groupKey, hgroup, -⟩
      rw [h] at hgroup
      cases hgroup
    | some groupKey =>
      rw [step, call, (set_spec h key value).2.2.2]
      refine or_congr Iff.rfl ⟨?_, ?_⟩
      · rintro ⟨rfl, hp⟩
        exact ⟨rfl, groupKey, h, hp⟩
      · rintro ⟨rfl, groupKey', hgroup, hp⟩
        rw [h, Option.some.injEq] at hgroup
        exact ⟨rfl, hgroup ▸ hp⟩
  | remove group' =>
    have hsame : (s.step (.remove group')).connections = s.connections := by
      rw [step, call, remove]
      split <;> rfl
    rw [hsame, Joins, or_false]

/-- **The signals.** A group emits when it listens to a key that the call announces. -/
theorem mem_emitted (c : Call Part Value) :
    group ∈ s.emitted c ↔ ∃ p, Announces s p c ∧ (group, p) ∈ (s.step c).connections := by
  cases c with
  | createSettingGroup groupKey =>
    refine iff_of_false List.not_mem_nil ?_
    rintro ⟨p, ⟨hchanges, -⟩, -⟩
    exact hchanges
  | set group' key value =>
    cases h : s.groups[group']? with
    | none =>
      rw [emitted, call, set_of_none h]
      refine iff_of_false List.not_mem_nil ?_
      rintro ⟨p, ⟨hchanges, -⟩, -⟩
      exact not_changes_set h hchanges
    | some groupKey =>
      rw [emitted, step, call, set_of_group h]
      simp only [announces_set h, (settingSet_fields _ _ _).2.1]
      rw [settingSet_eq, (prepared_spec _ _ _).1]
      split
      · next hne =>
        rw [mem_changed]
        exact ⟨fun hc => ⟨_, ⟨rfl, hne⟩, hc⟩, fun ⟨_, ⟨hp, _⟩, hc⟩ => hp ▸ hc⟩
      · next heq =>
        refine iff_of_false List.not_mem_nil ?_
        rintro ⟨p, ⟨rfl, hne⟩, -⟩
        exact heq hne
  | remove group' =>
    cases h : s.groups[group']? with
    | none =>
      rw [emitted, call, remove_of_none h]
      refine iff_of_false List.not_mem_nil ?_
      rintro ⟨p, ⟨hchanges, -⟩, -⟩
      exact not_changes_remove h hchanges
    | some groupKey =>
      rw [emitted, step, call, remove, h]
      simp only [announces_remove h, ← Store.exists_below_iff]
      rw [List.mem_flatMap]
      constructor
      · rintro ⟨k, hk, hgroup⟩
        exact ⟨_, ⟨k, hk, rfl⟩, mem_changed.mp hgroup⟩
      · rintro ⟨p, ⟨k, hk, rfl⟩, hc⟩
        exact ⟨k, hk, mem_changed.mpr hc⟩

theorem lookup_step_ne_iff (c : Call Part Value) :
    (s.step c).storage.lookup p ≠ s.storage.lookup p ↔ Changes s p c := by
  cases c with
  | createSettingGroup groupKey =>
    rw [step, call, (createSettingGroup_spec s groupKey).1]
    exact iff_of_false (fun h => h rfl) id
  | set group key value =>
    cases h : s.groups[group]? with
    | none =>
      rw [step, call, set_of_none h]
      exact iff_of_false (fun hne => hne rfl) (not_changes_set h)
    | some groupKey =>
      rw [step, call, (set_spec h key value).1, changes_set h]
      split
      · next hp => simp [hp, eq_comm]
      · next hp => simp [hp]
  | remove group =>
    cases h : s.groups[group]? with
    | none =>
      rw [step, call, remove_of_none h]
      exact iff_of_false (fun hne => hne rfl) (not_changes_remove h)
    | some groupKey =>
      rw [step, call, remove, h, changes_remove h]
      dsimp only
      rw [Store.lookup_removeTree]
      split
      · next hp => exact ne_comm.trans (and_iff_right hp).symm
      · next hp => simp [hp]

/-! ## Reading -/

/-- Every stored key under the prefix of a group has a setting. -/
def Registered (s : SettingsManager Part Value) : Prop :=
  ∀ (group : ℕ) (groupKey : Key Part), s.groups[group]? = some groupKey →
    ∀ p, Under groupKey.1 p → s.storage.lookup p ≠ none → p ∈ s.registeredSettings

theorem Registered.step (h : Registered s) (c : Call Part Value) : Registered (s.step c) := by
  intro group groupKey hgroup p hunder hstored
  cases c with
  | createSettingGroup groupKey' =>
    obtain ⟨hstorage, hgroups, hregistered, -⟩ := createSettingGroup_spec s groupKey'
    rw [SettingsManager.step, call] at hgroup hstored ⊢
    rw [hgroups] at hgroup
    rw [hstorage] at hstored
    rw [hregistered]
    rcases List.mem_append.mp (List.mem_of_getElem? hgroup) with hmem | hmem
    · obtain ⟨g, hg⟩ := List.mem_iff_getElem?.mp hmem
      exact .inl (h g groupKey hg p hunder hstored)
    · obtain rfl := List.mem_singleton.mp hmem
      exact .inr ⟨hunder, hstored⟩
  | set group' key value =>
    rw [SettingsManager.step, call] at hgroup hstored ⊢
    cases hgroup' : s.groups[group']? with
    | none =>
      rw [set_of_none hgroup'] at hgroup hstored ⊢
      exact h group groupKey hgroup p hunder hstored
    | some groupKey' =>
      obtain ⟨hlookup, hgroups, hregistered, -⟩ := set_spec hgroup' key value
      rw [hgroups] at hgroup
      rw [hlookup] at hstored
      rw [hregistered]
      split at hstored
      · next hp => exact .inr hp
      · exact .inl (h group groupKey hgroup p hunder hstored)
  | remove group' =>
    rw [SettingsManager.step, call] at hgroup hstored ⊢
    cases hgroup' : s.groups[group']? with
    | none =>
      rw [remove_of_none hgroup'] at hgroup hstored ⊢
      exact h group groupKey hgroup p hunder hstored
    | some groupKey' =>
      rw [remove, hgroup'] at hgroup hstored ⊢
      dsimp only at hgroup hstored ⊢
      rw [Store.lookup_removeTree] at hstored
      split at hstored
      · exact absurd rfl hstored
      · exact h group groupKey hgroup p hunder hstored

omit [DecidableEq Value] in
theorem get_eq (h : Registered s) (group : ℕ) (key : Key Part) :
    s.get group key = (abs s).get group key := by
  rw [get, Written.get]
  show _ = match s.groups[group]? with | none => none | some groupKey => _
  cases hgroup : s.groups[group]? with
  | none => rfl
  | some groupKey =>
    show _ = (s.storage.lookup (groupKey.1 ++ key.1)).getD none
    dsimp only
    rw [settingGet]
    split
    · cases s.storage.lookup (groupKey.1 ++ key.1) <;> rfl
    · next hnot =>
      have hnone : s.storage.lookup (groupKey.1 ++ key.1) = none := by
        by_contra hstored
        exact hnot (h group groupKey hgroup _ (under_append key.2) hstored)
      rw [hnone]
      rfl

/-! ## Every run -/

variable (storage : Store Part (QVariant Value)) (calls : List (Call Part Value))

/-- The manager after the first calls, from what the storage held at the start. -/
def after (n : ℕ) : SettingsManager Part Value := (calls.take n).foldl step { storage }

/-- What the first calls have written. -/
def writtenAfter (n : ℕ) : Written Part Value :=
  (calls.take n).foldl Written.step { groups := [], value := fun p => storage.lookup p }

variable {storage calls} {n : ℕ} {c : Call Part Value}

theorem after_succ (hc : calls[n]? = some c) :
    after storage calls (n + 1) = (after storage calls n).step c := by
  rw [after, List.take_add_one, hc, Option.toList_some, List.foldl_append]
  rfl

theorem after_succ_of_none (hc : calls[n]? = none) :
    after storage calls (n + 1) = after storage calls n := by
  rw [after, List.take_add_one, hc, Option.toList_none, List.append_nil]
  rfl

theorem abs_after (n : ℕ) : abs (after storage calls n) = writtenAfter storage calls n :=
  (List.foldl_hom abs fun s c => (abs_step s c).symm).symm

theorem registered_after (n : ℕ) : Registered (after storage calls n) := by
  rw [after]
  refine @foldl_invariant _ _ step Registered (fun _ c hs => hs.step c) _ ?_ _
  intro group groupKey hgroup
  cases hgroup

/-- A group listens to the keys that some call has made it listen to. -/
theorem mem_connections_iff :
    (group, p) ∈ (after storage calls n).connections ↔
      ∃ m c, m < n ∧ calls[m]? = some c ∧ Joins (after storage calls m) group p c := by
  induction n with
  | zero => exact iff_of_false List.not_mem_nil fun ⟨m, c, hm, _⟩ => Nat.not_lt_zero m hm
  | succ n ih =>
    cases hc : calls[n]? with
    | none =>
      rw [after_succ_of_none hc, ih]
      constructor
      · rintro ⟨m, d, hm, h⟩
        exact ⟨m, d, Nat.lt_succ_of_lt hm, h⟩
      · rintro ⟨m, d, hm, hd, hj⟩
        refine ⟨m, d, Nat.lt_of_le_of_ne (Nat.le_of_lt_succ hm) ?_, hd, hj⟩
        rintro rfl
        rw [hc] at hd
        cases hd
    | some c =>
      rw [after_succ hc, mem_connections_step, ih]
      constructor
      · rintro (⟨m, d, hm, h⟩ | hj)
        · exact ⟨m, d, Nat.lt_succ_of_lt hm, h⟩
        · exact ⟨n, c, Nat.lt_succ_self n, hc, hj⟩
      · rintro ⟨m, d, hm, hd, hj⟩
        rcases Nat.lt_succ_iff_lt_or_eq.mp hm with hm | rfl
        · exact .inl ⟨m, d, hm, hd, hj⟩
        · rw [hc, Option.some.injEq] at hd
          exact .inr (hd ▸ hj)

/-- Whenever a call changes a key under the prefix of a group, it announces a key that the group was
made to listen to by then. -/
def Heard (storage : Store Part (QVariant Value)) (calls : List (Call Part Value)) : Prop :=
  ∀ n c, calls[n]? = some c → ∀ group groupKey,
    (after storage calls n).groups[group]? = some groupKey →
    (∃ p, Under groupKey.1 p ∧ Changes (after storage calls n) p c) →
    ∃ p, Announces (after storage calls n) p c ∧
      ∃ m d, m ≤ n ∧ calls[m]? = some d ∧ Joins (after storage calls m) group p d

/-- Each group reads what was written last, and emits whenever something under its prefix
changes. -/
structure Observes (storage : Store Part (QVariant Value)) (calls : List (Call Part Value)) :
    Prop where
  get : ∀ n group key, (after storage calls n).get group key =
    (writtenAfter storage calls n).get group key
  changed : ∀ n c, calls[n]? = some c → Observed (after storage calls n) c

/-- Whatever the groups and the calls: what a group reads is right, and it observes every change
just when each change is one that it hears of. -/
theorem groups_iff (storage : Store Part (QVariant Value)) (calls : List (Call Part Value)) :
    Observes storage calls ↔ Heard storage calls := by
  have hget : ∀ n group key, (after storage calls n).get group key =
      (writtenAfter storage calls n).get group key := fun n group key => by
    rw [get_eq (registered_after n), abs_after]
  have hchanged : (∀ n c, calls[n]? = some c → Observed (after storage calls n) c) ↔
      Heard storage calls := by
    refine forall_congr' fun n => forall_congr' fun c => forall_congr' fun hc =>
      forall_congr' fun group => forall_congr' fun groupKey => forall_congr' fun _ => ?_
    simp only [lookup_step_ne_iff, mem_emitted]
    simp only [← after_succ hc, mem_connections_iff, Nat.lt_succ_iff]
  exact ⟨fun h => hchanged.mp h.changed, fun h => ⟨hget, hchanged.mpr h⟩⟩

/-- Two groups of one prefix, the first of which writes a key. -/
def twins : List (Call String ℕ) :=
  [.createSettingGroup ⟨["addons"], nofun⟩, .createSettingGroup ⟨["addons"], nofun⟩,
    .set 0 ⟨["state"], nofun⟩ (some 1)]

/-- The second does not hear of it. -/
theorem not_observes_twins : ¬Observes [] twins := by
  intro h
  have hemitted := h.changed 2 _ rfl 1 ⟨["addons"], nofun⟩ rfl
    ⟨["addons", "state"], by decide, by decide⟩
  revert hemitted
  decide

end SettingsManager

end WgDesktop.SettingGroups
