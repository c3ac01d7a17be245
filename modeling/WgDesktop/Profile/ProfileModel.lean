import WgDesktop.Lib.Json
import WgDesktop.Profile.RoundTrip

/-!
# The profile list

`WireGuardProfileModel` from `src/models/wireguardprofilemodel.cpp`: the imported profiles, which
of them is active, and their copy in the application settings. The notifications to the user
interface are left out.

`invariant_run` is what holds in every state; `loadFromSettings_run` says that a restart finds the
same profiles.
-/

namespace WgDesktop

open Text Runs

/-! ## The model -/

/-- `QJsonDocument::fromJson`, which is none when the bytes are no document, and `toJson`. -/
structure JsonText where
  fromJson : List UInt8 → Option Json
  toJson : Json → List UInt8

/-- What the profile list uses of Qt: address and JSON texts, and translations, which fall back to
the text itself and so are not empty. -/
structure Environment where
  addressText : HostAddressText
  jsonText : JsonText
  tr : String → List Char
  tr_ne_nil : ∀ s, s ≠ "" → tr s ≠ []

/-- The text of a UUID without braces. -/
def Uuid : Type := { s : List Char // s.length = 36 }

structure Profile where
  id : List Char
  name : List Char
  configText : List Char
  deriving DecidableEq, Repr

/-- The two settings the model keeps. -/
structure ProfileSettings where
  wireGuardProfiles : List UInt8 := []
  activeWireGuardProfileId : List Char := []
  deriving DecidableEq, Repr

/-- `WireGuardProfileModel` with the settings it writes to. -/
structure WireGuardProfileModel where
  profiles : List Profile
  activeProfileId : List Char
  lastError : List Char := []
  settings : ProfileSettings

namespace WireGuardProfileModel

/-- `profileIndex`, none for `-1`. -/
def profileIndex (profiles : List Profile) (id : List Char) : Option ℕ :=
  profiles.findIdx? (·.id = id)

/-- `m_profiles.isEmpty() ? QString() : m_profiles.constFirst().id`. -/
def firstId (profiles : List Profile) : List Char := (profiles.head?.map Profile.id).getD []

/-- The text of a string value; other values give the null string, which is empty. -/
def stringOf (v : Json) : List Char := v.toString?.getD []

/-- One entry of the stored array. -/
def readProfile (v : Json) : Profile where
  id := stringOf (v.toObject.value "id")
  name := stringOf (v.toObject.value "name")
  configText := stringOf (v.toObject.value "config")

variable (E : Environment)

/-- The entries that `loadFromSettings` keeps. -/
def isLoadable (profile : Profile) : Bool :=
  !profile.id.isEmpty && !profile.name.isEmpty && !profile.configText.isEmpty &&
    (WireGuardConfig.parse E.addressText profile.configText).isOk

def loadProfiles (data : List UInt8) : List Profile :=
  match E.jsonText.fromJson data with
  | some (.obj fields) =>
    ((Json.Object.value fields "profiles").toArray.map readProfile).filter (isLoadable E)
  | _ => []

/-- `loadFromSettings`, as the constructor calls it. -/
def loadFromSettings (settings : ProfileSettings) : WireGuardProfileModel :=
  let profiles := loadProfiles E settings.wireGuardProfiles
  { profiles
    activeProfileId :=
      if (profileIndex profiles settings.activeWireGuardProfileId).isNone then firstId profiles
      else settings.activeWireGuardProfileId
    settings }

def writeProfile (profile : Profile) : Json :=
  .obj (((Json.Object.insert [] "id" (.str profile.id)).insert
    "name" (.str profile.name)).insert "config" (.str profile.configText))

/-- The document of `writeSettings`. -/
def document (profiles : List Profile) : Json :=
  .obj (Json.Object.insert [] "profiles" (.arr (profiles.map writeProfile)))

def writeSettings (m : WireGuardProfileModel) : WireGuardProfileModel :=
  { m with settings := ⟨E.jsonText.toJson (document m.profiles), m.activeProfileId⟩ }

/-- `writeSettings` and `setLastError(QString())`, at the end of each operation that succeeds. -/
def saved (m : WireGuardProfileModel) : WireGuardProfileModel :=
  { writeSettings E m with lastError := [] }

/-! ## The operations -/

/-- `addProfile` with the identifier that `QUuid::createUuid` generates. -/
def addProfile (m : WireGuardProfileModel) (uuid : Uuid) (name configText : List Char) :
    Bool × WireGuardProfileModel :=
  match WireGuardConfig.parse E.addressText configText with
  | .error error => (false, { m with lastError := error.message })
  | .ok _ =>
    let name := if (trimmed name).isEmpty then E.tr "WireGuard Profile" else trimmed name
    (true, saved E { m with
      profiles := m.profiles ++ [⟨uuid.1, name, configText⟩]
      activeProfileId := if m.activeProfileId.isEmpty then uuid.1 else m.activeProfileId })

/-- What `addProfileFromFile` finds at its URL: nothing when the URL is not local, and no contents
when the file cannot be opened. -/
structure FileUrl where
  isLocalFile : Bool
  completeBaseName : List Char
  contents : Option (List Char)

def addProfileFromFile (m : WireGuardProfileModel) (uuid : Uuid) (name : List Char)
    (fileUrl : FileUrl) : Bool × WireGuardProfileModel :=
  if !fileUrl.isLocalFile then
    (false, { m with lastError := E.tr "WireGuard configuration file must be local." })
  else
    match fileUrl.contents with
    | none => (false, { m with lastError := E.tr "Unable to open WireGuard configuration file." })
    | some contents =>
      addProfile E m uuid (if (trimmed name).isEmpty then fileUrl.completeBaseName else name)
        contents

def removeProfile (m : WireGuardProfileModel) (id : List Char) : Bool × WireGuardProfileModel :=
  match profileIndex m.profiles id with
  | none => (false, { m with lastError := E.tr "WireGuard profile not found." })
  | some index =>
    let profiles := m.profiles.eraseIdx index
    (true, saved E { m with
      profiles
      activeProfileId := if m.activeProfileId = id then firstId profiles else m.activeProfileId })

def renameProfile (m : WireGuardProfileModel) (id name : List Char) :
    Bool × WireGuardProfileModel :=
  match profileIndex m.profiles id with
  | none => (false, { m with lastError := E.tr "WireGuard profile not found." })
  | some index =>
    if (trimmed name).isEmpty then
      (false, { m with lastError := E.tr "WireGuard profile name cannot be empty." })
    else
      (true, saved E { m with
        profiles := m.profiles.modify index fun p => { p with name := trimmed name } })

def selectProfile (m : WireGuardProfileModel) (id : List Char) : Bool × WireGuardProfileModel :=
  match profileIndex m.profiles id with
  | none => (false, { m with lastError := E.tr "WireGuard profile not found." })
  | some _ => (true, saved E { m with activeProfileId := id })

/-- `activeInterfaceConfig`: the configuration of the active profile, or the error text. -/
def activeInterfaceConfig (m : WireGuardProfileModel) : Except (List Char) InterfaceConfig :=
  match (profileIndex m.profiles m.activeProfileId).bind (m.profiles[·]?) with
  | none => .error (E.tr "No active WireGuard profile selected.")
  | some profile =>
    match WireGuardConfig.parse E.addressText profile.configText with
    | .error error => .error error.message
    | .ok config => .ok config

/-- A call of one of the operations. -/
inductive Operation where
  | addProfile (uuid : Uuid) (name configText : List Char)
  | addProfileFromFile (uuid : Uuid) (name : List Char) (fileUrl : FileUrl)
  | removeProfile (id : List Char)
  | renameProfile (id name : List Char)
  | selectProfile (id : List Char)

/-- The reported result and the state after a call. -/
def perform (m : WireGuardProfileModel) : Operation → Bool × WireGuardProfileModel
  | .addProfile uuid name configText => m.addProfile E uuid name configText
  | .addProfileFromFile uuid name fileUrl => m.addProfileFromFile E uuid name fileUrl
  | .removeProfile id => m.removeProfile E id
  | .renameProfile id name => m.renameProfile E id name
  | .selectProfile id => m.selectProfile E id

/-- The state after a sequence of calls on a model constructed from `settings`. -/
def run (settings : ProfileSettings) (operations : List Operation) : WireGuardProfileModel :=
  operations.foldl (fun m operation => (m.perform E operation).2) (loadFromSettings E settings)

/-! ## What an operation does -/

variable {E}

/-- The profiles and the active identifier after an operation that succeeds. -/
inductive Change (E : Environment) (m : WireGuardProfileModel) : List Profile → List Char → Prop
  | added (p : Profile) (hp : isLoadable E p = true) :
    Change E m (m.profiles ++ [p])
      (if m.activeProfileId.isEmpty then p.id else m.activeProfileId)
  | removed (id : List Char) (index : ℕ) (h : profileIndex m.profiles id = some index) :
    Change E m (m.profiles.eraseIdx index)
      (if m.activeProfileId = id then firstId (m.profiles.eraseIdx index) else m.activeProfileId)
  | renamed (index : ℕ) (name : List Char) (hname : name ≠ []) :
    Change E m (m.profiles.modify index fun p => { p with name }) m.activeProfileId
  | selected (id : List Char) (index : ℕ) (h : profileIndex m.profiles id = some index) :
    Change E m m.profiles id

/-- The two outcomes of a call: it fails and only sets the error, or it changes the list and saves
it. -/
inductive Outcome (E : Environment) (m : WireGuardProfileModel) :
    Bool × WireGuardProfileModel → Prop
  | failed (error : List Char) : Outcome E m (false, { m with lastError := error })
  | succeeded (profiles : List Profile) (activeProfileId : List Char)
    (h : Change E m profiles activeProfileId) :
    Outcome E m (true, saved E { m with profiles, activeProfileId })

theorem isLoadable_iff {p : Profile} : isLoadable E p = true ↔
    p.id ≠ [] ∧ p.name ≠ [] ∧ p.configText ≠ [] ∧
      ∃ c, WireGuardConfig.parse E.addressText p.configText = .ok c := by
  cases hparse : WireGuardConfig.parse E.addressText p.configText with
  | error e => simp [isLoadable, hparse, Except.isOk, Except.toBool]
  | ok c => simp [isLoadable, hparse, Except.isOk, Except.toBool, and_assoc]

theorem parse_nil (T : HostAddressText) :
    WireGuardConfig.parse T [] = .error .privateKeyRequired := rfl

theorem outcome_addProfile (m : WireGuardProfileModel) (uuid : Uuid)
    (name configText : List Char) : Outcome E m (m.addProfile E uuid name configText) := by
  unfold addProfile
  cases hparse : WireGuardConfig.parse E.addressText configText with
  | error e => exact .failed _
  | ok c =>
    refine .succeeded _ _ (.added ⟨uuid.1, _, configText⟩ (isLoadable_iff.mpr ⟨?_, ?_, ?_, c, ?_⟩))
    · intro h
      have hlen : uuid.1.length = 36 := uuid.2
      rw [show uuid.1 = [] from h] at hlen
      cases hlen
    · show (if (trimmed name).isEmpty then E.tr "WireGuard Profile" else trimmed name) ≠ []
      split_ifs with hname
      · exact E.tr_ne_nil _ (by decide)
      · simpa using hname
    · rintro h
      rw [show configText = [] from h, parse_nil] at hparse
      cases hparse
    · exact hparse

theorem outcome_perform (m : WireGuardProfileModel) (operation : Operation) :
    Outcome E m (m.perform E operation) := by
  cases operation with
  | addProfile uuid name configText => exact outcome_addProfile m uuid name configText
  | addProfileFromFile uuid name fileUrl =>
    rw [perform, addProfileFromFile]
    by_cases hlocal : (!fileUrl.isLocalFile) = true
    · rw [if_pos hlocal]
      exact .failed _
    · rw [if_neg hlocal]
      cases fileUrl.contents with
      | none => exact .failed _
      | some contents => exact outcome_addProfile m uuid _ contents
  | removeProfile id =>
    rw [perform, removeProfile]
    cases h : profileIndex m.profiles id with
    | none => exact .failed _
    | some index => exact .succeeded _ _ (.removed id index h)
  | renameProfile id name =>
    rw [perform, renameProfile]
    cases h : profileIndex m.profiles id with
    | none => exact .failed _
    | some index =>
      dsimp only
      split_ifs with hname
      · exact .failed _
      · exact .succeeded _ _ (.renamed index _ (by simpa using hname))
  | selectProfile id =>
    rw [perform, selectProfile]
    cases h : profileIndex m.profiles id with
    | none => exact .failed _
    | some index => exact .succeeded _ _ (.selected id index h)

/-! ## The invariant -/

/-- The list can be loaded, and the active identifier is that of a profile if there is one. -/
structure Consistent (E : Environment) (m : WireGuardProfileModel) : Prop where
  loadable : ∀ p ∈ m.profiles, isLoadable E p = true
  active : (m.profiles = [] ∧ m.activeProfileId = []) ∨ ∃ p ∈ m.profiles, p.id = m.activeProfileId

theorem exists_of_profileIndex {profiles : List Profile} {id : List Char} {index : ℕ}
    (h : profileIndex profiles id = some index) : ∃ p ∈ profiles, p.id = id := by
  have hsome : (profiles.findIdx? (·.id = id)).isSome = true := by
    rw [show profiles.findIdx? (·.id = id) = some index from h]
    rfl
  rw [List.findIdx?_isSome, List.any_eq_true] at hsome
  obtain ⟨p, hp, hid⟩ := hsome
  exact ⟨p, hp, by simpa using hid⟩

theorem profileIndex_isNone {profiles : List Profile} {id : List Char} :
    (profileIndex profiles id).isNone = true ↔ ∀ p ∈ profiles, p.id ≠ id := by
  simp [profileIndex]

theorem active_firstId (profiles : List Profile) :
    (profiles = [] ∧ firstId profiles = []) ∨ ∃ p ∈ profiles, p.id = firstId profiles := by
  cases profiles with
  | nil => exact Or.inl ⟨rfl, rfl⟩
  | cons p rest => exact Or.inr ⟨p, by simp, rfl⟩

theorem mem_eraseIdx_of_ne {profiles : List Profile} {id : List Char} {index : ℕ} {p : Profile}
    (h : profileIndex profiles id = some index) (hp : p ∈ profiles) (hne : p.id ≠ id) :
    p ∈ profiles.eraseIdx index := by
  obtain ⟨i, hi, rfl⟩ := List.getElem_of_mem hp
  refine List.mem_eraseIdx_iff_getElem.mpr ⟨i, hi, ?_, rfl⟩
  rintro rfl
  obtain ⟨hlt, hid, -⟩ := List.findIdx?_eq_some_iff_getElem.mp h
  exact hne (by simpa using hid)

theorem consistent_loadFromSettings (settings : ProfileSettings) :
    Consistent E (loadFromSettings E settings) := by
  constructor
  · intro p hp
    simp only [loadFromSettings, loadProfiles] at hp
    split at hp
    · exact (List.mem_filter.mp hp).2
    · simp at hp
  · simp only [loadFromSettings]
    split_ifs with hnone
    · exact active_firstId _
    · rw [profileIndex_isNone] at hnone
      push Not at hnone
      exact Or.inr hnone

theorem Consistent.change {m : WireGuardProfileModel} (hm : Consistent E m)
    {profiles : List Profile} {activeProfileId : List Char}
    (h : Change E m profiles activeProfileId) :
    Consistent E (saved E { m with profiles, activeProfileId }) := by
  cases h with
  | added p hp =>
    constructor
    · intro q hq
      rcases List.mem_append.mp hq with hq | hq
      · exact hm.loadable q hq
      · rw [List.mem_singleton.mp hq]
        exact hp
    · right
      by_cases hempty : m.activeProfileId.isEmpty = true
      · exact ⟨p, by simp [saved, writeSettings], by simp [saved, writeSettings, hempty]⟩
      · obtain ⟨-, hnil⟩ | ⟨q, hq, hid⟩ := hm.active
        · exact absurd (by simp [hnil]) hempty
        · exact ⟨q, by simp [saved, writeSettings, hq], by simp [saved, writeSettings, hempty, hid]⟩
  | removed id index hindex =>
    constructor
    · intro q hq
      exact hm.loadable q (List.mem_of_mem_eraseIdx hq)
    · by_cases hactive : m.activeProfileId = id
      · simp only [saved, writeSettings, hactive, if_true]
        exact active_firstId _
      · simp only [saved, writeSettings, hactive, if_false]
        obtain ⟨hnil, -⟩ | ⟨q, hq, hid⟩ := hm.active
        · obtain ⟨q, hq, -⟩ := exists_of_profileIndex hindex
          rw [hnil] at hq
          cases hq
        · exact Or.inr ⟨q, mem_eraseIdx_of_ne hindex hq (hid ▸ hactive), hid⟩
  | renamed index name hname =>
    constructor
    · intro q hq
      obtain ⟨i, hi, rfl⟩ := List.getElem_of_mem hq
      simp only [saved, writeSettings] at hi ⊢
      rw [List.length_modify] at hi
      rw [List.getElem_modify]
      have hold := hm.loadable _ (List.getElem_mem hi)
      split_ifs
      · obtain ⟨hid, -, hconfig⟩ := isLoadable_iff.mp hold
        exact isLoadable_iff.mpr ⟨hid, hname, hconfig⟩
      · exact hold
    · obtain ⟨hnil, hempty⟩ | ⟨q, hq, hid⟩ := hm.active
      · exact Or.inl ⟨by simp [saved, writeSettings, hnil], hempty⟩
      · obtain ⟨i, hi, rfl⟩ := List.getElem_of_mem hq
        have hi' : i < (m.profiles.modify index fun p => { p with name }).length := by
          rwa [List.length_modify]
        refine Or.inr ⟨_, List.getElem_mem hi', ?_⟩
        rw [List.getElem_modify]
        split_ifs
        · exact hid
        · exact hid
  | selected id index hindex => exact ⟨hm.loadable, Or.inr (exists_of_profileIndex hindex)⟩

theorem Consistent.perform {m : WireGuardProfileModel} (hm : Consistent E m)
    (operation : Operation) : Consistent E (m.perform E operation).2 := by
  have houtcome := outcome_perform (E := E) m operation
  generalize WireGuardProfileModel.perform E m operation = result at houtcome ⊢
  cases houtcome with
  | failed error => exact ⟨hm.loadable, hm.active⟩
  | succeeded profiles activeProfileId h => exact hm.change h

theorem consistent_run (settings : ProfileSettings) (operations : List Operation) :
    Consistent E (run E settings operations) :=
  foldl_invariant (fun _ operation hm => hm.perform operation)
    (consistent_loadFromSettings settings) operations

theorem Consistent.activeInterfaceConfig {m : WireGuardProfileModel} (hm : Consistent E m)
    (h : m.profiles ≠ []) : ∃ c, m.activeInterfaceConfig E = .ok c := by
  obtain ⟨hnil, -⟩ | ⟨p, hp, hid⟩ := hm.active
  · exact absurd hnil h
  cases hindex : profileIndex m.profiles m.activeProfileId with
  | none =>
    have := profileIndex_isNone.mp (by rw [hindex]; rfl) p hp
    exact absurd hid this
  | some index =>
    obtain ⟨hlt, -, -⟩ := List.findIdx?_eq_some_iff_getElem.mp hindex
    obtain ⟨-, -, -, c, hparse⟩ := isLoadable_iff.mp (hm.loadable _ (List.getElem_mem hlt))
    refine ⟨c, ?_⟩
    rw [WireGuardProfileModel.activeInterfaceConfig, hindex, Option.bind_some,
      List.getElem?_eq_getElem hlt]
    dsimp only
    rw [hparse]

/-- **The profile list stays consistent.** In every run from any stored settings the active
identifier is empty exactly when there is no profile and names a profile otherwise, every stored
text is accepted and so the active one can be used, and a call that reports failure changes
neither the list nor the active identifier nor the settings. -/
theorem invariant_run (E : Environment) (settings : ProfileSettings)
    (operations : List Operation) :
    ((run E settings operations).activeProfileId = [] ↔
      (run E settings operations).profiles = []) ∧
    ((run E settings operations).profiles ≠ [] →
      ∃ p ∈ (run E settings operations).profiles,
        p.id = (run E settings operations).activeProfileId) ∧
    (∀ p ∈ (run E settings operations).profiles,
      ∃ c, WireGuardConfig.parse E.addressText p.configText = .ok c) ∧
    ((run E settings operations).profiles ≠ [] →
      ∃ c, (run E settings operations).activeInterfaceConfig E = .ok c) ∧
    ∀ operation, ((run E settings operations).perform E operation).1 = false →
      ((run E settings operations).perform E operation).2.profiles =
          (run E settings operations).profiles ∧
        ((run E settings operations).perform E operation).2.activeProfileId =
          (run E settings operations).activeProfileId ∧
        ((run E settings operations).perform E operation).2.settings =
          (run E settings operations).settings := by
  have hm := consistent_run (E := E) settings operations
  generalize run E settings operations = m at hm ⊢
  refine ⟨⟨fun hempty => ?_, fun hnil => ?_⟩, fun hne => ?_, fun p hp => ?_,
    hm.activeInterfaceConfig, fun operation hfail => ?_⟩
  · obtain ⟨hnil, -⟩ | ⟨p, hp, hid⟩ := hm.active
    · exact hnil
    · exact absurd (hid.trans hempty) (isLoadable_iff.mp (hm.loadable p hp)).1
  · obtain ⟨-, hempty⟩ | ⟨p, hp, -⟩ := hm.active
    · exact hempty
    · rw [hnil] at hp
      cases hp
  · exact hm.active.resolve_left fun h => hne h.1
  · exact (isLoadable_iff.mp (hm.loadable p hp)).2.2.2
  · have houtcome := outcome_perform (E := E) m operation
    generalize WireGuardProfileModel.perform E m operation = result at houtcome hfail ⊢
    cases houtcome with
    | failed error => exact ⟨rfl, rfl, rfl⟩
    | succeeded profiles activeProfileId h => cases hfail

/-! ## Restarts -/

theorem readProfile_writeProfile (p : Profile) : readProfile (writeProfile p) = p := by
  simp [readProfile, writeProfile, Json.toObject, stringOf, Json.toString?]

theorem loadFromSettings_saved {m : WireGuardProfileModel} (hm : Consistent E m)
    (hjson : E.jsonText.fromJson (E.jsonText.toJson (document m.profiles)) =
      some (document m.profiles)) :
    (loadFromSettings E (saved E m).settings).profiles = m.profiles ∧
      (loadFromSettings E (saved E m).settings).activeProfileId = m.activeProfileId := by
  have hload : loadProfiles E (E.jsonText.toJson (document m.profiles)) = m.profiles := by
    rw [loadProfiles, hjson, document]
    simp only [Json.Object.value_insert, if_true, Json.toArray, List.map_map]
    rw [show readProfile ∘ writeProfile = id from funext readProfile_writeProfile, List.map_id]
    exact List.filter_eq_self.mpr hm.loadable
  simp only [loadFromSettings, saved, writeSettings, hload, true_and]
  obtain ⟨hnil, hempty⟩ | ⟨p, hp, hid⟩ := hm.active
  · rw [hnil, hempty]
    rfl
  · rw [if_neg]
    rw [profileIndex_isNone]
    exact fun h => h p hp hid

/-- Either nothing was written since the model was loaded, or the settings are what it wrote. -/
def Persisted (E : Environment) (settings : ProfileSettings) (m : WireGuardProfileModel) : Prop :=
  (m.profiles = (loadFromSettings E settings).profiles ∧
    m.activeProfileId = (loadFromSettings E settings).activeProfileId ∧ m.settings = settings) ∨
  m.settings = (saved E m).settings

theorem persisted_run (settings : ProfileSettings) (operations : List Operation) :
    Persisted E settings (run E settings operations) := by
  have hinit : Persisted E settings (loadFromSettings E settings) := Or.inl ⟨rfl, rfl, rfl⟩
  refine foldl_invariant (fun m operation hm => ?_) hinit operations
  have houtcome := outcome_perform (E := E) m operation
  generalize WireGuardProfileModel.perform E m operation = result at houtcome ⊢
  cases houtcome with
  | failed error => exact hm
  | succeeded profiles activeProfileId h => exact Or.inr rfl

/-- **A restart finds the same profiles.** Whatever was done since the model was loaded, a model
constructed from its settings has the same profiles in the same order and the same active one, if
the JSON text of the list is read back. -/
theorem loadFromSettings_run (E : Environment) (settings : ProfileSettings)
    (operations : List Operation)
    (hjson : E.jsonText.fromJson
        (E.jsonText.toJson (document (run E settings operations).profiles)) =
      some (document (run E settings operations).profiles)) :
    (loadFromSettings E (run E settings operations).settings).profiles =
        (run E settings operations).profiles ∧
      (loadFromSettings E (run E settings operations).settings).activeProfileId =
        (run E settings operations).activeProfileId := by
  obtain ⟨hprofiles, hactive, hsettings⟩ | hsaved := persisted_run (E := E) settings operations
  · rw [hsettings, hprofiles, hactive]
    exact ⟨rfl, rfl⟩
  · rw [hsaved]
    exact loadFromSettings_saved (consistent_run settings operations) hjson

/-! ## One stored profile -/

def homeProfile : Profile :=
  ⟨"6ba7b810-9dad-11d1-80b4-00c04fd430c8".toList, "home".toList,
    WireGuardConfig.dualStackContent⟩

/-- The text of the list with this profile. -/
def homeText : List UInt8 :=
  ("\x7b\"profiles\":[\x7b\"config\":\"[Interface]\\nPrivateKey = a\\n".toList ++
    "Address = 10.0.0.2/32\\n[Peer]\\nPublicKey = b\\nEndpoint = 192.0.2.1:51820\\n".toList ++
    "Endpoint = [2001:db8::1]:51820\\nAllowedIPs = 0.0.0.0/0\",".toList ++
    "\"id\":\"6ba7b810-9dad-11d1-80b4-00c04fd430c8\",\"name\":\"home\"\x7d]\x7d".toList).map
    fun c => UInt8.ofNat c.toNat

/-- Without translations, and with the JSON text of this list. -/
def homeEnvironment : Environment where
  addressText := WireGuardConfig.dualStackText
  jsonText :=
    { fromJson := fun data => if data = homeText then some (document [homeProfile]) else none
      toJson := fun _ => homeText }
  tr := String.toList
  tr_ne_nil _ hs h := hs (String.toList_eq_nil_iff.mp h)

def addHome : Operation :=
  .addProfile ⟨homeProfile.id, by decide⟩ "home".toList WireGuardConfig.dualStackContent

theorem run_addHome : (run homeEnvironment {} [addHome]).profiles = [homeProfile] := by
  have hparse : WireGuardConfig.parse homeEnvironment.addressText
      WireGuardConfig.dualStackContent = .ok WireGuardConfig.dualStackConfig :=
    WireGuardConfig.parse_dualStackContent
  have hload : (loadFromSettings homeEnvironment {}).profiles = [] := rfl
  have hname : trimmed "home".toList = "home".toList := by decide
  simp only [run, addHome, List.foldl_cons, List.foldl_nil, perform, addProfile, hparse, saved,
    writeSettings, hload, hname]
  rfl

/-- A restart after the first import. -/
theorem loadFromSettings_addHome :
    (loadFromSettings homeEnvironment (run homeEnvironment {} [addHome]).settings).profiles =
      [homeProfile] := by
  rw [(loadFromSettings_run homeEnvironment {} [addHome] ?_).1, run_addHome]
  rw [run_addHome]
  simp [homeEnvironment]

end WireGuardProfileModel

end WgDesktop
