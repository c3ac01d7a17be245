import WgDesktop.Client.ServerCountryModel
import WgDesktop.Profile.ProfileModel

/-!
# The names in `ServerData`

`ServerData` of `src/models/serverdata.cpp` keeps the codes and the names of the exit country, the
entry country and the previous exit country. `update` writes the chosen location to the settings and
reads it back in the notification of the change. It takes the name of the previous exit from the
new one, and the assignment leaves the names out; `named_iff` says which runs do not show it.

`m_initialized`, which only assertions read, is left out.
-/

namespace WgDesktop

open Runs

namespace ServerCountryModel

def countryName (m : ServerCountryModel) (countryCode : QString) : QString :=
  ((m.countries.find? fun country => country.code == countryCode).map ServerCountry.name).getD .null

theorem countryName_congr (m : ServerCountryModel) {code code' : QString}
    (h : code.chars = code'.chars) : m.countryName code = m.countryName code' := by
  have hbeq : (fun country : ServerCountry => country.code == code) =
      fun country => country.code == code' := by
    funext country
    rw [Bool.eq_iff_iff, QString.beq_iff, QString.beq_iff, h]
  rw [countryName, countryName, hbeq]

end ServerCountryModel

/-- `ServerData` with the fields for the names and for the previous exit. -/
structure NamedServerData extends ServerData where
  exitCountryName : QString := .null
  entryCountryName : QString := .null
  previousExitCountryCode : QString := .null
  previousExitCountryName : QString := .null
  previousExitCityName : QString := .null

namespace NamedServerData

/-- `operator=`. -/
def assign (d other : NamedServerData) : NamedServerData :=
  { d with
    exitCountryCode := other.exitCountryCode
    exitCityName := other.exitCityName
    entryCountryCode := other.entryCountryCode
    entryCityName := other.entryCityName
    previousExitCountryCode := other.previousExitCountryCode
    previousExitCityName := other.previousExitCityName
    exitServerPublicKey := other.exitServerPublicKey
    entryServerPublicKey := other.entryServerPublicKey }

def forget (d : NamedServerData) : NamedServerData :=
  { d with
    exitCountryCode := .null
    exitCityName := .null
    exitCountryName := .null
    entryCountryCode := .null
    entryCityName := .null
    entryCountryName := .null
    previousExitCountryCode := .null
    previousExitCountryName := .null
    previousExitCityName := .null }

/-- A location: the arguments of `update` and `changeServer`. -/
structure Location where
  exitCountryCode : QString
  exitCityName : QString
  entryCountryCode : QString := .null
  entryCityName : QString := .null

/-- `changeServer` finds that no change is needed. -/
def isAt (d : NamedServerData) (l : Location) : Bool :=
  d.exitCountryCode == l.exitCountryCode && d.exitCityName == l.exitCityName &&
    d.entryCountryCode == l.entryCountryCode && d.entryCityName == l.entryCityName

variable (m : ServerCountryModel)

/-- The part of `update` before the settings. -/
def keepPrevious (d : NamedServerData) (l : Location) : NamedServerData :=
  { d with
    previousExitCountryCode := d.exitCountryCode
    previousExitCountryName := m.countryName l.exitCountryCode
    previousExitCityName := d.exitCityName }

/-- The object that `update` writes. -/
def document (l : Location) : Json.Object :=
  (((((Json.Object.insert [] "exit_country_code" l.exitCountryCode.toJson).insert
    "exit_country_name" (m.countryName l.exitCountryCode).toJson).insert
    "exit_city_name" l.exitCityName.toJson).insert
    "enter_country_code" l.entryCountryCode.toJson).insert
    "enter_country_name" (m.countryName l.entryCountryCode).toJson).insert
    "enter_city_name" l.entryCityName.toJson

/-- `settingsChanged`, for an object in the settings. -/
def readObject (obj : Json.Object) (d : NamedServerData) : NamedServerData :=
  let exitCountryCode := QString.ofJson (obj.value "exit_country_code")
  let entryCountryCode := QString.ofJson (obj.value "enter_country_code")
  { d with
    exitCountryCode := exitCountryCode
    exitCityName := .ofJson (obj.value "exit_city_name")
    exitCountryName :=
      if !obj.contains "exit_country_name" then m.countryName exitCountryCode
      else .ofJson (obj.value "exit_country_name")
    entryCountryCode := entryCountryCode
    entryCityName := .ofJson (obj.value "enter_city_name")
    entryCountryName :=
      if !obj.contains "enter_country_name" then m.countryName entryCountryCode
      else .ofJson (obj.value "enter_country_name") }

def settingsChanged (json : Option Json) (d : NamedServerData) : NamedServerData :=
  match json with
  | none => d
  | some json => if !json.isObject then d else readObject m json.toObject d

/-- Each name is the one of its country. -/
structure Named (d : NamedServerData) : Prop where
  exit : d.exitCountryName.chars = (m.countryName d.exitCountryCode).chars
  entry : d.entryCountryName.chars = (m.countryName d.entryCountryCode).chars
  previous : d.previousExitCountryName.chars = (m.countryName d.previousExitCountryCode).chars

end NamedServerData

/-! ## The objects and the settings -/

/-- The setting `serverData` and all objects; those that `initialize` has connected to the setting
are told when it changes. -/
structure ServerDataObjects where
  serverData : Option (List UInt8)
  object : ℕ → NamedServerData := fun _ => {}
  connected : ℕ → Bool

namespace ServerDataObjects

open NamedServerData

inductive Call where
  | update (i : ℕ) (l : Location)
  | changeServer (i : ℕ) (l : Location)
  | forget (i : ℕ)
  | assign (i other : ℕ)

variable (T : JsonText) (m : ServerCountryModel)

def setObject (s : ServerDataObjects) (i : ℕ) (d : NamedServerData) : ServerDataObjects :=
  { s with object := Function.update s.object i d }

/-- `setServerData`, with the notification of the connected objects. -/
def setServerData (s : ServerDataObjects) (value : List UInt8) : ServerDataObjects :=
  if s.serverData = some value then s
  else
    { s with
      serverData := some value
      object := fun i =>
        if s.connected i then settingsChanged m (T.fromJson value) (s.object i) else s.object i }

def update (s : ServerDataObjects) (i : ℕ) (l : Location) : ServerDataObjects :=
  setServerData T m (s.setObject i ((s.object i).keepPrevious m l)) (T.toJson (.obj (document m l)))

def step (s : ServerDataObjects) : Call → ServerDataObjects
  | .update i l => update T m s i l
  | .changeServer i l => if (s.object i).isAt l then s else update T m s i l
  | .forget i => s.setObject i (s.object i).forget
  | .assign i other => s.setObject i ((s.object i).assign (s.object other))

/-- All names are right. -/
def AllNamed (s : ServerDataObjects) : Prop := ∀ i, (s.object i).Named m

/-- The location that a call writes. -/
def Call.written? : Call → Option Location
  | .update _ l => some l
  | .changeServer _ l => some l
  | _ => none

/-- The name of the exit is the same before and after an update, and a copy is made into an object
whose countries have the names of those it gets. -/
def guard (s : ServerDataObjects) : Call → Prop
  | .update i l =>
    (m.countryName l.exitCountryCode).chars = (m.countryName (s.object i).exitCountryCode).chars
  | .changeServer i l => (s.object i).isAt l = false →
    (m.countryName l.exitCountryCode).chars = (m.countryName (s.object i).exitCountryCode).chars
  | .forget _ => True
  | .assign i other =>
    (m.countryName (s.object i).exitCountryCode).chars =
        (m.countryName (s.object other).exitCountryCode).chars ∧
      (m.countryName (s.object i).entryCountryCode).chars =
        (m.countryName (s.object other).entryCountryCode).chars ∧
      (m.countryName (s.object i).previousExitCountryCode).chars =
        (m.countryName (s.object other).previousExitCountryCode).chars

/-! ## Single steps -/

variable {T m} {s : ServerDataObjects} {d : NamedServerData} {l : Location}

theorem object_setObject (s : ServerDataObjects) (i j : ℕ) (d : NamedServerData) :
    (s.setObject i d).object j = if j = i then d else s.object j := by
  simp [setObject, Function.update_apply]

theorem named_forget (hnone : (m.countryName .null).chars = []) (d : NamedServerData) :
    d.forget.Named m := ⟨hnone.symm, hnone.symm, hnone.symm⟩

theorem named_assign_iff (h : d.Named m) (other : NamedServerData) :
    (d.assign other).Named m ↔
      (m.countryName d.exitCountryCode).chars = (m.countryName other.exitCountryCode).chars ∧
        (m.countryName d.entryCountryCode).chars = (m.countryName other.entryCountryCode).chars ∧
        (m.countryName d.previousExitCountryCode).chars =
          (m.countryName other.previousExitCountryCode).chars := by
  rw [← h.exit, ← h.entry, ← h.previous]
  exact ⟨fun hn => ⟨hn.exit, hn.entry, hn.previous⟩, fun hn => ⟨hn.1, hn.2.1, hn.2.2⟩⟩

theorem named_keepPrevious_iff (h : d.Named m) (l : Location) :
    (d.keepPrevious m l).Named m ↔
      (m.countryName l.exitCountryCode).chars = (m.countryName d.exitCountryCode).chars :=
  ⟨fun hn => hn.previous, fun hn => ⟨h.exit, h.entry, hn⟩⟩

/-- Reading the document that `update` writes makes the names of exit and entry right, and leaves
the previous exit alone. -/
theorem named_settingsChanged (l : Location) (d : NamedServerData) :
    (settingsChanged m (some (.obj (document m l))) d).Named m ↔
      d.previousExitCountryName.chars = (m.countryName d.previousExitCountryCode).chars := by
  have hexit : m.countryName (.text l.exitCountryCode.chars) = m.countryName l.exitCountryCode :=
    m.countryName_congr rfl
  have hentry : m.countryName (.text l.entryCountryCode.chars) =
      m.countryName l.entryCountryCode := m.countryName_congr rfl
  refine ⟨fun hn => hn.previous, fun hprevious => ⟨?_, ?_, hprevious⟩⟩
  · simp [settingsChanged, readObject, document, Json.isObject, Json.toObject, hexit]
  · simp [settingsChanged, readObject, document, Json.isObject, Json.toObject, hentry]

/-- After an update all names are right if and only if the name of the exit has not changed. -/
theorem allNamed_update_iff (h : s.AllNamed m) (i : ℕ)
    (hjson : T.fromJson (T.toJson (.obj (document m l))) = some (.obj (document m l))) :
    (update T m s i l).AllNamed m ↔
      (m.countryName l.exitCountryCode).chars =
        (m.countryName (s.object i).exitCountryCode).chars := by
  have hobject : ∀ j, ((update T m s i l).object j).Named m ↔ (j = i →
      (m.countryName l.exitCountryCode).chars =
        (m.countryName (s.object i).exitCountryCode).chars) := by
    intro j
    have hkept : ∀ d', d' = (s.setObject i ((s.object i).keepPrevious m l)).object j →
        (d'.Named m ↔ (j = i → (m.countryName l.exitCountryCode).chars =
          (m.countryName (s.object i).exitCountryCode).chars)) ∧
        (d'.previousExitCountryName.chars = (m.countryName d'.previousExitCountryCode).chars ↔
          (j = i → (m.countryName l.exitCountryCode).chars =
            (m.countryName (s.object i).exitCountryCode).chars)) := by
      rintro d' rfl
      rw [object_setObject]
      split_ifs with hj
      · simp only [hj, forall_true_left]
        exact ⟨named_keepPrevious_iff (h i) l, Iff.rfl⟩
      · simp only [hj, false_imp_iff, iff_true]
        exact ⟨h j, (h j).previous⟩
    rw [update, setServerData, hjson]
    split_ifs
    · exact (hkept _ rfl).1
    · dsimp only
      split_ifs
      · rw [named_settingsChanged]
        exact (hkept _ rfl).2
      · exact (hkept _ rfl).1
  exact ⟨fun hall => (hobject i).mp (hall i) rfl, fun heq j => (hobject j).mpr fun _ => heq⟩

theorem allNamed_setObject_iff (h : s.AllNamed m) (i : ℕ) (d : NamedServerData) :
    (s.setObject i d).AllNamed m ↔ d.Named m := by
  constructor
  · intro hall
    have hi := hall i
    rwa [object_setObject, if_pos rfl] at hi
  · intro hd j
    rw [object_setObject]
    split_ifs
    · exact hd
    · exact h j

theorem allNamed_step_iff (hnone : (m.countryName .null).chars = []) (h : s.AllNamed m) (c : Call)
    (hjson : ∀ l, c.written? = some l →
      T.fromJson (T.toJson (.obj (document m l))) = some (.obj (document m l))) :
    (step T m s c).AllNamed m ↔ guard m s c := by
  cases c with
  | update i l => exact allNamed_update_iff h i (hjson l rfl)
  | changeServer i l =>
    rw [step, guard]
    cases hat : (s.object i).isAt l with
    | true => exact iff_of_true h fun hfalse => by cases hfalse
    | false =>
      rw [if_neg Bool.false_ne_true, allNamed_update_iff h i (hjson l rfl)]
      exact ⟨fun heq _ => heq, fun heq => heq rfl⟩
  | forget i =>
    exact iff_of_true ((allNamed_setObject_iff h i _).mpr (named_forget hnone _)) trivial
  | assign i other =>
    exact (allNamed_setObject_iff h i _).trans (named_assign_iff (h i) _)

/-! ## Every run -/

/-- All objects are empty; some of them are connected to a setting with any value. -/
def start (serverData : Option (List UInt8)) (connected : ℕ → Bool) : ServerDataObjects where
  serverData := serverData
  connected := connected

theorem allNamed_start_iff (serverData : Option (List UInt8)) (connected : ℕ → Bool) :
    (start serverData connected).AllNamed m ↔ (m.countryName .null).chars = [] :=
  ⟨fun h => (h 0).exit.symm, fun h _ => ⟨h.symm, h.symm, h.symm⟩⟩

/-- **The exact condition.** From empty data all names are right in every state of a run, in copies
as in originals, if and only if no country without a code has a name and every call keeps to the
condition. -/
theorem named_iff (serverData : Option (List UInt8)) (connected : ℕ → Bool) (calls : List Call)
    (hjson : ∀ c ∈ calls, ∀ l, c.written? = some l →
      T.fromJson (T.toJson (.obj (document m l))) = some (.obj (document m l))) :
    (∀ n, ((calls.take n).foldl (step T m) (start serverData connected)).AllNamed m) ↔
      (m.countryName .null).chars = [] ∧
        Guarded (step T m) (guard m) (start serverData connected) calls := by
  by_cases hnone : (m.countryName .null).chars = []
  · rw [and_iff_right hnone]
    exact @forall_take_iff_guarded_of_iff _ _ (step T m) (guard m) (AllNamed m) calls
      (fun s c hc h => allNamed_step_iff hnone h c (hjson c hc)) _
      ((allNamed_start_iff serverData connected).mpr hnone)
  · refine iff_of_false (fun h => hnone ?_) fun h => hnone h.1
    exact (allNamed_start_iff serverData connected).mp (h 0)

/-! ### A change of country -/

def nordic : ServerCountryModel where
  countries := [{ name := .text "Norway".toList, code := .text "no".toList },
    { name := .text "Sweden".toList, code := .text "se".toList }]

def oslo : Location := ⟨.text "no".toList, .text "Oslo".toList, .null, .null⟩

/-- The text of the setting after a change to Oslo. -/
def osloText : List UInt8 :=
  ("\x7b\"enter_city_name\":\"\",\"enter_country_code\":\"\",\"enter_country_name\":\"\",".toList ++
    "\"exit_city_name\":\"Oslo\",\"exit_country_code\":\"no\",".toList ++
    "\"exit_country_name\":\"Norway\"\x7d".toList).map fun c => UInt8.ofNat c.toNat

def osloJson : JsonText where
  fromJson data := if data = osloText then some (.obj (document nordic oslo)) else none
  toJson _ := osloText

/-- Only the first object is connected. -/
def first (i : ℕ) : Bool := i == 0

theorem named_iff_oslo :
    (∀ n, (([Call.update 0 oslo].take n).foldl (step osloJson nordic) (start none first)).AllNamed
        nordic) ↔
      (nordic.countryName .null).chars = [] ∧
        Guarded (step osloJson nordic) (guard nordic) (start none first) [.update 0 oslo] := by
  refine named_iff none first [.update 0 oslo] fun c hc l hl => ?_
  obtain rfl := List.mem_singleton.mp hc
  obtain rfl := Option.some.inj hl
  simp only [osloJson, if_true]

/-- After the first choice of a city the previous exit has no code, and the name of the new one; a
copy of the data has the code of the exit and no name. -/
theorem not_named_oslo :
    ¬((([Call.update 0 oslo].foldl (step osloJson nordic) (start none first)).object 0).Named
        nordic) ∧
      ¬((([Call.update 0 oslo, .assign 1 0].foldl (step osloJson nordic)
        (start none first)).object 1).Named nordic) :=
  ⟨fun h => absurd h.previous (by decide +kernel), fun h => absurd h.exit (by decide +kernel)⟩

end ServerDataObjects

end WgDesktop
