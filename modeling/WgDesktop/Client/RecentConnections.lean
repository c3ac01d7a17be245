import WgDesktop.Lib.Recency
import WgDesktop.Profile.ProfileModel

/-!
# Recent connections

`RecentConnections` and `RecentConnectionModel` from `src/models/recentconnections.cpp`: the last
servers of each kind of connection, and their copy in the application settings, which holds both
lists in one array. The signals to the user interface are left out.

One routine adds an entry in front, when a server is used, and at the end, when the settings are
read. `add_prepend` is what it does to a list of the last uses, `foldl_append` what it does to the
entries of a stored one.
-/

namespace WgDesktop

open Recency

def recentConnectionsMaxCount : ℕ := 2

structure RecentConnection where
  entryCityName : List Char
  entryCountryCode : List Char
  exitCityName : List Char
  exitCountryCode : List Char
  deriving DecidableEq, Repr

def RecentConnection.isMultiHop (rc : RecentConnection) : Bool :=
  !rc.entryCityName.isEmpty && !rc.entryCountryCode.isEmpty

/-! ## One list -/

namespace RecentConnectionModel

inductive AddType where
  | prepend
  | append
  deriving DecidableEq, Repr

/-- The loop that makes room for one entry. -/
def trim (list : List RecentConnection) : List RecentConnection :=
  if list.length > recentConnectionsMaxCount then trim list.dropLast else list
termination_by list.length
decreasing_by simp only [List.length_dropLast]; omega

/-- `add`: its result and the list it leaves. -/
def add (list : List RecentConnection) (newRecentConnection : RecentConnection)
    (addType : AddType) : Bool × List RecentConnection :=
  match list.idxOf? newRecentConnection with
  -- this is already the most recent connection
  | some 0 => (false, list)
  | index =>
    let list := match index with
      | some i => list.eraseIdx i
      | none => list
    let list := trim list
    match addType with
    | .prepend => (true, newRecentConnection :: list)
    | .append => (true, list ++ [newRecentConnection])

/-- An entry of the stored array. -/
def toJson (rc : RecentConnection) : Json :=
  .obj ((((Json.Object.insert [] "exit_country_code" (.str rc.exitCountryCode)).insert
    "exit_city_name" (.str rc.exitCityName)).insert
    "enter_country_code" (.str rc.entryCountryCode)).insert
    "enter_city_name" (.str rc.entryCityName))

def serialize (list : List RecentConnection) : List Json := list.map toJson

end RecentConnectionModel

/-! ## Both lists -/

/-- `RecentConnections` with the setting it writes to. -/
structure RecentConnections where
  singleHopModel : List RecentConnection := []
  multiHopModel : List RecentConnection := []
  settings : List UInt8 := []
  deriving DecidableEq, Repr

namespace RecentConnections

open RecentConnectionModel

/-- The entry that `readSettings` makes of a stored value. -/
def readEntry (value : Json) : RecentConnection where
  entryCityName := WireGuardProfileModel.stringOf (value.toObject.value "enter_city_name")
  entryCountryCode := WireGuardProfileModel.stringOf (value.toObject.value "enter_country_code")
  exitCityName := WireGuardProfileModel.stringOf (value.toObject.value "exit_city_name")
  exitCountryCode := WireGuardProfileModel.stringOf (value.toObject.value "exit_country_code")

/-- One turn of the loop of `readSettings`. -/
def appendEntry (s : RecentConnections) (rc : RecentConnection) : RecentConnections :=
  if rc.isMultiHop then { s with multiHopModel := (add s.multiHopModel rc .append).2 }
  else { s with singleHopModel := (add s.singleHopModel rc .append).2 }

variable (T : JsonText)

def readSettings (s : RecentConnections) : RecentConnections :=
  match T.fromJson s.settings with
  | some (.arr array) => (array.map readEntry).foldl appendEntry s
  | _ => s

/-- `initialize` without a list of the deprecated form in the settings. -/
def initializeModels (s : RecentConnections) : RecentConnections :=
  readSettings T { s with singleHopModel := [], multiHopModel := [] }

/-- The document of `writeSettings`. -/
def document (s : RecentConnections) : Json :=
  .arr (serialize s.singleHopModel ++ serialize s.multiHopModel)

def writeSettings (s : RecentConnections) : RecentConnections :=
  { s with settings := T.toJson (document s) }

/-- `serverChanged`, for a server that is left by way of the entry's cities. -/
def serverChanged (s : RecentConnections) (newRecentConnection : RecentConnection) :
    RecentConnections :=
  if newRecentConnection.isMultiHop then
    let (ok, list) := add s.multiHopModel newRecentConnection .prepend
    let s := { s with multiHopModel := list }
    if ok then writeSettings T s else s
  else
    let (ok, list) := add s.singleHopModel newRecentConnection .prepend
    let s := { s with singleHopModel := list }
    if ok then writeSettings T s else s

/-- The application with empty settings, and the servers that it is changed to. -/
def run (uses : List RecentConnection) : RecentConnections :=
  uses.foldl (serverChanged T) (initializeModels T {})

end RecentConnections

/-! ## Adding -/

namespace RecentConnectionModel

theorem trim_eq (list : List RecentConnection) :
    trim list = list.take recentConnectionsMaxCount := by
  induction hn : list.length using Nat.strong_induction_on generalizing list with
  | _ n ih =>
    rw [trim]
    split_ifs with hlong
    · have hlast : list.dropLast.length < n := by
        rw [List.length_dropLast]
        omega
      rw [ih _ hlast list.dropLast rfl, List.dropLast_eq_take, List.take_take]
      congr 1
      omega
    · exact (List.take_of_length_le (by omega)).symm

/-- Adding the entry in front again changes nothing; otherwise room is made for it. -/
theorem add_eq (list : List RecentConnection) (rc : RecentConnection) (addType : AddType) :
    add list rc addType =
      if list.head? = some rc then (false, list)
      else (true, match addType with
        | .prepend => rc :: (list.erase rc).take recentConnectionsMaxCount
        | .append => (list.erase rc).take recentConnectionsMaxCount ++ [rc]) := by
  have herase := List.erase_eq_eraseIdx list rc
  unfold add
  cases hindex : list.idxOf? rc with
  | none =>
    have hmem : rc ∉ list := List.idxOf?_eq_none_iff.mp hindex
    have hhead : list.head? ≠ some rc := fun h => hmem (List.mem_of_head? h)
    rw [if_neg hhead, List.erase_of_not_mem hmem]
    cases addType with
    | prepend => simp [trim_eq]
    | append => simp [trim_eq]
  | some i =>
    rw [hindex] at herase
    obtain ⟨hlt, hget, hfirst⟩ := List.idxOf?_eq_some_iff.mp hindex
    cases i with
    | zero =>
      have hhead : list.head? = some rc := by
        rw [List.head?_eq_getElem?, List.getElem?_eq_getElem hlt, hget]
      rw [if_pos hhead]
      rfl
    | succ i =>
      have hhead : list.head? ≠ some rc := by
        rw [List.head?_eq_getElem?, List.getElem?_eq_getElem (by omega)]
        exact fun h => hfirst 0 (by omega) (Option.some.inj h)
      rw [if_neg hhead, herase]
      cases addType with
      | prepend => simp [trim_eq]
      | append => simp [trim_eq]

/-- **Using a server.** The list of the last uses stays one. -/
theorem add_prepend (uses : List RecentConnection) (rc : RecentConnection) :
    (add ((lastUses uses).take (recentConnectionsMaxCount + 1)) rc .prepend).2 =
      (lastUses (uses ++ [rc])).take (recentConnectionsMaxCount + 1) := by
  rw [← touch_take, add_eq]
  split_ifs with hhead
  · obtain ⟨rest, hlist⟩ : ∃ rest,
        (lastUses uses).take (recentConnectionsMaxCount + 1) = rc :: rest :=
      List.head?_eq_some_iff.mp hhead
    have hlen := List.length_take_le (recentConnectionsMaxCount + 1) (lastUses uses)
    rw [hlist, List.length_cons] at hlen
    rw [hlist, touch, List.erase_cons_head, List.take_of_length_le (by omega)]
  · rfl

theorem add_prepend_false {list : List RecentConnection} {rc : RecentConnection}
    (h : (add list rc .prepend).1 = false) : (add list rc .prepend).2 = list ∧ list ≠ [] := by
  rw [add_eq] at h ⊢
  split_ifs at h ⊢ with hhead
  refine ⟨rfl, ?_⟩
  rintro rfl
  cases hhead

/-- **Reading stored entries.** Different entries, no more than a list holds, are added in their
order. -/
theorem foldl_append {list rcs : List RecentConnection} (hnodup : (list ++ rcs).Nodup)
    (hlen : (list ++ rcs).length ≤ recentConnectionsMaxCount + 1) :
    rcs.foldl (fun l rc => (add l rc .append).2) list = list ++ rcs := by
  induction rcs generalizing list with
  | nil => simp
  | cons rc rcs ih =>
    have hshape : list ++ rc :: rcs = (list ++ [rc]) ++ rcs := by simp
    have hmem : rc ∉ list := fun h =>
      (List.nodup_append.mp hnodup).2.2 rc h rc List.mem_cons_self rfl
    have hhead : list.head? ≠ some rc := fun h => hmem (List.mem_of_head? h)
    rw [List.length_append, List.length_cons] at hlen
    have hadd : (add list rc .append).2 = list ++ [rc] := by
      rw [add_eq, if_neg hhead, List.erase_of_not_mem hmem, List.take_of_length_le (by omega)]
    rw [hshape] at hnodup ⊢
    rw [List.foldl_cons, hadd]
    refine ih hnodup ?_
    simp only [List.length_append, List.length_cons, List.length_nil]
    omega

end RecentConnectionModel

/-! ## Every history -/

namespace RecentConnections

open RecentConnectionModel

/-- The lists and the setting after these uses. -/
structure Follows (T : JsonText) (uses : List RecentConnection) (s : RecentConnections) : Prop where
  single : s.singleHopModel =
    (lastUses (uses.filter fun rc => !rc.isMultiHop)).take (recentConnectionsMaxCount + 1)
  multi : s.multiHopModel =
    (lastUses (uses.filter RecentConnection.isMultiHop)).take (recentConnectionsMaxCount + 1)
  written : uses ≠ [] → s.settings = T.toJson (document s)

variable {T : JsonText}

theorem Follows.serverChanged {uses : List RecentConnection} {s : RecentConnections}
    (h : Follows T uses s) (rc : RecentConnection) :
    Follows T (uses ++ [rc]) (serverChanged T s rc) := by
  -- a list that is not empty has been written
  have hwritten : ∀ {p : RecentConnection → Bool} {list : List RecentConnection},
      list = (lastUses (uses.filter p)).take (recentConnectionsMaxCount + 1) → list ≠ [] →
      s.settings = T.toJson (document s) := by
    rintro p list rfl hne
    refine h.written fun hnil => hne ?_
    rw [hnil]
    rfl
  unfold RecentConnections.serverChanged
  cases hhop : rc.isMultiHop with
  | true =>
    have hlist := add_prepend (uses.filter RecentConnection.isMultiHop) rc
    rw [← h.multi] at hlist
    have hmulti : (uses ++ [rc]).filter RecentConnection.isMultiHop =
        uses.filter RecentConnection.isMultiHop ++ [rc] := by simp [hhop]
    have hsingle : (uses ++ [rc]).filter (fun rc => !rc.isMultiHop) =
        uses.filter fun rc => !rc.isMultiHop := by simp [hhop]
    dsimp only
    rw [if_pos rfl]
    cases hok : (add s.multiHopModel rc .prepend).1 with
    | true =>
      rw [if_pos rfl]
      exact ⟨by rw [hsingle]; exact h.single, by rw [hmulti]; exact hlist, fun _ => rfl⟩
    | false =>
      obtain ⟨hsame, hne⟩ := add_prepend_false hok
      rw [if_neg Bool.false_ne_true]
      refine ⟨by rw [hsingle]; exact h.single, by rw [hmulti]; exact hlist, fun _ => ?_⟩
      rw [hsame]
      exact hwritten h.multi hne
  | false =>
    have hlist := add_prepend (uses.filter fun rc => !rc.isMultiHop) rc
    rw [← h.single] at hlist
    have hmulti : (uses ++ [rc]).filter RecentConnection.isMultiHop =
        uses.filter RecentConnection.isMultiHop := by simp [hhop]
    have hsingle : (uses ++ [rc]).filter (fun rc => !rc.isMultiHop) =
        uses.filter (fun rc => !rc.isMultiHop) ++ [rc] := by simp [hhop]
    dsimp only
    rw [if_neg Bool.false_ne_true]
    cases hok : (add s.singleHopModel rc .prepend).1 with
    | true =>
      rw [if_pos rfl]
      exact ⟨by rw [hsingle]; exact hlist, by rw [hmulti]; exact h.multi, fun _ => rfl⟩
    | false =>
      obtain ⟨hsame, hne⟩ := add_prepend_false hok
      rw [if_neg Bool.false_ne_true]
      refine ⟨by rw [hsingle]; exact hlist, by rw [hmulti]; exact h.multi, fun _ => ?_⟩
      rw [hsame]
      exact hwritten h.single hne

theorem follows_run (hempty : T.fromJson [] = none) (uses : List RecentConnection) :
    Follows T uses (run T uses) := by
  induction uses using List.reverseRecOn with
  | nil =>
    have hinit : run T [] = {} := by
      simp only [run, List.foldl_nil, initializeModels, readSettings, hempty]
    rw [hinit]
    exact ⟨rfl, rfl, fun h => absurd rfl h⟩
  | append_singleton uses rc ih =>
    have hstep : run T (uses ++ [rc]) = serverChanged T (run T uses) rc := by
      rw [run, List.foldl_append]
      rfl
    rw [hstep]
    exact ih.serverChanged rc

/-! ## Restarts -/

theorem readEntry_toJson (rc : RecentConnection) : readEntry (toJson rc) = rc := by
  simp [readEntry, toJson, Json.toObject, WireGuardProfileModel.stringOf, Json.toString?]

theorem foldl_appendEntry (rcs : List RecentConnection) (s : RecentConnections) :
    rcs.foldl appendEntry s =
      { s with
        singleHopModel := (rcs.filter fun rc => !rc.isMultiHop).foldl
          (fun l rc => (add l rc .append).2) s.singleHopModel
        multiHopModel := (rcs.filter fun rc => rc.isMultiHop).foldl
          (fun l rc => (add l rc .append).2) s.multiHopModel } := by
  induction rcs generalizing s with
  | nil => rfl
  | cons rc rcs ih =>
    rw [List.foldl_cons, ih]
    cases hhop : rc.isMultiHop with
    | true => simp [appendEntry, hhop]
    | false => simp [appendEntry, hhop]

theorem readSettings_document {s : RecentConnections} {settings : List UInt8}
    (hjson : T.fromJson settings = some (document s))
    (hsingle : ∀ rc ∈ s.singleHopModel, rc.isMultiHop = false)
    (hmulti : ∀ rc ∈ s.multiHopModel, rc.isMultiHop = true)
    (hnodup : s.singleHopModel.Nodup) (hnodup' : s.multiHopModel.Nodup)
    (hlen : s.singleHopModel.length ≤ recentConnectionsMaxCount + 1)
    (hlen' : s.multiHopModel.length ≤ recentConnectionsMaxCount + 1) :
    readSettings T { settings } =
      { singleHopModel := s.singleHopModel, multiHopModel := s.multiHopModel, settings } := by
  have hentries : (serialize s.singleHopModel ++ serialize s.multiHopModel).map readEntry =
      s.singleHopModel ++ s.multiHopModel := by
    have hid : readEntry ∘ toJson = id := funext readEntry_toJson
    rw [List.map_append, serialize, serialize, List.map_map, List.map_map, hid, List.map_id,
      List.map_id]
  unfold readSettings
  dsimp only
  rw [hjson, document]
  dsimp only
  have hfilter : (s.singleHopModel ++ s.multiHopModel).filter (fun rc => !rc.isMultiHop) =
      s.singleHopModel := by
    rw [List.filter_append, List.filter_eq_self.mpr (by simpa using hsingle),
      List.filter_eq_nil_iff.mpr (by simpa using hmulti), List.append_nil]
  have hfilter' : (s.singleHopModel ++ s.multiHopModel).filter (fun rc => rc.isMultiHop) =
      s.multiHopModel := by
    rw [List.filter_append, List.filter_eq_nil_iff.mpr (by simpa using hsingle),
      List.filter_eq_self.mpr (by simpa using hmulti), List.nil_append]
  rw [hentries, foldl_appendEntry, hfilter, hfilter']
  dsimp only
  rw [foldl_append (by simpa using hnodup) (by simpa using hlen),
    foldl_append (by simpa using hnodup') (by simpa using hlen'), List.nil_append, List.nil_append]

/-- What the lists are for. -/
structure Remembered (T : JsonText) (uses : List RecentConnection) (s : RecentConnections) :
    Prop where
  single : Latest (recentConnectionsMaxCount + 1) (uses.filter fun rc => !rc.isMultiHop)
    s.singleHopModel
  multi : Latest (recentConnectionsMaxCount + 1) (uses.filter RecentConnection.isMultiHop)
    s.multiHopModel
  hops : ∀ rc, rc ∈ s.singleHopModel ∨ rc ∈ s.multiHopModel →
    (rc ∈ s.multiHopModel ↔ rc.entryCityName ≠ [] ∧ rc.entryCountryCode ≠ [])
  reloaded : uses ≠ [] →
    (initializeModels T { settings := s.settings }).singleHopModel = s.singleHopModel ∧
      (initializeModels T { settings := s.settings }).multiHopModel = s.multiHopModel

/-- **Recent connections.** After any uses from empty settings, each list holds the last servers of
its kind, most recent first and each once, and a restart finds the same lists. -/
theorem run_remembered (T : JsonText) (uses : List RecentConnection)
    (hempty : T.fromJson [] = none)
    (hjson : T.fromJson (T.toJson (document (run T uses))) = some (document (run T uses))) :
    Remembered T uses (run T uses) := by
  have hfollows := follows_run hempty uses
  have hsingle : Latest (recentConnectionsMaxCount + 1) (uses.filter fun rc => !rc.isMultiHop)
      (run T uses).singleHopModel := by
    rw [hfollows.single]
    exact latest_take _ _
  have hmulti : Latest (recentConnectionsMaxCount + 1) (uses.filter RecentConnection.isMultiHop)
      (run T uses).multiHopModel := by
    rw [hfollows.multi]
    exact latest_take _ _
  have hhop : ∀ rc ∈ (run T uses).singleHopModel, rc.isMultiHop = false := fun rc hrc => by
    simpa using (List.mem_filter.mp (hsingle.mem rc hrc)).2
  have hhop' : ∀ rc ∈ (run T uses).multiHopModel, rc.isMultiHop = true := fun rc hrc =>
    (List.mem_filter.mp (hmulti.mem rc hrc)).2
  have hnames : ∀ rc : RecentConnection, rc.isMultiHop = true ↔
      rc.entryCityName ≠ [] ∧ rc.entryCountryCode ≠ [] := by simp [RecentConnection.isMultiHop]
  refine ⟨hsingle, hmulti, fun rc hrc => ?_, fun hne => ?_⟩
  · rw [← hnames]
    constructor
    · exact hhop' rc
    · intro h
      refine hrc.resolve_left fun hmem => ?_
      rw [hhop rc hmem] at h
      cases h
  · have hsettings : T.fromJson (run T uses).settings = some (document (run T uses)) := by
      rw [hfollows.written hne]
      exact hjson
    have hread := readSettings_document hsettings hhop hhop' hsingle.nodup hmulti.nodup
      hsingle.length_le hmulti.length_le
    unfold initializeModels
    dsimp only
    rw [hread]
    exact ⟨rfl, rfl⟩

/-! ## Three uses -/

def toOslo : RecentConnection := ⟨[], [], "Oslo".toList, "no".toList⟩

def toOsloByBern : RecentConnection := ⟨"Bern".toList, "ch".toList, "Oslo".toList, "no".toList⟩

/-- The text of the two lists below. -/
def osloText : List UInt8 :=
  ("[\x7b\"enter_city_name\":\"\",\"enter_country_code\":\"\",".toList ++
    "\"exit_city_name\":\"Oslo\",\"exit_country_code\":\"no\"\x7d,".toList ++
    "\x7b\"enter_city_name\":\"Bern\",\"enter_country_code\":\"ch\",".toList ++
    "\"exit_city_name\":\"Oslo\",\"exit_country_code\":\"no\"\x7d]".toList).map
    fun c => UInt8.ofNat c.toNat

/-- The JSON text of these lists. -/
def osloJson : JsonText where
  fromJson data :=
    if data = osloText then
      some (document { singleHopModel := [toOslo], multiHopModel := [toOsloByBern] })
    else none
  toJson _ := osloText

theorem run_remembered_oslo :
    Remembered osloJson [toOslo, toOsloByBern, toOslo]
      (run osloJson [toOslo, toOsloByBern, toOslo]) := by
  have hempty : osloJson.fromJson [] = none := rfl
  have hfollows := follows_run hempty [toOslo, toOsloByBern, toOslo]
  have hdocument : document (run osloJson [toOslo, toOsloByBern, toOslo]) =
      document { singleHopModel := [toOslo], multiHopModel := [toOsloByBern] } := by
    rw [document, hfollows.single, hfollows.multi]
    rfl
  refine run_remembered osloJson _ hempty ?_
  rw [hdocument]
  simp [osloJson]

end RecentConnections

end WgDesktop
