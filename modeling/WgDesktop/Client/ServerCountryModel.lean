import Mathlib.Data.List.Permutation
import WgDesktop.Client.Server
import WgDesktop.Daemon.Config
import WgDesktop.Lib.Bytes

/-!
# `ServerCountryModel`

The list of servers, from `src/utils/models/servercountrymodel.cpp`, `servercountry.cpp`,
`servercity.cpp` and `server.cpp`: countries list the names of their cities, cities the public
keys of their servers, and both are looked up in tables. A document that is accepted leaves no
loose ends (`resolves_of_initialized`), but a stored city has lost its hash key, and a
document that is rejected half way leaves a country without its cities; `intact_iff` says when
all is as it should be.
-/

namespace WgDesktop

open Bytes Runs

/-! ## Servers -/

namespace Server

/-- An `int` as a `uint32_t`. -/
def toUint32 (i : ℤ) : ℕ := (i % 2 ^ 32).toNat

/-- One entry of `port_ranges`. -/
def portRange : Json → Option (ℕ × ℕ)
  | .arr [.num a, .num b] => some (toUint32 (Json.num a).toInt, toUint32 (Json.num b).toInt)
  | _ => none

/-- Reads a server whose country and city are set. -/
def fromJson (s : Server) (obj : Json.Object) : Option Server :=
  if !(obj.value "hostname").isString || !(obj.value "ipv4_addr_in").isString ||
      !(obj.value "ipv4_gateway").isString || !(obj.value "public_key").isString ||
      !(obj.value "weight").isDouble || !(obj.value "port_ranges").isArray then
    none
  else
    ((obj.value "port_ranges").toArray.mapM portRange).map fun ranges =>
      { s with
        hostname := .ofJson (obj.value "hostname")
        ipv4AddrIn := .ofJson (obj.value "ipv4_addr_in")
        ipv4Gateway := .ofJson (obj.value "ipv4_gateway")
        ipv6AddrIn := .ofJson (obj.value "ipv6_addr_in")
        ipv6Gateway := .ofJson (obj.value "ipv6_gateway")
        portRanges := ranges
        publicKey := .ofJson (obj.value "public_key")
        weight := toUint32 (obj.value "weight").toInt
        socksName := .ofJson (obj.value "socks5_name")
        multihopPort := toUint32 (obj.value "multihop_port").toInt }

theorem fromJson_spec {s server : Server} {obj : Json.Object} (h : s.fromJson obj = some server) :
    server.publicKey = .ofJson (obj.value "public_key") ∧ server.countryCode = s.countryCode ∧
      server.cityName = s.cityName := by
  unfold fromJson at h
  split_ifs at h
  obtain ⟨ranges, -, rfl⟩ := Option.map_eq_some_iff.mp h
  exact ⟨rfl, rfl, rfl⟩

end Server

/-! ## Cities -/

structure ServerCity where
  country : QString := .null
  name : QString := .null
  code : QString := .null
  hashKey : QString := .null
  latitude : ℚ := 0
  longitude : ℚ := 0
  servers : List QString := []
  latency : ℤ := 0
  connectionScore : ℤ := 0

namespace ServerCity

def initialized (c : ServerCity) : Bool := !c.name.isEmpty

/-- The static `hashKey`. -/
def hashKeyOf (country cityName : QString) : QString :=
  .text (cityName.chars ++ ',' :: country.chars)

/-- `operator=`. -/
def assign (c other : ServerCity) : ServerCity :=
  { c with
    name := other.name
    code := other.code
    country := other.country
    latitude := other.latitude
    longitude := other.longitude
    servers := other.servers }

/-- The public key of one entry of `servers`. -/
def publicKeyOf (v : Json) : Option QString :=
  if !v.isObject || !(v.toObject.value "public_key").isString then none
  else some (.ofJson (v.toObject.value "public_key"))

def fromJson (obj : Json.Object) (country : QString) : Option ServerCity :=
  if !(obj.value "name").isString || !(obj.value "code").isString ||
      !(obj.value "latitude").isDouble || !(obj.value "longitude").isDouble ||
      !(obj.value "servers").isArray then
    none
  else
    ((obj.value "servers").toArray.mapM publicKeyOf).map fun servers =>
      { name := .ofJson (obj.value "name")
        code := .ofJson (obj.value "code")
        country := country
        hashKey := hashKeyOf country (.ofJson (obj.value "name"))
        latitude := (obj.value "latitude").toDouble
        longitude := (obj.value "longitude").toDouble
        servers := servers }

end ServerCity

/-! ## Countries -/

structure ServerCountry where
  name : QString := .null
  code : QString := .null
  cities : List QString := []

/-- How `std::sort` orders cities and countries by their localised names. -/
structure Sorting where
  cities : List QString → List QString
  countries : List ServerCountry → List ServerCountry
  perm_cities : ∀ l, (cities l).Perm l
  perm_countries : ∀ l, (countries l).Perm l

namespace ServerCountry

def sortCities (C : Sorting) (c : ServerCountry) : ServerCountry :=
  { c with cities := C.cities c.cities }

/-- The name of one entry of `cities`. -/
def cityNameOf (v : Json) : Option QString :=
  let name := QString.ofJson (v.toObject.value "name")
  if !v.isObject || name.isEmpty then none else some name

/-- `fromJson` up to the sorting. -/
def parse (obj : Json.Object) : Option ServerCountry :=
  if !(obj.value "name").isString || !(obj.value "code").isString ||
      !(obj.value "cities").isArray then
    none
  else
    ((obj.value "cities").toArray.mapM cityNameOf).map fun cities =>
      { name := .ofJson (obj.value "name")
        code := .ofJson (obj.value "code")
        cities := cities }

def fromJson (C : Sorting) (obj : Json.Object) : Option ServerCountry :=
  (parse obj).map (sortCities C)

end ServerCountry

/-! ## The model -/

/-- The fields of the class; the two tables are `QHash`es. -/
structure ServerCountryModel where
  rawJson : List Byte := []
  countries : List ServerCountry := []
  cities : List Char → Option ServerCity := fun _ => none
  servers : List Char → Option Server := fun _ => none

namespace ServerCountryModel

def initialized (m : ServerCountryModel) : Bool := !m.rawJson.isEmpty

/-- The city, or the static empty one. -/
def findCity (m : ServerCountryModel) (countryCode cityName : QString) : ServerCity :=
  (m.cities (ServerCity.hashKeyOf countryCode cityName).chars).getD {}

/-- The server, or the static empty one. -/
def server (m : ServerCountryModel) (pubkey : QString) : Server :=
  (m.servers pubkey.chars).getD {}

/-- `m_cities[city.hashKey()] = city`: a new entry is a default city that is assigned to. -/
def setCity (m : ServerCountryModel) (city : ServerCity) : ServerCountryModel :=
  { m with
    cities := Function.update m.cities city.hashKey.chars
      (some (((m.cities city.hashKey.chars).getD {}).assign city)) }

/-- `m_servers[server.publicKey()] = server`; the assignment copies all fields. -/
def setServer (m : ServerCountryModel) (server : Server) : ServerCountryModel :=
  { m with servers := Function.update m.servers server.publicKey.chars (some server) }

/-- The innermost loop; the first component is `false` where the function returns. -/
def addServers (country city : QString) :
    List Json → ServerCountryModel → Bool × ServerCountryModel
  | [], m => (true, m)
  | v :: vs, m =>
    match Server.fromJson { countryCode := country, cityName := city } v.toObject with
    | none => (false, m)
    | some server => addServers country city vs (m.setServer server)

/-- One turn of the loop over the cities of a country. -/
def addCity (country : QString) (v : Json) (m : ServerCountryModel) : Bool × ServerCountryModel :=
  if !v.isObject || !(v.toObject.value "servers").isArray then (false, m)
  else
    match ServerCity.fromJson v.toObject country with
    | none => (false, m)
    | some city =>
      addServers country city.name (v.toObject.value "servers").toArray (m.setCity city)

def addCities (country : QString) : List Json → ServerCountryModel → Bool × ServerCountryModel
  | [], m => (true, m)
  | v :: vs, m =>
    let r := addCity country v m
    if r.1 then addCities country vs r.2 else r

/-- One turn of the outer loop: the country is appended before its cities are read. -/
def addCountry (C : Sorting) (v : Json) (m : ServerCountryModel) : Bool × ServerCountryModel :=
  if !v.isObject then (false, m)
  else
    match ServerCountry.fromJson C v.toObject with
    | none => (false, m)
    | some country =>
      if country.cities.isEmpty then (true, m)
      else
        let m := { m with countries := m.countries ++ [country] }
        if !(v.toObject.value "cities").isArray then (false, m)
        else addCities country.code (v.toObject.value "cities").toArray m

def addCountries (C : Sorting) : List Json → ServerCountryModel → Bool × ServerCountryModel
  | [], m => (true, m)
  | v :: vs, m =>
    let r := addCountry C v m
    if r.1 then addCountries C vs r.2 else r

def sortCountries (C : Sorting) (m : ServerCountryModel) : ServerCountryModel :=
  { m with countries := (C.countries m.countries).map (ServerCountry.sortCities C) }

/-- `D` is `QJsonDocument::fromJson` for an object. -/
def fromJsonInternal (D : List Byte → Option Json.Object) (C : Sorting) (s : List Byte) :
    Bool × ServerCountryModel :=
  match D s with
  | none => (false, {})
  | some obj =>
    if !(obj.value "countries").isArray then (false, {})
    else
      let r := addCountries C (obj.value "countries").toArray {}
      if r.1 then (true, r.2.sortCountries C) else r

def fromJson (D : List Byte → Option Json.Object) (C : Sorting) (m : ServerCountryModel)
    (json : List Byte) : Bool × ServerCountryModel :=
  if json ≠ [] ∧ m.rawJson = json then (true, m)
  else
    let r := fromJsonInternal D C json
    if r.1 then (true, { r.2 with rawJson := json }) else r

/-- The model after a call. -/
def step (D : List Byte → Option Json.Object) (C : Sorting) (m : ServerCountryModel)
    (json : List Byte) : ServerCountryModel :=
  (fromJson D C m json).2

/-! ## The outer loop -/

section Turns

variable {C : Sorting} {v : Json} {m : ServerCountryModel} {country : ServerCountry}

theorem isEmpty_sortCities (country : ServerCountry) :
    (country.sortCities C).cities.isEmpty = country.cities.isEmpty := by
  have hlen := (C.perm_cities country.cities).length_eq
  rw [Bool.eq_iff_iff, List.isEmpty_iff_length_eq_zero, List.isEmpty_iff_length_eq_zero,
    ServerCountry.sortCities, hlen]

theorem addCountry_of_rejected (h : v.isObject = true → ServerCountry.parse v.toObject = none) :
    addCountry C v m = (false, m) := by
  unfold addCountry
  cases hobj : v.isObject with
  | false => rfl
  | true => simp [ServerCountry.fromJson, h hobj]

theorem addCountry_of_empty (hobj : v.isObject = true)
    (hparse : ServerCountry.parse v.toObject = some country) (hempty : country.cities = []) :
    addCountry C v m = (true, m) := by
  have hsorted : (country.sortCities C).cities.isEmpty = true := by
    rw [isEmpty_sortCities, hempty]
    rfl
  unfold addCountry
  simp [ServerCountry.fromJson, hobj, hparse, List.isEmpty_iff.mp hsorted]

theorem addCountry_of_cities (hobj : v.isObject = true)
    (hparse : ServerCountry.parse v.toObject = some country) (hne : country.cities ≠ []) :
    addCountry C v m = addCities country.code (v.toObject.value "cities").toArray
      { m with countries := m.countries ++ [country.sortCities C] } := by
  have hsorted : (country.sortCities C).cities.isEmpty = false := by
    rw [isEmpty_sortCities, List.isEmpty_eq_false_iff]
    exact hne
  have harray : (v.toObject.value "cities").isArray = true := by
    unfold ServerCountry.parse at hparse
    by_contra harray
    simp [harray] at hparse
  unfold addCountry
  simp only [ServerCountry.fromJson, hobj, hparse, Option.map_some, Bool.not_true,
    Bool.false_eq_true, if_false, hsorted, harray]
  rfl

theorem parse_cases (v : Json) :
    (v.isObject = true → ServerCountry.parse v.toObject = none) ∨
      (v.isObject = true ∧ ∃ country, ServerCountry.parse v.toObject = some country) := by
  by_cases hobj : v.isObject = true
  · cases hparse : ServerCountry.parse v.toObject with
    | none => exact .inl fun _ => rfl
    | some country => exact .inr ⟨hobj, country, rfl⟩
  · exact .inl fun h => absurd h hobj

end Turns

/-! ## What the loops keep -/

section Loops

variable {C : Sorting} {P : ServerCountryModel → Prop}

theorem addServers_keeps (hserver : ∀ m server, P m → P (setServer m server))
    (country city : QString) (vs : List Json) {m : ServerCountryModel} (h : P m) :
    P (addServers country city vs m).2 := by
  induction vs generalizing m with
  | nil => exact h
  | cons v vs ih =>
    rw [addServers]
    split
    · exact h
    · exact ih (hserver _ _ h)

theorem addCities_keeps (hserver : ∀ m server, P m → P (setServer m server))
    (hcity : ∀ m city, P m → P (setCity m city)) (country : QString) (vs : List Json)
    {m : ServerCountryModel} (h : P m) : P (addCities country vs m).2 := by
  induction vs generalizing m with
  | nil => exact h
  | cons v vs ih =>
    have hv : P (addCity country v m).2 := by
      unfold addCity
      split_ifs
      · exact h
      · split
        · exact h
        · exact addServers_keeps hserver _ _ _ (hcity _ _ h)
    rw [addCities]
    split_ifs
    · exact ih hv
    · exact hv

/-- **Whatever the three insertions keep, the loops keep**, also where they stop half way. -/
theorem addCountries_keeps (hserver : ∀ m server, P m → P (setServer m server))
    (hcity : ∀ m city, P m → P (setCity m city))
    (hcountry : ∀ m (country : ServerCountry), country.cities ≠ [] → P m →
      P { m with countries := m.countries ++ [country] })
    (vs : List Json) {m : ServerCountryModel} (h : P m) : P (addCountries C vs m).2 := by
  induction vs generalizing m with
  | nil => exact h
  | cons v vs ih =>
    have hv : P (addCountry C v m).2 := by
      rcases parse_cases v with hreject | ⟨hobj, country, hparse⟩
      · rw [addCountry_of_rejected hreject]
        exact h
      · by_cases hempty : country.cities = []
        · rw [addCountry_of_empty hobj hparse hempty]
          exact h
        · have hsorted : (country.sortCities C).cities ≠ [] := by
            rw [← List.isEmpty_eq_false_iff, isEmpty_sortCities, List.isEmpty_eq_false_iff]
            exact hempty
          rw [addCountry_of_cities hobj hparse hempty]
          exact addCities_keeps hserver hcity _ _ (hcountry m _ hsorted h)
    rw [addCountries]
    split_ifs
    · exact ih hv
    · exact hv

end Loops

/-! ## Integrity -/

/-- Every city name leads to an initialised city, every public key to a server of the city. -/
structure Resolves (m : ServerCountryModel) : Prop where
  cities : ∀ country ∈ m.countries, ∀ name ∈ country.cities,
    (m.findCity country.code name).initialized = true
  servers : ∀ key city, m.cities key = some city → ∀ pubkey ∈ city.servers,
    ∃ server, m.servers pubkey.chars = some server ∧ server.countryCode = city.country ∧
      server.cityName = city.name

/-- And the hash key of a city is the one it is stored under. -/
structure Intact (m : ServerCountryModel) : Prop extends Resolves m where
  hashKeys : ∀ country ∈ m.countries, ∀ name ∈ country.cities,
    (m.findCity country.code name).hashKey.chars = (ServerCity.hashKeyOf country.code name).chars

/-- What holds of the model at any time: the stored cities have no hash key, and no country is
without a city. -/
structure Lossy (m : ServerCountryModel) : Prop where
  hashKey : ∀ key city, m.cities key = some city → city.hashKey = .null
  listed : ∀ country ∈ m.countries, country.cities ≠ []

theorem lossy_init : Lossy {} := ⟨by simp, by simp⟩

/-- **The assignment forgets the hash key.** -/
theorem Lossy.setCity {m : ServerCountryModel} (h : Lossy m) (city : ServerCity) :
    Lossy (m.setCity city) := by
  refine ⟨fun key c hc => ?_, h.listed⟩
  unfold ServerCountryModel.setCity at hc
  dsimp only at hc
  by_cases hkey : key = city.hashKey.chars
  · subst hkey
    rw [Function.update_self] at hc
    obtain rfl := Option.some.inj hc
    cases hold : m.cities city.hashKey.chars with
    | none => rfl
    | some old => exact h.hashKey _ old hold
  · rw [Function.update_of_ne hkey] at hc
    exact h.hashKey key c hc

theorem lossy_addCountries (C : Sorting) (vs : List Json) {m : ServerCountryModel}
    (h : Lossy m) : Lossy (addCountries C vs m).2 := by
  refine addCountries_keeps (fun m server hm => ⟨hm.hashKey, hm.listed⟩)
    (fun m city hm => hm.setCity city) (fun m country hne hm => ⟨hm.hashKey, ?_⟩) vs h
  intro c hc
  rcases List.mem_append.mp hc with hc | hc
  · exact hm.listed c hc
  · rw [List.mem_singleton.mp hc]
    exact hne

theorem Lossy.sortCountries {m : ServerCountryModel} (h : Lossy m) (C : Sorting) :
    Lossy (m.sortCountries C) := by
  refine ⟨h.hashKey, fun country hc => ?_⟩
  obtain ⟨c, hmem, rfl⟩ := List.mem_map.mp hc
  have hne := h.listed c ((C.perm_countries _).mem_iff.mp hmem)
  intro hnil
  have hperm := C.perm_cities c.cities
  rw [show C.cities c.cities = [] from hnil] at hperm
  exact hne hperm.nil_eq.symm

/-- A country breaks it: its cities have lost their keys. -/
theorem Lossy.countries_eq_nil {m : ServerCountryModel} (h : Lossy m) (hintact : Intact m) :
    m.countries = [] := by
  by_contra hne
  obtain ⟨country, hcountry⟩ := List.exists_mem_of_ne_nil _ hne
  obtain ⟨name, hname⟩ := List.exists_mem_of_ne_nil _ (h.listed country hcountry)
  have hkey := hintact.hashKeys country hcountry name hname
  have hnull : (m.findCity country.code name).hashKey = .null := by
    unfold findCity
    cases hfound : m.cities (ServerCity.hashKeyOf country.code name).chars with
    | none => rfl
    | some city => exact h.hashKey _ city hfound
  rw [hnull] at hkey
  simp [ServerCity.hashKeyOf, QString.chars] at hkey

/-! ## Accepted documents -/

section Accepted

variable {C : Sorting} {v : Json} {vs : List Json} {m : ServerCountryModel}
  {used : List (List Char)} {country : QString}

/-- The public keys in a list of servers, in a city, in a country and in a document. -/
def keysOf (vs : List Json) : List (List Char) :=
  vs.map fun v => (QString.ofJson (v.toObject.value "public_key")).chars

def cityKeys (v : Json) : List (List Char) := keysOf (v.toObject.value "servers").toArray

def countryKeys (v : Json) : List (List Char) :=
  (v.toObject.value "cities").toArray.flatMap cityKeys

def publicKeys (vs : List Json) : List (List Char) := vs.flatMap countryKeys

/-- The name of a city. -/
def nameOf (v : Json) : QString := .ofJson (v.toObject.value "name")

/-- The stored cities are initialised and their servers are there; `used` are the keys read so
far. -/
structure Stored (used : List (List Char)) (m : ServerCountryModel) : Prop where
  initialized : ∀ key city, m.cities key = some city → city.initialized = true
  servers : ∀ key city, m.cities key = some city → ∀ pubkey ∈ city.servers,
    pubkey.chars ∈ used ∧ ∃ server, m.servers pubkey.chars = some server ∧
      server.countryCode = city.country ∧ server.cityName = city.name

/-- The model has a city of that name. -/
def HasCity (m : ServerCountryModel) (country name : QString) : Prop :=
  (m.cities (ServerCity.hashKeyOf country name).chars).isSome = true

theorem addServers_spec {city : QString} (h : (addServers country city vs m).1 = true) :
    (addServers country city vs m).2.cities = m.cities ∧
      (addServers country city vs m).2.countries = m.countries ∧
      (∀ k ∉ keysOf vs, (addServers country city vs m).2.servers k = m.servers k) ∧
      ∀ k ∈ keysOf vs, ∃ server, (addServers country city vs m).2.servers k = some server ∧
        server.countryCode = country ∧ server.cityName = city := by
  induction vs generalizing m with
  | nil => exact ⟨rfl, rfl, fun _ _ => rfl, by simp [keysOf]⟩
  | cons v vs ih =>
    rw [addServers] at h ⊢
    cases hread : Server.fromJson { countryCode := country, cityName := city } v.toObject with
    | none => simp [hread] at h
    | some server =>
      simp only [hread] at h ⊢
      obtain ⟨hkey, hcountry, hcity⟩ := Server.fromJson_spec hread
      obtain ⟨hcities, hcountries, hother, hkeys⟩ := ih h
      refine ⟨hcities, hcountries, fun k hk => ?_, fun k hk => ?_⟩
      · simp only [keysOf, List.map_cons, List.mem_cons, not_or] at hk
        rw [hother k hk.2]
        exact Function.update_of_ne (by rw [hkey]; exact hk.1) _ _
      · by_cases hlater : k ∈ keysOf vs
        · exact hkeys k hlater
        · have hfirst : k = server.publicKey.chars := by
            simp only [keysOf, List.map_cons, List.mem_cons] at hk
            rw [hkey]
            exact hk.resolve_right hlater
          refine ⟨server, ?_, hcountry, hcity⟩
          rw [hother k hlater, hfirst]
          exact Function.update_self _ _ _

theorem servers_of_fromJson {obj : Json.Object} {city : ServerCity}
    (h : ServerCity.fromJson obj country = some city) :
    city.name = .ofJson (obj.value "name") ∧ city.country = country ∧
      city.hashKey = ServerCity.hashKeyOf country city.name ∧
      city.servers.map QString.chars = keysOf (obj.value "servers").toArray := by
  unfold ServerCity.fromJson at h
  split_ifs at h
  obtain ⟨servers, hservers, rfl⟩ := Option.map_eq_some_iff.mp h
  refine ⟨rfl, rfl, rfl, ?_⟩
  have hmap := mapM_eq_some.mp hservers
  have hkeys : ∀ v pubkey, ServerCity.publicKeyOf v = some pubkey →
      pubkey = .ofJson (v.toObject.value "public_key") := by
    intro v pubkey hv
    unfold ServerCity.publicKeyOf at hv
    split_ifs at hv
    exact (Option.some.inj hv).symm
  exact map_eq_map_of_some hmap fun v pubkey hv => by rw [hkeys v pubkey hv]

/-- **One city.** It is stored with its servers, and those before it keep theirs. -/
theorem addCity_spec (h : (addCity country v m).1 = true) (hm : Stored used m)
    (hname : (nameOf v).isEmpty = false) (hnew : ∀ k ∈ cityKeys v, k ∉ used) :
    Stored (used ++ cityKeys v) (addCity country v m).2 ∧
      (addCity country v m).2.countries = m.countries ∧
      (∀ key, (m.cities key).isSome = true → ((addCity country v m).2.cities key).isSome = true) ∧
      HasCity (addCity country v m).2 country (nameOf v) := by
  unfold addCity at h ⊢
  split_ifs at h ⊢
  cases hread : ServerCity.fromJson v.toObject country with
  | none => simp [hread] at h
  | some city =>
    simp only [hread] at h ⊢
    obtain ⟨hcityName, hcountry, hhash, hservers⟩ := servers_of_fromJson hread
    obtain ⟨hcities, hcountries, hother, hkeys⟩ := addServers_spec h
    set m' := (addServers country city.name (v.toObject.value "servers").toArray (m.setCity city)).2
    have hself : m'.cities city.hashKey.chars =
        some (((m.cities city.hashKey.chars).getD {}).assign city) := by
      rw [hcities]
      exact Function.update_self _ _ _
    have hrest : ∀ key, key ≠ city.hashKey.chars → m'.cities key = m.cities key := by
      intro key hkey
      rw [hcities]
      exact Function.update_of_ne hkey _ _
    refine ⟨⟨fun key c hc => ?_, fun key c hc pubkey hpubkey => ?_⟩, hcountries,
      fun key hkey => ?_, ?_⟩
    · by_cases hkey : key = city.hashKey.chars
      · rw [hkey, hself] at hc
        obtain rfl := Option.some.inj hc
        change (!city.name.isEmpty) = true
        rw [hcityName, ← nameOf, hname]
        rfl
      · rw [hrest key hkey] at hc
        exact hm.initialized key c hc
    · by_cases hkey : key = city.hashKey.chars
      · rw [hkey, hself] at hc
        obtain rfl := Option.some.inj hc
        have hmem : pubkey.chars ∈ cityKeys v := by
          rw [cityKeys, ← hservers]
          exact List.mem_map_of_mem hpubkey
        obtain ⟨server, hserver, hsc, hsn⟩ := hkeys _ hmem
        exact ⟨List.mem_append_right _ hmem, server, hserver, hsc.trans hcountry.symm, hsn⟩
      · rw [hrest key hkey] at hc
        obtain ⟨hused, server, hserver, hof⟩ := hm.servers key c hc pubkey hpubkey
        refine ⟨List.mem_append_left _ hused, server, ?_, hof⟩
        rw [hother _ fun hmem => hnew _ hmem hused]
        exact hserver
    · by_cases heq : key = city.hashKey.chars
      · rw [heq, hself]
        rfl
      · rw [hrest key heq]
        exact hkey
    · rw [HasCity, nameOf, ← hcityName, ← hhash, hself]
      rfl

theorem addCities_spec (h : (addCities country vs m).1 = true) (hm : Stored used m)
    (hnames : ∀ v ∈ vs, (nameOf v).isEmpty = false)
    (hnodup : (used ++ vs.flatMap cityKeys).Nodup) :
    Stored (used ++ vs.flatMap cityKeys) (addCities country vs m).2 ∧
      (addCities country vs m).2.countries = m.countries ∧
      (∀ key, (m.cities key).isSome = true → ((addCities country vs m).2.cities key).isSome = true) ∧
      ∀ v ∈ vs, HasCity (addCities country vs m).2 country (nameOf v) := by
  induction vs generalizing m used with
  | nil =>
    rw [List.flatMap_nil, List.append_nil]
    exact ⟨hm, rfl, fun _ h => h, by simp⟩
  | cons v vs ih =>
    rw [List.flatMap_cons, ← List.append_assoc] at hnodup ⊢
    have hnew : ∀ k ∈ cityKeys v, k ∉ used := fun k hk hused =>
      List.disjoint_of_nodup_append (List.Nodup.of_append_left hnodup) hused hk
    rw [addCities] at h ⊢
    by_cases hok : (addCity country v m).1 = true
    · rw [if_pos hok] at h ⊢
      obtain ⟨hstored, hcountries, hkept, hhas⟩ :=
        addCity_spec hok hm (hnames v (by simp)) hnew
      obtain ⟨hstored', hcountries', hkept', hhas'⟩ :=
        ih h hstored (fun w hw => hnames w (by simp [hw])) hnodup
      refine ⟨hstored', hcountries'.trans hcountries, fun key hkey => hkept' key (hkept key hkey), ?_⟩
      intro w hw
      rcases List.mem_cons.mp hw with rfl | hw
      · exact hkept' _ hhas
      · exact hhas' w hw
    · rw [if_neg hok] at h
      exact absurd h hok

theorem cities_of_parse {obj : Json.Object} {c : ServerCountry}
    (h : ServerCountry.parse obj = some c) :
    c.cities = (obj.value "cities").toArray.map nameOf ∧
      ∀ v ∈ (obj.value "cities").toArray, (nameOf v).isEmpty = false := by
  unfold ServerCountry.parse at h
  split_ifs at h
  obtain ⟨names, hnames, rfl⟩ := Option.map_eq_some_iff.mp h
  have hmap := mapM_eq_some.mp hnames
  have hname : ∀ v name, ServerCountry.cityNameOf v = some name →
      name = nameOf v ∧ (nameOf v).isEmpty = false := by
    intro v name hv
    unfold ServerCountry.cityNameOf at hv
    dsimp only at hv
    split_ifs at hv with hbad
    simp only [Bool.or_eq_true, not_or, Bool.not_eq_true] at hbad
    exact ⟨(Option.some.inj hv).symm, hbad.2⟩
  refine ⟨?_, fun v hv => ?_⟩
  · have hsame : names.map id = (obj.value "cities").toArray.map nameOf :=
      map_eq_map_of_some hmap fun v name hv => (hname v name hv).1
    rwa [List.map_id] at hsame
  · have hmem : ServerCountry.cityNameOf v ∈ names.map some := by
      rw [← hmap]
      exact List.mem_map_of_mem hv
    obtain ⟨name, -, hsome⟩ := List.mem_map.mp hmem
    exact (hname v name hsome.symm).2

/-- Every country finds its cities. -/
def Listed (m : ServerCountryModel) : Prop :=
  ∀ c ∈ m.countries, ∀ name ∈ c.cities, HasCity m c.code name

/-- **All countries.** -/
theorem addCountries_spec (h : (addCountries C vs m).1 = true) (hm : Stored used m)
    (hlisted : Listed m) (hnodup : (used ++ publicKeys vs).Nodup) :
    Stored (used ++ publicKeys vs) (addCountries C vs m).2 ∧ Listed (addCountries C vs m).2 := by
  induction vs generalizing m used with
  | nil =>
    rw [publicKeys, List.flatMap_nil, List.append_nil]
    exact ⟨hm, hlisted⟩
  | cons v vs ih =>
    rw [publicKeys, List.flatMap_cons, ← publicKeys, ← List.append_assoc] at hnodup ⊢
    rw [addCountries] at h ⊢
    by_cases hok : (addCountry C v m).1 = true
    · rw [if_pos hok] at h ⊢
      have hturn : Stored (used ++ countryKeys v) (addCountry C v m).2 ∧
          Listed (addCountry C v m).2 := by
        rcases parse_cases v with hreject | ⟨hobj, c, hparse⟩
        · rw [addCountry_of_rejected hreject] at hok
          contradiction
        · obtain ⟨hcities, hnames⟩ := cities_of_parse hparse
          by_cases hempty : c.cities = []
          · rw [addCountry_of_empty hobj hparse hempty]
            have hnil : countryKeys v = [] := by
              rw [hempty, eq_comm, List.map_eq_nil_iff] at hcities
              rw [countryKeys, hcities]
              rfl
            rw [hnil, List.append_nil]
            exact ⟨hm, hlisted⟩
          · rw [addCountry_of_cities hobj hparse hempty] at hok ⊢
            obtain ⟨hstored, hcountries, hkept, hhas⟩ := addCities_spec hok
              (m := { m with countries := m.countries ++ [c.sortCities C] })
              ⟨hm.initialized, hm.servers⟩ hnames (List.Nodup.of_append_left hnodup)
            refine ⟨hstored, fun c' hc' name hname => ?_⟩
            rw [hcountries] at hc'
            rcases List.mem_append.mp hc' with hc' | hc'
            · exact hkept _ (hlisted c' hc' name hname)
            · obtain rfl := List.mem_singleton.mp hc'
              have hmem : name ∈ c.cities := (C.perm_cities c.cities).mem_iff.mp hname
              rw [hcities] at hmem
              obtain ⟨w, hw, rfl⟩ := List.mem_map.mp hmem
              exact hhas w hw
      exact ih h hturn.1 hturn.2 hnodup
    · rw [if_neg hok] at h
      exact absurd h hok

/-- The public keys of a document. -/
def documentKeys (D : List Byte → Option Json.Object) (json : List Byte) : List (List Char) :=
  match D json with
  | none => []
  | some obj => publicKeys (obj.value "countries").toArray

theorem resolves_sortCountries (hm : Stored used m) (hlisted : Listed m) :
    Resolves (m.sortCountries C) where
  cities c hc name hname := by
    obtain ⟨c', hc', rfl⟩ := List.mem_map.mp hc
    have hmem := (C.perm_countries _).mem_iff.mp hc'
    have hname' := (C.perm_cities c'.cities).mem_iff.mp hname
    obtain ⟨city, hcity⟩ := Option.isSome_iff_exists.mp (hlisted c' hmem name hname')
    have hfound : (m.sortCountries C).findCity c'.code name = city := by
      rw [findCity, sortCountries, hcity]
      rfl
    rw [ServerCountry.sortCities, hfound]
    exact hm.initialized _ city hcity
  servers key city hcity pubkey hpubkey := (hm.servers key city hcity pubkey hpubkey).2

theorem resolves_fromJsonInternal {D : List Byte → Option Json.Object} {json : List Byte}
    (h : (fromJsonInternal D C json).1 = true) (hunique : (documentKeys D json).Nodup) :
    Resolves (fromJsonInternal D C json).2 := by
  unfold fromJsonInternal at h ⊢
  unfold documentKeys at hunique
  cases hdoc : D json with
  | none => simp [hdoc] at h
  | some obj =>
    simp only [hdoc] at h hunique ⊢
    split_ifs at h ⊢ with _ hok
    · have hempty : Stored [] {} := ⟨by simp, by simp⟩
      obtain ⟨hstored, hlisted⟩ := addCountries_spec hok hempty (by simp [Listed]) hunique
      exact resolves_sortCountries hstored hlisted
    · exact absurd h hok

theorem rawJson_fromJsonInternal (D : List Byte → Option Json.Object) (json : List Byte) :
    (fromJsonInternal D C json).2.rawJson = [] := by
  unfold fromJsonInternal
  split
  · rfl
  · rename_i obj _
    have hloop : (addCountries C (obj.value "countries").toArray {}).2.rawJson = [] :=
      addCountries_keeps (P := fun m => m.rawJson = []) (fun _ _ h => h) (fun _ _ h => h)
        (fun _ _ _ h => h) _ rfl
    dsimp only
    split_ifs
    · rfl
    · exact hloop
    · exact hloop

theorem resolves_step {D : List Byte → Option Json.Object} {json : List Byte}
    (hm : m.initialized = true → Resolves m) (hunique : (documentKeys D json).Nodup)
    (h : (step D C m json).initialized = true) : Resolves (step D C m json) := by
  unfold step fromJson at h ⊢
  dsimp only at h ⊢
  split_ifs at h ⊢ with hcached hok
  · exact hm h
  · have hres := resolves_fromJsonInternal hok hunique
    exact ⟨hres.cities, hres.servers⟩
  · simp [initialized, rawJson_fromJsonInternal] at h

/-- **Accepted documents.** After any sequence of calls with documents in which no public key is
repeated, a model that is initialised resolves all its names and keys. -/
theorem resolves_of_initialized (D : List Byte → Option Json.Object) (calls : List (List Byte))
    (hunique : ∀ json ∈ calls, (documentKeys D json).Nodup)
    (h : (calls.foldl (step D C) {}).initialized = true) :
    Resolves (calls.foldl (step D C) {}) := by
  have hguarded := (@guarded_const _ _ (step D C) _ {} calls).mpr hunique
  have hstep : ∀ m json, (initialized m = true → Resolves m) → (documentKeys D json).Nodup →
      (initialized (step D C m json) = true → Resolves (step D C m json)) :=
    fun m json hm hkeys => resolves_step hm hkeys
  have hrun := hguarded.invariant hstep (by simp [initialized]) calls.length
  rw [List.take_length] at hrun
  exact hrun h

end Accepted

/-! ## When it is intact -/

/-- Whether a country with a city is read before the loop ends or stops. -/
def readsCity : List Json → Bool
  | [] => false
  | v :: vs =>
    if !v.isObject then false
    else
      match ServerCountry.parse v.toObject with
      | none => false
      | some country => if country.cities.isEmpty then readsCity vs else true

/-- Whether a document lists a city, before anything in it is rejected. -/
def listsCity (D : List Byte → Option Json.Object) (json : List Byte) : Bool :=
  match D json with
  | none => false
  | some obj => readsCity (obj.value "countries").toArray

variable {D : List Byte → Option Json.Object} {C : Sorting}

theorem readsCity_cons (v : Json) (vs : List Json) :
    readsCity (v :: vs) = true ↔ v.isObject = true ∧ ∃ country,
      ServerCountry.parse v.toObject = some country ∧
        (country.cities ≠ [] ∨ readsCity vs = true) := by
  rw [readsCity]
  by_cases hobj : v.isObject = true
  · cases hparse : ServerCountry.parse v.toObject with
    | none => simp [hobj]
    | some country =>
      by_cases hempty : country.cities = []
      · simp [hobj, hempty]
      · simp [hobj, hempty]
  · simp [hobj]

theorem countries_addCountries (vs : List Json) (m : ServerCountryModel) :
    (readsCity vs = true → (addCountries C vs m).2.countries ≠ []) ∧
      (¬readsCity vs = true → (addCountries C vs m).2 = m) := by
  induction vs with
  | nil => exact ⟨by simp [readsCity], fun _ => rfl⟩
  | cons v vs ih =>
    rw [addCountries, readsCity_cons]
    rcases parse_cases v with hreject | ⟨hobj, country, hparse⟩
    · rw [addCountry_of_rejected hreject]
      refine ⟨fun ⟨hobj, country, hparse, _⟩ => ?_, fun _ => rfl⟩
      rw [hreject hobj] at hparse
      contradiction
    · by_cases hempty : country.cities = []
      · rw [addCountry_of_empty hobj hparse hempty]
        refine ⟨fun ⟨_, country', hparse', hreads⟩ => ih.1 ?_, fun hnot => ih.2 fun hreads => ?_⟩
        · obtain rfl : country = country' := by simpa [hparse] using hparse'
          exact hreads.resolve_left (not_not.mpr hempty)
        · exact hnot ⟨hobj, country, hparse, .inr hreads⟩
      · -- The country is there, and what comes after it only appends.
        rw [addCountry_of_cities hobj hparse hempty]
        refine ⟨fun _ => ?_, fun hnot => absurd ⟨hobj, country, hparse, .inl hempty⟩ hnot⟩
        have hthere := addCities_keeps (P := fun m => m.countries ≠ []) (fun _ _ h => h)
          (fun _ _ h => h) country.code (v.toObject.value "cities").toArray
          (m := { m with countries := m.countries ++ [country.sortCities C] }) (by simp)
        split_ifs
        · exact addCountries_keeps (P := fun m => m.countries ≠ []) (fun _ _ h => h)
            (fun _ _ h => h) (by simp) vs hthere
        · exact hthere

theorem lossy_fromJsonInternal (json : List Byte) : Lossy (fromJsonInternal D C json).2 := by
  unfold fromJsonInternal
  split
  · exact lossy_init
  · rename_i obj _
    have hloop := lossy_addCountries C (obj.value "countries").toArray lossy_init
    dsimp only
    split_ifs
    · exact lossy_init
    · exact hloop.sortCountries C
    · exact hloop

theorem sortCountries_empty (C : Sorting) : sortCountries C {} = {} := by
  have hperm := C.perm_countries []
  unfold sortCountries
  rw [hperm.eq_nil]
  rfl

theorem countries_fromJsonInternal (json : List Byte) :
    (listsCity D json = true → (fromJsonInternal D C json).2.countries ≠ []) ∧
      (¬listsCity D json = true → (fromJsonInternal D C json).2 = {}) := by
  unfold fromJsonInternal listsCity
  cases D json with
  | none => exact ⟨by simp, fun _ => rfl⟩
  | some obj =>
    obtain ⟨hlists, hempty⟩ := countries_addCountries (C := C) (obj.value "countries").toArray {}
    dsimp only
    by_cases harray : (obj.value "countries").isArray = true
    · rw [if_neg (by simp [harray])]
      refine ⟨fun h => ?_, fun h => ?_⟩
      · split_ifs
        · unfold sortCountries
          dsimp only
          rw [ne_eq, List.map_eq_nil_iff]
          intro hnil
          have hperm :=
            C.perm_countries (addCountries C (obj.value "countries").toArray {}).2.countries
          rw [hnil] at hperm
          exact hlists h hperm.nil_eq.symm
        · exact hlists h
      · split_ifs
        · rw [hempty h, sortCountries_empty]
        · exact hempty h
    · have hnone : (obj.value "countries").toArray = [] := by
        cases hvalue : obj.value "countries" with
        | arr values => exact absurd (by rw [hvalue]; rfl) harray
        | _ => rfl
      rw [if_pos (by simp [harray]), hnone]
      exact ⟨by simp [readsCity], fun _ => rfl⟩

/-- Nothing is in the model, and the last document that was accepted lists no city. -/
structure Bare (D : List Byte → Option Json.Object) (m : ServerCountryModel) : Prop where
  countries : m.countries = []
  cities : ∀ key, m.cities key = none
  rawJson : m.rawJson ≠ [] → listsCity D m.rawJson = false

theorem Bare.intact {m : ServerCountryModel} (h : Bare D m) : Intact m where
  cities := by simp [h.countries]
  servers := by simp [h.cities]
  hashKeys := by simp [h.countries]

theorem Bare.step {m : ServerCountryModel} (h : Bare D m) {json : List Byte}
    (hlists : listsCity D json = false) : Bare D (step D C m json) := by
  have hinternal := (countries_fromJsonInternal (D := D) (C := C) json).2 (by simp [hlists])
  unfold ServerCountryModel.step fromJson
  dsimp only
  split_ifs
  · exact h
  · rw [hinternal]
    exact ⟨rfl, fun _ => rfl, fun _ => hlists⟩
  · rw [hinternal]
    exact ⟨rfl, fun _ => rfl, by simp⟩

/-- A document with a city breaks it, whether it is accepted or not. -/
theorem Bare.not_intact_step {m : ServerCountryModel} (h : Bare D m) {json : List Byte}
    (hlists : listsCity D json = true) : ¬Intact (ServerCountryModel.step D C m json) := by
  have hcountries := (countries_fromJsonInternal (D := D) (C := C) json).1 hlists
  have hlossy := lossy_fromJsonInternal (D := D) (C := C) json
  intro hintact
  unfold ServerCountryModel.step fromJson at hintact
  dsimp only at hintact
  split_ifs at hintact with hcached
  · obtain ⟨hne, rfl⟩ := hcached
    rw [h.rawJson hne] at hlists
    contradiction
  · have hstored : Lossy { (fromJsonInternal D C json).2 with rawJson := json } :=
      ⟨hlossy.hashKey, hlossy.listed⟩
    exact hcountries (hstored.countries_eq_nil hintact)
  · exact hcountries (hlossy.countries_eq_nil hintact)

/-- **Integrity.** Over any sequence of calls the list is intact at all times exactly when no
document lists a city. -/
theorem intact_iff (D : List Byte → Option Json.Object) (C : Sorting) (calls : List (List Byte)) :
    (∀ n, Intact ((calls.take n).foldl (step D C) {})) ↔
      ∀ json ∈ calls, listsCity D json = false := by
  rw [← @guarded_const _ _ (step D C) (fun json => listsCity D json = false) {} calls]
  have hbare : Bare D {} := ⟨rfl, fun _ => rfl, by simp⟩
  have hstep : ∀ m json, Bare D m → listsCity D json = false → Bare D (step D C m json) :=
    fun m json hm hlists => hm.step hlists
  have hbreak : ∀ m json, Bare D m → ¬listsCity D json = false → ¬Intact (step D C m json) :=
    fun m json hm hlists => hm.not_intact_step (by simpa using hlists)
  exact forall_take_iff_guarded hstep (fun m hm => hm.intact) hbreak hbare calls

/-! ### A city without its key, and a country without its city -/

/-- The entry of a city, complete or without its position. -/
def gothenburg (complete : Bool) : Json :=
  .obj ([("code", .str "got".toList)] ++
    (if complete then [("latitude", .num 57), ("longitude", .num 12)] else []) ++
    [("name", .str "Gothenburg".toList), ("servers", .arr [])])

def sweden (complete : Bool) : Json.Object :=
  [("countries", .arr [.obj [("cities", .arr [gothenburg complete]), ("code", .str "se".toList),
    ("name", .str "Sweden".toList)]])]

def ascii (text : String) : List Byte := text.toList.map fun c => BitVec.ofNat 8 c.toNat

/-- The text of the position. -/
def position : List Byte := ascii "\"latitude\":57,\"longitude\":12,"

/-- The text of a document. -/
def document (complete : Bool) : List Byte :=
  ascii "\x7b\"countries\":[\x7b\"cities\":[\x7b\"code\":\"got\"," ++
    ((if complete then position else []) ++
      ascii "\"name\":\"Gothenburg\",\"servers\":[]\x7d],\"code\":\"se\",\"name\":\"Sweden\"\x7d]\x7d")

/-- `QJsonDocument::fromJson` on these texts. -/
def decode (json : List Byte) : Option Json.Object :=
  if json = document true then some (sweden true)
  else if json = document false then some (sweden false)
  else none

def unsorted : Sorting := ⟨id, id, fun _ => .refl _, fun _ => .refl _⟩

theorem decode_document (complete : Bool) : decode (document complete) = some (sweden complete) := by
  cases complete with
  | true => exact if_pos rfl
  | false =>
    have hposition : position ≠ [] := by decide
    have hne : document false ≠ document true := by
      intro heq
      have htail := List.append_cancel_left heq
      exact hposition (List.append_cancel_right htail).symm
    rw [decode, if_neg hne, if_pos rfl]

theorem fromJson_new (json : List Byte) :
    (fromJson D C {} json).1 = (fromJsonInternal D C json).1 ∧
      (step D C {} json).cities = (fromJsonInternal D C json).2.cities := by
  have hnew : ¬(json ≠ [] ∧ [] = json) := fun h => h.1 h.2.symm
  rw [step, fromJson, if_neg hnew]
  dsimp only
  split_ifs with hok
  · exact ⟨hok.symm, rfl⟩
  · exact ⟨rfl, rfl⟩

/-- What the model makes of the city. -/
def found (complete : Bool) : ServerCity :=
  (step decode unsorted {} (document complete)).findCity (.text "se".toList)
    (.text "Gothenburg".toList)

theorem not_intact_document (complete : Bool) :
    (fromJson decode unsorted {} (document complete)).1 = complete ∧
      (found complete).initialized = complete ∧ (found complete).hashKey = .null ∧
      ¬Intact (step decode unsorted {} (document complete)) := by
  have hbare : Bare decode {} := ⟨rfl, fun _ => rfl, by simp⟩
  have hlists : listsCity decode (document complete) = true := by
    rw [listsCity, decode_document]
    cases complete with
    | true => rfl
    | false => rfl
  rw [found, findCity, (fromJson_new (document complete)).1, (fromJson_new (document complete)).2,
    fromJsonInternal, decode_document]
  refine ⟨?_, ?_, ?_, hbare.not_intact_step hlists⟩
  · cases complete with
    | true => rfl
    | false => rfl
  · cases complete with
    | true => rfl
    | false => rfl
  · cases complete with
    | true => rfl
    | false => rfl

/-- The complete document is accepted and the city has no hash key; the other one is rejected and
the name of its city leads nowhere. -/
theorem documents_not_intact :
    ((fromJson decode unsorted {} (document true)).1 = true ∧
        (found true).initialized = true ∧ (found true).hashKey = .null ∧
        ¬Intact (step decode unsorted {} (document true))) ∧
      ((fromJson decode unsorted {} (document false)).1 = false ∧
        (found false).initialized = false ∧ (found false).hashKey = .null ∧
        ¬Intact (step decode unsorted {} (document false))) :=
  ⟨not_intact_document true, not_intact_document false⟩

end ServerCountryModel

end WgDesktop
