import WgDesktop.Lib.PlaceMarkers
import WgDesktop.Linux.XdgPortal

/-!
# Names of launcher scopes

`snapDesktopFileId` and `findDesktopFileId` of `src/platforms/linux/daemon/apptracker.cpp`: the
desktop file that a control group was started from. What systemd knows of a unit is a parameter.
`strip_uuid` is the reason why the names of snaps come out right: the expression that takes out the
UUID matches nowhere in front of it, though names and UUIDs share letters and hyphens.
-/

namespace WgDesktop.AppTracker

open Text Replace PlaceMarkers XdgPortal

/-! ## The expression for a UUID -/

/-- The characters that one place of the expression stands for. -/
inductive Place where
  | separator
  | digit
  | hyphen
  deriving DecidableEq, Repr

def Place.admits : Place → Char → Bool
  | separator, c => c == '-' || c == '.'
  | digit, c => isHexDigit c
  | hyphen, c => c == '-'

/-- A UUID. The `\b` of the expression stand between a digit and a hyphen, where they hold. -/
def uuidPlaces : List Place :=
  List.replicate 8 Place.digit ++ (Place.hyphen :: List.replicate 4 Place.digit) ++
    (Place.hyphen :: List.replicate 4 Place.digit) ++
    (Place.hyphen :: List.replicate 4 Place.digit) ++
    (Place.hyphen :: List.replicate 12 Place.digit)

def snapuuid : List Place := .separator :: uuidPlaces

/-- The text begins with what the places stand for. -/
def fits : List Place → List Char → Bool
  | [], _ => true
  | place :: places, c :: s => place.admits c && fits places s
  | _ :: _, [] => false

/-- The length of the match at the beginning of a text. -/
def snapuuidMatch (s : List Char) : Option ℕ :=
  if fits snapuuid s then some snapuuid.length else none

/-- `stripped.remove(snapuuid)`. -/
def strip (scope : List Char) : List Char := replaceAll snapuuidMatch [] scope

/-! ## Desktop files -/

def snapDesktopFileId (scope : List Char) : List Char :=
  -- the part after the last dot is the extension
  let split := ((strip scope).splitOn '.').dropLast
  let package := split.getD 1 []
  let app := split.getD 2 []
  let app := if app = "hook".toList then split.getD 3 [] else app
  if package.isEmpty || app.isEmpty then []
  else arg (arg "%1_%2.desktop".toList package) app

def gnomeLaunchdPrefix : List Char := "gnome-launched-".toList

/-- `findDesktopFileId`, where `unitDesktopFileId` is what the last branch learns from systemd. -/
def findDesktopFileId (unitDesktopFileId : List Char → List Char) (cgroup : List Char) :
    Except Fault (List Char) := do
  let scopeName := afterLast '/' cgroup
  let appId ← if "app-".toList.isPrefixOf scopeName then parseCgroupAppId scopeName else pure []
  if !appId.isEmpty then
    return appId ++ ".desktop".toList
  let startPos := gnomeLaunchdPrefix.length
  let endPos := lastIndexOf scopeName '-'
  if gnomeLaunchdPrefix.isPrefixOf scopeName ∧ endPos > startPos then
    return (scopeName.drop startPos).take (endPos - startPos).toNat
  if "snap.".toList.isPrefixOf scopeName then
    return snapDesktopFileId scopeName
  return unitDesktopFileId scopeName

/-! ## Where the expression matches -/

theorem fits_iff {places : List Place} {s : List Char} :
    fits places s = true ↔
      ∀ (i : ℕ) (place : Place), places[i]? = some place →
        ∃ c, s[i]? = some c ∧ place.admits c = true := by
  induction places generalizing s with
  | nil => simp [fits]
  | cons place places ih =>
    cases s with
    | nil =>
      refine ⟨fun h => absurd h Bool.false_ne_true, fun h => ?_⟩
      obtain ⟨c, hc, -⟩ := h 0 place rfl
      cases hc
    | cons c s =>
      rw [fits, Bool.and_eq_true, ih]
      constructor
      · rintro ⟨hc, hs⟩ i other hi
        cases i with
        | zero =>
          obtain rfl : place = other := by simpa using hi
          exact ⟨c, rfl, hc⟩
        | succ i => exact hs i other hi
      · intro h
        refine ⟨?_, fun i other hi => h (i + 1) other hi⟩
        obtain ⟨d, hd, hadmits⟩ := h 0 place rfl
        obtain rfl : c = d := by simpa using hd
        exact hadmits

/-- A match reaches no further than the text in front of `c`, or it has a place for `c`. -/
theorem fits_append_cons {places : List Place} {b t : List Char} {c : Char}
    (h : fits places (b ++ c :: t) = true) :
    fits places b = true ∨
      ∃ place, places[b.length]? = some place ∧ place.admits c = true := by
  rw [fits_iff] at h
  by_cases hlen : b.length < places.length
  · obtain ⟨d, hd, hadmits⟩ := h b.length _ (List.getElem?_eq_getElem hlen)
    rw [List.getElem?_append_right le_rfl, Nat.sub_self] at hd
    obtain rfl : c = d := by simpa using hd
    exact Or.inr ⟨_, List.getElem?_eq_getElem hlen, hadmits⟩
  · refine Or.inl (fits_iff.mpr fun i place hi => ?_)
    obtain ⟨hlt, -⟩ := List.getElem?_eq_some_iff.mp hi
    obtain ⟨d, hd, hadmits⟩ := h i place hi
    rw [List.getElem?_append_left (by omega)] at hd
    exact ⟨d, hd, hadmits⟩

def IsUuid (u : List Char) : Prop := u.length = uuidPlaces.length ∧ fits uuidPlaces u = true

/-- A name of a snap or of one of its applications, with no part that looks like a UUID. Letters,
digits and hyphens are neither dots nor percent signs. -/
structure SnapName (name : List Char) : Prop where
  ne_nil : name ≠ []
  no_dot : '.' ∉ name
  no_percent : '%' ∉ name
  no_uuid : ∀ part, part <:+: name → ¬IsUuid part

theorem length_uuidPlaces : uuidPlaces.length = 36 := rfl

theorem fits_take {s : List Char} (h : fits uuidPlaces s = true) : IsUuid (s.take 36) := by
  rw [fits_iff] at h
  obtain ⟨c, hc, -⟩ := h 35 .digit rfl
  obtain ⟨hlen, -⟩ := List.getElem?_eq_some_iff.mp hc
  refine ⟨by rw [List.length_take, length_uuidPlaces]; omega, fits_iff.mpr fun i place hi => ?_⟩
  obtain ⟨hlt, -⟩ := List.getElem?_eq_some_iff.mp hi
  rw [length_uuidPlaces] at hlt
  rw [List.getElem?_take_of_lt hlt]
  exact h i place hi

/-- Within a name there is no match, also not with the separator in front of it. -/
theorem not_fits_of_no_uuid {name b : List Char} {c : Char}
    (h : ∀ part, part <:+: name → ¬IsUuid part) (hb : b ≠ []) (hsuffix : b <:+ c :: name) :
    fits snapuuid b ≠ true := by
  intro hfits
  obtain ⟨d, b, rfl⟩ := List.exists_cons_of_ne_nil hb
  rw [snapuuid, fits, Bool.and_eq_true] at hfits
  have hb : b <:+ name := by
    rcases List.suffix_cons_iff.mp hsuffix with heq | hsuffix
    · exact (List.cons.inj heq).2 ▸ List.suffix_refl _
    · exact (List.suffix_cons d b).trans hsuffix
  exact h _ ((List.take_prefix 36 b).isInfix.trans hb.isInfix) (fits_take hfits.2)

theorem place_dot {i : ℕ} {place : Place} (hi : 0 < i) (h : snapuuid[i]? = some place) :
    place.admits '.' = false := by
  obtain ⟨j, rfl⟩ : ∃ j, i = j + 1 := ⟨i - 1, by omega⟩
  have hmem : place ∈ uuidPlaces := List.mem_of_getElem? h
  have hall : uuidPlaces.all (fun place => !place.admits '.') = true := by decide
  simpa using List.all_eq_true.mp hall place hmem

theorem strip_part {name : List Char} (c : Char) (h : ∀ part, part <:+: name → ¬IsUuid part)
    (rest : List Char) :
    strip (c :: name ++ '.' :: rest) = c :: name ++ strip ('.' :: rest) := by
  refine replaceAll_append _ fun b hb hsuffix => ?_
  refine if_neg fun hfits => ?_
  rcases fits_append_cons hfits with hfits | ⟨place, hplace, hadmits⟩
  · exact not_fits_of_no_uuid h hb hsuffix hfits
  · rw [place_dot (List.length_pos_iff.mpr hb) hplace] at hadmits
    cases hadmits

/-- Where a match has a hyphen, it has another one 5 places on or a digit 9 places on. -/
theorem place_hyphen {i : ℕ} (hi : 0 < i) {place : Place} (h : snapuuid[i]? = some place)
    (hadmits : place.admits '-' = true) :
    snapuuid[i + 5]? = some .hyphen ∨ snapuuid[i + 9]? = some .digit := by
  have hlt : i < 37 := (List.getElem?_eq_some_iff.mp h).1
  have hall : (List.range 37).all (fun i => i == 0 || snapuuid[i]? == some .digit ||
      snapuuid[i + 5]? == some .hyphen || snapuuid[i + 9]? == some .digit) = true := by decide
  have hi' := List.all_eq_true.mp hall i (List.mem_range.mpr hlt)
  have hdigit : snapuuid[i]? ≠ some .digit := by
    rw [h]
    rintro heq
    rw [Option.some.injEq] at heq
    rw [heq] at hadmits
    exact absurd hadmits (by decide)
  simpa [hdigit, hi.ne'] using hi'

/-- A match that begins in a name does not reach into the UUID behind it. -/
theorem strip_uuid {name u : List Char} (c : Char) (h : ∀ part, part <:+: name → ¬IsUuid part)
    (hu : IsUuid u) (rest : List Char) :
    strip (c :: name ++ '-' :: u ++ rest) = c :: name ++ strip ('-' :: u ++ rest) := by
  rw [List.append_assoc]
  refine replaceAll_append _ fun b hb hsuffix => ?_
  refine if_neg fun hfits => ?_
  rcases fits_append_cons hfits with hfits' | ⟨place, hplace, hadmits⟩
  · exact not_fits_of_no_uuid h hb hsuffix hfits'
  · have hpos := List.length_pos_iff.mpr hb
    have hu' := fits_iff.mp hu.2
    -- the text at `b.length + 1 + j` is the UUID at `j`
    have htext : ∀ j < 36, (b ++ ('-' :: u ++ rest))[b.length + 1 + j]? = u[j]? := by
      intro j hj
      have hlen : j < u.length := by rw [hu.1]; exact hj
      rw [List.getElem?_append_right (by omega), List.cons_append,
        show b.length + 1 + j - b.length = j + 1 by omega, List.getElem?_cons_succ,
        List.getElem?_append_left hlen]
    rcases place_hyphen hpos hplace hadmits with hnext | hnext
    · obtain ⟨d, hd, hhyphen⟩ := fits_iff.mp hfits _ _ hnext
      obtain ⟨e, he, hdigit⟩ := hu' 4 .digit rfl
      have hde : d = e := by
        have heq := htext 4 (by omega)
        rwa [show b.length + 1 + 4 = b.length + 5 by omega, hd, he, Option.some.injEq] at heq
      obtain rfl : e = '-' := by simpa [Place.admits, hde] using hhyphen
      exact absurd hdigit (by decide)
    · obtain ⟨d, hd, hdigit⟩ := fits_iff.mp hfits _ _ hnext
      obtain ⟨e, he, hhyphen⟩ := hu' 8 .hyphen rfl
      have hde : d = e := by
        have heq := htext 8 (by omega)
        rwa [show b.length + 1 + 8 = b.length + 9 by omega, hd, he, Option.some.injEq] at heq
      obtain rfl : e = '-' := by simpa [Place.admits] using hhyphen
      rw [hde] at hdigit
      exact absurd hdigit (by decide)

/-- The UUID is taken out together with the separator in front of it. -/
theorem strip_match {u : List Char} {c : Char} (hu : IsUuid u)
    (hc : Place.separator.admits c = true) (rest : List Char) :
    strip (c :: u ++ rest) = strip rest := by
  have hfits : fits snapuuid (c :: u ++ rest) = true := by
    rw [List.cons_append, snapuuid, fits, hc, Bool.true_and, fits_iff]
    intro i place hi
    obtain ⟨d, hd, hadmits⟩ := fits_iff.mp hu.2 i place hi
    exact ⟨d, List.getElem?_append_left (List.getElem?_eq_some_iff.mp hd).1 ▸ hd, hadmits⟩
  have hlen : snapuuid.length = u.length + 1 := by
    rw [hu.1, snapuuid, List.length_cons, length_uuidPlaces]
  exact replaceAll_match (by rw [snapuuidMatch, if_pos hfits, hlen])

/-! ## The name that is put together -/

theorem arg_package (package : List Char) :
    arg "%1_%2.desktop".toList package = package ++ "_%2.desktop".toList := by
  have hmin : (markers "%1_%2.desktop".toList).min? = some 1 := by decide
  rw [arg, hmin]
  rfl

theorem arg_app {package : List Char} (h : '%' ∉ package) (app : List Char) :
    arg (package ++ "_%2.desktop".toList) app = package ++ '_' :: app ++ ".desktop".toList := by
  have hends : Ends "_%2.desktop".toList := fun c hc => by
    obtain rfl : '_' = c := Option.some.inj hc
    decide
  have hmin : (markers "_%2.desktop".toList).min? = some 2 := by decide
  rw [arg_append hends hmin (by simp [markers_of_not_mem h]), List.append_assoc, arg, hmin]
  rfl

/-- The desktop file of an application of a package. -/
def desktopFile (package app : List Char) : List Char :=
  package ++ '_' :: app ++ ".desktop".toList

/-- A scope is `snap`, the package, for a hook the word `hook`, the application and a rest. -/
theorem snapDesktopFileId_of_strip {package app scope extension : List Char}
    {hook : List (List Char)} (hpackage : SnapName package) (happ : SnapName app)
    (hne : app ≠ "hook".toList) (hhook : hook = [] ∨ hook = ["hook".toList])
    (hstrip : (strip scope).splitOn '.' = "snap".toList :: package :: (hook ++ [app, extension])) :
    snapDesktopFileId scope = desktopFile package app := by
  have hempty : (package.isEmpty || app.isEmpty) = false := by
    simp [hpackage.ne_nil, happ.ne_nil]
  have hfile : arg (arg "%1_%2.desktop".toList package) app = desktopFile package app := by
    rw [arg_package, arg_app hpackage.no_percent]
    rfl
  rcases hhook with rfl | rfl
  · have hsplit : ((strip scope).splitOn '.').dropLast = ["snap".toList, package, app] := by
      rw [hstrip]
      rfl
    simp only [snapDesktopFileId, hsplit, List.getD_cons_succ, List.getD_cons_zero, if_neg hne,
      hempty, Bool.false_eq_true, if_false, hfile]
  · have hsplit : ((strip scope).splitOn '.').dropLast =
        ["snap".toList, package, "hook".toList, app] := by
      rw [hstrip]
      rfl
    simp only [snapDesktopFileId, hsplit, List.getD_cons_succ, List.getD_cons_zero, if_true,
      hempty, Bool.false_eq_true, if_false, hfile]

/-! ## The scopes of snaps -/

section Snap

variable {package app u : List Char}

/-- `snap.<package>.<rest>`, where the rest begins behind the dot. -/
def snapScope (package rest : List Char) : List Char :=
  "snap".toList ++ '.' :: package ++ '.' :: rest

/-- The forms in which snapd ends the name of a scope of `app`, and what is left without the
UUID. -/
inductive Ending (app : List Char) : List Char → List Char → Prop
  | service : Ending app (app ++ '.' :: "service".toList) "service".toList
  | dash {u : List Char} (hu : IsUuid u) :
      Ending app (app ++ '-' :: u ++ ".scope".toList) "scope".toList
  | dot {u : List Char} (hu : IsUuid u) :
      Ending app (app ++ '.' :: u ++ ".scope".toList) "scope".toList

theorem Ending.strip {rest extension : List Char} (h : Ending app rest extension)
    (happ : SnapName app) : strip ('.' :: rest) = '.' :: app ++ '.' :: extension := by
  cases h with
  | service =>
    have hservice : AppTracker.strip ('.' :: "service".toList) = '.' :: "service".toList := by
      decide
    rw [← List.cons_append, strip_part '.' happ.no_uuid, hservice]
  | @dash u hu =>
    have hscope : AppTracker.strip ".scope".toList = '.' :: "scope".toList := by decide
    rw [← List.cons_append, ← List.cons_append, strip_uuid '.' happ.no_uuid hu,
      strip_match hu (by decide), hscope]
  | @dot u hu =>
    have hscope : AppTracker.strip ".scope".toList = '.' :: "scope".toList := by decide
    have htail : app ++ '.' :: u ++ ".scope".toList = app ++ '.' :: (u ++ ".scope".toList) :=
      List.append_assoc _ _ _
    rw [htail, ← List.cons_append, strip_part '.' happ.no_uuid, ← List.cons_append,
      strip_match hu (by decide), hscope]

theorem Ending.no_dot {rest extension : List Char} (h : Ending app rest extension) :
    '.' ∉ extension := by
  cases h <;> decide

/-- A word too short to have a UUID in it. -/
theorem no_uuid_of_short {word : List Char} (h : word.length < 36) :
    ∀ part, part <:+: word → ¬IsUuid part := by
  intro part hpart hu
  have hlen := hpart.length_le
  rw [hu.1, length_uuidPlaces] at hlen
  omega

theorem strip_snapScope (h : SnapName package) (rest : List Char) :
    strip (snapScope package rest) = "snap".toList ++ '.' :: (package ++ strip ('.' :: rest)) := by
  have hsnap : strip ("snap".toList ++ '.' :: (package ++ '.' :: rest)) =
      "snap".toList ++ strip ('.' :: (package ++ '.' :: rest)) :=
    strip_part 's' (no_uuid_of_short (by decide)) _
  have hpackage : strip ('.' :: (package ++ '.' :: rest)) =
      '.' :: package ++ strip ('.' :: rest) := strip_part '.' h.no_uuid rest
  rw [snapScope, List.append_assoc, List.cons_append, hsnap, hpackage]
  rfl

theorem snapDesktopFileId_snapScope {rest extension : List Char} (hpackage : SnapName package)
    (happ : SnapName app) (hne : app ≠ "hook".toList) (h : Ending app rest extension) :
    snapDesktopFileId (snapScope package rest) = desktopFile package app := by
  have hsplit : (strip (snapScope package rest)).splitOn '.' =
      "snap".toList :: package :: ([] ++ [app, extension]) := by
    rw [strip_snapScope hpackage, h.strip happ, List.cons_append,
      List.splitOn_append_cons_self_of_not_mem (by decide),
      List.splitOn_append_cons_self_of_not_mem hpackage.no_dot,
      List.splitOn_append_cons_self_of_not_mem happ.no_dot, List.splitOn_eq_singleton h.no_dot]
    rfl
  exact snapDesktopFileId_of_strip hpackage happ hne (Or.inl rfl) hsplit

theorem snapDesktopFileId_hook {rest extension : List Char} (hpackage : SnapName package)
    (happ : SnapName app) (hne : app ≠ "hook".toList) (h : Ending app rest extension) :
    snapDesktopFileId (snapScope package ("hook".toList ++ '.' :: rest)) =
      desktopFile package app := by
  have hhook : strip ('.' :: ("hook".toList ++ '.' :: rest)) =
      '.' :: "hook".toList ++ strip ('.' :: rest) :=
    strip_part '.' (no_uuid_of_short (by decide)) rest
  have hsplit : (strip (snapScope package ("hook".toList ++ '.' :: rest))).splitOn '.' =
      "snap".toList :: package :: (["hook".toList] ++ [app, extension]) := by
    rw [strip_snapScope hpackage, hhook, h.strip happ, List.cons_append, List.cons_append,
      List.splitOn_append_cons_self_of_not_mem (by decide),
      List.splitOn_append_cons_self_of_not_mem hpackage.no_dot,
      List.splitOn_append_cons_self_of_not_mem (by decide : '.' ∉ "hook".toList),
      List.splitOn_append_cons_self_of_not_mem happ.no_dot, List.splitOn_eq_singleton h.no_dot]
    rfl
  exact snapDesktopFileId_of_strip hpackage happ hne (Or.inr rfl) hsplit

end Snap

/-! ## The scopes of the launchers -/

/-- The scope of a desktop file that an older Gnome has started. -/
def gnomeScope (desktopFileId pid : List Char) : List Char :=
  gnomeLaunchdPrefix ++ desktopFileId ++ '-' :: pid ++ ".scope".toList

theorem findDesktopFileId_gnomeScope (unitDesktopFileId : List Char → List Char)
    {desktopFileId pid cgroup : List Char} (hne : desktopFileId ≠ [])
    (hslash : '/' ∉ desktopFileId) (hpid : ∀ c ∈ pid, c.isDigit = true)
    (hpath : PathTo (gnomeScope desktopFileId pid) cgroup) :
    findDesktopFileId unitDesktopFileId cgroup = .ok desktopFileId := by
  have hdigit : ∀ c : Char, c.isDigit = false → c ∉ pid := by
    intro c hc hmem
    rw [hpid c hmem] at hc
    cases hc
  have hscope : afterLast '/' cgroup = gnomeScope desktopFileId pid := by
    refine hpath.afterLast ?_
    simp only [gnomeScope, List.mem_append, List.mem_cons, not_or]
    exact ⟨⟨⟨by decide, hslash⟩, by decide, hdigit '/' rfl⟩, by decide⟩
  have hprefix : gnomeLaunchdPrefix <+: gnomeScope desktopFileId pid := by
    rw [gnomeScope, List.append_assoc, List.append_assoc]
    exact List.prefix_append _ _
  have happ : "app-".toList.isPrefixOf (gnomeScope desktopFileId pid) = false := by
    refine Bool.eq_false_iff.mpr fun h => ?_
    have hgnome := List.prefix_of_prefix_length_le (List.isPrefixOf_iff_prefix.mp h) hprefix
      (by decide)
    exact absurd hgnome (by decide)
  have hgnome : gnomeLaunchdPrefix.isPrefixOf (gnomeScope desktopFileId pid) = true :=
    List.isPrefixOf_iff_prefix.mpr hprefix
  have hindex : lastIndexOf (gnomeScope desktopFileId pid) '-' =
      ((gnomeLaunchdPrefix ++ desktopFileId).length : ℕ) := by
    have hlast : '-' ∉ pid ++ ".scope".toList := by
      rw [List.mem_append, not_or]
      exact ⟨hdigit '-' rfl, by decide⟩
    rw [lastIndexOf, gnomeScope, List.append_assoc, List.cons_append, lastIdx?_append_cons hlast]
    rfl
  have hlen : 0 < desktopFileId.length := List.length_pos_iff.mpr hne
  have htake : ((gnomeScope desktopFileId pid).drop gnomeLaunchdPrefix.length).take
      desktopFileId.length = desktopFileId := by
    rw [gnomeScope, List.append_assoc, List.append_assoc, List.drop_left, List.take_left]
  have hgt : ((gnomeLaunchdPrefix ++ desktopFileId).length : ℤ) > gnomeLaunchdPrefix.length := by
    rw [List.length_append]
    omega
  have hcount : ((gnomeLaunchdPrefix ++ desktopFileId).length -
      gnomeLaunchdPrefix.length : ℤ).toNat = desktopFileId.length := by
    rw [List.length_append]
    omega
  rw [findDesktopFileId]
  simp only [hscope, happ, hindex, hgnome, hgt, hcount, htake, and_self, if_true,
    Bool.false_eq_true, if_false]
  rfl

/-- The scopes of the launchers name the desktop file. -/
theorem launcherScopes (unitDesktopFileId : List Char → List Char) :
    (∀ desktopFileId pid cgroup : List Char, desktopFileId ≠ [] → '/' ∉ desktopFileId →
      (∀ c ∈ pid, c.isDigit = true) → PathTo (gnomeScope desktopFileId pid) cgroup →
        findDesktopFileId unitDesktopFileId cgroup = .ok desktopFileId) ∧
    ∀ package app u : List Char,
      SnapName package → SnapName app → app ≠ "hook".toList → IsUuid u →
      ∀ scope ∈ [snapScope package (app ++ '.' :: "service".toList),
          snapScope package (app ++ '-' :: u ++ ".scope".toList),
          snapScope package (app ++ '.' :: u ++ ".scope".toList),
          snapScope package ("hook".toList ++ '.' :: (app ++ '-' :: u ++ ".scope".toList)),
          snapScope package ("hook".toList ++ '.' :: (app ++ '.' :: u ++ ".scope".toList))],
        snapDesktopFileId scope = package ++ '_' :: app ++ ".desktop".toList := by
  refine ⟨fun desktopFileId pid cgroup hne hslash hpid hpath =>
    findDesktopFileId_gnomeScope unitDesktopFileId hne hslash hpid hpath, ?_⟩
  intro package app u hpackage happ hne hu scope hscope
  simp only [List.mem_cons, List.not_mem_nil, or_false] at hscope
  rcases hscope with rfl | rfl | rfl | rfl | rfl
  · exact snapDesktopFileId_snapScope hpackage happ hne .service
  · exact snapDesktopFileId_snapScope hpackage happ hne (.dash hu)
  · exact snapDesktopFileId_snapScope hpackage happ hne (.dot hu)
  · exact snapDesktopFileId_hook hpackage happ hne (.dash hu)
  · exact snapDesktopFileId_hook hpackage happ hne (.dot hu)

theorem snapName_of_short {name : List Char} (hne : name ≠ []) (hdot : '.' ∉ name)
    (hpercent : '%' ∉ name) (hlen : name.length < 36) : SnapName name :=
  ⟨hne, hdot, hpercent, no_uuid_of_short hlen⟩

theorem launcherScopes_firefox :
    findDesktopFileId (fun _ => [])
        ("/app.slice/".toList ++ gnomeScope "org.gnome.text-editor".toList "4242".toList) =
      .ok "org.gnome.text-editor".toList ∧
    snapDesktopFileId (snapScope "firefox".toList ("hook".toList ++ '.' :: ("web-app".toList ++
        '-' :: "01234567-89ab-cdef-0123-456789abcdef".toList ++ ".scope".toList))) =
      "firefox_web-app.desktop".toList := by
  have hpath : PathTo (gnomeScope "org.gnome.text-editor".toList "4242".toList)
      ("/app.slice/".toList ++ gnomeScope "org.gnome.text-editor".toList "4242".toList) :=
    Or.inr ⟨"/app.slice".toList, rfl⟩
  have hpid : "4242".toList.all Char.isDigit = true := by decide
  refine ⟨(launcherScopes fun _ => []).1 _ _ _ (by decide) (by decide)
    (List.all_eq_true.mp hpid) hpath, ?_⟩
  refine (launcherScopes fun _ => []).2 "firefox".toList "web-app".toList
    "01234567-89ab-cdef-0123-456789abcdef".toList ?_ ?_ (by decide) ⟨by decide, by decide⟩ _ ?_
  · exact snapName_of_short (by decide) (by decide) (by decide) (by decide)
  · exact snapName_of_short (by decide) (by decide) (by decide) (by decide)
  · simp only [List.mem_cons, true_or, or_true]

end WgDesktop.AppTracker
