import WgDesktop.Profile.WireGuardConfig

/-!
# The applications of the desktop

`LinuxAppListProvider::fetchEntries` of `src/platforms/linux/linuxapplistprovider.cpp`. The Desktop
Entry Specification separates the desktops of `NotShowIn` and `OnlyShowIn` by semicolons; the source
splits them at colons, so that of the lists without colons only those without a separator are
understood (`hasBetweenColons_iff`). `listed_iff` says for which entries this makes no difference.
-/

namespace WgDesktop

open Text

namespace LinuxAppListProvider

/-- The group "Desktop Entry" of a file: the raw values of the keys that are read. -/
structure Entry where
  type : Option (List Char)
  noDisplay : Option (List Char)
  hidden : Option (List Char)
  notShowIn : Option (List Char)
  onlyShowIn : Option (List Char)
  name : Option (List Char)

structure AppDescription where
  id : List Char
  name : List Char
  isSystemApp : Bool
  deriving DecidableEq, Repr

/-- `QVariant::toBool` of a value, which is a string, or of the default `false`. -/
def toBool : Option (List Char) → Bool
  | none => false
  | some s => !(s.isEmpty || s == ['0'] || WireGuardConfig.toLower s == "false".toList)

/-- `QSet::intersects` for the parts of a value. -/
def intersects (desktopEnv : List (List Char)) (value : List Char) : Bool :=
  desktopEnv.any fun name => (trimmed value).splitOn ':' |>.contains name

/-- The body of the loop gets past all of its `continue` statements. -/
def listed (desktopEnv : List (List Char)) (entry : Entry) : Bool :=
  if entry.type.getD [] ≠ "Application".toList then false
  else if toBool entry.noDisplay then false
  else if toBool entry.hidden then false
  else if entry.notShowIn.any (intersects desktopEnv) then false
  else if entry.onlyShowIn.any fun value => !intersects desktopEnv value then false
  else true

def describe (path : List Char) (entry : Entry) : AppDescription :=
  ⟨path, entry.name.getD [], false⟩

/-- The files of a directory are given with their paths. -/
def fetchEntries (files : List (List Char × Entry)) (out : List AppDescription)
    (desktopEnv : List (List Char)) : List AppDescription :=
  files.foldl (fun out file =>
    if listed desktopEnv file.2 then out ++ [describe file.1 file.2] else out) out

/-! ## The specification -/

/-- The names of a list: they are separated by semicolons, with or without one behind the last. -/
def names (value : List Char) : List (List Char) :=
  let parts := value.splitOn ';'
  if parts.getLast? = some [] then parts.dropLast else parts

/-- One of the current desktops is in the list. -/
def HasOneOf (desktopEnv : List (List Char)) (value : List Char) : Prop :=
  ∃ name ∈ desktopEnv, name ∈ names value

/-- One of the current desktops is in the list if it is read with colons between the names. -/
def HasBetweenColons (desktopEnv : List (List Char)) (value : List Char) : Prop :=
  ∃ name ∈ desktopEnv, name ∈ (trimmed value).splitOn ':'

namespace Entry

/-- An application that no desktop hides. -/
def IsVisible (e : Entry) : Prop :=
  e.type = some "Application".toList ∧ toBool e.noDisplay = false ∧ toBool e.hidden = false

/-- What the Desktop Entry Specification says of the entry. -/
def ShownIn (desktopEnv : List (List Char)) (e : Entry) : Prop :=
  e.IsVisible ∧ (∀ l, e.notShowIn = some l → ¬HasOneOf desktopEnv l) ∧
    ∀ l, e.onlyShowIn = some l → HasOneOf desktopEnv l

end Entry

/-! ## Lists of names -/

section Names

variable {desktopEnv : List (List Char)} {value : List Char}

theorem names_intercalate {ns : List (List Char)} (hns : ∀ n ∈ ns, ';' ∉ n)
    (hlast : ∃ n, ns.getLast? = some n ∧ n ≠ []) : names ([';'].intercalate ns) = ns := by
  obtain ⟨n, hn, hne⟩ := hlast
  have hsplit : ([';'].intercalate ns).splitOn ';' = ns :=
    List.splitOn_intercalate ';' hns (fun h => by rw [h] at hn; cases hn)
  rw [names, hsplit, hn]
  exact if_neg fun h => hne (Option.some.inj h)

theorem names_terminated {ns : List (List Char)} (hns : ∀ n ∈ ns, ';' ∉ n) :
    names (ns.flatMap (· ++ [';'])) = ns := by
  rw [names, splitOn_flatMap_append hns, List.getLast?_concat]
  exact (if_pos rfl).trans List.dropLast_concat

theorem intersects_iff :
    intersects desktopEnv value = true ↔ HasBetweenColons desktopEnv value := by
  simp [intersects, HasBetweenColons]

/-- For names as desktops have them, a list without colons is understood only if it has no
separator. -/
theorem hasBetweenColons_iff (henv : ∀ name ∈ desktopEnv, Solid name ∧ ';' ∉ name)
    (hvalue : trimmed value = value) (hcolon : ':' ∉ value) :
    HasBetweenColons desktopEnv value ↔ HasOneOf desktopEnv value ∧ ';' ∉ value := by
  rw [HasBetweenColons, hvalue, List.splitOn_eq_singleton hcolon, HasOneOf]
  simp only [List.mem_singleton]
  by_cases hsep : ';' ∈ value
  · refine iff_of_false ?_ fun h => h.2 hsep
    rintro ⟨name, hname, rfl⟩
    exact (henv name hname).2 hsep
  · rw [and_iff_left hsep, names, List.splitOn_eq_singleton hsep]
    refine exists_congr fun name => and_congr_right fun hname => ?_
    rw [List.getLast?_singleton]
    split_ifs with hnil
    · obtain rfl : value = [] := Option.some.inj hnil
      exact iff_of_false (henv name hname).1.ne_nil List.not_mem_nil
    · exact List.mem_singleton.symm

end Names

/-! ## When the entry is listed -/

section Listed

variable {desktopEnv : List (List Char)} {e : Entry}

theorem fetchEntries_append (files files' : List (List Char × Entry)) (out : List AppDescription)
    (desktopEnv : List (List Char)) :
    fetchEntries (files ++ files') out desktopEnv =
      fetchEntries files' (fetchEntries files out desktopEnv) desktopEnv :=
  List.foldl_append

theorem fetchEntries_out (files : List (List Char × Entry)) (out : List AppDescription)
    (desktopEnv : List (List Char)) :
    fetchEntries files out desktopEnv = out ++ fetchEntries files [] desktopEnv := by
  induction files using List.reverseRecOn with
  | nil => exact (List.append_nil out).symm
  | append_singleton files file ih =>
    rw [fetchEntries_append, fetchEntries_append, ih]
    simp only [fetchEntries, List.foldl_cons, List.foldl_nil]
    split_ifs
    · rw [List.append_assoc]
    · rfl

theorem type_getD_iff (e : Entry) :
    e.type.getD [] = "Application".toList ↔ e.type = some "Application".toList := by
  cases e.type with
  | none => exact iff_of_false (by decide) (fun h => by cases h)
  | some type => rw [Option.getD_some, Option.some.injEq]

theorem any_notShowIn (desktopEnv : List (List Char)) (e : Entry) :
    e.notShowIn.any (intersects desktopEnv) = true ↔
      ∃ l, e.notShowIn = some l ∧ HasBetweenColons desktopEnv l := by
  cases e.notShowIn with
  | none => simp
  | some l => simpa using intersects_iff

theorem any_onlyShowIn (desktopEnv : List (List Char)) (e : Entry) :
    e.onlyShowIn.any (fun value => !intersects desktopEnv value) = true ↔
      ∃ l, e.onlyShowIn = some l ∧ ¬HasBetweenColons desktopEnv l := by
  cases e.onlyShowIn with
  | none => simp
  | some l =>
    rw [Option.any_some, Bool.not_eq_true', Bool.eq_false_iff, ne_eq, intersects_iff]
    simp only [Option.some.injEq, exists_eq_left']

theorem listed_eq_true_iff (desktopEnv : List (List Char)) (e : Entry) :
    listed desktopEnv e = true ↔
      e.IsVisible ∧ (∀ l, e.notShowIn = some l → ¬HasBetweenColons desktopEnv l) ∧
        ∀ l, e.onlyShowIn = some l → HasBetweenColons desktopEnv l := by
  have hnot := any_notShowIn desktopEnv e
  have honly := any_onlyShowIn desktopEnv e
  rw [listed, Entry.IsVisible, ← type_getD_iff]
  split_ifs with h₁ h₂ h₃ h₄ h₅
  · exact iff_of_false id fun h => h₁ h.1.1
  · exact iff_of_false id fun h => by simp [h₂] at h
  · exact iff_of_false id fun h => by simp [h₃] at h
  · obtain ⟨l, hl, hhas⟩ := hnot.mp h₄
    exact iff_of_false id fun h => h.2.1 l hl hhas
  · obtain ⟨l, hl, hhas⟩ := honly.mp h₅
    exact iff_of_false id fun h => hhas (h.2.2 l hl)
  · refine iff_of_true rfl ⟨⟨not_not.mp h₁, by simpa using h₂, by simpa using h₃⟩, ?_, ?_⟩
    · exact fun l hl hhas => h₄ (hnot.mpr ⟨l, hl, hhas⟩)
    · exact fun l hl => not_not.mp fun hhas => h₅ (honly.mpr ⟨l, hl, hhas⟩)

theorem fetchEntries_eq_iff (path : List Char) (entry : Entry) (desktopEnv : List (List Char))
    (before after : List (List Char × Entry)) (out : List AppDescription) :
    fetchEntries (before ++ (path, entry) :: after) out desktopEnv =
        fetchEntries before out desktopEnv ++
          describe path entry :: fetchEntries after [] desktopEnv ↔
      listed desktopEnv entry = true := by
  have hplace : fetchEntries (before ++ (path, entry) :: after) out desktopEnv =
      fetchEntries before out desktopEnv ++
        (if listed desktopEnv entry then [describe path entry] else []) ++
          fetchEntries after [] desktopEnv := by
    rw [fetchEntries_append, ← List.singleton_append, fetchEntries_append, fetchEntries_out after]
    congr 1
    simp only [fetchEntries, List.foldl_cons, List.foldl_nil]
    split_ifs
    · rfl
    · rw [List.append_nil]
  rw [hplace, List.append_assoc, List.append_cancel_left_eq]
  split_ifs with h
  · exact iff_of_true rfl h
  · refine iff_of_false (fun heq => ?_) h
    have hlen := congrArg List.length heq
    rw [List.nil_append, List.length_cons] at hlen
    omega

/-- The separators make no difference. If a current desktop is in `NotShowIn` but not between colons,
or the other way, then the entry is not listed, or should not be, because of `OnlyShowIn`; and so
for `OnlyShowIn`, because of `NotShowIn`. -/
@[mk_iff]
structure Understood (desktopEnv : List (List Char)) (e : Entry) : Prop where
  notShowIn_missed : ∀ l, e.notShowIn = some l → HasOneOf desktopEnv l →
    ¬HasBetweenColons desktopEnv l →
      ∃ l', e.onlyShowIn = some l' ∧ ¬HasBetweenColons desktopEnv l'
  notShowIn_misread : ∀ l, e.notShowIn = some l → ¬HasOneOf desktopEnv l →
    HasBetweenColons desktopEnv l → ∃ l', e.onlyShowIn = some l' ∧ ¬HasOneOf desktopEnv l'
  onlyShowIn_missed : ∀ l, e.onlyShowIn = some l → HasOneOf desktopEnv l →
    ¬HasBetweenColons desktopEnv l → ∃ l', e.notShowIn = some l' ∧ HasOneOf desktopEnv l'
  onlyShowIn_misread : ∀ l, e.onlyShowIn = some l → ¬HasOneOf desktopEnv l →
    HasBetweenColons desktopEnv l → ∃ l', e.notShowIn = some l' ∧ HasBetweenColons desktopEnv l'

theorem readings_agree_iff (desktopEnv : List (List Char)) (e : Entry) :
    ((∀ l, e.notShowIn = some l → ¬HasBetweenColons desktopEnv l) ∧
          (∀ l, e.onlyShowIn = some l → HasBetweenColons desktopEnv l) ↔
        (∀ l, e.notShowIn = some l → ¬HasOneOf desktopEnv l) ∧
          ∀ l, e.onlyShowIn = some l → HasOneOf desktopEnv l) ↔
      Understood desktopEnv e := by
  rw [understood_iff]
  -- what is left is about one or two lists, each with a current desktop in either reading or not
  cases e.notShowIn with
  | none =>
    cases e.onlyShowIn with
    | none => simp
    | some l' =>
      simp only [Option.some.injEq, forall_eq', reduceCtorEq, false_implies, implies_true, true_and,
        false_and, exists_false]
      tauto
  | some l =>
    cases e.onlyShowIn with
    | none =>
      simp only [Option.some.injEq, forall_eq', reduceCtorEq, false_implies, implies_true, and_true,
        false_and, exists_false]
      tauto
    | some l' =>
      simp only [Option.some.injEq, forall_eq', exists_eq_left']
      tauto

/-- **The exact condition.** Wherever it stands among the files of a directory, an entry is listed
as the specification says if and only if it is not visible at all or its lists are understood. -/
theorem listed_iff (path : List Char) (e : Entry) (desktopEnv : List (List Char))
    (before after : List (List Char × Entry)) (out : List AppDescription) :
    (fetchEntries (before ++ (path, e) :: after) out desktopEnv =
          fetchEntries before out desktopEnv ++
            describe path e :: fetchEntries after [] desktopEnv ↔
        e.ShownIn desktopEnv) ↔
      (e.IsVisible → Understood desktopEnv e) := by
  rw [fetchEntries_eq_iff, listed_eq_true_iff, Entry.ShownIn, and_congr_right_iff]
  exact imp_congr_right fun _ => readings_agree_iff desktopEnv e

/-- A single name, with the separator behind it. -/
def gnomeOnly : Entry where
  type := some "Application".toList
  noDisplay := none
  hidden := none
  notShowIn := none
  onlyShowIn := some "GNOME;".toList
  name := some "Files".toList

/-- With a separator behind its only name, the entry is not listed on that very desktop. -/
theorem listed_gnomeOnly :
    fetchEntries [("files.desktop".toList, gnomeOnly)] [] ["GNOME".toList] = [] ∧
      gnomeOnly.ShownIn ["GNOME".toList] := by
  refine ⟨by decide, ⟨rfl, rfl, rfl⟩, (fun l hl => by cases hl), fun l hl => ?_⟩
  obtain rfl := Option.some.inj hl
  exact ⟨_, List.mem_singleton_self _, by decide⟩

end Listed

end LinuxAppListProvider

end WgDesktop
