import WgDesktop.Lib.Runs
import WgDesktop.Profile.WireGuardConfig

/-!
# The settings of a text

What the parser sees of a text is the list of its settings (`settings`), each with the section it
stands in. The values it reads there contain no comment characters and no line breaks
(`value_of_mem_settings`), and an accepted text is one whose settings can be applied in turn
(`foldlM_settings_of_parse`).
-/

namespace WgDesktop

open Text Runs

namespace WireGuardConfig

/-! ## Values -/

/-- Text that stays on its line and out of comments. -/
structure Clean (s : List Char) : Prop where
  hash : '#' ∉ s
  semicolon : ';' ∉ s
  newline : '\n' ∉ s

/-- The value of a setting. -/
structure Value (s : List Char) : Prop extends Clean s where
  solid : Solid s

/-- An item of a list value. -/
structure Item (s : List Char) : Prop extends Value s where
  comma : ',' ∉ s

theorem Clean.subset {s t : List Char} (h : Clean s) (hts : t ⊆ s) : Clean t :=
  ⟨fun hc => h.hash (hts hc), fun hc => h.semicolon (hts hc), fun hc => h.newline (hts hc)⟩

theorem Clean.append {s t : List Char} (hs : Clean s) (ht : Clean t) : Clean (s ++ t) := by
  refine ⟨?_, ?_, ?_⟩
  · simp [hs.hash, ht.hash]
  · simp [hs.semicolon, ht.semicolon]
  · simp [hs.newline, ht.newline]

theorem trimmed_subset (s : List Char) : trimmed s ⊆ s := fun _ => mem_of_mem_trimmed

theorem item_of_mem_splitCsv {value item : List Char} (hv : Clean value)
    (h : item ∈ splitCsv value) : Item item := by
  simp only [splitCsv, List.mem_filter, List.mem_map] at h
  obtain ⟨⟨part, hpart, rfl⟩, hne⟩ := h
  obtain ⟨hcomma, hsub⟩ := mem_splitOn hpart
  have hclean : Clean (trimmed part) := hv.subset fun c hc => hsub (trimmed_subset part hc)
  exact ⟨⟨hclean, solid_trimmed (by simpa using hne)⟩, fun hc => hcomma (trimmed_subset part hc)⟩

theorem splitCsv_cons_space (s : List Char) : splitCsv (' ' :: s) = splitCsv s := by
  obtain ⟨x, xs, hx⟩ := List.exists_cons_of_ne_nil (List.splitOnP_ne_nil (· == ',') s)
  have htrim : trimmed (' ' :: x) = trimmed x :=
    trimmed_append_of_space (w := [' ']) (by simp) x
  simp only [splitCsv, List.splitOn, List.splitOnP_cons_eq_if_modifyHead, hx]
  simp [htrim]

theorem splitCsv_singleton {s : List Char} (hs : Item s) : splitCsv s = [s] := by
  simp [splitCsv, List.splitOn_eq_singleton hs.comma, hs.solid.trimmed_eq, hs.solid.ne_nil]

theorem splitCsv_append_comma {s : List Char} (hs : Item s) (t : List Char) :
    splitCsv (s ++ ',' :: t) = s :: splitCsv t := by
  rw [splitCsv, List.splitOn_append_cons_self_of_not_mem hs.comma, List.map_cons,
    hs.solid.trimmed_eq, List.filter_cons]
  simp [splitCsv, hs.solid.ne_nil]

theorem splitCsv_intercalate {items : List (List Char)} (h : ∀ s ∈ items, Item s) :
    splitCsv (", ".toList.intercalate items) = items := by
  induction items with
  | nil => rfl
  | cons s items ih =>
    have hs := h s (by simp)
    have htail := ih fun s' hs' => h s' (by simp [hs'])
    cases items with
    | nil => simpa [List.intercalate] using splitCsv_singleton hs
    | cons s' items =>
      have hshape : ", ".toList.intercalate (s :: s' :: items) =
          s ++ ',' :: ' ' :: ", ".toList.intercalate (s' :: items) := by
        simp [List.intercalate]
      rw [hshape, splitCsv_append_comma hs, splitCsv_cons_space, htail]

/-! ## Lines -/

theorem not_mem_take_of_idxOf? {s : List Char} {c : Char} {i j : ℕ} (h : s.idxOf? c = some i)
    (hj : j ≤ i) : c ∉ s.take j := by
  obtain ⟨a, b, rfl, ha, rfl⟩ := exists_of_idxOf?_eq_some h
  rw [List.take_append_of_le_length hj]
  exact fun hc => ha (List.take_subset _ _ hc)

theorem stripComment_eq (line : List Char) :
    ∃ part ⊆ line, '#' ∉ part ∧ ';' ∉ part ∧ stripComment line = trimmed part := by
  unfold stripComment
  cases hhash : line.idxOf? '#' with
  | none =>
    have hno := List.idxOf?_eq_none_iff.mp hhash
    cases hsemi : line.idxOf? ';' with
    | none => exact ⟨line, fun _ h => h, hno, List.idxOf?_eq_none_iff.mp hsemi, rfl⟩
    | some j =>
      exact ⟨line.take j, List.take_subset _ _, fun hc => hno (List.take_subset _ _ hc),
        not_mem_take_of_idxOf? hsemi le_rfl, rfl⟩
  | some i =>
    cases hsemi : line.idxOf? ';' with
    | none =>
      have hno := List.idxOf?_eq_none_iff.mp hsemi
      exact ⟨line.take i, List.take_subset _ _, not_mem_take_of_idxOf? hhash le_rfl,
        fun hc => hno (List.take_subset _ _ hc), rfl⟩
    | some j =>
      exact ⟨line.take (min i j), List.take_subset _ _,
        not_mem_take_of_idxOf? hhash (min_le_left i j),
        not_mem_take_of_idxOf? hsemi (min_le_right i j), rfl⟩

theorem clean_stripComment {line : List Char} (h : '\n' ∉ line) : Clean (stripComment line) := by
  obtain ⟨part, hsub, hhash, hsemi, heq⟩ := stripComment_eq line
  have hpart : Clean part := ⟨hhash, hsemi, fun hc => h (hsub hc)⟩
  rw [heq]
  exact hpart.subset (trimmed_subset part)

theorem stripComment_of_clean {line : List Char} (h : Clean line) :
    stripComment line = trimmed line := by
  unfold stripComment
  rw [List.idxOf?_eq_none_iff.mpr h.hash, List.idxOf?_eq_none_iff.mpr h.semicolon]

theorem value_of_readLine {index : ℕ} {raw key value : List Char} (hraw : '\n' ∉ raw)
    (h : readLine index raw = .ok (.setting key value)) : Value value := by
  have hclean := clean_stripComment hraw
  unfold readLine at h
  dsimp only at h
  split_ifs at h with hnil hheader
  · cases h
  · cases h
  · split at h
    · cases h
    · cases h
    · rename_i separator hsep
      split_ifs at h with hempty
      simp only [Except.ok.injEq, Line.setting.injEq] at h
      obtain ⟨-, rfl⟩ := h
      refine ⟨hclean.subset fun c hc => ?_, solid_trimmed hempty⟩
      exact List.drop_subset _ _ (trimmed_subset _ hc)

/-- **A written setting is read back.** -/
theorem readLine_setting {key value : List Char} (index : ℕ) (hkey : Clean key)
    (hsolid : Solid key) (heq : '=' ∉ key) (hbracket : key.head? ≠ some '[')
    (hvalue : Value value) :
    readLine index (key ++ " = ".toList ++ value) = .ok (.setting (toLower key) value) := by
  have hsep : " = ".toList = [' ', '=', ' '] := rfl
  have hline : Solid (key ++ " = ".toList ++ value) := by
    rw [List.append_assoc]
    exact hsolid.append hvalue.solid _
  have hclean : Clean (key ++ " = ".toList ++ value) :=
    (hkey.append ⟨by decide, by decide, by decide⟩).append hvalue.toClean
  have hhead : ¬ ((key ++ " = ".toList ++ value).head? = some '[' ∧
      (key ++ " = ".toList ++ value).getLast? = some ']') := by
    rintro ⟨h, -⟩
    obtain ⟨⟨a, ha, -⟩, -⟩ := hsolid
    rw [List.append_assoc, List.head?_append, ha, Option.some_or] at h
    exact hbracket (ha.trans h)
  have hshape : key ++ " = ".toList ++ value = (key ++ [' ']) ++ '=' :: ' ' :: value := by
    simp [hsep]
  have hidx : (key ++ " = ".toList ++ value).idxOf? '=' = some (key.length + 1) := by
    rw [hshape, idxOf?_append_cons (by simp [heq])]
    simp
  have hleft : trimmed ((key ++ " = ".toList ++ value).take (key.length + 1)) = key := by
    have : (key ++ " = ".toList ++ value).take (key.length + 1) = key ++ [' '] := by
      rw [hshape, List.take_left' (by simp)]
    rw [this, hsolid.trimmed_append (by simp)]
  have hright : trimmed ((key ++ " = ".toList ++ value).drop (key.length + 1 + 1)) = value := by
    have : (key ++ " = ".toList ++ value).drop (key.length + 1 + 1) = [' '] ++ value := by
      rw [hshape, List.drop_append]
      simp
    rw [this, trimmed_append_of_space (by simp), hvalue.solid.trimmed_eq]
  unfold readLine
  simp only [stripComment_of_clean hclean, hline.trimmed_eq, hline.ne_nil, hhead, if_false, hidx,
    hleft, hright, hvalue.solid.ne_nil]

/-! ## The settings of a text -/

/-- A setting with its section and the number of section headers before it. -/
structure Setting where
  ordinal : ℕ
  section_ : List Char
  key : List Char
  value : List Char
  deriving DecidableEq, Repr

/-- The settings of the lines from `index` on; lines that are no settings are passed over. -/
def settingsFrom : ℕ → ℕ → List Char → List (List Char) → List Setting
  | _, _, _, [] => []
  | index, ordinal, section_, raw :: lines =>
    match readLine index raw with
    | .ok (.header name) => settingsFrom (index + 1) (ordinal + 1) name lines
    | .ok (.setting key value) =>
      ⟨ordinal, section_, key, value⟩ :: settingsFrom (index + 1) ordinal section_ lines
    | _ => settingsFrom (index + 1) ordinal section_ lines

/-- The settings of a text. -/
def settings (content : List Char) : List Setting := settingsFrom 0 0 [] (content.splitOn '\n')

variable (T : HostAddressText)

/-- `applySetting` for a setting with its section. -/
def Setting.apply (parsed : InterfaceConfig) (s : Setting) : Except ParseError InterfaceConfig :=
  applySetting T s.section_ s.key s.value parsed

variable {T}

theorem value_of_mem_settingsFrom {lines : List (List Char)} (hlines : ∀ l ∈ lines, '\n' ∉ l)
    {index ordinal : ℕ} {section_ : List Char} {s : Setting}
    (h : s ∈ settingsFrom index ordinal section_ lines) : Value s.value := by
  induction lines generalizing index ordinal section_ with
  | nil => simp [settingsFrom] at h
  | cons raw lines ih =>
    have hrest : ∀ l ∈ lines, '\n' ∉ l := fun l hl => hlines l (by simp [hl])
    unfold settingsFrom at h
    split at h
    · exact ih hrest h
    · rename_i key value hread
      rcases List.mem_cons.mp h with rfl | h
      · exact value_of_readLine (hlines raw (by simp)) hread
      · exact ih hrest h
    · exact ih hrest h

theorem value_of_mem_settings {content : List Char} {s : Setting} (h : s ∈ settings content) :
    Value s.value :=
  value_of_mem_settingsFrom (fun _ hl => (mem_splitOn hl).1) h

theorem foldlM_settingsFrom {lines : List (List Char)} {index : ℕ} {section_ : List Char}
    {parsed result : InterfaceConfig} (h : parseLines T index section_ parsed lines = .ok result)
    (ordinal : ℕ) :
    (settingsFrom index ordinal section_ lines).foldlM (Setting.apply T) parsed = .ok result := by
  induction lines generalizing index ordinal section_ parsed with
  | nil => exact h
  | cons raw lines ih =>
    rw [parseLines, bind_eq_ok] at h
    obtain ⟨line, hread, hrest⟩ := h
    rw [settingsFrom, hread]
    cases line with
    | blank => exact ih hrest ordinal
    | header name => exact ih hrest (ordinal + 1)
    | setting key value =>
      obtain ⟨mid, hmid, hrest⟩ := bind_eq_ok.mp hrest
      rw [List.foldlM_cons, bind_eq_ok]
      exact ⟨mid, hmid, ih hrest ordinal⟩

theorem eq_of_checkRequired {p c : InterfaceConfig} (h : checkRequired p = .ok c) : p = c := by
  unfold checkRequired at h
  split_ifs at h
  exact Except.ok.inj h

/-- **Parsing applies the settings.** -/
theorem foldlM_settings_of_parse {content : List Char} {c : InterfaceConfig}
    (h : parse T content = .ok c) :
    (settings content).foldlM (Setting.apply T) { hopType := .singleHop } = .ok c ∧
      checkRequired c = .ok c := by
  obtain ⟨parsed, hlines, hcheck⟩ := bind_eq_ok.mp h
  obtain rfl : parsed = c := eq_of_checkRequired hcheck
  exact ⟨foldlM_settingsFrom hlines 0, hcheck⟩

theorem parse_invariant {P : InterfaceConfig → Prop} (h0 : P { hopType := .singleHop })
    (hstep : ∀ s : Setting, Value s.value → ∀ p p', P p → s.apply T p = .ok p' → P p')
    {content : List Char} {c : InterfaceConfig} (h : parse T content = .ok c) : P c :=
  foldlM_invariant (fun s hs p p' => hstep s (value_of_mem_settings hs) p p') h0
    (foldlM_settings_of_parse h).1

end WireGuardConfig

end WgDesktop
