import Mathlib.Data.List.Forall2
import Mathlib.Logic.Relation
import WgDesktop.Lib.Fields
import WgDesktop.Profile.RoundTrip

/-!
# The layout of an imported text

What the import parser does not look at: blank lines, comments, line ends, letter case, white space
and the order of neighbouring lines with different keys. An edit (`LinesEdit`) changes one of these
in one place. To the parser a line is what `lineOf` says of it, with unknown names left out; an edit
keeps the lines, adds a blank one or exchanges two, and `step_comm` shows that lines with different
keys write different fields. `parse_edits` carries this through any number of edits.
-/

namespace WgDesktop

open Text Runs Fields

namespace WireGuardConfig

/-! ## Edits -/

/-- White space within a line. -/
def Spaces (w : List Char) : Prop := ∀ c ∈ w, isSpace c = true

def commentChars : List Char := ['#', ';']

/-- Text without comment characters. -/
def Uncommented (s : List Char) : Prop := ∀ c ∈ s, c ∉ commentChars

/-- The end of a line: a comment or nothing. -/
def Comment (s : List Char) : Prop := ∀ c ∈ s.head?, c ∈ commentChars

/-- A letter outside ASCII with no lower case in ASCII. -/
def Foreign (c : Char) : Prop := 128 ≤ c.toNat ∧ c ≠ '\u212a' ∧ isSpace c = false

/-- One letter in two cases. The letter case of a `Foreign` letter is of no concern here, so that
any two of them count. -/
def SameLetter (c d : Char) : Prop := toLowerChar c = toLowerChar d ∨ (Foreign c ∧ Foreign d)

/-- Two spellings of a name that differ in letter case. -/
def SameLetters : List Char → List Char → Prop := List.Forall₂ SameLetter

/-- `key=value` without its comment. A line that looks like a header has no key. -/
structure Assignment (key value : List Char) : Prop where
  key_uncommented : Uncommented key
  value_uncommented : Uncommented value
  first : '=' ∉ key
  no_header : ¬ ((trimmed key).head? = some '[' ∧ (trimmed value).getLast? = some ']')

/-- The edits within a line. -/
inductive LineEdit : List Char → List Char → Prop
  | comment (l rest : List Char) {c : Char} (hc : c ∈ commentChars) : LineEdit l (l ++ c :: rest)
  | carriageReturn (l : List Char) : LineEdit l (l ++ ['\r'])
  | sectionCase {w w' name name' rest : List Char} (hw : Spaces w) (hw' : Spaces w')
      (hname : Uncommented name) (hrest : Comment rest) (hcase : SameLetters name name') :
      LineEdit (w ++ '[' :: (name ++ ']' :: (w' ++ rest)))
        (w ++ '[' :: (name' ++ ']' :: (w' ++ rest)))
  | keyCase {key key' value rest : List Char} (h : Assignment key value) (hrest : Comment rest)
      (hcase : SameLetters key key') :
      LineEdit (key ++ '=' :: (value ++ rest)) (key' ++ '=' :: (value ++ rest))
  | spaces {key value rest a b c d : List Char} (h : Assignment key value) (hrest : Comment rest)
      (ha : Spaces a) (hb : Spaces b) (hc : Spaces c) (hd : Spaces d) :
      LineEdit (key ++ '=' :: (value ++ rest))
        ((a ++ key ++ b) ++ '=' :: ((c ++ value ++ d) ++ rest))

/-- Two lines of one section, as neither is a header, that have no key in common. -/
structure Movable (l l' : List Char) : Prop where
  no_header : ∀ index name, readLine index l ≠ .ok (.header name)
  no_header' : ∀ index name, readLine index l' ≠ .ok (.header name)
  keys : ∀ index key key' value value', readLine index l = .ok (.setting key value) →
    readLine index l' = .ok (.setting key' value') → key ≠ key'

/-- The edits of a text in lines. -/
inductive LinesEdit : List (List Char) → List (List Char) → Prop
  | insert (as bs : List (List Char)) {w rest : List Char} (hw : Spaces w) (hrest : Comment rest) :
      LinesEdit (as ++ bs) (as ++ (w ++ rest) :: bs)
  | line (as bs : List (List Char)) {l l' : List Char} (h : LineEdit l l') :
      LinesEdit (as ++ l :: bs) (as ++ l' :: bs)
  | move (as bs : List (List Char)) {l l' : List Char} (h : Movable l l') :
      LinesEdit (as ++ l :: l' :: bs) (as ++ l' :: l :: bs)

/-- One edit of a text. -/
def Edit (t t' : List Char) : Prop := LinesEdit (t.splitOn '\n') (t'.splitOn '\n')

/-! ## Comments -/

theorem uncommented_append {s t : List Char} :
    Uncommented (s ++ t) ↔ Uncommented s ∧ Uncommented t := List.forall_mem_append

theorem Uncommented.cons {s : List Char} (hs : Uncommented s) {c : Char} (hc : c ∉ commentChars) :
    Uncommented (c :: s) := List.forall_mem_cons.mpr ⟨hc, hs⟩

theorem Spaces.uncommented {w : List Char} (h : Spaces w) : Uncommented w := by
  intro c hc hmem
  have hspace := h c hc
  rcases List.mem_cons.mp hmem with rfl | hmem
  · exact absurd hspace (by decide)
  · obtain rfl := List.mem_singleton.mp hmem
    exact absurd hspace (by decide)

theorem exists_comment (l : List Char) :
    ∃ u rest, Uncommented u ∧ Comment rest ∧ l = u ++ rest := by
  refine ⟨l.takeWhile (· ∉ commentChars), l.dropWhile (· ∉ commentChars),
    fun c hc => by simpa using List.mem_takeWhile_imp hc, fun c hc => ?_,
    List.takeWhile_append_dropWhile.symm⟩
  have hne : l.dropWhile (· ∉ commentChars) ≠ [] := by
    intro hnil
    rw [hnil] at hc
    cases hc
  have hhead := List.head_dropWhile_not (fun c => decide (c ∉ commentChars)) hne
  obtain rfl : (l.dropWhile (· ∉ commentChars)).head hne = c := by
    rw [List.head?_eq_some_head hne] at hc
    exact Option.some.inj hc
  simpa using hhead

theorem stripComment_append {u rest : List Char} (hu : Uncommented u) (hrest : Comment rest) :
    stripComment (u ++ rest) = trimmed u := by
  have hhash : '#' ∉ u := fun h => hu _ h (by decide)
  have hsemi : ';' ∉ u := fun h => hu _ h (by decide)
  have hother : ∀ {c d : Char} {b : List Char} {j : ℕ}, c ∉ u →
      (u ++ d :: b).idxOf? c = some j → u.length ≤ j := by
    intro c d b j hc hj
    obtain ⟨x, y, hxy, -, rfl⟩ := exists_of_idxOf?_eq_some hj
    by_contra hlt
    have hget : (u ++ d :: b)[x.length]? = some c := by simp [hxy]
    rw [List.getElem?_append_left (by omega)] at hget
    exact hc (List.mem_of_getElem? hget)
  cases rest with
  | nil =>
    rw [List.append_nil]
    unfold stripComment
    rw [List.idxOf?_eq_none_iff.mpr hhash, List.idxOf?_eq_none_iff.mpr hsemi]
  | cons d b =>
    have hd : d ∈ commentChars := hrest d rfl
    unfold stripComment
    rcases List.mem_cons.mp hd with rfl | hd
    · rw [idxOf?_append_cons hhash]
      cases hj : (u ++ '#' :: b).idxOf? ';' with
      | none => simp
      | some j => simp [min_eq_left (hother hsemi hj)]
    · obtain rfl := List.mem_singleton.mp hd
      rw [idxOf?_append_cons hsemi]
      cases hj : (u ++ ';' :: b).idxOf? '#' with
      | none => simp
      | some j => simp [min_eq_right (hother hhash hj)]

theorem Comment.append {s t : List Char} (hs : Comment s) (ht : Comment t) : Comment (s ++ t) := by
  cases s with
  | nil => exact ht
  | cons c s => exact hs

/-- Whatever stands behind a comment is part of it. -/
theorem stripComment_comment (l rest : List Char) {c : Char} (hc : c ∈ commentChars) :
    stripComment (l ++ c :: rest) = stripComment l := by
  obtain ⟨u, rest', hu, hrest', rfl⟩ := exists_comment l
  have hcomment : Comment (c :: rest) := fun d hd => by
    obtain rfl := Option.some.inj hd
    exact hc
  rw [List.append_assoc, stripComment_append hu (hrest'.append hcomment),
    stripComment_append hu hrest']

theorem stripComment_carriageReturn (l : List Char) :
    stripComment (l ++ ['\r']) = stripComment l := by
  obtain ⟨u, rest, hu, hrest, rfl⟩ := exists_comment l
  have hcr : Spaces ['\r'] := fun c hc => by
    obtain rfl := List.mem_singleton.mp hc
    rfl
  cases rest with
  | nil =>
    have hnil : Comment [] := fun c hc => by cases hc
    have hline : Uncommented (u ++ ['\r']) := uncommented_append.mpr ⟨hu, hcr.uncommented⟩
    rw [List.append_nil, ← List.append_nil (u ++ ['\r']), stripComment_append hline hnil,
      trimmed_append_right hcr, ← stripComment_append hu hnil, List.append_nil]
  | cons c rest =>
    have hmore : Comment (c :: rest ++ ['\r']) := hrest
    rw [List.append_assoc, stripComment_append hu hmore, stripComment_append hu hrest]

/-! ## Spelling -/

/-- A character that is neither white space nor one that the format gives a meaning to. -/
def Wordy (c : Char) : Prop := isSpace c = false ∧ c ∉ "[]=#;".toList

theorem wordy_of_isAlpha {c : Char} (h : c.isAlpha = true) : Wordy c := by
  refine ⟨not_isSpace_of_isAlpha h, fun hmem => ?_⟩
  have hmarks : ("[]=#;".toList.all fun d => !d.isAlpha) = true := by decide
  have hnot := List.all_eq_true.mp hmarks c hmem
  rw [h] at hnot
  cases hnot

theorem Foreign.wordy {c : Char} (h : Foreign c) : Wordy c := by
  refine ⟨h.2.2, fun hmem => ?_⟩
  have hmarks : ("[]=#;".toList.all fun d => d.toNat < 128) = true := by decide
  have hlt := of_decide_eq_true (List.all_eq_true.mp hmarks c hmem)
  exact absurd h.1 (by omega)

theorem Foreign.toLowerChar_eq {c : Char} (h : Foreign c) : toLowerChar c = c := by
  have hnot : ¬ (c.val ≥ 'A'.val ∧ c.val ≤ 'Z'.val) := by
    rintro ⟨-, hle⟩
    have hle : c.toNat ≤ 90 := hle
    have hge := h.1
    omega
  rw [toLowerChar, if_neg h.2.1]
  exact dif_neg hnot

theorem toLowerChar_eq_or (c : Char) :
    toLowerChar c = c ∨ (Wordy c ∧ Wordy (toLowerChar c)) := by
  unfold toLowerChar
  split_ifs with hkelvin
  · subst hkelvin
    exact Or.inr ⟨⟨by decide, by decide⟩, wordy_of_isAlpha (by decide)⟩
  · delta Char.toLower
    split
    · rename_i hupper
      have hlow : 65 ≤ c.val.toNat := hupper.1
      have hhigh : c.val.toNat ≤ 90 := hupper.2
      refine Or.inr ⟨wordy_of_isAlpha ?_, wordy_of_isAlpha ?_⟩
      · delta Char.isAlpha Char.isUpper
        simp only [Bool.or_eq_true, decide_eq_true_eq]
        exact Or.inl hupper
      · delta Char.isAlpha Char.isLower
        simp only [Bool.or_eq_true, Bool.and_eq_true, decide_eq_true_eq]
        refine Or.inr ⟨?_, ?_⟩
        · rw [ge_iff_le, UInt32.le_iff_toNat_le, UInt32.toNat_add]
          change 97 ≤ (c.val.toNat + 32) % 2 ^ 32
          omega
        · rw [UInt32.le_iff_toNat_le, UInt32.toNat_add]
          change (c.val.toNat + 32) % 2 ^ 32 ≤ 122
          omega
    · exact Or.inl rfl

/-- Two cases of one letter are one character or two that mean nothing else to the format. -/
theorem SameLetter.eq_or {c d : Char} (h : SameLetter c d) : c = d ∨ (Wordy c ∧ Wordy d) := by
  rcases h with h | ⟨hc, hd⟩
  · rcases toLowerChar_eq_or c with hc | ⟨hc, hc'⟩
    · rcases toLowerChar_eq_or d with hd | ⟨hd, hd'⟩
      · exact Or.inl (by rw [← hc, h, hd])
      · exact Or.inr ⟨by rw [← hc, h]; exact hd', hd⟩
    · rcases toLowerChar_eq_or d with hd | ⟨hd, hd'⟩
      · exact Or.inr ⟨hc, by rw [← hd, ← h]; exact hc'⟩
      · exact Or.inr ⟨hc, hd⟩
  · exact Or.inr ⟨hc.wordy, hd.wordy⟩

theorem SameLetter.isSpace_eq {c d : Char} (h : SameLetter c d) : isSpace c = isSpace d := by
  rcases h.eq_or with rfl | ⟨hc, hd⟩
  · rfl
  · rw [hc.1, hd.1]

theorem SameLetter.mark_iff {c d m : Char} (h : SameLetter c d) (hm : m ∈ "[]=#;".toList) :
    c = m ↔ d = m := by
  rcases h.eq_or with rfl | ⟨hc, hd⟩
  · rfl
  · exact ⟨fun heq => absurd (heq ▸ hm) hc.2, fun heq => absurd (heq ▸ hm) hd.2⟩

namespace SameLetters

variable {s t : List Char}

theorem mem_iff (h : SameLetters s t) {m : Char} (hm : m ∈ "[]=#;".toList) : m ∈ s ↔ m ∈ t := by
  induction h with
  | nil => rfl
  | cons hcd _ ih => rw [List.mem_cons, List.mem_cons, ih, eq_comm, hcd.mark_iff hm, eq_comm]

theorem uncommented (h : SameLetters s t) (hs : Uncommented s) : Uncommented t := by
  intro c hc hmem
  have hm : c ∈ "[]=#;".toList := by
    rcases List.mem_cons.mp hmem with rfl | hmem
    · decide
    · obtain rfl := List.mem_singleton.mp hmem
      decide
  exact hs c ((h.mem_iff hm).mpr hc) hmem

theorem dropWhile (h : SameLetters s t) :
    SameLetters (s.dropWhile isSpace) (t.dropWhile isSpace) := by
  induction h with
  | nil => exact List.Forall₂.nil
  | cons hcd hrest ih =>
    rw [List.dropWhile_cons, List.dropWhile_cons, hcd.isSpace_eq]
    split
    · exact ih
    · exact List.Forall₂.cons hcd hrest

theorem trimmed (h : SameLetters s t) : SameLetters (trimmed s) (trimmed t) :=
  List.rel_reverse (dropWhile (List.rel_reverse h.dropWhile))

theorem head?_iff (h : SameLetters s t) {m : Char} (hm : m ∈ "[]=#;".toList) :
    s.head? = some m ↔ t.head? = some m := by
  cases h with
  | nil => rfl
  | cons hcd _ =>
    rw [List.head?_cons, List.head?_cons, Option.some.injEq, Option.some.injEq, hcd.mark_iff hm]

/-- The lower case of two spellings is one name, or both are outside ASCII. -/
theorem toLower_eq_or (h : SameLetters s t) :
    toLower s = toLower t ∨
      ((∃ c ∈ toLower s, 128 ≤ c.toNat) ∧ ∃ c ∈ toLower t, 128 ≤ c.toNat) := by
  induction h with
  | nil => exact Or.inl rfl
  | @cons c d s t hcd _ ih =>
    rcases ih with ih | ⟨⟨x, hx, hx'⟩, y, hy, hy'⟩
    · rcases hcd with hcd | ⟨hc, hd⟩
      · exact Or.inl (congrArg₂ List.cons hcd ih)
      · rw [toLower, toLower, List.map_cons, List.map_cons, hc.toLowerChar_eq, hd.toLowerChar_eq]
        exact Or.inr ⟨⟨c, List.mem_cons_self, hc.1⟩, d, List.mem_cons_self, hd.1⟩
    · exact Or.inr ⟨⟨x, List.mem_cons_of_mem _ hx, hx'⟩, y, List.mem_cons_of_mem _ hy, hy'⟩

end SameLetters

/-! ## Names -/

def sectionNames : List (List Char) := ["interface".toList, "peer".toList]

def keyNames : List (List Char) :=
  ["privatekey".toList, "address".toList, "dns".toList, "publickey".toList, "endpoint".toList,
    "allowedips".toList]

/-- A name, or nothing if the parser does not know it. -/
def known (names : List (List Char)) (name : List Char) : List Char :=
  if names.contains name then name else []

theorem known_toLower {names : List (List Char)} (hascii : ∀ n ∈ names, ∀ c ∈ n, c.toNat < 128)
    {s t : List Char} (h : SameLetters s t) : known names (toLower s) = known names (toLower t) := by
  have hout : ∀ {u : List Char}, (∃ c ∈ u, 128 ≤ c.toNat) → known names u = [] := by
    rintro u ⟨c, hc, hge⟩
    exact if_neg fun hmem => absurd (hascii u (List.contains_iff_mem.mp hmem) c hc) (by omega)
  rcases h.toLower_eq_or with h | ⟨hs, ht⟩
  · rw [h]
  · rw [hout hs, hout ht]

theorem ascii_sectionNames : ∀ n ∈ sectionNames, ∀ c ∈ n, c.toNat < 128 := by
  simp [sectionNames]

theorem ascii_keyNames : ∀ n ∈ keyNames, ∀ c ∈ n, c.toNat < 128 := by
  simp [keyNames]

/-! ## What a line says to the parser -/

/-- A line up to the names the parser does not know. -/
def canonical : Except ParseError Line → Option Line
  | .error _ => none
  | .ok .blank => some .blank
  | .ok (.header name) => some (.header (known sectionNames name))
  | .ok (.setting key value) => some (.setting (known keyNames key) value)

/-- What line `raw` says. -/
def lineOf (raw : List Char) : Option Line := canonical (readLine 0 raw)

theorem readLine_congr {l l' : List Char} (h : stripComment l = stripComment l') (index : ℕ) :
    readLine index l = readLine index l' := by
  unfold readLine
  rw [h]

/-- Where a line stands matters to the texts of errors only. -/
theorem canonical_readLine (index : ℕ) (raw : List Char) :
    canonical (readLine index raw) = lineOf raw := by
  unfold lineOf readLine
  dsimp only
  split_ifs
  · rfl
  · rfl
  · cases (stripComment raw).idxOf? '=' with
    | none => rfl
    | some separator =>
      cases separator with
      | zero => rfl
      | succ n => rfl

theorem lineOf_blank {w rest : List Char} (hw : Spaces w) (hrest : Comment rest) :
    lineOf (w ++ rest) = some .blank := by
  have hstrip : stripComment (w ++ rest) = [] := by
    rw [stripComment_append hw.uncommented hrest]
    exact trimmed_eq_nil_iff.mpr hw
  unfold lineOf readLine
  rw [hstrip]
  rfl

theorem lineOf_header {w w' name rest : List Char} (hw : Spaces w) (hw' : Spaces w')
    (hname : Uncommented name) (hrest : Comment rest) :
    lineOf (w ++ '[' :: (name ++ ']' :: (w' ++ rest))) =
      some (.header (known sectionNames (toLower (trimmed name)))) := by
  have hshape : w ++ '[' :: (name ++ ']' :: (w' ++ rest)) =
      (w ++ '[' :: (name ++ [']']) ++ w') ++ rest := by simp
  have hline : Uncommented (w ++ '[' :: (name ++ [']']) ++ w') := by
    have hclose : Uncommented [']'] := fun c hc => by
      obtain rfl := List.mem_singleton.mp hc
      decide
    refine uncommented_append.mpr ⟨uncommented_append.mpr ⟨hw.uncommented, ?_⟩, hw'.uncommented⟩
    exact (uncommented_append.mpr ⟨hname, hclose⟩).cons (by decide)
  have hstrip : stripComment (w ++ '[' :: (name ++ ']' :: (w' ++ rest))) =
      '[' :: (name ++ [']']) := by
    have hsolid : Solid ('[' :: (name ++ [']'])) :=
      ⟨⟨'[', rfl, by decide⟩, ']', by rw [← List.cons_append, List.getLast?_concat], by decide⟩
    rw [hshape, stripComment_append hline hrest, List.append_assoc, trimmed_append_of_space hw,
      trimmed_append_right hw', hsolid.trimmed_eq]
  have hlast : ('[' :: (name ++ [']'])).getLast? = some ']' := by
    rw [← List.cons_append, List.getLast?_concat]
  have hmiddle : (('[' :: (name ++ [']'])).drop 1).take (('[' :: (name ++ [']'])).length - 2) =
      name := by simp
  unfold lineOf readLine
  dsimp only
  rw [hstrip, if_neg (List.cons_ne_nil _ _), if_pos ⟨rfl, hlast⟩, hmiddle]
  rfl

section Assignments

variable {key value rest : List Char}

theorem Assignment.stripComment_eq (h : Assignment key value) (hrest : Comment rest) :
    stripComment (key ++ '=' :: (value ++ rest)) =
      key.dropWhile isSpace ++ '=' :: value.rdropWhile isSpace := by
  have hline : Uncommented (key ++ '=' :: value) :=
    uncommented_append.mpr ⟨h.key_uncommented, h.value_uncommented.cons (by decide)⟩
  have hspace : isSpace '=' = false := by decide
  rw [← List.cons_append, ← List.append_assoc, stripComment_append hline hrest,
    trimmed_append_cons hspace]

theorem Assignment.not_header (h : Assignment key value) :
    ¬ ((key.dropWhile isSpace ++ '=' :: value.rdropWhile isSpace).head? = some '[' ∧
      (key.dropWhile isSpace ++ '=' :: value.rdropWhile isSpace).getLast? = some ']') := by
  rintro ⟨hhead, hlast⟩
  refine h.no_header ⟨?_, ?_⟩
  · rw [head?_trimmed]
    cases hk : key.dropWhile isSpace with
    | nil =>
      rw [hk] at hhead
      cases hhead
    | cons c k =>
      rw [hk] at hhead
      exact hhead
  · rw [getLast?_trimmed]
    rw [List.getLast?_append, List.getLast?_cons, Option.some_or] at hlast
    cases hv : (value.rdropWhile isSpace).getLast? with
    | none =>
      rw [hv] at hlast
      cases hlast
    | some c =>
      rw [hv] at hlast
      exact hlast

theorem lineOf_assignment (h : Assignment key value) (hrest : Comment rest) :
    lineOf (key ++ '=' :: (value ++ rest)) =
      if trimmed key = [] ∨ trimmed value = [] then none
      else some (.setting (known keyNames (toLower (trimmed key))) (trimmed value)) := by
  have hkey := trimmed_dropWhile key
  have hfirst : '=' ∉ key.dropWhile isSpace := fun hc =>
    h.first ((List.dropWhile_sublist isSpace).subset hc)
  have hnil : key.dropWhile isSpace = [] ↔ trimmed key = [] := by
    rw [List.dropWhile_eq_nil_iff, trimmed_eq_nil_iff]
  unfold lineOf readLine
  dsimp only
  rw [h.stripComment_eq hrest, if_neg (by simp), if_neg h.not_header, idxOf?_append_cons hfirst]
  cases hk : key.dropWhile isSpace with
  | nil =>
    rw [if_pos (Or.inl (hnil.mp hk))]
    rfl
  | cons c k =>
    have hkne : trimmed key ≠ [] := fun h => by
      rw [hnil.mpr h] at hk
      cases hk
    have hdrop : ((c :: k) ++ '=' :: value.rdropWhile isSpace).drop ((c :: k).length + 1) =
        value.rdropWhile isSpace := by
      rw [List.drop_append, List.drop_eq_nil_of_le (by omega), List.nil_append]
      simp
    rw [hk] at hkey
    change canonical (if trimmed (List.drop _ _) = [] then _ else _) = _
    rw [hdrop, List.take_left, hkey, trimmed_rdropWhile]
    by_cases hv : trimmed value = []
    · rw [if_pos hv, if_pos (Or.inr hv)]
      rfl
    · rw [if_neg hv, if_neg (not_or.mpr ⟨hkne, hv⟩)]
      rfl

end Assignments

/-- **Edits within a line.** The line says what it said before. -/
theorem LineEdit.lineOf_eq {l l' : List Char} (h : LineEdit l l') : lineOf l = lineOf l' := by
  cases h with
  | comment l rest hc =>
    exact congrArg canonical (readLine_congr (stripComment_comment l rest hc).symm 0)
  | carriageReturn l =>
    exact congrArg canonical (readLine_congr (stripComment_carriageReturn l).symm 0)
  | sectionCase hw hw' hname hrest hcase =>
    rw [lineOf_header hw hw' hname hrest, lineOf_header hw hw' (hcase.uncommented hname) hrest,
      known_toLower ascii_sectionNames hcase.trimmed]
  | @keyCase key key' value rest h hrest hcase =>
    have h' : Assignment key' value := by
      refine ⟨hcase.uncommented h.key_uncommented, h.value_uncommented, ?_, ?_⟩
      · rw [← hcase.mem_iff (by decide)]
        exact h.first
      · rw [← hcase.trimmed.head?_iff (by decide)]
        exact h.no_header
    have hnil : trimmed key = [] ↔ trimmed key' = [] := by
      rw [← List.length_eq_zero_iff, ← List.length_eq_zero_iff, hcase.trimmed.length_eq]
    rw [lineOf_assignment h hrest, lineOf_assignment h' hrest,
      known_toLower ascii_keyNames hcase.trimmed]
    exact if_congr (or_congr_left hnil) rfl rfl
  | @spaces key value rest a b c d h hrest ha hb hc hd =>
    have hkey : trimmed (a ++ key ++ b) = trimmed key := by
      rw [trimmed_append_right hb, trimmed_append_of_space ha]
    have hvalue : trimmed (c ++ value ++ d) = trimmed value := by
      rw [trimmed_append_right hd, trimmed_append_of_space hc]
    have hmark : ∀ {w : List Char}, Spaces w → '=' ∉ w := fun hw hmem =>
      absurd (hw _ hmem) (by decide)
    have h' : Assignment (a ++ key ++ b) (c ++ value ++ d) := by
      refine ⟨?_, ?_, ?_, ?_⟩
      · exact uncommented_append.mpr
          ⟨uncommented_append.mpr ⟨ha.uncommented, h.key_uncommented⟩, hb.uncommented⟩
      · exact uncommented_append.mpr
          ⟨uncommented_append.mpr ⟨hc.uncommented, h.value_uncommented⟩, hd.uncommented⟩
      · simp only [List.mem_append, not_or]
        exact ⟨⟨hmark ha, h.first⟩, hmark hb⟩
      · rw [hkey, hvalue]
        exact h.no_header
    rw [lineOf_assignment h hrest, lineOf_assignment h' hrest, hkey, hvalue]

/-! ## Fields -/

def privateKeyField : Field InterfaceConfig QString where
  get c := c.privateKey
  put c v := { c with privateKey := v }
  get_put _ _ := rfl
  put_get _ := rfl
  put_put _ _ _ := rfl

def addressField : Field InterfaceConfig (QString × QString) where
  get c := (c.deviceIpv4Address, c.deviceIpv6Address)
  put c v := { c with deviceIpv4Address := v.1, deviceIpv6Address := v.2 }
  get_put _ _ := rfl
  put_get _ := rfl
  put_put _ _ _ := rfl

def dnsField : Field InterfaceConfig QString where
  get c := c.dnsServer
  put c v := { c with dnsServer := v }
  get_put _ _ := rfl
  put_get _ := rfl
  put_put _ _ _ := rfl

def publicKeyField : Field InterfaceConfig QString where
  get c := c.serverPublicKey
  put c v := { c with serverPublicKey := v }
  get_put _ _ := rfl
  put_get _ := rfl
  put_put _ _ _ := rfl

def endpointField : Field InterfaceConfig (QString × QString × ℤ) where
  get c := (c.serverIpv4AddrIn, c.serverIpv6AddrIn, c.serverPort)
  put c v := { c with serverIpv4AddrIn := v.1, serverIpv6AddrIn := v.2.1, serverPort := v.2.2 }
  get_put _ _ := rfl
  put_get _ := rfl
  put_put _ _ _ := rfl

def rangesField : Field InterfaceConfig (List IPAddress) where
  get c := c.allowedIPAddressRanges
  put c v := { c with allowedIPAddressRanges := v }
  get_put _ _ := rfl
  put_get _ := rfl
  put_put _ _ _ := rfl

/-- What an unknown setting writes. -/
def noField : Field InterfaceConfig Unit where
  get _ := ()
  put c _ := c
  get_put _ _ := rfl
  put_get _ := rfl
  put_put _ _ _ := rfl

/-- A field with its type. -/
structure Target where
  {Value : Type}
  field : Field InterfaceConfig Value

/-- The field that a setting writes. -/
def target (section_ key : List Char) : Target :=
  if section_ = "interface".toList then
    if key = "privatekey".toList then ⟨privateKeyField⟩
    else if key = "address".toList then ⟨addressField⟩
    else if key = "dns".toList then ⟨dnsField⟩
    else ⟨noField⟩
  else if section_ = "peer".toList then
    if key = "publickey".toList then ⟨publicKeyField⟩
    else if key = "endpoint".toList then ⟨endpointField⟩
    else if key = "allowedips".toList then ⟨rangesField⟩
    else ⟨noField⟩
  else ⟨noField⟩

/-- Different keys of a section write different fields. -/
theorem independent_target {section_ key key' : List Char} (hne : key ≠ key') {t t' : Target}
    (ht : target section_ key = t) (ht' : target section_ key' = t') :
    Independent t.field t'.field := by
  unfold target at ht ht'
  split_ifs at ht ht'
  all_goals
    subst ht ht'
    first
    | exact fun _ _ _ => rfl
    | exact absurd (Eq.trans ‹key = _› (Eq.symm ‹key' = _›)) hne

section Exchange

variable (T : HostAddressText)

/-- What a setting does to the configuration, without the texts of errors. -/
def effect (section_ key value : List Char) (parsed : InterfaceConfig) : Option InterfaceConfig :=
  (applySetting T section_ key value parsed).toOption

theorem foldlM_toOption {α : Type} (f : InterfaceConfig → α → Except ParseError InterfaceConfig)
    (as : List α) (p : InterfaceConfig) :
    (as.foldlM f p).toOption = as.foldlM (fun q a => (f q a).toOption) p := by
  induction as generalizing p with
  | nil => rfl
  | cons a as ih =>
    rw [List.foldlM_cons, List.foldlM_cons]
    cases hf : f p a with
    | error e => rfl
    | ok q => exact ih q

theorem confined_appendAddress (value : List Char) :
    Confined addressField fun p => (appendAddress T p value).toOption := by
  unfold appendAddress
  split_ifs
  · exact confined_none
  · cases (T.hostAddress (hostPart value)).protocol with
    | ipv4Protocol => exact confined_put (f := addressField) fun v => (.text value, v.2)
    | ipv6Protocol => exact confined_put (f := addressField) fun v => (v.1, .text value)
    | unknownNetworkLayerProtocol => exact confined_none

theorem confined_appendAllowedIp (value : List Char) :
    Confined rangesField fun p => (appendAllowedIp T p value).toOption := by
  unfold appendAllowedIp
  split_ifs
  · exact confined_none
  · exact confined_put (f := rangesField) fun v => v ++ [IPAddress.ofString T value]

theorem confined_parseEndpoint (value : List Char) :
    Confined endpointField fun p => (parseEndpoint T p value).toOption := by
  unfold parseEndpoint
  cases readEndpoint value with
  | error e => exact confined_none
  | ok endpoint =>
    dsimp only [bind, Except.bind]
    split_ifs
    · exact confined_put (f := endpointField) fun v => (v.1, .text endpoint.1, endpoint.2)
    · exact confined_put (f := endpointField) fun v => (.text endpoint.1, v.2.1, endpoint.2)

theorem confined_effect {section_ key : List Char} {t : Target} (ht : target section_ key = t)
    (value : List Char) : Confined t.field (effect T section_ key value) := by
  unfold target at ht
  unfold effect applySetting
  split_ifs at ht ⊢
  all_goals subst ht
  · exact confined_put (f := privateKeyField) fun _ => .text value
  · exact (Confined.foldlM (confined_appendAddress T) (splitCsv value)).congr fun p =>
      foldlM_toOption _ _ p
  · cases splitCsv value with
    | nil => exact confined_some
    | cons first rest => exact confined_put (f := dnsField) fun _ => .text first
  · exact confined_some
  · exact confined_put (f := publicKeyField) fun _ => .text value
  · exact confined_parseEndpoint T value
  · exact (Confined.foldlM (confined_appendAllowedIp T) (splitCsv value)).congr fun p =>
      foldlM_toOption _ _ p
  · exact confined_some
  · exact confined_some

end Exchange

/-! ## What the parser does with a line -/

section Steps

variable (T : HostAddressText)

theorem known_eq_iff {names : List (List Char)} {n s : List Char} (hmem : n ∈ names)
    (hne : n ≠ []) : known names s = n ↔ s = n := by
  unfold known
  split_ifs with hs
  · rfl
  · exact ⟨fun h => absurd h.symm hne, fun h => absurd (List.contains_iff_mem.mpr (h ▸ hmem)) hs⟩

theorem effect_known_section (section_ key value : List Char) :
    effect T (known sectionNames section_) key value = effect T section_ key value := by
  funext parsed
  unfold effect applySetting
  simp (disch := decide) only [known_eq_iff]

theorem effect_known_key (section_ key value : List Char) :
    effect T section_ (known keyNames key) value = effect T section_ key value := by
  funext parsed
  unfold effect applySetting
  simp (disch := decide) only [known_eq_iff]

/-- A line changes the section or the configuration, or ends the parsing. -/
def step (s : List Char × InterfaceConfig) (raw : List Char) :
    Option (List Char × InterfaceConfig) :=
  match lineOf raw with
  | none => none
  | some .blank => some s
  | some (.header name) => some (name, s.2)
  | some (.setting key value) => (effect T s.1 key value s.2).map fun p => (s.1, p)

theorem step_congr {l l' : List Char} (h : lineOf l = lineOf l')
    (s : List Char × InterfaceConfig) : step T s l = step T s l' := by
  unfold step
  rw [h]

theorem step_blank {l : List Char} (h : lineOf l = some .blank)
    (s : List Char × InterfaceConfig) : step T s l = some s := by
  unfold step
  rw [h]

theorem parseLines_toOption (lines : List (List Char)) (index : ℕ) (section_ : List Char)
    (parsed : InterfaceConfig) :
    (parseLines T index section_ parsed lines).toOption =
      (lines.foldlM (step T) (known sectionNames section_, parsed)).map Prod.snd := by
  induction lines generalizing index section_ parsed with
  | nil => rfl
  | cons raw lines ih =>
    have hline := canonical_readLine index raw
    rw [List.foldlM_cons, parseLines]
    unfold step
    rw [← hline]
    cases readLine index raw with
    | error e => rfl
    | ok line =>
      cases line with
      | blank => exact ih (index + 1) section_ parsed
      | header name => exact ih (index + 1) name parsed
      | setting key value =>
        have heffect : effect T (known sectionNames section_) (known keyNames key) value parsed =
            (applySetting T section_ key value parsed).toOption := by
          rw [effect_known_section, effect_known_key]
          rfl
        dsimp only [canonical, bind, Except.bind]
        rw [heffect]
        cases applySetting T section_ key value parsed with
        | error e => rfl
        | ok p => exact ih (index + 1) section_ p

theorem step_setting {l key value : List Char} (h : readLine 0 l = .ok (.setting key value))
    (s : List Char × InterfaceConfig) :
    step T s l = (effect T s.1 key value s.2).map fun p => (s.1, p) := by
  unfold step lineOf
  rw [h]
  dsimp only [canonical]
  rw [effect_known_key]

theorem step_comm_of_quiet {l : List Char} (h : lineOf l = none ∨ lineOf l = some .blank)
    (l' : List Char) (s : List Char × InterfaceConfig) :
    (step T s l >>= fun s => step T s l') = (step T s l' >>= fun s => step T s l) := by
  rcases h with h | h
  · have hnone : ∀ s, step T s l = none := fun s => by
      unfold step
      rw [h]
    rw [hnone]
    cases step T s l' with
    | none => rfl
    | some s' => exact (hnone s').symm
  · rw [step_blank T h]
    cases hs : step T s l' with
    | none => exact hs
    | some s' => exact hs.trans (step_blank T h s').symm

theorem quiet_or_setting {l : List Char} (h : ∀ name, readLine 0 l ≠ .ok (.header name)) :
    (lineOf l = none ∨ lineOf l = some .blank) ∨
      ∃ key value, readLine 0 l = .ok (.setting key value) := by
  unfold lineOf
  cases hr : readLine 0 l with
  | error e => exact Or.inl (Or.inl rfl)
  | ok line =>
    cases line with
    | blank => exact Or.inl (Or.inr rfl)
    | header name => exact absurd hr (h name)
    | setting key value => exact Or.inr ⟨key, value, rfl⟩

/-- **Exchange of two lines.** -/
theorem step_comm {l l' : List Char} (h : Movable l l') (s : List Char × InterfaceConfig) :
    (step T s l >>= fun s => step T s l') = (step T s l' >>= fun s => step T s l) := by
  rcases quiet_or_setting (h.no_header 0) with hquiet | ⟨key, value, hr⟩
  · exact step_comm_of_quiet T hquiet l' s
  rcases quiet_or_setting (h.no_header' 0) with hquiet | ⟨key', value', hr'⟩
  · exact (step_comm_of_quiet T hquiet l s).symm
  have hcomm : (effect T s.1 key value s.2 >>= effect T s.1 key' value') =
      (effect T s.1 key' value' s.2 >>= effect T s.1 key value) :=
    Confined.comm (independent_target (h.keys 0 key key' value value' hr hr') rfl rfl)
      (confined_effect T rfl value) (confined_effect T rfl value') s.2
  have hmap : ∀ (key₁ value₁ : List Char) {l₂ key₂ value₂ : List Char},
      readLine 0 l₂ = .ok (.setting key₂ value₂) →
      (((effect T s.1 key₁ value₁ s.2).map fun p => (s.1, p)) >>= fun s => step T s l₂) =
        (effect T s.1 key₁ value₁ s.2 >>= effect T s.1 key₂ value₂).map fun p => (s.1, p) := by
    intro key₁ value₁ l₂ key₂ value₂ hr₂
    cases effect T s.1 key₁ value₁ s.2 with
    | none => rfl
    | some p => exact step_setting T hr₂ (s.1, p)
  rw [step_setting T hr, step_setting T hr', hmap key value hr', hmap key' value' hr, hcomm]

/-! ## Edits of a text -/

theorem LinesEdit.foldlM_eq {ls ls' : List (List Char)} (h : LinesEdit ls ls')
    (s : List Char × InterfaceConfig) : ls.foldlM (step T) s = ls'.foldlM (step T) s := by
  cases h with
  | insert as bs hw hrest =>
    rw [List.foldlM_append, List.foldlM_append]
    refine bind_congr fun s' => ?_
    rw [List.foldlM_cons, step_blank T (lineOf_blank hw hrest)]
    rfl
  | line as bs h =>
    rw [List.foldlM_append, List.foldlM_append]
    refine bind_congr fun s' => ?_
    rw [List.foldlM_cons, List.foldlM_cons, step_congr T h.lineOf_eq]
  | move as bs h =>
    rw [List.foldlM_append, List.foldlM_append]
    refine bind_congr fun s' => ?_
    change (step T s' _ >>= fun s => step T s _ >>= fun s => bs.foldlM (step T) s) =
      (step T s' _ >>= fun s => step T s _ >>= fun s => bs.foldlM (step T) s)
    rw [← bind_assoc, ← bind_assoc, step_comm T h s']

theorem toOption_eq_some {r : Except ParseError InterfaceConfig} {c : InterfaceConfig} :
    r.toOption = some c ↔ r = .ok c := by
  cases r with
  | error e => simp [Except.toOption]
  | ok p => simp [Except.toOption]

theorem parse_toOption (t : List Char) :
    (parse T t).toOption =
      ((t.splitOn '\n').foldlM (step T) ([], { hopType := .singleHop })).bind fun s =>
        (checkRequired s.2).toOption := by
  have hlines := parseLines_toOption T (t.splitOn '\n') 0 [] { hopType := .singleHop }
  unfold parse
  rw [show known sectionNames [] = [] from rfl] at hlines
  cases hp : parseLines T 0 [] { hopType := .singleHop } (t.splitOn '\n') with
  | error e =>
    rw [hp] at hlines
    rw [Option.map_eq_none_iff.mp hlines.symm]
    rfl
  | ok p =>
    rw [hp] at hlines
    obtain ⟨s, hs, rfl⟩ := Option.map_eq_some_iff.mp hlines.symm
    rw [hs]
    rfl

theorem parse_edit {t t' : List Char} (h : Edit t t') :
    (parse T t).toOption = (parse T t').toOption := by
  rw [parse_toOption, parse_toOption, h.foldlM_eq]

end Steps

/-- **Layout.** After any number of edits the same texts are accepted, with the same
configuration. -/
theorem parse_edits (T : HostAddressText) {t t' : List Char} (h : Relation.ReflTransGen Edit t t')
    (c : InterfaceConfig) : parse T t' = .ok c ↔ parse T t = .ok c := by
  rw [← toOption_eq_some, ← toOption_eq_some]
  induction h with
  | refl => rfl
  | tail _ hedit ih => rw [← parse_edit T hedit, ih]

/-! ## An edited text -/

theorem edit_of_lines {ls ls' : List (List Char)} (h : LinesEdit ls ls') (hne : ls ≠ [])
    (hne' : ls' ≠ []) (hls : ∀ l ∈ ls, '\n' ∉ l) (hls' : ∀ l ∈ ls', '\n' ∉ l) :
    Edit (['\n'].intercalate ls) (['\n'].intercalate ls') := by
  unfold Edit
  rwa [List.splitOn_intercalate _ hls hne, List.splitOn_intercalate _ hls' hne']

/-- The lines of a text with two endpoints from its second one on, and what stands before them. -/
def dualStackLines (start : List String) : List (List Char) :=
  (start ++ ["[Peer]", "PublicKey = b", "Endpoint = 192.0.2.1:51820",
    "Endpoint = [2001:db8::1]:51820", "AllowedIPs = 0.0.0.0/0"]).map String.toList

/-- A comment, a section name in capitals and an exchange of two lines. -/
theorem edits_dualStack : Relation.ReflTransGen Edit dualStackContent
    (['\n'].intercalate
      (dualStackLines ["# home", "[INTERFACE]", "Address = 10.0.0.2/32", "PrivateKey = a"])) := by
  have hlines : dualStackContent = ['\n'].intercalate
      (dualStackLines ["[Interface]", "PrivateKey = a", "Address = 10.0.0.2/32"]) := rfl
  have hcomment : LinesEdit
      (dualStackLines ["[Interface]", "PrivateKey = a", "Address = 10.0.0.2/32"])
      (dualStackLines ["# home", "[Interface]", "PrivateKey = a", "Address = 10.0.0.2/32"]) :=
    @LinesEdit.insert [] _ [] "# home".toList (by simp [Spaces]) (by simp [Comment, commentChars])
  have hcase : LinesEdit
      (dualStackLines ["# home", "[Interface]", "PrivateKey = a", "Address = 10.0.0.2/32"])
      (dualStackLines ["# home", "[INTERFACE]", "PrivateKey = a", "Address = 10.0.0.2/32"]) := by
    refine .line ["# home".toList] _ (@LineEdit.sectionCase [] [] "Interface".toList
      "INTERFACE".toList [] ?_ ?_ ?_ ?_ ?_)
    · simp [Spaces]
    · simp [Spaces]
    · simp [Uncommented, commentChars]
    · simp [Comment]
    · have hlower : ∀ {c d : Char}, toLowerChar c = toLowerChar d → SameLetter c d := Or.inl
      exact .cons (hlower rfl) (.cons (hlower rfl) (.cons (hlower rfl) (.cons (hlower rfl)
        (.cons (hlower rfl) (.cons (hlower rfl) (.cons (hlower rfl) (.cons (hlower rfl)
          (.cons (hlower rfl) .nil))))))))
  have hmove : LinesEdit
      (dualStackLines ["# home", "[INTERFACE]", "PrivateKey = a", "Address = 10.0.0.2/32"])
      (dualStackLines ["# home", "[INTERFACE]", "Address = 10.0.0.2/32", "PrivateKey = a"]) := by
    have hkey : ∀ index, readLine index "PrivateKey = a".toList =
        .ok (.setting "privatekey".toList "a".toList) := fun _ => rfl
    have haddress : ∀ index, readLine index "Address = 10.0.0.2/32".toList =
        .ok (.setting "address".toList "10.0.0.2/32".toList) := fun _ => rfl
    refine @LinesEdit.move ["# home".toList, "[INTERFACE]".toList] _
      "PrivateKey = a".toList "Address = 10.0.0.2/32".toList ⟨?_, ?_, ?_⟩
    · intro index name
      rw [hkey]
      simp
    · intro index name
      rw [haddress]
      simp
    · intro index key key' value value' h h'
      rw [hkey] at h
      rw [haddress] at h'
      obtain ⟨rfl, -⟩ := Line.setting.inj (Except.ok.inj h)
      obtain ⟨rfl, -⟩ := Line.setting.inj (Except.ok.inj h')
      decide
  have hclean : ∀ start ∈ [["[Interface]", "PrivateKey = a", "Address = 10.0.0.2/32"],
      ["# home", "[Interface]", "PrivateKey = a", "Address = 10.0.0.2/32"],
      ["# home", "[INTERFACE]", "PrivateKey = a", "Address = 10.0.0.2/32"],
      ["# home", "[INTERFACE]", "Address = 10.0.0.2/32", "PrivateKey = a"]],
      dualStackLines start ≠ [] ∧ ∀ l ∈ dualStackLines start, '\n' ∉ l := by decide
  simp only [List.forall_mem_cons] at hclean
  obtain ⟨⟨hne₀, h₀⟩, ⟨hne₁, h₁⟩, ⟨hne₂, h₂⟩, ⟨hne₃, h₃⟩, -⟩ := hclean
  rw [hlines]
  exact ((Relation.ReflTransGen.single (edit_of_lines hcomment hne₀ hne₁ h₀ h₁)).tail
    (edit_of_lines hcase hne₁ hne₂ h₁ h₂)).tail (edit_of_lines hmove hne₂ hne₃ h₂ h₃)

theorem parse_edits_dualStack :
    parse dualStackText (['\n'].intercalate
      (dualStackLines ["# home", "[INTERFACE]", "Address = 10.0.0.2/32", "PrivateKey = a"])) =
      .ok dualStackConfig :=
  (parse_edits dualStackText edits_dualStack dualStackConfig).mpr parse_dualStackContent

end WireGuardConfig

end WgDesktop
