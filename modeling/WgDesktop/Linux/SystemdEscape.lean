import WgDesktop.Linux.XdgPortal

/-!
# Escapes of systemd

The decoder of `src/platforms/linux/xdgportal.cpp` edits the text in which it searches.
`decodeLoop_append` says that it never comes back to what it has written: it is the one pass of
`unescape` over the text, and with that the inverse of the escape (`unescape_systemdEscape`). So
`parseCgroupAppId_systemdEscape` reads any id of ASCII back, if it was escaped.
-/

namespace WgDesktop.XdgPortal

open Text

/-! ## One pass -/

/-- The number that two digits stand for. -/
def code (a b : Char) : ℕ := 16 * hexValue a + hexValue b

/-- The text with its escapes decoded, each for itself. One that stands for NUL is kept. -/
def unescape : List Char → List Char
  | '\\' :: 'x' :: a :: b :: rest =>
    if isHexDigit a && isHexDigit b then
      if code a b ≠ 0 then Char.ofNat (code a b) :: unescape rest
      else '\\' :: 'x' :: a :: b :: unescape rest
    else '\\' :: unescape ('x' :: a :: b :: rest)
  | c :: rest => c :: unescape rest
  | [] => []

theorem hexValue_lt {c : Char} (h : isHexDigit c = true) : hexValue c < 16 := by
  have hle : ∀ d : Char, c ≤ d ↔ c.toNat ≤ d.toNat := fun d => UInt32.le_iff_toNat_le
  simp only [isHexDigit, Bool.or_eq_true, Bool.and_eq_true, decide_eq_true_eq, hle] at h
  simp only [hexValue, hle]
  have hnine : '9'.toNat = 57 := rfl
  have hupper : 'F'.toNat = 70 := rfl
  have hlower : 'f'.toNat = 102 := rfl
  have hzero : '0'.toNat = 48 := rfl
  have hA : 'A'.toNat = 65 := rfl
  have ha : 'a'.toNat = 97 := rfl
  split_ifs <;> omega

theorem toUShort_digits {a b : Char} (ha : isHexDigit a = true) (hb : isHexDigit b = true) :
    toUShort [a, b] = some (code a b) := by
  have hva := hexValue_lt ha
  have hvb := hexValue_lt hb
  have hdigits : [a, b] ≠ [] ∧ [a, b].all isHexDigit := by simp [ha, hb]
  have hlt : code a b < 2 ^ 16 := by
    rw [code]
    omega
  rw [toUShort, if_pos hdigits]
  simp only [List.foldl_cons, List.foldl_nil, Nat.mul_zero, Nat.zero_add]
  exact if_pos hlt

/-! ## Steps of the decoder -/

section Steps

variable {done rest : List Char}

theorem capturedStart_append (c : Char) :
    capturedStart (done ++ c :: rest) done.length =
      if isEscape (c :: rest) then some done.length
      else capturedStart (done ++ c :: rest) (done.length + 1) := by
  have hlen : (done ++ c :: rest).length - done.length =
      (done ++ c :: rest).length - (done.length + 1) + 1 := by
    simp only [List.length_append, List.length_cons]
    omega
  rw [capturedStart, hlen, List.range'_succ, List.find?_cons, List.drop_left]
  cases isEscape (c :: rest) with
  | true => rfl
  | false => rfl

/-- Where there is no escape the search goes on. -/
theorem decodeLoop_skip {c : Char} (h : isEscape (c :: rest) = false) :
    decodeLoop (done ++ c :: rest) done.length =
      decodeLoop (done ++ [c] ++ rest) (done ++ [c]).length := by
  have hstart : capturedStart (done ++ c :: rest) done.length =
      capturedStart (done ++ c :: rest) (done.length + 1) := by
    rw [capturedStart_append, h]
    rfl
  rw [List.append_assoc, List.singleton_append, List.length_append, List.length_singleton]
  rw [decodeLoop, decodeLoop, hstart]

theorem decodeLoop_length : decodeLoop done done.length = .ok done := by
  have hnone : capturedStart done done.length = none := by
    rw [capturedStart, Nat.sub_self]
    rfl
  rw [decodeLoop]
  split
  case h_1 => rfl
  case h_2 start hstart =>
    rw [hnone] at hstart
    cases hstart

/-- An escape is replaced by its character, or skipped where that is NUL. -/
theorem decodeLoop_escape {a b : Char} (ha : isHexDigit a = true) (hb : isHexDigit b = true) :
    decodeLoop (done ++ '\\' :: 'x' :: a :: b :: rest) done.length =
      if code a b ≠ 0 then
        decodeLoop (done ++ [Char.ofNat (code a b)] ++ rest)
          (done ++ [Char.ofNat (code a b)]).length
      else
        decodeLoop (done ++ ['\\', 'x', a, b] ++ rest) (done ++ ['\\', 'x', a, b]).length := by
  have hstart : capturedStart (done ++ '\\' :: 'x' :: a :: b :: rest) done.length =
      some done.length := by
    rw [capturedStart_append, isEscape, ha, hb]
    rfl
  have hdigits : sliced (((done ++ '\\' :: 'x' :: a :: b :: rest).drop done.length).take 4) 2 =
      .ok [a, b] := by
    rw [List.drop_left]
    rfl
  have hnext : (done ++ '\\' :: 'x' :: a :: b :: rest).drop (done.length + 4) = rest := by
    rw [← List.drop_drop, List.drop_left]
    rfl
  rw [decodeLoop]
  split
  case h_1 hnone =>
    rw [hstart] at hnone
    cases hnone
  case h_2 start hsome =>
    obtain rfl : done.length = start := Option.some.inj (hstart.symm.trans hsome)
    simp only [hdigits, toUShort_digits ha hb, List.take_left, hnext]
    rw [List.append_assoc, List.append_assoc, List.length_append, List.length_append]
    rfl

end Steps

/-- The decoder leaves what is in front of the offset as it is, and decodes the rest in one pass. -/
theorem decodeLoop_append (done s : List Char) :
    decodeLoop (done ++ s) done.length = .ok (done ++ unescape s) := by
  fun_induction unescape s generalizing done with
  | case1 a b rest hdigits hcode ih =>
    rw [Bool.and_eq_true] at hdigits
    rw [decodeLoop_escape hdigits.1 hdigits.2, if_pos hcode, ih, List.append_assoc]
    rfl
  | case2 a b rest hdigits hcode ih =>
    rw [Bool.and_eq_true] at hdigits
    rw [decodeLoop_escape hdigits.1 hdigits.2, if_neg hcode, ih, List.append_assoc]
    rfl
  | case3 a b rest hdigits ih =>
    have hno : isEscape ('\\' :: 'x' :: a :: b :: rest) = false := by
      rwa [isEscape, Bool.eq_false_iff]
    rw [decodeLoop_skip hno, ih, List.append_assoc]
    rfl
  | case4 c rest h ih =>
    have hno : isEscape (c :: rest) = false := by
      rw [isEscape]
      rintro a b rest' heq
      cases heq
      exact h a b rest' rfl rfl
    rw [decodeLoop_skip hno, ih, List.append_assoc]
    rfl
  | case5 =>
    rw [List.append_nil]
    exact decodeLoop_length

/-- Whatever the text is, the decoder ends, and has passed over it once. -/
theorem decodeSystemdEscape_eq (str : List Char) :
    decodeSystemdEscape str = .ok (unescape str) :=
  decodeLoop_append [] str

/-! ## The escape -/

/-- The characters that stand for themselves. -/
def isKept (c : Char) : Bool := c.isAlphanum || c = ':' || c = '_' || c = '.'

def escapeChar (c : Char) : List Char :=
  if isKept c then [c]
  else ['\\', 'x', Nat.digitChar (c.toNat / 16), Nat.digitChar (c.toNat % 16)]

/-- Letters, digits, `:`, `_` and `.` as they are, all other characters as `\xNN`. The escape of
systemd itself differs in two: it writes `/` as `-`, and escapes a `.` in front. -/
def systemdEscape (s : List Char) : List Char := s.flatMap escapeChar

/-- The characters of ASCII other than NUL. -/
def Ascii (c : Char) : Prop := 0 < c.toNat ∧ c.toNat < 128

instance : DecidablePred Ascii := fun c => inferInstanceAs (Decidable (0 < c.toNat ∧ c.toNat < 128))

theorem isHexDigit_digitChar : ∀ n < 16, isHexDigit (Nat.digitChar n) = true := by decide

theorem hexValue_digitChar : ∀ n < 16, hexValue (Nat.digitChar n) = n := by decide

theorem code_digitChar {n : ℕ} (h : n < 256) :
    code (Nat.digitChar (n / 16)) (Nat.digitChar (n % 16)) = n := by
  rw [code, hexValue_digitChar _ (by omega), hexValue_digitChar _ (by omega), Nat.div_add_mod]

theorem unescape_cons {c : Char} (h : c ≠ '\\') (rest : List Char) :
    unescape (c :: rest) = c :: unescape rest := by
  rw [unescape]
  rintro a b rest' rfl
  exact absurd rfl h

/-- The escape of a character is decoded for itself, whatever follows it. -/
theorem unescape_escapeChar {c : Char} (h : Ascii c) (rest : List Char) :
    unescape (escapeChar c ++ rest) = c :: unescape rest := by
  obtain ⟨hpos, hlt⟩ := h
  rw [escapeChar]
  split
  case isTrue hkept =>
    refine unescape_cons ?_ rest
    rintro rfl
    exact absurd hkept (by decide)
  case isFalse hkept =>
    have hcode := code_digitChar (show c.toNat < 256 by omega)
    show unescape ('\\' :: 'x' :: Nat.digitChar (c.toNat / 16) :: Nat.digitChar (c.toNat % 16) ::
      rest) = c :: unescape rest
    rw [unescape, isHexDigit_digitChar _ (by omega), isHexDigit_digitChar _ (by omega), hcode,
      Bool.and_self, if_pos rfl, if_pos (Nat.ne_of_gt hpos), Char.ofNat_toNat]

theorem unescape_systemdEscape {s : List Char} (h : ∀ c ∈ s, Ascii c) :
    unescape (systemdEscape s) = s := by
  induction s with
  | nil => rfl
  | cons c s ih =>
    rw [List.forall_mem_cons] at h
    show unescape (escapeChar c ++ systemdEscape s) = c :: s
    rw [unescape_escapeChar h.1, ih h.2]

/-- The decoder inverts the escape. On any text it ends after one pass, in which what an escape
stands for is not decoded again. -/
theorem decodeSystemdEscape_systemdEscape :
    (∀ s : List Char, (∀ c ∈ s, Ascii c) → decodeSystemdEscape (systemdEscape s) = .ok s) ∧
      ∀ str : List Char, decodeSystemdEscape str = .ok (unescape str) := by
  refine ⟨fun s h => ?_, decodeSystemdEscape_eq⟩
  rw [decodeSystemdEscape_eq, unescape_systemdEscape h]

/-- A text that looks like an escape. -/
theorem decodeSystemdEscape_systemdEscape_escape :
    decodeSystemdEscape "\\x5cx2d".toList = .ok "\\x2d".toList :=
  decodeSystemdEscape_systemdEscape.1 "\\x2d".toList (by simp [Ascii])

/-! ## Ids in escaped names -/

theorem isKept_of_mem_escapeChar {c d : Char} (h : d ∈ escapeChar c) (hc : Ascii c) :
    isKept d = true ∨ d = '\\' := by
  have hdigit : ∀ n < 16, isKept (Nat.digitChar n) = true := by decide
  obtain ⟨hpos, hlt⟩ := hc
  rw [escapeChar] at h
  split at h
  case isTrue hkept =>
    rw [List.mem_singleton] at h
    exact .inl (h ▸ hkept)
  case isFalse =>
    simp only [List.mem_cons, List.not_mem_nil, or_false] at h
    rcases h with rfl | rfl | rfl | rfl
    · exact .inr rfl
    · exact .inl rfl
    · exact .inl (hdigit _ (by omega))
    · exact .inl (hdigit _ (by omega))

theorem not_mem_systemdEscape {s : List Char} (h : ∀ c ∈ s, Ascii c) {d : Char}
    (hkept : isKept d = false) (hback : d ≠ '\\') : d ∉ systemdEscape s := by
  intro hd
  obtain ⟨c, hc, hdc⟩ := List.mem_flatMap.mp hd
  rcases isKept_of_mem_escapeChar hdc (h c hc) with hd | hd
  · exact absurd (hkept.symm.trans hd) Bool.false_ne_true
  · exact hback hd

/-- An id that was escaped for the name of its scope is read back, hyphens included. -/
theorem parseCgroupAppId_systemdEscape {appId path : List Char} (h : ∀ c ∈ appId, Ascii c)
    (ownPid : ℕ) (hpath : PathTo (newScopeName (systemdEscape appId) ownPid) path) :
    parseCgroupAppId path = .ok appId := by
  have hslash : '/' ∉ systemdEscape appId := not_mem_systemdEscape h (by decide) (by decide)
  have hhyphen : '-' ∉ systemdEscape appId := not_mem_systemdEscape h (by decide) (by decide)
  rw [parseCgroupAppId_scope hslash ownPid hpath, afterLast_of_not_mem hhyphen,
    decodeSystemdEscape_eq, unescape_systemdEscape h]

theorem parseCgroupAppId_systemdEscape_hyphen :
    parseCgroupAppId ("/user.slice/".toList ++ newScopeName (systemdEscape "a-b".toList) 7) =
      .ok "a-b".toList :=
  parseCgroupAppId_systemdEscape (by simp [Ascii]) 7 (.inr ⟨"/user.slice".toList, rfl⟩)

end WgDesktop.XdgPortal
