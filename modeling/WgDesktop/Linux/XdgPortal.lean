import WgDesktop.Lib.Text

/-!
# Application ids in control groups

`parseCgroupAppId` and `setupAppScope` of `src/platforms/linux/xdgportal.cpp`: how the name of a
control group is read, and the name of the scope that the client asks systemd for. The operations
of Qt that require something of their arguments are in `Except Fault`; `parseCgroupAppId_safe_iff`
says for which names they get it, and `parseCgroupAppId_newScopeName` which ids are read back.
-/

namespace WgDesktop.XdgPortal

open Text

/-! ## Strings and lists of Qt -/

/-- The operation that was called outside of its precondition. -/
inductive Fault where
  | first
  | sliced
  | last
  | removeLast
  | elementAt
  deriving DecidableEq, Repr

def lastIndexOf (s : List Char) (c : Char) : ℤ := ((lastIdx? c s).map Int.ofNat).getD (-1)

def first (s : List Char) (n : ℤ) : Except Fault (List Char) :=
  if 0 ≤ n ∧ n ≤ s.length then .ok (s.take n.toNat) else .error .first

def sliced (s : List Char) (pos : ℤ) : Except Fault (List Char) :=
  if 0 ≤ pos ∧ pos ≤ s.length then .ok (s.drop pos.toNat) else .error .sliced

def last (list : List (List Char)) : Except Fault (List Char) :=
  match list.getLast? with
  | some s => .ok s
  | none => .error .last

def removeLast (list : List (List Char)) : Except Fault (List (List Char)) :=
  if list.isEmpty then .error .removeLast else .ok list.dropLast

/-- `QStringList::at`. -/
def elementAt (list : List (List Char)) (i : ℤ) : Except Fault (List Char) :=
  if 0 ≤ i then
    match list[i.toNat]? with
    | some s => .ok s
    | none => .error .elementAt
  else .error .elementAt

/-- `section(sep, 0, 0)`. -/
def firstSection (s : List Char) (sep : Char) : List Char := s.takeWhile (· ≠ sep)

/-! ## Escapes of systemd -/

def isHexDigit (c : Char) : Bool :=
  ('0' ≤ c && c ≤ '9') || ('A' ≤ c && c ≤ 'F') || ('a' ≤ c && c ≤ 'f')

def hexValue (c : Char) : ℕ :=
  if c ≤ '9' then c.toNat - '0'.toNat
  else if c ≤ 'F' then c.toNat - 'A'.toNat + 10
  else c.toNat - 'a'.toNat + 10

/-- `QString::toUShort` with base 16. -/
def toUShort (s : List Char) : Option ℕ :=
  if s ≠ [] ∧ s.all isHexDigit then
    let n := s.foldl (fun n c => 16 * n + hexValue c) 0
    if n < 2 ^ 16 then some n else none
  else none

/-- The text begins with a match of the expression: `\x` and two digits. -/
def isEscape : List Char → Bool
  | '\\' :: 'x' :: a :: b :: _ => isHexDigit a && isHexDigit b
  | _ => false

/-- The start of the first match from `offset` on. -/
def capturedStart (result : List Char) (offset : ℕ) : Option ℕ :=
  (List.range' offset (result.length - offset)).find? fun start => isEscape (result.drop start)

theorem length_of_isEscape {s : List Char} (h : isEscape s = true) : 4 ≤ s.length := by
  revert h
  fun_cases isEscape s with
  | case1 a b rest =>
    intro _
    simp only [List.length_cons]
    omega
  | case2 => exact fun h => absurd h Bool.false_ne_true

theorem capturedStart_spec {result : List Char} {offset start : ℕ}
    (h : capturedStart result offset = some start) :
    offset ≤ start ∧ start + 4 ≤ result.length := by
  have hrange := List.mem_range'_1.mp (List.mem_of_find?_eq_some h)
  have hlen : 4 ≤ (result.drop start).length := by
    apply length_of_isEscape
    exact List.find?_some (p := fun start => isEscape (result.drop start)) h
  rw [List.length_drop] at hlen
  omega

/-- The loop of `decodeSystemdEscape`. -/
def decodeLoop (result : List Char) (offset : ℕ) : Except Fault (List Char) :=
  match _h : capturedStart result offset with
  | none => .ok result
  | some start =>
    match sliced ((result.drop start).take 4) 2 with
    | .error fault => .error fault
    | .ok digits =>
      match toUShort digits with
      | some code =>
        if code ≠ 0 then
          decodeLoop (result.take start ++ Char.ofNat code :: result.drop (start + 4)) (start + 1)
        else decodeLoop result (start + 4)
      -- not decoded: skip past the match
      | none => decodeLoop result (start + 4)
termination_by result.length - offset
decreasing_by
  all_goals have hspec := capturedStart_spec _h
  · simp only [List.length_append, List.length_take, List.length_cons, List.length_drop]
    omega
  · omega
  · omega

def decodeSystemdEscape (str : List Char) : Except Fault (List Char) := decodeLoop str 0

/-! ## Names of control groups -/

/-- The id in the name of a service. -/
def serviceAppId (cgSplit : List (List Char)) : Except Fault (List Char) := do
  let cgSplit ← if (← last cgSplit) = "autostart".toList then removeLast cgSplit else pure cgSplit
  let token ← last cgSplit
  decodeSystemdEscape (firstSection token '@')

/-- The id in the name of a scope or a slice. -/
def scopeAppId (cgSplit : List (List Char)) : Except Fault (List Char) := do
  if cgSplit.length < 3 then
    return []
  let token ← elementAt cgSplit (cgSplit.length - 2)
  decodeSystemdEscape token

def parseCgroupAppId (cgroup : List Char) : Except Fault (List Char) := do
  let cgName ← last (cgroup.splitOn '/')
  if !"app-".toList.isPrefixOf cgName then
    return []
  -- the source has a test for `dot < 0` here, with nothing but an expression in its body
  let dot := lastIndexOf cgName '.'
  let suffix ← sliced cgName (dot + 1)
  let stem ← first cgName dot
  let cgSplit := stem.splitOn '-'
  if suffix = "service".toList then
    serviceAppId cgSplit
  else if suffix = "scope".toList ∨ suffix = "slice".toList then
    scopeAppId cgSplit
  else
    return []

/-! ## What the operations give -/

theorem sliced_ok {s : List Char} {pos : ℕ} (h : pos ≤ s.length) :
    sliced s pos = .ok (s.drop pos) := by
  rw [sliced, if_pos ⟨by omega, by omega⟩]
  rfl

theorem last_splitOn (s : List Char) (c : Char) : last (s.splitOn c) = .ok (afterLast c s) := by
  rw [last, getLast?_splitOn]

theorem decodeLoop_ok (result : List Char) (offset : ℕ) :
    ∃ s, decodeLoop result offset = .ok s := by
  fun_induction decodeLoop result offset with
  | case1 result offset hstart => exact ⟨_, rfl⟩
  | case2 result offset start hstart fault hfault =>
    have hspec := capturedStart_spec hstart
    have hlen : 2 ≤ ((result.drop start).take 4).length := by
      rw [List.length_take, List.length_drop]
      omega
    have hok : sliced ((result.drop start).take 4) (2 : ℕ) = .error fault := hfault
    rw [sliced_ok hlen] at hok
    cases hok
  | case3 => assumption
  | case4 => assumption
  | case5 => assumption

theorem decodeSystemdEscape_ok (str : List Char) : ∃ s, decodeSystemdEscape str = .ok s :=
  decodeLoop_ok str 0

theorem decodeSystemdEscape_of_not_mem {str : List Char} (h : '\\' ∉ str) :
    decodeSystemdEscape str = .ok str := by
  have hnone : capturedStart str 0 = none := by
    refine List.find?_eq_none.mpr fun start _ hescape => ?_
    cases hdrop : str.drop start with
    | nil => rw [hdrop] at hescape; cases hescape
    | cons c rest =>
      obtain rfl : c = '\\' := by
        by_contra hc
        rw [hdrop, isEscape] at hescape
        · cases hescape
        · intro a b rest' heq
          exact absurd (List.cons.inj heq).1 hc
      exact h (List.mem_of_mem_drop (hdrop ▸ List.mem_cons_self))
  rw [decodeSystemdEscape, decodeLoop]
  split
  case h_1 => rfl
  case h_2 start hstart =>
    rw [hnone] at hstart
    cases hstart

theorem exists_last {list : List (List Char)} (h : list ≠ []) : ∃ s, last list = .ok s :=
  ⟨list.getLast h, by rw [last, List.getLast?_eq_some_getLast h]⟩

theorem serviceAppId_ok {cgSplit : List (List Char)} (h : 2 ≤ cgSplit.length) :
    ∃ appId, serviceAppId cgSplit = .ok appId := by
  have hne : cgSplit ≠ [] := List.ne_nil_of_length_pos (by omega)
  have hdrop : cgSplit.dropLast ≠ [] :=
    List.ne_nil_of_length_pos (by rw [List.length_dropLast]; omega)
  obtain ⟨s, hs⟩ := exists_last hne
  obtain ⟨t, ht⟩ := exists_last hdrop
  by_cases hauto : s = "autostart".toList
  · have hremove : removeLast cgSplit = .ok cgSplit.dropLast := by
      rw [removeLast, if_neg (by rwa [List.isEmpty_iff])]
    obtain ⟨appId, happId⟩ := decodeSystemdEscape_ok (firstSection t '@')
    refine ⟨appId, ?_⟩
    rw [serviceAppId, hs]
    simp only [bind, Except.bind, if_pos hauto, hremove, ht, happId]
  · obtain ⟨appId, happId⟩ := decodeSystemdEscape_ok (firstSection s '@')
    refine ⟨appId, ?_⟩
    rw [serviceAppId, hs]
    simp only [bind, Except.bind, if_neg hauto, pure, Except.pure, hs, happId]

theorem scopeAppId_of_short {cgSplit : List (List Char)} (h : cgSplit.length < 3) :
    scopeAppId cgSplit = .ok [] := by
  rw [scopeAppId, if_pos h]
  rfl

theorem scopeAppId_concat {tokens : List (List Char)} (h : 2 ≤ tokens.length) (random : List Char) :
    scopeAppId (tokens ++ [random]) =
      decodeSystemdEscape (tokens.getLast (List.ne_nil_of_length_pos (by omega))) := by
  have hlength : (tokens ++ [random]).length = tokens.length + 1 := List.length_append
  have hindex : ((tokens ++ [random]).length - 2 : ℤ).toNat = tokens.length - 1 := by omega
  have htoken : (tokens ++ [random])[tokens.length - 1]? =
      some (tokens.getLast (List.ne_nil_of_length_pos (by omega))) := by
    rw [List.getElem?_append_left (by omega), ← List.getLast?_eq_getElem?,
      List.getLast?_eq_some_getLast]
  have hat : elementAt (tokens ++ [random]) ((tokens ++ [random]).length - 2) =
      .ok (tokens.getLast (List.ne_nil_of_length_pos (by omega))) := by
    rw [elementAt, if_pos (by omega), hindex, htoken]
  rw [scopeAppId, if_neg (by omega), hat]
  rfl

theorem scopeAppId_ok (cgSplit : List (List Char)) : ∃ appId, scopeAppId cgSplit = .ok appId := by
  by_cases h : cgSplit.length < 3
  · exact ⟨[], scopeAppId_of_short h⟩
  · have hne : cgSplit ≠ [] := List.ne_nil_of_length_pos (by omega)
    obtain ⟨tokens, random, rfl⟩ := (List.eq_nil_or_concat cgSplit).resolve_left hne
    rw [List.concat_eq_append] at h ⊢
    rw [List.length_append, List.length_singleton] at h
    rw [scopeAppId_concat (by omega) random]
    exact decodeSystemdEscape_ok _

/-! ## The name as a whole -/

section Name

variable {cgroup : List Char}

theorem parseCgroupAppId_of_not_app (h : "app-".toList.isPrefixOf (afterLast '/' cgroup) = false) :
    parseCgroupAppId cgroup = .ok [] := by
  rw [parseCgroupAppId, last_splitOn]
  simp only [bind, Except.bind, h, Bool.not_false, if_true]
  rfl

theorem parseCgroupAppId_of_no_dot (happ : "app-".toList.isPrefixOf (afterLast '/' cgroup) = true)
    (hdot : '.' ∉ afterLast '/' cgroup) : parseCgroupAppId cgroup = .error .first := by
  have hindex : lastIndexOf (afterLast '/' cgroup) '.' = -1 := by
    rw [lastIndexOf, lastIdx?_eq_none hdot]
    rfl
  have hsuffix : sliced (afterLast '/' cgroup) (-1 + 1) = .ok (afterLast '/' cgroup) :=
    sliced_ok (Nat.zero_le _)
  rw [parseCgroupAppId, last_splitOn]
  simp only [bind, Except.bind, happ, Bool.not_true, Bool.false_eq_true, if_false, hindex, hsuffix]
  rfl

/-- A name with a dot is split into tokens, the first of which is `app`. -/
theorem parseCgroupAppId_of_dot {tokens suffix : List Char} (hsuffix : '.' ∉ suffix)
    (hname : afterLast '/' cgroup = "app-".toList ++ tokens ++ '.' :: suffix) :
    parseCgroupAppId cgroup =
      if suffix = "service".toList then serviceAppId ("app".toList :: tokens.splitOn '-')
      else if suffix = "scope".toList ∨ suffix = "slice".toList then
        scopeAppId ("app".toList :: tokens.splitOn '-')
      else .ok [] := by
  have happ : "app-".toList.isPrefixOf ("app-".toList ++ tokens ++ '.' :: suffix) = true :=
    List.isPrefixOf_iff_prefix.mpr ⟨tokens ++ '.' :: suffix, by rw [List.append_assoc]⟩
  have hindex : lastIndexOf ("app-".toList ++ tokens ++ '.' :: suffix) '.' =
      (("app-".toList ++ tokens).length : ℕ) := by
    rw [lastIndexOf, lastIdx?_append_cons hsuffix]
    rfl
  have hsliced : sliced ("app-".toList ++ tokens ++ '.' :: suffix)
      ((("app-".toList ++ tokens).length : ℕ) + 1) = .ok suffix := by
    have hlen : ("app-".toList ++ tokens).length + 1 ≤
        ("app-".toList ++ tokens ++ '.' :: suffix).length := by
      rw [@List.length_append _ _ ('.' :: suffix), List.length_cons]
      omega
    exact (sliced_ok hlen).trans (by rw [List.drop_append]; simp)
  have hfirst : first ("app-".toList ++ tokens ++ '.' :: suffix)
      (("app-".toList ++ tokens).length : ℕ) = .ok ("app-".toList ++ tokens) := by
    rw [first, if_pos, Int.toNat_natCast, List.take_left']
    · rfl
    · rw [@List.length_append _ _ ('.' :: suffix)]
      omega
  have hsplit : ("app-".toList ++ tokens).splitOn '-' = "app".toList :: tokens.splitOn '-' :=
    List.splitOn_append_cons_self_of_not_mem (by decide : '-' ∉ "app".toList) tokens
  rw [parseCgroupAppId, last_splitOn, hname]
  simp only [bind, Except.bind, happ, Bool.not_true, Bool.false_eq_true, if_false, hindex, hsliced,
    hfirst, hsplit]
  rfl

end Name

/-- The parser keeps to the preconditions of what it calls, unless the name begins with `app-` and
has no dot. -/
theorem parseCgroupAppId_safe_iff (cgroup : List Char) :
    (∃ appId, parseCgroupAppId cgroup = .ok appId) ↔
      ¬("app-".toList.isPrefixOf (afterLast '/' cgroup) = true ∧
        '.' ∉ afterLast '/' cgroup) := by
  constructor
  · rintro ⟨appId, happId⟩ ⟨happ, hdot⟩
    rw [parseCgroupAppId_of_no_dot happ hdot] at happId
    cases happId
  · intro hname
    by_cases happ : "app-".toList.isPrefixOf (afterLast '/' cgroup) = true
    · obtain ⟨stem, suffix, hstem, hsuffix⟩ :=
        exists_append_cons_of_mem (by_contra fun hdot => hname ⟨happ, hdot⟩)
      rw [hstem, isPrefixOf_append_cons (by decide)] at happ
      obtain ⟨tokens, rfl⟩ := List.isPrefixOf_iff_prefix.mp happ
      rw [parseCgroupAppId_of_dot hsuffix hstem]
      split_ifs
      · refine serviceAppId_ok ?_
        have hpos := List.length_pos_iff.mpr (List.splitOn_ne_nil '-' tokens)
        rw [List.length_cons]
        omega
      · exact scopeAppId_ok _
      · exact ⟨[], rfl⟩
    · exact ⟨[], parseCgroupAppId_of_not_app (Bool.eq_false_iff.mpr happ)⟩

/-- A control group that systemd did not name. -/
theorem parseCgroupAppId_app : parseCgroupAppId "/user.slice/app-firefox".toList = .error .first :=
  parseCgroupAppId_of_no_dot (by decide) (by decide)

/-! ## The scope of the client -/

def linuxAppId : List Char := "io.github.srpvpn.wg-desktop".toList

/-- The name of the scope that `setupAppScope` asks for. -/
def newScopeName (appId : List Char) (ownPid : ℕ) : List Char :=
  "app-".toList ++ appId ++ '-' :: Nat.toDigits 10 ownPid ++ ".scope".toList

/-- `readCgroupAppId`, given the lines of `/proc/self/cgroup`. -/
def readCgroupAppId : List (List Char) → Except Fault (List Char)
  | [] => .ok []
  | line :: lines =>
    if (trimmed line).isEmpty then .ok []
    else if !"0::".toList.isPrefixOf (trimmed line) then readCgroupAppId lines
    else do
      let cgroup ← sliced (trimmed line) 3
      parseCgroupAppId cgroup

/-- The scope that `setupAppScope` asks systemd for, if any. `container` is set in a sandbox,
`registered` where the id went to the registry of the portal. -/
def setupAppScope (container registered : Bool) (cgFile : List (List Char)) (appId : List Char)
    (ownPid : ℕ) : Except Fault (Option (List Char)) := do
  if container then
    return none
  let initAppId ← readCgroupAppId cgFile
  if initAppId = appId ∨ registered then
    return none
  return some (newScopeName appId ownPid)

theorem not_mem_toDigits {c : Char} (h : c.isDigit = false) (n : ℕ) : c ∉ Nat.toDigits 10 n := by
  intro hc
  rw [isDigit_of_mem_toDigits hc] at h
  cases h

/-- A path to the control group `name`. -/
def PathTo (name path : List Char) : Prop := path = name ∨ ∃ dir, path = dir ++ '/' :: name

theorem PathTo.afterLast {name path : List Char} (h : PathTo name path) (hname : '/' ∉ name) :
    afterLast '/' path = name := by
  rcases h with rfl | ⟨dir, rfl⟩
  · exact afterLast_of_not_mem hname
  · exact afterLast_append_cons hname dir

/-- In the scope of an id the parser decodes the part behind the last hyphen of the id. -/
theorem parseCgroupAppId_scope {appId path : List Char} (hslash : '/' ∉ appId) (ownPid : ℕ)
    (hpath : PathTo (newScopeName appId ownPid) path) :
    parseCgroupAppId path = decodeSystemdEscape (afterLast '-' appId) := by
  have hname : afterLast '/' path =
      "app-".toList ++ (appId ++ '-' :: Nat.toDigits 10 ownPid) ++ '.' :: "scope".toList := by
    have hscope : '/' ∉ newScopeName appId ownPid := by
      simp only [newScopeName, List.mem_append, List.mem_cons, not_or]
      refine ⟨⟨⟨by decide, hslash⟩, by decide, not_mem_toDigits rfl ownPid⟩, by decide⟩
    rw [hpath.afterLast hscope, newScopeName, List.append_assoc "app-".toList]
    rfl
  have hsplit : (appId ++ '-' :: Nat.toDigits 10 ownPid).splitOn '-' =
      appId.splitOn '-' ++ [Nat.toDigits 10 ownPid] := by
    rw [List.splitOn_append_cons_self, List.splitOn_eq_singleton (not_mem_toDigits rfl ownPid)]
  have hlast : (appId.splitOn '-').getLast (List.splitOn_ne_nil '-' appId) =
      afterLast '-' appId := by
    have hsome := getLast?_splitOn '-' appId
    rwa [List.getLast?_eq_some_getLast (List.splitOn_ne_nil '-' appId), Option.some.injEq] at hsome
  have hpos := List.length_pos_iff.mpr (List.splitOn_ne_nil '-' appId)
  rw [parseCgroupAppId_of_dot (by decide) hname, if_neg (by decide), if_pos (Or.inl rfl), hsplit,
    ← List.cons_append, scopeAppId_concat (by rw [List.length_cons]; omega),
    List.getLast_cons (List.splitOn_ne_nil '-' appId), hlast]

theorem parseCgroupAppId_newScopeName {appId path : List Char} (hslash : '/' ∉ appId)
    (hback : '\\' ∉ appId) (ownPid : ℕ) (hpath : PathTo (newScopeName appId ownPid) path) :
    parseCgroupAppId path = .ok (afterLast '-' appId) := by
  rw [parseCgroupAppId_scope hslash ownPid hpath]
  exact decodeSystemdEscape_of_not_mem fun h =>
    hback ((List.rtakeWhile_suffix _ _).subset h)

/-- Of the ids that need no escape for another reason, the parser reads back those without a
hyphen. -/
theorem parseCgroupAppId_newScopeName_iff {appId path : List Char} (hslash : '/' ∉ appId)
    (hback : '\\' ∉ appId) (ownPid : ℕ) (hpath : PathTo (newScopeName appId ownPid) path) :
    parseCgroupAppId path = .ok appId ↔ '-' ∉ appId := by
  rw [parseCgroupAppId_newScopeName hslash hback ownPid hpath, Except.ok.injEq]
  exact afterLast_eq_self_iff

theorem parseCgroupAppId_newScopeName_firefox :
    parseCgroupAppId "/app.slice/app-org.mozilla.firefox-77.scope".toList =
        .ok "org.mozilla.firefox".toList ↔ '-' ∉ "org.mozilla.firefox".toList :=
  parseCgroupAppId_newScopeName_iff (by decide) (by decide) 77
    (Or.inr ⟨"/app.slice".toList, by decide⟩)

/-- The scope of the client itself. -/
theorem parseCgroupAppId_linuxAppId :
    parseCgroupAppId ("/app.slice/".toList ++ newScopeName linuxAppId 4242) =
        .ok "desktop".toList ∧ "desktop".toList ≠ linuxAppId := by
  have hpath : PathTo (newScopeName linuxAppId 4242)
      ("/app.slice/".toList ++ newScopeName linuxAppId 4242) := Or.inr ⟨"/app.slice".toList, rfl⟩
  refine ⟨?_, by decide⟩
  rw [parseCgroupAppId_newScopeName (by decide) (by decide) 4242 hpath]
  exact congrArg _ (by decide)

/-- The check for an id that is already set: a client with a hyphen in its id does not know its own
scope. -/
theorem setupAppScope_again {appId path : List Char} (hslash : '/' ∉ appId)
    (hback : '\\' ∉ appId) (ownPid pid : ℕ) (hpath : PathTo (newScopeName appId ownPid) path) :
    setupAppScope false false ["0::".toList ++ path ++ ['\n']] appId pid =
      .ok (if '-' ∈ appId then some (newScopeName appId pid) else none) := by
  have hlast : ∃ front, path = front ++ ".scope".toList := by
    rcases hpath with rfl | ⟨dir, rfl⟩
    · exact ⟨_, rfl⟩
    · refine ⟨dir ++ '/' :: ("app-".toList ++ appId ++ '-' :: Nat.toDigits 10 ownPid), ?_⟩
      rw [newScopeName, ← List.cons_append, ← List.append_assoc]
  have htrimmed : trimmed ("0::".toList ++ path ++ ['\n']) = "0::".toList ++ path := by
    obtain ⟨front, hfront⟩ := hlast
    have hblank : ∀ c ∈ ['\n'], isSpace c = true := by
      intro c hc
      obtain rfl := List.mem_singleton.mp hc
      rfl
    refine Solid.trimmed_append ?_ hblank
    rw [hfront]
    exact Solid.append ⟨⟨'0', rfl, rfl⟩, ':', rfl, rfl⟩ ⟨⟨'.', rfl, rfl⟩, 'e', rfl, rfl⟩ front
  have hread : readCgroupAppId ["0::".toList ++ path ++ ['\n']] = .ok (afterLast '-' appId) := by
    have hprefix : "0::".toList.isPrefixOf ("0::".toList ++ path) = true :=
      List.isPrefixOf_iff_prefix.mpr (List.prefix_append _ _)
    have hsliced : sliced ("0::".toList ++ path) 3 = .ok path :=
      sliced_ok (Nat.le_add_left 3 path.length)
    rw [readCgroupAppId, htrimmed, hprefix, hsliced]
    exact parseCgroupAppId_newScopeName hslash hback ownPid hpath
  rw [setupAppScope, hread]
  by_cases hmem : '-' ∈ appId
  · have hne : afterLast '-' appId ≠ appId := fun h => afterLast_eq_self_iff.mp h hmem
    rw [if_pos hmem]
    simp [bind, Except.bind, hne]
    rfl
  · rw [if_neg hmem, afterLast_of_not_mem hmem]
    simp [bind, Except.bind]
    rfl

end WgDesktop.XdgPortal
