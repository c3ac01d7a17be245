import Mathlib.Data.List.MinMax
import Mathlib.Data.List.ReduceOption
import Mathlib.Tactic.IntervalCases
import WgDesktop.Lib.Runs
import WgDesktop.Linux.NetmgrUtils

/-!
# The longest match in the main routing table

What `mainRouteBlocksInterface` finds in `/proc/net/route`. A `Route` is an entry of the kernel's
table and `TableLine` relates the entries to the lines of the file; `longestMatch` is the entry that
the kernel takes for an address, the default routes apart. The reader skips the header by the five
letters it begins with, and so also the routes of an interface whose name begins with them:
`mainRouteBlocksInterface_iff` says for which tables and addresses that makes no difference.
-/

namespace WgDesktop.NetmgrUtils

open Text

/-! ## Hexadecimal words -/

/-- The word that a little-endian machine reads from the bytes of an address. -/
def leWord (a : BitVec 32) : BitVec 32 :=
  ((a &&& 0x000000ff#32) <<< 24) ||| ((a &&& 0x0000ff00#32) <<< 8) |||
    ((a &&& 0x00ff0000#32) >>> 8) ||| ((a &&& 0xff000000#32) >>> 24)

theorem getLsbD_leWord (a : BitVec 32) {i : ℕ} (hi : i < 32) :
    (leWord a).getLsbD i = a.getLsbD (8 * (3 - i / 8) + i % 8) := by
  unfold leWord
  simp only [BitVec.getLsbD_or, BitVec.getLsbD_shiftLeft, BitVec.getLsbD_and,
    BitVec.getLsbD_ushiftRight]
  interval_cases i <;> simp

theorem leWord_leWord (a : BitVec 32) : leWord (leWord a) = a := by
  refine BitVec.eq_of_getLsbD_eq fun i hi => ?_
  rw [getLsbD_leWord _ hi, getLsbD_leWord _ (by omega)]
  congr 1
  omega

/-- An upper case hexadecimal digit. -/
def hexChar (d : ℕ) : Char := "0123456789ABCDEF".toList.getD d '0'

/-- The digits of `%08X`. -/
def hexDigits (n : ℕ) : List ℕ := (List.range 8).map fun i => n / 16 ^ (7 - i) % 16

/-- An address as the kernel prints it. -/
def routeHex (a : BitVec 32) : List Char := (hexDigits (leWord a).toNat).map hexChar

theorem hexDigit_hexChar {d : ℕ} (hd : d < 16) : hexDigit (hexChar d) = some d := by
  interval_cases d <;> rfl

theorem hexChar_plain {d : ℕ} (hd : d < 16) : isSpace (hexChar d) = false ∧ hexChar d ≠ '+' ∧
    hexChar d ≠ 'x' ∧ hexChar d ≠ 'X' := by
  interval_cases d <;> decide

theorem lt_of_mem_hexDigits {n d : ℕ} (h : d ∈ hexDigits n) : d < 16 := by
  obtain ⟨i, -, rfl⟩ := List.mem_map.mp h
  exact Nat.mod_lt _ (by norm_num)

theorem foldl_digits (n k : ℕ) :
    ((List.range k).map fun i => n / 16 ^ (k - 1 - i) % 16).foldl (fun n d => 16 * n + d) 0 =
      n % 16 ^ k := by
  induction k generalizing n with
  | zero => simp [Nat.mod_one]
  | succ k ih =>
    have hupper : (List.range k).map (fun i => n / 16 ^ (k + 1 - 1 - i) % 16) =
        (List.range k).map fun i => n / 16 / 16 ^ (k - 1 - i) % 16 := by
      refine List.map_congr_left fun i hi => ?_
      have hlt : i < k := List.mem_range.mp hi
      rw [Nat.div_div_eq_div_mul, ← pow_succ', show k - 1 - i + 1 = k + 1 - 1 - i by omega]
    rw [List.range_succ, List.map_append, List.foldl_append, hupper, ih, pow_succ', Nat.mod_mul]
    simp [Nat.add_comm]

theorem foldl_hexDigits {n : ℕ} (hn : n < 2 ^ 32) :
    (hexDigits n).foldl (fun n d => 16 * n + d) 0 = n := by
  rw [hexDigits, foldl_digits n 8]
  exact Nat.mod_eq_of_lt hn

theorem toUInt16_hexDigits (raw : BitVec 32) :
    toUInt16 ((hexDigits raw.toNat).map hexChar) = some raw := by
  obtain ⟨d, d', ds, hds⟩ : ∃ d d' ds, hexDigits raw.toNat = d :: d' :: ds := ⟨_, _, _, rfl⟩
  have hlt (k : ℕ) (hk : k ∈ d :: d' :: ds) : k < 16 := lt_of_mem_hexDigits (hds ▸ hk)
  have hsolid : Solid ((d :: d' :: ds).map hexChar) := by
    refine ⟨⟨hexChar d, rfl, (hexChar_plain (hlt d (by simp))).1⟩, ?_⟩
    have hlast := List.getLast_mem (List.cons_ne_nil d (d' :: ds))
    refine ⟨hexChar ((d :: d' :: ds).getLast (List.cons_ne_nil _ _)), ?_,
      (hexChar_plain (hlt _ hlast)).1⟩
    rw [List.getLast?_map, List.getLast?_eq_some_getLast (List.cons_ne_nil _ _)]
    rfl
  have hdigits : ((d :: d' :: ds).map hexChar).mapM hexDigit = some (d :: d' :: ds) := by
    rw [Runs.mapM_eq_some, List.map_map]
    exact List.map_congr_left fun k hk => hexDigit_hexChar (hlt k hk)
  have hvalue := foldl_hexDigits raw.isLt
  rw [hds] at hvalue ⊢
  obtain ⟨-, hplus, -⟩ := hexChar_plain (hlt d (by simp))
  obtain ⟨-, -, hx, hX⟩ := hexChar_plain (hlt d' (by simp))
  unfold toUInt16
  rw [hsolid.trimmed_eq]
  simp only [List.map_cons, List.head?_cons, Option.some.injEq, hplus, if_false, List.take_succ_cons,
    List.take_zero, List.cons.injEq, hx, hX, false_and, and_false, or_self] at hdigits ⊢
  rw [hdigits]
  simp only [hvalue, ne_eq, List.cons_ne_nil, not_false_eq_true, true_and, raw.isLt, if_true]
  rw [BitVec.ofNat_toNat, BitVec.setWidth_eq]

theorem routeHexToIpv4_routeHex (a : BitVec 32) : routeHexToIpv4 (routeHex a) = a := by
  rw [routeHexToIpv4, routeHex, toUInt16_hexDigits]
  exact leWord_leWord a

/-! ## Columns -/

/-- The columns of a line: what stands between white space. -/
def columns (line : List Char) : List (List Char) := (line.splitOnP isSpace).filter (· ≠ [])

/-- A column has something in it, and no white space. -/
def IsColumn (w : List Char) : Prop := w ≠ [] ∧ ∀ c ∈ w, isSpace c = false

instance (w : List Char) : Decidable (IsColumn w) :=
  decidable_of_iff ((!w.isEmpty && w.all fun c => !isSpace c) = true) (by simp [IsColumn])

theorem splitOn_simplified {line : List Char} (h : columns line ≠ []) :
    (simplified line).splitOn ' ' = columns line := by
  refine List.splitOn_intercalate ' ' (fun w hw hspace => ?_) h
  have hnot := not_of_mem_splitOnP (List.mem_of_mem_filter hw) hspace
  rw [isSpace_space] at hnot
  cases hnot

theorem columns_append {w : List Char} (hw : IsColumn w) {sep : Char} (hsep : isSpace sep = true)
    (line : List Char) : columns (w ++ sep :: line) = w :: columns line := by
  rw [columns, List.splitOnP_append_cons_of_forall_mem hw.2 sep hsep, List.filter_cons,
    if_pos (by simp [hw.1])]
  rfl

/-! ## Routes -/

/-- The mask of a prefix. -/
def netmask (prefixLength : ℕ) : BitVec 32 := ~~~(BitVec.allOnes 32 >>> prefixLength)

theorem getMsbD_netmask (n : ℕ) {i : ℕ} (hi : i < 32) : (netmask n).getMsbD i = decide (i < n) := by
  rw [netmask, BitVec.getMsbD_not, BitVec.getMsbD_ushiftRight, BitVec.getMsbD_allOnes]
  by_cases h : i < n
  · simp [h, hi]
  · have hin : i - n < 32 := by omega
    simp [h, hi, hin]

theorem bitCount_netmask {n : ℕ} (hn : n ≤ 32) : bitCount (netmask n) = n := by
  interval_cases n <;> decide

/-- An entry of the main table, with the columns that are printed for it. -/
structure Route where
  interface : List Char
  destination : BitVec 32
  prefixLength : ℕ
  gateway : List Char
  flags : List Char
  refCnt : List Char
  use : List Char
  metric : List Char
  others : List (List Char)
  isColumn : IsColumn interface
  prefixLength_le : prefixLength ≤ 32

namespace Route

/-- The columns after the interface. -/
def columns (r : Route) : List (List Char) :=
  [routeHex r.destination, r.gateway, r.flags, r.refCnt, r.use, r.metric,
    routeHex (netmask r.prefixLength)] ++ r.others

/-- The route is one for the address: the bits of the prefix are those of the address. -/
def Contains (r : Route) (address : BitVec 32) : Prop :=
  ∀ i < r.prefixLength, address.getMsbD i = r.destination.getMsbD i

instance (r : Route) (address : BitVec 32) : Decidable (r.Contains address) :=
  inferInstanceAs (Decidable (∀ i < r.prefixLength, _))

/-- A route that is not the default route and that the address takes unless there is a longer one. -/
def Matches (address : BitVec 32) (r : Route) : Bool :=
  0 < r.prefixLength && decide (r.Contains address)

theorem contains_iff (r : Route) (address : BitVec 32) :
    r.Contains address ↔
      address &&& netmask r.prefixLength = r.destination &&& netmask r.prefixLength := by
  have hle := r.prefixLength_le
  constructor
  · intro h
    refine BitVec.eq_of_getMsbD_eq fun i hi => ?_
    rw [BitVec.getMsbD_and, BitVec.getMsbD_and, getMsbD_netmask _ hi]
    by_cases hn : i < r.prefixLength
    · rw [h i hn]
    · simp [hn]
  · intro h i hi
    have hbit := congrArg (BitVec.getMsbD · i) h
    simpa [BitVec.getMsbD_and, getMsbD_netmask _ (hi.trans_le hle), hi] using hbit

end Route

/-- The longest match for an address, the default routes apart; the first one that is listed, if
several are as long. -/
def longestMatch (address : BitVec 32) (routes : List Route) : Option Route :=
  (routes.filter (Route.Matches address)).argmax Route.prefixLength

/-- The columns of the header. -/
def headerColumns : List (List Char) :=
  ["Iface", "Destination", "Gateway", "Flags", "RefCnt", "Use", "Metric", "Mask", "MTU", "Window",
    "IRTT"].map String.toList

/-- A line of the table: the row of a route, which begins with its interface; the header; or a line
of fewer than eight columns, a blank one among them. -/
inductive TableLine : Option Route → List Char → Prop
  | row (r : Route) (sep : Char) (line : List Char) (hsep : isSpace sep = true)
      (hline : columns line = r.columns) : TableLine (some r) (r.interface ++ sep :: line)
  | header (line : List Char) (hline : columns line = headerColumns)
      (hstart : "Iface".toList <+: line) : TableLine none line
  | short (line : List Char) (hline : (columns line).length < 8) : TableLine none line

/-- The table in a file: its lines do not contain the character that ends them. -/
def IsTable (routes : List Route) (table : List Char) : Prop :=
  ∃ (entries : List (Option Route)) (lines : List (List Char)),
    List.Forall₂ TableLine entries lines ∧ (∀ line ∈ lines, '\n' ∉ line) ∧
      entries.reduceOption = routes ∧ table = ['\n'].intercalate lines

/-! ## Reading a line -/

/-- The reader knows the header by its first letters. -/
def looksLikeHeader (line : List Char) : Bool := "Iface".toList.isPrefixOf line

theorem looksLikeHeader_row {w : List Char} {sep : Char} (hsep : isSpace sep = true)
    (line : List Char) : looksLikeHeader (w ++ sep :: line) = looksLikeHeader w := by
  refine isPrefixOf_append_cons (fun hmem => ?_) w line
  have hplain : ("Iface".toList.all fun c => !isSpace c) = true := by decide
  have hsep' : isSpace sep = false := by simpa using List.all_eq_true.mp hplain sep hmem
  rw [hsep'] at hsep
  cases hsep

/-- What the reader does with a route. -/
def scanRoute (address : BitVec 32) (best : Best) (r : Route) : Best :=
  if r.Contains address ∧ (r.prefixLength : ℤ) > best.prefixLength then
    ⟨r.prefixLength, r.interface⟩
  else best

theorem scanLine_row (address : BitVec 32) (best : Best) (r : Route) {sep : Char}
    {line : List Char} (hsep : isSpace sep = true) (hline : columns line = r.columns) :
    scanLine address best (r.interface ++ sep :: line) =
      if looksLikeHeader r.interface then best else scanRoute address best r := by
  have hcolumns : columns (r.interface ++ sep :: line) = r.interface :: r.columns := by
    rw [columns_append r.isColumn hsep, hline]
  have hsplit : (simplified (r.interface ++ sep :: line)).splitOn ' ' =
      r.interface :: r.columns := by
    rw [splitOn_simplified (by simp [hcolumns]), hcolumns]
  have hheader : "Iface".toList.isPrefixOf (r.interface ++ sep :: line) =
      looksLikeHeader r.interface := looksLikeHeader_row hsep line
  unfold scanLine scanRoute
  rw [hheader, hsplit]
  simp only [Route.columns, List.cons_append, List.nil_append, routeHexToIpv4_routeHex,
    bitCount_netmask r.prefixLength_le, r.contains_iff]
  by_cases hcontains : address &&& netmask r.prefixLength =
      r.destination &&& netmask r.prefixLength
  · simp [hcontains]
  · simp [hcontains]

theorem scanLine_short (address : BitVec 32) (best : Best) {line : List Char}
    (hline : (columns line).length < 8) : scanLine address best line = best := by
  have hsplit : ((simplified line).splitOn ' ').length < 8 := by
    by_cases h : columns line = []
    · have hsimplified : simplified line = [] := by
        show [' '].intercalate (columns line) = []
        rw [h]
        rfl
      rw [hsimplified]
      decide
    · rw [splitOn_simplified h]
      exact hline
  unfold scanLine
  split_ifs
  · rfl
  · split
    · rename_i heq
      rw [heq] at hsplit
      simp only [List.length_cons] at hsplit
      omega
    · rfl

/-! ## Reading the table -/

theorem foldl_scanLine_filter (address : BitVec 32) (lines : List (List Char)) (best : Best) :
    (lines.filter (· ≠ [])).foldl (scanLine address) best =
      lines.foldl (scanLine address) best := by
  induction lines generalizing best with
  | nil => rfl
  | cons line lines ih =>
    by_cases h : line = []
    · subst h
      rw [List.filter_cons_of_neg (by simp), ih, List.foldl_cons, scanLine_short]
      decide
    · rw [List.filter_cons_of_pos (by simp [h]), List.foldl_cons, List.foldl_cons, ih]

/-- Only the routes count, and of these not the ones that look like the header. -/
theorem foldl_scanLine (address : BitVec 32) {entries : List (Option Route)}
    {lines : List (List Char)} (h : List.Forall₂ TableLine entries lines) (best : Best) :
    lines.foldl (scanLine address) best =
      (entries.reduceOption.filter fun r => !looksLikeHeader r.interface).foldl
        (scanRoute address) best := by
  induction h generalizing best with
  | nil => rfl
  | cons hline hlines ih =>
    rw [List.foldl_cons, ih]
    cases hline with
    | row r sep line hsep hline =>
      rw [scanLine_row address best r hsep hline, List.reduceOption_cons_of_some]
      cases hheader : looksLikeHeader r.interface <;> simp [hheader]
    | header line hline hstart =>
      rw [List.reduceOption_cons_of_none, scanLine, if_pos (List.isPrefixOf_iff_prefix.mpr hstart)]
    | short line hline => rw [List.reduceOption_cons_of_none, scanLine_short address best hline]

/-- The best match so far is the route, or there is none but perhaps a default route. -/
def Best.Is (best : Best) : Option Route → Prop
  | none => best.prefixLength ≤ 0
  | some r => 0 < r.prefixLength ∧ best = ⟨r.prefixLength, r.interface⟩

theorem is_longestMatch (address : BitVec 32) (routes : List Route) :
    (routes.foldl (scanRoute address) {}).Is (longestMatch address routes) := by
  induction routes using List.reverseRecOn with
  | nil =>
    show (-1 : ℤ) ≤ 0
    omega
  | append_singleton routes r ih =>
    unfold longestMatch at ih ⊢
    rw [List.foldl_append, List.foldl_cons, List.foldl_nil, List.filter_append]
    generalize routes.foldl (scanRoute address) {} = best at ih ⊢
    by_cases hr : Route.Matches address r = true
    · obtain ⟨hpos, hcontains⟩ : 0 < r.prefixLength ∧ r.Contains address := by
        simpa [Route.Matches] using hr
      rw [List.filter_cons_of_pos hr, List.filter_nil, List.argmax_concat]
      cases ho : (routes.filter (Route.Matches address)).argmax Route.prefixLength with
      | none =>
        rw [ho] at ih
        have hbest : best.prefixLength ≤ 0 := ih
        have hlt : (r.prefixLength : ℤ) > best.prefixLength := by omega
        exact ⟨hpos, by rw [scanRoute, if_pos ⟨hcontains, hlt⟩]⟩
      | some r' =>
        rw [ho] at ih
        obtain ⟨hpos', rfl⟩ : 0 < r'.prefixLength ∧ best = ⟨r'.prefixLength, r'.interface⟩ := ih
        dsimp only
        by_cases hlt : r'.prefixLength < r.prefixLength
        · rw [if_pos hlt]
          exact ⟨hpos, by rw [scanRoute, if_pos ⟨hcontains, Int.ofNat_lt.mpr hlt⟩]⟩
        · rw [if_neg hlt]
          exact ⟨hpos', by rw [scanRoute, if_neg fun h => hlt (Int.ofNat_lt.mp h.2)]⟩
    · rw [List.filter_cons_of_neg hr, List.filter_nil, List.append_nil]
      unfold scanRoute
      split_ifs with hscan
      · -- The address takes the default route until there is a longer match.
        have hzero : r.prefixLength = 0 := by
          by_contra hne
          exact hr (by simp [Route.Matches, hscan.1, Nat.pos_of_ne_zero hne])
        cases ho : (routes.filter (Route.Matches address)).argmax Route.prefixLength with
        | none =>
          show (r.prefixLength : ℤ) ≤ 0
          omega
        | some r' =>
          rw [ho] at ih
          obtain ⟨hpos', rfl⟩ : 0 < r'.prefixLength ∧ best = ⟨r'.prefixLength, r'.interface⟩ := ih
          have hlt : (r.prefixLength : ℤ) > r'.prefixLength := hscan.2
          omega
      · exact ih

/-- The main table sends the address to another interface than the one with this name: the longest
match is on another. -/
def blocks (address : BitVec 32) (routes : List Route) (interfaceName : List Char) : Bool :=
  (longestMatch address routes).any fun r => r.interface ≠ interfaceName

theorem mainRouteBlocksInterface_eq {T : HostAddressText} {probe : List Char}
    {address : BitVec 32} (hprobe : T.hostAddress probe = .ipv4 address) {routes : List Route}
    {table : List Char} (htable : IsTable routes table) (interfaceName : List Char) :
    mainRouteBlocksInterface T table probe interfaceName =
      blocks address (routes.filter fun r => !looksLikeHeader r.interface) interfaceName := by
  obtain ⟨entries, lines, hlines, hnewline, rfl, rfl⟩ := htable
  have hsplit : ((['\n'].intercalate lines).splitOn '\n').filter (· ≠ []) =
      lines.filter (· ≠ []) := by
    cases lines with
    | nil => rfl
    | cons line lines => rw [List.splitOn_intercalate '\n' hnewline (List.cons_ne_nil _ _)]
  have hbest := is_longestMatch address
    (entries.reduceOption.filter fun r => !looksLikeHeader r.interface)
  unfold mainRouteBlocksInterface blocks
  rw [hprobe]
  dsimp only
  rw [hsplit, foldl_scanLine_filter, foldl_scanLine address hlines]
  cases ho : longestMatch address
      (entries.reduceOption.filter fun r => !looksLikeHeader r.interface) with
  | none =>
    rw [ho] at hbest
    simp [not_lt.mpr (show _ ≤ (0 : ℤ) from hbest)]
  | some r =>
    rw [ho] at hbest
    obtain ⟨hpos, hbest⟩ := hbest
    simp [hbest, hpos]

/-- Leaving out elements other than the first greatest one does not change which it is. -/
theorem argmax_filter {α : Type*} {f : α → ℕ} {q : α → Bool} {l : List α} {a : α}
    (h : l.argmax f = some a) (ha : q a = true) : (l.filter q).argmax f = some a := by
  induction l using List.reverseRecOn generalizing a with
  | nil => cases h
  | append_singleton l b ih =>
    rw [List.argmax_concat] at h
    rw [List.filter_append]
    cases hl : l.argmax f with
    | none =>
      rw [hl] at h
      obtain rfl : b = a := Option.some.inj h
      obtain rfl : l = [] := List.argmax_eq_none.mp hl
      rw [List.filter_cons_of_pos ha]
      rfl
    | some c =>
      rw [hl] at h
      dsimp only at h
      by_cases hlt : f c < f b
      · rw [if_pos hlt] at h
        obtain rfl : b = a := Option.some.inj h
        rw [List.filter_cons_of_pos ha, List.filter_nil, List.argmax_concat]
        cases hd : (l.filter q).argmax f with
        | none => rfl
        | some d =>
          have hmem : d ∈ l := List.mem_of_mem_filter (List.argmax_mem hd)
          have hle : f d ≤ f c := List.le_of_mem_argmax hmem hl
          exact if_pos (hle.trans_lt hlt)
      · rw [if_neg hlt] at h
        obtain rfl : c = a := Option.some.inj h
        by_cases hb : q b = true
        · rw [List.filter_cons_of_pos hb, List.filter_nil, List.argmax_concat, ih hl ha]
          exact if_neg hlt
        · rw [List.filter_cons_of_neg hb, List.filter_nil, List.append_nil]
          exact ih hl ha

/-- The answers for all names tell the interface of the longest match. -/
theorem forall_blocks_eq_iff {address : BitVec 32} {routes routes' : List Route} :
    (∀ interfaceName, blocks address routes interfaceName =
        blocks address routes' interfaceName) ↔
      (longestMatch address routes).map Route.interface =
        (longestMatch address routes').map Route.interface := by
  unfold blocks
  cases longestMatch address routes with
  | none =>
    cases longestMatch address routes' with
    | none => simp
    | some r' =>
      refine iff_of_false (fun h => ?_) (by simp)
      have hname := h []
      simp [r'.isColumn.1] at hname
  | some r =>
    cases longestMatch address routes' with
    | none =>
      refine iff_of_false (fun h => ?_) (by simp)
      have hname := h []
      simp [r.isColumn.1] at hname
    | some r' =>
      simp only [Option.any_some, Option.map_some, Option.some.injEq]
      constructor
      · intro h
        have hname := h r'.interface
        simpa using hname
      · rintro heq interfaceName
        rw [heq]

/-- Leaving out routes keeps the longest match if it stays. -/
theorem longestMatch_filter {address : BitVec 32} {routes : List Route} {q : Route → Bool}
    (h : ∀ r ∈ longestMatch address routes, q r = true) :
    longestMatch address (routes.filter q) = longestMatch address routes := by
  cases ho : longestMatch address routes with
  | none =>
    have hnone : routes.filter (Route.Matches address) = [] := List.argmax_eq_none.mp ho
    rw [longestMatch, List.filter_comm, hnone]
    rfl
  | some r =>
    rw [longestMatch, List.filter_comm]
    exact argmax_filter ho (h r ho)

theorem mem_of_mem_longestMatch {address : BitVec 32} {routes : List Route} {r : Route}
    (h : r ∈ longestMatch address routes) : r ∈ routes :=
  List.mem_of_mem_filter (List.argmax_mem h)

/-- **The longest match.** For every table in any order, with the header, blank lines and short
lines anywhere in it, and every address: the answer is whether the longest match is on another
interface, whatever the interface asked about, exactly when the longest match is not on an interface
whose name begins like the header. -/
theorem mainRouteBlocksInterface_iff {T : HostAddressText} {probe : List Char}
    {address : BitVec 32} (hprobe : T.hostAddress probe = .ipv4 address) {routes : List Route}
    {table : List Char} (htable : IsTable routes table) :
    (∀ interfaceName, mainRouteBlocksInterface T table probe interfaceName =
        blocks address routes interfaceName) ↔
      ∀ r ∈ longestMatch address routes, ¬ "Iface".toList <+: r.interface := by
  have hlooks (w : List Char) : looksLikeHeader w = true ↔ "Iface".toList <+: w :=
    List.isPrefixOf_iff_prefix
  simp only [mainRouteBlocksInterface_eq hprobe htable]
  rw [forall_blocks_eq_iff]
  constructor
  · intro h r hr hheader
    -- the match that the reader finds has the same interface, and is no header to it
    rw [Option.mem_def.mp hr, Option.map_some, Option.map_eq_some_iff] at h
    obtain ⟨r', hr', hinterface⟩ := h
    have hkept := (List.mem_filter.mp (mem_of_mem_longestMatch hr')).2
    rw [hinterface, (hlooks r.interface).mpr hheader] at hkept
    cases hkept
  · intro h
    rw [longestMatch_filter fun r hr => ?_]
    have hnot := h r hr
    rw [← hlooks] at hnot
    simpa using hnot

/-- A route to the lower half of the addresses, as a tunnel that takes the default route adds it. -/
def lowerHalf (interface : List Char) (h : IsColumn interface) : Route where
  interface := interface
  destination := 0#32
  prefixLength := 1
  gateway := "00000000".toList
  flags := "0001".toList
  refCnt := "0".toList
  use := "0".toList
  metric := "1".toList
  others := ["0".toList, "0".toList, "0".toList]
  isColumn := h
  prefixLength_le := by norm_num

/-- The header, and the row of that route. -/
def lowerHalfLines (interface : List Char) : List (List Char) :=
  [['\t'].intercalate headerColumns,
    interface ++ '\t' :: "00000000\t00000000\t0001\t0\t0\t1\t00000080\t0\t0\t0".toList, []]

def lowerHalfTable (interface : List Char) : List Char :=
  ['\n'].intercalate (lowerHalfLines interface)

theorem isTable_lowerHalf {interface : List Char} (h : IsColumn interface) :
    IsTable [lowerHalf interface h] (lowerHalfTable interface) := by
  refine ⟨[none, some (lowerHalf interface h), none], lowerHalfLines interface, ?_, ?_, rfl, rfl⟩
  · refine .cons (.header _ ?_ ?_) (.cons (.row (lowerHalf interface h) '\t' _ rfl ?_)
      (.cons (.short [] ?_) .nil))
    · decide
    · decide
    · show _ = (lowerHalf "amn0".toList (by decide)).columns
      decide
    · decide
  · intro line hline hnewline
    simp only [lowerHalfLines, List.mem_cons, List.not_mem_nil, or_false] at hline
    rcases hline with rfl | rfl | rfl
    · revert hnewline
      decide
    · rcases List.mem_append.mp hnewline with hmem | hmem
      · cases h.2 '\n' hmem
      · revert hmem
        decide
    · cases hnewline

/-- The tables of Qt's conversions for the address that is asked about. -/
def probeTable : HostAddressText := .ofTable [("1.1.1.1".toList, .ipv4 0x01010101#32)] []

/-- Another tunnel. -/
def otherTunnel : Route := lowerHalf "amn0".toList (by decide)

/-- It takes the address. -/
theorem mainRouteBlocksInterface_iff_otherTunnel :
    mainRouteBlocksInterface probeTable (lowerHalfTable otherTunnel.interface) "1.1.1.1".toList
      "wg0".toList = true := by
  have hiff := @mainRouteBlocksInterface_iff probeTable "1.1.1.1".toList 0x01010101#32 rfl
    _ _ (isTable_lowerHalf otherTunnel.isColumn)
  rw [hiff.mpr]
  · decide
  · intro r hr
    obtain rfl : r = otherTunnel := List.mem_singleton.mp (mem_of_mem_longestMatch hr)
    decide

/-- A tunnel whose interface is named like the header. -/
def headerTunnel : Route := lowerHalf "Iface0".toList (by decide)

/-- It takes the address too, but it is not seen. -/
theorem mainRouteBlocksInterface_headerTunnel :
    IsTable [headerTunnel] (lowerHalfTable headerTunnel.interface) ∧
      blocks 0x01010101#32 [headerTunnel] "wg0".toList = true ∧
      mainRouteBlocksInterface probeTable (lowerHalfTable headerTunnel.interface)
        "1.1.1.1".toList "wg0".toList = false :=
  ⟨isTable_lowerHalf headerTunnel.isColumn, by decide, by decide⟩

end WgDesktop.NetmgrUtils
