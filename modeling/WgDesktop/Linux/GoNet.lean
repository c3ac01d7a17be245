import WgDesktop.Lib.Bytes

/-!
# Go's `net` package

What the netfilter bindings call of Go's `net` and `net/netip`: `ParseIP`, `ParseCIDR`, `CIDRMask`
and the conversions of an `IP` to its four- and sixteen-byte forms. Zones are refused by both
parsers, so an address that carries one is no address here.
-/

namespace WgDesktop.GoNet

open Bytes

/-! ## Addresses -/

/-- The loop of `netip.parseIPv4Fields`, with the fields read so far, the value of the current one
and its number of digits. -/
def parseIPv4Fields : List Char → List Byte → ℕ → ℕ → Option (List Byte)
  | [], fields, val, _ => if fields.length < 3 then none else some (fields ++ [BitVec.ofNat 8 val])
  | c :: cs, fields, val, digLen =>
    if c.isDigit then
      if digLen = 1 ∧ val = 0 then none
      else
        let val' := val * 10 + (c.toNat - 48)
        if val' > 255 then none else parseIPv4Fields cs fields val' (digLen + 1)
    else if c = '.' then
      if digLen = 0 ∨ cs = [] ∨ fields.length = 3 then none
      else parseIPv4Fields cs (fields ++ [BitVec.ofNat 8 val]) 0 0
    else none

def hexDigit (c : Char) : Option ℕ :=
  if c.isDigit then some (c.toNat - 48)
  else if 'a' ≤ c ∧ c ≤ 'f' then some (c.toNat - 97 + 10)
  else if 'A' ≤ c ∧ c ≤ 'F' then some (c.toNat - 65 + 10)
  else none

/-- The hexadecimal digits at the start of a text: their value, their number and the rest. -/
def hexField : List Char → ℕ → ℕ → Option (ℕ × ℕ × List Char)
  | [], acc, off => some (acc, off, [])
  | c :: cs, acc, off =>
    match hexDigit c with
    | none => some (acc, off, c :: cs)
    | some d =>
      if off > 3 ∨ acc * 16 + d > 0xffff then none else hexField cs (acc * 16 + d) (off + 1)

/-- The loop of `netip.parseIPv6` with room for `k` groups: the bytes read so far, where the
ellipsis stands, and the text that is left. -/
def parseGroups : ℕ → List Char → List Byte → Option ℕ → Option (List Byte × Option ℕ × List Char)
  | 0, s, ip, ellipsis => some (ip, ellipsis, s)
  | k + 1, s, ip, ellipsis =>
    match hexField s 0 0 with
    | none => none
    | some (acc, off, rest) =>
      if off = 0 then none
      else if rest.head? = some '.' then
        -- an IPv4 address in the place of the last two groups
        if (ellipsis = none ∧ ip.length ≠ 12) ∨ ip.length + 4 > 16 then none
        else (parseIPv4Fields s [] 0 0).map fun fields => (ip ++ fields, ellipsis, [])
      else
        let ip := ip ++ [BitVec.ofNat 8 (acc / 256), BitVec.ofNat 8 acc]
        match rest with
        | [] => some (ip, ellipsis, [])
        | c :: s' =>
          if c ≠ ':' then none
          else
            match s' with
            | [] => none
            | ':' :: s'' =>
              if ellipsis.isSome then none
              else if s'' = [] then some (ip, some ip.length, [])
              else parseGroups k s'' ip (some ip.length)
            | _ => parseGroups k s' ip ellipsis

/-- The ellipsis stands for at least one group of zeros. -/
def expandEllipsis (ip : List Byte) : Option ℕ → Option (List Byte)
  | none => if ip.length < 16 then none else some ip
  | some at' =>
    if ip.length < 16 then
      some (ip.take at' ++ List.replicate (16 - ip.length) 0#8 ++ ip.drop at')
    else none

def parseIPv6 (s : List Char) : Option (List Byte) :=
  if '%' ∈ s then none
  else
    let (s, ellipsis) := if s.take 2 = "::".toList then (s.drop 2, some 0) else (s, none)
    if ellipsis.isSome ∧ s = [] then some (List.replicate 16 0#8)
    else
      match parseGroups 8 s [] ellipsis with
      | some (ip, ellipsis, []) => expandEllipsis ip ellipsis
      | _ => none

/-- `netip.ParseAddr` without zones: four or sixteen bytes. The first separator decides. -/
def parseAddr (s : List Char) : Option (List Byte) :=
  match s.find? fun c => c = '.' ∨ c = ':' ∨ c = '%' with
  | some '.' => parseIPv4Fields s [] 0 0
  | some ':' => parseIPv6 s
  | _ => none

def v4InV6Prefix : List Byte := List.replicate 10 0#8 ++ [0xff#8, 0xff#8]

/-- `IP.To4`. -/
def to4 (ip : List Byte) : Option (List Byte) :=
  if ip.length = 4 then some ip
  else if ip.length = 16 ∧ ip.take 12 = v4InV6Prefix then some (ip.drop 12)
  else none

/-- `IP.To16`. -/
def to16 (ip : List Byte) : Option (List Byte) :=
  if ip.length = 4 then some (v4InV6Prefix ++ ip)
  else if ip.length = 16 then some ip
  else none

/-- `net.ParseIP`: the sixteen-byte form. -/
def parseIP (s : List Char) : Option (List Byte) := (parseAddr s).bind to16

theorem length_of_parseIP {s : List Char} {ip : List Byte} (h : parseIP s = some ip) :
    ip.length = 16 := by
  obtain ⟨addr, -, haddr⟩ := Option.bind_eq_some_iff.mp h
  unfold to16 at haddr
  split_ifs at haddr with h4 h16
  · obtain rfl := Option.some.inj haddr
    simp [v4InV6Prefix, h4]
  · obtain rfl := Option.some.inj haddr
    exact h16

/-! ## Networks -/

structure IPNet where
  ip : List Byte
  mask : List Byte
  deriving DecidableEq, Repr

/-- `net.CIDRMask` for an address of `l` bytes. -/
def cidrMask : ℕ → ℕ → List Byte
  | 0, _ => []
  | l + 1, n => if n ≥ 8 then 0xff#8 :: cidrMask l (n - 8) else ~~~(0xff#8 >>> n) :: cidrMask l 0

/-- `net.dtoi`, for a text that must be used up. -/
def dtoi (s : List Char) : Option ℕ :=
  if s = [] then none
  else s.foldlM (fun n c =>
    if c.isDigit ∧ n * 10 + (c.toNat - 48) < 0xffffff then some (n * 10 + (c.toNat - 48))
    else none) 0

/-- `net.ParseCIDR`; the address keeps the length of its family, and is masked. -/
def parseCIDR (s : List Char) : Option IPNet :=
  if '/' ∈ s then
    let addr := s.takeWhile fun c => c ≠ '/'
    match parseAddr addr, dtoi (s.drop (addr.length + 1)) with
    | some ip, some n =>
      if n ≤ 8 * ip.length then
        let mask := cidrMask ip.length n
        some ⟨List.zipWith (· &&& ·) ip mask, mask⟩
      else none
    | _, _ => none
  else none

theorem cidrMask_succ (l n : ℕ) : cidrMask (l + 1) n = prefixMask 8 n :: cidrMask l (n - 8) := by
  have hmask : prefixMask 8 n = ~~~(0xff#8 >>> n) := rfl
  by_cases hn : n ≥ 8
  · have hzero : 0xff#8 >>> n = 0#8 := BitVec.ushiftRight_eq_zero hn
    rw [cidrMask, if_pos hn, hmask, hzero]
    rfl
  · rw [cidrMask, if_neg hn, hmask, show n - 8 = 0 by omega]

theorem length_cidrMask (l n : ℕ) : (cidrMask l n).length = l := by
  induction l generalizing n with
  | zero => rfl
  | succ l ih => rw [cidrMask_succ, List.length_cons, ih]

theorem getMsbD_getElem_cidrMask {l n i j : ℕ} (hi : i < (cidrMask l n).length) (hj : j < 8) :
    ((cidrMask l n)[i]).getMsbD j = decide (8 * i + j < n) := by
  induction l generalizing n i with
  | zero => exact absurd hi (by simp [cidrMask])
  | succ l ih =>
    simp only [cidrMask_succ] at hi ⊢
    cases i with
    | zero => rw [List.getElem_cons_zero, getMsbD_prefixMask hj, Nat.mul_zero, Nat.zero_add]
    | succ i =>
      rw [List.getElem_cons_succ, ih, decide_eq_decide]
      omega

theorem cidrMask_eq_toBytes (l n : ℕ) : cidrMask l n = toBytes (prefixMask (8 * l) n) := by
  apply List.ext_getElem (by simp [length_cidrMask])
  intro i h₁ h₂
  apply BitVec.eq_of_getMsbD_eq
  intro j hj
  have hl : i < l := by rwa [length_cidrMask] at h₁
  rw [getMsbD_getElem_cidrMask h₁ hj, getMsbD_getElem_toBytes _ h₂ hj,
    getMsbD_prefixMask (by omega)]

example : parseCIDR "172.16.0.0/12".toList =
    some ⟨toBytes 0xac100000#32, toBytes (prefixMask 32 12)⟩ := by decide +kernel

end WgDesktop.GoNet
