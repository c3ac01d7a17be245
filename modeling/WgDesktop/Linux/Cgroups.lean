import WgDesktop.Lib.Bytes

/-!
# Control groups in the firewall

The rules for control groups in `linux/netfilter/netfilter.go` on a system with unified control
groups (v2): a group is excluded from the VPN by a rule in each of two chains that matches its
path. A match has room for 511 bytes of the path; `pathOf_nftXtCgroupMatch` says that shorter
paths are matched as they are, a longer one by its beginning. The kernel may refuse a request, and
refuses all of them when the table is not there.
-/

namespace WgDesktop.Netfilter

open Bytes

/-- The path of a control group; like all file names it has no NUL. -/
@[ext]
structure CgroupPath where
  bytes : List Byte
  noNul : 0#8 ∉ bytes

instance : DecidableEq CgroupPath := fun _ _ => decidable_of_iff _ CgroupPath.ext_iff.symm

/-! ## The match -/

/-- The data of the match, `struct xt_cgroup_info_v2`: the path, cut if it is too long, in 512
bytes. -/
def nftXtCgroupMatch (cgroup : List Byte) : List Byte :=
  let cgroup := if 512 ≤ cgroup.length then cgroup.take 511 else cgroup
  [1#8, 0#8, 0#8, 0#8] ++
    ((cgroup ++ 0#8 :: List.replicate 512 0#8).take 512 ++ List.replicate 12 0#8)

/-- The path that the kernel reads in it. -/
def pathOf (info : List Byte) : List Byte := ((info.drop 4).take 512).takeWhile (· ≠ 0#8)

theorem takeWhile_noNul {p : List Byte} (h : 0#8 ∉ p) (rest : List Byte) :
    (p ++ 0#8 :: rest).takeWhile (· ≠ 0#8) = p := by
  have hp : ∀ b ∈ p, (decide (b ≠ 0#8)) = true := by
    intro b hb
    have hne : b ≠ 0#8 := fun heq => h (heq ▸ hb)
    simpa using hne
  rw [List.takeWhile_append_of_pos hp]
  simp

theorem pathOf_info {p : List Byte} (hlen : p.length ≤ 511) (hnul : 0#8 ∉ p) (tail : List Byte) :
    pathOf ([1#8, 0#8, 0#8, 0#8] ++
      ((p ++ 0#8 :: List.replicate 512 0#8).take 512 ++ tail)) = p := by
  have hfull : ((p ++ 0#8 :: List.replicate 512 0#8).take 512).length = 512 := by
    rw [List.length_take, List.length_append, List.length_cons, List.length_replicate]
    omega
  have hdrop : ([1#8, 0#8, 0#8, 0#8] ++
      ((p ++ 0#8 :: List.replicate 512 0#8).take 512 ++ tail)).drop 4 =
        (p ++ 0#8 :: List.replicate 512 0#8).take 512 ++ tail := rfl
  have htake : (p ++ 0#8 :: List.replicate 512 0#8).take 512 =
      p ++ 0#8 :: List.replicate (511 - p.length) 0#8 := by
    rw [List.take_append, List.take_of_length_le (by omega),
      show 512 - p.length = (511 - p.length) + 1 by omega, List.take_succ_cons,
      List.take_replicate, Nat.min_eq_left (by omega)]
  rw [pathOf, hdrop, List.take_append_of_le_length (by omega), List.take_of_length_le (by omega),
    htake, takeWhile_noNul hnul]

/-- **Short paths are matched as they are.** -/
theorem pathOf_nftXtCgroupMatch {path : CgroupPath} (hlen : path.bytes.length < 512) :
    pathOf (nftXtCgroupMatch path.bytes) = path.bytes := by
  rw [nftXtCgroupMatch, if_neg (by omega)]
  exact pathOf_info (by omega) path.noNul _

theorem pathOf_nftXtCgroupMatch_of_long {path : CgroupPath} (hlen : 512 ≤ path.bytes.length) :
    pathOf (nftXtCgroupMatch path.bytes) = path.bytes.take 511 := by
  rw [nftXtCgroupMatch, if_pos hlen]
  exact pathOf_info (List.length_take_le _ _) (fun h => path.noNul (List.mem_of_mem_take h)) _

theorem nftXtCgroupMatch_inj {p q : CgroupPath} (hp : p.bytes.length < 512)
    (hq : q.bytes.length < 512)
    (h : nftXtCgroupMatch p.bytes = nftXtCgroupMatch q.bytes) : p = q := by
  apply CgroupPath.ext
  rw [← pathOf_nftXtCgroupMatch hp, h, pathOf_nftXtCgroupMatch hq]

/-! ## The chains -/

/-- Whether the table is there, the mark for excluded traffic, the matches of the rules in the
chains `mozvpn-cgroup-mark` and `mozvpn-cgroup-nat`, and the number of requests so far. -/
structure Cgroups where
  tables : Bool := false
  fwmark : BitVec 32 := 0#32
  mark : List (List Byte) := []
  nat : List (List Byte) := []
  requests : ℕ := 0

/-- The kernel's answers, by number of the request. -/
structure Answers where
  lists : ℕ → Bool
  admits : ℕ → Bool

namespace Cgroups

/-- The group is excluded: both chains have a rule for it. -/
def Excludes (c : Cgroups) (path : CgroupPath) : Prop :=
  path.bytes ∈ c.mark.map pathOf ∧ path.bytes ∈ c.nat.map pathOf

/-- `LinuxFirewall::up`: tables that are there already keep their rules. -/
def up (c : Cgroups) : Cgroups := { c with tables := true, fwmark := 0xca6c#32 }

/-- `NetfilterRemoveTables`. -/
def down (c : Cgroups) : Cgroups := { c with tables := false, mark := [], nat := [] }

section Requests

variable (K : Answers) (c : Cgroups)

def nftCommit (batch : Cgroups → Cgroups) : Cgroups :=
  { (if c.tables && K.admits c.requests then batch c else c) with requests := c.requests + 1 }

def netfilterMarkCgroupV2 (cgroup : CgroupPath) : Cgroups :=
  if c.fwmark = 0#32 then c
  else
    c.nftCommit K fun c =>
      { c with
        mark := c.mark ++ [nftXtCgroupMatch cgroup.bytes]
        nat := c.nat ++ [nftXtCgroupMatch cgroup.bytes] }

/-- `nftDelCgroup2xt` on a chain, if its rules are listed. -/
def withoutRules (listed : Bool) (chain : List (List Byte)) (info : List Byte) : List (List Byte) :=
  if listed then chain.filter (· ≠ info) else chain

def netfilterResetCgroupV2 (cgroup : CgroupPath) : Cgroups :=
  let info := nftXtCgroupMatch cgroup.bytes
  { c with requests := c.requests + 2 }.nftCommit K fun c' =>
    { c' with
      mark := withoutRules (K.lists c.requests) c.mark info
      nat := withoutRules (K.lists (c.requests + 1)) c.nat info }

def netfilterResetAllCgroupsV2 : Cgroups := c.nftCommit K fun c => { c with mark := [], nat := [] }

/-! ## What the kernel takes -/

/-- The next request is taken. -/
def Takes : Prop := c.tables = true ∧ K.admits c.requests = true

/-- So are the three of the next reset. -/
def TakesReset : Prop :=
  c.tables = true ∧ K.lists c.requests = true ∧ K.lists (c.requests + 1) = true ∧
    K.admits (c.requests + 2) = true

/-- So is the next request to clear the chains, or there is nothing in them. -/
def Flushes : Prop := c.Takes K ∨ c.mark = [] ∧ c.nat = []

end Requests

/-! ## Chains for a set of groups -/

end Cgroups

/-- A chain has the rules of the groups in `keys`, and no others. -/
def Lists (keys : CgroupPath → Prop) (chain : List (List Byte)) : Prop :=
  ∀ info, info ∈ chain ↔ ∃ path, keys path ∧ nftXtCgroupMatch path.bytes = info

section Lists

variable {keys : CgroupPath → Prop} {chain : List (List Byte)}

theorem Lists.mem_iff (h : Lists keys chain)
    (hshort : ∀ path, keys path → path.bytes.length < 512) (path : CgroupPath) :
    path.bytes ∈ chain.map pathOf ↔ keys path := by
  rw [List.mem_map]
  constructor
  · rintro ⟨info, hinfo, hpath⟩
    obtain ⟨q, hq, rfl⟩ := (h info).mp hinfo
    rw [pathOf_nftXtCgroupMatch (hshort q hq)] at hpath
    have heq : q = path := CgroupPath.ext hpath
    exact heq ▸ hq
  · intro hkey
    exact ⟨_, (h _).mpr ⟨path, hkey, rfl⟩, pathOf_nftXtCgroupMatch (hshort path hkey)⟩

theorem Lists.append (h : Lists keys chain) (cgroup : CgroupPath) :
    Lists (fun path => path = cgroup ∨ keys path) (chain ++ [nftXtCgroupMatch cgroup.bytes]) := by
  intro info
  rw [List.mem_append, h, List.mem_singleton]
  constructor
  · rintro (⟨path, hpath, rfl⟩ | rfl)
    · exact ⟨path, .inr hpath, rfl⟩
    · exact ⟨cgroup, .inl rfl, rfl⟩
  · rintro ⟨path, rfl | hpath, rfl⟩
    · exact .inr rfl
    · exact .inl ⟨path, hpath, rfl⟩

/-- The rules of one group go; no other short path has the same match. -/
theorem Lists.filter (h : Lists keys chain) {cgroup : CgroupPath}
    (hcgroup : cgroup.bytes.length < 512) (hshort : ∀ path, keys path → path.bytes.length < 512) :
    Lists (fun path => path ≠ cgroup ∧ keys path)
      (chain.filter (· ≠ nftXtCgroupMatch cgroup.bytes)) := by
  intro info
  rw [List.mem_filter, h, decide_eq_true_eq]
  constructor
  · rintro ⟨⟨path, hpath, rfl⟩, hne⟩
    exact ⟨path, ⟨fun heq => hne (by rw [heq]), hpath⟩, rfl⟩
  · rintro ⟨path, ⟨hne, hpath⟩, rfl⟩
    exact ⟨⟨path, hpath, rfl⟩,
      fun heq => hne (nftXtCgroupMatch_inj (hshort path hpath) hcgroup heq)⟩

/-- A rule for the group is added after some of its rules may have gone. -/
theorem Lists.remark (h : Lists keys chain) (cgroup : CgroupPath) (listed : Bool) :
    Lists (fun path => path = cgroup ∨ keys path)
      (Cgroups.withoutRules listed chain (nftXtCgroupMatch cgroup.bytes) ++
        [nftXtCgroupMatch cgroup.bytes]) := by
  have hrest : ∀ info, info ≠ nftXtCgroupMatch cgroup.bytes →
      (info ∈ Cgroups.withoutRules listed chain (nftXtCgroupMatch cgroup.bytes) ↔ info ∈ chain) := by
    intro info hne
    unfold Cgroups.withoutRules
    split_ifs
    · rw [List.mem_filter, decide_eq_true_eq, and_iff_left hne]
    · exact Iff.rfl
  intro info
  rw [← h.append cgroup info, List.mem_append, List.mem_append, List.mem_singleton]
  by_cases hinfo : info = nftXtCgroupMatch cgroup.bytes
  · exact iff_of_true (.inr hinfo) (.inr hinfo)
  · rw [hrest info hinfo]

theorem lists_nil {keys : CgroupPath → Prop} (h : ∀ path, ¬keys path) : Lists keys [] := by
  intro info
  simp [h]

theorem Lists.congr {keys' : CgroupPath → Prop} (h : Lists keys chain)
    (hkeys : ∀ path, keys path ↔ keys' path) : Lists keys' chain := by
  intro info
  rw [h info]
  simp only [hkeys]

end Lists

namespace Cgroups

/-- The mark is known when the table is there, and the chains are in it. -/
structure Sound (c : Cgroups) : Prop where
  fwmark : c.tables = true → c.fwmark ≠ 0#32
  bare : c.tables = false → c.mark = [] ∧ c.nat = []

/-- Both chains have the rules of the groups in `keys`, and no others. -/
structure For (keys : CgroupPath → Prop) (c : Cgroups) : Prop where
  mark : Lists keys c.mark
  nat : Lists keys c.nat

variable {K : Answers} {c : Cgroups} {keys keys' : CgroupPath → Prop} {cgroup : CgroupPath}

theorem For.excludes_iff (h : For keys c) (hshort : ∀ path, keys path → path.bytes.length < 512)
    (path : CgroupPath) : c.Excludes path ↔ keys path := by
  rw [Excludes, h.mark.mem_iff hshort, h.nat.mem_iff hshort, and_self]

theorem For.congr (h : For keys c) (hkeys : ∀ path, keys path ↔ keys' path) : For keys' c :=
  ⟨h.mark.congr hkeys, h.nat.congr hkeys⟩

theorem nftCommit_of_takes (htakes : c.Takes K) (batch : Cgroups → Cgroups) :
    c.nftCommit K batch = { batch c with requests := c.requests + 1 } := by
  rw [nftCommit, htakes.1, htakes.2, Bool.and_self, if_pos rfl]

/-- A request about the rules changes nothing else, and nothing when there is no table. -/
theorem Sound.nftCommit (h : Sound c) {batch : Cgroups → Cgroups}
    (hbatch : (batch c).tables = c.tables ∧ (batch c).fwmark = c.fwmark) :
    Sound (c.nftCommit K batch) := by
  unfold Cgroups.nftCommit
  split_ifs with htakes
  · have htables : c.tables = true := (Bool.and_eq_true_iff.mp htakes).1
    refine ⟨fun _ => ?_, fun hnone => ?_⟩
    · show (batch c).fwmark ≠ 0#32
      rw [hbatch.2]
      exact h.fwmark htables
    · change (batch c).tables = false at hnone
      rw [hbatch.1, htables] at hnone
      cases hnone
  · exact ⟨h.fwmark, h.bare⟩

theorem Sound.markCgroup (h : Sound c) (cgroup : CgroupPath) :
    Sound (c.netfilterMarkCgroupV2 K cgroup) := by
  unfold netfilterMarkCgroupV2
  split_ifs
  · exact h
  · exact h.nftCommit ⟨rfl, rfl⟩

theorem Sound.resetCgroup (h : Sound c) (cgroup : CgroupPath) :
    Sound (c.netfilterResetCgroupV2 K cgroup) := by
  have h' : Sound { c with requests := c.requests + 2 } := ⟨h.fwmark, h.bare⟩
  unfold netfilterResetCgroupV2
  exact h'.nftCommit ⟨rfl, rfl⟩

theorem Sound.resetAll (h : Sound c) : Sound (c.netfilterResetAllCgroupsV2 K) :=
  h.nftCommit ⟨rfl, rfl⟩

theorem sound_up (c : Cgroups) : Sound c.up := by
  refine ⟨fun _ => ?_, fun hnone => by cases hnone⟩
  show 0xca6c#32 ≠ 0#32
  decide

theorem sound_down (c : Cgroups) : Sound c.down := by
  refine ⟨fun htables => ?_, fun _ => ⟨rfl, rfl⟩⟩
  cases htables

theorem For.markCgroup (h : For keys c) (hsound : Sound c) (htakes : c.Takes K)
    (cgroup : CgroupPath) :
    For (fun path => path = cgroup ∨ keys path) (c.netfilterMarkCgroupV2 K cgroup) := by
  rw [netfilterMarkCgroupV2, if_neg (hsound.fwmark htakes.1), nftCommit_of_takes htakes]
  exact ⟨h.mark.append cgroup, h.nat.append cgroup⟩

theorem For.resetCgroup (h : For keys c) (htakes : c.TakesReset K)
    (hcgroup : cgroup.bytes.length < 512) (hshort : ∀ path, keys path → path.bytes.length < 512) :
    For (fun path => path ≠ cgroup ∧ keys path) (c.netfilterResetCgroupV2 K cgroup) := by
  obtain ⟨htables, hmark, hnat, hcommit⟩ := htakes
  have htakes' : { c with requests := c.requests + 2 }.Takes K := ⟨htables, hcommit⟩
  rw [netfilterResetCgroupV2, nftCommit_of_takes htakes', hmark, hnat]
  exact ⟨h.mark.filter hcgroup hshort, h.nat.filter hcgroup hshort⟩

/-- A group that is marked again, whatever came of the reset. -/
theorem For.remark (h : For keys c) (hsound : Sound c) (cgroup : CgroupPath)
    (htakes : (c.netfilterResetCgroupV2 K cgroup).Takes K) :
    For (fun path => path = cgroup ∨ keys path)
      ((c.netfilterResetCgroupV2 K cgroup).netfilterMarkCgroupV2 K cgroup) := by
  have hsound' : Sound (c.netfilterResetCgroupV2 K cgroup) := hsound.resetCgroup cgroup
  rw [netfilterMarkCgroupV2, if_neg (hsound'.fwmark htakes.1), nftCommit_of_takes htakes,
    netfilterResetCgroupV2, Cgroups.nftCommit]
  split_ifs
  · exact ⟨h.mark.remark cgroup _, h.nat.remark cgroup _⟩
  · exact ⟨h.mark.append cgroup, h.nat.append cgroup⟩

theorem for_down (c : Cgroups) (h : ∀ path, ¬keys path) : For keys c.down :=
  ⟨lists_nil h, lists_nil h⟩

theorem For.up (h : For keys c) : For keys c.up := ⟨h.mark, h.nat⟩

theorem for_resetAll (hflushes : c.Flushes K) :
    For (fun _ => False) (c.netfilterResetAllCgroupsV2 K) := by
  have hnil : ∀ chain : List (List Byte), chain = [] → Lists (fun _ => False) chain := by
    rintro chain rfl
    exact lists_nil fun _ => id
  rcases hflushes with htakes | ⟨hmark, hnat⟩
  · rw [netfilterResetAllCgroupsV2, nftCommit_of_takes htakes]
    exact ⟨hnil _ rfl, hnil _ rfl⟩
  · unfold netfilterResetAllCgroupsV2 Cgroups.nftCommit
    split_ifs
    · exact ⟨hnil _ rfl, hnil _ rfl⟩
    · exact ⟨hnil _ hmark, hnil _ hnat⟩

end Cgroups

end WgDesktop.Netfilter
