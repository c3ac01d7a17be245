import Mathlib.Data.List.Nodup
import WgDesktop.Lib.Runs
import WgDesktop.Linux.Cgroups

/-!
# The chains for control groups

`NetfilterMarkCgroupV1`, `NetfilterMarkCgroupV2` and `NetfilterResetCgroupV2` in
`linux/netfilter/netfilter.go`, with the handles by which rules are deleted. A reset finds the rules
of its group again by their first expression, and takes every rule of the chains to start with a
match: `resetCgroupV2_exact_iff` says in which states it undoes the marking of a group and no more.
-/

namespace WgDesktop.Netfilter

open Bytes Runs

/-! ## Rules -/

/-- A control group that was marked: a `net_cls` class, or a path. -/
inductive Mark where
  | v1 (cgroup : BitVec 32)
  | v2 (cgroup : List Byte)
  deriving DecidableEq

/-- The first expression of a rule: `expr.Meta` with the class that its `expr.Cmp` wants, or
`expr.Match` with its data. -/
inductive FirstExpr where
  | metaCgroup (cgroup : BitVec 32)
  | xtMatch (info : List Byte)
  deriving DecidableEq

/-- `nftMarkCgroup1netcls` and `nftMarkCgroup2xt`, in either chain. -/
def Mark.firstExpr : Mark → FirstExpr
  | .v1 cgroup => .metaCgroup cgroup
  | .v2 cgroup => .xtMatch (nftXtCgroupMatch cgroup)

/-- A rule in the kernel, with the call that added it. -/
structure CgroupRule where
  handle : ℕ
  origin : Mark
  deriving DecidableEq

/-- The chains `mozvpn-cgroup-mark` and `mozvpn-cgroup-nat`, the mark for excluded traffic, the next
handle and the number of requests so far. -/
structure CgroupChains where
  fwmark : BitVec 32
  mark : List CgroupRule := []
  nat : List CgroupRule := []
  nextHandle : ℕ := 0
  requests : ℕ := 0

/-- A type assertion that fails. -/
inductive TypePanic where
  | notMatch
  deriving DecidableEq

namespace CgroupChains

/-! ## The calls -/

/-- A rule for the group in both chains, in one batch. -/
def addRules (K : Answers) (s : CgroupChains) (origin : Mark) : CgroupChains :=
  if K.admits s.requests then
    { s with
      mark := s.mark ++ [⟨s.nextHandle, origin⟩]
      nat := s.nat ++ [⟨s.nextHandle + 1, origin⟩]
      nextHandle := s.nextHandle + 2
      requests := s.requests + 1 }
  else { s with requests := s.requests + 1 }

def markCgroupV1 (K : Answers) (s : CgroupChains) (cgroup : BitVec 32) : CgroupChains :=
  if s.fwmark = 0#32 then s else s.addRules K (.v1 cgroup)

def markCgroupV2 (K : Answers) (s : CgroupChains) (cgroup : List Byte) : CgroupChains :=
  if s.fwmark = 0#32 then s else s.addRules K (.v2 cgroup)

/-- One turn of the loop in `nftDelCgroup2xt`. -/
def nftDelTurn (info : List Byte) (handles : List ℕ) (r : CgroupRule) :
    Except TypePanic (List ℕ) :=
  match r.origin.firstExpr with
  | .metaCgroup _ => .error .notMatch
  | .xtMatch rr => .ok (if rr = info then handles ++ [r.handle] else handles)

/-- `nftDelCgroup2xt`: the handles of the rules to delete. -/
def nftDelCgroup2xt (rules : List CgroupRule) (info : List Byte) : Except TypePanic (List ℕ) :=
  rules.foldlM (nftDelTurn info) []

/-- The rules of a chain that `GetRules` returns; a failure is logged, and nothing is deleted. -/
def inspect (answers : Bool) (rules : List CgroupRule) (info : List Byte) :
    Except TypePanic (List ℕ) :=
  if answers then nftDelCgroup2xt rules info else pure []

/-- `DelRule` for each of the handles, and the commit. -/
def delRules (K : Answers) (s : CgroupChains) (handles : List ℕ) : CgroupChains :=
  if handles ≠ [] ∧ K.admits s.requests = true then
    { s with
      mark := s.mark.filter fun r => r.handle ∉ handles
      nat := s.nat.filter fun r => r.handle ∉ handles
      requests := s.requests + 1 }
  else { s with requests := s.requests + 1 }

def resetCgroupV2 (K : Answers) (s : CgroupChains) (cgroup : List Byte) :
    Except TypePanic CgroupChains := do
  let marked ← inspect (K.lists s.requests) s.mark (nftXtCgroupMatch cgroup)
  let masqueraded ← inspect (K.lists (s.requests + 1)) s.nat (nftXtCgroupMatch cgroup)
  return delRules K { s with requests := s.requests + 2 } (marked ++ masqueraded)

/-- A call of the bindings. -/
inductive Call where
  | markV1 (cgroup : BitVec 32)
  | markV2 (cgroup : List Byte)
  | resetV2 (cgroup : List Byte)
  deriving DecidableEq

def step (K : Answers) (s : CgroupChains) : Call → Except TypePanic CgroupChains
  | .markV1 cgroup => return s.markCgroupV1 K cgroup
  | .markV2 cgroup => return s.markCgroupV2 K cgroup
  | .resetV2 cgroup => s.resetCgroupV2 K cgroup

/-! ## What a reset does -/

/-- The reset completes; the rules that marked the group by its path are gone from both chains and
all others are there, in their order. -/
def UndoneExactly (s : CgroupChains) (cgroup : List Byte)
    (result : Except TypePanic CgroupChains) : Prop :=
  ∃ s', result = .ok s' ∧ s'.mark = s.mark.filter (fun r => r.origin ≠ .v2 cgroup) ∧
    s'.nat = s.nat.filter fun r => r.origin ≠ .v2 cgroup

/-- The rules in the chains are for paths, and no other path has the match of this one. -/
def OnlyPaths (s : CgroupChains) (cgroup : List Byte) : Prop :=
  ∀ r ∈ s.mark ++ s.nat, ∃ path, r.origin = .v2 path ∧
    (nftXtCgroupMatch path = nftXtCgroupMatch cgroup → path = cgroup)

/-- Every rule has a handle of its own. -/
structure Numbered (s : CgroupChains) : Prop where
  nodup : ((s.mark ++ s.nat).map CgroupRule.handle).Nodup
  below : ∀ r ∈ s.mark ++ s.nat, r.handle < s.nextHandle

section Reset

variable {K : Answers} {s s' : CgroupChains} {rules : List CgroupRule} {info cgroup : List Byte}

theorem nftDelCgroup2xt_ok (h : ∀ r ∈ rules, ∃ path, r.origin = .v2 path) :
    nftDelCgroup2xt rules info =
      .ok ((rules.filter fun r => r.origin.firstExpr = .xtMatch info).map CgroupRule.handle) := by
  have hfold : ∀ handles, rules.foldlM (nftDelTurn info) handles = .ok (handles ++
      (rules.filter fun r => r.origin.firstExpr = .xtMatch info).map CgroupRule.handle) := by
    induction rules with
    | nil => exact fun handles => congrArg Except.ok (List.append_nil handles).symm
    | cons r rules ih =>
      intro handles
      obtain ⟨⟨path, hpath⟩, hrest⟩ := List.forall_mem_cons.mp h
      have hturn : nftDelTurn info handles r =
          .ok (if nftXtCgroupMatch path = info then handles ++ [r.handle] else handles) := by
        rw [nftDelTurn, hpath]
        rfl
      rw [List.foldlM_cons, hturn]
      show rules.foldlM (nftDelTurn info) _ = _
      rw [ih hrest]
      by_cases hinfo : nftXtCgroupMatch path = info
      · rw [if_pos hinfo, List.filter_cons_of_pos (by simp [hpath, Mark.firstExpr, hinfo]),
          List.map_cons, List.append_assoc, List.singleton_append]
      · rw [if_neg hinfo, List.filter_cons_of_neg (by simp [hpath, Mark.firstExpr, hinfo])]
  exact hfold []

theorem nftDelCgroup2xt_error (h : ∃ r ∈ rules, ∃ cgroup, r.origin = .v1 cgroup) :
    nftDelCgroup2xt rules info = .error .notMatch := by
  have hfold : ∀ handles, rules.foldlM (nftDelTurn info) handles = .error .notMatch := by
    induction rules with
    | nil => simp at h
    | cons r rules ih =>
      intro handles
      rw [List.foldlM_cons]
      cases horigin : r.origin with
      | v1 cgroup =>
        rw [nftDelTurn, horigin]
        rfl
      | v2 path =>
        have hrest : ∃ r ∈ rules, ∃ cgroup, r.origin = .v1 cgroup := by
          obtain ⟨r', hmem, cgroup, hr'⟩ := h
          rcases List.mem_cons.mp hmem with rfl | hmem
          · rw [horigin] at hr'
            simp at hr'
          · exact ⟨r', hmem, cgroup, hr'⟩
        rw [nftDelTurn, horigin]
        exact ih hrest _
  exact hfold []

/-- The kernel deletes the rules by their handles, and these are their own. -/
theorem delRules_filter (hs : Numbered s) (hadmits : K.admits s.requests = true)
    {p : CgroupRule → Prop} [DecidablePred p] :
    (delRules K s ((s.mark.filter fun r => p r).map CgroupRule.handle ++
        (s.nat.filter fun r => p r).map CgroupRule.handle)).mark =
        s.mark.filter (fun r => ¬ p r) ∧
      (delRules K s ((s.mark.filter fun r => p r).map CgroupRule.handle ++
        (s.nat.filter fun r => p r).map CgroupRule.handle)).nat =
        s.nat.filter fun r => ¬ p r := by
  rw [← List.map_append, ← List.filter_append]
  set handles := ((s.mark ++ s.nat).filter fun r => p r).map CgroupRule.handle with hhandles
  have hown : ∀ r ∈ s.mark ++ s.nat, r.handle ∉ handles ↔ ¬ p r := by
    intro r hr
    rw [not_iff_not, hhandles, List.mem_map]
    constructor
    · rintro ⟨r', hr', heq⟩
      obtain ⟨hmem, hp⟩ := List.mem_filter.mp hr'
      obtain rfl : r' = r := List.inj_on_of_nodup_map hs.nodup hmem hr heq
      simpa using hp
    · exact fun hp => ⟨r, List.mem_filter.mpr ⟨hr, by simpa using hp⟩, rfl⟩
  have hmark : s.mark.filter (fun r => r.handle ∉ handles) = s.mark.filter fun r => ¬ p r :=
    List.filter_congr fun r hr => by simp only [hown r (List.mem_append_left _ hr)]
  have hnat : s.nat.filter (fun r => r.handle ∉ handles) = s.nat.filter fun r => ¬ p r :=
    List.filter_congr fun r hr => by simp only [hown r (List.mem_append_right _ hr)]
  rw [← hmark, ← hnat]
  unfold delRules
  split_ifs with hcommit
  · exact ⟨rfl, rfl⟩
  · -- nothing to delete
    have hnone : handles = [] := by
      by_contra hne
      exact hcommit ⟨hne, hadmits⟩
    rw [hnone]
    simp

theorem filter_eq_filter_iff {α : Type*} {p q : α → Prop} [DecidablePred p] [DecidablePred q]
    {l : List α} : l.filter (fun a => p a) = l.filter (fun a => q a) ↔ ∀ a ∈ l, p a ↔ q a := by
  constructor
  · intro h a ha
    have hmem : a ∈ l.filter (fun a => p a) ↔ a ∈ l.filter (fun a => q a) := by rw [h]
    simpa [List.mem_filter, ha] using hmem
  · intro h
    exact List.filter_congr fun a ha => by simp only [h a ha]

theorem undoneExactly_iff (hs : Numbered s) (hmarked : K.lists s.requests = true)
    (hmasqueraded : K.lists (s.requests + 1) = true) (hadmits : K.admits (s.requests + 2) = true) :
    UndoneExactly s cgroup (s.resetCgroupV2 K cgroup) ↔ OnlyPaths s cgroup := by
  unfold resetCgroupV2 inspect
  rw [if_pos hmarked, if_pos hmasqueraded]
  by_cases hpaths : ∀ r ∈ s.mark ++ s.nat, ∃ path, r.origin = .v2 path
  · rw [nftDelCgroup2xt_ok fun r hr => hpaths r (List.mem_append_left _ hr),
      nftDelCgroup2xt_ok fun r hr => hpaths r (List.mem_append_right _ hr)]
    have hnumbered : Numbered { s with requests := s.requests + 2 } := ⟨hs.nodup, hs.below⟩
    obtain ⟨hmark, hnat⟩ := delRules_filter hnumbered hadmits
      (p := fun r => r.origin.firstExpr = .xtMatch (nftXtCgroupMatch cgroup))
    have hresult : UndoneExactly s cgroup (.ok (delRules K { s with requests := s.requests + 2 }
        ((s.mark.filter fun r => r.origin.firstExpr = .xtMatch (nftXtCgroupMatch cgroup)).map
            CgroupRule.handle ++
          (s.nat.filter fun r => r.origin.firstExpr = .xtMatch (nftXtCgroupMatch cgroup)).map
            CgroupRule.handle))) ↔
        ∀ r ∈ s.mark ++ s.nat, ¬ r.origin.firstExpr = .xtMatch (nftXtCgroupMatch cgroup) ↔
          r.origin ≠ .v2 cgroup := by
      rw [List.forall_mem_append, ← filter_eq_filter_iff, ← filter_eq_filter_iff, ← hmark, ← hnat]
      constructor
      · rintro ⟨s', hs', hmark', hnat'⟩
        obtain rfl := Except.ok.inj hs'
        exact ⟨hmark', hnat'⟩
      · rintro ⟨hmark', hnat'⟩
        exact ⟨_, rfl, hmark', hnat'⟩
    refine Iff.trans hresult (forall₂_congr fun r hr => ?_)
    obtain ⟨path, hpath⟩ := hpaths r hr
    rw [hpath]
    simp only [Mark.firstExpr, FirstExpr.xtMatch.injEq, ne_eq, Mark.v2.injEq, not_iff_not]
    constructor
    · exact fun h => ⟨path, rfl, h.mp⟩
    · rintro ⟨path', rfl, h⟩
      exact ⟨h, fun heq => heq ▸ rfl⟩
  · refine iff_of_false ?_ fun hclear => hpaths fun r hr => ?_
    · rintro ⟨s', hs', -⟩
      obtain ⟨marked, hmarkedOk, hs'⟩ := bind_eq_ok.mp hs'
      obtain ⟨masqueraded, hmasqueradedOk, -⟩ := bind_eq_ok.mp hs'
      refine hpaths fun r hr => ?_
      cases horigin : r.origin with
      | v2 path => exact ⟨path, rfl⟩
      | v1 class' =>
        rcases List.mem_append.mp hr with hr | hr
        · rw [nftDelCgroup2xt_error ⟨r, hr, class', horigin⟩] at hmarkedOk
          simp at hmarkedOk
        · rw [nftDelCgroup2xt_error ⟨r, hr, class', horigin⟩] at hmasqueradedOk
          simp at hmasqueradedOk
    · obtain ⟨path, hpath, -⟩ := hclear r hr
      exact ⟨path, hpath⟩

/-- Long paths have the same match when they agree in what is left of them. -/
theorem nftXtCgroupMatch_of_long {p q : List Byte} (hp : 512 ≤ p.length) (hq : 512 ≤ q.length)
    (h : p.take 511 = q.take 511) : nftXtCgroupMatch p = nftXtCgroupMatch q := by
  rw [nftXtCgroupMatch, nftXtCgroupMatch, if_pos hp, if_pos hq, h]

end Reset

/-! ## All runs -/

section Runs

variable {K : Answers} {s s' : CgroupChains}

theorem Numbered.addRules (hs : Numbered s) (origin : Mark) : Numbered (s.addRules K origin) := by
  unfold CgroupChains.addRules
  split_ifs
  · set marked : CgroupRule := ⟨s.nextHandle, origin⟩
    set masqueraded : CgroupRule := ⟨s.nextHandle + 1, origin⟩
    have hperm : ((s.mark ++ [marked]) ++ (s.nat ++ [masqueraded])).Perm
        (marked :: masqueraded :: (s.mark ++ s.nat)) := by
      rw [List.append_assoc, List.singleton_append]
      refine List.perm_middle.trans (List.Perm.cons _ ?_)
      rw [← List.append_assoc]
      exact List.perm_append_singleton _ _
    have hnew : ∀ r ∈ s.mark ++ s.nat, r.handle ≠ s.nextHandle ∧ r.handle ≠ s.nextHandle + 1 :=
      fun r hr => by
        have := hs.below r hr
        omega
    refine ⟨(hperm.map _).nodup_iff.mpr ?_, fun r hr => ?_⟩
    · rw [List.map_cons, List.map_cons, List.nodup_cons, List.nodup_cons]
      refine ⟨?_, ?_, hs.nodup⟩
      · rw [List.mem_cons, not_or]
        refine ⟨(Nat.lt_succ_self s.nextHandle).ne, fun hmem => ?_⟩
        obtain ⟨r, hr, heq⟩ := List.mem_map.mp hmem
        exact (hnew r hr).1 heq
      · intro hmem
        obtain ⟨r, hr, heq⟩ := List.mem_map.mp hmem
        exact (hnew r hr).2 heq
    · show r.handle < s.nextHandle + 2
      rcases List.mem_cons.mp (hperm.mem_iff.mp hr) with rfl | hr
      · show s.nextHandle < s.nextHandle + 2
        omega
      rcases List.mem_cons.mp hr with rfl | hr
      · show s.nextHandle + 1 < s.nextHandle + 2
        omega
      · have := hs.below r hr
        omega
  · exact ⟨hs.nodup, hs.below⟩

theorem Numbered.delRules (hs : Numbered s) (handles : List ℕ) :
    Numbered (delRules K s handles) := by
  unfold CgroupChains.delRules
  split_ifs
  · have hsub : ((s.mark.filter fun r => r.handle ∉ handles) ++
        s.nat.filter fun r => r.handle ∉ handles).Sublist (s.mark ++ s.nat) :=
      List.filter_sublist.append List.filter_sublist
    exact ⟨(hsub.map _).nodup hs.nodup, fun r hr => hs.below r (hsub.subset hr)⟩
  · exact ⟨hs.nodup, hs.below⟩

theorem Numbered.step (hs : Numbered s) {call : Call} (h : s.step K call = .ok s') :
    Numbered s' := by
  cases call with
  | markV1 cgroup =>
    obtain rfl := Except.ok.inj h
    unfold markCgroupV1
    split_ifs
    · exact hs
    · exact hs.addRules _
  | markV2 cgroup =>
    obtain rfl := Except.ok.inj h
    unfold markCgroupV2
    split_ifs
    · exact hs
    · exact hs.addRules _
  | resetV2 cgroup =>
    obtain ⟨marked, -, h⟩ := bind_eq_ok.mp h
    obtain ⟨masqueraded, -, h⟩ := bind_eq_ok.mp h
    obtain rfl := Except.ok.inj h
    have hcounted : Numbered { s with requests := s.requests + 2 } := ⟨hs.nodup, hs.below⟩
    exact hcounted.delRules _

theorem numbered_of_run {fwmark : BitVec 32} {calls : List Call}
    (hrun : calls.foldlM (step K) { fwmark } = .ok s) : Numbered s := by
  have hstart : Numbered { fwmark } := ⟨List.nodup_nil, by simp⟩
  exact foldlM_invariant (fun call _ s s' hs hstep => hs.step hstep) hstart hrun

/-- **Resets.** After any calls that did not panic, a reset of a group to which the kernel answers
completes, removes the rules of that group and leaves all others, exactly when the chains have rules
for paths only and no other path in them has the match of this one. -/
theorem resetCgroupV2_exact_iff (fwmark : BitVec 32) (calls : List Call)
    (hrun : calls.foldlM (step K) { fwmark } = .ok s) (cgroup : List Byte)
    (hmarked : K.lists s.requests = true) (hmasqueraded : K.lists (s.requests + 1) = true)
    (hadmits : K.admits (s.requests + 2) = true) :
    UndoneExactly s cgroup (s.resetCgroupV2 K cgroup) ↔ OnlyPaths s cgroup :=
  undoneExactly_iff (numbered_of_run hrun) hmarked hmasqueraded hadmits

end Runs

/-! ### An instance -/

def allAnswered : Answers := ⟨fun _ => true, fun _ => true⟩

/-- Two groups are marked by their paths, and one of them is reset. -/
theorem reset_of_two_paths :
    ∃ s, [Call.markV2 [0x61#8], .markV2 [0x62#8]].foldlM (step allAnswered)
        { fwmark := 0xca6c#32 } = .ok s ∧
      UndoneExactly s [0x61#8] (s.resetCgroupV2 allAnswered [0x61#8]) := by
  refine ⟨_, rfl, (resetCgroupV2_exact_iff 0xca6c#32 [.markV2 [0x61#8], .markV2 [0x62#8]] rfl
    [0x61#8] rfl rfl rfl).mpr ?_⟩
  have hshort : ∀ b : Byte, b ≠ 0#8 → ∃ path : CgroupPath, path.bytes = [b] ∧
      path.bytes.length < 512 := fun b hb =>
    ⟨⟨[b], by simpa using hb.symm⟩, rfl, by simp⟩
  obtain ⟨a, ha, hlenA⟩ := hshort 0x61#8 (by decide)
  obtain ⟨b, hb, hlenB⟩ := hshort 0x62#8 (by decide)
  have hpaths : ∀ path : List Byte, path = [0x61#8] ∨ path = [0x62#8] →
      nftXtCgroupMatch path = nftXtCgroupMatch [0x61#8] → path = [0x61#8] := by
    rintro path (rfl | rfl) heq
    · rfl
    · rw [← ha, ← hb] at heq
      rw [← ha, ← hb, nftXtCgroupMatch_inj hlenB hlenA heq]
  intro r hr
  rcases hr with _ | ⟨_, _ | ⟨_, _ | ⟨_, _ | ⟨_, ⟨⟩⟩⟩⟩⟩
  · exact ⟨_, rfl, hpaths _ (.inl rfl)⟩
  · exact ⟨_, rfl, hpaths _ (.inr rfl)⟩
  · exact ⟨_, rfl, hpaths _ (.inl rfl)⟩
  · exact ⟨_, rfl, hpaths _ (.inr rfl)⟩

/-- A class was marked before: the reset panics. And two paths agree in their first 511 bytes: the
reset of one removes the rules of the other. -/
theorem reset_disturbed :
    (∃ s, [Call.markV1 7#32, .markV2 [0x61#8]].foldlM (step allAnswered)
        { fwmark := 0xca6c#32 } = .ok s ∧
      ¬ UndoneExactly s [0x61#8] (s.resetCgroupV2 allAnswered [0x61#8])) ∧
    ∃ s, [Call.markV2 (List.replicate 513 0x61#8)].foldlM (step allAnswered)
        { fwmark := 0xca6c#32 } = .ok s ∧
      ¬ UndoneExactly s (List.replicate 512 0x61#8)
        (s.resetCgroupV2 allAnswered (List.replicate 512 0x61#8)) := by
  refine ⟨⟨_, rfl, ?_⟩, ⟨_, rfl, fun hundone => ?_⟩⟩
  · rintro ⟨s', hs', -⟩
    cases hs'
  · have hnumbered := @numbered_of_run allAnswered _ 0xca6c#32
      [.markV2 (List.replicate 513 0x61#8)] rfl
    have hpaths := (undoneExactly_iff hnumbered rfl rfl rfl).mp hundone
    obtain ⟨path, hpath, hsame⟩ := hpaths ⟨0, .v2 (List.replicate 513 0x61#8)⟩ List.mem_cons_self
    obtain rfl : List.replicate 513 0x61#8 = path := Mark.v2.inj hpath
    have hlong : List.replicate 513 0x61#8 = List.replicate 512 (0x61#8 : Byte) :=
      hsame (nftXtCgroupMatch_of_long (by rw [List.length_replicate]; omega)
        (by rw [List.length_replicate]) (by
          rw [List.take_replicate, List.take_replicate, Nat.min_eq_left (by omega),
            Nat.min_eq_left (by omega)]))
    have hlength := congrArg List.length hlong
    rw [List.length_replicate, List.length_replicate] at hlength
    omega

end CgroupChains

end WgDesktop.Netfilter
