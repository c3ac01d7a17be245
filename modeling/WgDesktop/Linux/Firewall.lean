import WgDesktop.Net.IPAddress
import WgDesktop.Linux.Netfilter

/-!
# `LinuxFirewall`

`src/platforms/linux/daemon/linuxfirewall.cpp`, over the netfilter bindings. `up` creates the
tables and fills them one call at a time; `installed_of_up` says what it has installed when it
returns true, and `running_inbound` that marking and clearing servers changes the endpoint sets
and nothing else.
-/

namespace WgDesktop.LinuxFirewall

open Bytes Nft GoNet Netfilter Runs

/-! ## The operations -/

/-- `QString::toLocal8Bit` under a UTF-8 locale. -/
def toLocal8Bit (s : List Char) : List Byte :=
  s.flatMap fun c => (String.utf8EncodeChar c).map UInt8.toBitVec

def down (K : Kernel) : NetfilterM Bool := do
  let s ← get
  if s.isUp then return (← netfilterRemoveTables K) = 0
  else return true

/-- Calls in order, up to the first that does not return zero. -/
def allZero : List (NetfilterM ℤ) → NetfilterM Bool
  | [] => return true
  | m :: ms => do
    if (← m) ≠ 0 then return false
    allZero ms

/-- The part of the device address before the prefix length. -/
def withoutPrefix (address : List Char) : List Char := address.takeWhile fun c => c ≠ '/'

/-- The calls that `up` makes once the tables exist. -/
def upCalls (K : Kernel) (T : HostAddressText) (ifname : List Char) (fwmark : BitVec 32)
    (deviceIpv6Address : List Char) : List (NetfilterM ℤ) :=
  [netfilterApplyFwMark K fwmark,
   netfilterRestrictTraffic K (toLocal8Bit ifname),
   netfilterIsolateIpv6 K (toLocal8Bit ifname) (withoutPrefix deviceIpv6Address)] ++
  (IPAddress.lanAddressRanges T).map (fun p => netfilterAllowPrefix K (p.toString T)) ++
  [netfilterAllowDHCP K, netfilterAllowNDP, netfilterBlockDNS K]

/-- A call that fails leaves through the scope guard, which takes the firewall down. -/
def up (K : Kernel) (T : HostAddressText) (ifname : List Char) (fwmark : BitVec 32)
    (deviceIpv6Address : List Char) : NetfilterM Bool := do
  if (← netfilterCreateTables K) ≠ 0 then return false
  modify fun s => { s with isUp := true }
  if ← allZero (upCalls K T ifname fwmark deviceIpv6Address) then return true
  else
    let _ ← down K
    return false

def markInbound (K : Kernel) (serverAddrIn : List Char) : NetfilterM Bool :=
  return (← netfilterMarkInbound K serverAddrIn) = 0

def clearInbound (K : Kernel) (serverAddrIn : List Char) : NetfilterM Bool :=
  return (← netfilterClearInbound K serverAddrIn) = 0

/-- Calls that a server change makes. -/
inductive InboundCall where
  | mark (ipaddr : List Char)
  | clear (ipaddr : List Char)
  deriving DecidableEq, Repr

def InboundCall.run (K : Kernel) : InboundCall → NetfilterM ℤ
  | mark ipaddr => netfilterMarkInbound K ipaddr
  | clear ipaddr => netfilterClearInbound K ipaddr

/-- The state that a call leaves, whatever it returns. -/
def inboundStep (K : Kernel) (s : State) (c : InboundCall) : State := (exec (c.run K) s).2

/-! ## What is installed -/

/-- The table holds the chains of the bindings with `rules` appended to them and the sets `sets`,
and the rules of `queued` wait for the next commit. -/
structure Installing (sets : String → Option NamedSet) (rules queued : Additions) (s : State) :
    Prop where
  pending : s.pending = queued.messages table
  chains : ∃ tb, s.ruleset table = some tb ∧ List.Forall₂ (Grown rules) chains tb.chains ∧
    tb.sets = sets

abbrev Installed (sets : String → Option NamedSet) (rules : Additions) : State → Prop :=
  Installing sets rules []

/-- The two address sets are there. -/
structure AddressSets (sets : String → Option NamedSet) : Prop where
  addrset : (sets addrset).map NamedSet.keyLength = some 4
  addrset6 : (sets addrset6).map NamedSet.keyLength = some 16

/-- The firewall is up with these rules, whatever servers are marked. -/
def Running (rules : Additions) (s : State) : Prop :=
  ∃ sets, Installed sets rules s ∧ AddressSets sets

/-- There is no table of ours and nothing waits: the state in which the constructor and `down`
leave the firewall. -/
structure Fresh (s : State) : Prop where
  pending : s.pending = []
  ruleset : s.ruleset table = none

/-! ## The queue -/

section Queue

variable {K : Kernel} {sets : String → Option NamedSet} {rules queued new : Additions}
  {s s' : State}

@[simp] theorem exec_queue (msgs : List Message) (s : State) :
    exec (queue msgs) s = (.ok (), { s with pending := s.pending ++ msgs }) := rfl

@[simp] theorem exec_addRules (new : Additions) (s : State) :
    exec (addRules new) s = (.ok (), { s with pending := s.pending ++ new.messages table }) := rfl

theorem exec_nftCommit (K : Kernel) (s : State) : exec (nftCommit K) s =
    (.ok (if (flush K s).isSome then 0 else -1),
      { s with
        pending := []
        ruleset := (flush K s).getD s.ruleset
        requests := s.requests + 1 }) := rfl

theorem applyAll_of_flush {rs : Ruleset} (h : flush K s = some rs) :
    s.ruleset.applyAll s.pending = some rs := by
  unfold flush at h
  split_ifs at h with hpending hadmits
  · rw [hpending, ← h]
    rfl
  · exact h

theorem applyAll_of_nftCommit (h : exec (nftCommit K) s = (.ok 0, s')) :
    s.ruleset.applyAll s.pending = some s'.ruleset ∧ s'.pending = [] ∧ s'.fwmark = s.fwmark := by
  rw [exec_nftCommit, Prod.mk.injEq] at h
  obtain ⟨hzero, rfl⟩ := h
  cases hflush : flush K s with
  | none => simp [hflush] at hzero
  | some rs => exact ⟨applyAll_of_flush hflush, rfl, rfl⟩

theorem Installing.addRules (h : Installing sets rules queued s) (new : Additions) :
    Installing sets rules (queued ++ new) { s with pending := s.pending ++ new.messages table } :=
  ⟨by rw [Additions.messages_append, ← h.pending], h.chains⟩

theorem Installing.nftCommit (h : Installing sets rules queued s)
    (hexec : exec (nftCommit K) s = (.ok 0, s')) :
    Installed sets (rules ++ queued) s' ∧ s'.fwmark = s.fwmark := by
  obtain ⟨happly, hpending, hmark⟩ := applyAll_of_nftCommit hexec
  obtain ⟨tb, htb, hgrown, hsets⟩ := h.chains
  rw [h.pending] at happly
  obtain ⟨tb', htb', hsets', hgrown'⟩ := grown_of_rules htb happly
  exact ⟨⟨hpending, tb', htb', grown_forall₂_trans hgrown hgrown', hsets'.trans hsets⟩, hmark⟩

theorem Installing.addRules_nftCommit (h : Installing sets rules queued s)
    (hexec : exec (do Netfilter.addRules new; Netfilter.nftCommit K) s = (.ok 0, s')) :
    Installed sets (rules ++ (queued ++ new)) s' ∧ s'.fwmark = s.fwmark := by
  rw [exec_bind_ok (exec_addRules new s)] at hexec
  exact (h.addRules new).nftCommit hexec

end Queue

/-! ## Creating and removing the tables -/

section Up

variable {K : Kernel} {T : HostAddressText} {sets : String → Option NamedSet} {rules : Additions}
  {s s' : State}

/-- The constructor and `down` remove the tables: what a later `up` starts from. -/
theorem fresh_of_removeTables (hs : s.pending = [])
    (h : exec (netfilterRemoveTables K) s = (.ok 0, s')) : Fresh s' := by
  rw [netfilterRemoveTables, exec_bind_ok (exec_get s), exec_bind_ok (exec_modify _ s)] at h
  by_cases hlists : K.lists s.requests
  · rw [if_pos hlists, exec_bind_ok (exec_queue _ _)] at h
    obtain ⟨happly, hpending, -⟩ := applyAll_of_nftCommit h
    simp only [hs, List.nil_append] at happly
    refine ⟨hpending, ?_⟩
    rw [applyAll_delTables happly]
    by_cases hsome : (s.ruleset table).isSome
    · rw [if_pos]
      simp only [List.mem_filter, List.mem_map]
      exact ⟨⟨.inet, by decide, rfl⟩, hsome⟩
    · rw [if_neg (by simp [hsome]), Option.not_isSome_iff_eq_none.mp hsome]
  · rw [if_neg hlists] at h
    simp at h

/-- The table after its creation. -/
def createdTable : Table :=
  ⟨chains, Function.update (Function.update (fun _ => none) addrset (some ⟨4, []⟩)) addrset6
    (some ⟨16, []⟩), 0⟩

theorem applyAll_create {rs : Ruleset} (h : rs table = none) :
    rs.applyAll ([.newTable table] ++ chains.map (.newChain table) ++ [.newSet table addrset 4] ++
      [.newSet table addrset6 16]) = some (Function.update rs table (some createdTable)) := by
  have hset : (Function.update (fun _ : String => (none : Option NamedSet)) addrset
      (some ⟨4, []⟩)) addrset6 = none := by decide
  simp [Ruleset.applyAll, Ruleset.apply, Ruleset.modify, h, chains, Table.addChain, Table.hasChain,
    Table.addSet, Table.empty, createdTable, hset, cgroupMark, cgroupNat, conntrack, preroute,
    input, output]

theorem installed_of_createTables (hs : Fresh s)
    (h : exec (netfilterCreateTables K) s = (.ok 0, s')) : Installed createdTable.sets [] s' := by
  obtain ⟨happly, hpending, -⟩ := applyAll_of_nftCommit (K := K) (s := { s with
    pending := s.pending ++ [.newTable table] ++ chains.map (.newChain table) ++
      [.newSet table addrset 4] ++ [.newSet table addrset6 16] }) h
  simp only [hs.pending, List.nil_append] at happly
  rw [applyAll_create hs.ruleset] at happly
  have hrs := Option.some.inj happly
  refine ⟨hpending, createdTable, by rw [← hrs, Function.update_self], ?_, rfl⟩
  exact List.forall₂_same.mpr fun c _ => Grown.refl c

/-! ## The calls -/

theorem allZero_cons {m : NetfilterM ℤ} {ms : List (NetfilterM ℤ)}
    (h : exec (allZero (m :: ms)) s = (.ok true, s')) :
    ∃ mid, exec m s = (.ok 0, mid) ∧ exec (allZero ms) mid = (.ok true, s') := by
  rw [allZero, exec_bind] at h
  rcases hm : exec m s with ⟨r, mid⟩
  rw [hm] at h
  cases r with
  | error e => simp at h
  | ok r =>
    by_cases hr : r = 0
    · subst hr
      exact ⟨mid, rfl, h⟩
    · simp [hr] at h

theorem allZero_append {ms ms' : List (NetfilterM ℤ)}
    (h : exec (allZero (ms ++ ms')) s = (.ok true, s')) :
    ∃ mid, exec (allZero ms) s = (.ok true, mid) ∧ exec (allZero ms') mid = (.ok true, s') := by
  induction ms generalizing s with
  | nil => exact ⟨s, rfl, h⟩
  | cons m ms ih =>
    obtain ⟨s₁, hm, hrest⟩ := allZero_cons h
    obtain ⟨mid, hms, hms'⟩ := ih hrest
    refine ⟨mid, ?_, hms'⟩
    rw [allZero, exec_bind_ok hm]
    exact hms

theorem Installing.applyFwMark {fwmark : BitVec 32} (h : Installed sets rules s)
    (hexec : exec (netfilterApplyFwMark K fwmark) s = (.ok 0, s')) :
    Installed sets (rules ++ nftApplyFwMark K.endian fwmark) s' ∧ s'.fwmark = fwmark := by
  rw [netfilterApplyFwMark, exec_bind_ok (exec_modify _ s)] at hexec
  by_cases hzero : fwmark = 0#32
  · simp [hzero] at hexec
  · rw [if_neg hzero] at hexec
    have hset : Installed sets rules { s with fwmark := fwmark } := ⟨h.pending, h.chains⟩
    exact hset.addRules_nftCommit hexec

theorem Installing.restrictTraffic {ifname : List Byte} (h : Installed sets rules s)
    (hexec : exec (netfilterRestrictTraffic K ifname) s = (.ok 0, s')) :
    Installed sets (rules ++ nftRestrictTraffic K.endian s.fwmark ifname) s' ∧
      s'.fwmark = s.fwmark := by
  rw [netfilterRestrictTraffic, exec_bind_ok (exec_get s)] at hexec
  exact h.addRules_nftCommit hexec

/-- The network of a prefix, as Go holds it. -/
def ipNet (p : IPAddress) : IPNet :=
  match p.address with
  | .null => ⟨[], []⟩
  | .ipv4 a => ⟨toBytes a, cidrMask 4 p.prefixLength.toNat⟩
  | .ipv6 a _ => ⟨toBytes a, cidrMask 16 p.prefixLength.toNat⟩

theorem Installing.allowPrefixes {ps : List IPAddress} (h : Installed sets rules s)
    (hps : ∀ p ∈ ps, parseCIDR (p.toString T) = some (ipNet p))
    (hexec : exec (allZero (ps.map fun p => netfilterAllowPrefix K (p.toString T))) s =
      (.ok true, s')) :
    Installed sets (rules ++ ps.flatMap fun p => allowPrefixRules (ipNet p)) s' ∧
      s'.fwmark = s.fwmark := by
  induction ps generalizing rules s with
  | nil =>
    obtain ⟨-, rfl⟩ := Prod.mk.inj hexec
    simpa using h
  | cons p ps ih =>
    obtain ⟨hp, hps⟩ := List.forall_mem_cons.mp hps
    obtain ⟨mid, hallow, hrest⟩ := allZero_cons hexec
    simp only [netfilterAllowPrefix, hp] at hallow
    obtain ⟨hmid, hmark⟩ := h.addRules_nftCommit hallow
    obtain ⟨hfinal, hmark'⟩ := ih hmid hps hrest
    rw [List.nil_append, List.append_assoc] at hfinal
    exact ⟨hfinal, hmark'.trans hmark⟩

/-- The messages that neighbour discovery may send, and where to. -/
def routerSolicitation : IPAddress := ⟨.ipv6 0xff020000000000000000000000000002#128 [], 128⟩
def solicitedNode : IPAddress := ⟨.ipv6 0xff0200000000000000000001ff000000#128 [], 104⟩
def linkLocal : IPAddress := ⟨.ipv6 0xfe800000000000000000000000000000#128 [], 10⟩

def ndpRules : Additions :=
  [(output, ndpRule (ipNet routerSolicitation) 133#8),
    (output, ndpRule (ipNet solicitedNode) 135#8)] ++ linkLocalNdpRules (ipNet linkLocal)

theorem exec_allowNDP (s : State) : exec netfilterAllowNDP s =
    (.ok 0, { s with pending := s.pending ++ ndpRules.messages table }) := by
  have h₁ : parseCIDR routerSolicitationOutDstAddr = some (ipNet routerSolicitation) := by
    decide +kernel
  have h₂ : parseCIDR solicitedNodeMulticast = some (ipNet solicitedNode) := by decide +kernel
  have h₃ : parseCIDR ipv6LinkLocal = some (ipNet linkLocal) := by decide +kernel
  unfold netfilterAllowNDP
  simp only [h₁, h₂, h₃, exec_bind, exec_addRules, exec_pure]
  simp [ndpRules, Additions.messages]

/-! ## The whole of `up` -/

/-- The rules that `up` installs, in the order of its calls. -/
def upRules (e : Endian) (lan : List IPAddress) (ifname : List Byte) (fwmark : BitVec 32)
    (ipv6addr : List Char) : Additions :=
  nftApplyFwMark e fwmark ++ nftRestrictTraffic e fwmark ifname ++
    isolateIpv6Rules e ifname ipv6addr ++ (lan.flatMap fun p => allowPrefixRules (ipNet p)) ++
    allowDHCPRules ++ (ndpRules ++ blockDNSRules)

theorem parseCIDR_lan (hT : IPAddress.ReadsLan T) :
    ∀ p ∈ IPAddress.lanAddressRanges T, parseCIDR (p.toString T) = some (ipNet p) := by
  have htext : ∀ e ∈ IPAddress.lanNetworks, parseCIDR e.2.1.toList = some (ipNet e.2.2) := by
    decide +kernel
  rw [IPAddress.lanAddressRanges_eq hT]
  intro p hp
  obtain ⟨e, he, rfl⟩ := List.mem_map.mp hp
  rw [IPAddress.toString_of_mem_lanNetworks hT he, htext e he]

theorem calls_of_up {ifname addr : List Char} {fwmark : BitVec 32}
    (h : exec (up K T ifname fwmark addr) s = (.ok true, s')) :
    ∃ s₀, exec (netfilterCreateTables K) s = (.ok 0, s₀) ∧
      exec (allZero (upCalls K T ifname fwmark addr)) { s₀ with isUp := true } =
        (.ok true, s') := by
  rw [up, exec_bind] at h
  rcases hcreate : exec (netfilterCreateTables K) s with ⟨r, s₀⟩
  rw [hcreate] at h
  cases r with
  | error e => simp at h
  | ok r =>
    by_cases hr : r = 0
    · subst hr
      refine ⟨s₀, rfl, ?_⟩
      simp only [ne_eq, not_true_eq_false, if_false, exec_bind, exec_modify] at h
      rcases hcalls : exec (allZero (upCalls K T ifname fwmark addr)) { s₀ with isUp := true }
        with ⟨a, s₁⟩
      rw [hcalls] at h
      cases a with
      | error e => simp at h
      | ok a =>
        cases a with
        | true => exact h
        | false =>
          -- the scope guard ran, and `up` returned false
          simp only [Bool.false_eq_true, if_false, exec_bind] at h
          split at h <;> simp at h
    · simp [hr] at h

/-- **The installed rules.** When `up` returns true, it has installed all of its rules. -/
theorem installed_of_up (hT : IPAddress.ReadsLan T) (hs : Fresh s) {ifname addr : List Char}
    {fwmark : BitVec 32} (h : exec (up K T ifname fwmark addr) s = (.ok true, s')) :
    Installed createdTable.sets (upRules K.endian (IPAddress.lanAddressRanges T)
      (toLocal8Bit ifname) fwmark (withoutPrefix addr)) s' := by
  obtain ⟨s₀, hcreate, hcalls⟩ := calls_of_up h
  have hcreated := installed_of_createTables hs hcreate
  have hstart : Installed createdTable.sets [] { s₀ with isUp := true } :=
    ⟨hcreated.pending, hcreated.chains⟩
  obtain ⟨s₄, hfirst, hlast⟩ := allZero_append hcalls
  obtain ⟨s₃, hhead, hlan⟩ := allZero_append hfirst
  obtain ⟨s₁, hmark, hhead⟩ := allZero_cons hhead
  obtain ⟨s₂, hrestrict, hhead⟩ := allZero_cons hhead
  obtain ⟨s₃', hisolate, hnil⟩ := allZero_cons hhead
  obtain ⟨-, rfl⟩ := Prod.mk.inj hnil
  obtain ⟨s₅, hdhcp, hlast⟩ := allZero_cons hlast
  obtain ⟨s₆, hndp, hlast⟩ := allZero_cons hlast
  obtain ⟨s₇, hdns, hnil⟩ := allZero_cons hlast
  obtain ⟨-, rfl⟩ := Prod.mk.inj hnil
  obtain ⟨h₁, hfw⟩ := hstart.applyFwMark hmark
  obtain ⟨h₂, -⟩ := h₁.restrictTraffic hrestrict
  obtain ⟨h₃, -⟩ := h₂.addRules_nftCommit hisolate
  obtain ⟨h₄, -⟩ := h₃.allowPrefixes (parseCIDR_lan hT) hlan
  obtain ⟨h₅, -⟩ := h₄.addRules_nftCommit hdhcp
  rw [exec_allowNDP] at hndp
  obtain ⟨-, rfl⟩ := Prod.mk.inj hndp
  obtain ⟨h₇, -⟩ := (h₅.addRules ndpRules).addRules_nftCommit hdns
  simpa [upRules, hfw] using h₇

theorem addressSets_createdTable : AddressSets createdTable.sets := ⟨rfl, rfl⟩

theorem running_of_up (hT : IPAddress.ReadsLan T) (hs : Fresh s) {ifname addr : List Char}
    {fwmark : BitVec 32} (h : exec (up K T ifname fwmark addr) s = (.ok true, s')) :
    Running (upRules K.endian (IPAddress.lanAddressRanges T) (toLocal8Bit ifname) fwmark
      (withoutPrefix addr)) s' :=
  ⟨_, installed_of_up hT hs h, addressSets_createdTable⟩

/-! ## A kernel that takes every batch -/

/-- The kernel refuses nothing that names what exists. -/
def Willing (K : Kernel) : Prop := ∀ n rs msgs, K.admits n rs msgs = true

/-- Every rule is for one of the chains. -/
def Addressed (rules : Additions) : Prop := ∀ r ∈ rules, r.1 ∈ chains.map Chain.name

theorem exists_nftCommit (hK : Willing K) (h : (s.ruleset.applyAll s.pending).isSome = true) :
    ∃ s', exec (nftCommit K) s = (.ok 0, s') := by
  have hflush : (flush K s).isSome = true := by
    unfold flush
    split_ifs with hpending hadmits
    · rfl
    · exact h
    · exact absurd (hK _ _ _) hadmits
  exact ⟨_, by rw [exec_nftCommit, hflush, if_pos rfl]⟩

theorem exists_createTables (hK : Willing K) (hs : Fresh s) :
    ∃ s', exec (netfilterCreateTables K) s = (.ok 0, s') := by
  refine exists_nftCommit hK ?_
  change (s.ruleset.applyAll (s.pending ++ [.newTable table] ++ chains.map (.newChain table) ++
    [.newSet table addrset 4] ++ [.newSet table addrset6 16])).isSome = true
  rw [hs.pending, List.nil_append, applyAll_create hs.ruleset]
  rfl

theorem Installing.exists_nftCommit {queued : Additions} (hK : Willing K)
    (h : Installing sets rules queued s) (hq : Addressed queued) :
    ∃ s', exec (Netfilter.nftCommit K) s = (.ok 0, s') := by
  obtain ⟨hpending, tb, htb, hgrown, -⟩ := h
  refine LinuxFirewall.exists_nftCommit hK ?_
  rw [hpending]
  refine applyAll_rules_isSome htb fun r hr => ?_
  obtain ⟨c, hc, hname⟩ := List.mem_map.mp (hq r hr)
  rw [← hname]
  exact hasChain_of_grown hgrown hc

theorem Installing.exists_addRules_nftCommit {new : Additions} (hK : Willing K)
    {queued : Additions} (h : Installing sets rules queued s) (hq : Addressed (queued ++ new)) :
    ∃ s', exec (do Netfilter.addRules new; Netfilter.nftCommit K) s = (.ok 0, s') := by
  rw [exec_bind_ok (exec_addRules new s)]
  exact (h.addRules new).exists_nftCommit hK hq

theorem allZero_of_cons {m : NetfilterM ℤ} {ms : List (NetfilterM ℤ)} {mid : State}
    (hm : exec m s = (.ok 0, mid)) (h : exec (allZero ms) mid = (.ok true, s')) :
    exec (allZero (m :: ms)) s = (.ok true, s') := by
  rw [allZero, exec_bind_ok hm]
  exact h

theorem allZero_of_append {ms ms' : List (NetfilterM ℤ)} {mid : State}
    (hms : exec (allZero ms) s = (.ok true, mid)) (h : exec (allZero ms') mid = (.ok true, s')) :
    exec (allZero (ms ++ ms')) s = (.ok true, s') := by
  induction ms generalizing s with
  | nil =>
    obtain ⟨-, rfl⟩ := Prod.mk.inj hms
    exact h
  | cons m ms ih =>
    obtain ⟨s₁, hm, hrest⟩ := allZero_cons hms
    exact allZero_of_cons hm (ih hrest)

theorem Installing.exists_allowPrefixes {ps : List IPAddress} (hK : Willing K)
    (h : Installed sets rules s) (hps : ∀ p ∈ ps, parseCIDR (p.toString T) = some (ipNet p)) :
    ∃ s', exec (allZero (ps.map fun p => netfilterAllowPrefix K (p.toString T))) s =
      (.ok true, s') := by
  induction ps generalizing rules s with
  | nil => exact ⟨s, rfl⟩
  | cons p ps ih =>
    obtain ⟨hp, hps⟩ := List.forall_mem_cons.mp hps
    have hq : Addressed ([] ++ allowPrefixRules (ipNet p)) := by
      simp [Addressed, allowPrefixRules, Netfilter.chains]
    obtain ⟨mid, hmid⟩ := h.exists_addRules_nftCommit hK hq
    obtain ⟨s', hs'⟩ := ih (h.addRules_nftCommit hmid).1 hps
    refine ⟨s', allZero_of_cons ?_ hs'⟩
    simp only [netfilterAllowPrefix, hp]
    exact hmid

/-- **Progress.** With a kernel that takes every batch and a mark, `up` succeeds. -/
theorem exists_up (hT : IPAddress.ReadsLan T) (hK : Willing K) (hs : Fresh s)
    (ifname addr : List Char) {fwmark : BitVec 32} (hmark : fwmark ≠ 0#32) :
    ∃ s', exec (up K T ifname fwmark addr) s = (.ok true, s') := by
  obtain ⟨s₀, hcreate⟩ := exists_createTables hK hs
  have hcreated := installed_of_createTables hs hcreate
  have h₀ : Installed createdTable.sets [] { s₀ with isUp := true } :=
    ⟨hcreated.pending, hcreated.chains⟩
  have hmarked : Installed createdTable.sets [] { s₀ with isUp := true, fwmark := fwmark } :=
    ⟨h₀.pending, h₀.chains⟩
  obtain ⟨s₁, h₁⟩ := hmarked.exists_addRules_nftCommit hK
    (show Addressed ([] ++ nftApplyFwMark K.endian fwmark) by
      simp [Addressed, nftApplyFwMark, Netfilter.chains])
  have happly : exec (netfilterApplyFwMark K fwmark) { s₀ with isUp := true } = (.ok 0, s₁) := by
    rw [netfilterApplyFwMark, exec_bind_ok (exec_modify _ _), if_neg hmark]
    exact h₁
  obtain ⟨i₁, -⟩ := h₀.applyFwMark happly
  obtain ⟨s₂, h₂⟩ := i₁.exists_addRules_nftCommit hK
    (show Addressed ([] ++ nftRestrictTraffic K.endian s₁.fwmark (toLocal8Bit ifname)) by
      simp [Addressed, nftRestrictTraffic, Netfilter.chains])
  obtain ⟨i₂, -⟩ := i₁.addRules_nftCommit h₂
  obtain ⟨s₃, h₃⟩ := i₂.exists_addRules_nftCommit hK
    (show Addressed ([] ++ isolateIpv6Rules K.endian (toLocal8Bit ifname) (withoutPrefix addr)) by
      simp [Addressed, isolateIpv6Rules, Netfilter.chains])
  obtain ⟨i₃, -⟩ := i₂.addRules_nftCommit h₃
  obtain ⟨s₄, h₄⟩ := i₃.exists_allowPrefixes hK (parseCIDR_lan hT)
  obtain ⟨i₄, -⟩ := i₃.allowPrefixes (parseCIDR_lan hT) h₄
  obtain ⟨s₅, h₅⟩ := i₄.exists_addRules_nftCommit hK
    (show Addressed ([] ++ allowDHCPRules) by simp [Addressed, allowDHCPRules, Netfilter.chains])
  obtain ⟨i₅, -⟩ := i₄.addRules_nftCommit h₅
  obtain ⟨s₇, h₇⟩ := (i₅.addRules ndpRules).exists_addRules_nftCommit hK
    (show Addressed ([] ++ ndpRules ++ blockDNSRules) by
      simp [Addressed, ndpRules, linkLocalNdpRules, blockDNSRules, Netfilter.chains])
  have hcalls : exec (allZero (upCalls K T ifname fwmark addr)) { s₀ with isUp := true } =
      (.ok true, s₇) :=
    allZero_of_append
      (allZero_of_append
        (allZero_of_cons happly (allZero_of_cons h₂ (allZero_of_cons h₃ rfl))) h₄)
      (allZero_of_cons h₅ (allZero_of_cons (exec_allowNDP _) (allZero_of_cons h₇ rfl)))
  refine ⟨s₇, ?_⟩
  rw [up, exec_bind_ok hcreate]
  simp only [ne_eq, not_true_eq_false, if_false, exec_bind, exec_modify, hcalls]
  rfl

/-- The texts of the local ranges. -/
def lanText : HostAddressText :=
  .ofTable (IPAddress.lanNetworks.map fun e => (e.1.toList, e.2.2.address))
    (IPAddress.lanNetworks.map fun e => (e.2.1.toList, e.2.2.address, e.2.2.prefixLength))

/-- A kernel that takes every batch. -/
def willing : Kernel := ⟨.little, fun _ => true, fun _ _ _ => true⟩

def quiet : State := ⟨0#32, [], fun _ => none, 0, false⟩

theorem readsLan_lanText : IPAddress.ReadsLan lanText := by
  unfold IPAddress.ReadsLan
  decide +kernel

theorem fresh_quiet : Fresh quiet := ⟨rfl, rfl⟩

theorem willing_willing : Willing willing := fun _ _ _ => rfl

theorem exists_up_quiet :
    ∃ s, exec (up willing lanText "moz0".toList 0xca6c#32 "fd00::2/128".toList) quiet =
      (.ok true, s) :=
  exists_up readsLan_lanText willing_willing fresh_quiet _ _ (by decide)

end Up

/-! ## Marking and clearing servers -/

section Inbound

variable {K : Kernel} {rules : Additions} {s s' : State}

/-- The endpoint sets hold an address when the set of its family does. -/
def endpoints (s : State) : QHostAddress → Prop
  | .null => False
  | .ipv4 a => ∃ tb, s.ruleset table = some tb ∧ toBytes a ∈ tb.elements addrset
  | .ipv6 a _ => ∃ tb, s.ruleset table = some tb ∧ toBytes a ∈ tb.elements addrset6

/-- After `up` the sets are empty. -/
theorem elements_of_up {T : HostAddressText} (hT : IPAddress.ReadsLan T) (hs : Fresh s)
    {ifname addr : List Char} {fwmark : BitVec 32}
    (hup : exec (up K T ifname fwmark addr) s = (.ok true, s')) :
    ∃ tb, s'.ruleset table = some tb ∧ ∀ n, tb.elements n = [] := by
  obtain ⟨tb, htb, -, hsets⟩ := (installed_of_up hT hs hup).chains
  refine ⟨tb, htb, fun n => ?_⟩
  rw [Nft.Table.elements, hsets]
  by_cases h6 : n = addrset6
  · simp [createdTable, h6]
  · by_cases h4 : n = addrset
    · simp [createdTable, h4, show addrset ≠ addrset6 by decide]
    · simp [createdTable, h4, h6]

theorem not_endpoints_of_up {T : HostAddressText} (hT : IPAddress.ReadsLan T) (hs : Fresh s)
    {ifname addr : List Char} {fwmark : BitVec 32}
    (hup : exec (up K T ifname fwmark addr) s = (.ok true, s')) (a : QHostAddress) :
    ¬endpoints s' a := by
  obtain ⟨tb, htb, hempty⟩ := elements_of_up hT hs hup
  cases a with
  | null => exact id
  | ipv4 a => simp [endpoints, htb, hempty]
  | ipv6 a scope => simp [endpoints, htb, hempty]

/-- One message on a quiet connection: the kernel's answer, and the state it leaves. -/
def answer (K : Kernel) (s : State) (msg : Message) : Option Ruleset :=
  if K.admits s.requests s.ruleset [msg] then s.ruleset.apply msg else none

theorem exec_message (hs : s.pending = []) (msg : Message) :
    exec (do queue [msg]; nftCommit K) s =
      (.ok (if (answer K s msg).isSome then 0 else -1),
        { s with
          ruleset := (answer K s msg).getD s.ruleset
          requests := s.requests + 1 }) := by
  have hflush : flush K { s with pending := s.pending ++ [msg] } = answer K s msg := by
    simp [flush, answer, hs, Ruleset.applyAll]
  rw [exec_bind_ok (exec_queue [msg] s), exec_nftCommit, hflush, ← hs]

/-- The message that an inbound call sends, if the address is one. -/
def InboundCall.message : InboundCall → Option Message
  | mark ipaddr =>
    (parseIP ipaddr).map fun ip => .newSetElem table (addressKey ip).1 (addressKey ip).2
  | clear ipaddr =>
    (parseIP ipaddr).map fun ip => .delSetElem table (addressKey ip).1 (addressKey ip).2

theorem InboundCall.exec_run_none {c : InboundCall} (hc : c.message = none) (s : State) :
    exec (c.run K) s = (.ok (-1), s) := by
  cases c with
  | mark ipaddr =>
    have hip : parseIP ipaddr = none := Option.map_eq_none_iff.mp hc
    simp only [run, netfilterMarkInbound, hip, exec_pure]
  | clear ipaddr =>
    have hip : parseIP ipaddr = none := Option.map_eq_none_iff.mp hc
    simp only [run, netfilterClearInbound, hip, exec_pure]

theorem InboundCall.exec_run_some {c : InboundCall} {msg : Message} (hc : c.message = some msg)
    (hs : s.pending = []) :
    exec (c.run K) s =
      (.ok (if (answer K s msg).isSome then 0 else -1),
        { s with
          ruleset := (answer K s msg).getD s.ruleset
          requests := s.requests + 1 }) := by
  rw [← exec_message hs]
  cases c with
  | mark ipaddr =>
    obtain ⟨ip, hip, rfl⟩ := Option.map_eq_some_iff.mp hc
    simp only [run, netfilterMarkInbound, hip]
  | clear ipaddr =>
    obtain ⟨ip, hip, rfl⟩ := Option.map_eq_some_iff.mp hc
    simp only [run, netfilterClearInbound, hip]

/-- A message that an inbound call sends changes the elements of the sets only. -/
theorem InboundCall.sameShape {c : InboundCall} {msg : Message} (hc : c.message = some msg)
    {rs rs' : Ruleset} {tb : Table} (htb : rs table = some tb) (h : rs.apply msg = some rs') :
    ∃ tb', rs' table = some tb' ∧ SameShape tb tb' := by
  cases c with
  | mark ipaddr =>
    obtain ⟨ip, -, rfl⟩ := Option.map_eq_some_iff.mp hc
    simp only [Ruleset.apply, Ruleset.modify, htb] at h
    obtain ⟨tb', htb', rfl⟩ := Option.map_eq_some_iff.mp h
    exact ⟨tb', by simp, (addElement_spec htb').1⟩
  | clear ipaddr =>
    obtain ⟨ip, -, rfl⟩ := Option.map_eq_some_iff.mp hc
    simp only [Ruleset.apply, Ruleset.modify, htb] at h
    obtain ⟨tb', htb', rfl⟩ := Option.map_eq_some_iff.mp h
    exact ⟨tb', by simp, (delElement_spec htb').1⟩

/-- **The rules stay.** Marking and clearing servers leaves the installed rules alone. -/
theorem running_inboundStep (h : Running rules s) (c : InboundCall) :
    Running rules (inboundStep K s c) := by
  obtain ⟨sets, hinst, hsets⟩ := h
  unfold inboundStep
  cases hc : c.message with
  | none =>
    rw [c.exec_run_none hc]
    exact ⟨sets, hinst, hsets⟩
  | some msg =>
    rw [c.exec_run_some hc hinst.pending]
    cases ha : answer K s msg with
    | none => exact ⟨sets, ⟨hinst.pending, hinst.chains⟩, hsets⟩
    | some rs =>
      obtain ⟨tb, htb, hgrown, rfl⟩ := hinst.chains
      unfold answer at ha
      split_ifs at ha
      obtain ⟨tb', htb', hshape⟩ := c.sameShape hc htb ha
      refine ⟨tb'.sets, ⟨hinst.pending, tb', htb', hshape.chains ▸ hgrown, rfl⟩, ?_, ?_⟩
      · rw [hshape.keyLength, hsets.addrset]
      · rw [hshape.keyLength, hsets.addrset6]

theorem running_inbound (h : Running rules s) (calls : List InboundCall) :
    Running rules (calls.foldl (inboundStep K) s) := by
  have hstep : ∀ s c, Running rules s → Running rules (inboundStep K s c) :=
    fun _ c hs => running_inboundStep hs c
  exact foldl_invariant hstep h calls

/-- The keys of the address sets, with the set each is in. -/
def elementKeys (s : State) : Set (String × List Byte) :=
  { e | ∃ tb, s.ruleset table = some tb ∧ e.2 ∈ tb.elements e.1 }

theorem addressKey_of_mapped {ip : List Byte} (h : ip.length = 16)
    (hmapped : ip.take 12 = v4InV6Prefix) : addressKey ip = (addrset, ip.drop 12) := by
  simp [addressKey, to4, h, hmapped]

theorem addressKey_of_not_mapped {ip : List Byte} (h : ip.length = 16)
    (hmapped : ip.take 12 ≠ v4InV6Prefix) : addressKey ip = (addrset6, ip) := by
  simp [addressKey, to4, to16, h, hmapped]

theorem addressKey_injOn : Set.InjOn addressKey { ip | ip.length = 16 } := by
  intro ip hip ip' hip' h
  by_cases hm : ip.take 12 = v4InV6Prefix
  · by_cases hm' : ip'.take 12 = v4InV6Prefix
    · rw [addressKey_of_mapped hip hm, addressKey_of_mapped hip' hm', Prod.mk.injEq] at h
      rw [← List.take_append_drop 12 ip, ← List.take_append_drop 12 ip', hm, hm', h.2]
    · rw [addressKey_of_mapped hip hm, addressKey_of_not_mapped hip' hm', Prod.mk.injEq] at h
      exact absurd h.1 (by decide)
  · by_cases hm' : ip'.take 12 = v4InV6Prefix
    · rw [addressKey_of_not_mapped hip hm, addressKey_of_mapped hip' hm', Prod.mk.injEq] at h
      exact absurd h.1 (by decide)
    · rw [addressKey_of_not_mapped hip hm, addressKey_of_not_mapped hip' hm', Prod.mk.injEq] at h
      exact h.2

theorem AddressSets.addressKey {sets : String → Option NamedSet} (h : AddressSets sets)
    {ip : List Byte} (hip : ip.length = 16) :
    (sets (addressKey ip).1).map NamedSet.keyLength = some (Netfilter.addressKey ip).2.length := by
  by_cases hm : ip.take 12 = v4InV6Prefix
  · rw [addressKey_of_mapped hip hm, h.addrset]
    simp [hip]
  · rw [addressKey_of_not_mapped hip hm, h.addrset6, hip]

theorem Running.exists_table (h : Running rules s) :
    ∃ tb, s.ruleset table = some tb ∧ AddressSets tb.sets ∧ s.pending = [] := by
  obtain ⟨sets, ⟨hpending, tb, htb, -, rfl⟩, hsets⟩ := h
  exact ⟨tb, htb, hsets, hpending⟩

/-- A call whose message the kernel takes returns zero and leaves the changed table. -/
theorem InboundCall.exec_run_ok {c : InboundCall} {msg : Message} (hc : c.message = some msg)
    (hK : Willing K) (h : Running rules s) {tb' : Table}
    (happly : s.ruleset.apply msg = some (Function.update s.ruleset table (some tb'))) :
    ∃ s', exec (c.run K) s = (.ok 0, s') ∧ Running rules s' ∧ s'.ruleset table = some tb' := by
  obtain ⟨tb, -, -, hpending⟩ := h.exists_table
  have hans : answer K s msg = some (Function.update s.ruleset table (some tb')) := by
    rw [answer, hK, if_pos rfl, happly]
  have hrun := c.exec_run_some (K := K) hc hpending
  have hnext := running_inboundStep (K := K) h c
  rw [inboundStep, hrun] at hnext
  rw [hans] at hrun hnext
  exact ⟨_, hrun, hnext, by simp⟩

theorem elementKeys_of_table {tb : Table} (h : s.ruleset table = some tb) :
    elementKeys s = { e | e.2 ∈ tb.elements e.1 } := by
  ext e
  simp [elementKeys, h]

/-- **Marking.** A willing kernel adds the address to the set of its family. -/
theorem exec_markInbound (hK : Willing K) (h : Running rules s) {e : List Char} {ip : List Byte}
    (hip : parseIP e = some ip) :
    ∃ s', exec (markInbound K e) s = (.ok true, s') ∧ Running rules s' ∧
      elementKeys s' = elementKeys s ∪ {addressKey ip} := by
  obtain ⟨tb, htb, hsets, -⟩ := h.exists_table
  obtain ⟨tb', htb'⟩ := exists_addElement (hsets.addressKey (length_of_parseIP hip))
  have hc : (InboundCall.mark e).message =
      some (.newSetElem table (addressKey ip).1 (addressKey ip).2) := by
    rw [InboundCall.message, hip, Option.map_some]
  have happly : s.ruleset.apply (.newSetElem table (addressKey ip).1 (addressKey ip).2) =
      some (Function.update s.ruleset table (some tb')) := by
    simp [Ruleset.apply, Ruleset.modify, htb, htb']
  obtain ⟨s', hrun, hrunning, hs'⟩ := InboundCall.exec_run_ok hc hK h happly
  have hcall : exec (netfilterMarkInbound K e) s = (.ok 0, s') := hrun
  refine ⟨s', ?_, hrunning, ?_⟩
  · rw [markInbound, exec_bind_ok hcall]
    rfl
  · rw [elementKeys_of_table htb, elementKeys_of_table hs']
    ext ⟨n, k⟩
    rw [Set.mem_union, Set.mem_singleton_iff, Prod.ext_iff]
    exact (addElement_spec htb').2 n k

/-- **Clearing.** A willing kernel removes an address that is in the set of its family. -/
theorem exec_clearInbound (hK : Willing K) (h : Running rules s) {e : List Char} {ip : List Byte}
    (hip : parseIP e = some ip) (hmem : addressKey ip ∈ elementKeys s) :
    ∃ s', exec (clearInbound K e) s = (.ok true, s') ∧ Running rules s' ∧
      elementKeys s' = elementKeys s \ {addressKey ip} := by
  obtain ⟨tb, htb, -, -⟩ := h.exists_table
  rw [elementKeys_of_table htb] at hmem
  obtain ⟨tb', htb'⟩ := exists_delElement hmem
  have hc : (InboundCall.clear e).message =
      some (.delSetElem table (addressKey ip).1 (addressKey ip).2) := by
    rw [InboundCall.message, hip, Option.map_some]
  have happly : s.ruleset.apply (.delSetElem table (addressKey ip).1 (addressKey ip).2) =
      some (Function.update s.ruleset table (some tb')) := by
    simp [Ruleset.apply, Ruleset.modify, htb, htb']
  obtain ⟨s', hrun, hrunning, hs'⟩ := InboundCall.exec_run_ok hc hK h happly
  have hcall : exec (netfilterClearInbound K e) s = (.ok 0, s') := hrun
  refine ⟨s', ?_, hrunning, ?_⟩
  · rw [clearInbound, exec_bind_ok hcall]
    rfl
  · rw [elementKeys_of_table htb, elementKeys_of_table hs']
    ext ⟨n, k⟩
    rw [Set.mem_sdiff, Set.mem_singleton_iff, Prod.ext_iff]
    exact (delElement_spec htb').2 n k

theorem exec_markInbound_none {e : List Char} (hip : parseIP e = none) (s : State) :
    exec (markInbound K e) s = (.ok false, s) := by
  have hc : (InboundCall.mark e).message = none := by rw [InboundCall.message, hip, Option.map_none]
  have hcall : exec (netfilterMarkInbound K e) s = (.ok (-1), s) := InboundCall.exec_run_none hc s
  rw [markInbound, exec_bind_ok hcall]
  rfl

end Inbound

end WgDesktop.LinuxFirewall
