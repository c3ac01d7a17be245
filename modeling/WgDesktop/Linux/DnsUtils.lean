import Mathlib.Data.List.AList
import WgDesktop.Lib.Runs
import WgDesktop.Net.HostAddress

/-!
# `DnsUtilsLinux`

The DNS settings of the daemon, `src/platforms/linux/daemon/dnsutilslinux.cpp`. While the VPN is up
no other link may have the root search domain, so the daemon asks systemd-resolved for the domains
of all links, keeps them and takes the root domain away; `restoreResolvers` puts back what was kept.

The answer is handled at some later time and replaces what was kept before. `restored_iff` says
which sequences of calls leave every link as it was.
-/

namespace WgDesktop.DnsUtilsLinux

open Runs

/-! ## systemd-resolved -/

/-- A search domain, or a domain that only routes queries. -/
structure DnsLinkDomain where
  domain : List Char
  search : Bool
  deriving DecidableEq, Repr

/-- An entry of the `Domains` property; entries with index 0 are global. -/
structure DnsDomain where
  ifindex : ℕ
  domain : List Char
  search : Bool
  deriving DecidableEq, Repr

/-- What systemd-resolved keeps for its links. -/
structure Resolved where
  links : List ℕ
  nodup : links.Nodup
  positive : 0 ∉ links
  globalDomains : List DnsLinkDomain
  domains : ℕ → List DnsLinkDomain
  dns : ℕ → List QHostAddress
  defaultRoute : ℕ → Bool

namespace Resolved

/-- `SetLinkDomains`. A call for something else than a link is refused. -/
def setLinkDomains (ifindex : ℕ) (domains : List DnsLinkDomain) (r : Resolved) : Resolved :=
  if ifindex ∈ r.links then { r with domains := Function.update r.domains ifindex domains } else r

def setLinkDNS (ifindex : ℕ) (resolvers : List QHostAddress) (r : Resolved) : Resolved :=
  if ifindex ∈ r.links then { r with dns := Function.update r.dns ifindex resolvers } else r

def setLinkDefaultRoute (ifindex : ℕ) (enable : Bool) (r : Resolved) : Resolved :=
  if ifindex ∈ r.links then
    { r with defaultRoute := Function.update r.defaultRoute ifindex enable }
  else r

def revertLink (ifindex : ℕ) (r : Resolved) : Resolved :=
  ((r.setLinkDomains ifindex []).setLinkDNS ifindex []).setLinkDefaultRoute ifindex false

/-- The domains of one link as entries of the property. -/
def entries (ifindex : ℕ) (domains : List DnsLinkDomain) : List DnsDomain :=
  domains.map fun d => { ifindex, domain := d.domain, search := d.search }

/-- The `Domains` property. -/
def domainsProperty (r : Resolved) : List DnsDomain :=
  entries 0 r.globalDomains ++ r.links.flatMap fun l => entries l (r.domains l)

end Resolved

/-! ## The daemon -/

/-- `QMap<int, DnsLinkDomainList>`. -/
abbrev LinkDomains := AList fun _ : ℕ => List DnsLinkDomain

/-- The kept domains of a link, empty when there is no entry for it. -/
def domainsOf (m : LinkDomains) (l : ℕ) : List DnsLinkDomain := (m.lookup l).getD []

/-- The daemon with systemd-resolved, and the answers to its queries that are not yet handled. -/
structure State where
  resolved : Resolved
  ifindex : ℕ := 0
  linkDomains : LinkDomains := ∅
  replies : List (List DnsDomain) := []

/-- The root search domain. -/
def root : DnsLinkDomain := ⟨['.'], true⟩

namespace State

/-- `updateLinkDomains`: the query is answered now. -/
def updateLinkDomains (s : State) : State :=
  { s with replies := s.replies ++ [s.resolved.domainsProperty] }

/-- `updateResolvers`, for an interface with this index; 0 when there is no interface of the
name. -/
def updateResolvers (ifindex : ℕ) (resolvers : List QHostAddress) (s : State) : State :=
  if ifindex = 0 then { s with ifindex := 0 }
  else
    updateLinkDomains
      { s with
        ifindex
        resolved := (s.resolved.setLinkDNS ifindex resolvers).setLinkDefaultRoute ifindex true }

/-- A `SetLinkDomains` for each entry of a map for which `f` gives a list. -/
def setLinks (f : List DnsLinkDomain → Option (List DnsLinkDomain))
    (entries : List (Sigma fun _ : ℕ => List DnsLinkDomain)) (r : Resolved) : Resolved :=
  entries.foldl (fun r e =>
    match f e.2 with
    | some domains => r.setLinkDomains e.1 domains
    | none => r) r

def restoreResolvers (s : State) : State :=
  let restored := setLinks some s.linkDomains.entries s.resolved
  { s with
    linkDomains := ∅
    resolved := if s.ifindex > 0 then restored.revertLink s.ifindex else restored
    ifindex := 0 }

/-- The map of the domains in an answer. -/
def collect (answer : List DnsDomain) : LinkDomains :=
  answer.foldl (fun m d =>
    if d.ifindex = 0 then m
    else m.insert d.ifindex (domainsOf m d.ifindex ++ [⟨d.domain, d.search⟩])) ∅

/-- The domains without the root search domain, where it is one of them. -/
def dropRoot (domains : List DnsLinkDomain) : Option (List DnsLinkDomain) :=
  if root ∈ domains then some (domains.filter (· ≠ root)) else none

def dnsDomainsReceived (answer : List DnsDomain) (s : State) : State :=
  let linkDomains := collect answer
  { s with
    linkDomains
    resolved := (setLinks dropRoot linkDomains.entries s.resolved).setLinkDomains s.ifindex [root] }

/-- One of the answers is handled. -/
def handleReply (i : ℕ) (s : State) : State :=
  match s.replies[i]? with
  | none => s
  | some answer => dnsDomainsReceived answer { s with replies := s.replies.eraseIdx i }

end State

/-- The calls, and the handling of an answer. The VPN interface has one of the indices in `vpn`, or
none. -/
inductive Event (vpn : Set ℕ) where
  | updateResolvers (ifindex : Option vpn) (resolvers : List QHostAddress)
  | restoreResolvers
  | reply (i : ℕ)

/-- `if_nametoindex`, which gives 0 for an interface that does not exist. -/
def ifNametoindex {vpn : Set ℕ} (ifindex : Option vpn) : ℕ := (ifindex.map Subtype.val).getD 0

def State.step {vpn : Set ℕ} (s : State) : Event vpn → State
  | .updateResolvers ifindex resolvers => s.updateResolvers (ifNametoindex ifindex) resolvers
  | .restoreResolvers => s.restoreResolvers
  | .reply i => s.handleReply i

/-! ## The property -/

/-- The state of a run, and whether `restoreResolvers` was called after the last
`updateResolvers`. -/
structure History where
  state : State
  restored : Bool := true

namespace History

variable {vpn : Set ℕ}

def start (r : Resolved) : History := { state := { resolved := r } }

def step (h : History) (e : Event vpn) : History where
  state := h.state.step e
  restored :=
    match e with
    | .updateResolvers _ _ => false
    | .restoreResolvers => true
    | .reply _ => h.restored

/-- Once the resolvers are restored and all answers are handled, every link but those of the VPN has
the domains it had at the start. -/
def Restored (vpn : Set ℕ) (r : Resolved) (h : History) : Prop :=
  h.restored = true → h.state.replies = [] →
    ∀ l ∈ r.links, l ∉ vpn → h.state.resolved.domains l = r.domains l

/-- The condition: an interface's resolvers are updated only while no root search domain of another
link is kept, and restored only while no answer that is not yet handled has one. -/
def guard (vpn : Set ℕ) (r : Resolved) (h : History) : Event vpn → Prop
  | .updateResolvers ifindex _ => ifNametoindex ifindex ≠ 0 →
      ∀ l ∈ r.links, l ∉ vpn → root ∉ domainsOf h.state.linkDomains l
  | .restoreResolvers => ∀ answer ∈ h.state.replies,
      ∀ l ∈ r.links, l ∉ vpn → root ∉ domainsOf (State.collect answer) l
  | .reply _ => True

end History

/-! ## Calls to systemd-resolved -/

section Resolved

variable {r : Resolved} {l ifindex : ℕ}

theorem links_setLinkDomains (ifindex : ℕ) (domains : List DnsLinkDomain) (r : Resolved) :
    (r.setLinkDomains ifindex domains).links = r.links := by
  unfold Resolved.setLinkDomains
  split_ifs <;> rfl

theorem domains_setLinkDomains_of_ne (h : l ≠ ifindex) (domains : List DnsLinkDomain) :
    (r.setLinkDomains ifindex domains).domains l = r.domains l := by
  unfold Resolved.setLinkDomains
  split_ifs
  · exact Function.update_of_ne h _ _
  · rfl

theorem domains_setLinkDomains_self (h : l ∈ r.links) (domains : List DnsLinkDomain) :
    (r.setLinkDomains l domains).domains l = domains := by
  rw [Resolved.setLinkDomains, if_pos h]
  exact Function.update_self ..

theorem setLinkDNS_links_domains (ifindex : ℕ) (resolvers : List QHostAddress) (r : Resolved) :
    (r.setLinkDNS ifindex resolvers).links = r.links ∧
      (r.setLinkDNS ifindex resolvers).domains = r.domains := by
  unfold Resolved.setLinkDNS
  split_ifs <;> exact ⟨rfl, rfl⟩

theorem setLinkDefaultRoute_links_domains (ifindex : ℕ) (enable : Bool) (r : Resolved) :
    (r.setLinkDefaultRoute ifindex enable).links = r.links ∧
      (r.setLinkDefaultRoute ifindex enable).domains = r.domains := by
  unfold Resolved.setLinkDefaultRoute
  split_ifs <;> exact ⟨rfl, rfl⟩

theorem links_revertLink (ifindex : ℕ) (r : Resolved) : (r.revertLink ifindex).links = r.links := by
  rw [Resolved.revertLink, (setLinkDefaultRoute_links_domains ..).1,
    (setLinkDNS_links_domains ..).1, links_setLinkDomains]

theorem domains_revertLink_of_ne (h : l ≠ ifindex) :
    (r.revertLink ifindex).domains l = r.domains l := by
  rw [Resolved.revertLink, (setLinkDefaultRoute_links_domains ..).2,
    (setLinkDNS_links_domains ..).2, domains_setLinkDomains_of_ne h]

open State in
theorem links_setLinks (f : List DnsLinkDomain → Option (List DnsLinkDomain))
    (entries : List (Sigma fun _ : ℕ => List DnsLinkDomain)) (r : Resolved) :
    (setLinks f entries r).links = r.links := by
  refine @foldl_invariant _ _ _ (fun r' : Resolved => r'.links = r.links) ?_ _ rfl entries
  intro r' e hr'
  cases f e.2 with
  | none => exact hr'
  | some domains => exact (links_setLinkDomains ..).trans hr'

open State in
theorem domains_setLinks (f : List DnsLinkDomain → Option (List DnsLinkDomain)) (hl : l ∈ r.links)
    {entries : List (Sigma fun _ : ℕ => List DnsLinkDomain)} (hnodup : entries.NodupKeys) :
    (setLinks f entries r).domains l =
      ((entries.dlookup l).bind f).getD (r.domains l) := by
  induction entries generalizing r with
  | nil => rfl
  | cons e entries ih =>
    obtain ⟨k, domains⟩ := e
    rw [List.nodupKeys_cons] at hnodup
    have hrest : ∀ r' : Resolved, r'.links = r.links → (setLinks f entries r').domains l =
        ((entries.dlookup l).bind f).getD (r'.domains l) := fun r' hr' => ih (hr' ▸ hl) hnodup.2
    show (setLinks f entries (match f domains with
      | some domains => r.setLinkDomains k domains
      | none => r)).domains l = _
    by_cases hk : l = k
    · subst hk
      have hnone : entries.dlookup l = none := List.dlookup_eq_none.mpr hnodup.1
      rw [List.dlookup_cons_eq, Option.bind_some]
      cases hf : f domains with
      | none => rw [hrest r rfl, hnone, Option.bind_none]
      | some newDomains =>
        rw [hrest _ (links_setLinkDomains ..), hnone, Option.bind_none, Option.getD_none,
          domains_setLinkDomains_self hl, Option.getD_some]
    · rw [List.dlookup_cons_ne _ _ hk]
      cases hf : f domains with
      | none => exact hrest r rfl
      | some newDomains =>
        rw [hrest _ (links_setLinkDomains ..), domains_setLinkDomains_of_ne hk]

end Resolved

/-! ## Answers -/

section Answers

open State

theorem domainsOf_insert (m : LinkDomains) (k l : ℕ) (domains : List DnsLinkDomain) :
    domainsOf (m.insert k domains) l = if l = k then domains else domainsOf m l := by
  unfold domainsOf
  by_cases h : l = k
  · subst h
    rw [if_pos rfl, AList.lookup_insert, Option.getD_some]
  · rw [if_neg h, AList.lookup_insert_ne h]

/-- No link is kept with an empty list. -/
def Filled (m : LinkDomains) : Prop := ∀ l, m.lookup l ≠ some []

theorem filled_empty : Filled ∅ := by
  intro l
  simp

theorem filled_collect (answer : List DnsDomain) : Filled (collect answer) := by
  refine @foldl_invariant _ _ _ Filled (fun m d hm => ?_) _ filled_empty answer
  split_ifs
  · exact hm
  · intro l
    by_cases h : l = d.ifindex
    · subst h
      simp
    · rw [AList.lookup_insert_ne h]
      exact hm l

theorem domainsOf_collect {l : ℕ} (hl : l ≠ 0) (answer : List DnsDomain) :
    domainsOf (collect answer) l =
      (answer.filter (·.ifindex = l)).map fun d => ⟨d.domain, d.search⟩ := by
  have hfold : ∀ m : LinkDomains, domainsOf (answer.foldl (fun m d =>
      if d.ifindex = 0 then m
      else m.insert d.ifindex (domainsOf m d.ifindex ++ [⟨d.domain, d.search⟩])) m) l =
        domainsOf m l ++ (answer.filter (·.ifindex = l)).map fun d => ⟨d.domain, d.search⟩ := by
    induction answer with
    | nil => simp
    | cons d answer ih =>
      intro m
      rw [List.foldl_cons, ih]
      by_cases hd : d.ifindex = l
      · rw [if_neg (by rw [hd]; exact hl), domainsOf_insert, if_pos hd.symm, hd,
          List.filter_cons_of_pos (by simp [hd]), List.map_cons, List.append_assoc,
          List.singleton_append]
      · rw [List.filter_cons_of_neg (by simp [hd])]
        split_ifs
        · rfl
        · rw [domainsOf_insert, if_neg (Ne.symm hd)]
  have hempty : domainsOf ∅ l = [] := rfl
  rw [collect, hfold, hempty, List.nil_append]

theorem filter_entries (l k : ℕ) (domains : List DnsLinkDomain) :
    (Resolved.entries k domains).filter (·.ifindex = l) =
      if k = l then Resolved.entries k domains else [] := by
  by_cases h : k = l
  · rw [if_pos h, List.filter_eq_self]
    intro d hd
    obtain ⟨d', -, rfl⟩ := List.mem_map.mp hd
    simpa using h
  · rw [if_neg h, List.filter_eq_nil_iff]
    intro d hd
    obtain ⟨d', -, rfl⟩ := List.mem_map.mp hd
    simpa using h

theorem domainsOf_domainsProperty {r : Resolved} {l : ℕ} (hl : l ∈ r.links) :
    domainsOf (collect r.domainsProperty) l = r.domains l := by
  have hzero : l ≠ 0 := fun h => r.positive (h ▸ hl)
  have hlinks : ∀ links : List ℕ, links.Nodup →
      (links.flatMap fun k => Resolved.entries k (r.domains k)).filter (·.ifindex = l) =
        if l ∈ links then Resolved.entries l (r.domains l) else [] := by
    intro links hnodup
    induction links with
    | nil => rfl
    | cons k links ih =>
      obtain ⟨hk, hnodup⟩ := List.nodup_cons.mp hnodup
      rw [List.flatMap_cons, List.filter_append, filter_entries, ih hnodup]
      by_cases h : k = l
      · subst h
        rw [if_pos rfl, if_neg hk, if_pos List.mem_cons_self, List.append_nil]
      · have hmem : l ∈ k :: links ↔ l ∈ links := by
          rw [List.mem_cons, or_iff_right (Ne.symm h)]
        rw [if_neg h, List.nil_append]
        simp only [hmem]
  rw [domainsOf_collect hzero, Resolved.domainsProperty, List.filter_append, filter_entries,
    if_neg hzero.symm, List.nil_append, hlinks _ r.nodup, if_pos hl, Resolved.entries, List.map_map]
  exact List.map_id _

end Answers

/-! ## One link -/

section Link

open State

variable {s : State} {l : ℕ}

/-- The domains that a link has while the VPN is up. -/
def withoutRoot (domains : List DnsLinkDomain) : List DnsLinkDomain := domains.filter (· ≠ root)

theorem root_notMem_withoutRoot (domains : List DnsLinkDomain) : root ∉ withoutRoot domains := by
  simp [withoutRoot]

theorem withoutRoot_eq_iff {domains : List DnsLinkDomain} :
    withoutRoot domains = domains ↔ root ∉ domains := by
  rw [withoutRoot, List.filter_eq_self]
  constructor
  · intro h hroot
    simpa using h root hroot
  · intro h d hd
    simpa using fun heq : d = root => h (heq ▸ hd)

theorem domains_dnsDomainsReceived (hl : l ∈ s.resolved.links) (hne : l ≠ s.ifindex)
    (answer : List DnsDomain) : (dnsDomainsReceived answer s).resolved.domains l =
      if root ∈ domainsOf (collect answer) l then withoutRoot (domainsOf (collect answer) l)
      else s.resolved.domains l := by
  rw [dnsDomainsReceived, domains_setLinkDomains_of_ne hne,
    domains_setLinks dropRoot hl (collect answer).nodupKeys]
  change (((collect answer).lookup l).bind dropRoot).getD _ = _
  unfold domainsOf dropRoot withoutRoot
  cases (collect answer).lookup l with
  | none => simp
  | some domains =>
    by_cases hroot : root ∈ domains
    · simp [hroot]
    · simp [hroot]

theorem domains_restoreResolvers (hl : l ∈ s.resolved.links) (hne : l ≠ s.ifindex)
    (hfilled : Filled s.linkDomains) : s.restoreResolvers.resolved.domains l =
      if domainsOf s.linkDomains l = [] then s.resolved.domains l
      else domainsOf s.linkDomains l := by
  have hrevert : s.restoreResolvers.resolved.domains l =
      (setLinks some s.linkDomains.entries s.resolved).domains l := by
    unfold restoreResolvers
    dsimp only
    split_ifs
    · exact domains_revertLink_of_ne hne
    · rfl
  rw [hrevert, domains_setLinks some hl s.linkDomains.nodupKeys]
  change ((s.linkDomains.lookup l).bind some).getD _ = _
  have hkept := hfilled l
  unfold domainsOf
  cases hlookup : s.linkDomains.lookup l with
  | none => simp
  | some domains =>
    have hne : domains ≠ [] := fun h => hkept (by rw [hlookup, h])
    simp [hne]

theorem links_dnsDomainsReceived (answer : List DnsDomain) (s : State) :
    (dnsDomainsReceived answer s).resolved.links = s.resolved.links := by
  rw [dnsDomainsReceived, links_setLinkDomains, links_setLinks]

theorem links_restoreResolvers (s : State) :
    s.restoreResolvers.resolved.links = s.resolved.links := by
  unfold restoreResolvers
  dsimp only
  split_ifs
  · rw [links_revertLink, links_setLinks]
  · rw [links_setLinks]

/-- What an update of the resolvers leaves as it was, and the one query that it sends. -/
structure Updated (ifindex : ℕ) (s s' : State) : Prop where
  links : s'.resolved.links = s.resolved.links
  domains : s'.resolved.domains = s.resolved.domains
  linkDomains : s'.linkDomains = s.linkDomains
  index : s'.ifindex = ifindex
  replies : s'.replies =
    if ifindex = 0 then s.replies else s.replies ++ [s'.resolved.domainsProperty]

theorem updated_updateResolvers (ifindex : ℕ) (resolvers : List QHostAddress) (s : State) :
    Updated ifindex s (s.updateResolvers ifindex resolvers) := by
  unfold updateResolvers updateLinkDomains
  split_ifs with hzero
  · exact ⟨rfl, rfl, rfl, hzero.symm, (if_pos hzero).symm⟩
  · refine ⟨?_, ?_, rfl, rfl, (if_neg hzero).symm⟩
    · dsimp only
      rw [(setLinkDefaultRoute_links_domains ..).1, (setLinkDNS_links_domains ..).1]
    · dsimp only
      rw [(setLinkDefaultRoute_links_domains ..).2, (setLinkDNS_links_domains ..).2]

/-- Only for an existing interface is there an answer, about the links as they are. -/
theorem Updated.mem_replies {ifindex : ℕ} {s s' : State} (hu : Updated ifindex s s')
    {answer : List DnsDomain} (hanswer : answer ∈ s'.replies) :
    answer ∈ s.replies ∨ ifindex ≠ 0 ∧ answer = s'.resolved.domainsProperty := by
  rw [hu.replies] at hanswer
  split_ifs at hanswer with hzero
  · exact Or.inl hanswer
  · rcases List.mem_append.mp hanswer with hanswer | hanswer
    · exact Or.inl hanswer
    · exact Or.inr ⟨hzero, List.mem_singleton.mp hanswer⟩

end Link

/-! ## Runs that meet the condition -/

section Runs

open State History

variable {vpn : Set ℕ} {r : Resolved} {h : History} {l : ℕ}

/-- The VPN is down for a link: it has its own domains and none are kept. -/
def Untouched (r : Resolved) (s : State) (l : ℕ) : Prop :=
  s.resolved.domains l = r.domains l ∧ domainsOf s.linkDomains l = []

/-- The VPN is up for a link: its domains are kept, and it has them without the root. -/
def Held (r : Resolved) (s : State) (l : ℕ) : Prop :=
  s.resolved.domains l = withoutRoot (r.domains l) ∧ domainsOf s.linkDomains l = r.domains l

/-- What a guarded run keeps: every answer that is not yet handled says what the links had at the
start, each other link is untouched or held, and once the resolvers are restored a link with a root
search domain waits for no answer. -/
structure Inv (vpn : Set ℕ) (r : Resolved) (h : History) : Prop where
  links : h.state.resolved.links = r.links
  ifindex : h.state.ifindex = 0 ∨ h.state.ifindex ∈ vpn
  filled : Filled h.state.linkDomains
  replies : ∀ answer ∈ h.state.replies, ∀ l ∈ r.links, l ∉ vpn →
    domainsOf (collect answer) l = r.domains l
  link : ∀ l ∈ r.links, l ∉ vpn → Untouched r h.state l ∨ Held r h.state l
  restored : h.restored = true → ∀ l ∈ r.links, l ∉ vpn → root ∈ r.domains l →
    h.state.replies = [] ∧ h.state.resolved.domains l = r.domains l

theorem inv_start (vpn : Set ℕ) (r : Resolved) : Inv vpn r (start r) where
  links := rfl
  ifindex := Or.inl rfl
  filled := filled_empty
  replies answer hanswer := by simp [start] at hanswer
  link l _ _ := Or.inl ⟨rfl, rfl⟩
  restored _ l _ _ _ := ⟨rfl, rfl⟩

theorem Inv.ne_ifindex (hi : Inv vpn r h) (hl : l ∈ r.links) (hvpn : l ∉ vpn) :
    l ≠ h.state.ifindex := by
  rintro rfl
  rcases hi.ifindex with hzero | hmem
  · exact r.positive (hzero ▸ hl)
  · exact hvpn hmem

/-- Without a root search domain a link always has its own domains. -/
theorem domains_of_notMem_root {s : State} (hs : Untouched r s l ∨ Held r s l)
    (hroot : root ∉ r.domains l) : s.resolved.domains l = r.domains l := by
  rcases hs with hs | hs
  · exact hs.1
  · exact hs.1.trans (withoutRoot_eq_iff.mpr hroot)

theorem Inv.restored_of (hi : Inv vpn r h) : Restored vpn r h := by
  intro hrestored _ l hl hvpn
  by_cases hroot : root ∈ r.domains l
  · exact (hi.restored hrestored l hl hvpn hroot).2
  · exact domains_of_notMem_root (hi.link l hl hvpn) hroot

/-- An answer with the domains of the start holds a link, whatever it had before. -/
theorem held_dnsDomainsReceived {s : State} {answer : List DnsDomain} (hl : l ∈ s.resolved.links)
    (hne : l ≠ s.ifindex) (hs : Untouched r s l ∨ Held r s l)
    (hanswer : domainsOf (collect answer) l = r.domains l) :
    Held r (dnsDomainsReceived answer s) l := by
  refine ⟨?_, hanswer⟩
  rw [domains_dnsDomainsReceived hl hne, hanswer]
  by_cases hroot : root ∈ r.domains l
  · rw [if_pos hroot]
  · rw [if_neg hroot, domains_of_notMem_root hs hroot, withoutRoot_eq_iff.mpr hroot]

theorem untouched_restoreResolvers {s : State} (hl : l ∈ s.resolved.links) (hne : l ≠ s.ifindex)
    (hfilled : Filled s.linkDomains) (hs : Untouched r s l ∨ Held r s l) :
    Untouched r s.restoreResolvers l := by
  refine ⟨?_, rfl⟩
  rw [domains_restoreResolvers hl hne hfilled]
  rcases hs with ⟨hdomains, hkept⟩ | ⟨hdomains, hkept⟩
  · rw [if_pos hkept, hdomains]
  · rw [hkept]
    split_ifs with hempty
    · rw [hdomains, hempty]
      rfl
    · rfl

theorem ifNametoindex_eq_zero_or_mem (ifindex : Option vpn) :
    ifNametoindex ifindex = 0 ∨ ifNametoindex ifindex ∈ vpn := by
  cases ifindex with
  | none => exact Or.inl rfl
  | some i => exact Or.inr i.2

theorem Updated.untouched_or_held {ifindex : ℕ} {s s' : State} (hu : Updated ifindex s s')
    (hs : Untouched r s l ∨ Held r s l) : Untouched r s' l ∨ Held r s' l := by
  unfold Untouched Held
  rw [hu.domains, hu.linkDomains]
  exact hs

theorem Inv.updateResolvers (hi : Inv vpn r h) {ifindex : Option vpn}
    (resolvers : List QHostAddress)
    (hguard : guard vpn r h (.updateResolvers ifindex resolvers)) :
    Inv vpn r (h.step (.updateResolvers ifindex resolvers : Event vpn)) := by
  have hu : Updated (ifNametoindex ifindex) h.state
      (h.step (.updateResolvers ifindex resolvers : Event vpn)).state :=
    updated_updateResolvers (ifNametoindex ifindex) resolvers h.state
  refine ⟨hu.links.trans hi.links, ?_, ?_, ?_, ?_, fun hrestored => by cases hrestored⟩
  · rw [hu.index]
    exact ifNametoindex_eq_zero_or_mem ifindex
  · rw [hu.linkDomains]
    exact hi.filled
  · intro answer hanswer l hl hvpn
    rcases hu.mem_replies hanswer with hanswer | ⟨hzero, rfl⟩
    · exact hi.replies answer hanswer l hl hvpn
    -- the new answer is about links that are not held
    rw [domainsOf_domainsProperty (hu.links ▸ hi.links ▸ hl), hu.domains]
    rcases hi.link l hl hvpn with hs | hs
    · exact hs.1
    · have hroot := hguard hzero l hl hvpn
      rw [hs.2] at hroot
      exact domains_of_notMem_root (Or.inr hs) hroot
  · exact fun l hl hvpn => hu.untouched_or_held (hi.link l hl hvpn)

theorem Inv.restoreResolvers (hi : Inv vpn r h) (hguard : guard vpn r h .restoreResolvers) :
    Inv vpn r (h.step (.restoreResolvers : Event vpn)) := by
  have huntouched : ∀ l ∈ r.links, l ∉ vpn → Untouched r h.state.restoreResolvers l :=
    fun l hl hvpn => untouched_restoreResolvers (hi.links ▸ hl) (hi.ne_ifindex hl hvpn) hi.filled
      (hi.link l hl hvpn)
  refine ⟨(links_restoreResolvers _).trans hi.links, Or.inl rfl, filled_empty, hi.replies,
    fun l hl hvpn => Or.inl (huntouched l hl hvpn), fun _ l hl hvpn hroot =>
      ⟨?_, (huntouched l hl hvpn).1⟩⟩
  refine List.eq_nil_iff_forall_not_mem.mpr fun answer hanswer => ?_
  have hfree := hguard answer hanswer l hl hvpn
  rw [hi.replies answer hanswer l hl hvpn] at hfree
  exact hfree hroot

theorem Inv.reply (hi : Inv vpn r h) (i : ℕ) : Inv vpn r (h.step (.reply i : Event vpn)) := by
  have hstate : (h.step (.reply i : Event vpn)).state = h.state.handleReply i := rfl
  have hsame : (h.step (.reply i : Event vpn)).restored = h.restored := rfl
  cases hanswer : h.state.replies[i]? with
  | none =>
    have hnone : h.state.handleReply i = h.state := by rw [handleReply, hanswer]
    rw [hnone] at hstate
    have heq : h.step (.reply i : Event vpn) = h := by
      cases h
      exact congrArg₂ History.mk hstate hsame
    rw [heq]
    exact hi
  | some answer =>
    have hmem := List.mem_of_getElem? hanswer
    have hsome : h.state.handleReply i =
        dnsDomainsReceived answer { h.state with replies := h.state.replies.eraseIdx i } := by
      rw [handleReply, hanswer]
    rw [hsome] at hstate
    have hrest : (h.step (.reply i : Event vpn)).state.replies = h.state.replies.eraseIdx i := by
      rw [hstate]
      rfl
    have hheld : ∀ l ∈ r.links, l ∉ vpn → Held r (h.step (.reply i : Event vpn)).state l := by
      intro l hl hvpn
      rw [hstate]
      exact held_dnsDomainsReceived (hi.links ▸ hl) (hi.ne_ifindex hl hvpn) (hi.link l hl hvpn)
        (hi.replies answer hmem l hl hvpn)
    refine ⟨?_, ?_, ?_, ?_, fun l hl hvpn => Or.inr (hheld l hl hvpn), ?_⟩
    · rw [hstate, links_dnsDomainsReceived]
      exact hi.links
    · rw [hstate]
      exact hi.ifindex
    · rw [hstate]
      exact filled_collect answer
    · intro answer' hanswer'
      rw [hrest] at hanswer'
      exact hi.replies answer' (List.mem_of_mem_eraseIdx hanswer')
    · intro hrestored l hl hvpn hroot
      have hnil := (hi.restored hrestored l hl hvpn hroot).1
      rw [hnil] at hmem
      cases hmem

/-- **One step** that meets the condition. -/
theorem Inv.step (hi : Inv vpn r h) (e : Event vpn) (hguard : guard vpn r h e) :
    Inv vpn r (h.step e) := by
  cases e with
  | updateResolvers ifindex resolvers => exact hi.updateResolvers resolvers hguard
  | restoreResolvers => exact hi.restoreResolvers hguard
  | reply i => exact hi.reply i

/-! ## Winding up -/

/-- Answers are handled, in some order, and then the resolvers are restored some number of times. -/
def windUp (vpn : Set ℕ) (order : List ℕ) (restores : ℕ) : List (Event vpn) :=
  order.map .reply ++ List.replicate restores .restoreResolvers

/-- However the run is wound up, all links get their domains back. -/
def Recoverable (vpn : Set ℕ) (r : Resolved) (h : History) : Prop :=
  ∀ order restores, Restored vpn r ((windUp vpn order restores).foldl History.step h)

theorem Inv.recoverable (hi : Inv vpn r h) : Recoverable vpn r h := by
  intro order restores
  rw [windUp, List.foldl_append]
  have hreplies : Inv vpn r ((order.map Event.reply : List (Event vpn)).foldl History.step h) := by
    induction order generalizing h with
    | nil => exact hi
    | cons i order ih => exact ih (hi.reply i)
  generalize (order.map Event.reply : List (Event vpn)).foldl History.step h = h' at hreplies
  have hrestores : ∀ {h' : History}, Inv vpn r h' →
      ((List.replicate restores Event.restoreResolvers : List (Event vpn)).foldl History.step
        h').state.replies = [] →
      Inv vpn r ((List.replicate restores Event.restoreResolvers : List (Event vpn)).foldl
        History.step h') := by
    induction restores with
    | zero => exact fun hi _ => hi
    | succ restores ih =>
      intro h' hi hnil
      rw [List.replicate_succ, List.foldl_cons] at hnil ⊢
      refine ih (hi.restoreResolvers fun answer hanswer => ?_) hnil
      -- restoring takes no answer away
      have hkeep : ∀ {n : ℕ} {h' : History}, h'.state.replies ≠ [] →
          ((List.replicate n Event.restoreResolvers : List (Event vpn)).foldl History.step
            h').state.replies ≠ [] := by
        intro n
        induction n with
        | zero => exact fun h => h
        | succ n ih => exact fun h => ih h
      exact absurd hnil (hkeep (List.ne_nil_of_mem hanswer))
  intro hrestored hnil
  exact (hrestores hreplies hnil).restored_of hrestored hnil

/-- The oldest answers are handled. If they say what the link had at the start, it is held after
them. -/
theorem held_handleOldest (vpn : Set ℕ) (old : List (List DnsDomain))
    {rest : List (List DnsDomain)} {h : History} (hmem : l ∈ h.state.resolved.links)
    (hne : l ≠ h.state.ifindex) (hreplies : h.state.replies = old ++ rest)
    (hold : ∀ answer ∈ old, domainsOf (collect answer) l = r.domains l)
    (hs : Untouched r h.state l ∨ Held r h.state l) (hheld : old = [] → Held r h.state l) :
    ∃ h', (((List.replicate old.length 0).map Event.reply : List (Event vpn)).foldl History.step
        h) = h' ∧ h'.state.replies = rest ∧ Held r h'.state l ∧ l ∈ h'.state.resolved.links ∧
      h'.state.ifindex = h.state.ifindex ∧ h'.restored = h.restored := by
  induction old generalizing h with
  | nil => exact ⟨h, rfl, hreplies, hheld rfl, hmem, rfl, rfl⟩
  | cons answer old ih =>
    rw [List.length_cons, List.replicate_succ, List.map_cons, List.foldl_cons]
    have hstate : (h.step (.reply 0 : Event vpn)).state =
        dnsDomainsReceived answer { h.state with replies := old ++ rest } := by
      show h.state.handleReply 0 = _
      rw [handleReply, hreplies]
      rfl
    have hnext : Held r (h.step (.reply 0 : Event vpn)).state l := by
      rw [hstate]
      exact held_dnsDomainsReceived hmem hne hs (hold answer List.mem_cons_self)
    obtain ⟨h', heq, hrest, hheld', hmem', hindex, hrestored⟩ := @ih (h.step (.reply 0 : Event vpn))
      (by rw [hstate, links_dnsDomainsReceived]; exact hmem) (by rw [hstate]; exact hne)
      (by rw [hstate]; rfl) (fun answer' h' => hold answer' (List.mem_cons_of_mem _ h'))
      (Or.inr hnext) fun _ => hnext
    refine ⟨h', heq, hrest, hheld', hmem', ?_, hrestored⟩
    rw [hindex, hstate]
    rfl

/-- A link that is held, or has lost its root for good, does not have its own domains. -/
theorem not_restored_of_withoutRoot {h : History} (hl : l ∈ r.links) (hvpn : l ∉ vpn)
    (hroot : root ∈ r.domains l) (hrestored : h.restored = true) (hnil : h.state.replies = [])
    (hdomains : h.state.resolved.domains l = withoutRoot (r.domains l)) : ¬ Restored vpn r h := by
  intro hR
  have heq := hR hrestored hnil l hl hvpn
  rw [hdomains, withoutRoot_eq_iff] at heq
  exact heq hroot

/-- The resolvers are restored although an answer with a root search domain is on its way: it takes
the root away afterwards. -/
theorem not_recoverable_restore (hi : Inv vpn r h)
    (hguard : ¬ guard vpn r h (.restoreResolvers : Event vpn)) :
    ¬ Recoverable vpn r (h.step (.restoreResolvers : Event vpn)) := by
  simp only [History.guard, not_forall, not_not] at hguard
  obtain ⟨answer, hanswer, l, hl, hvpn, hroot⟩ := hguard
  rw [hi.replies answer hanswer l hl hvpn] at hroot
  intro hrec
  have hne : h.state.replies ≠ [] := List.ne_nil_of_mem hanswer
  have huntouched := untouched_restoreResolvers (hi.links ▸ hl) (hi.ne_ifindex hl hvpn) hi.filled
    (hi.link l hl hvpn)
  have hmem : l ∈ (h.step (.restoreResolvers : Event vpn)).state.resolved.links := by
    show l ∈ h.state.restoreResolvers.resolved.links
    rw [links_restoreResolvers, hi.links]
    exact hl
  have hzero : l ≠ 0 := fun heq => r.positive (heq ▸ hl)
  obtain ⟨h', heq, hrest, hheld, -, -, hrestored⟩ := @held_handleOldest r l vpn
    h.state.replies [] (h.step (.restoreResolvers : Event vpn)) hmem hzero
    (by rw [List.append_nil]; rfl) (fun answer' hanswer' => hi.replies answer' hanswer' l hl hvpn)
    (Or.inl huntouched) fun hnil => absurd hnil hne
  have hR := hrec (List.replicate h.state.replies.length 0) 0
  rw [windUp, List.replicate_zero, List.append_nil, heq] at hR
  exact not_restored_of_withoutRoot hl hvpn hroot hrestored hrest hheld.1 hR

/-- The last answer has no root search domain for a link that has lost it: the link keeps what it
has, and that is what it gets back. -/
theorem withoutRoot_of_lastReply {s : State} {answer : List DnsDomain} {domains : List DnsLinkDomain}
    (hmem : l ∈ s.resolved.links) (hne : l ≠ s.ifindex) (hreplies : s.replies = [answer])
    (hanswer : domainsOf (collect answer) l = withoutRoot domains)
    (hdomains : s.resolved.domains l = withoutRoot domains) :
    (s.handleReply 0).replies = [] ∧
      (s.handleReply 0).restoreResolvers.resolved.domains l = withoutRoot domains := by
  have hreply : s.handleReply 0 = dnsDomainsReceived answer { s with replies := [] } := by
    rw [handleReply, hreplies]
    rfl
  have hreceived : (s.handleReply 0).resolved.domains l = withoutRoot domains := by
    have hreceived := @domains_dnsDomainsReceived { s with replies := [] } l hmem hne answer
    rw [hanswer, if_neg (root_notMem_withoutRoot _)] at hreceived
    rw [hreply]
    exact hreceived.trans hdomains
  have hkept : domainsOf (s.handleReply 0).linkDomains l = withoutRoot domains := by
    rw [hreply]
    exact hanswer
  have hmem' : l ∈ (s.handleReply 0).resolved.links := by
    rw [hreply, links_dnsDomainsReceived]
    exact hmem
  have hne' : l ≠ (s.handleReply 0).ifindex := by
    rw [hreply]
    exact hne
  have hfilled : Filled (s.handleReply 0).linkDomains := by
    rw [hreply]
    exact filled_collect answer
  constructor
  · rw [hreply]
    rfl
  · rw [domains_restoreResolvers hmem' hne' hfilled, hkept, hreceived, ite_self]

/-- The resolvers are updated although a root search domain is kept: the answer replaces what is
kept. -/
theorem not_recoverable_update (hi : Inv vpn r h) {ifindex : Option vpn}
    {resolvers : List QHostAddress}
    (hguard : ¬ guard vpn r h (.updateResolvers ifindex resolvers)) :
    ¬ Recoverable vpn r (h.step (.updateResolvers ifindex resolvers : Event vpn)) := by
  simp only [History.guard, not_forall, not_not] at hguard
  obtain ⟨hzero, l, hl, hvpn, hroot⟩ := hguard
  have hheld : Held r h.state l := by
    rcases hi.link l hl hvpn with hs | hs
    · rw [hs.2] at hroot
      cases hroot
    · exact hs
  rw [hheld.2] at hroot
  have hu : Updated (ifNametoindex ifindex) h.state
      (h.step (.updateResolvers ifindex resolvers : Event vpn)).state :=
    updated_updateResolvers (ifNametoindex ifindex) resolvers h.state
  generalize h.step (.updateResolvers ifindex resolvers : Event vpn) = h₁ at hu ⊢
  have hmem : l ∈ h₁.state.resolved.links := by
    rw [hu.links, hi.links]
    exact hl
  have hne : l ≠ h₁.state.ifindex := by
    rw [hu.index]
    rintro rfl
    exact hvpn ((ifNametoindex_eq_zero_or_mem ifindex).resolve_left hzero)
  have hheld₁ : Held r h₁.state l := by
    refine ⟨?_, ?_⟩
    · rw [hu.domains]
      exact hheld.1
    · rw [hu.linkDomains]
      exact hheld.2
  have hreplies : h₁.state.replies = h.state.replies ++ [h₁.state.resolved.domainsProperty] :=
    hu.replies.trans (if_neg hzero)
  have hanswer : domainsOf (collect h₁.state.resolved.domainsProperty) l =
      withoutRoot (r.domains l) := by
    rw [domainsOf_domainsProperty hmem]
    exact hheld₁.1
  intro hrec
  obtain ⟨h₂, heq, hrest, hheld₂, hmem₂, hindex₂, -⟩ := held_handleOldest vpn h.state.replies hmem
    hne hreplies (fun answer' hanswer' => hi.replies answer' hanswer' l hl hvpn) (Or.inr hheld₁)
    fun _ => hheld₁
  have hR := hrec (List.replicate (h.state.replies.length + 1) 0) 1
  rw [windUp, List.replicate_succ', List.map_append, List.foldl_append, List.foldl_append,
    heq] at hR
  -- the last answer is that of the update
  obtain ⟨hnil, hdomains⟩ := withoutRoot_of_lastReply hmem₂ (hindex₂ ▸ hne) hrest hanswer hheld₂.1
  exact not_restored_of_withoutRoot hl hvpn hroot rfl hnil hdomains hR

/-- **Search domains are restored.** However the run is wound up after any of its steps, all links
but those of the VPN have their domains back once the resolvers are restored and all answers are
handled, exactly in the runs whose steps all meet the condition. -/
theorem restored_iff (vpn : Set ℕ) (r : Resolved) (events : List (Event vpn)) :
    (∀ n order restores, Restored vpn r
      ((events.take n ++ windUp vpn order restores).foldl History.step (start r))) ↔
      Guarded History.step (History.guard vpn r) (start r) events := by
  have hruns := @forall_take_iff_guarded _ _ (@History.step vpn) (History.guard vpn r)
    (Inv vpn r) (Recoverable vpn r) (fun h e hi hguard => hi.step e hguard)
    (fun h hi => hi.recoverable) (fun h e hi hguard => ?_) _ (inv_start vpn r) events
  · rw [← hruns]
    refine forall_congr' fun n => forall_congr' fun order => forall_congr' fun restores => ?_
    rw [List.foldl_append]
  · cases e with
    | updateResolvers ifindex resolvers => exact not_recoverable_update hi hguard
    | restoreResolvers => exact not_recoverable_restore hi hguard
    | reply i => exact absurd trivial hguard

end Runs

/-! ## Two runs -/

/-- Link 2 has the root search domain and another one, link 5 belongs to the VPN. -/
def twoLinks : Resolved where
  links := [2, 5]
  nodup := by decide
  positive := by decide
  globalDomains := []
  domains l := if l = 2 then [⟨"lan".toList, true⟩, root] else []
  dns _ := []
  defaultRoute _ := false

def updateVpn : Event {5} := .updateResolvers (some ⟨5, rfl⟩) [.ipv4 0x0a400001#32]

/-- The answer comes after the resolvers were restored. -/
def lateReply : List (Event {5}) := [updateVpn, .restoreResolvers, .reply 0]

/-- The second hop updates the resolvers after the answer to the first one. -/
def secondHop : List (Event {5}) := [updateVpn, .reply 0, updateVpn, .reply 0, .restoreResolvers]

/-- Both runs end with link 2 without its root search domain. -/
theorem not_restored :
    ¬ History.Restored {5} twoLinks (lateReply.foldl History.step (.start twoLinks)) ∧
      ¬ History.Restored {5} twoLinks (secondHop.foldl History.step (.start twoLinks)) := by
  constructor
  · intro h
    have hlink := h rfl rfl 2 (by decide) (by simp)
    revert hlink
    decide
  · intro h
    have hlink := h rfl rfl 2 (by decide) (by simp)
    revert hlink
    decide

end WgDesktop.DnsUtilsLinux
