import WgDesktop.Profile.RoundTrip

/-!
# Peers

The parser keeps one configuration for the whole text: of all `[Peer]` sections the last public
key, the last host of each family and the last port stay, and the allowed ranges add up
(`updated_of_parse`). So a result that belongs to one peer is not what every accepted text gives;
`fromOnePeer_iff` says which texts do.
-/

namespace WgDesktop

open Text Runs

namespace WireGuardConfig

/-! ## What the peer sections say -/

/-- The setting stands in a `[Peer]` section under this key. -/
def Setting.isPeer (key : String) (s : Setting) : Bool :=
  s.section_ = "peer".toList && s.key = key.toList

def publicKeys (ss : List Setting) : List (List Char) :=
  (ss.filter (Setting.isPeer "publickey")).map Setting.value

def endpoints (ss : List Setting) : List (List Char × ℤ) :=
  (ss.filter (Setting.isPeer "endpoint")).filterMap fun s => (readEndpoint s.value).toOption

section Peers

variable (T : HostAddressText)

/-- The endpoints whose hosts are IPv6 addresses, or those whose hosts are not. -/
def endpointsOf (isIpv6 : Bool) (ss : List Setting) : List (List Char × ℤ) :=
  (endpoints ss).filter fun e =>
    decide ((T.hostAddress e.1).protocol = .ipv6Protocol) == isIpv6

def hosts (isIpv6 : Bool) (ss : List Setting) : List (List Char) :=
  (endpointsOf T isIpv6 ss).map Prod.fst

def ranges (ss : List Setting) : List IPAddress :=
  (ss.filter (Setting.isPeer "allowedips")).flatMap fun s =>
    (splitCsv s.value).map (IPAddress.ofString T)

/-- The last text of a list, or `old` if there is none. -/
def lastText (old : QString) (l : List (List Char)) : QString :=
  (l.getLast?.map QString.text).getD old

/-- The peer fields after some settings: the last of each that the settings name stays, and the
ranges are added. -/
structure Updated (ss : List Setting) (p p' : InterfaceConfig) : Prop where
  serverPublicKey : p'.serverPublicKey = lastText p.serverPublicKey (publicKeys ss)
  serverIpv4AddrIn : p'.serverIpv4AddrIn = lastText p.serverIpv4AddrIn (hosts T false ss)
  serverIpv6AddrIn : p'.serverIpv6AddrIn = lastText p.serverIpv6AddrIn (hosts T true ss)
  serverPort : p'.serverPort = ((endpoints ss).getLast?.map Prod.snd).getD p.serverPort
  allowedIPAddressRanges : p'.allowedIPAddressRanges = p.allowedIPAddressRanges ++ ranges T ss

variable {T}

theorem lastText_append (old : QString) (l l' : List (List Char)) :
    lastText old (l ++ l') = lastText (lastText old l) l' := by
  simp only [lastText, List.getLast?_append]
  cases l'.getLast? with
  | none => simp
  | some s => simp

theorem Updated.refl (p : InterfaceConfig) : Updated T [] p p :=
  ⟨rfl, rfl, rfl, rfl, (List.append_nil _).symm⟩

theorem Updated.trans {ss ss' : List Setting} {p p' p'' : InterfaceConfig}
    (h : Updated T ss p p') (h' : Updated T ss' p' p'') : Updated T (ss ++ ss') p p'' := by
  have hkeys : publicKeys (ss ++ ss') = publicKeys ss ++ publicKeys ss' := by simp [publicKeys]
  have hends : endpoints (ss ++ ss') = endpoints ss ++ endpoints ss' := by simp [endpoints]
  have hhosts : ∀ b, hosts T b (ss ++ ss') = hosts T b ss ++ hosts T b ss' := by
    simp [hosts, endpointsOf, hends]
  constructor
  · rw [hkeys, lastText_append, ← h.serverPublicKey, h'.serverPublicKey]
  · rw [hhosts, lastText_append, ← h.serverIpv4AddrIn, h'.serverIpv4AddrIn]
  · rw [hhosts, lastText_append, ← h.serverIpv6AddrIn, h'.serverIpv6AddrIn]
  · rw [h'.serverPort, h.serverPort, hends, List.getLast?_append]
    cases (endpoints ss').getLast? with
    | none => simp
    | some e => simp
  · rw [h'.allowedIPAddressRanges, h.allowedIPAddressRanges, List.append_assoc]
    simp [ranges]

/-! ## One setting -/

theorem appendAddress_peer {p p' : InterfaceConfig} {v : List Char}
    (h : appendAddress T p v = .ok p') :
    p' = { p with
      deviceIpv4Address := p'.deviceIpv4Address
      deviceIpv6Address := p'.deviceIpv6Address } := by
  unfold appendAddress at h
  split_ifs at h
  split at h
  · rw [Except.ok.injEq] at h
    subst h
    rfl
  · rw [Except.ok.injEq] at h
    subst h
    rfl
  · cases h

theorem foldlM_appendAllowedIp_eq {items : List (List Char)} {p p' : InterfaceConfig}
    (h : items.foldlM (appendAllowedIp T) p = .ok p') :
    p' = { p with
      allowedIPAddressRanges :=
        p.allowedIPAddressRanges ++ items.map (IPAddress.ofString T) } := by
  induction items generalizing p with
  | nil =>
    rw [List.foldlM_nil] at h
    obtain rfl : p = p' := by simpa [pure, Except.pure] using h
    simp
  | cons item items ih =>
    rw [List.foldlM_cons, bind_eq_ok] at h
    obtain ⟨mid, hmid, hrest⟩ := h
    unfold appendAllowedIp at hmid
    split_ifs at hmid
    rw [Except.ok.injEq] at hmid
    subst hmid
    rw [ih hrest]
    simp

theorem parseEndpoint_eq {p p' : InterfaceConfig} {v : List Char}
    (h : parseEndpoint T p v = .ok p') :
    ∃ host port, readEndpoint v = .ok (host, port) ∧
      p' = { p with
        serverIpv4AddrIn :=
          if (T.hostAddress host).protocol = .ipv6Protocol then p.serverIpv4AddrIn else .text host
        serverIpv6AddrIn :=
          if (T.hostAddress host).protocol = .ipv6Protocol then .text host else p.serverIpv6AddrIn
        serverPort := port } := by
  rw [parseEndpoint, bind_eq_ok] at h
  obtain ⟨⟨host, port⟩, hread, h⟩ := h
  refine ⟨host, port, hread, ?_⟩
  dsimp only at h
  split_ifs at h with hproto
  · rw [Except.ok.injEq] at h
    subst h
    simp [hproto]
  · rw [Except.ok.injEq] at h
    subst h
    simp [hproto]

theorem Setting.isPeer_eq_false_of_section {s : Setting} (h : s.section_ ≠ "peer".toList)
    (key : String) : s.isPeer key = false := by
  rw [Setting.isPeer, decide_eq_false h, Bool.false_and]

theorem Setting.isPeer_eq_false_of_key {s : Setting} {key : String} (h : s.key ≠ key.toList) :
    s.isPeer key = false := by
  rw [Setting.isPeer, decide_eq_false h, Bool.and_false]

theorem Setting.isPeer_eq_true {s : Setting} {key : String} (hs : s.section_ = "peer".toList)
    (h : s.key = key.toList) : s.isPeer key = true := by
  rw [Setting.isPeer, decide_eq_true hs, decide_eq_true h, Bool.and_true]

theorem updated_of_not_endpoint {s : Setting} {p p' : InterfaceConfig}
    (he : s.isPeer "endpoint" = false)
    (hkey : p'.serverPublicKey = lastText p.serverPublicKey (publicKeys [s]))
    (h : p'.serverIpv4AddrIn = p.serverIpv4AddrIn ∧ p'.serverIpv6AddrIn = p.serverIpv6AddrIn ∧
      p'.serverPort = p.serverPort)
    (hranges : p'.allowedIPAddressRanges = p.allowedIPAddressRanges ++ ranges T [s]) :
    Updated T [s] p p' := by
  have hends : endpoints [s] = [] := by simp [endpoints, he]
  obtain ⟨h4, h6, hport⟩ := h
  constructor
  · exact hkey
  · simp [hosts, endpointsOf, hends, lastText, h4]
  · simp [hosts, endpointsOf, hends, lastText, h6]
  · simp [hends, hport]
  · exact hranges

/-- A setting that is no public key, endpoint or range of a peer, and changes only fields of the
interface. -/
theorem updated_of_not_peer {s : Setting} {p p' : InterfaceConfig}
    (hk : s.isPeer "publickey" = false) (he : s.isPeer "endpoint" = false)
    (ha : s.isPeer "allowedips" = false)
    (h : p' = { p with
      privateKey := p'.privateKey
      deviceIpv4Address := p'.deviceIpv4Address
      deviceIpv6Address := p'.deviceIpv6Address
      dnsServer := p'.dnsServer }) : Updated T [s] p p' := by
  rw [h]
  refine updated_of_not_endpoint he ?_ ⟨rfl, rfl, rfl⟩ ?_
  · simp [publicKeys, hk, lastText]
  · simp [ranges, ha]

theorem updated_publicKey {s : Setting} (p : InterfaceConfig) (hs : s.section_ = "peer".toList)
    (hkey : s.key = "publickey".toList) :
    Updated T [s] p { p with serverPublicKey := .text s.value } := by
  have hk := Setting.isPeer_eq_true hs hkey
  have he : s.isPeer "endpoint" = false := Setting.isPeer_eq_false_of_key (by rw [hkey]; decide)
  have ha : s.isPeer "allowedips" = false :=
    Setting.isPeer_eq_false_of_key (by rw [hkey]; decide)
  refine updated_of_not_endpoint he ?_ ⟨rfl, rfl, rfl⟩ ?_
  · simp [publicKeys, hk, lastText]
  · simp [ranges, ha]

theorem updated_endpoint {s : Setting} {p p' : InterfaceConfig}
    (hs : s.section_ = "peer".toList) (hkey : s.key = "endpoint".toList)
    (h : parseEndpoint T p s.value = .ok p') : Updated T [s] p p' := by
  obtain ⟨host, port, hread, rfl⟩ := parseEndpoint_eq h
  have he := Setting.isPeer_eq_true hs hkey
  have hk : s.isPeer "publickey" = false := Setting.isPeer_eq_false_of_key (by rw [hkey]; decide)
  have ha : s.isPeer "allowedips" = false :=
    Setting.isPeer_eq_false_of_key (by rw [hkey]; decide)
  have hends : endpoints [s] = [(host, port)] := by
    simp [endpoints, he, hread, Except.toOption]
  by_cases hproto : (T.hostAddress host).protocol = .ipv6Protocol
  · constructor
    · simp [publicKeys, hk, lastText]
    · simp [hosts, endpointsOf, hends, hproto, lastText]
    · simp [hosts, endpointsOf, hends, hproto, lastText]
    · simp [hends]
    · simp [ranges, ha]
  · constructor
    · simp [publicKeys, hk, lastText]
    · simp [hosts, endpointsOf, hends, hproto, lastText]
    · simp [hosts, endpointsOf, hends, hproto, lastText]
    · simp [hends]
    · simp [ranges, ha]

theorem updated_allowedIPs {s : Setting} {p p' : InterfaceConfig}
    (hs : s.section_ = "peer".toList) (hkey : s.key = "allowedips".toList)
    (h : (splitCsv s.value).foldlM (appendAllowedIp T) p = .ok p') : Updated T [s] p p' := by
  rw [foldlM_appendAllowedIp_eq h]
  have ha := Setting.isPeer_eq_true hs hkey
  have hk : s.isPeer "publickey" = false := Setting.isPeer_eq_false_of_key (by rw [hkey]; decide)
  have he : s.isPeer "endpoint" = false := Setting.isPeer_eq_false_of_key (by rw [hkey]; decide)
  refine updated_of_not_endpoint he ?_ ⟨rfl, rfl, rfl⟩ ?_
  · simp [publicKeys, hk, lastText]
  · simp [ranges, ha]

theorem apply_interface {s : Setting} {p p' : InterfaceConfig}
    (hs : s.section_ = "interface".toList) (h : s.apply T p = .ok p') :
    p' = { p with
      privateKey := p'.privateKey
      deviceIpv4Address := p'.deviceIpv4Address
      deviceIpv6Address := p'.deviceIpv6Address
      dnsServer := p'.dnsServer } := by
  rw [Setting.apply, applySetting, if_pos hs] at h
  split_ifs at h
  · rw [Except.ok.injEq] at h
    subst h
    rfl
  · refine foldlM_invariant (P := fun q => q = { p with
      privateKey := q.privateKey
      deviceIpv4Address := q.deviceIpv4Address
      deviceIpv6Address := q.deviceIpv6Address
      dnsServer := q.dnsServer }) (fun v _ q q' hq hstep => ?_) rfl h
    rw [appendAddress_peer hstep, hq]
  · split at h
    · rw [Except.ok.injEq] at h
      subst h
      rfl
    · rw [Except.ok.injEq] at h
      subst h
      rfl
  · rw [Except.ok.injEq] at h
    subst h
    rfl

theorem updated_of_apply {s : Setting} {p p' : InterfaceConfig} (h : s.apply T p = .ok p') :
    Updated T [s] p p' := by
  by_cases hpeer : s.section_ = "peer".toList
  · have hint : s.section_ ≠ "interface".toList := by
      rw [hpeer]
      decide
    rw [Setting.apply, applySetting, if_neg hint, if_pos hpeer] at h
    split_ifs at h with hk he ha
    · rw [Except.ok.injEq] at h
      subst h
      exact updated_publicKey p hpeer hk
    · exact updated_endpoint hpeer he h
    · exact updated_allowedIPs hpeer ha h
    · rw [Except.ok.injEq] at h
      subst h
      exact updated_of_not_peer (Setting.isPeer_eq_false_of_key hk)
        (Setting.isPeer_eq_false_of_key he) (Setting.isPeer_eq_false_of_key ha) rfl
  · have hnot := Setting.isPeer_eq_false_of_section hpeer
    refine updated_of_not_peer (hnot _) (hnot _) (hnot _) ?_
    by_cases hint : s.section_ = "interface".toList
    · exact apply_interface hint h
    · rw [Setting.apply, applySetting, if_neg hint, if_neg hpeer, Except.ok.injEq] at h
      subst h
      rfl

theorem updated_foldlM {ss : List Setting} {p p' : InterfaceConfig}
    (h : ss.foldlM (Setting.apply T) p = .ok p') : Updated T ss p p' := by
  induction ss generalizing p with
  | nil =>
    rw [List.foldlM_nil] at h
    obtain rfl : p = p' := by simpa [pure, Except.pure] using h
    exact Updated.refl p
  | cons s ss ih =>
    rw [List.foldlM_cons, bind_eq_ok] at h
    obtain ⟨mid, hmid, hrest⟩ := h
    exact (updated_of_apply hmid).trans (ih hrest)

/-- **What the parser keeps of the peers.** -/
theorem updated_of_parse {content : List Char} {c : InterfaceConfig}
    (h : parse T content = .ok c) :
    Updated T (settings content) { hopType := .singleHop } c :=
  updated_foldlM (foldlM_settings_of_parse h).1

/-! ## One peer -/

/-- The settings under the `n`-th section header. -/
def inSection (n : ℕ) (ss : List Setting) : List Setting := ss.filter fun s => s.ordinal = n

variable (T)

/-- A line of the section has the endpoint that is the last one of the list. -/
def LastIn (n : ℕ) (content : List Char) (es : List (List Char × ℤ)) (e : List Char × ℤ) : Prop :=
  es.getLast? = some e ∧ e ∈ endpoints (inSection n (settings content))

/-- The peer of `c` comes from lines of one `[Peer]` section of the text: so do the lines of the
hosts with their ports, and the line of the port with its host. -/
def FromOnePeer (content : List Char) (c : InterfaceConfig) : Prop :=
  ∃ n, c.serverPublicKey.chars ∈ publicKeys (inSection n (settings content)) ∧
    (∀ h, c.serverIpv4AddrIn = .text h →
      ∃ port, LastIn n content (endpointsOf T false (settings content)) (h, port)) ∧
    (∀ h, c.serverIpv6AddrIn = .text h →
      ∃ port, LastIn n content (endpointsOf T true (settings content)) (h, port)) ∧
    (∃ h, LastIn n content (endpoints (settings content)) (h, c.serverPort)) ∧
    ∀ r ∈ c.allowedIPAddressRanges, r ∈ ranges T (inSection n (settings content))

/-- One section of the text has the last public key, the last endpoint of each family, host and
port, and all the ranges of its `[Peer]` sections. -/
def OnePeer (content : List Char) : Prop :=
  ∃ n, (∀ k ∈ (publicKeys (settings content)).getLast?,
      k ∈ publicKeys (inSection n (settings content))) ∧
    (∀ isIpv6, ∀ e ∈ (endpointsOf T isIpv6 (settings content)).getLast?,
      e ∈ endpoints (inSection n (settings content))) ∧
    ranges T (settings content) ⊆ ranges T (inSection n (settings content))

variable {T}

theorem lastText_eq_text_iff {l : List (List Char)} {h : List Char} :
    lastText .null l = .text h ↔ l.getLast? = some h := by
  cases hl : l.getLast? with
  | none => simp [lastText, hl]
  | some s => simp [lastText, hl]

theorem getLast?_endpointsOf {ss : List Setting} {e : List Char × ℤ}
    (h : (endpoints ss).getLast? = some e) :
    (endpointsOf T (decide ((T.hostAddress e.1).protocol = .ipv6Protocol)) ss).getLast? =
      some e := by
  obtain ⟨before, hends⟩ := List.getLast?_eq_some_iff.mp h
  rw [endpointsOf, hends, List.filter_append, List.filter_cons_of_pos (by simp), List.filter_nil,
    List.getLast?_concat]

theorem forall_lastIn_iff {content : List Char} {n : ℕ} {isIpv6 : Bool} :
    (∀ h, lastText .null (hosts T isIpv6 (settings content)) = .text h →
        ∃ port, LastIn n content (endpointsOf T isIpv6 (settings content)) (h, port)) ↔
      ∀ e ∈ (endpointsOf T isIpv6 (settings content)).getLast?,
        e ∈ endpoints (inSection n (settings content)) := by
  simp only [lastText_eq_text_iff, hosts, List.getLast?_map, Option.map_eq_some_iff]
  constructor
  · intro hall e he
    obtain ⟨port, hlast, hmem⟩ := hall e.1 ⟨e, he, rfl⟩
    have hpair : (e.1, port) = e := Option.some.inj (hlast.symm.trans he)
    exact hpair ▸ hmem
  · rintro hall h ⟨e, he, rfl⟩
    exact ⟨e.2, he, hall e he⟩

/-- **One peer or several.** The result of an accepted text belongs to one peer exactly when one
section of the text repeats what the parser keeps. -/
theorem fromOnePeer_iff {content : List Char} {c : InterfaceConfig}
    (h : parse T content = .ok c) : FromOnePeer T content c ↔ OnePeer T content := by
  have hu := updated_of_parse h
  obtain ⟨-, -, hkey, -, hport, -⟩ := checkRequired_iff.mp (foldlM_settings_of_parse h).2
  -- the key and the port are there, so the text has a last one of each
  obtain ⟨key, hkeyText⟩ := exists_text hkey
  have hlastKey : (publicKeys (settings content)).getLast? = some key :=
    lastText_eq_text_iff.mp (hu.serverPublicKey.symm.trans hkeyText)
  have hlastEnd : ∃ e, (endpoints (settings content)).getLast? = some e ∧ e.2 = c.serverPort := by
    cases hlast : (endpoints (settings content)).getLast? with
    | none =>
      rw [hu.serverPort, hlast] at hport
      exact absurd rfl hport
    | some e =>
      refine ⟨e, rfl, ?_⟩
      rw [hu.serverPort, hlast]
      rfl
  obtain ⟨e, hlastEnd, heport⟩ := hlastEnd
  have hranges : c.allowedIPAddressRanges = ranges T (settings content) :=
    hu.allowedIPAddressRanges
  refine exists_congr fun n => ?_
  rw [hkeyText, hranges, hlastKey, hu.serverIpv4AddrIn, hu.serverIpv6AddrIn]
  simp only [forall_lastIn_iff, QString.chars_text, Option.mem_def, Option.some.injEq, forall_eq',
    Bool.forall_bool]
  constructor
  · rintro ⟨hk, h4, h6, -, hr⟩
    exact ⟨hk, ⟨h4, h6⟩, hr⟩
  · rintro ⟨hk, hends, hr⟩
    have hmem : e ∈ endpoints (inSection n (settings content)) := by
      have hlast := @getLast?_endpointsOf T _ _ hlastEnd
      cases hfamily : decide ((T.hostAddress e.1).protocol = .ipv6Protocol) with
      | false => exact hends.1 e (hfamily ▸ hlast)
      | true => exact hends.2 e (hfamily ▸ hlast)
    exact ⟨hk, hends.1, hends.2, ⟨e.1, heport ▸ hlastEnd, heport ▸ hmem⟩, hr⟩

/-- A text whose peer settings stand in one section describes one peer. -/
theorem onePeer_of_single {content : List Char} {n : ℕ}
    (h : ∀ s ∈ settings content, s.section_ = "peer".toList → s.ordinal = n) :
    OnePeer T content := by
  have hfilter : ∀ key, (inSection n (settings content)).filter (Setting.isPeer key) =
      (settings content).filter (Setting.isPeer key) := by
    intro key
    rw [inSection, List.filter_filter]
    refine List.filter_congr fun s hs => ?_
    by_cases hpeer : s.section_ = "peer".toList
    · simp [h s hs hpeer]
    · simp [Setting.isPeer_eq_false_of_section hpeer]
  have hends : endpoints (inSection n (settings content)) = endpoints (settings content) := by
    rw [endpoints, hfilter, endpoints]
  refine ⟨n, fun k hk => ?_, fun b e he => ?_, fun r hr => ?_⟩
  · rw [publicKeys, hfilter]
    exact List.mem_of_getLast? hk
  · rw [hends]
    exact List.mem_of_mem_filter (List.mem_of_getLast? he)
  · rw [ranges, hfilter]
    exact hr

/-- When brackets are used for IPv6 addresses only, the host of the IPv4 field is a plain one, as
writing the configuration back asks for. -/
theorem plainHost_of_parse {content : List Char} {c : InterfaceConfig}
    (h : parse T content = .ok c)
    (hbracket : ∀ s ∈ settings content, s.isPeer "endpoint" = true → s.value.head? = some '[' →
      ∀ host port, readEndpoint s.value = .ok (host, port) →
        (T.hostAddress host).protocol = .ipv6Protocol) :
    c.serverIpv4AddrIn = .null ∨ PlainHost c.serverIpv4AddrIn.chars := by
  rw [(updated_of_parse h).serverIpv4AddrIn]
  cases hlast : (hosts T false (settings content)).getLast? with
  | none => exact Or.inl (by simp [lastText, hlast])
  | some host =>
    right
    rw [lastText_eq_text_iff.mpr hlast]
    obtain ⟨e, he, rfl⟩ := List.mem_map.mp (List.mem_of_getLast? hlast)
    obtain ⟨hmem, hproto⟩ := List.mem_filter.mp he
    obtain ⟨s, hs, hread⟩ := List.mem_filterMap.mp hmem
    obtain ⟨hs, hpeer⟩ := List.mem_filter.mp hs
    have hread : readEndpoint s.value = .ok e := by
      cases hr : readEndpoint s.value with
      | error err => simp [hr, Except.toOption] at hread
      | ok e' =>
        obtain rfl : e' = e := by simpa [hr, Except.toOption] using hread
        rfl
    obtain ⟨-, -, ⟨hopen, -⟩ | ⟨hopen, hcolon, hne, hprefix⟩⟩ := readEndpoint_ok hread
    · have := hbracket s hs hpeer hopen e.1 e.2 hread
      simp [this] at hproto
    · obtain ⟨a, rest, hcons⟩ := List.exists_cons_of_ne_nil hne
      obtain ⟨t, ht⟩ := hprefix
      have hhead : s.value.head? = some a := by
        rw [← ht, hcons]
        rfl
      obtain ⟨⟨a', ha', hspace⟩, -⟩ := (value_of_mem_settings hs).solid
      obtain rfl : a = a' := by simpa [hhead] using ha'
      have hhost : e.1.head? = some a := by rw [hcons]; rfl
      exact ⟨⟨a, hhost, hspace⟩, by rw [QString.chars_text, hhost, ← hhead]; exact hopen, hcolon⟩

end Peers

/-! ## Two peers -/

/-- The second peer has only a public key. -/
def twoPeersContent : List Char :=
  ['\n'].intercalate (["[Interface]", "PrivateKey = a", "Address = 10.0.0.2/32", "[Peer]",
    "PublicKey = b", "Endpoint = 192.0.2.1:51820", "AllowedIPs = 0.0.0.0/0", "[Peer]",
    "PublicKey = c"].map String.toList)

/-- The key of the second peer with the endpoint of the first. -/
def twoPeersConfig : InterfaceConfig :=
  { hopType := .singleHop
    privateKey := .text "a".toList
    deviceIpv4Address := .text "10.0.0.2/32".toList
    serverPublicKey := .text "c".toList
    serverIpv4AddrIn := .text "192.0.2.1".toList
    serverPort := 51820
    allowedIPAddressRanges := [⟨.ipv4 0#32, 0⟩] }

theorem settings_twoPeersContent : settings twoPeersContent =
    [⟨1, "interface".toList, "privatekey".toList, "a".toList⟩,
      ⟨1, "interface".toList, "address".toList, "10.0.0.2/32".toList⟩,
      ⟨2, "peer".toList, "publickey".toList, "b".toList⟩,
      ⟨2, "peer".toList, "endpoint".toList, "192.0.2.1:51820".toList⟩,
      ⟨2, "peer".toList, "allowedips".toList, "0.0.0.0/0".toList⟩,
      ⟨3, "peer".toList, "publickey".toList, "c".toList⟩] := by
  decide +kernel

theorem two_peers_combined :
    parse dualStackText twoPeersContent = .ok twoPeersConfig ∧
      ¬ FromOnePeer dualStackText twoPeersContent twoPeersConfig := by
  refine ⟨by decide +kernel, ?_⟩
  rintro ⟨n, hkey, -, -, ⟨host, -, hport⟩, -⟩
  -- the key is that of the third section, which has no endpoint
  have hthird : ∀ s ∈ settings twoPeersContent, s.value = "c".toList → s.ordinal = 3 := by
    rw [settings_twoPeersContent]
    decide
  obtain ⟨s, hs, hvalue⟩ := List.mem_map.mp hkey
  obtain ⟨hsec, -⟩ := List.mem_filter.mp hs
  obtain ⟨hmem, hord⟩ := List.mem_filter.mp hsec
  obtain rfl : s.ordinal = n := by simpa using hord
  have hnone : endpoints (inSection 3 (settings twoPeersContent)) = [] := by
    rw [settings_twoPeersContent]
    decide
  rw [hthird s hmem hvalue, hnone] at hport
  exact List.not_mem_nil hport

/-- The text with two endpoints of one peer. -/
theorem fromOnePeer_dualStack : FromOnePeer dualStackText dualStackContent dualStackConfig := by
  refine (fromOnePeer_iff parse_dualStackContent).mpr (onePeer_of_single (n := 2) ?_)
  decide +kernel

end WireGuardConfig

end WgDesktop
