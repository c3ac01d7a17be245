import WgDesktop.Profile.Settings

/-!
# Writing an imported configuration back

What the parser puts into a configuration has a shape (`Imported`): values without comment
characters and line breaks, items without commas, addresses that passed their check. On such a
configuration `toWgConf` writes lines that the parser reads back to the fields they come from.

The written text names one endpoint. The host of the IPv4 field is preferred, so a configuration
that also has an IPv6 endpoint loses it.
-/

namespace WgDesktop

open Text Runs

namespace WireGuardConfig

/-! ## Endpoints -/

/-- A port that `parseEndpoint` lets through. -/
def ValidPort (port : ℤ) : Prop := 0 < port ∧ port ≤ 65535

theorem toInt_decimal {port : ℤ} (h : ValidPort port) : toInt (decimal port) = some port := by
  obtain ⟨n, rfl⟩ := Int.eq_ofNat_of_zero_le h.1.le
  have hbounds := h
  simp only [ValidPort] at hbounds
  rw [decimal_natCast, toInt, (solid_toDigits n).trimmed_eq]
  obtain ⟨d, ds, hd⟩ := List.exists_cons_of_ne_nil (Nat.toDigits_ne_nil (n := n) (b := 10))
  have hdigit : d.isDigit = true := isDigit_of_mem_toDigits (n := n) (by simp [hd])
  have hof := ofDigits_toDigits n
  rw [hd] at hof ⊢
  split
  · rename_i t ht
    obtain ⟨rfl, -⟩ := List.cons.inj ht
    exact absurd hdigit (by decide)
  · rename_i t ht
    obtain ⟨rfl, -⟩ := List.cons.inj ht
    exact absurd hdigit (by decide)
  · rw [hof]
    simp [Option.filter]
    omega

theorem readEndpoint_of_split {value host : List Char} {port : ℤ} (hp : ValidPort port)
    (h : splitEndpoint value = .ok (host, decimal port)) :
    readEndpoint value = .ok (host, port) := by
  have hrange : ¬ (port ≤ 0 ∨ port > 65535) := by
    have := hp
    simp only [ValidPort] at this
    omega
  simp [readEndpoint, h, bind, Except.bind, toInt_decimal hp, hrange]

theorem digits_not_mem {n : ℕ} {c : Char} (h : c.isDigit = false) : c ∉ Nat.toDigits 10 n := by
  intro hc
  rw [isDigit_of_mem_toDigits hc] at h
  cases h

/-- A host that is written without brackets and read back. -/
structure PlainHost (host : List Char) : Prop where
  solid_head : ∃ a, host.head? = some a ∧ isSpace a = false
  bracket : host.head? ≠ some '['
  colon : ':' ∉ host

theorem readEndpoint_plain {host : List Char} {port : ℤ} (hh : PlainHost host)
    (hp : ValidPort port) : readEndpoint (host ++ ':' :: decimal port) = .ok (host, port) := by
  refine readEndpoint_of_split hp ?_
  obtain ⟨n, rfl⟩ := Int.eq_ofNat_of_zero_le hp.1.le
  obtain ⟨a, ha, -⟩ := hh.solid_head
  have hne : host ≠ [] := by
    rintro rfl
    simp at ha
  have hlen : 0 < host.length := List.length_pos_iff.mpr hne
  have hdig : 0 < (Nat.toDigits 10 n).length := List.length_pos_iff.mpr Nat.toDigits_ne_nil
  have hhead : (host ++ ':' :: decimal (n : ℤ)).head? ≠ some '[' := by
    rw [List.head?_append, ha, Option.some_or, ← ha]
    exact hh.bracket
  -- the last colon is the one before the port
  have hlast : (host ++ ':' :: Nat.toDigits 10 n).reverse.idxOf? ':' =
      some (Nat.toDigits 10 n).length := by
    have hnot : ':' ∉ (Nat.toDigits 10 n).reverse := by
      rw [List.mem_reverse]
      exact digits_not_mem (by decide)
    have hrev : (host ++ ':' :: Nat.toDigits 10 n).reverse =
        (Nat.toDigits 10 n).reverse ++ ':' :: host.reverse := by simp
    rw [hrev, idxOf?_append_cons hnot, List.length_reverse]
  have hsep : (host ++ ':' :: Nat.toDigits 10 n).length - 1 - (Nat.toDigits 10 n).length =
      host.length := by
    simp only [List.length_append, List.length_cons]
    omega
  have hends : ¬ (host.length = 0 ∨
      host.length = (host ++ ':' :: Nat.toDigits 10 n).length - 1) := by
    simp only [List.length_append, List.length_cons]
    omega
  rw [decimal_natCast] at hhead ⊢
  simp only [splitEndpoint, hhead, if_false, hlast, hsep, hends, List.take_left', hh.colon]
  simp [List.drop_append]

theorem readEndpoint_bracketed {host : List Char} {port : ℤ} (hh : ']' ∉ host)
    (hp : ValidPort port) :
    readEndpoint ('[' :: host ++ "]:".toList ++ decimal port) = .ok (host, port) := by
  refine readEndpoint_of_split hp ?_
  have hshape : '[' :: host ++ "]:".toList ++ decimal port =
      ('[' :: host) ++ ']' :: ':' :: decimal port := by simp
  have hidx : ('[' :: host ++ "]:".toList ++ decimal port).idxOf? ']' =
      some (host.length + 1) := by
    rw [hshape, idxOf?_append_cons (by simp [hh])]
    simp
  have hdrop : ∀ k, host.drop (host.length + k) = [] :=
    fun k => List.drop_eq_nil_of_le (by omega)
  simp only [splitEndpoint, hidx]
  rw [hshape]
  simp [List.drop_append, hdrop]

/-- What `readEndpoint` accepts: a port in range, and a host between brackets or a host without a
colon before the last colon. -/
theorem readEndpoint_ok {value host : List Char} {port : ℤ}
    (h : readEndpoint value = .ok (host, port)) :
    ValidPort port ∧ host ⊆ value ∧
      ((value.head? = some '[' ∧ ']' ∉ host) ∨
        (value.head? ≠ some '[' ∧ ':' ∉ host ∧ host ≠ [] ∧ host <+: value)) := by
  rw [readEndpoint, bind_eq_ok] at h
  obtain ⟨⟨host', portValue⟩, hsplit, hport⟩ := h
  have hport' : host' = host ∧ ValidPort port := by
    dsimp only at hport
    split at hport
    · cases hport
    · split_ifs at hport with hrange
      simp only [Except.ok.injEq, Prod.mk.injEq] at hport
      obtain ⟨rfl, rfl⟩ := hport
      exact ⟨rfl, by simp only [ValidPort]; omega⟩
  obtain ⟨rfl, hvalid⟩ := hport'
  refine ⟨hvalid, ?_⟩
  unfold splitEndpoint at hsplit
  split_ifs at hsplit with hbracket
  · split at hsplit
    · cases hsplit
    · rename_i closeBracket hclose
      split_ifs at hsplit with hcolon
      simp only [Except.ok.injEq, Prod.mk.injEq] at hsplit
      obtain ⟨rfl, -⟩ := hsplit
      refine ⟨fun c hc => List.drop_subset _ _ (List.take_subset _ _ hc),
        Or.inl ⟨hbracket, fun hc => ?_⟩⟩
      have hin : ']' ∈ value.take closeBracket := by
        rw [← List.drop_take] at hc
        exact List.drop_subset _ _ hc
      exact not_mem_take_of_idxOf? hclose le_rfl hin
  · split at hsplit
    · cases hsplit
    · rename_i fromEnd hfrom
      dsimp only at hsplit
      split_ifs at hsplit with hends hcolon
      simp only [Except.ok.injEq, Prod.mk.injEq] at hsplit
      obtain ⟨rfl, -⟩ := hsplit
      refine ⟨List.take_subset _ _, Or.inr ⟨hbracket, hcolon, ?_, List.take_prefix _ _⟩⟩
      intro hnil
      rw [List.take_eq_nil_iff] at hnil
      rcases hnil with hzero | rfl
      · exact hends (Or.inl hzero)
      · simp at hfrom

/-! ## Imported configurations -/

section Imported

variable (T : HostAddressText)

/-- The shape of the configurations that the parser builds. -/
structure Imported (c : InterfaceConfig) : Prop where
  privateKey : ∀ v, c.privateKey = .text v → Value v
  deviceIpv4Address : ∀ v, c.deviceIpv4Address = .text v → Item v ∧
    isValidAddressWithPrefix T v = true ∧ (T.hostAddress (hostPart v)).protocol = .ipv4Protocol
  deviceIpv6Address : ∀ v, c.deviceIpv6Address = .text v → Item v ∧
    isValidAddressWithPrefix T v = true ∧ (T.hostAddress (hostPart v)).protocol = .ipv6Protocol
  dnsServer : ∀ v, c.dnsServer = .text v → Item v
  serverPublicKey : ∀ v, c.serverPublicKey = .text v → Value v
  serverIpv4AddrIn : ∀ v, c.serverIpv4AddrIn = .text v → Clean v ∧
    (T.hostAddress v).protocol ≠ .ipv6Protocol
  serverIpv6AddrIn : ∀ v, c.serverIpv6AddrIn = .text v → Clean v ∧
    (T.hostAddress v).protocol = .ipv6Protocol ∧ (']' ∉ v ∨ ':' ∉ v)
  serverPort : c.serverPort = 0 ∨ ValidPort c.serverPort
  allowedIPAddressRanges : ∀ p ∈ c.allowedIPAddressRanges,
    ∃ v, Item v ∧ isValidAddressWithPrefix T v = true ∧ p = IPAddress.ofString T v
  defaults : c = { c with
    hopType := .singleHop
    serverIpv4Gateway := .null
    serverIpv6Gateway := .null
    entryCity := .null
    exitCity := .null
    vpnDisabledApps := [] }

variable {T}

theorem imported_init : Imported T { hopType := .singleHop } := by
  constructor
  all_goals simp

theorem Imported.appendAddress {p p' : InterfaceConfig} {v : List Char} (hp : Imported T p)
    (hv : Item v) (h : appendAddress T p v = .ok p') : Imported T p' := by
  unfold WireGuardConfig.appendAddress at h
  split_ifs at h with hvalid
  have hvalid' : isValidAddressWithPrefix T v = true := by simpa using hvalid
  cases hproto : (T.hostAddress (hostPart v)).protocol with
  | unknownNetworkLayerProtocol =>
    rw [hproto] at h
    cases h
  | ipv4Protocol =>
    rw [hproto, Except.ok.injEq] at h
    subst h
    refine { hp with deviceIpv4Address := ?_, defaults := ?_ }
    · rintro w hw
      obtain rfl : v = w := by simpa using hw
      exact ⟨hv, hvalid', hproto⟩
    · exact congrArg (fun c : InterfaceConfig => { c with deviceIpv4Address := .text v })
        hp.defaults
  | ipv6Protocol =>
    rw [hproto, Except.ok.injEq] at h
    subst h
    refine { hp with deviceIpv6Address := ?_, defaults := ?_ }
    · rintro w hw
      obtain rfl : v = w := by simpa using hw
      exact ⟨hv, hvalid', hproto⟩
    · exact congrArg (fun c : InterfaceConfig => { c with deviceIpv6Address := .text v })
        hp.defaults

theorem Imported.parseEndpoint {p p' : InterfaceConfig} {v : List Char} (hp : Imported T p)
    (hv : Value v) (h : parseEndpoint T p v = .ok p') : Imported T p' := by
  rw [WireGuardConfig.parseEndpoint, bind_eq_ok] at h
  obtain ⟨⟨host, port⟩, hread, h⟩ := h
  obtain ⟨hport, hsub, hbracket⟩ := readEndpoint_ok hread
  dsimp only at h
  split_ifs at h with hproto
  · rw [Except.ok.injEq] at h
    subst h
    refine { hp with serverIpv6AddrIn := ?_, serverPort := Or.inr hport, defaults := ?_ }
    · rintro w hw
      obtain rfl : host = w := by simpa using hw
      exact ⟨hv.toClean.subset hsub, hproto, hbracket.imp And.right fun h => h.2.1⟩
    · exact congrArg (fun c : InterfaceConfig =>
        { c with serverIpv6AddrIn := .text host, serverPort := port }) hp.defaults
  · rw [Except.ok.injEq] at h
    subst h
    refine { hp with serverIpv4AddrIn := ?_, serverPort := Or.inr hport, defaults := ?_ }
    · rintro w hw
      obtain rfl : host = w := by simpa using hw
      exact ⟨hv.toClean.subset hsub, hproto⟩
    · exact congrArg (fun c : InterfaceConfig =>
        { c with serverIpv4AddrIn := .text host, serverPort := port }) hp.defaults

theorem Imported.appendAllowedIp {p p' : InterfaceConfig} {v : List Char} (hp : Imported T p)
    (hv : Item v) (h : appendAllowedIp T p v = .ok p') : Imported T p' := by
  unfold WireGuardConfig.appendAllowedIp at h
  split_ifs at h with hvalid
  rw [Except.ok.injEq] at h
  subst h
  refine { hp with allowedIPAddressRanges := ?_, defaults := ?_ }
  · intro q hq
    rcases List.mem_append.mp hq with hq | hq
    · exact hp.allowedIPAddressRanges q hq
    · exact ⟨v, hv, by simpa using hvalid, List.mem_singleton.mp hq⟩
  · exact congrArg (fun c : InterfaceConfig => { c with
      allowedIPAddressRanges := p.allowedIPAddressRanges ++ [IPAddress.ofString T v] }) hp.defaults

theorem Imported.apply {s : Setting} (hs : Value s.value) {p p' : InterfaceConfig}
    (hp : Imported T p) (h : s.apply T p = .ok p') : Imported T p' := by
  unfold Setting.apply applySetting at h
  split_ifs at h
  · rw [Except.ok.injEq] at h
    subst h
    refine { hp with privateKey := ?_, defaults := ?_ }
    · rintro w hw
      obtain rfl : s.value = w := by simpa using hw
      exact hs
    · exact congrArg (fun c : InterfaceConfig => { c with privateKey := .text s.value }) hp.defaults
  · refine foldlM_invariant (fun v hv q q' hq hstep => ?_) hp h
    exact hq.appendAddress (item_of_mem_splitCsv hs.toClean hv) hstep
  · cases hcsv : splitCsv s.value with
    | nil =>
      rw [hcsv, Except.ok.injEq] at h
      exact h ▸ hp
    | cons first rest =>
      rw [hcsv, Except.ok.injEq] at h
      subst h
      refine { hp with dnsServer := ?_, defaults := ?_ }
      · rintro w hw
        obtain rfl : first = w := by simpa using hw
        exact item_of_mem_splitCsv hs.toClean (by simp [hcsv])
      · exact congrArg (fun c : InterfaceConfig => { c with dnsServer := .text first }) hp.defaults
  · rw [Except.ok.injEq] at h
    exact h ▸ hp
  · rw [Except.ok.injEq] at h
    subst h
    refine { hp with serverPublicKey := ?_, defaults := ?_ }
    · rintro w hw
      obtain rfl : s.value = w := by simpa using hw
      exact hs
    · exact congrArg (fun c : InterfaceConfig => { c with serverPublicKey := .text s.value })
        hp.defaults
  · exact hp.parseEndpoint hs h
  · refine foldlM_invariant (fun v hv q q' hq hstep => ?_) hp h
    exact hq.appendAllowedIp (item_of_mem_splitCsv hs.toClean hv) hstep
  · rw [Except.ok.injEq] at h
    exact h ▸ hp
  · rw [Except.ok.injEq] at h
    exact h ▸ hp

theorem imported_of_parse {content : List Char} {c : InterfaceConfig}
    (h : parse T content = .ok c) : Imported T c :=
  parse_invariant imported_init (fun _ hs _ _ hp happly => hp.apply hs happly) h

end Imported

/-! ## Prefixes as items -/

section Items

variable {T : HostAddressText}

theorem value_intercalate {items : List (List Char)} (hne : items ≠ [])
    (h : ∀ s ∈ items, Item s) : Value (", ".toList.intercalate items) := by
  induction items with
  | nil => exact absurd rfl hne
  | cons s items ih =>
    have hs := (h s (by simp)).toValue
    cases items with
    | nil => simpa [List.intercalate] using hs
    | cons s' items =>
      have hrest := ih (by simp) fun s'' hs'' => h s'' (by simp [hs''])
      have hshape : ", ".toList.intercalate (s :: s' :: items) =
          s ++ (", ".toList ++ ", ".toList.intercalate (s' :: items)) := by
        simp [List.intercalate]
      rw [hshape]
      have hsep : Clean ", ".toList := ⟨by decide, by decide, by decide⟩
      exact ⟨hs.toClean.append (hsep.append hrest.toClean), hs.solid.append hrest.solid _⟩

theorem reads_of_valid (hT : T.Lawful) {v : List Char} (h : isValidAddressWithPrefix T v = true) :
    ∃ a n, T.Reads v a n ∧ IPAddress.ofString T v = ⟨a, n⟩ := by
  obtain ⟨hproto, h0⟩ := isValidAddressWithPrefix_iff.mp h
  by_cases hslash : '/' ∈ v
  · rw [if_pos hslash] at hproto h0
    have hreads : T.Reads v (T.parseSubnet v).1 (T.parseSubnet v).2 :=
      ⟨hproto, h0, by rw [if_pos hslash]⟩
    have hle := hT.prefixLength_le _ _ _ hreads
    refine ⟨_, _, hreads, ?_⟩
    rw [IPAddress.ofString_eq_min (by rw [if_pos hslash]) hproto, min_eq_left hle]
  · rw [if_neg hslash] at hproto
    have hreads : T.Reads v (T.hostAddress v) (T.hostAddress v).width :=
      ⟨hproto, Int.natCast_nonneg _, by rw [if_neg hslash]; exact ⟨rfl, rfl⟩⟩
    have hwidth : ((T.hostAddress v).width : ℤ) ≤ 999999 := by
      have hle := (T.hostAddress v).width_le
      omega
    refine ⟨_, _, hreads, ?_⟩
    rw [IPAddress.ofString_eq_min (by rw [if_neg hslash]) hproto, min_eq_right hwidth]

theorem mem_prefixText (hT : T.Lawful) {v : List Char} {a : QHostAddress} {m : ℕ}
    (hreads : T.Reads v a m) {c : Char} (hc : c ∈ IPAddress.toString T ⟨a, m⟩) :
    c ∈ v ∨ c ∈ "0123456789abcdef:.% ".toList ∨ c = '/' ∨ c.isDigit = true := by
  have hslash : ∀ d ∈ ['/', '%', '2'], d ∈ "0123456789abcdef:.% ".toList ∨ d = '/' := by
    rw [List.forall_mem_cons, List.forall_mem_cons, List.forall_mem_singleton]
    exact ⟨Or.inr rfl, Or.inl (by decide), Or.inl (by decide)⟩
  rcases IPAddress.mem_toString hc with hc | hc | hc
  · rcases hT.mem_toString v a m hreads c hc with h | h
    · exact Or.inl h
    · exact Or.inr (Or.inl h)
  · exact Or.inr ((hslash c hc).imp_right Or.inl)
  · rw [decimal_natCast] at hc
    exact Or.inr (Or.inr (Or.inr (isDigit_of_mem_toDigits hc)))

theorem not_mem_prefixText (hT : T.Lawful) {v : List Char} {a : QHostAddress} {m : ℕ}
    (hreads : T.Reads v a m) {d : Char} (hv : d ∉ v) (hd : d ∉ "0123456789abcdef:.% ".toList)
    (hslash : d ≠ '/') (hdigit : d.isDigit = false) : d ∉ IPAddress.toString T ⟨a, m⟩ := by
  intro hmem
  rcases mem_prefixText hT hreads hmem with h | h | h | h
  · exact hv h
  · exact hd h
  · exact hslash h
  · rw [hdigit] at h
    cases h

theorem clean_prefixText (hT : T.Lawful) {v : List Char} (hv : Clean v) {a : QHostAddress} {m : ℕ}
    (hreads : T.Reads v a m) : Clean (IPAddress.toString T ⟨a, m⟩) :=
  ⟨not_mem_prefixText hT hreads hv.hash (by decide) (by decide) (by decide),
    not_mem_prefixText hT hreads hv.semicolon (by decide) (by decide) (by decide),
    not_mem_prefixText hT hreads hv.newline (by decide) (by decide) (by decide)⟩

theorem solid_prefixText (hT : T.Lawful) {v : List Char} {a : QHostAddress} {m : ℕ}
    (hreads : T.Reads v a m) (hscope : IPAddress.NoMarker T ⟨a, m⟩) :
    Solid (IPAddress.toString T ⟨a, m⟩) := by
  obtain ⟨d, hd, hhead⟩ := hT.head_toString v a m hreads
  have hspace : ("0123456789abcdef:".toList.all fun d => !isSpace d) = true := rfl
  simp only [List.all_eq_true, Bool.not_eq_true'] at hspace
  obtain ⟨-, b, hb, hb'⟩ := solid_toDigits m
  refine ⟨⟨d, ?_, hspace d hd⟩, b, ?_, hb'⟩
  · rw [IPAddress.toString_eq hscope, List.head?_append, hhead, Option.some_or]
  · rw [IPAddress.toString_eq hscope, decimal_natCast, List.getLast?_append, List.getLast?_cons, hb]
    simp

theorem item_prefixText (hT : T.Lawful) {v : List Char} (hv : Item v) {a : QHostAddress} {m : ℕ}
    (hreads : T.Reads v a m) (hscope : IPAddress.NoMarker T ⟨a, m⟩) :
    Item (IPAddress.toString T ⟨a, m⟩) :=
  ⟨⟨clean_prefixText hT hv.toClean hreads, solid_prefixText hT hreads hscope⟩,
    not_mem_prefixText hT hreads hv.comma (by decide) (by decide) (by decide)⟩

theorem clean_toString (hT : T.Lawful) {v : List Char} (hv : Clean v)
    (hvalid : isValidAddressWithPrefix T v = true) :
    Clean ((IPAddress.ofString T v).toString T) := by
  obtain ⟨a, n, hreads, heq⟩ := reads_of_valid hT hvalid
  obtain ⟨m, rfl⟩ := Int.eq_ofNat_of_zero_le hreads.2.1
  rw [heq]
  exact clean_prefixText hT hv hreads

/-- The text of a prefix that was read is an item, and is read as the same prefix. -/
theorem item_toString (hT : T.Lawful) {v : List Char} (hv : Item v)
    (hvalid : isValidAddressWithPrefix T v = true) (hscope : (IPAddress.ofString T v).NoMarker T) :
    Item ((IPAddress.ofString T v).toString T) ∧
      isValidAddressWithPrefix T ((IPAddress.ofString T v).toString T) = true ∧
      IPAddress.ofString T ((IPAddress.ofString T v).toString T) = IPAddress.ofString T v := by
  obtain ⟨a, n, hreads, heq⟩ := reads_of_valid hT hvalid
  rw [heq] at hscope ⊢
  have hsub : T.parseSubnet (IPAddress.toString T ⟨a, n⟩) = (a, n) := by
    rw [IPAddress.toString_eq hscope]
    exact hT.parseSubnet_toString v a n hreads
  have hslash : '/' ∈ IPAddress.toString T ⟨a, n⟩ := by
    rw [IPAddress.toString_eq hscope]
    simp
  obtain ⟨hproto, h0, -⟩ := id hreads
  have hvalid' : isValidAddressWithPrefix T (IPAddress.toString T ⟨a, n⟩) = true := by
    rw [isValidAddressWithPrefix, if_neg (not_not.mpr hslash)]
    simp [hsub, hproto, h0]
  refine ⟨?_, hvalid', ?_⟩
  · obtain ⟨m, rfl⟩ := Int.eq_ofNat_of_zero_le h0
    exact item_prefixText hT hv hreads hscope
  · obtain ⟨a', n', hreads', heq'⟩ := reads_of_valid hT hvalid'
    have hpair : (a', n') = (a, n) := by
      have := hreads'.2.2
      rw [if_pos hslash, hsub] at this
      exact this.symm
    obtain ⟨rfl, rfl⟩ := Prod.mk.inj hpair
    exact heq'

end Items

/-! ## Reading the written text -/

section Written

variable {T : HostAddressText}

theorem checkRequired_iff {c : InterfaceConfig} :
    checkRequired c = .ok c ↔ c.privateKey.chars ≠ [] ∧
      (c.deviceIpv4Address.chars ≠ [] ∨ c.deviceIpv6Address.chars ≠ []) ∧
      c.serverPublicKey.chars ≠ [] ∧
      (c.serverIpv4AddrIn.chars ≠ [] ∨ c.serverIpv6AddrIn.chars ≠ []) ∧
      c.serverPort ≠ 0 ∧ c.allowedIPAddressRanges ≠ [] := by
  unfold checkRequired
  simp only [QString.isEmpty, List.isEmpty_iff, Bool.and_eq_true]
  constructor
  · intro h
    split_ifs at h with h1 h2 h3 h4 h5 h6
    exact ⟨h1, not_and_or.mp h2, h3, not_and_or.mp h4, h5, h6⟩
  · rintro ⟨h1, h2, h3, h4, h5, h6⟩
    rw [if_neg h1, if_neg (not_and_or.mpr h2), if_neg h3, if_neg (not_and_or.mpr h4), if_neg h5,
      if_neg h6]

theorem exists_text {s : QString} (h : s.chars ≠ []) : ∃ v, s = .text v := by
  cases s with
  | null => exact absurd rfl h
  | text v => exact ⟨v, rfl⟩

/-- The loop reads a written setting, whose key is made of letters, and applies it. -/
theorem parseLines_setting {section_ key value : List Char} {index : ℕ} {p p' : InterfaceConfig}
    (hne : key ≠ []) (hkey : key.all Char.isAlpha = true) (hvalue : Value value)
    (happly : applySetting T section_ (toLower key) value p = .ok p')
    (lines : List (List Char)) :
    parseLines T index section_ p ((key ++ " = ".toList ++ value) :: lines) =
      parseLines T (index + 1) section_ p' lines := by
  have hletter : ∀ c ∈ key, c.isAlpha = true := List.all_eq_true.mp hkey
  have hnot : ∀ c : Char, c.isAlpha = false → c ∉ key := by
    intro c hc hmem
    rw [hletter c hmem] at hc
    cases hc
  have hsolid : Solid key := by
    refine ⟨⟨_, List.head?_eq_some_head hne, ?_⟩, _, List.getLast?_eq_some_getLast hne, ?_⟩
    · exact not_isSpace_of_isAlpha (hletter _ (List.head_mem hne))
    · exact not_isSpace_of_isAlpha (hletter _ (List.getLast_mem hne))
  have hclean : Clean key :=
    ⟨hnot '#' (by decide), hnot ';' (by decide), hnot '\n' (by decide)⟩
  have hbracket : key.head? ≠ some '[' :=
    fun h => hnot '[' (by decide) (List.mem_of_head? h)
  rw [parseLines, readLine_setting index hclean hsolid (hnot '=' (by decide)) hbracket hvalue]
  simp [bind, Except.bind, happly]

theorem foldlM_appendAllowedIp {ranges : List IPAddress} (hT : T.Lawful)
    (h : ∀ q ∈ ranges, ∃ v, Item v ∧ isValidAddressWithPrefix T v = true ∧
      q = IPAddress.ofString T v) (hscope : ∀ q ∈ ranges, q.NoMarker T) (p : InterfaceConfig) :
    (ranges.map (IPAddress.toString T)).foldlM (appendAllowedIp T) p =
      .ok { p with allowedIPAddressRanges := p.allowedIPAddressRanges ++ ranges } := by
  induction ranges generalizing p with
  | nil => simp [pure, Except.pure]
  | cons q ranges ih =>
    obtain ⟨v, hv, hvalid, rfl⟩ := h q (by simp)
    obtain ⟨-, hvalid', hsame⟩ := item_toString hT hv hvalid (hscope _ (by simp))
    have happend : appendAllowedIp T p ((IPAddress.ofString T v).toString T) = .ok { p with
        allowedIPAddressRanges := p.allowedIPAddressRanges ++ [IPAddress.ofString T v] } := by
      simp [appendAllowedIp, hvalid', hsame]
    rw [List.map_cons, List.foldlM_cons, happend]
    simp only [bind, Except.bind]
    rw [ih (fun q hq => h q (by simp [hq])) fun q hq => hscope q (by simp [hq])]
    simp

theorem foldlM_appendAddress {c : InterfaceConfig} (hc : Imported T c) {p : InterfaceConfig}
    (h4 : p.deviceIpv4Address = .null) (h6 : p.deviceIpv6Address = .null) :
    c.addresses.foldlM (appendAddress T) p = .ok { p with
      deviceIpv4Address := c.deviceIpv4Address
      deviceIpv6Address := c.deviceIpv6Address } := by
  have hfour : ∀ q v, c.deviceIpv4Address = .text v →
      appendAddress T q v = .ok { q with deviceIpv4Address := .text v } := by
    intro q v hv
    obtain ⟨-, hvalid, hproto⟩ := hc.deviceIpv4Address v hv
    simp [appendAddress, hvalid, hproto]
  have hsix : ∀ q v, c.deviceIpv6Address = .text v →
      appendAddress T q v = .ok { q with deviceIpv6Address := .text v } := by
    intro q v hv
    obtain ⟨-, hvalid, hproto⟩ := hc.deviceIpv6Address v hv
    simp [appendAddress, hvalid, hproto]
  obtain ⟨hop, pk, d4, d6, g4, g6, spk, s4, s6, dns, ec, xc, port, ranges, apps⟩ := p
  obtain rfl : d4 = .null := h4
  obtain rfl : d6 = .null := h6
  cases h4c : c.deviceIpv4Address with
  | null =>
    cases h6c : c.deviceIpv6Address with
    | null => simp [InterfaceConfig.addresses, h4c, h6c, pure, Except.pure]
    | text w => simp [InterfaceConfig.addresses, h4c, h6c, hsix _ w h6c]
  | text v =>
    cases h6c : c.deviceIpv6Address with
    | null => simp [InterfaceConfig.addresses, h4c, h6c, hfour _ v h4c]
    | text w =>
      simp [InterfaceConfig.addresses, h4c, h6c, hfour _ v h4c, hsix _ w h6c, bind, Except.bind,
        pure, Except.pure]

theorem item_of_mem_addresses {c : InterfaceConfig} (hc : Imported T c) {s : List Char}
    (h : s ∈ c.addresses) : Item s := by
  cases h4c : c.deviceIpv4Address with
  | null =>
    cases h6c : c.deviceIpv6Address with
    | null => simp [InterfaceConfig.addresses, h4c, h6c] at h
    | text w =>
      obtain rfl : s = w := by simpa [InterfaceConfig.addresses, h4c, h6c] using h
      exact (hc.deviceIpv6Address s h6c).1
  | text v =>
    cases h6c : c.deviceIpv6Address with
    | null =>
      obtain rfl : s = v := by simpa [InterfaceConfig.addresses, h4c, h6c] using h
      exact (hc.deviceIpv4Address s h4c).1
    | text w =>
      have hs : s = v ∨ s = w := by simpa [InterfaceConfig.addresses, h4c, h6c] using h
      rcases hs with rfl | rfl
      · exact (hc.deviceIpv4Address s h4c).1
      · exact (hc.deviceIpv6Address s h6c).1

/-- The `DNS` line is there when there is a server, and gives it back. -/
theorem parseLines_dnsLine {c : InterfaceConfig} (hc : Imported T c) :
    ∃ lines, c.dnsLine = lines.flatMap (· ++ ['\n']) ∧ (∀ l ∈ lines, '\n' ∉ l) ∧
      ∀ index p rest, p.dnsServer = .null →
        parseLines T index "interface".toList p (lines ++ rest) =
          parseLines T (index + lines.length) "interface".toList
            { p with dnsServer := c.dnsServer } rest := by
  have hgateway : c.serverIpv4Gateway = .null := by rw [hc.defaults]
  cases hdns : c.dnsServer with
  | null =>
    refine ⟨[], by simp [InterfaceConfig.dnsLine, hdns], by simp, fun index p rest hp => ?_⟩
    rw [← hp, List.nil_append]
    rfl
  | text v =>
    have hv := hc.dnsServer v hdns
    have hother : (QString.text v == c.serverIpv4Gateway) = false := by
      rw [hgateway, ← Bool.not_eq_true, QString.beq_iff]
      exact hv.solid.ne_nil
    refine ⟨["DNS".toList ++ " = ".toList ++ v], ?_, ?_, fun index p rest hp => ?_⟩
    · simp [InterfaceConfig.dnsLine, hdns, hother, List.intercalate]
    · simpa using hv.newline
    · refine parseLines_setting (by decide) (by decide) hv.toValue ?_ rest
      have hlower : toLower "DNS".toList = "dns".toList := by decide
      rw [hlower]
      simp [applySetting, splitCsv_singleton hv]

/-- The endpoint that is written: the host of the IPv4 field if there is one, else the IPv6
address. -/
theorem parseEndpoint_endpointLine (hT : T.Lawful) {c : InterfaceConfig} (hc : Imported T c)
    (hport : ValidPort c.serverPort)
    (hhost : c.serverIpv4AddrIn = .null ∨ PlainHost c.serverIpv4AddrIn.chars)
    (hsome : c.serverIpv4AddrIn.chars ≠ [] ∨ c.serverIpv6AddrIn.chars ≠ []) :
    ∃ value, Value value ∧
      c.endpointLine = "Endpoint".toList ++ " = ".toList ++ value ++ ['\n'] ∧
      ∀ p, p.serverIpv4AddrIn = .null → p.serverIpv6AddrIn = .null →
        parseEndpoint T p value = .ok { p with
          serverIpv4AddrIn := c.serverIpv4AddrIn
          serverIpv6AddrIn :=
            if c.serverIpv4AddrIn.isNull then c.serverIpv6AddrIn else .null
          serverPort := c.serverPort } := by
  have hdecimal : Clean (decimal c.serverPort) ∧ Solid (decimal c.serverPort) := by
    obtain ⟨n, hn⟩ := Int.eq_ofNat_of_zero_le hport.1.le
    rw [hn, decimal_natCast]
    exact ⟨⟨digits_not_mem (by decide), digits_not_mem (by decide), digits_not_mem (by decide)⟩,
      solid_toDigits n⟩
  obtain ⟨hclean, -, b, hb, hb'⟩ := hdecimal
  cases h4 : c.serverIpv4AddrIn with
  | text host =>
    have hplain : PlainHost host := by simpa [h4] using hhost
    obtain ⟨hchost, hproto⟩ := hc.serverIpv4AddrIn host h4
    refine ⟨host ++ ':' :: decimal c.serverPort, ⟨?_, ?_, b, ?_, hb'⟩, ?_, ?_⟩
    · exact hchost.append (Clean.append (s := [':']) ⟨by decide, by decide, by decide⟩ hclean)
    · obtain ⟨a, ha, ha'⟩ := hplain.solid_head
      exact ⟨a, by rw [List.head?_append, ha, Option.some_or], ha'⟩
    · rw [List.getLast?_append, List.getLast?_cons, hb]
      rfl
    · simp [InterfaceConfig.endpointLine, h4]
    · intro p hp4 hp6
      rw [parseEndpoint, readEndpoint_plain hplain hport]
      simp [bind, Except.bind, hproto, ← hp6]
  | null =>
    obtain ⟨host, h6⟩ := exists_text (by simpa [h4] using hsome : c.serverIpv6AddrIn.chars ≠ [])
    obtain ⟨hchost, hproto, hbracket⟩ := hc.serverIpv6AddrIn host h6
    have hclose : ']' ∉ host :=
      hbracket.resolve_right fun hcolon => hcolon (hT.colon_mem host hproto)
    refine ⟨'[' :: host ++ "]:".toList ++ decimal c.serverPort, ⟨?_, ?_, b, ?_, hb'⟩, ?_, ?_⟩
    · refine Clean.append (Clean.append ?_ ⟨by decide, by decide, by decide⟩) hclean
      exact Clean.append (s := ['[']) ⟨by decide, by decide, by decide⟩ hchost
    · exact ⟨'[', rfl, by decide⟩
    · rw [List.getLast?_append, hb, Option.some_or]
    · simp [InterfaceConfig.endpointLine, h4, h6]
    · intro p hp4 hp6
      rw [parseEndpoint, readEndpoint_bracketed hclose hport]
      simp [bind, Except.bind, hproto, h6, hp4]

/-- The configuration a written one is read as: the IPv6 endpoint is dropped when there is another
one. -/
def withWrittenEndpoint (c : InterfaceConfig) : InterfaceConfig := { c with
  serverIpv6AddrIn := if c.serverIpv4AddrIn.isNull then c.serverIpv6AddrIn else .null }

theorem addresses_ne_nil {c : InterfaceConfig}
    (h : c.deviceIpv4Address.chars ≠ [] ∨ c.deviceIpv6Address.chars ≠ []) : c.addresses ≠ [] := by
  rcases h with h | h
  · obtain ⟨v, hv⟩ := exists_text h
    simp [InterfaceConfig.addresses, hv]
  · obtain ⟨v, hv⟩ := exists_text h
    simp [InterfaceConfig.addresses, hv]

theorem newline_not_mem {s : QString} (h : ∀ v, s = .text v → Clean v) : '\n' ∉ s.chars := by
  cases s with
  | null => simp
  | text v => exact (h v rfl).newline

/-- No field of an imported configuration stops the writer. -/
theorem newline_not_mem_validated {c : InterfaceConfig} (hc : Imported T c) :
    ∀ s ∈ c.validated, '\n' ∉ s.chars := by
  have hgateway4 : c.serverIpv4Gateway = .null := by rw [hc.defaults]
  have hgateway6 : c.serverIpv6Gateway = .null := by rw [hc.defaults]
  intro s hs
  simp only [InterfaceConfig.validated, hgateway4, hgateway6, List.mem_cons, List.not_mem_nil,
    or_false] at hs
  rcases hs with rfl | rfl | rfl | rfl | rfl | rfl | rfl | rfl
  · exact newline_not_mem fun v hv => (hc.privateKey v hv).toClean
  · exact newline_not_mem fun v hv => (hc.deviceIpv4Address v hv).1.toClean
  · exact newline_not_mem fun v hv => (hc.deviceIpv6Address v hv).1.toClean
  · simp
  · simp
  · exact newline_not_mem fun v hv => (hc.serverPublicKey v hv).toClean
  · exact newline_not_mem fun v hv => (hc.serverIpv4AddrIn v hv).1
  · exact newline_not_mem fun v hv => (hc.serverIpv6AddrIn v hv).1

theorem checkRequired_withWrittenEndpoint {c : InterfaceConfig} (h : checkRequired c = .ok c)
    (hhost : c.serverIpv4AddrIn = .null ∨ PlainHost c.serverIpv4AddrIn.chars) :
    checkRequired (withWrittenEndpoint c) = .ok (withWrittenEndpoint c) := by
  obtain ⟨hpk, haddr, hspk, hend, hport, hranges⟩ := checkRequired_iff.mp h
  refine checkRequired_iff.mpr ⟨hpk, haddr, hspk, ?_, hport, hranges⟩
  rcases hhost with h4 | hplain
  · simpa [withWrittenEndpoint, h4] using hend
  · obtain ⟨a, ha, -⟩ := hplain.solid_head
    refine Or.inl fun hnil => ?_
    rw [show c.serverIpv4AddrIn.chars = [] from hnil] at ha
    cases ha

theorem applySetting_privateKey (v : List Char) (p : InterfaceConfig) :
    applySetting T "interface".toList (toLower "PrivateKey".toList) v p =
      .ok { p with privateKey := .text v } := rfl

theorem applySetting_address (v : List Char) (p : InterfaceConfig) :
    applySetting T "interface".toList (toLower "Address".toList) v p =
      (splitCsv v).foldlM (appendAddress T) p := rfl

theorem applySetting_publicKey (v : List Char) (p : InterfaceConfig) :
    applySetting T "peer".toList (toLower "PublicKey".toList) v p =
      .ok { p with serverPublicKey := .text v } := rfl

theorem applySetting_endpoint (v : List Char) (p : InterfaceConfig) :
    applySetting T "peer".toList (toLower "Endpoint".toList) v p = parseEndpoint T p v := rfl

theorem applySetting_allowedIPs (v : List Char) (p : InterfaceConfig) :
    applySetting T "peer".toList (toLower "AllowedIPs".toList) v p =
      (splitCsv v).foldlM (appendAllowedIp T) p := rfl

theorem parseLines_header {raw section_ : List Char} {index : ℕ} (name : List Char)
    (h : readLine index raw = .ok (.header name)) (p : InterfaceConfig)
    (lines : List (List Char)) :
    parseLines T index section_ p (raw :: lines) = parseLines T (index + 1) name p lines := by
  rw [parseLines, h]
  rfl

theorem parseLines_blank {section_ : List Char} {index : ℕ} (p : InterfaceConfig)
    (lines : List (List Char)) :
    parseLines T index section_ p ([] :: lines) = parseLines T (index + 1) section_ p lines := rfl

theorem parseLines_interface {c : InterfaceConfig} (hc : Imported T c) {privateKey : List Char}
    (hpk : c.privateKey = .text privateKey) (haddr : c.addresses ≠ []) {index : ℕ}
    (lines : List (List Char)) :
    parseLines T index "interface".toList { hopType := .singleHop }
        (("PrivateKey".toList ++ " = ".toList ++ privateKey) ::
          ("Address".toList ++ " = ".toList ++ ", ".toList.intercalate c.addresses) :: lines) =
      parseLines T (index + 2) "interface".toList
        { hopType := .singleHop
          privateKey := c.privateKey
          deviceIpv4Address := c.deviceIpv4Address
          deviceIpv6Address := c.deviceIpv6Address } lines := by
  have hitem : ∀ s ∈ c.addresses, Item s := fun s hs => item_of_mem_addresses hc hs
  rw [parseLines_setting (by decide) (by decide) (hc.privateKey _ hpk)
    (applySetting_privateKey _ _), hpk]
  refine parseLines_setting (by decide) (by decide) (value_intercalate haddr hitem) ?_ lines
  rw [applySetting_address, splitCsv_intercalate hitem, foldlM_appendAddress hc rfl rfl]

theorem item_of_mem_ranges (hT : T.Lawful) {c : InterfaceConfig} (hc : Imported T c)
    (hscope : ∀ q ∈ c.allowedIPAddressRanges, q.NoMarker T) {s : List Char}
    (h : s ∈ c.allowedIPAddressRanges.map (IPAddress.toString T)) : Item s := by
  obtain ⟨q, hq, rfl⟩ := List.mem_map.mp h
  obtain ⟨v, hv, hvalid, rfl⟩ := hc.allowedIPAddressRanges q hq
  exact (item_toString hT hv hvalid (hscope _ hq)).1

theorem parseLines_peer (hT : T.Lawful) {c : InterfaceConfig} (hc : Imported T c)
    (hscope : ∀ q ∈ c.allowedIPAddressRanges, q.NoMarker T) {publicKey endpoint : List Char}
    (hspk : c.serverPublicKey = .text publicKey)
    (hend : Value endpoint) {p : InterfaceConfig} (hp : p.allowedIPAddressRanges = [])
    {s4 s6 : QString} {port : ℤ}
    (hread : parseEndpoint T { p with serverPublicKey := .text publicKey } endpoint = .ok { p with
      serverPublicKey := .text publicKey, serverIpv4AddrIn := s4, serverIpv6AddrIn := s6,
      serverPort := port })
    (hranges : c.allowedIPAddressRanges ≠ []) {index : ℕ} :
    parseLines T index "peer".toList p
        [("PublicKey".toList ++ " = ".toList ++ publicKey),
          ("Endpoint".toList ++ " = ".toList ++ endpoint),
          ("AllowedIPs".toList ++ " = ".toList ++
            ", ".toList.intercalate (c.allowedIPAddressRanges.map (IPAddress.toString T))), []] =
      .ok { p with
        serverPublicKey := c.serverPublicKey, serverIpv4AddrIn := s4, serverIpv6AddrIn := s6,
        serverPort := port, allowedIPAddressRanges := c.allowedIPAddressRanges } := by
  have hitem : ∀ s ∈ c.allowedIPAddressRanges.map (IPAddress.toString T), Item s :=
    fun s hs => item_of_mem_ranges hT hc hscope hs
  rw [parseLines_setting (by decide) (by decide) (hc.serverPublicKey _ hspk)
    (applySetting_publicKey _ _),
    parseLines_setting (by decide) (by decide) hend ((applySetting_endpoint _ _).trans hread),
    hspk]
  refine parseLines_setting (by decide) (by decide)
    (value_intercalate (by simpa using hranges) hitem) ?_ [[]]
  rw [applySetting_allowedIPs, splitCsv_intercalate hitem,
    foldlM_appendAllowedIp hT hc.allowedIPAddressRanges hscope]
  simp [hp]

theorem lines_toWgConf {c : InterfaceConfig} {dnsLines : List (List Char)} {endpoint : List Char}
    (hvalidated : ∀ s ∈ c.validated, '\n' ∉ s.chars) (haddr : c.addresses ≠ [])
    (hdnsText : c.dnsLine = dnsLines.flatMap (· ++ ['\n'])) (hdns : ∀ l ∈ dnsLines, '\n' ∉ l)
    (hendText : c.endpointLine = "Endpoint".toList ++ " = ".toList ++ endpoint ++ ['\n'])
    (hend : '\n' ∉ endpoint) (haddress : '\n' ∉ ", ".toList.intercalate c.addresses)
    (hrange : '\n' ∉
      ", ".toList.intercalate (c.allowedIPAddressRanges.map (IPAddress.toString T))) :
    (c.toWgConf T [] []).splitOn '\n' =
      "[Interface]".toList :: ("PrivateKey".toList ++ " = ".toList ++ c.privateKey.chars) ::
        ("Address".toList ++ " = ".toList ++ ", ".toList.intercalate c.addresses) :: (dnsLines ++
        [[], "[Peer]".toList, "PublicKey".toList ++ " = ".toList ++ c.serverPublicKey.chars,
        "Endpoint".toList ++ " = ".toList ++ endpoint,
        "AllowedIPs".toList ++ " = ".toList ++
          ", ".toList.intercalate (c.allowedIPAddressRanges.map (IPAddress.toString T)), []]) := by
  have htext : c.toWgConf T [] [] =
      ("[Interface]".toList :: ("PrivateKey".toList ++ " = ".toList ++ c.privateKey.chars) ::
        ("Address".toList ++ " = ".toList ++ ", ".toList.intercalate c.addresses) :: (dnsLines ++
        [[], "[Peer]".toList, "PublicKey".toList ++ " = ".toList ++ c.serverPublicKey.chars,
        "Endpoint".toList ++ " = ".toList ++ endpoint,
        "AllowedIPs".toList ++ " = ".toList ++
          ", ".toList.intercalate (c.allowedIPAddressRanges.map (IPAddress.toString T))])).flatMap
        (· ++ ['\n']) := by
    have hstop : (c.validated.any fun s => s.chars.contains '\n') = false := by
      simpa using hvalidated
    rw [InterfaceConfig.toWgConf, hstop, hdnsText, hendText]
    simp [haddr, InterfaceConfig.commentLines]
  rw [htext, splitOn_flatMap_append]
  · simp
  · intro l hl
    have hprivate : '\n' ∉ c.privateKey.chars :=
      hvalidated _ (by simp [InterfaceConfig.validated])
    have hpublic : '\n' ∉ c.serverPublicKey.chars :=
      hvalidated _ (by simp [InterfaceConfig.validated])
    simp only [List.mem_cons, List.mem_append, List.not_mem_nil, or_false] at hl
    rcases hl with rfl | rfl | rfl | hl | rfl | rfl | rfl | rfl | rfl
    · decide
    · simpa using hprivate
    · simpa using haddress
    · exact hdns l hl
    · decide
    · decide
    · simpa using hpublic
    · simpa using hend
    · simpa using hrange

/-- **Round trip.** An accepted configuration whose IPv4 or host name endpoint, if any, is a plain
host, and whose ranges have no scope ids that are place markers, is read back from its own text, up
to an IPv6 endpoint beside the written one. -/
theorem parse_toWgConf (hT : T.Lawful) {content : List Char} {c : InterfaceConfig}
    (h : parse T content = .ok c)
    (hhost : c.serverIpv4AddrIn = .null ∨ PlainHost c.serverIpv4AddrIn.chars)
    (hscope : ∀ q ∈ c.allowedIPAddressRanges, q.NoMarker T) :
    parse T (c.toWgConf T [] []) = .ok (withWrittenEndpoint c) := by
  have hc := imported_of_parse h
  have hcheck := (foldlM_settings_of_parse h).2
  obtain ⟨hpk, haddr, hspk, hend, hport, hranges⟩ := checkRequired_iff.mp hcheck
  obtain ⟨privateKey, hpk⟩ := exists_text hpk
  obtain ⟨publicKey, hspk⟩ := exists_text hspk
  have hport := hc.serverPort.resolve_left hport
  obtain ⟨dnsLines, hdnsText, hdnsClean, hdnsRead⟩ := parseLines_dnsLine hc
  obtain ⟨endpoint, hendValue, hendText, hendRead⟩ :=
    parseEndpoint_endpointLine hT hc hport hhost hend
  have haddrNe := addresses_ne_nil haddr
  have hsplit : (c.toWgConf T [] []).splitOn '\n' =
      "[Interface]".toList :: ("PrivateKey".toList ++ " = ".toList ++ privateKey) ::
        ("Address".toList ++ " = ".toList ++ ", ".toList.intercalate c.addresses) :: (dnsLines ++
        [[], "[Peer]".toList, "PublicKey".toList ++ " = ".toList ++ publicKey,
        "Endpoint".toList ++ " = ".toList ++ endpoint,
        "AllowedIPs".toList ++ " = ".toList ++
          ", ".toList.intercalate (c.allowedIPAddressRanges.map (IPAddress.toString T)), []]) := by
    have hrange := value_intercalate (by simpa using hranges)
      fun s hs => item_of_mem_ranges hT hc hscope hs
    have haddress := value_intercalate haddrNe fun s hs => item_of_mem_addresses hc hs
    rw [lines_toWgConf (newline_not_mem_validated hc) haddrNe hdnsText hdnsClean hendText
      hendValue.newline haddress.newline hrange.newline, hpk, hspk]
    rfl
  have hread : parseLines T 0 [] { hopType := .singleHop } ((c.toWgConf T [] []).splitOn '\n') =
      .ok (withWrittenEndpoint c) := by
    rw [hsplit, parseLines_header "interface".toList rfl,
      parseLines_interface hc hpk haddrNe, hdnsRead _ _ _ (by rfl), parseLines_blank,
      parseLines_header "peer".toList rfl,
      parseLines_peer hT hc hscope hspk hendValue rfl (hendRead _ rfl rfl) hranges]
    conv_rhs => rw [withWrittenEndpoint, hc.defaults]
  rw [parse, hread]
  exact checkRequired_withWrittenEndpoint hcheck hhost

end Written

/-! ## Two endpoints -/

/-- The addresses of the texts below. -/
def dualStackText : HostAddressText :=
  .ofTable
    [("10.0.0.2".toList, .ipv4 0x0a000002#32), ("192.0.2.1".toList, .ipv4 0xc0000201#32),
      ("0.0.0.0".toList, .ipv4 0#32),
      ("2001:db8::1".toList, .ipv6 0x20010db8000000000000000000000001#128 [])]
    [("10.0.0.2/32".toList, .ipv4 0x0a000002#32, 32),
      ("192.0.2.1/32".toList, .ipv4 0xc0000201#32, 32),
      ("0.0.0.0/32".toList, .ipv4 0#32, 32), ("0.0.0.0/0".toList, .ipv4 0#32, 0),
      ("2001:db8::1/128".toList, .ipv6 0x20010db8000000000000000000000001#128 [], 128)]

theorem lawful_dualStackText : dualStackText.Lawful := by
  refine HostAddressText.lawful_ofTable ?_ ?_
  · decide
  · decide

/-- A peer with an IPv4 and an IPv6 endpoint. -/
def dualStackContent : List Char :=
  ['\n'].intercalate (["[Interface]", "PrivateKey = a", "Address = 10.0.0.2/32", "[Peer]",
    "PublicKey = b", "Endpoint = 192.0.2.1:51820", "Endpoint = [2001:db8::1]:51820",
    "AllowedIPs = 0.0.0.0/0"].map String.toList)

def dualStackConfig : InterfaceConfig :=
  { hopType := .singleHop
    privateKey := .text "a".toList
    deviceIpv4Address := .text "10.0.0.2/32".toList
    serverPublicKey := .text "b".toList
    serverIpv4AddrIn := .text "192.0.2.1".toList
    serverIpv6AddrIn := .text "2001:db8::1".toList
    serverPort := 51820
    allowedIPAddressRanges := [⟨.ipv4 0#32, 0⟩] }

theorem parse_dualStackContent : parse dualStackText dualStackContent = .ok dualStackConfig := by
  decide +kernel

theorem parse_toWgConf_dualStack :
    parse dualStackText (dualStackConfig.toWgConf dualStackText [] []) =
      .ok (withWrittenEndpoint dualStackConfig) :=
  parse_toWgConf lawful_dualStackText parse_dualStackContent
    (Or.inr ⟨⟨'1', rfl, by decide⟩, by decide, by decide⟩) (by
      rw [dualStackConfig, List.forall_mem_singleton, IPAddress.NoMarker,
        show dualStackText.toString (.ipv4 0#32) = "0.0.0.0".toList by decide]
      decide)

/-- The IPv6 endpoint beside an IPv4 one does not survive. -/
theorem ipv6_endpoint_not_written :
    dualStackText.Lawful ∧ ∃ c c', parse dualStackText dualStackContent = .ok c ∧
      parse dualStackText (c.toWgConf dualStackText [] []) = .ok c' ∧
      c'.serverIpv6AddrIn ≠ c.serverIpv6AddrIn := by
  refine ⟨lawful_dualStackText, dualStackConfig, withWrittenEndpoint dualStackConfig,
    parse_dualStackContent, ?_, ?_⟩
  · decide +kernel
  · decide

end WireGuardConfig

end WgDesktop
