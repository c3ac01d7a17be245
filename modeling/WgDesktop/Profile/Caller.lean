import WgDesktop.Profile.RoundTrip

/-!
# What the caller of the import gets

`WireGuardConfig::parse` as its caller sees it: it fills a local configuration while it reads, so a
failure finds it partly filled, and assigns it to the caller's object behind the last check.
`parseCall_eq` connects this to the function `parse` on texts. `parse_atomic` says what a call
leaves: the caller's object as it was, or a configuration that is complete and in range.
-/

namespace WgDesktop

open Text Runs

namespace WireGuardConfig

/-! ## The body -/

/-- What the body can write: the caller's `config`, the caller's `error` if there is one, and its
locals. -/
structure Frame where
  config : InterfaceConfig
  error : Option QString
  parsed : InterfaceConfig
  section_ : List Char

/-- The statements of the body; `throw` is `return false`. -/
abbrev Body := ExceptT Unit (StateM Frame) Unit

def setError (message : QString) : Body :=
  modify fun s => { s with error := s.error.map fun _ => message }

/-- `setError` with a message, and `return false`. -/
def fail (e : ParseError) : Body := do
  setError (.text e.message)
  throw ()

/-- An assignment to fields of `parsed`. -/
def store (f : InterfaceConfig → InterfaceConfig) : Body :=
  modify fun s => { s with parsed := f s.parsed }

section Body

variable (T : HostAddressText)

def appendAddressBody (value : List Char) : Body :=
  if !isValidAddressWithPrefix T value then fail (.invalidAddress value)
  else
    match (T.hostAddress (hostPart value)).protocol with
    | .ipv4Protocol => store fun c => { c with deviceIpv4Address := .text value }
    | .ipv6Protocol => store fun c => { c with deviceIpv6Address := .text value }
    | .unknownNetworkLayerProtocol => fail (.invalidAddress value)

def parseEndpointBody (value : List Char) : Body :=
  match readEndpoint value with
  | .error e => fail e
  | .ok (host, parsedPort) => do
    if (T.hostAddress host).protocol = .ipv6Protocol then
      store fun c => { c with serverIpv6AddrIn := .text host }
    else store fun c => { c with serverIpv4AddrIn := .text host }
    store fun c => { c with serverPort := parsedPort }

def appendAllowedIpBody (value : List Char) : Body :=
  if !isValidAddressWithPrefix T value then fail (.invalidAllowedIPs value)
  else store fun c =>
    { c with allowedIPAddressRanges := c.allowedIPAddressRanges ++ [IPAddress.ofString T value] }

def settingBody (section_ key value : List Char) : Body :=
  if section_ = "interface".toList then
    if key = "privatekey".toList then store fun c => { c with privateKey := .text value }
    else if key = "address".toList then (splitCsv value).forM (appendAddressBody T)
    else if key = "dns".toList then
      match splitCsv value with
      | [] => pure ()
      | first :: _ => store fun c => { c with dnsServer := .text first }
    else pure ()
  else if section_ = "peer".toList then
    if key = "publickey".toList then store fun c => { c with serverPublicKey := .text value }
    else if key = "endpoint".toList then parseEndpointBody T value
    else if key = "allowedips".toList then (splitCsv value).forM (appendAllowedIpBody T)
    else pure ()
  else pure ()

/-- One turn of the loop. -/
def lineBody (index : ℕ) (raw : List Char) : Body :=
  match readLine index raw with
  | .error e => fail e
  | .ok .blank => pure ()
  | .ok (.header name) => modify fun s => { s with section_ := name }
  | .ok (.setting key value) => do
    let s ← get
    settingBody T s.section_ key value

def linesBody : ℕ → List (List Char) → Body
  | _, [] => pure ()
  | index, raw :: lines => do
    lineBody T index raw
    linesBody (index + 1) lines

/-- The checks behind the loop. -/
def requiredBody : Body := do
  let s ← get
  match checkRequired s.parsed with
  | .error e => fail e
  | .ok _ => pure ()

def body (content : List Char) : Body := do
  linesBody T 0 (content.splitOn '\n')
  requiredBody
  modify fun s => { s with config := s.parsed }
  setError .null

/-- The call `parse(content, config, &error)`: what it returns, and what it leaves in the caller's
two objects. Without an `error` the third argument is `none`. -/
def parseCall (content : List Char) (config : InterfaceConfig) (error : Option QString) :
    Bool × InterfaceConfig × Option QString :=
  let r := exec (body T content)
    { config, error, parsed := { hopType := .singleHop }, section_ := [] }
  (r.1.isOk, r.2.config, r.2.error)

end Body

/-! ## What each statement does -/

/-- The frame of a failed body: the message is set, and the locals are as far as they came. -/
def Failed (s : Frame) (e : ParseError) (out : Except Unit Unit × Frame) : Prop :=
  ∃ parsed section_, out = (.error (), { s with
    parsed, section_, error := s.error.map fun _ => .text e.message })

/-- A statement does to `parsed` what `f` says, and to nothing else unless it fails. -/
def Computes (m : Body) (f : InterfaceConfig → Except ParseError InterfaceConfig) : Prop :=
  ∀ s, match f s.parsed with
    | .ok p => exec m s = (.ok (), { s with parsed := p })
    | .error e => Failed s e (exec m s)

theorem failed_fail (s : Frame) (e : ParseError) : Failed s e (exec (fail e) s) :=
  ⟨s.parsed, s.section_, rfl⟩

theorem computes_fail (e : ParseError) : Computes (fail e) fun _ => .error e :=
  fun s => failed_fail s e

theorem computes_store (f : InterfaceConfig → InterfaceConfig) :
    Computes (store f) fun p => .ok (f p) := fun _ => rfl

theorem computes_pure : Computes (pure ()) fun p => .ok p := fun _ => rfl

theorem Failed.trans {s s' : Frame} {e : ParseError} {out : Except Unit Unit × Frame}
    (hconfig : s'.config = s.config) (herror : s'.error = s.error) (h : Failed s' e out) :
    Failed s e out := by
  obtain ⟨parsed, section_, hout⟩ := h
  refine ⟨parsed, section_, ?_⟩
  rw [hout, hconfig, herror]

theorem Computes.bind {m m' : Body} {f g : InterfaceConfig → Except ParseError InterfaceConfig}
    (hm : Computes m f) (hm' : Computes m' g) :
    Computes (do m; m') fun p => f p >>= g := by
  intro s
  have hfirst := hm s
  cases hf : f s.parsed with
  | error e =>
    rw [hf] at hfirst
    obtain ⟨parsed, section_, hout⟩ := hfirst
    simp only [hf]
    refine ⟨parsed, section_, ?_⟩
    rw [exec_bind, hout]
  | ok p =>
    rw [hf] at hfirst
    have hsecond := hm' { s with parsed := p }
    have hrun : exec (m >>= fun _ => m') s = exec m' { s with parsed := p } :=
      exec_bind_ok hfirst
    simp only [hf, hrun]
    change match g p with
      | .ok p => exec m' _ = _
      | .error e => Failed s e (exec m' _)
    cases hg : g p with
    | error e =>
      simp only [hg] at hsecond
      exact hsecond.trans rfl rfl
    | ok q =>
      simp only [hg] at hsecond
      exact hsecond

theorem computes_forM {α : Type} {m : α → Body}
    {f : InterfaceConfig → α → Except ParseError InterfaceConfig}
    (h : ∀ a, Computes (m a) fun p => f p a) (as : List α) :
    Computes (as.forM m) fun p => as.foldlM f p := by
  induction as with
  | nil => exact computes_pure
  | cons a as ih => exact (h a).bind ih

section Statements

variable (T : HostAddressText)

theorem computes_appendAddress (value : List Char) :
    Computes (appendAddressBody T value) fun p => appendAddress T p value := by
  unfold appendAddressBody appendAddress
  split_ifs
  · exact computes_fail _
  · cases (T.hostAddress (hostPart value)).protocol with
    | ipv4Protocol => exact computes_store _
    | ipv6Protocol => exact computes_store _
    | unknownNetworkLayerProtocol => exact computes_fail _

theorem computes_parseEndpoint (value : List Char) :
    Computes (parseEndpointBody T value) fun p => parseEndpoint T p value := by
  unfold parseEndpointBody parseEndpoint
  cases readEndpoint value with
  | error e => exact computes_fail e
  | ok endpoint =>
    obtain ⟨host, parsedPort⟩ := endpoint
    dsimp only [bind, Except.bind]
    split_ifs
    · exact (computes_store _).bind (computes_store _)
    · exact (computes_store _).bind (computes_store _)

theorem computes_appendAllowedIp (value : List Char) :
    Computes (appendAllowedIpBody T value) fun p => appendAllowedIp T p value := by
  unfold appendAllowedIpBody appendAllowedIp
  split_ifs
  · exact computes_fail _
  · exact computes_store _

theorem computes_setting (section_ key value : List Char) :
    Computes (settingBody T section_ key value) (applySetting T section_ key value) := by
  unfold settingBody applySetting
  split_ifs
  · exact computes_store _
  · exact computes_forM (computes_appendAddress T) _
  · cases splitCsv value with
    | nil => exact computes_pure
    | cons first rest => exact computes_store _
  · exact computes_pure
  · exact computes_store _
  · exact computes_parseEndpoint T value
  · exact computes_forM (computes_appendAllowedIp T) _
  · exact computes_pure
  · exact computes_pure

/-! ## The whole call -/

/-- The loop: `section_` may end up anywhere, and the caller's objects are untouched unless it
fails. -/
theorem exec_linesBody (lines : List (List Char)) (index : ℕ) (s : Frame) :
    match parseLines T index s.section_ s.parsed lines with
    | .ok p =>
      ∃ section_, exec (linesBody T index lines) s = (.ok (), { s with parsed := p, section_ })
    | .error e => Failed s e (exec (linesBody T index lines) s) := by
  induction lines generalizing index s with
  | nil => exact ⟨s.section_, rfl⟩
  | cons raw lines ih =>
    unfold parseLines linesBody lineBody
    cases readLine index raw with
    | error e =>
      change Failed s e (exec (fail e >>= _) s)
      obtain ⟨parsed, section_, hout⟩ := failed_fail s e
      refine ⟨parsed, section_, ?_⟩
      rw [exec_bind, hout]
    | ok line =>
      cases line with
      | blank => exact ih (index + 1) s
      | header name => exact ih (index + 1) { s with section_ := name }
      | setting key value =>
        have hset := computes_setting T s.section_ key value s
        have hget : exec (get >>= fun s : Frame => settingBody T s.section_ key value) s =
            exec (settingBody T s.section_ key value) s := exec_bind_ok (exec_get s)
        dsimp only [bind, Except.bind]
        cases happly : applySetting T s.section_ key value s.parsed with
        | error e =>
          simp only [happly] at hset
          obtain ⟨parsed, section_, hout⟩ := hset
          refine ⟨parsed, section_, ?_⟩
          change exec ((get >>= _) >>= _) s = _
          rw [exec_bind, hget, hout]
        | ok p =>
          simp only [happly] at hset
          have hrun := exec_bind_ok (f := fun _ => linesBody T (index + 1) lines) (hget.trans hset)
          have hrest := ih (index + 1) { s with parsed := p }
          change match parseLines T (index + 1) s.section_ p lines with
            | .ok p => ∃ section_, exec ((get >>= _) >>= _) s = _
            | .error e => Failed s e (exec ((get >>= _) >>= _) s)
          rw [hrun]
          cases hlines : parseLines T (index + 1) s.section_ p lines with
          | error e =>
            simp only [hlines] at hrest
            exact hrest.trans rfl rfl
          | ok q =>
            simp only [hlines] at hrest
            exact hrest

theorem computes_required : Computes requiredBody checkRequired := by
  intro s
  have hrun : exec requiredBody s = exec (match checkRequired s.parsed with
      | .error e => fail e
      | .ok _ => pure () : Body) s := exec_bind_ok (exec_get s)
  rw [hrun]
  cases hcheck : checkRequired s.parsed with
  | error e => exact failed_fail s e
  | ok c =>
    obtain rfl : s.parsed = c := eq_of_checkRequired hcheck
    rfl

theorem exec_body (content : List Char) (s : Frame) (hsection : s.section_ = [])
    (hparsed : s.parsed = { hopType := .singleHop }) :
    match parse T content with
    | .ok c => ∃ s', exec (body T content) s = (.ok (), s') ∧ s'.config = c ∧
        s'.error = s.error.map fun _ => .null
    | .error e => Failed s e (exec (body T content) s) := by
  have hlines := exec_linesBody T (content.splitOn '\n') 0 s
  rw [hsection, hparsed] at hlines
  unfold parse body
  cases hp : parseLines T 0 [] { hopType := .singleHop } (content.splitOn '\n') with
  | error e =>
    simp only [hp] at hlines
    obtain ⟨parsed, section_, hout⟩ := hlines
    refine ⟨parsed, section_, ?_⟩
    rw [exec_bind, hout]
  | ok p =>
    simp only [hp] at hlines
    obtain ⟨section_, hout⟩ := hlines
    have hrequired := computes_required { s with parsed := p, section_ }
    have hrun := exec_bind_ok (f := fun _ => do
      requiredBody
      modify fun s => { s with config := s.parsed }
      setError .null) hout
    rw [hrun]
    change match checkRequired p with
      | .ok c => _
      | .error e => _
    cases hcheck : checkRequired p with
    | error e =>
      simp only [hcheck] at hrequired
      obtain ⟨parsed, section_', hout'⟩ := hrequired
      refine ⟨parsed, section_', ?_⟩
      rw [exec_bind, hout']
    | ok c =>
      simp only [hcheck] at hrequired
      rw [exec_bind_ok hrequired]
      exact ⟨_, rfl, rfl, rfl⟩

/-- The call returns what `parse` computes. The caller's configuration is replaced by it on success
and not written on failure. -/
theorem parseCall_eq (content : List Char) (config : InterfaceConfig) (error : Option QString) :
    parseCall T content config error =
      match parse T content with
      | .ok c => (true, c, error.map fun _ => .null)
      | .error e => (false, config, error.map fun _ => .text e.message) := by
  have hbody := exec_body T content
    { config, error, parsed := { hopType := .singleHop }, section_ := [] } rfl rfl
  unfold parseCall
  cases hparse : parse T content with
  | error e =>
    simp only [hparse] at hbody
    obtain ⟨parsed, section_, hout⟩ := hbody
    rw [hout]
    rfl
  | ok c =>
    simp only [hparse] at hbody
    obtain ⟨s', hout, rfl, herror⟩ := hbody
    rw [hout, ← herror]
    rfl

end Statements

/-! ## What the caller gets -/

/-- Every text a configuration holds. -/
def texts (c : InterfaceConfig) : List (List Char) :=
  [c.privateKey, c.deviceIpv4Address, c.deviceIpv6Address, c.serverIpv4Gateway,
    c.serverIpv6Gateway, c.serverPublicKey, c.serverIpv4AddrIn, c.serverIpv6AddrIn, c.dnsServer,
    c.entryCity, c.exitCity].map QString.chars ++ c.vpnDisabledApps

/-- A configuration that the importer reports as accepted. A range is stored as an address and a
length: the text it was read from is clean, and so is the text it is written as. -/
structure Accepted (T : HostAddressText) (c : InterfaceConfig) : Prop where
  privateKey : c.privateKey.chars ≠ []
  address : c.deviceIpv4Address.chars ≠ [] ∨ c.deviceIpv6Address.chars ≠ []
  serverPublicKey : c.serverPublicKey.chars ≠ []
  endpointHost : c.serverIpv4AddrIn.chars ≠ [] ∨ c.serverIpv6AddrIn.chars ≠ []
  serverPort : 1 ≤ c.serverPort ∧ c.serverPort ≤ 65535
  ranges : c.allowedIPAddressRanges ≠ []
  range_valid : ∀ p ∈ c.allowedIPAddressRanges, p.Valid
  text_clean : ∀ s ∈ texts c, Clean s
  range_clean : ∀ p ∈ c.allowedIPAddressRanges, (∃ v, Clean v ∧ p = IPAddress.ofString T v) ∧
    (T.Lawful → Clean (p.toString T))

section Accepted

variable {T : HostAddressText}

/-- The check and the constructor agree: lengths behind the end of the address are cut. -/
theorem valid_ofString {v : List Char} (h : isValidAddressWithPrefix T v = true) :
    (IPAddress.ofString T v).Valid := by
  obtain ⟨hproto, h0⟩ := isValidAddressWithPrefix_iff.mp h
  rw [IPAddress.ofString_eq_min rfl hproto]
  refine ⟨hproto, le_min h0 (Int.natCast_nonneg _), ?_⟩
  have hmin := min_le_right (if '/' ∈ v then T.parseSubnet v else (T.hostAddress v, 999999)).2
    ((if '/' ∈ v then T.parseSubnet v else (T.hostAddress v, 999999)).1.width : ℤ)
  exact Int.toNat_le.mpr hmin

theorem clean_nil : Clean [] := ⟨by simp, by simp, by simp⟩

theorem clean_chars {s : QString} (h : ∀ v, s = .text v → Clean v) : Clean s.chars := by
  cases s with
  | null => exact clean_nil
  | text v => exact h v rfl

theorem Imported.clean {c : InterfaceConfig} (h : Imported T c) : ∀ s ∈ texts c, Clean s := by
  intro s hs
  have hdefaults := h.defaults
  unfold texts at hs
  rw [hdefaults] at hs
  simp only [List.append_nil, List.mem_map, List.mem_cons, List.not_mem_nil, or_false] at hs
  obtain ⟨field, hfield, rfl⟩ := hs
  refine clean_chars fun v hv => ?_
  rcases hfield with rfl | rfl | rfl | rfl | rfl | rfl | rfl | rfl | rfl | rfl | rfl
  · exact (h.privateKey v hv).toClean
  · exact (h.deviceIpv4Address v hv).1.toClean
  · exact (h.deviceIpv6Address v hv).1.toClean
  · cases hv
  · cases hv
  · exact (h.serverPublicKey v hv).toClean
  · exact (h.serverIpv4AddrIn v hv).1
  · exact (h.serverIpv6AddrIn v hv).1
  · exact (h.dnsServer v hv).toClean
  · cases hv
  · cases hv

theorem accepted_of_parse {content : List Char} {c : InterfaceConfig}
    (h : parse T content = .ok c) : Accepted T c := by
  have himported := imported_of_parse h
  obtain ⟨hprivate, haddress, hpublic, hhost, hport, hranges⟩ :=
    checkRequired_iff.mp (foldlM_settings_of_parse h).2
  refine ⟨hprivate, haddress, hpublic, hhost, ?_, hranges, ?_, himported.clean, ?_⟩
  · rcases himported.serverPort with hzero | hvalid
    · exact absurd hzero hport
    · exact hvalid
  · intro p hp
    obtain ⟨v, -, hvalid, rfl⟩ := himported.allowedIPAddressRanges p hp
    exact valid_ofString hvalid
  · intro p hp
    obtain ⟨v, hv, hvalid, rfl⟩ := himported.allowedIPAddressRanges p hp
    exact ⟨⟨v, hv.toClean, rfl⟩, fun hT => clean_toString hT hv.toClean hvalid⟩

end Accepted

/-- Whatever the text, a call that fails leaves the caller's configuration as it was, and a call
that succeeds leaves a complete one. -/
theorem parse_atomic (T : HostAddressText) (content : List Char) (config : InterfaceConfig)
    (error : Option QString) :
    ((parseCall T content config error).1 = false ∧
      (parseCall T content config error).2.1 = config) ∨
    ((parseCall T content config error).1 = true ∧
      Accepted T (parseCall T content config error).2.1) := by
  rw [parseCall_eq]
  cases hparse : parse T content with
  | error e => exact Or.inl ⟨rfl, rfl⟩
  | ok c => exact Or.inr ⟨rfl, accepted_of_parse hparse⟩

end WireGuardConfig

end WgDesktop
