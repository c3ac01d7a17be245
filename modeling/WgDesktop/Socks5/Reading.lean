import WgDesktop.Lib.Stages
import WgDesktop.Socks5.Connection

/-!
# What the handshake reads

The stages of the handshake on a stream of bytes. The greeting, the methods and the request are read
when they are complete, so that the cuts before the address do not matter (`readToAddress_feed`);
`readToAddress_initial` says which streams come to an address, and in which state. The address is
read when it is complete if it is an IP address (`readIpAddress_feed`), and with what is there if it
is a host name (`readDomainName_cases`).
-/

namespace WgDesktop.Socks5Connection

open Bytes Stages

variable {net : Network} {c : Socks5Connection}

/-! ## The stages -/

section Stages

theorem feed_of_ne_closed (h : c.state ≠ .closed) (chunk : List Byte) :
    c.feed chunk = { c with available := c.available ++ chunk } := if_neg h

theorem feed_of_closed (h : c.state = .closed) (chunk : List Byte) : c.feed chunk = c := if_pos h

@[simp] theorem state_feed (c : Socks5Connection) (chunk : List Byte) :
    (c.feed chunk).state = c.state := by
  unfold feed
  split_ifs <;> rfl

theorem feed_feed (c : Socks5Connection) (a b : List Byte) :
    (c.feed a).feed b = c.feed (a ++ b) := by
  by_cases h : c.state = .closed
  · rw [feed_of_closed h, feed_of_closed h, feed_of_closed h]
  · rw [feed_of_ne_closed (by simpa using h), feed_of_ne_closed h, feed_of_ne_closed h,
      List.append_assoc]

@[simp] theorem state_setError (c : Socks5Connection) (reason : Socks5Reply) (text : String) :
    (c.setError reason text).state = .closed := rfl

/-- What waits on the socket is lost with the connection. -/
theorem setError_available (c : Socks5Connection) (bytes : List Byte) (reason : Socks5Reply)
    (text : String) :
    { c with available := bytes }.setError reason text = c.setError reason text := by
  unfold setError
  dsimp only
  split <;> rfl

@[simp] theorem setError_feed (c : Socks5Connection) (reason : Socks5Reply) (text : String)
    (chunk : List Byte) : (c.feed chunk).setError reason text = c.setError reason text := by
  unfold feed
  split_ifs
  · rfl
  · exact setError_available c _ reason text

@[simp] theorem feed_setError (c : Socks5Connection) (reason : Socks5Reply) (text : String)
    (chunk : List Byte) : (c.setError reason text).feed chunk = c.setError reason text := rfl

theorem withPacket_feed {size : ℕ} {next : Socks5Connection → List Byte → Socks5Connection}
    (hopen : c.state ≠ .closed)
    (hnext : ∀ rest packet chunk, next ({ c with available := rest }.feed chunk) packet =
      (next { c with available := rest } packet).feed chunk) :
    c.withPacket size next = c ∧ c.available.length < size ∨ size ≤ c.available.length ∧
      ∀ chunk, (c.feed chunk).withPacket size next = (c.withPacket size next).feed chunk := by
  unfold withPacket readPacket
  by_cases hlen : c.available.length < size
  · rw [if_pos hlen]
    exact .inl ⟨rfl, hlen⟩
  · have hle : size ≤ c.available.length := by omega
    refine .inr ⟨hle, fun chunk => ?_⟩
    have hlen' : ¬ (c.feed chunk).available.length < size := by
      rw [feed_of_ne_closed hopen]
      simp only [List.length_append]
      omega
    have hrest : { c with available := c.available.drop size }.feed chunk =
        { c with available := c.available.drop size ++ chunk } := if_neg hopen
    rw [if_neg hlen, if_neg hlen']
    dsimp only
    rw [← hnext, hrest, feed_of_ne_closed hopen]
    dsimp only
    rw [List.take_append_of_le_length hle, List.drop_append_of_le_length hle]

theorem onGreeting_feed (hopen : c.state ≠ .closed) (packet chunk : List Byte) :
    onGreeting (c.feed chunk) packet = (onGreeting c packet).feed chunk := by
  unfold onGreeting
  dsimp only
  split_ifs
  · rw [setError_feed, feed_setError]
  · rw [feed_of_ne_closed hopen, feed_of_ne_closed (by simp)]

theorem onMethods_feed (hopen : c.state ≠ .closed) (methods chunk : List Byte) :
    onMethods (c.feed chunk) methods = (onMethods c methods).feed chunk := by
  unfold onMethods
  split_ifs
  · rw [feed_of_ne_closed hopen]
    rfl
  · rw [feed_of_ne_closed hopen, feed_of_ne_closed (by simp)]

theorem onRequest_feed (hopen : c.state ≠ .closed) (packet chunk : List Byte) :
    onRequest (c.feed chunk) packet = (onRequest c packet).feed chunk := by
  unfold onRequest
  split_ifs
  · rw [setError_feed, feed_setError]
  · rw [setError_feed, feed_setError]
  · rw [feed_of_ne_closed hopen, feed_of_ne_closed (by simp)]

theorem authNumber_feed (c : Socks5Connection) (chunk : List Byte) :
    (c.feed chunk).authNumber = c.authNumber := by
  unfold feed
  split_ifs <;> rfl

theorem withPacket_cases (c : Socks5Connection) (size : ℕ)
    (next : Socks5Connection → List Byte → Socks5Connection) :
    c.withPacket size next = c ∨
      ∃ rest packet, c.withPacket size next = next { c with available := rest } packet := by
  unfold withPacket
  cases c.readPacket size with
  | none => exact .inl rfl
  | some p => exact .inr ⟨p.2, p.1, rfl⟩

theorem state_onGreeting (c : Socks5Connection) (packet : List Byte) :
    (onGreeting c packet).state = .closed ∨
      (onGreeting c packet).state = .authenticationMethods := by
  unfold onGreeting
  dsimp only
  split_ifs
  · exact .inl rfl
  · exact .inr rfl

theorem state_onMethods (c : Socks5Connection) (methods : List Byte) :
    (onMethods c methods).state = .closed ∨
      (onMethods c methods).state = .clientConnectionRequest := by
  unfold onMethods
  split_ifs
  · exact .inl rfl
  · exact .inr rfl

theorem state_onRequest (c : Socks5Connection) (packet : List Byte) :
    (onRequest c packet).state = .closed ∨
      (onRequest c packet).state = .clientConnectionAddress := by
  unfold onRequest
  split_ifs
  · exact .inl rfl
  · exact .inl rfl
  · exact .inr rfl

/-- Nothing is opened or resolved, and the handshake goes on or the connection is closed. -/
structure Keeps (c c' : Socks5Connection) : Prop where
  connects : c'.connects = c.connects
  resolves : c'.resolves = c.resolves
  state : c.state.isHandshake = true → c'.state = .closed ∨ c'.state.isHandshake = true

theorem Keeps.refl (c : Socks5Connection) : Keeps c c := ⟨rfl, rfl, .inr⟩

theorem keeps_setError (c : Socks5Connection) (reason : Socks5Reply) (text : String) :
    Keeps c (c.setError reason text) := by
  unfold setError
  dsimp only
  split <;> exact ⟨rfl, rfl, fun _ => .inl rfl⟩

theorem keeps_withPacket (c : Socks5Connection) (size : ℕ)
    {next : Socks5Connection → List Byte → Socks5Connection}
    (hnext : ∀ c packet, Keeps c (next c packet)) : Keeps c (c.withPacket size next) := by
  rcases withPacket_cases c size next with h | ⟨rest, packet, h⟩
  · rw [h]
    exact .refl c
  · rw [h]
    have hkeeps := hnext { c with available := rest } packet
    exact ⟨hkeeps.connects, hkeeps.resolves, hkeeps.state⟩

theorem keeps_readGreeting (c : Socks5Connection) : Keeps c c.readGreeting := by
  refine keeps_withPacket c 2 fun c packet => ?_
  unfold onGreeting
  dsimp only
  split_ifs
  · exact keeps_setError c _ _
  · exact ⟨rfl, rfl, fun _ => .inr rfl⟩

theorem keeps_readMethods (c : Socks5Connection) : Keeps c c.readMethods := by
  refine keeps_withPacket c c.authNumber.toNat fun c methods => ?_
  unfold onMethods
  split_ifs
  · exact ⟨rfl, rfl, fun _ => .inl rfl⟩
  · exact ⟨rfl, rfl, fun _ => .inr rfl⟩

theorem keeps_readRequest (c : Socks5Connection) : Keeps c c.readRequest := by
  refine keeps_withPacket c 4 fun c packet => ?_
  unfold onRequest
  split_ifs
  · exact keeps_setError c _ _
  · exact keeps_setError c _ _
  · exact ⟨rfl, rfl, fun _ => .inr rfl⟩

theorem Keeps.ite {c c' c'' : Socks5Connection} (h : Keeps c c') {state : Socks5State}
    (h' : Keeps c' c'') (hstate : state.isHandshake = true) :
    Keeps c (if c'.state = state then c'' else c') := by
  split_ifs with hin
  · exact ⟨h'.connects.trans h.connects, h'.resolves.trans h.resolves,
      fun _ => h'.state (by rw [hin]; exact hstate)⟩
  · exact h

theorem keeps_readToAddress (c : Socks5Connection) : Keeps c c.readToAddress := by
  have hgreeting := (Keeps.refl c).ite (keeps_readGreeting c)
    (show Socks5State.clientGreeting.isHandshake = true from rfl)
  have hmethods := hgreeting.ite (keeps_readMethods _)
    (show Socks5State.authenticationMethods.isHandshake = true from rfl)
  exact hmethods.ite (keeps_readRequest _) rfl

/-- The stages before the address. -/
def stages : List (Socks5State × (Socks5Connection → Socks5Connection)) :=
  [(.clientGreeting, readGreeting), (.authenticationMethods, readMethods),
    (.clientConnectionRequest, readRequest)]

theorem readToAddress_eq_chain (c : Socks5Connection) :
    c.readToAddress = chain Socks5Connection.state stages c := rfl

theorem isStage_withPacket {state : Socks5State} (hopen : state ≠ .closed)
    {size : Socks5Connection → ℕ} (hsize : ∀ c chunk, size (c.feed chunk) = size c)
    {next : Socks5Connection → List Byte → Socks5Connection}
    (hnext : ∀ (c : Socks5Connection) packet chunk, c.state ≠ .closed →
      next (c.feed chunk) packet = (next c packet).feed chunk)
    (hstate : ∀ c packet, (next c packet).state ≠ state) :
    IsStage Socks5Connection.state feed (state, fun c => c.withPacket (size c) next) := by
  intro c hc
  have hc' : c.state ≠ .closed := by
    rw [hc]
    exact hopen
  rcases withPacket_cases c (size c) next with hwait | ⟨rest, packet, hmove⟩
  · exact .inl hwait
  · have hcommutes : ∀ rest packet chunk, next ({ c with available := rest }.feed chunk) packet =
        (next { c with available := rest } packet).feed chunk := fun rest packet chunk =>
      hnext { c with available := rest } packet chunk hc'
    rcases @withPacket_feed c (size c) next hc' hcommutes with ⟨hwait, -⟩ | ⟨-, hfeed⟩
    · exact .inl hwait
    · refine .inr ⟨?_, fun chunk => ?_⟩
      · change (c.withPacket (size c) next).state ≠ state
        rw [hmove]
        exact hstate _ _
      · change (c.feed chunk).withPacket (size (c.feed chunk)) next = _
        rw [hsize]
        exact hfeed chunk

theorem isStage_readGreeting :
    IsStage Socks5Connection.state feed (.clientGreeting, readGreeting) := by
  refine @isStage_withPacket .clientGreeting (by simp) (fun _ => 2) (fun _ _ => rfl) onGreeting
    (fun c packet chunk hopen => onGreeting_feed hopen packet chunk) fun c packet => ?_
  rcases state_onGreeting c packet with h | h
  · simp [h]
  · simp [h]

theorem isStage_readMethods :
    IsStage Socks5Connection.state feed (.authenticationMethods, readMethods) := by
  refine @isStage_withPacket .authenticationMethods (by simp) (fun c => c.authNumber.toNat)
    (fun c chunk => by rw [authNumber_feed]) onMethods
    (fun c packet chunk hopen => onMethods_feed hopen packet chunk) fun c packet => ?_
  rcases state_onMethods c packet with h | h
  · simp [h]
  · simp [h]

theorem isStage_readRequest :
    IsStage Socks5Connection.state feed (.clientConnectionRequest, readRequest) := by
  refine @isStage_withPacket .clientConnectionRequest (by simp) (fun _ => 4) (fun _ _ => rfl)
    onRequest (fun c packet chunk hopen => onRequest_feed hopen packet chunk) fun c packet => ?_
  rcases state_onRequest c packet with h | h
  · simp [h]
  · simp [h]

theorem state_readMethods (hc : c.state = .authenticationMethods) :
    c.readMethods.state ≠ .clientGreeting := by
  rcases withPacket_cases c c.authNumber.toNat onMethods with h | ⟨rest, packet, h⟩
  · rw [readMethods, h, hc]
    simp
  · rw [readMethods, h]
    rcases state_onMethods { c with available := rest } packet with h | h
    · simp [h]
    · simp [h]

theorem state_readRequest (hc : c.state = .clientConnectionRequest) :
    c.readRequest.state ≠ .clientGreeting ∧ c.readRequest.state ≠ .authenticationMethods := by
  rcases withPacket_cases c 4 onRequest with h | ⟨rest, packet, h⟩
  · rw [readRequest, h, hc]
    simp
  · rw [readRequest, h]
    rcases state_onRequest { c with available := rest } packet with h | h
    · simp [h]
    · simp [h]

theorem isStage_of_mem : ∀ stage ∈ stages, IsStage Socks5Connection.state feed stage := by
  intro stage hstage
  simp only [stages, List.mem_cons, List.not_mem_nil, or_false] at hstage
  rcases hstage with rfl | rfl | rfl
  · exact isStage_readGreeting
  · exact isStage_readMethods
  · exact isStage_readRequest

/-- No stage goes back. -/
theorem pairwise_stages : stages.Pairwise fun a b => a.1 ≠ b.1 ∧
    ∀ s : Socks5Connection, s.state = b.1 → (b.2 s).state ≠ a.1 := by
  refine List.pairwise_cons.2 ⟨fun stage hstage => ?_, List.pairwise_cons.2
    ⟨fun stage hstage => ?_, List.pairwise_singleton _ _⟩⟩
  · simp only [List.mem_cons, List.not_mem_nil, or_false] at hstage
    rcases hstage with rfl | rfl
    · exact ⟨by simp, fun s hs => state_readMethods hs⟩
    · exact ⟨by simp, fun s hs => (state_readRequest hs).1⟩
  · simp only [List.mem_cons, List.not_mem_nil, or_false] at hstage
    rw [hstage]
    exact ⟨by simp, fun s hs => (state_readRequest hs).2⟩

/-- **The cuts before the address do not matter.** -/
theorem readToAddress_feed (c : Socks5Connection) (chunk : List Byte) :
    (c.readToAddress.feed chunk).readToAddress = (c.feed chunk).readToAddress := by
  rw [readToAddress_eq_chain, readToAddress_eq_chain, readToAddress_eq_chain]
  exact chain_feed state_feed isStage_of_mem pairwise_stages c chunk

theorem readToAddress_read {state : Socks5State} {read : Socks5Connection → Socks5Connection}
    (h : (state, read) ∈ stages) (hc : c.state = state) :
    c.readToAddress = (read c).readToAddress := by
  rw [readToAddress_eq_chain, readToAddress_eq_chain]
  exact chain_stage isStage_of_mem pairwise_stages h hc

theorem readToAddress_wait {state : Socks5State} {read : Socks5Connection → Socks5Connection}
    (h : (state, read) ∈ stages) (hc : c.state = state) (hwait : read c = c) :
    c.readToAddress = c := by
  rw [readToAddress_eq_chain]
  exact chain_wait (pairwise_stages.imp And.left) h hc hwait

theorem readToAddress_eq_self (h : ∀ stage ∈ stages, c.state ≠ stage.1) : c.readToAddress = c := by
  rw [readToAddress_eq_chain]
  exact chain_eq_self h

end Stages

/-! ## The bytes of a handshake -/

/-- The address type a stream asks for and the bytes behind it: a greeting that offers the method
without authentication, and a request to connect. -/
def addressBytes (stream : List Byte) : Option (Byte × List Byte) :=
  match stream with
  | version :: authNumber :: rest =>
    match rest.drop authNumber.toNat with
    | version' :: cmd :: rsv :: atype :: address =>
      if version = 0x05 ∧ (rest.take authNumber.toNat).contains authNotRequired ∧
        version' = 0x05 ∧ cmd = 0x01 ∧ rsv = 0x00 then some (atype, address)
      else none
    | _ => none
  | _ => none

/-- The connections that have read a stream up to its methods, its request and its address. -/
def atMethods (authNumber : Byte) (rest : List Byte) : Socks5Connection :=
  { initial with state := .authenticationMethods, authNumber := authNumber, available := rest }

@[inherit_doc atMethods]
def atRequest (authNumber : Byte) (rest : List Byte) : Socks5Connection :=
  { atMethods authNumber rest with
    state := .clientConnectionRequest, sent := [0x05, authNotRequired] }

@[inherit_doc atMethods]
def atAddress (authNumber addressType : Byte) (rest : List Byte) : Socks5Connection :=
  { atRequest authNumber rest with state := .clientConnectionAddress, addressType := addressType }

theorem readToAddress_of_closed (h : c.state = .closed) : c.readToAddress = c :=
  readToAddress_eq_self (by simp [stages, h])

theorem readGreeting_initial (version authNumber : Byte) (rest : List Byte) :
    version = 0x05 ∧
      (initial.feed (version :: authNumber :: rest)).readGreeting = atMethods authNumber rest ∨
    version ≠ 0x05 ∧
      (initial.feed (version :: authNumber :: rest)).readGreeting.state = .closed := by
  by_cases hversion : version = 0x05
  · rw [hversion]
    exact .inl ⟨rfl, rfl⟩
  · have hopened : (initial.feed (version :: authNumber :: rest)).readGreeting =
        onGreeting { initial with available := rest } [version, authNumber] := rfl
    rw [hopened, onGreeting]
    dsimp only
    rw [if_pos (by simpa using hversion)]
    exact .inr ⟨hversion, rfl⟩

theorem readMethods_atMethods (authNumber : Byte) (rest : List Byte) :
    (rest.length < authNumber.toNat ∧
      (atMethods authNumber rest).readMethods = atMethods authNumber rest) ∨
    ((rest.take authNumber.toNat).contains authNotRequired = true ∧
      (atMethods authNumber rest).readMethods =
        atRequest authNumber (rest.drop authNumber.toNat)) ∨
    ((rest.take authNumber.toNat).contains authNotRequired = false ∧
      (atMethods authNumber rest).readMethods.state = .closed) := by
  by_cases hlen : rest.length < authNumber.toNat
  · exact .inl ⟨hlen, by simp [readMethods, withPacket, readPacket, atMethods, hlen]⟩
  · have hopened : (atMethods authNumber rest).readMethods =
        onMethods (atMethods authNumber (rest.drop authNumber.toNat))
          (rest.take authNumber.toNat) := by
      simp [readMethods, withPacket, readPacket, atMethods, hlen]
    right
    rw [hopened]
    unfold onMethods
    cases hoffer : (rest.take authNumber.toNat).contains authNotRequired with
    | true => exact .inl ⟨rfl, rfl⟩
    | false => exact .inr ⟨rfl, rfl⟩

theorem readRequest_atRequest (authNumber : Byte) (rest : List Byte) :
    (∃ address atype, rest = 0x05 :: 0x01 :: 0x00 :: atype :: address ∧
      (atRequest authNumber rest).readRequest = atAddress authNumber atype address) ∨
    (∀ address atype, rest ≠ 0x05 :: 0x01 :: 0x00 :: atype :: address) ∧
      ((atRequest authNumber rest).readRequest.state = .closed ∨
        (atRequest authNumber rest).readRequest = atRequest authNumber rest) := by
  match rest with
  | [] | [_] | [_, _] | [_, _, _] => exact .inr ⟨by simp, .inr rfl⟩
  | version :: cmd :: rsv :: atype :: address =>
    have hopened : (atRequest authNumber (version :: cmd :: rsv :: atype :: address)).readRequest =
        onRequest (atRequest authNumber address) [version, cmd, rsv, atype] := rfl
    rw [hopened]
    by_cases h : version = 0x05 ∧ cmd = 0x01 ∧ rsv = 0x00
    · obtain ⟨rfl, rfl, rfl⟩ := h
      exact .inl ⟨address, atype, rfl, rfl⟩
    · refine .inr ⟨fun address' atype' heq => h ?_, .inl ?_⟩
      · simp only [List.cons.injEq] at heq
        exact ⟨heq.1, heq.2.1, heq.2.2.1⟩
      · unfold onRequest
        split_ifs with hbad hcmd
        · rfl
        · rfl
        · exact absurd ⟨by simpa using (not_or.1 hbad).1, by simpa using hcmd,
            by simpa using (not_or.1 hbad).2⟩ h

theorem addressBytes_eq_some_iff {stream : List Byte} {atype : Byte} {address : List Byte} :
    addressBytes stream = some (atype, address) ↔ ∃ authNumber rest,
      stream = 0x05 :: authNumber :: rest ∧
      (rest.take authNumber.toNat).contains authNotRequired = true ∧
      rest.drop authNumber.toNat = 0x05 :: 0x01 :: 0x00 :: atype :: address := by
  constructor
  · intro h
    unfold addressBytes at h
    split at h
    · rename_i version authNumber rest
      split at h
      · rename_i version' cmd rsv atype' address' hrest
        split_ifs at h with hall
        obtain ⟨rfl, hoffer, rfl, rfl, rfl⟩ := hall
        obtain ⟨rfl, rfl⟩ := Prod.mk.inj (Option.some.inj h)
        exact ⟨authNumber, rest, rfl, hoffer, hrest⟩
      · simp at h
    · simp at h
  · rintro ⟨authNumber, rest, rfl, hoffer, hrest⟩
    unfold addressBytes
    dsimp only
    rw [hrest]
    dsimp only
    rw [if_pos ⟨rfl, hoffer, rfl, rfl, rfl⟩]

theorem mem_stages_greeting : (.clientGreeting, readGreeting) ∈ stages := by simp [stages]

theorem mem_stages_methods : (.authenticationMethods, readMethods) ∈ stages := by simp [stages]

theorem mem_stages_request : (.clientConnectionRequest, readRequest) ∈ stages := by simp [stages]

/-- The state of a connection that is not at an address, nor behind one. -/
def Early (c : Socks5Connection) : Prop :=
  c.state ≠ .clientConnectionAddress ∧ c.state ≠ .resolve

theorem early_of_closed (h : c.state = .closed) : c.readToAddress.Early := by
  rw [readToAddress_of_closed h]
  simp [Early, h]

theorem readToAddress_atRequest (authNumber : Byte) (rest : List Byte) :
    (∃ atype address, rest = 0x05 :: 0x01 :: 0x00 :: atype :: address ∧
      (atRequest authNumber rest).readToAddress = atAddress authNumber atype address) ∨
    (∀ atype address, rest ≠ 0x05 :: 0x01 :: 0x00 :: atype :: address) ∧
      (atRequest authNumber rest).readToAddress.Early := by
  have hstep := readToAddress_read mem_stages_request
    (show (atRequest authNumber rest).state = _ from rfl)
  rcases readRequest_atRequest authNumber rest with ⟨address, atype, hrest, hread⟩ | ⟨hrest, hread⟩
  · refine .inl ⟨atype, address, hrest, ?_⟩
    rw [hstep, hread]
    exact readToAddress_eq_self (by simp [stages, atAddress])
  · refine .inr ⟨fun atype address => hrest address atype, ?_⟩
    rcases hread with hclosed | hwait
    · rw [hstep]
      exact early_of_closed hclosed
    · rw [readToAddress_wait mem_stages_request rfl hwait]
      simp [Early, atRequest]

theorem readToAddress_atMethods (authNumber : Byte) (rest : List Byte) :
    (∃ atype address, (rest.take authNumber.toNat).contains authNotRequired = true ∧
      rest.drop authNumber.toNat = 0x05 :: 0x01 :: 0x00 :: atype :: address ∧
      (atMethods authNumber rest).readToAddress = atAddress authNumber atype address) ∨
    ((rest.take authNumber.toNat).contains authNotRequired = true → ∀ atype address,
      rest.drop authNumber.toNat ≠ 0x05 :: 0x01 :: 0x00 :: atype :: address) ∧
      (atMethods authNumber rest).readToAddress.Early := by
  have hstep := readToAddress_read mem_stages_methods
    (show (atMethods authNumber rest).state = _ from rfl)
  rcases readMethods_atMethods authNumber rest with
    ⟨hlen, hwait⟩ | ⟨hoffer, hread⟩ | ⟨hoffer, hread⟩
  · refine .inr ⟨fun _ atype address => ?_, ?_⟩
    · rw [List.drop_eq_nil_of_le hlen.le]
      simp
    · rw [readToAddress_wait mem_stages_methods rfl hwait]
      simp [Early, atMethods]
  · rw [hread] at hstep
    rw [hstep]
    rcases readToAddress_atRequest authNumber (rest.drop authNumber.toNat) with
      ⟨atype, address, hrest, hat⟩ | ⟨hrest, hearly⟩
    · exact .inl ⟨atype, address, hoffer, hrest, hat⟩
    · exact .inr ⟨fun _ => hrest, hearly⟩
  · refine .inr ⟨fun hoffer' => absurd (hoffer.symm.trans hoffer') (by simp), ?_⟩
    rw [hstep]
    exact early_of_closed hread

/-- **What the stages before the address make of a stream.** -/
theorem readToAddress_initial (stream : List Byte) :
    (∃ authNumber atype address, addressBytes stream = some (atype, address) ∧
      (initial.feed stream).readToAddress = atAddress authNumber atype address) ∨
    addressBytes stream = none ∧ (initial.feed stream).readToAddress.Early := by
  match stream with
  | [] => exact .inr ⟨rfl, by decide, by decide⟩
  | [b] =>
    have hwait : (initial.feed [b]).readToAddress = initial.feed [b] :=
      readToAddress_wait mem_stages_greeting rfl rfl
    rw [hwait]
    exact .inr ⟨rfl, by simp [Early, initial]⟩
  | version :: authNumber :: rest =>
    have hstep := readToAddress_read mem_stages_greeting
      (show (initial.feed (version :: authNumber :: rest)).state = _ from rfl)
    rw [hstep]
    rcases readGreeting_initial version authNumber rest with ⟨rfl, hread⟩ | ⟨hversion, hread⟩
    · rw [hread]
      rcases readToAddress_atMethods authNumber rest with
        ⟨atype, address, hoffer, hrest, hat⟩ | ⟨hrest, hearly⟩
      · exact .inl ⟨authNumber, atype, address,
          addressBytes_eq_some_iff.2 ⟨authNumber, rest, rfl, hoffer, hrest⟩, hat⟩
      · refine .inr ⟨Option.eq_none_iff_forall_ne_some.2 fun p hp => ?_, hearly⟩
        obtain ⟨authNumber', rest', hstream, hoffer, hrest'⟩ := addressBytes_eq_some_iff.1 hp
        obtain ⟨-, rfl, rfl⟩ : (0x05 : Byte) = 0x05 ∧ authNumber = authNumber' ∧ rest = rest' := by
          simpa using hstream
        exact hrest hoffer p.1 p.2 hrest'
    · refine .inr ⟨Option.eq_none_iff_forall_ne_some.2 fun p hp => ?_, early_of_closed hread⟩
      obtain ⟨authNumber', rest', hstream, -, -⟩ := addressBytes_eq_some_iff.1 hp
      exact hversion (List.cons.inj hstream).1

theorem initial_feed_append (stream chunk : List Byte) :
    (initial.feed (stream ++ chunk)).readToAddress =
      ((initial.feed stream).readToAddress.feed chunk).readToAddress := by
  rw [readToAddress_feed, feed_feed]

/-! ## The address -/

/-- The address types that hold an IP address, with its size. -/
def ipFormat (atype : Byte) : Option (ℕ × (List Byte → QHostAddress)) :=
  if atype = 0x01 then some (4, fun bs => .ipv4 (Endian.big.word bs))
  else if atype = 0x04 then some (16, fun bs => .ipv6 (Endian.big.word bs) [])
  else none

/-- The length of a host name's message: the length byte, the name and the port. -/
def nameLength (address : List Byte) : ℕ := 1 + (address.headD 0).toNat + 2

theorem nameLength_append {address : List Byte} (h : address ≠ []) (chunk : List Byte) :
    nameLength (address ++ chunk) = nameLength address := by
  cases address with
  | nil => exact absurd rfl h
  | cons b rest => rfl

theorem handshakeRead_of_address (h : c.state = .clientConnectionAddress) :
    c.handshakeRead net = c.readAddress net := by
  unfold handshakeRead
  rw [readToAddress_eq_self (by simp [stages, h])]
  exact if_pos h

theorem readAddress_of_ipFormat {size : ℕ} {ip : List Byte → QHostAddress}
    (h : ipFormat c.addressType = some (size, ip)) :
    c.readAddress net = c.readIpAddress net size ip := by
  unfold ipFormat at h
  unfold readAddress
  split_ifs at h with h1 h4
  · obtain ⟨rfl, rfl⟩ := Prod.mk.inj (Option.some.inj h)
    rw [if_pos h1]
  · obtain ⟨rfl, rfl⟩ := Prod.mk.inj (Option.some.inj h)
    rw [if_neg h1, if_neg (by rw [h4]; decide), if_pos h4]

theorem readAddress_of_name (h : c.addressType = 0x03) :
    c.readAddress net = c.readDomainName net := by
  rw [readAddress, h]
  rfl

theorem readAddress_of_other (hip : ipFormat c.addressType = none) (hname : c.addressType ≠ 0x03) :
    c.readAddress net =
      c.setError .errorAddressNotSupported "Address type not supported" := by
  unfold ipFormat at hip
  unfold readAddress
  split_ifs at hip with h1 h4
  rw [if_neg h1, if_neg hname, if_neg h4]

theorem configureOutSocket_feed (hopen : c.state ≠ .closed) (port : BitVec 16)
    (chunk : List Byte) :
    (c.feed chunk).configureOutSocket net port = (c.configureOutSocket net port).feed chunk := by
  rw [feed_of_ne_closed hopen]
  unfold configureOutSocket
  dsimp only
  cases net.socketError c.destAddress with
  | some error =>
    dsimp only
    rw [feed_setError]
    exact setError_available { c with errorString := error } _ _ _
  | none =>
    dsimp only
    exact (if_neg hopen).symm

/-- An IP address that has arrived is read also when more bytes follow; before that the stage
waits. -/
theorem readIpAddress_feed (hopen : c.state ≠ .closed) (size : ℕ) (ip : List Byte → QHostAddress) :
    c.readIpAddress net size ip = c ∧ c.available.length < size + 2 ∨
      size + 2 ≤ c.available.length ∧ ∀ chunk,
        (c.feed chunk).readIpAddress net size ip = (c.readIpAddress net size ip).feed chunk := by
  refine withPacket_feed hopen fun rest packet chunk => ?_
  have hfeed : ∀ c' : Socks5Connection, c'.state ≠ .closed →
      { c'.feed chunk with destAddress := ip (packet.take size) } =
        { c' with destAddress := ip (packet.take size) }.feed chunk := by
    intro c' hc'
    rw [feed_of_ne_closed hc']
    exact (if_neg hc').symm
  rw [hfeed { c with available := rest } hopen]
  refine configureOutSocket_feed ?_ _ chunk
  exact hopen

theorem readIpAddress_eq {size : ℕ} {ip : List Byte → QHostAddress}
    (hlen : size + 2 ≤ c.available.length) :
    c.readIpAddress net size ip =
      { c with available := c.available.drop (size + 2),
               destAddress := ip (c.available.take size) }.configureOutSocket net
        (Endian.big.word ((c.available.take (size + 2)).drop size)) := by
  unfold readIpAddress withPacket readPacket
  rw [if_neg (by omega)]
  dsimp only
  rw [List.take_take, Nat.min_eq_left (by omega)]

theorem resolves_configureOutSocket (c : Socks5Connection) (port : BitVec 16) :
    (c.configureOutSocket net port).resolves = c.resolves := by
  unfold configureOutSocket
  cases net.socketError c.destAddress with
  | none => rfl
  | some error => exact (keeps_setError { c with errorString := error } _ _).resolves

/-- Where the socket of a complete address can be made, a connection is opened to it; else the
client's is closed. -/
theorem readIpAddress_of_le {size : ℕ} {ip : List Byte → QHostAddress}
    (hlen : size + 2 ≤ c.available.length) :
    net.socketError (ip (c.available.take size)) = none ∧
      (c.readIpAddress net size ip).state = c.state ∧
      (c.readIpAddress net size ip).addressType = c.addressType ∧
      (c.readIpAddress net size ip).available = c.available.drop (size + 2) ∧
      (∃ connection, (c.readIpAddress net size ip).connects = c.connects ++ [connection]) ∨
    (net.socketError (ip (c.available.take size))).isSome ∧
      (c.readIpAddress net size ip).state = .closed ∧
      (c.readIpAddress net size ip).connects = c.connects := by
  rw [readIpAddress_eq hlen]
  unfold configureOutSocket
  dsimp only
  cases hsocket : net.socketError (ip (c.available.take size)) with
  | none => exact .inl ⟨rfl, rfl, rfl, rfl, _, rfl⟩
  | some error =>
    refine .inr ⟨rfl, rfl, ?_⟩
    dsimp only
    rw [(keeps_setError _ _ _).connects]

theorem readDomainName_eq {length : Byte} {rest : List Byte} (hlen : length.toNat + 2 ≤ rest.length) :
    { c with available := length :: rest }.readDomainName net =
      { c with available := rest.drop (length.toNat + 2)
               destHostname := net.fromUtf8 (rest.take length.toNat)
               destPort := Endian.big.word ((rest.drop length.toNat).take 2)
               state := .resolve
               resolves := c.resolves ++ [net.fromUtf8 (rest.take length.toNat)] } := by
  rw [readDomainName]
  dsimp only
  rw [if_neg (by simp; omega), if_neg (by simp; omega), List.drop_drop]

/-- A host name is read when its first byte is there: complete, or not at all. -/
theorem readDomainName_cases (hopen : c.state ≠ .closed) :
    c.available = [] ∧ c.readDomainName net = c ∨
    c.available ≠ [] ∧ c.available.length < nameLength c.available ∧
      c.readDomainName net = c.setError .errorGeneral net.errorString ∨
    c.available ≠ [] ∧ nameLength c.available ≤ c.available.length ∧
      (c.readDomainName net).state = .resolve ∧ (c.readDomainName net).connects = c.connects ∧
      ∀ chunk, (c.feed chunk).readDomainName net = (c.readDomainName net).feed chunk := by
  cases havailable : c.available with
  | nil => exact .inl ⟨rfl, by rw [readDomainName, havailable]⟩
  | cons length rest =>
    right
    by_cases hlen : (length :: rest).length < nameLength (length :: rest)
    · refine .inl ⟨by simp, hlen, ?_⟩
      simp only [nameLength, List.length_cons, List.headD_cons] at hlen
      rw [readDomainName, havailable]
      dsimp only
      split_ifs with hname hport
      · rfl
      · rfl
      · simp only [List.length_take, List.length_drop] at hname hport
        omega
    · have hle : length.toNat + 2 ≤ rest.length := by
        simp only [nameLength, List.length_cons, List.headD_cons] at hlen
        omega
      have hc : { c with available := length :: rest } = c := by rw [← havailable]
      have hself := @readDomainName_eq net c length rest hle
      rw [hc] at hself
      refine .inr ⟨by simp, not_lt.1 hlen, by rw [hself], by rw [hself], fun chunk => ?_⟩
      rw [feed_of_ne_closed hopen, havailable, List.cons_append,
        readDomainName_eq (by simp; omega), hself, feed_of_ne_closed (by simp)]
      dsimp only
      rw [List.drop_append_of_le_length hle, List.take_append_of_le_length (by omega),
        List.drop_append_of_le_length (by omega), List.take_append_of_le_length (by simp; omega)]

end WgDesktop.Socks5Connection
