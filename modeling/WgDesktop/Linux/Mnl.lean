import WgDesktop.Lib.Attributes

/-!
# The netlink library

The "libmnl mini library" of `wireguard.c` in `src/3rdparty/wireguard-tools`: attributes are put at
the end of a message, with a check that they fit where the caller asks for one, and a nest is an
attribute that is opened before its contents are put, and ended or cancelled after.

A message is the list of its bytes from the `nlmsghdr` on; `nlmsg_len` is the length of the list.
What an ended nest leaves is one attribute that holds its contents (`mnlAttrNestEnd_nestStart`), and
the loop of a receiver finds the attributes that were put (`attrForEach_flatMap`).
-/

namespace WgDesktop.Mnl

open Bytes Attributes

variable (e : Endian)

/-! ## Writing -/

def nlaFNested : BitVec 16 := 0x8000#16

def nlaTypeMask : BitVec 16 := 0x3fff#16

def mnlAttrPut (nlh : List Byte) (a : Attr) : List Byte := nlh ++ a.bytes e

/-- `mnl_attr_put_check`, and those for words of a fixed width. -/
def mnlAttrPutCheck (nlh : List Byte) (buflen : ℕ) (a : Attr) : Option (List Byte) :=
  if nlh.length + 4 + align a.data.length > buflen then none else some (mnlAttrPut e nlh a)

/-- `mnl_attr_nest_start`: the message and where the nest starts. -/
def mnlAttrNestStart (nlh : List Byte) (type : BitVec 16) : List Byte × ℕ :=
  (nlh ++ ([0, 0] ++ e.bytes (nlaFNested ||| type)), nlh.length)

def mnlAttrNestStartCheck (nlh : List Byte) (buflen : ℕ) (type : BitVec 16) :
    Option (List Byte × ℕ) :=
  if nlh.length + 4 > buflen then none else some (mnlAttrNestStart e nlh type)

/-- `mnl_attr_nest_end`: only now the length of the nest is written. -/
def mnlAttrNestEnd (nlh : List Byte) (start : ℕ) : List Byte :=
  overwrite nlh start (e.bytes (BitVec.ofNat 16 (nlh.length - start)))

def mnlAttrNestCancel (nlh : List Byte) (start : ℕ) : List Byte :=
  nlh.take (nlh.length - (nlh.length - start))

/-- `mnlg_msg_prepare`: a `nlmsghdr` and a `genlmsghdr`. -/
def mnlgMsgPrepare (id flags : BitVec 16) (seq : BitVec 32) (cmd version : BitVec 8) : List Byte :=
  e.bytes 20#32 ++ (e.bytes id ++ (e.bytes flags ++ (e.bytes seq ++ (e.bytes 0#32 ++
    [cmd, version, 0, 0]))))

/-- The message as it is sent, with its `nlmsg_len` in front. -/
def withNlmsgLen (nlh : List Byte) : List Byte :=
  overwrite nlh 0 (e.bytes (BitVec.ofNat 32 nlh.length))

def mnlIdealSocketBufferSize (pagesize : ℕ) : ℕ := if pagesize > 8192 then 8192 else pagesize

/-- Checked puts one after another, up to the first that does not fit. -/
def putsCheck (buflen : ℕ) : List Byte → List Attr → Except (List Byte) (List Byte)
  | nlh, [] => .ok nlh
  | nlh, a :: attrs =>
    match mnlAttrPutCheck e nlh buflen a with
    | none => .error nlh
    | some nlh => putsCheck buflen nlh attrs

/-! ## Reading -/

/-- The attributes that `mnl_attr_for_each` goes through: it stops where `mnl_attr_ok` fails. -/
def attrForEach (bytes : List Byte) : List Attr :=
  match bytes with
  | l₀ :: l₁ :: t₀ :: t₁ :: rest =>
    let len := (e.word [l₀, l₁] : BitVec 16).toNat
    if 4 ≤ len ∧ len ≤ rest.length + 4 then
      { type := e.word [t₀, t₁], data := rest.take (len - 4) } ::
        attrForEach (rest.drop (align len - 4))
    else []
  | _ => []
termination_by bytes.length
decreasing_by
  rw [List.length_drop]
  simp only [List.length_cons]
  omega

/-- What a callback returns, with `errno` when it is `MNL_CB_ERROR`. -/
inductive MnlCb where
  | error (errno : ℕ)
  | stop
  | ok
  deriving DecidableEq, Repr

variable {e}

/-- `mnl_attr_parse` and `mnl_attr_parse_nested`: the callback on each attribute, until it does not
return `MNL_CB_OK`. -/
def mnlAttrParse {σ : Type*} (cb : Attr → σ → MnlCb × σ) : List Attr → σ → MnlCb × σ
  | [], s => (.ok, s)
  | a :: attrs, s =>
    match cb a s with
    | (.ok, s) => mnlAttrParse cb attrs s
    | (ret, s) => (ret, s)

def mnlAttrGetType (a : Attr) : BitVec 16 := a.type &&& nlaTypeMask

/-! ## Receiving -/

def eintr : ℕ := 4

def esrch : ℕ := 3

def einval : ℕ := 22

def eproto : ℕ := 71

def ebadmsg : ℕ := 74

def nlmFMulti : BitVec 16 := 0x2#16

def nlmFDumpIntr : BitVec 16 := 0x10#16

def nlmsgMinType : ℕ := 16

structure Nlmsghdr where
  len : BitVec 32
  type : BitVec 16
  flags : BitVec 16
  seq : BitVec 32
  pid : BitVec 32
  deriving DecidableEq, Repr

variable (e)

def Nlmsghdr.bytes (h : Nlmsghdr) : List Byte :=
  e.bytes h.len ++ (e.bytes h.type ++ (e.bytes h.flags ++ (e.bytes h.seq ++ e.bytes h.pid)))

/-- The header in front of the bytes, when they are long enough. -/
def Nlmsghdr.read (bytes : List Byte) : Option Nlmsghdr := do
  let (len, bytes) ← e.read 32 bytes
  let (type, bytes) ← e.read 16 bytes
  let (flags, bytes) ← e.read 16 bytes
  let (seq, bytes) ← e.read 32 bytes
  let (pid, _) ← e.read 32 bytes
  some { len, type, flags, seq, pid }

/-- What `mnlg_cb_error` and `mnlg_cb_stop` make of the number in a message. -/
def errorCb (bytes : List Byte) : MnlCb :=
  let error := (e.word ((bytes.drop 16).take 4) : BitVec 32).toInt
  if error = 0 then .stop else .error error.natAbs

/-- The callbacks of `mnlg_cb_array` on a message of a type below `NLMSG_MIN_TYPE`. -/
def controlCb (h : Nlmsghdr) (bytes : List Byte) : MnlCb :=
  if h.type.toNat = 2 then if h.len.toNat < 36 then .error ebadmsg else errorCb e bytes
  else if h.type.toNat = 3 then
    if h.flags &&& nlmFMulti ≠ 0 ∧ h.len.toNat = 20 then errorCb e bytes else .stop
  else .ok

/-- `__mnl_cb_run` on the bytes of a datagram. A `nlmsg_len` of 2^31 or more is too long here; the
`int` it is compared as is negative, which is not modelled. -/
def mnlCbRun {σ : Type*} (seq portid : BitVec 32) (cbData : List Byte → σ → MnlCb × σ)
    (bytes : List Byte) (s : σ) : MnlCb × σ :=
  match Nlmsghdr.read e bytes with
  | none => (.ok, s)
  | some h =>
    if _hok : 16 ≤ h.len.toNat ∧ h.len.toNat ≤ bytes.length then
      if h.pid ≠ 0 ∧ portid ≠ 0 ∧ h.pid ≠ portid then (.error esrch, s)
      else if h.seq ≠ 0 ∧ seq ≠ 0 ∧ h.seq ≠ seq then (.error eproto, s)
      else if h.flags &&& nlmFDumpIntr ≠ 0 then (.error eintr, s)
      else
        let nlh := bytes.take (align h.len.toNat)
        match if nlmsgMinType ≤ h.type.toNat then cbData nlh s else (controlCb e h nlh, s) with
        | (.ok, s) => mnlCbRun seq portid cbData (bytes.drop (align h.len.toNat)) s
        | (ret, s) => (ret, s)
    else (.ok, s)
termination_by bytes.length
decreasing_by
  have hle := le_align h.len.toNat
  rw [List.length_drop]
  omega

/-- `mnlg_socket_recv_run`, where `mnl_socket_recvfrom` returns the datagrams and then fails. -/
def mnlgSocketRecvRun {σ : Type*} (seq portid : BitVec 32) (cbData : List Byte → σ → MnlCb × σ)
    (errno : ℕ) : List (List Byte) → σ → MnlCb × σ
  | [], s => (.error errno, s)
  | datagram :: datagrams, s =>
    if datagram.isEmpty then (.stop, s)
    else
      match mnlCbRun e seq portid cbData datagram s with
      | (.ok, s) => mnlgSocketRecvRun seq portid cbData errno datagrams s
      | (ret, s) => (ret, s)

variable {e}

/-! ## Nests -/

variable (e) in
/-- A nest with its contents. -/
def nest (type : BitVec 16) (attrs : List Attr) : Attr :=
  { type := nlaFNested ||| type, data := attrs.flatMap (Attr.bytes e) }

section Nests

variable {nlh : List Byte} {buflen : ℕ} {type : BitVec 16} {a : Attr} {attrs : List Attr}

theorem length_bytes_eq (a : Attr) : (a.bytes e).length = 4 + align a.data.length := by
  rw [Attr.length_bytes, rtaSpace_eq]

theorem length_bytes_nest (type : BitVec 16) (attrs : List Attr) :
    ((nest e type attrs).bytes e).length = 4 + (attrs.flatMap (Attr.bytes e)).length := by
  rw [length_bytes_eq, nest, align_of_dvd (four_dvd_length_flatMap attrs)]

theorem putsCheck_of_le {attrs : List Attr} {nlh : List Byte}
    (h : nlh.length + (attrs.flatMap (Attr.bytes e)).length ≤ buflen) :
    putsCheck e buflen nlh attrs = .ok (nlh ++ attrs.flatMap (Attr.bytes e)) := by
  induction attrs generalizing nlh with
  | nil => rw [putsCheck, List.flatMap_nil, List.append_nil]
  | cons a attrs ih =>
    rw [List.flatMap_cons, List.length_append, length_bytes_eq] at h
    have hput : mnlAttrPutCheck e nlh buflen a = some (nlh ++ a.bytes e) := by
      rw [mnlAttrPutCheck, if_neg (by omega), mnlAttrPut]
    have hrest : (nlh ++ a.bytes e).length + (attrs.flatMap (Attr.bytes e)).length ≤ buflen := by
      rw [List.length_append, length_bytes_eq]
      omega
    simp only [putsCheck, hput]
    rw [ih hrest, List.flatMap_cons, List.append_assoc]

/-- Puts that do not all fit leave the message as it was in front of them. -/
theorem putsCheck_of_lt {attrs : List Attr} {nlh : List Byte} (hnlh : nlh.length ≤ buflen)
    (h : buflen < nlh.length + (attrs.flatMap (Attr.bytes e)).length) :
    ∃ written, putsCheck e buflen nlh attrs = .error (nlh ++ written) := by
  induction attrs generalizing nlh with
  | nil =>
    rw [List.flatMap_nil, List.length_nil] at h
    omega
  | cons a attrs ih =>
    rw [List.flatMap_cons, List.length_append, length_bytes_eq] at h
    by_cases hfits : nlh.length + 4 + align a.data.length > buflen
    · have hput : mnlAttrPutCheck e nlh buflen a = none := by
        rw [mnlAttrPutCheck, if_pos hfits]
      exact ⟨[], by simp only [putsCheck, hput, List.append_nil]⟩
    · have hput : mnlAttrPutCheck e nlh buflen a = some (nlh ++ a.bytes e) := by
        rw [mnlAttrPutCheck, if_neg hfits, mnlAttrPut]
      have hlen : (nlh ++ a.bytes e).length = nlh.length + (4 + align a.data.length) := by
        rw [List.length_append, length_bytes_eq]
      obtain ⟨written, hwritten⟩ := @ih (nlh ++ a.bytes e) (by omega) (by omega)
      exact ⟨a.bytes e ++ written, by simp only [putsCheck, hput, hwritten, List.append_assoc]⟩

/-- **An ended nest.** It is one attribute behind what was there. -/
theorem mnlAttrNestEnd_nestStart (nlh : List Byte) (type : BitVec 16) (attrs : List Attr) :
    mnlAttrNestEnd e ((mnlAttrNestStart e nlh type).1 ++ attrs.flatMap (Attr.bytes e))
      (mnlAttrNestStart e nlh type).2 = nlh ++ (nest e type attrs).bytes e := by
  have hlen : ((mnlAttrNestStart e nlh type).1 ++ attrs.flatMap (Attr.bytes e)).length -
      nlh.length = rtaLength (nest e type attrs).data.length := by
    simp only [mnlAttrNestStart, nest, rtaLength, List.length_append, List.length_cons,
      List.length_nil, Endian.length_bytes]
    omega
  have hpad : align (nest e type attrs).data.length - (nest e type attrs).data.length = 0 := by
    rw [nest, align_of_dvd (four_dvd_length_flatMap attrs), Nat.sub_self]
  rw [mnlAttrNestEnd, show (mnlAttrNestStart e nlh type).2 = nlh.length from rfl, hlen,
    Attr.bytes, hpad, List.replicate_zero, List.append_nil]
  simp only [mnlAttrNestStart, List.append_assoc]
  exact overwrite_append rfl (by rw [Endian.length_bytes]; rfl)

theorem mnlAttrNestCancel_append (nlh written : List Byte) :
    mnlAttrNestCancel (nlh ++ written) nlh.length = nlh := by
  have hlen : (nlh ++ written).length - ((nlh ++ written).length - nlh.length) = nlh.length := by
    rw [List.length_append]
    omega
  rw [mnlAttrNestCancel, hlen, List.take_left]

end Nests

/-! ## What a receiver finds -/

theorem length_mnlgMsgPrepare (id flags : BitVec 16) (seq : BitVec 32) (cmd version : BitVec 8) :
    (mnlgMsgPrepare e id flags seq cmd version).length = 20 := by
  simp [mnlgMsgPrepare]

theorem mnlIdealSocketBufferSize_le (pagesize : ℕ) : mnlIdealSocketBufferSize pagesize ≤ 8192 := by
  rw [mnlIdealSocketBufferSize]
  split_ifs <;> omega

/-- Only the first word of the message changes. -/
theorem drop_withNlmsgLen (nlh : List Byte) {n : ℕ} (h : 4 ≤ n) :
    (withNlmsgLen e nlh).drop n = nlh.drop n := by
  obtain ⟨k, rfl⟩ := Nat.exists_eq_add_of_le h
  have hlen : (e.bytes (BitVec.ofNat 32 nlh.length)).length = 4 := Endian.length_bytes e _
  rw [withNlmsgLen, overwrite, List.take_zero, List.nil_append, ← List.drop_drop]
  nth_rewrite 1 [← hlen]
  rw [List.drop_left, List.drop_drop, Nat.zero_add, hlen]

theorem length_bytes_le_of_mem {a : Attr} {attrs : List Attr} (h : a ∈ attrs) :
    (a.bytes e).length ≤ (attrs.flatMap (Attr.bytes e)).length :=
  (List.sublist_flatten_of_mem (List.mem_map_of_mem h)).length_le

theorem attrForEach_of_walk {bytes : List Byte} {attrs : List Attr}
    (h : walk e bytes = some attrs) : attrForEach e bytes = attrs := by
  fun_induction walk e bytes generalizing attrs with
  | case1 =>
    rw [attrForEach]
    · exact Option.some.inj h
    · simp
  | case2 l₀ l₁ t₀ t₁ rest len hlen =>
    rename_i ih
    obtain ⟨tail, htail, rfl⟩ := Option.map_eq_some_iff.mp h
    rw [attrForEach, if_pos hlen, ih htail]
  | case3 => cases h
  | case4 => cases h

/-- The loop goes through the attributes that were put, all of them and in their order. -/
theorem attrForEach_flatMap {attrs : List Attr}
    (h : (attrs.flatMap (Attr.bytes e)).length < 2 ^ 16) :
    attrForEach e (attrs.flatMap (Attr.bytes e)) = attrs := by
  refine attrForEach_of_walk (walk_flatMap fun a ha => ?_)
  have hle := @length_bytes_le_of_mem e a attrs ha
  have hpad := le_align a.data.length
  rw [length_bytes_eq] at hle
  rw [rtaLength]
  omega

/-- A nest that is no longer than a message is read as it was written. -/
theorem attrForEach_nest {type : BitVec 16} {attrs : List Attr}
    (h : ((nest e type attrs).bytes e).length < 2 ^ 16) :
    attrForEach e (nest e type attrs).data = attrs := by
  rw [length_bytes_nest] at h
  exact attrForEach_flatMap (by omega)

/-! ## Datagrams -/

section Datagrams

variable {σ : Type*} {seq portid : BitVec 32} {cbData : List Byte → σ → MnlCb × σ}

theorem Nlmsghdr.length_bytes (h : Nlmsghdr) : (h.bytes e).length = 16 := by
  simp [Nlmsghdr.bytes]

theorem Nlmsghdr.read_append (h : Nlmsghdr) (rest : List Byte) :
    Nlmsghdr.read e (h.bytes e ++ rest) = some h := by
  simp only [Nlmsghdr.bytes, Nlmsghdr.read, List.append_assoc, Option.bind_eq_bind,
    Endian.read_append e (show 8 ∣ 32 by decide), Endian.read_append e (show 8 ∣ 16 by decide),
    Option.bind_some]

/-- A message of an answer: its header and what is behind. -/
structure Msg where
  header : Nlmsghdr
  payload : List Byte
  deriving DecidableEq, Repr

def Msg.bytes (e : Endian) (m : Msg) : List Byte := m.header.bytes e ++ m.payload

/-- A message that is part of the answer to a request, and whole. -/
structure Msg.Belongs (m : Msg) (seq portid : BitVec 32) : Prop where
  len_eq : m.header.len.toNat = 16 + m.payload.length
  aligned : 4 ∣ m.payload.length
  seq_eq : m.header.seq = seq
  pid_eq : m.header.pid = portid
  complete : m.header.flags &&& nlmFDumpIntr = 0

variable (e cbData) in
/-- The callbacks on one message after another. -/
def runMsgs : List Msg → σ → MnlCb × σ
  | [], s => (.ok, s)
  | m :: msgs, s =>
    match if nlmsgMinType ≤ m.header.type.toNat then cbData (m.bytes e) s
      else (controlCb e m.header (m.bytes e), s) with
    | (.ok, s) => runMsgs msgs s
    | (ret, s) => (ret, s)

theorem mnlCbRun_append {m : Msg} (h : m.Belongs seq portid) (rest : List Byte) (s : σ) :
    mnlCbRun e seq portid cbData (m.bytes e ++ rest) s =
      match if nlmsgMinType ≤ m.header.type.toNat then cbData (m.bytes e) s
        else (controlCb e m.header (m.bytes e), s) with
      | (.ok, s) => mnlCbRun e seq portid cbData rest s
      | (ret, s) => (ret, s) := by
  have hlen := h.len_eq
  have haligned := h.aligned
  have hmsg : (m.bytes e).length = m.header.len.toNat := by
    rw [Msg.bytes, List.length_append, Nlmsghdr.length_bytes, hlen]
  have halign : align m.header.len.toNat = (m.bytes e).length := by
    rw [hmsg, align_of_dvd]
    omega
  have hok : 16 ≤ m.header.len.toNat ∧ m.header.len.toNat ≤ (m.bytes e ++ rest).length := by
    rw [List.length_append, hmsg]
    omega
  have hpid : ¬ (m.header.pid ≠ 0 ∧ portid ≠ 0 ∧ m.header.pid ≠ portid) :=
    fun hne => hne.2.2 h.pid_eq
  have hseq : ¬ (m.header.seq ≠ 0 ∧ seq ≠ 0 ∧ m.header.seq ≠ seq) := fun hne => hne.2.2 h.seq_eq
  have hread : Nlmsghdr.read e (m.bytes e ++ rest) = some m.header := by
    rw [Msg.bytes, List.append_assoc, Nlmsghdr.read_append]
  rw [mnlCbRun]
  simp only [hread]
  rw [dif_pos hok, if_neg hpid, if_neg hseq, if_neg (not_not_intro h.complete), halign,
    List.take_left, List.drop_left]

theorem mnlCbRun_flatMap {msgs : List Msg} (h : ∀ m ∈ msgs, m.Belongs seq portid) (s : σ) :
    mnlCbRun e seq portid cbData (msgs.flatMap (Msg.bytes e)) s = runMsgs e cbData msgs s := by
  induction msgs generalizing s with
  | nil =>
    rw [List.flatMap_nil, mnlCbRun]
    rfl
  | cons m msgs ih =>
    rw [List.forall_mem_cons] at h
    rw [List.flatMap_cons, mnlCbRun_append h.1, runMsgs]
    split
    · exact ih h.2 _
    · rfl

theorem runMsgs_append (msgs rest : List Msg) (s : σ) :
    runMsgs e cbData (msgs ++ rest) s =
      match runMsgs e cbData msgs s with
      | (.ok, s) => runMsgs e cbData rest s
      | (ret, s) => (ret, s) := by
  induction msgs generalizing s with
  | nil => rfl
  | cons m msgs ih =>
    rw [List.cons_append, runMsgs, runMsgs]
    split
    · exact ih _
    · rename_i ret s' hne h
      split
      · rename_i h'
        exact absurd (congrArg Prod.fst h') hne
      · rename_i h'
        exact h'

/-- **Datagrams.** It does not matter how the messages come in datagrams. -/
theorem mnlgSocketRecvRun_groups {groups : List (List Msg)} (hne : ∀ group ∈ groups, group ≠ [])
    (h : ∀ group ∈ groups, ∀ m ∈ group, m.Belongs seq portid) (errno : ℕ) (s : σ) :
    mnlgSocketRecvRun e seq portid cbData errno (groups.map (·.flatMap (Msg.bytes e))) s =
      match runMsgs e cbData groups.flatten s with
      | (.ok, s) => (.error errno, s)
      | (ret, s) => (ret, s) := by
  induction groups generalizing s with
  | nil => rfl
  | cons group groups ih =>
    rw [List.forall_mem_cons] at h hne
    have hnil : (group.flatMap (Msg.bytes e)).isEmpty = false := by
      obtain ⟨m, group, rfl⟩ := List.exists_cons_of_ne_nil hne.1
      rw [List.flatMap_cons, Msg.bytes, List.append_assoc]
      have hlen := @Nlmsghdr.length_bytes e m.header
      rcases hbytes : m.header.bytes e with _ | ⟨b, bs⟩
      · rw [hbytes] at hlen
        cases hlen
      · rfl
    rw [List.map_cons, mnlgSocketRecvRun, hnil, if_neg Bool.false_ne_true, mnlCbRun_flatMap h.1,
      List.flatten_cons, runMsgs_append]
    rcases runMsgs e cbData group s with ⟨ret, s'⟩
    cases ret with
    | ok => exact ih hne.2 h.2 s'
    | stop => rfl
    | error errno' => rfl

end Datagrams

end WgDesktop.Mnl
