import WgDesktop.Lib.Bytes

/-!
# Packet filters

The `nftables` machine: a rule is a list of register expressions that ends at the first one that
does not match, a chain takes the verdict of its first rule that has one and its policy otherwise,
and a hook runs its chains by priority until one of them does not accept.

`Decides` says which packets a rule gives its verdict to. Its rules follow the expressions in the
order a rule lists them: a load with the comparison of what it loaded, down to the verdict.
-/

namespace Nft

open Bytes

/-! ## Packets -/

/-- The name of a network device: at most fifteen bytes, none of them zero. -/
structure IfName where
  bytes : List Byte
  length_le : bytes.length ≤ 15
  zero_notMem : 0#8 ∉ bytes
  deriving DecidableEq

/-- A name in the sixteen bytes that the kernel keeps for it. -/
def padName (name : List Byte) : List Byte := (name ++ List.replicate 16 0#8).take 16

theorem takeWhile_padName (n : IfName) : (padName n.bytes).takeWhile (· ≠ 0#8) = n.bytes := by
  have hne : ∀ b ∈ n.bytes, decide (b ≠ 0#8) = true := by
    intro b hb
    rw [decide_eq_true_iff]
    rintro rfl
    exact n.zero_notMem hb
  have hpad : padName n.bytes = n.bytes ++ List.replicate (16 - n.bytes.length) 0#8 := by
    have hle := n.length_le
    rw [padName, List.take_append, List.take_of_length_le (by omega), List.take_replicate]
    congr 2
    omega
  rw [hpad, List.takeWhile_append_of_pos hne]
  simp

/-- Padded names compare as the names do. -/
theorem padName_inj {a b : IfName} : padName a.bytes = padName b.bytes ↔ a = b := by
  constructor
  · intro h
    have hbytes : a.bytes = b.bytes := by rw [← takeWhile_padName a, ← takeWhile_padName b, h]
    cases a
    cases b
    simpa using hbytes
  · rintro rfl
    rfl

structure Interface where
  name : IfName
  type : BitVec 16
  deriving DecidableEq

structure Ipv4Header where
  versionIhl : Byte
  tos : Byte
  totalLength : BitVec 16
  identification : BitVec 16
  fragment : BitVec 16
  ttl : Byte
  protocol : Byte
  checksum : BitVec 16
  saddr : BitVec 32
  daddr : BitVec 32
  options : List Byte
  deriving DecidableEq

/-- An IPv6 header; the transport protocol, when there is one, and the fragment offset are what
the walk over the extension headers finds. -/
structure Ipv6Header where
  versionClassFlow : BitVec 32
  payloadLength : BitVec 16
  nextHeader : Byte
  hopLimit : Byte
  saddr : BitVec 128
  daddr : BitVec 128
  extensions : List Byte
  transportProtocol : Option Byte
  fragmentOffset : BitVec 16
  deriving DecidableEq

def Ipv4Header.bytes (h : Ipv4Header) : List Byte :=
  h.versionIhl :: h.tos :: (toBytes h.totalLength ++ toBytes h.identification ++
    toBytes h.fragment ++ h.ttl :: h.protocol :: (toBytes h.checksum ++ toBytes h.saddr ++
      toBytes h.daddr ++ h.options))

def Ipv6Header.bytes (h : Ipv6Header) : List Byte :=
  toBytes h.versionClassFlow ++ toBytes h.payloadLength ++ h.nextHeader :: h.hopLimit ::
    (toBytes h.saddr ++ toBytes h.daddr ++ h.extensions)

inductive Header where
  | ipv4 (header : Ipv4Header)
  | ipv6 (header : Ipv6Header)
  deriving DecidableEq

/-- A packet at a hook: the devices it comes from and goes to, its marks, the kind of address the
routing table takes its source for, its header and what follows the header. -/
structure Packet where
  iif : Option Interface
  oif : Option Interface
  mark : BitVec 32
  ctMark : BitVec 32
  saddrType : BitVec 32
  header : Header
  body : List Byte
  deriving DecidableEq

namespace Packet

def headerBytes (p : Packet) : List Byte :=
  match p.header with
  | .ipv4 h => h.bytes
  | .ipv6 h => h.bytes

def l4proto (p : Packet) : Option Byte :=
  match p.header with
  | .ipv4 h => some h.protocol
  | .ipv6 h => h.transportProtocol

def fragmentOffset (p : Packet) : BitVec 16 :=
  match p.header with
  | .ipv4 h => h.fragment &&& 0x1fff#16
  | .ipv6 h => h.fragmentOffset

/-- The transport header and what follows it; later fragments have none. -/
def transport (p : Packet) : Option (List Byte) :=
  if p.l4proto.isSome ∧ p.fragmentOffset = 0#16 then some p.body else none

end Packet

/-! ## Expressions -/

/-- `NFPROTO_IPV4`, `NFPROTO_IPV6`. -/
def Header.nfproto : Header → Byte
  | .ipv4 _ => 2#8
  | .ipv6 _ => 10#8

/-- `ETH_P_IP`, `ETH_P_IPV6`. -/
def Header.protocol : Header → BitVec 16
  | .ipv4 _ => 0x0800#16
  | .ipv6 _ => 0x86dd#16

inductive MetaKey where
  | mark
  | nfproto
  | protocol
  | l4proto
  | iiftype
  | oiftype
  | iifname
  | oifname
  deriving DecidableEq, Repr

inductive PayloadBase where
  | networkHeader
  | transportHeader
  deriving DecidableEq, Repr

inductive CmpOp where
  | eq
  | neq
  deriving DecidableEq, Repr

inductive RejectType where
  | icmpxUnreach (code : Byte)
  | tcpRst
  deriving DecidableEq, Repr

inductive Verdict where
  | accept
  | drop
  | reject (type : RejectType)
  deriving DecidableEq, Repr

inductive Expr where
  | loadMeta (key : MetaKey) (register : ℕ)
  | setMark (register : ℕ)
  | loadCtMark (register : ℕ)
  | setCtMark (register : ℕ)
  | loadSaddrType (register : ℕ)
  | payload (register : ℕ) (base : PayloadBase) (offset len : ℕ)
  | bitwise (source dest len : ℕ) (mask xor : List Byte)
  | immediate (register : ℕ) (data : List Byte)
  | cmp (op : CmpOp) (register : ℕ) (data : List Byte)
  | lookup (register : ℕ) (set : String)
  | verdict (v : Verdict)
  deriving DecidableEq, Repr

/-- A named set of keys of one length. -/
structure NamedSet where
  keyLength : ℕ
  elements : List (List Byte)
  deriving DecidableEq, Repr

/-- The machine a rule runs on: the byte order of its words and the named sets. -/
structure Env where
  endian : Endian
  sets : String → Option NamedSet

/-- What a rule can change: the registers, and the marks of the packet. -/
structure Machine where
  registers : ℕ → List Byte
  packet : Packet

inductive Step where
  | next (m : Machine)
  | done
  | stop (v : Verdict)

def Packet.loadMeta (e : Endian) (p : Packet) : MetaKey → Option (List Byte)
  | .mark => some (e.bytes p.mark)
  | .nfproto => some [p.header.nfproto]
  | .protocol => some (toBytes p.header.protocol)
  | .l4proto => p.l4proto.map fun b => [b]
  | .iiftype => p.iif.map fun i => e.bytes i.type
  | .oiftype => p.oif.map fun i => e.bytes i.type
  | .iifname => some (padName ((p.iif.map fun i => i.name.bytes).getD []))
  | .oifname => some (padName ((p.oif.map fun i => i.name.bytes).getD []))

/-- `len` bytes from `offset`, when there are as many. -/
def slice (bs : List Byte) (offset len : ℕ) : Option (List Byte) :=
  if offset + len ≤ bs.length then some ((bs.drop offset).take len) else none

def Packet.loadPayload (p : Packet) (base : PayloadBase) (offset len : ℕ) : Option (List Byte) :=
  match base with
  | .networkHeader => slice (p.headerBytes ++ p.body) offset len
  | .transportHeader => p.transport.bind fun bs => slice bs offset len

namespace Machine

/-- A load writes the leading bytes of the register. -/
def store (m : Machine) (r : ℕ) (bs : List Byte) : Machine :=
  { m with registers := Function.update m.registers r (bs ++ (m.registers r).drop bs.length) }

/-- A load that finds nothing ends the rule. -/
def load (m : Machine) (r : ℕ) : Option (List Byte) → Step
  | some bs => .next (m.store r bs)
  | none => .done

end Machine

def Expr.eval (env : Env) (m : Machine) : Expr → Step
  | loadMeta key r => m.load r (m.packet.loadMeta env.endian key)
  | setMark r =>
    let mark := env.endian.word ((m.registers r).take 4)
    .next { m with packet := { m.packet with mark := mark } }
  | loadCtMark r => m.load r (some (env.endian.bytes m.packet.ctMark))
  | setCtMark r =>
    let mark := env.endian.word ((m.registers r).take 4)
    .next { m with packet := { m.packet with ctMark := mark } }
  | loadSaddrType r => m.load r (some (env.endian.bytes m.packet.saddrType))
  | payload r base offset len => m.load r (m.packet.loadPayload base offset len)
  | bitwise source dest len mask xor =>
    m.load dest (some (List.zipWith (· ^^^ ·)
      (List.zipWith (· &&& ·) ((m.registers source).take len) mask) xor))
  | immediate r data => m.load r (some data)
  | cmp .eq r data => if (m.registers r).take data.length = data then .next m else .done
  | cmp .neq r data => if (m.registers r).take data.length = data then .done else .next m
  | lookup r set =>
    match env.sets set with
    | some ns => if (m.registers r).take ns.keyLength ∈ ns.elements then .next m else .done
    | none => .done
  | verdict v => .stop v

/-- A rule from one machine state: the packet it leaves and its verdict, if it reaches one. -/
def run (env : Env) : List Expr → Machine → Packet × Option Verdict
  | [], m => (m.packet, none)
  | e :: es, m =>
    match e.eval env m with
    | .next m' => run env es m'
    | .done => (m.packet, none)
    | .stop v => (m.packet, some v)

/-! ## What a rule decides -/

/-- The rule gives the verdict to the packets in `P` and to no other packet, and leaves every
packet as it is. -/
def Decides (env : Env) (es : List Expr) (P : Packet → Prop) (v : Verdict) : Prop :=
  ∀ m : Machine, (P m.packet → run env es m = (m.packet, some v)) ∧
    (¬P m.packet → run env es m = (m.packet, none))

section Decides

variable {env : Env} {es : List Expr} {P Q : Packet → Prop} {v : Verdict} {r : ℕ}
  {data : List Byte}

@[simp] theorem Machine.packet_store (m : Machine) (r : ℕ) (bs : List Byte) :
    (m.store r bs).packet = m.packet := rfl

theorem Machine.take_store (m : Machine) (r : ℕ) {bs : List Byte} {n : ℕ} (h : bs.length = n) :
    ((m.store r bs).registers r).take n = bs := by
  simp [Machine.store, ← h]

theorem Decides.congr (h : Decides env es P v) (hPQ : ∀ p, P p ↔ Q p) : Decides env es Q v :=
  fun m => ⟨fun hq => (h m).1 ((hPQ _).mpr hq), fun hq => (h m).2 fun hp => hq ((hPQ _).mp hp)⟩

theorem Decides.verdict (v : Verdict) : Decides env [.verdict v] (fun _ => True) v :=
  fun _ => ⟨fun _ => rfl, fun h => absurd trivial h⟩

theorem run_load {e : Expr} {m : Machine} {bs : List Byte}
    (he : e.eval env m = m.load r (some bs)) :
    run env (e :: es) m = run env es (m.store r bs) := by
  rw [run, he]
  rfl

theorem run_load_none {e : Expr} {m : Machine} (he : e.eval env m = m.load r none) :
    run env (e :: es) m = (m.packet, none) := by
  rw [run, he]
  rfl

theorem run_cmp_store {m : Machine} {bs : List Byte} (hlen : bs.length = data.length) :
    run env (.cmp .eq r data :: es) (m.store r bs) =
      if bs = data then run env es (m.store r bs) else (m.packet, none) := by
  simp only [run, Expr.eval, m.take_store r hlen]
  by_cases h : bs = data
  · rw [if_pos h, if_pos h]
  · rw [if_neg h, if_neg h]
    rfl

/-- **The match rule.** A load followed by a comparison with as many bytes. -/
theorem Decides.load {e : Expr} {f : Packet → Option (List Byte)}
    (he : ∀ m, e.eval env m = m.load r (f m.packet))
    (hlen : ∀ p bs, f p = some bs → bs.length = data.length) (h : Decides env es P v) :
    Decides env (e :: .cmp .eq r data :: es) (fun p => f p = some data ∧ P p) v := by
  intro m
  have he := he m
  cases hf : f m.packet with
  | none =>
    rw [hf] at he
    rw [run_load_none he]
    simp [hf]
  | some bs =>
    rw [hf] at he
    rw [run_load he, run_cmp_store (hlen _ _ hf)]
    by_cases hbs : bs = data
    · subst hbs
      simpa [hf] using h (m.store r bs)
    · simp [hf, hbs]

/-- The bytes that a key loads. -/
def MetaKey.size : MetaKey → ℕ
  | .mark => 4
  | .nfproto => 1
  | .protocol => 2
  | .l4proto => 1
  | .iiftype => 2
  | .oiftype => 2
  | .iifname => 16
  | .oifname => 16

theorem length_padName (name : List Byte) : (padName name).length = 16 := by
  simp [padName]

theorem length_loadMeta {e : Endian} {p : Packet} {key : MetaKey} {bs : List Byte}
    (h : p.loadMeta e key = some bs) : bs.length = key.size := by
  cases key with
  | iifname => obtain rfl := Option.some.inj h; exact length_padName _
  | oifname => obtain rfl := Option.some.inj h; exact length_padName _
  | l4proto | iiftype | oiftype =>
    obtain ⟨a, -, rfl⟩ := Option.map_eq_some_iff.mp h
    simp [MetaKey.size]
  | _ => obtain rfl := Option.some.inj h; simp [MetaKey.size]

theorem length_of_slice {bs cs : List Byte} {offset len : ℕ} (h : slice bs offset len = some cs) :
    cs.length = len := by
  unfold slice at h
  split_ifs at h with hle
  obtain rfl := Option.some.inj h
  simp only [List.length_take, List.length_drop]
  omega

theorem slice_append (front bs back : List Byte) :
    slice (front ++ (bs ++ back)) front.length bs.length = some bs := by
  have hle : front.length + bs.length ≤ (front ++ (bs ++ back)).length := by
    simp only [List.length_append]
    omega
  rw [slice, if_pos hle, List.drop_left, List.take_left]

theorem length_loadPayload {p : Packet} {base : PayloadBase} {offset len : ℕ} {bs : List Byte}
    (h : p.loadPayload base offset len = some bs) : bs.length = len := by
  cases base with
  | networkHeader => exact length_of_slice h
  | transportHeader =>
    obtain ⟨t, -, ht⟩ := Option.bind_eq_some_iff.mp h
    exact length_of_slice ht

theorem Decides.loadMeta {key : MetaKey} (hlen : data.length = key.size)
    (h : Decides env es P v) :
    Decides env (.loadMeta key r :: .cmp .eq r data :: es)
      (fun p => p.loadMeta env.endian key = some data ∧ P p) v :=
  h.load (fun _ => rfl) fun _ _ hbs => (length_loadMeta hbs).trans hlen.symm

theorem Decides.payload {base : PayloadBase} {offset len : ℕ} (hlen : data.length = len)
    (h : Decides env es P v) :
    Decides env (.payload r base offset len :: .cmp .eq r data :: es)
      (fun p => p.loadPayload base offset len = some data ∧ P p) v :=
  h.load (fun _ => rfl) fun _ _ hbs => (length_loadPayload hbs).trans hlen.symm

theorem eval_payload {base : PayloadBase} {offset len : ℕ} {m : Machine}
    {bytes : Option (List Byte)} (h : m.packet.loadPayload base offset len = bytes) :
    (Expr.payload r base offset len).eval env m = m.load r bytes := by
  rw [← h]
  rfl

theorem Decides.masked {base : PayloadBase} {offset len : ℕ} {mask xor : List Byte}
    (hmask : mask.length = len) (hxor : xor.length = len) (hlen : data.length = len)
    (h : Decides env es P v) :
    Decides env (.payload r base offset len :: .bitwise r r len mask xor :: .cmp .eq r data :: es)
      (fun p => (p.loadPayload base offset len).map
        (fun bs => List.zipWith (· ^^^ ·) (List.zipWith (· &&& ·) bs mask) xor) = some data ∧ P p)
      v := by
  intro m
  cases hf : m.packet.loadPayload base offset len with
  | none =>
    rw [run_load_none (eval_payload hf)]
    simp [hf]
  | some bs =>
    have hbs := length_loadPayload hf
    set masked := List.zipWith (· ^^^ ·) (List.zipWith (· &&& ·) bs mask) xor with hmasked
    have hb : (Expr.bitwise r r len mask xor).eval env (m.store r bs) =
        (m.store r bs).load r (some masked) := by
      simp only [Expr.eval, m.take_store r hbs, hmasked]
    have hmlen : masked.length = data.length := by simp [hmasked, hbs, hmask, hxor, hlen]
    rw [run_load (eval_payload hf), run_load hb, run_cmp_store hmlen]
    by_cases heq : masked = data
    · simpa [hf, heq, ← hmasked] using h ((m.store r bs).store r data)
    · simp [hf, heq, ← hmasked]

theorem Decides.lookup {base : PayloadBase} {offset len : ℕ} {set : String} {ns : NamedSet}
    (hset : env.sets set = some ns) (hkey : ns.keyLength = len) (h : Decides env es P v) :
    Decides env (.payload r base offset len :: .lookup r set :: es)
      (fun p => (∃ key ∈ ns.elements, p.loadPayload base offset len = some key) ∧ P p) v := by
  intro m
  cases hf : m.packet.loadPayload base offset len with
  | none =>
    rw [run_load_none (eval_payload hf)]
    simp [hf]
  | some bs =>
    have hreg := m.take_store r ((length_loadPayload hf).trans hkey.symm)
    rw [run_load (eval_payload hf)]
    by_cases hmem : bs ∈ ns.elements
    · simpa [hf, run, Expr.eval, hset, hreg, hmem] using h (m.store r bs)
    · simp [hf, run, Expr.eval, hset, hreg, hmem]

end Decides

/-! ## Chains -/

inductive Hook where
  | prerouting
  | input
  | output
  | postrouting
  deriving DecidableEq, Repr

structure Rule where
  handle : ℕ
  exprs : List Expr
  deriving DecidableEq, Repr

/-- A base chain; its policy is the verdict of the packets that no rule decides. -/
structure Chain where
  name : String
  hook : Hook
  priority : ℤ
  policy : Verdict
  rules : List Rule
  deriving DecidableEq, Repr

def Chain.exprs (c : Chain) : List (List Expr) := c.rules.map Rule.exprs

/-- The first rule with a verdict decides; each rule starts from cleared registers. -/
def evalRules (env : Env) : List (List Expr) → Packet → Packet × Option Verdict
  | [], p => (p, none)
  | es :: rest, p =>
    match run env es ⟨fun _ => List.replicate 16 0#8, p⟩ with
    | (p', some v) => (p', some v)
    | (p', none) => evalRules env rest p'

def Chain.eval (env : Env) (c : Chain) (p : Packet) : Packet × Verdict :=
  let (p', v) := evalRules env c.exprs p
  (p', v.getD c.policy)

/-- The chains of a hook, in the order they run: a packet goes on while it is accepted. -/
def traverse (env : Env) : List Chain → Packet → Packet × Verdict
  | [], p => (p, .accept)
  | c :: cs, p =>
    match c.eval env p with
    | (p', .accept) => traverse env cs p'
    | (p', v) => (p', v)

section Chains

variable {env : Env} {v : Verdict}

/-- **The chain rule.** Rules with one verdict decide the packets that one of them decides and
leave the others to the rest of the chain. -/
theorem evalRules_of_decides {rules : List (List Expr)} {Ps : List (Packet → Prop)}
    (h : List.Forall₂ (fun es P => Decides env es P v) rules Ps) (rest : List (List Expr))
    (p : Packet) :
    ((∃ P ∈ Ps, P p) → evalRules env (rules ++ rest) p = (p, some v)) ∧
      ((∀ P ∈ Ps, ¬P p) → evalRules env (rules ++ rest) p = evalRules env rest p) := by
  induction h with
  | nil => simp
  | @cons es P rules Ps hP _ ih =>
    have hrun := hP ⟨fun _ => List.replicate 16 0#8, p⟩
    simp only [List.cons_append, evalRules, List.exists_mem_cons_iff, List.forall_mem_cons]
    by_cases hp : P p
    · rw [hrun.1 hp]
      exact ⟨fun _ => rfl, fun hn => absurd hp hn.1⟩
    · rw [hrun.2 hp]
      exact ⟨fun hex => ih.1 (hex.resolve_left hp), fun hn => ih.2 hn.2⟩

theorem evalRules_ne_accept {rules : List (List Expr)}
    (h : ∀ es ∈ rules, ∃ P v, v ≠ Verdict.accept ∧ Decides env es P v) (p : Packet) :
    (evalRules env rules p).2 ≠ some .accept := by
  induction rules with
  | nil => simp [evalRules]
  | cons es rules ih =>
    obtain ⟨⟨P, v, hv, hP⟩, hrest⟩ := List.forall_mem_cons.mp h
    have hrun := hP ⟨fun _ => List.replicate 16 0#8, p⟩
    rw [evalRules]
    by_cases hp : P p
    · rw [hrun.1 hp]
      simpa using hv
    · rw [hrun.2 hp]
      exact ih hrest

end Chains

end Nft
