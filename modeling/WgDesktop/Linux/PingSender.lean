import WgDesktop.Lib.Bytes
import WgDesktop.Lib.OnesComplement

/-!
# ICMP echo

`PingSender::inetChecksum` of `src/utils/pingsender/pingsender.cpp` and the IPv4 packets of
`src/platforms/linux/linuxpingsender.cpp`. The checksum adds up words in an `int`; `none` is a sum
that does not fit one, or a read behind the end of the data. `inetChecksum_onesComplement` compares
it with the ones-complement sum, and `rawSocketReady_reply` follows a reply through the check of a
raw socket.
-/

namespace WgDesktop.PingSender

open Bytes

variable (e : Endian)

/-! ## The checksum -/

/-- The addition of two `int`. -/
def addInt (a b : ℤ) : Option ℤ :=
  if -2 ^ 31 ≤ a + b ∧ a + b < 2 ^ 31 then some (a + b) else none

/-- The loop over the words: what is left at `w`, `nleft` and `sum`. -/
def addWords : List Byte → ℤ → ℤ → Option (List Byte × ℤ × ℤ)
  | b₀ :: b₁ :: w, nleft, sum =>
    if 1 < nleft then do
      let sum ← addInt sum (e.word [b₀, b₁] : BitVec 16).toNat
      addWords w (nleft - 2) sum
    else some (b₀ :: b₁ :: w, nleft, sum)
  | w, nleft, sum => if 1 < nleft then none else some (w, nleft, sum)

/-- The odd byte, in the union `last` with a zero behind it. -/
def addOddByte : List Byte × ℤ × ℤ → Option ℤ
  | (w, nleft, sum) =>
    if nleft = 1 then
      match w with
      | b :: _ => addInt sum (e.word [b, 0] : BitVec 16).toNat
      | [] => none
    else some sum

/-- The carries added back in twice, and the complement truncated to 16 bits. -/
def answer (sum : ℤ) : Option (BitVec 16) := do
  let sum ← addInt (sum >>> (16 : ℕ)) (sum % 2 ^ 16)
  let sum ← addInt sum (sum >>> (16 : ℕ))
  return BitVec.ofInt 16 (-sum - 1)

def inetChecksum (data : List Byte) (len : ℕ) : Option (BitVec 16) := do
  let left ← addWords e data (Int.bmod len (2 ^ 32)) 0
  let sum ← addOddByte e left
  answer sum

/-! ## The packets -/

def icmpEcho : Byte := 8

def icmpEchoReply : Byte := 0

/-- The word that the machine stores in network order. -/
def htons (x : BitVec 16) : BitVec 16 := e.word (toBytes x)

/-- An `icmphdr` of an echo, as it is stored. -/
def icmphdr (type : Byte) (checksum id sequence : BitVec 16) : List Byte :=
  [type, 0] ++ e.bytes checksum ++ e.bytes id ++ e.bytes sequence

/-- The packet that `sendPing` sends to an IPv4 address. -/
def sendPing (ident sequence : BitVec 16) : Option (List Byte) := do
  let packet := icmphdr e icmpEcho 0 (htons e ident) (htons e sequence)
  let checksum ← inetChecksum e packet packet.length
  return icmphdr e icmpEcho checksum (htons e ident) (htons e sequence)

/-- The filter that `createSocket` attaches to a raw socket. A load behind the end rejects. -/
def bpfProg (ident : BitVec 16) (data : List Byte) : Bool :=
  match data with
  | [] => false
  | b :: _ =>
    let x := 4 * (b &&& 0xf).toNat
    match data.drop x with
    | type :: _ :: _ :: _ :: i₀ :: i₁ :: _ =>
      (Endian.big.word [i₀, i₁] : BitVec 16) == ident && type == icmpEchoReply
    | _ => false

/-- `rawSocketReady` on a datagram: the sequence numbers of its signals `recvPing`. -/
def rawSocketReady (ident : BitVec 16) (data : List Byte) : Option (List (BitVec 16)) :=
  match data with
  | [] => some []
  | b :: _ =>
    let iphdrlen := (b &&& 0xf).toNat * 4
    if data.length < iphdrlen ∨ iphdrlen < 20 then some []
    else do
      let checksum ← inetChecksum e (data.drop iphdrlen) (data.length - iphdrlen)
      if checksum ≠ 0 then return []
      match data.drop iphdrlen with
      | type :: _ :: _ :: _ :: i₀ :: i₁ :: s₀ :: s₁ :: _ =>
        if type = icmpEchoReply ∧ e.word [i₀, i₁] = htons e ident then
          return [htons e (e.word [s₀, s₁])]
        else return []
      | _ => return []

/-! ## Words of the data -/

/-- The words of the data, as the machine reads them. -/
def words : List Byte → List (BitVec 16)
  | b₀ :: b₁ :: w => e.word [b₀, b₁] :: words w
  | _ => []

/-- The data, with a zero behind an odd byte. -/
def zeroPadded (data : List Byte) : List Byte :=
  if data.length % 2 = 1 then data ++ [0] else data

/-- The total of the words of the padded data. -/
def total (data : List Byte) : ℕ := ((words e (zeroPadded data)).map BitVec.toNat).sum

section Words

variable {e} {data : List Byte}

theorem zeroPadded_cons_cons (b₀ b₁ : Byte) (w : List Byte) :
    zeroPadded (b₀ :: b₁ :: w) = b₀ :: b₁ :: zeroPadded w := by
  rw [zeroPadded, zeroPadded, List.length_cons, List.length_cons, Nat.add_assoc,
    Nat.add_mod_right]
  split <;> rfl

theorem words_zeroPadded_cons_cons (b₀ b₁ : Byte) (w : List Byte) :
    words e (zeroPadded (b₀ :: b₁ :: w)) = e.word [b₀, b₁] :: words e (zeroPadded w) := by
  rw [zeroPadded_cons_cons, words]

theorem total_cons_cons (b₀ b₁ : Byte) (w : List Byte) :
    total e (b₀ :: b₁ :: w) = (e.word [b₀, b₁] : BitVec 16).toNat + total e w := by
  rw [total, words_zeroPadded_cons_cons, List.map_cons, List.sum_cons, total]

theorem total_singleton (b : Byte) : total e [b] = (e.word [b, 0] : BitVec 16).toNat := by
  simp [total, zeroPadded, words]

theorem total_le (e : Endian) (data : List Byte) :
    total e data ≤ 65535 * ((data.length + 1) / 2) := by
  have hword : ∀ bs, (e.word bs : BitVec 16).toNat ≤ 65535 := fun bs => by
    have := (e.word bs : BitVec 16).isLt
    omega
  fun_induction words e data with
  | case1 b₀ b₁ w ih =>
    have := hword [b₀, b₁]
    rw [total_cons_cons, List.length_cons, List.length_cons]
    omega
  | case2 data h =>
    match data, h with
    | [], _ => exact Nat.zero_le _
    | [b], _ =>
      rw [total_singleton]
      exact (hword [b, 0]).trans_eq (by simp)
    | b₀ :: b₁ :: w, h => exact absurd rfl (h b₀ b₁ w)

end Words

/-! ## What the checksum is -/

theorem addInt_eq {a b : ℕ} (h : a + b < 2 ^ 31) : addInt a b = some ((a + b : ℕ) : ℤ) := by
  rw [addInt, if_pos (by omega), Nat.cast_add]

theorem addWords_cons_cons (b₀ b₁ : Byte) (w : List Byte) {sum : ℕ}
    (h : sum + (e.word [b₀, b₁] : BitVec 16).toNat < 2 ^ 31) :
    addWords e (b₀ :: b₁ :: w) (b₀ :: b₁ :: w).length sum =
      addWords e w w.length ((sum + (e.word [b₀, b₁] : BitVec 16).toNat : ℕ) : ℤ) := by
  have hleft : ((b₀ :: b₁ :: w).length : ℤ) - 2 = w.length := by
    simp only [List.length_cons]
    omega
  have hmore : 1 < ((b₀ :: b₁ :: w).length : ℤ) := by omega
  rw [addWords, if_pos hmore, addInt_eq h, hleft, Option.bind_eq_bind, Option.bind_some]

theorem addWords_singleton (b : Byte) (sum : ℤ) : addWords e [b] 1 sum = some ([b], 1, sum) := by
  rw [addWords, if_neg (by decide)]
  intro b₀ b₁ w h
  cases h

theorem addOddByte_singleton (b : Byte) (sum : ℤ) :
    addOddByte e ([b], 1, sum) = addInt sum (e.word [b, 0] : BitVec 16).toNat := by
  rw [addOddByte, if_pos rfl]

/-- The loop and the odd byte add up the words, as long as the total fits an `int`. -/
theorem addWords_bind_addOddByte (data : List Byte) (sum : ℕ)
    (h : sum + total e data < 2 ^ 31) :
    (addWords e data data.length sum).bind (addOddByte e) =
      some ((sum + total e data : ℕ) : ℤ) := by
  fun_induction words e data generalizing sum with
  | case1 b₀ b₁ w ih =>
    rw [total_cons_cons, ← Nat.add_assoc] at h ⊢
    rw [addWords_cons_cons e b₀ b₁ w (by omega)]
    exact ih _ h
  | case2 data hdata =>
    match data, hdata with
    | [], _ => rfl
    | [b], _ =>
      rw [total_singleton] at h ⊢
      rw [List.length_singleton, Nat.cast_one, addWords_singleton, Option.bind_some,
        addOddByte_singleton, addInt_eq h]
    | b₀ :: b₁ :: w, hdata => exact absurd rfl (hdata b₀ b₁ w)

/-- Added back in twice, the carries of an `int` are gone. -/
theorem answer_eq {n : ℕ} (h : n < 2 ^ 31) :
    answer n = some (~~~ BitVec.ofNat 16 (OnesComplement.residue (2 ^ 16 - 1) n)) := by
  have hshift : ∀ m : ℕ, (m : ℤ) >>> (16 : ℕ) = ((m / 2 ^ 16 : ℕ) : ℤ) := fun m => by
    rw [Int.shiftRight_eq_div_pow]
    norm_cast
  have hlow : (n : ℤ) % 2 ^ 16 = ((n % 2 ^ 16 : ℕ) : ℤ) := by norm_cast
  have hnot : ∀ m : ℕ, BitVec.ofInt 16 (-(m : ℤ) - 1) = ~~~ BitVec.ofNat 16 m := fun m => by
    rw [← BitVec.ofInt_negSucc_eq_not_ofNat, Int.negSucc_eq]
    congr 1
    omega
  have hfold : BitVec.ofNat 16 (n / 2 ^ 16 + n % 2 ^ 16 + (n / 2 ^ 16 + n % 2 ^ 16) / 2 ^ 16) =
      BitVec.ofNat 16 (OnesComplement.residue (2 ^ 16 - 1) n) := by
    rw [← OnesComplement.residue_fold, ← OnesComplement.add_carry_mod (by omega)]
    apply BitVec.eq_of_toNat_eq
    rw [BitVec.toNat_ofNat, BitVec.toNat_ofNat, Nat.mod_mod]
  rw [answer, hshift, hlow, addInt_eq (by omega), Option.bind_eq_bind, Option.bind_some, hshift,
    addInt_eq (by omega), Option.bind_some, Option.pure_def, hnot, hfold]

/-- The checksum is the complement of the sum, and nothing overflows on the way. -/
theorem inetChecksum_eq {data : List Byte} (h : data.length ≤ 65535) :
    inetChecksum e data data.length =
      some (~~~ OnesComplement.sum (words e (zeroPadded data))) := by
  have htotal : total e data < 2 ^ 31 := by
    have hle := total_le e data
    omega
  have hlen : Int.bmod data.length (2 ^ 32) = data.length :=
    Int.bmod_eq_of_le (by omega) (by omega)
  have hsum : BitVec.ofNat 16 (OnesComplement.residue (2 ^ 16 - 1) (total e data)) =
      OnesComplement.sum (words e (zeroPadded data)) := by
    rw [total, ← OnesComplement.toNat_sum, BitVec.ofNat_toNat, BitVec.setWidth_eq]
  have hloop := addWords_bind_addOddByte e data 0 (by omega)
  rw [Nat.zero_add, Nat.cast_zero] at hloop
  calc inetChecksum e data data.length
      = ((addWords e data data.length 0).bind (addOddByte e)).bind answer := by
        rw [inetChecksum, hlen, Option.bind_assoc]
        rfl
    _ = answer (total e data) := by rw [hloop, Option.bind_some]
    _ = _ := by rw [answer_eq htotal, hsum]

/-! ## A checksum in the data -/

/-- The data with a word stored at `offset`. -/
def store (data : List Byte) (offset : ℕ) (x : BitVec 16) : List Byte :=
  overwrite data offset (e.bytes x)

/-- The aligned field `i` is in the data and is zero. -/
def ZeroField (data : List Byte) (i : ℕ) : Prop :=
  data[2 * i]? = some 0 ∧ data[2 * i + 1]? = some 0

theorem store_eq (data : List Byte) (offset : ℕ) (x : BitVec 16) :
    store e data offset x = data.take offset ++ e.bytes x ++ data.drop (offset + 2) := by
  rw [store, overwrite, Endian.length_bytes]

theorem zeroField_cons_cons {b₀ b₁ : Byte} {w : List Byte} {i : ℕ} :
    ZeroField (b₀ :: b₁ :: w) (i + 1) ↔ ZeroField w i := Iff.rfl

theorem length_store {data : List Byte} {i : ℕ} (h : ZeroField data i) (x : BitVec 16) :
    (store e data (2 * i) x).length = data.length := by
  obtain ⟨hi, -⟩ := List.getElem?_eq_some_iff.mp h.2
  rw [store_eq, List.length_append, List.length_append, List.length_take, List.length_drop,
    Endian.length_bytes]
  omega

theorem words_store {data : List Byte} {i : ℕ} (h : ZeroField data i) (x : BitVec 16) :
    (words e (zeroPadded data))[i]? = some 0#16 ∧
      words e (zeroPadded (store e data (2 * i) x)) = (words e (zeroPadded data)).set i x := by
  fun_induction words e data generalizing i with
  | case1 b₀ b₁ w ih =>
    rw [words_zeroPadded_cons_cons]
    cases i with
    | zero =>
      obtain rfl : b₀ = 0 := Option.some.inj h.1
      obtain rfl : b₁ = 0 := Option.some.inj h.2
      obtain ⟨c₀, c₁, hbytes⟩ := List.length_eq_two.mp (Endian.length_bytes e x)
      have hzero : (e.word [0, 0] : BitVec 16) = 0#16 := by cases e <;> rfl
      have hword : (e.word [c₀, c₁] : BitVec 16) = x := by
        rw [← hbytes, Endian.word_bytes e (by decide)]
      refine ⟨congrArg some hzero, ?_⟩
      rw [store_eq]
      show words e (zeroPadded (e.bytes x ++ w)) = _
      rw [hbytes, List.cons_append, List.cons_append, List.nil_append, words_zeroPadded_cons_cons,
        hword, List.set_cons_zero]
    | succ i =>
      obtain ⟨hzero, hset⟩ := ih (zeroField_cons_cons.mp h)
      refine ⟨hzero, ?_⟩
      have hstore : store e (b₀ :: b₁ :: w) (2 * (i + 1)) x = b₀ :: b₁ :: store e w (2 * i) x := by
        rw [store_eq, store_eq]
        rfl
      rw [hstore, words_zeroPadded_cons_cons, hset, List.set_cons_succ]
  | case2 data hdata =>
    obtain ⟨hi, -⟩ := List.getElem?_eq_some_iff.mp h.2
    match data, hdata with
    | [], _ => cases hi
    | [b], _ =>
      rw [List.length_singleton] at hi
      omega
    | b₀ :: b₁ :: w, hdata => exact absurd rfl (hdata b₀ b₁ w)

/-- Stored in a field that was zero, the checksum makes that of the data zero. -/
theorem inetChecksum_store {data : List Byte} (h : data.length ≤ 65535) {i : ℕ}
    (hi : ZeroField data i) :
    inetChecksum e (store e data (2 * i) (~~~ OnesComplement.sum (words e (zeroPadded data))))
      data.length = some 0 := by
  have hlen := length_store e hi (~~~ OnesComplement.sum (words e (zeroPadded data)))
  obtain ⟨hzero, hset⟩ := words_store e hi (~~~ OnesComplement.sum (words e (zeroPadded data)))
  rw [← hlen, inetChecksum_eq e (by omega), hset, OnesComplement.not_sum_set hzero]
  rfl

/-- The checksum of data of any length that fits a packet, and the data with its checksum stored. -/
theorem inetChecksum_onesComplement {data : List Byte} (h : data.length ≤ 65535) :
    ∃ checksum, inetChecksum e data data.length = some checksum ∧
      checksum = ~~~ OnesComplement.sum (words e (zeroPadded data)) ∧
      ∀ i, ZeroField data i →
        inetChecksum e (store e data (2 * i) checksum) data.length = some 0 :=
  ⟨_, inetChecksum_eq e h, rfl, fun _ hi => inetChecksum_store e h hi⟩

theorem inetChecksum_onesComplement_odd :
    ∃ checksum, inetChecksum .little [8, 0, 0, 0, 1] 5 = some checksum ∧
      checksum = ~~~ OnesComplement.sum (words .little (zeroPadded [8, 0, 0, 0, 1])) ∧
      ∀ i, ZeroField [8, 0, 0, 0, 1] i →
        inetChecksum .little (store .little [8, 0, 0, 0, 1] (2 * i) checksum) 5 = some 0 :=
  @inetChecksum_onesComplement .little [8, 0, 0, 0, 1] (by decide)

/-! ## Requests and replies -/

section Echo

variable {e} (ident sequence : BitVec 16)

theorem length_icmphdr (type : Byte) (checksum id sequence : BitVec 16) :
    (icmphdr e type checksum id sequence).length = 8 := by
  simp only [icmphdr, List.length_append, Endian.length_bytes, List.length_cons, List.length_nil]

theorem store_icmphdr (type : Byte) (checksum id sequence : BitVec 16) :
    ZeroField (icmphdr e type 0 id sequence) 1 ∧
      store e (icmphdr e type 0 id sequence) 2 checksum = icmphdr e type checksum id sequence := by
  have hzero : e.bytes 0#16 = [0, 0] := by cases e <;> rfl
  have happend : icmphdr e type 0 id sequence =
      [type, 0] ++ e.bytes 0#16 ++ (e.bytes id ++ e.bytes sequence) := List.append_assoc ..
  rw [happend, hzero]
  refine ⟨⟨rfl, rfl⟩, ?_⟩
  rw [store_eq]
  show [type, 0] ++ e.bytes checksum ++ (e.bytes id ++ e.bytes sequence) = _
  exact (List.append_assoc ..).symm

theorem inetChecksum_icmphdr (type : Byte) (id sequence : BitVec 16) :
    ∃ checksum, inetChecksum e (icmphdr e type 0 id sequence) 8 = some checksum ∧
      inetChecksum e (icmphdr e type checksum id sequence) 8 = some 0 := by
  have hlength := length_icmphdr (e := e) type 0 id sequence
  have hle : (icmphdr e type 0 id sequence).length ≤ 65535 := by omega
  obtain ⟨hfield, hstore⟩ := store_icmphdr (e := e) type
    (~~~ OnesComplement.sum (words e (zeroPadded (icmphdr e type 0 id sequence)))) id sequence
  have hsum := inetChecksum_eq e hle
  have hzero := inetChecksum_store e hle hfield
  rw [Nat.mul_one, hstore, hlength] at hzero
  rw [hlength] at hsum
  exact ⟨_, hsum, hzero⟩

/-- Every packet that is sent passes the check of a receiver. -/
theorem sendPing_verifies :
    ∃ packet, sendPing e ident sequence = some packet ∧ inetChecksum e packet 8 = some 0 := by
  obtain ⟨checksum, hsum, hzero⟩ :=
    inetChecksum_icmphdr (e := e) icmpEcho (htons e ident) (htons e sequence)
  refine ⟨_, ?_, hzero⟩
  rw [sendPing, length_icmphdr, hsum]
  rfl

theorem bytes_htons (x : BitVec 16) : e.bytes (htons e x) = toBytes x :=
  Endian.bytes_word e (by decide) (length_toBytes x)

@[simp] theorem htons_htons (x : BitVec 16) : htons e (htons e x) = x := by
  have hbytes := bytes_htons (e := e) x
  cases e with
  | little =>
    have hreverse : toBytes (htons .little x) = (toBytes x).reverse := by
      rw [← hbytes, Endian.bytes, List.reverse_reverse]
    rw [htons, hreverse]
    exact Endian.word_bytes .little (by decide) x
  | big =>
    have hsame : toBytes (htons .big x) = toBytes x := hbytes
    rw [htons, hsame]
    exact Endian.word_bytes .big (by decide) x

theorem icmphdr_eq (type : Byte) (checksum id sequence : BitVec 16) :
    ∃ c₀ c₁ i₀ i₁ s₀ s₁,
      icmphdr e type checksum id sequence = [type, 0, c₀, c₁, i₀, i₁, s₀, s₁] ∧
      [i₀, i₁] = e.bytes id ∧ [s₀, s₁] = e.bytes sequence := by
  obtain ⟨c₀, c₁, hc⟩ := List.length_eq_two.mp (Endian.length_bytes e checksum)
  obtain ⟨i₀, i₁, hi⟩ := List.length_eq_two.mp (Endian.length_bytes e id)
  obtain ⟨s₀, s₁, hs⟩ := List.length_eq_two.mp (Endian.length_bytes e sequence)
  refine ⟨c₀, c₁, i₀, i₁, s₀, s₁, ?_, hi.symm, hs.symm⟩
  rw [icmphdr, hc, hi, hs]
  rfl

/-- A header of IPv4 of the length that it states. -/
def Header (ip : List Byte) : Prop :=
  ∃ b rest, ip = b :: rest ∧ ip.length = (b &&& 0xf).toNat * 4 ∧ 20 ≤ ip.length

/-- A reply to the request, behind any header: the filter lets it pass, and its sequence number is
announced. -/
theorem rawSocketReady_reply {ip : List Byte} (hip : Header ip) :
    ∃ checksum, inetChecksum e (icmphdr e icmpEchoReply 0 (htons e ident) (htons e sequence)) 8 =
        some checksum ∧
      let reply := ip ++ icmphdr e icmpEchoReply checksum (htons e ident) (htons e sequence)
      bpfProg ident reply = true ∧ rawSocketReady e ident reply = some [sequence] := by
  obtain ⟨checksum, hsum, hzero⟩ :=
    inetChecksum_icmphdr (e := e) icmpEchoReply (htons e ident) (htons e sequence)
  refine ⟨checksum, hsum, ?_⟩
  obtain ⟨b, rest, rfl, hlength, h20⟩ := hip
  obtain ⟨c₀, c₁, i₀, i₁, s₀, s₁, hpacket, hi, hs⟩ :=
    icmphdr_eq (e := e) icmpEchoReply checksum (htons e ident) (htons e sequence)
  rw [hpacket] at hzero ⊢
  have hdrop : (b :: (rest ++ [icmpEchoReply, 0, c₀, c₁, i₀, i₁, s₀, s₁])).drop
      ((b &&& 0xf).toNat * 4) = [icmpEchoReply, 0, c₀, c₁, i₀, i₁, s₀, s₁] := by
    rw [← List.cons_append, ← hlength, List.drop_left]
  have hlen : (b :: (rest ++ [icmpEchoReply, 0, c₀, c₁, i₀, i₁, s₀, s₁])).length =
      (b &&& 0xf).toNat * 4 + 8 := by
    rw [← List.cons_append, List.length_append, hlength]
    rfl
  rw [List.cons_append]
  constructor
  · have hident : (Endian.big.word [i₀, i₁] : BitVec 16) = ident := by
      rw [hi, bytes_htons]
      exact Endian.word_bytes .big (by decide) ident
    simp only [bpfProg, Nat.mul_comm 4, hdrop, hident, beq_self_eq_true, Bool.and_self]
  · have hid : (e.word [i₀, i₁] : BitVec 16) = htons e ident := by
      rw [hi, Endian.word_bytes e (by decide)]
    have hsequence : (e.word [s₀, s₁] : BitVec 16) = htons e sequence := by
      rw [hs, Endian.word_bytes e (by decide)]
    simp only [rawSocketReady, hdrop, hlen, Nat.add_sub_cancel_left, hzero]
    rw [if_neg (by omega)]
    simp [hid, hsequence]

/-- The seventh reply, behind a header of twenty bytes. -/
theorem rawSocketReady_reply_seven :
    ∃ checksum, inetChecksum .little
        (icmphdr .little icmpEchoReply 0 (htons .little 21) (htons .little 7)) 8 = some checksum ∧
      let reply := 0x45 :: List.replicate 19 0 ++
        icmphdr .little icmpEchoReply checksum (htons .little 21) (htons .little 7)
      bpfProg 21 reply = true ∧ rawSocketReady .little 21 reply = some [7] :=
  rawSocketReady_reply 21 7 ⟨0x45, List.replicate 19 0, rfl, by decide, by decide⟩

end Echo

end WgDesktop.PingSender
