import WgDesktop.Lib.Bytes
import WgDesktop.Lib.Json

/-!
# `WebExtHandler`

The dispatch of messages from the browser extension, from `src/webextension/webexthandler.cpp`.
The handler takes the type of a message for the name of one of its own methods. Its class declares
three of them for this, but the meta-object also knows its signals, its slots and what it
inherits: the slot `handleMessage` is one that messages can name. `answersOnce_iff` says which
messages are answered once.
-/

namespace WgDesktop.WebExt

open Bytes

/-! ## The meta-object -/

/-- The methods of the meta-object: those of `QObject`, the signals, the slot and the commands. -/
inductive Method where
  | destroyedObject
  | destroyed
  | objectNameChanged
  | deleteLater
  | reregisterTimers
  | unhandledMessage
  | eofReceived
  | handleMessage
  | bridgePing
  | procInfo
  | start
  deriving DecidableEq, Repr

namespace Method

def all : List Method :=
  [destroyedObject, destroyed, objectNameChanged, deleteLater, reregisterTimers, unhandledMessage,
    eofReceived, handleMessage, bridgePing, procInfo, start]

theorem mem_all (m : Method) : m ∈ all := by
  cases m <;> decide

def name : Method → List Char
  | destroyedObject => "destroyed".toList
  | destroyed => "destroyed".toList
  | objectNameChanged => "objectNameChanged".toList
  | deleteLater => "deleteLater".toList
  | reregisterTimers => "_q_reregisterTimers".toList
  | unhandledMessage => "unhandledMessage".toList
  | eofReceived => "eofReceived".toList
  | handleMessage => "handleMessage".toList
  | bridgePing => "bridge_ping".toList
  | procInfo => "proc_info".toList
  | start => "start".toList

def byteArray : List Char := "QByteArray".toList

/-- The type of the parameter; no method has two. -/
def parameter : Method → List Char
  | destroyedObject => "QObject*".toList
  | objectNameChanged => "QString".toList
  | reregisterTimers => "void*".toList
  | destroyed | deleteLater | eofReceived => []
  | unhandledMessage | handleMessage | bridgePing | procInfo | start => byteArray

/-- The normalised signature. -/
def signature (m : Method) : List Char := m.name ++ '(' :: m.parameter ++ [')']

end Method

/-- What a C function gets of a text: everything in front of its first null character. -/
def cStr (s : List Char) : List Char := s.takeWhile (· ≠ '\x00')

def indexOfMethod (signature : List Char) : Option Method :=
  Method.all.find? fun m => m.signature = cStr signature

/-- The method that `QMetaObject::invokeMethod` finds for a byte array. -/
def methodToInvoke (member : List Char) : Option Method :=
  Method.all.find? fun m => m.name = cStr member ∧ m.parameter = Method.byteArray

/-! ## The handler -/

/-- The commands that are handled locally. -/
inductive Command where
  | bridgePing
  | procInfo
  | start
  deriving DecidableEq, Repr

/-- What the handler does with a message. -/
inductive Action where
  | command (command : Command) (msg : List Byte)
  | unhandledMessage (msg : List Byte)
  deriving DecidableEq, Repr

/-- The message that the action is about. -/
def Action.msg : Action → List Byte
  | command _ msg => msg
  | unhandledMessage msg => msg

section Handler

variable (D : List Byte → Option Json)

/-- `doc["t"]`. `D` is `QJsonDocument::fromJson`, without a value for a text that it does not
parse. -/
def msgType (msg : List Byte) : Json :=
  match D msg with
  | some (.obj fields) => Json.Object.value fields "t"
  | _ => .undefined

/-- `handleMessage`, with a bound on its calls of itself. Text is compared by characters, as
in a UTF-8 locale. -/
def handleMessageWith : ℕ → List Byte → Option (List Action)
  | 0, _ => none
  | fuel + 1, msg =>
    match msgType D msg with
    | .str name =>
      match indexOfMethod (name ++ "(QByteArray)".toList) with
      | none => some [.unhandledMessage msg]
      | some _ =>
        match methodToInvoke name with
        | some .handleMessage => handleMessageWith fuel msg
        | some .bridgePing => some [.command .bridgePing msg]
        | some .procInfo => some [.command .procInfo msg]
        | some .start => some [.command .start msg]
        | some .unhandledMessage => some [.unhandledMessage msg]
        -- nothing is invoked: the others do not take a byte array
        | _ => some []
    | _ => some [.unhandledMessage msg]

/-- The handler returns, after one action with the message. -/
def AnswersOnce (msg : List Byte) : Prop :=
  ∃ fuel action, handleMessageWith D fuel msg = some [action] ∧ action.msg = msg

end Handler

/-! ## Names -/

theorem cStr_of_notMem {s : List Char} (h : '\x00' ∉ s) : cStr s = s := by
  have hs : ∀ c ∈ s, decide (c ≠ '\x00') = true := by
    intro c hc
    simpa using fun heq : c = '\x00' => h (heq ▸ hc)
  rw [cStr, ← List.append_nil s, List.takeWhile_append_of_pos hs, List.takeWhile_nil]

theorem cStr_append_cons {s t : List Char} (h : '\x00' ∉ s) : cStr (s ++ '\x00' :: t) = s := by
  have hs : ∀ c ∈ s, decide (c ≠ '\x00') = true := by
    intro c hc
    simpa using fun heq : c = '\x00' => h (heq ▸ hc)
  rw [cStr, List.takeWhile_append_of_pos hs, List.takeWhile_cons_of_neg (by simp), List.append_nil]

/-- A text is what C gets of it, or that with a null character and more behind it. -/
theorem notMem_or_exists_cStr (s : List Char) :
    '\x00' ∉ s ∨ ∃ p t, s = p ++ '\x00' :: t ∧ '\x00' ∉ p := by
  by_cases h : '\x00' ∈ s
  · obtain ⟨p, t, rfl, hp⟩ := List.eq_append_cons_of_mem h
    exact .inr ⟨p, t, rfl, hp⟩
  · exact .inl h

namespace Method

theorem notMem_signature (m : Method) : '\x00' ∉ m.signature := by
  cases m <;> decide

/-- A signature is not a name. -/
theorem signature_ne_name (m m' : Method) : m.signature ≠ m'.name := by
  intro heq
  have hmem : '(' ∈ m.signature := by simp [signature]
  rw [heq] at hmem
  revert hmem
  cases m' <;> decide

theorem signature_eq_iff {m : Method} {name : List Char} :
    m.signature = name ++ "(QByteArray)".toList ↔
      m.name = name ∧ m.parameter = byteArray := by
  constructor
  · intro h
    have hsuffix : "(QByteArray)".toList <:+ m.signature := ⟨name, h.symm⟩
    have hparameter : m.parameter = byteArray := by
      revert hsuffix
      cases m <;> decide
    refine ⟨?_, hparameter⟩
    rw [signature, hparameter, List.append_assoc] at h
    have h : m.name ++ "(QByteArray)".toList = name ++ "(QByteArray)".toList := h
    exact List.append_cancel_right h
  · rintro ⟨rfl, hparameter⟩
    rw [signature, hparameter, List.append_assoc]
    rfl

theorem eq_of_name_eq {m m' : Method} (hname : m.name = m'.name)
    (h : m.parameter = byteArray) (h' : m'.parameter = byteArray) : m = m' := by
  revert hname h h'
  cases m <;> cases m' <;> decide

end Method

theorem indexOfMethod_eq_none {s : List Char} :
    indexOfMethod s = none ↔ ∀ m : Method, m.signature ≠ cStr s := by
  simp [indexOfMethod, List.find?_eq_none, Method.mem_all]

theorem exists_indexOfMethod {s : List Char} {m : Method} (h : m.signature = cStr s) :
    ∃ m', indexOfMethod s = some m' := by
  rw [← Option.ne_none_iff_exists']
  exact fun hnone => indexOfMethod_eq_none.mp hnone m h

theorem methodToInvoke_eq_some {member : List Char} {m : Method} (hname : m.name = cStr member)
    (hparameter : m.parameter = Method.byteArray) : methodToInvoke member = some m := by
  cases hfind : methodToInvoke member with
  | none =>
    have := List.find?_eq_none.mp hfind m (Method.mem_all m)
    exact absurd this (by simp [hname, hparameter])
  | some m' =>
    have hm' := List.find?_some hfind
    obtain ⟨hname', hparameter'⟩ : m'.name = cStr member ∧ m'.parameter = Method.byteArray := by
      exact of_decide_eq_true hm'
    rw [Method.eq_of_name_eq (hname'.trans hname.symm) hparameter' hparameter]

theorem methodToInvoke_eq_none {member : List Char} (h : ∀ m : Method, m.name ≠ cStr member) :
    methodToInvoke member = none := by
  rw [methodToInvoke, List.find?_eq_none]
  intro m _
  simp [h m]

/-! ## Dispatch -/

section Dispatch

variable {D : List Byte → Option Json} {msg : List Byte} {name : List Char}

theorem handleMessageWith_of_no_type (h : ∀ name, msgType D msg ≠ .str name) (fuel : ℕ) :
    handleMessageWith D (fuel + 1) msg = some [.unhandledMessage msg] := by
  unfold handleMessageWith
  cases htype : msgType D msg with
  | str name => exact absurd htype (h name)
  | _ => rfl

theorem handleMessageWith_of_none (htype : msgType D msg = .str name)
    (h : indexOfMethod (name ++ "(QByteArray)".toList) = none) (fuel : ℕ) :
    handleMessageWith D (fuel + 1) msg = some [.unhandledMessage msg] := by
  unfold handleMessageWith
  rw [htype]
  dsimp only
  rw [h]

/-- **The handler calls itself** for its own name, and never returns. -/
theorem handleMessageWith_handleMessage (htype : msgType D msg = .str Method.handleMessage.name)
    (fuel : ℕ) : handleMessageWith D fuel msg = none := by
  have hindex : indexOfMethod (Method.handleMessage.name ++ "(QByteArray)".toList) =
      some .handleMessage := by decide
  have hinvoke : methodToInvoke Method.handleMessage.name = some .handleMessage := by decide
  induction fuel with
  | zero => rfl
  | succ fuel ih =>
    unfold handleMessageWith
    rw [htype]
    dsimp only
    rw [hindex, hinvoke]
    exact ih

theorem handleMessageWith_of_method {m : Method} (htype : msgType D msg = .str m.name)
    (hparameter : m.parameter = Method.byteArray) (hself : m ≠ .handleMessage) :
    ∃ action, handleMessageWith D 1 msg = some [action] ∧ action.msg = msg := by
  have hplain : '\x00' ∉ m.name := by
    cases m <;> decide
  have hcStr : '\x00' ∉ m.name ++ "(QByteArray)".toList := by
    rw [List.mem_append]
    exact not_or.mpr ⟨hplain, by decide⟩
  obtain ⟨m', hindex⟩ := exists_indexOfMethod
    ((Method.signature_eq_iff.mpr ⟨rfl, hparameter⟩).trans (cStr_of_notMem hcStr).symm)
  have hinvoke : methodToInvoke m.name = some m :=
    methodToInvoke_eq_some (cStr_of_notMem hplain).symm hparameter
  unfold handleMessageWith
  rw [htype]
  dsimp only
  rw [hindex, hinvoke]
  cases m with
  | handleMessage => exact absurd rfl hself
  | bridgePing => exact ⟨_, rfl, rfl⟩
  | procInfo => exact ⟨_, rfl, rfl⟩
  | start => exact ⟨_, rfl, rfl⟩
  | unhandledMessage => exact ⟨_, rfl, rfl⟩
  | _ => exact absurd hparameter (by decide)

/-- A type without a null character is answered unless it names the handler. -/
theorem exists_action_of_notMem (htype : msgType D msg = .str name) (hplain : '\x00' ∉ name)
    (hself : name ≠ Method.handleMessage.name) :
    ∃ action, handleMessageWith D 1 msg = some [action] ∧ action.msg = msg := by
  by_cases h : ∃ m : Method, m.name = name ∧ m.parameter = Method.byteArray
  · obtain ⟨m, rfl, hparameter⟩ := h
    exact handleMessageWith_of_method htype hparameter fun heq => hself (by rw [heq])
  · refine ⟨_, handleMessageWith_of_none htype (indexOfMethod_eq_none.mpr fun m hm => h ⟨m, ?_⟩) 0,
      rfl⟩
    have hcStr : '\x00' ∉ name ++ "(QByteArray)".toList := by
      rw [List.mem_append]
      exact not_or.mpr ⟨hplain, by decide⟩
    rw [cStr_of_notMem hcStr] at hm
    exact Method.signature_eq_iff.mp hm

/-- **Lost messages.** A type that is a whole signature up to a null character is found, but nothing
can be invoked. -/
theorem handleMessageWith_of_signature {m : Method} {t : List Char}
    (htype : msgType D msg = .str (m.signature ++ '\x00' :: t)) (fuel : ℕ) :
    handleMessageWith D (fuel + 1) msg = some [] := by
  have hplain := m.notMem_signature
  obtain ⟨m', hindex⟩ := @exists_indexOfMethod
    (m.signature ++ '\x00' :: t ++ "(QByteArray)".toList) m
    (by rw [List.append_assoc, List.cons_append, cStr_append_cons hplain])
  have hinvoke : methodToInvoke (m.signature ++ '\x00' :: t) = none := by
    refine methodToInvoke_eq_none fun m' => ?_
    rw [cStr_append_cons hplain]
    exact (m.signature_ne_name m').symm
  unfold handleMessageWith
  rw [htype]
  dsimp only
  rw [hindex, hinvoke]

/-- **Dispatch.** A message is answered once, unless its type is the name of the handler itself or
begins with the whole signature of a method and a null character. -/
theorem answersOnce_iff (D : List Byte → Option Json) (msg : List Byte) :
    AnswersOnce D msg ↔ ∀ name, msgType D msg = .str name →
      name ≠ Method.handleMessage.name ∧ ∀ m : Method, ¬ (m.signature ++ ['\x00']) <+: name := by
  constructor
  · rintro ⟨fuel, action, haction, -⟩ name htype
    constructor
    · rintro rfl
      rw [handleMessageWith_handleMessage htype] at haction
      cases haction
    · rintro m ⟨t, rfl⟩
      rw [List.append_assoc] at htype
      cases fuel with
      | zero => cases haction
      | succ fuel =>
        rw [handleMessageWith_of_signature htype] at haction
        cases haction
  · intro h
    by_cases hstr : ∃ name, msgType D msg = .str name
    · obtain ⟨name, htype⟩ := hstr
      obtain ⟨hself, hsignature⟩ := h name htype
      rcases notMem_or_exists_cStr name with hplain | ⟨p, t, rfl, hp⟩
      · exact ⟨1, exists_action_of_notMem htype hplain hself⟩
      · refine ⟨1, _, handleMessageWith_of_none htype (indexOfMethod_eq_none.mpr fun m hm => ?_) 0,
          rfl⟩
        rw [List.append_assoc, List.cons_append, cStr_append_cons hp] at hm
        exact hsignature m ⟨t, by rw [hm]; simp⟩
    · rw [not_exists] at hstr
      exact ⟨1, _, handleMessageWith_of_no_type hstr 0, rfl⟩

end Dispatch

/-! ## Two messages -/

def textBytes (s : String) : List Byte := s.toList.map fun c => .ofNat 8 c.toNat

def selfNamingMessage : List Byte := textBytes "\x7b\"t\":\"handleMessage\"\x7d"

def lostMessage : List Byte := textBytes "\x7b\"t\":\"start(QByteArray)\\u0000\"\x7d"

/-- What the two texts parse to. -/
def twoMessages (msg : List Byte) : Option Json :=
  if msg = selfNamingMessage then some (.obj [("t", .str "handleMessage".toList)])
  else if msg = lostMessage then
    some (.obj [("t", .str ("start(QByteArray)".toList ++ ['\x00']))])
  else none

/-- The first makes the handler call itself without end, the second gets no answer. -/
theorem not_answersOnce :
    ¬ AnswersOnce twoMessages selfNamingMessage ∧ ¬ AnswersOnce twoMessages lostMessage := by
  constructor
  · rintro ⟨fuel, action, haction, -⟩
    rw [handleMessageWith_handleMessage rfl] at haction
    cases haction
  · rintro ⟨fuel, action, haction, -⟩
    have htype : msgType twoMessages lostMessage = .str (Method.start.signature ++ '\x00' :: []) :=
      rfl
    cases fuel with
    | zero => cases haction
    | succ fuel =>
      rw [handleMessageWith_of_signature htype] at haction
      cases haction

end WgDesktop.WebExt
