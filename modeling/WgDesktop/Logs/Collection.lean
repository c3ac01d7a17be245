import Mathlib.Data.List.TakeWhile
import Mathlib.Algebra.GroupWithZero.Nat

/-!
# Collecting logs

`LogHandler::logSerialize` and `LogSerializeHelper` of `src/utils/loghandler.cpp`. Each serializer
writes to a buffer of its own and closes it whenever it is done; `run` puts the buffers out in the
order of registration and waits at the first that is open. `Progress` relates what the device has
received to the buffers; `logSerialize_device` says what the device receives for any interleaving.
-/

namespace WgDesktop.LogSerializeHelper

abbrev Bytes := List UInt8

/-- `QTextStream` encodes a text as UTF-8. -/
def utf8 (s : String) : Bytes := s.toList.flatMap String.utf8EncodeChar

/-- A `QBuffer`: what is in it stays when it is closed. -/
structure QBuffer where
  data : Bytes
  isOpen : Bool := true
  deriving DecidableEq

/-- The output device: the pieces it received while it was open, and the calls of `close`. -/
structure Device where
  received : List Bytes
  isOpen : Bool := true
  closings : ℕ := 0
  deriving DecidableEq

def Device.write (device : Device) (data : Bytes) : Device :=
  if device.isOpen then { device with received := device.received ++ [data] } else device

def Device.close (device : Device) : Device :=
  { device with isOpen := false, closings := device.closings + 1 }

/-- What serializers do with the buffers they were given, counted in the order of creation. -/
inductive Action where
  | write (buffer : ℕ) (data : Bytes)
  | close (buffer : ℕ)
  deriving DecidableEq

/-- The buffer that an action is about. -/
def Action.buffer : Action → ℕ
  | .write buffer _ => buffer
  | .close buffer => buffer

/-- A registered serializer, with what is done, by it or by those before it, while its
`logSerialize` is running. -/
structure Serializer where
  logName : String
  inside : List Action

/-- The helper. `buffers` are the buffers it has created, `mBuffers` those that it has still to
take, `connections` those whose `aboutToClose` it is connected to. -/
structure Helper where
  buffers : List QBuffer := []
  mBuffers : List ℕ := []
  connections : List ℕ := []
  device : Device

/-! ## The operations -/

/-- The loop of `run`, over the buffers still to be taken. -/
def runLoop (s : Helper) : List ℕ → Helper
  | [] => { s with mBuffers := [], device := s.device.close }
  | buffer :: mBuffers =>
    match s.buffers[buffer]? with
    | none => s
    | some b =>
      if b.isOpen then { s with mBuffers, connections := buffer :: s.connections }
      else runLoop { s with device := s.device.write b.data } mBuffers

def run (s : Helper) : Helper := runLoop s s.mBuffers

/-- The function connected to `aboutToClose`, which is called while the buffer is open still. -/
def aboutToClose (s : Helper) (b : QBuffer) : Helper :=
  run { s with device := s.device.write b.data }

/-- A closed buffer takes no more data, and closing it again does nothing. -/
def act (s : Helper) (action : Action) : Helper :=
  match action with
  | .write buffer data =>
    match s.buffers[buffer]? with
    | none => s
    | some b =>
      if b.isOpen then { s with buffers := s.buffers.set buffer { b with data := b.data ++ data } }
      else s
  | .close buffer =>
    match s.buffers[buffer]? with
    | none => s
    | some b =>
      if b.isOpen then
        let s := if buffer ∈ s.connections then aboutToClose s b else s
        { s with buffers := s.buffers.set buffer { b with isOpen := false } }
      else s

/-- `QString::length` counts the units of UTF-16. -/
def length (s : String) : ℕ := (s.toList.map fun c => if c.toNat < 0x10000 then 1 else 2).sum

/-- The header of a section, the name underlined. -/
def sectionHeader (logName : String) : Bytes :=
  utf8 ("\n\n" ++ logName ++ "\n" ++ String.ofList (List.replicate (length logName) '=') ++ "\n\n")

def addSerializer (s : Helper) (serializer : Serializer) : Helper :=
  serializer.inside.foldl act
    { s with
      buffers := s.buffers ++ [{ data := sectionHeader serializer.logName }]
      mBuffers := s.mBuffers ++ [s.buffers.length] }

/-- The header, with the content of the log file. -/
def header (log : Bytes) : Bytes := utf8 "MZ logs\n=======\n\n" ++ log

def logSerialize (log : Bytes) (serializers : List Serializer) : Helper :=
  run (serializers.foldl addSerializer { device := { received := [header log] } })

/-! ## What is expected -/

section Sections

variable (serializers : List Serializer) (later : List Action)

/-- What is done from the creation of a buffer on. -/
def afterCreation (buffer : ℕ) : List Action :=
  (serializers.drop buffer).flatMap Serializer.inside ++ later

/-- What is written to a buffer until it is closed. -/
def written (buffer : ℕ) : List Action → Bytes
  | [] => []
  | .write b data :: actions =>
    if b = buffer then data ++ written buffer actions else written buffer actions
  | .close b :: actions => if b = buffer then [] else written buffer actions

/-- The sections in the order of registration, each with all that its serializer wrote. -/
def sections : List Bytes :=
  serializers.mapIdx fun i serializer =>
    sectionHeader serializer.logName ++ written i (afterCreation serializers later i)

/-- Every serializer closed its buffer. -/
def AllClosed : Prop :=
  ∀ i < serializers.length, Action.close i ∈ afterCreation serializers later i

end Sections

/-! ## The buffers -/

variable {s : Helper} {b c : QBuffer} {i : ℕ}

@[simp] theorem runLoop_buffers (s : Helper) (mBuffers : List ℕ) :
    (runLoop s mBuffers).buffers = s.buffers := by
  induction mBuffers generalizing s with
  | nil => rfl
  | cons buffer mBuffers ih =>
    rw [runLoop]
    split
    · rfl
    · split
      · rfl
      · rw [ih]

@[simp] theorem run_buffers (s : Helper) : (run s).buffers = s.buffers := runLoop_buffers s _

/-- What becomes of a buffer. -/
def after (i : ℕ) (actions : List Action) (b : QBuffer) : QBuffer :=
  if b.isOpen then
    { data := b.data ++ written i actions, isOpen := decide (Action.close i ∉ actions) }
  else b

theorem after_of_closed (h : b.isOpen = false) (actions : List Action) : after i actions b = b := by
  rw [after, h]
  exact if_neg Bool.false_ne_true

theorem after_nil (b : QBuffer) : after i [] b = b := by
  rcases b with ⟨data, _ | _⟩
  · exact after_of_closed rfl []
  · simp [after, written]

theorem after_cons (action : Action) (actions : List Action) (b : QBuffer) :
    after i (action :: actions) b = after i actions (after i [action] b) := by
  rcases b with ⟨data, _ | _⟩
  · rw [after_of_closed rfl, after_of_closed rfl, after_of_closed rfl]
  · cases action with
    | write buffer text =>
      by_cases h : buffer = i
      · simp [after, written, h]
      · simp [after, written, h]
    | close buffer =>
      by_cases h : buffer = i
      · simp [after, written, h]
      · simp [after, written, h, Ne.symm h]

theorem after_of_ne {action : Action} (h : action.buffer ≠ i) (b : QBuffer) :
    after i [action] b = b := by
  rcases b with ⟨data, _ | _⟩
  · exact after_of_closed rfl _
  · cases action with
    | write buffer text =>
      have hne : buffer ≠ i := h
      simp [after, written, hne]
    | close buffer =>
      have hne : buffer ≠ i := h
      simp [after, written, hne, hne.symm]

theorem exists_open_or_closed (s : Helper) (action : Action) :
    (∃ b, s.buffers[action.buffer]? = some b ∧ b.isOpen = true) ∨
      ∀ b, s.buffers[action.buffer]? = some b → b.isOpen = false := by
  cases h : s.buffers[action.buffer]? with
  | none => exact .inr fun b hb => nomatch hb
  | some b =>
    cases hopen : b.isOpen with
    | true => exact .inl ⟨b, rfl, hopen⟩
    | false => exact .inr fun c hc => by rw [← Option.some.inj hc, hopen]

theorem act_of_closed {action : Action}
    (h : ∀ b, s.buffers[action.buffer]? = some b → b.isOpen = false) : act s action = s := by
  cases action with
  | write buffer text =>
    rw [act]
    cases hb : s.buffers[buffer]? with
    | none => rfl
    | some b => simp [h b hb]
  | close buffer =>
    rw [act]
    cases hb : s.buffers[buffer]? with
    | none => rfl
    | some b => simp [h b hb]

theorem act_write (h : s.buffers[i]? = some b) (hopen : b.isOpen = true) (data : Bytes) :
    act s (.write i data) =
      { s with buffers := s.buffers.set i { b with data := b.data ++ data } } := by
  rw [act, h]
  exact if_pos hopen

theorem act_close (h : s.buffers[i]? = some b) (hopen : b.isOpen = true) :
    act s (.close i) =
      { (if i ∈ s.connections then aboutToClose s b else s) with
        buffers := s.buffers.set i { b with isOpen := false } } := by
  rw [act, h]
  dsimp only
  rw [if_pos hopen]
  split
  · rw [aboutToClose, run_buffers]
  · rfl

/-- An action changes the buffer it is about, as long as that is open. -/
theorem act_buffers_of_open {action : Action} (h : s.buffers[action.buffer]? = some b)
    (hopen : b.isOpen = true) :
    (act s action).buffers = s.buffers.set action.buffer (after action.buffer [action] b) := by
  cases action with
  | write buffer data =>
    have hb : s.buffers[buffer]? = some b := h
    rw [act_write hb hopen]
    simp [after, hopen, written, Action.buffer]
  | close buffer =>
    have hb : s.buffers[buffer]? = some b := h
    rw [act_close hb hopen]
    simp [after, hopen, written, Action.buffer]

theorem act_buffers (s : Helper) (action : Action) (i : ℕ) :
    (act s action).buffers[i]? = s.buffers[i]?.map (after i [action]) := by
  by_cases hi : action.buffer = i
  · subst hi
    rcases exists_open_or_closed s action with ⟨b, hb, hopen⟩ | hclosed
    · have hlt : action.buffer < s.buffers.length := (List.getElem?_eq_some_iff.mp hb).1
      rw [act_buffers_of_open hb hopen, List.getElem?_set_self hlt, hb, Option.map_some]
    · rw [act_of_closed hclosed]
      cases hb : s.buffers[action.buffer]? with
      | none => rfl
      | some b => rw [Option.map_some, after_of_closed (hclosed b hb)]
  · rw [funext (after_of_ne hi), Option.map_id_fun']
    rcases exists_open_or_closed s action with ⟨b, hb, hopen⟩ | hclosed
    · rw [act_buffers_of_open hb hopen, List.getElem?_set_ne hi]
      rfl
    · rw [act_of_closed hclosed]
      rfl

theorem foldl_act_buffers (s : Helper) (actions : List Action) (i : ℕ) :
    (actions.foldl act s).buffers[i]? = s.buffers[i]?.map (after i actions) := by
  induction actions generalizing s with
  | nil =>
    rw [funext (@after_nil i), Option.map_id_fun']
    rfl
  | cons action actions ih =>
    rw [List.foldl_cons, ih, act_buffers, Option.map_map]
    exact congrArg (Option.map · _) (funext fun b => (after_cons action actions b).symm)

theorem length_act (s : Helper) (action : Action) :
    (act s action).buffers.length = s.buffers.length := by
  rcases exists_open_or_closed s action with ⟨b, hb, hopen⟩ | hclosed
  · rw [act_buffers_of_open hb hopen, List.length_set]
  · rw [act_of_closed hclosed]

theorem length_foldl_act (s : Helper) (actions : List Action) :
    (actions.foldl act s).buffers.length = s.buffers.length := by
  induction actions generalizing s with
  | nil => rfl
  | cons action actions ih => rw [List.foldl_cons, ih, length_act]

theorem after_append (actions later : List Action) (b : QBuffer) :
    after i later (after i actions b) = after i (actions ++ later) b := by
  induction actions generalizing b with
  | nil => rw [after_nil, List.nil_append]
  | cons action actions ih => rw [after_cons, ih, List.cons_append, ← after_cons]

theorem addSerializer_buffers (s : Helper) (serializer : Serializer) (i : ℕ) :
    (addSerializer s serializer).buffers[i]? =
      (s.buffers ++ [{ data := sectionHeader serializer.logName }])[i]?.map
        (after i serializer.inside) :=
  foldl_act_buffers _ _ i

theorem length_addSerializer (s : Helper) (serializer : Serializer) :
    (addSerializer s serializer).buffers.length = s.buffers.length + 1 := by
  rw [addSerializer, length_foldl_act, List.length_append, List.length_singleton]

/-- The buffers once all serializers were added and the later actions are done: those there were,
and one for each serializer. -/
theorem foldl_addSerializer_buffers (s : Helper) (serializers : List Serializer)
    (later : List Action) (i : ℕ) :
    (serializers.foldl addSerializer s).buffers[i]?.map (after i later) =
      if i < s.buffers.length then
        s.buffers[i]?.map (after i (serializers.flatMap Serializer.inside ++ later))
      else
        serializers[i - s.buffers.length]?.map fun serializer =>
          after i (afterCreation serializers later (i - s.buffers.length))
            { data := sectionHeader serializer.logName } := by
  induction serializers generalizing s with
  | nil =>
    split
    · rfl
    · next h => simp [List.getElem?_eq_none (Nat.le_of_not_lt h)]
  | cons serializer serializers ih =>
    rw [List.foldl_cons, ih, length_addSerializer, addSerializer_buffers, Option.map_map]
    rcases Nat.lt_trichotomy i s.buffers.length with h | h | h
    · rw [if_pos h, if_pos (Nat.lt_succ_of_lt h), List.getElem?_append_left h]
      simp [Function.comp_def, after_append]
    · subst h
      simp [afterCreation, after_append]
    · have hle : s.buffers.length + 1 ≤ i := h
      obtain ⟨j, rfl⟩ := Nat.exists_eq_add_of_le hle
      have hsub : s.buffers.length + 1 + j - s.buffers.length = j + 1 := by omega
      rw [if_neg (by omega), if_neg (by omega), hsub, Nat.add_sub_cancel_left]
      rfl

theorem buffers_eq (log : Bytes) (serializers : List Serializer) (later : List Action) :
    (later.foldl act (logSerialize log serializers)).buffers =
      serializers.mapIdx fun i serializer =>
        after i (afterCreation serializers later i)
          { data := sectionHeader serializer.logName } := by
  refine List.ext_getElem? fun i => ?_
  rw [foldl_act_buffers, logSerialize, run_buffers, foldl_addSerializer_buffers,
    List.getElem?_mapIdx]
  rfl

/-! ## The device -/

/-- The device has received the sections of the closed buffers before the one that is waited for;
or all of them, and is closed. -/
inductive Progress (log : Bytes) (s : Helper) : Prop
  | waiting (done : List QBuffer) (b : QBuffer) (rest : List QBuffer)
      (buffers : s.buffers = done ++ b :: rest) (closed : ∀ c ∈ done, c.isOpen = false)
      (isOpen : b.isOpen = true)
      (mBuffers : s.mBuffers = List.range' (done.length + 1) rest.length)
      (connected : done.length ∈ s.connections) (le : ∀ i ∈ s.connections, i ≤ done.length)
      (device : s.device = { received := header log :: done.map QBuffer.data })
  | finished (closed : ∀ c ∈ s.buffers, c.isOpen = false)
      (device : s.device =
        { received := header log :: s.buffers.map QBuffer.data, isOpen := false, closings := 1 })

variable {log : Bytes}

theorem runLoop_progress {done rest : List QBuffer} (hbuffers : s.buffers = done ++ rest)
    (hclosed : ∀ c ∈ done, c.isOpen = false) (hlt : ∀ i ∈ s.connections, i < done.length)
    (hdevice : s.device = { received := header log :: done.map QBuffer.data }) :
    Progress log (runLoop s (List.range' done.length rest.length)) := by
  induction rest generalizing s done with
  | nil =>
    rw [List.append_nil] at hbuffers
    refine .finished ?_ ?_
    · show ∀ c ∈ s.buffers, _
      rw [hbuffers]
      exact hclosed
    · show s.device.close = _
      rw [runLoop_buffers, hdevice, hbuffers]
      rfl
  | cons b rest ih =>
    have hb : s.buffers[done.length]? = some b := by simp [hbuffers]
    rw [List.length_cons, List.range'_succ, runLoop, hb]
    dsimp only
    split
    · next hopen =>
      refine .waiting done b rest hbuffers hclosed hopen rfl List.mem_cons_self ?_ hdevice
      intro i hi
      rcases List.mem_cons.mp hi with rfl | hi
      · exact Nat.le_refl _
      · exact Nat.le_of_lt (hlt i hi)
    · next hopen =>
      have hlength : (done ++ [b]).length = done.length + 1 := List.length_append
      rw [← hlength]
      refine ih (by simp [hbuffers]) ?_ ?_ ?_
      · intro c hc
        rcases List.mem_append.mp hc with hc | hc
        · exact hclosed c hc
        · rw [List.mem_singleton.mp hc]
          simpa using hopen
      · intro i hi
        have := hlt i hi
        omega
      · simp [hdevice, Device.write]

/-- The loop does not look at the buffers it does not take. -/
theorem runLoop_set (s : Helper) {mBuffers : List ℕ} (h : i ∉ mBuffers) (b : QBuffer) :
    { runLoop s mBuffers with buffers := s.buffers.set i b } =
      runLoop { s with buffers := s.buffers.set i b } mBuffers := by
  induction mBuffers generalizing s with
  | nil => rfl
  | cons buffer mBuffers ih =>
    obtain ⟨hne, hrest⟩ := not_or.mp (mt List.mem_cons.mpr h)
    rw [runLoop, runLoop, List.getElem?_set_ne hne]
    split
    · rfl
    · next c _ =>
      split
      · rfl
      · exact ih { s with device := s.device.write c.data } hrest

/-- An open buffer is the one that is waited for, or comes after it. -/
theorem getElem?_open {done rest : List QBuffer} (hclosed : ∀ c ∈ done, c.isOpen = false)
    (h : (done ++ b :: rest)[i]? = some c) (hopen : c.isOpen = true) :
    i = done.length ∧ c = b ∨ ∃ j, i = done.length + (j + 1) ∧ rest[j]? = some c := by
  rcases Nat.lt_trichotomy i done.length with hi | hi | hi
  · rw [List.getElem?_append_left hi] at h
    have hc := hclosed c (List.mem_of_getElem? h)
    rw [hopen] at hc
    cases hc
  · subst hi
    simp only [List.getElem?_append_right, Nat.le_refl, Nat.sub_self, List.getElem?_cons_zero,
      Option.some.injEq] at h
    exact .inl ⟨rfl, h.symm⟩
  · obtain ⟨j, rfl⟩ := Nat.exists_eq_add_of_lt hi
    refine .inr ⟨j, by omega, ?_⟩
    rw [List.getElem?_append_right (by omega)] at h
    have hsub : done.length + j + 1 - done.length = j + 1 := by omega
    rwa [hsub, List.getElem?_cons_succ] at h

theorem set_waiting (done rest : List QBuffer) (b c : QBuffer) :
    (done ++ b :: rest).set done.length c = done ++ c :: rest := by simp

theorem set_later (done rest : List QBuffer) (b c : QBuffer) (j : ℕ) :
    (done ++ b :: rest).set (done.length + (j + 1)) c = done ++ b :: rest.set j c := by simp

/-- The close of the buffer that is waited for: it is put out, and so are those behind it up to the
next open one. -/
theorem act_close_waiting {done rest : List QBuffer} (hbuffers : s.buffers = done ++ b :: rest)
    (hclosed : ∀ c ∈ done, c.isOpen = false) (hopen : b.isOpen = true)
    (hmBuffers : s.mBuffers = List.range' (done.length + 1) rest.length)
    (hconnected : done.length ∈ s.connections) (hle : ∀ i ∈ s.connections, i ≤ done.length)
    (hdevice : s.device = { received := header log :: done.map QBuffer.data }) :
    Progress log (act s (.close done.length)) := by
  have hb : s.buffers[done.length]? = some b := by simp [hbuffers]
  have hnot : done.length ∉ s.mBuffers := by
    rw [hmBuffers, List.mem_range'_1]
    omega
  have hlength : (done ++ [{ b with isOpen := false }]).length = done.length + 1 :=
    List.length_append
  rw [act_close hb hopen, if_pos hconnected, aboutToClose, run]
  dsimp only
  rw [runLoop_set { s with device := s.device.write b.data } hnot, hmBuffers, ← hlength]
  refine runLoop_progress ?_ ?_ ?_ ?_
  · simp [hbuffers]
  · intro c hc
    rcases List.mem_append.mp hc with hc | hc
    · exact hclosed c hc
    · rw [List.mem_singleton.mp hc]
  · intro i hi
    rw [hlength]
    exact Nat.lt_succ_of_le (hle i hi)
  · simp [hdevice, Device.write]

/-- **One action.** Whatever a serializer does, what the device has received stays in step with the
buffers. -/
theorem Progress.act (h : Progress log s) (action : Action) :
    Progress log (LogSerializeHelper.act s action) := by
  rcases exists_open_or_closed s action with ⟨c, hc, hopen⟩ | hnone
  · cases h with
    | finished hclosed hdevice =>
      rw [hclosed c (List.mem_of_getElem? hc)] at hopen
      cases hopen
    | waiting done b rest hbuffers hclosed hb hmBuffers hconnected hle hdevice =>
      have hwhich := getElem?_open hclosed (hbuffers ▸ hc) hopen
      cases action with
      | write buffer data =>
        dsimp only [Action.buffer] at hc hwhich
        rw [act_write hc hopen]
        rcases hwhich with ⟨hbuffer, rfl⟩ | ⟨j, hbuffer, -⟩
        · have hset := set_waiting done rest c { c with data := c.data ++ data }
          rw [← hbuffers, ← hbuffer] at hset
          exact .waiting done _ rest hset hclosed hopen hmBuffers hconnected hle hdevice
        · have hset := set_later done rest b { c with data := c.data ++ data } j
          rw [← hbuffers, ← hbuffer] at hset
          exact .waiting done b _ hset hclosed hb (by rw [List.length_set]; exact hmBuffers)
            hconnected hle hdevice
      | close buffer =>
        dsimp only [Action.buffer] at hc hwhich
        rcases hwhich with ⟨rfl, rfl⟩ | ⟨j, hbuffer, -⟩
        · exact act_close_waiting hbuffers hclosed hopen hmBuffers hconnected hle hdevice
        · have hnot : buffer ∉ s.connections := fun hmem => by
            have := hle buffer hmem
            omega
          have hset := set_later done rest b { c with isOpen := false } j
          rw [← hbuffers, ← hbuffer] at hset
          rw [act_close hc hopen, if_neg hnot]
          exact .waiting done b _ hset hclosed hb (by rw [List.length_set]; exact hmBuffers)
            hconnected hle hdevice
  · rw [act_of_closed hnone]
    exact h

/-- While the serializers are added, nothing is put out. -/
structure Adding (log : Bytes) (s : Helper) : Prop where
  mBuffers : s.mBuffers = List.range s.buffers.length
  connections : s.connections = []
  device : s.device = { received := [header log] }

theorem Adding.act (h : Adding log s) (action : Action) :
    Adding log (LogSerializeHelper.act s action) := by
  have hlength := length_act s action
  rcases exists_open_or_closed s action with ⟨c, hc, hopen⟩ | hnone
  · cases action with
    | write buffer data =>
      dsimp only [Action.buffer] at hc
      rw [act_write hc hopen] at hlength ⊢
      exact ⟨by rw [hlength]; exact h.mBuffers, h.connections, h.device⟩
    | close buffer =>
      dsimp only [Action.buffer] at hc
      have hnot : buffer ∉ s.connections := by
        rw [h.connections]
        exact List.not_mem_nil
      rw [act_close hc hopen, if_neg hnot] at hlength ⊢
      exact ⟨by rw [hlength]; exact h.mBuffers, h.connections, h.device⟩
  · rw [act_of_closed hnone]
    exact h

theorem Adding.foldl_act (h : Adding log s) (actions : List Action) :
    Adding log (actions.foldl LogSerializeHelper.act s) := by
  induction actions generalizing s with
  | nil => exact h
  | cons action actions ih => exact ih (h.act action)

theorem Adding.addSerializer (h : Adding log s) (serializer : Serializer) :
    Adding log (LogSerializeHelper.addSerializer s serializer) := by
  have hadded : Adding log
      { s with
        buffers := s.buffers ++ [{ data := sectionHeader serializer.logName }]
        mBuffers := s.mBuffers ++ [s.buffers.length] } := by
    refine ⟨?_, h.connections, h.device⟩
    dsimp only
    rw [h.mBuffers, List.length_append, List.length_singleton, List.range_succ]
  exact hadded.foldl_act serializer.inside

theorem Adding.foldl_addSerializer (h : Adding log s) (serializers : List Serializer) :
    Adding log (serializers.foldl LogSerializeHelper.addSerializer s) := by
  induction serializers generalizing s with
  | nil => exact h
  | cons serializer serializers ih => exact ih (h.addSerializer serializer)

theorem Adding.run (h : Adding log s) : Progress log (LogSerializeHelper.run s) := by
  rw [LogSerializeHelper.run, h.mBuffers, List.range_eq_range']
  refine @runLoop_progress s log [] s.buffers rfl (fun c hc => nomatch hc) ?_ h.device
  rw [h.connections]
  exact fun i hi => nomatch hi

theorem logSerialize_progress (log : Bytes) (serializers : List Serializer)
    (later : List Action) : Progress log (later.foldl act (logSerialize log serializers)) := by
  have hstart : Progress log (logSerialize log serializers) :=
    (Adding.foldl_addSerializer ⟨rfl, rfl, rfl⟩ serializers).run
  generalize logSerialize log serializers = s at hstart
  induction later generalizing s with
  | nil => exact hstart
  | cons action later ih => exact ih _ (hstart.act action)

/-! ## What the device receives -/

variable {serializers : List Serializer} {later : List Action}

theorem map_data_buffers (log : Bytes) (serializers : List Serializer) (later : List Action) :
    (later.foldl act (logSerialize log serializers)).buffers.map QBuffer.data =
      sections serializers later := by
  rw [buffers_eq, sections]
  refine List.ext_getElem? fun i => ?_
  rw [List.getElem?_map, List.getElem?_mapIdx, List.getElem?_mapIdx, Option.map_map]
  rfl

theorem forall_closed_iff (log : Bytes) (serializers : List Serializer) (later : List Action) :
    (∀ c ∈ (later.foldl act (logSerialize log serializers)).buffers, c.isOpen = false) ↔
      AllClosed serializers later := by
  rw [buffers_eq, AllClosed]
  constructor
  · intro h i hi
    have hclosed := h _ (List.mem_mapIdx.mpr ⟨i, hi, rfl⟩)
    simpa [after] using hclosed
  · intro h c hc
    obtain ⟨i, hi, rfl⟩ := List.mem_mapIdx.mp hc
    simpa [after] using h i hi

/-- Once every serializer has closed its buffer, inside `logSerialize` or later and in whatever
order, the device has received the header and the sections, each once, whole and in the order of
registration, and was closed once. Before, it is open and has received the first of them. -/
theorem logSerialize_device (log : Bytes) (serializers : List Serializer) (later : List Action) :
    (AllClosed serializers later → (later.foldl act (logSerialize log serializers)).device =
      { received := header log :: sections serializers later, isOpen := false, closings := 1 }) ∧
    (¬AllClosed serializers later → ∃ done, done <+: sections serializers later ∧
      (later.foldl act (logSerialize log serializers)).device =
        { received := header log :: done, isOpen := true, closings := 0 }) := by
  rw [← forall_closed_iff log, ← map_data_buffers log]
  cases logSerialize_progress log serializers later with
  | waiting done b rest hbuffers hclosed hopen hmBuffers hconnected hle hdevice =>
    constructor
    · intro hall
      have hb := hall b (by simp [hbuffers])
      rw [hopen] at hb
      cases hb
    · intro _
      refine ⟨done.map QBuffer.data, ?_, hdevice⟩
      rw [hbuffers, List.map_append]
      exact List.prefix_append _ _
  | finished hclosed hdevice => exact ⟨fun _ => hdevice, fun hnot => absurd hclosed hnot⟩

end WgDesktop.LogSerializeHelper
