import WgDesktop.Lib.Bytes

/-!
# Tables of texts

A buffer with entries of one size and behind them a text for each entry. An entry has the offset of
its text behind the entries, and its length. `fill` writes the entries and the texts one after the
other over zeros, `fill_eq` is what is in the buffer afterwards, and by `readEntries_entries` each
entry leads to its text.
-/

namespace TextTable

open Bytes

variable {α : Type*} (size : ℕ) (entry : α → ℕ → List Byte → List Byte)

/-! ## Writing -/

/-- Writes the entries from `pos` on and the texts from `strings + offset` on. -/
def fill (strings : ℕ) : ℕ → ℕ → List (α × List Byte) → List Byte → List Byte
  | _, _, [], buf => buf
  | pos, offset, (a, text) :: items, buf =>
    fill strings (pos + size) (offset + text.length) items
      (overwrite (overwrite buf pos (entry a offset text)) (strings + offset) text)

/-- An entry with the zeros behind it. -/
def padded (a : α) (offset : ℕ) (text : List Byte) : List Byte :=
  entry a offset text ++ List.replicate (size - (entry a offset text).length) 0

/-- The entries, of which the first has its text at the offset. -/
def entries : ℕ → List (α × List Byte) → List Byte
  | _, [] => []
  | offset, (a, text) :: items =>
    padded size entry a offset text ++ entries (offset + text.length) items

def texts (items : List (α × List Byte)) : List Byte := items.flatMap Prod.snd

variable {size entry} {items : List (α × List Byte)}

theorem texts_cons (a : α) (text : List Byte) (items : List (α × List Byte)) :
    texts ((a, text) :: items) = text ++ texts items := rfl

theorem length_padded (hentry : ∀ a offset text, (entry a offset text).length ≤ size) (a : α)
    (offset : ℕ) (text : List Byte) : (padded size entry a offset text).length = size := by
  rw [padded, List.length_append, List.length_replicate, Nat.add_sub_cancel' (hentry a offset text)]

theorem length_entries (hentry : ∀ a offset text, (entry a offset text).length ≤ size)
    (items : List (α × List Byte)) (offset : ℕ) :
    (entries size entry offset items).length = size * items.length := by
  induction items generalizing offset with
  | nil => rfl
  | cons item items ih =>
    rw [entries, List.length_append, length_padded hentry, ih, List.length_cons, Nat.mul_succ,
      Nat.add_comm]

/-- One turn: the entry and its text are there, and what was there stays. -/
theorem overwrite_turn (hentry : ∀ a offset text, (entry a offset text).length ≤ size) (a : α)
    (text : List Byte) {strings n m : ℕ} (front done : List Byte)
    (hs : strings = front.length + size * (n + 1)) :
    overwrite
        (overwrite
          (front ++ (List.replicate (size * (n + 1)) 0 ++
            (done ++ List.replicate (text.length + m) 0)))
          front.length (entry a done.length text))
        (strings + done.length) text =
      (front ++ padded size entry a done.length text) ++
        (List.replicate (size * n) 0 ++ ((done ++ text) ++ List.replicate m 0)) := by
  have hlen := length_padded hentry a done.length text
  have hzeros : List.replicate (size * (n + 1)) (0 : Byte) =
      List.replicate (entry a done.length text).length 0 ++
        (List.replicate (size - (entry a done.length text).length) 0 ++
          List.replicate (size * n) 0) := by
    rw [List.replicate_append_replicate, List.replicate_append_replicate]
    congr 1
    have hle := hentry a done.length text
    rw [Nat.mul_succ]
    omega
  have hfirst : overwrite
      (front ++ (List.replicate (size * (n + 1)) 0 ++
        (done ++ List.replicate (text.length + m) 0))) front.length (entry a done.length text) =
      (front ++ padded size entry a done.length text ++ List.replicate (size * n) 0 ++ done) ++
        (List.replicate text.length 0 ++ List.replicate m 0) := by
    rw [hzeros, List.append_assoc (List.replicate _ _), overwrite_append rfl (by simp), padded,
      show List.replicate (text.length + m) (0 : Byte) =
        List.replicate text.length 0 ++ List.replicate m 0 from
          List.replicate_append_replicate.symm]
    simp only [List.append_assoc]
  rw [hfirst, overwrite_append _ (by simp)]
  · simp only [List.append_assoc]
  · simp only [List.length_append, hlen, List.length_replicate, hs, Nat.mul_succ]
    omega

/-- **The buffer.** When all is written, it has the entries and behind them the texts. -/
theorem fill_eq (hentry : ∀ a offset text, (entry a offset text).length ≤ size)
    (items : List (α × List Byte)) (front done : List Byte) {strings : ℕ}
    (hs : strings = front.length + size * items.length) :
    fill size entry strings front.length done.length items
        (front ++ (List.replicate (size * items.length) 0 ++
          (done ++ List.replicate (texts items).length 0))) =
      front ++ (entries size entry done.length items ++ (done ++ texts items)) := by
  induction items generalizing front done with
  | nil => simp [fill, entries, texts]
  | cons item items ih =>
    obtain ⟨a, text⟩ := item
    have hfront : (front ++ padded size entry a done.length text).length = front.length + size := by
      rw [List.length_append, length_padded hentry]
    have hrest := ih (front ++ padded size entry a done.length text) (done ++ text) (by
      rw [hfront, hs, List.length_cons, Nat.mul_succ]
      omega)
    rw [hfront, List.length_append] at hrest
    rw [fill, texts_cons, List.length_append, List.length_cons,
      overwrite_turn hentry a text front done hs, hrest, entries]
    simp only [List.append_assoc]

/-! ## Reading -/

/-- The part of the text, if it is a part. -/
def slice (bs : List Byte) (offset len : ℕ) : Option (List Byte) :=
  if offset + len ≤ bs.length then some ((bs.drop offset).take len) else none

variable (size) in
/-- Reads so many entries, each with its text. -/
def readEntries (readEntry : List Byte → α × ℕ × ℕ) (strings : List Byte) :
    ℕ → List Byte → Option (List (α × List Byte))
  | 0, _ => some []
  | n + 1, bs =>
    (slice strings (readEntry (bs.take size)).2.1 (readEntry (bs.take size)).2.2).bind fun text =>
      (readEntries readEntry strings n (bs.drop size)).map
        (((readEntry (bs.take size)).1, text) :: ·)

theorem slice_append (front text rest : List Byte) {len : ℕ} (hlen : len ≤ text.length) :
    slice (front ++ (text ++ rest)) front.length len = some (text.take len) := by
  rw [slice, if_pos (by simp only [List.length_append]; omega), List.drop_left,
    List.take_append_of_le_length hlen]

/-- **Reading.** Each entry leads to its text, as far as the length that it can hold. An entry for
no text may have the offset 0. -/
theorem readEntries_entries (hentry : ∀ a offset text, (entry a offset text).length ≤ size)
    {readEntry : List Byte → α × ℕ × ℕ} {bound modulus : ℕ}
    (hread : ∀ a offset text, offset + text.length < bound →
      readEntry (padded size entry a offset text) = (a, offset, text.length % modulus) ∨
        text = [] ∧ readEntry (padded size entry a offset text) = (a, 0, 0))
    (items : List (α × List Byte)) (front rest : List Byte)
    (hbound : front.length + (texts items).length < bound) :
    readEntries size readEntry (front ++ texts items) items.length
        (entries size entry front.length items ++ rest) =
      some (items.map fun item => (item.1, item.2.take (item.2.length % modulus))) := by
  induction items generalizing front with
  | nil => rfl
  | cons item items ih =>
    obtain ⟨a, text⟩ := item
    rw [texts_cons, List.length_append] at hbound
    have htake : (padded size entry a front.length text ++
        (entries size entry (front.length + text.length) items ++ rest)).take size =
        padded size entry a front.length text :=
      List.take_left' (length_padded hentry a front.length text)
    have hdrop : (padded size entry a front.length text ++
        (entries size entry (front.length + text.length) items ++ rest)).drop size =
        entries size entry (front.length + text.length) items ++ rest :=
      List.drop_left' (length_padded hentry a front.length text)
    have hrest := ih (front ++ text) (by rw [List.length_append]; omega)
    rw [List.append_assoc, List.length_append] at hrest
    rw [List.length_cons, readEntries, entries, List.append_assoc, htake, hdrop, texts_cons, hrest]
    rcases hread a front.length text (by omega) with hentry | ⟨rfl, hentry⟩
    · rw [hentry, slice_append front text (texts items) (Nat.mod_le _ _)]
      rfl
    · rw [hentry]
      simp [slice]

end TextTable
