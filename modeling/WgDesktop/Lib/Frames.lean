import Mathlib.Data.List.Infix
import Mathlib.Data.List.Basic

/-!
# Length-prefixed frames

A stream of frames, each a header that holds the length of the body and the body. `frames` is what a
reader finds in a stream up to a frame that is not complete or whose length it does not take.
`Left a done s` says that a reader that has seen `a` has the frames `done` and `s` is left of it; a
reader keeps it one piece at a time (`Left.arrive`, `Left.frame`), so that its frames do not depend
on how the stream is cut.
-/

namespace Frames

/-- A header of a fixed width, for lengths below a bound. -/
structure Header (α : Type*) where
  width : ℕ
  bound : ℕ
  encode : ℕ → List α
  decode : List α → ℕ
  width_pos : 0 < width
  length_encode : ∀ n, (encode n).length = width
  decode_encode : ∀ n < bound, decode (encode n) = n

variable {α : Type*} (H : Header α)

/-- A body behind its length. -/
def Header.frame (body : List α) : List α := H.encode body.length ++ body

def Header.stream (bodies : List (List α)) : List α := bodies.flatMap H.frame

/-- The frames in front of a stream, as far as their lengths are taken. -/
def frames (ok : ℕ → Bool) (s : List α) : List (List α) :=
  if s.length < H.width then []
  else
    let n := H.decode (s.take H.width)
    if ok n ∧ H.width + n ≤ s.length then
      (s.drop H.width).take n :: frames ok (s.drop (H.width + n))
    else []
termination_by s.length
decreasing_by
  have := H.width_pos
  rw [List.length_drop]
  omega

variable {H} {ok : ℕ → Bool}

theorem frames_of_short {s : List α} (h : s.length < H.width) : frames H ok s = [] := by
  rw [frames, if_pos h]

@[simp] theorem frames_nil : frames H ok [] = [] := frames_of_short H.width_pos

theorem frames_of_not_ok {h s : List α} (hwidth : h.length = H.width)
    (hok : ok (H.decode h) = false) : frames H ok (h ++ s) = [] := by
  have hlen : ¬(h ++ s).length < H.width := by rw [List.length_append]; omega
  have hnot : ¬(ok (H.decode h) = true ∧ h.length + H.decode h ≤ (h ++ s).length) := by
    rw [hok]
    simp
  rw [frames, if_neg hlen, ← hwidth, List.take_left]
  exact if_neg hnot

theorem frames_of_incomplete {h s : List α} (hwidth : h.length = H.width)
    (hlt : s.length < H.decode h) : frames H ok (h ++ s) = [] := by
  have hlen : ¬(h ++ s).length < H.width := by rw [List.length_append]; omega
  have hnot : ¬(ok (H.decode h) = true ∧ h.length + H.decode h ≤ (h ++ s).length) := by
    rw [List.length_append]
    omega
  rw [frames, if_neg hlen, ← hwidth, List.take_left]
  exact if_neg hnot

/-- **The first frame.** -/
theorem frames_cons {h body : List α} (hwidth : h.length = H.width)
    (hdecode : H.decode h = body.length) (hok : ok body.length = true) (s : List α) :
    frames H ok (h ++ (body ++ s)) = body :: frames H ok s := by
  have hlen : ¬(h ++ (body ++ s)).length < H.width := by rw [List.length_append]; omega
  have hle : h.length + body.length ≤ (h ++ (body ++ s)).length := by
    rw [List.length_append, List.length_append]
    omega
  rw [frames, if_neg hlen, ← hwidth, List.take_left, hdecode]
  dsimp only
  rw [if_pos ⟨hok, hle⟩, List.drop_left, List.take_left, ← List.drop_drop, List.drop_left,
    List.drop_left]

theorem frames_append_mono (s t : List α) : frames H ok s <+: frames H ok (s ++ t) := by
  fun_induction frames H ok s with
  | case1 s _ => exact List.nil_prefix
  | case2 s hlen n hgo ih =>
    have hwidth : (s.take H.width).length = H.width := by
      rw [List.length_take]
      omega
    have hbody : ((s.drop H.width).take n).length = n := by
      rw [List.length_take, List.length_drop]
      omega
    have hs : s ++ t =
        s.take H.width ++ ((s.drop H.width).take n ++ (s.drop (H.width + n) ++ t)) := by
      rw [← List.drop_drop, ← List.append_assoc (List.take n _), List.take_append_drop,
        ← List.append_assoc, List.take_append_drop]
    rw [hs, frames_cons hwidth hbody.symm (by rw [hbody]; exact hgo.1)]
    exact List.cons_prefix_cons.mpr ⟨rfl, ih⟩
  | case3 s _ n _ => exact List.nil_prefix

theorem frames_mono {s t : List α} (h : s <+: t) : frames H ok s <+: frames H ok t := by
  obtain ⟨u, rfl⟩ := h
  exact frames_append_mono s u

/-! ## Streams -/

/-- A body whose length fits into the header and is taken. -/
def Fits (H : Header α) (ok : ℕ → Bool) (body : List α) : Prop :=
  body.length < H.bound ∧ ok body.length = true

theorem frames_frame {body : List α} (h : Fits H ok body) (s : List α) :
    frames H ok (H.frame body ++ s) = body :: frames H ok s := by
  rw [Header.frame, List.append_assoc]
  exact frames_cons (H.length_encode _) (H.decode_encode _ h.1) h.2 s

/-- **Round trip.** What was sent is found, and then what comes after it. -/
theorem frames_stream {bodies : List (List α)} (h : ∀ body ∈ bodies, Fits H ok body)
    (s : List α) : frames H ok (H.stream bodies ++ s) = bodies ++ frames H ok s := by
  induction bodies with
  | nil => rfl
  | cons body bodies ih =>
    have hbody : Fits H ok body := h body (by simp)
    have hbodies := ih fun b hb => h b (by simp [hb])
    rw [Header.stream, List.flatMap_cons, List.append_assoc, frames_frame hbody,
      ← Header.stream, hbodies, List.cons_append]

theorem frames_of_piece {body s : List α} (hfit : body.length < H.bound)
    (hpre : s <+: H.frame body) (hlt : s.length < (H.frame body).length) :
    frames H ok s = [] := by
  by_cases hshort : s.length < H.width
  · exact frames_of_short hshort
  · obtain ⟨t, ht⟩ := hpre
    have hwidth := H.length_encode body.length
    have hhead : s.take H.width = H.encode body.length := by
      have htake := congrArg (List.take H.width) ht
      rw [List.take_append_of_le_length (by omega), Header.frame, ← hwidth, List.take_left,
        hwidth] at htake
      exact htake
    have hs : s = H.encode body.length ++ s.drop H.width := by
      rw [← hhead, List.take_append_drop]
    rw [hs]
    refine frames_of_incomplete hwidth ?_
    rw [H.decode_encode _ hfit, List.length_drop]
    rw [Header.frame, List.length_append, hwidth] at hlt
    omega

theorem stream_append (as bs : List (List α)) :
    H.stream (as ++ bs) = H.stream as ++ H.stream bs := List.flatMap_append

theorem stream_concat (as : List (List α)) (b : List α) :
    H.stream (as ++ [b]) = H.stream as ++ H.frame b := by
  rw [stream_append]
  simp [Header.stream]

theorem stream_take_mono (bodies : List (List α)) (k : ℕ) :
    H.stream (bodies.take k) <+: H.stream bodies := by
  conv_rhs => rw [← List.take_append_drop k bodies, stream_append]
  exact List.prefix_append _ _

theorem take_mono_frames {bodies : List (List α)} (h : ∀ body ∈ bodies, Fits H ok body) {k : ℕ}
    {s : List α} (hpre : H.stream (bodies.take k) <+: s) :
    bodies.take k <+: frames H ok s := by
  obtain ⟨t, rfl⟩ := hpre
  rw [frames_stream fun body hbody => h body (List.mem_of_mem_take hbody)]
  exact List.prefix_append _ _

/-! ## What is left of a stream -/

/-- A reader of `a` has found `done`, and `s` is left of it. -/
def Left (H : Header α) (ok : ℕ → Bool) (a : List α) (done : List (List α)) (s : List α) : Prop :=
  ∀ t, frames H ok (a ++ t) = done ++ frames H ok (s ++ t)

variable {a s : List α} {done : List (List α)}

theorem Left.refl : Left H ok [] [] [] := fun _ => rfl

theorem Left.arrive (h : Left H ok a done s) (input : List α) :
    Left H ok (a ++ input) done (s ++ input) := by
  intro t
  rw [List.append_assoc, List.append_assoc]
  exact h (input ++ t)

theorem Left.frame {h body : List α} (hleft : Left H ok a done (h ++ (body ++ s)))
    (hwidth : h.length = H.width) (hdecode : H.decode h = body.length)
    (hok : ok body.length = true) : Left H ok a (done ++ [body]) s := by
  intro t
  rw [hleft t, List.append_assoc, List.append_assoc, frames_cons hwidth hdecode hok,
    List.append_assoc, List.singleton_append]

theorem Left.trans {done' : List (List α)} {s' : List α} (h : Left H ok a done s)
    (h' : Left H ok s done' s') : Left H ok a (done ++ done') s' := by
  intro t
  rw [h t, h' t, List.append_assoc]

/-- The frames of a stream are those that were found and those of what is left. -/
theorem Left.frames_eq (h : Left H ok a done s) : frames H ok a = done ++ frames H ok s := by
  have := h []
  rwa [List.append_nil, List.append_nil] at this

end Frames
