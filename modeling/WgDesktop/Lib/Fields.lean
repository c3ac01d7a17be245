import Mathlib.Data.Option.Basic

/-!
# Fields

A part of a state that is read and written on its own. A step that may fail is `Confined` to a
field when all it does is to read that field and to write it. Steps confined to independent fields
can be exchanged (`Confined.comm`), and a loop of such steps is confined like its body.
-/

namespace Fields

variable {σ V W : Type}

/-- A field of a state. -/
structure Field (σ V : Type) where
  get : σ → V
  put : σ → V → σ
  get_put : ∀ s v, get (put s v) = v
  put_get : ∀ s, put s (get s) = s
  put_put : ∀ s v v', put (put s v) v' = put s v'

/-- Writing the one field and the other gives the same in both orders. -/
def Independent (f : Field σ V) (g : Field σ W) : Prop :=
  ∀ s v w, g.put (f.put s v) w = f.put (g.put s w) v

theorem Independent.symm {f : Field σ V} {g : Field σ W} (h : Independent f g) :
    Independent g f := fun s w v => (h s v w).symm

theorem Independent.get_put {f : Field σ V} {g : Field σ W} (h : Independent f g) (s : σ) (w : W) :
    f.get (g.put s w) = f.get s := by
  have hwrite := h s (f.get s) w
  rw [f.put_get] at hwrite
  rw [hwrite, f.get_put]

/-- A step that reads and writes the field alone. -/
def Confined (f : Field σ V) (m : σ → Option σ) : Prop :=
  ∃ w : V → Option V, ∀ s, m s = (w (f.get s)).map (f.put s)

variable {f : Field σ V} {g : Field σ W}

theorem Confined.congr {m m' : σ → Option σ} (h : Confined f m) (heq : ∀ s, m' s = m s) :
    Confined f m' := by
  obtain ⟨w, hw⟩ := h
  exact ⟨w, fun s => (heq s).trans (hw s)⟩

theorem confined_some : Confined f some := by
  refine ⟨some, fun s => ?_⟩
  rw [Option.map_some, f.put_get]

theorem confined_none : Confined f fun _ => none := ⟨fun _ => none, fun _ => rfl⟩

theorem confined_put (v : V → V) : Confined f fun s => some (f.put s (v (f.get s))) :=
  ⟨fun x => some (v x), fun _ => rfl⟩

theorem Confined.bind {m m' : σ → Option σ} (hm : Confined f m) (hm' : Confined f m') :
    Confined f fun s => m s >>= m' := by
  obtain ⟨w, hw⟩ := hm
  obtain ⟨w', hw'⟩ := hm'
  refine ⟨fun v => w v >>= w', fun s => ?_⟩
  change (m s >>= m') = (w (f.get s) >>= w').map (f.put s)
  rw [hw s]
  cases hv : w (f.get s) with
  | none => rfl
  | some v =>
    change m' (f.put s v) = (w' v).map (f.put s)
    rw [hw', f.get_put]
    cases w' v with
    | none => rfl
    | some v' => exact congrArg some (f.put_put s v v')

theorem Confined.foldlM {α : Type} {m : σ → α → Option σ} (h : ∀ a, Confined f fun s => m s a)
    (as : List α) : Confined f fun s => as.foldlM m s := by
  induction as with
  | nil => exact confined_some
  | cons a as ih => exact (h a).bind ih

/-- **Exchange.** Steps on independent fields do the same in both orders. -/
theorem Confined.comm (h : Independent f g) {m m' : σ → Option σ} (hm : Confined f m)
    (hm' : Confined g m') (s : σ) : (m s >>= m') = (m' s >>= m) := by
  obtain ⟨w, hw⟩ := hm
  obtain ⟨w', hw'⟩ := hm'
  rw [hw s, hw' s]
  have hleft : ∀ v, m' (f.put s v) = (w' (g.get s)).map (g.put (f.put s v)) := fun v => by
    rw [hw', h.symm.get_put]
  have hright : ∀ v, m (g.put s v) = (w (f.get s)).map (f.put (g.put s v)) := fun v => by
    rw [hw, h.get_put]
  cases hv : w (f.get s) with
  | none =>
    cases w' (g.get s) with
    | none => rfl
    | some v' =>
      change none = m (g.put s v')
      rw [hright, hv]
      rfl
  | some v =>
    change m' (f.put s v) = _
    rw [hleft]
    cases w' (g.get s) with
    | none => rfl
    | some v' =>
      change some (g.put (f.put s v) v') = m (g.put s v')
      rw [hright, hv, h s v v']
      rfl

end Fields
