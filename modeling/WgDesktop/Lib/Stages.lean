import Mathlib.Data.List.Basic

/-!
# Readers in stages

A reader that works through the stages of a protocol as its input arrives. Each stage belongs to one
state; in that state it either waits, or goes on to another state in a way that more input does not
change. A chain of such stages, none of which goes back, can be called as often as one likes: what
it does with the input so far and then with the rest is what it does with all of it
(`chain_feed`).
-/

namespace Stages

variable {σ ι Q : Type*} [DecidableEq Q] (state : σ → Q) (feed : σ → ι → σ)

/-- Runs the stages in order, each one only in its own state. -/
def chain (stages : List (Q × (σ → σ))) (s : σ) : σ :=
  stages.foldl (fun s stage => if state s = stage.1 then stage.2 s else s) s

/-- A stage waits, or leaves its state whatever input follows. -/
def IsStage (stage : Q × (σ → σ)) : Prop :=
  ∀ s, state s = stage.1 → stage.2 s = s ∨
    state (stage.2 s) ≠ stage.1 ∧ ∀ input, stage.2 (feed s input) = feed (stage.2 s) input

variable {state feed} {stages : List (Q × (σ → σ))}

theorem chain_eq_self {s : σ} (h : ∀ stage ∈ stages, state s ≠ stage.1) :
    chain state stages s = s := by
  induction stages with
  | nil => rfl
  | cons stage rest ih =>
    have hrest : chain state (stage :: rest) s = chain state rest s := by
      rw [chain, List.foldl_cons, if_neg (h stage (by simp))]
      rfl
    rw [hrest, ih fun stage' hstage => h stage' (by simp [hstage])]

theorem state_chain_ne {q : Q} (h : ∀ stage ∈ stages, ∀ s, state s = stage.1 →
    state (stage.2 s) ≠ q) {s : σ} (hs : state s ≠ q) : state (chain state stages s) ≠ q := by
  induction stages generalizing s with
  | nil => exact hs
  | cons stage rest ih =>
    rw [chain, List.foldl_cons]
    refine ih (fun stage' hstage => h stage' (by simp [hstage])) ?_
    split_ifs with hstate
    · exact h stage (by simp) s hstate
    · exact hs

/-- In the state of a stage the chain goes on from where the stage leaves off. -/
theorem chain_stage (hstage : ∀ stage ∈ stages, IsStage state feed stage)
    (hforward : stages.Pairwise fun a b => a.1 ≠ b.1 ∧
      ∀ s, state s = b.1 → state (b.2 s) ≠ a.1) {stage : Q × (σ → σ)} (hmem : stage ∈ stages)
    {s : σ} (hs : state s = stage.1) :
    chain state stages s = chain state stages (stage.2 s) := by
  induction stages with
  | nil => simp at hmem
  | cons first rest ih =>
    obtain ⟨hback, hrest⟩ := List.pairwise_cons.1 hforward
    have hcons : ∀ s, chain state (first :: rest) s =
        chain state rest (if state s = first.1 then first.2 s else s) := fun s => rfl
    rw [hcons, hcons]
    rcases List.mem_cons.1 hmem with rfl | hmem
    · rw [if_pos hs]
      rcases hstage stage (by simp) s hs with hwait | ⟨hleft, -⟩
      · rw [hwait, if_pos hs, hwait]
      · rw [if_neg hleft]
    · rw [if_neg (hs ▸ (hback stage hmem).1.symm), if_neg ((hback stage hmem).2 s hs)]
      exact ih (fun stage' hmem' => hstage stage' (by simp [hmem'])) hrest hmem

theorem chain_wait (hne : stages.Pairwise fun a b => a.1 ≠ b.1) {stage : Q × (σ → σ)}
    (hmem : stage ∈ stages) {s : σ} (hs : state s = stage.1) (hwait : stage.2 s = s) :
    chain state stages s = s := by
  induction stages with
  | nil => simp at hmem
  | cons first rest ih =>
    obtain ⟨hfirst, hrest⟩ := List.pairwise_cons.1 hne
    have hcons : chain state (first :: rest) s =
        chain state rest (if state s = first.1 then first.2 s else s) := rfl
    rw [hcons]
    rcases List.mem_cons.1 hmem with rfl | hmem
    · rw [if_pos hs, hwait]
      exact chain_eq_self fun stage' hmem' => hs ▸ hfirst stage' hmem'
    · rw [if_neg (hs ▸ (hfirst stage hmem).symm)]
      exact ih hrest hmem

/-- **A chain of stages can be resumed.** -/
theorem chain_feed (hfeed : ∀ s input, state (feed s input) = state s)
    (hstage : ∀ stage ∈ stages, IsStage state feed stage)
    (hforward : stages.Pairwise fun a b => a.1 ≠ b.1 ∧
      ∀ s, state s = b.1 → state (b.2 s) ≠ a.1) (s : σ) (input : ι) :
    chain state stages (feed (chain state stages s) input) =
      chain state stages (feed s input) := by
  induction stages generalizing s with
  | nil => rfl
  | cons stage rest ih =>
    obtain ⟨hback, hrest⟩ := List.pairwise_cons.1 hforward
    have hcons : ∀ s, chain state (stage :: rest) s =
        chain state rest (if state s = stage.1 then stage.2 s else s) := fun s => rfl
    have hne : ∀ s, state s ≠ stage.1 → state (chain state rest s) ≠ stage.1 := fun s hs =>
      state_chain_ne (fun stage' hmem => (hback stage' hmem).2) hs
    -- what the first stage leaves behind, the others take up
    have hresume : ∀ s, state s ≠ stage.1 →
        chain state (stage :: rest) (feed (chain state rest s) input) =
          chain state rest (feed s input) := by
      intro s hs
      rw [hcons, if_neg (by rw [hfeed]; exact hne s hs)]
      exact ih (fun stage' hmem => hstage stage' (by simp [hmem])) hrest s
    by_cases hs : state s = stage.1
    · rcases hstage stage (by simp) s hs with hwait | ⟨hleft, hmove⟩
      · rw [chain_wait (hforward.imp And.left) (by simp) hs hwait]
      · rw [hcons s, if_pos hs, hresume _ hleft, hcons, if_pos (by rw [hfeed]; exact hs), hmove]
    · rw [hcons s, if_neg hs, hresume s hs, hcons, if_neg (by rw [hfeed]; exact hs)]

end Stages
