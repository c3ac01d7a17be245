import Mathlib.Data.Prod.Lex
import Mathlib.Data.Set.Finite.Basic
import Mathlib.Order.Preorder.Finite

/-!
# Longest prefix match

A packet follows a route whose destination has its address, with the longest prefix, and among the
routes to that destination one of least cost. `target_of_best` is about networks that are excluded
from a tunnel: with a route for each of them to where its packets went without the tunnel, they all
go where they went.
-/

namespace Forwarding

open OrderDual

/-- Networks with the lengths of their prefixes. Of two networks with a common address, the one with
the longer prefix is a part of the other. -/
structure Prefixes (α π : Type*) where
  net : π → Set α
  length : π → ℕ
  subset_of_common : ∀ p q a, a ∈ net p → a ∈ net q → length p ≤ length q → net q ⊆ net p

section Routes

variable {α π ρ τ : Type*} (P : Prefixes α π) (dest : ρ → π) (cost : ρ → ℕ)

/-- Routes are compared by prefix length, and then by cost. -/
def key (r : ρ) : ℕ ×ₗ ℕᵒᵈ := toLex (P.length (dest r), toDual (cost r))

/-- `q` is a part of `p`. -/
def Prefixes.Contains (p q : π) : Prop := P.length p ≤ P.length q ∧ P.net q ⊆ P.net p

/-- The route is one that packets to the address may follow. -/
structure Best (T : Set ρ) (a : α) (r : ρ) : Prop where
  mem : r ∈ T
  mem_net : a ∈ P.net (dest r)
  le : ∀ r' ∈ T, a ∈ P.net (dest r') → key P dest cost r' ≤ key P dest cost r

/-- The route is best among those for all of a network. -/
structure BestFor (T : Set ρ) (q : π) (r : ρ) : Prop where
  mem : r ∈ T
  contains : P.Contains (dest r) q
  le : ∀ r' ∈ T, P.Contains (dest r') q → key P dest cost r' ≤ key P dest cost r

variable {P dest cost} {T X V : Set ρ} {a : α} {q : π} {r r' : ρ}

theorem length_le_of_key_le (h : key P dest cost r' ≤ key P dest cost r) :
    P.length (dest r') ≤ P.length (dest r) := by
  rcases Prod.Lex.le_iff.mp h with hlt | ⟨heq, -⟩
  · exact hlt.le
  · exact heq.le

/-- A route of a packet to the network is one for all of it, if its prefix is not longer. -/
theorem Prefixes.Contains.of_mem (hr : a ∈ P.net (dest r)) (hq : a ∈ P.net q)
    (hle : P.length (dest r) ≤ P.length q) : P.Contains (dest r) q :=
  ⟨hle, P.subset_of_common (dest r) q a hr hq hle⟩

theorem Best.mono (h : Best P dest cost (T ∪ X ∪ V) a r) (hr : r ∈ T) :
    Best P dest cost T a r where
  mem := hr
  mem_net := h.mem_net
  le r' hr' := h.le r' (.inl (.inl hr'))

theorem exists_best (hfinite : T.Finite) (hr : r ∈ T) (ha : a ∈ P.net (dest r)) :
    ∃ r', Best P dest cost T a r' := by
  have hmatching : ({r | r ∈ T ∧ a ∈ P.net (dest r)} : Set ρ).Finite :=
    hfinite.subset fun r h => h.1
  obtain ⟨r', ⟨hmem, hnet⟩, hle⟩ :=
    hmatching.exists_maximalFor (key P dest cost) _ ⟨r, hr, ha⟩
  refine ⟨r', hmem, hnet, fun s hs has => ?_⟩
  rcases le_total (key P dest cost s) (key P dest cost r') with h | h
  · exact h
  · exact hle ⟨hs, has⟩ h

/-- What is best for a network without a route of its own is best for its addresses, as long as none
of them has a route with a longer prefix. -/
theorem BestFor.best (h : BestFor P dest cost T q r) (hq : a ∈ P.net q)
    (hlong : ∀ r' ∈ T, a ∈ P.net (dest r') → P.length (dest r') ≤ P.length q) :
    Best P dest cost T a r where
  mem := h.mem
  mem_net := h.contains.2 hq
  le r' hr' ha := h.le r' hr' (.of_mem ha hq (hlong r' hr' ha))

/-- **Exclusion.** Let `T` be the routes without a tunnel, `V` those into it and `X` the routes for
the excluded networks, each to where the best route for its network leads. The packets to an excluded
network follow routes that lead where they led before. -/
theorem target_of_best {target : ρ → τ} {excluded : Set π}
    (hX : ∀ x ∈ X, ∃ t, BestFor P dest cost T (dest x) t ∧ target x = target t)
    (hexcluded : ∀ p ∈ excluded, ∀ t, BestFor P dest cost T p t →
      P.length (dest t) < P.length p → ∃ x ∈ X, dest x = p)
    (hT : T.Finite) (hq : q ∈ excluded) (haq : a ∈ P.net q)
    (hV : ∀ v ∈ V, a ∈ P.net (dest v) → P.length (dest v) < P.length q)
    {t : ρ} (ht : t ∈ T) (hat : a ∈ P.net (dest t))
    (hr : Best P dest cost (T ∪ X ∪ V) a r) :
    ∃ t', Best P dest cost T a t' ∧ target r = target t' := by
  rcases hr.mem with (hmem | hmem) | hmem
  · exact ⟨r, hr.mono hmem, rfl⟩
  · obtain ⟨t', hbest, htarget⟩ := hX r hmem
    refine ⟨t', hbest.best hr.mem_net fun s hs has => ?_, htarget⟩
    exact length_le_of_key_le (hr.le s (.inl (.inl hs)) has)
  · -- a route into the tunnel is shorter than what else there is for the network
    obtain ⟨t', hbest⟩ : ∃ t', Best P dest cost T a t' := exists_best hT ht hat
    have hrq := hV r hmem hr.mem_net
    have htr := length_le_of_key_le (hr.le t' (.inl (.inl hbest.mem)) hbest.mem_net)
    have hcontains : P.Contains (dest t') q := .of_mem hbest.mem_net haq (htr.trans hrq.le)
    have hfor : BestFor P dest cost T q t' :=
      ⟨hbest.mem, hcontains, fun s hs hsq => hbest.le s hs (hsq.2 haq)⟩
    obtain ⟨x, hx, rfl⟩ := hexcluded q hq t' hfor (htr.trans_lt hrq)
    have hxr := length_le_of_key_le (hr.le x (.inl (.inr hx)) haq)
    omega

end Routes

end Forwarding
