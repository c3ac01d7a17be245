import Mathlib.Data.List.Basic

/-!
# Calls that call back

A step that hands control to somebody else as the last thing it does. What the other side calls in
the meantime is nested in the step, but runs from the state that the step leaves, so a run of nested
calls is the run of the plain list of its calls (`performAll_eq_foldl`), and every plain list is
such a run (`traceAll_flat`).
-/

namespace Nested

/-- A call, with the calls that are made while it has handed out control. -/
inductive Call (ε : Type*) where
  | mk (event : ε) (inside : List (Call ε))

section

variable {σ ε : Type*} (step : σ → ε → σ) (handsOut : σ → ε → Bool)

mutual

/-- The nested calls happen if control is handed out at all. -/
def perform : σ → Call ε → σ
  | s, .mk e inside => if handsOut s e then performAll (step s e) inside else step s e

def performAll : σ → List (Call ε) → σ
  | s, [] => s
  | s, c :: cs => performAll (perform s c) cs

end

mutual

/-- The events of a call in the order in which they happen. -/
def trace : σ → Call ε → List ε
  | s, .mk e inside => e :: if handsOut s e then traceAll (step s e) inside else []

def traceAll : σ → List (Call ε) → List ε
  | _, [] => []
  | s, c :: cs => trace s c ++ traceAll (perform step handsOut s c) cs

end

variable {step handsOut}

mutual

theorem perform_eq_foldl (s : σ) (c : Call ε) :
    perform step handsOut s c = (trace step handsOut s c).foldl step s := by
  obtain ⟨e, inside⟩ := c
  rw [perform, trace, List.foldl_cons]
  by_cases h : handsOut s e
  · rw [if_pos h, if_pos h, performAll_eq_foldl]
  · rw [if_neg h, if_neg h, List.foldl_nil]

/-- **Flattening.** Nested calls have the effect of their events one after the other. -/
theorem performAll_eq_foldl (s : σ) (cs : List (Call ε)) :
    performAll step handsOut s cs = (traceAll step handsOut s cs).foldl step s := by
  cases cs with
  | nil => rw [performAll, traceAll, List.foldl_nil]
  | cons c cs =>
    rw [performAll, traceAll, List.foldl_append, performAll_eq_foldl, perform_eq_foldl]

end

theorem traceAll_flat (s : σ) (events : List ε) :
    traceAll step handsOut s (events.map fun e => .mk e []) = events := by
  induction events generalizing s with
  | nil => rw [List.map_nil, traceAll]
  | cons e events ih =>
    rw [List.map_cons, traceAll, ih, trace, traceAll, ite_self, List.singleton_append]

end

end Nested
