import Mathlib.Algebra.BigOperators.Group.Finset.Piecewise
import CategoryService.Library.Linearization

/-! What holds of each thread along a run, with the number of steps it has taken: its own
steps carry it on and those of the others leave it alone. -/
namespace Linearization
open Interaction
variable {ι σ α Op : Type} {Ans : Op → Type} [DecidableEq ι]

/-- The thread that takes the step. -/
def Label.owner : Label ι α → ι
  | .invoke i | .act i | .respond i _ => i

/-- The steps of one thread. -/
def stepsOf (i : ι) (ls : List (Label ι α)) : Nat := ls.countP fun l => l.owner = i

theorem stepsOf_snoc (i : ι) (ls : List (Label ι α)) (l : Label ι α) :
    stepsOf i (ls ++ [l]) = stepsOf i ls + if l.owner = i then 1 else 0 := by
  simp [stepsOf, List.countP_append, List.countP_singleton]

/-- A run is as long as the steps of its threads together. -/
theorem length_eq_sum_stepsOf [Fintype ι] (ls : List (Label ι α)) :
    ls.length = ∑ i, stepsOf i ls := by
  induction ls using List.reverseRecOn with
  | nil => simp [stepsOf]
  | append_singleton ls l ih => simp [stepsOf_snoc, Finset.sum_add_distrib, ← ih]

variable {Act : ι → σ → (op : Op) → Ans op → σ → Prop} {prog : ι → Prog Op Ans α}
  {P : ι → Nat → Thread Op Ans α → σ → Prop} {s₀ : σ}

/-- `P` is kept by every step of a run. -/
structure ThreadRule (Act : ι → σ → (op : Op) → Ans op → σ → Prop)
    (prog : ι → Prog Op Ans α) (P : ι → Nat → Thread Op Ans α → σ → Prop) : Prop where
  invoke : ∀ {i k s}, P i k .idle s → P i (k + 1) (.running (prog i)) s
  act : ∀ {i k op next s x s'}, P i k (.running (.call op next)) s → Act i s op x s' →
    P i (k + 1) (.running (next x)) s'
  respond : ∀ {i k a s}, P i k (.running (.done a)) s → P i (k + 1) (.returned a) s
  others : ∀ {i j k th s op x s'}, j ≠ i → P i k th s → Act j s op x s' → P i k th s'

theorem ThreadRule.step (h : ThreadRule Act prog P) {c c' : Config ι σ Op Ans α}
    {ls : List (Label ι α)} {l : Label ι α}
    (hc : ∀ i, P i (stepsOf i ls) (c.thread i) c.shared) (hl : Step Act prog c l c') (i : ι) :
    P i (stepsOf i (ls ++ [l])) (c'.thread i) c'.shared := by
  have hi := hc i
  rw [stepsOf_snoc]
  cases hl with
  | @invoke j hj =>
    by_cases hij : i = j
    · subst hij
      rw [hj] at hi
      simpa [Label.owner] using h.invoke hi
    · simpa [Label.owner, Function.update_of_ne hij, Ne.symm hij] using hi
  | @act j op next x s hj ha =>
    by_cases hij : i = j
    · subst hij
      rw [hj] at hi
      simpa [Label.owner] using h.act hi ha
    · simpa [Label.owner, Function.update_of_ne hij, Ne.symm hij] using
        h.others (Ne.symm hij) hi ha
  | @respond j a hj =>
    by_cases hij : i = j
    · subst hij
      rw [hj] at hi
      simpa [Label.owner] using h.respond hi
    · simpa [Label.owner, Function.update_of_ne hij, Ne.symm hij] using hi

/-- What holds of every thread at the start holds of it in every run. -/
theorem ThreadRule.run (h : ThreadRule Act prog P) (hstart : ∀ i, P i 0 .idle s₀)
    {c : Config ι σ Op Ans α} {ls : List (Label ι α)} (hrun : Run Act prog (.start s₀) ls c) :
    ∀ i, P i (stepsOf i ls) (c.thread i) c.shared := by
  induction hrun with
  | nil => exact hstart
  | snoc _ hl ih => exact h.step ih hl

end Linearization
