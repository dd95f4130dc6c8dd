import Mathlib.Tactic.Common

/-! Deterministic machines answering a sequence of events: runs, the states they
reach, the invariant rule, and the deletion and relabelling of events. -/
namespace EventMachine
variable {σ ε ρ : Type} (step : σ → ε → ρ × σ)

def final : σ → List ε → σ
  | s, [] => s
  | s, e :: es => final (step s e).2 es

/-- Every event of a run with the answer it got. -/
def answers : σ → List ε → List (ε × ρ)
  | _, [] => []
  | s, e :: es => (e, (step s e).1) :: answers (step s e).2 es

/-- All states a run passes through, the first one included. -/
def reached : σ → List ε → List σ
  | s, [] => [s]
  | s, e :: es => s :: reached (step s e).2 es

theorem mem_reached (s : σ) (es : List ε) : s ∈ reached step s es := by
  cases es <;> simp [reached]

/-- Every event of the run meets `C` in the state it is answered in. -/
def StepsMeet (C : σ → ε → Prop) : σ → List ε → Prop
  | _, [] => True
  | s, e :: es => C s e ∧ StepsMeet C (step s e).2 es

def Reachable (s₀ s : σ) : Prop := ∃ es, final step s₀ es = s

theorem final_append (s : σ) (u v : List ε) :
    final step s (u ++ v) = final step (final step s u) v := by
  induction u generalizing s with
  | nil => rfl
  | cons e es ih => exact ih (step s e).2

theorem answers_append (s : σ) (u v : List ε) :
    answers step s (u ++ v) = answers step s u ++ answers step (final step s u) v := by
  induction u generalizing s with
  | nil => rfl
  | cons e es ih => exact congrArg (List.cons _) (ih (step s e).2)

theorem Reachable.refl (s : σ) : Reachable step s s := ⟨[], rfl⟩

/-- The rule of invariants: where one step keeps `I` exactly if it meets `C`, a run
stays in `I` exactly if all its steps meet `C`. -/
theorem reached_iff_of_step {I : σ → Prop} {C : σ → ε → Prop}
    (hstep : ∀ s e, I s → (I (step s e).2 ↔ C s e)) {s : σ} (hs : I s) (es : List ε) :
    (∀ s' ∈ reached step s es, I s') ↔ StepsMeet step C s es := by
  induction es generalizing s with
  | nil => simpa [reached, StepsMeet] using hs
  | cons e es ih =>
    have hcons : (∀ s' ∈ reached step s (e :: es), I s') ↔
        ∀ s' ∈ reached step (step s e).2 es, I s' := by
      simp [reached, hs]
    rw [hcons]
    constructor
    · intro h
      have hnext : I (step s e).2 := h _ (mem_reached step _ es)
      exact ⟨(hstep s e hs).mp hnext, (ih hnext).mp h⟩
    · intro h
      exact (ih ((hstep s e hs).mpr h.1)).mpr h.2

/-- Steps that meet `C` keep `I`, so a run of them stays in it. -/
theorem reached_of_step {I : σ → Prop} {C : σ → ε → Prop}
    (hstep : ∀ s e, I s → C s e → I (step s e).2) {s : σ} (hs : I s) {es : List ε}
    (h : StepsMeet step C s es) : ∀ s' ∈ reached step s es, I s' := by
  induction es generalizing s with
  | nil => simpa [reached] using hs
  | cons e es ih =>
    have hnext := ih (hstep s e hs h.1) h.2
    simpa [reached, hs] using hnext

theorem final_mem_reached (s : σ) (es : List ε) : final step s es ∈ reached step s es := by
  induction es generalizing s with
  | nil => simp [final, reached]
  | cons e es ih => exact List.mem_cons_of_mem s (ih _)

/-- A relation kept by one step relates the ends of every run. -/
theorem final_rel {R : σ → σ → Prop} (hrefl : ∀ s, R s s)
    (htrans : ∀ a b c, R a b → R b c → R a c) (hstep : ∀ s e, R s (step s e).2)
    (s : σ) (es : List ε) : R s (final step s es) := by
  induction es generalizing s with
  | nil => exact hrefl s
  | cons e es ih => exact htrans s _ _ (hstep s e) (ih _)

/-- Events that leave the state alone may be deleted from a run. -/
theorem final_filter (keep : ε → Bool)
    (hskip : ∀ s e, keep e = false → (step s e).2 = s) (s : σ) (es : List ε) :
    final step s (es.filter keep) = final step s es := by
  induction es generalizing s with
  | nil => rfl
  | cons e es ih =>
    cases hk : keep e with
    | true => simpa [hk, final] using ih (step s e).2
    | false => simpa [hk, final, hskip s e hk] using ih s

theorem answers_filter (keep : ε → Bool)
    (hskip : ∀ s e, keep e = false → (step s e).2 = s) (s : σ) (es : List ε) :
    answers step s (es.filter keep) = (answers step s es).filter fun a => keep a.1 := by
  induction es generalizing s with
  | nil => rfl
  | cons e es ih =>
    cases hk : keep e with
    | true => simpa [hk, answers] using ih (step s e).2
    | false => simpa [hk, answers, hskip s e hk] using ih s

/-- Events with the same effect and related answers may be exchanged in a run. -/
theorem final_exchange {R : ε → ε → Prop} {Q : ρ → ρ → Prop}
    (hR : ∀ s e e', R e e' → Q (step s e).1 (step s e').1 ∧ (step s e).2 = (step s e').2)
    {es es' : List ε} (h : List.Forall₂ R es es') (s : σ) :
    final step s es = final step s es' ∧
      List.Forall₂ Q ((answers step s es).map Prod.snd) ((answers step s es').map Prod.snd) := by
  induction h generalizing s with
  | nil => exact ⟨rfl, .nil⟩
  | cons he _ ih =>
    obtain ⟨hanswer, hstate⟩ := hR s _ _ he
    obtain ⟨hfinal, hanswers⟩ := ih (step s _).2
    simp only [final, answers, List.map_cons, ← hstate]
    exact ⟨hfinal, .cons hanswer hanswers⟩

theorem answers_fst (s : σ) (es : List ε) : (answers step s es).map Prod.fst = es := by
  induction es generalizing s with
  | nil => rfl
  | cons e es ih => exact congrArg (List.cons e) (ih _)

/-- One answer of a run, with the events before and after it. -/
theorem answers_at {s : σ} {es : List ε} {u v : List (ε × ρ)} {e : ε} {r : ρ}
    (h : answers step s es = u ++ (e, r) :: v) :
    ∃ eu ev, es = eu ++ e :: ev ∧ answers step s eu = u ∧
      r = (step (final step s eu) e).1 ∧
      answers step (step (final step s eu) e).2 ev = v := by
  induction u generalizing s es with
  | nil =>
    cases es with
    | nil => cases h
    | cons e' es =>
      obtain ⟨he, hv⟩ := List.cons.inj h
      obtain ⟨rfl, rfl⟩ := Prod.mk.inj he
      exact ⟨[], es, rfl, rfl, rfl, hv⟩
  | cons a u ih =>
    cases es with
    | nil => cases h
    | cons e' es =>
      obtain ⟨rfl, hrest⟩ := List.cons.inj h
      obtain ⟨eu, ev, rfl, hu, hr, hv⟩ := ih hrest
      exact ⟨e' :: eu, ev, rfl, congrArg (List.cons _) hu, hr, hv⟩

/-- What is kept by every event with such an answer is kept by a run of such answers. -/
theorem final_of_answers {I : σ → Prop} {C : ε → ρ → Prop}
    (hstep : ∀ s e, I s → C e (step s e).1 → I (step s e).2) {s : σ} (hs : I s) {es : List ε}
    (h : ∀ a ∈ answers step s es, C a.1 a.2) : I (final step s es) := by
  induction es generalizing s with
  | nil => exact hs
  | cons e es ih =>
    have hnext := hstep s e hs (h _ List.mem_cons_self)
    exact ih hnext fun a ha => h a (List.mem_cons_of_mem _ ha)

/-- Two machines that agree on every event of a run. -/
theorem final_agree {step' : σ → ε → ρ × σ} {Q : ε → ρ → ρ → Prop} {es : List ε}
    (h : ∀ s, ∀ e ∈ es, Q e (step s e).1 (step' s e).1 ∧ (step s e).2 = (step' s e).2) (s : σ) :
    final step s es = final step' s es ∧
      List.Forall₂ (fun a b => a.1 = b.1 ∧ Q a.1 a.2 b.2) (answers step s es)
        (answers step' s es) := by
  induction es generalizing s with
  | nil => exact ⟨rfl, .nil⟩
  | cons e es ih =>
    obtain ⟨hanswer, hstate⟩ := h s e List.mem_cons_self
    obtain ⟨hfinal, hanswers⟩ :=
      ih (fun s e he => h s e (List.mem_cons_of_mem _ he)) (step s e).2
    simp only [final, answers, ← hstate]
    exact ⟨hfinal, .cons ⟨rfl, hanswer⟩ hanswers⟩

end EventMachine
