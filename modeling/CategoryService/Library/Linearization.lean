import Mathlib.Data.List.Nodup
import Mathlib.Data.Set.Card
import Mathlib.Logic.Function.Basic
import CategoryService.Library.Interaction

/-! Threads that each run one program against a shared state, step by step in any
interleaving, and a rely-guarantee rule that turns their runs into serial orders. -/
namespace Linearization
open Interaction

inductive Thread (Op : Type) (Ans : Op → Type) (α : Type) where
  | idle
  | running (m : Prog Op Ans α)
  | returned (a : α)

structure Config (ι σ Op : Type) (Ans : Op → Type) (α : Type) where
  shared : σ
  thread : ι → Thread Op Ans α

inductive Label (ι α : Type) where
  | invoke (i : ι)
  | act (i : ι)
  | respond (i : ι) (a : α)

variable {ι σ τ α Op : Type} {Ans : Op → Type}

def Config.start (s : σ) : Config ι σ Op Ans α := ⟨s, fun _ => .idle⟩

section System
variable [DecidableEq ι] (Act : ι → σ → (op : Op) → Ans op → σ → Prop)
  (prog : ι → Prog Op Ans α)

inductive Step : Config ι σ Op Ans α → Label ι α → Config ι σ Op Ans α → Prop
  | invoke {c : Config ι σ Op Ans α} {i : ι} (h : c.thread i = .idle) :
      Step c (.invoke i) ⟨c.shared, Function.update c.thread i (.running (prog i))⟩
  | act {c : Config ι σ Op Ans α} {i : ι} {op : Op} {next : Ans op → Prog Op Ans α}
      {x : Ans op} {s : σ} (h : c.thread i = .running (.call op next))
      (ha : Act i c.shared op x s) :
      Step c (.act i) ⟨s, Function.update c.thread i (.running (next x))⟩
  | respond {c : Config ι σ Op Ans α} {i : ι} {a : α} (h : c.thread i = .running (.done a)) :
      Step c (.respond i a) ⟨c.shared, Function.update c.thread i (.returned a)⟩

/-- A run with the labels of its steps, the latest last. -/
inductive Run (c₀ : Config ι σ Op Ans α) : List (Label ι α) → Config ι σ Op Ans α → Prop
  | nil : Run c₀ [] c₀
  | snoc {ls : List (Label ι α)} {c c' : Config ι σ Op Ans α} {l : Label ι α}
      (h : Run c₀ ls c) (hl : Step Act prog c l c') : Run c₀ (ls ++ [l]) c'

end System

/-- Thread `i` has responded before thread `j` is invoked. -/
def Precedes (ls : List (Label ι α)) (i j : ι) : Prop :=
  ∃ u v a, ls = u ++ v ∧ .respond i a ∈ u ∧ .invoke j ∈ v

/-- Requests one at a time, each by its specification. -/
inductive Serial (Spec : ι → τ → α → τ → Prop) (t : τ) : List (ι × α) → τ → Prop
  | nil : Serial Spec t [] t
  | snoc {order : List (ι × α)} {t' t'' : τ} {i : ι} {a : α} (h : Serial Spec t order t')
      (hs : Spec i t' a t'') : Serial Spec t (order ++ [(i, a)]) t''

/-- A program with no step of another in between. -/
inductive Alone (Act : σ → (op : Op) → Ans op → σ → Prop) : Prog Op Ans α → σ → α → σ → Prop
  | done (a : α) (s : σ) : Alone Act (.done a) s a s
  | call {op : Op} {next : Ans op → Prog Op Ans α} {x : Ans op} {s s' s'' : σ} {a : α}
      (ha : Act s op x s') (hn : Alone Act (next x) s' a s'') : Alone Act (.call op next) s a s''

section Certificates
variable (Act : ι → σ → (op : Op) → Ans op → σ → Prop) (view : σ → τ)
  (Rely : ι → σ → σ → Prop) (Spec : ι → τ → α → τ → Prop)

/-- The rest of the program returns `a` and leaves the view alone, whatever the
others do in between. -/
def Settled (i : ι) (a : α) : Prog Op Ans α → σ → Prop
  | .done b, _ => b = a
  | .call op next, s => ∀ s' x s'', Rely i s s' → Act i s' op x s'' →
      view s'' = view s' ∧ Settled i a (next x) s''

/-- Whatever the others do in between, the program comes to a step that meets its
specification, and is settled from there. -/
def Ready (i : ι) : Prog Op Ans α → σ → Prop
  | .done _, _ => False
  | .call op next, s => ∀ s' x s'', Rely i s s' → Act i s' op x s'' →
      (∃ a, Spec i (view s') a (view s'') ∧ Settled Act view Rely i a (next x) s'') ∨
        (view s'' = view s' ∧ Ready i (next x) s'')

/-- What one thread does is within what every other thread relies on. -/
structure Interference : Prop where
  refl : ∀ i s, Rely i s s
  trans : ∀ i s s' s'', Rely i s s' → Rely i s' s'' → Rely i s s''
  others : ∀ i j s op x s', j ≠ i → Act j s op x s' → Rely i s s'

variable {Act view Rely Spec}

theorem Settled.mono (h : Interference Act Rely) {i : ι} {a : α} {m : Prog Op Ans α} {s s' : σ}
    (hm : Settled Act view Rely i a m s) (hs : Rely i s s') :
    Settled Act view Rely i a m s' := by
  cases m with
  | done b => exact hm
  | call op next => exact fun u x v hu hx => hm u x v (h.trans i _ _ _ hs hu) hx

theorem Ready.mono (h : Interference Act Rely) {i : ι} {m : Prog Op Ans α} {s s' : σ}
    (hm : Ready Act view Rely Spec i m s) (hs : Rely i s s') :
    Ready Act view Rely Spec i m s' := by
  cases m with
  | done b => exact hm
  | call op next => exact fun u x v hu hx => hm u x v (h.trans i _ _ _ hs hu) hx

end Certificates

section Rule
variable [DecidableEq ι] {Act : ι → σ → (op : Op) → Ans op → σ → Prop}
  {prog : ι → Prog Op Ans α} {view : σ → τ} {Rely : ι → σ → σ → Prop}
  {Spec : ι → τ → α → τ → Prop} {s₀ : σ}

/-- What the order built so far says about each thread. -/
def ThreadInv (Act : ι → σ → (op : Op) → Ans op → σ → Prop) (view : σ → τ)
    (Rely : ι → σ → σ → Prop) (Spec : ι → τ → α → τ → Prop) (s₀ s : σ)
    (order : List (ι × α)) (i : ι) : Thread Op Ans α → Prop
  | .idle => i ∉ order.map Prod.fst ∧ Rely i s₀ s
  | .running m =>
    (i ∉ order.map Prod.fst ∧ Ready Act view Rely Spec i m s) ∨
      ∃ a, (i, a) ∈ order ∧ Settled Act view Rely i a m s
  | .returned a => (i, a) ∈ order

/-- A serial order that explains a run. -/
structure Explains (Act : ι → σ → (op : Op) → Ans op → σ → Prop) (view : σ → τ)
    (Rely : ι → σ → σ → Prop) (Spec : ι → τ → α → τ → Prop) (s₀ : σ)
    (ls : List (Label ι α)) (c : Config ι σ Op Ans α) (order : List (ι × α)) : Prop where
  nodup : (order.map Prod.fst).Nodup
  serial : Serial Spec (view s₀) order (view c.shared)
  threads : ∀ i, ThreadInv Act view Rely Spec s₀ c.shared order i (c.thread i)
  responded : ∀ i a, .respond i a ∈ ls ↔ c.thread i = .returned a
  invoked : ∀ i, .invoke i ∈ ls ↔ c.thread i ≠ .idle
  precedes : ∀ i j, Precedes ls i j →
    i ∈ order.map Prod.fst ∧ (j ∈ order.map Prod.fst → [i, j].Sublist (order.map Prod.fst))

omit [DecidableEq ι] in
theorem precedes_snoc {ls : List (Label ι α)} {l : Label ι α} {i j : ι}
    (h : Precedes (ls ++ [l]) i j) :
    Precedes ls i j ∨ (l = .invoke j ∧ ∃ a, .respond i a ∈ ls) := by
  obtain ⟨u, v, a, hls, hu, hv⟩ := h
  obtain rfl | ⟨v', b, rfl⟩ := v.eq_nil_or_concat
  · cases hv
  · rw [List.concat_eq_append, ← List.append_assoc] at hls
    obtain ⟨hls, hb⟩ := List.append_inj' hls rfl
    simp only [List.cons.injEq, and_true] at hb
    rw [List.concat_eq_append, List.mem_append, List.mem_singleton] at hv
    obtain hv | hv := hv
    · exact .inl ⟨u, v', a, hls, hu, hv⟩
    · exact .inr ⟨hb.trans hv.symm, a, hls ▸ List.mem_append_left v' hu⟩

omit [DecidableEq ι] in
/-- Steps of others and longer orders keep what is known about a thread. -/
theorem ThreadInv.keep {Act : ι → σ → (op : Op) → Ans op → σ → Prop} (hI : Interference Act Rely)
    {s s' : σ} {order order' : List (ι × α)} {i : ι} {th : Thread Op Ans α}
    (h : ThreadInv Act view Rely Spec s₀ s order i th) (hs : Rely i s s')
    (hsub : order ⊆ order') (hnew : i ∈ order'.map Prod.fst → i ∈ order.map Prod.fst) :
    ThreadInv Act view Rely Spec s₀ s' order' i th := by
  cases th with
  | idle => exact ⟨fun hm => h.1 (hnew hm), hI.trans i _ _ _ h.2 hs⟩
  | running m =>
    obtain ⟨hi, hm⟩ | ⟨a, ha, hm⟩ := h
    · exact .inl ⟨fun hm' => hi (hnew hm'), hm.mono hI hs⟩
    · exact .inr ⟨a, hsub ha, hm.mono hI hs⟩
  | returned a => exact hsub h

section Steps
variable {ls : List (Label ι α)} {c : Config ι σ Op Ans α} {order : List (ι × α)} {j : ι}
  (hE : Explains Act view Rely Spec s₀ ls c order)
include hE

theorem Explains.invoke (hI : Interference Act Rely) (hready : Ready Act view Rely Spec j (prog j) s₀)
    (hj : c.thread j = .idle) :
    Explains Act view Rely Spec s₀ (ls ++ [.invoke j])
      ⟨c.shared, Function.update c.thread j (.running (prog j))⟩ order := by
  have hidle := hE.threads j
  rw [hj] at hidle
  refine ⟨hE.nodup, hE.serial, ?_, ?_, ?_, ?_⟩
  · intro i
    by_cases hi : i = j
    · subst hi
      simp only [Function.update_self]
      exact .inl ⟨hidle.1, hready.mono hI hidle.2⟩
    · simp only [Function.update_of_ne hi]
      exact hE.threads i
  · intro i a
    have hr := hE.responded i a
    by_cases hi : i = j
    · subst hi
      simpa [hj] using hr
    · simpa [Function.update_of_ne hi] using hr
  · intro i
    have hv := hE.invoked i
    by_cases hi : i = j
    · subst hi
      simp
    · simpa [Function.update_of_ne hi, hi] using hv
  · intro i k hp
    obtain hp | ⟨hl, a, ha⟩ := precedes_snoc hp
    · exact hE.precedes i k hp
    · cases hl
      have hret := hE.threads i
      rw [(hE.responded i a).mp ha] at hret
      exact ⟨List.mem_map.mpr ⟨_, hret, rfl⟩, fun hk => absurd hk hidle.1⟩

theorem Explains.respond {a : α} (hj : c.thread j = .running (.done a)) :
    Explains Act view Rely Spec s₀ (ls ++ [.respond j a])
      ⟨c.shared, Function.update c.thread j (.returned a)⟩ order := by
  have hmem : (j, a) ∈ order := by
    have hrun := hE.threads j
    rw [hj] at hrun
    obtain ⟨-, hm⟩ | ⟨b, hb, hm⟩ := hrun
    · exact hm.elim
    · have hab : a = b := hm
      exact hab ▸ hb
  refine ⟨hE.nodup, hE.serial, ?_, ?_, ?_, ?_⟩
  · intro i
    by_cases hi : i = j
    · subst hi
      simp only [Function.update_self]
      exact hmem
    · simp only [Function.update_of_ne hi]
      exact hE.threads i
  · intro i b
    have hr := hE.responded i b
    by_cases hi : i = j
    · subst hi
      simp [hr, hj, eq_comm]
    · simp [hi, hr]
  · intro i
    have hv := hE.invoked i
    by_cases hi : i = j
    · subst hi
      simp [hv, hj]
    · simp [Function.update_of_ne hi, hv]
  · intro i k hp
    obtain hp | ⟨hl, -⟩ := precedes_snoc hp
    · exact hE.precedes i k hp
    · cases hl

/-- A step of thread `j` that keeps the labels of the others' threads and of responses. -/
theorem Explains.act {s' : σ} {m m' : Prog Op Ans α} {order' : List (ι × α)}
    (hI : Interference Act Rely) (hj : c.thread j = .running m)
    (hrely : ∀ i, i ≠ j → Rely i c.shared s')
    (hnodup : (order'.map Prod.fst).Nodup)
    (hserial : Serial Spec (view s₀) order' (view s'))
    (hthread : ThreadInv Act view Rely Spec s₀ s' order' j (.running m'))
    (hsub : order.Sublist order')
    (hnew : ∀ i, i ≠ j → i ∈ order'.map Prod.fst → i ∈ order.map Prod.fst)
    (hlast : ∀ i, i ∈ order.map Prod.fst → j ∈ order'.map Prod.fst →
      j ∈ order.map Prod.fst ∨ [i, j].Sublist (order'.map Prod.fst)) :
    Explains Act view Rely Spec s₀ (ls ++ [.act j])
      ⟨s', Function.update c.thread j (.running m')⟩ order' := by
  refine ⟨hnodup, hserial, ?_, ?_, ?_, ?_⟩
  · intro i
    by_cases hi : i = j
    · subst hi
      simp only [Function.update_self]
      exact hthread
    · simp only [Function.update_of_ne hi]
      exact (hE.threads i).keep hI (hrely i hi) hsub.subset (hnew i hi)
  · intro i a
    have hr := hE.responded i a
    by_cases hi : i = j
    · subst hi
      simpa [hj] using hr
    · simpa [Function.update_of_ne hi] using hr
  · intro i
    have hv := hE.invoked i
    by_cases hi : i = j
    · subst hi
      simpa [hj] using hv
    · simpa [Function.update_of_ne hi] using hv
  · intro i k hp
    obtain hp | ⟨hl, -⟩ := precedes_snoc hp
    · obtain ⟨hi, hk⟩ := hE.precedes i k hp
      have hmap : (order.map Prod.fst).Sublist (order'.map Prod.fst) := hsub.map Prod.fst
      refine ⟨hmap.subset hi, fun hk' => ?_⟩
      by_cases hkj : k = j
      · subst hkj
        obtain hold | hpair := hlast i hi hk'
        · exact (hk hold).trans hmap
        · exact hpair
      · exact (hk (hnew k hkj hk')).trans hmap
    · cases hl

/-- One step of the system keeps a run explained. -/
theorem Explains.step (hI : Interference Act Rely)
    (hready : ∀ i, Ready Act view Rely Spec i (prog i) s₀) {l : Label ι α}
    {c' : Config ι σ Op Ans α} (hstep : Step Act prog c l c') :
    ∃ order', Explains Act view Rely Spec s₀ (ls ++ [l]) c' order' := by
  cases hstep with
  | invoke hj => exact ⟨order, hE.invoke hI (hready _) hj⟩
  | respond hj => exact ⟨order, hE.respond hj⟩
  | @act i op next x s' hj ha =>
    have hrely : ∀ k, k ≠ i → Rely k c.shared s' :=
      fun k hk => hI.others k i _ _ _ _ (Ne.symm hk) ha
    have hrun := hE.threads i
    rw [hj] at hrun
    obtain ⟨hnot, hm⟩ | ⟨a, hmem, hm⟩ := hrun
    · obtain ⟨a, hspec, hset⟩ | ⟨hview, hm'⟩ := hm _ x s' (hI.refl i _) ha
      · have hkeys : (order ++ [(i, a)]).map Prod.fst = order.map Prod.fst ++ [i] := by simp
        refine ⟨order ++ [(i, a)], hE.act hI hj hrely ?_ (hE.serial.snoc hspec) ?_
          (List.sublist_append_left _ _) ?_ ?_⟩
        · rw [hkeys]
          refine List.nodup_append.mpr ⟨hE.nodup, by simp, ?_⟩
          intro k hk k' hk' he
          rw [List.mem_singleton] at hk'
          exact hnot (hk' ▸ he ▸ hk)
        · exact .inr ⟨a, by simp, hset⟩
        · intro k hk hk'
          rw [hkeys, List.mem_append, List.mem_singleton] at hk'
          exact hk'.resolve_right hk
        · intro k hk _
          rw [hkeys]
          exact .inr ((List.singleton_sublist.mpr hk).append (List.Sublist.refl [i]))
      · refine ⟨order, hE.act hI hj hrely hE.nodup ?_ (.inl ⟨hnot, hm'⟩) (List.Sublist.refl _)
          (fun _ _ h => h) (fun _ _ h => .inl h)⟩
        rw [hview]
        exact hE.serial
    · obtain ⟨hview, hm'⟩ := hm _ x s' (hI.refl i _) ha
      refine ⟨order, hE.act hI hj hrely hE.nodup ?_ (.inr ⟨a, hmem, hm'⟩) (List.Sublist.refl _)
        (fun _ _ h => h) (fun _ _ h => .inl h)⟩
      rw [hview]
      exact hE.serial

end Steps

theorem explains_run (hI : Interference Act Rely)
    (hready : ∀ i, Ready Act view Rely Spec i (prog i) s₀) {ls : List (Label ι α)}
    {c : Config ι σ Op Ans α} (hrun : Run Act prog (.start s₀) ls c) :
    ∃ order, Explains Act view Rely Spec s₀ ls c order := by
  induction hrun with
  | nil =>
    refine ⟨[], by simp, .nil, ?_, ?_, ?_, ?_⟩
    · exact fun i => ⟨by simp, hI.refl i s₀⟩
    · simp [Config.start]
    · simp [Config.start]
    · rintro i j ⟨u, v, a, hls, hu, _⟩
      rw [List.nil_eq, List.append_eq_nil_iff] at hls
      simp [hls.1] at hu
  | snoc _ hl ih =>
    obtain ⟨order, hE⟩ := ih
    exact hE.step hI hready hl

omit [DecidableEq ι] in
/-- What has been answered is in the order. -/
theorem Explains.mem_of_returned {ls : List (Label ι α)} {c : Config ι σ Op Ans α}
    {order : List (ι × α)} (hE : Explains Act view Rely Spec s₀ ls c order) {i : ι} {a : α}
    (h : c.thread i = .returned a) : (i, a) ∈ order := by
  have ht := hE.threads i
  rwa [h] at ht

/-- Whatever moment a run is looked at in, its view is that of a serial order with all
responses given by then, and with whole threads of those begun by then. -/
theorem linearizable_cut (hI : Interference Act Rely)
    (hready : ∀ i, Ready Act view Rely Spec i (prog i) s₀) {ls : List (Label ι α)}
    {c : Config ι σ Op Ans α} (hrun : Run Act prog (.start s₀) ls c) :
    ∃ order : List (ι × α), (order.map Prod.fst).Nodup ∧
      (∀ i a, .respond i a ∈ ls → (i, a) ∈ order) ∧
      (∀ i ∈ order.map Prod.fst, .invoke i ∈ ls) ∧
      (∀ i j, Precedes ls i j → j ∈ order.map Prod.fst → [i, j].Sublist (order.map Prod.fst)) ∧
      Serial Spec (view s₀) order (view c.shared) := by
  obtain ⟨order, hE⟩ := explains_run hI hready hrun
  refine ⟨order, hE.nodup, ?_, ?_, fun i j hp => (hE.precedes i j hp).2, hE.serial⟩
  · intro i a ha
    exact hE.mem_of_returned ((hE.responded i a).mp ha)
  · intro i hi
    refine (hE.invoked i).mpr fun hth => ?_
    have ht := hE.threads i
    rw [hth] at ht
    exact ht.1 hi

/-- A finished run has a serial order with the same responses and the same view, that
keeps the order of threads that did not overlap. -/
theorem linearizable (hI : Interference Act Rely)
    (hready : ∀ i, Ready Act view Rely Spec i (prog i) s₀) {ls : List (Label ι α)}
    {c : Config ι σ Op Ans α} (hrun : Run Act prog (.start s₀) ls c)
    (hdone : ∀ i m, c.thread i ≠ .running m) :
    ∃ order : List (ι × α), (order.map Prod.fst).Nodup ∧
      (∀ i a, (i, a) ∈ order ↔ .respond i a ∈ ls) ∧
      (∀ i, i ∈ order.map Prod.fst ↔ .invoke i ∈ ls) ∧
      (∀ i j, Precedes ls i j → [i, j].Sublist (order.map Prod.fst)) ∧
      Serial Spec (view s₀) order (view c.shared) := by
  obtain ⟨order, hE⟩ := explains_run hI hready hrun
  have hreturned : ∀ i, i ∈ order.map Prod.fst → ∃ a, c.thread i = .returned a := by
    intro i hi
    have ht := hE.threads i
    cases hth : c.thread i with
    | idle =>
      rw [hth] at ht
      exact absurd hi ht.1
    | running m => exact absurd hth (hdone i m)
    | returned a => exact ⟨a, rfl⟩
  have hinvoked : ∀ i, i ∈ order.map Prod.fst ↔ .invoke i ∈ ls := by
    intro i
    rw [hE.invoked i]
    constructor
    · intro hi h
      obtain ⟨a, ha⟩ := hreturned i hi
      rw [ha] at h
      cases h
    · intro h
      cases hth : c.thread i with
      | idle => exact absurd hth h
      | running m => exact absurd hth (hdone i m)
      | returned a => exact List.mem_map.mpr ⟨_, hE.mem_of_returned hth, rfl⟩
  refine ⟨order, hE.nodup, ?_, hinvoked, ?_, hE.serial⟩
  · intro i a
    rw [hE.responded i a]
    constructor
    · intro ha
      obtain ⟨b, hb⟩ := hreturned i (List.mem_map.mpr ⟨_, ha, rfl⟩)
      have hab := List.inj_on_of_nodup_map hE.nodup ha (hE.mem_of_returned hb) rfl
      rw [hb]
      cases hab
      rfl
    · exact hE.mem_of_returned
  · intro i j hp
    obtain ⟨-, hj⟩ := hE.precedes i j hp
    obtain ⟨u, v, a, hls, -, hv⟩ := hp
    exact hj ((hinvoked j).mpr (hls ▸ List.mem_append_right u hv))

end Rule

section Order
variable {β : Type} [DecidableEq β] {l u v : List β} {x y : β}

/-- Without repetitions a list has its elements in one order only. -/
theorem not_sublist_swap (hn : l.Nodup) (h : [x, y].Sublist l) : ¬ [y, x].Sublist l := by
  intro h'
  have hp : l.Pairwise fun a b => l.idxOf a < l.idxOf b := by
    rw [List.pairwise_iff_getElem]
    intro i j hi hj hij
    rwa [hn.idxOf_getElem, hn.idxOf_getElem]
  have hxy := List.rel_of_pairwise_cons (hp.sublist h) List.mem_cons_self
  have hyx := List.rel_of_pairwise_cons (hp.sublist h') List.mem_cons_self
  omega

omit [DecidableEq β] in
theorem ne_of_sublist (hn : l.Nodup) (h : [x, y].Sublist l) : x ≠ y := by
  have hpair := hn.sublist h
  simpa using hpair

omit [DecidableEq β] in
theorem sublist_of_mem (u : List β) (hy : y ∈ v) : [x, y].Sublist (u ++ x :: v) :=
  ((List.singleton_sublist.mpr hy).cons_cons x).trans (List.sublist_append_right u _)

omit [DecidableEq β] in
theorem sublist_of_mem_left (v : List β) (hx : x ∈ u) : [x, y].Sublist (u ++ y :: v) :=
  (List.singleton_sublist.mpr hx).append (List.singleton_sublist.mpr List.mem_cons_self)

variable {order : List (β × α)} {i j : β} {a b : α}

/-- Two requests in their order, with what stands before, between and after them. -/
theorem split_order (hn : (order.map Prod.fst).Nodup) (hi : (i, a) ∈ order)
    (hj : (j, b) ∈ order) (hij : [i, j].Sublist (order.map Prod.fst)) :
    ∃ u v w, order = u ++ (i, a) :: (v ++ (j, b) :: w) := by
  obtain ⟨u, rest, rfl⟩ := List.append_of_mem hi
  have hkeys : (u ++ (i, a) :: rest).map Prod.fst =
      u.map Prod.fst ++ i :: rest.map Prod.fst := by simp
  rw [hkeys] at hn hij
  obtain hj | hj := List.mem_append.mp hj
  · have hju : j ∈ u.map Prod.fst := List.mem_map.mpr ⟨_, hj, rfl⟩
    have hji := sublist_of_mem_left (y := i) (rest.map Prod.fst) hju
    exact absurd hji (not_sublist_swap hn hij)
  · obtain he | hj := List.mem_cons.mp hj
    · exact absurd (congrArg Prod.fst he).symm (ne_of_sublist hn hij)
    · obtain ⟨v, w, rfl⟩ := List.append_of_mem hj
      exact ⟨u, v, w, rfl⟩

/-- In an order each request is counted once. -/
theorem countP_eq_ncard (hn : (order.map Prod.fst).Nodup) (P : β × α → Bool) :
    order.countP P = {i | ∃ a, (i, a) ∈ order ∧ P (i, a)}.ncard := by
  have hkeys : ((order.filter P).map Prod.fst).Nodup := hn.sublist (List.filter_sublist.map _)
  have hset : {i | ∃ a, (i, a) ∈ order ∧ P (i, a)} =
      (((order.filter P).map Prod.fst).toFinset : Set β) := by
    ext i
    simp
  rw [hset, Set.ncard_coe_finset, List.toFinset_card_of_nodup hkeys, List.length_map,
    List.countP_eq_length_filter]

end Order
end Linearization
