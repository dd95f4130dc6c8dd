import Mathlib.Data.List.Induction
import CategoryService.Library.Register

/-! Logs of writes. The last entry of a key decides, and a key without an entry keeps
what it had. -/
namespace Register
open KeyedStore
variable {κ ν : Type} [DecidableEq κ]

abbrev Log (κ ν : Type) := List (κ × ν)

def replay (r : κ → Option ν) (log : Log κ ν) : κ → Option ν :=
  log.foldl (fun r e => Function.update r e.1 (some e.2)) r

/-- The latest value the log has for a key. -/
def lastOf (k : κ) (log : Log κ ν) : Option ν :=
  ((log.filter fun e => e.1 = k).getLast?).map Prod.snd

theorem replay_append (r : κ → Option ν) (u v : Log κ ν) :
    replay r (u ++ v) = replay (replay r u) v :=
  List.foldl_append

theorem lastOf_append (k : κ) (u v : Log κ ν) :
    lastOf k (u ++ v) = (lastOf k v).or (lastOf k u) := by
  simp only [lastOf, List.filter_append, List.getLast?_append, Option.map_or]

theorem lastOf_singleton (k j : κ) (v : ν) :
    lastOf k [(j, v)] = if j = k then some v else none := by
  by_cases h : j = k <;> simp [lastOf, h]

theorem replay_apply (r : κ → Option ν) (log : Log κ ν) (k : κ) :
    replay r log k = (lastOf k log).or (r k) := by
  induction log using List.reverseRecOn with
  | nil => rfl
  | append_singleton log e ih =>
    obtain ⟨j, v⟩ := e
    rw [replay_append, lastOf_append, lastOf_singleton]
    change Function.update (replay r log) j (some v) k = _
    by_cases hj : j = k
    · subst hj
      simp
    · simp [Function.update_of_ne (Ne.symm hj), hj, ih]

/-- A table with the rows of a log set; entries of missing rows are dropped. -/
def replaceAll (t : Rows κ ν) (log : Log κ ν) : Rows κ ν :=
  log.foldl (fun t e => t.replace e.1 e.2) t

theorem keys_replaceAll (t : Rows κ ν) (log : Log κ ν) : (replaceAll t log).keys = t.keys := by
  induction log generalizing t with
  | nil => rfl
  | cons e log ih => exact (ih _).trans (AList.keys_replace e.1 e.2 t)

theorem mem_replaceAll {t : Rows κ ν} {k : κ} {log : Log κ ν} :
    k ∈ replaceAll t log ↔ k ∈ t := by
  rw [AList.mem_keys, keys_replaceAll, ← AList.mem_keys]

theorem lookup_replaceAll {t : Rows κ ν} {k : κ} (hk : k ∈ t) (log : Log κ ν) :
    (replaceAll t log).lookup k = (lastOf k log).or (t.lookup k) := by
  induction log using List.reverseRecOn with
  | nil => rfl
  | append_singleton log e ih =>
    obtain ⟨j, v⟩ := e
    have hlast : replaceAll t (log ++ [(j, v)]) = (replaceAll t log).replace j v :=
      List.foldl_append
    have hmem : k ∈ replaceAll t log := mem_replaceAll.mpr hk
    rw [hlast, lastOf_append, lastOf_singleton]
    by_cases hj : j = k
    · subst hj
      simp [lookup_replace_self hmem]
    · rw [lookup_replace_ne (Ne.symm hj), ih]
      simp [hj]

/-- Tables with the same keys in the same order are told apart by a row. -/
theorem rows_ext {t t' : Rows κ ν} (hkeys : t.keys = t'.keys)
    (hrows : ∀ k ∈ t, t.lookup k = t'.lookup k) : t = t' := by
  apply AList.ext
  have hentries (l l' : List (Σ _ : κ, ν)) (hl : l.NodupKeys) (hl' : l'.NodupKeys)
      (hk : l.keys = l'.keys) (h : ∀ k ∈ l.keys, l.dlookup k = l'.dlookup k) : l = l' := by
    induction l generalizing l' with
    | nil =>
      cases l' with
      | nil => rfl
      | cons e l' => cases hk
    | cons e l ih =>
      cases l' with
      | nil => cases hk
      | cons e' l' =>
        obtain ⟨k, v⟩ := e
        obtain ⟨k', v'⟩ := e'
        obtain ⟨rfl, hks⟩ := List.cons.inj hk
        obtain ⟨hnot, hrest⟩ := List.nodupKeys_cons.mp hl
        have hrest' := (List.nodupKeys_cons.mp hl').2
        have hv : v = v' := by simpa using h k List.mem_cons_self
        subst hv
        refine congrArg _ (ih l' hrest hrest' hks fun j hj => ?_)
        have hne : j ≠ k := by
          rintro rfl
          exact hnot hj
        have hdl := h j (List.mem_cons_of_mem _ hj)
        rwa [List.dlookup_cons_ne _ _ hne, List.dlookup_cons_ne _ _ hne] at hdl
  exact hentries _ _ t.nodupKeys t'.nodupKeys hkeys hrows

/-- Two logs leave the same rows exactly if they end each row the same way. -/
theorem replaceAll_eq_iff (t : Rows κ ν) (log log' : Log κ ν) :
    replaceAll t log = replaceAll t log' ↔
      ∀ k ∈ t, (lastOf k log).or (t.lookup k) = (lastOf k log').or (t.lookup k) := by
  constructor
  · intro h k hk
    rw [← lookup_replaceAll hk, ← lookup_replaceAll hk, h]
  · intro h
    refine rows_ext ?_ fun k hk => ?_
    · rw [keys_replaceAll, keys_replaceAll]
    · have hkt := mem_replaceAll.mp hk
      rw [lookup_replaceAll hkt, lookup_replaceAll hkt, h k hkt]

end Register
