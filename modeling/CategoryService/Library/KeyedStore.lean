import Mathlib.Data.List.AList

/-! Tables of rows under unique keys, and a store in which transactions insert
rows that only their commit makes visible. Keys, values and transactions are
arbitrary types. -/
namespace KeyedStore
variable {κ ν τ : Type} [DecidableEq κ] [DecidableEq τ]

abbrev Rows (κ ν : Type) := AList fun _ : κ => ν

theorem kreplace_cons (k : κ) (v : ν) (e : Σ _ : κ, ν) (l : List (Σ _ : κ, ν)) :
    List.kreplace k v (e :: l) = if k = e.1 then ⟨k, v⟩ :: l else e :: List.kreplace k v l := by
  by_cases h : k = e.1
  · simp only [List.kreplace, if_pos h]
    exact List.lookmap_cons_some _ _ (if_pos h)
  · simp only [List.kreplace, if_neg h]
    exact List.lookmap_cons_none _ _ (if_neg h)

theorem dlookup_kreplace (k j : κ) (v : ν) (l : List (Σ _ : κ, ν)) :
    (List.kreplace k v l).dlookup j =
      if j = k ∧ k ∈ l.keys then some v else l.dlookup j := by
  induction l with
  | nil => simp [List.kreplace]
  | cons e l ih =>
    obtain ⟨i, w⟩ := e
    rw [kreplace_cons]
    by_cases hk : k = i
    · subst hk
      by_cases hj : j = k
      · subst hj
        simp
      · simp [hj, List.dlookup_cons_ne]
    · by_cases hi : j = i
      · subst hi
        simp [hk, Ne.symm hk]
      · simp [hk, hi, List.dlookup_cons_ne, ih]

theorem lookup_replace_self {k : κ} {v : ν} {t : Rows κ ν} (h : k ∈ t) :
    (t.replace k v).lookup k = some v :=
  (dlookup_kreplace k k v t.entries).trans (if_pos ⟨rfl, h⟩)

theorem lookup_replace_ne {k j : κ} {v : ν} {t : Rows κ ν} (h : j ≠ k) :
    (t.replace k v).lookup j = t.lookup j :=
  (dlookup_kreplace k j v t.entries).trans (if_neg fun hj => h hj.1)

/-- Writing the value a row already has changes nothing, not even the order. -/
theorem replace_eq_self {k : κ} {v : ν} {t : Rows κ ν} (h : t.lookup k = some v) :
    t.replace k v = t := by
  apply AList.ext
  exact List.kreplace_self t.nodupKeys (AList.mem_lookup_iff.mp h)

theorem mem_of_lookup {k : κ} {v : ν} {t : Rows κ ν} (h : t.lookup k = some v) : k ∈ t := by
  rw [← AList.lookup_isSome, h]
  rfl

theorem exists_lookup {k : κ} {t : Rows κ ν} (h : k ∈ t) : ∃ v, t.lookup k = some v :=
  Option.isSome_iff_exists.mp (AList.lookup_isSome.mpr h)

theorem mem_entries_iff {k : κ} {v : ν} {t : Rows κ ν} :
    (⟨k, v⟩ : Σ _ : κ, ν) ∈ t.entries ↔ t.lookup k = some v :=
  AList.mem_lookup_iff.symm

/-- Row updates one after the other; a missing row fails them all. -/
def updateAll : Rows κ ν → List (κ × ν) → Option (Rows κ ν)
  | t, [] => some t
  | t, (k, v) :: us => if k ∈ t then updateAll (t.replace k v) us else none

theorem mem_updateAll {t t' : Rows κ ν} {us : List (κ × ν)} (h : updateAll t us = some t')
    (k : κ) : k ∈ t' ↔ k ∈ t := by
  induction us generalizing t with
  | nil => simp_all [updateAll]
  | cons u us ih =>
    obtain ⟨j, v⟩ := u
    by_cases hj : j ∈ t
    · rw [updateAll, if_pos hj] at h
      rw [ih h, AList.mem_replace]
    · simp [updateAll, hj] at h

/-- Committed rows, and the rows of transactions still running under the keys
they were given. No key stands on both sides. -/
@[ext]
structure Store (τ κ ν : Type) [DecidableEq κ] where
  rows : Rows κ ν
  pending : Rows κ (τ × ν)
  disjoint : ∀ k ∈ pending, k ∉ rows

/-- A store no transaction is running on. -/
def Store.idle (t : Rows κ ν) : Store τ κ ν := ⟨t, ∅, by simp⟩

def Store.Unused (s : Store τ κ ν) (k : κ) : Prop := k ∉ s.rows ∧ k ∉ s.pending

instance (s : Store τ κ ν) (k : κ) : Decidable (s.Unused k) :=
  inferInstanceAs (Decidable (_ ∧ _))

def Store.insert (s : Store τ κ ν) (tx : τ) (k : κ) (v : ν) (h : s.Unused k) : Store τ κ ν where
  rows := s.rows
  pending := s.pending.insert k (tx, v)
  disjoint := by
    intro j hj
    rcases (AList.mem_insert s.pending).mp hj with rfl | hj
    · exact h.1
    · exact s.disjoint j hj

/-- The rows a transaction has inserted. -/
def own (tx : τ) (pending : Rows κ (τ × ν)) : List (Σ _ : κ, ν) :=
  pending.entries.filterMap fun e => if e.2.1 = tx then some ⟨e.1, e.2.2⟩ else none

def others (tx : τ) (pending : Rows κ (τ × ν)) : Rows κ (τ × ν) :=
  ⟨pending.entries.filter fun e => e.2.1 ≠ tx,
    List.NodupKeys.sublist List.filter_sublist pending.nodupKeys⟩

theorem mem_own {tx : τ} {pending : Rows κ (τ × ν)} {k : κ} {v : ν} :
    ⟨k, v⟩ ∈ own tx pending ↔ pending.lookup k = some (tx, v) := by
  rw [← mem_entries_iff, own, List.mem_filterMap]
  constructor
  · rintro ⟨⟨j, u, w⟩, hmem, he⟩
    by_cases hu : u = tx
    · simp only [if_pos hu, Option.some.injEq, Sigma.mk.injEq, heq_eq_eq] at he
      obtain ⟨rfl, rfl⟩ := he
      rwa [← hu]
    · simp [if_neg hu] at he
  · intro hmem
    exact ⟨_, hmem, by simp⟩

theorem mem_others {tx : τ} {pending : Rows κ (τ × ν)} {k : κ} :
    k ∈ others tx pending ↔ ∃ u v, pending.lookup k = some (u, v) ∧ u ≠ tx := by
  rw [others, AList.mem_mk, List.mem_keys]
  constructor
  · rintro ⟨⟨u, v⟩, hmem⟩
    obtain ⟨hmem, hu⟩ := List.mem_filter.mp hmem
    exact ⟨u, v, mem_entries_iff.mp hmem, by simpa using hu⟩
  · rintro ⟨u, v, hl, hu⟩
    exact ⟨(u, v), List.mem_filter.mpr ⟨mem_entries_iff.mpr hl, by simpa using hu⟩⟩

/-- A pending row is one's own or another's, and not both. -/
theorem mem_others_iff {tx : τ} {pending : Rows κ (τ × ν)} {k : κ} :
    k ∈ others tx pending ↔ k ∈ pending ∧ ∀ v, ⟨k, v⟩ ∉ own tx pending := by
  rw [mem_others]
  constructor
  · rintro ⟨u, v, hl, hu⟩
    refine ⟨mem_of_lookup hl, fun w hw => hu ?_⟩
    have he := hl.symm.trans (mem_own.mp hw)
    simp only [Option.some.injEq, Prod.mk.injEq] at he
    exact he.1
  · rintro ⟨hk, hown⟩
    obtain ⟨⟨u, v⟩, hl⟩ := exists_lookup hk
    refine ⟨u, v, hl, fun hu => hown v (mem_own.mpr ?_)⟩
    rw [hl, hu]

omit [DecidableEq κ] in
theorem own_others {tx u : τ} (h : u ≠ tx) (pending : Rows κ (τ × ν)) :
    own u (others tx pending) = own u pending := by
  simp only [own, others, List.filterMap_filter]
  apply List.filterMap_congr
  rintro ⟨k, w, v⟩ _
  by_cases hw : w = u
  · subst hw
    simp [h]
  · simp [hw]

omit [DecidableEq κ] in
theorem own_others_self (tx : τ) (pending : Rows κ (τ × ν)) : own tx (others tx pending) = [] := by
  simp only [own, others, List.filterMap_filter]
  refine List.filterMap_eq_nil_iff.mpr fun e _ => ?_
  by_cases he : e.2.1 = tx <;> simp [he]

theorem own_insert {tx u : τ} {k : κ} {v : ν} {pending : Rows κ (τ × ν)} (h : k ∉ pending) :
    own u (pending.insert k (tx, v)) =
      if tx = u then ⟨k, v⟩ :: own u pending else own u pending := by
  simp only [own, AList.entries_insert_of_notMem h, List.filterMap_cons]
  by_cases ht : tx = u <;> simp [ht]

omit [DecidableEq κ] in
/-- A transaction without rows of its own has none to hide from the others. -/
theorem others_eq_self {tx : τ} {pending : Rows κ (τ × ν)} (h : own tx pending = []) :
    others tx pending = pending := by
  apply AList.ext
  refine List.filter_eq_self.mpr fun e he => ?_
  have hne := List.filterMap_eq_nil_iff.mp h e he
  by_contra ht
  simp_all

theorem others_insert_self {tx : τ} {k : κ} {v : ν} :
    others tx ((∅ : Rows κ (τ × ν)).insert k (tx, v)) = ∅ := by
  apply AList.ext
  have h : ((∅ : Rows κ (τ × ν)).insert k (tx, v)).entries = [⟨k, (tx, v)⟩] :=
    AList.entries_insert_of_notMem (AList.notMem_empty k)
  simp only [others, h]
  simp

/-- The committed rows with a list of new ones put in. -/
def addAll (t : Rows κ ν) (new : List (Σ _ : κ, ν)) : Rows κ ν :=
  new.foldr (fun e t => t.insert e.1 e.2) t

theorem mem_addAll {t : Rows κ ν} {new : List (Σ _ : κ, ν)} {k : κ} :
    k ∈ addAll t new ↔ (∃ v, ⟨k, v⟩ ∈ new) ∨ k ∈ t := by
  induction new with
  | nil => simp [addAll]
  | cons e new ih =>
    obtain ⟨j, w⟩ := e
    change k ∈ (addAll t new).insert j w ↔ _
    rw [AList.mem_insert, ih]
    constructor
    · rintro (rfl | ⟨v, hv⟩ | ht)
      · exact .inl ⟨w, List.mem_cons_self⟩
      · exact .inl ⟨v, List.mem_cons_of_mem _ hv⟩
      · exact .inr ht
    · rintro (⟨v, hv⟩ | ht)
      · rcases List.mem_cons.mp hv with he | hv
        · exact .inl (congrArg Sigma.fst he)
        · exact .inr (.inl ⟨v, hv⟩)
      · exact .inr (.inr ht)

/-- Commit: the transaction's own rows become visible and its updates are applied,
all at once or not at all. -/
def Store.commit (s : Store τ κ ν) (tx : τ) (us : List (κ × ν)) : Option (Store τ κ ν) :=
  match h : updateAll (addAll s.rows (own tx s.pending)) us with
  | none => none
  | some t => some
    { rows := t
      pending := others tx s.pending
      disjoint := by
        intro k hk
        obtain ⟨u, v, hl, hu⟩ := mem_others.mp hk
        rw [mem_updateAll h, mem_addAll]
        rintro (⟨w, hw⟩ | hr)
        · have he := (mem_own.mp hw).symm.trans hl
          simp only [Option.some.injEq, Prod.mk.injEq] at he
          exact hu he.1.symm
        · exact s.disjoint k (mem_of_lookup hl) hr }

def Store.rollback (s : Store τ κ ν) (tx : τ) : Store τ κ ν where
  rows := s.rows
  pending := others tx s.pending
  disjoint := by
    intro k hk
    obtain ⟨u, v, hl, -⟩ := mem_others.mp hk
    exact s.disjoint k (mem_of_lookup hl)

theorem Store.rollback_eq_self {s : Store τ κ ν} {tx : τ} (h : own tx s.pending = []) :
    s.rollback tx = s :=
  Store.ext rfl (others_eq_self h)

theorem Store.commit_eq_none {s : Store τ κ ν} {tx : τ} {us : List (κ × ν)}
    (h : updateAll (addAll s.rows (own tx s.pending)) us = none) : s.commit tx us = none := by
  unfold Store.commit
  split
  · rfl
  · rename_i t ht
    rw [h] at ht
    cases ht

theorem Store.commit_eq_some {s : Store τ κ ν} {tx : τ} {us : List (κ × ν)} {t : Rows κ ν}
    (h : updateAll (addAll s.rows (own tx s.pending)) us = some t) :
    ∃ s', s.commit tx us = some s' ∧ s'.rows = t ∧ s'.pending = others tx s.pending := by
  unfold Store.commit
  split
  · rename_i hn
    rw [h] at hn
    cases hn
  · rename_i t' ht
    rw [h] at ht
    cases ht
    exact ⟨_, rfl, rfl, rfl⟩

end KeyedStore
