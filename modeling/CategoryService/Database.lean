import CategoryService.Core
import CategoryService.Library.Interaction
import CategoryService.Library.KeyedStore

/-! The `category` table of migrations.xml and the operations Hibernate runs
against it. -/
namespace CategoryService
open KeyedStore Interaction
variable {τ : Type} [DecidableEq τ]

/-- A value of the column `name varchar(255) not null`. -/
def NameColumn : Type := { s : JString // javaLength s ≤ 255 }

instance : DecidableEq NameColumn := inferInstanceAs (DecidableEq (Subtype _))

/-- Rows by primary key; a row is listed where its insert put it. -/
abbrev Table := Rows Integer NameColumn

def toColumn (name : Option JString) : Except Throwable NameColumn :=
  match name with
  | none => .error .constraintViolation
  | some s => if h : javaLength s ≤ 255 then .ok ⟨s, h⟩ else .error .dataException

theorem toColumn_val (n : NameColumn) : toColumn (some n.val) = .ok n := by
  simp only [toColumn, dif_pos n.property]
  rfl

theorem toColumn_ok {name : Option JString} {n : NameColumn} (h : toColumn name = .ok n) :
    name = some n.val := by
  unfold toColumn at h
  split at h
  · cases h
  · split at h
    · cases h
      rfl
    · cases h

def toColumns : List (Integer × Option JString) → Except Throwable (List (Integer × NameColumn))
  | [] => .ok []
  | (id, name) :: us =>
    match toColumn name, toColumns us with
    | .ok n, .ok ns => .ok ((id, n) :: ns)
    | .error ex, _ | _, .error ex => .error ex

/-- What a session asks of the database. `commit` carries the updates of the flush. -/
inductive DbOp where
  | select (id : Integer)
  | selectAll
  | selectByName (name : JString)
  | insert (name : Option JString)
  | commit (updates : List (Integer × Option JString))
  | rollback

abbrev DbOp.Answer : DbOp → Type
  | .select _ => Option NameColumn
  | .selectAll | .selectByName _ => List (Σ _ : Integer, NameColumn)
  | .insert _ => Except Throwable Integer
  | .commit _ => Except Throwable Unit
  | .rollback => Unit

abbrev Database (τ : Type) := Store τ Integer NameColumn
abbrev DbProg := Prog DbOp DbOp.Answer

/-- One operation of transaction `tx`. Reads see committed rows; an insert takes
the offered id at once, and its row shows at the commit. -/
def act (offer : Integer) (tx : τ) (s : Database τ) : (op : DbOp) → op.Answer × Database τ
  | .select id => (s.rows.lookup id, s)
  | .selectAll => (s.rows.entries, s)
  | .selectByName name => (s.rows.entries.filter fun e => e.2.val = name, s)
  | .insert name =>
    match toColumn name with
    | .error ex => (.error ex, s)
    | .ok n =>
      if h : s.Unused offer then (.ok offer, s.insert tx offer n h)
      else (.error .identityExhausted, s)
  | .commit updates =>
    match toColumns updates with
    | .error ex => (.error ex, s.rollback tx)
    | .ok us =>
      match s.commit tx us with
      | some s' => (.ok (), s')
      | none => (.error .staleState, s.rollback tx)
  | .rollback => ((), s.rollback tx)

/-- The rows a commit of `tx` leaves, or why it fails. -/
def committedRows (tx : τ) (s : Database τ) (updates : List (Integer × Option JString)) :
    Except Throwable Table :=
  match toColumns updates with
  | .error ex => .error ex
  | .ok us =>
    match updateAll (addAll s.rows (own tx s.pending)) us with
    | some t => .ok t
    | none => .error .staleState

section Act
variable (offer : Integer) (tx : τ) (s : Database τ)

theorem act_commit_ok {updates : List (Integer × Option JString)} {t : Table}
    (h : committedRows tx s updates = .ok t) :
    (act offer tx s (.commit updates)).1 = .ok () ∧
      (act offer tx s (.commit updates)).2.rows = t ∧
      (act offer tx s (.commit updates)).2.pending = others tx s.pending := by
  unfold committedRows at h
  cases hc : toColumns updates with
  | error ex => simp [hc] at h
  | ok us =>
    cases hu : updateAll (addAll s.rows (own tx s.pending)) us with
    | none => simp [hc, hu] at h
    | some t' =>
      obtain ⟨s', hs, hrows, hpending⟩ := Store.commit_eq_some hu
      simp only [hc, hu, Except.ok.injEq] at h
      simp [act, hc, hs, hrows, hpending, h]

theorem act_commit_error {updates : List (Integer × Option JString)} {ex : Throwable}
    (h : committedRows tx s updates = .error ex) :
    act offer tx s (.commit updates) = (.error ex, s.rollback tx) := by
  unfold committedRows at h
  cases hc : toColumns updates with
  | error ex' =>
    simp only [hc, Except.error.injEq] at h
    simp [act, hc, h]
  | ok us =>
    cases hu : updateAll (addAll s.rows (own tx s.pending)) us with
    | none =>
      simp only [hc, hu, Except.error.injEq] at h
      simp [act, hc, Store.commit_eq_none hu, h]
    | some t' => simp [hc, hu] at h

theorem act_insert_ok {name : Option JString} {n : NameColumn} (hn : toColumn name = .ok n)
    (h : s.Unused offer) :
    act offer tx s (.insert name) = (.ok offer, s.insert tx offer n h) := by
  simp [act, hn, h]

theorem act_insert_refused {name : Option JString} {ex : Throwable}
    (hn : toColumn name = .error ex) : act offer tx s (.insert name) = (.error ex, s) := by
  simp [act, hn]

theorem act_insert_exhausted {name : Option JString} {n : NameColumn}
    (hn : toColumn name = .ok n) (h : ¬ s.Unused offer) :
    act offer tx s (.insert name) = (.error .identityExhausted, s) := by
  simp [act, hn, h]

end Act

/-! What transactions see of each other. -/

def DbOp.Reads : DbOp → Prop
  | .select _ | .selectAll | .selectByName _ => True
  | _ => False

/-- The operations that end a transaction. -/
def DbOp.Ends : DbOp → Prop
  | .commit _ | .rollback => True
  | _ => False

section Views
variable {offer : Integer} {tx u : τ} {s : Database τ} {op : DbOp}

theorem act_reads (h : op.Reads) : (act offer tx s op).2 = s := by
  cases op <;> first | rfl | cases h

theorem committedRows_mono {updates : List (Integer × Option JString)} {t : Table}
    (h : committedRows tx s updates = .ok t) {k : Integer} (hk : k ∈ s.rows) : k ∈ t := by
  unfold committedRows at h
  split at h
  · cases h
  · split at h
    · rename_i us _ t' ht
      cases h
      rw [mem_updateAll ht, mem_addAll]
      exact .inr hk
    · cases h

/-- The rows a transaction may leave at its end. -/
theorem act_ends (h : op.Ends) :
    (act offer tx s op).2.pending = others tx s.pending ∧
      ∀ k ∈ s.rows, k ∈ (act offer tx s op).2.rows := by
  cases op with
  | commit updates =>
    cases hc : committedRows tx s updates with
    | ok t =>
      obtain ⟨-, hrows, hpending⟩ := act_commit_ok offer tx s hc
      refine ⟨hpending, fun k hk => ?_⟩
      rw [hrows]
      exact committedRows_mono hc hk
    | error ex =>
      rw [act_commit_error offer tx s hc]
      exact ⟨rfl, fun k hk => hk⟩
  | rollback => exact ⟨rfl, fun k hk => hk⟩
  | _ => cases h

theorem act_insert_cases (offer : Integer) (tx : τ) (s : Database τ) (name : Option JString) :
    (∃ ex, act offer tx s (.insert name) = (.error ex, s)) ∨
      ∃ n h, toColumn name = .ok n ∧
        act offer tx s (.insert name) = (.ok offer, s.insert tx offer n h) := by
  cases hn : toColumn name with
  | error ex => exact .inl ⟨ex, act_insert_refused offer tx s hn⟩
  | ok n =>
    by_cases h : s.Unused offer
    · exact .inr ⟨n, h, rfl, act_insert_ok offer tx s hn h⟩
    · exact .inl ⟨_, act_insert_exhausted offer tx s hn h⟩

theorem DbOp.cases (op : DbOp) : op.Reads ∨ op.Ends ∨ ∃ name, op = .insert name := by
  cases op <;> simp [DbOp.Reads, DbOp.Ends]

theorem act_rows_mono {k : Integer} (hk : k ∈ s.rows) : k ∈ (act offer tx s op).2.rows := by
  obtain h | h | ⟨name, rfl⟩ := op.cases
  · rwa [act_reads h]
  · exact (act_ends h).2 k hk
  · obtain ⟨ex, h⟩ | ⟨n, hu, -, h⟩ := act_insert_cases offer tx s name
    · rwa [h]
    · rwa [h]

/-- No operation touches the rows another transaction has inserted. -/
theorem act_own_ne (hu : u ≠ tx) : own u (act offer tx s op).2.pending = own u s.pending := by
  obtain h | h | ⟨name, rfl⟩ := op.cases
  · rw [act_reads h]
  · rw [(act_ends h).1, own_others hu]
  · obtain ⟨ex, h⟩ | ⟨n, hn, -, h⟩ := act_insert_cases offer tx s name
    · rw [h]
    · rw [h]
      exact (own_insert hn.2).trans (if_neg (Ne.symm hu))

section Congr
variable {τ' : Type} [DecidableEq τ'] {tx' : τ'} {d : Database τ'} (offer offer' : Integer)

theorem act_reads_congr (h : op.Reads) (hrows : s.rows = d.rows) :
    (act offer tx s op).1 = (act offer' tx' d op).1 := by
  cases op with
  | select id => simp only [act, hrows]
  | selectAll => simp only [act, hrows]
  | selectByName name => simp only [act, hrows]
  | _ => cases h

/-- The end of a transaction depends on the committed rows and on its own, not on
those of the others. -/
theorem act_ends_congr (h : op.Ends) (hrows : s.rows = d.rows)
    (hown : own tx s.pending = own tx' d.pending) :
    (act offer tx s op).1 = (act offer' tx' d op).1 ∧
      (act offer tx s op).2.rows = (act offer' tx' d op).2.rows := by
  cases op with
  | commit updates =>
    have hc : committedRows tx s updates = committedRows tx' d updates := by
      simp only [committedRows, hrows, hown]
    cases hd : committedRows tx' d updates with
    | ok t =>
      obtain ⟨h1, h2, -⟩ := act_commit_ok offer tx s (hc.trans hd)
      obtain ⟨h3, h4, -⟩ := act_commit_ok offer' tx' d hd
      exact ⟨h1.trans h3.symm, h2.trans h4.symm⟩
    | error ex =>
      rw [act_commit_error offer tx s (hc.trans hd), act_commit_error offer' tx' d hd]
      exact ⟨rfl, hrows⟩
  | rollback => exact ⟨rfl, hrows⟩
  | _ => cases h

end Congr

/-- Writing the name a row already has is the empty flush. -/
theorem act_commit_same {id : Integer} {n : NameColumn} (hs : s.rows.lookup id = some n)
    (hown : own tx s.pending = []) :
    act offer tx s (.commit [(id, some n.val)]) = act offer tx s (.commit []) := by
  have hrows (us : List (Integer × Option JString)) (h : us = [(id, some n.val)] ∨ us = []) :
      committedRows tx s us = .ok s.rows := by
    obtain rfl | rfl := h
    · simp [committedRows, toColumns, toColumn_val, hown, addAll, updateAll, mem_of_lookup hs,
        replace_eq_self hs]
    · simp [committedRows, toColumns, hown, addAll, updateAll]
  obtain ⟨h1, h2, h3⟩ := act_commit_ok offer tx s (hrows _ (.inl rfl))
  obtain ⟨h4, h5, h6⟩ := act_commit_ok offer tx s (hrows _ (.inr rfl))
  exact Prod.ext (h1.trans h4.symm) (Store.ext (h2.trans h5.symm) (h3.trans h6.symm))

/-- A transaction with nothing to write ends without a trace. -/
theorem act_ends_empty (offer : Integer) (hown : own tx s.pending = []) :
    act offer tx s .rollback = ((), s) ∧ act offer tx s (.commit []) = (.ok (), s) := by
  have hc : committedRows tx s [] = .ok s.rows := by
    simp [committedRows, toColumns, hown, addAll, updateAll]
  obtain ⟨h1, h2, h3⟩ := act_commit_ok offer tx s hc
  refine ⟨congrArg (Prod.mk ()) (Store.rollback_eq_self hown), Prod.ext h1 ?_⟩
  exact Store.ext h2 (h3.trans (others_eq_self hown))

end Views

end CategoryService
