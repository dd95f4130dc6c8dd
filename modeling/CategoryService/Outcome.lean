import CategoryService.Service
import CategoryService.Library.Register

/-! What one request does when it runs alone: the response and the change of the
table, for every handler and every choice of failing steps. -/
namespace CategoryService
open Interaction KeyedStore Register

/-- None of the steps throws by itself. -/
def Env.passes (env : Env) (steps : List Step) : Prop := ∀ s ∈ steps, env.fails s = false

instance (env : Env) (steps : List Step) : Decidable (env.passes steps) :=
  inferInstanceAs (Decidable (∀ s ∈ steps, _))

@[simp] theorem passes_nil (env : Env) : env.passes [] := fun _ h => absurd h List.not_mem_nil

@[simp] theorem passes_cons (env : Env) (st : Step) (sts : List Step) :
    env.passes (st :: sts) ↔ env.fails st = false ∧ env.passes sts :=
  List.forall_mem_cons

@[simp] theorem passes_calm (offer : Integer) (steps : List Step) :
    (Env.calm offer).passes steps := fun _ _ => rfl

@[simp] theorem calm_fails (offer : Integer) (st : Step) : (Env.calm offer).fails st = false := rfl

/-- What the database makes of writing `c`: an insert where the id is null, else an
update; nothing where a constraint or a missing row refuses it. -/
def stored (t : Table) (offer : Integer) (c : Category) : Option (Change Integer NameColumn) :=
  match toColumn c.name with
  | .error _ => none
  | .ok n =>
    match c.id with
    | none => if offer ∈ t then none else some (.add offer n)
    | some id => if id ∈ t then some (.set id n) else none

/-- The entity once it is persistent. -/
def savedAs (offer : Integer) (c : Category) : Category :=
  { c with id := some (c.id.getD offer) }

theorem stored_fits {t : Table} {offer : Integer} {c : Category}
    {ch : Change Integer NameColumn} (h : stored t offer c = some ch) : ch.Fits t.lookup := by
  unfold stored at h
  cases hn : toColumn c.name with
  | error ex => simp [hn] at h
  | ok n =>
    cases hid : c.id with
    | none =>
      by_cases ho : offer ∈ t
      · simp [hn, hid, ho] at h
      · simp only [hn, hid, if_neg ho, Option.some.injEq] at h
        subst h
        exact AList.lookup_eq_none.mpr ho
    | some id =>
      by_cases hi : id ∈ t
      · simp only [hn, hid, if_pos hi, Option.some.injEq] at h
        subst h
        exact AList.lookup_isSome.mpr hi
      · simp [hn, hid, hi] at h

/-- An exception of a library or of the database, not one that carries a response. -/
def Throwable.Internal (ex : Throwable) : Prop := ex.toResponse = .serverError

theorem toColumn_internal {name : Option JString} {ex : Throwable}
    (h : toColumn name = .error ex) : ex.Internal := by
  unfold toColumn at h
  split at h
  · cases h
    rfl
  · split at h
    · cases h
    · cases h
      rfl

section Alone
variable (env : Env) (t : Table)

theorem runAlone_error {m : Tx Response} {ex : Throwable} {s : Session}
    (h : m.eval .new = .done (.error ex, s)) :
    runAlone env t (unitOfWork env m) = (ex.toResponse, t) := by
  rw [unitOfWork, h]
  rfl

theorem own_empty : own () (∅ : Rows Integer (Unit × NameColumn)) = [] := rfl

/-- The end of a unit of work over an undisturbed store. -/
theorem runFrom_finish (s : Database Unit) (r : Response) (session : Session) :
    runFrom env s (finish env (.ok r, session)) =
      if env.fails .flush then (.serverError, s.rows)
      else match committedRows () s session.updates with
        | .ok t' => (r, t')
        | .error ex => (ex.toResponse, s.rows) := by
  cases hf : env.fails .flush with
  | true =>
    simp only [finish, hf, if_true]
    rfl
  | false =>
    cases hc : committedRows () s session.updates with
    | ok t' =>
      obtain ⟨h1, h2, -⟩ := act_commit_ok env.offer () s hc
      simp [runFrom, finish, hf, h1, h2]
    | error ex =>
      have h := act_commit_error env.offer () s hc
      simp [runFrom, finish, hf, h]
      rfl

/-- The unit of work of a handler that has left the store alone. -/
def settled (x : Except Throwable Response) : Response × Table :=
  match x with
  | .error ex => (ex.toResponse, t)
  | .ok r => if env.fails .flush then (.serverError, t) else (r, t)

theorem runFrom_settled (x : Except Throwable Response) {session : Session}
    (h : session.updates = []) :
    runFrom env (Store.idle t) (finish env (x, session)) = settled env t x := by
  cases x with
  | error ex => rfl
  | ok r =>
    have hc : committedRows () (Store.idle t : Database Unit) session.updates = .ok t := by
      rw [h]
      rfl
    rw [runFrom_finish, hc]
    rfl

theorem runFrom_call (s : Database Unit) (op : DbOp) (next : op.Answer → DbProg Response) :
    runFrom env s (.call op next) =
      runFrom env (act env.offer () s op).2 (next (act env.offer () s op).1) := rfl

theorem committedRows_inserted {id : Integer} {n : NameColumn}
    (h : (Store.idle t : Database Unit).Unused id) :
    committedRows () ((Store.idle t).insert () id n h) [] = .ok (t.insert id n) := by
  have ho : own () ((Store.idle t).insert () id n h).pending = [⟨id, n⟩] := by
    simp only [Store.insert, Store.idle]
    rw [own_insert (by simp), if_pos rfl, own_empty]
  simp only [committedRows, toColumns, ho]
  rfl

theorem committedRows_update (id : Integer) (name : Option JString) :
    committedRows () (Store.idle t : Database Unit) [(id, name)] =
      match toColumn name with
      | .error ex => .error ex
      | .ok n => if id ∈ t then .ok (t.replace id n) else .error .staleState := by
  cases hn : toColumn name with
  | error ex => simp [committedRows, toColumns, hn]
  | ok n =>
    simp only [committedRows, toColumns, hn, Store.idle, own_empty, addAll, List.foldr_nil,
      updateAll]
    by_cases hi : id ∈ t <;> simp [hi]

section Save
variable {m : Tx Response} {c : Category} {reply : Category → Except Throwable Response}
  {caught : Throwable → Except Throwable Response}
  (hm : m.eval .new = (CategoryDAO.save env c).eval .new >>= fun
    | (.ok c', s) => .done (reply c', s)
    | (.error ex, s) => .done (caught ex, s))
include hm

theorem runAlone_save_fails (hp : env.fails .persist = true) :
    runAlone env t (unitOfWork env m) = settled env t (caught (.failure .persist)) := by
  rw [unitOfWork, hm, CategoryDAO.eval_save_fails .new hp]
  exact runFrom_settled env t _ rfl

theorem unitOfWork_insert (hp : env.fails .persist = false) (hid : c.id = none) :
    unitOfWork env m = .call (.insert c.name) fun
      | .ok id => finish env (reply (c.setId (some id)), ⟨[⟨id, c.name, c.name⟩]⟩)
      | .error ex => finish env (caught ex, .new) := by
  rw [unitOfWork, hm, CategoryDAO.eval_save_insert .new hp hid]
  refine congrArg (Prog.call (DbOp.insert c.name)) (funext fun x => ?_)
  cases x <;> rfl

/-- An insert the column or the generator refuses throws inside `save`. -/
theorem runAlone_insert_refused (hp : env.fails .persist = false) (hid : c.id = none)
    (hs : stored t env.offer c = none) :
    ∃ ex : Throwable, ex.Internal ∧
      runAlone env t (unitOfWork env m) = settled env t (caught ex) := by
  rw [unitOfWork_insert env hm hp hid]
  cases hn : toColumn c.name with
  | error ex =>
    refine ⟨ex, toColumn_internal hn, ?_⟩
    rw [runAlone, runFrom_call, act_insert_refused _ _ _ hn]
    exact runFrom_settled env t _ rfl
  | ok n =>
    have ho : env.offer ∈ t := by
      by_contra ho
      simp [stored, hn, hid, ho] at hs
    refine ⟨.identityExhausted, rfl, ?_⟩
    rw [runAlone, runFrom_call, act_insert_exhausted _ _ _ hn fun hu => hu.1 ho]
    exact runFrom_settled env t _ rfl

/-- What becomes of the reply once `save` has gone through: the flush decides. -/
theorem runAlone_saved (hp : env.fails .persist = false)
    (hs : c.id = none → stored t env.offer c ≠ none) :
    runAlone env t (unitOfWork env m) =
      match reply (savedAs env.offer c) with
      | .error ex => (ex.toResponse, t)
      | .ok r =>
        if env.fails .flush then (.serverError, t)
        else match stored t env.offer c with
          | none => (.serverError, t)
          | some ch => (r, ch.applyRows t) := by
  cases hid : c.id with
  | none =>
    obtain ⟨n, hn, ho⟩ : ∃ n, toColumn c.name = .ok n ∧ env.offer ∉ t := by
      have h := hs hid
      unfold stored at h
      cases hn : toColumn c.name with
      | error ex => simp [hn] at h
      | ok n => exact ⟨n, rfl, by simpa [hn, hid] using h⟩
    have hu : (Store.idle t : Database Unit).Unused env.offer := ⟨ho, by simp [Store.idle]⟩
    have hst : stored t env.offer c = some (.add env.offer n) := by simp [stored, hn, hid, ho]
    have hsv : savedAs env.offer c = c.setId (some env.offer) := by
      simp [savedAs, Category.setId, hid]
    rw [unitOfWork_insert env hm hp hid, runAlone, runFrom_call, act_insert_ok _ _ _ hn hu, hst,
      hsv]
    cases hr : reply (c.setId (some env.offer)) with
    | error ex => simp only [hr]; rfl
    | ok r =>
      have hup : Session.updates ⟨[⟨env.offer, c.name, c.name⟩]⟩ = [] := by
        simp [Session.updates, Managed.dirty, toColumn_ok hn]
      simp only [hr, runFrom_finish, hup, committedRows_inserted]
      rfl
  | some id =>
    have hsv : savedAs env.offer c = c := by
      cases c
      simp_all [savedAs]
    rw [unitOfWork, hm, CategoryDAO.eval_save_update .new hp hid, hsv]
    simp only [done_bind]
    cases hr : reply c with
    | error ex => rfl
    | ok r =>
      have hup : Session.updates (Session.new.reattach id c.name) = [(id, c.name)] := rfl
      rw [runAlone, runFrom_finish, hup, committedRows_update]
      cases hn : toColumn c.name with
      | error ex =>
        have he : ex.toResponse = .serverError := toColumn_internal hn
        simp [stored, hn, he, Store.idle]
      | ok n =>
        by_cases hi : id ∈ t
        · simp [stored, hn, hid, hi, Store.idle, Change.applyRows]
        · have he : Throwable.staleState.toResponse = .serverError := rfl
          simp [stored, hn, hid, hi, Store.idle, he]

end Save
end Alone
end CategoryService
