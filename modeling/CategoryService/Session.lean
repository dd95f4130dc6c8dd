import CategoryService.Database

/-! A Hibernate session inside one transaction: the persistence context, dirty
checking at flush, and the `AbstractDAO` methods over them. -/
namespace CategoryService
open Interaction

/-- An entity of the persistence context. `loaded` is the name as read or
inserted; an entity reattached by its id has none and is always written. -/
structure Managed where
  id : Integer
  name : Option JString
  loaded : Option JString

structure Session where
  context : List Managed

def Session.new : Session := ⟨[]⟩

def Managed.dirty (m : Managed) : Bool :=
  match m.loaded with
  | none => true
  | some name => m.name ≠ some name

/-- The UPDATE statements of the flush. -/
def Session.updates (s : Session) : List (Integer × Option JString) :=
  (s.context.filter Managed.dirty).map fun m => (m.id, m.name)

/-- Code inside a unit of work. An exception that is caught keeps what the
session has done so far. -/
abbrev Tx := ExceptT Throwable (StateT Session DbProg)

def Tx.eval {α : Type} (m : Tx α) (s : Session) : DbProg (Except Throwable α × Session) :=
  m.run.run s

def perform (op : DbOp) : Tx op.Answer :=
  ExceptT.lift (StateT.lift (Prog.perform op))

def Session.attach (m : Managed) (s : Session) : Session := ⟨m :: s.context⟩

/-- The managed object of that id now holds `name`; an unknown id is reattached. -/
def Session.reattach (id : Integer) (name : Option JString) (s : Session) : Session :=
  if s.context.any fun m => m.id = id then
    ⟨s.context.map fun m => if m.id = id then { m with name := name } else m⟩
  else s.attach ⟨id, name, none⟩

/-- A library call that throws where the environment says so. -/
def step (env : Env) (at_ : Step) : Tx Unit :=
  if env.fails at_ then throw (.failure at_) else pure ()

def deref {α : Type} : Option α → Tx α
  | none => throw .nullPointer
  | some a => pure a

def ofExcept {α : Type} : Except Throwable α → Tx α
  | .error ex => throw ex
  | .ok a => pure a

def loadedEntity (id : Integer) (name : NameColumn) : Category := ⟨some id, some name.val⟩

def Managed.ofRow (id : Integer) (name : NameColumn) : Managed :=
  ⟨id, some name.val, some name.val⟩

/-- `session.get`. -/
def sessionGet (id : Integer) : Tx (Option Category) := do
  match ← perform (.select id) with
  | none => return none
  | some name =>
    modify (Session.attach (.ofRow id name))
    return some (loadedEntity id name)

def attachRows (rows : List (Σ _ : Integer, NameColumn)) : Tx (List Category) := do
  modify fun s => ⟨rows.map (fun e => .ofRow e.1 e.2) ++ s.context⟩
  return rows.map fun e => loadedEntity e.1 e.2

/-- `session.saveOrUpdate`: a null id is inserted now, any other id is written at flush. -/
def saveOrUpdate (c : Category) : Tx Category := do
  match c.id with
  | none =>
    let id ← ofExcept (← perform (.insert c.name))
    modify (Session.attach ⟨id, c.name, c.name⟩)
    return c.setId (some id)
  | some id =>
    modify (Session.reattach id c.name)
    return c

/-- Two different entities under one query are an error, none is null. -/
def uniqueResult : List Category → Tx (Option Category)
  | [] => pure none
  | c :: cs => if cs.all fun d => d = c then pure (some c) else throw .nonUniqueResult

section Eval
variable {α β : Type}

@[simp] theorem eval_pure (a : α) (s : Session) :
    Tx.eval (pure a) s = .done (.ok a, s) := rfl

@[simp] theorem eval_throw (ex : Throwable) (s : Session) :
    Tx.eval (throw ex : Tx α) s = .done (.error ex, s) := rfl

@[simp] theorem eval_bind (m : Tx α) (f : α → Tx β) (s : Session) :
    (m >>= f).eval s = m.eval s >>= fun
      | (.ok a, s') => (f a).eval s'
      | (.error ex, s') => .done (.error ex, s') := by
  change Prog.bind _ _ = Prog.bind _ _
  congr 1
  funext x
  rcases x with ⟨_ | _, _⟩ <;> rfl

@[simp] theorem eval_tryCatch (m : Tx α) (f : Throwable → Tx α) (s : Session) :
    (tryCatch m f).eval s = m.eval s >>= fun
      | (.ok a, s') => .done (.ok a, s')
      | (.error ex, s') => (f ex).eval s' := by
  change Prog.bind _ _ = Prog.bind _ _
  congr 1
  funext x
  rcases x with ⟨_ | _, _⟩ <;> rfl

@[simp] theorem eval_perform (op : DbOp) (s : Session) :
    (perform op).eval s = .call op fun x => .done (.ok x, s) := rfl

@[simp] theorem eval_modify (f : Session → Session) (s : Session) :
    Tx.eval (modify f) s = .done (.ok (), f s) := rfl

@[simp] theorem eval_ofExcept (x : Except Throwable α) (s : Session) :
    (CategoryService.ofExcept x).eval s = .done (x, s) := by
  cases x <;> rfl

@[simp] theorem eval_step (env : Env) (st : Step) (s : Session) :
    (step env st).eval s =
      .done (if env.fails st then .error (.failure st) else .ok (), s) := by
  unfold step
  split <;> rfl

theorem eval_step_then {env : Env} {st : Step} (h : env.fails st = false) (f : Unit → Tx β)
    (s : Session) : (step env st >>= f).eval s = (f ()).eval s := by
  simp only [step, h, Bool.false_eq_true, if_false]
  rfl

theorem eval_step_throws {env : Env} {st : Step} (h : env.fails st = true) (f : Unit → Tx β)
    (s : Session) : (step env st >>= f).eval s = .done (.error (.failure st), s) := by
  simp only [step, h, if_true]
  rfl

@[simp] theorem eval_deref_some (a : α) (s : Session) :
    (deref (some a)).eval s = .done (.ok a, s) := rfl

@[simp] theorem eval_deref_none (s : Session) :
    (deref (none : Option α)).eval s = .done (.error .nullPointer, s) := rfl

theorem eval_sessionGet (id : Integer) (s : Session) :
    (sessionGet id).eval s = .call (.select id) fun
      | none => .done (.ok none, s)
      | some n => .done (.ok (some (loadedEntity id n)), s.attach (.ofRow id n)) := by
  refine congrArg (Prog.call (DbOp.select id)) (funext fun x => ?_)
  cases x <;> rfl

theorem eval_saveOrUpdate_insert {c : Category} (hid : c.id = none) (s : Session) :
    (saveOrUpdate c).eval s = .call (.insert c.name) fun
      | .ok id => .done (.ok (c.setId (some id)), s.attach ⟨id, c.name, c.name⟩)
      | .error ex => .done (.error ex, s) := by
  simp only [saveOrUpdate, hid]
  refine congrArg (Prog.call (DbOp.insert c.name)) (funext fun x => ?_)
  cases x <;> rfl

theorem eval_saveOrUpdate_update {c : Category} {id : Integer} (hid : c.id = some id)
    (s : Session) : (saveOrUpdate c).eval s = .done (.ok c, s.reattach id c.name) := by
  simp [saveOrUpdate, hid]

theorem eval_uniqueResult (cs : List Category) (s : Session) :
    (uniqueResult cs).eval s = .done (match cs with
      | [] => .ok none
      | c :: cs => if cs.all fun d => d = c then .ok (some c) else .error .nonUniqueResult, s) := by
  cases cs with
  | nil => rfl
  | cons c cs =>
    simp only [uniqueResult]
    split <;> rfl

end Eval

end CategoryService
