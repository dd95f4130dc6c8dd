import CategoryService.Session

/-! `db/CategoryDAO.java`. -/
namespace CategoryService.CategoryDAO
open CategoryService Interaction

def findById (env : Env) (id : Integer) : Tx (Option Category) := do
  step env .lookup
  sessionGet id

def findByName (env : Env) (name : JString) : Tx (Option Category) := do
  step env .lookup
  uniqueResult (← attachRows (← perform (.selectByName name)))

def findAll (env : Env) : Tx (List Category) := do
  step env .lookup
  attachRows (← perform .selectAll)

def save (env : Env) (cmd : Category) : Tx Category := do
  step env .persist
  saveOrUpdate cmd

section Eval
variable {env : Env} (s : Session)

theorem eval_findById (h : env.fails .lookup = false) (id : Integer) :
    (findById env id).eval s = .call (.select id) fun
      | none => .done (.ok none, s)
      | some n => .done (.ok (some (loadedEntity id n)), s.attach (.ofRow id n)) :=
  (eval_step_then h _ s).trans (eval_sessionGet id s)

theorem eval_findById_fails (h : env.fails .lookup = true) (id : Integer) :
    (findById env id).eval s = .done (.error (.failure .lookup), s) :=
  eval_step_throws h _ s

theorem eval_findAll (h : env.fails .lookup = false) :
    (findAll env).eval s = .call .selectAll fun rows =>
      .done (.ok (rows.map fun e => loadedEntity e.1 e.2),
        ⟨rows.map (fun e => .ofRow e.1 e.2) ++ s.context⟩) :=
  eval_step_then h _ s

theorem eval_findAll_fails (h : env.fails .lookup = true) :
    (findAll env).eval s = .done (.error (.failure .lookup), s) :=
  eval_step_throws h _ s

theorem eval_save_insert (h : env.fails .persist = false) {c : Category} (hid : c.id = none) :
    (save env c).eval s = .call (.insert c.name) fun
      | .ok id => .done (.ok (c.setId (some id)), s.attach ⟨id, c.name, c.name⟩)
      | .error ex => .done (.error ex, s) :=
  (eval_step_then h _ s).trans (eval_saveOrUpdate_insert hid s)

theorem eval_save_update (h : env.fails .persist = false) {c : Category} {id : Integer}
    (hid : c.id = some id) : (save env c).eval s = .done (.ok c, s.reattach id c.name) :=
  (eval_step_then h _ s).trans (eval_saveOrUpdate_update hid s)

theorem eval_save_fails (h : env.fails .persist = true) (c : Category) :
    (save env c).eval s = .done (.error (.failure .persist), s) :=
  eval_step_throws h _ s

end Eval
end CategoryService.CategoryDAO
