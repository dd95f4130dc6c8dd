import CategoryService.Handlers

/-! How the handlers use the database: at most one operation before the transaction ends. -/
namespace CategoryService
open Interaction KeyedStore
variable {α β : Type}

/-- Code that touches neither the database nor the session. -/
def Tx.Local (m : Tx α) : Prop := ∃ x, ∀ s, m.eval s = .done (x, s)

theorem local_pure (a : α) : Tx.Local (pure a) := ⟨.ok a, fun _ => rfl⟩

theorem local_throw (ex : Throwable) : Tx.Local (throw ex : Tx α) := ⟨.error ex, fun _ => rfl⟩

theorem local_ofExcept (x : Except Throwable α) : Tx.Local (ofExcept x) := ⟨x, eval_ofExcept x⟩

theorem local_deref (a : Option α) : Tx.Local (deref a) := by
  cases a with
  | none => exact local_throw _
  | some a => exact local_pure a

theorem local_step (env : Env) (st : Step) : Tx.Local (step env st) := ⟨_, eval_step env st⟩

theorem Tx.Local.bind {m : Tx α} {f : α → Tx β} (hm : m.Local) (hf : ∀ a, (f a).Local) :
    (m >>= f).Local := by
  obtain ⟨x, hx⟩ := hm
  cases x with
  | error ex =>
    refine ⟨.error ex, fun s => ?_⟩
    rw [eval_bind, hx]
    rfl
  | ok a =>
    obtain ⟨y, hy⟩ := hf a
    refine ⟨y, fun s => ?_⟩
    rw [eval_bind, hx]
    exact hy s

theorem local_newCategoryDTO (env : Env) (c : Category) : Tx.Local (newCategoryDTO env c) :=
  (local_step env _).bind fun _ => local_pure _

theorem local_newCategoryList (env : Env) (cs : List Category) :
    Tx.Local (newCategoryList env cs) :=
  (local_step env _).bind fun _ => local_pure _

/-- A handler's outcome whose commit writes nothing. -/
def Quiet (y : Except Throwable Response × Session) : Prop :=
  ∀ r, y.1 = .ok r → y.2.updates = []

theorem quiet_error (ex : Throwable) (s : Session) : Quiet (.error ex, s) :=
  fun _ h => by cases h

/-- A handler up to the end of its transaction: no operation; a read after which nothing
is left to write; a row loaded and renamed; or an insert. -/
inductive Shape : DbProg (Except Throwable Response × Session) → Prop
  | none (y : Except Throwable Response × Session) : Shape (.done y)
  | readAll {f : List (Σ _ : Integer, NameColumn) → Except Throwable Response × Session}
      (hq : ∀ rows, Quiet (f rows)) : Shape (.call .selectAll fun rows => .done (f rows))
  | readOne (id : Integer) {f : Option NameColumn → Except Throwable Response × Session}
      (hq : ∀ n, Quiet (f n)) : Shape (.call (.select id) fun n => .done (f n))
  | rename (id : Integer) (name : JString) {x : Except Throwable Response}
      {f : Option NameColumn → Except Throwable Response × Session} (hq : Quiet (f .none))
      (hx : ∀ n, (f (some n)).1 = x)
      (hu : ∀ n, (f (some n)).2.updates = if name = n.val then [] else [(id, some name)]) :
      Shape (.call (.select id) fun n => .done (f n))
  | insert (name : JString) {f : Except Throwable Integer → Except Throwable Response × Session}
      (hu : ∀ id, (f id).2.updates = []) :
      Shape (.call (.insert (some name)) fun id => .done (f id))

section Shapes
variable {env : Env}

theorem shape_local {m : Tx Response} (hm : m.Local) (s : Session) : Shape (m.eval s) := by
  obtain ⟨x, hx⟩ := hm
  rw [hx]
  exact .none _

theorem shape_bind {m : Tx α} {f : α → Tx Response} (hm : m.Local) {s : Session}
    (hf : ∀ a, Shape ((f a).eval s)) : Shape ((m >>= f).eval s) := by
  obtain ⟨x, hx⟩ := hm
  rw [eval_bind, hx]
  cases x with
  | error ex => exact .none _
  | ok a => exact hf a

theorem shape_findAll {k : List Category → Tx Response} (hk : ∀ cs, (k cs).Local) :
    Shape ((CategoryDAO.findAll env >>= k).eval .new) := by
  choose x hx using hk
  rw [eval_bind]
  cases hl : env.fails .lookup with
  | true =>
    rw [CategoryDAO.eval_findAll_fails .new hl]
    exact .none _
  | false =>
    rw [CategoryDAO.eval_findAll .new hl]
    simp only [call_bind, done_bind, hx]
    exact .readAll fun rows _ _ => updates_loaded rows

theorem eval_findById_then {id : Integer} {k : Option Category → Tx Response}
    {f : Option NameColumn → Except Throwable Response × Session}
    (hl : env.fails .lookup = false) (hnone : (k none).eval .new = .done (f none))
    (hsome : ∀ n, (k (some (loadedEntity id n))).eval ⟨[.ofRow id n]⟩ = .done (f (some n))) :
    (CategoryDAO.findById env id >>= k).eval .new = .call (.select id) fun n => .done (f n) := by
  rw [eval_bind, CategoryDAO.eval_findById .new hl, call_bind]
  refine congrArg (Prog.call (DbOp.select id)) (funext fun n => ?_)
  cases n with
  | none => exact hnone
  | some n => exact hsome n

theorem shape_findById {id : Integer} {k : Option Category → Tx Response}
    (hk : ∀ c, (k c).Local) : Shape ((CategoryDAO.findById env id >>= k).eval .new) := by
  choose x hx using hk
  cases hl : env.fails .lookup with
  | true =>
    rw [eval_bind, CategoryDAO.eval_findById_fails .new hl]
    exact .none _
  | false =>
    let f (n : Option NameColumn) : Except Throwable Response × Session :=
      n.elim (x none, .new) fun n => (x (some (loadedEntity id n)), ⟨[.ofRow id n]⟩)
    rw [eval_findById_then (f := f) hl (hx none .new) fun n => hx _ _]
    refine .readOne id fun n => ?_
    cases n with
    | none => exact fun _ _ => rfl
    | some n => exact fun _ _ => updates_row id n

/-- A save whose outcome is passed on, or caught. -/
theorem shape_save {c : Category} {name : JString} (hn : c.name = some name) {m : Tx Response}
    {reply : Category → Except Throwable Response} {caught : Throwable → Except Throwable Response}
    (hm : m.eval .new = (CategoryDAO.save env c).eval .new >>= fun
      | (.ok c', s) => .done (reply c', s)
      | (.error ex, s) => .done (caught ex, s)) : Shape (m.eval .new) := by
  cases hp : env.fails .persist with
  | true =>
    rw [hm, CategoryDAO.eval_save_fails .new hp]
    exact .none _
  | false =>
    cases hid : c.id with
    | some id =>
      rw [hm, CategoryDAO.eval_save_update .new hp hid]
      exact .none _
    | none =>
      have he : m.eval .new =
          .call (.insert (some name)) fun id => .done (match id with
            | .ok id => (reply (c.setId (some id)), ⟨[⟨id, some name, some name⟩]⟩)
            | .error ex => (caught ex, .new)) := by
        rw [hm, CategoryDAO.eval_save_insert .new hp hid, hn, call_bind]
        refine congrArg (Prog.call (DbOp.insert (some name))) (funext fun x => ?_)
        cases x <;> rfl
      rw [he]
      refine .insert name fun id => ?_
      cases id with
      | error ex => rfl
      | ok id => simp [Session.updates, Managed.dirty]

theorem shape_save_then {c : Category} {name : JString} (hn : c.name = some name)
    {k : Category → Tx Response} (hk : ∀ c, (k c).Local) :
    Shape ((CategoryDAO.save env c >>= k).eval .new) := by
  choose x hx using hk
  exact shape_save hn (eval_save_then env hx)

/-- The conversion of a transfer object and its save. -/
theorem shape_convert {dto : CategoryDTO} {k : Category → Tx Response}
    (hk : ∀ c, (k c).Local) :
    Shape ((dto.toCategory env >>= fun c => CategoryDAO.save env c >>= k).eval .new) := by
  rw [eval_toCategory_then]
  split
  · exact .none _
  · split
    · exact .none _
    · exact shape_save_then rfl hk

/-- A loaded row that is renamed. -/
theorem shape_rename {id : Integer} {name : Option JString} {k : Option Category → Tx Response}
    {tail : Tx Response} (ht : tail.Local) {ex : Throwable}
    (hnone : (k none).eval .new = .done (.error ex, .new))
    (hsome : ∀ c, k (some c) = (ofExcept (Category.setName c name) >>= fun c =>
      CategoryDAO.save env c >>= fun _ => tail)) :
    Shape ((CategoryDAO.findById env id >>= k).eval .new) := by
  obtain ⟨x, hx⟩ := ht
  cases hl : env.fails .lookup with
  | true =>
    rw [eval_bind, CategoryDAO.eval_findById_fails .new hl]
    exact .none _
  | false =>
    -- Without a name or with a failing save there is nothing to flush.
    have hquiet (ex' : Throwable) (h : ∀ n, (k (some (loadedEntity id n))).eval ⟨[.ofRow id n]⟩ =
        .done (.error ex', ⟨[.ofRow id n]⟩)) :
        Shape ((CategoryDAO.findById env id >>= k).eval .new) := by
      let f (n : Option NameColumn) : Except Throwable Response × Session :=
        n.elim (.error ex, .new) fun n => (.error ex', ⟨[.ofRow id n]⟩)
      rw [eval_findById_then (f := f) hl hnone h]
      refine .readOne id fun n => ?_
      cases n <;> exact quiet_error _ _
    cases name with
    | none => exact hquiet .nullPointer fun n => by rw [hsome]; rfl
    | some name =>
      have hk (n : NameColumn) : (k (some (loadedEntity id n))).eval ⟨[.ofRow id n]⟩ =
          (CategoryDAO.save env ⟨some id, some name⟩ >>= fun _ => tail).eval
            ⟨[.ofRow id n]⟩ := by
        rw [hsome]
        rfl
      cases hp : env.fails .persist with
      | true =>
        refine hquiet (.failure .persist) fun n => ?_
        rw [hk, eval_bind, CategoryDAO.eval_save_fails _ hp]
        rfl
      | false =>
        let f (n : Option NameColumn) : Except Throwable Response × Session :=
          n.elim (.error ex, .new) fun n => (x, Session.reattach id (some name) ⟨[.ofRow id n]⟩)
        have hf (n : NameColumn) : (k (some (loadedEntity id n))).eval ⟨[.ofRow id n]⟩ =
            .done (f (some n)) := by
          rw [hk, eval_bind, CategoryDAO.eval_save_update _ hp rfl]
          exact hx _
        rw [eval_findById_then (f := f) hl hnone hf]
        exact .rename id name (quiet_error ex .new) (fun _ => rfl)
          fun n => updates_renamed id n name

/-- Once a row is read, a view only builds its response. -/
theorem shape_viewCategory (user : Authentication) (id : Option Integer) :
    Shape ((CategoryResource.viewCategory env user id).eval .new) := by
  refine shape_bind (local_deref id) fun i => shape_findById fun c => ?_
  cases c with
  | none => exact local_throw _
  | some c =>
    exact (local_newCategoryDTO env c).bind fun _ => (local_step env _).bind fun _ => local_pure _

theorem shape_viewCategoryJson (user : Authentication) (id : Option Integer) :
    Shape ((CategoryResource.viewCategoryJson env user id).eval .new) := by
  refine shape_bind (local_deref id) fun i => shape_findById fun c => ?_
  cases c with
  | none => exact (local_step env _).bind fun _ => local_pure _
  | some c =>
    exact (local_newCategoryDTO env c).bind fun _ => (local_step env _).bind fun _ =>
      (local_step env _).bind fun _ => local_pure _

theorem shape_save_form (user : Authentication) (id : Option Integer) (name : Option JString) :
    Shape ((CategoryResource.save env user id name).eval .new) := by
  have ht : Tx.Local (step env .response >>= fun _ => pure (Response.seeOther "/categories")) :=
    (local_step env _).bind fun _ => local_pure _
  cases id with
  | some id => exact shape_rename ht rfl fun c => rfl
  | none =>
    change Shape ((ofExcept (Category.new.setName name) >>= fun c => CategoryDAO.save env c >>=
      fun _ => step env .response >>= fun _ => pure (Response.seeOther "/categories")).eval .new)
    cases name with
    | none => exact .none _
    | some name => exact shape_save_then rfl fun _ => ht

/-- The catch-all answers what fails before the save, and passes the save itself on. -/
theorem shape_createCategoryJson (p : Platform) (user : Authentication)
    (dto : Option CategoryDTO) :
    Shape ((CategoryResource.createCategoryJson p.message env user dto).eval .new) := by
  have hthrows {ex : Throwable}
      (hx : Tx.eval (deref dto >>= fun d => d.toCategory env) .new = .done (.error ex, .new)) :
      Shape ((CategoryResource.createCategoryJson p.message env user dto).eval .new) := by
    rw [eval_createCategoryJson_throws env user hx]
    exact .none _
  cases dto with
  | none => exact hthrows rfl
  | some dto =>
    cases hf : env.fails .toCategory with
    | true => exact hthrows (eval_step_throws hf _ .new)
    | false =>
      cases hn : dto.name with
      | none =>
        have hx : Tx.eval (deref (some dto) >>= fun d => d.toCategory env) .new =
            .done (.error .nullPointer, .new) := by
          refine (eval_step_then hf _ .new).trans ?_
          rw [hn]
          rfl
        exact hthrows hx
      | some name =>
        exact shape_save hn (eval_createCategoryJson (p := p) env user hf hn)

theorem dispatch_shape (p : Platform) (r : Request) : Shape ((dispatch p env r).eval .new) := by
  obtain ⟨credentials, call⟩ := r
  cases call with
  | listCategories =>
    exact shape_bind (local_ofExcept _) fun user => shape_findAll fun cs =>
      (local_step env _).bind fun _ => local_pure _
  | listCategoriesJson =>
    exact shape_bind (local_ofExcept _) fun user => shape_findAll fun cs =>
      (local_newCategoryList env cs).bind fun _ => (local_step env _).bind fun _ =>
        (local_step env _).bind fun _ => local_pure _
  | viewCategory id =>
    exact shape_bind (local_ofExcept _) fun user => shape_bind (local_ofExcept _) fun i =>
      shape_viewCategory user i
  | viewCategoryJson id =>
    exact shape_bind (local_ofExcept _) fun user => shape_bind (local_ofExcept _) fun i =>
      shape_viewCategoryJson user i
  | createCategory category =>
    exact shape_bind (local_ofExcept _) fun user => shape_bind (local_ofExcept _) fun dto =>
      shape_bind (local_deref dto) fun dto => shape_convert fun c =>
        (local_newCategoryDTO env c).bind fun _ => (local_step env _).bind fun _ => local_pure _
  | createCategoryJson category =>
    exact shape_bind (local_ofExcept _) fun user => shape_bind (local_ofExcept _) fun dto =>
      shape_createCategoryJson p user dto
  | newCategory =>
    exact shape_bind (local_ofExcept _) fun user =>
      shape_local ((local_step env _).bind fun _ => local_pure _) .new
  | save id name =>
    exact shape_bind (local_ofExcept _) fun user => shape_bind (local_ofExcept _) fun i =>
      shape_save_form user i name
  | saveJson id body =>
    exact shape_bind (local_ofExcept _) fun user => shape_bind (local_ofExcept _) fun i =>
      shape_bind (local_ofExcept _) fun dto => shape_bind (local_deref dto) fun dto =>
        shape_convert fun c => (local_step env _).bind fun _ => local_pure _

end Shapes
end CategoryService
