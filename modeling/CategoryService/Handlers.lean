import CategoryService.Outcome

/-! The closed form of `serve` for each of the nine handlers. -/
namespace CategoryService
open Interaction KeyedStore Register

/-- The request carries the configured password; the user name is not looked at. -/
def Request.Authentic (p : Platform) (r : Request) : Prop :=
  r.credentials.map BasicCredentials.password = some p.configuration.adminPassword

instance (p : Platform) (r : Request) : Decidable (r.Authentic p) :=
  inferInstanceAs (Decidable (_ = _))

theorem auth_authentic {p : Platform} {r : Request} (h : r.Authentic p) :
    auth p r.credentials = .ok ⟨none⟩ := by
  unfold Request.Authentic at h
  cases hc : r.credentials with
  | none => simp [hc] at h
  | some credentials =>
    have hp : p.configuration.adminPassword = credentials.password := by
      simpa [hc, eq_comm] using h
    simp [auth, authenticate, hp]

theorem auth_refused {p : Platform} {r : Request} (h : ¬ r.Authentic p) :
    auth p r.credentials = refuse unauthorized := by
  unfold Request.Authentic at h
  cases hc : r.credentials with
  | none => rfl
  | some credentials =>
    have hp : p.configuration.adminPassword ≠ credentials.password := by
      simpa [hc, eq_comm] using h
    simp [auth, authenticate, hp]

/-- Without the password a request ends before its other parameters are looked at. -/
theorem serve_unauthorized {p : Platform} {t : Table} {e : Event} (h : ¬ e.request.Authentic p) :
    serve p t e = (unauthorized, t) := by
  have hd : (dispatch p e.env e.request).eval .new =
      .done (.error (.webApplication unauthorized), .new) := by
    have ha := auth_refused h
    unfold dispatch
    split <;> simp [ha, refuse]
  exact runAlone_error e.env t hd

/-- The response if none of `steps` throws, else the exception of the first that does. -/
def passing (env : Env) : List Step → Response → Except Throwable Response
  | [], r => .ok r
  | st :: sts, r => if env.fails st then .error (.failure st) else passing env sts r

theorem passing_ok {env : Env} {steps : List Step} (h : env.passes steps) (r : Response) :
    passing env steps r = .ok r := by
  induction steps with
  | nil => rfl
  | cons st sts ih =>
    obtain ⟨hs, ht⟩ := (passes_cons env st sts).mp h
    simp [passing, hs, ih ht]

theorem passing_error {env : Env} {steps : List Step} (h : ¬ env.passes steps) (r : Response) :
    ∃ st, passing env steps r = .error (.failure st) := by
  induction steps with
  | nil => exact absurd (passes_nil env) h
  | cons st sts ih =>
    cases hf : env.fails st with
    | true => exact ⟨st, by simp [passing, hf]⟩
    | false =>
      obtain ⟨st', he⟩ := ih fun ht => h ((passes_cons env st sts).mpr ⟨hf, ht⟩)
      exact ⟨st', by simp [passing, hf, he]⟩

theorem settled_passing (env : Env) (t : Table) (steps : List Step) (r : Response) :
    settled env t (passing env steps r) =
      if env.passes (.flush :: steps) then (r, t) else (.serverError, t) := by
  by_cases hs : env.passes steps
  · rw [passing_ok hs]
    cases hf : env.fails .flush <;> simp [settled, hf, hs]
  · obtain ⟨st, he⟩ := passing_error hs r
    rw [he]
    simp only [passes_cons, hs, and_false, if_false]
    rfl

section Tails
variable {env : Env} {sts : List Step} {r : Response}

theorem eval_pure_passing (s : Session) :
    Tx.eval (pure r) s = .done (passing env [] r, s) := rfl

theorem eval_step_passing (st : Step) {f : Unit → Tx Response} (s : Session)
    (h : (f ()).eval s = .done (passing env sts r, s)) :
    (step env st >>= f).eval s = .done (passing env (st :: sts) r, s) := by
  cases hf : env.fails st with
  | true => simp [eval_step_throws hf, passing, hf]
  | false => simp [eval_step_then hf, h, passing, hf]

theorem eval_convert_passing {α : Type} (st : Step) (a : α) {f : α → Tx Response} (s : Session)
    (h : (f a).eval s = .done (passing env sts r, s)) :
    ((step env st >>= fun _ => (pure a : Tx α)) >>= f).eval s =
      .done (passing env (st :: sts) r, s) := by
  cases hf : env.fails st with
  | true => simp [passing, hf]
  | false => simp [h, passing, hf]

end Tails

/-- The entities of a table, in the order it lists its rows. -/
def entities (t : Table) : List Category := t.entries.map fun e => loadedEntity e.1 e.2

theorem mem_entities {t : Table} {c : Category} :
    c ∈ entities t ↔ ∃ id n, t.lookup id = some n ∧ loadedEntity id n = c := by
  simp only [entities, List.mem_map]
  constructor
  · rintro ⟨row, hmem, hc⟩
    exact ⟨row.1, row.2, mem_entries_iff.mp hmem, hc⟩
  · rintro ⟨id, n, hl, hc⟩
    exact ⟨⟨id, n⟩, mem_entries_iff.mpr hl, hc⟩

theorem updates_loaded (rows : List (Σ _ : Integer, NameColumn)) :
    Session.updates ⟨rows.map (fun e => .ofRow e.1 e.2) ++ Session.new.context⟩ = [] := by
  simp only [Session.updates, Session.new, List.append_nil, List.map_eq_nil_iff,
    List.filter_eq_nil_iff, List.mem_map]
  rintro _ ⟨row, -, rfl⟩
  simp [Managed.ofRow, Managed.dirty]

theorem updates_row (id : Integer) (n : NameColumn) :
    Session.updates ⟨[.ofRow id n]⟩ = [] := by
  simp [Session.updates, Managed.ofRow, Managed.dirty]

section Units
variable {m : Tx Response} {steps : List Step} (env : Env) (t : Table)

/-- A reader of the whole table, up to the response it builds. -/
theorem runAlone_listing {r : List Category → Response} {k : List Category → Tx Response}
    (hm : m.eval .new = (CategoryDAO.findAll env >>= k).eval .new)
    (hk : ∀ cs s, (k cs).eval s = .done (passing env steps (r cs), s)) :
    runAlone env t (unitOfWork env m) =
      if env.passes (.lookup :: .flush :: steps) then (r (entities t), t)
      else (.serverError, t) := by
  cases hl : env.fails .lookup with
  | true =>
    rw [unitOfWork, hm, eval_bind, CategoryDAO.eval_findAll_fails .new hl]
    simp only [passes_cons, hl, Bool.true_eq_false, false_and, if_false]
    rfl
  | false =>
    rw [unitOfWork, hm, eval_bind, CategoryDAO.eval_findAll .new hl]
    simp only [call_bind, done_bind, hk, runAlone, runFrom_call]
    refine (runFrom_settled env t _ (updates_loaded _)).trans ?_
    simp only [settled_passing, passes_cons, hl, true_and]
    rfl

/-- A handler that looks one row up and only then decides what to do. -/
theorem runAlone_lookup {id : Integer} {k : Option Category → Tx Response}
    (hm : m.eval .new = (CategoryDAO.findById env id >>= k).eval .new)
    (hl : env.fails .lookup = false) :
    runAlone env t (unitOfWork env m) =
      match t.lookup id with
      | none => runAlone env t ((k none).eval .new >>= finish env)
      | some n => runAlone env t
          ((k (some (loadedEntity id n))).eval ⟨[.ofRow id n]⟩ >>= finish env) := by
  rw [unitOfWork, hm, eval_bind, CategoryDAO.eval_findById .new hl]
  simp only [call_bind, runAlone, runFrom_call, act, Store.idle]
  cases t.lookup id <;> rfl

theorem runAlone_lookup_fails {id : Integer} {k : Option Category → Tx Response}
    (hm : m.eval .new = (CategoryDAO.findById env id >>= k).eval .new)
    (hl : env.fails .lookup = true) :
    runAlone env t (unitOfWork env m) = (.serverError, t) := by
  rw [unitOfWork, hm, eval_bind, CategoryDAO.eval_findById_fails .new hl]
  rfl

/-- A reader of one row. -/
theorem runAlone_view {id : Integer} {k : Option Category → Tx Response}
    {found : NameColumn → Response} {missing : Except Throwable Response}
    (hm : m.eval .new = (CategoryDAO.findById env id >>= k).eval .new)
    (hsome : ∀ n s, (k (some (loadedEntity id n))).eval s =
      .done (passing env steps (found n), s))
    (hnone : (k none).eval .new = .done (missing, .new)) :
    runAlone env t (unitOfWork env m) =
      if env.fails .lookup then (.serverError, t)
      else match t.lookup id with
        | none => settled env t missing
        | some n =>
          if env.passes (.flush :: steps) then (found n, t) else (.serverError, t) := by
  cases hl : env.fails .lookup with
  | true => exact runAlone_lookup_fails env t hm hl
  | false =>
    refine (runAlone_lookup env t hm hl).trans ?_
    cases t.lookup id with
    | none =>
      rw [hnone]
      exact runFrom_settled env t _ rfl
    | some n =>
      simp only [hsome, done_bind]
      exact (runFrom_settled env t _ (updates_row id n)).trans (settled_passing env t _ _)

theorem eval_save_then {c : Category} {k : Category → Tx Response}
    {x : Category → Except Throwable Response} (hk : ∀ c s, (k c).eval s = .done (x c, s)) :
    (CategoryDAO.save env c >>= k).eval .new =
      (CategoryDAO.save env c).eval .new >>= fun
        | (.ok c', s) => .done (x c', s)
        | (.error ex, s) => .done (.error ex, s) := by
  rw [eval_bind]
  congr 1
  funext y
  rcases y with ⟨ex | c', s⟩
  · rfl
  · exact hk c' s

/-- A handler that saves one entity and passes exceptions on. -/
theorem runAlone_write {c : Category} {r : Category → Response} {k : Category → Tx Response}
    (hm : m.eval .new = (CategoryDAO.save env c >>= k).eval .new)
    (hk : ∀ c s, (k c).eval s = .done (passing env steps (r c), s)) :
    runAlone env t (unitOfWork env m) =
      if env.passes (.persist :: .flush :: steps) then
        match stored t env.offer c with
        | none => (.serverError, t)
        | some ch => (r (savedAs env.offer c), ch.applyRows t)
      else (.serverError, t) := by
  have hm' := hm.trans (eval_save_then env hk)
  cases hp : env.fails .persist with
  | true =>
    rw [runAlone_save_fails env t hm' hp]
    simp only [passes_cons, hp, Bool.true_eq_false, false_and, if_false]
    rfl
  | false =>
    by_cases hs : c.id = none ∧ stored t env.offer c = none
    · obtain ⟨ex, hex, he⟩ := runAlone_insert_refused env t hm' hp hs.1 hs.2
      have hr : settled env t (.error ex) = (.serverError, t) := by rw [settled, hex]
      rw [he, hr, hs.2]
      simp
    · rw [runAlone_saved env t hm' hp fun hid hn => hs ⟨hid, hn⟩]
      by_cases hst : env.passes steps
      · rw [passing_ok hst]
        cases hf : env.fails .flush with
        | true => simp [hf]
        | false =>
          simp only [passes_cons, hp, hf, hst, and_self, if_true]
          rfl
      · obtain ⟨st, he⟩ := passing_error hst (r (savedAs env.offer c))
        rw [he]
        simp only [passes_cons, hst, and_false, if_false]
        rfl

end Units

section Serve
variable {p : Platform} (t : Table) {credentials : Option BasicCredentials} (env : Env)

theorem serve_listCategories (ha : Request.Authentic p ⟨credentials, .listCategories⟩) :
    serve p t ⟨⟨credentials, .listCategories⟩, env⟩ =
      if env.passes [.lookup, .flush, .response] then (.ok (.listView ⟨entities t⟩), t)
      else (.serverError, t) := by
  have h : auth p credentials = .ok ⟨none⟩ := auth_authentic ha
  have hm : (dispatch p env ⟨credentials, .listCategories⟩).eval .new =
      (CategoryResource.listCategories env ⟨none⟩).eval .new := by simp [dispatch, h]
  exact runAlone_listing env t hm fun cs s => eval_step_passing _ s (eval_pure_passing s)

theorem serve_listCategoriesJson
    (ha : Request.Authentic p ⟨credentials, .listCategoriesJson⟩) :
    serve p t ⟨⟨credentials, .listCategoriesJson⟩, env⟩ =
      if env.passes [.lookup, .flush, .categoryDTO, .links, .response] then
        ((Response.ok (.list (.ofCategories (entities t)))).withLinks
          [.each "categories" .CATEGORY "self" "id", .link .ADD_CATEGORY "create",
            .selfLink .CATEGORIES []], t)
      else (.serverError, t) := by
  have h : auth p credentials = .ok ⟨none⟩ := auth_authentic ha
  have hm : (dispatch p env ⟨credentials, .listCategoriesJson⟩).eval .new =
      (CategoryResource.listCategoriesJson env ⟨none⟩).eval .new := by simp [dispatch, h]
  exact runAlone_listing env t hm fun cs s => eval_convert_passing _ _ s
    (eval_step_passing _ s (eval_step_passing _ s (eval_pure_passing s)))

theorem serve_newCategory (ha : Request.Authentic p ⟨credentials, .newCategory⟩) :
    serve p t ⟨⟨credentials, .newCategory⟩, env⟩ =
      if env.passes [.flush, .response] then (.ok (.view ⟨.new⟩), t)
      else (.serverError, t) := by
  have h : auth p credentials = .ok ⟨none⟩ := auth_authentic ha
  have hm : (dispatch p env ⟨credentials, .newCategory⟩).eval .new =
      (CategoryResource.newCategory env ⟨none⟩).eval .new := by simp [dispatch, h]
  have hk : (CategoryResource.newCategory env ⟨none⟩).eval .new =
      .done (passing env [.response] (.ok (.view ⟨.new⟩)), .new) :=
    eval_step_passing _ _ (eval_pure_passing _)
  change runAlone env t (unitOfWork env (dispatch p env ⟨credentials, .newCategory⟩)) = _
  rw [unitOfWork, hm, hk]
  exact (runFrom_settled env t _ rfl).trans (settled_passing env t _ _)

theorem serve_viewCategory {id : PathSegment} {i : Integer}
    (ha : Request.Authentic p ⟨credentials, .viewCategory id⟩)
    (hi : pathParam p id = .ok (some i)) :
    serve p t ⟨⟨credentials, .viewCategory id⟩, env⟩ =
      if env.fails .lookup then (.serverError, t)
      else match t.lookup i with
        | none => (.ofStatus 404 .empty, t)
        | some n =>
          if env.passes [.flush, .categoryDTO, .response] then
            (.ok (.view ⟨⟨some i, some n.val⟩⟩), t)
          else (.serverError, t) := by
  have h : auth p credentials = .ok ⟨none⟩ := auth_authentic ha
  have hm : (dispatch p env ⟨credentials, .viewCategory id⟩).eval .new =
      (CategoryResource.viewCategory env ⟨none⟩ (some i)).eval .new := by simp [dispatch, h, hi]
  exact runAlone_view env t hm (fun n s => eval_convert_passing _ _ s
    (eval_step_passing _ s (eval_pure_passing s))) rfl

theorem serve_viewCategoryJson {id : PathSegment} {i : Integer}
    (ha : Request.Authentic p ⟨credentials, .viewCategoryJson id⟩)
    (hi : pathParam p id = .ok (some i)) :
    serve p t ⟨⟨credentials, .viewCategoryJson id⟩, env⟩ =
      if env.fails .lookup then (.serverError, t)
      else match t.lookup i with
        | none =>
          if env.passes [.flush, .response] then (.ofStatus 404 .empty, t)
          else (.serverError, t)
        | some n =>
          if env.passes [.flush, .categoryDTO, .links, .response] then
            ((Response.ok (.dto ⟨some i, some n.val⟩)).withLinks
              [.selfLink .CATEGORY [some i]], t)
          else (.serverError, t) := by
  have h : auth p credentials = .ok ⟨none⟩ := auth_authentic ha
  have hm : (dispatch p env ⟨credentials, .viewCategoryJson id⟩).eval .new =
      (CategoryResource.viewCategoryJson env ⟨none⟩ (some i)).eval .new := by
    simp [dispatch, h, hi]
  refine (runAlone_view env t hm (fun n s => eval_convert_passing _ _ s (eval_step_passing _ s
    (eval_step_passing _ s (eval_pure_passing s))))
    (eval_step_passing _ _ (eval_pure_passing _))).trans ?_
  cases t.lookup i with
  | none => simp only [settled_passing]
  | some n => rfl

/-- A path or form parameter that is refused ends the request. -/
theorem serve_refused {call : Call} {ex : Throwable}
    (h : (dispatch p env ⟨credentials, call⟩).eval .new = .done (.error ex, .new)) :
    serve p t ⟨⟨credentials, call⟩, env⟩ = (ex.toResponse, t) :=
  runAlone_error env t h

theorem eval_toCategory_then {dto : CategoryDTO} {f : Category → Tx Response} (s : Session) :
    (dto.toCategory env >>= f).eval s =
      if env.fails .toCategory then .done (.error (.failure .toCategory), s)
      else match dto.name with
        | none => .done (.error .nullPointer, s)
        | some name => (f ⟨dto.id, some name⟩).eval s := by
  unfold CategoryDTO.toCategory
  cases hf : env.fails .toCategory with
  | true => simp [hf]
  | false =>
    cases dto.name with
    | none => simp [hf, Category.setName]
    | some name => simp [hf, Category.setName, Category.setId, Category.new]

theorem stored_null (offer : Integer) (id : Option Integer) :
    stored t offer ⟨id, none⟩ = none := rfl

/-- A handler that converts a transfer object, saves it and passes exceptions on. -/
theorem runAlone_convert {m : Tx Response} {dto : CategoryDTO} {k : Category → Tx Response}
    {steps : List Step} {r : Category → Response}
    (hm : m.eval .new =
      (dto.toCategory env >>= fun c => CategoryDAO.save env c >>= k).eval .new)
    (hk : ∀ c s, (k c).eval s = .done (passing env steps (r c), s)) :
    runAlone env t (unitOfWork env m) =
      if env.passes (.toCategory :: .persist :: .flush :: steps) then
        match stored t env.offer ⟨dto.id, dto.name⟩ with
        | none => (.serverError, t)
        | some ch => (r (savedAs env.offer ⟨dto.id, dto.name⟩), ch.applyRows t)
      else (.serverError, t) := by
  rw [eval_toCategory_then] at hm
  cases hf : env.fails .toCategory with
  | true =>
    simp only [hf, if_true] at hm
    rw [runAlone_error env t hm]
    simp only [passes_cons, hf, Bool.true_eq_false, false_and, if_false]
    rfl
  | false =>
    cases hn : dto.name with
    | none =>
      simp only [hf, hn, Bool.false_eq_true, if_false] at hm
      rw [runAlone_error env t hm, stored_null]
      simp only [ite_self]
      rfl
    | some name =>
      simp only [hf, hn, Bool.false_eq_true, if_false] at hm
      rw [runAlone_write env t hm hk]
      simp only [passes_cons, hf, true_and]

theorem serve_createCategory {category : JsonBody} {dto : CategoryDTO}
    (ha : Request.Authentic p ⟨credentials, .createCategory category⟩)
    (hv : validEntity p category = .ok (some dto)) :
    serve p t ⟨⟨credentials, .createCategory category⟩, env⟩ =
      if env.passes [.toCategory, .persist, .flush, .categoryDTO, .response] then
        match stored t env.offer ⟨dto.id, dto.name⟩ with
        | none => (.serverError, t)
        | some ch =>
          (.ok (.view ⟨.ofCategory (savedAs env.offer ⟨dto.id, dto.name⟩)⟩), ch.applyRows t)
      else (.serverError, t) := by
  have h : auth p credentials = .ok ⟨none⟩ := auth_authentic ha
  have hm : (dispatch p env ⟨credentials, .createCategory category⟩).eval .new =
      (CategoryResource.createCategory env ⟨none⟩ (some dto)).eval .new := by
    simp [dispatch, h, hv]
  exact runAlone_convert t env (hm.trans (eval_bind _ _ _)) fun c s =>
    eval_convert_passing _ _ s (eval_step_passing _ s (eval_pure_passing s))

/-- A null entity that gets past `@Valid` is dereferenced. -/
theorem serve_createCategory_null {category : JsonBody}
    (ha : Request.Authentic p ⟨credentials, .createCategory category⟩)
    (hv : validEntity p category = .ok none) :
    serve p t ⟨⟨credentials, .createCategory category⟩, env⟩ = (.serverError, t) := by
  have h : auth p credentials = .ok ⟨none⟩ := auth_authentic ha
  have hd : (dispatch p env ⟨credentials, .createCategory category⟩).eval .new =
      .done (.error .nullPointer, .new) := by
    simp [dispatch, h, hv, CategoryResource.createCategory]
  exact serve_refused t env hd

theorem serve_saveJson_null {id : PathSegment} {i : Option Integer} {body : JsonBody}
    (ha : Request.Authentic p ⟨credentials, .saveJson id body⟩)
    (hi : pathParam p id = .ok i) (hb : jsonEntity body = .ok none) :
    serve p t ⟨⟨credentials, .saveJson id body⟩, env⟩ = (.serverError, t) := by
  have h : auth p credentials = .ok ⟨none⟩ := auth_authentic ha
  have hd : (dispatch p env ⟨credentials, .saveJson id body⟩).eval .new =
      .done (.error .nullPointer, .new) := by
    simp [dispatch, h, hi, hb, CategoryResource.saveJson]
  exact serve_refused t env hd

theorem serve_saveJson {id : PathSegment} {i : Option Integer} {body : JsonBody}
    {dto : CategoryDTO} (ha : Request.Authentic p ⟨credentials, .saveJson id body⟩)
    (hi : pathParam p id = .ok i) (hb : jsonEntity body = .ok (some dto)) :
    serve p t ⟨⟨credentials, .saveJson id body⟩, env⟩ =
      if env.passes [.toCategory, .persist, .flush, .response] then
        match stored t env.offer ⟨dto.id, dto.name⟩ with
        | none => (.serverError, t)
        | some ch => (.ok .empty, ch.applyRows t)
      else (.serverError, t) := by
  have h : auth p credentials = .ok ⟨none⟩ := auth_authentic ha
  have hm : (dispatch p env ⟨credentials, .saveJson id body⟩).eval .new =
      (CategoryResource.saveJson env ⟨none⟩ i (some dto)).eval .new := by
    simp [dispatch, h, hi, hb]
  exact runAlone_convert t env (hm.trans (eval_bind _ _ _)) fun c s =>
    eval_step_passing _ s (eval_pure_passing s)

theorem eval_redirect (s : Session) :
    Tx.eval (step env .response >>= fun _ => pure (.seeOther "/categories")) s =
      .done (passing env [.response] (.seeOther "/categories"), s) :=
  eval_step_passing _ s (eval_pure_passing s)

theorem serve_save_new {raw name : Option JString}
    (ha : Request.Authentic p ⟨credentials, .save raw name⟩)
    (hi : formParam p raw = .ok none) :
    serve p t ⟨⟨credentials, .save raw name⟩, env⟩ =
      if env.passes [.persist, .flush, .response] then
        match stored t env.offer ⟨none, name⟩ with
        | none => (.serverError, t)
        | some ch => (.seeOther "/categories", ch.applyRows t)
      else (.serverError, t) := by
  have h : auth p credentials = .ok ⟨none⟩ := auth_authentic ha
  have hm : (dispatch p env ⟨credentials, .save raw name⟩).eval .new =
      (CategoryResource.save env ⟨none⟩ none name).eval .new := by simp [dispatch, h, hi]
  cases name with
  | none =>
    have he : (dispatch p env ⟨credentials, .save raw none⟩).eval .new =
        .done (.error .nullPointer, .new) := hm
    rw [serve_refused t env he, stored_null]
    simp only [ite_self]
    rfl
  | some name =>
    have hw : (dispatch p env ⟨credentials, .save raw (some name)⟩).eval .new =
        (CategoryDAO.save env ⟨none, some name⟩ >>= fun _ =>
          step env .response >>= fun _ => pure (.seeOther "/categories")).eval .new := hm
    exact runAlone_write env t hw fun _ s => eval_redirect env s

/-- Dirty checking: the loaded row is written only where its name differs. -/
theorem updates_renamed (i : Integer) (n : NameColumn) (name : JString) :
    Session.updates (Session.reattach i (some name) ⟨[.ofRow i n]⟩) =
      if name = n.val then [] else [(i, some name)] := by
  by_cases h : name = n.val <;>
    simp [Session.updates, Session.reattach, Managed.ofRow, Managed.dirty, h]

theorem runFrom_renamed {i : Integer} {n : NameColumn} (hr : t.lookup i = some n)
    (name : JString) (steps : List Step) (r : Response) :
    runFrom env (Store.idle t) (finish env (passing env steps r,
        Session.reattach i (some name) ⟨[.ofRow i n]⟩)) =
      if env.passes (.flush :: steps) then
        match stored t env.offer ⟨some i, some name⟩ with
        | none => (.serverError, t)
        | some ch => (r, ch.applyRows t)
      else (.serverError, t) := by
  have ht : i ∈ t := mem_of_lookup hr
  by_cases hn : name = n.val
  · have hs : stored t env.offer ⟨some i, some name⟩ = some (.set i n) := by
      simp [stored, hn, toColumn_val, ht]
    have hsame : (Change.set i n).applyRows t = t := replace_eq_self hr
    rw [runFrom_settled env t _ (by rw [updates_renamed, if_pos hn]), settled_passing, hs]
    simp only [hsame]
  · by_cases hst : env.passes steps
    · rw [passing_ok hst, runFrom_finish, updates_renamed, if_neg hn, committedRows_update]
      cases hf : env.fails .flush with
      | true => simp [hf, Store.idle]
      | false =>
        cases hc : toColumn (some name) with
        | error ex =>
          have he : ex.toResponse = .serverError := toColumn_internal hc
          simp [stored, hf, hst, hc, he, Store.idle]
        | ok m => simp [stored, hf, hst, hc, ht, Change.applyRows]
    · obtain ⟨st, he⟩ := passing_error hst r
      rw [he]
      simp only [passes_cons, hst, and_false, if_false]
      rfl

/-- The form update of a row: dirty checking skips the write exactly where it would
change nothing. -/
theorem serve_save_id {raw name : Option JString} {i : Integer}
    (ha : Request.Authentic p ⟨credentials, .save raw name⟩)
    (hi : formParam p raw = .ok (some i)) :
    serve p t ⟨⟨credentials, .save raw name⟩, env⟩ =
      if env.fails .lookup then (.serverError, t)
      else if i ∈ t then
        if env.passes [.persist, .flush, .response] then
          match stored t env.offer ⟨some i, name⟩ with
          | none => (.serverError, t)
          | some ch => (.seeOther "/categories", ch.applyRows t)
        else (.serverError, t)
      else (.ofStatus 404 .empty, t) := by
  have h : auth p credentials = .ok ⟨none⟩ := auth_authentic ha
  have hm : (dispatch p env ⟨credentials, .save raw name⟩).eval .new =
      (CategoryResource.save env ⟨none⟩ (some i) name).eval .new := by simp [dispatch, h, hi]
  cases hl : env.fails .lookup with
  | true => exact runAlone_lookup_fails env t hm hl
  | false =>
    refine (runAlone_lookup env t hm hl).trans ?_
    cases hr : t.lookup i with
    | none =>
      have ht : i ∉ t := AList.lookup_eq_none.mp hr
      simp only [ht, if_false]
      rfl
    | some n =>
      have ht : i ∈ t := mem_of_lookup hr
      simp only [ht, if_true, Bool.false_eq_true, if_false]
      cases name with
      | none =>
        rw [stored_null]
        simp only [ite_self]
        rfl
      | some name =>
        change runAlone env t ((CategoryDAO.save env ⟨some i, some name⟩ >>= fun _ =>
          step env .response >>= fun _ =>
            pure (.seeOther "/categories")).eval ⟨[.ofRow i n]⟩ >>= finish env) = _
        cases hp : env.fails .persist with
        | true =>
          simp only [eval_bind, CategoryDAO.eval_save_fails _ hp, passes_cons, hp,
            Bool.true_eq_false, false_and, if_false]
          rfl
        | false =>
          rw [eval_bind, CategoryDAO.eval_save_update _ hp rfl]
          simp only [done_bind, eval_redirect, passes_cons, hp, true_and]
          simpa only [passes_cons, runAlone] using
            runFrom_renamed t env hr name [.response] (.seeOther "/categories")

/-- What the catch-all of `createCategoryJson` makes of an exception. -/
def caught (p : Platform) (ex : Throwable) : Except Throwable Response :=
  passing env [.errorResponse] (.ofStatus 500 (.message (p.message ex)))

/-- The steps between `save` and the return of `createCategoryJson`. -/
def afterCreate : List Step := [.categoryDTO, .links, .response]

/-- The reply of `createCategoryJson` once the entity is saved. -/
def createdReply (p : Platform) (c : Category) : Except Throwable Response :=
  match passing env afterCreate (.created .CATEGORY [c.id]) with
  | .ok r => .ok r
  | .error ex => caught env p ex

theorem settled_caught (p : Platform) (ex : Throwable) :
    ∃ r : Response, r.status = 500 ∧ settled env t (caught env p ex) = (r, t) := by
  rw [caught, settled_passing]
  split
  · exact ⟨_, rfl, rfl⟩
  · exact ⟨_, rfl, rfl⟩

theorem eval_caught (p : Platform) (ex : Throwable) (s : Session) :
    Tx.eval (step env .errorResponse >>= fun _ =>
      pure (.ofStatus 500 (.message (p.message ex)))) s = .done (caught env p ex, s) :=
  eval_step_passing _ s (eval_pure_passing s)

theorem eval_createCategoryJson_throws (user : Authentication) {dto : Option CategoryDTO}
    {ex : Throwable}
    (hx : Tx.eval (deref dto >>= fun d => d.toCategory env) .new = .done (.error ex, .new)) :
    (CategoryResource.createCategoryJson p.message env user dto).eval .new =
      .done (caught env p ex, .new) := by
  cases dto with
  | none =>
    cases hx
    simpa [CategoryResource.createCategoryJson] using eval_caught env p .nullPointer .new
  | some d =>
    simp only [eval_bind, eval_deref_some, done_bind] at hx
    simpa [CategoryResource.createCategoryJson, hx] using eval_caught env p ex .new

theorem eval_createCategoryJson (user : Authentication) {dto : CategoryDTO} {name : JString}
    (hf : env.fails .toCategory = false) (hn : dto.name = some name) :
    (CategoryResource.createCategoryJson p.message env user (some dto)).eval .new =
      (CategoryDAO.save env ⟨dto.id, dto.name⟩).eval .new >>= fun
        | (.ok c', s) => .done (createdReply env p c', s)
        | (.error ex, s) => .done (caught env p ex, s) := by
  have hk (c : Category) (s : Session) :
      (newCategoryDTO env c >>= fun d => step env .links >>= fun _ => step env .response >>=
        fun _ => pure (Response.created .CATEGORY [d.id])).eval s =
          .done (passing env afterCreate (.created .CATEGORY [c.id]), s) :=
    eval_convert_passing _ _ s (eval_step_passing _ s (eval_step_passing _ s
      (eval_pure_passing s)))
  have hb : (do
        let d ← newCategoryDTO env
          (← CategoryDAO.save env (← (← deref (some dto)).toCategory env))
        step env .links
        step env .response
        return Response.created .CATEGORY [d.id] : Tx Response).eval .new =
      (CategoryDAO.save env ⟨dto.id, dto.name⟩).eval .new >>= fun
        | (.ok c', s) => .done (passing env afterCreate (.created .CATEGORY [c'.id]), s)
        | (.error ex, s) => .done (.error ex, s) := by
    rw [eval_bind, eval_deref_some]
    refine (eval_toCategory_then env .new).trans ?_
    simp only [hf, hn, Bool.false_eq_true, if_false]
    rw [eval_bind]
    congr 1
    funext x
    rcases x with ⟨ex | c', s⟩
    · rfl
    · exact hk c' s
  rw [CategoryResource.createCategoryJson, eval_tryCatch, hb, bind_bind]
  congr 1
  funext x
  rcases x with ⟨ex | c', s⟩
  · exact eval_caught env p ex s
  · simp only [createdReply]
    cases passing env afterCreate (.created .CATEGORY [c'.id]) with
    | ok r => rfl
    | error ex => exact eval_caught env p ex s

section CreateJson
variable {category : JsonBody}
  (ha : Request.Authentic p ⟨credentials, .createCategoryJson category⟩)
include ha

theorem serve_createCategoryJson_throws {dto : Option CategoryDTO} {ex : Throwable}
    (hv : validEntity p category = .ok dto)
    (hx : Tx.eval (deref dto >>= fun d => d.toCategory env) .new = .done (.error ex, .new)) :
    ∃ r : Response, r.status = 500 ∧
      serve p t ⟨⟨credentials, .createCategoryJson category⟩, env⟩ = (r, t) := by
  have h : auth p credentials = .ok ⟨none⟩ := auth_authentic ha
  have hm : (dispatch p env ⟨credentials, .createCategoryJson category⟩).eval .new =
      .done (caught env p ex, .new) := by
    simpa only [dispatch, h, hv, eval_bind, eval_ofExcept, done_bind] using
      eval_createCategoryJson_throws env ⟨none⟩ hx
  obtain ⟨r, hr, hs⟩ := settled_caught t env p ex
  refine ⟨r, hr, ?_⟩
  change runAlone env t (unitOfWork env _) = _
  rw [unitOfWork, hm, ← hs]
  exact runFrom_settled env t _ rfl

theorem eval_createCategoryJson_save {dto : CategoryDTO} {name : JString}
    (hv : validEntity p category = .ok (some dto)) (hf : env.fails .toCategory = false)
    (hn : dto.name = some name) :
    (dispatch p env ⟨credentials, .createCategoryJson category⟩).eval .new =
      (CategoryDAO.save env ⟨dto.id, dto.name⟩).eval .new >>= fun
        | (.ok c', s) => .done (createdReply env p c', s)
        | (.error ex, s) => .done (caught env p ex, s) := by
  have h : auth p credentials = .ok ⟨none⟩ := auth_authentic ha
  have hm : (dispatch p env ⟨credentials, .createCategoryJson category⟩).eval .new =
      (CategoryResource.createCategoryJson p.message env ⟨none⟩ (some dto)).eval .new := by
    simp only [dispatch, h, hv, eval_bind, eval_ofExcept, done_bind]
  rw [hm]
  exact eval_createCategoryJson env ⟨none⟩ hf hn

/-- A save that fails is answered by the catch-all. -/
theorem serve_createCategoryJson_refused {dto : CategoryDTO} {name : JString}
    (hv : validEntity p category = .ok (some dto)) (hn : dto.name = some name)
    (hx : env.passes [.toCategory, .persist] →
      dto.id = none ∧ stored t env.offer ⟨dto.id, dto.name⟩ = none) :
    ∃ r : Response, r.status = 500 ∧
      serve p t ⟨⟨credentials, .createCategoryJson category⟩, env⟩ = (r, t) := by
  cases hf : env.fails .toCategory with
  | true =>
    have he : Tx.eval (deref (some dto) >>= fun d => d.toCategory env) .new =
        .done (.error (.failure .toCategory), .new) := eval_step_throws hf _ .new
    exact serve_createCategoryJson_throws t env ha hv he
  | false =>
    have hm := eval_createCategoryJson_save env ha hv hf hn
    cases hp : env.fails .persist with
    | true =>
      obtain ⟨r, hr, hs⟩ := settled_caught t env p (.failure .persist)
      exact ⟨r, hr, (runAlone_save_fails env t hm hp).trans hs⟩
    | false =>
      obtain ⟨hid, hst⟩ := hx (by simp [hf, hp])
      obtain ⟨ex, -, he⟩ := runAlone_insert_refused env t hm hp hid hst
      obtain ⟨r, hr, hs⟩ := settled_caught t env p ex
      exact ⟨r, hr, he.trans hs⟩

/-- Once the save has gone through, the reply and the flush decide. -/
theorem serve_createCategoryJson_saved {dto : CategoryDTO} {name : JString}
    (hv : validEntity p category = .ok (some dto)) (hn : dto.name = some name)
    (hp : env.passes [.toCategory, .persist])
    (hs : dto.id = none → stored t env.offer ⟨dto.id, dto.name⟩ ≠ none) :
    serve p t ⟨⟨credentials, .createCategoryJson category⟩, env⟩ =
      match createdReply env p (savedAs env.offer ⟨dto.id, dto.name⟩) with
      | .error ex => (ex.toResponse, t)
      | .ok r =>
        if env.fails .flush then (.serverError, t)
        else match stored t env.offer ⟨dto.id, dto.name⟩ with
          | none => (.serverError, t)
          | some ch => (r, ch.applyRows t) := by
  simp only [passes_cons, passes_nil, and_true] at hp
  exact runAlone_saved env t (eval_createCategoryJson_save env ha hv hp.1 hn) hp.2 hs

end CreateJson

end Serve
end CategoryService
