import CategoryService.Handlers

/-! One request as one change of the table: which parameters are refused, which
entity a handler hands to `save`, and what of it is committed. -/
namespace CategoryService
open Interaction KeyedStore Register Numeral

section Parameters
variable {p : Platform}

theorem readInteger_null {s : JString} (h : readInteger p.digits s = some none) : s = [] := by
  unfold readInteger at h
  cases hv : Integer.valueOf p.digits s with
  | some i => simp [hv] at h
  | none => simpa [hv] using h

theorem readInteger_toString (digits : DigitReader) (i : Integer) :
    readInteger digits (Integer.toString i) = some (some i) := by
  have hlo := i.le_toInt
  have hhi := i.toInt_lt
  have hv : Integer.valueOf digits (Integer.toString i) = some i := by
    simp only [Integer.valueOf, Integer.toString, readInt_printInt, Option.bind_some,
      Int32.ofInt_toInt, hlo, hhi, and_self, if_true]
  simp [readInteger, hv]

/-- Every id has a path. -/
def idPath (i : Integer) : PathSegment := ⟨Integer.toString i, printInt_ne_nil i.toInt⟩

theorem pathParam_idPath (i : Integer) : pathParam p (idPath i) = .ok (some i) := by
  simp [pathParam, idPath, readInteger_toString]

/-- A path parameter is never null. -/
theorem pathParam_ok {s : PathSegment} {id : Option Integer} (h : pathParam p s = .ok id) :
    ∃ i, id = some i := by
  unfold pathParam at h
  cases hs : readInteger p.digits s.val with
  | none => simp [hs, refuse] at h
  | some j =>
    have hj : j = id := by simpa [hs] using h
    cases j with
    | none => exact absurd (readInteger_null hs) s.property
    | some i => exact ⟨i, hj.symm⟩

theorem validEntity_ok {body : JsonBody} {dto : Option CategoryDTO}
    (h : validEntity p body = .ok dto) :
    body = .parsed dto ∧
      ((dto = none ∧ p.nullEntityValid = true) ∨ ∃ d, dto = some d ∧ d.Valid) := by
  cases body with
  | unreadable => simp [validEntity, refuse] at h
  | parsed dto' =>
    cases dto' with
    | none =>
      cases hn : p.nullEntityValid with
      | false => simp [validEntity, hn, refuse] at h
      | true =>
        have hd : none = dto := by simpa [validEntity, hn] using h
        exact ⟨by rw [hd], .inl ⟨hd.symm, rfl⟩⟩
    | some d =>
      by_cases hv : d.Valid
      · have hd : some d = dto := by simpa [validEntity, hv] using h
        exact ⟨by rw [hd], .inr ⟨d, hd.symm, hv⟩⟩
      · simp [validEntity, hv, refuse] at h

theorem jsonEntity_ok {body : JsonBody} {dto : Option CategoryDTO}
    (h : jsonEntity body = .ok dto) : body = .parsed dto := by
  cases body with
  | unreadable => simp [jsonEntity, refuse] at h
  | parsed dto' =>
    have hd : dto' = dto := by simpa [jsonEntity] using h
    rw [hd]

theorem CategoryDTO.Valid.name {dto : CategoryDTO} (h : dto.Valid) :
    ∃ name, dto.name = some name ∧ name ≠ [] := by
  cases hn : dto.name with
  | none => exact absurd hn h.1
  | some name => exact ⟨name, rfl, fun he => h.2 (by rw [hn, he])⟩

end Parameters

def refusal {α : Type} : Except Throwable α → Option Response
  | .error ex => some ex.toResponse
  | .ok _ => none

@[simp] theorem refusal_ok {α : Type} (a : α) :
    refusal (.ok a : Except Throwable α) = none := rfl

@[simp] theorem refusal_error {α : Type} (ex : Throwable) :
    refusal (.error ex : Except Throwable α) = some ex.toResponse := rfl

theorem refusal_eq_none {α : Type} {x : Except Throwable α} (h : refusal x = none) :
    ∃ a, x = .ok a := by
  cases x with
  | error ex => simp at h
  | ok a => exact ⟨a, rfl⟩

/-- The response of the first parameter, in declared order, that is refused. -/
def Request.refusal (p : Platform) (r : Request) : Option Response :=
  (CategoryService.refusal (auth p r.credentials)).or <| match r.call with
    | .viewCategory id | .viewCategoryJson id => CategoryService.refusal (pathParam p id)
    | .createCategory category | .createCategoryJson category =>
      CategoryService.refusal (validEntity p category)
    | .save id _ => CategoryService.refusal (formParam p id)
    | .saveJson id categoryDto =>
      (CategoryService.refusal (pathParam p id)).or (CategoryService.refusal (jsonEntity categoryDto))
    | .listCategories | .listCategoriesJson | .newCategory => none

theorem refusal_eq_some {α : Type} {x : Except Throwable α} {resp : Response}
    (h : refusal x = some resp) : ∃ ex : Throwable, ex.toResponse = resp ∧ x = .error ex := by
  cases x with
  | error ex => exact ⟨ex, by simpa [refusal] using h, rfl⟩
  | ok a => simp [refusal] at h

/-- Whatever is refused is refused by a client error. -/
def Refusing {α : Type} (x : Except Throwable α) : Prop :=
  ∀ resp, refusal x = some resp → resp.ClientError

theorem refusing_ok {α : Type} (a : α) : Refusing (.ok a : Except Throwable α) :=
  fun _ h => by cases h

theorem refusing_refuse {α : Type} {resp : Response} (h : resp.ClientError) :
    Refusing (refuse resp : Except Throwable α) := by
  intro resp' hr
  have he : resp = resp' := by simpa [refuse, Throwable.toResponse] using hr
  exact he ▸ h

section Refusing
variable (p : Platform)

theorem auth_refusing (credentials : Option BasicCredentials) : Refusing (auth p credentials) := by
  unfold auth
  split
  · exact refusing_refuse (by decide)
  · split
    · exact refusing_ok _
    · exact refusing_refuse (by decide)

theorem pathParam_refusing (id : PathSegment) : Refusing (pathParam p id) := by
  unfold pathParam
  split
  · exact refusing_ok _
  · exact refusing_refuse (by decide)

theorem formParam_refusing (id : Option JString) : Refusing (formParam p id) := by
  unfold formParam
  split
  · exact refusing_ok _
  · split
    · exact refusing_ok _
    · exact refusing_refuse (by decide)

theorem jsonEntity_refusing (body : JsonBody) : Refusing (jsonEntity body) := by
  cases body with
  | unreadable => exact refusing_refuse (by decide)
  | parsed dto => exact refusing_ok dto

theorem validEntity_refusing (body : JsonBody) : Refusing (validEntity p body) := by
  unfold validEntity
  split
  · exact refusing_refuse (by decide)
  · split
    · exact refusing_ok _
    · exact refusing_refuse (by decide)
  · split
    · exact refusing_ok _
    · exact refusing_refuse (by decide)

theorem or_refusal {o o' : Option Response} (h : ∀ resp, o = some resp → resp.ClientError)
    (h' : ∀ resp, o' = some resp → resp.ClientError) :
    ∀ resp, o.or o' = some resp → resp.ClientError := by
  cases o with
  | none => simpa using h'
  | some resp => simpa using h resp rfl

theorem refusal_clientError {r : Request} {resp : Response} (h : r.refusal p = some resp) :
    resp.ClientError := by
  refine or_refusal (auth_refusing p r.credentials) ?_ resp h
  split
  · exact pathParam_refusing p _
  · exact pathParam_refusing p _
  · exact validEntity_refusing p _
  · exact validEntity_refusing p _
  · exact formParam_refusing p _
  · exact or_refusal (pathParam_refusing p _) (jsonEntity_refusing _)
  all_goals exact fun _ hn => by cases hn

end Refusing

theorem ClientError.not_success {resp : Response} (h : resp.ClientError) : ¬ resp.Success := by
  unfold Response.ClientError at h
  unfold Response.Success
  omega

/-- A call with a parameter that is refused, by what its reader throws. -/
inductive Call.Refused (p : Platform) (ex : Throwable) : Call → Prop
  | viewCategory {id : PathSegment} (hi : pathParam p id = .error ex) :
      Refused p ex (.viewCategory id)
  | viewCategoryJson {id : PathSegment} (hi : pathParam p id = .error ex) :
      Refused p ex (.viewCategoryJson id)
  | createCategory {body : JsonBody} (hv : validEntity p body = .error ex) :
      Refused p ex (.createCategory body)
  | createCategoryJson {body : JsonBody} (hv : validEntity p body = .error ex) :
      Refused p ex (.createCategoryJson body)
  | save {id name : Option JString} (hi : formParam p id = .error ex) : Refused p ex (.save id name)
  | saveJsonId {id : PathSegment} {body : JsonBody} (hi : pathParam p id = .error ex) :
      Refused p ex (.saveJson id body)
  | saveJsonBody {id : PathSegment} {body : JsonBody} {i : Option Integer}
      (hi : pathParam p id = .ok i) (hb : jsonEntity body = .error ex) :
      Refused p ex (.saveJson id body)

theorem refused_of_refusal {p : Platform} {r : Request} {resp : Response} (ha : r.Authentic p)
    (hr : r.refusal p = some resp) : ∃ ex, ex.toResponse = resp ∧ r.call.Refused p ex := by
  obtain ⟨credentials, call⟩ := r
  have hauth := auth_authentic ha
  simp only at hauth
  simp only [Request.refusal, hauth, refusal_ok, Option.none_or] at hr
  cases call with
  | listCategories | listCategoriesJson | newCategory => cases hr
  | viewCategory id =>
    obtain ⟨ex, hex, hi⟩ := refusal_eq_some hr
    exact ⟨ex, hex, .viewCategory hi⟩
  | viewCategoryJson id =>
    obtain ⟨ex, hex, hi⟩ := refusal_eq_some hr
    exact ⟨ex, hex, .viewCategoryJson hi⟩
  | createCategory body =>
    obtain ⟨ex, hex, hv⟩ := refusal_eq_some hr
    exact ⟨ex, hex, .createCategory hv⟩
  | createCategoryJson body =>
    obtain ⟨ex, hex, hv⟩ := refusal_eq_some hr
    exact ⟨ex, hex, .createCategoryJson hv⟩
  | save id name =>
    obtain ⟨ex, hex, hi⟩ := refusal_eq_some hr
    exact ⟨ex, hex, .save hi⟩
  | saveJson id body =>
    cases hid : pathParam p id with
    | error ex =>
      have hex : ex.toResponse = resp := by simpa [hid] using hr
      exact ⟨ex, hex, .saveJsonId hid⟩
    | ok i =>
      have hb : refusal (jsonEntity body) = some resp := by simpa [hid] using hr
      obtain ⟨ex, hex, hb⟩ := refusal_eq_some hb
      exact ⟨ex, hex, .saveJsonBody hid hb⟩

/-- A refused request gets its refusal as response, whatever the table and the environment. -/
theorem serve_refusal {p : Platform} {r : Request} {resp : Response}
    (h : r.refusal p = some resp) (t : Table) (env : Env) : serve p t ⟨r, env⟩ = (resp, t) := by
  by_cases ha : r.Authentic p
  · obtain ⟨ex, rfl, hcall⟩ := refused_of_refusal ha h
    have hauth := auth_authentic ha
    obtain ⟨credentials, call⟩ := r
    simp only at hauth hcall
    apply serve_refused t env
    cases hcall with
    | viewCategory hi | viewCategoryJson hi => simp [dispatch, hauth, hi]
    | createCategory hv | createCategoryJson hv => simp [dispatch, hauth, hv]
    | save hi => simp [dispatch, hauth, hi]
    | saveJsonId hi => simp [dispatch, hauth, hi]
    | saveJsonBody hi hb => simp [dispatch, hauth, hi, hb]
  · have hr : resp = unauthorized := by
      have := auth_refused ha
      simpa [Request.refusal, this, refuse, Throwable.toResponse, eq_comm] using h
    rw [hr]
    exact serve_unauthorized ha

/-- A call whose parameters are all accepted, with what they resolve to. -/
inductive Call.Accepted (p : Platform) : Call → Prop
  | listCategories : Accepted p .listCategories
  | listCategoriesJson : Accepted p .listCategoriesJson
  | newCategory : Accepted p .newCategory
  | viewCategory {id : PathSegment} {i : Integer} (hi : pathParam p id = .ok (some i)) :
      Accepted p (.viewCategory id)
  | viewCategoryJson {id : PathSegment} {i : Integer} (hi : pathParam p id = .ok (some i)) :
      Accepted p (.viewCategoryJson id)
  | createCategory {body : JsonBody} {dto : Option CategoryDTO}
      (hv : validEntity p body = .ok dto) : Accepted p (.createCategory body)
  | createCategoryJson {body : JsonBody} {dto : Option CategoryDTO}
      (hv : validEntity p body = .ok dto) : Accepted p (.createCategoryJson body)
  | save {id name : Option JString} {i : Option Integer} (hi : formParam p id = .ok i) :
      Accepted p (.save id name)
  | saveJson {id : PathSegment} {i : Integer} {dto : Option CategoryDTO}
      (hi : pathParam p id = .ok (some i)) : Accepted p (.saveJson id (.parsed dto))

theorem accepted_of_refusal {p : Platform} {r : Request} (ha : r.Authentic p)
    (hr : r.refusal p = none) : r.call.Accepted p := by
  obtain ⟨credentials, call⟩ := r
  have hauth := auth_authentic ha
  simp only at hauth
  simp only [Request.refusal, hauth, refusal_ok, Option.none_or] at hr
  cases call with
  | listCategories => exact .listCategories
  | listCategoriesJson => exact .listCategoriesJson
  | newCategory => exact .newCategory
  | viewCategory id =>
    obtain ⟨a, hi⟩ := refusal_eq_none hr
    obtain ⟨i, rfl⟩ := pathParam_ok hi
    exact .viewCategory hi
  | viewCategoryJson id =>
    obtain ⟨a, hi⟩ := refusal_eq_none hr
    obtain ⟨i, rfl⟩ := pathParam_ok hi
    exact .viewCategoryJson hi
  | createCategory body =>
    obtain ⟨dto, hv⟩ := refusal_eq_none hr
    exact .createCategory hv
  | createCategoryJson body =>
    obtain ⟨dto, hv⟩ := refusal_eq_none hr
    exact .createCategoryJson hv
  | save id name =>
    obtain ⟨i, hi⟩ := refusal_eq_none hr
    exact .save hi
  | saveJson id body =>
    obtain ⟨hi, hb⟩ := Option.or_eq_none_iff.mp hr
    obtain ⟨a, hi⟩ := refusal_eq_none hi
    obtain ⟨i, rfl⟩ := pathParam_ok hi
    obtain ⟨dto, hb⟩ := refusal_eq_none hb
    cases jsonEntity_ok hb
    exact .saveJson hi

/-- The entity a request hands to `CategoryDAO.save`. -/
def Request.submitted (p : Platform) (r : Request) : Option Category :=
  match r.call with
  | .createCategory category | .createCategoryJson category =>
    (validEntity p category).toOption.join.map fun dto => ⟨dto.id, dto.name⟩
  | .save id name => (formParam p id).toOption.map fun i => ⟨i, name⟩
  | .saveJson id categoryDto =>
    (pathParam p id).toOption.bind fun _ =>
      (jsonEntity categoryDto).toOption.join.map fun dto => ⟨dto.id, dto.name⟩
  | _ => none

section Submits
variable {p : Platform} {credentials : Option BasicCredentials}

theorem submitted_createCategory {body : JsonBody} {dto : CategoryDTO}
    (hv : validEntity p body = .ok (some dto)) :
    Request.submitted p ⟨credentials, .createCategory body⟩ = some ⟨dto.id, dto.name⟩ := by
  simp [Request.submitted, hv, Except.toOption]

theorem submitted_createCategoryJson {body : JsonBody} {dto : CategoryDTO}
    (hv : validEntity p body = .ok (some dto)) :
    Request.submitted p ⟨credentials, .createCategoryJson body⟩ = some ⟨dto.id, dto.name⟩ := by
  simp [Request.submitted, hv, Except.toOption]

theorem submitted_save {id : Option JString} {i : Option Integer} (hi : formParam p id = .ok i)
    (name : Option JString) :
    Request.submitted p ⟨credentials, .save id name⟩ = some ⟨i, name⟩ := by
  simp [Request.submitted, hi, Except.toOption]

theorem submitted_saveJson {id : PathSegment} {i : Option Integer}
    (hi : pathParam p id = .ok i) (dto : CategoryDTO) :
    Request.submitted p ⟨credentials, .saveJson id (.parsed (some dto))⟩ =
      some ⟨dto.id, dto.name⟩ := by
  simp [Request.submitted, hi, jsonEntity, Except.toOption]

end Submits

/-- The steps of the handlers that save, the flush among them. -/
def Call.steps (c : Category) : Call → List Step
  | .createCategory _ => [.toCategory, .persist, .flush, .categoryDTO, .response]
  | .createCategoryJson _ => .toCategory :: .persist :: .flush :: afterCreate
  | .save _ _ =>
    if c.id = none then [.persist, .flush, .response] else [.lookup, .persist, .flush, .response]
  | .saveJson _ _ => [.toCategory, .persist, .flush, .response]
  | _ => []

/-- The steps let the transaction commit. In `createCategoryJson` a step after the
save may throw, as long as the error response can be built. -/
def Env.Commits (env : Env) (c : Category) : Call → Prop
  | .createCategoryJson _ =>
    env.passes [.toCategory, .persist, .flush] ∧
      (env.passes afterCreate ∨ env.fails .errorResponse = false)
  | call => env.passes (call.steps c)

instance (env : Env) (c : Category) : (call : Call) → Decidable (env.Commits c call)
  | .createCategoryJson _ => inferInstanceAs (Decidable (_ ∧ (_ ∨ _)))
  | .listCategories | .listCategoriesJson | .viewCategory _ | .viewCategoryJson _
  | .newCategory | .createCategory _ | .save _ _ | .saveJson _ _ =>
    inferInstanceAs (Decidable (env.passes _))

theorem commits_of_passes {env : Env} {c : Category} {call : Call}
    (h : env.passes (call.steps c)) : env.Commits c call := by
  cases call with
  | createCategoryJson body =>
    simp only [Call.steps, passes_cons] at h
    obtain ⟨hd, hp, hf, hafter⟩ := h
    exact ⟨by simp [hd, hp, hf], .inl hafter⟩
  | _ => exact h

/-- What a served request does to the table. -/
def Event.change (p : Platform) (t : Table) (e : Event) : Change Integer NameColumn :=
  match e.request.submitted p with
  | none => .keep
  | some c =>
    if e.request.Authentic p ∧ e.env.Commits c e.request.call then
      (stored t e.env.offer c).getD .keep
    else .keep

theorem change_fits (p : Platform) (t : Table) (e : Event) : (e.change p t).Fits t.lookup := by
  unfold Event.change
  split
  · trivial
  · split
    · cases hs : stored t e.env.offer _ with
      | none => trivial
      | some ch => exact stored_fits hs
    · trivial

theorem change_of_submitted_none {p : Platform} {t : Table} {e : Event}
    (h : e.request.submitted p = none) : e.change p t = .keep := by
  simp [Event.change, h]

theorem change_of_submitted {p : Platform} {t : Table} {r : Request} {env : Env} {c : Category}
    (h : r.submitted p = some c) (ha : r.Authentic p) :
    Event.change p t ⟨r, env⟩ =
      if env.Commits c r.call then (stored t env.offer c).getD .keep else .keep := by
  simp [Event.change, h, ha]

theorem change_of_refused {p : Platform} {t : Table} {e : Event} {resp : Response}
    (h : e.request.refusal p = some resp) (ha : e.request.Authentic p) :
    e.change p t = .keep := by
  apply change_of_submitted_none
  obtain ⟨ex, -, hcall⟩ := refused_of_refusal ha h
  obtain ⟨⟨credentials, call⟩, env⟩ := e
  simp only at hcall
  cases hcall with
  | viewCategory hi | viewCategoryJson hi => rfl
  | createCategory hv | createCategoryJson hv => simp [Request.submitted, hv, Except.toOption]
  | save hi => simp [Request.submitted, hi, Except.toOption]
  | saveJsonId hi => simp [Request.submitted, hi, Except.toOption]
  | saveJsonBody hi hb => simp [Request.submitted, hi, hb, Except.toOption]

/-- The table of a handler that saves, once its response is put aside. -/
theorem written_snd {P Q : Prop} [Decidable P] [Decidable Q] (h : P ↔ Q) (t : Table)
    (o : Option (Change Integer NameColumn)) (r : Response) :
    (if P then
      match o with
      | none => (Response.serverError, t)
      | some ch => (r, ch.applyRows t)
    else (Response.serverError, t)).2 = (if Q then o.getD .keep else .keep).applyRows t := by
  by_cases hq : Q
  · rw [if_pos hq, if_pos (h.mpr hq)]
    cases o <;> rfl
  · rw [if_neg hq, if_neg (mt h.mp hq)]
    rfl

theorem stored_missing {t : Table} {offer i : Integer} (ht : i ∉ t) (name : Option JString) :
    stored t offer ⟨some i, name⟩ = none := by
  simp only [stored, ht, if_false]
  cases toColumn name <;> rfl

theorem caught_cases (env : Env) (p : Platform) (ex : Throwable) :
    (env.fails .errorResponse = false ∧
      caught env p ex = .ok (.ofStatus 500 (.message (p.message ex)))) ∨
    (env.fails .errorResponse = true ∧ caught env p ex = .error (.failure .errorResponse)) := by
  cases hf : env.fails .errorResponse <;> simp [caught, passing, hf]

theorem createdReply_cases (env : Env) (p : Platform) (c : Category) :
    (env.passes afterCreate ∧ createdReply env p c = .ok (.created .CATEGORY [c.id])) ∨
    (¬ env.passes afterCreate ∧ ∃ st, createdReply env p c = caught env p (.failure st)) := by
  by_cases ha : env.passes afterCreate
  · exact .inl ⟨ha, by simp [createdReply, passing_ok ha]⟩
  · obtain ⟨st, he⟩ := passing_error ha (.created .CATEGORY [c.id])
    exact .inr ⟨ha, st, by simp [createdReply, he]⟩

theorem createdReply_ok (env : Env) (p : Platform) (c : Category) :
    (∃ r, createdReply env p c = .ok r) ↔
      env.passes afterCreate ∨ env.fails .errorResponse = false := by
  obtain ⟨ha, hr⟩ | ⟨ha, st, hr⟩ := createdReply_cases env p c
  · simp [hr, ha]
  · obtain ⟨hf, hc⟩ | ⟨hf, hc⟩ := caught_cases env p (.failure st)
    · simp [hr, hc, hf]
    · simp [hr, hc, hf, ha]

theorem serve_createCategoryJson_change {p : Platform} {credentials : Option BasicCredentials}
    {body : JsonBody} (t : Table) (env : Env)
    (ha : Request.Authentic p ⟨credentials, .createCategoryJson body⟩) {dto : CategoryDTO}
    (hv : validEntity p body = .ok (some dto)) {name : JString} (hn : dto.name = some name) :
    (serve p t ⟨⟨credentials, .createCategoryJson body⟩, env⟩).2 =
      (if env.Commits ⟨dto.id, dto.name⟩ (.createCategoryJson body) then
        (stored t env.offer ⟨dto.id, dto.name⟩).getD .keep else .keep).applyRows t := by
  by_cases hs : env.passes [.toCategory, .persist] →
      dto.id = none ∧ stored t env.offer ⟨dto.id, dto.name⟩ = none
  · obtain ⟨r, -, he⟩ := serve_createCategoryJson_refused t env ha hv hn hs
    rw [he]
    by_cases hc : env.passes [.toCategory, .persist]
    · simp [(hs hc).2, Change.applyRows]
    · have hnc : ¬ env.Commits ⟨dto.id, dto.name⟩ (.createCategoryJson body) := by
        intro h
        simp only [Env.Commits, passes_cons, passes_nil, and_true] at h hc
        exact hc ⟨h.1.1, h.1.2.1⟩
      simp [hnc, Change.applyRows]
  · rw [Classical.not_imp] at hs
    obtain ⟨hc, hst⟩ := hs
    have hsaved : dto.id = none → stored t env.offer ⟨dto.id, dto.name⟩ ≠ none :=
      fun hid hnone => hst ⟨hid, hnone⟩
    have hcommits : env.Commits ⟨dto.id, dto.name⟩ (.createCategoryJson body) ↔
        env.fails .flush = false ∧
          (env.passes afterCreate ∨ env.fails .errorResponse = false) := by
      simp only [passes_cons, passes_nil, and_true] at hc
      simp [Env.Commits, hc]
    rw [serve_createCategoryJson_saved t env ha hv hn hc hsaved]
    cases hr : createdReply env p (savedAs env.offer ⟨dto.id, dto.name⟩) with
    | error ex =>
      have hno : ¬ (env.passes afterCreate ∨ env.fails .errorResponse = false) := by
        rw [← createdReply_ok env p]
        rintro ⟨r, hok⟩
        rw [hr] at hok
        cases hok
      simp [hcommits, hno, Change.applyRows]
    | ok r =>
      have hyes := (createdReply_ok env p _).mp ⟨r, hr⟩
      cases hf : env.fails .flush with
      | true => simp [hcommits, hf, Change.applyRows]
      | false =>
        simp only [hcommits, hf, hyes, Bool.false_eq_true, if_false, and_self, if_true]
        cases stored t env.offer ⟨dto.id, dto.name⟩ <;> rfl

theorem serve_save_change {p : Platform} {credentials : Option BasicCredentials}
    {raw name : Option JString} (t : Table) (env : Env)
    (ha : Request.Authentic p ⟨credentials, .save raw name⟩) {i : Option Integer}
    (hi : formParam p raw = .ok i) :
    (serve p t ⟨⟨credentials, .save raw name⟩, env⟩).2 =
      (if env.Commits ⟨i, name⟩ (.save raw name) then
        (stored t env.offer ⟨i, name⟩).getD .keep else .keep).applyRows t := by
  cases i with
  | none =>
    rw [serve_save_new t env ha hi]
    exact written_snd (by simp [Env.Commits, Call.steps]) t _ _
  | some i =>
    rw [serve_save_id t env ha hi]
    cases hl : env.fails .lookup with
    | true => simp [Env.Commits, Call.steps, hl, Change.applyRows]
    | false =>
      by_cases ht : i ∈ t
      · simp only [ht, Bool.false_eq_true, if_false, if_true]
        exact written_snd (by simp [Env.Commits, Call.steps, hl]) t _ _
      · simp [ht, stored_missing ht name, Change.applyRows]

/-- The table after a request is the change it stands for, for every choice of failing steps. -/
theorem serve_change (p : Platform) (t : Table) (e : Event) :
    (serve p t e).2 = (e.change p t).applyRows t := by
  by_cases ha : e.request.Authentic p
  · cases hr : e.request.refusal p with
    | some resp =>
      rw [serve_refusal hr, change_of_refused hr ha]
      rfl
    | none =>
      obtain ⟨⟨credentials, call⟩, env⟩ := e
      have hcall := accepted_of_refusal ha hr
      cases hcall with
      | listCategories =>
        rw [serve_listCategories t env ha]
        split <;> rfl
      | listCategoriesJson =>
        rw [serve_listCategoriesJson t env ha]
        split <;> rfl
      | newCategory =>
        rw [serve_newCategory t env ha]
        split <;> rfl
      | viewCategory hi =>
        rw [serve_viewCategory t env ha hi]
        split
        · rfl
        · split
          · rfl
          · split <;> rfl
      | viewCategoryJson hi =>
        rw [serve_viewCategoryJson t env ha hi]
        split
        · rfl
        · split <;> split <;> rfl
      | @createCategory body dto hv =>
        cases dto with
        | none =>
          rw [serve_createCategory_null t env ha hv, change_of_submitted_none]
          · rfl
          · simp [Request.submitted, hv, Except.toOption]
        | some dto =>
          rw [serve_createCategory t env ha hv,
            change_of_submitted (submitted_createCategory hv) ha]
          exact written_snd Iff.rfl t _ _
      | @createCategoryJson body dto hv =>
        obtain ⟨-, ⟨rfl, -⟩ | ⟨d, rfl, hd⟩⟩ := validEntity_ok hv
        · obtain ⟨r, -, he⟩ := serve_createCategoryJson_throws t env ha hv rfl
          rw [he, change_of_submitted_none]
          · rfl
          · simp [Request.submitted, hv, Except.toOption]
        · obtain ⟨name, hn, -⟩ := hd.name
          rw [serve_createCategoryJson_change t env ha hv hn,
            change_of_submitted (submitted_createCategoryJson hv) ha]
      | @save raw name i hi =>
        rw [serve_save_change t env ha hi, change_of_submitted (submitted_save hi name) ha]
      | @saveJson id i dto hi =>
        cases dto with
        | none =>
          rw [serve_saveJson_null t env ha hi rfl, change_of_submitted_none]
          · rfl
          · simp [Request.submitted, hi, jsonEntity, Except.toOption]
        | some dto =>
          rw [serve_saveJson t env ha hi rfl, change_of_submitted (submitted_saveJson hi dto) ha]
          exact written_snd Iff.rfl t _ _
  · rw [serve_unauthorized ha]
    unfold Event.change
    split
    · rfl
    · simp [ha, Change.applyRows]

theorem lookup_serve (p : Platform) (t : Table) (e : Event) :
    (fun k => (serve p t e).2.lookup k) = (e.change p t).apply t.lookup := by
  rw [serve_change]
  exact lookup_applyRows (change_fits p t e)

/-- The response of a handler whose entity is now persistent. -/
def Call.reply (c : Category) : Call → Response
  | .createCategory _ => .ok (.view ⟨.ofCategory c⟩)
  | .createCategoryJson _ => .created .CATEGORY [c.id]
  | .save _ _ => .seeOther "/categories"
  | _ => .ok .empty

theorem reply_success (call : Call) (c : Category) : (call.reply c).Success := by
  cases call <;> simp [Response.Success, Call.reply, Response.ok, Response.ofStatus,
    Response.created, Response.seeOther]

section Submitted
variable {p : Platform} {r : Request} {c : Category} (t : Table) (env : Env)

theorem toOption_eq_some {α : Type} {x : Except Throwable α} {a : α} :
    x.toOption = some a ↔ x = .ok a := by
  cases x <;> simp [Except.toOption]

theorem toOption_join_eq_some {α : Type} {x : Except Throwable (Option α)} {a : α} :
    x.toOption.join = some a ↔ x = .ok (some a) := by
  cases x <;> simp [Except.toOption]

theorem status_serverError : Response.serverError.status = 500 := rfl

theorem not_success_of_status {resp : Response} (h : resp.status = 500) : ¬ resp.Success := by
  simp [Response.Success, h]

theorem written_cases {P : Prop} [Decidable P] {o : Option (Change Integer NameColumn)}
    {resp : Response} {x : Response × Table}
    (h : x = if P then
        match o with
        | none => (.serverError, t)
        | some ch => (resp, ch.applyRows t)
      else (.serverError, t)) :
    (∃ ch, P ∧ o = some ch ∧ x = (resp, ch.applyRows t)) ∨
      (¬ (P ∧ o ≠ none) ∧ ¬ x.1.Success) := by
  by_cases hp : P
  · cases o with
    | none =>
      rw [if_pos hp] at h
      exact .inr ⟨by simp, by rw [h]; exact not_success_of_status rfl⟩
    | some ch =>
      rw [if_pos hp] at h
      exact .inl ⟨ch, hp, rfl, h⟩
  · rw [if_neg hp] at h
    exact .inr ⟨fun hc => hp hc.1, by rw [h]; exact not_success_of_status rfl⟩

theorem createCategoryJson_cases {credentials : Option BasicCredentials} {body : JsonBody}
    {dto : CategoryDTO} (ha : Request.Authentic p ⟨credentials, .createCategoryJson body⟩)
    (hv : validEntity p body = .ok (some dto)) :
    (∃ ch, env.passes (.toCategory :: .persist :: .flush :: afterCreate) ∧
      stored t env.offer ⟨dto.id, dto.name⟩ = some ch ∧
      serve p t ⟨⟨credentials, .createCategoryJson body⟩, env⟩ =
        (.created .CATEGORY [some (dto.id.getD env.offer)], ch.applyRows t)) ∨
    (¬ (env.passes (.toCategory :: .persist :: .flush :: afterCreate) ∧
        stored t env.offer ⟨dto.id, dto.name⟩ ≠ none) ∧
      (serve p t ⟨⟨credentials, .createCategoryJson body⟩, env⟩).1.status = 500) := by
  obtain ⟨-, ⟨hd, -⟩ | ⟨d, hd, hvalid⟩⟩ := validEntity_ok hv
  · cases hd
  cases hd
  obtain ⟨name, hn, -⟩ := hvalid.name
  by_cases hs : env.passes [.toCategory, .persist] →
      dto.id = none ∧ stored t env.offer ⟨dto.id, dto.name⟩ = none
  · obtain ⟨resp, hr, he⟩ := serve_createCategoryJson_refused t env ha hv hn hs
    refine .inr ⟨fun ⟨hp, hst⟩ => ?_, by rw [he]; exact hr⟩
    simp only [passes_cons] at hp
    exact hst (hs (by simp [hp])).2
  · rw [Classical.not_imp] at hs
    obtain ⟨hc, hst⟩ := hs
    have he := serve_createCategoryJson_saved t env ha hv hn hc fun hid hnone => hst ⟨hid, hnone⟩
    obtain ⟨hall, hr⟩ | ⟨hall, st, hr⟩ :=
      createdReply_cases env p (savedAs env.offer ⟨dto.id, dto.name⟩)
    · simp only [hr] at he
      cases hf : env.fails .flush with
      | true => exact .inr ⟨by simp [hf], by simp [he, hf, status_serverError]⟩
      | false =>
        simp only [hf, Bool.false_eq_true, if_false] at he
        cases ho : stored t env.offer ⟨dto.id, dto.name⟩ with
        | none => exact .inr ⟨by simp, by simp [he, ho, status_serverError]⟩
        | some ch =>
          simp only [passes_cons, passes_nil, and_true] at hc
          refine .inl ⟨ch, by simp [hc, hf, hall], rfl, ?_⟩
          simp only [he, ho]
          rfl
    · refine .inr ⟨by simp [hall], ?_⟩
      simp only [hr] at he
      obtain ⟨-, hx⟩ | ⟨-, hx⟩ := caught_cases env p (.failure st)
      · simp only [hx] at he
        rw [he]
        split
        · rfl
        · cases stored t env.offer ⟨dto.id, dto.name⟩ <;> rfl
      · simp only [hx] at he
        rw [he]
        rfl

/-- A handler that saves succeeds where no step throws and the database takes the
entity, and nowhere else. -/
theorem serve_submitted (ha : r.Authentic p) (hs : r.submitted p = some c) :
    (∃ ch, env.passes (r.call.steps c) ∧ stored t env.offer c = some ch ∧
      serve p t ⟨r, env⟩ = (r.call.reply (savedAs env.offer c), ch.applyRows t)) ∨
    (¬ (env.passes (r.call.steps c) ∧ stored t env.offer c ≠ none) ∧
      ¬ (serve p t ⟨r, env⟩).1.Success) := by
  obtain ⟨credentials, call⟩ := r
  cases call with
  | listCategories | listCategoriesJson | newCategory => cases hs
  | viewCategory id | viewCategoryJson id => cases hs
  | createCategory body =>
    obtain ⟨dto, hv, rfl⟩ := Option.map_eq_some_iff.mp hs
    rw [toOption_join_eq_some] at hv
    exact written_cases t (serve_createCategory t env ha hv)
  | createCategoryJson body =>
    obtain ⟨dto, hv, rfl⟩ := Option.map_eq_some_iff.mp hs
    rw [toOption_join_eq_some] at hv
    exact (createCategoryJson_cases t env ha hv).imp_right fun ⟨h, h500⟩ =>
      ⟨h, not_success_of_status h500⟩
  | save raw name =>
    obtain ⟨i, hi, rfl⟩ := Option.map_eq_some_iff.mp hs
    rw [toOption_eq_some] at hi
    cases i with
    | none => exact written_cases t (serve_save_new t env ha hi)
    | some i =>
      have he := serve_save_id t env ha hi
      cases hl : env.fails .lookup with
      | true =>
        rw [he]
        exact .inr ⟨by simp [Call.steps, hl], by simp [hl]; exact not_success_of_status rfl⟩
      | false =>
        by_cases ht : i ∈ t
        · have hsteps : env.passes (Call.steps ⟨some i, name⟩ (.save raw name)) ↔
              env.passes [.persist, .flush, .response] := by simp [Call.steps, hl]
          simp only [hl, ht, if_true, if_false, Bool.false_eq_true] at he
          simp only [hsteps]
          exact written_cases t he
        · have hst : stored t env.offer ⟨some i, name⟩ = none := stored_missing ht name
          have hr : ¬ (Response.ofStatus 404 .empty).Success := by decide
          rw [he]
          exact .inr ⟨by simp [hst], by simpa [hl, ht] using hr⟩
  | saveJson id body =>
    obtain ⟨i, hi, hm⟩ := Option.bind_eq_some_iff.mp hs
    obtain ⟨dto, hb, rfl⟩ := Option.map_eq_some_iff.mp hm
    rw [toOption_eq_some] at hi
    rw [toOption_join_eq_some] at hb
    exact written_cases t (serve_saveJson t env ha hi hb)

end Submitted

section Writes
variable {t : Table} {offer : Integer} {c : Category} {k : Integer} {n : NameColumn}

/-- A write of that id has a row to go to: a new one, or one that exists. -/
def Lands (t : Table) (offer : Integer) : Option Integer → Prop
  | none => offer ∉ t
  | some i => i ∈ t

/-- The change of a write that lands. -/
def changeOf (offer : Integer) (n : NameColumn) : Option Integer → Change Integer NameColumn
  | none => .add offer n
  | some i => .set i n

theorem changeOf_written (id : Option Integer) :
    (changeOf offer n id).written = some (id.getD offer, n) := by
  cases id <;> rfl

theorem lookup_changeOf {cid : Option Integer} (hl : Lands t offer cid) (j : Integer) :
    ((changeOf offer n cid).applyRows t).lookup j =
      if j = cid.getD offer then some n else t.lookup j := by
  have hfits : (changeOf offer n cid).Fits t.lookup := by
    cases cid with
    | none => exact AList.lookup_eq_none.mpr hl
    | some i => exact AList.lookup_isSome.mpr hl
  rw [congrFun (lookup_applyRows hfits) j]
  simp only [Change.apply, changeOf_written, Function.update_apply]

theorem stored_eq_some {ch : Change Integer NameColumn} :
    stored t offer c = some ch ↔
      ∃ n : NameColumn, c.name = some n.val ∧ Lands t offer c.id ∧ ch = changeOf offer n c.id := by
  obtain ⟨id, name⟩ := c
  constructor
  · intro h
    cases hn : toColumn name with
    | error ex => simp [stored, hn] at h
    | ok n =>
      refine ⟨n, toColumn_ok hn, ?_⟩
      cases id with
      | none =>
        by_cases ho : offer ∈ t
        · simp [stored, hn, ho] at h
        · exact ⟨ho, by simpa [stored, hn, ho, changeOf, eq_comm] using h⟩
      | some i =>
        by_cases hi : i ∈ t
        · exact ⟨hi, by simpa [stored, hn, hi, changeOf, eq_comm] using h⟩
        · simp [stored, hn, hi] at h
  · rintro ⟨n, hn, hl, rfl⟩
    simp only at hn hl
    subst hn
    cases id with
    | none => simp [stored, toColumn_val, changeOf, show offer ∉ t from hl]
    | some i => simp [stored, toColumn_val, changeOf, show i ∈ t from hl]

/-- The request writes the name `n` to row `k` and commits it. -/
def Event.Writes (p : Platform) (t : Table) (e : Event) (k : Integer) (n : NameColumn) : Prop :=
  e.request.Authentic p ∧ ∃ c, e.request.submitted p = some c ∧ c.name = some n.val ∧
    c.id.getD e.env.offer = k ∧ Lands t e.env.offer c.id ∧ e.env.Commits c e.request.call

theorem change_ne_keep {p : Platform} {e : Event} (h : e.change p t ≠ .keep) :
    ∃ c, ∃ n : NameColumn, e.request.Authentic p ∧ e.request.submitted p = some c ∧
      c.name = some n.val ∧ Lands t e.env.offer c.id ∧ e.env.Commits c e.request.call ∧
      e.change p t = changeOf e.env.offer n c.id := by
  unfold Event.change at h ⊢
  cases hs : e.request.submitted p with
  | none => simp [hs] at h
  | some c =>
    by_cases hc : e.request.Authentic p ∧ e.env.Commits c e.request.call
    · simp only [hs, if_pos hc] at h ⊢
      cases hst : stored t e.env.offer c with
      | none => simp [hst] at h
      | some ch =>
        obtain ⟨n, hn, hl, rfl⟩ := stored_eq_some.mp hst
        exact ⟨c, n, hc.1, rfl, hn, hl, hc.2, rfl⟩
    · simp [hs, hc] at h

/-- A request that leaves another table has written to one row of it. -/
theorem serve_changed {p : Platform} {e : Event} (h : (serve p t e).2 ≠ t) :
    ∃ c, ∃ n : NameColumn, e.request.Authentic p ∧ e.request.submitted p = some c ∧
      c.name = some n.val ∧ Lands t e.env.offer c.id ∧ e.env.Commits c e.request.call ∧
      (serve p t e).2 = (changeOf e.env.offer n c.id).applyRows t := by
  rw [serve_change] at h ⊢
  have hkeep : e.change p t ≠ .keep := by
    intro he
    rw [he] at h
    exact h rfl
  obtain ⟨c, n, ha, hs, hn, hl, hc, he⟩ := change_ne_keep hkeep
  exact ⟨c, n, ha, hs, hn, hl, hc, by rw [he]⟩

/-- `serve_submitted`, with what the database asks of the entity written out. -/
theorem serve_lands {p : Platform} {r : Request} (ha : r.Authentic p) (hs : r.submitted p = some c)
    (t : Table) (env : Env) :
    (∃ n : NameColumn, env.passes (r.call.steps c) ∧ c.name = some n.val ∧
      Lands t env.offer c.id ∧ serve p t ⟨r, env⟩ =
        (r.call.reply (savedAs env.offer c), (changeOf env.offer n c.id).applyRows t)) ∨
    (¬ (env.passes (r.call.steps c) ∧ (∃ n : NameColumn, c.name = some n.val) ∧
        Lands t env.offer c.id) ∧ ¬ (serve p t ⟨r, env⟩).1.Success) := by
  obtain ⟨ch, hp, hst, he⟩ | ⟨hno, hfail⟩ := serve_submitted t env ha hs
  · obtain ⟨n, hn, hl, rfl⟩ := stored_eq_some.mp hst
    exact .inl ⟨n, hp, hn, hl, he⟩
  · refine .inr ⟨?_, hfail⟩
    rintro ⟨hp, ⟨n, hn⟩, hl⟩
    have hst := stored_eq_some.mpr ⟨n, hn, hl, rfl⟩
    exact hno ⟨hp, by simp [hst]⟩

theorem change_written {p : Platform} {e : Event} :
    (e.change p t).written = some (k, n) ↔ e.Writes p t k n := by
  constructor
  · intro h
    have hkeep : e.change p t ≠ .keep := by
      intro he
      rw [he] at h
      cases h
    obtain ⟨c, m, ha, hs, hn, hl, hc, he⟩ := change_ne_keep hkeep
    rw [he, changeOf_written] at h
    obtain ⟨rfl, rfl⟩ : c.id.getD e.env.offer = k ∧ m = n := by simpa using h
    exact ⟨ha, c, hs, hn, rfl, hl, hc⟩
  · rintro ⟨ha, c, hs, hn, hk, hl, hc⟩
    have hst := stored_eq_some.mpr ⟨n, hn, hl, rfl⟩
    simp only [Event.change, hs, ha, hc, and_self, if_true, hst, Option.getD_some,
      changeOf_written, hk]

end Writes
end CategoryService
