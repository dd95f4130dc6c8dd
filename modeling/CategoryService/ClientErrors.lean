import CategoryService.Changes

/-! Which inputs nothing can take, and which of them are answered as the client's
error. No library fails here on its own account. -/
namespace CategoryService
open KeyedStore Register
variable {p : Platform} {t : Table} {offer : Integer}

/-- The column takes the name, and there is a row of that id if there is an id. -/
def Acceptable (t : Table) (c : Category) : Prop :=
  (∃ n : NameColumn, c.name = some n.val) ∧ ∀ j, c.id = some j → j ∈ t

/-- The request has an input that conversion, setter or constraints cannot take, or
an id of no category. -/
def Request.Unacceptable (p : Platform) (t : Table) (r : Request) : Prop :=
  match r.call with
  | .listCategories | .listCategoriesJson | .newCategory => False
  | .viewCategory id | .viewCategoryJson id => ∀ i, pathParam p id = .ok (some i) → i ∉ t
  | .createCategory category | .createCategoryJson category =>
    ¬ ∃ dto, category = .parsed (some dto) ∧ Acceptable t ⟨dto.id, dto.name⟩
  | .save id name => ¬ ∃ i, formParam p id = .ok i ∧ Acceptable t ⟨i, name⟩
  | .saveJson id categoryDto =>
    ¬ ∃ i dto, pathParam p id = .ok (some i) ∧ i ∈ t ∧ categoryDto = .parsed (some dto) ∧
      Acceptable t ⟨dto.id, dto.name⟩

/-- No server error, and a client error for every unacceptable request. -/
def AnswersRightly (p : Platform) (t : Table) (r : Request) (resp : Response) : Prop :=
  ¬ resp.ServerError ∧ (r.Unacceptable p t → resp.ClientError)

/-- What gets past the checks in front of the handler is what the code behind them can
take. The form handler looks the id up itself. -/
def Request.Handled (p : Platform) (t : Table) (r : Request) : Prop :=
  match r.call with
  | .createCategory category | .createCategoryJson category =>
    ∀ dto, validEntity p category = .ok dto →
      ∃ d, dto = some d ∧ Acceptable t ⟨d.id, d.name⟩
  | .save id name =>
    ∀ i, formParam p id = .ok i → (∀ j, i = some j → j ∈ t) →
      ∃ n : NameColumn, name = some n.val
  | .saveJson id categoryDto =>
    ∀ i dto, pathParam p id = .ok (some i) → categoryDto = .parsed dto →
      i ∈ t ∧ ∃ d, dto = some d ∧ Acceptable t ⟨d.id, d.name⟩
  | _ => True

theorem answersRightly_of_clientError {r : Request} {resp : Response} (h : resp.ClientError) :
    AnswersRightly p t r resp :=
  ⟨Nat.not_le.mpr h.2, fun _ => h⟩

theorem success_of_status {resp : Response} (h : resp.status = 200) : resp.Success := by
  simp [Response.Success, h]

theorem clientError_notFound : (Response.ofStatus 404 .empty).ClientError := by decide

theorem not_answersRightly {r : Request} {resp : Response} (h : resp.status = 500) :
    ¬ AnswersRightly p t r resp := by
  intro hr
  exact hr.1 (by rw [Response.ServerError, h])

theorem answersRightly_of_success {r : Request} {resp : Response} (h : resp.Success) :
    AnswersRightly p t r resp ↔ ¬ r.Unacceptable p t := by
  have hlt : resp.status < 400 := h
  constructor
  · intro hr hu
    have hge := (hr.2 hu).1
    omega
  · intro hu
    refine ⟨?_, fun hc => absurd hc hu⟩
    simp only [Response.ServerError]
    omega

/-- Under a fresh id the database takes exactly what is acceptable. -/
theorem stored_none_iff (ho : offer ∉ t) {c : Category} :
    stored t offer c = none ↔ ¬ Acceptable t c := by
  have hl : Lands t offer c.id ↔ ∀ j, c.id = some j → j ∈ t := by
    cases c.id with
    | none => simp [Lands, ho]
    | some i => simp [Lands]
  rw [Acceptable, ← hl]
  constructor
  · rintro hs ⟨⟨n, hn⟩, hlands⟩
    rw [stored_eq_some.mpr ⟨n, hn, hlands, rfl⟩] at hs
    cases hs
  · intro hno
    by_contra hs
    obtain ⟨ch, hch⟩ := Option.ne_none_iff_exists'.mp hs
    obtain ⟨n, hn, hlands, -⟩ := stored_eq_some.mp hch
    exact hno ⟨⟨n, hn⟩, hlands⟩

theorem handled_of_refused {r : Request} {resp : Response} (ha : r.Authentic p)
    (hr : r.refusal p = some resp) : r.Handled p t := by
  obtain ⟨ex, -, hcall⟩ := refused_of_refusal ha hr
  obtain ⟨credentials, call⟩ := r
  simp only at hcall
  cases hcall with
  | createCategory hv | createCategoryJson hv =>
    intro dto hok
    simp [hv] at hok
  | save hi =>
    intro i hok
    simp [hi] at hok
  | saveJsonId hi =>
    intro i dto hok
    simp [hi] at hok
  | saveJsonBody hi hb =>
    intro i dto hok hbody
    simp [hbody, jsonEntity] at hb
  | viewCategory hi | viewCategoryJson hi => trivial

theorem handled_create_iff {r : Request} {body : JsonBody} {dto : Option CategoryDTO}
    (hv : validEntity p body = .ok dto)
    (hc : r.call = .createCategory body ∨ r.call = .createCategoryJson body) :
    r.Handled p t ↔ ∃ d, dto = some d ∧ Acceptable t ⟨d.id, d.name⟩ := by
  obtain hc | hc := hc <;> simp [Request.Handled, hc, hv]

/-- A saved entity answers rightly, and is refused with 500 exactly where it is unacceptable. -/
theorem written_answersRightly (ho : offer ∉ t) {r : Request} {c : Category} {resp : Response}
    {x : Response × Table}
    (hx : x = match stored t offer c with
      | none => (.serverError, t)
      | some ch => (resp, ch.applyRows t))
    (hresp : resp.Success) (hu : Acceptable t c → ¬ r.Unacceptable p t) :
    AnswersRightly p t r x.1 ↔ Acceptable t c := by
  cases hst : stored t offer c with
  | none =>
    rw [hst] at hx
    rw [hx]
    exact iff_of_false (not_answersRightly rfl) ((stored_none_iff ho).mp hst)
  | some ch =>
    have hc : Acceptable t c := by
      by_contra hc
      rw [(stored_none_iff ho).mpr hc] at hst
      cases hst
    rw [hst] at hx
    rw [hx]
    exact iff_of_true ((answersRightly_of_success hresp).mpr (hu hc)) hc

section Handlers
variable {credentials : Option BasicCredentials}

theorem viewCategory_answersRightly {id : PathSegment} {i : Integer}
    (ha : Request.Authentic p ⟨credentials, .viewCategory id⟩)
    (hi : pathParam p id = .ok (some i)) :
    AnswersRightly p t ⟨credentials, .viewCategory id⟩
      (serve p t ⟨⟨credentials, .viewCategory id⟩, .calm offer⟩).1 := by
  rw [serve_viewCategory t _ ha hi]
  simp only [calm_fails, passes_calm, Bool.false_eq_true, if_false, if_true]
  cases hl : t.lookup i with
  | none => exact answersRightly_of_clientError clientError_notFound
  | some n =>
    exact (answersRightly_of_success (success_of_status rfl)).mpr fun hu => hu i hi (mem_of_lookup hl)

theorem viewCategoryJson_answersRightly {id : PathSegment} {i : Integer}
    (ha : Request.Authentic p ⟨credentials, .viewCategoryJson id⟩)
    (hi : pathParam p id = .ok (some i)) :
    AnswersRightly p t ⟨credentials, .viewCategoryJson id⟩
      (serve p t ⟨⟨credentials, .viewCategoryJson id⟩, .calm offer⟩).1 := by
  rw [serve_viewCategoryJson t _ ha hi]
  simp only [calm_fails, passes_calm, Bool.false_eq_true, if_false, if_true]
  cases hl : t.lookup i with
  | none => exact answersRightly_of_clientError clientError_notFound
  | some n =>
    exact (answersRightly_of_success (success_of_status rfl)).mpr fun hu => hu i hi (mem_of_lookup hl)

theorem createCategory_answersRightly (ho : offer ∉ t) {body : JsonBody} {dto : CategoryDTO}
    (ha : Request.Authentic p ⟨credentials, .createCategory body⟩)
    (hv : validEntity p body = .ok (some dto)) :
    AnswersRightly p t ⟨credentials, .createCategory body⟩
        (serve p t ⟨⟨credentials, .createCategory body⟩, .calm offer⟩).1 ↔
      Acceptable t ⟨dto.id, dto.name⟩ := by
  have hx := serve_createCategory t (.calm offer) ha hv
  rw [if_pos (passes_calm offer _)] at hx
  refine written_answersRightly ho hx (success_of_status rfl) fun hc hu => hu ⟨dto, ?_, hc⟩
  exact (validEntity_ok hv).1

theorem createCategoryJson_answersRightly (ho : offer ∉ t) {body : JsonBody} {dto : CategoryDTO}
    (ha : Request.Authentic p ⟨credentials, .createCategoryJson body⟩)
    (hv : validEntity p body = .ok (some dto)) :
    AnswersRightly p t ⟨credentials, .createCategoryJson body⟩
        (serve p t ⟨⟨credentials, .createCategoryJson body⟩, .calm offer⟩).1 ↔
      Acceptable t ⟨dto.id, dto.name⟩ := by
  obtain ⟨ch, -, hst, he⟩ | ⟨hno, h500⟩ := createCategoryJson_cases t (.calm offer) ha hv
  · have hc : Acceptable t ⟨dto.id, dto.name⟩ := by
      by_contra hc
      rw [show (Env.calm offer).offer = offer from rfl, (stored_none_iff ho).mpr hc] at hst
      cases hst
    have hs : (Response.created .CATEGORY [some (dto.id.getD offer)]).Success :=
      (by decide : 201 < 400)
    rw [he]
    exact iff_of_true ((answersRightly_of_success hs).mpr fun hu =>
      hu ⟨dto, (validEntity_ok hv).1, hc⟩) hc
  · refine iff_of_false (not_answersRightly h500) ?_
    rw [← stored_none_iff ho]
    by_contra hst
    exact hno ⟨passes_calm offer _, hst⟩

theorem save_answersRightly (ho : offer ∉ t) {raw name : Option JString} {i : Option Integer}
    (ha : Request.Authentic p ⟨credentials, .save raw name⟩)
    (hi : formParam p raw = .ok i) :
    AnswersRightly p t ⟨credentials, .save raw name⟩
        (serve p t ⟨⟨credentials, .save raw name⟩, .calm offer⟩).1 ↔
      ((∀ j, i = some j → j ∈ t) → ∃ n : NameColumn, name = some n.val) := by
  have hacc : (∀ j, i = some j → j ∈ t) →
      (Acceptable t ⟨i, name⟩ ↔ ∃ n : NameColumn, name = some n.val) :=
    fun hj => ⟨fun h => h.1, fun h => ⟨h, hj⟩⟩
  have hu : Acceptable t ⟨i, name⟩ →
      ¬ Request.Unacceptable p t ⟨credentials, .save raw name⟩ := fun hc hu => hu ⟨i, hi, hc⟩
  have hs : (Response.seeOther "/categories").Success := by decide
  cases i with
  | none =>
    have hx := serve_save_new t (.calm offer) ha hi
    rw [if_pos (passes_calm offer _)] at hx
    have hnone : ∀ j, (none : Option Integer) = some j → j ∈ t := fun j h => by cases h
    rw [written_answersRightly ho hx hs hu, hacc hnone]
    exact ⟨fun h _ => h, fun h => h hnone⟩
  | some j =>
    have hx := serve_save_id t (.calm offer) ha hi
    by_cases ht : j ∈ t
    · have hj : ∀ k, some j = some k → k ∈ t := fun k h => Option.some.inj h ▸ ht
      simp only [calm_fails, Bool.false_eq_true, if_false, if_pos ht, if_pos (passes_calm offer _)]
        at hx
      rw [written_answersRightly ho hx hs hu, hacc hj]
      exact ⟨fun h _ => h, fun h => h hj⟩
    · simp only [calm_fails, Bool.false_eq_true, if_false, if_neg ht] at hx
      rw [hx]
      exact iff_of_true (answersRightly_of_clientError clientError_notFound)
        fun hj => absurd (hj j rfl) ht

theorem saveJson_answersRightly (ho : offer ∉ t) {id : PathSegment} {i : Integer}
    {dto : CategoryDTO}
    (ha : Request.Authentic p ⟨credentials, .saveJson id (.parsed (some dto))⟩)
    (hi : pathParam p id = .ok (some i)) :
    AnswersRightly p t ⟨credentials, .saveJson id (.parsed (some dto))⟩
        (serve p t ⟨⟨credentials, .saveJson id (.parsed (some dto))⟩, .calm offer⟩).1 ↔
      i ∈ t ∧ Acceptable t ⟨dto.id, dto.name⟩ := by
  have hx := serve_saveJson t (.calm offer) ha hi rfl
  rw [if_pos (passes_calm offer _)] at hx
  have hs : (Response.ok .empty).Success := by decide
  by_cases ht : i ∈ t
  · have hu : Acceptable t ⟨dto.id, dto.name⟩ →
        ¬ Request.Unacceptable p t ⟨credentials, .saveJson id (.parsed (some dto))⟩ :=
      fun hc hu => hu ⟨i, dto, hi, ht, rfl, hc⟩
    rw [written_answersRightly ho hx hs hu]
    exact (and_iff_right ht).symm
  · refine iff_of_false ?_ fun h => ht h.1
    have hu : Request.Unacceptable p t ⟨credentials, .saveJson id (.parsed (some dto))⟩ := by
      rintro ⟨j, _, hj, hjt, _⟩
      have hij : i = j := by simpa [hi] using hj
      exact ht (hij ▸ hjt)
    rw [hx]
    cases stored t (Env.calm offer).offer ⟨dto.id, dto.name⟩ with
    | none => exact not_answersRightly rfl
    | some ch => exact fun h => (answersRightly_of_success hs).mp h hu

end Handlers

/-- A request is answered rightly exactly where the checks in front of its handler
cover what the code behind them can take. -/
theorem answersRightly_iff {r : Request} (ha : r.Authentic p) (ho : offer ∉ t) :
    AnswersRightly p t r (serve p t ⟨r, .calm offer⟩).1 ↔ r.Handled p t := by
  cases hr : r.refusal p with
  | some resp =>
    rw [serve_refusal hr]
    exact iff_of_true (answersRightly_of_clientError (refusal_clientError p hr))
      (handled_of_refused ha hr)
  | none =>
    obtain ⟨credentials, call⟩ := r
    have hcall := accepted_of_refusal ha hr
    cases hcall with
    | listCategories =>
      rw [serve_listCategories t _ ha, if_pos (passes_calm offer _)]
      exact iff_of_true ((answersRightly_of_success (success_of_status rfl)).mpr id) trivial
    | listCategoriesJson =>
      rw [serve_listCategoriesJson t _ ha, if_pos (passes_calm offer _)]
      exact iff_of_true ((answersRightly_of_success (success_of_status rfl)).mpr id) trivial
    | newCategory =>
      rw [serve_newCategory t _ ha, if_pos (passes_calm offer _)]
      exact iff_of_true ((answersRightly_of_success (success_of_status rfl)).mpr id) trivial
    | viewCategory hi => exact iff_of_true (viewCategory_answersRightly ha hi) trivial
    | viewCategoryJson hi => exact iff_of_true (viewCategoryJson_answersRightly ha hi) trivial
    | @createCategory body dto hv =>
      rw [handled_create_iff hv (.inl rfl)]
      cases dto with
      | none =>
        rw [serve_createCategory_null t _ ha hv]
        exact iff_of_false (not_answersRightly rfl) (by simp)
      | some d => simpa using createCategory_answersRightly ho ha hv
    | @createCategoryJson body dto hv =>
      rw [handled_create_iff hv (.inr rfl)]
      cases dto with
      | none =>
        obtain ⟨resp, h500, he⟩ := serve_createCategoryJson_throws t (.calm offer) ha hv rfl
        rw [he]
        exact iff_of_false (not_answersRightly h500) (by simp)
      | some d => simpa using createCategoryJson_answersRightly ho ha hv
    | save hi =>
      rw [save_answersRightly ho ha hi]
      simp [Request.Handled, hi]
    | @saveJson id i dto hi =>
      have hhandled : Request.Handled p t ⟨credentials, .saveJson id (.parsed dto)⟩ ↔
          i ∈ t ∧ ∃ d, dto = some d ∧ Acceptable t ⟨d.id, d.name⟩ := by
        simp [Request.Handled, hi]
      rw [hhandled]
      cases dto with
      | none =>
        rw [serve_saveJson_null t _ ha hi rfl]
        exact iff_of_false (not_answersRightly rfl) (by simp)
      | some d => simpa using saveJson_answersRightly ho ha hi

theorem answersRightly_save_null :
    AnswersRightly configured ∅ (asAdmin (.save none none))
        (serve configured ∅ ⟨asAdmin (.save none none), .calm 1⟩).1 ↔
      (asAdmin (.save none none)).Handled configured ∅ :=
  answersRightly_iff (by decide) (by decide)

/-- A form post without a name is answered with 500. -/
theorem answersRightly_fails :
    ¬ ∀ t, Reachable configured t → ∀ r : Request, r.Authentic configured →
      ∀ offer, offer ∉ t →
        AnswersRightly configured t r (serve configured t ⟨r, .calm offer⟩).1 := by
  intro h
  have hpost := h ∅ (EventMachine.Reachable.refl _ _) (asAdmin (.save none none)) (by decide) 1
    (by decide)
  exact absurd hpost.1 (by decide)

end CategoryService
