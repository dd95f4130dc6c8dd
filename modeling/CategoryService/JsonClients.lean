import CategoryService.Negotiation

/-! A client that takes JSON and nothing else: where its requests go, whatever the router,
and a row read, edited and put back. -/
namespace CategoryService
open Routing EventMachine KeyedStore Numeral

/-- A request of a client that takes JSON and nothing else. -/
def jsonRequest (credentials : Option BasicCredentials) (path : List JString)
    (action : HttpAction) : HttpRequest :=
  ⟨credentials, path, [(.exact applicationJson, 1000)], action⟩

def listPath : List JString := Template.fill (Handler.path .listCategoriesJson) []
def itemPath (k : Integer) : List JString := Template.fill (Handler.path .viewCategoryJson) [idPath k]

section Pick
variable {R : Router Handler.route} {credentials : Option BasicCredentials} {action : HttpAction}
  {path : List JString}

theorem output_json (h : Handler) :
    h.route.output (jsonRequest credentials path action).target =
      if applicationJson ∈ h.produces then 1000 else 0 := by
  have hquality (media : MediaType) :
      Accept.quality (jsonRequest credentials path action).target.accept media =
        if applicationJson = media then 1000 else 0 := by
    by_cases hm : applicationJson = media <;>
      simp [HttpRequest.target, jsonRequest, Accept.quality, MediaRange.covers, hm]
  have hne : applicationJson ≠ textHtml := by decide
  cases h <;> simp [Route.output, Handler.route, Handler.produces, hquality, hne]

theorem bind_itemPath (k : Integer) :
    Template.bind (Handler.path .viewCategoryJson) (itemPath k) = some [idPath k] :=
  bind_fill (Handler.path .viewCategoryJson) [idPath k] rfl

theorem toString_ne_new (i : Integer) : (idPath i).val ≠ "new".toList := by
  intro h
  have hread := readInteger_toString asciiReader i
  have he : Integer.toString i = "new".toList := h
  have hno : readInteger asciiReader "new".toList = none := by decide
  rw [he, hno] at hread
  cases hread

theorem idPath_ne_new {k : Integer} : ∀ s ∈ [idPath k], s.val ≠ "new".toList := by
  intro s hs
  rw [List.mem_singleton.mp hs]
  exact toString_ne_new k

theorem pick_jsonList :
    R.pick (jsonRequest credentials listPath .get).target = some .listCategoriesJson := by
  refine pick_get R [] rfl rfl rfl (by decide) ?_ fun h' hget hpath => ?_
  · rw [output_json]
    decide
  · rw [output_json, output_json]
    revert hget hpath
    cases h' <;> decide

theorem pick_jsonItem (k : Integer) :
    R.pick (jsonRequest credentials (itemPath k) .get).target = some .viewCategoryJson := by
  refine pick_get R [idPath k] rfl rfl (bind_itemPath k) (fun _ => idPath_ne_new) ?_
    fun h' hget hpath => ?_
  · rw [output_json]
    decide
  · rw [output_json, output_json]
    revert hget hpath
    cases h' <;> decide

theorem pick_jsonPost (body : JsonBody) :
    R.pick (jsonRequest credentials listPath (.post (.json body))).target =
      some .createCategoryJson := by
  refine pick_of_place R [] ⟨rfl, rfl, rfl, ?_⟩ rfl ?_ fun h' hpost hpath hm => ?_
  · rw [output_json]
    decide
  · intro he
    exact absurd he (by decide)
  · have hpos := hm.output
    rw [output_json] at hpos
    cases h' with
    | createCategoryJson => exact .inl rfl
    | createCategory => exact absurd hpos (by decide)
    | save =>
      have hsome : (none : Option Nat).isSome := hm.input
      cases hsome
    | _ => cases hpost

theorem pick_jsonPut (k : Integer) (body : JsonBody) :
    R.pick (jsonRequest credentials (itemPath k) (.put (.json body))).target = some .saveJson := by
  have hp := bind_itemPath k
  refine pick_of_place R [idPath k] ⟨rfl, Option.isSome_iff_exists.mpr ⟨_, hp⟩, rfl, ?_⟩ hp
    (fun _ => idPath_ne_new) fun h' hput _ _ => .inl ?_
  · rw [output_json]
    decide
  · cases h' with
    | saveJson => rfl
    | _ => cases hput

theorem pathId_item (k : Integer) :
    (jsonRequest credentials (itemPath k) action).pathId = some (idPath k) :=
  congrArg (fun o => Option.bind o List.head?) (bind_itemPath k)

end Pick

section Served
variable {p : Platform} {R : Router Handler.route} {credentials : Option BasicCredentials}
  {t : Table} {env : Env} {body : JsonBody} {k : Integer}

theorem serveHttp_list :
    serveHttp p R t ⟨jsonRequest credentials listPath .get, env⟩ =
      serve p t ⟨⟨credentials, .listCategoriesJson⟩, env⟩ := by
  rw [serveHttp, pick_jsonList]
  rfl

theorem serveHttp_item :
    serveHttp p R t ⟨jsonRequest credentials (itemPath k) .get, env⟩ =
      serve p t ⟨⟨credentials, .viewCategoryJson (idPath k)⟩, env⟩ := by
  rw [serveHttp, pick_jsonItem]
  simp only [Handler.serve, Handler.call, pathId_item, Option.map_some]
  rfl

theorem serveHttp_creation :
    serveHttp p R t ⟨jsonRequest credentials listPath (.post (.json body)), env⟩ =
      serve p t ⟨⟨credentials, .createCategoryJson body⟩, env⟩ := by
  rw [serveHttp, pick_jsonPost]
  rfl

theorem serveHttp_put :
    serveHttp p R t ⟨jsonRequest credentials (itemPath k) (.put (.json body)), env⟩ =
      serve p t ⟨⟨credentials, .saveJson (idPath k) body⟩, env⟩ := by
  rw [serveHttp, pick_jsonPut]
  simp only [Handler.serve, Handler.call, pathId_item, Option.bind_some]
  rfl

theorem mem_serveHttp {e : HttpEvent} (hk : k ∈ t) : k ∈ (serveHttp p R t e).2 := by
  unfold serveHttp
  split
  · exact hk
  · unfold Handler.serve
    split
    · exact hk
    · exact mem_serve p t _ hk

theorem mem_finalHttp (hk : k ∈ t) (es : List HttpEvent) : k ∈ final (serveHttp p R) t es :=
  final_rel (serveHttp p R) (R := fun t t' => k ∈ t → k ∈ t') (fun _ h => h)
    (fun _ _ _ h h' hk => h' (h hk)) (fun _ _ => mem_serveHttp) t es hk

end Served

section EditLoop
variable (p : Platform) (R : Router Handler.route) (user : JString) (offer : Integer) (t : Table)
  (k : Integer)

/-- A row read by a user with the configured password whom no library fails. -/
def getItem : Response × Table :=
  serveHttp p R t ⟨jsonRequest (some ⟨user, p.configuration.adminPassword⟩) (itemPath k) .get,
    .calm offer⟩

/-- An id and a name put to the address of a row by such a user. -/
def putItem (dto : CategoryDTO) : Response × Table :=
  serveHttp p R t ⟨jsonRequest (some ⟨user, p.configuration.adminPassword⟩) (itemPath k)
    (.put (.json (.parsed (some dto)))), .calm offer⟩

variable {p R user offer t k}

theorem getItem_row {n : NameColumn} (hl : t.lookup k = some n) :
    (getItem p R user offer t k).1.status = 200 ∧
      (getItem p R user offer t k).1.entity = .dto ⟨some k, some n.val⟩ ∧
      (getItem p R user offer t k).2 = t := by
  rw [getItem, serveHttp_item,
    serve_viewCategoryJson t _ (authentic_admin p user _) (pathParam_idPath k)]
  simp only [calm_fails, passes_calm, Bool.false_eq_true, if_false, if_true, hl]
  exact ⟨rfl, rfl, trivial⟩

theorem putItem_row (hk : k ∈ t) (m : NameColumn) :
    putItem p R user offer t k ⟨some k, some m.val⟩ = (.ok .empty, t.replace k m) := by
  have hs : stored t (Env.calm offer).offer ⟨some k, some m.val⟩ = some (.set k m) := by
    simp [stored, toColumn_val, hk]
  rw [putItem, serveHttp_put,
    serve_saveJson t _ (authentic_admin p user _) (pathParam_idPath k) rfl,
    if_pos (passes_calm offer _), hs]
  rfl

/-- A client reads the id and the name of a row. Put back to the same address they change
nothing; with another name they rename the row and nothing else, whatever others have sent
in between. -/
theorem json_edit_loop (R : Router Handler.route) (user : JString) {n : NameColumn}
    (hl : t.lookup k = some n) (offer : Integer) :
    ∃ dto, (getItem p R user offer t k).1.status = 200 ∧
      (getItem p R user offer t k).1.entity = .dto dto ∧
      (getItem p R user offer t k).2 = t ∧ dto.id = some k ∧ dto.name = some n.val ∧
      putItem p R user offer t k ⟨dto.id, dto.name⟩ = (.ok .empty, t) ∧
      ∀ (es : List HttpEvent) (m : NameColumn),
        putItem p R user offer (final (serveHttp p R) t es) k ⟨dto.id, some m.val⟩ =
          (.ok .empty, (final (serveHttp p R) t es).replace k m) := by
  have hk : k ∈ t := mem_of_lookup hl
  obtain ⟨hstatus, hentity, htable⟩ := @getItem_row p R user offer t k n hl
  refine ⟨_, hstatus, hentity, htable, rfl, rfl, ?_, fun es m => ?_⟩
  · rw [putItem_row hk, replace_eq_self hl]
  · exact putItem_row (mem_finalHttp hk es) m

/-- A JSON request of the administrator. -/
def adminJson (path : List JString) (action : HttpAction) : HttpRequest :=
  jsonRequest (some ⟨"admin".toList, "password".toList⟩) path action

/-- While a client edits row 1, another one makes row 2. -/
theorem json_edit_loop_between :
    ∃ dto, (getItem configured firstRouter [] 9 ((∅ : Table).insert 1 ⟨['<'], by decide⟩)
        1).1.entity = .dto dto ∧ dto.name = some ['<'] ∧
      (putItem configured firstRouter [] 9
          (final (serveHttp configured firstRouter) ((∅ : Table).insert 1 ⟨['<'], by decide⟩)
            [⟨adminJson listPath (.post (.json (.parsed (some ⟨none, some ['c']⟩)))), .calm 2⟩])
          1 ⟨dto.id, some ['b']⟩).2.entries =
        [⟨2, ⟨['c'], by decide⟩⟩, ⟨1, ⟨['b'], by decide⟩⟩] := by
  have hl : ((∅ : Table).insert 1 ⟨['<'], by decide⟩).lookup 1 = some ⟨['<'], by decide⟩ := rfl
  obtain ⟨dto, -, hdto, -, -, hname, -, hput⟩ :=
    json_edit_loop (p := configured) firstRouter [] hl 9
  refine ⟨dto, hdto, hname, ?_⟩
  rw [hput _ ⟨['b'], by decide⟩]
  decide

end EditLoop
end CategoryService
