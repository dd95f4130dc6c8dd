import CategoryService.JsonClients

/-! The links of JSON answers: what the handlers hand to the link library, what the library
is relied on for, and what a client meets that follows its links. -/
namespace CategoryService
open Routing EventMachine KeyedStore

/-- `@Linkable`. -/
def Handler.linkable : Handler → Option CategoryLinks
  | .listCategoriesJson => some .CATEGORIES
  | .viewCategoryJson => some .CATEGORY
  | .createCategoryJson => some .ADD_CATEGORY
  | _ => none

/-- The method a link identifier stands for. -/
def CategoryLinks.handler : CategoryLinks → Handler
  | .CATEGORIES => .listCategoriesJson
  | .CATEGORY => .viewCategoryJson
  | .ADD_CATEGORY => .createCategoryJson

/-- Each identifier is that of one method. -/
theorem linkable_iff {h : Handler} {l : CategoryLinks} :
    h.linkable = some l ↔ h = l.handler := by
  cases h <;> cases l <;> decide

/-- REL, HREF, TYPE, METHOD and CONSUMES. -/
structure HateoasLink where
  rel : String
  href : List JString
  type : List MediaType
  method : Method
  consumes : List MediaRange
  deriving DecidableEq

/-- The link library: the link it makes of an identifier with its parameters, and the
links it puts into an answer, that of the location among them. -/
structure Hateoas where
  createLink : CategoryLinks → String → List (Option Integer) → HateoasLink
  links : Response → List HateoasLink

/-- The link is one that the handler of the answer has asked for. -/
inductive Handed (H : Hateoas) (r : Response) : HateoasLink → Prop
  | selfLink {l : CategoryLinks} {params : List (Option Integer)}
      (h : .selfLink l params ∈ r.links) : Handed H r (H.createLink l "self" params)
  | link {l : CategoryLinks} {rel : String} (h : .link l rel ∈ r.links) :
      Handed H r (H.createLink l rel [])
  | each {l : CategoryLinks} {rel : String} {list : CategoryList} {dto : CategoryDTO}
      (h : .each "categories" l rel "id" ∈ r.links) (he : r.entity = .list list)
      (hd : dto ∈ list.categories) : Handed H r (H.createLink l rel [dto.id])
  | location {l : CategoryLinks} {params : List (Option Integer)}
      (h : r.location = some (.linkable l params)) : Handed H r (H.createLink l "self" params)

/-- What is relied on: a link describes the method that has its identifier, with its
parameters, as many as the path asks for, in the path; and no answer has links that were
not asked for. -/
structure Hateoas.Lawful (H : Hateoas) : Prop where
  href : ∀ l rel (ids : List Integer), ids.length = Template.arity l.handler.path →
    (H.createLink l rel (ids.map some)).href = l.handler.path.fill (ids.map idPath)
  type : ∀ l rel params, (H.createLink l rel params).type = l.handler.produces
  method : ∀ l rel params, (H.createLink l rel params).method = l.handler.method
  consumes : ∀ l rel params, (H.createLink l rel params).consumes = l.handler.consumes
  handed : ∀ r, ∀ link ∈ H.links r, Handed H r link

/-- The request of a client that follows a link as the link says. -/
def HateoasLink.request (link : HateoasLink) (credentials : Option BasicCredentials)
    (body : JsonBody) : HttpRequest where
  credentials := credentials
  path := link.href
  accept := link.type.map fun media => (.exact media, 1000)
  action :=
    match link.method with
    | .get => .get
    | .post => .post (.json body)
    | .put => .put (.json body)

section Follow
variable (H : Hateoas) (p : Platform) (R : Router Handler.route) (user : JString)
  (offer : Integer) (t : Table)

/-- A link followed by a user with the configured password whom no library fails. -/
def follow (link : HateoasLink) (body : JsonBody) : Response × Table :=
  serveHttp p R t
    ⟨link.request (some ⟨user, p.configuration.adminPassword⟩) body, .calm offer⟩

/-- The link leads to what it stands for: the list of all rows, a row of the table, or
the creation of a new one. -/
inductive LinkWorks : HateoasLink → Prop
  | categories {rel : String}
      (h : ∀ offer body, ∃ r, follow p R user offer t
        (H.createLink .CATEGORIES rel []) body = (r, t) ∧
        r.status = 200 ∧ r.pairs = rowPairs t) :
      LinkWorks (H.createLink .CATEGORIES rel [])
  | category {rel : String} {k : Integer} {n : NameColumn} (hl : t.lookup k = some n)
      (h : ∀ offer body, ∃ r, follow p R user offer t
        (H.createLink .CATEGORY rel [some k]) body = (r, t) ∧ r.Is k n.val) :
      LinkWorks (H.createLink .CATEGORY rel [some k])
  | add {rel : String}
      (hc : (H.createLink .ADD_CATEGORY rel []).consumes = [.exact applicationJson])
      (h : ∀ offer, offer ∉ t → ∀ n : NameColumn, n.val ≠ [] → ∃ r,
        follow p R user offer t (H.createLink .ADD_CATEGORY rel [])
          (.parsed (some ⟨none, some n.val⟩)) = (r, t.insert offer n) ∧ r.status = 201) :
      LinkWorks (H.createLink .ADD_CATEGORY rel [])

/-- The links that have something to lead to. -/
inductive Leads : HateoasLink → Prop
  | categories {rel : String} : Leads (H.createLink .CATEGORIES rel [])
  | category {rel : String} {k : Integer} (hk : k ∈ t) : Leads (H.createLink .CATEGORY rel [some k])
  | add {rel : String} : Leads (H.createLink .ADD_CATEGORY rel [])

variable {H p R user offer t} {credentials : Option BasicCredentials} {body : JsonBody}

theorem request_categories (hH : H.Lawful) (rel : String) :
    (H.createLink .CATEGORIES rel []).request credentials body =
      jsonRequest credentials listPath .get := by
  have hhref : (H.createLink .CATEGORIES rel []).href = listPath := hH.href _ rel [] rfl
  simp only [HateoasLink.request, hhref, hH.type, hH.method]
  rfl

theorem request_category (hH : H.Lawful) (rel : String) (k : Integer) :
    (H.createLink .CATEGORY rel [some k]).request credentials body =
      jsonRequest credentials (itemPath k) .get := by
  have hhref : (H.createLink .CATEGORY rel [some k]).href = itemPath k := hH.href _ rel [k] rfl
  simp only [HateoasLink.request, hhref, hH.type, hH.method]
  rfl

theorem request_add (hH : H.Lawful) (rel : String) :
    (H.createLink .ADD_CATEGORY rel []).request credentials body =
      jsonRequest credentials listPath (.post (.json body)) := by
  have hhref : (H.createLink .ADD_CATEGORY rel []).href = listPath := hH.href _ rel [] rfl
  simp only [HateoasLink.request, hhref, hH.type, hH.method]
  rfl

theorem works_categories (hH : H.Lawful) (rel : String) :
    LinkWorks H p R user t (H.createLink .CATEGORIES rel []) := by
  refine .categories fun offer body => ⟨read p user offer t .listCategoriesJson, ?_, ?_⟩
  · rw [follow, request_categories hH, serveHttp_list]
    exact Prod.ext rfl (serve_unsubmitted rfl)
  · exact read_listJson

theorem works_category (hH : H.Lawful) (rel : String) {k : Integer} (hk : k ∈ t) :
    LinkWorks H p R user t (H.createLink .CATEGORY rel [some k]) := by
  obtain ⟨n, hl⟩ := exists_lookup hk
  refine .category hl fun offer body =>
    ⟨read p user offer t (.viewCategoryJson (idPath k)), ?_, ?_⟩
  · rw [follow, request_category hH, serveHttp_item]
    exact Prod.ext rfl (serve_unsubmitted rfl)
  · exact read_viewJson_found (pathParam_idPath k) hl

theorem works_add (hH : H.Lawful) (rel : String) :
    LinkWorks H p R user t (H.createLink .ADD_CATEGORY rel []) := by
  refine .add (hH.consumes _ _ _) fun offer ho n hn => ⟨.created .CATEGORY [some offer], ?_, rfl⟩
  have hv : validEntity p (.parsed (some ⟨none, some n.val⟩)) = .ok (some ⟨none, some n.val⟩) := by
    simp [validEntity, CategoryDTO.Valid, hn]
  rw [follow, request_add hH, serveHttp_creation]
  obtain ⟨m, -, hm, -, he⟩ | ⟨hno, -⟩ := serve_lands (authentic_admin p user _)
    (submitted_createCategoryJson hv) t (.calm offer)
  · have hmn : n = m := Subtype.ext (Option.some.inj hm)
    subst hmn
    rw [he]
    rfl
  · exact absurd ⟨passes_calm offer _, ⟨n, rfl⟩, ho⟩ hno

theorem works_of_leads (hH : H.Lawful) {link : HateoasLink} (h : Leads H t link) :
    LinkWorks H p R user t link := by
  cases h with
  | categories => exact works_categories hH _
  | category hk => exact works_category hH _ hk
  | add => exact works_add hH _

theorem Leads.mono {t' : Table} {link : HateoasLink} (h : Leads H t link)
    (ht : ∀ k ∈ t, k ∈ t') : Leads H t' link := by
  cases h with
  | categories => exact .categories
  | category hk => exact .category (ht _ hk)
  | add => exact .add

end Follow

section Offered
variable {H : Hateoas} {p : Platform} {t : Table} {link : HateoasLink}

/-- The calls that hand an entity to `save`. -/
def Call.Saves : Call → Prop
  | .createCategory _ | .createCategoryJson _ | .save _ _ | .saveJson _ _ => True
  | _ => False

/-- Where such a call succeeds its entity is not null. -/
theorem submitted_of_success {r : Request} {env : Env} (ha : r.Authentic p)
    (hcall : r.call.Accepted p) (hsaves : r.call.Saves) (hs : (serve p t ⟨r, env⟩).1.Success) :
    ∃ c, r.submitted p = some c := by
  obtain ⟨credentials, call⟩ := r
  cases hcall with
  | listCategories | listCategoriesJson | newCategory => exact hsaves.elim
  | viewCategory hi | viewCategoryJson hi => exact hsaves.elim
  | @createCategory body dto hv =>
    cases dto with
    | none =>
      rw [serve_createCategory_null t env ha hv] at hs
      exact absurd hs (not_success_of_status rfl)
    | some dto => exact ⟨_, submitted_createCategory hv⟩
  | @createCategoryJson body dto hv =>
    cases dto with
    | none =>
      obtain ⟨resp, h500, he⟩ := serve_createCategoryJson_throws t env ha hv rfl
      rw [he] at hs
      exact absurd hs (not_success_of_status h500)
    | some dto => exact ⟨_, submitted_createCategoryJson hv⟩
  | save hi => exact ⟨_, submitted_save hi _⟩
  | @saveJson id i dto hi =>
    cases dto with
    | none =>
      rw [serve_saveJson_null t env ha hi rfl] at hs
      exact absurd hs (not_success_of_status rfl)
    | some dto => exact ⟨_, submitted_saveJson hi dto⟩

/-- An answer that is given no links. -/
theorem not_handed {r : Response} (hlinks : r.links = [])
    (hlocation : ∀ l params, r.location ≠ some (.linkable l params)) : ¬ Handed H r link := by
  intro h
  cases h with
  | selfLink h | link h | each h => simp [hlinks] at h
  | location h => exact hlocation _ _ h

theorem leads_list (h : Handed H ((Response.ok (.list (.ofCategories (entities t)))).withLinks
    [.each "categories" .CATEGORY "self" "id", .link .ADD_CATEGORY "create",
      .selfLink .CATEGORIES []]) link) : Leads H t link := by
  cases h with
  | selfLink h =>
    obtain ⟨rfl, rfl⟩ : _ = CategoryLinks.CATEGORIES ∧ _ = [] := by
      simpa [Response.withLinks] using h
    exact .categories
  | link h =>
    obtain ⟨rfl, rfl⟩ : _ = CategoryLinks.ADD_CATEGORY ∧ _ = "create" := by
      simpa [Response.withLinks] using h
    exact .add
  | @each l rel list dto h he hd =>
    obtain ⟨rfl, rfl⟩ : l = CategoryLinks.CATEGORY ∧ rel = "self" := by
      simpa [Response.withLinks] using h
    cases he
    obtain ⟨c, hc, rfl⟩ := List.mem_map.mp hd
    obtain ⟨k, n, hl, rfl⟩ := mem_entities.mp hc
    exact .category (mem_of_lookup hl)
  | location h => cases h

theorem leads_self {r : Response} {k : Integer} (hk : k ∈ t)
    (hlinks : r.links = [.selfLink .CATEGORY [some k]]) (hlocation : r.location = none)
    (h : Handed H r link) : Leads H t link := by
  cases h with
  | selfLink h =>
    obtain ⟨rfl, rfl⟩ : _ = CategoryLinks.CATEGORY ∧ _ = [some k] := by simpa [hlinks] using h
    exact .category hk
  | link h | each h => simp [hlinks] at h
  | location h => simp [hlocation] at h

theorem leads_created {k : Integer} (hk : k ∈ t)
    (h : Handed H (.created .CATEGORY [some k]) link) : Leads H t link := by
  cases h with
  | selfLink h | link h | each h => cases h
  | location h =>
    cases h
    exact .category hk

/-- Of the handlers that save only `createCategoryJson` gives a link, to the row it saved. -/
theorem leads_of_saved {r : Request} {env : Env} (ha : r.Authentic p)
    (hcall : r.call.Accepted p) (hsaves : r.call.Saves) (hs : (serve p t ⟨r, env⟩).1.Success)
    (h : Handed H (serve p t ⟨r, env⟩).1 link) : Leads H (serve p t ⟨r, env⟩).2 link := by
  obtain ⟨c, hsub⟩ := submitted_of_success ha hcall hsaves hs
  obtain ⟨n, -, hn, hl, he⟩ | ⟨-, hfail⟩ := serve_lands ha hsub t env
  · rw [he] at h ⊢
    have hk : c.id.getD env.offer ∈ (changeOf env.offer n c.id).applyRows t := by
      apply mem_of_lookup (v := n)
      rw [lookup_changeOf hl, if_pos rfl]
    obtain ⟨credentials, call⟩ := r
    cases call with
    | createCategoryJson body => exact leads_created hk h
    | _ => exact absurd h (not_handed rfl fun _ _ hloc => by cases hloc)
  · exact absurd hs hfail

/-- What the handler of a successful answer asks for leads to something in the table it
leaves. -/
theorem leads_of_handed {e : Event} (hs : (serve p t e).1.Success)
    (h : Handed H (serve p t e).1 link) : Leads H (serve p t e).2 link := by
  have ha := authentic_of_success hs
  obtain ⟨⟨credentials, call⟩, env⟩ := e
  have hr : Request.refusal p ⟨credentials, call⟩ = none := by
    by_contra hr
    obtain ⟨resp, hr⟩ := Option.ne_none_iff_exists'.mp hr
    rw [serve_refusal hr] at hs
    exact ClientError.not_success (refusal_clientError p hr) hs
  have hcall := accepted_of_refusal ha hr
  cases hcall with
  | listCategories =>
    rw [listCategories_success hs] at h
    exact absurd h (not_handed rfl nofun)
  | listCategoriesJson =>
    rw [listCategoriesJson_success hs] at h ⊢
    exact leads_list h
  | newCategory =>
    rw [serve_newCategory t env ha] at h
    split at h <;> exact absurd h (not_handed rfl nofun)
  | viewCategory hi =>
    obtain ⟨n, -, he⟩ := viewCategory_success hi hs
    rw [he] at h
    exact absurd h (not_handed rfl nofun)
  | viewCategoryJson hi =>
    obtain ⟨n, hl, he⟩ := viewCategoryJson_success hi hs
    rw [he] at h ⊢
    exact leads_self (mem_of_lookup hl) rfl rfl h
  | createCategory hv => exact leads_of_saved ha (.createCategory hv) trivial hs h
  | createCategoryJson hv => exact leads_of_saved ha (.createCategoryJson hv) trivial hs h
  | save hi => exact leads_of_saved ha (.save hi) trivial hs h
  | saveJson hi => exact leads_of_saved ha (.saveJson hi) trivial hs h

theorem served_of_success {R : Router Handler.route} {e : HttpEvent}
    (hs : (serveHttp p R t e).1.Success) :
    ∃ call, serveHttp p R t e = serve p t ⟨⟨e.request.credentials, call⟩, e.env⟩ := by
  simp only [serveHttp] at hs ⊢
  cases hR : R.pick e.request.target with
  | none =>
    simp only [hR] at hs
    exact absurd hs (not_lt.mpr (R.refusal _).1)
  | some h =>
    simp only [hR, Handler.serve] at hs ⊢
    cases hcall : h.call p e.request with
    | none =>
      simp only [hcall] at hs
      exact absurd hs (not_success_unsupported _)
    | some call => exact ⟨call, rfl⟩

/-- A link that a successful answer has once offered works in every later table of the
run, for every router: no link dangles. -/
theorem links_stay_valid (hH : H.Lawful) (R : Router Handler.route) {e : HttpEvent}
    (hs : (serveHttp p R t e).1.Success) (hlink : link ∈ H.links (serveHttp p R t e).1)
    (user : JString) (es : List HttpEvent) :
    LinkWorks H p R user (final (serveHttp p R) t (e :: es)) link := by
  obtain ⟨call, he⟩ := served_of_success hs
  rw [he] at hs hlink
  have hleads := leads_of_handed hs (hH.handed _ _ hlink)
  rw [← he] at hleads
  exact works_of_leads hH (hleads.mono fun k hk => mem_finalHttp hk es)

/-- The link of a library that reads the annotations. -/
def annotatedLink (l : CategoryLinks) (rel : String) (params : List (Option Integer)) :
    HateoasLink where
  rel := rel
  href := l.handler.path.fill (params.filterMap (Option.map idPath))
  type := l.handler.produces
  method := l.handler.method
  consumes := l.handler.consumes

def annotatedLinks (entity : Entity) : Link → List HateoasLink
  | .selfLink l params => [annotatedLink l "self" params]
  | .link l rel => [annotatedLink l rel []]
  | .each path l rel field =>
    match entity with
    | .list list =>
      if path = "categories" ∧ field = "id" then
        list.categories.map fun dto => annotatedLink l rel [dto.id]
      else []
    | _ => []

/-- A library that puts in every link it is asked for. -/
def annotated : Hateoas where
  createLink := annotatedLink
  links r := r.links.flatMap (annotatedLinks r.entity) ++
    match r.location with
    | some (.linkable l params) => [annotatedLink l "self" params]
    | _ => []

theorem annotated_lawful : annotated.Lawful where
  href l rel ids _ := by simp [annotated, annotatedLink, List.filterMap_map]
  type _ _ _ := rfl
  method _ _ _ := rfl
  consumes _ _ _ := rfl
  handed := by
    intro r link hlink
    obtain hlink | hlink := List.mem_append.mp hlink
    · obtain ⟨asked, hasked, hlink⟩ := List.mem_flatMap.mp hlink
      cases asked with
      | selfLink l params =>
        rw [List.mem_singleton.mp hlink]
        exact .selfLink hasked
      | link l rel =>
        rw [List.mem_singleton.mp hlink]
        exact .link hasked
      | each path l rel field =>
        simp only [annotatedLinks] at hlink
        split at hlink
        · rename_i list he
          split at hlink
          · rename_i hfield
            obtain ⟨rfl, rfl⟩ := hfield
            obtain ⟨dto, hdto, rfl⟩ := List.mem_map.mp hlink
            exact .each hasked he hdto
          · cases hlink
        · cases hlink
    · split at hlink
      · rename_i l params hlocation
        rw [List.mem_singleton.mp hlink]
        exact .location hlocation
      · cases hlink

/-- The list offers a link to row 1, which works when the row has another name and a
second row is there. -/
theorem links_stay_valid_listed :
    LinkWorks annotated configured firstRouter []
      (final (serveHttp configured firstRouter) ((∅ : Table).insert 1 ⟨['a'], by decide⟩)
        [⟨adminJson listPath .get, .calm 2⟩,
          ⟨adminJson (itemPath 1) (.put (.json (.parsed (some ⟨some 1, some ['b']⟩)))), .calm 2⟩,
          ⟨adminJson listPath (.post (.json (.parsed (some ⟨none, some ['c']⟩)))), .calm 2⟩])
      (annotatedLink .CATEGORY "self" [some 1]) :=
  links_stay_valid annotated_lawful firstRouter (by decide) (by decide) [] _

end Offered
end CategoryService
