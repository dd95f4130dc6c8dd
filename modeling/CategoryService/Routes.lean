import CategoryService.Library.Routing
import CategoryService.Service

/-! The annotations of `CategoryResource` as routes, and the service behind any router
that respects them. -/
namespace CategoryService
open Routing

def applicationJson : MediaType := ⟨"application", "json"⟩
def textHtml : MediaType := ⟨"text", "html"⟩
def formUrlencoded : MediaType := ⟨"application", "x-www-form-urlencoded"⟩

/-- The resource methods. -/
inductive Handler where
  | listCategories | listCategoriesJson | viewCategory | viewCategoryJson | createCategory
  | createCategoryJson | newCategory | save | saveJson
  deriving DecidableEq

namespace Handler

def method : Handler → Method
  | .createCategory | .createCategoryJson | .save => .post
  | .saveJson => .put
  | _ => .get

/-- `@Path`, on the class and on the method. -/
def path : Handler → Template
  | .viewCategory | .viewCategoryJson | .saveJson => [.literal "categories".toList, .param]
  | .newCategory => [.literal "categories".toList, .literal "new".toList]
  | _ => [.literal "categories".toList]

/-- `@Consumes`; everything where it is missing. -/
def consumes : Handler → List MediaRange
  | .createCategoryJson | .saveJson => [.exact applicationJson]
  | .save => [.exact formUrlencoded]
  | _ => [.all]

/-- `@Produces`, of the class where the method has none. -/
def produces : Handler → List MediaType
  | .listCategories | .viewCategory | .createCategory => [textHtml]
  | .listCategoriesJson | .viewCategoryJson | .createCategoryJson | .saveJson =>
    [applicationJson]
  | .newCategory | .save => [applicationJson, textHtml]

def route (h : Handler) : Route := ⟨h.method, h.path, h.consumes, h.produces⟩

def all : List Handler :=
  [.listCategories, .listCategoriesJson, .viewCategory, .viewCategoryJson, .createCategory,
    .createCategoryJson, .newCategory, .save, .saveJson]

theorem mem_all (h : Handler) : h ∈ all := by cases h <;> decide

end Handler

/-- A router for the service. -/
def firstRouter : Router Handler.route := .ofList Handler.all Handler.mem_all

/-- The body of an entity of another type is what a JSON reader makes of it. -/
inductive HttpEntity where
  | json (body : JsonBody)
  | form (fields : List (JString × JString))
  | other (media : { media : MediaType // media ≠ applicationJson ∧ media ≠ formUrlencoded })
    (body : JsonBody)

def HttpEntity.mediaType : HttpEntity → MediaType
  | .json _ => applicationJson
  | .form _ => formUrlencoded
  | .other media _ => media.val

inductive HttpAction where
  | get
  | post (entity : HttpEntity)
  | put (entity : HttpEntity)

def HttpAction.method : HttpAction → Method
  | .get => .get
  | .post _ => .post
  | .put _ => .put

def HttpAction.entity : HttpAction → Option HttpEntity
  | .get => none
  | .post entity | .put entity => some entity

/-- The segments of the path are decoded. -/
structure HttpRequest where
  credentials : Option BasicCredentials
  path : List JString
  accept : Accept
  action : HttpAction

namespace HttpRequest

def target (q : HttpRequest) : Target :=
  ⟨q.action.method, q.path, q.accept, q.action.entity.map HttpEntity.mediaType⟩

def pathId (q : HttpRequest) : Option PathSegment :=
  (Template.bind (Handler.path .viewCategory) q.path).bind List.head?

def json (p : Platform) (q : HttpRequest) : Option JsonBody :=
  match q.action.entity with
  | some (.json body) => some body
  | some (.other media body) => if p.readsJson media.val then some body else none
  | _ => none

def form (q : HttpRequest) : Option (List (JString × JString)) :=
  match q.action.entity with
  | some (.form fields) => some fields
  | _ => none

end HttpRequest

/-- The call a request is for its method, unless its entity cannot be read for it. -/
def Handler.call (p : Platform) (q : HttpRequest) : Handler → Option Call
  | .listCategories => some .listCategories
  | .listCategoriesJson => some .listCategoriesJson
  | .viewCategory => q.pathId.map .viewCategory
  | .viewCategoryJson => q.pathId.map .viewCategoryJson
  | .createCategory => (q.json p).map .createCategory
  | .createCategoryJson => (q.json p).map .createCategoryJson
  | .newCategory => some .newCategory
  | .save => q.form.map fun fields => .save (fields.lookup "id".toList) (fields.lookup "name".toList)
  | .saveJson => q.pathId.bind fun id => (q.json p).map (.saveJson id)

structure HttpEvent where
  request : HttpRequest
  env : Env

/-- The answer to an entity no reader takes, once the `@Auth` parameter is resolved. -/
def unsupportedEntity (p : Platform) (credentials : Option BasicCredentials) : Response :=
  match auth p credentials with
  | .error ex => ex.toResponse
  | .ok _ => .ofStatus 415 .empty

def Handler.serve (p : Platform) (t : Table) (e : HttpEvent) (h : Handler) : Response × Table :=
  match h.call p e.request with
  | none => (unsupportedEntity p e.request.credentials, t)
  | some call => CategoryService.serve p t ⟨⟨e.request.credentials, call⟩, e.env⟩

/-- One HTTP request, from its routing to its response. -/
def serveHttp (p : Platform) (R : Router Handler.route) (t : Table) (e : HttpEvent) :
    Response × Table :=
  match R.pick e.request.target with
  | none => (.ofStatus (R.status e.request.target) .empty, t)
  | some h => h.serve p t e


section Paths
variable {path : List JString} {params : List Param}

theorem path_root : Template.bind (Handler.path .save) path = some params ↔
    params = [] ∧ (path = ["categories".toList] ∨ path = ["categories".toList, []]) := by
  simp only [Handler.path, bind_literal, bind_nil]
  constructor
  · rintro ⟨rest, rfl, rfl, rfl | rfl⟩ <;> simp
  · rintro ⟨rfl, rfl | rfl⟩ <;> simp

theorem path_new : Template.bind (Handler.path .newCategory) path = some params ↔
    params = [] ∧ (path = ["categories".toList, "new".toList] ∨
      path = ["categories".toList, "new".toList, []]) := by
  simp only [Handler.path, bind_literal, bind_nil]
  constructor
  · rintro ⟨_, rfl, _, rfl, rfl, rfl | rfl⟩ <;> simp
  · rintro ⟨rfl, rfl | rfl⟩ <;> simp

theorem path_item : Template.bind (Handler.path .viewCategory) path = some params ↔
    ∃ s : PathSegment, params = [s] ∧ (path = ["categories".toList, s.val] ∨
      path = ["categories".toList, s.val, []]) := by
  simp only [Handler.path, bind_literal, bind_param, bind_nil]
  constructor
  · rintro ⟨_, rfl, s, _, _, rfl, ⟨rfl, rfl | rfl⟩, rfl⟩ <;> exact ⟨s, by simp⟩
  · rintro ⟨s, rfl, rfl | rfl⟩ <;> simp

end Paths

section Preference
variable {q : HttpRequest} {h h' : Handler}

theorem path_cases (h : Handler) :
    h.path = Handler.path .save ∨ h.path = Handler.path .viewCategory ∨
      h.path = Handler.path .newCategory := by
  cases h <;> decide

theorem path_of_matches (hm : h.route.Matches q.target) :
    ∃ params, Template.bind h.path q.path = some params :=
  Option.isSome_iff_exists.mp hm.path

theorem root_iff {path : List JString} {params : List Param}
    (hp : Template.bind h.path path = some params) :
    h.path = Handler.path .save ↔
      path = ["categories".toList] ∨ path = ["categories".toList, []] := by
  obtain he | he | he := path_cases h
  · rw [he] at hp ⊢
    exact iff_of_true rfl (path_root.mp hp).2
  · rw [he] at hp ⊢
    obtain ⟨s, -, hq⟩ := path_item.mp hp
    refine iff_of_false (by decide) ?_
    obtain hq | hq := hq <;> simp [hq, s.property]
  · rw [he] at hp ⊢
    refine iff_of_false (by decide) ?_
    obtain hq | hq := (path_new.mp hp).2 <;> simp [hq]

/-- A request has one place, but for `/new`, which is also an id. -/
theorem place (hm : h.route.Matches q.target) (hm' : h'.route.Matches q.target) :
    h.path = h'.path ∨ Template.literals h'.path < Template.literals h.path ∨
      Template.literals h.path < Template.literals h'.path := by
  have hnew : Template.literals (Handler.path .viewCategory) <
      Template.literals (Handler.path .newCategory) := by decide
  obtain ⟨_, hp⟩ := path_of_matches hm
  obtain ⟨_, hp'⟩ := path_of_matches hm'
  have hiff := (root_iff hp).trans (root_iff hp').symm
  by_cases hr : h.path = Handler.path .save
  · exact .inl (hr.trans (hiff.mp hr).symm)
  · obtain he | he := (path_cases h).resolve_left hr <;>
      obtain he' | he' := (path_cases h').resolve_left (mt hiff.mpr hr)
    · exact .inl (he.trans he'.symm)
    · refine .inr (.inr ?_)
      rwa [he, he']
    · refine .inr (.inl ?_)
      rwa [he, he']
    · exact .inl (he.trans he'.symm)

/-- No path but that of `/new` has a template before its own. -/
theorem foremost {params : List Param} (hp : Template.bind h.path q.path = some params)
    (hnew : h.path = Handler.path .viewCategory → ∀ s ∈ params, s.val ≠ "new".toList) :
    Route.Foremost Handler.route h q.target := by
  intro h' hb
  obtain ⟨params', hp'⟩ := Option.isSome_iff_exists.mp hb
  change Template.bind h'.path q.path = some params' at hp'
  change Template.literals h'.path ≤ Template.literals h.path
  have hmax : Template.literals h'.path ≤ Template.literals (Handler.path .newCategory) := by
    obtain he | he | he := path_cases h' <;> rw [he] <;> decide
  obtain he | he | he := path_cases h
  · rw [he, (root_iff hp').mpr ((root_iff hp).mp he)]
  · obtain he' | he' | he' := path_cases h'
    · have hr := (root_iff hp).mpr ((root_iff hp').mp he')
      rw [he', hr]
    · rw [he, he']
    · rw [he'] at hp'
      rw [he] at hp
      obtain ⟨s, rfl, hq⟩ := path_item.mp hp
      obtain ⟨-, hq'⟩ := path_new.mp hp'
      have hs : s.val = "new".toList := by
        obtain hq | hq := hq <;> obtain hq' | hq' := hq' <;> simp_all
      exact absurd hs (hnew he s List.mem_cons_self)
  · rw [he]
    exact hmax

/-- A request goes to the method that comes first at its place. -/
theorem pick_of_place (R : Router Handler.route) (params : List Param)
    (hm : h.route.Matches q.target) (hp : Template.bind h.path q.path = some params)
    (hnew : h.path = Handler.path .viewCategory → ∀ s ∈ params, s.val ≠ "new".toList)
    (hfirst : ∀ h', h'.method = h.method → h'.path = h.path → h'.route.Matches q.target →
      h' = h ∨ h.route.Beats h'.route q.target) : R.pick q.target = some h := by
  have hf := foremost hp hnew
  refine R.pick_eq hm hf fun h' hm' => ?_
  obtain he | hlt | hlt := place hm hm'
  · exact hfirst h' (hm'.method.trans hm.method.symm) he.symm hm'
  · exact .inr (.inl hlt)
  · exact absurd (hf h' hm'.path) (not_le.mpr hlt)

/-- Among the methods of one place a GET goes to the one with the better output. -/
theorem pick_get (R : Router Handler.route) (params : List Param) (hq : q.action = .get)
    (hget : h.method = .get) (hp : Template.bind h.path q.path = some params)
    (hnew : h.path = Handler.path .viewCategory → ∀ s ∈ params, s.val ≠ "new".toList)
    (hpos : 0 < h.route.output q.target)
    (hfirst : ∀ h' : Handler, h'.method = .get → h'.path = h.path →
      h' = h ∨ h'.route.output q.target < h.route.output q.target) :
    R.pick q.target = some h := by
  have hinput (r : Route) : r.input q.target = some 0 := by
    have hnone : q.target.contentType = none := by
      rw [HttpRequest.target, hq]
      rfl
    rw [Route.input, hnone]
  have hm : h.route.Matches q.target := by
    refine ⟨?_, Option.isSome_iff_exists.mpr ⟨_, hp⟩, by rw [hinput]; rfl, hpos⟩
    rw [HttpRequest.target, hq]
    exact hget
  refine pick_of_place R params hm hp hnew fun h' hmethod hpath _ => ?_
  obtain he | hlt := hfirst h' (hmethod.trans hget) hpath
  · exact .inl he
  · refine .inr (.inr ⟨?_, ?_, hlt.le, .inr hlt⟩)
    · exact congrArg Template.literals hpath
    · rw [hinput, hinput]

theorem action_of_post (hq : q.action.method = .post) : ∃ entity, q.action = .post entity := by
  cases ha : q.action with
  | post entity => exact ⟨entity, rfl⟩
  | get => simp [ha, HttpAction.method] at hq
  | put entity => simp [ha, HttpAction.method] at hq

/-- A form goes to `save`, which names its type. -/
theorem save_beats (hs : Handler.save.route.Matches q.target) (hm : h.route.Matches q.target) :
    h = .save ∨ Handler.save.route.Beats h.route q.target := by
  obtain ⟨entity, ha⟩ := action_of_post hs.method.symm
  have htype : q.target.contentType = some entity.mediaType := by
    rw [HttpRequest.target, ha]
    rfl
  have hinput (r : Route) : r.input q.target =
      ((r.consumes.filter (·.covers entity.mediaType)).map MediaRange.specificity).max? := by
    rw [Route.input, htype]
  have hform : entity.mediaType = formUrlencoded := by
    have hsome := hs.input
    rw [hinput] at hsome
    by_contra hne
    simp [Handler.route, Handler.consumes, MediaRange.covers, Ne.symm hne] at hsome
  rw [hform] at hinput
  have hmethod : h.method = .post := hm.method.trans hs.method.symm
  cases h with
  | save => exact .inl rfl
  | createCategory =>
    refine .inr (.inr ⟨rfl, ?_, ?_, .inl ?_⟩)
    · rw [hinput, hinput]
      decide
    · simp [Route.output, Handler.route, Handler.produces]
    · rw [hinput, hinput]
      decide
  | createCategoryJson =>
    have hsome := hm.input
    rw [hinput] at hsome
    exact absurd hsome (by decide)
  | _ => cases hmethod

/-- Methods that differ in nothing but the format of their answer. -/
def Handler.Twin : Handler → Handler → Prop
  | .listCategories, .listCategoriesJson => True
  | .viewCategory, .viewCategoryJson => True
  | .createCategory, .createCategoryJson => True
  | _, _ => False

theorem same_place (hmethod : h.method = h'.method) (hpath : h.path = h'.path) :
    h = h' ∨ h.Twin h' ∨ h'.Twin h ∨ h = .save ∨ h' = .save := by
  cases h <;> cases h' <;> simp_all [Handler.method, Handler.path, Handler.Twin]

/-- Two unbeaten methods are one, or twins. -/
theorem twins (hm : h.route.Matches q.target) (hm' : h'.route.Matches q.target)
    (hb : ¬ h.route.Beats h'.route q.target) (hb' : ¬ h'.route.Beats h.route q.target) :
    h = h' ∨ h.Twin h' ∨ h'.Twin h := by
  have hmethod : h.method = h'.method := hm.method.trans hm'.method.symm
  have hpath : h.path = h'.path :=
    (place hm hm').resolve_right fun hlt => hlt.elim (fun hlt => hb (.inl hlt))
      fun hlt => hb' (.inl hlt)
  obtain he | he | he | rfl | rfl := same_place hmethod hpath
  · exact .inl he
  · exact .inr (.inl he)
  · exact .inr (.inr he)
  · obtain rfl | hbeats := save_beats hm hm'
    · exact .inl rfl
    · exact absurd hbeats hb
  · obtain rfl | hbeats := save_beats hm' hm
    · exact .inl rfl
    · exact absurd hbeats hb'

end Preference

end CategoryService
