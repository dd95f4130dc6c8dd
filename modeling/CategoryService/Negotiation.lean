import CategoryService.ClientErrors
import CategoryService.History
import CategoryService.Routes

/-! Content negotiation: what a run of requests does, whichever router stands before the
resource. -/
namespace CategoryService
open Routing EventMachine Numeral

section Agreement
variable {p : Platform} {t : Table}

/-- Answers that differ in their format only. -/
structure SameAnswer (q : HttpRequest) (r r' : Response) : Prop where
  success : r.Success ↔ r'.Success
  shown : q.action = .get → r.pairs = r'.pairs

structure Agree (q : HttpRequest) (x y : Response × Table) : Prop where
  answer : SameAnswer q x.1 y.1
  table : x.2 = y.2

theorem Agree.symm {q : HttpRequest} {x y : Response × Table} (h : Agree q x y) : Agree q y x :=
  ⟨⟨h.answer.success.symm, fun hq => (h.answer.shown hq).symm⟩, h.table.symm⟩

theorem Agree.refl (q : HttpRequest) (x : Response × Table) : Agree q x x :=
  ⟨⟨Iff.rfl, fun _ => rfl⟩, rfl⟩

theorem agree_refused {q : HttpRequest} {x y : Response × Table} (hx : ¬ x.1.Success)
    (hy : ¬ y.1.Success) (htx : x.2 = t) (hty : y.2 = t) (hq : q.action ≠ .get) : Agree q x y :=
  ⟨⟨iff_of_false hx hy, fun h => absurd h hq⟩, htx.trans hty.symm⟩

/-- A request that submits nothing leaves the table. -/
theorem serve_unsubmitted {e : Event} (h : e.request.submitted p = none) :
    (serve p t e).2 = t := by
  rw [serve_change, change_of_submitted_none h]
  rfl

theorem authentic_credentials {credentials : Option BasicCredentials} {call : Call}
    (ha : Request.Authentic p ⟨credentials, call⟩) :
    ∃ user, credentials = some ⟨user, p.configuration.adminPassword⟩ := by
  obtain ⟨⟨user, password⟩, hc, hp⟩ := Option.map_eq_some_iff.mp ha
  simp only at hc hp
  exact ⟨user, by rw [hc, ← hp]⟩

theorem list_agree (q : HttpRequest) (credentials : Option BasicCredentials) (offer : Integer) :
    Agree q (serve p t ⟨⟨credentials, .listCategories⟩, .calm offer⟩)
      (serve p t ⟨⟨credentials, .listCategoriesJson⟩, .calm offer⟩) := by
  by_cases ha : Request.Authentic p ⟨credentials, .listCategories⟩
  · obtain ⟨user, rfl⟩ := authentic_credentials ha
    have h := @read_list p t user offer
    have h' := @read_listJson p t user offer
    refine ⟨⟨iff_of_true ?_ ?_, fun _ => h.2.trans h'.2.symm⟩, ?_⟩
    · exact success_of_status h.1
    · exact success_of_status h'.1
    · rw [serve_unsubmitted rfl, serve_unsubmitted rfl]
  · rw [serve_unauthorized ha, serve_unauthorized ha]
    exact .refl q _

theorem view_agree (q : HttpRequest) (credentials : Option BasicCredentials) (offer : Integer)
    (id : PathSegment) :
    Agree q (serve p t ⟨⟨credentials, .viewCategory id⟩, .calm offer⟩)
      (serve p t ⟨⟨credentials, .viewCategoryJson id⟩, .calm offer⟩) := by
  by_cases ha : Request.Authentic p ⟨credentials, .viewCategory id⟩
  · cases hr : Request.refusal p ⟨credentials, .viewCategory id⟩ with
    | some resp =>
      have hr' : Request.refusal p ⟨credentials, .viewCategoryJson id⟩ = some resp := hr
      rw [serve_refusal hr, serve_refusal hr']
      exact .refl q _
    | none =>
      have hcall := accepted_of_refusal ha hr
      cases hcall with
      | @viewCategory _ i hi =>
        have ha' : Request.Authentic p ⟨credentials, .viewCategoryJson id⟩ := ha
        rw [serve_viewCategory t _ ha hi, serve_viewCategoryJson t _ ha' hi]
        simp only [calm_fails, passes_calm, Bool.false_eq_true, if_false, if_true]
        cases t.lookup i with
        | none => exact .refl q _
        | some n => exact ⟨⟨Iff.rfl, fun _ => rfl⟩, rfl⟩
  · rw [serve_unauthorized ha, serve_unauthorized ha]
    exact .refl q _

/-- Requests that submit the same entity, with libraries that do not fail. -/
theorem submitted_agree {q : HttpRequest} {r r' : Request} {c : Category} {offer : Integer}
    (ha : r.Authentic p) (ha' : r'.Authentic p) (hs : r.submitted p = some c)
    (hs' : r'.submitted p = some c) (hq : q.action ≠ .get) :
    Agree q (serve p t ⟨r, .calm offer⟩) (serve p t ⟨r', .calm offer⟩) := by
  have hcalm (call : Call) : (Env.calm offer).passes (call.steps c) := passes_calm offer _
  have hkeep {r : Request} (hfail : ¬ (serve p t ⟨r, .calm offer⟩).1.Success) :
      (serve p t ⟨r, .calm offer⟩).2 = t := serve_keeps (reports_calm r offer) hfail
  obtain ⟨n, -, hn, hl, he⟩ | ⟨hno, hfail⟩ := serve_lands ha hs t (.calm offer)
  · obtain ⟨n', -, hn', -, he'⟩ | ⟨hno', -⟩ := serve_lands ha' hs' t (.calm offer)
    · have hnn : n = n' := Subtype.ext (Option.some.inj (hn.symm.trans hn'))
      subst hnn
      rw [he, he']
      exact ⟨⟨iff_of_true (reply_success _ _) (reply_success _ _), fun h => absurd h hq⟩, rfl⟩
    · exact absurd ⟨hcalm _, ⟨n, hn⟩, hl⟩ hno'
  · obtain ⟨n', -, hn', hl', -⟩ | ⟨hno', hfail'⟩ := serve_lands ha' hs' t (.calm offer)
    · exact absurd ⟨hcalm _, ⟨n', hn'⟩, hl'⟩ hno
    · exact agree_refused hfail hfail' (hkeep hfail) (hkeep hfail') hq

theorem create_agree {q : HttpRequest} (credentials : Option BasicCredentials) (offer : Integer)
    (body : JsonBody) (hq : q.action ≠ .get) :
    Agree q (serve p t ⟨⟨credentials, .createCategory body⟩, .calm offer⟩)
      (serve p t ⟨⟨credentials, .createCategoryJson body⟩, .calm offer⟩) := by
  by_cases ha : Request.Authentic p ⟨credentials, .createCategory body⟩
  · have ha' : Request.Authentic p ⟨credentials, .createCategoryJson body⟩ := ha
    cases hs : Request.submitted p ⟨credentials, .createCategory body⟩ with
    | some c => exact submitted_agree ha ha' hs hs hq
    | none =>
      have hs' : Request.submitted p ⟨credentials, .createCategoryJson body⟩ = none := hs
      exact agree_refused (not_success_of_submitted_none ha trivial hs)
        (not_success_of_submitted_none ha' trivial hs') (serve_unsubmitted hs)
        (serve_unsubmitted hs') hq
  · rw [serve_unauthorized ha, serve_unauthorized ha]
    exact .refl q _

/-- Whichever twin answers, the format of the answer is the only difference. -/
theorem twin_agree {h h' : Handler} (ht : h.Twin h') {q : HttpRequest}
    (hm : h.route.Matches q.target) (offer : Integer) :
    Agree q (h.serve p t ⟨q, .calm offer⟩) (h'.serve p t ⟨q, .calm offer⟩) := by
  have hpost (hmethod : q.target.method = .post) : q.action ≠ .get := by
    intro hq
    rw [HttpRequest.target, hq] at hmethod
    cases hmethod
  cases h <;> cases h' <;> first | exact ht.elim | skip
  · exact list_agree q _ offer
  · simp only [Handler.serve, Handler.call]
    cases q.pathId with
    | none => exact .refl q _
    | some id => exact view_agree q _ offer id
  · simp only [Handler.serve, Handler.call]
    cases q.json p with
    | none => exact .refl q _
    | some body => exact create_agree _ offer body (hpost hm.method.symm)

/-- Where one template of a path is longer than another, the path is that of `/new`. -/
theorem longer_path {q : HttpRequest} {g h : Handler} {params params' : List Param}
    (hp : Template.bind g.path q.path = some params)
    (hp' : Template.bind h.path q.path = some params')
    (hlt : Template.literals h.path < Template.literals g.path) :
    g.path = Handler.path .newCategory ∧ h.path = Handler.path .viewCategory := by
  have hgnew : g.path = Handler.path .newCategory := by
    obtain he | he | he := path_cases g
    · have hh := (root_iff hp').mpr ((root_iff hp).mp he)
      rw [he, hh] at hlt
      exact absurd hlt (lt_irrefl _)
    · have hle : Template.literals (Handler.path .viewCategory) ≤ Template.literals h.path := by
        obtain hh | hh | hh := path_cases h <;> rw [hh] <;> decide
      rw [he] at hlt
      exact absurd hlt (not_lt.mpr hle)
    · exact he
  refine ⟨hgnew, ?_⟩
  obtain hh | hh | hh := path_cases h
  · have hg := (root_iff hp).mpr ((root_iff hp').mp hh)
    exact absurd (hgnew.symm.trans hg) (by decide)
  · exact hh
  · rw [hh, hgnew] at hlt
    exact absurd hlt (lt_irrefl _)

/-- Only a PUT to `/new` may be routed by one router and refused by another. -/
theorem pick_none {R R' : Router Handler.route} {q : HttpRequest} {h : Handler}
    (hR : R.pick q.target = none) (hR' : R'.pick q.target = some h) :
    h = .saveJson ∧ q.pathId.map Subtype.val = some "new".toList := by
  have hm := R'.matches_pick hR'
  have hfore : ¬ Route.Foremost Handler.route h q.target := fun hf => R.complete hm hf hR
  obtain ⟨g, hg, hlt⟩ : ∃ g : Handler, (g.path.bind q.path).isSome ∧
      Template.literals h.path < Template.literals g.path := by
    by_contra hno
    refine hfore fun g hg => ?_
    by_contra hlt
    exact hno ⟨g, hg, not_le.mp hlt⟩
  obtain ⟨params, hp⟩ := Option.isSome_iff_exists.mp hg
  obtain ⟨params', hp'⟩ := path_of_matches hm
  obtain ⟨hgnew, hpath⟩ := longer_path hp hp' hlt
  rw [hgnew] at hp
  obtain ⟨-, hq⟩ := path_new.mp hp
  have hid : q.pathId.map Subtype.val = some "new".toList := by
    obtain hq | hq := hq <;> simp only [HttpRequest.pathId, hq] <;> decide
  -- A GET goes to `newCategory`, which is there for both formats.
  have hget : h.method ≠ .get := by
    intro hget
    have hnew : Handler.newCategory.route.Matches q.target := by
      refine ⟨hget.symm.trans hm.method, Option.isSome_iff_exists.mpr ⟨_, hp⟩,
        Route.input_all rfl _, lt_of_lt_of_le hm.output (Route.output_mono ?_ _)⟩
      cases h <;> decide
    refine R'.unbeaten hR' .newCategory hnew (.inl ?_)
    rw [hgnew] at hlt
    exact hlt
  refine ⟨?_, hid⟩
  cases h <;> first | rfl | exact absurd rfl hget | exact absurd hpath (by decide)

theorem not_success_unsupported (credentials : Option BasicCredentials) :
    ¬ (unsupportedEntity p credentials).Success := by
  have hunauthorized : ¬ unauthorized.Success := by decide
  have h415 : ¬ (Response.ofStatus 415 .empty).Success := by decide
  unfold unsupportedEntity
  cases h : auth p credentials with
  | ok user => exact h415
  | error ex =>
    have href : refusal (auth p credentials) = some ex.toResponse := by rw [h]; rfl
    exact ClientError.not_success (auth_refusing p credentials _ href)

theorem pathParam_new (hnew : p.digits.digit 'n' = none) {id : PathSegment}
    (hid : id.val = "new".toList) : pathParam p id = refuse (.ofStatus 404 .empty) := by
  have hn : "new".toList = ['n', 'e', 'w'] := by decide
  have hread : readInt p.digits ['n', 'e', 'w'] = none := by
    simp [readInt, readNat, readDigits, hnew]
  rw [hn] at hid
  simp [pathParam, readInteger, hid, Integer.valueOf, hread]

theorem put_new_refused (hnew : p.digits.digit 'n' = none) {e : HttpEvent}
    (hid : e.request.pathId.map Subtype.val = some "new".toList) :
    ¬ (Handler.saveJson.serve p t e).1.Success ∧ (Handler.saveJson.serve p t e).2 = t := by
  obtain ⟨id, hpath, hid⟩ := Option.map_eq_some_iff.mp hid
  simp only [Handler.serve, Handler.call, hpath, Option.bind_some]
  cases e.request.json p with
  | none => exact ⟨not_success_unsupported _, rfl⟩
  | some body =>
    by_cases ha : Request.Authentic p ⟨e.request.credentials, .saveJson id body⟩
    · have hauth := auth_authentic ha
      have hr : Request.refusal p ⟨e.request.credentials, .saveJson id body⟩ =
          some (.ofStatus 404 .empty) := by
        simp only at hauth
        simp [Request.refusal, hauth, pathParam_new hnew hid, refuse, Throwable.toResponse]
      simp only [Option.map_some]
      rw [serve_refusal hr]
      exact ⟨not_success_notFound, rfl⟩
    · simp only [Option.map_some]
      rw [serve_unauthorized ha]
      exact ⟨not_success_unauthorized, rfl⟩

theorem none_agree (hnew : p.digits.digit 'n' = none) {R R' : Router Handler.route}
    {e : HttpEvent} {h : Handler} (hR : R.pick e.request.target = none)
    (hR' : R'.pick e.request.target = some h) :
    Agree e.request (.ofStatus (R.status e.request.target) .empty, t) (h.serve p t e) := by
  obtain ⟨rfl, hid⟩ := pick_none hR hR'
  obtain ⟨hfail, htable⟩ := put_new_refused (t := t) hnew hid
  refine agree_refused ?_ hfail rfl htable ?_
  · exact not_lt.mpr (R.refusal _).1
  · intro hget
    have hmethod := (R'.matches_pick hR').method
    rw [HttpRequest.target, hget] at hmethod
    cases hmethod

theorem serveHttp_agree (hnew : p.digits.digit 'n' = none) (R R' : Router Handler.route)
    (q : HttpRequest) (offer : Integer) :
    Agree q (serveHttp p R t ⟨q, .calm offer⟩) (serveHttp p R' t ⟨q, .calm offer⟩) := by
  simp only [serveHttp]
  cases hR : R.pick q.target with
  | none =>
    cases hR' : R'.pick q.target with
    | none =>
      refine ⟨⟨iff_of_false ?_ ?_, fun _ => rfl⟩, rfl⟩
      · exact not_lt.mpr (R.refusal _).1
      · exact not_lt.mpr (R'.refusal _).1
    | some h => exact none_agree (e := ⟨q, .calm offer⟩) hnew hR hR'
  | some h =>
    cases hR' : R'.pick q.target with
    | none => exact (none_agree (e := ⟨q, .calm offer⟩) hnew hR' hR).symm
    | some h' =>
      have hm := R.matches_pick hR
      have hm' := R'.matches_pick hR'
      obtain rfl | ht | ht := twins hm hm' (R'.unbeaten hR' h hm) (R.unbeaten hR h' hm')
      · exact .refl q _
      · exact twin_agree ht hm offer
      · exact (twin_agree ht hm' offer).symm

/-- The annotations settle what a run of requests does: behind any two routers that
respect them the same requests succeed, every GET shows the same categories, and the
same table is left. Only formats are negotiated. -/
theorem routers_agree (hnew : p.digits.digit 'n' = none) (R R' : Router Handler.route)
    {es : List HttpEvent} (hcalm : ∀ e ∈ es, e.env = .calm e.env.offer) (t : Table) :
    final (serveHttp p R) t es = final (serveHttp p R') t es ∧
      List.Forall₂ (fun a b => a.1 = b.1 ∧ SameAnswer a.1.request a.2 b.2)
        (answers (serveHttp p R) t es) (answers (serveHttp p R') t es) := by
  refine final_agree (Q := fun e => SameAnswer e.request) (serveHttp p R) (fun t e he => ?_) t
  obtain ⟨q, env⟩ := e
  have henv : env = .calm env.offer := hcalm _ he
  rw [henv]
  have h := serveHttp_agree (t := t) hnew R R' q env.offer
  exact ⟨h.answer, h.table⟩

end Agreement

/-- The other choice among twins. -/
def lastRouter : Router Handler.route :=
  .ofList Handler.all.reverse fun h => List.mem_reverse.mpr (Handler.mem_all h)

/-- A request of the administrator that takes any format. -/
def anyFormat (path : List JString) (action : HttpAction) : HttpRequest :=
  ⟨some ⟨"admin".toList, "password".toList⟩, path, [(.all, 1000)], action⟩

example : firstRouter.pick (anyFormat ["categories".toList] .get).target = some .listCategories ∧
    lastRouter.pick (anyFormat ["categories".toList] .get).target = some .listCategoriesJson := by
  decide

/-- A form post, a list, a JSON post, and a view of the row it has made. -/
def visits : List HttpEvent :=
  [⟨anyFormat ["categories".toList] (.post (.form [("name".toList, ['a'])])), .calm 1⟩,
    ⟨anyFormat ["categories".toList] .get, .calm 2⟩,
    ⟨anyFormat ["categories".toList] (.post (.json (.parsed (some ⟨none, some ['b']⟩)))), .calm 2⟩,
    ⟨anyFormat ["categories".toList, ['2']] .get, .calm 3⟩]

/-- One router answers the two reads with pages, the other with JSON and its links. -/
theorem routers_agree_visits :
    (answers (serveHttp configured firstRouter) ∅ visits).map
        (fun a => (a.2.status, a.2.links.length)) = [(303, 0), (200, 0), (201, 0), (200, 0)] ∧
      (answers (serveHttp configured lastRouter) ∅ visits).map
        (fun a => (a.2.status, a.2.links.length)) = [(303, 0), (200, 3), (201, 0), (200, 1)] ∧
      final (serveHttp configured firstRouter) ∅ visits =
        final (serveHttp configured lastRouter) ∅ visits ∧
      List.Forall₂ (fun a b => a.1 = b.1 ∧ SameAnswer a.1.request a.2 b.2)
        (answers (serveHttp configured firstRouter) ∅ visits)
        (answers (serveHttp configured lastRouter) ∅ visits) := by
  have hcalm : ∀ e ∈ visits, e.env = .calm e.env.offer := by simp [visits, Env.calm]
  exact ⟨by decide, by decide, routers_agree (by decide) firstRouter lastRouter hcalm ∅⟩

section Safe
variable (p : Platform) (R : Router Handler.route)

def HttpEvent.isGet (e : HttpEvent) : Bool := e.request.action.method = .get

theorem get_keeps {e : HttpEvent} (h : e.isGet = true) (t : Table) :
    (serveHttp p R t e).2 = t := by
  have hget : e.request.action.method = .get := by simpa [HttpEvent.isGet] using h
  simp only [serveHttp]
  cases hR : R.pick e.request.target with
  | none => rfl
  | some g =>
    have hmethod : g.method = .get := (R.matches_pick hR).method.trans hget
    simp only [Handler.serve]
    cases hcall : g.call p e.request with
    | none => rfl
    | some call =>
      refine serve_unsubmitted ?_
      cases g with
      | listCategories | listCategoriesJson | newCategory => cases hcall; rfl
      | viewCategory | viewCategoryJson =>
        obtain ⟨id, -, rfl⟩ := Option.map_eq_some_iff.mp hcall
        rfl
      | _ => cases hmethod

/-- GET requests are safe: a run without them leaves the same table and answers the
other requests as before, whatever the router and whichever steps fail. -/
theorem gets_are_safe (t : Table) (es : List HttpEvent) :
    final (serveHttp p R) t (es.filter fun e => !e.isGet) = final (serveHttp p R) t es ∧
      answers (serveHttp p R) t (es.filter fun e => !e.isGet) =
        (answers (serveHttp p R) t es).filter fun a => !a.1.isGet := by
  have hskip : ∀ t e, (!HttpEvent.isGet e) = false → (serveHttp p R t e).2 = t :=
    fun t e he => get_keeps p R (by simpa using he) t
  exact ⟨final_filter _ _ hskip t es, answers_filter _ _ hskip t es⟩

theorem gets_are_safe_visits :
    final (serveHttp configured firstRouter) ∅ (visits.filter fun e => !e.isGet) =
        final (serveHttp configured firstRouter) ∅ visits ∧
      answers (serveHttp configured firstRouter) ∅ (visits.filter fun e => !e.isGet) =
        (answers (serveHttp configured firstRouter) ∅ visits).filter fun a => !a.1.isGet :=
  gets_are_safe configured firstRouter ∅ visits

end Safe
end CategoryService
