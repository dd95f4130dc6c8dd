import CategoryService.JsonClients
import CategoryService.ListPage

/-! A browser on the HTML pages: it follows links, submits forms and follows redirects
while other clients send what they like. -/
namespace CategoryService
open EventMachine KeyedStore Markup Numeral Routing

/-- A browser that would rather have HTML than JSON. -/
structure Browser where
  user : JString
  accept : Accept
  prefersHtml : accept.quality applicationJson < accept.quality textHtml

/-- The segments of an address, which starts at the root. -/
def segments : List Char → List (List Char)
  | '/' :: s => s.splitOn '/'
  | s => s.splitOn '/'

def Browser.request (b : Browser) (p : Platform) (address : List Char) (action : HttpAction) :
    HttpRequest :=
  ⟨some ⟨b.user, p.configuration.adminPassword⟩, segments address, b.accept, action⟩

/-- A form sent with that text in its name field. Without a method it is a GET, whose
query no resource method reads. -/
def Browser.submit (b : Browser) (p : Platform) (R : References) (form : Form) (name : JString) :
    HttpRequest :=
  let address := R.decode ((form.attributes.lookup "action".toList).getD [])
  if form.attributes.lookup "method".toList = some "post".toList then
    b.request p address (.post (.form (edit "name" name (form.fields R))))
  else b.request p address .get

inductive Tab where
  | showing (page : List Char)
  | redirected (address : List Char)
  | failed

/-- What the browser makes of an answer. -/
def Response.tab (R : References) (r : Response) : Tab :=
  if r.status = 303 then
    match r.location with
    | some (.uri address) => .redirected address.toList
    | _ => .failed
  else if r.status = 200 then
    match (r.page R).or (r.listPage R) with
    | some page => .showing page
    | none => .failed
  else .failed

inductive Gesture where
  | click (link : Nat)
  | submit (name : JString)
  | load

/-- The request a gesture leads to, where the tab has something for it. -/
def Gesture.request (b : Browser) (p : Platform) (R : References) :
    Gesture → Tab → Option HttpRequest
  | .click link, .showing page => (anchors R page)[link]?.map fun a => b.request p a.1 .get
  | .submit name, .showing page =>
    (firstForm (scan .data page).1).map fun form => b.submit p R form name
  | .load, .redirected address => some (b.request p address .get)
  | _, _ => none

structure Browsing where
  tab : Tab
  table : Table

inductive Move where
  | own (gesture : Gesture) (offer : Integer)
  | other (e : HttpEvent)

section Moves
variable (p : Platform) (router : Router Handler.route) (b : Browser) (R : References)

/-- One gesture of the user, or one request of somebody else. -/
def Move.run (s : Browsing) : Move → Browsing
  | .own gesture offer =>
    match gesture.request b p R s.tab with
    | none => s
    | some q =>
      ⟨(serveHttp p router s.table ⟨q, .calm offer⟩).1.tab R,
        (serveHttp p router s.table ⟨q, .calm offer⟩).2⟩
  | .other e => ⟨s.tab, (serveHttp p router s.table e).2⟩

def browsing (s : Browsing) (move : Move) : Unit × Browsing := ((), move.run p router b R s)

end Moves

/-- The user types names the column takes, and the generator has an id left. -/
def Move.Fits (s : Browsing) : Move → Prop
  | .own (.submit name) offer => (∃ n : NameColumn, n.val = name) ∧ offer ∉ s.table
  | _ => True

/-- The tab shows a list of rows that all exist, the form of a row that exists or the
empty form, or is on its way to the list. -/
inductive Shows (R : References) (t : Table) : Tab → Prop
  | list (t' : Table) (h : ∀ k ∈ t', k ∈ t) : Shows R t (.showing (listPage R t'))
  | row (k : Integer) (n : NameColumn) (h : k ∈ t) :
      Shows R t (.showing (render R categoryMustache ⟨⟨some k, some n.val⟩⟩))
  | new : Shows R t (.showing (render R categoryMustache ⟨.new⟩))
  | redirected : Shows R t (.redirected "/categories".toList)

section Segments

theorem segments_root : segments "/categories".toList = ["categories".toList] := by decide

theorem segments_new :
    segments "/categories/new".toList = ["categories".toList, "new".toList] := by decide

theorem slash_notMem_toString (i : Integer) : '/' ∉ Integer.toString i := by
  have hdigits (n : Nat) : '/' ∉ Nat.toDigits 10 n := by
    intro h
    have hd := Nat.isDigit_of_mem_toDigits (by decide) (by decide) h
    exact absurd hd (by decide)
  unfold Integer.toString printInt
  split
  · simpa using hdigits _
  · exact hdigits _

theorem segments_item (i : Integer) :
    segments ("/categories/".toList ++ Integer.toString i) =
      ["categories".toList, (idPath i).val] := by
  have hc : '/' ∉ "categories".toList := by decide
  have ha : "/categories/".toList ++ Integer.toString i =
      '/' :: ("categories".toList ++ '/' :: Integer.toString i) := rfl
  rw [ha, segments, List.splitOn_append_cons_self_of_not_mem hc,
    List.splitOn_eq_singleton (slash_notMem_toString i)]
  rfl

end Segments

section Picks
variable {p : Platform} {router : Router Handler.route} {b : Browser} {address : List Char}

/-- A browser gets the HTML method of a place. -/
theorem pick_html {h : Handler} (params : List Param) (hget : h.method = .get)
    (hp : Template.bind h.path (segments address) = some params)
    (hnew : h.path = Handler.path .viewCategory → ∀ s ∈ params, s.val ≠ "new".toList)
    (hhtml : textHtml ∈ h.produces)
    (honly : ∀ h' : Handler, h'.method = .get → h'.path = h.path →
      h' = h ∨ h'.produces = [applicationJson]) :
    router.pick (b.request p address .get).target = some h := by
  have hroute : textHtml ∈ h.route.produces := hhtml
  have hbest : b.accept.quality textHtml ≤ h.route.output (b.request p address .get).target :=
    Route.le_output hroute (b.request p address .get).target
  refine pick_get router params rfl hget hp hnew ?_ fun h' hget' hpath => ?_
  · exact (Nat.zero_le _).trans_lt (b.prefersHtml.trans_le hbest)
  · obtain he | hjson := honly h' hget' hpath
    · exact .inl he
    · have hout : h'.route.output (b.request p address .get).target =
          b.accept.quality applicationJson := by
        simp [Route.output, Handler.route, hjson, HttpRequest.target, Browser.request]
      rw [hout]
      exact .inr (b.prefersHtml.trans_le hbest)

theorem pick_list :
    router.pick (b.request p "/categories".toList .get).target = some .listCategories := by
  refine pick_html [] rfl ?_ ?_ (by decide) fun h' hget hpath => ?_
  · rw [segments_root]
    rfl
  · intro he
    exact absurd he (by decide)
  · revert hget hpath
    cases h' <;> decide

theorem pick_view (i : Integer) :
    router.pick (b.request p ("/categories/".toList ++ Integer.toString i) .get).target =
      some .viewCategory := by
  refine pick_html [idPath i] rfl ?_ ?_ (by decide) fun h' hget hpath => ?_
  · rw [segments_item]
    exact bind_fill (Handler.path .viewCategory) [idPath i] rfl
  · exact fun _ => idPath_ne_new
  · revert hget hpath
    cases h' <;> decide

theorem pick_new :
    router.pick (b.request p "/categories/new".toList .get).target = some .newCategory := by
  refine pick_html [] rfl ?_ ?_ (by decide) fun h' hget hpath => ?_
  · rw [segments_new]
    rfl
  · intro he
    exact absurd he (by decide)
  · revert hget hpath
    cases h' <;> decide

theorem pick_save (fields : List (JString × JString)) :
    router.pick (b.request p "/categories".toList (.post (.form fields))).target =
      some .save := by
  have hp : Template.bind (Handler.path .save) (segments "/categories".toList) = some [] := by
    rw [segments_root]
    rfl
  have hout : 0 < Handler.save.route.output
      (b.request p "/categories".toList (.post (.form fields))).target := by
    have hroute : textHtml ∈ Handler.save.route.produces := by decide
    have hle := Route.le_output hroute
      (b.request p "/categories".toList (.post (.form fields))).target
    exact (Nat.zero_le _).trans_lt (b.prefersHtml.trans_le hle)
  have hm : Handler.save.route.Matches
      (b.request p "/categories".toList (.post (.form fields))).target :=
    ⟨rfl, Option.isSome_iff_exists.mpr ⟨_, hp⟩, by rfl, hout⟩
  refine pick_of_place router [] hm hp ?_ fun h' _ _ hm' => save_beats hm hm'
  intro he
  exact absurd he (by decide)

end Picks

section FormPage

def formHeadTokens : List Token := tokens (layoutHead.toList ++ formHead.toList)
def formMiddleTokens : List Token := tokens formMiddle.toList
def formFootTokens : List Token := tokens (formFoot.toList ++ layoutFoot.toList)

set_option maxRecDepth 8000 in
theorem read_formHead : run (Open.read "a".toList) none formHeadTokens =
    ([(brandTag, "Categories".toList)], none) := by
  have hl : layoutHead.toList = _ := String.toList_ofList
  have hf : formHead.toList = _ := String.toList_ofList
  rw [formHeadTokens, hl, hf]
  decide +kernel

set_option maxRecDepth 8000 in
theorem read_formMiddle :
    run (Open.read "a".toList) none formMiddleTokens = ([], none) := by
  have hm : formMiddle.toList = _ := String.toList_ofList
  rw [formMiddleTokens, hm]
  decide +kernel

set_option maxRecDepth 8000 in
theorem read_formFoot : run (Open.read "a".toList) none formFootTokens = ([], none) := by
  have hf : formFoot.toList = _ := String.toList_ofList
  have hl : layoutFoot.toList = _ := String.toList_ofList
  rw [formFootTokens, hf, hl]
  decide +kernel

theorem tokens_form (R : References) (view : CategoryView) :
    tokens (render R categoryMustache view) =
      formHeadTokens ++ (.tag (idInput.add "value".toList (idField R view)) ::
        (formMiddleTokens ++ (.tag (nameInput.add "value".toList (nameField R view)) ::
          formFootTokens))) := by
  have hid : '"' ∉ idField R view := quote_notMem_escape R _
  have hname : '"' ∉ nameField R view := quote_notMem_escape R _
  have hhead := run_of_state ((tags_run .data (layoutHead.toList ++ formHead.toList)).2.trans
    scan_head.2)
  have hmiddle := run_of_state ((tags_run .data formMiddle.toList).2.trans formMiddle_leadsTo.mode)
  rw [render_categoryMustache, formHeadTokens, formMiddleTokens, formFootTokens, tokens, tokens,
    tokens, tokens, run_then hhead, run_value_slash hid, run_then hmiddle, run_value hname,
    List.nil_append, List.nil_append]

/-- Whatever the category is, the only link of the form page is that of the layout. -/
theorem anchors_form (R : References) (view : CategoryView) :
    anchors R (render R categoryMustache view) =
      [("/categories".toList, "Categories".toList)] := by
  have hinput (tag : Tag) (h : tag.name = "input".toList) (ts : List Token) :
      run (Open.read "a".toList) none (.tag tag :: ts) = run (Open.read "a".toList) none ts := by
    have hne : "input".toList ≠ "a".toList := by decide
    simp [run, Open.read, h]
  rw [anchors, elements, tokens_form, run_then read_formHead, hinput _ rfl,
    run_then read_formMiddle, hinput _ rfl, read_formFoot]
  exact congrArg (· :: []) (brand_anchor R)

end FormPage

section Answers
variable {p : Platform} {router : Router Handler.route} {b : Browser} {R : TextReferences}
  {t : Table} {offer : Integer}

theorem get_list :
    serveHttp p router t ⟨b.request p "/categories".toList .get, .calm offer⟩ =
      (.ok (.listView ⟨entities t⟩), t) := by
  rw [serveHttp, pick_list]
  exact (serve_listCategories t (.calm offer) (authentic_admin p b.user _)).trans
    (if_pos (passes_calm offer _))

theorem get_view {k : Integer} {n : NameColumn} (hl : t.lookup k = some n) :
    serveHttp p router t
        ⟨b.request p ("/categories/".toList ++ Integer.toString k) .get, .calm offer⟩ =
      (.ok (.view ⟨⟨some k, some n.val⟩⟩), t) := by
  have hid : (b.request p ("/categories/".toList ++ Integer.toString k) .get).pathId =
      some (idPath k) := by
    have hb := bind_fill (Handler.path .viewCategory) [idPath k] rfl
    rw [HttpRequest.pathId, Browser.request, segments_item]
    exact congrArg (fun o => Option.bind o List.head?) hb
  rw [serveHttp, pick_view]
  simp only [Handler.serve, Handler.call, hid, Option.map_some]
  change serve p t ⟨⟨some ⟨b.user, p.configuration.adminPassword⟩, _⟩, _⟩ = _
  rw [serve_viewCategory t _ (authentic_admin p b.user _) (pathParam_idPath k)]
  simp only [calm_fails, passes_calm, Bool.false_eq_true, if_false, if_true, hl]

theorem get_new :
    serveHttp p router t ⟨b.request p "/categories/new".toList .get, .calm offer⟩ =
      (.ok (.view ⟨.new⟩), t) := by
  rw [serveHttp, pick_new]
  exact (serve_newCategory t (.calm offer) (authentic_admin p b.user _)).trans
    (if_pos (passes_calm offer _))

theorem post_save (fields : List (JString × JString)) :
    serveHttp p router t
        ⟨b.request p "/categories".toList (.post (.form fields)), .calm offer⟩ =
      submit p b.user offer t
        (.save (fields.lookup "id".toList) (fields.lookup "name".toList)) := by
  rw [serveHttp, pick_save]
  rfl

/-- The addresses on the pages. -/
inductive Address (t : Table) : List Char → Prop
  | list : Address t "/categories".toList
  | row (k : Integer) (h : k ∈ t) : Address t ("/categories/".toList ++ Integer.toString k)
  | new : Address t "/categories/new".toList

variable (p router b R offer) in
theorem shows_address {address : List Char} (h : Address t address) :
    (serveHttp p router t ⟨b.request p address .get, .calm offer⟩).2 = t ∧
      Shows R.toReferences t
        ((serveHttp p router t ⟨b.request p address .get, .calm offer⟩).1.tab R.toReferences) := by
  cases h with
  | list =>
    rw [get_list]
    exact ⟨rfl, .list t fun _ hk => hk⟩
  | row k hk =>
    obtain ⟨n, hl⟩ := exists_lookup hk
    rw [get_view hl]
    exact ⟨rfl, .row k n hk⟩
  | new =>
    rw [get_new]
    exact ⟨rfl, .new⟩

theorem address_of_mem {t' : Table} (h : ∀ k ∈ t', k ∈ t) {a : List Char × List Char}
    (ha : a ∈ listAnchors t') : Address t a.1 := by
  obtain rfl | ha := List.mem_cons.mp ha
  · exact .list
  · obtain ⟨e, he, rfl⟩ := List.mem_map.mp ha
    have hk : e.1 ∈ t' := mem_of_lookup (mem_entries_iff.mp he)
    exact .row e.1 (h e.1 hk)

theorem Shows.mono {R : References} {t' : Table} {tab : Tab} (h : Shows R t tab)
    (hkeep : ∀ k ∈ t, k ∈ t') : Shows R t' tab := by
  cases h with
  | list t₀ ht => exact .list t₀ fun k hk => hkeep k (ht k hk)
  | row k n hk => exact .row k n (hkeep k hk)
  | new => exact .new
  | redirected => exact .redirected

/-- The form of a page that shows `view`, sent with a name. -/
theorem submit_viewForm (R : References) (view : CategoryView) (name : JString) :
    b.submit p R (viewForm R view) name =
      b.request p "/categories".toList (.post (.form
        [("id".toList, (view.category.id.map Integer.toString).getD []),
          ("name".toList, name)])) := by
  have haction : formTag.attributes.lookup "action".toList = some "/categories".toList := by
    decide
  have hmethod : formTag.attributes.lookup "method".toList = some "post".toList := by decide
  have hplain : '&' ∉ "/categories".toList := by decide
  have haddress := decode_eq_self R hplain
  have hfields := fields_viewForm R view
  simp only [viewForm] at hfields
  simp only [Browser.submit, viewForm, haction, hmethod, Option.getD_some, haddress, if_true,
    hfields, edit_name]

theorem submit_newForm (R : References) (name : JString) :
    b.submit p R newForm name = b.request p "/categories/new".toList .get := by
  have hplain : '&' ∉ "/categories/new".toList := by decide
  have haddress := decode_eq_self R hplain
  have haction : newForm.attributes.lookup "action".toList = some "/categories/new".toList := by
    decide
  have hmethod : newForm.attributes.lookup "method".toList = none := by decide
  simp only [Browser.submit, haction, hmethod, Option.getD_some, haddress, reduceCtorEq, if_false]

/-- A form sent to `save`, for the row of its id or for a new one. -/
theorem shows_save {id : Option Integer} (hid : ∀ k, id = some k → k ∈ t) (ho : offer ∉ t)
    (n : NameColumn) :
    ((serveHttp p router t ⟨b.request p "/categories".toList (.post (.form
        [("id".toList, (id.map Integer.toString).getD []), ("name".toList, n.val)])),
        .calm offer⟩).1.tab R.toReferences) = .redirected "/categories".toList := by
  have hne : ("name".toList == "id".toList) = false := by decide
  rw [post_save]
  simp only [List.lookup_cons, beq_self_eq_true, hne]
  cases id with
  | none =>
    have hsave := @submit_save_new p t b.user offer ho n
    rw [Option.map_none, Option.getD_none, hsave]
    rfl
  | some k =>
    obtain ⟨m, hl⟩ := exists_lookup (hid k rfl)
    have hsave := @submit_save p t b.user offer k m hl n
    rw [Option.map_some, Option.getD_some, hsave]
    rfl

theorem run_none {gesture : Gesture} {tab : Tab}
    (h : gesture.request b p R.toReferences tab = none) :
    Move.run p router b R.toReferences ⟨tab, t⟩ (.own gesture offer) = ⟨tab, t⟩ := by
  simp only [Move.run, h]

theorem run_some {gesture : Gesture} {tab : Tab} {q : HttpRequest}
    (h : gesture.request b p R.toReferences tab = some q) :
    Move.run p router b R.toReferences ⟨tab, t⟩ (.own gesture offer) =
      ⟨(serveHttp p router t ⟨q, .calm offer⟩).1.tab R.toReferences,
        (serveHttp p router t ⟨q, .calm offer⟩).2⟩ := by
  simp only [Move.run, h]

/-- There is nothing to load while a page is shown. -/
theorem run_load_showing (page : List Char) :
    Move.run p router b R.toReferences ⟨.showing page, t⟩ (.own .load offer) =
      ⟨.showing page, t⟩ := rfl

theorem request_form (view : CategoryView) (name : JString) :
    Gesture.request b p R.toReferences (.submit name)
        (.showing (render R.toReferences categoryMustache view)) =
      some (b.request p "/categories".toList (.post (.form
        [("id".toList, (view.category.id.map Integer.toString).getD []),
          ("name".toList, name)]))) := by
  rw [Gesture.request, firstForm_page, Option.map_some]
  exact congrArg some (submit_viewForm R.toReferences view name)

theorem request_newForm (t : Table) (name : JString) :
    Gesture.request b p R.toReferences (.submit name)
        (.showing (listPage R.toReferences t)) =
      some (b.request p "/categories/new".toList .get) := by
  rw [Gesture.request, firstForm_listPage, Option.map_some, submit_newForm]

theorem run_load : Move.run p router b R.toReferences ⟨.redirected "/categories".toList, t⟩
      (.own .load offer) = ⟨.showing (listPage R.toReferences t), t⟩ := by
  rw [run_some rfl, get_list]
  rfl

theorem run_newForm (t' : Table) (name : JString) :
    Move.run p router b R.toReferences ⟨.showing (listPage R.toReferences t'), t⟩
      (.own (.submit name) offer) =
        ⟨.showing (render R.toReferences categoryMustache ⟨.new⟩), t⟩ := by
  rw [run_some (request_newForm t' name), get_new]
  rfl

/-- A click on a page all of whose links are those of a list of rows that exist. -/
theorem shows_click {page : List Char} {t' : Table} (ht' : ∀ k ∈ t', k ∈ t)
    (hp : ∀ a ∈ anchors R.toReferences page, a ∈ listAnchors t')
    (h : Shows R.toReferences t (.showing page)) (link : Nat) :
    Shows R.toReferences
      (Move.run p router b R.toReferences ⟨.showing page, t⟩ (.own (.click link) offer)).table
      (Move.run p router b R.toReferences ⟨.showing page, t⟩ (.own (.click link) offer)).tab := by
  cases ha : (anchors R.toReferences page)[link]? with
  | none =>
    have hreq : Gesture.request b p R.toReferences (.click link) (.showing page) = none := by
      rw [Gesture.request, ha, Option.map_none]
    rw [run_none hreq]
    exact h
  | some a =>
    have hreq : Gesture.request b p R.toReferences (.click link) (.showing page) =
        some (b.request p a.1 .get) := by
      rw [Gesture.request, ha, Option.map_some]
    obtain ⟨ht, hs⟩ := shows_address p router b R offer
      (address_of_mem ht' (hp a (List.mem_of_getElem? ha)))
    rw [run_some hreq]
    simp only [ht]
    exact hs

/-- The links of a form page are on every list. -/
theorem anchors_form_subset (view : CategoryView) :
    ∀ a ∈ anchors R.toReferences (render R.toReferences categoryMustache view),
      a ∈ listAnchors t := by
  intro a ha
  rw [anchors_form] at ha
  rw [List.mem_singleton.mp ha]
  exact List.mem_cons_self

theorem tab_form {view : CategoryView} {name : JString}
    (hid : ∀ k, view.category.id = some k → k ∈ t) (hn : ∃ n : NameColumn, n.val = name)
    (ho : offer ∉ t) :
    (Move.run p router b R.toReferences ⟨.showing (render R.toReferences categoryMustache view), t⟩
      (.own (.submit name) offer)).tab = .redirected "/categories".toList := by
  obtain ⟨n, rfl⟩ := hn
  rw [run_some (request_form view n.val)]
  exact shows_save hid ho n

/-- A gesture on the form of a row, or on the empty one. -/
theorem shows_form {view : CategoryView} {gesture : Gesture}
    (hid : ∀ k, view.category.id = some k → k ∈ t)
    (h : Shows R.toReferences t (.showing (render R.toReferences categoryMustache view)))
    (hfits : Move.Fits ⟨.showing (render R.toReferences categoryMustache view), t⟩
      (.own gesture offer)) :
    Shows R.toReferences
      (Move.run p router b R.toReferences
        ⟨.showing (render R.toReferences categoryMustache view), t⟩ (.own gesture offer)).table
      (Move.run p router b R.toReferences
        ⟨.showing (render R.toReferences categoryMustache view), t⟩ (.own gesture offer)).tab := by
  cases gesture with
  | click link => exact shows_click (fun _ hj => hj) (anchors_form_subset _) h link
  | submit name =>
    rw [tab_form hid hfits.1 hfits.2]
    exact .redirected
  | load =>
    rw [run_load_showing]
    exact h

/-- One move leaves something on the tab again. -/
theorem shows_run {s : Browsing} {move : Move} (h : Shows R.toReferences s.table s.tab)
    (hfits : move.Fits s) :
    Shows R.toReferences (move.run p router b R.toReferences s).table
      (move.run p router b R.toReferences s).tab := by
  obtain ⟨tab, t⟩ := s
  cases move with
  | other e => exact h.mono fun k hk => mem_serveHttp hk
  | own gesture offer =>
    cases h with
    | list t' ht' =>
      cases gesture with
      | click link =>
        refine shows_click ht' (fun a ha => ?_) (.list t' ht') link
        rwa [anchors_listPage] at ha
      | submit name =>
        rw [run_newForm]
        exact .new
      | load =>
        rw [run_load_showing]
        exact .list t' ht'
    | row k n hk =>
      have hid (j : Integer) (hj : some k = some j) : j ∈ t := Option.some.inj hj ▸ hk
      exact shows_form hid (.row k n hk) hfits
    | new =>
      have hid (j : Integer) (hj : none = some j) : j ∈ t := by cases hj
      exact shows_form hid .new hfits
    | redirected =>
      cases gesture with
      | click link =>
        rw [run_none rfl]
        exact .redirected
      | submit name =>
        rw [run_none rfl]
        exact .redirected
      | load =>
        rw [run_load]
        exact .list t fun _ hk => hk

/-- From the address of the service on, whatever the user clicks, types and submits and
whatever others send in between, the tab always has a page or is on its way to one: no
link and no form of the HTML pages ever leads to an error. -/
theorem browsing_never_fails (p : Platform) (router : Router Handler.route) (b : Browser)
    (R : TextReferences) (t : Table) {moves : List Move}
    (hfits : StepsMeet (browsing p router b R.toReferences) Move.Fits
      ⟨.redirected "/categories".toList, t⟩ moves) :
    ∀ s ∈ reached (browsing p router b R.toReferences) ⟨.redirected "/categories".toList, t⟩ moves,
      Shows R.toReferences s.table s.tab :=
  reached_of_step (I := fun s => Shows R.toReferences s.table s.tab) _
    (fun _ _ hs hm => shows_run hs hm) .redirected hfits

end Answers

/-- The Accept header of a browser. -/
def htmlBrowser : Browser := ⟨[], [(.exact textHtml, 1000), (.all, 800)], by decide⟩

theorem browsing_never_fails_new :
    List.Forall (fun s => Shows namedTextReferences.toReferences s.table s.tab)
      (reached (browsing configured firstRouter htmlBrowser namedTextReferences.toReferences)
        ⟨.redirected "/categories".toList, ∅⟩
        [.own .load 1, .own (.submit []) 1, .own (.submit ['<']) 1, .own .load 2,
          .own (.click 1) 2]) := by
  have h : (1 : Integer) ∉ (∅ : Table) := by decide
  refine List.forall_iff_forall_mem.mpr
    (browsing_never_fails configured firstRouter htmlBrowser namedTextReferences ∅ ?_)
  refine ⟨trivial, ⟨⟨⟨[], by decide⟩, rfl⟩, ?_⟩, ⟨⟨⟨['<'], by decide⟩, rfl⟩, ?_⟩, trivial, trivial,
    trivial⟩
  · rw [browsing, run_load]
    exact h
  · rw [browsing, browsing, run_load, run_newForm]
    exact h

end CategoryService
