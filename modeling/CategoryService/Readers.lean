import CategoryService.Creation

/-! The four readers against each other, against what was acknowledged, and along runs. -/
namespace CategoryService
open KeyedStore Register EventMachine
variable {p : Platform} {t : Table} {user : JString} {offer : Integer}

/-- The response to a call of an authenticated user whom no library fails. -/
def read (p : Platform) (user : JString) (offer : Integer) (t : Table) (call : Call) : Response :=
  (serve p t ⟨⟨some ⟨user, p.configuration.adminPassword⟩, call⟩, .calm offer⟩).1

/-- The (id, name) pairs a response holds. -/
def Response.pairs (r : Response) : List (Option Integer × Option JString) :=
  match r.entity with
  | .listView view => view.commands.map fun c => (c.id, c.name)
  | .list list => list.categories.map fun c => (c.id, c.name)
  | .view view => [(view.category.id, view.category.name)]
  | .dto category => [(category.id, category.name)]
  | _ => []

/-- The four readers an id can be looked for in. -/
def Reads (p : Platform) (k : Integer) (call : Call) : Prop :=
  call = .listCategories ∨ call = .listCategoriesJson ∨
    ∃ id, pathParam p id = .ok (some k) ∧ (call = .viewCategory id ∨ call = .viewCategoryJson id)

def Response.Shows (r : Response) (k : Integer) (name : JString) : Prop :=
  r.status = 200 ∧ (some k, some name) ∈ r.pairs

/-- The response holds that pair and nothing else. -/
def Response.Is (r : Response) (k : Integer) (name : JString) : Prop :=
  r.status = 200 ∧ r.pairs = [(some k, some name)]

def ShownByAll (p : Platform) (user : JString) (offer : Integer) (t : Table) (k : Integer)
    (name : JString) : Prop :=
  ∀ call, Reads p k call → (read p user offer t call).Shows k name

/-- The lists hold the same pairs and no id twice; a view answers with the pair of the
list, or with not-found where the list has no such id. -/
structure ReadersAgree (p : Platform) (user : JString) (offer : Integer) (t : Table) : Prop where
  addressable : ∀ k, ∃ id, pathParam p id = .ok (some k)
  lists : (read p user offer t .listCategories).pairs =
    (read p user offer t .listCategoriesJson).pairs
  total : ∀ e ∈ (read p user offer t .listCategories).pairs, ∃ k name, e = (some k, some name)
  nodup : ((read p user offer t .listCategories).pairs.map Prod.fst).Nodup
  listed : ∀ k name, (some k, some name) ∈ (read p user offer t .listCategories).pairs →
    ∀ id, pathParam p id = .ok (some k) →
      (read p user offer t (.viewCategory id)).Is k name ∧
      (read p user offer t (.viewCategoryJson id)).Is k name
  missing : ∀ k, some k ∉ (read p user offer t .listCategories).pairs.map Prod.fst →
    ∀ id, pathParam p id = .ok (some k) →
      (read p user offer t (.viewCategory id)).status = 404 ∧
      (read p user offer t (.viewCategoryJson id)).status = 404

theorem authentic_admin (p : Platform) (user : JString) (call : Call) :
    Request.Authentic p ⟨some ⟨user, p.configuration.adminPassword⟩, call⟩ := rfl

/-- The rows as pairs. -/
def rowPairs (t : Table) : List (Option Integer × Option JString) :=
  t.entries.map fun e => (some e.1, some e.2.val)

theorem mem_rowPairs {k : Integer} {name : JString} :
    (some k, some name) ∈ rowPairs t ↔ ∃ n, t.lookup k = some n ∧ n.val = name := by
  simp only [rowPairs, List.mem_map, Prod.mk.injEq, Option.some.injEq]
  constructor
  · rintro ⟨e, hmem, hk, hn⟩
    exact ⟨e.2, hk ▸ mem_entries_iff.mp hmem, hn⟩
  · rintro ⟨n, hl, hn⟩
    exact ⟨⟨k, n⟩, mem_entries_iff.mpr hl, rfl, hn⟩

theorem rowPairs_fst (t : Table) : (rowPairs t).map Prod.fst = t.keys.map some := by
  simp [rowPairs, AList.keys, List.keys]

theorem mem_rowPairs_fst {k : Integer} : some k ∈ (rowPairs t).map Prod.fst ↔ k ∈ t := by
  rw [rowPairs_fst, List.mem_map_of_injective (Option.some_injective _), AList.mem_keys]

theorem rowPairs_nodup (t : Table) : ((rowPairs t).map Prod.fst).Nodup := by
  rw [rowPairs_fst]
  exact t.keys_nodup.map (Option.some_injective _)

theorem read_list : (read p user offer t .listCategories).status = 200 ∧
    (read p user offer t .listCategories).pairs = rowPairs t := by
  rw [read, serve_listCategories t _ (authentic_admin p user _), if_pos (passes_calm offer _)]
  refine ⟨rfl, ?_⟩
  simp [Response.pairs, Response.ok, Response.ofStatus, entities, rowPairs, loadedEntity]

theorem read_listJson : (read p user offer t .listCategoriesJson).status = 200 ∧
    (read p user offer t .listCategoriesJson).pairs = rowPairs t := by
  rw [read, serve_listCategoriesJson t _ (authentic_admin p user _),
    if_pos (passes_calm offer _)]
  refine ⟨rfl, ?_⟩
  simp [Response.pairs, Response.withLinks, Response.ok, Response.ofStatus, entities, rowPairs,
    loadedEntity, CategoryList.ofCategories, CategoryDTO.ofCategory]

section View
variable {id : PathSegment} {k : Integer} (hi : pathParam p id = .ok (some k))
include hi

theorem read_view_found {n : NameColumn} (hl : t.lookup k = some n) :
    (read p user offer t (.viewCategory id)).Is k n.val := by
  rw [read, serve_viewCategory t _ (authentic_admin p user _) hi]
  simp only [calm_fails, passes_calm, Bool.false_eq_true, if_false, if_true, hl]
  exact ⟨rfl, rfl⟩

theorem read_view_missing (hl : k ∉ t) :
    (read p user offer t (.viewCategory id)).status = 404 := by
  rw [read, serve_viewCategory t _ (authentic_admin p user _) hi]
  simp only [calm_fails, Bool.false_eq_true, if_false, AList.lookup_eq_none.mpr hl]
  rfl

theorem read_viewJson_found {n : NameColumn} (hl : t.lookup k = some n) :
    (read p user offer t (.viewCategoryJson id)).Is k n.val := by
  rw [read, serve_viewCategoryJson t _ (authentic_admin p user _) hi]
  simp only [calm_fails, passes_calm, Bool.false_eq_true, if_false, if_true, hl]
  exact ⟨rfl, rfl⟩

theorem read_viewJson_missing (hl : k ∉ t) :
    (read p user offer t (.viewCategoryJson id)).status = 404 := by
  rw [read, serve_viewCategoryJson t _ (authentic_admin p user _) hi]
  simp only [calm_fails, passes_calm, Bool.false_eq_true, if_false, if_true,
    AList.lookup_eq_none.mpr hl]
  rfl

end View

section Success
variable {credentials : Option BasicCredentials} {env : Env} {id : PathSegment} {k : Integer}

theorem not_success_notFound : ¬ (Response.ofStatus 404 .empty).Success := by decide

theorem listCategories_success
    (hs : (serve p t ⟨⟨credentials, .listCategories⟩, env⟩).1.Success) :
    serve p t ⟨⟨credentials, .listCategories⟩, env⟩ = (.ok (.listView ⟨entities t⟩), t) := by
  have ha := authentic_of_success hs
  rw [serve_listCategories t env ha] at hs ⊢
  split at hs
  · rename_i hp
    exact if_pos hp
  · exact absurd hs (not_success_of_status status_serverError)

theorem listCategoriesJson_success
    (hs : (serve p t ⟨⟨credentials, .listCategoriesJson⟩, env⟩).1.Success) :
    serve p t ⟨⟨credentials, .listCategoriesJson⟩, env⟩ =
      ((Response.ok (.list (.ofCategories (entities t)))).withLinks
        [.each "categories" .CATEGORY "self" "id", .link .ADD_CATEGORY "create",
          .selfLink .CATEGORIES []], t) := by
  have ha := authentic_of_success hs
  rw [serve_listCategoriesJson t env ha] at hs ⊢
  split at hs
  · rename_i hp
    exact if_pos hp
  · exact absurd hs (not_success_of_status status_serverError)

theorem viewCategory_success (hi : pathParam p id = .ok (some k))
    (hs : (serve p t ⟨⟨credentials, .viewCategory id⟩, env⟩).1.Success) :
    ∃ n : NameColumn, t.lookup k = some n ∧
      serve p t ⟨⟨credentials, .viewCategory id⟩, env⟩ =
        (.ok (.view ⟨⟨some k, some n.val⟩⟩), t) := by
  have ha := authentic_of_success hs
  rw [serve_viewCategory t env ha hi] at hs ⊢
  split at hs
  · exact absurd hs (not_success_of_status status_serverError)
  · rename_i hf
    rw [if_neg hf]
    cases hl : t.lookup k with
    | none =>
      rw [hl] at hs
      exact absurd hs not_success_notFound
    | some n =>
      rw [hl] at hs
      simp only at hs ⊢
      split at hs
      · rename_i hp
        exact ⟨n, rfl, if_pos hp⟩
      · exact absurd hs (not_success_of_status status_serverError)

theorem viewCategoryJson_success (hi : pathParam p id = .ok (some k))
    (hs : (serve p t ⟨⟨credentials, .viewCategoryJson id⟩, env⟩).1.Success) :
    ∃ n : NameColumn, t.lookup k = some n ∧
      serve p t ⟨⟨credentials, .viewCategoryJson id⟩, env⟩ =
        ((Response.ok (.dto ⟨some k, some n.val⟩)).withLinks
          [.selfLink .CATEGORY [some k]], t) := by
  have ha := authentic_of_success hs
  rw [serve_viewCategoryJson t env ha hi] at hs ⊢
  split at hs
  · exact absurd hs (not_success_of_status status_serverError)
  · rename_i hf
    rw [if_neg hf]
    cases hl : t.lookup k with
    | none =>
      rw [hl] at hs
      simp only at hs
      split at hs
      · exact absurd hs not_success_notFound
      · exact absurd hs (not_success_of_status status_serverError)
    | some n =>
      rw [hl] at hs
      simp only at hs ⊢
      split at hs
      · rename_i hp
        exact ⟨n, rfl, if_pos hp⟩
      · exact absurd hs (not_success_of_status status_serverError)

end Success

theorem readersAgree (p : Platform) (user : JString) (offer : Integer) (t : Table) :
    ReadersAgree p user offer t where
  addressable k := ⟨idPath k, pathParam_idPath k⟩
  lists := by rw [read_list.2, read_listJson.2]
  total := by
    rw [read_list.2]
    intro e he
    obtain ⟨row, -, rfl⟩ := List.mem_map.mp he
    exact ⟨_, _, rfl⟩
  nodup := by
    rw [read_list.2]
    exact rowPairs_nodup t
  listed := by
    intro k name hmem id hi
    rw [read_list.2, mem_rowPairs] at hmem
    obtain ⟨n, hl, rfl⟩ := hmem
    exact ⟨read_view_found hi hl, read_viewJson_found hi hl⟩
  missing := by
    intro k hk id hi
    rw [read_list.2, mem_rowPairs_fst] at hk
    exact ⟨read_view_missing hi hk, read_viewJson_missing hi hk⟩

/-- Each reader shows the row of an id, and nothing for an id without a row. -/
theorem shows_iff {k : Integer} {call : Call} (hc : Reads p k call) (name : JString) :
    (read p user offer t call).Shows k name ↔ ∃ n, t.lookup k = some n ∧ n.val = name := by
  obtain rfl | rfl | ⟨id, hi, hview⟩ := hc
  · rw [Response.Shows, read_list.1, read_list.2, mem_rowPairs]
    exact and_iff_right rfl
  · rw [Response.Shows, read_listJson.1, read_listJson.2, mem_rowPairs]
    exact and_iff_right rfl
  · cases hl : t.lookup k with
    | some n =>
      have hshow : ∀ resp : Response, resp.Is k n.val →
          (resp.Shows k name ↔ ∃ m, some n = some m ∧ m.val = name) := by
        rintro resp ⟨hs, hp⟩
        simp [Response.Shows, hs, hp, eq_comm]
      obtain rfl | rfl := hview
      · exact hshow _ (read_view_found hi hl)
      · exact hshow _ (read_viewJson_found hi hl)
    | none =>
      have hk : k ∉ t := AList.lookup_eq_none.mp hl
      have hshow : ∀ resp : Response, resp.status = 404 →
          (resp.Shows k name ↔ ∃ m : NameColumn, none = some m ∧ m.val = name) := by
        intro resp hs
        simp [Response.Shows, hs]
      obtain rfl | rfl := hview
      · exact hshow _ (read_view_missing hi hk)
      · exact hshow _ (read_viewJson_missing hi hk)

theorem shownByAll_iff {k : Integer} {name : JString} :
    ShownByAll p user offer t k name ↔ ∃ n, t.lookup k = some n ∧ n.val = name := by
  constructor
  · intro h
    exact (shows_iff (.inl rfl) name).mp (h .listCategories (.inl rfl))
  · intro h call hc
    exact (shows_iff hc name).mpr h

/-- The id a create handler reports. -/
def Response.reportedId (r : Response) : Option Integer :=
  match r.entity, r.location with
  | .view view, _ => view.category.id
  | _, some (.linkable _ [id]) => id
  | _, _ => none

def Call.CreatesJson (call : Call) : Prop :=
  ∃ category, call = .createCategory category ∨ call = .createCategoryJson category

theorem created_reported {e : Event} (hc : e.request.call.CreatesJson)
    (hs : (serve p t e).1.Success) :
    ∃ k c, ∃ n : NameColumn, (serve p t e).1.reportedId = some k ∧
      e.request.submitted p = some c ∧ c.name = some n.val ∧
      (serve p t e).2.lookup k = some n := by
  have ha : e.request.Authentic p := by
    by_contra ha
    rw [serve_unauthorized ha] at hs
    exact not_success_unauthorized hs
  obtain ⟨⟨credentials, call⟩, env⟩ := e
  have hcreates : call.Creates p := by
    obtain ⟨body, rfl | rfl⟩ := hc <;> trivial
  cases hsub : Request.submitted p ⟨credentials, call⟩ with
  | none => exact absurd hs (not_success_of_submitted_none ha hcreates hsub)
  | some c =>
    obtain ⟨n, -, hn, hl, he⟩ | ⟨-, hfail⟩ := serve_lands ha hsub t env
    · refine ⟨c.id.getD env.offer, c, n, ?_, rfl, hn, ?_⟩
      · rw [he]
        obtain ⟨body, rfl | rfl⟩ := hc <;> rfl
      · rw [he, lookup_changeOf hl, if_pos rfl]
    · exact absurd hs hfail

/-- Rows are never removed. -/
theorem mem_serve (p : Platform) (t : Table) (e : Event) {k : Integer} (hk : k ∈ t) :
    k ∈ (serve p t e).2 := by
  have hsome : (t.lookup k).isSome := AList.lookup_isSome.mpr hk
  have h := isSome_apply (r := t.lookup) (e.change p t) hsome
  rw [← lookup_serve] at h
  exact AList.lookup_isSome.mp h

theorem mem_final (p : Platform) (t : Table) (es : List Event) {k : Integer} (hk : k ∈ t) :
    k ∈ final (serve p) t es :=
  final_rel (serve p) (R := fun t t' => k ∈ t → k ∈ t') (fun _ h => h)
    (fun _ _ _ h h' hk => h' (h hk)) (fun t e hk => mem_serve p t e hk) t es hk

/-- The readers agree in every table a run reaches; what a JSON create reports they
all show next, under the submitted name; and what they show they never lose. -/
theorem readers_agree (p : Platform) (user : JString) (offer : Integer) :
    (∀ es, ReadersAgree p user offer (final (serve p) ∅ es)) ∧
    (∀ es e, e.request.call.CreatesJson → (serve p (final (serve p) ∅ es) e).1.Success →
      ∃ k c name, (serve p (final (serve p) ∅ es) e).1.reportedId = some k ∧
        e.request.submitted p = some c ∧ c.name = some name ∧
        ShownByAll p user offer (final (serve p) ∅ (es ++ [e])) k name) ∧
    (∀ es es' k call name, Reads p k call →
      (read p user offer (final (serve p) ∅ es) call).Shows k name →
      ∃ name', ShownByAll p user offer (final (serve p) ∅ (es ++ es')) k name') := by
  refine ⟨fun es => readersAgree p user offer _, ?_, ?_⟩
  · intro es e hc hs
    obtain ⟨k, c, n, hk, hsub, hn, hl⟩ := created_reported hc hs
    refine ⟨k, c, n.val, hk, hsub, hn, ?_⟩
    rw [final_append]
    exact shownByAll_iff.mpr ⟨n, hl, rfl⟩
  · intro es es' k call name hc hshow
    obtain ⟨n, hl, -⟩ := (shows_iff hc name).mp hshow
    have hk := mem_final p _ es' (mem_of_lookup hl)
    obtain ⟨n', hl'⟩ := exists_lookup hk
    rw [final_append]
    exact ⟨n'.val, shownByAll_iff.mpr ⟨n', hl', rfl⟩⟩

theorem readers_agree_first :
    ∃ name, ShownByAll configured [] 9 (final (serve configured) ∅
      ([⟨asAdmin (.save none (some ['a'])), .calm 1⟩] ++
        [⟨asAdmin (.save (some ['1']) (some ['b'])), .calm 2⟩])) 1 name :=
  (readers_agree configured [] 9).2.2 _ _ 1 .listCategories ['a'] (.inl rfl)
    ⟨by decide, by decide⟩

end CategoryService
