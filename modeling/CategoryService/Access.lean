import CategoryService.Handlers

/-! What a request without the configured password can learn or change, and what a
user name is good for: nothing. -/
namespace CategoryService
open EventMachine
variable {p : Platform}

theorem auth_congr {credentials credentials' : Option BasicCredentials}
    (h : credentials.map BasicCredentials.password =
      credentials'.map BasicCredentials.password) : auth p credentials = auth p credentials' := by
  cases credentials with
  | none =>
    cases credentials' with
    | none => rfl
    | some c' => simp at h
  | some c =>
    cases credentials' with
    | none => simp at h
    | some c' =>
      have hp : c.password = c'.password := by simpa using h
      simp only [auth, authenticate, hp]

/-- The same request, except perhaps for the user name. -/
def SameButUser (e e' : Event) : Prop :=
  e.request.credentials.map BasicCredentials.password =
      e'.request.credentials.map BasicCredentials.password ∧
    e.request.call = e'.request.call ∧ e.env = e'.env

theorem serve_sameButUser {e e' : Event} (h : SameButUser e e') (t : Table) :
    serve p t e = serve p t e' := by
  obtain ⟨⟨credentials, call⟩, env⟩ := e
  obtain ⟨⟨credentials', call'⟩, env'⟩ := e'
  obtain ⟨hpassword, hcall, henv⟩ := h
  have hauth : auth p credentials = auth p credentials' := auth_congr hpassword
  simp only at hcall henv
  subst hcall henv
  simp only [serve, program, dispatch, hauth]

def authentic (p : Platform) (e : Event) : Bool := decide (e.request.Authentic p)

theorem serve_not_authentic {e : Event} (h : authentic p e = false) (t : Table) :
    serve p t e = (unauthorized, t) :=
  serve_unauthorized (of_decide_eq_false h)

/-- Requests without the password can be deleted from a run; their own response tells
them nothing; and no response or table depends on a user name. -/
theorem unauthorized_noninterference (p : Platform) :
    (∀ (t : Table) (es : List Event),
      final (serve p) t (es.filter (authentic p)) = final (serve p) t es ∧
      answers (serve p) t (es.filter (authentic p)) =
        (answers (serve p) t es).filter fun a => authentic p a.1) ∧
    (∀ (t t' : Table) (e e' : Event), ¬ e.request.Authentic p → ¬ e'.request.Authentic p →
      (serve p t e).1 = (serve p t' e').1 ∧ (serve p t e).2 = t) ∧
    (∀ (t : Table) (es es' : List Event), List.Forall₂ SameButUser es es' →
      final (serve p) t es = final (serve p) t es' ∧
      (answers (serve p) t es).map Prod.snd = (answers (serve p) t es').map Prod.snd) := by
  have hskip : ∀ t e, authentic p e = false → (serve p t e).2 = t := by
    intro t e h
    rw [serve_not_authentic h]
  have hsame : ∀ t e e', SameButUser e e' →
      (serve p t e).1 = (serve p t e').1 ∧ (serve p t e).2 = (serve p t e').2 := by
    intro t e e' h
    rw [serve_sameButUser h t]
    exact ⟨rfl, rfl⟩
  refine ⟨?_, ?_, ?_⟩
  · intro t es
    exact ⟨final_filter (serve p) (authentic p) hskip t es,
      answers_filter (serve p) (authentic p) hskip t es⟩
  · intro t t' e e' he he'
    rw [serve_unauthorized he, serve_unauthorized he']
    exact ⟨rfl, rfl⟩
  · intro t es es' h
    obtain ⟨hfinal, hanswers⟩ := final_exchange (serve p) hsame h t
    rw [List.forall₂_eq_eq_eq] at hanswers
    exact ⟨hfinal, hanswers⟩

/-- The call with a password that is not the configured one. -/
def asGuest (call : Call) : Request := ⟨some ⟨"admin".toList, "guess".toList⟩, call⟩

/-- A row is made; guests list the rows, overwrite this one, and post an empty name. -/
def guestRun : List Event :=
  [⟨asAdmin (.save none (some ['a'])), .calm 1⟩,
    ⟨asGuest .listCategories, .calm 2⟩,
    ⟨asGuest (.save (some ['1']) (some ['b'])), .calm 2⟩,
    ⟨⟨none, .save none (some [])⟩, .calm 2⟩]

/-- Without its guests the run leaves the same table, and a guest learns neither whether
row 1 is there nor whether a body can be read. -/
theorem unauthorized_noninterference_guests :
    (guestRun.filter (authentic configured)).length = 1 ∧
    final (serve configured) ∅ (guestRun.filter (authentic configured)) =
      final (serve configured) ∅ guestRun ∧
    (serve configured ((∅ : Table).insert 1 ⟨['a'], by decide⟩)
        ⟨asGuest (.viewCategory ⟨['1'], List.cons_ne_nil _ _⟩), .calm 2⟩).1 =
      (serve configured ((∅ : Table).insert 2 ⟨['b'], by decide⟩)
        ⟨asGuest (.createCategoryJson .unreadable), .calm 3⟩).1 := by
  obtain ⟨hrun, hguest, -⟩ := unauthorized_noninterference configured
  exact ⟨by decide, (hrun ∅ guestRun).1, (hguest _ _ _ _ (by decide) (by decide)).1⟩

end CategoryService
