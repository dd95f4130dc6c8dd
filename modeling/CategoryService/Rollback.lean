import CategoryService.Changes

/-! Error responses against the committed table, whichever steps of the request throw. -/
namespace CategoryService
open KeyedStore Register
variable {p : Platform} {t : Table} {r : Request} {env : Env}

/-- An error response comes with the table as it was. -/
def RolledBack (t : Table) (outcome : Response × Table) : Prop :=
  ¬ outcome.1.Success → outcome.2 = t

/-- The catch-all of `createCategoryJson` reports a step that threw after the save; it
returns normally, and the save is committed. -/
def CommitsError (p : Platform) (t : Table) (r : Request) (env : Env) : Prop :=
  r.Authentic p ∧ ∃ category dto, ∃ n : NameColumn, r.call = .createCategoryJson category ∧
    validEntity p category = .ok (some dto) ∧ dto.name = some n.val ∧
    Lands t env.offer dto.id ∧ t.lookup (dto.id.getD env.offer) ≠ some n ∧
    env.passes [.toCategory, .persist, .flush] ∧ ¬ env.passes afterCreate ∧
    env.fails .errorResponse = false

theorem changeOf_applyRows_eq {offer : Integer} {n : NameColumn} {id : Option Integer}
    (hl : Lands t offer id) :
    (changeOf offer n id).applyRows t = t ↔ t.lookup (id.getD offer) = some n := by
  constructor
  · intro h
    have hk := lookup_changeOf (n := n) hl (id.getD offer)
    rw [h, if_pos rfl] at hk
    exact hk
  · intro h
    cases id with
    | none => exact absurd (mem_of_lookup h) hl
    | some i => exact replace_eq_self h

/-- The reply of the catch-all after a save that has gone through. -/
theorem serve_commitsError (h : CommitsError p t r env) :
    ¬ (serve p t ⟨r, env⟩).1.Success ∧ (serve p t ⟨r, env⟩).2 ≠ t := by
  obtain ⟨ha, body, dto, n, hcall, hv, hn, hl, hne, hp, hafter, herr⟩ := h
  obtain ⟨credentials, call⟩ := r
  simp only at hcall
  subst hcall
  have hs : Request.submitted p ⟨credentials, .createCategoryJson body⟩ =
      some ⟨dto.id, dto.name⟩ := submitted_createCategoryJson hv
  constructor
  · obtain ⟨-, hall, -⟩ | ⟨-, hfail⟩ := serve_lands ha hs t env
    · simp only [Call.steps, passes_cons] at hall
      exact absurd hall.2.2.2 hafter
    · exact hfail
  · have hst : stored t env.offer ⟨dto.id, dto.name⟩ = some (changeOf env.offer n dto.id) :=
      stored_eq_some.mpr ⟨n, hn, hl, rfl⟩
    have hcommits : env.Commits ⟨dto.id, dto.name⟩ (.createCategoryJson body) :=
      ⟨hp, .inr herr⟩
    rw [serve_change, change_of_submitted hs ha, if_pos hcommits, hst]
    exact fun he => hne ((changeOf_applyRows_eq hl).mp he)

/-- An error response leaves the committed table alone, except where the catch-all of
`createCategoryJson` answers for a step after the save. -/
theorem rolledBack_iff (p : Platform) (t : Table) (r : Request) (env : Env) :
    RolledBack t (serve p t ⟨r, env⟩) ↔ ¬ CommitsError p t r env := by
  constructor
  · intro h hc
    obtain ⟨hfail, hne⟩ := serve_commitsError hc
    exact hne (h hfail)
  · intro h hfail
    by_contra hne
    obtain ⟨c, n, ha, hs, hn, hl, hc, he⟩ := serve_changed hne
    rw [he, changeOf_applyRows_eq hl] at hne
    obtain ⟨_, _, _, _, hok⟩ | ⟨hno, _⟩ := serve_lands ha hs t env
    · rw [hok] at hfail
      exact hfail (reply_success r.call _)
    · have hsteps : ¬ env.passes (r.call.steps c) := fun hp => hno ⟨hp, ⟨n, hn⟩, hl⟩
      obtain ⟨credentials, call⟩ := r
      cases call with
      | createCategoryJson body =>
        obtain ⟨dto, hv, rfl⟩ := Option.map_eq_some_iff.mp hs
        rw [toOption_join_eq_some] at hv
        have hafter : ¬ env.passes afterCreate := by
          intro hafter
          have hp := hc.1
          simp only [passes_cons, passes_nil, and_true] at hp
          exact hsteps (by simp [Call.steps, hp, hafter])
        exact h ⟨ha, body, dto, n, rfl, hv, hn, hl, hne, hc.1, hafter,
          hc.2.resolve_left hafter⟩
      | createCategory body => exact hsteps hc
      | save id name => exact hsteps hc
      | saveJson id body => exact hsteps hc
      | listCategories | listCategoriesJson | newCategory => cases hs
      | viewCategory id | viewCategoryJson id => cases hs

/-- A link that cannot be built after the insert of a first category. -/
theorem rolledBack_fails :
    ¬ ∀ t, Reachable configured t → ∀ (r : Request) (env : Env),
      RolledBack t (serve configured t ⟨r, env⟩) := by
  intro h
  have hpost := h ∅ (EventMachine.Reachable.refl _ _)
    (asAdmin (.createCategoryJson (.parsed (some ⟨none, some ['a']⟩)))) ⟨1, (· = .links)⟩
    (by decide)
  have hnone : (∅ : Table).lookup 1 = none := rfl
  rw [← hpost] at hnone
  exact absurd hnone (by decide)

end CategoryService
