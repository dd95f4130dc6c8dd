import CategoryService.Changes

/-! The three create entry points: a new row, or an old one overwritten. -/
namespace CategoryService
open KeyedStore Register
variable {p : Platform} {t : Table} {r : Request} {env : Env}

/-- The two JSON creators, and the form without an id. -/
def Call.Creates (p : Platform) : Call → Prop
  | .createCategory _ | .createCategoryJson _ => True
  | .save id _ => formParam p id = .ok none
  | _ => False

/-- One row more than `t`, under an id `t` does not use and of the given name. -/
def AddsOneRow (t t' : Table) (name : Option JString) : Prop :=
  ∃ k, ∃ n : NameColumn, k ∉ t ∧ name = some n.val ∧ t'.lookup k = some n ∧
    ∀ j ≠ k, t'.lookup j = t.lookup j

/-- A success is one new row under the submitted name, and no row there was gets another
name, whatever the response. -/
structure CreatesOnly (p : Platform) (t : Table) (r : Request) (outcome : Response × Table) :
    Prop where
  adds : outcome.1.Success → ∃ c, r.submitted p = some c ∧ AddsOneRow t outcome.2 c.name
  keeps : ∀ j ∈ t, outcome.2.lookup j = t.lookup j

/-- The request submits the id of a row there is, with a name the column takes. -/
structure SubmitsRow (p : Platform) (t : Table) (r : Request) (c : Category) (j : Integer)
    (n : NameColumn) : Prop where
  authentic : r.Authentic p
  submitted : r.submitted p = some c
  id : c.id = some j
  row : j ∈ t
  name : c.name = some n.val

/-- Such a request commits, and it is answered with success or the row had another name. -/
def Overwrites (p : Platform) (t : Table) (r : Request) (env : Env) : Prop :=
  ∃ c j n, SubmitsRow p t r c j n ∧ env.Commits c r.call ∧
    (env.passes (r.call.steps c) ∨ t.lookup j ≠ some n)

theorem not_success_unauthorized : ¬ unauthorized.Success := by decide

theorem authentic_of_success {e : Event} (hs : (serve p t e).1.Success) :
    e.request.Authentic p := by
  by_contra ha
  rw [serve_unauthorized ha] at hs
  exact not_success_unauthorized hs

/-- A create request that submits nothing fails. -/
theorem not_success_of_submitted_none (ha : r.Authentic p) (hc : r.call.Creates p)
    (hs : r.submitted p = none) : ¬ (serve p t ⟨r, env⟩).1.Success := by
  cases hr : r.refusal p with
  | some resp =>
    rw [serve_refusal hr]
    exact ClientError.not_success (refusal_clientError p hr)
  | none =>
    obtain ⟨credentials, call⟩ := r
    have hcall := accepted_of_refusal ha hr
    cases hcall with
    | @createCategory body dto hv =>
      cases dto with
      | none =>
        rw [serve_createCategory_null t env ha hv]
        exact not_success_of_status rfl
      | some dto => simp [submitted_createCategory hv] at hs
    | @createCategoryJson body dto hv =>
      cases dto with
      | none =>
        obtain ⟨resp, h500, he⟩ := serve_createCategoryJson_throws t env ha hv rfl
        rw [he]
        exact not_success_of_status h500
      | some dto => simp [submitted_createCategoryJson hv] at hs
    | save hi => simp [submitted_save hi] at hs
    | listCategories | listCategoriesJson | newCategory => exact hc.elim
    | viewCategory hi | viewCategoryJson hi => exact hc.elim
    | saveJson hi => exact hc.elim

theorem addsOneRow_changeOf {offer : Integer} {n : NameColumn} {cid : Option Integer}
    (hl : Lands t offer cid) :
    AddsOneRow t ((changeOf offer n cid).applyRows t) (some n.val) ↔ cid = none := by
  constructor
  · rintro ⟨k, m, hk, _, hlk, _⟩
    cases cid with
    | none => rfl
    | some j =>
      have ht : j ∈ t := hl
      rw [lookup_changeOf hl] at hlk
      by_cases hkj : k = j
      · exact absurd ht (hkj ▸ hk)
      · rw [Option.getD_some, if_neg hkj] at hlk
        exact absurd (mem_of_lookup hlk) hk
  · intro hid
    subst hid
    have ho : offer ∉ t := hl
    refine ⟨offer, n, ho, rfl, ?_, ?_⟩
    · simp [lookup_changeOf hl]
    · intro j hj
      simp [lookup_changeOf hl, hj]

theorem SubmitsRow.lands {c : Category} {j : Integer} {n : NameColumn}
    (h : SubmitsRow p t r c j n) (offer : Integer) : Lands t offer c.id := by
  rw [h.id]
  exact h.row

/-- What lands is new or goes to a row there is. -/
theorem submitsRow_of_lands {c : Category} {n : NameColumn} {offer : Integer}
    (ha : r.Authentic p) (hs : r.submitted p = some c) (hn : c.name = some n.val)
    (hl : Lands t offer c.id) : c.id = none ∨ ∃ j, SubmitsRow p t r c j n := by
  cases hid : c.id with
  | none => exact .inl rfl
  | some j =>
    rw [hid] at hl
    exact .inr ⟨j, ha, hs, hid, hl, hn⟩

/-- A create request succeeds without a new row exactly where it submits an old one and
no step throws. -/
theorem create_adds_iff (hc : r.call.Creates p) :
    ((serve p t ⟨r, env⟩).1.Success →
        ∃ c, r.submitted p = some c ∧ AddsOneRow t (serve p t ⟨r, env⟩).2 c.name) ↔
      ¬ ∃ c j n, SubmitsRow p t r c j n ∧ env.passes (r.call.steps c) := by
  constructor
  · rintro h ⟨c, j, n, hsub, hp⟩
    obtain ⟨m, -, hm, hl, he⟩ | ⟨hno, -⟩ := serve_lands hsub.authentic hsub.submitted t env
    · rw [he] at h
      obtain ⟨c', hc', hadd⟩ := h (reply_success r.call _)
      obtain rfl : c = c' := Option.some.inj (hsub.submitted.symm.trans hc')
      have hid := (addsOneRow_changeOf hl).mp (hm ▸ hadd)
      rw [hsub.id] at hid
      cases hid
    · exact hno ⟨hp, ⟨n, hsub.name⟩, hsub.lands env.offer⟩
  · intro h hsuccess
    have ha : r.Authentic p := authentic_of_success hsuccess
    cases hs : r.submitted p with
    | none => exact absurd hsuccess (not_success_of_submitted_none ha hc hs)
    | some c =>
      obtain ⟨n, hp, hn, hl, he⟩ | ⟨-, hfail⟩ := serve_lands ha hs t env
      · obtain hid | ⟨j, hsub⟩ := submitsRow_of_lands ha hs hn hl
        · refine ⟨c, rfl, ?_⟩
          rw [he, hn]
          exact (addsOneRow_changeOf hl).mpr hid
        · exact absurd ⟨c, j, n, hsub, hp⟩ h
      · exact absurd hsuccess hfail

/-- A write to a row there is submits its id. -/
theorem writes_row_iff {j : Integer} {n : NameColumn} (hj : j ∈ t) :
    Event.Writes p t ⟨r, env⟩ j n ↔ ∃ c, SubmitsRow p t r c j n ∧ env.Commits c r.call := by
  constructor
  · rintro ⟨ha, c, hs, hn, hid, hl, hc⟩
    refine ⟨c, ⟨ha, hs, ?_, hj, hn⟩, hc⟩
    cases hcid : c.id with
    | none =>
      rw [hcid] at hid hl
      have hoffer : env.offer = j := hid
      exact absurd (hoffer ▸ hj) hl
    | some i =>
      rw [hcid] at hid
      exact congrArg some hid
  · rintro ⟨c, hsub, hc⟩
    have hid : c.id.getD env.offer = j := by rw [hsub.id]; rfl
    exact ⟨hsub.authentic, c, hsub.submitted, hsub.name, hid, hsub.lands env.offer, hc⟩

/-- The rows there are keep their names exactly where no other name is written to one. -/
theorem serve_keeps_iff :
    (∀ j ∈ t, (serve p t ⟨r, env⟩).2.lookup j = t.lookup j) ↔
      ¬ ∃ c j n, SubmitsRow p t r c j n ∧ env.Commits c r.call ∧ t.lookup j ≠ some n := by
  have hlookup := lookup_serve p t ⟨r, env⟩
  constructor
  · rintro h ⟨c, j, n, hsub, hc, hne⟩
    have hj : j ∈ t := hsub.row
    have hw := change_written.mpr ((writes_row_iff hj).mpr ⟨c, hsub, hc⟩)
    have hnew := congrFun hlookup j
    simp only [Change.apply, hw, Function.update_self] at hnew
    exact hne ((h j hj).symm.trans hnew)
  · intro h j hj
    rw [congrFun hlookup j]
    by_cases hw : ∃ n, (Event.change p t ⟨r, env⟩).written = some (j, n)
    · obtain ⟨n, hw⟩ := hw
      obtain ⟨c, hsub, hc⟩ := (writes_row_iff hj).mp (change_written.mp hw)
      have hsame : t.lookup j = some n := by
        by_contra hne
        exact h ⟨c, j, n, hsub, hc, hne⟩
      simp only [Change.apply, hw, Function.update_self, hsame]
    · exact apply_of_ne fun n hn => hw ⟨n, hn⟩

/-- A create request only creates, except where it submits the id of an existing row and
commits. -/
theorem create_createsOnly_iff (hc : r.call.Creates p) :
    CreatesOnly p t r (serve p t ⟨r, env⟩) ↔ ¬ Overwrites p t r env := by
  constructor
  · rintro h ⟨c, j, n, hsub, hcommits, hp | hne⟩
    · exact (create_adds_iff hc).mp h.adds ⟨c, j, n, hsub, hp⟩
    · exact serve_keeps_iff.mp h.keeps ⟨c, j, n, hsub, hcommits, hne⟩
  · intro h
    refine ⟨(create_adds_iff hc).mpr ?_, serve_keeps_iff.mpr ?_⟩
    · rintro ⟨c, j, n, hsub, hp⟩
      exact h ⟨c, j, n, hsub, commits_of_passes hp, .inl hp⟩
    · rintro ⟨c, j, n, hsub, hcommits, hne⟩
      exact h ⟨c, j, n, hsub, hcommits, .inr hne⟩

/-- A JSON post that carries the id 1. -/
def postOne (c : Char) : Request :=
  asAdmin (.createCategoryJson (.parsed (some ⟨some 1, some [c]⟩)))

/-- Its links cannot be built: the answer is an error, and row 1 has the posted name. -/
theorem create_createsOnly_error :
    (serve configured ((∅ : Table).insert 1 ⟨['a'], by decide⟩)
      ⟨postOne 'b', ⟨2, fun st => st = .links⟩⟩).1.status = 500 ∧
    ¬ CreatesOnly configured ((∅ : Table).insert 1 ⟨['a'], by decide⟩) (postOne 'b')
      (serve configured ((∅ : Table).insert 1 ⟨['a'], by decide⟩)
        ⟨postOne 'b', ⟨2, fun st => st = .links⟩⟩) := by
  have hcreates : (postOne 'b').call.Creates configured := trivial
  refine ⟨by decide, fun h => (create_createsOnly_iff hcreates).mp h ?_⟩
  refine ⟨⟨some 1, some ['b']⟩, 1, ⟨['b'], by decide⟩, ?_, by decide, .inr (by decide)⟩
  exact ⟨by decide, by decide, rfl, by decide, rfl⟩

/-- A POST whose body carries the id of row 1 answers 201 and renames that row. -/
theorem create_createsOnly_fails :
    ¬ ∀ t, Reachable configured t → ∀ r : Request, r.call.Creates configured →
      CreatesOnly configured t r (serve configured t ⟨r, .calm 2⟩) := by
  intro h
  have hr : Reachable configured (EventMachine.final (serve configured) ∅
      [⟨asAdmin (.save none (some ['a'])), .calm 1⟩]) := ⟨_, rfl⟩
  have hpost := h _ hr (postOne 'b') trivial
  obtain ⟨c, hc, k, n, hk, hn, hlk, hframe⟩ := hpost.adds (by decide)
  have hne : (1 : Integer) ≠ k := by
    intro he
    rw [← he] at hk
    exact absurd hk (by decide)
  exact absurd (hframe 1 hne) (by decide)

end CategoryService
