import CategoryService.Changes

/-! `PUT /categories/{id}`: the row the path names against the row that is written. -/
namespace CategoryService
open KeyedStore Register
variable {p : Platform} {t : Table} {id : PathSegment} {body : JsonBody} {env : Env}

/-- The outcome of an update acts on the category the path names and on nothing else. -/
def UpdatesPath (p : Platform) (t : Table) (id : PathSegment) (body : JsonBody)
    (outcome : Response × Table) : Prop :=
  (∀ i, pathParam p id = .ok (some i) → i ∈ t → outcome.1.Success →
    ∃ dto n, body = .parsed (some dto) ∧ dto.name = some n.val ∧
      outcome.2.lookup i = some n ∧ ∀ j ≠ i, outcome.2.lookup j = t.lookup j) ∧
  ((∀ i, pathParam p id = .ok (some i) → i ∉ t) → ¬ outcome.1.Success ∧ outcome.2 = t)

/-- The body's id is not the path's, the write goes through, and it is not the case
that both rows have the body's name already. -/
def Misdirected (p : Platform) (t : Table) (id : PathSegment) (body : JsonBody) (env : Env) :
    Prop :=
  env.passes [.toCategory, .persist, .flush, .response] ∧
  ∃ i dto, ∃ n : NameColumn, pathParam p id = .ok (some i) ∧ body = .parsed (some dto) ∧
    dto.name = some n.val ∧ Lands t env.offer dto.id ∧ dto.id ≠ some i ∧
    ¬ (t.lookup i = some n ∧ ∃ j, dto.id = some j ∧ t.lookup j = some n)

theorem updatesPath_refused {resp : Response} (h : ¬ resp.Success) :
    UpdatesPath p t id body (resp, t) :=
  ⟨fun _ _ _ hs => absurd hs h, fun _ => ⟨h, rfl⟩⟩

/-- Where the body's id is the path's, its row is written; elsewhere another one is. -/
theorem updatesPath_written {i : Integer} {dto : CategoryDTO} {n : NameColumn}
    (hi : pathParam p id = .ok (some i)) (hn : dto.name = some n.val)
    (hl : Lands t env.offer dto.id) :
    UpdatesPath p t id (.parsed (some dto))
        (.ok .empty, (changeOf env.offer n dto.id).applyRows t) ↔
      dto.id = some i ∨
        (t.lookup i = some n ∧ ∃ j, dto.id = some j ∧ t.lookup j = some n) := by
  have hs : (Response.ok .empty).Success := by decide
  have hpath : ∀ j, pathParam p id = .ok (some j) → j = i := by
    intro j hj
    simpa [hi, eq_comm] using hj
  constructor
  · rintro ⟨hin, hout⟩
    by_cases ht : i ∈ t
    · obtain ⟨dto', m, hb, hm, hli, hframe⟩ := hin i hi ht hs
      have hd : dto = dto' := by simpa using hb
      have hmn : n = m := Subtype.ext (by simpa [← hd, hn] using hm)
      subst hmn
      simp only [lookup_changeOf hl] at hli hframe
      cases hid : dto.id with
      | none =>
        have ho : env.offer ∉ t := by simpa [hid, Lands] using hl
        have hne : env.offer ≠ i := fun he => ho (he ▸ ht)
        have hnew := hframe env.offer hne
        simp only [hid, Option.getD_none, if_true] at hnew
        exact absurd (mem_of_lookup hnew.symm) ho
      | some j =>
        by_cases hji : j = i
        · exact .inl (by rw [hji])
        · have hj := hframe j hji
          simp only [hid, Option.getD_some, if_true] at hj
          simp only [hid, Option.getD_some, Ne.symm hji, if_false] at hli
          exact .inr ⟨hli, j, rfl, hj.symm⟩
    · have hnone := hout fun j hj => hpath j hj ▸ ht
      exact absurd hs hnone.1
  · intro h
    have ht : i ∈ t := by
      obtain hid | ⟨hli, -⟩ := h
      · simpa [hid, Lands] using hl
      · exact mem_of_lookup hli
    refine ⟨?_, fun hno => absurd ht (hno i hi)⟩
    intro j hj _ _
    have hji := hpath j hj
    subst hji
    refine ⟨dto, n, rfl, hn, ?_⟩
    simp only [lookup_changeOf hl]
    obtain hid | ⟨hli, k, hid, hk⟩ := h
    · simp only [hid, Option.getD_some, if_true, true_and]
      intro k hk
      rw [if_neg hk]
    · simp only [hid, Option.getD_some, hli, ite_self, true_and]
      intro l _
      by_cases hlk : l = k
      · rw [if_pos hlk, hlk, hk]
      · rw [if_neg hlk]

/-- An update acts on the category its path names exactly where the write that goes
through is not misdirected: the path id is resolved and never used. -/
theorem saveJson_updatesPath_iff {credentials : Option BasicCredentials}
    (ha : Request.Authentic p ⟨credentials, .saveJson id body⟩) :
    UpdatesPath p t id body (serve p t ⟨⟨credentials, .saveJson id body⟩, env⟩) ↔
      ¬ Misdirected p t id body env := by
  cases hr : Request.refusal p ⟨credentials, .saveJson id body⟩ with
  | some resp =>
    rw [serve_refusal hr]
    have hno : ¬ Misdirected p t id body env := by
      rintro ⟨_, i, dto, n, hi, hbody, _⟩
      obtain ⟨ex, -, hcall⟩ := refused_of_refusal ha hr
      cases hcall with
      | saveJsonId hid => simp [hi] at hid
      | saveJsonBody hid hb => simp [hbody, jsonEntity] at hb
    exact iff_of_true (updatesPath_refused (ClientError.not_success (refusal_clientError p hr))) hno
  | none =>
    have hcall := accepted_of_refusal ha hr
    have h500 := not_success_of_status status_serverError
    cases hcall with
    | @saveJson _ i dto hi =>
      cases dto with
      | none =>
        rw [serve_saveJson_null t env ha hi rfl]
        refine iff_of_true (updatesPath_refused h500) ?_
        rintro ⟨_, _, _, _, _, hd, _⟩
        cases hd
      | some dto =>
        rw [serve_saveJson t env ha hi rfl]
        by_cases hp : env.passes [.toCategory, .persist, .flush, .response]
        · rw [if_pos hp]
          cases hst : stored t env.offer ⟨dto.id, dto.name⟩ with
          | none =>
            refine iff_of_true (updatesPath_refused h500) ?_
            rintro ⟨_, _, _, n, _, hd, hn, hl, _⟩
            cases hd
            rw [stored_eq_some.mpr ⟨n, hn, hl, rfl⟩] at hst
            cases hst
          | some ch =>
            obtain ⟨n, (hn : dto.name = some n.val), hl, rfl⟩ := stored_eq_some.mp hst
            refine (updatesPath_written hi hn hl).trans ?_
            constructor
            · rintro h ⟨_, i', dto', m, hi', hd, hm, _, hne, hnot⟩
              have hii : i = i' := by simpa [hi] using hi'
              have hdd : dto = dto' := by simpa using hd
              subst hii hdd
              have hmn : n = m := Subtype.ext (by simpa [hn] using hm)
              subst hmn
              exact h.elim hne hnot
            · intro h
              by_contra hcon
              rw [not_or] at hcon
              exact h ⟨hp, i, dto, n, hi, rfl, hn, hl, hcon.1, hcon.2⟩
        · rw [if_neg hp]
          exact iff_of_true (updatesPath_refused h500) fun h => hp h.1

/-- Row 1 is named a, row 2 is named b. -/
def twoRows : Table := ((∅ : Table).insert 1 ⟨['a'], by decide⟩).insert 2 ⟨['b'], by decide⟩

/-- The body of a PUT that carries an id. -/
def bodyWith (id : Integer) (c : Char) : JsonBody := .parsed (some ⟨some id, some [c]⟩)

/-- With rows 1 and 2, a PUT to row 1 acts on it where the body has its id, and not where
the body has the id of row 2. -/
theorem saveJson_updatesPath_two :
    UpdatesPath configured twoRows ⟨['1'], List.cons_ne_nil _ _⟩ (bodyWith 1 'c')
        (serve configured twoRows
          ⟨asAdmin (.saveJson ⟨['1'], List.cons_ne_nil _ _⟩ (bodyWith 1 'c')), .calm 3⟩) ∧
      ¬ UpdatesPath configured twoRows ⟨['1'], List.cons_ne_nil _ _⟩ (bodyWith 2 'c')
        (serve configured twoRows
          ⟨asAdmin (.saveJson ⟨['1'], List.cons_ne_nil _ _⟩ (bodyWith 2 'c')), .calm 3⟩) := by
  have h1 : pathParam configured ⟨['1'], List.cons_ne_nil _ _⟩ = .ok (some 1) := by decide
  constructor
  · refine (saveJson_updatesPath_iff (by decide)).mpr ?_
    rintro ⟨-, i, dto, n, hi, hb, -, -, hne, -⟩
    have hi1 : i = 1 := by simpa [h1, eq_comm] using hi
    have hd : dto = ⟨some 1, some ['c']⟩ := by simpa [bodyWith, eq_comm] using hb
    rw [hi1, hd] at hne
    exact hne rfl
  · refine fun h => (saveJson_updatesPath_iff (by decide)).mp h ?_
    refine ⟨by decide, 1, ⟨some 2, some ['c']⟩, ⟨['c'], by decide⟩, h1, rfl, rfl, ?_, ?_, ?_⟩
    · change (2 : Integer) ∈ twoRows
      decide
    · decide
    · rintro ⟨hl, -⟩
      exact absurd hl (by decide)

/-- A PUT to row 1 with the id 2 in its body answers 200 and overwrites row 2. -/
theorem saveJson_updatesPath_fails :
    ¬ ∀ t, Reachable configured t → ∀ (id : PathSegment) (body : JsonBody),
      UpdatesPath configured t id body
        (serve configured t ⟨asAdmin (.saveJson id body), .calm 3⟩) := by
  intro h
  have hr : Reachable configured (EventMachine.final (serve configured) ∅
      [⟨asAdmin (.save none (some ['a'])), .calm 1⟩,
        ⟨asAdmin (.save none (some ['b'])), .calm 2⟩]) := ⟨_, rfl⟩
  have hput := (h _ hr ⟨['1'], by decide⟩ (bodyWith 2 'c')).1 1
    (by decide) (by decide) (by decide)
  obtain ⟨_, _, _, _, _, hframe⟩ := hput
  exact absurd (hframe 2 (by decide)) (by decide)

end CategoryService
