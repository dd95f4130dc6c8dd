import CategoryService.Changes

/-! The form post and the JSON put of one row: two paths with one outcome, in single
requests and along runs. -/
namespace CategoryService
open KeyedStore Register EventMachine
variable {p : Platform} {t : Table} {i : Integer} {name : Option JString}

/-- Two outcomes of an update of row `i`: both rename that row and no other, or both are
refused and leave the table as it was, as they do where there is no such row. -/
structure SameUpdate (t : Table) (i : Integer) (name : Option JString)
    (outcome outcome' : Response × Table) : Prop where
  success : outcome.1.Success ↔ outcome'.1.Success
  table : outcome.2 = outcome'.2
  renamed : outcome.1.Success → ∃ n : NameColumn, name = some n.val ∧
    outcome.2.lookup i = some n ∧ ∀ j ≠ i, outcome.2.lookup j = t.lookup j
  refused : ¬ outcome.1.Success → outcome.2 = t
  missing : i ∉ t → ¬ outcome.1.Success

theorem sameUpdate_refused {x y : Response × Table} (hx : ¬ x.1.Success) (hy : ¬ y.1.Success)
    (htx : x.2 = t) (hty : y.2 = t) : SameUpdate t i name x y where
  success := iff_of_false hx hy
  table := htx.trans hty.symm
  renamed h := absurd h hx
  refused _ := htx
  missing _ := hx

theorem sameUpdate_renamed {x y : Response × Table} {n : NameColumn} (hn : name = some n.val)
    (hi : i ∈ t) (hx : x.1.Success) (hy : y.1.Success) (htx : x.2 = t.replace i n)
    (hty : y.2 = t.replace i n) : SameUpdate t i name x y where
  success := iff_of_true hx hy
  table := htx.trans hty.symm
  renamed _ := by
    refine ⟨n, hn, ?_, fun j hj => ?_⟩
    · rw [htx]
      exact lookup_replace_self hi
    · rw [htx]
      exact lookup_replace_ne hj
  refused h := absurd hx h
  missing h := absurd hi h

/-- The calls that update a row by the id they are given. -/
def Call.Updates : Call → Prop
  | .save _ _ | .saveJson _ _ => True
  | _ => False

theorem commits_updates {call : Call} (h : call.Updates) (env : Env) (c : Category) :
    env.Commits c call ↔ env.passes (call.steps c) := by
  cases call with
  | save id name => exact Iff.rfl
  | saveJson id body => exact Iff.rfl
  | _ => cases h

/-- There is such a row, and the column takes the name. -/
def Renames (t : Table) (i : Integer) (name : Option JString) : Prop :=
  i ∈ t ∧ ∃ n : NameColumn, name = some n.val

/-- What becomes of an update, whichever call submits it. -/
theorem update_cases {r : Request} (ha : r.Authentic p) (hu : r.call.Updates)
    (hs : r.submitted p = some ⟨some i, name⟩) (t : Table) (env : Env) :
    (∃ n : NameColumn, env.passes (r.call.steps ⟨some i, name⟩) ∧ i ∈ t ∧ name = some n.val ∧
      (serve p t ⟨r, env⟩).1.Success ∧ (serve p t ⟨r, env⟩).2 = t.replace i n) ∨
    (¬ (env.passes (r.call.steps ⟨some i, name⟩) ∧ Renames t i name) ∧
      ¬ (serve p t ⟨r, env⟩).1.Success ∧ (serve p t ⟨r, env⟩).2 = t) := by
  obtain ⟨n, hp, hn, hi, he⟩ | ⟨hno, hfail⟩ := serve_lands ha hs t env
  · rw [he]
    exact .inl ⟨n, hp, hi, hn, reply_success r.call _, rfl⟩
  · refine .inr ⟨?_, hfail, ?_⟩
    · rintro ⟨hp, hi, hn⟩
      exact hno ⟨hp, hn, hi⟩
    · by_contra hne
      obtain ⟨c, n, -, hs', hn, hi, hc, -⟩ := serve_changed hne
      rw [hs] at hs'
      cases hs'
      exact hno ⟨(commits_updates hu env _).mp hc, ⟨n, hn⟩, hi⟩

/-- Requests of one user to give one row one name, by calls whose libraries fail alike. -/
structure UpdatesAlike (p : Platform) (i : Integer) (name : Option JString) (e e' : Event) :
    Prop where
  credentials : e.request.credentials = e'.request.credentials
  updates : e.request.call.Updates ∧ e'.request.call.Updates
  submitted : e.request.submitted p = some ⟨some i, name⟩ ∧
    e'.request.submitted p = some ⟨some i, name⟩
  steps : e.env.passes (e.request.call.steps ⟨some i, name⟩) ↔
    e'.env.passes (e'.request.call.steps ⟨some i, name⟩)

theorem sameUpdate_serve {e e' : Event} (h : UpdatesAlike p i name e e') (t : Table) :
    SameUpdate t i name (serve p t e) (serve p t e') := by
  obtain ⟨r, env⟩ := e
  obtain ⟨r', env'⟩ := e'
  obtain ⟨hcredentials, ⟨hu, hu'⟩, ⟨hs, hs'⟩, hsteps⟩ := h
  simp only at hcredentials hu hu' hs hs' hsteps
  have hauth : r.Authentic p ↔ r'.Authentic p := by
    rw [Request.Authentic, Request.Authentic, hcredentials]
  by_cases ha : r.Authentic p
  · have hcases := update_cases ha hu hs t env
    have hcases' := update_cases (hauth.mp ha) hu' hs' t env'
    obtain ⟨n, hp, hi, hn, hx, htx⟩ | ⟨hno, hx, htx⟩ := hcases
    · obtain ⟨m, -, -, hm, hy, hty⟩ | ⟨hno, -⟩ := hcases'
      · have hmn : m = n := Subtype.ext (Option.some.inj (hm.symm.trans hn))
        subst hmn
        exact sameUpdate_renamed hn hi hx hy htx hty
      · exact absurd ⟨hsteps.mp hp, hi, n, hn⟩ hno
    · obtain ⟨m, hp, hi, hm, -⟩ | ⟨-, hy, hty⟩ := hcases'
      · exact absurd ⟨hsteps.mpr hp, hi, m, hm⟩ hno
      · exact sameUpdate_refused hx hy htx hty
  · rw [serve_unauthorized ha, serve_unauthorized (mt hauth.mpr ha)]
    have hfail : ¬ unauthorized.Success := by decide
    exact sameUpdate_refused hfail hfail rfl rfl

/-- The form post of a row and the JSON put to that row, with the row's id in its body,
have one outcome: lookup and dirty checking on one side, the blind update on the other.
Their libraries fail in both or in neither. -/
theorem update_paths_agree {credentials : Option BasicCredentials} {raw : Option JString}
    {id : PathSegment} {env env' : Env} (hraw : formParam p raw = .ok (some i))
    (hid : pathParam p id = .ok (some i))
    (hsteps : env.passes [.lookup, .persist, .flush, .response] ↔
      env'.passes [.toCategory, .persist, .flush, .response]) (t : Table) :
    SameUpdate t i name (serve p t ⟨⟨credentials, .save raw name⟩, env⟩)
      (serve p t ⟨⟨credentials, .saveJson id (.parsed (some ⟨some i, name⟩))⟩, env'⟩) := by
  apply sameUpdate_serve
  exact ⟨rfl, ⟨trivial, trivial⟩, ⟨submitted_save hraw name, submitted_saveJson hid _⟩, hsteps⟩

theorem update_paths_agree_one :
    SameUpdate (final (serve configured) ∅ [⟨asAdmin (.save none (some ['a'])), .calm 1⟩]) 1
      (some ['b'])
      (serve configured
        (final (serve configured) ∅ [⟨asAdmin (.save none (some ['a'])), .calm 1⟩])
        ⟨asAdmin (.save (some ['1']) (some ['b'])), .calm 2⟩)
      (serve configured
        (final (serve configured) ∅ [⟨asAdmin (.save none (some ['a'])), .calm 1⟩])
        ⟨asAdmin (.saveJson ⟨['1'], by decide⟩ (.parsed (some ⟨some 1, some ['b']⟩))),
          .calm 2⟩) :=
  update_paths_agree (by decide) (by decide) (by decide) _

/-- The same event, or the same update by whichever path. -/
def Alike (p : Platform) (e e' : Event) : Prop :=
  e = e' ∨ ∃ i name, UpdatesAlike p i name e e'

theorem serve_alike {e e' : Event} (h : Alike p e e') (t : Table) :
    ((serve p t e).1.Success ↔ (serve p t e').1.Success) ∧
      (serve p t e).2 = (serve p t e').2 := by
  obtain rfl | ⟨i, name, h⟩ := h
  · exact ⟨Iff.rfl, rfl⟩
  · have hsame := sameUpdate_serve h t
    exact ⟨hsame.success, hsame.table⟩

/-- In a run every update may go by the other path: the same requests succeed, and the
same table is left. -/
theorem runs_alike {es es' : List Event} (h : List.Forall₂ (Alike p) es es') (t : Table) :
    final (serve p) t es = final (serve p) t es' ∧
      List.Forall₂ (fun r r' : Response => r.Success ↔ r'.Success)
        ((answers (serve p) t es).map Prod.snd) ((answers (serve p) t es').map Prod.snd) :=
  final_exchange (serve p) (fun t _ _ he => serve_alike he t) h t

end CategoryService
