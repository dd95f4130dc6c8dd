import CategoryService.History
import CategoryService.Names
import CategoryService.SerialOrder
import CategoryService.Transactions

/-! What concurrent requests are told and see of the rows: as many are new as creations are
acknowledged, a new id is given out once, and an acknowledged write is there until another
one takes its place. -/
namespace CategoryService
open EventMachine KeyedStore Linearization
variable {p : Platform} {t : Table} {e : Event} {k : Integer} {n : NameColumn}

/-- The client is told that row `k` has the name `n`: it has sent the id, or is told it. -/
def Wrote (p : Platform) (r : Request) (a : Response) (k : Integer) (n : NameColumn) : Prop :=
  a.Success ∧ ∃ c, r.submitted p = some c ∧ c.name = some n.val ∧
    (c.id = some k ∨ c.id = none ∧ a.reportedId = some k)

/-- The request sent that id and succeeded. -/
def Updates (p : Platform) (r : Request) (a : Response) (k : Integer) : Prop :=
  a.Success ∧ ∃ c, r.submitted p = some c ∧ c.id = some k

/-- The client is told the id of a row it has not named itself. -/
def Created (p : Platform) (r : Request) (a : Response) (k : Integer) : Prop :=
  a.Success ∧ (∃ c, r.submitted p = some c ∧ c.id = none) ∧ a.reportedId = some k

theorem reportedId_reply {call : Call} {c : Category} {j : Integer}
    (h : (call.reply c).reportedId = some j) : c.id = some j := by
  cases call with
  | createCategory body | createCategoryJson body => exact h
  | _ => cases h

theorem lookup_wrote (h : Wrote p e.request (serve p t e).1 k n) :
    (serve p t e).2.lookup k = some n := by
  obtain ⟨hs, c, hsub, hn, hid⟩ := h
  obtain ⟨m, -, hm, hl, he⟩ | ⟨-, hfail⟩ := serve_lands (authentic_of_success hs) hsub t e.env
  · have hmn : n = m := Subtype.ext (Option.some.inj (hn.symm.trans hm))
    have hserve : serve p t e = _ := he
    rw [hserve] at hid ⊢
    have hk : c.id.getD e.env.offer = k := by
      obtain hid | ⟨hid, hreported⟩ := hid
      · rw [hid, Option.getD_some]
      · exact Option.some.inj (reportedId_reply hreported)
    rw [lookup_changeOf hl, if_pos hk.symm, hmn]
  · exact absurd hs hfail

theorem created_new (h : Created p e.request (serve p t e).1 k) :
    k ∉ t ∧ k ∈ (serve p t e).2 := by
  obtain ⟨hs, ⟨c, hsub, hid⟩, hreported⟩ := h
  obtain ⟨m, -, -, hl, he⟩ | ⟨-, hfail⟩ := serve_lands (authentic_of_success hs) hsub t e.env
  · have hserve : serve p t e = _ := he
    rw [hserve] at hreported ⊢
    have hk : e.env.offer = k := by
      have hsaved := reportedId_reply hreported
      rw [savedAs, hid, Option.getD_none] at hsaved
      exact Option.some.inj hsaved
    rw [hid] at hl
    rw [hid, ← hk]
    exact ⟨hl, AList.mem_insert t |>.mpr (.inl rfl)⟩
  · exact absurd hs hfail

/-- Nothing but an acknowledged update of that id changes a row. -/
theorem lookup_kept (hr : e.Reports) (hk : t.lookup k = some n)
    (h : ¬ Updates p e.request (serve p t e).1 k) : (serve p t e).2.lookup k = some n := by
  by_cases hs : (serve p t e).1.Success
  · cases hsub : e.request.submitted p with
    | none =>
      rw [serve_change, change_of_submitted_none hsub]
      exact hk
    | some c =>
      obtain ⟨m, -, -, hl, he⟩ | ⟨-, hfail⟩ :=
        serve_lands (authentic_of_success hs) hsub t e.env
      · have hserve : (serve p t e).2 = _ := congrArg Prod.snd he
        rw [hserve, lookup_changeOf hl]
        have hne : k ≠ c.id.getD e.env.offer := by
          intro hid
          cases hc : c.id with
          | none =>
            rw [hc] at hid hl
            rw [hid] at hk
            exact hl (mem_of_lookup hk)
          | some j =>
            rw [hc] at hid
            exact h ⟨hs, c, hsub, hc.trans (congrArg some hid.symm)⟩
        rw [if_neg hne, hk]
      · exact absurd hs hfail
  · rw [serve_keeps hr hs, hk]

/-- A reader that answers shows the row. -/
theorem shows_row (hr : Reads p k e.request.call) (hs : (serve p t e).1.Success)
    (hk : t.lookup k = some n) : (some k, some n.val) ∈ (serve p t e).1.pairs := by
  have hentity : loadedEntity k n ∈ entities t := mem_entities.mpr ⟨k, n, hk, rfl⟩
  obtain ⟨⟨credentials, call⟩, env⟩ := e
  obtain rfl | rfl | ⟨id, hi, rfl | rfl⟩ := hr
  · rw [listCategories_success hs]
    exact List.mem_map.mpr ⟨_, hentity, rfl⟩
  · rw [listCategoriesJson_success hs]
    exact List.mem_map.mpr ⟨_, List.mem_map.mpr ⟨_, hentity, rfl⟩, rfl⟩
  · obtain ⟨m, hm, he⟩ := viewCategory_success hi hs
    obtain rfl : n = m := Option.some.inj (hk.symm.trans hm)
    rw [he]
    exact List.mem_singleton.mpr rfl
  · obtain ⟨m, hm, he⟩ := viewCategoryJson_success hi hs
    obtain rfl : n = m := Option.some.inj (hk.symm.trans hm)
    rw [he]
    exact List.mem_singleton.mpr rfl

/-- As for an event: the catch-all of `createCategoryJson` has nothing to report. -/
def Task.Reports (task : Task) : Prop := Event.Reports ⟨task.request, ⟨0, task.fails⟩⟩

section Window
variable {ι : Type} [DecidableEq ι] {tasks : ι → Task} {u : List (ι × Response)}
  {es : List Event}

omit [DecidableEq ι] in
/-- Each answer of the run is that of a task. -/
theorem task_of_answer {a : Event × Response}
    (hmap : (answers (serve p) t es).map (fun a => (Task.mk a.1.request a.1.env.fails, a.2)) =
      u.map fun x => (tasks x.1, x.2))
    (ha : a ∈ answers (serve p) t es) :
    ∃ x ∈ u, Task.mk a.1.request a.1.env.fails = tasks x.1 ∧ a.2 = x.2 := by
  have hmem : (Task.mk a.1.request a.1.env.fails, a.2) ∈ u.map fun x => (tasks x.1, x.2) :=
    hmap ▸ List.mem_map.mpr ⟨a, ha, rfl⟩
  obtain ⟨x, hx, he⟩ := List.mem_map.mp hmem
  obtain ⟨htask, hresponse⟩ := Prod.mk.inj he
  exact ⟨x, hx, htask.symm, hresponse.symm⟩

omit [DecidableEq ι] in
/-- Requests that do not update the row leave it. -/
theorem lookup_window (hreports : ∀ i, (tasks i).Reports) (hk : t.lookup k = some n)
    (hmap : (answers (serve p) t es).map (fun a => (Task.mk a.1.request a.1.env.fails, a.2)) =
      u.map fun x => (tasks x.1, x.2))
    (h : ∀ x ∈ u, ¬ Updates p (tasks x.1).request x.2 k) :
    (final (serve p) t es).lookup k = some n := by
  refine final_of_answers (serve p) (I := fun t => t.lookup k = some n)
    (C := fun e r => e.Reports ∧ ¬ Updates p e.request r k)
    (fun t e hk hc => lookup_kept hc.1 hk hc.2) hk fun a ha => ?_
  obtain ⟨x, hx, htask, hresponse⟩ := task_of_answer hmap ha
  have hr := hreports x.1
  have hno := h x hx
  rw [← htask] at hr hno
  rw [← hresponse] at hno
  exact ⟨hr, hno⟩

omit [DecidableEq ι] in
/-- The answer at one place of an order, with the run before and after it. -/
theorem answer_at {v : List (ι × Response)} {i : ι} {a : Response}
    (hmap : (answers (serve p) t es).map (fun a => (Task.mk a.1.request a.1.env.fails, a.2)) =
      (u ++ (i, a) :: v).map fun x => (tasks x.1, x.2)) :
    ∃ eu e ev, es = eu ++ e :: ev ∧ e.request = (tasks i).request ∧
      (serve p (final (serve p) t eu) e).1 = a ∧
      (answers (serve p) t eu).map (fun a => (Task.mk a.1.request a.1.env.fails, a.2)) =
        u.map (fun x => (tasks x.1, x.2)) ∧
      (answers (serve p) (serve p (final (serve p) t eu) e).2 ev).map
          (fun a => (Task.mk a.1.request a.1.env.fails, a.2)) =
        v.map fun x => (tasks x.1, x.2) := by
  rw [List.map_append, List.map_cons] at hmap
  obtain ⟨ru, rest, hsplit, hu, hrest⟩ := List.map_eq_append_iff.mp hmap
  obtain ⟨⟨e, r⟩, rv, rfl, he, hv⟩ := List.map_eq_cons_iff.mp hrest
  obtain ⟨eu, ev, rfl, hru, hr, hrv⟩ := answers_at (serve p) hsplit
  obtain ⟨htask, hresponse⟩ := Prod.mk.inj he
  refine ⟨eu, e, ev, rfl, congrArg Task.request htask, hr.symm.trans hresponse, ?_, ?_⟩
  · rw [hru, hu]
  · rw [hrv, hv]

end Window

section Runs
variable {ι : Type} [DecidableEq ι] (p : Platform) (tasks : ι → Task) {s : Server ι}
  {ls : List (Label ι Response)} {c : Config ι (Server ι) DbOp DbOp.Answer Response}
  {i j : ι} {a b : Response} (hreports : ∀ i, (tasks i).Reports) (hstart : s.db.pending = ∅)
  (hrun : Run Acts (fun i => (tasks i).program p) (.start s) ls c)
  (hdone : ∀ i m, c.thread i ≠ .running m)
include hreports hstart hrun hdone

/-- No acknowledged write is lost: if all other acknowledged updates of the row had ended
before this one began, the row has its name in the end. -/
theorem acknowledged_write_stays (hi : .respond i a ∈ ls) (hw : Wrote p (tasks i).request a k n)
    (hothers : ∀ l x, l ≠ i → .respond l x ∈ ls → Updates p (tasks l).request x k →
      Precedes ls l i) : c.shared.db.rows.lookup k = some n := by
  obtain ⟨order, es, hnodup, hresponded, hprecedes, hmap, hfinal⟩ := run_order hstart hrun hdone
  obtain ⟨u, v, rfl⟩ := List.append_of_mem ((hresponded i a).mpr hi)
  obtain ⟨eu, e, ev, rfl, he, hanswer, -, hv⟩ := answer_at hmap
  rw [← he, ← hanswer] at hw
  have hrow := lookup_wrote hw
  rw [← hfinal, final_append, final]
  refine lookup_window hreports hrow hv fun x hx hup => ?_
  have hkeys : (u ++ (i, a) :: v).map Prod.fst = u.map Prod.fst ++ i :: v.map Prod.fst := by simp
  have hxv : x.1 ∈ v.map Prod.fst := List.mem_map.mpr ⟨x, hx, rfl⟩
  have hafter := sublist_of_mem (u.map Prod.fst) (x := i) hxv
  rw [hkeys] at hnodup hprecedes
  have hne := (ne_of_sublist hnodup hafter).symm
  have hmem : x ∈ u ++ (i, a) :: v := List.mem_append_right _ (List.mem_cons_of_mem _ hx)
  have hbefore := hothers x.1 x.2 hne ((hresponded _ _).mp hmem) hup
  exact not_sublist_swap hnodup hafter (hprecedes _ _ hbefore)

/-- Every reader that begins after an acknowledged write and succeeds shows it, unless
another acknowledged update of the row ran at the same time as one of them or in between. -/
theorem readers_see_acknowledged (hi : .respond i a ∈ ls)
    (hw : Wrote p (tasks i).request a k n) (hj : .respond j b ∈ ls)
    (hr : Reads p k (tasks j).request.call) (hb : b.Success) (hij : Precedes ls i j)
    (hothers : ∀ l x, l ≠ i → .respond l x ∈ ls → Updates p (tasks l).request x k →
      Precedes ls l i ∨ Precedes ls j l) : (some k, some n.val) ∈ b.pairs := by
  obtain ⟨order, es, hnodup, hresponded, hprecedes, hmap, -⟩ := run_order hstart hrun hdone
  obtain ⟨u, v, w, rfl⟩ := split_order hnodup ((hresponded i a).mpr hi)
    ((hresponded j b).mpr hj) (hprecedes i j hij)
  obtain ⟨eu, e, ev, rfl, he, hanswer, -, hv⟩ := answer_at hmap
  rw [← he, ← hanswer] at hw
  have hrow := lookup_wrote hw
  obtain ⟨eu', e', ev', rfl, he', hanswer', hu', -⟩ := answer_at hv
  have hkept := lookup_window hreports hrow hu' fun x hx hup => by
    have hkeys : (u ++ (i, a) :: (v ++ (j, b) :: w)).map Prod.fst =
        u.map Prod.fst ++ i :: (v.map Prod.fst ++ j :: w.map Prod.fst) := by simp
    have hxv : x.1 ∈ v.map Prod.fst := List.mem_map.mpr ⟨x, hx, rfl⟩
    have hafter := sublist_of_mem (u.map Prod.fst) (x := i)
      (List.mem_append_left (j :: w.map Prod.fst) hxv)
    have hbefore : [x.1, j].Sublist _ := (sublist_of_mem_left (w.map Prod.fst) hxv).trans
      ((List.sublist_cons_self i _).trans (List.sublist_append_right (u.map Prod.fst) _))
    rw [hkeys] at hnodup hprecedes
    have hne := (ne_of_sublist hnodup hafter).symm
    have hmem : x ∈ u ++ (i, a) :: (v ++ (j, b) :: w) :=
      List.mem_append_right _ (List.mem_cons_of_mem _ (List.mem_append_left _ hx))
    obtain hi' | hj' := hothers x.1 x.2 hne ((hresponded _ _).mp hmem) hup
    · exact not_sublist_swap hnodup hafter (hprecedes _ _ hi')
    · exact not_sublist_swap hnodup hbefore (hprecedes _ _ hj')
  rw [← he'] at hr
  rw [← hanswer'] at hb ⊢
  exact shows_row hr hb hkept

/-- A new row for each acknowledged creation without an id, and none else. -/
theorem concurrent_rows_counted : c.shared.db.rows.keys.length = s.db.rows.keys.length +
    {i | ∃ a, .respond i a ∈ ls ∧ acknowledgesRow p (tasks i).request a}.ncard := by
  obtain ⟨order, es, hnodup, hresponded, -, hmap, hfinal⟩ := run_order hstart hrun hdone
  have hes : ∀ e ∈ es, e.Reports := by
    intro e he
    rw [← answers_fst (serve p) s.db.rows es] at he
    obtain ⟨a, ha, rfl⟩ := List.mem_map.mp he
    obtain ⟨x, -, htask, -⟩ := task_of_answer hmap ha
    have hr := hreports x.1
    rw [← htask] at hr
    exact hr
  have hcount := congrArg (List.countP fun y => acknowledgesRow p y.1.request y.2) hmap
  rw [List.countP_map, List.countP_map] at hcount
  rw [← hfinal, rows_counted hes]
  refine congrArg _ (hcount.trans ((countP_eq_ncard hnodup _).trans ?_))
  simp only [hresponded]
  rfl

omit hreports in
/-- A new id is given out once: no row had it before, no other request is told it, and the
row is there in the end. -/
theorem reported_ids_distinct (hi : .respond i a ∈ ls) (ha : Created p (tasks i).request a k) :
    k ∉ s.db.rows ∧ k ∈ c.shared.db.rows ∧
      ∀ j b, .respond j b ∈ ls → Created p (tasks j).request b k → j = i := by
  obtain ⟨order, es, -, hresponded, -, hmap, hfinal⟩ := run_order hstart hrun hdone
  obtain ⟨u, v, rfl⟩ := List.append_of_mem ((hresponded i a).mpr hi)
  obtain ⟨eu, e, ev, rfl, he, hanswer, hu, hv⟩ := answer_at hmap
  rw [← he, ← hanswer] at ha
  obtain ⟨hnew, hrow⟩ := created_new ha
  refine ⟨fun hk => hnew (mem_final p _ eu hk), ?_, fun j b hj hb => ?_⟩
  · rw [← hfinal, final_append]
    exact mem_final p _ ev hrow
  · obtain hj | hj := List.mem_append.mp ((hresponded j b).mpr hj)
    · -- the row of `j` would be there when `i` begins
      obtain ⟨u', v', rfl⟩ := List.append_of_mem hj
      obtain ⟨eu', e', ev', rfl, he', hanswer', -, -⟩ := answer_at hu
      rw [← he', ← hanswer'] at hb
      have hold := mem_final p _ ev' (created_new hb).2
      rw [final_append] at hnew
      exact absurd hold hnew
    · obtain hj | hj := List.mem_cons.mp hj
      · exact congrArg Prod.fst hj
      · obtain ⟨u', v', rfl⟩ := List.append_of_mem hj
        obtain ⟨eu', e', ev', rfl, he', hanswer', -, -⟩ := answer_at hv
        rw [← he', ← hanswer'] at hb
        exact absurd (mem_final p _ eu' hrow) (created_new hb).1

end Runs

section Look

/-- A JSON put of row 1 and a look at it afterwards. -/
def lookTask : Bool → Task
  | false => ⟨asAdmin (.viewCategoryJson ⟨['1'], List.cons_ne_nil _ _⟩), fun _ => false⟩
  | true => raceTask true

def lookResponse : Response :=
  (Response.ok (.dto ⟨some 1, some ['c']⟩)).withLinks [.selfLink .CATEGORY [some 1]]

theorem look_commit (i : Bool) (c : Char) :
    Acts i (raceServer c) (.commit []) (.ok ()) (raceServer c) := by
  have he : (DbOp.commit []).Ends := trivial
  have hc : committedRows i (raceServer c).db [] = .ok (raceServer c).db.rows := rfl
  obtain ⟨hx, hrows, hpending⟩ := act_commit_ok 0 i (raceServer c).db hc
  exact (acts_of_not_insert (.inr he)).mpr ⟨0, Prod.ext hx (Store.ext hrows hpending), rfl⟩

/-- The look begins when the put has answered. -/
def lookLabels : List (Label Bool Response) :=
  [.invoke true, .act true, .respond true (.ok .empty), .invoke false, .act false, .act false,
    .respond false lookResponse]

theorem look_run : ∃ c, Run Acts (fun i => (lookTask i).program configured)
      (.start (raceServer 'a')) lookLabels c ∧
    (∀ i m, c.thread i ≠ .running m) ∧ c.shared = raceServer 'c' := by
  have hload : Acts false (raceServer 'c') (.select 1) (some (rowOne 'c')) (raceServer 'c') :=
    acts_select.mpr ⟨rfl, rfl⟩
  have h0 : Run Acts (fun i => (lookTask i).program configured)
    (.start (raceServer 'a')) [] (.start (raceServer 'a')) := .nil
  have h1 := h0.snoc (.invoke (i := true) rfl)
  have h2 := h1.snoc (.act (by rfl) (race_commit true 'a' 'c'))
  have h3 := h2.snoc (.respond (i := true) (by rfl))
  have h4 := h3.snoc (.invoke (i := false) rfl)
  have h5 := h4.snoc (.act (by rfl) hload)
  have h6 := h5.snoc (.act (by rfl) (look_commit false 'c'))
  have h7 := h6.snoc (.respond (i := false) (a := lookResponse) (by rfl))
  refine ⟨_, h7, ?_, rfl⟩
  intro i m h
  cases i <;> cases h

theorem look_reports (i : Bool) : (lookTask i).Reports := by
  cases i <;> exact reports_calm _ 0

theorem look_wrote : Wrote configured (lookTask true).request (.ok .empty) 1 (rowOne 'c') :=
  ⟨by decide, ⟨some 1, some ['c']⟩, rfl, rfl, .inl rfl⟩

theorem look_others {a : Response} {k : Integer} {l : Bool} (hl : l ≠ true) :
    ¬ Updates configured (lookTask l).request a k := by
  cases l with
  | true => exact absurd rfl hl
  | false =>
    rintro ⟨-, c, hc, -⟩
    cases hc

theorem acknowledged_write_stays_look :
    ∃ c : Config Bool (Server Bool) DbOp DbOp.Answer Response, c.shared = raceServer 'c' ∧
      c.shared.db.rows.lookup 1 = some (rowOne 'c') := by
  obtain ⟨c, hrun, hdone, hshared⟩ := look_run
  exact ⟨c, hshared, acknowledged_write_stays configured lookTask look_reports rfl hrun hdone
    (by simp [lookLabels]) look_wrote fun l x hl _ hup => absurd hup (look_others hl)⟩

theorem readers_see_acknowledged_look :
    (some 1, some ['c']) ∈ lookResponse.pairs := by
  obtain ⟨c, hrun, hdone, -⟩ := look_run
  have hreads : Reads configured 1 (lookTask false).request.call :=
    .inr (.inr ⟨_, rfl, .inr rfl⟩)
  have hprecedes : Precedes lookLabels true false :=
    ⟨[.invoke true, .act true, .respond true (.ok .empty)], _, .ok .empty, rfl, by simp, by simp⟩
  exact readers_see_acknowledged configured lookTask look_reports rfl hrun hdone
    (by simp [lookLabels]) look_wrote (by simp [lookLabels]) hreads (by decide) hprecedes
    fun l x hl _ hup => absurd hup (look_others hl)

end Look

section Posts

/-- Two posts of one letter each. -/
def postTask (i : Bool) : Task :=
  ⟨asAdmin (.createCategoryJson (.parsed (some ⟨none, some [if i then 'b' else 'a']⟩))),
    fun _ => false⟩

def emptyServer : Server Bool where
  db := .idle ∅
  used := ∅
  rows_used k hk := absurd hk (AList.notMem_empty k)
  pending_used k hk := absurd hk (AList.notMem_empty k)

/-- The second post begins while the first has a row it has not committed. -/
def postLabels : List (Label Bool Response) :=
  [.invoke false, .act false, .invoke true, .act true, .act true,
    .respond true (.created .CATEGORY [some 2]), .act false,
    .respond false (.created .CATEGORY [some 1])]

theorem post_run : ∃ c, Run Acts (fun i => (postTask i).program configured) (.start emptyServer)
      postLabels c ∧
    ∀ i m, c.thread i ≠ .running m := by
  have h0 : Run Acts (fun i => (postTask i).program configured) (.start emptyServer) []
    (.start emptyServer) := .nil
  have h1 := h0.snoc (.invoke (i := false) rfl)
  have h2 := h1.snoc (.act (by rfl) (acts_after false _ 1 (.insert (some ['a']))
    (by simp [emptyServer, Config.start])))
  have h3 := h2.snoc (.invoke (i := true) rfl)
  have h4 := h3.snoc (.act (by rfl) (acts_after true _ 2 (.insert (some ['b']))
    (by simp [emptyServer, Config.start, Server.after, DbOp.takes])))
  have h5 := h4.snoc (.act (by rfl) (acts_after true _ 0 (.commit []) (by simp [DbOp.takes])))
  have h6 := h5.snoc (.respond (i := true) (a := .created .CATEGORY [some 2]) (by rfl))
  have h7 := h6.snoc (.act (by rfl) (acts_after false _ 0 (.commit []) (by simp [DbOp.takes])))
  have h8 := h7.snoc (.respond (i := false) (a := .created .CATEGORY [some 1]) (by rfl))
  refine ⟨_, h8, ?_⟩
  intro i m h
  cases i <;> cases h

theorem post_reports (i : Bool) : (postTask i).Reports := reports_calm _ 0

theorem concurrent_rows_counted_post :
    ∃ c : Config Bool (Server Bool) DbOp DbOp.Answer Response, c.shared.db.rows.keys.length =
      emptyServer.db.rows.keys.length +
        {i | ∃ a, .respond i a ∈ postLabels ∧
          acknowledgesRow configured (postTask i).request a}.ncard := by
  obtain ⟨c, hrun, hdone⟩ := post_run
  exact ⟨c, concurrent_rows_counted configured postTask post_reports rfl hrun hdone⟩

theorem reported_ids_distinct_post :
    (1 : Integer) ∉ emptyServer.db.rows ∧
      ∀ j b, .respond j b ∈ postLabels → Created configured (postTask j).request b 1 →
        j = false := by
  obtain ⟨c, hrun, hdone⟩ := post_run
  have h := reported_ids_distinct configured postTask rfl hrun hdone (i := false)
    (a := .created .CATEGORY [some 1]) (k := 1) (by simp [postLabels])
    ⟨by decide, ⟨_, rfl, rfl⟩, rfl⟩
  exact ⟨h.1, h.2.2⟩

end Posts

end CategoryService
