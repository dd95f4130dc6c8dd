import CategoryService.Library.Replay
import CategoryService.Readers

/-! Whole runs told by what was acknowledged: the rows a run leaves, how many there are,
and when two runs of updates leave the same table. -/
namespace CategoryService
open EventMachine KeyedStore Register
variable {p : Platform} {t : Table} {e : Event}

/-- Nothing throws in `createCategoryJson` after the save, where its catch-all would
answer with an error for a row it has written. -/
def Event.Reports (e : Event) : Prop :=
  ∀ body, e.request.call = .createCategoryJson body → e.env.passes afterCreate

theorem reports_calm (r : Request) (offer : Integer) : Event.Reports ⟨r, .calm offer⟩ :=
  fun _ _ => passes_calm offer _

theorem passes_of_commits {c : Category} (h : e.Reports)
    (hc : e.env.Commits c e.request.call) : e.env.passes (e.request.call.steps c) := by
  obtain ⟨⟨credentials, call⟩, env⟩ := e
  cases call with
  | createCategoryJson body =>
    have hafter := h body rfl
    have hbefore := hc.1
    simp only [passes_cons, passes_nil, and_true] at hbefore
    simp [Call.steps, hbefore, hafter]
  | _ => exact hc

/-- Then every error response leaves the table. -/
theorem serve_keeps (h : e.Reports) (hs : ¬ (serve p t e).1.Success) : (serve p t e).2 = t := by
  by_contra hne
  obtain ⟨c, n, ha, hsub, hn, hl, hc, -⟩ := serve_changed hne
  obtain ⟨_, _, _, _, hok⟩ | ⟨hno, -⟩ := serve_lands ha hsub t e.env
  · have hok' : (serve p t e).1 = e.request.call.reply (savedAs e.env.offer c) :=
      congrArg Prod.fst hok
    rw [hok'] at hs
    exact hs (reply_success _ _)
  · exact hno ⟨passes_of_commits h hc, ⟨n, hn⟩, hl⟩

/-- The write a response acknowledges, under the id submitted or the one handed out. -/
def acknowledged (p : Platform) (e : Event) (r : Response) : Option (Integer × NameColumn) :=
  if r.Success then
    (e.request.submitted p).bind fun c =>
      match toColumn c.name with
      | .ok n => some (c.id.getD e.env.offer, n)
      | .error _ => none
  else none

/-- The response acknowledges a row that is new. -/
def acknowledgesRow (p : Platform) (r : Request) (a : Response) : Bool :=
  decide a.Success && ((r.submitted p).any fun c => c.id.isNone)

/-- A request with a response of its own either fails and leaves the table, or succeeds
without a word on it, or writes what it acknowledges. -/
theorem serve_acknowledged (h : e.Reports) :
    ((serve p t e).2 = t ∧ acknowledged p e (serve p t e).1 = none ∧
      acknowledgesRow p e.request (serve p t e).1 = false) ∨
    ∃ id, ∃ n : NameColumn, Lands t e.env.offer id ∧
      (serve p t e).2 = (changeOf e.env.offer n id).applyRows t ∧
      acknowledged p e (serve p t e).1 = some (id.getD e.env.offer, n) ∧
      acknowledgesRow p e.request (serve p t e).1 = id.isNone := by
  by_cases hs : (serve p t e).1.Success
  · have ha := authentic_of_success hs
    cases hsub : e.request.submitted p with
    | none =>
      refine .inl ⟨?_, ?_, ?_⟩
      · rw [serve_change, change_of_submitted_none hsub]
        rfl
      · simp [acknowledged, hsub]
      · simp [acknowledgesRow, hsub]
    | some c =>
      obtain ⟨n, -, hn, hl, he⟩ | ⟨-, hfail⟩ := serve_lands ha hsub t e.env
      · refine .inr ⟨c.id, n, hl, congrArg Prod.snd he, ?_, ?_⟩
        · simp [acknowledged, hs, hsub, hn, toColumn_val]
        · simp [acknowledgesRow, hs, hsub]
      · exact absurd hs hfail
  · refine .inl ⟨serve_keeps h hs, ?_, ?_⟩
    · simp [acknowledged, hs]
    · simp [acknowledgesRow, hs]

theorem lookup_acknowledged (h : e.Reports) :
    (fun k => (serve p t e).2.lookup k) =
      replay t.lookup (acknowledged p e (serve p t e).1).toList := by
  obtain ⟨ht, hack, -⟩ | ⟨id, n, hl, ht, hack, -⟩ := serve_acknowledged (p := p) (t := t) h
  · rw [ht, hack]
    rfl
  · rw [ht, hack]
    funext j
    rw [lookup_changeOf hl, replay_apply, Option.toList_some, lastOf_singleton]
    by_cases hj : j = id.getD e.env.offer
    · simp [hj]
    · simp [hj, Ne.symm hj]

/-- What a run acknowledges, the latest last. -/
def acknowledgedLog (p : Platform) (run : List (Event × Response)) : Log Integer NameColumn :=
  run.flatMap fun a => (acknowledged p a.1 a.2).toList

/-- The table a run leaves is what its responses say it is: each row has the name that was
acknowledged last, whatever else failed, and rows without an acknowledgement are as they
were. -/
theorem acknowledged_replay {es : List Event} (h : ∀ e ∈ es, e.Reports) (t : Table) :
    (fun k => (final (serve p) t es).lookup k) =
      replay t.lookup (acknowledgedLog p (answers (serve p) t es)) := by
  induction es generalizing t with
  | nil => rfl
  | cons e es ih =>
    have hstep := lookup_acknowledged (p := p) (t := t) (h e List.mem_cons_self)
    have hrest := ih (fun e he => h e (List.mem_cons_of_mem _ he)) (serve p t e).2
    rw [final, hrest, hstep, ← replay_append]
    rfl

theorem acknowledged_replay_two :
    (fun k => (final (serve configured) ∅
        [⟨asAdmin (.save none (some ['a'])), .calm 1⟩,
          ⟨asAdmin (.save (some ['1']) (some ['b'])), .calm 2⟩]).lookup k) =
      replay (∅ : Table).lookup (acknowledgedLog configured (answers (serve configured) ∅
        [⟨asAdmin (.save none (some ['a'])), .calm 1⟩,
          ⟨asAdmin (.save (some ['1']) (some ['b'])), .calm 2⟩])) :=
  acknowledged_replay (p := configured) (by simp [Event.Reports]) ∅

theorem length_keys_changeOf {offer : Integer} {n : NameColumn} {id : Option Integer}
    (hl : Lands t offer id) :
    ((changeOf offer n id).applyRows t).keys.length =
      t.keys.length + (if id.isNone then 1 else 0) := by
  cases id with
  | none =>
    have ho : offer ∉ t := hl
    have hkeys : (t.insert offer n).keys = offer :: t.keys.erase offer := AList.keys_insert t
    have herase : t.keys.erase offer = t.keys :=
      List.erase_of_not_mem fun hm => ho (AList.mem_keys.mpr hm)
    change (t.insert offer n).keys.length = _
    rw [hkeys, herase]
    rfl
  | some i =>
    change (t.replace i n).keys.length = _
    rw [AList.keys_replace]
    rfl

/-- A run adds as many rows as it acknowledges creations without an id. -/
theorem rows_counted {es : List Event} (h : ∀ e ∈ es, e.Reports) (t : Table) :
    (final (serve p) t es).keys.length =
      t.keys.length + (answers (serve p) t es).countP fun a => acknowledgesRow p a.1.request a.2 := by
  induction es generalizing t with
  | nil => rfl
  | cons e es ih =>
    have hrest := ih (fun e he => h e (List.mem_cons_of_mem _ he)) (serve p t e).2
    have hstep : (serve p t e).2.keys.length =
        t.keys.length + (if acknowledgesRow p e.request (serve p t e).1 then 1 else 0) := by
      obtain ⟨ht, -, hrow⟩ | ⟨id, n, hl, ht, -, hrow⟩ :=
        serve_acknowledged (p := p) (t := t) (h e List.mem_cons_self)
      · rw [ht, hrow]
        rfl
      · rw [ht, hrow, length_keys_changeOf hl]
    rw [final, hrest, hstep, answers, List.countP_cons, Nat.add_assoc,
      Nat.add_comm (List.countP _ _)]

section Updates
variable {es es' : List Event}

/-- Every entity that is submitted names its row. -/
def UpdatesOnly (p : Platform) (es : List Event) : Prop :=
  ∀ e ∈ es, ∀ c, e.request.submitted p = some c → c.id ≠ none

/-- The write of such a request, which does not depend on the table. -/
def Event.update (p : Platform) (e : Event) : Option (Integer × NameColumn) :=
  (e.request.submitted p).bind fun c =>
    match c.id, toColumn c.name with
    | some k, .ok n =>
      if e.request.Authentic p ∧ e.env.Commits c e.request.call then some (k, n) else none
    | _, _ => none

def updateLog (p : Platform) (es : List Event) : Log Integer NameColumn :=
  es.flatMap fun e => (e.update p).toList

theorem replace_of_notMem {k : Integer} {n : NameColumn} (hk : k ∉ t) : t.replace k n = t := by
  refine rows_ext (AList.keys_replace k n t) fun j hj => lookup_replace_ne ?_
  rintro rfl
  exact hk (AList.mem_replace.mp hj)

theorem serve_update (h : ∀ c, e.request.submitted p = some c → c.id ≠ none) (t : Table) :
    (serve p t e).2 = replaceAll t (e.update p).toList := by
  rw [serve_change]
  unfold Event.change Event.update
  cases hs : e.request.submitted p with
  | none => rfl
  | some c =>
    obtain ⟨id, name⟩ := c
    cases id with
    | none => exact absurd rfl (h _ hs)
    | some k =>
      by_cases hc : e.request.Authentic p ∧ e.env.Commits ⟨some k, name⟩ e.request.call
      · cases hn : toColumn name with
        | error ex => simp [hc, hn, stored, Change.applyRows, replaceAll]
        | ok n =>
          by_cases hk : k ∈ t
          · simp [hc, hn, hk, stored, Change.applyRows, replaceAll]
          · simp [hc, hn, hk, stored, Change.applyRows, replaceAll, replace_of_notMem hk]
      · cases hn : toColumn name <;> simp [hc, hn, Change.applyRows, replaceAll]

theorem final_updates (h : UpdatesOnly p es) (t : Table) :
    final (serve p) t es = replaceAll t (updateLog p es) := by
  induction es generalizing t with
  | nil => rfl
  | cons e es ih =>
    have hrest := ih (fun e he => h e (List.mem_cons_of_mem _ he)) (serve p t e).2
    rw [final, hrest, serve_update (h e List.mem_cons_self)]
    exact List.foldl_append.symm

/-- Updates may be repeated, reordered or left out: two runs of them leave the same table
exactly if for each row that exists the last update of it that commits has the same name,
or the name the row had where there is none. -/
theorem updates_confluent (h : UpdatesOnly p es) (h' : UpdatesOnly p es') (t : Table) :
    final (serve p) t es = final (serve p) t es' ↔
      ∀ k ∈ t, (lastOf k (updateLog p es)).or (t.lookup k) =
        (lastOf k (updateLog p es')).or (t.lookup k) := by
  rw [final_updates h, final_updates h', replaceAll_eq_iff]

end Updates

/-- A form post that gives row `1` the name `c`. -/
def renameOne (c : Char) : Event := ⟨asAdmin (.save (some ['1']) (some [c])), .calm 9⟩

theorem updatesOnly_renameOne (cs : List Char) : UpdatesOnly configured (cs.map renameOne) := by
  intro e he c hc
  obtain ⟨x, -, rfl⟩ := List.mem_map.mp he
  cases hc
  exact Option.some_ne_none _

theorem updates_confluent_renameOne :
    final (serve configured) ((∅ : Table).insert 1 ⟨['a'], by decide⟩)
        (['b', 'c'].map renameOne) =
      final (serve configured) ((∅ : Table).insert 1 ⟨['a'], by decide⟩)
        (['c', 'b', 'c', 'c'].map renameOne) := by
  refine (updates_confluent (updatesOnly_renameOne _) (updatesOnly_renameOne _) _).mpr ?_
  intro k hk
  obtain rfl : k = 1 := by simpa using (AList.mem_insert (∅ : Table)).mp hk
  decide

end CategoryService
