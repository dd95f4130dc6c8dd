import CategoryService.Library.Linearization
import CategoryService.Shapes

/-! Requests served at the same time: each is a transaction of its own, whose database
operations come in any interleaving with those of the others. -/
namespace CategoryService
open Interaction KeyedStore Linearization

/-- A request and the steps of it at which a library throws. -/
structure Task where
  request : Request
  fails : Step → Bool

/-- No handler looks at the id it is going to be offered. -/
def Task.program (p : Platform) (task : Task) : DbProg Response :=
  CategoryService.program p ⟨0, task.fails⟩ task.request

theorem program_offer (p : Platform) (env : Env) (r : Request) :
    program p env r = Task.program p ⟨r, env.fails⟩ := by
  obtain ⟨credentials, call⟩ := r
  cases call <;> rfl

variable {ι : Type} [DecidableEq ι]

/-- The database while requests run, with the ids the identity column has handed out. -/
@[ext]
structure Server (ι : Type) [DecidableEq ι] where
  db : Database ι
  used : Set Integer
  rows_used : ∀ k ∈ db.rows, k ∈ used
  pending_used : ∀ k ∈ db.pending, k ∈ used

def DbOp.takes (offer : Integer) : DbOp → Set Integer
  | .insert _ => {offer}
  | _ => ∅

/-- One operation of request `i`. An insert takes an id that was never handed out. -/
def Acts (i : ι) (s : Server ι) (op : DbOp) (x : op.Answer) (s' : Server ι) : Prop :=
  ∃ offer, (∀ k ∈ op.takes offer, k ∉ s.used) ∧ act offer i s.db op = (x, s'.db) ∧
    s'.used = s.used ∪ op.takes offer

/-- The server as if the transactions still running had not begun. -/
def Server.committed (s : Server ι) : Server ι where
  db := .idle s.db.rows
  used := {k ∈ s.used | k ∉ s.db.pending}
  rows_used k hk := ⟨s.rows_used k hk, fun hp => s.db.disjoint k hp hk⟩
  pending_used k hk := absurd hk (AList.notMem_empty k)

theorem committed_eq_self {s : Server ι} (h : s.db.pending = ∅) : s.committed = s := by
  refine Server.ext (Store.ext rfl h.symm) ?_
  ext k
  simp [Server.committed, h]

/-- What request `i` relies on: the others delete no row and leave its own alone. -/
def Relies (i : ι) (s s' : Server ι) : Prop :=
  (∀ k ∈ s.db.rows, k ∈ s'.db.rows) ∧ own i s'.db.pending = own i s.db.pending

theorem interference : Interference (Acts (ι := ι)) Relies where
  refl i s := ⟨fun _ hk => hk, rfl⟩
  trans i s s' s'' h h' := ⟨fun k hk => h'.1 k (h.1 k hk), h'.2.trans h.2⟩
  others i j s op x s' hij := by
    rintro ⟨offer, -, ha, -⟩
    have hdb : s'.db = (act offer j s.db op).2 := (congrArg Prod.snd ha).symm
    rw [Relies, hdb]
    exact ⟨fun k hk => act_rows_mono hk, act_own_ne (Ne.symm hij)⟩

section Operations
variable {i : ι} {s s' d : Server ι} {op : DbOp} {x : op.Answer}

theorem takes_of_not_insert (h : op.Reads ∨ op.Ends) (offer : Integer) : op.takes offer = ∅ := by
  cases op <;> simp_all [DbOp.Reads, DbOp.Ends, DbOp.takes]

theorem acts_of_not_insert (h : op.Reads ∨ op.Ends) :
    Acts i s op x s' ↔ ∃ offer, act offer i s.db op = (x, s'.db) ∧ s'.used = s.used := by
  simp [Acts, takes_of_not_insert h]

theorem acts_select {id : Integer} {z : Option NameColumn} :
    Acts i s (.select id) z s' ↔ z = s.db.rows.lookup id ∧ s' = s := by
  have hr : (DbOp.select id).Reads := trivial
  rw [acts_of_not_insert (.inl hr)]
  constructor
  · rintro ⟨offer, ha, hu⟩
    obtain ⟨hz, hdb⟩ := Prod.mk.inj ha
    exact ⟨hz.symm, Server.ext hdb.symm hu⟩
  · rintro ⟨rfl, rfl⟩
    exact ⟨0, rfl, rfl⟩

theorem Acts.reads (ha : Acts i s op x s') (h : op.Reads) : s' = s := by
  obtain ⟨offer, ha, hu⟩ := (acts_of_not_insert (.inl h)).mp ha
  have hdb : s'.db = (act offer i s.db op).2 := (congrArg Prod.snd ha).symm
  exact Server.ext (hdb.trans (act_reads h)) hu

/-- A read of the committed rows. -/
theorem Acts.reads_committed (ha : Acts i s op x s') (h : op.Reads) :
    Acts i s.committed op x s.committed := by
  obtain ⟨offer, ha, -⟩ := (acts_of_not_insert (.inl h)).mp ha
  refine (acts_of_not_insert (.inl h)).mpr ⟨offer, Prod.ext ?_ (act_reads h), rfl⟩
  have hx : (act offer i s.committed.db op).1 = (act offer i s.db op).1 :=
    act_reads_congr offer offer h rfl
  rwa [ha] at hx

/-- `d` is all that request `i` sees of `s`: the committed rows and its own. -/
structure Sees (i : ι) (s d : Server ι) : Prop where
  rows : d.db.rows = s.db.rows
  inserted : own i d.db.pending = own i s.db.pending
  alone : others i d.db.pending = ∅
  used : d.used = {k ∈ s.used | k ∉ others i s.db.pending}

theorem sees_committed (h : own i s.db.pending = []) : Sees i s s.committed where
  rows := rfl
  inserted := h.symm
  alone := rfl
  used := by rw [others_eq_self h]; rfl

/-- A transaction ends the same way where it is the only one. -/
theorem Sees.ends (hd : Sees i s d) (ha : Acts i s op x s') (h : op.Ends) :
    Acts i d op x s'.committed := by
  obtain ⟨offer, ha, hu⟩ := (acts_of_not_insert (.inr h)).mp ha
  have hx : (act offer i s.db op).1 = x := congrArg Prod.fst ha
  have hdb : (act offer i s.db op).2 = s'.db := congrArg Prod.snd ha
  obtain ⟨hans, hrows⟩ := act_ends_congr offer offer h hd.rows hd.inserted
  have hpending : s'.db.pending = others i s.db.pending := by rw [← hdb, (act_ends h).1]
  refine (acts_of_not_insert (.inr h)).mpr ⟨offer, Prod.ext (hans.trans hx) ?_, ?_⟩
  · refine Store.ext ?_ ?_
    · rw [hrows, hdb]
      rfl
    · rw [(act_ends h).1, hd.alone]
      rfl
  · rw [hd.used, ← hpending, ← hu]
    rfl

theorem acts_rollback (hown : own i s.db.pending = []) (x : Unit) :
    Acts i s .rollback x s' ↔ s' = s := by
  have he : DbOp.rollback.Ends := trivial
  rw [acts_of_not_insert (.inr he)]
  constructor
  · rintro ⟨offer, ha, hu⟩
    rw [(act_ends_empty offer hown).1] at ha
    exact Server.ext (Prod.mk.inj ha).2.symm hu
  · rintro rfl
    exact ⟨0, (act_ends_empty 0 hown).1, rfl⟩

theorem acts_commit_nil (hown : own i s.db.pending = []) {x : Except Throwable Unit} :
    Acts i s (.commit []) x s' ↔ x = .ok () ∧ s' = s := by
  have he : (DbOp.commit []).Ends := trivial
  rw [acts_of_not_insert (.inr he)]
  constructor
  · rintro ⟨offer, ha, hu⟩
    rw [(act_ends_empty offer hown).2] at ha
    obtain ⟨hx, hdb⟩ := Prod.mk.inj ha
    exact ⟨hx.symm, Server.ext hdb.symm hu⟩
  · rintro ⟨rfl, rfl⟩
    exact ⟨0, (act_ends_empty 0 hown).2, rfl⟩

/-- An update that writes what the row holds is an empty flush. -/
theorem Acts.commit_same {id : Integer} {n : NameColumn} {x : Except Throwable Unit}
    (ha : Acts i s (.commit [(id, some n.val)]) x s') (hrow : s.db.rows.lookup id = some n)
    (hown : own i s.db.pending = []) : Acts i s (.commit []) x s' := by
  obtain ⟨offer, hnew, ha, hu⟩ := ha
  exact ⟨offer, hnew, (act_commit_same hrow hown).symm.trans ha, hu⟩

theorem Acts.insert_cases {name : Option JString} {x : Except Throwable Integer}
    (ha : Acts i s (.insert name) x s') :
    (∃ ex, x = .error ex ∧ own i s'.db.pending = own i s.db.pending ∧
      Acts i s.committed (.insert name) x s'.committed) ∨
    ∃ k n, x = .ok k ∧ name = some n.val ∧
      own i s'.db.pending = ⟨k, n⟩ :: own i s.db.pending ∧ s'.committed = s.committed := by
  obtain ⟨offer, hnew, ha, hu⟩ := ha
  have hoffer : offer ∉ s.used := hnew offer rfl
  have hunused : s.db.Unused offer :=
    ⟨fun h => hoffer (s.rows_used offer h), fun h => hoffer (s.pending_used offer h)⟩
  cases hn : toColumn name with
  | error ex =>
    rw [act_insert_refused offer i s.db hn] at ha
    obtain ⟨hx, hdb⟩ := Prod.mk.inj ha
    refine .inl ⟨ex, hx.symm, by rw [hdb], offer, ?_, ?_, ?_⟩
    · rintro k rfl hk
      exact hoffer hk.1
    · rw [act_insert_refused offer i s.committed.db hn]
      refine Prod.ext hx ?_
      simp only [Server.committed, hdb]
    · ext k
      simp only [Server.committed, ← hdb, hu]
      by_cases hk : k = offer
      · subst hk
        simp [DbOp.takes, hunused.2]
      · simp [DbOp.takes, hk]
  | ok n =>
    rw [act_insert_ok offer i s.db hn hunused] at ha
    obtain ⟨hx, hdb⟩ := Prod.mk.inj ha
    refine .inr ⟨offer, n, hx.symm, toColumn_ok hn, ?_, ?_⟩
    · rw [← hdb]
      exact (own_insert hunused.2).trans (if_pos rfl)
    · refine Server.ext ?_ ?_
      · simp only [Server.committed, ← hdb]
        rfl
      · ext k
        simp only [Server.committed, ← hdb, hu, Store.insert, AList.mem_insert]
        by_cases hk : k = offer
        · subst hk
          simp [hoffer]
        · simp [DbOp.takes, hk]

/-- An insert made when its transaction ends, from the committed rows. -/
theorem sees_insert {k : Integer} {n : NameColumn} (hown : own i s.db.pending = [⟨k, n⟩]) :
    ∃ d, Acts i s.committed (.insert (some n.val)) (.ok k) d ∧ Sees i s d := by
  have hmem : (⟨k, n⟩ : Σ _ : Integer, NameColumn) ∈ own i s.db.pending := by rw [hown]; simp
  have hk : k ∈ s.db.pending := mem_of_lookup (mem_own.mp hmem)
  have hu : s.committed.db.Unused k := ⟨s.db.disjoint k hk, AList.notMem_empty k⟩
  let d : Server ι :=
    { db := s.committed.db.insert i k n hu
      used := s.committed.used ∪ {k}
      rows_used := fun j hj => .inl (s.committed.rows_used j hj)
      pending_used := by
        intro j hj
        obtain rfl | hj := (AList.mem_insert _).mp hj
        · exact .inr rfl
        · exact absurd hj (AList.notMem_empty j) }
  refine ⟨d, ⟨k, ?_, act_insert_ok k i s.committed.db (toColumn_val n) hu, rfl⟩, rfl, ?_, ?_, ?_⟩
  · rintro j rfl hj
    exact hj.2 hk
  · rw [hown]
    exact (own_insert hu.2).trans (if_pos rfl)
  · exact others_insert_self
  · ext j
    simp only [d, Server.committed, Set.mem_union, Set.mem_ofPred_eq, Set.mem_singleton_iff,
      mem_others_iff, hown, List.mem_singleton]
    by_cases hj : j = k
    · subst hj
      simp [s.pending_used j hk]
    · simp [hj]

end Operations

/-- What is answered once the commit has gone through or failed. -/
def commitReply (r : Response) : Except Throwable Unit → Response
  | .ok () => r
  | .error ex => ex.toResponse

section Finish
variable {env : Env} {i : ι} {s : Server ι}

/-- A unit of work ends with one operation, chosen by the outcome of its handler. -/
theorem finish_cases (env : Env) (x : Except Throwable Response) :
    (∃ r, ∀ session, finish env (x, session) = .call .rollback fun _ => .done r) ∨
      ∃ r, x = .ok r ∧ ∀ session,
        finish env (x, session) =
          .call (.commit session.updates) fun z => .done (commitReply r z) := by
  cases x with
  | error ex => exact .inl ⟨ex.toResponse, fun _ => rfl⟩
  | ok r =>
    cases hf : env.fails .flush with
    | true =>
      refine .inl ⟨.serverError, fun session => ?_⟩
      simp only [finish, hf, if_true]
      rfl
    | false =>
      refine .inr ⟨r, rfl, fun session => ?_⟩
      simp only [finish, hf, Bool.false_eq_true, if_false, perform_bind]
      refine congrArg (Prog.call (DbOp.commit session.updates)) (funext fun z => ?_)
      rcases z with ex | _ <;> rfl

theorem finish_ends (env : Env) (y : Except Throwable Response × Session) :
    ∃ (op : DbOp) (g : op.Answer → Response), op.Ends ∧ finish env y = .call op fun z => .done (g z) := by
  obtain ⟨x, session⟩ := y
  obtain ⟨r, h⟩ | ⟨r, -, h⟩ := finish_cases env x
  · exact ⟨.rollback, fun _ => r, trivial, h session⟩
  · exact ⟨.commit session.updates, commitReply r, trivial, h session⟩

/-- Once nothing is left to write, the answer is fixed and the table stays. -/
theorem finish_quiet (env : Env) (i : ι) {y : Except Throwable Response × Session} (hq : Quiet y) :
    ∃ a, ∀ s : Server ι, own i s.db.pending = [] →
      Alone (Acts i) (finish env y) s a s ∧
        Settled Acts Server.committed Relies i a (finish env y) s := by
  obtain ⟨x, session⟩ := y
  obtain ⟨r, h⟩ | ⟨r, hx, h⟩ := finish_cases env x
  · refine ⟨r, fun s hown => ?_⟩
    rw [h session]
    refine ⟨.call ((acts_rollback hown ()).mpr rfl) (.done _ _), ?_⟩
    intro s' x s'' hr ha
    obtain rfl := (acts_rollback (hr.2.trans hown) x).mp ha
    exact ⟨rfl, rfl⟩
  · refine ⟨r, fun s hown => ?_⟩
    rw [h session, hq r hx]
    refine ⟨.call ((acts_commit_nil hown).mpr ⟨rfl, rfl⟩) (.done _ _), ?_⟩
    intro s' x s'' hr ha
    obtain ⟨rfl, rfl⟩ := (acts_commit_nil (hr.2.trans hown)).mp ha
    exact ⟨rfl, rfl⟩

end Finish

section Ready
variable {env : Env} {i : ι} {s : Server ι} {m : ι → DbProg Response}

/-- Served alone by the program `m` gives it. -/
abbrev Serves (m : ι → DbProg Response) (i : ι) : Server ι → Response → Server ι → Prop :=
  Alone (Acts i) (m i)

/-- A request that takes effect at the end of its transaction. -/
theorem ready_finish {y : Except Throwable Response × Session}
    (hd : ∀ s', Relies i s s' → ∃ d, Sees i s' d ∧
      ∀ a s'', Alone (Acts i) (finish env y) d a s'' → Serves m i s'.committed a s'') :
    Ready Acts Server.committed Relies (Serves m) i (finish env y) s := by
  obtain ⟨op, g, hop, hf⟩ := finish_ends env y
  rw [hf] at hd ⊢
  intro s' x s'' hr ha
  obtain ⟨d, hsees, hserves⟩ := hd s' hr
  exact .inl ⟨g x, hserves _ _ (.call (hsees.ends ha hop) (.done _ _)), rfl⟩

/-- An answer settled by what was read. -/
theorem serves_read {op : DbOp} {f : op.Answer → Except Throwable Response × Session}
    {x : op.Answer} (hm : m i = .call op fun x => finish env (f x)) (hop : op.Reads)
    (hq : Quiet (f x)) (ha : Acts i s op x s) (hown : own i s.db.pending = []) :
    ∃ a, Serves m i s.committed a s.committed ∧
      Settled Acts Server.committed Relies i a (finish env (f x)) s := by
  obtain ⟨a, h⟩ := finish_quiet env i hq
  refine ⟨a, ?_, (h s hown).2⟩
  rw [Serves, hm]
  exact .call (ha.reads_committed hop) (h s.committed rfl).1

theorem ready_read {op : DbOp} {f : op.Answer → Except Throwable Response × Session}
    (hm : m i = .call op fun x => finish env (f x)) (hop : op.Reads) (hq : ∀ x, Quiet (f x))
    (hown : own i s.db.pending = []) :
    Ready Acts Server.committed Relies (Serves m) i (m i) s := by
  rw [hm]
  intro s' x s'' hr ha
  obtain rfl := ha.reads hop
  exact .inl (serves_read hm hop (hq x) ha (hr.2.trans hown))

section Rename
variable {id : Integer} {name : JString} {x : Except Throwable Response}
  {f : Option NameColumn → Except Throwable Response × Session}
  (hm : m i = .call (.select id) fun n => finish env (f n))
  (hx : ∀ n, (f (some n)).1 = x)
  (hu : ∀ n, (f (some n)).2.updates = if name = n.val then [] else [(id, some name)])
include hm hx hu

/-- A rename takes effect at its commit. By then the row may hold another name than the
one loaded, even the new one, which a request served alone would not write again. -/
theorem ready_renamed {n : NameColumn} (hn : name ≠ n.val) (hid : id ∈ s.db.rows)
    (hown : own i s.db.pending = []) :
    Ready Acts Server.committed Relies (Serves m) i (finish env (f (some n))) s := by
  have hf (n : NameColumn) : f (some n) = (x, (f (some n)).2) := Prod.ext (hx n) rfl
  have hserves {s₁ s₂ : Server ι} {a : Response} {n₁ : NameColumn}
      (hrow : s₁.db.rows.lookup id = some n₁)
      (h : Alone (Acts i) (finish env (f (some n₁))) s₁.committed a s₂) :
      Serves m i s₁.committed a s₂ := by
    rw [Serves, hm]
    exact .call (acts_select.mpr ⟨hrow.symm, rfl⟩) h
  obtain ⟨r, h⟩ | ⟨r, -, h⟩ := finish_cases env x
  · rw [hf, h]
    intro s₁ z s₂ hr ha
    obtain ⟨n₁, hrow⟩ := exists_lookup (hr.1 id hid)
    have hend := (sees_committed (hr.2.trans hown)).ends ha trivial
    refine .inl ⟨r, hserves hrow ?_, rfl⟩
    rw [hf, h]
    exact .call hend (.done _ _)
  · rw [hf, h, hu, if_neg hn]
    intro s₁ z s₂ hr ha
    obtain ⟨n₁, hrow⟩ := exists_lookup (hr.1 id hid)
    have hend := (sees_committed (hr.2.trans hown)).ends ha trivial
    refine .inl ⟨commitReply r z, hserves hrow ?_, rfl⟩
    rw [hf, h, hu]
    by_cases hn₁ : name = n₁.val
    · rw [if_pos hn₁]
      rw [hn₁] at hend
      exact .call (hend.commit_same hrow rfl) (.done _ _)
    · rw [if_neg hn₁]
      exact .call hend (.done _ _)

theorem ready_rename (hq : Quiet (f none)) (hown : own i s.db.pending = []) :
    Ready Acts Server.committed Relies (Serves m) i (m i) s := by
  rw [hm]
  intro s' z s'' hr ha
  have hown' : own i s'.db.pending = [] := hr.2.trans hown
  obtain ⟨hz, rfl⟩ := acts_select.mp ha
  cases z with
  | none => exact .inl (serves_read hm trivial hq ha hown')
  | some n =>
    by_cases hn : name = n.val
    · have hqn : Quiet (f (some n)) := fun _ _ => (hu n).trans (if_pos hn)
      exact .inl (serves_read hm trivial hqn ha hown')
    · exact .inr ⟨rfl, ready_renamed hm hx hu hn (mem_of_lookup hz.symm) hown'⟩

end Rename

/-- A refused insert takes effect at once, an accepted one when its transaction ends. -/
theorem ready_insert {name : JString}
    {f : Except Throwable Integer → Except Throwable Response × Session}
    (hm : m i = .call (.insert (some name)) fun id => finish env (f id))
    (hu : ∀ id, (f id).2.updates = []) (hown : own i s.db.pending = []) :
    Ready Acts Server.committed Relies (Serves m) i (m i) s := by
  rw [hm]
  intro s' x s'' hr ha
  have hown' : own i s'.db.pending = [] := hr.2.trans hown
  obtain ⟨ex, rfl, hkeep, hc⟩ | ⟨k, n, rfl, hname, hnew, hc⟩ := ha.insert_cases
  · obtain ⟨a, h⟩ := finish_quiet env i (fun _ _ => hu (.error ex))
    refine .inl ⟨a, ?_, (h s'' (hkeep.trans hown')).2⟩
    rw [Serves, hm]
    exact .call hc (h s''.committed rfl).1
  · refine .inr ⟨hc, ready_finish fun s₁ hr₁ => ?_⟩
    have hown₁ : own i s₁.db.pending = [⟨k, n⟩] := by rw [hr₁.2, hnew, hown']
    obtain ⟨d, hi, hd⟩ := sees_insert hown₁
    refine ⟨d, hd, fun a s₂ h => ?_⟩
    rw [Serves, hm]
    cases hname
    exact .call hi h

/-- Every handler is ready from the start. -/
theorem ready_shape {h : DbProg (Except Throwable Response × Session)} (hs : Shape h)
    (hm : m i = h >>= finish env) (hown : own i s.db.pending = []) :
    Ready Acts Server.committed Relies (Serves m) i (m i) s := by
  cases hs with
  | none y =>
    have hm' : m i = finish env y := hm
    rw [hm']
    refine ready_finish fun s' hr => ⟨s'.committed, sees_committed (hr.2.trans hown), ?_⟩
    intro a s'' ha
    rwa [Serves, hm']
  | readAll hq => exact ready_read hm trivial hq hown
  | readOne id hq => exact ready_read hm trivial hq hown
  | rename id name hq hx hu => exact ready_rename hm hx hu hq hown
  | insert name hu => exact ready_insert hm hu hown

theorem ready_program (p : Platform) (tasks : ι → Task) (h : s.db.pending = ∅) (i : ι) :
    Ready Acts Server.committed Relies (Serves fun i => (tasks i).program p) i
      ((tasks i).program p) s := by
  have hown : own i s.db.pending = [] := by rw [h]; rfl
  exact ready_shape (m := fun i => (tasks i).program p) (dispatch_shape p (tasks i).request) rfl
    hown

end Ready

/-- Requests in any interleaving answer and change the table as some serial order of
them does, in which no request comes before one that had ended when it began. -/
theorem requests_linearizable (p : Platform) (tasks : ι → Task) {s : Server ι}
    {ls : List (Label ι Response)} {c : Config ι (Server ι) DbOp DbOp.Answer Response}
    (hstart : s.db.pending = ∅)
    (hrun : Run Acts (fun i => (tasks i).program p) (.start s) ls c)
    (hdone : ∀ i m, c.thread i ≠ .running m) :
    ∃ (order : List (ι × Response)) (s' : Server ι), (order.map Prod.fst).Nodup ∧
      (∀ i, i ∈ order.map Prod.fst ↔ .invoke i ∈ ls) ∧
      (∀ i a, (i, a) ∈ order ↔ .respond i a ∈ ls) ∧
      (∀ i j, Precedes ls i j → [i, j].Sublist (order.map Prod.fst)) ∧
      Serial (Serves fun i => (tasks i).program p) s order s' ∧
      s'.db.rows = c.shared.db.rows := by
  obtain ⟨order, hnodup, hresponded, hinvoked, hprecedes, hserial⟩ :=
    linearizable interference (ready_program p tasks hstart) hrun hdone
  rw [committed_eq_self hstart] at hserial
  exact ⟨order, _, hnodup, hinvoked, hresponded, hprecedes, hserial, rfl⟩

section Race

def rowOne (c : Char) : NameColumn := ⟨[c], by simp [javaLength]; split <;> omega⟩

/-- Row 1 under a name of one letter. -/
def raceServer (c : Char) : Server Bool where
  db := .idle ((∅ : Table).insert 1 (rowOne c))
  used := {1}
  rows_used k hk := by simpa using (AList.mem_insert (∅ : Table)).mp hk
  pending_used k hk := absurd hk (AList.notMem_empty k)

/-- A form post and a JSON put that both rename row 1. -/
def raceTask : Bool → Task
  | false => ⟨asAdmin (.save (some ['1']) (some ['b'])), fun _ => false⟩
  | true => ⟨asAdmin (.saveJson ⟨['1'], by decide⟩ (.parsed (some ⟨some 1, some ['c']⟩))),
      fun _ => false⟩

abbrev raceProgram (i : Bool) : DbProg Response := (raceTask i).program configured

theorem race_commit (i : Bool) (c d : Char) :
    Acts i (raceServer c) (.commit [(1, some [d])]) (.ok ()) (raceServer d) := by
  have he : (DbOp.commit [(1, some [d])]).Ends := trivial
  have hc : committedRows i (raceServer c).db [(1, some [d])] = .ok (raceServer d).db.rows := by
    have hn : toColumn (some [d]) = .ok (rowOne d) := toColumn_val (rowOne d)
    simp only [committedRows, toColumns, hn]
    rfl
  obtain ⟨hx, hrows, hpending⟩ := act_commit_ok 0 i (raceServer c).db hc
  exact (acts_of_not_insert (.inr he)).mpr ⟨0, Prod.ext hx (Store.ext hrows hpending), rfl⟩

/-- The put commits between the load and the commit of the post. -/
theorem race_run : ∃ cut c,
    Run Acts raceProgram (.start (raceServer 'a'))
      ([] ++ [.invoke false] ++ [.act false] ++ [.invoke true] ++ [.act true] ++
        [.respond true (.ok .empty)]) cut ∧ cut.shared = raceServer 'c' ∧
    Run Acts raceProgram (.start (raceServer 'a'))
      ([] ++ [.invoke false] ++ [.act false] ++ [.invoke true] ++ [.act true] ++
        [.respond true (.ok .empty)] ++ [.act false] ++
        [.respond false (.seeOther "/categories")]) c ∧
    (∀ i m, c.thread i ≠ .running m) ∧ c.shared = raceServer 'b' := by
  have hload : Acts false (raceServer 'a') (.select 1) (some (rowOne 'a')) (raceServer 'a') :=
    acts_select.mpr ⟨rfl, rfl⟩
  have h0 : Run Acts raceProgram (.start (raceServer 'a')) [] (.start (raceServer 'a')) := .nil
  have h1 := h0.snoc (.invoke (i := false) rfl)
  have h2 := h1.snoc (.act (by rfl) hload)
  have h3 := h2.snoc (.invoke (i := true) rfl)
  have h4 := h3.snoc (.act (by rfl) (race_commit true 'a' 'c'))
  have h5 := h4.snoc (.respond (i := true) (by rfl))
  have h6 := h5.snoc (.act (by rfl) (race_commit false 'c' 'b'))
  have h7 := h6.snoc (.respond (i := false) (by rfl))
  refine ⟨_, _, h5, rfl, h7, ?_, rfl⟩
  intro i m h
  cases i <;> cases h

theorem requests_linearizable_race :
    ∃ (order : List (Bool × Response)) (s' : Server Bool),
      (false, .seeOther "/categories") ∈ order ∧ (true, .ok .empty) ∈ order ∧
      Serial (Serves raceProgram) (raceServer 'a') order s' ∧
      s'.db.rows = (raceServer 'b').db.rows := by
  obtain ⟨-, c, -, -, hrun, hdone, hshared⟩ := race_run
  obtain ⟨order, s', -, -, hresponded, -, hserial, hrows⟩ :=
    requests_linearizable configured raceTask rfl hrun hdone
  refine ⟨order, s', (hresponded _ _).mpr (by simp), (hresponded _ _).mpr (by simp), hserial, ?_⟩
  rw [hrows, hshared]

end Race
end CategoryService
