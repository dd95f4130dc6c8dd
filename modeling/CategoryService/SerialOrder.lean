import CategoryService.Concurrency

/-! A request served alone on the server is `serve` under some offered id, so what runs of
`serve` keep is kept by concurrent requests too, also by those that are cut off. -/
namespace CategoryService
open Interaction KeyedStore Linearization EventMachine
variable {ι : Type} [DecidableEq ι] {i : ι} {s s' : Server ι}

/-- The same committed rows, and the same rows of one transaction. -/
structure Same (i : ι) (s : Server ι) (d : Database Unit) : Prop where
  rows : s.db.rows = d.rows
  inserted : own i s.db.pending = own () d.pending

theorem same_idle (h : s.db.pending = ∅) : Same i s (.idle s.db.rows) where
  rows := rfl
  inserted := by rw [h]; rfl

theorem finish_same {env env' : Env} {y : Except Throwable Response × Session} {a : Response}
    {d : Database Unit} (h : Alone (Acts i) (finish env y) s a s') (hd : Same i s d) :
    runFrom env' d (finish env y) = (a, s'.db.rows) ∧ s'.db.pending = others i s.db.pending := by
  obtain ⟨op, g, hop, hf⟩ := finish_ends env y
  rw [hf] at h ⊢
  cases h with
  | call ha hn =>
    cases hn
    obtain ⟨offer, ha, -⟩ := (acts_of_not_insert (.inr hop)).mp ha
    obtain ⟨hx, hrows⟩ := act_ends_congr offer env'.offer hop hd.rows hd.inserted
    have hpending : (act offer i s.db op).2.pending = others i s.db.pending := (act_ends hop).1
    rw [ha] at hx hrows hpending
    simp only [runFrom_call, ← hx]
    exact ⟨Prod.ext rfl hrows.symm, hpending⟩

theorem read_same {env env' : Env} {op : DbOp} {a : Response}
    {f : op.Answer → Except Throwable Response × Session} (hop : op.Reads)
    (h : Alone (Acts i) (.call op fun x => finish env (f x)) s a s') (hidle : s.db.pending = ∅) :
    runFrom env' (.idle s.db.rows) (.call op fun x => finish env (f x)) = (a, s'.db.rows) ∧
      s'.db.pending = others i s.db.pending := by
  cases h with
  | call ha hn =>
    cases ha.reads hop
    obtain ⟨offer, ha, -⟩ := (acts_of_not_insert (.inl hop)).mp ha
    have hx : (act offer i s.db op).1 = (act env'.offer () (Store.idle s.db.rows) op).1 :=
      act_reads_congr offer env'.offer hop rfl
    rw [ha] at hx
    rw [runFrom_call, act_reads hop, ← hx]
    exact finish_same hn (same_idle hidle)

theorem insert_same {name : Option JString} {x : Except Throwable Integer}
    (ha : Acts i s (.insert name) x s') (hidle : s.db.pending = ∅) :
    ∃ offer, ∃ d : Database Unit, act offer () (.idle s.db.rows) (.insert name) = (x, d) ∧
      Same i s' d ∧ others i s'.db.pending = ∅ := by
  obtain ⟨offer, hnew, ha, -⟩ := ha
  have hoffer : offer ∉ s.db.rows :=
    fun hk => hnew offer rfl (s.rows_used offer hk)
  have hs : s.db = .idle s.db.rows := Store.ext rfl hidle
  cases hc : toColumn name with
  | error ex =>
    rw [act_insert_refused _ _ _ hc] at ha
    obtain ⟨rfl, hdb⟩ := Prod.mk.inj ha
    refine ⟨offer, _, act_insert_refused _ _ _ hc, ?_, ?_⟩
    · rw [hdb] at hidle ⊢
      exact same_idle hidle
    · rw [← hdb, hidle]
      rfl
  | ok n =>
    have hu : (Store.idle s.db.rows : Database ι).Unused offer :=
      ⟨hoffer, AList.notMem_empty offer⟩
    have hu' : (Store.idle s.db.rows : Database Unit).Unused offer :=
      ⟨hoffer, AList.notMem_empty offer⟩
    rw [hs, act_insert_ok _ _ _ hc hu] at ha
    obtain ⟨rfl, hdb⟩ := Prod.mk.inj ha
    refine ⟨offer, _, act_insert_ok _ _ _ hc hu', ⟨by rw [← hdb]; rfl, ?_⟩, ?_⟩
    · rw [← hdb]
      simp only [Store.insert, Store.idle]
      rw [own_insert (AList.notMem_empty offer), own_insert (AList.notMem_empty offer)]
      simp only [if_true]
      rfl
    · rw [← hdb]
      exact others_insert_self

/-- What a handler does alone on the server is what it does under the id it was given. -/
theorem shape_same {env : Env} {h : DbProg (Except Throwable Response × Session)} {a : Response}
    (hs : Shape h) (ha : Alone (Acts i) (h >>= finish env) s a s') (hidle : s.db.pending = ∅) :
    ∃ offer, ∀ fails, runFrom ⟨offer, fails⟩ (.idle s.db.rows) (h >>= finish env) =
      (a, s'.db.rows) ∧ s'.db.pending = ∅ := by
  have hothers : others i s.db.pending = ∅ := by rw [hidle]; rfl
  cases hs with
  | insert name hu =>
    cases ha with
    | call ha hn =>
      obtain ⟨offer, d, hact, hsame, hempty⟩ := insert_same ha hidle
      refine ⟨offer, fun fails => ?_⟩
      rw [call_bind, runFrom_call, hact, ← hempty]
      exact finish_same hn hsame
  | none y =>
    rw [← hothers]
    exact ⟨0, fun fails => finish_same ha (same_idle hidle)⟩
  | readAll hq =>
    rw [← hothers]
    exact ⟨0, fun fails => read_same trivial ha hidle⟩
  | readOne id hq =>
    rw [← hothers]
    exact ⟨0, fun fails => read_same trivial ha hidle⟩
  | rename id name hq hx hu =>
    rw [← hothers]
    exact ⟨0, fun fails => read_same trivial ha hidle⟩

/-- A request served alone is an event of the machine the other results are about. -/
theorem serves_serve {p : Platform} {task : Task} {a : Response}
    (h : Alone (Acts i) (task.program p) s a s') (hidle : s.db.pending = ∅) :
    ∃ offer, serve p s.db.rows ⟨task.request, ⟨offer, task.fails⟩⟩ = (a, s'.db.rows) ∧
      s'.db.pending = ∅ := by
  obtain ⟨offer, hrun⟩ := shape_same (dispatch_shape p task.request) h hidle
  obtain ⟨hrun, hempty⟩ := hrun task.fails
  refine ⟨offer, ?_, hempty⟩
  rw [serve, runAlone, program_offer]
  exact hrun

/-- A serial order is a run of the service. -/
theorem serial_run {p : Platform} {tasks : ι → Task} {order : List (ι × Response)}
    (h : Serial (Serves fun i => (tasks i).program p) s order s') (hidle : s.db.pending = ∅) :
    ∃ es : List Event,
      (answers (serve p) s.db.rows es).map (fun a => (Task.mk a.1.request a.1.env.fails, a.2)) =
        order.map (fun x => (tasks x.1, x.2)) ∧
      final (serve p) s.db.rows es = s'.db.rows ∧ s'.db.pending = ∅ := by
  induction h with
  | nil => exact ⟨[], rfl, rfl, hidle⟩
  | @snoc _ _ _ j _ _ hs ih =>
    obtain ⟨es, hanswers, hfinal, hempty⟩ := ih
    obtain ⟨offer, hserve, hempty'⟩ := serves_serve hs hempty
    rw [← hfinal] at hserve
    refine ⟨es ++ [⟨(tasks j).request, ⟨offer, (tasks j).fails⟩⟩], ?_, ?_, hempty'⟩
    · simp [answers_append, answers, hanswers, hserve]
    · simp [final_append, final, hserve]

section Runs
variable {p : Platform} {tasks : ι → Task} {ls : List (Label ι Response)}
  {c : Config ι (Server ι) DbOp DbOp.Answer Response} {order : List (ι × Response)}

/-- The same from the committed rows of one server to those of another. -/
theorem serial_committed
    (h : Serial (Serves fun i => (tasks i).program p) s.committed order s'.committed)
    (hidle : s.db.pending = ∅) :
    ∃ es : List Event,
      (answers (serve p) s.db.rows es).map (fun a => (Task.mk a.1.request a.1.env.fails, a.2)) =
        order.map (fun x => (tasks x.1, x.2)) ∧
      final (serve p) s.db.rows es = s'.db.rows := by
  rw [committed_eq_self hidle] at h
  obtain ⟨es, hanswers, hfinal, -⟩ := serial_run h hidle
  exact ⟨es, hanswers, hfinal⟩

/-- A concurrent run as a run of the service, in an order that respects precedence. -/
theorem run_order (hidle : s.db.pending = ∅)
    (hrun : Run Acts (fun i => (tasks i).program p) (.start s) ls c)
    (hdone : ∀ i m, c.thread i ≠ .running m) :
    ∃ (order : List (ι × Response)) (es : List Event), (order.map Prod.fst).Nodup ∧
      (∀ i a, (i, a) ∈ order ↔ .respond i a ∈ ls) ∧
      (∀ i j, Precedes ls i j → [i, j].Sublist (order.map Prod.fst)) ∧
      (answers (serve p) s.db.rows es).map (fun a => (Task.mk a.1.request a.1.env.fails, a.2)) =
        order.map (fun x => (tasks x.1, x.2)) ∧
      final (serve p) s.db.rows es = c.shared.db.rows := by
  obtain ⟨order, hnodup, hresponded, -, hprecedes, hserial⟩ :=
    linearizable interference (ready_program p tasks hidle) hrun hdone
  obtain ⟨es, hanswers, hfinal⟩ := serial_committed hserial hidle
  exact ⟨order, es, hnodup, hresponded, hprecedes, hanswers, hfinal⟩

/-- What a concurrent run has committed, at its end or in the middle of its requests, is a
table some run of requests one after the other leaves. -/
theorem concurrent_reachable (hidle : s.db.pending = ∅) (hr : Reachable p s.db.rows)
    (hrun : Run Acts (fun i => (tasks i).program p) (.start s) ls c) :
    Reachable p c.shared.db.rows := by
  obtain ⟨order, -, -, -, -, hserial⟩ :=
    linearizable_cut interference (ready_program p tasks hidle) hrun
  obtain ⟨es, -, hfinal⟩ := serial_committed hserial hidle
  obtain ⟨es₀, hr⟩ := hr
  refine ⟨es₀ ++ es, ?_⟩
  rw [final_append, hr]
  exact hfinal

/-- A run may be cut off at any moment, with requests in the middle of their work. The
rows committed by then are those of whole requests one after the other: all that have
answered, each with its answer, and some of those that have not. -/
theorem crash_consistent (p : Platform) (tasks : ι → Task) (hidle : s.db.pending = ∅)
    (hrun : Run Acts (fun i => (tasks i).program p) (.start s) ls c) :
    ∃ (order : List (ι × Response)) (es : List Event), (order.map Prod.fst).Nodup ∧
      (∀ i a, .respond i a ∈ ls → (i, a) ∈ order) ∧
      (∀ i ∈ order.map Prod.fst, .invoke i ∈ ls) ∧
      (∀ i j, Precedes ls i j → j ∈ order.map Prod.fst →
        [i, j].Sublist (order.map Prod.fst)) ∧
      (answers (serve p) s.db.rows es).map (fun a => (Task.mk a.1.request a.1.env.fails, a.2)) =
        order.map (fun x => (tasks x.1, x.2)) ∧
      final (serve p) s.db.rows es = c.shared.db.rows := by
  obtain ⟨order, hnodup, hresponded, hinvoked, hprecedes, hserial⟩ :=
    linearizable_cut interference (ready_program p tasks hidle) hrun
  obtain ⟨es, hanswers, hfinal⟩ := serial_committed hserial hidle
  exact ⟨order, es, hnodup, hresponded, hinvoked, hprecedes, hanswers, hfinal⟩

end Runs

/-- Cut off after the answer of the put, while the post has loaded its row and not
committed: the put is there. -/
theorem crash_consistent_race :
    ∃ (order : List (Bool × Response)) (es : List Event), (true, .ok .empty) ∈ order ∧
      (answers (serve configured) (raceServer 'a').db.rows es).map
          (fun a => (Task.mk a.1.request a.1.env.fails, a.2)) =
        order.map (fun x => (raceTask x.1, x.2)) ∧
      (final (serve configured) (raceServer 'a').db.rows es).lookup 1 = some (rowOne 'c') := by
  obtain ⟨c, -, hrun, hshared, -⟩ := race_run
  obtain ⟨order, es, -, hresponded, -, -, hanswers, hfinal⟩ :=
    crash_consistent configured raceTask rfl hrun
  refine ⟨order, es, hresponded true _ (by simp), hanswers, ?_⟩
  rw [hfinal, hshared]
  rfl

end CategoryService
