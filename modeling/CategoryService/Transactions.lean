import Mathlib.Algebra.Order.BigOperators.Group.Finset
import CategoryService.Concurrency
import CategoryService.Library.Progress

/-! What a request does to the database between its first step and its answer, whatever
runs beside it: how often it calls it, and what it leaves there. -/
namespace CategoryService
open Interaction KeyedStore Linearization
variable {ι : Type} [DecidableEq ι] {i : ι} {s s' : Server ι}

/-- A request with that many operations to go; the last one ends its transaction. -/
inductive Stage : Nat → DbProg Response → Prop
  | answered (a : Response) : Stage 0 (.done a)
  | closing {op : DbOp} (h : op.Ends) (g : op.Answer → Response) :
      Stage 1 (.call op fun x => .done (g x))
  | opening {op : DbOp} (h : ¬ op.Ends) {next : op.Answer → DbProg Response}
      (hn : ∀ x, Stage 1 (next x)) : Stage 2 (.call op next)

theorem stage_finish (env : Env) (y : Except Throwable Response × Session) :
    Stage 1 (finish env y) := by
  obtain ⟨op, g, hop, hf⟩ := finish_ends env y
  rw [hf]
  exact .closing hop g

theorem stage_shape {env : Env} {h : DbProg (Except Throwable Response × Session)}
    (hs : Shape h) : ∃ n, Stage n (h >>= finish env) ∧ 1 ≤ n ∧ n ≤ 2 := by
  have hopen (op : DbOp) (hop : ¬ op.Ends) (f : op.Answer → Except Throwable Response × Session) :
      ∃ n, Stage n (.call op fun x => finish env (f x)) ∧ 1 ≤ n ∧ n ≤ 2 :=
    ⟨2, .opening hop fun x => stage_finish env (f x), by omega, by omega⟩
  cases hs with
  | none y => exact ⟨1, stage_finish env y, by omega, by omega⟩
  | readAll hq => exact hopen .selectAll (fun h => h) _
  | readOne id hq => exact hopen (.select id) (fun h => h) _
  | rename id name hq hx hu => exact hopen (.select id) (fun h => h) _
  | insert name hu => exact hopen (.insert (some name)) (fun h => h) _

theorem stage_program (p : Platform) (task : Task) :
    ∃ n, Stage n (task.program p) ∧ 1 ≤ n ∧ n ≤ 2 :=
  stage_shape (dispatch_shape p task.request)

/-- What holds of a request after `k` steps of its own. Only between its insert and the
end of its transaction it has rows that are not committed. -/
def Tidy (i : ι) (k : Nat) : Thread DbOp DbOp.Answer Response → Server ι → Prop
  | .idle, s => k = 0 ∧ own i s.db.pending = []
  | .running m, s => ∃ n, Stage n m ∧ k + n ≤ 3 ∧ (n ≠ 1 → own i s.db.pending = [])
  | .returned _, s => k ≤ 4 ∧ own i s.db.pending = []

theorem Acts.ends_own {op : DbOp} {x : op.Answer} (ha : Acts i s op x s') (h : op.Ends) :
    own i s'.db.pending = [] := by
  obtain ⟨offer, -, ha, -⟩ := ha
  have hdb : s'.db = (act offer i s.db op).2 := (congrArg Prod.snd ha).symm
  rw [hdb, (act_ends h).1, own_others_self]

theorem tidy_rule (p : Platform) (tasks : ι → Task) :
    ThreadRule Acts (fun i => (tasks i).program p) Tidy where
  invoke := by
    rintro i k s ⟨rfl, hown⟩
    obtain ⟨n, hn, h1, h2⟩ := stage_program p (tasks i)
    exact ⟨n, hn, by omega, fun _ => hown⟩
  act := by
    rintro i k op next s x s' ⟨n, hn, hk, -⟩ ha
    cases hn with
    | closing hop g => exact ⟨0, .answered _, by omega, fun _ => ha.ends_own hop⟩
    | opening hop hnext => exact ⟨1, hnext x, by omega, fun h => absurd rfl h⟩
  respond := by
    rintro i k a s ⟨n, hn, hk, hown⟩
    cases hn with
    | answered => exact ⟨by omega, hown (by omega)⟩
  others := by
    intro i j k th s op x s' hij h ha
    have hown : own i s'.db.pending = own i s.db.pending :=
      (interference.others i j s op x s' hij ha).2
    cases th with
    | idle => exact ⟨h.1, hown.trans h.2⟩
    | running m =>
      obtain ⟨n, hn, hk, hrest⟩ := h
      exact ⟨n, hn, hk, fun hne => hown.trans (hrest hne)⟩
    | returned a => exact ⟨h.1, hown.trans h.2⟩

theorem pending_of_own (h : ∀ i, own i s.db.pending = []) : s.db.pending = ∅ := by
  apply AList.ext
  refine List.eq_nil_iff_forall_not_mem.mpr ?_
  rintro ⟨k, i, n⟩ hmem
  have hk : (⟨k, n⟩ : Σ _ : Integer, NameColumn) ∈ own i s.db.pending :=
    mem_own.mpr (mem_entries_iff.mp hmem)
  rw [h i] at hk
  cases hk

section Runs
variable (p : Platform) (tasks : ι → Task) {ls : List (Label ι Response)}
  {c : Config ι (Server ι) DbOp DbOp.Answer Response} (hstart : s.db.pending = ∅)
  (hrun : Run Acts (fun i => (tasks i).program p) (.start s) ls c)
include hstart hrun

theorem tidy_run (i : ι) : Tidy i (stepsOf i ls) (c.thread i) c.shared := by
  refine (tidy_rule p tasks).run (fun i => ⟨rfl, ?_⟩) hrun i
  rw [hstart]
  rfl

theorem stepsOf_le (i : ι) : stepsOf i ls ≤ 4 := by
  have hi := tidy_run p tasks hstart hrun i
  cases hth : c.thread i with
  | idle =>
    rw [hth] at hi
    exact hi.1.le.trans (by omega)
  | running m =>
    rw [hth] at hi
    obtain ⟨n, -, hn, -⟩ := hi
    omega
  | returned a =>
    rw [hth] at hi
    exact hi.1

/-- Finitely many requests come to an end in every interleaving. -/
theorem length_le [Fintype ι] : ls.length ≤ 4 * Fintype.card ι := by
  rw [length_eq_sum_stepsOf]
  calc ∑ i, stepsOf i ls ≤ ∑ _ : ι, 4 :=
        Finset.sum_le_sum fun i _ => stepsOf_le p tasks hstart hrun i
    _ = 4 * Fintype.card ι := by rw [Finset.sum_const, Finset.card_univ, Nat.nsmul_eq_mul,
        Nat.mul_comm]

/-- Every transaction that is begun is ended: in no interleaving does a request call the
database more than twice, keep a row uncommitted once it has answered, or leave anything
behind when all have. -/
theorem transactions_end :
    (∀ i, stepsOf i ls ≤ 4) ∧
    (∀ i, own i c.shared.db.pending ≠ [] → ∃ m, c.thread i = .running m) ∧
    ((∀ i m, c.thread i ≠ .running m) → c.shared.db.pending = ∅) := by
  have htidy := tidy_run p tasks hstart hrun
  have hrunning (i : ι) (h : own i c.shared.db.pending ≠ []) : ∃ m, c.thread i = .running m := by
    have hi := htidy i
    cases hth : c.thread i with
    | running m => exact ⟨m, rfl⟩
    | idle =>
      rw [hth] at hi
      exact absurd hi.2 h
    | returned a =>
      rw [hth] at hi
      exact absurd hi.2 h
  refine ⟨stepsOf_le p tasks hstart hrun, hrunning, fun hdone => pending_of_own fun i => ?_⟩
  by_contra hne
  obtain ⟨m, hm⟩ := hrunning i hne
  exact hdone i m hm

end Runs

theorem transactions_end_race :
    ∃ c : Config Bool (Server Bool) DbOp DbOp.Answer Response, c.shared = raceServer 'b' ∧
      c.shared.db.pending = ∅ := by
  obtain ⟨-, c, -, -, hrun, hdone, hshared⟩ := race_run
  exact ⟨c, hshared, (transactions_end configured raceTask rfl hrun).2.2 hdone⟩

section Operations

/-- Where the keys of the database after one operation come from. -/
theorem act_rows_from {offer : Integer} {d : Database ι} {op : DbOp} {k : Integer}
    (hk : k ∈ (act offer i d op).2.rows) : k ∈ d.rows ∨ k ∈ d.pending := by
  obtain h | h | ⟨name, rfl⟩ := op.cases
  · rw [act_reads h] at hk
    exact .inl hk
  · cases op with
    | commit updates =>
      cases hc : committedRows i d updates with
      | error ex =>
        rw [act_commit_error offer i d hc] at hk
        exact .inl hk
      | ok t =>
        rw [(act_commit_ok offer i d hc).2.1] at hk
        unfold committedRows at hc
        split at hc
        · cases hc
        · split at hc
          · rename_i us _ t' ht
            cases hc
            obtain ⟨n, hn⟩ | hr := mem_addAll.mp ((mem_updateAll ht k).mp hk)
            · exact .inr (mem_of_lookup (mem_own.mp hn))
            · exact .inl hr
          · cases hc
    | rollback => exact .inl hk
    | _ => cases h
  · obtain ⟨ex, h⟩ | ⟨n, hu, -, h⟩ := act_insert_cases offer i d name
    · rw [h] at hk
      exact .inl hk
    · rw [h] at hk
      exact .inl hk

theorem act_pending_from {offer : Integer} {d : Database ι} {op : DbOp} {k : Integer}
    (hk : k ∈ (act offer i d op).2.pending) : k ∈ d.pending ∨ k ∈ op.takes offer := by
  obtain h | h | ⟨name, rfl⟩ := op.cases
  · rw [act_reads h] at hk
    exact .inl hk
  · rw [(act_ends h).1] at hk
    obtain ⟨u, n, hl, -⟩ := mem_others.mp hk
    exact .inl (mem_of_lookup hl)
  · obtain ⟨ex, h⟩ | ⟨n, hu, -, h⟩ := act_insert_cases offer i d name
    · rw [h] at hk
      exact .inl hk
    · rw [h] at hk
      obtain rfl | hk := (AList.mem_insert _).mp hk
      · exact .inr rfl
      · exact .inl hk

/-- The server after an operation with that id on offer. -/
def Server.after (s : Server ι) (i : ι) (offer : Integer) (op : DbOp) : Server ι where
  db := (act offer i s.db op).2
  used := s.used ∪ op.takes offer
  rows_used k hk := .inl ((act_rows_from hk).elim (s.rows_used k) (s.pending_used k))
  pending_used k hk := (act_pending_from hk).imp_left (s.pending_used k)

/-- The database answers every operation, as long as there is an id for an insert. -/
theorem acts_after (i : ι) (s : Server ι) (offer : Integer) (op : DbOp)
    (hnew : ∀ k ∈ op.takes offer, k ∉ s.used) :
    Acts i s op (act offer i s.db op).1 (s.after i offer op) :=
  ⟨offer, hnew, rfl, rfl⟩

end Operations

end CategoryService
