import Mathlib.Tactic.Common

/-! Programs whose only effects are calls on a shared object, and their
uninterrupted run against one. Nothing here fixes the operations, the answers or
the object. -/
namespace Interaction
variable {Op : Type} {Ans : Op → Type} {α β σ : Type}

/-- A finite program: either a result, or an operation with what to do for each answer. -/
inductive Prog (Op : Type) (Ans : Op → Type) (α : Type) where
  | done (a : α)
  | call (op : Op) (next : Ans op → Prog Op Ans α)

def Prog.bind (p : Prog Op Ans α) (f : α → Prog Op Ans β) : Prog Op Ans β :=
  match p with
  | .done a => f a
  | .call op next => .call op fun x => (next x).bind f

instance : Monad (Prog Op Ans) where
  pure := .done
  bind := .bind

/-- One operation by itself. -/
def Prog.perform (op : Op) : Prog Op Ans (Ans op) := .call op .done

@[simp] theorem pure_eq_done (a : α) : (pure a : Prog Op Ans α) = .done a := rfl

@[simp] theorem done_bind (a : α) (f : α → Prog Op Ans β) :
    (Prog.done a >>= f) = f a := rfl

@[simp] theorem call_bind (op : Op) (next : Ans op → Prog Op Ans α) (f : α → Prog Op Ans β) :
    (Prog.call op next >>= f) = .call op fun x => next x >>= f := rfl

@[simp] theorem perform_bind (op : Op) (f : Ans op → Prog Op Ans β) :
    (Prog.perform op >>= f) = .call op f := rfl

theorem bind_bind {γ : Type} (p : Prog Op Ans α) (f : α → Prog Op Ans β)
    (g : β → Prog Op Ans γ) : (p >>= f >>= g) = p >>= fun a => f a >>= g := by
  induction p with
  | done a => rfl
  | call op next ih => exact congrArg (Prog.call op) (funext ih)

/-- The run with no other program in between. -/
def Prog.run (act : σ → (op : Op) → Ans op × σ) : Prog Op Ans α → σ → α × σ
  | .done a, s => (a, s)
  | .call op next, s => (next (act s op).1).run act (act s op).2

variable (act : σ → (op : Op) → Ans op × σ)

@[simp] theorem run_done (a : α) (s : σ) :
    (Prog.done a : Prog Op Ans α).run act s = (a, s) := rfl

@[simp] theorem run_call (op : Op) (next : Ans op → Prog Op Ans α) (s : σ) :
    (Prog.call op next).run act s = (next (act s op).1).run act (act s op).2 := rfl

end Interaction
