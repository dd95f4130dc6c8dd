import Mathlib.Logic.Function.Basic
import CategoryService.Library.KeyedStore

/-! A register of values under keys that only grows: entries are added under
unused keys or given another value, never removed. The register itself is a
partial function; `applyRows` is its implementation by a table. -/
namespace Register
open KeyedStore
variable {κ ν : Type} [DecidableEq κ]

/-- What one step may do to a register. -/
inductive Change (κ ν : Type) where
  | keep
  | add (k : κ) (v : ν)
  | set (k : κ) (v : ν)

/-- The entry a change leaves behind. -/
def Change.written : Change κ ν → Option (κ × ν)
  | .keep => none
  | .add k v | .set k v => some (k, v)

/-- An addition needs an unused key, a setting a used one. -/
def Change.Fits (r : κ → Option ν) : Change κ ν → Prop
  | .keep => True
  | .add k _ => r k = none
  | .set k _ => (r k).isSome

def Change.apply (r : κ → Option ν) (c : Change κ ν) : κ → Option ν :=
  match c.written with
  | none => r
  | some (k, v) => Function.update r k (some v)

def Change.applyRows (t : Rows κ ν) : Change κ ν → Rows κ ν
  | .keep => t
  | .add k v => t.insert k v
  | .set k v => t.replace k v

/-- A table keeps the register it stands for through every fitting change. -/
theorem lookup_applyRows {t : Rows κ ν} {c : Change κ ν} (h : c.Fits t.lookup) :
    (fun k => (c.applyRows t).lookup k) = c.apply t.lookup := by
  funext j
  cases c with
  | keep => rfl
  | add k v =>
    by_cases hj : j = k
    · subst hj
      simp [Change.applyRows, Change.apply, Change.written, AList.lookup_insert]
    · simp [Change.applyRows, Change.apply, Change.written, Function.update_of_ne hj,
        AList.lookup_insert_ne hj]
  | set k v =>
    by_cases hj : j = k
    · subst hj
      simp [Change.applyRows, Change.apply, Change.written,
        lookup_replace_self (AList.lookup_isSome.mp h)]
    · simp [Change.applyRows, Change.apply, Change.written, Function.update_of_ne hj,
        lookup_replace_ne hj]

theorem apply_of_ne {r : κ → Option ν} {c : Change κ ν} {j : κ}
    (h : ∀ v, c.written ≠ some (j, v)) : c.apply r j = r j := by
  cases hw : c.written with
  | none => simp [Change.apply, hw]
  | some e =>
    obtain ⟨k, v⟩ := e
    have hj : j ≠ k := by
      rintro rfl
      exact h v hw
    simp [Change.apply, hw, Function.update_of_ne hj]

theorem apply_written {r : κ → Option ν} {c : Change κ ν} {k : κ} {v : ν}
    (h : c.written = some (k, v)) : c.apply r k = some v := by
  simp [Change.apply, h]

/-- Used keys stay used. -/
theorem isSome_apply {r : κ → Option ν} (c : Change κ ν) {j : κ} (h : (r j).isSome) :
    (c.apply r j).isSome := by
  by_cases hw : ∃ v, c.written = some (j, v)
  · obtain ⟨v, hw⟩ := hw
    simp [apply_written hw]
  · rw [apply_of_ne fun v hv => hw ⟨v, hv⟩]
    exact h

/-- Every value of the register satisfies `P`. -/
def Holds (P : ν → Prop) (r : κ → Option ν) : Prop := ∀ k v, r k = some v → P v

theorem holds_apply_iff {P : ν → Prop} {r : κ → Option ν} (hr : Holds P r) (c : Change κ ν) :
    Holds P (c.apply r) ↔ ∀ k v, c.written = some (k, v) → P v := by
  constructor
  · intro h k v hw
    exact h k v (apply_written hw)
  · intro h j w hj
    by_cases hw : ∃ v, c.written = some (j, v)
    · obtain ⟨v, hw⟩ := hw
      rw [apply_written hw] at hj
      cases hj
      exact h j w hw
    · rw [apply_of_ne fun v hv => hw ⟨v, hv⟩] at hj
      exact hr j w hj

/-- No value stands under two keys. -/
def Distinct (r : κ → Option ν) : Prop := ∀ j k v, r j = some v → r k = some v → j = k

theorem distinct_apply_iff {r : κ → Option ν} (hr : Distinct r) (c : Change κ ν) :
    Distinct (c.apply r) ↔ ∀ k v, c.written = some (k, v) → ∀ j, r j = some v → j = k := by
  constructor
  · intro h k v hw j hj
    by_cases he : j = k
    · exact he
    · refine h j k v ?_ (apply_written hw)
      rw [apply_of_ne, hj]
      intro w hw'
      rw [hw] at hw'
      cases hw'
      exact he rfl
  · intro h i j v hi hj
    have old : ∀ k, (∀ w, c.written ≠ some (k, w)) → c.apply r k = some v → r k = some v := by
      intro k hk hv
      rwa [apply_of_ne hk] at hv
    by_cases hwi : ∃ w, c.written = some (i, w)
    · obtain ⟨w, hwi⟩ := hwi
      rw [apply_written hwi] at hi
      cases hi
      by_cases hji : j = i
      · exact hji.symm
      · have hwj : ∀ w, c.written ≠ some (j, w) := by
          intro w hw
          rw [hwi] at hw
          cases hw
          exact hji rfl
        exact (h i v hwi j (old j hwj hj)).symm
    · have hi' := old i (fun w hw => hwi ⟨w, hw⟩) hi
      by_cases hwj : ∃ w, c.written = some (j, w)
      · obtain ⟨w, hwj⟩ := hwj
        rw [apply_written hwj] at hj
        cases hj
        exact h j v hwj i hi'
      · exact hr i j v hi' (old j (fun w hw => hwj ⟨w, hw⟩) hj)

end Register
