import CategoryService.Changes

/-! The names a table can come to hold: which requests leave one empty, and when
`CategoryDAO.findByName` can be answered. -/
namespace CategoryService
open Interaction KeyedStore Register
variable {p : Platform} {t : Table} {e : Event}

/-- Every category of the table is what `@NotEmpty` demands of a transfer object. -/
def NamesValid (t : Table) : Prop := ∀ c ∈ entities t, (CategoryDTO.ofCategory c).Valid

instance (t : Table) : Decidable (NamesValid t) :=
  inferInstanceAs (Decidable (∀ c ∈ entities t, _))

theorem namesValid_iff : NamesValid t ↔ Holds (fun n : NameColumn => n.val ≠ []) t.lookup := by
  constructor
  · intro h id n hl
    have hv := (h _ (mem_entities.mpr ⟨id, n, hl, rfl⟩)).2
    simpa [CategoryDTO.ofCategory, loadedEntity] using hv
  · intro h c hc
    obtain ⟨id, n, hl, rfl⟩ := mem_entities.mp hc
    have hn := h id n hl
    simp [CategoryDTO.Valid, CategoryDTO.ofCategory, loadedEntity, hn]

/-- A form post or JSON update with an empty name, which no `@Valid` looks at, that
has a row to go to. -/
def Event.UncheckedEmptyName (p : Platform) (t : Table) (e : Event) : Prop :=
  e.request.Authentic p ∧ match e.request.call with
    | .save id name => ∃ i, formParam p id = .ok i ∧ name = some [] ∧
        Lands t e.env.offer i ∧ e.env.Commits ⟨i, name⟩ e.request.call
    | .saveJson id categoryDto => ∃ i dto, pathParam p id = .ok i ∧
        categoryDto = .parsed (some dto) ∧ dto.name = some [] ∧
        Lands t e.env.offer dto.id ∧ e.env.Commits ⟨dto.id, dto.name⟩ e.request.call
    | _ => False

def emptyName : NameColumn := ⟨[], by decide⟩

/-- What the create handlers submit has passed `@Valid`. -/
theorem validEntity_submitted {category : JsonBody} {c : Category}
    (h : ((validEntity p category).toOption.join.map fun dto => Category.mk dto.id dto.name) =
      some c) : c.name ≠ some [] := by
  obtain ⟨dto, hv, rfl⟩ := Option.map_eq_some_iff.mp h
  rw [toOption_join_eq_some] at hv
  obtain ⟨-, ⟨hd, -⟩ | ⟨d, hd, hvalid⟩⟩ := validEntity_ok hv
  · cases hd
  · cases hd
    exact hvalid.2

theorem uncheckedEmptyName_iff :
    e.UncheckedEmptyName p t ↔ ∃ k n, e.Writes p t k n ∧ n.val = [] := by
  obtain ⟨⟨credentials, call⟩, env⟩ := e
  constructor
  · rintro ⟨ha, h⟩
    cases call with
    | save id name =>
      obtain ⟨i, hi, hn, hl, hc⟩ := h
      exact ⟨_, emptyName, ⟨ha, _, submitted_save hi name, hn, rfl, hl, hc⟩, rfl⟩
    | saveJson id body =>
      obtain ⟨i, dto, hi, rfl, hn, hl, hc⟩ := h
      exact ⟨_, emptyName, ⟨ha, _, submitted_saveJson hi dto, hn, rfl, hl, hc⟩, rfl⟩
    | listCategories | listCategoriesJson | newCategory => exact h.elim
    | viewCategory id | viewCategoryJson id => exact h.elim
    | createCategory body | createCategoryJson body => exact h.elim
  · rintro ⟨k, n, ⟨ha, c, hs, hn, hk, hl, hc⟩, he⟩
    rw [he] at hn
    refine ⟨ha, ?_⟩
    cases call with
    | save id name =>
      obtain ⟨i, hi, rfl⟩ := Option.map_eq_some_iff.mp hs
      exact ⟨i, toOption_eq_some.mp hi, hn, hl, hc⟩
    | saveJson id body =>
      obtain ⟨i, hi, hm⟩ := Option.bind_eq_some_iff.mp hs
      obtain ⟨dto, hb, rfl⟩ := Option.map_eq_some_iff.mp hm
      have hbody := jsonEntity_ok (toOption_join_eq_some.mp hb)
      exact ⟨i, dto, toOption_eq_some.mp hi, hbody, hn, hl, hc⟩
    | createCategory body | createCategoryJson body => exact absurd hn (validEntity_submitted hs)
    | listCategories | listCategoriesJson | newCategory => cases hs
    | viewCategory id | viewCategoryJson id => cases hs

theorem namesValid_serve (ht : NamesValid t) :
    NamesValid (serve p t e).2 ↔ ¬ e.UncheckedEmptyName p t := by
  rw [namesValid_iff] at ht ⊢
  rw [lookup_serve, holds_apply_iff ht, uncheckedEmptyName_iff]
  simp only [change_written, not_exists, not_and]

/-- A run keeps every name valid exactly as long as no form post or JSON update with
an empty name gets through. -/
theorem names_valid_iff (p : Platform) (es : List Event) :
    (∀ t ∈ EventMachine.reached (serve p) ∅ es, NamesValid t) ↔
      EventMachine.StepsMeet (serve p) (fun t e => ¬ e.UncheckedEmptyName p t) ∅ es :=
  EventMachine.reached_iff_of_step (serve p) (fun _ _ => namesValid_serve)
    (fun _ h => absurd h List.not_mem_nil) es

/-- A form post without an id and with an empty name. -/
theorem names_valid_fails :
    ¬ ∀ es : List Event, (∀ e ∈ es, e.request.Authentic configured) →
      ∀ t ∈ EventMachine.reached (serve configured) ∅ es, NamesValid t := by
  intro h
  have hall := h [⟨asAdmin (.save none (some [])), .calm 1⟩] (by decide)
  have hlast := hall _ (EventMachine.final_mem_reached (serve configured) _ _)
  exact absurd hlast (by decide)

/-- `CategoryDAO.findByName` in a transaction of its own. -/
def findByNameAlone (t : Table) (name : JString) : Except Throwable (Option Category) :=
  (((CategoryDAO.findByName (.calm 0) name).eval .new).run (act 0 ()) (Store.idle t)).1.1

/-- The entities a query by name brings up. -/
def named (t : Table) (name : JString) : List Category :=
  (t.entries.filter fun e => e.2.val = name).map fun e => loadedEntity e.1 e.2

theorem mem_named {name : JString} {c : Category} :
    c ∈ named t name ↔ c ∈ entities t ∧ c.name = some name := by
  rw [mem_entities]
  simp only [named, List.mem_map, List.mem_filter, decide_eq_true_eq]
  constructor
  · rintro ⟨row, ⟨hmem, hn⟩, hc⟩
    exact ⟨⟨row.1, row.2, mem_entries_iff.mp hmem, hc⟩, by rw [← hc, loadedEntity, hn]⟩
  · rintro ⟨⟨id, n, hl, hc⟩, hn⟩
    refine ⟨⟨id, n⟩, ⟨mem_entries_iff.mpr hl, ?_⟩, hc⟩
    simpa [← hc, loadedEntity] using hn

theorem findByName_eq (t : Table) (name : JString) :
    findByNameAlone t name =
      match named t name with
      | [] => .ok none
      | c :: cs => if cs.all fun d => d = c then .ok (some c) else .error .nonUniqueResult := by
  have h : findByNameAlone t name =
      (((uniqueResult (named t name)).eval _).run (act 0 ()) (Store.idle t)).1.1 := rfl
  rw [h, eval_uniqueResult]
  rfl

/-- `findByName` answers with the one category of the name, or with absent where there is none. -/
def FindsByName (t : Table) : Prop := ∀ name, match findByNameAlone t name with
  | .ok (some c) => c ∈ named t name ∧ ∀ d ∈ named t name, d = c
  | .ok none => named t name = []
  | .error _ => False

/-- The lookup rests on a uniqueness of names, and on nothing else. -/
theorem findsByName_iff : FindsByName t ↔ Distinct t.lookup := by
  constructor
  · intro h j k n hj hk
    have hin (i : Integer) (hi : t.lookup i = some n) : loadedEntity i n ∈ named t n.val :=
      mem_named.mpr ⟨mem_entities.mpr ⟨i, n, hi, rfl⟩, rfl⟩
    have hn := h n.val
    cases hf : findByNameAlone t n.val with
    | error ex => simp [hf] at hn
    | ok found =>
      cases found with
      | none =>
        have hempty : named t n.val = [] := by simpa [hf] using hn
        have hjn := hin j hj
        simp [hempty] at hjn
      | some c =>
        simp only [hf] at hn
        have heq := (hn.2 _ (hin j hj)).trans (hn.2 _ (hin k hk)).symm
        simpa [loadedEntity] using heq
  · intro h name
    rw [findByName_eq]
    cases hl : named t name with
    | nil => rfl
    | cons c cs =>
      have hsame : ∀ d ∈ named t name, d = c := by
        intro d hd
        obtain ⟨hd, hdn⟩ := mem_named.mp hd
        obtain ⟨hc, hcn⟩ := mem_named.mp (hl ▸ List.mem_cons_self : c ∈ named t name)
        obtain ⟨j, n, hj, rfl⟩ := mem_entities.mp hd
        obtain ⟨k, m, hk, rfl⟩ := mem_entities.mp hc
        have hnm : n = m := Subtype.ext (by simpa [loadedEntity] using hdn.trans hcn.symm)
        subst hnm
        rw [h j k n hj hk]
      have hall : (cs.all fun d => d = c) = true := by
        simp only [List.all_eq_true, decide_eq_true_eq]
        intro d hd
        exact hsame d (hl ▸ List.mem_cons_of_mem c hd)
      simp only [hall, if_true]
      exact ⟨List.mem_cons_self, hl ▸ hsame⟩

/-- The request commits, under one id, a name that already stands under another. -/
def Event.Duplicates (p : Platform) (t : Table) (e : Event) : Prop :=
  ∃ k n j, e.Writes p t k n ∧ t.lookup j = some n ∧ j ≠ k

theorem distinct_serve (ht : Distinct t.lookup) :
    Distinct (serve p t e).2.lookup ↔ ¬ e.Duplicates p t := by
  have hd := distinct_apply_iff ht (e.change p t)
  rw [← lookup_serve] at hd
  rw [hd]
  simp only [change_written, Event.Duplicates, not_exists, not_and, not_not]
  constructor
  · intro h k n j hw hj
    exact h k n hw j hj
  · intro h k n hw j hj
    exact h k n j hw hj

/-- Along a run names stay unique, and lookups by name answered, exactly as long as
no request writes a name that another row has. -/
theorem findByName_answers_iff (p : Platform) (es : List Event) :
    (∀ t ∈ EventMachine.reached (serve p) ∅ es, FindsByName t ∧ Distinct t.lookup) ↔
      EventMachine.StepsMeet (serve p) (fun t e => ¬ e.Duplicates p t) ∅ es := by
  simp only [findsByName_iff, and_self]
  exact EventMachine.reached_iff_of_step (serve p) (fun _ _ => distinct_serve)
    (fun _ _ _ h => absurd h (by simp)) es

/-- Two form posts without an id and with one name. -/
theorem findByName_answers_fails :
    ¬ ∀ es : List Event, (∀ e ∈ es, e.request.Authentic configured) →
      ∀ t ∈ EventMachine.reached (serve configured) ∅ es,
        FindsByName t ∧ Distinct t.lookup := by
  intro h
  have hall := h [⟨asAdmin (.save none (some ['a'])), .calm 1⟩,
    ⟨asAdmin (.save none (some ['a'])), .calm 2⟩] (by decide)
  have hlast := hall _ (EventMachine.final_mem_reached (serve configured) _ _)
  have hsame := hlast.2 1 2 ⟨['a'], by decide⟩ (by decide) (by decide)
  exact absurd hsame (by decide)

end CategoryService
