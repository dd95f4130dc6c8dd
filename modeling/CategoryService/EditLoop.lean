import CategoryService.Creation
import CategoryService.Readers
import CategoryService.Views

/-! The HTML edit loop: a category shown as a form, decoded, changed and submitted. -/
namespace CategoryService
open KeyedStore Register Markup
variable {p : Platform} {t : Table} {user : JString} {offer : Integer} (R : References)

/-- The form of a page that shows `view`. -/
def viewForm (view : CategoryView) : Form :=
  ⟨formTag.attributes, [("id".toList, idField R view), ("name".toList, nameField R view)]⟩

theorem form_of_page {r : Response} {page : List Char} (h : r.page R = some page) :
    r.form R = firstForm (scan .data page).1 := by
  rw [Response.form, h]
  rfl

theorem form_ok_view (view : CategoryView) :
    (Response.ok (.view view)).form R = some (viewForm R view) :=
  (form_of_page R rfl).trans (firstForm_page R view)

theorem fields_viewForm (view : CategoryView) :
    (viewForm R view).fields R =
      [("id".toList, (view.category.id.map Integer.toString).getD []),
        ("name".toList, view.category.name.getD [])] := by
  simp only [viewForm, Form.fields, List.map_cons, List.map_nil, idField, nameField,
    decode_escape]

theorem edit_name (a b new : List Char) :
    edit "name" new [("id".toList, a), ("name".toList, b)] =
      [("id".toList, a), ("name".toList, new)] := by
  have hne : "id".toList ≠ "name".toList := by decide
  simp only [edit, List.map_cons, List.map_nil, if_neg hne, if_true]

/-- The form of the page goes to `save`. -/
theorem submission_viewForm (view : CategoryView) (a b : List Char) :
    submission (viewForm R view) [("id".toList, a), ("name".toList, b)] =
      some (.save (some a) (some b)) := by
  have haction : formTag.attributes.lookup "action".toList = some "/categories".toList := by
    decide
  have hmethod : formTag.attributes.lookup "method".toList = some "post".toList := by decide
  have hne : ("name".toList == "id".toList) = false := by decide
  simp only [submission, viewForm, haction, hmethod, and_self, if_true, List.lookup_cons,
    beq_self_eq_true, hne]

/-- A request of the user who looks at the pages. -/
def submit (p : Platform) (user : JString) (offer : Integer) (t : Table) (call : Call) :
    Response × Table :=
  serve p t ⟨⟨some ⟨user, p.configuration.adminPassword⟩, call⟩, .calm offer⟩

theorem formParam_toString (i : Integer) :
    formParam p (some (Integer.toString i)) = .ok (some i) := by
  simp [formParam, readInteger_toString]

theorem formParam_nil : formParam p (some []) = .ok none := by
  have h : readInteger p.digits [] = some none := rfl
  simp [formParam, h]

theorem form_viewCategory {id : PathSegment} {i : Integer} {n : NameColumn}
    (hi : pathParam p id = .ok (some i)) (hl : t.lookup i = some n) :
    (read p user offer t (.viewCategory id)).form R =
      some (viewForm R ⟨⟨some i, some n.val⟩⟩) := by
  rw [read, serve_viewCategory t _ (authentic_admin p user _) hi]
  simp only [calm_fails, passes_calm, Bool.false_eq_true, if_false, if_true, hl]
  exact form_ok_view R _

theorem form_newCategory :
    (read p user offer t .newCategory).form R = some (viewForm R ⟨.new⟩) := by
  rw [read, serve_newCategory t _ (authentic_admin p user _), if_pos (passes_calm offer _)]
  exact form_ok_view R _

/-- The form post of a row that exists, with a name the column takes. -/
theorem submit_save {i : Integer} {n : NameColumn} (hl : t.lookup i = some n)
    (new : NameColumn) :
    submit p user offer t (.save (some (Integer.toString i)) (some new.val)) =
      (.seeOther "/categories", t.replace i new) := by
  have ht : i ∈ t := mem_of_lookup hl
  have hs : stored t offer ⟨some i, some new.val⟩ = some (.set i new) := by
    simp [stored, toColumn_val, ht]
  rw [submit, serve_save_id t _ (authentic_admin p user _) (formParam_toString i)]
  simp only [calm_fails, Bool.false_eq_true, if_false, if_pos ht, if_pos (passes_calm offer _)]
  rw [show (Env.calm offer).offer = offer from rfl, hs]
  rfl

theorem submit_save_new (ho : offer ∉ t) (new : NameColumn) :
    submit p user offer t (.save (some []) (some new.val)) =
      (.seeOther "/categories", t.insert offer new) := by
  have hs : stored t offer ⟨none, some new.val⟩ = some (.add offer new) := by
    simp [stored, toColumn_val, ho]
  rw [submit, serve_save_new t _ (authentic_admin p user _) formParam_nil,
    if_pos (passes_calm offer _), show (Env.calm offer).offer = offer from rfl, hs]
  rfl

/-- The page of a category decodes to its id and name; submitting it with a new name
renames that row only, submitting it unedited changes nothing; and the page of
`newCategory` submitted with a name adds one row. -/
theorem edit_loop (p : Platform) (user : JString) (offer : Integer) (t : Table) :
    (∀ i n id, t.lookup i = some n → pathParam p id = .ok (some i) →
      ∃ form, (read p user offer t (.viewCategory id)).form R = some form ∧
        form.fields R = [("id".toList, Integer.toString i), ("name".toList, n.val)] ∧
        formParam p (some (Integer.toString i)) = .ok (some i) ∧
        (∀ new : NameColumn, ∃ call,
          submission form (edit "name" new.val (form.fields R)) = some call ∧
          (submit p user offer t call).1.Success ∧
          (submit p user offer t call).2.lookup i = some new ∧
          ∀ j ≠ i, (submit p user offer t call).2.lookup j = t.lookup j) ∧
        ∃ call, submission form (form.fields R) = some call ∧
          (submit p user offer t call).1.Success ∧ (submit p user offer t call).2 = t) ∧
    (offer ∉ t → ∀ new : NameColumn, ∃ form call,
      (read p user offer t .newCategory).form R = some form ∧
      submission form (edit "name" new.val (form.fields R)) = some call ∧
      (submit p user offer t call).1.Success ∧
      AddsOneRow t (submit p user offer t call).2 (some new.val)) := by
  have hsuccess : (Response.seeOther "/categories").Success := by decide
  constructor
  · intro i n id hl hi
    have hfields : (viewForm R ⟨⟨some i, some n.val⟩⟩).fields R =
        [("id".toList, Integer.toString i), ("name".toList, n.val)] := fields_viewForm R _
    have ht : i ∈ t := mem_of_lookup hl
    refine ⟨_, form_viewCategory R hi hl, hfields, formParam_toString i, ?_, ?_⟩
    · intro new
      rw [hfields, edit_name]
      refine ⟨_, submission_viewForm R _ _ _, ?_⟩
      rw [submit_save hl new]
      exact ⟨hsuccess, lookup_replace_self ht, fun j hj => lookup_replace_ne hj⟩
    · rw [hfields]
      refine ⟨_, submission_viewForm R _ _ _, ?_⟩
      rw [submit_save hl n]
      exact ⟨hsuccess, replace_eq_self hl⟩
  · intro ho new
    have hfields : (viewForm R ⟨.new⟩).fields R = [("id".toList, []), ("name".toList, [])] :=
      fields_viewForm R _
    refine ⟨_, .save (some []) (some new.val), form_newCategory R, ?_, ?_⟩
    · rw [hfields, edit_name]
      exact submission_viewForm R _ _ _
    · rw [submit_save_new ho new]
      exact ⟨hsuccess, offer, new, ho, rfl, AList.lookup_insert t,
        fun j hj => AList.lookup_insert_ne hj⟩

/-- A name that looks like markup, a reference and the end of the attribute. -/
theorem edit_loop_markup :
    ∃ form, (read configured [] 2 (EventMachine.final (serve configured) ∅
        [⟨asAdmin (.save none (some ['"', '>', '&', 'l', 't', ';'])), .calm 1⟩])
        (.viewCategory ⟨['1'], by decide⟩)).form namedReferences = some form ∧
      form.fields namedReferences = [("id".toList, Integer.toString 1),
        ("name".toList, ['"', '>', '&', 'l', 't', ';'])] := by
  obtain ⟨form, hform, hfields, -⟩ := (edit_loop namedReferences configured [] 2
    (EventMachine.final (serve configured) ∅
      [⟨asAdmin (.save none (some ['"', '>', '&', 'l', 't', ';'])), .calm 1⟩])).1 1
    ⟨['"', '>', '&', 'l', 't', ';'], by decide⟩ ⟨['1'], by decide⟩ (by decide) (by decide)
  exact ⟨form, hform, hfields⟩

end CategoryService
