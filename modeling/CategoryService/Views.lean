import CategoryService.Service
import CategoryService.Library.Markup

/-! The form of `views/category.mustache`, as it is rendered inside `layout.mustache`
and as a browser reads and submits it. -/
namespace CategoryService
open Markup Numeral

/-- `layout.mustache` up to its `content` block. -/
def layoutHead : String :=
  "<!DOCTYPE html PUBLIC \"-//W3C//DTD HTML 4.01 Transitional//EN\" \"http://www.w3.org/TR/html4/loose.dtd\">
<html>
<head>
\t<title>Categories</title>
\t<meta http-equiv=\"Content-Type\" content=\"text/html; charset=UTF-8\">
\t<meta name=\"viewport\" content=\"width=device-width, initial-scale=1.0\">
    <!-- Bootstrap -->
    <link href=\"/assets/css/bootstrap.css\" rel=\"stylesheet\">
\t<link href=\"/assets/css/bootstrap-theme.min.css\" rel=\"stylesheet\">
</head>
<body>
<div class=\"container\">

      <!-- Static navbar -->
      <div class=\"navbar navbar-default\" role=\"navigation\">
        <div class=\"navbar-header\">
          <button type=\"button\" class=\"navbar-toggle\" data-toggle=\"collapse\" data-target=\".navbar-collapse\">
            <span class=\"sr-only\">Toggle navigation</span>
            <span class=\"icon-bar\"></span>
            <span class=\"icon-bar\"></span>
            <span class=\"icon-bar\"></span>
          </button>
          <a class=\"navbar-brand\" href=\"/categories\">Categories</a>
        </div>
      </div>
"

def layoutFoot : String :=
  "
\t<!-- jQuery (necessary for Bootstrap's JavaScript plugins) -->
    <script src=\"https://code.jquery.com/jquery.js\"></script>
    <!-- Include all compiled plugins (below), or include individual files as needed -->
    <script src=\"/assets/js/bootstrap.min.js\"></script>
</body>
</html>"

/-- A template that fills the `content` block of the layout. -/
def layout (content : List (Piece CategoryView)) : List (Piece CategoryView) :=
  .text layoutHead :: content ++ [.text layoutFoot]

/-- `category.mustache` up to its two tags, and after them. -/
def formHead : String :=
  "
<form action=\"/categories\" method=\"post\" role=\"form\">
\t<input type=\"hidden\" name=\"id\" value=\""

def formMiddle : String :=
  "
\t<div class=\"form-group\">
    \t<label for=\"name\">Name</label>
    \t<input type=\"text\" class=\"form-control\" name=\"name\" id=\"name\" placeholder=\"Enter category name\" value=\""

def formFoot : String :=
  "
  \t</div>
  \t
\t<button type=\"submit\" class=\"btn btn-primary\">Submit</button>
\t<button type=\"button\" class=\"btn btn-default\" onClick=\"window.history.back()\">Cancel</button>
</form>
"

def categoryMustache : List (Piece CategoryView) := layout
  [.text formHead, .tag fun view => view.category.id.map Integer.toString,
    .text "\"/>", .text formMiddle, .tag fun view => view.category.name,
    .text "\">", .text formFoot]

/-- The page of a response that carries a `CategoryView`. -/
def Response.page (R : References) (r : Response) : Option (List Char) :=
  match r.entity with
  | .view view => some (render R categoryMustache view)
  | _ => none

/-- The form a browser finds on the page of a response. -/
def Response.form (R : References) (r : Response) : Option Form :=
  (r.page R).bind fun page => firstForm (scan .data page).1

/-- What the browser sends for a form with these fields, if it is one for `save`. -/
def submission (form : Form) (fields : List (List Char × List Char)) : Option Call :=
  if form.attributes.lookup "action".toList = some "/categories".toList ∧
      form.attributes.lookup "method".toList = some "post".toList then
    some (.save (fields.lookup "id".toList) (fields.lookup "name".toList))
  else none

def formTag : Tag :=
  ⟨"form".toList, [("action".toList, "/categories".toList), ("method".toList, "post".toList),
    ("role".toList, "form".toList)]⟩

def idInput : Tag :=
  ⟨"input".toList, [("type".toList, "hidden".toList), ("name".toList, "id".toList)]⟩

def nameInput : Tag :=
  ⟨"input".toList, [("type".toList, "text".toList), ("class".toList, "form-control".toList),
    ("name".toList, "name".toList), ("id".toList, "name".toList),
    ("placeholder".toList, "Enter category name".toList)]⟩

set_option maxRecDepth 8000 in
/-- The text in front of the id leads into the value of the id field, with the form open. -/
theorem scan_head :
    (scan .data (layoutHead.toList ++ formHead.toList)).1.dropWhile notForm = [formTag] ∧
      (scan .data (layoutHead.toList ++ formHead.toList)).2 =
        .quoted idInput "value".toList [] := by
  have hl : layoutHead.toList = _ := String.toList_ofList
  have hf : formHead.toList = _ := String.toList_ofList
  rw [hl, hf]
  decide +kernel

set_option maxRecDepth 8000 in
theorem formMiddle_leadsTo : LeadsTo formMiddle.toList nameInput "value".toList := by
  have hm : formMiddle.toList = _ := String.toList_ofList
  rw [hm]
  exact ⟨by decide +kernel, by decide +kernel, by decide +kernel⟩

set_option maxRecDepth 8000 in
/-- Behind the name nothing is added to the form. -/
theorem scan_foot :
    ((scan .data (formFoot.toList ++ layoutFoot.toList)).1.takeWhile notFormEnd).filterMap
      inputOf = [] := by
  have hf : formFoot.toList = _ := String.toList_ofList
  have hl : layoutFoot.toList = _ := String.toList_ofList
  rw [hf, hl]
  decide +kernel

/-- The two fields of the form, as the page writes them. -/
def idField (R : References) (view : CategoryView) : List Char :=
  escape R ((view.category.id.map Integer.toString).getD [])

def nameField (R : References) (view : CategoryView) : List Char :=
  escape R (view.category.name.getD [])

theorem render_categoryMustache (R : References) (view : CategoryView) :
    render R categoryMustache view =
      (layoutHead.toList ++ formHead.toList) ++ (idField R view ++ ('"' :: '/' :: '>' ::
        (formMiddle.toList ++ (nameField R view ++ ('"' :: '>' ::
          (formFoot.toList ++ layoutFoot.toList)))))) := by
  simp [render, categoryMustache, layout, Piece.render, idField, nameField]

theorem inputOf_id (value : List Char) :
    inputOf (idInput.add "value".toList value) = some ("id".toList, value) := by
  rfl

theorem inputOf_name (value : List Char) :
    inputOf (nameInput.add "value".toList value) = some ("name".toList, value) := by
  rfl

theorem notFormEnd_inputs :
    notFormEnd idInput = true ∧ notFormEnd nameInput = true := by
  decide +kernel

/-- Whatever the category's name is, the page's form has the two fields of the template. -/
theorem firstForm_page (R : References) (view : CategoryView) :
    firstForm (scan .data (render R categoryMustache view)).1 =
      some ⟨formTag.attributes,
        [("id".toList, idField R view), ("name".toList, nameField R view)]⟩ := by
  have hid : '"' ∉ idField R view := quote_notMem_escape R _
  have hname : '"' ∉ nameField R view := quote_notMem_escape R _
  rw [render_categoryMustache]
  exact firstForm_two_values scan_head.1 scan_head.2 hid formMiddle_leadsTo hname scan_foot
    notFormEnd_inputs.1 notFormEnd_inputs.2 (inputOf_id _) (inputOf_name _)

end CategoryService
