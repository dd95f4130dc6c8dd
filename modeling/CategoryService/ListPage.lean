import CategoryService.EditLoop
import CategoryService.Library.Elements

/-! The table of `views/category_list.mustache`, as it is rendered inside
`layout.mustache` and as a browser reads it. -/
namespace CategoryService
open KeyedStore Markup Numeral

/-- `category_list.mustache` up to the section of its rows, the parts of a row, and what
follows the rows. -/
def listHead : String :=
  "
 <h2 id=\"tables-striped\">Categories</h2>
\t  <table class=\"table table-striped\">
\t  \t<tr>
\t  \t\t<th>ID</th>
\t  \t\t<th>Name</th>
\t  \t</tr>
\t"

def rowHead : String :=
  "
\t\t<tr>
\t\t\t<td>"

def rowLink : String :=
  "</td>
\t\t\t<td><a href=\"/categories/"

def rowFoot : String :=
  "</a></td>
\t\t</tr>
\t"

def listFoot : String :=
  "
\t</table>
<form action=\"/categories/new\">\t
\t<button type=\"submit\" class=\"btn btn-primary\">New</button>
</form>
"

def Category.idText (c : Category) : Option JString := c.id.map Integer.toString

def rowPieces : List (Piece Category) :=
  [.text rowHead, .tag Category.idText, .text rowLink, .tag Category.idText, .text "\">",
    .tag Category.name, .text rowFoot]

def categoryListMustache : List (Block CategoryListView Category) :=
  [.piece (.text layoutHead), .piece (.text listHead), .each CategoryListView.commands rowPieces,
    .piece (.text listFoot), .piece (.text layoutFoot)]

/-- The values of a row, as the page writes them. -/
def idCell (R : References) (c : Category) : List Char := escape R (c.idText.getD [])
def nameCell (R : References) (c : Category) : List Char := escape R (c.name.getD [])

theorem render_row (R : References) (c : Category) :
    render R rowPieces c =
      rowHead.toList ++ (idCell R c ++ (rowLink.toList ++ (idCell R c ++ ('"' :: '>' ::
        (nameCell R c ++ rowFoot.toList))))) := by
  simp [render, rowPieces, Piece.render, idCell, nameCell]

theorem render_list (R : References) (view : CategoryListView) :
    renderBlocks R categoryListMustache view =
      (layoutHead.toList ++ listHead.toList) ++ (view.commands.flatMap (render R rowPieces) ++
        (listFoot.toList ++ layoutFoot.toList)) := by
  simp [renderBlocks, categoryListMustache, Block.render, Piece.render]

def cellTag : Tag := ⟨"td".toList, []⟩
def linkTag : Tag := ⟨"a".toList, []⟩

/-- The link of the layout. -/
def brandTag : Tag :=
  ⟨"a".toList, [("class".toList, "navbar-brand".toList), ("href".toList, "/categories".toList)]⟩

def rowHeadTokens : List Token :=
  "\n\t\t".toList.map .char ++ .tag ⟨"tr".toList, []⟩ ::
    ("\n\t\t\t".toList.map .char ++ [.tag cellTag])

def rowLinkTokens : List Token :=
  .tag ⟨"/td".toList, []⟩ :: ("\n\t\t\t".toList.map .char ++ [.tag cellTag])

def rowFootTokens : List Token :=
  .tag ⟨"/a".toList, []⟩ :: .tag ⟨"/td".toList, []⟩ :: ("\n\t\t".toList.map .char ++
    .tag ⟨"/tr".toList, []⟩ :: "\n\t".toList.map .char)

def rowTag (R : References) (c : Category) : Tag :=
  linkTag.add "href".toList ("/categories/".toList ++ idCell R c)

def rowTokens (R : References) (c : Category) : List Token :=
  rowHeadTokens ++ ((idCell R c).map .char ++ (rowLinkTokens ++
    .tag (rowTag R c) :: ((nameCell R c).map .char ++ rowFootTokens)))

theorem run_rowHead : run Mode.token .data rowHead.toList = (rowHeadTokens, .data) := by
  decide +kernel

theorem run_rowLink : run Mode.token .data rowLink.toList =
    (rowLinkTokens, .quoted linkTag "href".toList "/categories/".toList) := by
  decide +kernel

theorem run_rowFoot : run Mode.token .data rowFoot.toList = (rowFootTokens, .data) := by
  decide +kernel

theorem run_row (R : TextReferences) (c : Category) :
    run Mode.token .data (render R.toReferences rowPieces c) =
      (rowTokens R.toReferences c, .data) := by
  have hid : '<' ∉ idCell R.toReferences c := open_notMem_escape R _
  have hid' : '"' ∉ idCell R.toReferences c := quote_notMem_escape R.toReferences _
  have hname : '<' ∉ nameCell R.toReferences c := open_notMem_escape R _
  rw [render_row, run_then run_rowHead, run_then (run_text hid), run_then run_rowLink,
    run_value hid', run_then (run_text hname), run_rowFoot]
  simp [rowTokens, rowTag]

section Cells
variable (R : References) (c : Category) (text : List Char)

theorem read_head_td : run (Open.read "td".toList) none rowHeadTokens =
    ([], some (cellTag, [])) := by
  decide +kernel

theorem read_link_td : run (Open.read "td".toList) (some (cellTag, text)) rowLinkTokens =
    ([(cellTag, text)], some (cellTag, [])) := by
  simp [rowLinkTokens, run, Open.read, cellTag]

theorem read_foot_td : run (Open.read "td".toList) (some (cellTag, text)) rowFootTokens =
    ([(cellTag, text)], none) := by
  simp [rowFootTokens, run, Open.read, cellTag]

theorem read_tag_td : Open.read "td".toList (some (cellTag, [])) (.tag (rowTag R c)) =
    ([], some (cellTag, [])) := rfl

theorem cells_row : run (Open.read "td".toList) none (rowTokens R c) =
    ([(cellTag, idCell R c), (cellTag, nameCell R c)], none) := by
  rw [rowTokens, run_then read_head_td, run_then (read_text _ _ _ _), List.nil_append,
    run_then (read_link_td _), run, read_tag_td, run_then (read_text _ _ _ _), List.nil_append,
    read_foot_td]
  rfl

theorem read_head_a : run (Open.read "a".toList) none rowHeadTokens = ([], none) := by
  decide +kernel

theorem read_link_a : run (Open.read "a".toList) none rowLinkTokens = ([], none) := by
  decide +kernel

theorem read_tag_a : Open.read "a".toList none (.tag (rowTag R c)) =
    ([], some (rowTag R c, [])) := rfl

theorem read_foot_a : run (Open.read "a".toList) (some (rowTag R c, text)) rowFootTokens =
    ([(rowTag R c, text)], none) := by
  simp [rowFootTokens, run, Open.read]

theorem anchors_row : run (Open.read "a".toList) none (rowTokens R c) =
    ([(rowTag R c, nameCell R c)], none) := by
  rw [rowTokens, run_then read_head_a, run_then (read_outside _ _), run_then read_link_a, run,
    read_tag_a, run_then (read_text _ _ _ _), List.nil_append, read_foot_a]
  rfl

end Cells

/-- The tags and the text around the rows. -/
def headTokens : List Token := tokens (layoutHead.toList ++ listHead.toList)
def footTokens : List Token := tokens (listFoot.toList ++ layoutFoot.toList)

section Around

set_option maxRecDepth 8000 in
theorem run_pageHead :
    (run Mode.token .data (layoutHead.toList ++ listHead.toList)).2 = .data ∧
      run (Open.read "td".toList) none headTokens = ([], none) ∧
      run (Open.read "a".toList) none headTokens = ([(brandTag, "Categories".toList)], none) := by
  have hl : layoutHead.toList = _ := String.toList_ofList
  have hf : listHead.toList = _ := String.toList_ofList
  rw [headTokens, hl, hf]
  decide +kernel

set_option maxRecDepth 8000 in
theorem run_pageFoot :
    run (Open.read "td".toList) none footTokens = ([], none) ∧
      run (Open.read "a".toList) none footTokens = ([], none) := by
  have hl : listFoot.toList = _ := String.toList_ofList
  have hf : layoutFoot.toList = _ := String.toList_ofList
  rw [footTokens, hl, hf]
  decide +kernel

end Around

theorem tokens_page (R : TextReferences) (view : CategoryListView) :
    tokens (renderBlocks R.toReferences categoryListMustache view) =
      headTokens ++ (view.commands.flatMap (rowTokens R.toReferences) ++ footTokens) := by
  rw [headTokens, footTokens, render_list, tokens, tokens, tokens,
    run_then (run_of_state run_pageHead.1), run_then (run_flatMap (run_row R) _)]

theorem elements_page (R : TextReferences) (view : CategoryListView) :
    elements "td" (renderBlocks R.toReferences categoryListMustache view) =
        view.commands.flatMap (fun c =>
          [(cellTag, idCell R.toReferences c), (cellTag, nameCell R.toReferences c)]) ∧
      elements "a" (renderBlocks R.toReferences categoryListMustache view) =
        (brandTag, "Categories".toList) :: view.commands.map (fun c =>
          (rowTag R.toReferences c, nameCell R.toReferences c)) := by
  obtain ⟨-, htd, ha⟩ := run_pageHead
  constructor
  · rw [elements, tokens_page, run_then htd,
      run_then (run_flatMap (cells_row R.toReferences) _), run_pageFoot.1]
    simp
  · rw [elements, tokens_page, run_then ha,
      run_then (run_flatMap (anchors_row R.toReferences) _), run_pageFoot.2]
    rw [List.map_eq_flatMap, List.append_nil]
    rfl

/-- The page of a response that carries a `CategoryListView`. -/
def Response.listPage (R : References) (r : Response) : Option (List Char) :=
  match r.entity with
  | .listView view => some (renderBlocks R categoryListMustache view)
  | _ => none

/-- The list page of a table. -/
def listPage (R : References) (t : Table) : List Char :=
  renderBlocks R categoryListMustache ⟨entities t⟩

/-- The address and the text of the links of a list page. -/
def listAnchors (t : Table) : List (List Char × List Char) :=
  ("/categories".toList, "Categories".toList) ::
    t.entries.map fun e => ("/categories/".toList ++ Integer.toString e.1, e.2.val)

section Shown
variable (R : TextReferences) (t : Table)

theorem decode_idCell (i : Integer) (name : Option JString) :
    R.decode (idCell R.toReferences ⟨some i, name⟩) = Integer.toString i :=
  decode_escape R.toReferences _

theorem decode_nameCell (id : Option Integer) (name : JString) :
    R.decode (nameCell R.toReferences ⟨id, some name⟩) = name :=
  decode_escape R.toReferences _

theorem href_rowTag (i : Integer) (name : Option JString) :
    R.decode (((rowTag R.toReferences ⟨some i, name⟩).get "href").getD []) =
      "/categories/".toList ++ Integer.toString i := by
  have hget : (rowTag R.toReferences ⟨some i, name⟩).get "href" =
      some ("/categories/".toList ++ idCell R.toReferences ⟨some i, name⟩) := by
    simp [rowTag, linkTag, Tag.add, Tag.get]
  have hplain : '&' ∉ "/categories/".toList := by decide
  rw [hget, Option.getD_some, decode_plain R.toReferences hplain, decode_idCell]

theorem texts_listPage :
    texts R.toReferences "td" (listPage R.toReferences t) =
      t.entries.flatMap fun e => [Integer.toString e.1, e.2.val] := by
  rw [texts, listPage, (elements_page R _).1, entities, List.map_flatMap, List.flatMap_map]
  simp only [List.map_cons, List.map_nil, loadedEntity, decode_idCell, decode_nameCell]

/-- The link of the layout as the browser shows it. -/
theorem brand_anchor (R : References) :
    (R.decode ((brandTag.get "href").getD []), R.decode "Categories".toList) =
      ("/categories".toList, "Categories".toList) := by
  have hhref : (brandTag.get "href").getD [] = "/categories".toList := by decide
  have ha : '&' ∉ "/categories".toList := by decide
  have ht : '&' ∉ "Categories".toList := by decide
  rw [hhref, decode_eq_self R ha, decode_eq_self R ht]

theorem anchors_listPage :
    anchors R.toReferences (listPage R.toReferences t) = listAnchors t := by
  rw [anchors, listPage, (elements_page R _).2, List.map_cons, brand_anchor, entities,
    List.map_map, List.map_map]
  simp only [Function.comp_def, loadedEntity, href_rowTag, decode_nameCell]
  rfl

end Shown

section Form

set_option maxRecDepth 8000 in
theorem head_notForm : ∀ tag ∈ headTokens.filterMap Token.asTag, notForm tag = true := by
  have hl : layoutHead.toList = _ := String.toList_ofList
  have hf : listHead.toList = _ := String.toList_ofList
  rw [headTokens, hl, hf]
  decide +kernel

theorem tags_row (R : References) (c : Category) :
    ∀ tag ∈ (rowTokens R c).filterMap Token.asTag, notForm tag = true := by
  have hchars (s : List Char) : (s.map Token.char).filterMap Token.asTag = [] := by
    simp [Token.asTag]
  have hhead : ∀ tag ∈ rowHeadTokens.filterMap Token.asTag, notForm tag = true := by
    decide +kernel
  have hlink : ∀ tag ∈ rowLinkTokens.filterMap Token.asTag, notForm tag = true := by
    decide +kernel
  have hfoot : ∀ tag ∈ rowFootTokens.filterMap Token.asTag, notForm tag = true := by
    decide +kernel
  have htag : notForm (rowTag R c) = true := rfl
  intro tag hmem
  simp only [rowTokens, List.filterMap_append, List.filterMap_cons, Token.asTag, hchars,
    List.nil_append, List.mem_append, List.mem_cons] at hmem
  obtain hmem | hmem | rfl | hmem := hmem
  · exact hhead tag hmem
  · exact hlink tag hmem
  · exact htag
  · exact hfoot tag hmem

/-- The form under the table. -/
def newForm : Form := ⟨[("action".toList, "/categories/new".toList)], []⟩

set_option maxRecDepth 8000 in
theorem foot_parts :
    (firstForm (footTokens.filterMap Token.asTag)).map (fun f => (f.attributes, f.inputs)) =
      some (newForm.attributes, newForm.inputs) := by
  have hl : listFoot.toList = _ := String.toList_ofList
  have hf : layoutFoot.toList = _ := String.toList_ofList
  rw [footTokens, hl, hf]
  decide +kernel

theorem foot_form : firstForm (footTokens.filterMap Token.asTag) = some newForm := by
  obtain ⟨form, hform, hparts⟩ := Option.map_eq_some_iff.mp foot_parts
  obtain ⟨hattributes, hinputs⟩ := Prod.mk.inj hparts
  obtain ⟨attributes, inputs⟩ := form
  simp only at hattributes hinputs
  rw [hform, hattributes, hinputs]

theorem firstForm_listPage (R : TextReferences) (t : Table) :
    firstForm (scan .data (listPage R.toReferences t)).1 = some newForm := by
  rw [← tags_tokens, listPage, tokens_page, List.filterMap_append, List.filterMap_append,
    firstForm_skip head_notForm, firstForm_skip ?_, foot_form]
  intro tag htag
  obtain ⟨token, hmem, hread⟩ := List.mem_filterMap.mp htag
  obtain ⟨c, -, hmem⟩ := List.mem_flatMap.mp hmem
  exact tags_row R.toReferences c tag (List.mem_filterMap.mpr ⟨token, hmem, hread⟩)

end Form

theorem listAnchors_injective {t t' : Table} (h : listAnchors t = listAnchors t') : t = t' := by
  apply AList.ext
  have hrows := (List.cons.inj h).2
  refine List.map_injective_iff.mpr ?_ hrows
  rintro ⟨i, n⟩ ⟨j, m⟩ he
  obtain ⟨hi, hn⟩ := Prod.mk.inj he
  have hij : i = j := by
    have hs := List.append_cancel_left hi
    have hread := readInteger_toString asciiReader i
    rw [hs, readInteger_toString] at hread
    exact (Option.some.inj (Option.some.inj hread)).symm
  have hnm : n = m := Subtype.ext hn
  rw [hij, hnm]

/-- The list page shows the rows of the table, each with its id and its name, exactly as
they are stored and in the order of the JSON list, whatever is in the names. No two tables
have the same page. -/
theorem list_page_rows (R : TextReferences) (p : Platform) (user : JString) (offer : Integer)
    (t : Table) :
    ∃ page, (read p user offer t .listCategories).listPage R.toReferences = some page ∧
      texts R.toReferences "td" page =
        (read p user offer t .listCategoriesJson).pairs.flatMap (fun e =>
          [(e.1.map Integer.toString).getD [], e.2.getD []]) ∧
      anchors R.toReferences page = listAnchors t ∧
      firstForm (scan .data page).1 = some newForm ∧
      ∀ t', (read p user offer t' .listCategories).listPage R.toReferences = some page →
        t' = t := by
  have hpage (t : Table) : (read p user offer t .listCategories).listPage R.toReferences =
      some (listPage R.toReferences t) := by
    rw [read, serve_listCategories t _ (authentic_admin p user _), if_pos (passes_calm offer _)]
    rfl
  refine ⟨listPage R.toReferences t, hpage t, ?_, anchors_listPage R t, firstForm_listPage R t, ?_⟩
  · rw [texts_listPage, read_listJson.2, rowPairs, List.flatMap_map]
    rfl
  · intro t' ht'
    rw [hpage t'] at ht'
    have hanchors := anchors_listPage R t'
    rw [Option.some.inj ht', anchors_listPage] at hanchors
    exact (listAnchors_injective hanchors).symm

/-- A name with markup in it is text in its cell and in its link. -/
theorem list_page_rows_markup :
    ∃ page, (read configured [] 2 ((∅ : Table).insert 1 ⟨['<', 'b', '>', '&'], by decide⟩)
        .listCategories).listPage namedTextReferences.toReferences = some page ∧
      texts namedTextReferences.toReferences "td" page = [['1'], ['<', 'b', '>', '&']] ∧
      anchors namedTextReferences.toReferences page =
        [("/categories".toList, "Categories".toList),
          ("/categories/1".toList, ['<', 'b', '>', '&'])] := by
  obtain ⟨page, hpage, htexts, hanchors, -⟩ := list_page_rows namedTextReferences configured [] 2
    ((∅ : Table).insert 1 ⟨['<', 'b', '>', '&'], by decide⟩)
  refine ⟨page, hpage, htexts.trans ?_, hanchors.trans (by decide)⟩
  rw [read_listJson.2]
  decide

end CategoryService
