import Mathlib.Tactic.Common

/-! Templates that escape what they print, a reader of tags with quoted attributes,
and the form of a page. Neither the template nor the values are fixed. -/
namespace Markup
variable {ν : Type}

def special : List Char := ['&', '<', '>', '"']

/-- Character references on both sides: what the printer writes for a special
character, and how the reader decodes an attribute value. -/
structure References where
  reference : Char → List Char
  decode : List Char → List Char
  noQuote : ∀ c ∈ special, '"' ∉ reference c
  decodeNil : decode [] = []
  decodePlain : ∀ c s, c ≠ '&' → decode (c :: s) = c :: decode s
  decodeReference : ∀ c ∈ special, ∀ s, decode (reference c ++ s) = c :: decode s

section Escape
variable (R : References)

def escapeChar (c : Char) : List Char := if c ∈ special then R.reference c else [c]

def escape (s : List Char) : List Char := s.flatMap (escapeChar R)

theorem decode_escapeChar (c : Char) (s : List Char) :
    R.decode (escapeChar R c ++ s) = c :: R.decode s := by
  by_cases hc : c ∈ special
  · rw [escapeChar, if_pos hc]
    exact R.decodeReference c hc s
  · have hne : c ≠ '&' := by
      rintro rfl
      exact hc (by decide)
    rw [escapeChar, if_neg hc]
    exact R.decodePlain c s hne

/-- What is printed is read back exactly, whatever it looks like. -/
theorem decode_escape (s : List Char) : R.decode (escape R s) = s := by
  induction s with
  | nil => exact R.decodeNil
  | cons c s ih =>
    have h := decode_escapeChar R c (escape R s)
    rw [ih] at h
    simpa [escape] using h

theorem quote_notMem_escape (s : List Char) : '"' ∉ escape R s := by
  intro h
  obtain ⟨c, -, hc⟩ := List.mem_flatMap.mp h
  by_cases hs : c ∈ special
  · rw [escapeChar, if_pos hs] at hc
    exact R.noQuote c hs hc
  · rw [escapeChar, if_neg hs, List.mem_singleton] at hc
    exact hs (hc ▸ by decide)

end Escape

/-- Text with the four named references read. -/
def decodeNamed : List Char → List Char
  | [] => []
  | '&' :: 'a' :: 'm' :: 'p' :: ';' :: s => '&' :: decodeNamed s
  | '&' :: 'l' :: 't' :: ';' :: s => '<' :: decodeNamed s
  | '&' :: 'g' :: 't' :: ';' :: s => '>' :: decodeNamed s
  | '&' :: 'q' :: 'u' :: 'o' :: 't' :: ';' :: s => '"' :: decodeNamed s
  | c :: s => c :: decodeNamed s

/-- The references by name. -/
def namedReferences : References where
  reference c :=
    match c with
    | '&' => ['&', 'a', 'm', 'p', ';']
    | '<' => ['&', 'l', 't', ';']
    | '>' => ['&', 'g', 't', ';']
    | '"' => ['&', 'q', 'u', 'o', 't', ';']
    | c => [c]
  decode := decodeNamed
  noQuote := by
    intro c hc
    simp only [special, List.mem_cons, List.not_mem_nil, or_false] at hc
    obtain rfl | rfl | rfl | rfl := hc <;> decide
  decodeNil := rfl
  decodePlain := by
    intro c s hc
    cases s <;> simp [decodeNamed, hc]
  decodeReference := by
    intro c hc s
    simp only [special, List.mem_cons, List.not_mem_nil, or_false] at hc
    obtain rfl | rfl | rfl | rfl := hc <;> rfl

example : namedReferences.decode (escape namedReferences ['"', '&', 'l', 't', ';']) =
    ['"', '&', 'l', 't', ';'] := by decide

/-- A piece of a template over values of type `ν`: text, or a double-brace tag. -/
inductive Piece (ν : Type) where
  | text (s : String)
  | tag (value : ν → Option (List Char))

def Piece.render (R : References) (v : ν) : Piece ν → List Char
  | .text s => s.toList
  | .tag value => escape R ((value v).getD [])

def render (R : References) (template : List (Piece ν)) (v : ν) : List Char :=
  template.flatMap (Piece.render R v)

structure Tag where
  name : List Char
  attributes : List (List Char × List Char)
  deriving DecidableEq

def Tag.add (tag : Tag) (name value : List Char) : Tag :=
  { tag with attributes := tag.attributes ++ [(name, value)] }

/-- Where the reader stands. An end tag is a tag whose name starts with a slash. -/
inductive Mode where
  | data
  | tagName (name : List Char)
  | beforeAttribute (tag : Tag)
  | attributeName (tag : Tag) (name : List Char)
  | beforeValue (tag : Tag) (name : List Char)
  | quoted (tag : Tag) (name value : List Char)
  | unquoted (tag : Tag) (name value : List Char)
  deriving DecidableEq

def isBlank (c : Char) : Bool := c = ' ' || c = '\t' || c = '\n'

/-- One character: the tag it completes, if any, and the next mode. -/
def Mode.next : Mode → Char → Option Tag × Mode
  | .data, c => (none, if c = '<' then .tagName [] else .data)
  | .tagName name, c =>
    if c = '>' then (some ⟨name, []⟩, .data)
    else (none, if isBlank c then .beforeAttribute ⟨name, []⟩ else .tagName (name ++ [c]))
  | .beforeAttribute tag, c =>
    if c = '>' then (some tag, .data)
    else (none, if isBlank c || c = '/' then .beforeAttribute tag else .attributeName tag [c])
  | .attributeName tag name, c =>
    if c = '>' then (some (tag.add name []), .data)
    else (none,
      if c = '=' then .beforeValue tag name
      else if isBlank c || c = '/' then .beforeAttribute (tag.add name [])
      else .attributeName tag (name ++ [c]))
  | .beforeValue tag name, c =>
    if c = '>' then (some (tag.add name []), .data)
    else (none,
      if c = '"' then .quoted tag name []
      else if isBlank c then .beforeValue tag name
      else .unquoted tag name [c])
  | .quoted tag name value, c =>
    (none, if c = '"' then .beforeAttribute (tag.add name value)
      else .quoted tag name (value ++ [c]))
  | .unquoted tag name value, c =>
    if c = '>' then (some (tag.add name value), .data)
    else (none, if isBlank c then .beforeAttribute (tag.add name value)
      else .unquoted tag name (value ++ [c]))

/-- The tags of a text, and the mode its end is read in. -/
def scan : Mode → List Char → List Tag × Mode
  | m, [] => ([], m)
  | m, c :: s => ((m.next c).1.toList ++ (scan (m.next c).2 s).1, (scan (m.next c).2 s).2)

theorem scan_append (m : Mode) (u v : List Char) :
    scan m (u ++ v) =
      ((scan m u).1 ++ (scan (scan m u).2 v).1, (scan (scan m u).2 v).2) := by
  induction u generalizing m with
  | nil => rfl
  | cons c u ih => simp only [List.cons_append, scan, ih, List.append_assoc]

theorem scan_then {m m' : Mode} {u : List Char} (h : (scan m u).2 = m') (v : List Char) :
    scan m (u ++ v) = ((scan m u).1 ++ (scan m' v).1, (scan m' v).2) := by
  rw [scan_append, h]

/-- Text without a quote cannot leave the value it stands in. -/
theorem scan_quoted (tag : Tag) (name value s : List Char) (h : '"' ∉ s) :
    scan (.quoted tag name value) s = ([], .quoted tag name (value ++ s)) := by
  induction s generalizing value with
  | nil => simp [scan]
  | cons c s ih =>
    have hc : c ≠ '"' := by
      rintro rfl
      exact h List.mem_cons_self
    have hs : '"' ∉ s := fun hm => h (List.mem_cons_of_mem c hm)
    simp [scan, Mode.next, hc, ih _ hs]

/-- A value up to the quote that ends it. -/
theorem scan_value (tag : Tag) (name : List Char) {value : List Char} (h : '"' ∉ value)
    (s : List Char) :
    scan (.quoted tag name []) (value ++ '"' :: s) =
      scan (.beforeAttribute (tag.add name value)) s := by
  have hend : (scan (.quoted tag name []) value).2 = .quoted tag name value := by
    rw [scan_quoted tag name [] value h, List.nil_append]
  rw [scan_then hend, scan_quoted tag name [] value h]
  simp [scan, Mode.next]

@[simp] theorem scan_slash (tag : Tag) (s : List Char) :
    scan (.beforeAttribute tag) ('/' :: s) = scan (.beforeAttribute tag) s := by
  simp [scan, Mode.next]

@[simp] theorem scan_close (tag : Tag) (s : List Char) :
    scan (.beforeAttribute tag) ('>' :: s) = (tag :: (scan .data s).1, (scan .data s).2) := by
  simp [scan, Mode.next]

/-- A page with two values to fill in, the first in a tag that closes itself. -/
theorem scan_two_values {head middle foot v w n m : List Char} {i j : Tag}
    (hhead : (scan .data head).2 = .quoted i n []) (hv : '"' ∉ v)
    (hmiddle : (scan .data middle).2 = .quoted j m []) (hw : '"' ∉ w) :
    (scan .data (head ++ (v ++ '"' :: '/' :: '>' :: (middle ++ (w ++ '"' :: '>' :: foot))))).1 =
      (scan .data head).1 ++
        ((i.add n v :: (scan .data middle).1 ++ [j.add m w]) ++ (scan .data foot).1) := by
  rw [scan_then hhead, scan_value _ _ hv, scan_slash, scan_close, scan_then hmiddle,
    scan_value _ _ hw, scan_close]
  simp

def Tag.get (tag : Tag) (name : String) : Option (List Char) :=
  tag.attributes.lookup name.toList

/-- The raw name and value of an input, where it has a name. -/
def inputOf (tag : Tag) : Option (List Char × List Char) :=
  if tag.name = "input".toList then
    (tag.get "name").map fun name => (name, (tag.get "value").getD [])
  else none

structure Form where
  attributes : List (List Char × List Char)
  inputs : List (List Char × List Char)

def notForm (tag : Tag) : Bool := tag.name ≠ "form".toList
def notFormEnd (tag : Tag) : Bool := tag.name ≠ "/form".toList

theorem notFormEnd_add (tag : Tag) (name value : List Char) :
    notFormEnd (tag.add name value) = notFormEnd tag := rfl

/-- The first form of a page, with its inputs up to its end tag. -/
def firstForm (tags : List Tag) : Option Form :=
  match tags.dropWhile notForm with
  | [] => none
  | form :: rest => some ⟨form.attributes, (rest.takeWhile notFormEnd).filterMap inputOf⟩

theorem firstForm_append {head body foot : List Tag} {form : Tag}
    (hhead : head.dropWhile notForm = [form]) (hbody : ∀ tag ∈ body, notFormEnd tag = true) :
    firstForm (head ++ (body ++ foot)) =
      some ⟨form.attributes, (body ++ foot.takeWhile notFormEnd).filterMap inputOf⟩ := by
  have hdrop : (head ++ (body ++ foot)).dropWhile notForm = form :: (body ++ foot) := by
    rw [List.dropWhile_append, hhead]
    rfl
  have htake : (body ++ foot).takeWhile notFormEnd = body ++ foot.takeWhile notFormEnd :=
    List.takeWhile_append_of_pos hbody
  simp only [firstForm, hdrop, htake]

/-- A text with nothing of a form's inputs or end in it, up to a value to fill in. -/
structure LeadsTo (s : List Char) (input : Tag) (name : List Char) : Prop where
  mode : (scan .data s).2 = .quoted input name []
  noEnd : ∀ tag ∈ (scan .data s).1, notFormEnd tag = true
  noInput : (scan .data s).1.filterMap inputOf = []

/-- The form of a page with two inputs, whatever their values are. -/
theorem firstForm_two_values {head middle foot v w n m : List Char} {form i j : Tag}
    {e e' : List Char × List Char}
    (hform : (scan .data head).1.dropWhile notForm = [form])
    (hhead : (scan .data head).2 = .quoted i n []) (hv : '"' ∉ v)
    (hmiddle : LeadsTo middle j m) (hw : '"' ∉ w)
    (hfoot : ((scan .data foot).1.takeWhile notFormEnd).filterMap inputOf = [])
    (hi : notFormEnd i = true) (hj : notFormEnd j = true)
    (he : inputOf (i.add n v) = some e) (he' : inputOf (j.add m w) = some e') :
    firstForm (scan .data
        (head ++ (v ++ '"' :: '/' :: '>' :: (middle ++ (w ++ '"' :: '>' :: foot))))).1 =
      some ⟨form.attributes, [e, e']⟩ := by
  have hno : ∀ tag ∈ i.add n v :: (scan .data middle).1 ++ [j.add m w],
      notFormEnd tag = true := by
    intro tag htag
    simp only [List.cons_append, List.mem_cons, List.mem_append, List.not_mem_nil, or_false] at htag
    obtain rfl | htag | rfl := htag
    · rw [notFormEnd_add, hi]
    · exact hmiddle.noEnd tag htag
    · rw [notFormEnd_add, hj]
  rw [scan_two_values hhead hv hmiddle.mode hw, firstForm_append hform hno]
  simp [hmiddle.noInput, hfoot, he, he']

/-- The fields a browser holds for a form: names, and values decoded. -/
def Form.fields (R : References) (form : Form) : List (List Char × List Char) :=
  form.inputs.map fun e => (e.1, R.decode e.2)

/-- What the user types into the field of that name. -/
def edit (name : String) (value : List Char) (fields : List (List Char × List Char)) :
    List (List Char × List Char) :=
  fields.map fun e => if e.1 = name.toList then (e.1, value) else e

end Markup
