import CategoryService.Library.Markup

/-! The text between the tags of a page, the elements it belongs to, and templates with
a part that is repeated for every item of a list. -/
namespace Markup

section Transducer
variable {σ α β : Type} (step : σ → α → List β × σ)

/-- What a machine writes while it reads, and the state it ends in. -/
def run : σ → List α → List β × σ
  | s, [] => ([], s)
  | s, a :: as => ((step s a).1 ++ (run (step s a).2 as).1, (run (step s a).2 as).2)

theorem run_append (s : σ) (u v : List α) :
    run step s (u ++ v) =
      ((run step s u).1 ++ (run step (run step s u).2 v).1, (run step (run step s u).2 v).2) := by
  induction u generalizing s with
  | nil => rfl
  | cons a u ih => simp only [List.cons_append, run, ih, List.append_assoc]

variable {step}

theorem run_then {s s' : σ} {u : List α} {out : List β} (h : run step s u = (out, s'))
    (v : List α) : run step s (u ++ v) = (out ++ (run step s' v).1, (run step s' v).2) := by
  rw [run_append, h]

theorem run_of_state {s s' : σ} {u : List α} (h : (run step s u).2 = s') :
    run step s u = ((run step s u).1, s') := by
  subst h
  rfl

/-- Pieces that each bring the machine back to where it was. -/
theorem run_flatMap {γ : Type} {s : σ} {f : γ → List α} {g : γ → List β}
    (h : ∀ c, run step s (f c) = (g c, s)) (cs : List γ) :
    run step s (cs.flatMap f) = (cs.flatMap g, s) := by
  induction cs with
  | nil => rfl
  | cons c cs ih => rw [List.flatMap_cons, List.flatMap_cons, run_then (h c), ih]

end Transducer

/-- References that do not look like tags either. -/
structure TextReferences extends References where
  noOpen : ∀ c ∈ special, '<' ∉ reference c

theorem open_notMem_escape (R : TextReferences) (s : List Char) :
    '<' ∉ escape R.toReferences s := by
  intro h
  obtain ⟨c, -, hc⟩ := List.mem_flatMap.mp h
  by_cases hs : c ∈ special
  · rw [escapeChar, if_pos hs] at hc
    exact R.noOpen c hs hc
  · rw [escapeChar, if_neg hs, List.mem_singleton] at hc
    exact hs (hc ▸ by decide)

def namedTextReferences : TextReferences where
  toReferences := namedReferences
  noOpen := by
    intro c hc
    simp only [special, List.mem_cons, List.not_mem_nil, or_false] at hc
    obtain rfl | rfl | rfl | rfl := hc <;> decide

/-- Text without references in front of other text. -/
theorem decode_plain (R : References) {u : List Char} (h : '&' ∉ u) (v : List Char) :
    R.decode (u ++ v) = u ++ R.decode v := by
  induction u with
  | nil => rfl
  | cons c u ih =>
    have hc : c ≠ '&' := by
      rintro rfl
      exact h List.mem_cons_self
    have hu : '&' ∉ u := fun hm => h (List.mem_cons_of_mem c hm)
    rw [List.cons_append, R.decodePlain c _ hc, ih hu, List.cons_append]

theorem decode_eq_self (R : References) {u : List Char} (h : '&' ∉ u) : R.decode u = u := by
  have hu := decode_plain R h []
  rwa [R.decodeNil, List.append_nil] at hu

inductive Token where
  | tag (tag : Tag)
  | char (c : Char)
  deriving DecidableEq

/-- One character: the tag it completes, or itself where it is text. -/
def Mode.token : Mode → Char → List Token × Mode
  | .data, c => if c = '<' then ([], .tagName []) else ([.char c], .data)
  | m, c => ((m.next c).1.toList.map .tag, (m.next c).2)

/-- The tags and the text of a page. -/
def tokens (page : List Char) : List Token := (run Mode.token .data page).1

/-- The tag of an element that is open, and the text in it so far. -/
abbrev Open := Option (Tag × List Char)

def Open.read (name : List Char) : Open → Token → List (Tag × List Char) × Open
  | none, .tag tag => ([], if tag.name = name then some (tag, []) else none)
  | none, .char _ => ([], none)
  | some (tag, text), .char c => ([], some (tag, text ++ [c]))
  | some (tag, text), .tag tag' =>
    if tag'.name = '/' :: name then ([(tag, text)], none) else ([], some (tag, text))

/-- The elements of a name, each with the text between its tags. -/
def elements (name : String) (page : List Char) : List (Tag × List Char) :=
  (run (Open.read name.toList) none (tokens page)).1

/-- What a browser shows of the elements of a name. -/
def texts (R : References) (name : String) (page : List Char) : List (List Char) :=
  (elements name page).map fun e => R.decode e.2

/-- The links of a page, each with its address and the text it is shown as. -/
def anchors (R : References) (page : List Char) : List (List Char × List Char) :=
  (elements "a" page).map fun e => (R.decode ((e.1.get "href").getD []), R.decode e.2)

/-- Text without an opening bracket is nothing but text. -/
theorem run_text {s : List Char} (h : '<' ∉ s) :
    run Mode.token .data s = (s.map .char, .data) := by
  induction s with
  | nil => rfl
  | cons c s ih =>
    have hc : c ≠ '<' := by
      rintro rfl
      exact h List.mem_cons_self
    have hs : '<' ∉ s := fun hm => h (List.mem_cons_of_mem c hm)
    simp [run, Mode.token, hc, ih hs]

theorem run_quoted {s : List Char} (h : '"' ∉ s) (tag : Tag) (name value : List Char) :
    run Mode.token (.quoted tag name value) s = ([], .quoted tag name (value ++ s)) := by
  induction s generalizing value with
  | nil => simp [run]
  | cons c s ih =>
    have hc : c ≠ '"' := by
      rintro rfl
      exact h List.mem_cons_self
    have hs : '"' ∉ s := fun hm => h (List.mem_cons_of_mem c hm)
    simp [run, Mode.token, Mode.next, hc, ih hs]

/-- A value up to the end of its tag. -/
theorem run_value {v : List Char} (h : '"' ∉ v) (tag : Tag) (name u s : List Char) :
    run Mode.token (.quoted tag name u) (v ++ '"' :: '>' :: s) =
      (.tag (tag.add name (u ++ v)) :: (run Mode.token .data s).1,
        (run Mode.token .data s).2) := by
  rw [run_then (run_quoted h tag name u), List.nil_append]
  rfl

theorem run_value_slash {v : List Char} (h : '"' ∉ v) (tag : Tag) (name u s : List Char) :
    run Mode.token (.quoted tag name u) (v ++ '"' :: '/' :: '>' :: s) =
      (.tag (tag.add name (u ++ v)) :: (run Mode.token .data s).1,
        (run Mode.token .data s).2) := by
  rw [run_then (run_quoted h tag name u), List.nil_append]
  rfl

theorem read_text (name : List Char) (tag : Tag) (text s : List Char) :
    run (Open.read name) (some (tag, text)) (s.map .char) = ([], some (tag, text ++ s)) := by
  induction s generalizing text with
  | nil => simp [run]
  | cons c s ih => simp [run, Open.read, ih]

/-- Text outside of elements is passed over. -/
theorem read_outside (name s : List Char) :
    run (Open.read name) none (s.map .char) = ([], none) := by
  induction s with
  | nil => rfl
  | cons c s ih => simp [run, Open.read, ih]

def Token.asTag : Token → Option Tag
  | .tag t => some t
  | .char _ => none

theorem tags_token (m : Mode) (c : Char) :
    (m.token c).1.filterMap Token.asTag = (m.next c).1.toList ∧ (m.token c).2 = (m.next c).2 := by
  have htags (tags : List Tag) : (tags.map Token.tag).filterMap Token.asTag = tags := by
    induction tags with
    | nil => rfl
    | cons tag tags ih => simp [Token.asTag, ih]
  cases m with
  | data =>
    by_cases hc : c = '<'
    · simp [Mode.token, Mode.next, hc]
    · simp [Mode.token, Mode.next, Token.asTag, hc]
  | _ => exact ⟨htags _, rfl⟩

/-- Both readers see the same tags. -/
theorem tags_run (m : Mode) (s : List Char) :
    (run Mode.token m s).1.filterMap Token.asTag = (scan m s).1 ∧
      (run Mode.token m s).2 = (scan m s).2 := by
  induction s generalizing m with
  | nil => exact ⟨rfl, rfl⟩
  | cons c s ih =>
    obtain ⟨htags, hmode⟩ := tags_token m c
    obtain ⟨htags', hmode'⟩ := ih (m.next c).2
    simp only [run, scan, List.filterMap_append, htags, hmode, htags', hmode', and_self]

theorem tags_tokens (page : List Char) :
    (tokens page).filterMap Token.asTag = (scan .data page).1 :=
  (tags_run .data page).1

theorem firstForm_skip {u : List Tag} (h : ∀ tag ∈ u, notForm tag = true) (v : List Tag) :
    firstForm (u ++ v) = firstForm v := by
  simp only [firstForm, List.dropWhile_append_of_pos h]

section Blocks
variable {ν μ : Type}

/-- A piece of a template, or pieces rendered once for each item. -/
inductive Block (ν μ : Type) where
  | piece (p : Piece ν)
  | each (items : ν → List μ) (body : List (Piece μ))

def Block.render (R : References) (v : ν) : Block ν μ → List Char
  | .piece p => p.render R v
  | .each items body => (items v).flatMap (Markup.render R body)

def renderBlocks (R : References) (template : List (Block ν μ)) (v : ν) : List Char :=
  template.flatMap (Block.render R v)

end Blocks
end Markup
